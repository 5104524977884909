import SwifCodec.Rlc.EncoderRuns
import SwifCodec.Rlc.CoefTab

/-!
What the status of `generate_coding_coefs` says about the coefficient table.

The return code of `swif_rlc_generate_coding_coefficients` is dropped, and the number
of coefficients is cast to `uint16_t` on the way to it: the status is
`SWIF_STATUS_OK` for a density above 15, where nothing is written, and for a window
of 65536 symbols and more, where the end of the table is not.
`generation_reported_iff_of_run` says when the status is right.
-/

namespace SwifCodec

open Library Gf256

/-- The first `n` entries of the table are the coefficients that the generator defines
for the key and the density. -/
def HoldsCoefs (key dt n : ℕ) (tab : List Gf256) : Prop :=
  ∀ j < n, dt ≤ 15 ∧
    ∃ cs, codingCoefficients (key % 65536) n dt = some cs ∧ tab[j]? = some (cs.getD j 0)

/-- The encoder with other contents of its coefficient table. -/
def Encoder.holding (enc : Encoder) (contents : ℕ → Gf256) : Encoder :=
  { enc with ccTab := (List.range enc.ccTab.length).map contents }

/-- The decoder with other contents of its coefficient table, if it has one. -/
def Decoder.holding (dec : Decoder) (contents : ℕ → Gf256) : Decoder :=
  { dec with coefTab := dec.coefTab.map fun tab => (List.range tab.length).map contents }

/-- A call of the encoder reports success with the coefficients of the key in place, or
reports something else and keeps its table. -/
def Encoder.ReportsGeneration (enc : Encoder) (key dt : ℕ) : Prop :=
  ∃ enc' status, swifRlcEncoderGenerateCodingCoefs enc key dt = .ok (enc', status) ∧
    ((status = .ok ∧ HoldsCoefs key dt enc.ewSsNb enc'.ccTab) ∨
      (status ≠ .ok ∧ enc'.ccTab = enc.ccTab))

/-- The same for a call of the decoder, where a block it allocates has the contents
`fresh`. -/
def Decoder.ReportsGeneration (dec : Decoder) (key dt : ℕ) (fresh : ℕ → Gf256) : Prop :=
  ∃ dec' status, swifRlcDecoderGenerateCodingCoefs dec key dt fresh = .ok (dec', status) ∧
    ((status = .ok ∧ ∃ tab, dec'.coefTab = some tab ∧ HoldsCoefs key dt dec.nbId tab) ∨
      (status ≠ .ok ∧ dec'.coefTab = dec.coefTab))

/-! ### The table after a call -/

section Table

variable {key dt n size limit : ℕ} {table : Buffer} {tab : List Gf256}

theorem holdsCoefs_zero : HoldsCoefs key dt 0 tab := fun _ lt => absurd lt (Nat.not_lt_zero _)

/-- Every coefficient is in place after a call with a valid density, a number of
coefficients that survives the cast, and room for them. -/
theorem generateCodingCoefs_holds (density : dt ≤ 15) (small : n < 65536) (le : n ≤ limit)
    (fits : n ≤ tab.length) :
    ∃ tab', generateCodingCoefs table tab n limit key dt = .ok tab' ∧
      HoldsCoefs key dt n tab' := by
  have cast : n % 65536 = n := Nat.mod_eq_of_lt small
  have room : n % 65536 ≤ tab.length := by rwa [cast]
  have spec : ∃ cs, codingCoefficients (key % 65536) (n % 65536) dt = some cs ∧
      generateCodingCoefs table tab n limit key dt = .ok (cs ++ tab.drop (n % 65536)) :=
    generateCodingCoefs_spec le density room
  rw [cast] at spec
  obtain ⟨cs, drawn, generate_eq⟩ := spec
  have length := length_codingCoefficients drawn
  refine ⟨_, generate_eq, ?_⟩
  intro j lt
  have inside : j < cs.length := by rwa [length]
  refine ⟨density, cs, drawn, ?_⟩
  rw [List.getElem?_append_left inside, List.getD_eq_getElem?_getD]
  simp [inside]

/-- Where the number of coefficients does not survive the cast, some contents of the
table show an entry that was not written. -/
theorem exists_stale (density : dt ≤ 15) (large : 65536 ≤ n) (le : n ≤ limit) :
    ∃ contents : ℕ → Gf256, ∀ tab',
      generateCodingCoefs table ((List.range size).map contents) n limit key dt = .ok tab' →
        ¬ HoldsCoefs key dt n tab' := by
  have skipped : n % 65536 < n := by omega
  obtain ⟨cs, s, drawn, -⟩ :=
    coefficientsFrom_live (tinymt32Init_live (BitVec.ofNat 32 (key % 65536))) dt n
  have defined : codingCoefficients (key % 65536) n dt = some cs := by
    rw [codingCoefficients, drawn]
    rfl
  -- No entry of the table is the coefficient it should become.
  refine ⟨fun _ => cs.getD (n % 65536) 0 + 1, fun tab' generate_eq holds => ?_⟩
  obtain ⟨-, cs', defined', entry⟩ := holds (n % 65536) skipped
  rw [defined] at defined'
  cases defined'
  rcases Nat.lt_or_ge size (n % 65536) with short | fits
  · have short' : ((List.range size).map fun _ => cs.getD (n % 65536) 0 + 1).length <
        n % 65536 := by
      simpa using short
    rw [generateCodingCoefs_short le density short'] at generate_eq
    cases generate_eq
  · have fits' :
        n % 65536 ≤ ((List.range size).map fun _ => cs.getD (n % 65536) 0 + 1).length := by
      simpa using fits
    obtain ⟨front, front_eq, spec⟩ := generateCodingCoefs_spec le density fits'
    rw [spec] at generate_eq
    cases generate_eq
    have length := length_codingCoefficients front_eq
    rw [List.getElem?_append_right (by omega), length, Nat.sub_self, List.getElem?_drop,
      List.getElem?_map] at entry
    obtain ⟨i, -, same⟩ := Option.map_eq_some_iff.mp entry
    exact one_ne_zero (add_eq_left.mp same)

/-- Whatever a table of the given size holds, a call puts the coefficients in place
exactly when there are none, or the density is valid, their number survives the cast
and the table has room. -/
theorem generateCodingCoefs_holds_iff (le : n ≤ limit) :
    (∀ contents : ℕ → Gf256, ∃ tab',
      generateCodingCoefs table ((List.range size).map contents) n limit key dt = .ok tab' ∧
        HoldsCoefs key dt n tab') ↔
      n = 0 ∨ dt ≤ 15 ∧ n < 65536 ∧ n ≤ size := by
  have length : ∀ contents : ℕ → Gf256, ((List.range size).map contents).length = size := by
    intro contents
    rw [List.length_map, List.length_range]
  constructor
  · intro holds
    rcases Nat.eq_zero_or_pos n with none | some_symbol
    · exact .inl none
    right
    have density : dt ≤ 15 := by
      obtain ⟨tab', -, holds'⟩ := holds fun _ => 0
      exact (holds' 0 some_symbol).1
    have small : n < 65536 := by
      by_contra large
      obtain ⟨contents, stale⟩ := exists_stale density (Nat.le_of_not_lt large) le
      obtain ⟨tab', generate_eq, holds'⟩ := holds contents
      exact stale tab' generate_eq holds'
    refine ⟨density, small, ?_⟩
    by_contra short
    obtain ⟨tab', generate_eq, -⟩ := holds fun _ => 0
    rw [generateCodingCoefs_short le density (by rw [length]; omega)] at generate_eq
    cases generate_eq
  · rintro (rfl | ⟨density, small, fits⟩) contents
    · rcases Nat.lt_or_ge 15 dt with refused | density
      · exact ⟨_, generateCodingCoefs_refused le refused, holdsCoefs_zero⟩
      · exact generateCodingCoefs_holds density (by decide) le (Nat.zero_le _)
    · exact generateCodingCoefs_holds density small le (by rwa [length])

end Table

/-! ### The status of one call -/

section Status

variable {n key dt : ℕ} {enc enc' : Encoder} {dec : Decoder}

/-- The status of an encoder is right exactly when the coefficients are in place. -/
theorem Encoder.reportsGeneration_iff {contents : ℕ → Gf256} :
    (enc.holding contents).ReportsGeneration key dt ↔
      ∃ tab', generateCodingCoefs .ccTab ((List.range enc.ccTab.length).map contents) enc.ewSsNb
        enc.maxCodingWindowSize key dt = .ok tab' ∧ HoldsCoefs key dt enc.ewSsNb tab' := by
  constructor
  · rintro ⟨enc', status, generate_eq, right⟩
    obtain ⟨tab', tab_eq, result⟩ := bind_eq_ok.mp generate_eq
    cases result
    rcases right with ⟨-, holds⟩ | ⟨failed, -⟩
    · exact ⟨tab', tab_eq, holds⟩
    · exact absurd rfl failed
  · rintro ⟨tab', tab_eq, holds⟩
    refine ⟨{ enc.holding contents with ccTab := tab' }, .ok, ?_, .inl ⟨rfl, holds⟩⟩
    unfold swifRlcEncoderGenerateCodingCoefs
    exact bind_eq_ok.mpr ⟨tab', tab_eq, rfl⟩

/-- The table a decoder generates into. -/
theorem Decoder.coefTab_holding (contents fresh : ℕ → Gf256) :
    (dec.holding contents).coefTab.getD ((List.range dec.maxCodingWindowSize).map fresh) =
      (List.range ((dec.coefTab.map List.length).getD dec.maxCodingWindowSize)).map
        (if dec.coefTab.isSome then contents else fresh) := by
  unfold Decoder.holding
  cases dec.coefTab with
  | none => rfl
  | some tab => rfl

/-- The same for a decoder. -/
theorem Decoder.reportsGeneration_iff {contents fresh : ℕ → Gf256} :
    (dec.holding contents).ReportsGeneration key dt fresh ↔
      ∃ tab', generateCodingCoefs .coefTab
        ((List.range ((dec.coefTab.map List.length).getD dec.maxCodingWindowSize)).map
          (if dec.coefTab.isSome then contents else fresh)) dec.nbId
        dec.maxCodingWindowSize key dt = .ok tab' ∧ HoldsCoefs key dt dec.nbId tab' := by
  rw [← Decoder.coefTab_holding]
  constructor
  · rintro ⟨dec', status, generate_eq, right⟩
    obtain ⟨tab', tab_eq, result⟩ := bind_eq_ok.mp generate_eq
    cases result
    rcases right with ⟨-, tab, tab_eq', holds⟩ | ⟨failed, -⟩
    · cases tab_eq'
      exact ⟨tab', tab_eq, holds⟩
    · exact absurd rfl failed
  · rintro ⟨tab', tab_eq, holds⟩
    refine ⟨{ dec.holding contents with coefTab := some tab' }, .ok, ?_,
      .inl ⟨rfl, tab', rfl, holds⟩⟩
    unfold swifRlcDecoderGenerateCodingCoefs
    exact bind_eq_ok.mpr ⟨tab', tab_eq, rfl⟩

/-- A call of an encoder keeps the size of its table, and no window outgrows it. -/
theorem encoderStep_ccTab {src : ℕ → Vector Gf256 n} {call : EncoderCall} {removed : List ℕ}
    (ok : encoderStep src enc call = .ok (enc', removed))
    (le : enc.ewSsNb ≤ enc.maxCodingWindowSize) :
    enc'.maxCodingWindowSize = enc.maxCodingWindowSize ∧ enc'.ccTab.length = enc.ccTab.length ∧
      enc'.ewSsNb ≤ enc.maxCodingWindowSize := by
  cases call with
  | setCallbackFunctions callback =>
      cases ok
      exact ⟨rfl, rfl, le⟩
  | addSourceSymbolToCodingWindow esi =>
      obtain ⟨⟨e, status, rem⟩, add_eq, result⟩ := bind_eq_ok.mp ok
      cases result
      rcases swifRlcEncoderAddSourceSymbol_of_ok add_eq with
        ⟨-, rfl, -⟩ | ⟨-, -, -, tab, left, right, rfl⟩
      · exact ⟨rfl, rfl, le⟩
      · refine ⟨rfl, rfl, ?_⟩
        dsimp only
        unfold add32
        split <;> omega
  | setCodingCoefsTab tab nb =>
      obtain ⟨e, set_eq, result⟩ := bind_eq_ok.mp ok
      cases result
      obtain ⟨ccTab, rfl, length⟩ := swifRlcEncoderSetCodingCoefsTab_of_ok set_eq
      exact ⟨rfl, length, le⟩
  | generateCodingCoefs key dt =>
      obtain ⟨⟨e, status⟩, generate_eq, result⟩ := bind_eq_ok.mp ok
      cases result
      obtain ⟨ccTab, rfl, length⟩ := swifRlcEncoderGenerateCodingCoefs_of_ok generate_eq
      exact ⟨rfl, length, le⟩

/-- The table of an encoder has a cell for each symbol of the largest window. -/
theorem ccTab_of_run {w : ℕ} {src : ℕ → Vector Gf256 n} {calls : List EncoderCall}
    {removed : List ℕ} (run : Steps (encoderStep src) (fun _ _ _ => True)
      (swifRlcEncoderCreate n w) calls enc removed) :
    enc.maxCodingWindowSize = w ∧ enc.ccTab.length = w ∧ enc.ewSsNb ≤ w := by
  induction run with
  | nil => exact ⟨rfl, List.length_replicate, Nat.zero_le w⟩
  | snoc _ ok _ ih =>
      obtain ⟨size, length, le⟩ := ih
      obtain ⟨size', length', le'⟩ := encoderStep_ccTab ok (by rwa [size])
      rw [size] at size' le'
      exact ⟨size', length'.trans length, le'⟩

end Status

/-- In every run, and whatever the coefficient table holds, `generate_coding_coefs`
reports what it did exactly when there is no symbol in the window, or the density is
valid and the number of symbols survives the cast; a decoder also needs a table with a
cell for each symbol. -/
theorem generation_reported_iff_of_run (n w key dt : ℕ) :
    (∀ (src : ℕ → Vector Gf256 n) (calls : List EncoderCall) (enc : Encoder)
        (removed : List ℕ), Steps (encoderStep src) (fun _ _ _ => True)
        (swifRlcEncoderCreate n w) calls enc removed →
      ((∀ contents, (enc.holding contents).ReportsGeneration key dt) ↔
        enc.ewSsNb = 0 ∨ dt ≤ 15 ∧ enc.ewSsNb < 65536)) ∧
    ∀ (calls : List DecoderCall) (dec : Decoder) (outs : List DecodedSourceSymbol),
      Steps decoderStep (fun _ _ _ => True) (swifRlcDecoderCreate n w) calls dec outs →
        dec.nbId ≤ w →
      ((∀ contents fresh, (dec.holding contents).ReportsGeneration key dt fresh) ↔
        dec.nbId = 0 ∨
          dt ≤ 15 ∧ dec.nbId < 65536 ∧ dec.nbId ≤ (coefTabSize n w calls).getD w) := by
  constructor
  · intro src calls enc removed run
    obtain ⟨size, length, le⟩ := ccTab_of_run run
    simp only [Encoder.reportsGeneration_iff, size]
    rw [generateCodingCoefs_holds_iff le, length]
    constructor
    · rintro (empty | ⟨density, small, -⟩)
      · exact .inl empty
      · exact .inr ⟨density, small⟩
    · rintro (empty | ⟨density, small⟩)
      · exact .inl empty
      · exact .inr ⟨density, small, le⟩
  · intro calls dec outs run le
    obtain ⟨cells, -, size, -, -⟩ := coefTab_of_run run
    simp only [Decoder.reportsGeneration_iff, size, cells]
    have holds_iff : (∀ contents : ℕ → Gf256, ∃ tab', generateCodingCoefs .coefTab
          ((List.range ((coefTabSize n w calls).getD w)).map contents) dec.nbId w key dt =
            .ok tab' ∧ HoldsCoefs key dt dec.nbId tab') ↔
        dec.nbId = 0 ∨
          dt ≤ 15 ∧ dec.nbId < 65536 ∧ dec.nbId ≤ (coefTabSize n w calls).getD w :=
      generateCodingCoefs_holds_iff le
    rw [← holds_iff]
    constructor
    · intro reports contents
      simpa using reports contents contents
    · intro holds contents fresh
      exact holds _

theorem generation_reported_iff_one_symbol :
    (∃ enc removed, Steps (encoderStep fun _ => (#v[1] : Vector Gf256 1)) (fun _ _ _ => True)
        (swifRlcEncoderCreate 1 2) [.addSourceSymbolToCodingWindow 0] enc removed ∧
      ∀ contents, (enc.holding contents).ReportsGeneration 7 15) ∧
    ∃ dec outs, Steps decoderStep (fun _ _ _ => True) (swifRlcDecoderCreate 1 2)
        [.resetCodingWindow, .addSourceSymbolToCodingWindow ⟨5, by decide⟩] dec outs ∧
      ∀ contents fresh, (dec.holding contents).ReportsGeneration 7 15 fresh := by
  obtain ⟨enc, removed, encoderSteps, nb⟩ := exists_steps_of_map
    (show (checkedRun (encoderStep fun _ => (#v[1] : Vector Gf256 1)) (fun _ _ _ => True)
      (swifRlcEncoderCreate 1 2) [.addSourceSymbolToCodingWindow 0]).map
        (fun r => r.1.ewSsNb) = some 1 by decide +kernel)
  obtain ⟨dec, outs, decoderSteps, nb'⟩ := exists_steps_of_map
    (show (checkedRun decoderStep (fun _ _ _ => True) (swifRlcDecoderCreate 1 2)
      [.resetCodingWindow, .addSourceSymbolToCodingWindow ⟨5, by decide⟩]).map
        (fun r => r.1.nbId) = some 1 by decide +kernel)
  dsimp only at nb nb'
  obtain ⟨encoder_iff, decoder_iff⟩ := generation_reported_iff_of_run 1 2 7 15
  have enough : dec.nbId ≤ (coefTabSize 1 2
      [.resetCodingWindow, .addSourceSymbolToCodingWindow ⟨5, by decide⟩]).getD 2 := by
    rw [nb']
    decide
  exact ⟨⟨enc, removed, encoderSteps,
      (encoder_iff _ _ _ _ encoderSteps).mpr (.inr ⟨le_rfl, by omega⟩)⟩,
    dec, outs, decoderSteps,
    (decoder_iff _ _ _ decoderSteps (by omega)).mpr (.inr ⟨le_rfl, by omega, enough⟩)⟩

/-- With one symbol in the window, a density of 16 leaves the table as it was, and the
status is `SWIF_STATUS_OK`. -/
theorem generation_not_reported :
    ¬ ∀ (n w : ℕ) (src : ℕ → Vector Gf256 n) (calls : List EncoderCall) (enc : Encoder)
        (removed : List ℕ), Steps (encoderStep src) (fun _ _ _ => True)
        (swifRlcEncoderCreate n w) calls enc removed →
      ∀ key dt contents, dt < 256 → (enc.holding contents).ReportsGeneration key dt := by
  intro reports
  obtain ⟨enc, removed, steps, nb⟩ := exists_steps_of_map
    (show (checkedRun (encoderStep fun _ => (#v[1] : Vector Gf256 1)) (fun _ _ _ => True)
      (swifRlcEncoderCreate 1 2) [.addSourceSymbolToCodingWindow 0]).map
        (fun r => r.1.ewSsNb) = some 1 by decide +kernel)
  dsimp only at nb
  obtain ⟨tab', -, holds⟩ := Encoder.reportsGeneration_iff.mp
    (reports 1 2 _ _ enc removed steps 7 16 (fun _ => 0) (by decide))
  have density := (holds 0 (by omega)).1
  omega

end SwifCodec
