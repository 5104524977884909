import SwifCodec.Rlc.DecoderRuns
import SwifCodec.FullSymbolSet.Frame

/-!
The capacity of the coefficient table of a decoder.

The table is allocated once, with `symbol_size` cells when `reset_coding_window`
is the first to need it and with `max_coding_window_size` cells when
`generate_coding_coefs` is; it is then used by both, and read by the decoding of
repair symbols, each time with a length of its own. `coefTab_fault_iff_of_run`
says which calls overrun it.
-/

namespace SwifCodec

open Library Gf256

/-- The size of the block that the calls allocate for `coef_tab`. -/
def coefTabSize (n w : ℕ) : List DecoderCall → Option ℕ
  | [] => none
  | .resetCodingWindow :: _ => some n
  | .generateCodingCoefs _ _ _ :: _ => some w
  | _ :: calls => coefTabSize n w calls

/-- What the call writes or reads of a table with `cells` cells is inside it, if the
call gets past its assertions: the reset clears `symbol_size` cells, the generator
writes the number of coefficients it is asked for, cast to `uint16_t`, and a repair
symbol takes one coefficient for each identifier of its window. -/
def DecoderCall.CoefTabFits (cells : Option ℕ) (dec : Decoder) : DecoderCall → Prop
  | .resetCodingWindow => dec.symbolSize ≤ cells.getD dec.symbolSize
  | .generateCodingCoefs _ dt _ => dec.nbId ≤ dec.maxCodingWindowSize → dt ≤ 15 →
      dec.nbId % 65536 ≤ cells.getD dec.maxCodingWindowSize
  | .decodeWithNewRepairSymbol _ => HeaderOk dec.firstId dec.nbId → dec.nbId ≤ cells.getD 0
  | _ => True

section Step

variable {dec dec' : Decoder} {call : DecoderCall} {out : List DecodedSourceSymbol}

theorem decodeFullSymbol_spares (s : FullSymbol) : Spares .coefTab (decodeFullSymbol dec s) := by
  unfold decodeFullSymbol
  refine .bind (fullSymbolAddWithElimination_spares _ _) fun _ => .bind (.mapM ?_ _) fun _ => .ok _
  intro e fault
  rcases rlcDecoderNotifyDecoded_fault fault with eq | eq <;> cases eq

/-- The reset overruns a table that is too short. -/
theorem resetCodingWindow_fault_iff :
    swifRlcDecoderResetCodingWindow dec ≠ .error (.outOfBounds .coefTab) ↔
      dec.symbolSize ≤ (dec.coefTab.map List.length).getD dec.symbolSize := by
  constructor
  · intro spares
    by_contra short
    exact spares (swifRlcDecoderResetCodingWindow_outOfBounds (by omega))
  · intro fits
    obtain ⟨coef, eq, -⟩ := swifRlcDecoderResetCodingWindow_spec fits
    rw [eq]
    nofun

/-- The generator overruns a table that is too short. -/
theorem generateCodingCoefs_fault_iff {key dt : ℕ} {fresh : ℕ → Gf256} :
    swifRlcDecoderGenerateCodingCoefs dec key dt fresh ≠ .error (.outOfBounds .coefTab) ↔
      (dec.nbId ≤ dec.maxCodingWindowSize → dt ≤ 15 →
        dec.nbId % 65536 ≤ (dec.coefTab.map List.length).getD dec.maxCodingWindowSize) := by
  have length := dec.length_coefTab ((List.range dec.maxCodingWindowSize).map fresh)
  rw [List.length_map, List.length_range] at length
  unfold swifRlcDecoderGenerateCodingCoefs
  dsimp only
  generalize dec.coefTab.getD ((List.range dec.maxCodingWindowSize).map fresh) = tab at length ⊢
  rw [← length]
  rcases Nat.lt_or_ge dec.maxCodingWindowSize dec.nbId with exceeds | le
  · refine iff_of_true ?_ fun le => absurd le (by omega)
    rw [generateCodingCoefs_assertion exceeds]
    nofun
  · rcases Nat.lt_or_ge 15 dt with refused | density
    · refine iff_of_true ?_ fun _ density => absurd density (by omega)
      rw [generateCodingCoefs_refused le refused]
      nofun
    · rcases Nat.lt_or_ge tab.length (dec.nbId % 65536) with short | fits
      · rw [generateCodingCoefs_short le density short]
        refine iff_of_false (fun spares => spares rfl) fun holds => ?_
        have fits := holds le density
        omega
      · obtain ⟨cs, -, generate_eq⟩ := generateCodingCoefs_spec le density fits
        rw [generate_eq]
        exact iff_of_true nofun fun _ _ => fits

/-- A repair symbol with a window larger than the table is read past its end. -/
theorem newRepairSymbol_fault_iff {buf : List Gf256} (first : dec.firstId < 4294967296)
    (nb : dec.nbId < 4294967296) :
    newRepairSymbol dec buf ≠ .error (.outOfBounds .coefTab) ↔
      (HeaderOk dec.firstId dec.nbId → dec.nbId ≤ (dec.coefTab.map List.length).getD 0) := by
  have length := dec.length_coefTab []
  unfold newRepairSymbol
  constructor
  · intro spares header
    by_contra short
    exact spares (fullSymbolCreate_outOfBounds header (by rw [length, List.length_nil]; omega))
  · intro fits
    by_cases header : HeaderOk dec.firstId dec.nbId
    · exact fullSymbolCreate_spares (by rw [length]; exact fits header) _ _ _
    · rw [fullSymbolCreate_assertion first nb header]
      nofun

/-- A sequence spares a block exactly when its first part does, if the rest always does. -/
theorem bind_spares_iff {α β : Type} {buffer : Buffer} {x : Exec α} {f : α → Exec β}
    (rest : ∀ a, Spares buffer (f a)) : Spares buffer (x >>= f) ↔ Spares buffer x := by
  refine ⟨fun spares fault => spares ?_, fun spares => spares.bind rest⟩
  rw [fault, error_bind]

/-- A step overruns the table exactly when the table is too short for it. -/
theorem coefTab_fault_iff (first : dec.firstId < 4294967296) (nb : dec.nbId < 4294967296) :
    decoderStep dec call ≠ .error (.outOfBounds .coefTab) ↔
      call.CoefTabFits (dec.coefTab.map List.length) dec := by
  cases call with
  | setCallbackFunctions callback => exact iff_of_true nofun trivial
  | decodeWithNewSourceSymbol buf esi =>
      refine iff_of_true ?_ trivial
      exact Spares.bind (.bind (fullSymbolCreateFromSource_spares _ _ _) fun _ =>
        .bind (fullSymbolCountAllocatedCoef_spares _) fun _ => .ok _) decodeFullSymbol_spares
  | decodeWithNewRepairSymbol buf =>
      exact (bind_spares_iff decodeFullSymbol_spares).trans (newRepairSymbol_fault_iff first nb)
  | resetCodingWindow => exact (bind_spares_iff fun _ => .ok _).trans resetCodingWindow_fault_iff
  | addSourceSymbolToCodingWindow esi =>
      refine iff_of_true ?_ trivial
      refine Spares.bind ?_ fun _ => .ok _
      rw [swifRlcDecoderAddSourceSymbol_spec]
      split
      · nofun
      · split
        · nofun
        · nofun
  | generateCodingCoefs key dt fresh =>
      exact (bind_spares_iff fun _ => .ok _).trans generateCodingCoefs_fault_iff

/-- What a step does to the size of the table. -/
theorem decoderStep_coefTabSize (ok : decoderStep dec call = .ok (dec', out)) :
    dec'.coefTab.map List.length =
      (dec.coefTab.map List.length).or
        (coefTabSize dec.symbolSize dec.maxCodingWindowSize [call]) := by
  cases call with
  | setCallbackFunctions callback =>
      cases ok
      exact Option.or_none.symm
  | decodeWithNewSourceSymbol buf esi =>
      obtain ⟨s, -, decode_eq⟩ := bind_eq_ok.mp ok
      rw [decodeFullSymbol_frame decode_eq]
      exact Option.or_none.symm
  | decodeWithNewRepairSymbol buf =>
      obtain ⟨s, -, decode_eq⟩ := bind_eq_ok.mp ok
      rw [decodeFullSymbol_frame decode_eq]
      exact Option.or_none.symm
  | resetCodingWindow =>
      obtain ⟨d, reset_eq, result⟩ := bind_eq_ok.mp ok
      cases result
      obtain ⟨coef, fill_eq, result⟩ := bind_eq_ok.mp reset_eq
      cases result
      have length := Block.length_of_store (access_eq_ok.mp fill_eq)
      rw [dec.length_coefTab, List.length_replicate] at length
      show some coef.length = _
      rw [length]
      cases dec.coefTab <;> rfl
  | addSourceSymbolToCodingWindow esi =>
      obtain ⟨⟨d, status⟩, add_eq, result⟩ := bind_eq_ok.mp ok
      cases result
      rw [swifRlcDecoderAddSourceSymbol_of_ok add_eq]
      exact Option.or_none.symm
  | generateCodingCoefs key dt fresh =>
      obtain ⟨⟨d, status⟩, generate_eq, result⟩ := bind_eq_ok.mp ok
      cases result
      obtain ⟨coef, tab_eq, result⟩ := bind_eq_ok.mp generate_eq
      cases result
      have length := length_generateCodingCoefs tab_eq
      rw [dec.length_coefTab, List.length_map, List.length_range] at length
      show some coef.length = _
      rw [length]
      cases dec.coefTab <;> rfl

end Step

theorem coefTabSize_append (n w : ℕ) (calls calls' : List DecoderCall) :
    coefTabSize n w (calls ++ calls') = (coefTabSize n w calls).or (coefTabSize n w calls') := by
  induction calls with
  | nil => exact Option.none_or.symm
  | cons call calls ih =>
      cases call with
      | resetCodingWindow => rfl
      | generateCodingCoefs key dt fresh => rfl
      | _ => exact ih

/-- The table of a run is the one its calls allocate. -/
theorem coefTab_of_run {n w : ℕ} {calls : List DecoderCall} {dec : Decoder}
    {outs : List DecodedSourceSymbol}
    (run : Steps decoderStep (fun _ _ _ => True) (swifRlcDecoderCreate n w) calls dec outs) :
    dec.coefTab.map List.length = coefTabSize n w calls ∧ dec.symbolSize = n ∧
      dec.maxCodingWindowSize = w ∧ dec.firstId < 4294967296 ∧ dec.nbId < 4294967296 := by
  induction run with
  | nil => exact ⟨rfl, rfl, rfl, Nat.succ_pos _, Nat.succ_pos _⟩
  | snoc before ok _ ih =>
      obtain ⟨size, symbols, window, first, nb⟩ := ih
      obtain ⟨window', symbols'⟩ := decoderStep_config ok
      obtain ⟨first', nb'⟩ := decoderStep_window first nb ok
      refine ⟨?_, symbols'.trans symbols, window'.trans window, first', nb'⟩
      rw [decoderStep_coefTabSize ok, size, symbols, window, coefTabSize_append]

/-- In every run, a further call stays inside the coefficient table exactly when the
table has the cells the call uses. -/
theorem coefTab_fault_iff_of_run {n w : ℕ} {calls : List DecoderCall} {dec : Decoder}
    {outs : List DecodedSourceSymbol}
    (run : Steps decoderStep (fun _ _ _ => True) (swifRlcDecoderCreate n w) calls dec outs)
    (call : DecoderCall) :
    decoderStep dec call ≠ .error (.outOfBounds .coefTab) ↔
      call.CoefTabFits (coefTabSize n w calls) dec := by
  obtain ⟨size, -, -, first, nb⟩ := coefTab_of_run run
  rw [← size]
  exact coefTab_fault_iff first nb

theorem coefTab_fault_iff_after_reset :
    ∃ dec outs, Steps decoderStep (fun _ _ _ => True) (swifRlcDecoderCreate 2 2)
        [.resetCodingWindow, .addSourceSymbolToCodingWindow ⟨5, by decide⟩] dec outs ∧
      decoderStep dec (.generateCodingCoefs 1 15 fun _ => 0) ≠ .error (.outOfBounds .coefTab) := by
  obtain ⟨dec, outs, steps, nb⟩ := exists_steps_of_map
    (show (checkedRun decoderStep (fun _ _ _ => True) (swifRlcDecoderCreate 2 2)
      [.resetCodingWindow, .addSourceSymbolToCodingWindow ⟨5, by decide⟩]).map
        (fun r => r.1.nbId) = some 1 by decide +kernel)
  refine ⟨dec, outs, steps, (coefTab_fault_iff_of_run steps _).mpr fun _ _ => ?_⟩
  dsimp only at nb
  rw [nb]
  show 1 % 65536 ≤ 2
  decide

/-- With symbols of one byte and a window of two, the table that the reset allocates has
one cell and the generator writes two. -/
theorem coefTab_overrun :
    ¬ ∀ (n w : ℕ) (calls : List DecoderCall),
      run decoderStep (swifRlcDecoderCreate n w) calls ≠ .error (.outOfBounds .coefTab) := by
  intro inside
  refine inside 1 2 [.resetCodingWindow, .addSourceSymbolToCodingWindow ⟨0, by decide⟩,
    .addSourceSymbolToCodingWindow ⟨1, by decide⟩, .generateCodingCoefs 1 15 fun _ => 0] ?_
  decide +kernel

end SwifCodec
