import SwifCodec.Rlc.EncoderRuns
import SwifCodec.Rlc.Receiver

/-!
An encoder and a decoder connected by a network.

The encoder turns consecutive source symbols into source packets and builds repair
packets at moments of its choice; the network delivers packets in any order, any
number of times or never. A repair packet takes along the header that
`get_coding_window_information` reports and the key and density its coefficients were
generated from, from which the decoder draws the same coefficients.
`delivered_of_run` says when the decoder reports the data that was sent.
-/

namespace SwifCodec

open Library FullSymbol FullSymbolSet Gf256

/-- A repair packet in transit. -/
structure RepairPacket where
  firstId : Nat
  nss : Nat
  key : Nat
  dt : Nat
  symbol : List Gf256
  deriving DecidableEq, Repr

/-- The two ends with the packets sent so far; a source packet is named by its identifier. -/
structure Session where
  enc : Encoder
  dec : Decoder
  sent : List Nat
  repairs : List RepairPacket

/-- What happens next; packets are delivered by their number. -/
inductive SessionCall where
  | addSourceSymbol (esi : ℕ)
  | buildRepairSymbol (key dt : ℕ)
  | deliverSourcePacket (i : ℕ)
  | deliverRepairPacket (i : ℕ)
  deriving DecidableEq, Repr

/-- Both ends are created with the same parameters, and the decoder gets its callback. -/
def sessionCreate (symbolSize maxCodingWindowSize : Nat) : Session where
  enc := swifRlcEncoderCreate symbolSize maxCodingWindowSize
  dec := activeDecoder symbolSize maxCodingWindowSize
  sent := []
  repairs := []

section Steps

variable {n : ℕ} (src : ℕ → Vector Gf256 n)

/-- The encoder generates coefficients and builds a packet from them. -/
def buildRepairPacket (enc : Encoder) (key dt : ℕ) : Exec (Encoder × RepairPacket) := do
  let (enc, _) ← swifRlcEncoderGenerateCodingCoefs enc key dt
  let symbol ← swifRlcBuildRepairSymbol enc
  let (firstId, _, nss) := swifRlcEncoderGetCodingWindowInformation enc
  return (enc, { firstId, nss, key, dt, symbol })

/-- One event of a session. The outputs are the callbacks of the decoder. -/
def sessionStep (s : Session) : SessionCall → Exec (Session × List DecodedSourceSymbol)
  | .addSourceSymbol esi => do
      let (enc, status, _) ←
        swifRlcEncoderAddSourceSymbolToCodingWindow s.enc (src esi).toList esi
      if status = .ok then return ({ s with enc, sent := s.sent ++ [esi] }, [])
      else return ({ s with enc }, [])
  | .buildRepairSymbol key dt => do
      let (enc, packet) ← buildRepairPacket s.enc key dt
      return ({ s with enc, repairs := s.repairs ++ [packet] }, [])
  | .deliverSourcePacket i =>
      match s.sent[i]? with
      | none => .ok (s, [])
      | some esi => do
          let (dec, out) ← swifRlcDecoderDecodeWithNewSourceSymbol s.dec (src esi).toList esi
          return ({ s with dec }, out)
  | .deliverRepairPacket i =>
      match s.repairs[i]? with
      | none => .ok (s, [])
      | some p => do
          let (dec, _, out) ← submitRepairPacket s.dec p.firstId p.nss p.key p.dt p.symbol
          return ({ s with dec }, out)

/-- Source symbols have consecutive identifiers, and densities are 4 bits. -/
def SessionCall.Admissible (s : Session) : SessionCall → Prop
  | .addSourceSymbol esi => s.enc.Accepts esi ∧ esi < invalidEsi
  | .buildRepairSymbol _ dt => dt ≤ 15
  | _ => True

/-- A repair symbol is built while the window of the encoder starts in slot 0 of its ring,
or while the symbols of the window are zero; a packet is delivered while the identifiers
of the decoder's table do not wrap. -/
def SessionCall.Regular (s : Session) : SessionCall → Prop
  | .addSourceSymbol _ => True
  | .buildRepairSymbol _ _ => s.enc.ewLeft = 0 ∨
      ∀ k < (swifRlcEncoderGetCodingWindowInformation s.enc).2.2,
        src ((swifRlcEncoderGetCodingWindowInformation s.enc).1 + k) = Vector.replicate n 0
  | .deliverSourcePacket _ => s.dec.symbolSet.NoWrap
  | .deliverRepairPacket _ => s.dec.symbolSet.NoWrap

instance (s : Session) (call : SessionCall) : Decidable (call.Admissible s) :=
  match call with
  | .addSourceSymbol _ => inferInstanceAs (Decidable (_ ∧ _))
  | .buildRepairSymbol _ _ => inferInstanceAs (Decidable (_ ≤ _))
  | .deliverSourcePacket _ => .isTrue trivial
  | .deliverRepairPacket _ => .isTrue trivial

instance (s : Session) (call : SessionCall) : Decidable (call.Regular src s) :=
  match call with
  | .addSourceSymbol _ => .isTrue trivial
  | .buildRepairSymbol _ _ => inferInstanceAs (Decidable (_ ∨ _))
  | .deliverSourcePacket _ => inferInstanceAs (Decidable (NoWrap _))
  | .deliverRepairPacket _ => inferInstanceAs (Decidable (NoWrap _))

/-- The runs of a session whose steps meet a condition. -/
abbrev SessionRun (meets : Session → SessionCall → Prop) (w : ℕ) :
    List SessionCall → Session → List DecodedSourceSymbol → Prop :=
  Steps (sessionStep src) (fun s call _ => call.Admissible s ∧ meets s call) (sessionCreate n w)

end Steps

/-! ### Packets that say what they carry -/

section Packet

variable {n : ℕ} {src : ℕ → Vector Gf256 n}

/-- The symbol of the packet is the combination that its header stands for, of symbols
that were sent. -/
structure RepairPacket.Sound (src : ℕ → Vector Gf256 n) (sent : List ℕ) (p : RepairPacket) :
    Prop where
  density : p.dt ≤ 15
  nss_lt : p.nss < 65536
  below : 0 < p.nss → p.firstId + p.nss ≤ invalidEsi
  named : ∀ k < p.nss, p.firstId + k ∈ sent
  symbol : ∃ cs, codingCoefficients (p.key % 65536) p.nss p.dt = some cs ∧
    p.symbol = repairData cs src p.firstId

theorem RepairPacket.Sound.mono {sent sent' : List ℕ} {p : RepairPacket} (sound : p.Sound src sent)
    (sub : sent ⊆ sent') : p.Sound src sent' :=
  ⟨sound.density, sound.nss_lt, sound.below, fun k lt => sub (sound.named k lt), sound.symbol⟩

variable {enc enc' : Encoder} {start count key dt : ℕ} {p : RepairPacket}

/-- The encoder generates the coefficients of the header in place. -/
theorem swifRlcEncoderGenerateCodingCoefs_window (win : Window src enc start count)
    (small : enc.maxCodingWindowSize < 65536) (density : dt ≤ 15) {status : SwifStatus}
    (ok : swifRlcEncoderGenerateCodingCoefs enc key dt = .ok (enc', status)) :
    ∃ cs, codingCoefficients (key % 65536) enc.ewSsNb dt = some cs ∧
      enc' = { enc with ccTab := cs ++ enc.ccTab.drop enc.ewSsNb } := by
  have nb := win.ewSsNb
  have ccTab := win.ccTab
  have cast : enc.ewSsNb % 65536 = enc.ewSsNb := Nat.mod_eq_of_lt (by omega)
  obtain ⟨tab, tab_eq, result⟩ := bind_eq_ok.mp ok
  cases result
  have le : enc.ewSsNb ≤ enc.maxCodingWindowSize := by omega
  have fits : enc.ewSsNb % 65536 ≤ enc.ccTab.length := by omega
  obtain ⟨cs, drawn, generate_eq⟩ := generateCodingCoefs_spec le density fits
  rw [generate_eq] at tab_eq
  cases tab_eq
  rw [cast] at drawn ⊢
  exact ⟨cs, drawn, rfl⟩

/-- A repair packet built while the ring is aligned carries what its header says. -/
theorem buildRepairPacket_sound (win : Window src enc start count)
    (small : enc.maxCodingWindowSize < 65536) (density : dt ≤ 15) {sent : List ℕ}
    (named : ∀ j < count, start + j ∈ sent)
    (aligned : enc.ewLeft = 0 ∨ ∀ k < (swifRlcEncoderGetCodingWindowInformation enc).2.2,
      src ((swifRlcEncoderGetCodingWindowInformation enc).1 + k) = Vector.replicate n 0)
    (ok : buildRepairPacket enc key dt = .ok (enc', p)) :
    p.Sound src sent ∧ Window src enc' start count ∧
      enc'.maxCodingWindowSize = enc.maxCodingWindowSize := by
  have nb := win.ewSsNb
  have below := win.below
  obtain ⟨⟨e, status⟩, generate_eq, rest⟩ := bind_eq_ok.mp ok
  obtain ⟨cs, drawn, rfl⟩ :=
    swifRlcEncoderGenerateCodingCoefs_window win small density generate_eq
  have drawn_length := length_codingCoefficients drawn
  have length : (cs ++ enc.ccTab.drop enc.ewSsNb).length = enc.maxCodingWindowSize := by
    rw [List.length_append, List.length_drop, win.ccTab]
    omega
  have win' := win.setCcTab length
  obtain ⟨symbol, symbol_eq, result⟩ := bind_eq_ok.mp rest
  rw [swifRlcBuildRepairSymbol_spec win'] at symbol_eq
  cases symbol_eq
  cases result
  have carries : ∀ first, (0 < count → first = start + (count - enc.ewSsNb)) →
      (enc.ewLeft = 0 ∨ ∀ k < enc.ewSsNb, src (first + k) = Vector.replicate n 0) →
      repairData (((cs ++ enc.ccTab.drop enc.ewSsNb).take enc.ewSsNb).drop enc.ewLeft) src
        (start + (count - enc.ewSsNb)) = repairData cs src first := by
    intro first first_eq in_place
    have taken : (cs ++ enc.ccTab.drop enc.ewSsNb).take enc.ewSsNb = cs :=
      List.take_left' drawn_length
    rcases Nat.eq_zero_or_pos count with none | some_symbol
    · have empty : cs = [] := List.length_eq_zero_iff.mp (by omega)
      rw [taken, empty, List.drop_nil, repairData_nil, repairData_nil]
    · rw [first_eq some_symbol] at in_place ⊢
      have same := (repairData_drop_iff (by omega) win.ewLeft_le).mpr in_place _ length
      rw [same, taken]
  refine ⟨⟨density, ?_, fun some_symbol => ?_, fun k lt => ?_, cs, drawn, ?_⟩, win', rfl⟩
  · show enc.ewSsNb < 65536
    omega
  · have held : 0 < enc.ewSsNb := some_symbol
    show (swifRlcEncoderGetCodingWindowInformation enc).1 + enc.ewSsNb ≤ invalidEsi
    rw [win.information_first (by omega)]
    omega
  · have held : k < enc.ewSsNb := lt
    show (swifRlcEncoderGetCodingWindowInformation enc).1 + k ∈ sent
    rw [win.information_first (by omega), Nat.add_assoc]
    exact named _ (by omega)
  · exact carries _ win.information_first aligned

end Packet

/-! ### What the decoder does with a packet -/

section Deliver

variable {n : ℕ} {src : ℕ → Vector Gf256 n} {ids : Set ℕ} {dec dec' : Decoder}
  {out : List DecodedSourceSymbol}

/-- The coefficient functions on a set of identifiers. -/
noncomputable abbrev namedBy (ids : Set ℕ) : Submodule Gf256 (ℕ →₀ Gf256) :=
  Finsupp.supported Gf256 Gf256 ids

/-- The call submits a symbol on identifiers of the set. -/
def DecoderCall.Names (ids : Set ℕ) (dec : Decoder) : DecoderCall → Prop
  | .decodeWithNewSourceSymbol _ esi => (esi : ℕ) ∈ ids
  | .decodeWithNewRepairSymbol _ => ∀ k < dec.nbId, dec.firstId + k ∈ ids
  | _ => True

theorem submitted_named {call : DecoderCall} {s : FullSymbol} (inv : dec.Invariant)
    (names : call.Names ids dec) (submits : call.submitted dec = some s)
    (nz : fullSymbolIsZero s = false) : s.coefs ∈ namedBy ids := by
  rw [Finsupp.mem_supported']
  intro id other
  cases call with
  | decodeWithNewSourceSymbol buf esi =>
      obtain ⟨-, -, ⟨valid, rfl⟩ | ⟨-, zero⟩⟩ := newSourceSymbol_of_ok (toOption_eq_some.mp submits)
      · have ne : (esi : ℕ) ≠ id := fun eq => other (eq ▸ names)
        rw [sourceSymbol_coefs valid, Finsupp.single_apply, if_neg ne]
      · rw [zero] at nz
        cases nz
  | decodeWithNewRepairSymbol buf =>
      obtain ⟨-, -, -, ⟨coefs, -⟩ | zero⟩ :=
        fullSymbolCreate_of_ok inv.firstId inv.nbId (toOption_eq_some.mp submits)
      · rw [coefs, if_neg]
        rintro ⟨ge, lt⟩
        have inside := names (id - dec.firstId) (by omega)
        rw [Nat.add_sub_cancel' ge] at inside
        exact other inside
      · rw [zero] at nz
        cases nz
  | _ => cases submits

/-- A decoding step on identifiers of a set keeps the rows on them, and reports only them. -/
theorem decoderStep_named {call : DecoderCall} (inv : dec.Invariant)
    (rows : dec.symbolSet.rowSpan ≤ namedBy ids) (ok : decoderStep dec call = .ok (dec', out))
    (names : call.Names ids dec) :
    dec'.symbolSet.rowSpan ≤ namedBy ids ∧ ∀ d ∈ out, d.esi ∈ ids := by
  rcases decoderStep_cases inv ok with
    ⟨same, silent, -⟩ | ⟨s, u, notified, submits, -, el, rfl⟩
  · rw [same, silent]
    exact ⟨rows, nofun⟩
  · have named := submitted_named inv names submits el.nonzero
    have spans : dec.symbolSet.rowSpan ⊔ Submodule.span Gf256 {s.coefs} ≤ namedBy ids :=
      sup_le rows ((Submodule.span_singleton_le_iff_mem _ _).mpr named)
    refine ⟨el.rowSpan_le.trans spans, fun d mem => ?_⟩
    split at mem
    · obtain ⟨e, notified_e, rfl⟩ := List.mem_map.mp mem
      have unit := spans (el.decoded e notified_e).spanned
      by_contra other
      have zero := (Finsupp.mem_supported' _ _).mp unit e.decodedId other
      rw [Finsupp.single_eq_same] at zero
      exact one_ne_zero zero
    · cases mem

/-- What the decoder of a session keeps true between two deliveries. -/
structure Decoder.Faithful (src : ℕ → Vector Gf256 n) (ids : Set ℕ) (dec : Decoder) : Prop where
  set : dec.symbolSet.Invariant
  firstId : dec.firstId < 4294967296
  nbId : dec.nbId < 4294967296
  symbolSize : dec.symbolSize = n
  rows : dec.symbolSet.AllSound src
  named : dec.symbolSet.rowSpan ≤ namedBy ids

theorem Decoder.Faithful.mono {ids' : Set ℕ} (faithful : dec.Faithful src ids)
    (sub : ids ⊆ ids') : dec.Faithful src ids' :=
  { faithful with named := faithful.named.trans (Finsupp.supported_mono sub) }

/-- The callbacks report data that was sent. -/
def Delivers (src : ℕ → Vector Gf256 n) (ids : Set ℕ) (out : List DecodedSourceSymbol) : Prop :=
  ∀ d ∈ out, d.esi ∈ ids ∧ d.newSymbolBuf = (src d.esi).toList

theorem Delivers.mono {ids' : Set ℕ} (delivers : Delivers src ids out) (sub : ids ⊆ ids') :
    Delivers src ids' out :=
  fun d mem => ⟨sub (delivers d mem).1, (delivers d mem).2⟩

/-- A call that carries source data of the identifiers it names. -/
theorem decoderStep_faithful {call : DecoderCall} (faithful : dec.Faithful src ids)
    (wrap : dec.symbolSet.NoWrap) (ok : decoderStep dec call = .ok (dec', out))
    (carries : call.Carries src dec) (names : call.Names ids dec) :
    dec'.Faithful src ids ∧ Delivers src ids out := by
  have inv : dec.Invariant := ⟨faithful.set, wrap, faithful.firstId, faithful.nbId⟩
  obtain ⟨first, nb⟩ := decoderStep_window faithful.firstId faithful.nbId ok
  have size := (decoderStep_config ok).2.trans faithful.symbolSize
  obtain ⟨rows, data⟩ := decoderStep_sound inv faithful.symbolSize faithful.rows ok carries
  obtain ⟨named, esis⟩ := decoderStep_named inv faithful.named ok names
  exact ⟨⟨decoderStep_set inv ok, first, nb, size, rows, named⟩,
    fun d mem => ⟨esis d mem, data d mem⟩⟩

/-- Preparing a window leaves the rows alone. -/
theorem Decoder.Faithful.prepared (faithful : dec.Faithful src ids) (tab : List Gf256)
    {firstId nss : ℕ} (first_lt : firstId < 4294967296) (nss_lt : nss < 4294967296) :
    (dec.prepared tab firstId nss).Faithful src ids :=
  ⟨faithful.set, first_lt, nss_lt, faithful.symbolSize, faithful.rows, faithful.named⟩

/-- A packet that is handled to its end was decoded with the coefficients of its header,
unless its window was refused. -/
theorem submitRepairPacket_of_ok {firstId nss key dt : ℕ} {symbol cs : List Gf256}
    {status : SwifStatus} (density : dt ≤ 15) (nss_lt : nss < 65536)
    (below : 0 < nss → firstId + nss ≤ symbolIdNone)
    (drawn : codingCoefficients (key % 65536) nss dt = some cs)
    (ok : submitRepairPacket dec firstId nss key dt symbol = .ok (dec', status, out)) :
    (∃ tab nb, nb < nss ∧ dec' = dec.prepared tab firstId nb ∧ out = []) ∨
      ∃ tab, 0 < nss ∧ tab.take nss = cs ∧ decoderStep (dec.prepared tab firstId nss)
        (.decodeWithNewRepairSymbol symbol) = .ok (dec', out) := by
  rcases Nat.lt_or_ge ((dec.coefTab.map List.length).getD dec.symbolSize) dec.symbolSize with
    short | reset
  · unfold submitRepairPacket at ok
    rw [swifRlcDecoderResetCodingWindow_outOfBounds short] at ok
    cases ok
  rcases Nat.eq_zero_or_pos nss with rfl | pos
  · obtain ⟨coef, eq⟩ := submitRepairPacket_of_empty firstId key dt symbol reset
    rw [eq, finishRepairPacket_empty density] at ok
    cases ok
  obtain ⟨coef, -, eq⟩ := submitRepairPacket_of_window key dt symbol reset pos (below pos)
  rw [eq] at ok
  by_cases le : nss ≤ dec.maxCodingWindowSize + 1
  · rw [if_pos le] at ok
    obtain ⟨tab, tab_eq, rest⟩ := bind_eq_ok.mp ok
    obtain ⟨⟨d, o⟩, decode_eq, result⟩ := bind_eq_ok.mp rest
    cases result
    refine .inr ⟨tab, pos, ?_, decode_eq⟩
    have cast : nss % 65536 = nss := Nat.mod_eq_of_lt nss_lt
    by_cases in_window : nss ≤ dec.maxCodingWindowSize
    · rcases Nat.lt_or_ge coef.length nss with short | fits
      · rw [generateCodingCoefs_short in_window density (by omega)] at tab_eq
        cases tab_eq
      · obtain ⟨cs', drawn', generate_eq⟩ := generateCodingCoefs_spec in_window density
          (show nss % 65536 ≤ coef.length by omega)
        rw [generate_eq, cast] at tab_eq
        rw [cast, drawn] at drawn'
        cases tab_eq
        cases drawn'
        exact List.take_left' (length_codingCoefficients drawn)
    · rw [generateCodingCoefs_assertion (by omega)] at tab_eq
      cases tab_eq
  · rw [if_neg le] at ok
    cases ok
    exact .inl ⟨coef, _, by omega, rfl, rfl⟩

/-- The delivery of a repair packet that carries what its header says. -/
theorem submitRepairPacket_faithful {sent : List ℕ} {p : RepairPacket} {status : SwifStatus}
    (faithful : dec.Faithful src {id | id ∈ sent}) (wrap : dec.symbolSet.NoWrap)
    (sound : p.Sound src sent)
    (ok : submitRepairPacket dec p.firstId p.nss p.key p.dt p.symbol = .ok (dec', status, out)) :
    dec'.Faithful src {id | id ∈ sent} ∧ Delivers src {id | id ∈ sent} out := by
  have size : symbolIdNone = 4294967295 := rfl
  have nss_lt := sound.nss_lt
  obtain ⟨cs, drawn, symbol⟩ := sound.symbol
  rcases submitRepairPacket_of_ok sound.density nss_lt sound.below drawn ok with
    ⟨tab, nb, lt, rfl, rfl⟩ | ⟨tab, pos, taken, decode_eq⟩
  · have below : p.firstId + p.nss ≤ symbolIdNone := sound.below (by omega)
    exact ⟨faithful.prepared tab (by omega) (by omega), nofun⟩
  · have below : p.firstId + p.nss ≤ symbolIdNone := sound.below pos
    have ready : (dec.prepared tab p.firstId p.nss).Faithful src {id | id ∈ sent} :=
      faithful.prepared tab (by omega) (by omega)
    refine decoderStep_faithful ready wrap decode_eq ?_ sound.named
    show p.symbol = repairData (tab.take p.nss) src p.firstId
    rw [taken, symbol]

end Deliver

/-! ### Runs of a session -/

section Run

variable {n w : ℕ} {src : ℕ → Vector Gf256 n} {ids : Set ℕ} {s s' : Session} {call : SessionCall}
  {calls : List SessionCall} {out outs : List DecodedSourceSymbol}

/-- The invariant of a session between two events. -/
structure Session.Invariant (src : ℕ → Vector Gf256 n) (s : Session) : Prop where
  window : ∃ start count, Window src s.enc start count ∧ ∀ j < count, start + j ∈ s.sent
  small : s.enc.maxCodingWindowSize < 65536
  sent : ∀ esi ∈ s.sent, esi < invalidEsi
  repairs : ∀ p ∈ s.repairs, p.Sound src s.sent
  faithful : s.dec.Faithful src {id | id ∈ s.sent}

theorem sessionCreate_faithful : (sessionCreate n w).dec.Faithful src ids where
  set := fullSymbolSetAlloc_invariant
  firstId := Nat.succ_pos _
  nbId := Nat.succ_pos _
  symbolSize := rfl
  rows := swifRlcDecoderCreate_allSound w
  named := by
    rw [show (sessionCreate n w).dec.symbolSet = fullSymbolSetAlloc from rfl,
      fullSymbolSetAlloc_rowSpan]
    exact bot_le

theorem sessionCreate_invariant (pos : 0 < w) (small : w < 65536) :
    (sessionCreate n w).Invariant src where
  window := ⟨0, 0, swifRlcEncoderCreate_window pos (by omega), fun j lt => absurd lt j.not_lt_zero⟩
  small := small
  sent := nofun
  repairs := nofun
  faithful := sessionCreate_faithful

/-- What an event can do: change the encoder, let the decoder take a packet that was sent,
or nothing. -/
theorem sessionStep_cases (ok : sessionStep src s call = .ok (s', out)) :
    (∃ esi enc status removed, call = .addSourceSymbol esi ∧
      swifRlcEncoderAddSourceSymbolToCodingWindow s.enc (src esi).toList esi =
        .ok (enc, status, removed) ∧ out = [] ∧
      s' = { s with enc, sent := s.sent ++ if status = .ok then [esi] else [] }) ∨
    (∃ key dt enc packet, call = .buildRepairSymbol key dt ∧
      buildRepairPacket s.enc key dt = .ok (enc, packet) ∧ out = [] ∧
      s' = { s with enc, repairs := s.repairs ++ [packet] }) ∨
    (∃ i esi, call = .deliverSourcePacket i ∧ esi ∈ s.sent ∧ ∃ dec,
      swifRlcDecoderDecodeWithNewSourceSymbol s.dec (src esi).toList esi = .ok (dec, out) ∧
      s' = { s with dec }) ∨
    (∃ i p, call = .deliverRepairPacket i ∧ p ∈ s.repairs ∧ ∃ dec status,
      submitRepairPacket s.dec p.firstId p.nss p.key p.dt p.symbol = .ok (dec, status, out) ∧
      s' = { s with dec }) ∨
    (s' = s ∧ out = []) := by
  cases call with
  | addSourceSymbol esi =>
      obtain ⟨⟨enc, status, removed⟩, add_eq, result⟩ := bind_eq_ok.mp ok
      refine .inl ⟨esi, enc, status, removed, rfl, add_eq, ?_⟩
      dsimp only at result
      by_cases accepted : status = .ok
      · rw [if_pos accepted] at result ⊢
        cases result
        exact ⟨rfl, rfl⟩
      · rw [if_neg accepted] at result ⊢
        cases result
        rw [List.append_nil]
        exact ⟨rfl, rfl⟩
  | buildRepairSymbol key dt =>
      obtain ⟨⟨enc, packet⟩, build_eq, result⟩ := bind_eq_ok.mp ok
      cases result
      exact .inr (.inl ⟨key, dt, enc, packet, rfl, build_eq, rfl, rfl⟩)
  | deliverSourcePacket i =>
      unfold sessionStep at ok
      dsimp only at ok
      cases packet : s.sent[i]? with
      | none =>
          rw [packet] at ok
          cases ok
          exact .inr (.inr (.inr (.inr ⟨rfl, rfl⟩)))
      | some esi =>
          rw [packet] at ok
          obtain ⟨⟨dec, o⟩, decode_eq, result⟩ := bind_eq_ok.mp ok
          cases result
          exact .inr (.inr (.inl ⟨i, esi, rfl, List.mem_of_getElem? packet, dec, decode_eq, rfl⟩))
  | deliverRepairPacket i =>
      unfold sessionStep at ok
      dsimp only at ok
      cases packet : s.repairs[i]? with
      | none =>
          rw [packet] at ok
          cases ok
          exact .inr (.inr (.inr (.inr ⟨rfl, rfl⟩)))
      | some p =>
          rw [packet] at ok
          obtain ⟨⟨dec, status, o⟩, submit_eq, result⟩ := bind_eq_ok.mp ok
          cases result
          exact .inr (.inr (.inr (.inl
            ⟨i, p, rfl, List.mem_of_getElem? packet, dec, status, submit_eq, rfl⟩)))

/-- No event takes back a source packet. -/
theorem sessionStep_sent (ok : sessionStep src s call = .ok (s', out)) : s.sent ⊆ s'.sent := by
  rcases sessionStep_cases ok with ⟨esi, enc, status, removed, -, -, -, rfl⟩ |
    ⟨key, dt, enc, packet, -, -, -, rfl⟩ | ⟨i, esi, -, -, dec, -, rfl⟩ |
    ⟨i, p, -, -, dec, status, -, rfl⟩ | ⟨rfl, -⟩
  · exact List.subset_append_left _ _
  · exact List.Subset.refl _
  · exact List.Subset.refl _
  · exact List.Subset.refl _
  · exact List.Subset.refl _

/-- An accepted source symbol keeps the invariant. -/
theorem Session.Invariant.addSourceSymbol (inv : s.Invariant src) {esi : ℕ} {enc : Encoder}
    {status : SwifStatus} {removed : List ℕ} (accepts : s.enc.Accepts esi)
    (valid : esi < invalidEsi)
    (ok : swifRlcEncoderAddSourceSymbolToCodingWindow s.enc (src esi).toList esi =
      .ok (enc, status, removed)) :
    Session.Invariant src
      { s with enc, sent := s.sent ++ if status = .ok then [esi] else [] } := by
  obtain ⟨start, count, win, named⟩ := inv.window
  obtain ⟨enc', removed', add_eq, win', size, -⟩ :=
    swifRlcEncoderAddSourceSymbol_window win accepts valid
  have next := win.esi_eq accepts
  rw [add_eq] at ok
  cases ok
  rw [if_pos rfl]
  have sub : s.sent ⊆ s.sent ++ [esi] := List.subset_append_left _ _
  refine ⟨⟨_, _, win', fun j lt => ?_⟩, size ▸ inv.small, fun id mem => ?_,
    fun p mem => (inv.repairs p mem).mono sub, inv.faithful.mono sub⟩
  · rcases Nat.lt_succ_iff_lt_or_eq.mp lt with old | new
    · rw [nextStart, if_neg (by omega)]
      exact sub (named j old)
    · rw [new, ← next]
      exact List.mem_append_right _ List.mem_cons_self
  · rcases List.mem_append.mp mem with old | new
    · exact inv.sent id old
    · rw [List.mem_singleton.mp new]
      exact valid

/-- A repair packet built while the ring is aligned keeps the invariant. -/
theorem Session.Invariant.buildRepairPacket (inv : s.Invariant src) {key dt : ℕ} {enc : Encoder}
    {packet : RepairPacket} (density : dt ≤ 15)
    (aligned : SessionCall.Regular src s (.buildRepairSymbol key dt))
    (ok : SwifCodec.buildRepairPacket s.enc key dt = .ok (enc, packet)) :
    Session.Invariant src { s with enc, repairs := s.repairs ++ [packet] } := by
  obtain ⟨start, count, win, named⟩ := inv.window
  obtain ⟨sound, win', size⟩ := buildRepairPacket_sound win inv.small density named aligned ok
  refine ⟨⟨start, count, win', named⟩, size ▸ inv.small, inv.sent, fun p mem => ?_, inv.faithful⟩
  rcases List.mem_append.mp mem with old | new
  · exact inv.repairs p old
  · rw [List.mem_singleton.mp new]
    exact sound

/-- Every event of a session keeps the invariant and delivers what was sent. -/
theorem sessionStep_invariant (inv : s.Invariant src)
    (ok : sessionStep src s call = .ok (s', out)) (admissible : call.Admissible s)
    (regular : call.Regular src s) :
    s'.Invariant src ∧ Delivers src {id | id ∈ s'.sent} out := by
  rcases sessionStep_cases ok with ⟨esi, enc, status, removed, rfl, add_eq, rfl, rfl⟩ |
    ⟨key, dt, enc, packet, rfl, build_eq, rfl, rfl⟩ | ⟨i, esi, rfl, sent, dec, decode_eq, rfl⟩ |
    ⟨i, p, rfl, sent, dec, status, submit_eq, rfl⟩ | ⟨rfl, rfl⟩
  · exact ⟨inv.addSourceSymbol admissible.1 admissible.2 add_eq, nofun⟩
  · exact ⟨inv.buildRepairPacket admissible regular build_eq, nofun⟩
  · have valid : esi < 4294967296 := (inv.sent esi sent).trans (Nat.lt_succ_self _)
    have step : decoderStep s.dec (.decodeWithNewSourceSymbol (src esi).toList ⟨esi, valid⟩) =
        .ok (dec, out) := decode_eq
    obtain ⟨faithful, delivers⟩ := decoderStep_faithful inv.faithful regular step rfl sent
    exact ⟨⟨inv.window, inv.small, inv.sent, inv.repairs, faithful⟩, delivers⟩
  · obtain ⟨faithful, delivers⟩ :=
      submitRepairPacket_faithful inv.faithful regular (inv.repairs p sent) submit_eq
    exact ⟨⟨inv.window, inv.small, inv.sent, inv.repairs, faithful⟩, delivers⟩
  · exact ⟨inv, nofun⟩

/-- In every run whose steps are regular, each callback reports a source symbol that was
sent, with the data that was sent. -/
theorem delivered_of_run (pos : 0 < w) (small : w ≤ 65535)
    (run : SessionRun src (fun s call => call.Regular src s) w calls s outs) :
    ∀ d ∈ outs, d.esi ∈ s.sent ∧ d.newSymbolBuf = (src d.esi).toList := by
  have delivered : s.Invariant src ∧ Delivers src {id | id ∈ s.sent} outs := by
    induction run with
    | nil => exact ⟨sessionCreate_invariant pos (by omega), nofun⟩
    | snoc _ ok cond ih =>
        obtain ⟨inv, before⟩ := ih
        obtain ⟨inv', now⟩ := sessionStep_invariant inv ok cond.1 cond.2
        refine ⟨inv', fun d mem => ?_⟩
        rcases List.mem_append.mp mem with old | new
        · exact before.mono (sessionStep_sent ok) d old
        · exact now d new
  exact delivered.2

end Run

theorem delivered_after_loss :
    ∃ s outs, SessionRun (fun id => (#v[ofNat id, ofNat 7] : Vector Gf256 2))
        (fun s call => call.Regular (fun id => (#v[ofNat id, ofNat 7] : Vector Gf256 2)) s) 2
        [.addSourceSymbol 5, .addSourceSymbol 6, .buildRepairSymbol 1 15, .deliverSourcePacket 0,
          .deliverRepairPacket 0] s outs ∧
      outs = [⟨bytes [6, 7], 6⟩] ∧
      ∀ d ∈ outs, d.esi ∈ s.sent ∧
        d.newSymbolBuf = (#v[ofNat d.esi, ofNat 7] : Vector Gf256 2).toList := by
  obtain ⟨s, outs, steps, delivered⟩ := exists_steps_of_map
    (show (checkedRun (sessionStep fun id => (#v[ofNat id, ofNat 7] : Vector Gf256 2))
      (fun s call _ => call.Admissible s ∧
        call.Regular (fun id => (#v[ofNat id, ofNat 7] : Vector Gf256 2)) s) (sessionCreate 2 2)
      [.addSourceSymbol 5, .addSourceSymbol 6, .buildRepairSymbol 1 15, .deliverSourcePacket 0,
        .deliverRepairPacket 0]).map (·.2) = some [⟨bytes [6, 7], 6⟩] by decide +kernel)
  exact ⟨s, outs, steps, delivered, delivered_of_run (by decide) (by decide) steps⟩

/-- A repair symbol built after the window of two has moved on to symbols 1 and 2: the
decoder that has symbol 1 reports wrong data for symbol 2. -/
theorem delivered_wrong_after_slide :
    ¬ ∀ (n w : ℕ) (src : ℕ → Vector Gf256 n) (calls : List SessionCall) (s : Session)
        (outs : List DecodedSourceSymbol), 0 < w → w ≤ 65535 →
      SessionRun src (fun _ _ => True) w calls s outs →
      ∀ d ∈ outs, d.esi ∈ s.sent ∧ d.newSymbolBuf = (src d.esi).toList := by
  intro right
  obtain ⟨s, outs, steps, delivered⟩ := exists_steps_of_map
    (show (checkedRun (sessionStep fun id => (#v[ofNat id, ofNat 7] : Vector Gf256 2))
      (fun s call _ => call.Admissible s ∧ True) (sessionCreate 2 2)
      [.addSourceSymbol 0, .addSourceSymbol 1, .addSourceSymbol 2, .buildRepairSymbol 1 15,
        .deliverSourcePacket 1, .deliverRepairPacket 0]).map
          (fun result => decide (∀ d ∈ result.2, d.newSymbolBuf =
            (#v[ofNat d.esi, ofNat 7] : Vector Gf256 2).toList)) = some false by decide +kernel)
  refine of_decide_eq_false delivered fun d mem => ?_
  exact (right 2 2 _ _ s outs (by decide) (by decide) steps d mem).2

end SwifCodec
