import SwifCodec.Rlc.Decoder
import SwifCodec.Library.Run

/-!
Runs of a decoder.

A run is a sequence of API calls that return. A call that decodes submits one full
symbol to the set, so a step of a run leaves the set as it is or is one
elimination (`decoderStep_cases`).
-/

namespace SwifCodec

open Library FullSymbol FullSymbolSet Gf256

/-- `esi_t`. -/
abbrev Esi := {id : ℕ // id < 4294967296}

/-- A call on a decoder. A call of `generate_coding_coefs` comes with the contents of
the block it allocates, if it does. -/
inductive DecoderCall where
  | setCallbackFunctions (decodedSourceSymbolCallback : Bool)
  | decodeWithNewSourceSymbol (newSymbolBuf : List Gf256) (newSymbolEsi : Esi)
  | decodeWithNewRepairSymbol (newSymbolBuf : List Gf256)
  | resetCodingWindow
  | addSourceSymbolToCodingWindow (newSrcSymbolEsi : Esi)
  | generateCodingCoefs (key dt : ℕ) (fresh : ℕ → Gf256)

/-- One call. The outputs are the calls of the application's callback. -/
def decoderStep (dec : Decoder) : DecoderCall → Exec (Decoder × List DecodedSourceSymbol)
  | .setCallbackFunctions callback => .ok (swifRlcDecoderSetCallbackFunctions dec callback, [])
  | .decodeWithNewSourceSymbol buf esi => swifRlcDecoderDecodeWithNewSourceSymbol dec buf esi
  | .decodeWithNewRepairSymbol buf => swifRlcDecoderDecodeWithNewRepairSymbol dec buf
  | .resetCodingWindow => do
      let dec ← swifRlcDecoderResetCodingWindow dec
      return (dec, [])
  | .addSourceSymbolToCodingWindow esi => do
      let (dec, _) ← swifRlcDecoderAddSourceSymbolToCodingWindow dec esi
      return (dec, [])
  | .generateCodingCoefs key dt fresh => do
      let (dec, _) ← swifRlcDecoderGenerateCodingCoefs dec key dt fresh
      return (dec, [])

/-- The full symbol a call submits to the set. -/
def DecoderCall.submitted (dec : Decoder) : DecoderCall → Option FullSymbol
  | .decodeWithNewSourceSymbol buf esi => (newSourceSymbol dec buf esi).toOption
  | .decodeWithNewRepairSymbol buf => (newRepairSymbol dec buf).toOption
  | _ => none

/-- The runs of a decoder in which no set wraps. -/
abbrev DecoderRun (meets : Decoder → DecoderCall → Prop) (start : Decoder) :
    List DecoderCall → Decoder → List DecodedSourceSymbol → Prop :=
  Steps decoderStep (fun dec call dec' => dec'.symbolSet.NoWrap ∧ meets dec call) start

/-- The invariant of a decoder between two calls. -/
structure Decoder.Invariant (dec : Decoder) : Prop where
  set : dec.symbolSet.Invariant
  noWrap : dec.symbolSet.NoWrap
  firstId : dec.firstId < 4294967296
  nbId : dec.nbId < 4294967296

theorem swifRlcDecoderCreate_invariant (n w : ℕ) : (swifRlcDecoderCreate n w).Invariant :=
  ⟨fullSymbolSetAlloc_invariant, fullSymbolSetAlloc_noWrap, Nat.succ_pos _, Nat.succ_pos _⟩

/-- A fresh decoder whose callbacks are set. -/
def activeDecoder (n w : ℕ) : Decoder :=
  swifRlcDecoderSetCallbackFunctions (swifRlcDecoderCreate n w) true

theorem activeDecoder_invariant (n w : ℕ) : (activeDecoder n w).Invariant :=
  have inv := swifRlcDecoderCreate_invariant n w
  ⟨inv.set, inv.noWrap, inv.firstId, inv.nbId⟩

section Submitted

variable {dec : Decoder} {call : DecoderCall} {s : FullSymbol} {buf : List Gf256}

theorem toOption_eq_some {α : Type} {x : Exec α} {a : α} : x.toOption = some a ↔ x = .ok a := by
  cases x <;> simp [Except.toOption]

/-- The full symbol of a source packet. -/
theorem newSourceSymbol_of_ok {esi : Esi} (ok : newSourceSymbol dec buf esi = .ok s) :
    s.WellFormed ∧ dec.symbolSize ≤ buf.length ∧
      ((esi < symbolIdNone ∧ s = sourceSymbol esi (buf.take dec.symbolSize)) ∨
        (esi = symbolIdNone ∧ fullSymbolIsZero s = true)) := by
  obtain ⟨t, create_eq, rest⟩ := bind_eq_ok.mp ok
  obtain ⟨k, -, result⟩ := bind_eq_ok.mp rest
  cases result
  exact fullSymbolCreateFromSource_of_ok esi.2 create_eq

/-- The symbol a call submits is well formed. -/
theorem submitted_wellFormed (inv : dec.Invariant) (submits : call.submitted dec = some s) :
    s.WellFormed := by
  cases call with
  | decodeWithNewSourceSymbol buf esi =>
      exact (newSourceSymbol_of_ok (toOption_eq_some.mp submits)).1
  | decodeWithNewRepairSymbol buf =>
      exact (fullSymbolCreate_of_ok inv.firstId inv.nbId (toOption_eq_some.mp submits)).1
  | _ => cases submits

end Submitted

section Step

variable {dec dec' : Decoder} {call : DecoderCall} {out : List DecodedSourceSymbol}

/-- What a step can do: set the callbacks, submit a symbol, or change the window under
preparation. -/
theorem decoderStep_shape (ok : decoderStep dec call = .ok (dec', out)) :
    (∃ callback, call = .setCallbackFunctions callback ∧ out = [] ∧
      dec' = swifRlcDecoderSetCallbackFunctions dec callback) ∨
    (∃ s, call.submitted dec = some s ∧ decodeFullSymbol dec s = .ok (dec', out)) ∨
    (call.submitted dec = none ∧ out = [] ∧
      ∃ coefTab firstId nbId, dec' = { dec with coefTab, firstId, nbId } ∧
        (dec.firstId < 4294967296 → firstId < 4294967296) ∧
        (dec.nbId < 4294967296 → nbId < 4294967296)) := by
  cases call with
  | setCallbackFunctions callback =>
      cases ok
      exact .inl ⟨callback, rfl, rfl, rfl⟩
  | decodeWithNewSourceSymbol buf esi =>
      obtain ⟨s, create_eq, decode_eq⟩ := bind_eq_ok.mp ok
      exact .inr (.inl ⟨s, toOption_eq_some.mpr create_eq, decode_eq⟩)
  | decodeWithNewRepairSymbol buf =>
      obtain ⟨s, create_eq, decode_eq⟩ := bind_eq_ok.mp ok
      exact .inr (.inl ⟨s, toOption_eq_some.mpr create_eq, decode_eq⟩)
  | resetCodingWindow =>
      obtain ⟨d, reset_eq, result⟩ := bind_eq_ok.mp ok
      cases result
      obtain ⟨coef, -, result⟩ := bind_eq_ok.mp reset_eq
      cases result
      exact .inr (.inr
        ⟨rfl, rfl, _, _, _, rfl, fun _ => Nat.lt_succ_self _, fun _ => Nat.succ_pos _⟩)
  | addSourceSymbolToCodingWindow esi =>
      obtain ⟨⟨d, status⟩, add_eq, result⟩ := bind_eq_ok.mp ok
      cases result
      rw [swifRlcDecoderAddSourceSymbol_of_ok add_eq]
      refine .inr (.inr ⟨rfl, rfl, _, _, _, rfl, fun first => ?_, fun nb => ?_⟩)
      · unfold Decoder.windowStart
        split
        · exact esi.2
        · exact first
      · split
        · exact add32_lt _ _
        · exact nb
  | generateCodingCoefs key dt fresh =>
      obtain ⟨⟨d, status⟩, generate_eq, result⟩ := bind_eq_ok.mp ok
      cases result
      obtain ⟨coef, -, result⟩ := bind_eq_ok.mp generate_eq
      cases result
      exact .inr (.inr ⟨rfl, rfl, _, _, _, rfl, id, id⟩)

/-- A submission only changes the set. -/
theorem decodeFullSymbol_frame {s : FullSymbol} (ok : decodeFullSymbol dec s = .ok (dec', out)) :
    dec' = { dec with symbolSet := dec'.symbolSet } := by
  obtain ⟨⟨set', notified⟩, -, rest⟩ := bind_eq_ok.mp ok
  obtain ⟨outs, -, result⟩ := bind_eq_ok.mp rest
  cases result
  rfl

/-- A step that decodes is redundant or one elimination. -/
theorem decoderStep_cases (inv : dec.Invariant) (ok : decoderStep dec call = .ok (dec', out)) :
    (dec'.symbolSet = dec.symbolSet ∧ out = [] ∧
      ∀ s, call.submitted dec = some s → s.coefs ∈ dec.symbolSet.rowSpan) ∨
    ∃ s n notified, call.submitted dec = some s ∧ s.WellFormed ∧
      Eliminated dec.symbolSet s n dec'.symbolSet notified ∧
      out = if dec.notifyDecodedFunc then notified.map Notification.deliver else [] := by
  rcases decoderStep_shape ok with
    ⟨callback, rfl, rfl, rfl⟩ | ⟨s, submits, decode_eq⟩ | ⟨none, rfl, _, _, _, rfl, -⟩
  · exact .inl ⟨rfl, rfl, nofun⟩
  · have wf := submitted_wellFormed inv submits
    rcases decodeFullSymbol_cases inv.set inv.noWrap wf decode_eq with
      ⟨same, silent, mem⟩ | ⟨n, notified, el, -, delivered⟩
    · refine .inl ⟨by rw [same], silent, fun s' submits' => ?_⟩
      rw [submits] at submits'
      cases submits'
      exact mem
    · exact .inr ⟨s, n, notified, submits, wf, el, delivered⟩
  · refine .inl ⟨rfl, rfl, fun s submits => ?_⟩
    rw [none] at submits
    cases submits

/-- A step keeps the creation parameters. -/
theorem decoderStep_config (ok : decoderStep dec call = .ok (dec', out)) :
    dec'.maxCodingWindowSize = dec.maxCodingWindowSize ∧ dec'.symbolSize = dec.symbolSize := by
  rcases decoderStep_shape ok with
    ⟨callback, -, -, rfl⟩ | ⟨s, -, decode_eq⟩ | ⟨-, -, coefTab, firstId, nbId, rfl, -⟩
  · exact ⟨rfl, rfl⟩
  · rw [decodeFullSymbol_frame decode_eq]
    exact ⟨rfl, rfl⟩
  · exact ⟨rfl, rfl⟩

/-- The window under preparation stays in `uint32_t`. -/
theorem decoderStep_window (first : dec.firstId < 4294967296) (nb : dec.nbId < 4294967296)
    (ok : decoderStep dec call = .ok (dec', out)) :
    dec'.firstId < 4294967296 ∧ dec'.nbId < 4294967296 := by
  rcases decoderStep_shape ok with
    ⟨callback, -, -, rfl⟩ | ⟨s, -, decode_eq⟩ | ⟨-, -, coefTab, firstId, nbId, rfl, first', nb'⟩
  · exact ⟨first, nb⟩
  · rw [decodeFullSymbol_frame decode_eq]
    exact ⟨first, nb⟩
  · exact ⟨first' first, nb' nb⟩

/-- A step keeps the invariant of the set. -/
theorem decoderStep_set (inv : dec.Invariant) (ok : decoderStep dec call = .ok (dec', out)) :
    dec'.symbolSet.Invariant := by
  rcases decoderStep_cases inv ok with ⟨same, -, -⟩ | ⟨s, n, notified, -, -, el, -⟩
  · rw [same]
    exact inv.set
  · exact el.invariant inv.set

/-- A step keeps the invariant, as long as the set does not wrap. -/
theorem decoderStep_invariant (inv : dec.Invariant) (ok : decoderStep dec call = .ok (dec', out))
    (wrap : dec'.symbolSet.NoWrap) : dec'.Invariant :=
  have window := decoderStep_window inv.firstId inv.nbId ok
  ⟨decoderStep_set inv ok, wrap, window.1, window.2⟩

end Step

section Run

variable {meets : Decoder → DecoderCall → Prop} {start dec : Decoder} {calls : List DecoderCall}
  {outs : List DecodedSourceSymbol}

/-- The invariant holds after every run. -/
theorem decoderInvariant_of_run (init : start.Invariant)
    (run : DecoderRun meets start calls dec outs) : dec.Invariant :=
  run.invariant (fun inv ok cond => decoderStep_invariant inv ok cond.1) init

/-- Runs keep the creation parameters. -/
theorem decoderConfig_of_run (run : DecoderRun meets start calls dec outs) :
    dec.maxCodingWindowSize = start.maxCodingWindowSize ∧ dec.symbolSize = start.symbolSize := by
  refine Steps.invariant (I := fun d => d.maxCodingWindowSize = start.maxCodingWindowSize ∧
    d.symbolSize = start.symbolSize) ?_ run ⟨rfl, rfl⟩
  intro dec call dec' out same ok _
  obtain ⟨window, size⟩ := decoderStep_config ok
  exact ⟨window.trans same.1, size.trans same.2⟩

end Run

/-! ### Soundness -/

section Sound

variable {n : ℕ} {src : ℕ → Vector Gf256 n} {dec dec' : Decoder} {call : DecoderCall}
  {out : List DecodedSourceSymbol}

/-- The data of the call is what the source assignment says for its identifiers. -/
def DecoderCall.Carries (src : ℕ → Vector Gf256 n) (dec : Decoder) : DecoderCall → Prop
  | .decodeWithNewSourceSymbol buf esi => buf = (src esi).toList
  | .decodeWithNewRepairSymbol buf =>
      buf = repairData ((dec.coefTab.getD []).take dec.nbId) src dec.firstId
  | _ => True

instance (src : ℕ → Vector Gf256 n) (dec : Decoder) (call : DecoderCall) :
    Decidable (call.Carries src dec) :=
  match call with
  | .setCallbackFunctions _ => .isTrue trivial
  | .decodeWithNewSourceSymbol _ _ => inferInstanceAs (Decidable (_ = _))
  | .decodeWithNewRepairSymbol _ => inferInstanceAs (Decidable (_ = _))
  | .resetCodingWindow => .isTrue trivial
  | .addSourceSymbolToCodingWindow _ => .isTrue trivial
  | .generateCodingCoefs _ _ _ => .isTrue trivial

/-- A submitted symbol with a coefficient is sound. -/
theorem submitted_sound (inv : dec.Invariant) (size : dec.symbolSize = n)
    (carries : call.Carries src dec) {s : FullSymbol} (submits : call.submitted dec = some s)
    (nz : fullSymbolIsZero s = false) : Sound src s := by
  cases call with
  | decodeWithNewSourceSymbol buf esi =>
      have data : buf = (src esi).toList := carries
      obtain ⟨-, -, ⟨valid, rfl⟩ | ⟨-, zero⟩⟩ := newSourceSymbol_of_ok (toOption_eq_some.mp submits)
      · rw [data, size, List.take_of_length_le (by rw [Vector.length_toList])]
        exact sourceSymbol_sound valid
      · rw [zero] at nz
        cases nz
  | decodeWithNewRepairSymbol buf =>
      have data : buf = repairData ((dec.coefTab.getD []).take dec.nbId) src dec.firstId := carries
      obtain ⟨-, cells, -, ⟨coefs, data_eq⟩ | zero⟩ :=
        fullSymbolCreate_of_ok inv.firstId inv.nbId (toOption_eq_some.mp submits)
      · have length : ((dec.coefTab.getD []).take dec.nbId).length = dec.nbId := by
          rw [List.length_take]
          omega
        have same : ∀ i, s.coefs i =
            if dec.firstId ≤ i ∧ i < dec.firstId + ((dec.coefTab.getD []).take dec.nbId).length
            then ((dec.coefTab.getD []).take dec.nbId).getD (i - dec.firstId) 0 else 0 := by
          intro i
          rw [coefs, length]
          refine if_ctx_congr Iff.rfl (fun inside => ?_) fun _ => rfl
          rw [List.getD_eq_getElem?_getD, List.getD_eq_getElem?_getD, List.getElem?_take,
            if_pos (by omega)]
        refine Sound.of_repairData same ?_
        rw [data_eq, data, size, List.take_of_length_le (by rw [length_repairData])]
      · rw [zero] at nz
        cases nz
  | _ => cases submits

/-- A callback delivers the data of its source symbol. -/
theorem Decoded.deliver_data {set set' : FullSymbolSet} {s : FullSymbol} {e : Notification}
    (decoded : Decoded set s set' e) (rows : set.AllSound src) (sound : Sound src s) :
    e.deliver.newSymbolBuf = (src e.deliver.esi).toList := by
  obtain ⟨u, at_id, unit, sound_u⟩ := decoded.row
  show ((e.set.rowAt e.decodedId).map FullSymbol.data).getD [] = (src e.decodedId).toList
  rw [at_id]
  exact (sound_u rows sound).data_of_single unit

/-- A step keeps the rows sound and delivers source data. -/
theorem decoderStep_sound (inv : dec.Invariant) (size : dec.symbolSize = n)
    (rows : dec.symbolSet.AllSound src) (ok : decoderStep dec call = .ok (dec', out))
    (carries : call.Carries src dec) :
    dec'.symbolSet.AllSound src ∧ ∀ d ∈ out, d.newSymbolBuf = (src d.esi).toList := by
  rcases decoderStep_cases inv ok with
    ⟨same, silent, -⟩ | ⟨s, u, notified, submits, -, el, rfl⟩
  · rw [same, silent]
    exact ⟨rows, nofun⟩
  · have sound := submitted_sound inv size carries submits el.nonzero
    refine ⟨el.allSound rows sound, fun d mem => ?_⟩
    split at mem
    · obtain ⟨e, notified_e, rfl⟩ := List.mem_map.mp mem
      exact (el.decoded e notified_e).deliver_data rows sound
    · cases mem

/-- Every run keeps the rows sound and delivers source data. -/
theorem sound_of_run {start : Decoder} {calls : List DecoderCall} {outs : List DecodedSourceSymbol}
    (init : start.Invariant) (size : start.symbolSize = n) (rows : start.symbolSet.AllSound src)
    (run : DecoderRun (fun dec call => call.Carries src dec) start calls dec outs) :
    dec.symbolSet.AllSound src ∧ ∀ d ∈ outs, d.newSymbolBuf = (src d.esi).toList := by
  induction run with
  | nil => exact ⟨rows, nofun⟩
  | snoc before ok cond ih =>
      obtain ⟨rows', delivered⟩ := ih
      have inv := decoderInvariant_of_run init before
      have size' := (decoderConfig_of_run before).2.trans size
      obtain ⟨rows'', delivered'⟩ := decoderStep_sound inv size' rows' ok cond.2
      refine ⟨rows'', fun d mem => ?_⟩
      exact (List.mem_append.mp mem).elim (delivered d) (delivered' d)

theorem swifRlcDecoderCreate_allSound (w : ℕ) :
    (swifRlcDecoderCreate n w).symbolSet.AllSound src := by
  intro id row at_id
  rw [show (swifRlcDecoderCreate n w).symbolSet = fullSymbolSetAlloc from rfl,
    fullSymbolSetAlloc_rowAt] at at_id
  cases at_id

/-- In every run of a fresh decoder on data of a source assignment, each row is the
combination its coefficients name, each callback has delivered the data of its source
symbol, and each notification of a further call finds the row it delivers. -/
theorem decoder_sound_of_run {w : ℕ} {calls : List DecoderCall} {outs : List DecodedSourceSymbol}
    (run : DecoderRun (fun dec call => call.Carries src dec) (swifRlcDecoderCreate n w) calls dec
      outs) :
    (∀ id row, dec.symbolSet.rowAt id = some row → row.data.length = n ∧ ∀ i, row.data.getD i 0 =
      ∑ j ∈ Finset.Icc row.firstId row.lastId, fullSymbolGetCoef row j * (src j).toList.getD i 0) ∧
    (∀ d ∈ outs, d.newSymbolBuf = (src d.esi).toList) ∧
    ∀ (call : DecoderCall) (s : FullSymbol) (set' : FullSymbolSet) (notified : List Notification),
      call.Carries src dec → call.submitted dec = some s →
      fullSymbolAddWithElimination dec.symbolSet s = .ok (set', notified) → set'.NoWrap →
      ∀ e ∈ notified, ∃ row, fullSymbolSetGetPivot e.set e.decodedId = .ok (some row) ∧
        row.data = (src e.decodedId).toList := by
  have init := swifRlcDecoderCreate_invariant n w
  have inv := decoderInvariant_of_run init run
  have size : dec.symbolSize = n := (decoderConfig_of_run run).2
  obtain ⟨rows, delivered⟩ := sound_of_run init rfl (swifRlcDecoderCreate_allSound w) run
  refine ⟨fun id row at_id => ⟨(rows id row at_id).length, fun i => ?_⟩, delivered,
    fun call s set' notified carries submits elim wrap e mem => ?_⟩
  · have ranged := ((inv.set.wellFormed at_id).bounded (inv.set.nonzero at_id)).1
    rw [(rows id row at_id).byte i]
    refine Finset.sum_congr rfl fun j _ => ?_
    rw [ranged.coefs_apply]
    rfl
  · have wf := submitted_wellFormed inv submits
    rcases fullSymbolAddWithElimination_spec inv.set inv.noWrap wf with
      ⟨eq, -⟩ | ⟨-, eq⟩ | ⟨n, set'', notified', eq, el⟩
    · rw [eq] at elim
      cases elim
      cases mem
    · rw [eq] at elim
      cases elim
    · rw [eq] at elim
      cases elim
      have sound := submitted_sound inv size carries submits el.nonzero
      have decoded := el.decoded e mem
      obtain ⟨u, at_id, unit, sound_u⟩ := decoded.row
      refine ⟨u, ?_, (sound_u rows sound).data_of_single unit⟩
      rw [fullSymbolSetGetPivot_spec decoded.tableOk (decoded.noWrap wrap), at_id]

end Sound

theorem decoder_sound_after_loss :
    ∃ dec outs, DecoderRun
        (fun dec call => call.Carries (fun id => (#v[ofNat id, ofNat 7] : Vector Gf256 2)) dec)
        (swifRlcDecoderCreate 2 2)
        [.setCallbackFunctions true, .decodeWithNewSourceSymbol (bytes [5, 7]) ⟨5, by decide⟩,
          .resetCodingWindow, .addSourceSymbolToCodingWindow ⟨5, by decide⟩,
          .addSourceSymbolToCodingWindow ⟨6, by decide⟩, .generateCodingCoefs 1 15 fun _ => 0,
          .decodeWithNewRepairSymbol (bytes [205, 102])] dec outs ∧
      outs = [⟨bytes [6, 7], 6⟩] ∧
      ∀ d ∈ outs, d.newSymbolBuf = (#v[ofNat d.esi, ofNat 7] : Vector Gf256 2).toList := by
  obtain ⟨dec, outs, steps, delivered⟩ := exists_steps_of_map
    (show (checkedRun decoderStep (fun dec call dec' => dec'.symbolSet.NoWrap ∧
        call.Carries (fun id => (#v[ofNat id, ofNat 7] : Vector Gf256 2)) dec)
      (swifRlcDecoderCreate 2 2)
      [.setCallbackFunctions true, .decodeWithNewSourceSymbol (bytes [5, 7]) ⟨5, by decide⟩,
        .resetCodingWindow, .addSourceSymbolToCodingWindow ⟨5, by decide⟩,
        .addSourceSymbolToCodingWindow ⟨6, by decide⟩, .generateCodingCoefs 1 15 fun _ => 0,
        .decodeWithNewRepairSymbol (bytes [205, 102])]).map (·.2) =
      some [⟨bytes [6, 7], 6⟩] by decide +kernel)
  exact ⟨dec, outs, steps, delivered, (decoder_sound_of_run steps).2.1⟩

end SwifCodec
