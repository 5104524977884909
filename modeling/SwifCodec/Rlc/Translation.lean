import SwifCodec.FullSymbolSet.Translation
import SwifCodec.Rlc.DecoderRuns

/-!
Decoding with every identifier moved up by a constant.

`MovedDecoder` relates a decoder to its copy with every identifier moved up. A
call with moved identifiers keeps the relation and delivers the same data for the
moved identifiers (`decoderStep_moved`), under two conditions on the decoder:

* `first_symbol_id + size` does not wrap for either set. Where it does, the upper
  bound of `full_symbol_set_get_pivot` wraps, and no pivot is found;
* a coding window is reset before source symbols are added to it. A decoder that
  was never reset starts the window at identifier 0, wherever the stream is.
-/

namespace SwifCodec

open Library FullSymbol FullSymbolSet Gf256

/-! ### Moving the identifiers of a call -/

/-- An identifier moved up by `t`. -/
def moveEsi (t : ℕ) (esi : Esi) : Esi := ⟨add32 esi t, add32_lt _ _⟩

/-- A call with its identifiers moved up by `t`. -/
def DecoderCall.moved (t : ℕ) : DecoderCall → DecoderCall
  | .decodeWithNewSourceSymbol buf esi => .decodeWithNewSourceSymbol buf (moveEsi t esi)
  | .addSourceSymbolToCodingWindow esi => .addSourceSymbolToCodingWindow (moveEsi t esi)
  | call => call

/-- A callback with its identifier moved up by `t`. -/
def DecodedSourceSymbol.moved (t : ℕ) (d : DecodedSourceSymbol) : DecodedSourceSymbol :=
  { d with esi := d.esi + t }

/-- The identifiers that a call uses are below `SYMBOL_ID_NONE`, also when moved up by `t`.
A repair symbol uses those of the window. -/
def DecoderCall.IdsBelow (t : ℕ) (dec : Decoder) : DecoderCall → Prop
  | .decodeWithNewSourceSymbol _ esi => esi + t < symbolIdNone
  | .decodeWithNewRepairSymbol _ => dec.firstId + dec.nbId + t ≤ symbolIdNone
  | .addSourceSymbolToCodingWindow esi => esi + t < symbolIdNone
  | _ => True

/-- No source symbol is added to the window of a decoder as it was created. -/
def DecoderCall.WindowReset (dec : Decoder) : DecoderCall → Prop
  | .addSourceSymbolToCodingWindow _ => dec.firstId = 0 → dec.nbId ≠ 0
  | _ => True

instance (t : ℕ) (dec : Decoder) (call : DecoderCall) : Decidable (call.IdsBelow t dec) :=
  match call with
  | .setCallbackFunctions _ => .isTrue trivial
  | .decodeWithNewSourceSymbol _ _ => inferInstanceAs (Decidable (_ < _))
  | .decodeWithNewRepairSymbol _ => inferInstanceAs (Decidable (_ ≤ _))
  | .resetCodingWindow => .isTrue trivial
  | .addSourceSymbolToCodingWindow _ => inferInstanceAs (Decidable (_ < _))
  | .generateCodingCoefs _ _ _ => .isTrue trivial

instance (dec : Decoder) (call : DecoderCall) : Decidable (call.WindowReset dec) :=
  match call with
  | .setCallbackFunctions _ => .isTrue trivial
  | .decodeWithNewSourceSymbol _ _ => .isTrue trivial
  | .decodeWithNewRepairSymbol _ => .isTrue trivial
  | .resetCodingWindow => .isTrue trivial
  | .addSourceSymbolToCodingWindow _ => inferInstanceAs (Decidable (_ → _))
  | .generateCodingCoefs _ _ _ => .isTrue trivial

/-- `dec'` is `dec` with every identifier moved up by `t`. -/
structure MovedDecoder (t : ℕ) (dec dec' : Decoder) : Prop where
  maxCodingWindowSize : dec'.maxCodingWindowSize = dec.maxCodingWindowSize
  symbolSize : dec'.symbolSize = dec.symbolSize
  symbolSet : MovedSet t dec.symbolSize dec.symbolSet dec'.symbolSet
  coefTab : dec'.coefTab = dec.coefTab
  /-- The window is not reset, empty after a reset, or moved. -/
  firstId : (dec.firstId = 0 ∧ dec.nbId = 0 ∧ dec'.firstId = 0) ∨
    (dec.firstId = symbolIdNone ∧ dec'.firstId = symbolIdNone) ∨
    (dec'.firstId = dec.firstId + t ∧ dec'.firstId < symbolIdNone)
  nbId : dec'.nbId = dec.nbId
  notifyDecodedFunc : dec'.notifyDecodedFunc = dec.notifyDecodedFunc
  decodedSourceSymbolCallback : dec'.decodedSourceSymbolCallback = dec.decodedSourceSymbolCallback

/-- A fresh decoder has no identifiers. -/
theorem swifRlcDecoderCreate_moved (t n w : ℕ) :
    MovedDecoder t (swifRlcDecoderCreate n w) (swifRlcDecoderCreate n w) where
  maxCodingWindowSize := rfl
  symbolSize := rfl
  symbolSet := by
    refine ⟨rfl, .inl ⟨rfl, rfl⟩, fun k => ?_⟩
    have empty : fullSymbolSetAlloc.fullSymbolTab.getD k none = none :=
      fullSymbolSetAlloc_invariant.empty rfl k
    show Option.Rel _ (fullSymbolSetAlloc.fullSymbolTab.getD k none)
      (fullSymbolSetAlloc.fullSymbolTab.getD k none)
    rw [empty]
    exact .none
  coefTab := rfl
  firstId := .inl ⟨rfl, rfl, rfl⟩
  nbId := rfl
  notifyDecodedFunc := rfl
  decodedSourceSymbolCallback := rfl

/-! ### Submitted symbols -/

section Submitted

variable {t : ℕ} {dec dec' : Decoder} (md : MovedDecoder t dec dec') {buf : List Gf256}
  {s : FullSymbol}

theorem newSourceSymbol_eq {id : ℕ} (valid : id < symbolIdNone)
    (fits : dec.symbolSize ≤ buf.length) :
    newSourceSymbol dec buf id = .ok (sourceSymbol id (buf.take dec.symbolSize)) := by
  have count : fullSymbolCountAllocatedCoef (sourceSymbol id (buf.take dec.symbolSize)) =
      .ok (add32 (id - id) 1) := by
    simp [fullSymbolCountAllocatedCoef, sourceSymbol, valid.ne]
  unfold newSourceSymbol
  rw [fullSymbolCreateFromSource_spec valid fits, ok_bind, count]
  rfl

include md

/-- The symbol of a source packet. -/
theorem newSourceSymbol_moved {esi : Esi} (below : esi + t < symbolIdNone)
    (ok : newSourceSymbol dec buf esi = .ok s) :
    ∃ s', newSourceSymbol dec' buf (moveEsi t esi) = .ok s' ∧ Moved t dec.symbolSize s s' := by
  have size32 : symbolIdNone = 4294967295 := rfl
  have valid : esi < symbolIdNone := by omega
  obtain ⟨-, fits, -⟩ := newSourceSymbol_of_ok ok
  rw [newSourceSymbol_eq valid fits] at ok
  cases ok
  have moved : ((moveEsi t esi : Esi) : ℕ) = esi + t := add32_of_lt (by omega)
  rw [moved, newSourceSymbol_eq below (md.symbolSize ▸ fits), md.symbolSize]
  refine ⟨_, rfl, sourceSymbol_wellFormed valid _, sourceSymbol_wellFormed below _, fun i => ?_,
    fun i low => ?_, rfl, ?_⟩
  · rw [sourceSymbol_coefs below, sourceSymbol_coefs valid, Finsupp.single_apply,
      Finsupp.single_apply]
    exact if_congr Nat.add_right_cancel_iff rfl rfl
  · rw [sourceSymbol_coefs below, Finsupp.single_eq_of_ne (by omega)]
  · show (buf.take dec.symbolSize).length = dec.symbolSize
    rw [List.length_take, Nat.min_eq_left fits]

/-- The symbol of a repair packet. -/
theorem newRepairSymbol_moved (inv : dec.Invariant)
    (below : dec.firstId + dec.nbId + t ≤ symbolIdNone)
    (ok : newRepairSymbol dec buf = .ok s) :
    ∃ s', newRepairSymbol dec' buf = .ok s' ∧ Moved t dec.symbolSize s s' := by
  have size32 : symbolIdNone = 4294967295 := rfl
  unfold newRepairSymbol at ok ⊢
  obtain ⟨-, cells, fits, -⟩ := fullSymbolCreate_of_ok inv.firstId inv.nbId ok
  have header : HeaderOk dec.firstId dec.nbId := by
    by_contra bad
    rw [fullSymbolCreate_assertion inv.firstId inv.nbId bad] at ok
    cases ok
  have pos : 0 < dec.nbId := by
    rcases header with ⟨pos, -⟩ | ⟨-, one⟩
    · exact pos
    · omega
  have first : dec'.firstId = dec.firstId + t := by
    rcases md.firstId with ⟨-, none, -⟩ | ⟨none, -⟩ | ⟨eq, -⟩
    · omega
    · omega
    · exact eq
  obtain ⟨r, eq, wf, coefs, data, -⟩ :=
    fullSymbolCreate_spec pos (show dec.firstId + dec.nbId ≤ symbolIdNone by omega) cells fits
  obtain ⟨r', eq', wf', coefs', data', -⟩ := fullSymbolCreate_spec pos
    (show dec.firstId + t + dec.nbId ≤ symbolIdNone by omega) cells fits
  rw [eq] at ok
  cases ok
  rw [md.coefTab, first, md.nbId, md.symbolSize]
  refine ⟨r', eq', wf, wf', fun i => ?_, fun i low => ?_, data'.trans data.symm, ?_⟩
  · rw [coefs, coefs', Nat.add_sub_add_right]
    exact if_congr (by omega) rfl rfl
  · rw [coefs', if_neg (by omega)]
  · rw [data, List.length_take, Nat.min_eq_left fits]

end Submitted

/-! ### Callbacks -/

section Notify

variable {t n : ℕ} {dec dec' : Decoder} (md : MovedDecoder t dec dec')
include md

/-- A notification that returns, and the moved one. -/
theorem rlcDecoderNotifyDecoded_moved {e e' : Notification} (mc : MovedCall t n e e')
    {told : List DecodedSourceSymbol} (ok : rlcDecoderNotifyDecoded dec e = .ok told) :
    rlcDecoderNotifyDecoded dec' e' = .ok (told.map (DecodedSourceSymbol.moved t)) := by
  unfold rlcDecoderNotifyDecoded at ok ⊢
  rw [md.notifyDecodedFunc, md.decodedSourceSymbolCallback]
  split at ok
  case isTrue notify =>
    rw [if_pos notify, mc.decodedId, fullSymbolSetGetPivot_spec mc.tableOk' mc.noWrap', ok_bind]
    obtain ⟨found, pivot_eq, rest⟩ := bind_eq_ok.mp ok
    cases found with
    | none => cases rest
    | some row =>
        obtain ⟨row', at_id, mv⟩ :=
          mc.sets.rowAt_some mc.tableOk mc.tableOk' (fullSymbolSetGetPivot_of_ok pivot_eq)
        rw [at_id]
        dsimp only at rest ⊢
        split at rest
        case isTrue callback =>
          cases rest
          rw [if_pos callback, mv.data]
          rfl
        case isFalse => cases rest
  case isFalse silent =>
    cases ok
    rw [if_neg silent]
    rfl

/-- All notifications of a submission. -/
theorem mapM_notifyDecoded_moved {calls calls' : List Notification}
    (same : List.Forall₂ (MovedCall t n) calls calls') {told : List (List DecodedSourceSymbol)}
    (ok : calls.mapM (rlcDecoderNotifyDecoded dec) = .ok told) :
    calls'.mapM (rlcDecoderNotifyDecoded dec') =
      .ok (told.map (List.map (DecodedSourceSymbol.moved t))) := by
  induction same generalizing told with
  | nil =>
      cases ok
      rfl
  | cons mc _ ih =>
      rw [List.mapM_cons] at ok
      obtain ⟨one, head_eq, rest⟩ := bind_eq_ok.mp ok
      obtain ⟨others, tail_eq, result⟩ := bind_eq_ok.mp rest
      cases result
      rw [List.mapM_cons, rlcDecoderNotifyDecoded_moved md mc head_eq, ok_bind, ih tail_eq]
      rfl

/-- A submission. -/
theorem decodeFullSymbol_moved (inv : dec.Invariant) (inv' : dec'.Invariant) {s s' : FullSymbol}
    (mv : Moved t dec.symbolSize s s') {next : Decoder} {out : List DecodedSourceSymbol}
    (ok : decodeFullSymbol dec s = .ok (next, out)) (after : next.symbolSet.NoWrapAt t) :
    ∃ next', decodeFullSymbol dec' s' = .ok (next', out.map (DecodedSourceSymbol.moved t)) ∧
      MovedDecoder t next next' := by
  obtain ⟨⟨set₁, calls⟩, elim_eq, rest⟩ := bind_eq_ok.mp ok
  obtain ⟨told, told_eq, result⟩ := bind_eq_ok.mp rest
  cases result
  obtain ⟨set₁', calls', elim_eq', ms, same⟩ := fullSymbolAddWithElimination_moved inv.set inv'.set
    inv.noWrap inv'.noWrap md.symbolSet mv elim_eq after
  refine ⟨{ dec' with symbolSet := set₁' }, ?_, ?_⟩
  · unfold decodeFullSymbol
    rw [elim_eq', ok_bind]
    dsimp only
    rw [mapM_notifyDecoded_moved md same told_eq, ok_bind, pure_eq_ok, List.map_flatten]
  · exact ⟨md.maxCodingWindowSize, md.symbolSize, ms, md.coefTab, md.firstId, md.nbId,
      md.notifyDecodedFunc, md.decodedSourceSymbolCallback⟩

end Notify

/-! ### Steps and runs -/

section Window

variable {t : ℕ} {dec dec' next : Decoder} (md : MovedDecoder t dec dec')
include md

theorem swifRlcDecoderResetCodingWindow_moved
    (ok : swifRlcDecoderResetCodingWindow dec = .ok next) :
    ∃ next', swifRlcDecoderResetCodingWindow dec' = .ok next' ∧ MovedDecoder t next next' := by
  obtain ⟨coef, fill_eq, result⟩ := bind_eq_ok.mp ok
  cases result
  refine ⟨{ dec' with coefTab := some coef, firstId := symbolIdNone, nbId := 0 }, ?_, ?_⟩
  · unfold swifRlcDecoderResetCodingWindow
    rw [md.coefTab, md.symbolSize]
    dsimp only
    rw [fill_eq]
    rfl
  · exact ⟨md.maxCodingWindowSize, md.symbolSize, md.symbolSet, rfl, .inr (.inl ⟨rfl, rfl⟩), rfl,
      md.notifyDecodedFunc, md.decodedSourceSymbolCallback⟩

theorem swifRlcDecoderGenerateCodingCoefs_moved {key dt : ℕ} {fresh : ℕ → Gf256}
    {status : SwifStatus}
    (ok : swifRlcDecoderGenerateCodingCoefs dec key dt fresh = .ok (next, status)) :
    ∃ next', swifRlcDecoderGenerateCodingCoefs dec' key dt fresh = .ok (next', status) ∧
      MovedDecoder t next next' := by
  obtain ⟨coef, generate_eq, result⟩ := bind_eq_ok.mp ok
  cases result
  refine ⟨{ dec' with coefTab := some coef }, ?_, ?_⟩
  · unfold swifRlcDecoderGenerateCodingCoefs
    rw [md.coefTab, md.nbId, md.maxCodingWindowSize]
    dsimp only
    rw [generate_eq]
    rfl
  · exact ⟨md.maxCodingWindowSize, md.symbolSize, md.symbolSet, rfl, md.firstId, md.nbId,
      md.notifyDecodedFunc, md.decodedSourceSymbolCallback⟩

theorem swifRlcDecoderAddSourceSymbol_moved {esi : Esi} {status : SwifStatus}
    (below : esi + t < symbolIdNone) (reset : dec.firstId = 0 → dec.nbId ≠ 0)
    (ok : swifRlcDecoderAddSourceSymbolToCodingWindow dec esi = .ok (next, status)) :
    ∃ next', swifRlcDecoderAddSourceSymbolToCodingWindow dec' (moveEsi t esi) =
        .ok (next', status) ∧ MovedDecoder t next next' := by
  have size32 : symbolIdNone = 4294967295 := rfl
  have esi_eq : ((moveEsi t esi : Esi) : ℕ) = esi + t := add32_of_lt (by omega)
  -- A window that is not empty, and one that starts with this symbol, start `t` higher.
  have start : dec'.windowStart (esi + t) = dec.windowStart esi + t ∧
      dec'.windowStart (esi + t) < symbolIdNone := by
    unfold Decoder.windowStart
    rcases md.firstId with ⟨zero, none, -⟩ | ⟨empty, empty'⟩ | ⟨eq, lt⟩
    · exact absurd none (reset zero)
    · rw [if_pos empty, if_pos empty']
      exact ⟨rfl, below⟩
    · have filled : dec.firstId ≠ symbolIdNone := by omega
      rw [if_neg lt.ne, if_neg filled]
      exact ⟨eq, lt⟩
  have asserts : (dec'.firstId = symbolIdNone ∧ dec'.nbId ≠ 0) ↔
      (dec.firstId = symbolIdNone ∧ dec.nbId ≠ 0) := by
    rw [md.nbId]
    refine and_congr_left fun _ => ?_
    rcases md.firstId with ⟨zero, none, -⟩ | ⟨empty, empty'⟩ | ⟨eq, lt⟩
    · exact absurd none (reset zero)
    · exact iff_of_true empty' empty
    · exact iff_of_false lt.ne (by omega)
  have distance : sub32 (esi + t) (dec.windowStart esi + t) = sub32 esi (dec.windowStart esi) := by
    unfold sub32
    omega
  rw [swifRlcDecoderAddSourceSymbol_spec] at ok
  rw [swifRlcDecoderAddSourceSymbol_spec, esi_eq, md.maxCodingWindowSize, md.nbId, start.1,
    distance]
  simp only [md.nbId] at asserts
  split at ok
  case isTrue => cases ok
  case isFalse passes =>
    rw [if_neg fun fails => passes (asserts.mp fails)]
    split at ok
    case isTrue inside =>
      cases ok
      rw [if_pos inside]
      exact ⟨_, rfl, rfl, md.symbolSize, md.symbolSet, md.coefTab,
        .inr (.inr ⟨rfl, start.1 ▸ start.2⟩), rfl, md.notifyDecodedFunc,
        md.decodedSourceSymbolCallback⟩
    case isFalse outside =>
      cases ok
      rw [if_neg outside]
      exact ⟨_, rfl, rfl, md.symbolSize, md.symbolSet, md.coefTab,
        .inr (.inr ⟨rfl, start.1 ▸ start.2⟩), rfl, md.notifyDecodedFunc,
        md.decodedSourceSymbolCallback⟩

end Window

section Step

variable {t : ℕ} {dec dec' next : Decoder} {call : DecoderCall} {out : List DecodedSourceSymbol}

/-- A call, and the call with its identifiers moved. -/
theorem decoderStep_moved (md : MovedDecoder t dec dec') (inv : dec.Invariant)
    (inv' : dec'.Invariant) (ok : decoderStep dec call = .ok (next, out))
    (below : call.IdsBelow t dec) (reset : call.WindowReset dec)
    (after : next.symbolSet.NoWrapAt t) :
    ∃ next', decoderStep dec' (call.moved t) =
        .ok (next', out.map (DecodedSourceSymbol.moved t)) ∧ MovedDecoder t next next' := by
  cases call with
  | setCallbackFunctions callback =>
      cases ok
      exact ⟨_, rfl, md.maxCodingWindowSize, md.symbolSize, md.symbolSet, md.coefTab, md.firstId,
        md.nbId, rfl, rfl⟩
  | decodeWithNewSourceSymbol buf esi =>
      obtain ⟨s, create_eq, decode_eq⟩ := bind_eq_ok.mp ok
      obtain ⟨s', create_eq', mv⟩ := newSourceSymbol_moved md below create_eq
      obtain ⟨next', decode_eq', md'⟩ := decodeFullSymbol_moved md inv inv' mv decode_eq after
      exact ⟨next', bind_eq_ok.mpr ⟨s', create_eq', decode_eq'⟩, md'⟩
  | decodeWithNewRepairSymbol buf =>
      obtain ⟨s, create_eq, decode_eq⟩ := bind_eq_ok.mp ok
      obtain ⟨s', create_eq', mv⟩ := newRepairSymbol_moved md inv below create_eq
      obtain ⟨next', decode_eq', md'⟩ := decodeFullSymbol_moved md inv inv' mv decode_eq after
      exact ⟨next', bind_eq_ok.mpr ⟨s', create_eq', decode_eq'⟩, md'⟩
  | resetCodingWindow =>
      obtain ⟨d, reset_eq, result⟩ := bind_eq_ok.mp ok
      cases result
      obtain ⟨next', reset_eq', md'⟩ := swifRlcDecoderResetCodingWindow_moved md reset_eq
      exact ⟨next', bind_eq_ok.mpr ⟨next', reset_eq', rfl⟩, md'⟩
  | addSourceSymbolToCodingWindow esi =>
      obtain ⟨⟨d, status⟩, add_eq, result⟩ := bind_eq_ok.mp ok
      cases result
      obtain ⟨next', add_eq', md'⟩ := swifRlcDecoderAddSourceSymbol_moved md below reset add_eq
      exact ⟨next', bind_eq_ok.mpr ⟨_, add_eq', rfl⟩, md'⟩
  | generateCodingCoefs key dt fresh =>
      obtain ⟨⟨d, status⟩, generate_eq, result⟩ := bind_eq_ok.mp ok
      cases result
      obtain ⟨next', generate_eq', md'⟩ := swifRlcDecoderGenerateCodingCoefs_moved md generate_eq
      exact ⟨next', bind_eq_ok.mpr ⟨_, generate_eq', rfl⟩, md'⟩

theorem FullSymbolSet.NoWrapAt.noWrap {set : FullSymbolSet} (fits : set.NoWrapAt t) :
    set.NoWrap := by
  intro ne
  have := fits ne
  omega

end Step

/-- A row with its identifiers moved up by `t`, as the source reads it. -/
theorem FullSymbol.Moved.reads {t n : ℕ} {row row' : FullSymbol} (mv : Moved t n row row')
    (nz : fullSymbolIsZero row = false) :
    (∀ i, fullSymbolGetCoef row' (i + t) = fullSymbolGetCoef row i) ∧
      (∀ i < t, fullSymbolGetCoef row' i = 0) ∧ row'.data = row.data := by
  have ranged := (mv.wellFormed.bounded nz).1
  have ranged' := (mv.wellFormed'.bounded (mv.isZero.trans nz)).1
  refine ⟨fun i => ?_, fun i low => ?_, mv.data⟩
  · rw [← ranged.coefs_apply, ← ranged'.coefs_apply, mv.above]
  · rw [← ranged'.coefs_apply, mv.below i low]

/-- A run of a fresh decoder in which no table wraps, also when moved up by `t`, and every
window is reset: the run with all identifiers moved up by `t` delivers the same data for
the moved identifiers, in the same order, and leaves the same rows, moved. -/
theorem decoding_moved_of_run {n w t : ℕ} {calls : List DecoderCall} {dec : Decoder}
    {outs : List DecodedSourceSymbol}
    (run : Steps decoderStep
      (fun dec call dec' => call.IdsBelow t dec ∧ call.WindowReset dec ∧ dec'.symbolSet.NoWrapAt t)
      (swifRlcDecoderCreate n w) calls dec outs) :
    ∃ dec', Steps decoderStep (fun _ _ _ => True) (swifRlcDecoderCreate n w)
        (calls.map (DecoderCall.moved t)) dec' (outs.map (DecodedSourceSymbol.moved t)) ∧
      (∀ id, Option.Rel
        (fun row row' => (∀ i, fullSymbolGetCoef row' (i + t) = fullSymbolGetCoef row i) ∧
          (∀ i < t, fullSymbolGetCoef row' i = 0) ∧ row'.data = row.data)
        (dec.symbolSet.rowAt id) (dec'.symbolSet.rowAt (id + t))) ∧
      ∀ id < t, dec'.symbolSet.rowAt id = none := by
  have fresh := swifRlcDecoderCreate_invariant n w
  obtain ⟨dec', run', md, inv, inv'⟩ := run.simulate (f := DecoderCall.moved t)
    (g := DecodedSourceSymbol.moved t)
    (R := fun dec dec' => MovedDecoder t dec dec' ∧ dec.Invariant ∧ dec'.Invariant)
    (fun {dec dec' call next out} related ok cond => by
      obtain ⟨md, inv, inv'⟩ := related
      obtain ⟨below, reset, after⟩ := cond
      obtain ⟨next', ok', md'⟩ := decoderStep_moved md inv inv' ok below reset after
      exact ⟨next', ok', md', decoderStep_invariant inv ok after.noWrap,
        decoderStep_invariant inv' ok' (md'.symbolSet.noWrap after)⟩)
    ⟨swifRlcDecoderCreate_moved t n w, fresh, fresh⟩
  refine ⟨dec', run', fun id => ?_, fun id low => md.symbolSet.rowAt_low inv'.set.toTableOk low⟩
  cases at_id : dec.symbolSet.rowAt id with
  | none =>
      rw [md.symbolSet.rowAt_none inv.set.toTableOk inv'.set.toTableOk at_id]
      exact .none
  | some row =>
      obtain ⟨row', at_id', mv⟩ :=
        md.symbolSet.rowAt_some inv.set.toTableOk inv'.set.toTableOk at_id
      rw [at_id']
      exact .some (mv.reads (inv.set.nonzero at_id))

/-- A decoder that gets source symbol 0, and a repair symbol over 0 and 1. -/
def repairAfterLoss : List DecoderCall :=
  [.setCallbackFunctions true, .decodeWithNewSourceSymbol (bytes [5, 7]) ⟨0, by decide⟩,
    .resetCodingWindow, .addSourceSymbolToCodingWindow ⟨0, by decide⟩,
    .addSourceSymbolToCodingWindow ⟨1, by decide⟩, .generateCodingCoefs 1 15 fun _ => 0,
    .decodeWithNewRepairSymbol (bytes [205, 102])]

theorem decoding_moved_after_loss :
    ∃ dec outs, Steps decoderStep
        (fun dec call dec' =>
          call.IdsBelow 1000 dec ∧ call.WindowReset dec ∧ dec'.symbolSet.NoWrapAt 1000)
        (swifRlcDecoderCreate 2 2) repairAfterLoss dec outs ∧
      outs = [⟨bytes [6, 7], 1⟩] ∧
      ∃ dec', Steps decoderStep (fun _ _ _ => True) (swifRlcDecoderCreate 2 2)
        (repairAfterLoss.map (DecoderCall.moved 1000)) dec'
        (outs.map (DecodedSourceSymbol.moved 1000)) := by
  obtain ⟨dec, outs, steps, delivered⟩ := exists_steps_of_map
    (show (checkedRun decoderStep
      (fun dec call dec' =>
        call.IdsBelow 1000 dec ∧ call.WindowReset dec ∧ dec'.symbolSet.NoWrapAt 1000)
      (swifRlcDecoderCreate 2 2) repairAfterLoss).map (·.2) =
        some [⟨bytes [6, 7], 1⟩] by decide +kernel)
  obtain ⟨dec', moved, -⟩ := decoding_moved_of_run steps
  exact ⟨dec, outs, steps, delivered, dec', moved⟩

/-- Moved up by 2^32 - 16, the first symbol is at 2^32 - 16 and the table of 16 slots ends
at 2^32: its row is not found, and source symbol 1 is not decoded. -/
theorem decoding_not_moved :
    ¬ ∀ (n w t : ℕ) (calls : List DecoderCall) (dec dec' : Decoder)
        (outs outs' : List DecodedSourceSymbol),
        Steps decoderStep (fun dec call _ => call.IdsBelow t dec ∧ call.WindowReset dec)
          (swifRlcDecoderCreate n w) calls dec outs →
        Steps decoderStep (fun _ _ _ => True) (swifRlcDecoderCreate n w)
          (calls.map (DecoderCall.moved t)) dec' outs' →
        outs' = outs.map (DecodedSourceSymbol.moved t) := by
  intro same
  obtain ⟨dec, outs, steps, delivered⟩ := exists_steps_of_map
    (show (checkedRun decoderStep
      (fun dec call _ => call.IdsBelow 4294967280 dec ∧ call.WindowReset dec)
      (swifRlcDecoderCreate 2 2) repairAfterLoss).map (·.2) =
        some [⟨bytes [6, 7], 1⟩] by decide +kernel)
  obtain ⟨dec', outs', steps', silent⟩ := exists_steps_of_map
    (show (checkedRun decoderStep (fun _ _ _ => True) (swifRlcDecoderCreate 2 2)
      (repairAfterLoss.map (DecoderCall.moved 4294967280))).map (·.2) = some [] by decide +kernel)
  have eq := same 2 2 4294967280 repairAfterLoss dec dec' outs outs' steps
    steps'
  dsimp only at delivered silent
  rw [delivered, silent] at eq
  cases eq

end SwifCodec
