import SwifCodec.FullSymbolSet.Extent
import SwifCodec.Rlc.ExactlyOnce
import SwifCodec.Rlc.Session
import SwifCodec.Rlc.Translation
import Mathlib.Data.List.GetD

/-!
When a decoder goes on.

A decoder whose callbacks are set and whose identifiers stay below a bound of at most 2^31 - 9
has one way to fail on a symbol: the symbol leads so far below the pivot table that the rows it
moves up do not fit. `decoder_progress_of_run` says so for whole runs, without assuming of the
steps that the table does not wrap.
-/

namespace SwifCodec

open Library FullSymbol FullSymbolSet Gf256

/-- A decoder whose callbacks are set and whose rows are on identifiers below `b`. -/
structure Decoder.Below (b : ℕ) (dec : Decoder) : Prop where
  set : dec.symbolSet.Invariant
  extent : dec.symbolSet.Extent b
  rows : dec.symbolSet.rowSpan ≤ idsBelow b
  active : dec.Active
  firstId : dec.firstId < 4294967296
  nbId : dec.nbId < 4294967296

theorem Decoder.Below.invariant {b : ℕ} {dec : Decoder} (below : dec.Below b)
    (small : b ≤ 2147483639) : dec.Invariant :=
  ⟨below.set, below.extent.noWrap small, below.firstId, below.nbId⟩

theorem FullSymbolSet.Extent.mono {set : FullSymbolSet} {b b' : ℕ} (ext : set.Extent b)
    (le : b ≤ b') : set.Extent b' := by
  rcases ext with fresh | ⟨start, size, reach⟩
  · exact .inl fresh
  · exact .inr ⟨by omega, size, by omega⟩

/-- A symbol that does not fit leads far below the table. -/
theorem FullSymbolSet.Extent.far_below {set : FullSymbolSet} {b lead : ℕ} (ext : set.Extent b)
    (exceeds : ¬ set.Fits lead) : lead + 16 < set.firstSymbolId ∧ set.firstSymbolId < b := by
  have size_ge := ext.size_ge
  unfold Fits InsertsBelow at exceeds
  push Not at exceeds
  obtain ⟨⟨first_ne, lead_lt⟩, far⟩ := exceeds
  rcases ext with ⟨unset, -⟩ | ⟨start, -⟩
  · exact absurd unset first_ne
  · exact ⟨by omega, start⟩

theorem Decoder.Below.mono {b b' : ℕ} {dec : Decoder} (below : dec.Below b) (le : b ≤ b') :
    dec.Below b' :=
  { below with
    extent := below.extent.mono le
    rows := below.rows.trans (Finsupp.supported_mono (Set.Iio_subset_Iio le)) }

theorem activeDecoder_below (n w b : ℕ) : (activeDecoder n w).Below b where
  set := fullSymbolSetAlloc_invariant
  extent := .inl ⟨rfl, rfl⟩
  rows := by
    rw [show (activeDecoder n w).symbolSet = fullSymbolSetAlloc from rfl,
      fullSymbolSetAlloc_rowSpan]
    exact bot_le
  active := ⟨rfl, rfl⟩
  firstId := Nat.succ_pos _
  nbId := Nat.succ_pos _

/-- A call that submits a symbol leading at `lead` returns, with rows and reports below `b`, or
moves rows out of the pivot table. -/
def Progresses (b : ℕ) (dec : Decoder) (lead : ℕ)
    (result : Exec (Decoder × List DecodedSourceSymbol)) : Prop :=
  (dec.symbolSet.Fits lead ∧ ∃ dec' out, result = .ok (dec', out) ∧ dec'.Below b ∧
    ∀ d ∈ out, d.esi < b) ∨
  (¬ dec.symbolSet.Fits lead ∧ result = .error (.outOfBounds .pivotTab))

/-- The identifier of the first coefficient that is not zero. -/
def leadingId (first : ℕ) (cs : List Gf256) : ℕ :=
  match cs.findIdx? (· ≠ 0) with
  | some k => first + k
  | none => symbolIdNone

theorem le_leadingId {first : ℕ} (valid : first ≤ symbolIdNone) (cs : List Gf256) :
    first ≤ leadingId first cs := by
  unfold leadingId
  split
  · exact Nat.le_add_right _ _
  · exact valid

section Submission

variable {b : ℕ} {dec : Decoder} {s : FullSymbol} {cs : List Gf256} {first : ℕ}

/-- A symbol made of consecutive coefficients leads at the first one that is not zero. -/
theorem FullSymbol.WellFormed.first_eq_leadingId (wf : s.WellFormed)
    (coefs : ∀ i, s.coefs i =
      if first ≤ i ∧ i < first + cs.length then cs.getD (i - first) 0 else 0) :
    s.firstNonzeroId = leadingId first cs := by
  unfold leadingId
  cases found : cs.findIdx? (· ≠ 0) with
  | none =>
      have zeros := List.findIdx?_eq_none_iff.mp found
      have zero : s.coefs = 0 := by
        ext1 i
        rw [coefs i]
        split
        · rename_i inside
          rw [List.getD_eq_getElem _ _ (by omega)]
          simpa using zeros _ (List.getElem_mem _)
        · rfl
      exact (wf.bounds_of_isZero (wf.isZero_iff.mpr zero)).1
  | some k =>
      obtain ⟨lt, ne, before⟩ := List.findIdx?_eq_some_iff_getElem.mp found
      have ne_at : s.coefs (first + k) ≠ 0 := by
        rw [coefs, if_pos (by omega), Nat.add_sub_cancel_left, List.getD_eq_getElem _ _ lt]
        simpa using ne
      have nz : fullSymbolIsZero s = false := by
        rw [Bool.eq_false_iff]
        intro zero
        rw [wf.isZero_iff.mp zero] at ne_at
        exact ne_at rfl
      show s.firstNonzeroId = first + k
      refine wf.first_eq nz ne_at fun i low => ?_
      rw [coefs i]
      split
      · rename_i inside
        rw [List.getD_eq_getElem _ _ (by omega)]
        simpa using before (i - first) (by omega)
      · rfl

/-- The notifications of a submission to an active decoder return. -/
theorem mapM_notifyDecoded_ok {set set' : FullSymbolSet} {notified : List Notification}
    (active : dec.Active) (decoded : ∀ e ∈ notified, Decoded set s set' e) (wrap : set'.NoWrap) :
    ∃ told, notified.mapM (rlcDecoderNotifyDecoded dec) = .ok told := by
  cases result : notified.mapM (rlcDecoderNotifyDecoded dec) with
  | ok told => exact ⟨told, rfl⟩
  | error fault =>
      obtain ⟨e, mem, fails⟩ := mapM_eq_error result
      obtain ⟨u, at_id, -⟩ := (decoded e mem).row
      have pivot := fullSymbolSetGetPivot_spec (decoded e mem).tableOk
        ((decoded e mem).noWrap wrap) e.decodedId
      unfold rlcDecoderNotifyDecoded at fails
      rw [if_pos active.1, pivot, at_id, ok_bind] at fails
      dsimp only at fails
      rw [if_pos active.2] at fails
      cases fails

/-- Submitting a symbol on identifiers below `b`. -/
theorem decodeFullSymbol_progress (small : b ≤ 2147483639) (below : dec.Below b)
    (wf : s.WellFormed) (ids : s.coefs ∈ idsBelow b) :
    Progresses b dec s.firstNonzeroId (decodeFullSymbol dec s) := by
  have inv := below.invariant small
  have valid : b ≤ symbolIdNone := small.trans (by decide)
  unfold decodeFullSymbol
  rcases fullSymbolAddWithElimination_spec inv.set inv.noWrap wf with
    ⟨eq, mem⟩ | ⟨exceeds, eq⟩ | ⟨n, set', notified, eq, el⟩
  · have above : ¬ dec.symbolSet.InsertsBelow s.firstNonzeroId :=
      @above_of_mem_rowSpan _ ⟨s, wf⟩ inv.set mem
    rw [eq, ok_bind]
    exact .inl ⟨fun inserts => absurd inserts above, dec, [], rfl, below, nofun⟩
  · rw [eq, error_bind]
    exact .inr ⟨exceeds, rfl⟩
  · have submitted : submit dec.symbolSet ⟨s, wf⟩ = .ok (set', notified) := eq
    obtain ⟨extent, rows⟩ :=
      submit_extent valid inv.set inv.noWrap below.extent below.rows ids submitted
    obtain ⟨told, told_eq⟩ :=
      mapM_notifyDecoded_ok below.active el.decoded (extent.noWrap small)
    have delivered := mapM_notifyDecoded_of_ok told_eq
    rw [if_pos below.active.1] at delivered
    rw [eq, ok_bind]
    dsimp only
    rw [told_eq, ok_bind]
    refine .inl ⟨el.fits, { dec with symbolSet := set' }, told.flatten, rfl,
      ⟨el.invariant inv.set, extent, rows, below.active, below.firstId, below.nbId⟩,
      fun d mem => ?_⟩
    rw [delivered] at mem
    obtain ⟨e, notified_e, rfl⟩ := List.mem_map.mp mem
    have spans : dec.symbolSet.rowSpan ⊔ Submodule.span Gf256 {s.coefs} ≤ idsBelow b :=
      sup_le below.rows ((Submodule.span_singleton_le_iff_mem _ _).mpr ids)
    have unit := spans (el.decoded e notified_e).spanned
    by_contra ge
    have zero := mem_idsBelow.mp unit e.decodedId (Nat.le_of_not_lt ge)
    rw [Finsupp.single_eq_same] at zero
    exact one_ne_zero zero

/-- A source packet. -/
theorem decodeWithNewSourceSymbol_progress (small : b ≤ 2147483639) (below : dec.Below b)
    {buf : List Gf256} {esi : ℕ} (lt : esi < b) (length : dec.symbolSize ≤ buf.length) :
    Progresses b dec esi (swifRlcDecoderDecodeWithNewSourceSymbol dec buf esi) := by
  have size : symbolIdNone = 4294967295 := rfl
  have valid : esi < symbolIdNone := by omega
  have ids : (sourceSymbol esi (buf.take dec.symbolSize)).coefs ∈ idsBelow b := by
    rw [sourceSymbol_coefs valid]
    exact Finsupp.single_mem_supported _ _ lt
  unfold swifRlcDecoderDecodeWithNewSourceSymbol
  rw [newSourceSymbol_eq valid length, ok_bind]
  exact decodeFullSymbol_progress small below (sourceSymbol_wellFormed valid _) ids

/-- A repair symbol over a prepared window, with the coefficients in place. -/
theorem decodeWithNewRepairSymbol_progress (small : b ≤ 2147483639) (below : dec.Below b)
    {buf tab : List Gf256} (coefTab : dec.coefTab = some tab) (pos : 0 < dec.nbId)
    (ids : dec.firstId + dec.nbId ≤ b) (cells : dec.nbId ≤ tab.length)
    (length : dec.symbolSize ≤ buf.length) :
    Progresses b dec (leadingId dec.firstId (tab.take dec.nbId))
      (swifRlcDecoderDecodeWithNewRepairSymbol dec buf) := by
  have size : symbolIdNone = 4294967295 := rfl
  obtain ⟨s, create_eq, wf, coefs, -⟩ :=
    fullSymbolCreate_spec pos (show dec.firstId + dec.nbId ≤ symbolIdNone by omega) cells length
  have taken : (tab.take dec.nbId).length = dec.nbId := by
    rw [List.length_take]
    omega
  have lead : s.firstNonzeroId = leadingId dec.firstId (tab.take dec.nbId) := by
    refine wf.first_eq_leadingId fun i => ?_
    rw [coefs, taken]
    refine if_ctx_congr Iff.rfl (fun inside => ?_) fun _ => rfl
    rw [List.getD_eq_getElem?_getD, List.getD_eq_getElem?_getD, List.getElem?_take,
      if_pos (by omega)]
  have named : s.coefs ∈ idsBelow b := by
    refine mem_idsBelow.mpr fun i ge => ?_
    rw [coefs, if_neg (by omega)]
  unfold swifRlcDecoderDecodeWithNewRepairSymbol newRepairSymbol
  rw [coefTab, Option.getD_some, create_eq, ok_bind, ← lead]
  exact decodeFullSymbol_progress small below wf named

end Submission

/-! ### Repair packets -/

section Packet

variable {b esi nss key dt : ℕ} {dec : Decoder} {symbol : List Gf256}

theorem Decoder.Below.prepared (below : dec.Below b) (tab : List Gf256) {first nb : ℕ}
    (first_lt : first < 4294967296) (nb_lt : nb < 4294967296) :
    (dec.prepared tab first nb).Below b :=
  ⟨below.set, below.extent, below.rows, below.active, first_lt, nb_lt⟩

/-- What the receiver does with a repair packet whose window ends at `b`, when the coefficient
table is the one that a reset allocates: windows that are empty or too large by one fail an
assertion and larger ones are refused; a window that is larger than a symbol overruns the
coefficient table; any other is decoded. -/
theorem submitRepairPacket_progress (small : b ≤ 2147483639) (below : dec.Below b)
    (density : dt ≤ 15) (nss_lt : nss < 65536) (ids : esi + nss ≤ b)
    (length : dec.symbolSize ≤ symbol.length)
    (cells : (dec.coefTab.map List.length).getD dec.symbolSize = dec.symbolSize) :
    ((nss = 0 ∨ nss = dec.maxCodingWindowSize + 1) ∧
      submitRepairPacket dec esi nss key dt symbol = .error .assertion) ∨
    (dec.maxCodingWindowSize + 1 < nss ∧ ∃ dec',
      submitRepairPacket dec esi nss key dt symbol = .ok (dec', .error, [])) ∨
    (nss ≤ dec.maxCodingWindowSize ∧ dec.symbolSize < nss ∧
      submitRepairPacket dec esi nss key dt symbol = .error (.outOfBounds .coefTab)) ∨
    (0 < nss ∧ nss ≤ dec.maxCodingWindowSize ∧ nss ≤ dec.symbolSize ∧
      ∃ cs tab, codingCoefficients (key % 65536) nss dt = some cs ∧ tab.length = dec.symbolSize ∧
        Progresses b dec (leadingId esi cs)
          (swifRlcDecoderDecodeWithNewRepairSymbol (dec.prepared tab esi nss) symbol) ∧
        submitRepairPacket dec esi nss key dt symbol =
          (swifRlcDecoderDecodeWithNewRepairSymbol (dec.prepared tab esi nss) symbol).map
            fun r => (r.1, .ok, r.2)) := by
  have size : symbolIdNone = 4294967295 := rfl
  rcases Nat.eq_zero_or_pos nss with rfl | pos
  · obtain ⟨coef, eq⟩ := submitRepairPacket_of_empty esi key dt symbol cells.ge
    rw [eq, finishRepairPacket_empty density]
    exact .inl ⟨.inl rfl, rfl⟩
  obtain ⟨coef, coef_length, eq⟩ :=
    submitRepairPacket_of_window key dt symbol cells.ge pos (show esi + nss ≤ symbolIdNone by omega)
  rw [cells] at coef_length
  rw [eq]
  by_cases le : nss ≤ dec.maxCodingWindowSize + 1
  · rw [if_pos le]
    unfold finishRepairPacket
    by_cases exceeds : dec.maxCodingWindowSize < nss
    · rw [generateCodingCoefs_assertion exceeds]
      exact .inl ⟨.inr (by omega), rfl⟩
    have in_window : nss ≤ dec.maxCodingWindowSize := Nat.le_of_not_lt exceeds
    have cast : nss % 65536 = nss := Nat.mod_eq_of_lt nss_lt
    rcases Nat.lt_or_ge dec.symbolSize nss with short | fits
    · rw [generateCodingCoefs_short in_window density (by omega)]
      exact .inr (.inr (.inl ⟨in_window, short, rfl⟩))
    obtain ⟨cs, drawn, generate_eq⟩ := @generateCodingCoefs_spec .coefTab coef nss
      dec.maxCodingWindowSize key dt in_window density (by omega)
    rw [cast] at drawn generate_eq
    have drawn_length := length_codingCoefficients drawn
    have tab_length : (cs ++ coef.drop nss).length = dec.symbolSize := by
      rw [List.length_append, List.length_drop]
      omega
    have ready : (dec.prepared (cs ++ coef.drop nss) esi nss).Below b :=
      below.prepared _ (by omega) (by omega)
    have progress := decodeWithNewRepairSymbol_progress small ready rfl pos ids
      (show nss ≤ (cs ++ coef.drop nss).length by omega) length
    have taken : (cs ++ coef.drop nss).take nss = cs := List.take_left' drawn_length
    change Progresses b _ (leadingId esi ((cs ++ coef.drop nss).take nss)) _ at progress
    rw [taken] at progress
    refine .inr (.inr (.inr ⟨pos, in_window, fits, cs, _, drawn, tab_length, progress, ?_⟩))
    rw [generate_eq, ok_bind]
    cases swifRlcDecoderDecodeWithNewRepairSymbol (dec.prepared (cs ++ coef.drop nss) esi nss)
      symbol <;> rfl
  · rw [if_neg le]
    exact .inr (.inl ⟨by omega, _, rfl⟩)

end Packet

/-! ### Runs over identifiers below a bound -/

/-- The call keeps the callbacks set, and submits nothing with an identifier from `b` on. -/
def DecoderCall.Below (b : ℕ) (dec : Decoder) : DecoderCall → Prop
  | .setCallbackFunctions callback => callback = true
  | .decodeWithNewSourceSymbol _ esi => (esi : ℕ) < b
  | .decodeWithNewRepairSymbol _ => dec.nbId = 0 ∨ dec.firstId + dec.nbId ≤ b
  | _ => True

instance (b : ℕ) (dec : Decoder) (call : DecoderCall) : Decidable (call.Below b dec) :=
  match call with
  | .setCallbackFunctions _ => inferInstanceAs (Decidable (_ = _))
  | .decodeWithNewSourceSymbol _ _ => inferInstanceAs (Decidable (_ < _))
  | .decodeWithNewRepairSymbol _ => inferInstanceAs (Decidable (_ ∨ _))
  | .resetCodingWindow => .isTrue trivial
  | .addSourceSymbolToCodingWindow _ => .isTrue trivial
  | .generateCodingCoefs _ _ _ => .isTrue trivial

section Run

variable {n w b : ℕ} {dec dec' : Decoder} {call : DecoderCall} {calls : List DecoderCall}
  {out outs : List DecodedSourceSymbol}

theorem DecoderCall.Below.names (low : call.Below b dec) : call.Names (Set.Iio b) dec := by
  cases call with
  | decodeWithNewSourceSymbol buf esi => exact low
  | decodeWithNewRepairSymbol buf =>
      intro k lt
      have ends : dec.nbId = 0 ∨ dec.firstId + dec.nbId ≤ b := low
      show dec.firstId + k < b
      omega
  | _ => trivial

/-- What a call submits is below the bound. -/
theorem submitted_idsBelow (inv : dec.Invariant) (low : call.Below b dec) {s : FullSymbol}
    (submits : call.submitted dec = some s) : s.coefs ∈ idsBelow b := by
  cases nz : fullSymbolIsZero s with
  | true =>
      rw [(submitted_wellFormed inv submits).isZero_iff.mp nz]
      exact zero_mem _
  | false => exact submitted_named inv low.names submits nz

/-- A call that submits a symbol. -/
theorem decoderStep_progress (small : b ≤ 2147483639) (below : dec.Below b)
    (low : call.Below b dec) {s : FullSymbol} (submits : call.submitted dec = some s) :
    Progresses b dec s.firstNonzeroId (decoderStep dec call) := by
  have inv := below.invariant small
  have progress := decodeFullSymbol_progress small below (submitted_wellFormed inv submits)
    (submitted_idsBelow inv low submits)
  cases call with
  | decodeWithNewSourceSymbol buf esi =>
      show Progresses b dec s.firstNonzeroId (swifRlcDecoderDecodeWithNewSourceSymbol dec buf esi)
      unfold swifRlcDecoderDecodeWithNewSourceSymbol
      rw [toOption_eq_some.mp submits, ok_bind]
      exact progress
  | decodeWithNewRepairSymbol buf =>
      show Progresses b dec s.firstNonzeroId (swifRlcDecoderDecodeWithNewRepairSymbol dec buf)
      unfold swifRlcDecoderDecodeWithNewRepairSymbol
      rw [toOption_eq_some.mp submits, ok_bind]
      exact progress
  | _ => cases submits

/-- A step keeps the decoder below the bound. -/
theorem decoderStep_below (small : b ≤ 2147483639) (below : dec.Below b)
    (low : call.Below b dec) (ok : decoderStep dec call = .ok (dec', out)) :
    dec'.Below b ∧ ∀ d ∈ out, d.esi < b := by
  rcases decoderStep_shape ok with
    ⟨callback, rfl, rfl, rfl⟩ | ⟨s, submits, -⟩ |
      ⟨-, rfl, coefTab, firstId, nbId, rfl, first, nb⟩
  · have set : callback = true := low
    exact ⟨⟨below.set, below.extent, below.rows, ⟨rfl, set⟩, below.firstId, below.nbId⟩, nofun⟩
  · rcases decoderStep_progress small below low submits with
      ⟨-, dec'', out', eq, below', reports⟩ | ⟨-, eq⟩
    · rw [eq] at ok
      cases ok
      exact ⟨below', reports⟩
    · rw [eq] at ok
      cases ok
  · exact ⟨⟨below.set, below.extent, below.rows, below.active, first below.firstId,
      nb below.nbId⟩, nofun⟩

/-- In every run over identifiers below a bound of at most 2^31 - 9, with the callbacks set, the
table of the decoder does not wrap, and each further call that submits a symbol returns exactly
when the table has room for the rows that the symbol moves up; otherwise it overruns the table. -/
theorem decoder_progress_of_run (small : b ≤ 2147483639)
    (run : Steps decoderStep (fun dec call _ => call.Below b dec) (activeDecoder n w) calls dec
      outs) :
    DecoderRun (fun dec call => call.Below b dec) (activeDecoder n w) calls dec outs ∧
    (∀ d ∈ outs, d.esi < b) ∧
    ∀ call s, call.Below b dec → call.submitted dec = some s →
      ((∃ result, decoderStep dec call = .ok result) ↔
        dec.symbolSet.Fits s.firstNonzeroId) ∧
      ∀ fault, decoderStep dec call = .error fault → fault = .outOfBounds .pivotTab := by
  have reached : DecoderRun (fun dec call => call.Below b dec) (activeDecoder n w) calls dec outs ∧
      dec.Below b ∧ ∀ d ∈ outs, d.esi < b := by
    induction run with
    | nil => exact ⟨.nil, activeDecoder_below n w b, nofun⟩
    | snoc _ ok cond ih =>
        obtain ⟨before, below, reports⟩ := ih
        obtain ⟨below', reports'⟩ := decoderStep_below small below cond ok
        refine ⟨before.snoc ok ⟨below'.extent.noWrap small, cond⟩, below', fun d mem => ?_⟩
        exact (List.mem_append.mp mem).elim (reports d) (reports' d)
  obtain ⟨wraps, below, reports⟩ := reached
  refine ⟨wraps, reports, fun call s low submits => ?_⟩
  rcases decoderStep_progress small below low submits with ⟨fits, _, _, eq, -⟩ | ⟨exceeds, eq⟩
  · rw [eq]
    exact ⟨iff_of_true ⟨_, rfl⟩ fits, nofun⟩
  · rw [eq]
    refine ⟨iff_of_false nofun exceeds, fun fault same => ?_⟩
    cases same
    rfl

theorem decoder_progress_far_below :
    ∃ dec outs, Steps decoderStep (fun dec call _ => call.Below 100 dec) (activeDecoder 1 1)
        [.decodeWithNewSourceSymbol (bytes [7]) ⟨50, by decide⟩] dec outs ∧
      ((∃ result, decoderStep dec (.decodeWithNewSourceSymbol (bytes [9]) ⟨30, by decide⟩) =
          .ok result) ↔
        dec.symbolSet.Fits 30) := by
  obtain ⟨dec, outs, steps, submits⟩ := exists_steps_of_map
    (show (checkedRun decoderStep (fun dec call _ => call.Below 100 dec) (activeDecoder 1 1)
      [.decodeWithNewSourceSymbol (bytes [7]) ⟨50, by decide⟩]).map
        (fun r => DecoderCall.submitted r.1
          (.decodeWithNewSourceSymbol (bytes [9]) ⟨30, by decide⟩)) =
      some (some (sourceSymbol 30 (bytes [9]))) by decide +kernel)
  have low : DecoderCall.Below 100 dec
      (.decodeWithNewSourceSymbol (bytes [9]) ⟨30, by decide⟩) := show (30 : ℕ) < 100 by decide
  exact ⟨dec, outs, steps,
    ((decoder_progress_of_run (by decide) steps).2.2 _ _ low submits).1⟩

end Run

end SwifCodec
