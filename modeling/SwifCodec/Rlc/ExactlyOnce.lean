import SwifCodec.Rlc.DecoderRuns
import SwifCodec.FullSymbolSet.Notifications

/-!
Exactly-once notification of decoded source symbols.

The application should be told once about each source symbol that it has not
submitted itself. Two shapes of submissions break this: a source symbol whose row
is there but not decoded is announced although it was submitted, and what a repair
symbol with a single coefficient decodes is not announced, unless it only completes
a row of three or more identifiers. `notified_once_of_run` is about the runs without
these, in which no row is lost either.
-/

namespace SwifCodec

open Library FullSymbol FullSymbolSet Gf256

/-- The call submits the source symbol `id`. -/
def DecoderCall.IsSource (id : ℕ) : DecoderCall → Prop
  | .decodeWithNewSourceSymbol _ esi => esi = id
  | _ => False

instance (id : ℕ) (call : DecoderCall) : Decidable (call.IsSource id) :=
  match call with
  | .decodeWithNewSourceSymbol _ _ => inferInstanceAs (Decidable (_ = _))
  | .setCallbackFunctions _ => .isFalse not_false
  | .decodeWithNewRepairSymbol _ => .isFalse not_false
  | .resetCodingWindow => .isFalse not_false
  | .addSourceSymbolToCodingWindow _ => .isFalse not_false
  | .generateCodingCoefs _ _ _ => .isFalse not_false

/-- No row is pushed out of the table, and what the call decodes is announced as it
should be: a source symbol has no row, or one that is decoded; a repair symbol with
one identifier has a row, and one that is not a combination of two identifiers. -/
def DecoderCall.Announces (dec : Decoder) (call : DecoderCall) : Prop :=
  (call.submitted dec).all (fun s => decide (dec.symbolSet.TopFree s.firstNonzeroId)) = true ∧
  match call with
  | .setCallbackFunctions callback => callback = true
  | .decodeWithNewSourceSymbol _ esi => (dec.symbolSet.rowAt esi).all fullSymbolHasOneId = true
  | .decodeWithNewRepairSymbol buf => (newRepairSymbol dec buf).toOption.all (fun s =>
      !fullSymbolHasOneId s ||
        (dec.symbolSet.rowAt s.firstNonzeroId).any fun row => !row.hasTwoIds) = true
  | _ => True

instance (dec : Decoder) (call : DecoderCall) : Decidable (call.Announces dec) :=
  match call with
  | .setCallbackFunctions _ => inferInstanceAs (Decidable (_ ∧ _ = _))
  | .decodeWithNewSourceSymbol _ _ => inferInstanceAs (Decidable (_ ∧ _ = _))
  | .decodeWithNewRepairSymbol _ => inferInstanceAs (Decidable (_ ∧ _ = _))
  | .resetCodingWindow => inferInstanceAs (Decidable (_ ∧ True))
  | .addSourceSymbolToCodingWindow _ => inferInstanceAs (Decidable (_ ∧ True))
  | .generateCodingCoefs _ _ _ => inferInstanceAs (Decidable (_ ∧ True))

/-- A decoder whose callbacks are set. -/
def Decoder.Active (dec : Decoder) : Prop :=
  dec.notifyDecodedFunc = true ∧ dec.decodedSourceSymbolCallback = true

/-- What a step does to the decoded identifiers, and which of them it announces. -/
structure Notifies (dec : Decoder) (call : DecoderCall) (dec' : Decoder)
    (out : List DecodedSourceSymbol) : Prop where
  mono : ∀ id, dec.symbolSet.Decodes id → dec'.symbolSet.Decodes id
  count : ∀ id, (out.map DecodedSourceSymbol.esi).count id =
    if ¬ dec.symbolSet.Decodes id ∧ dec'.symbolSet.Decodes id ∧ ¬ call.IsSource id then 1 else 0
  source : ∀ id < symbolIdNone, call.IsSource id → dec'.symbolSet.Decodes id

section Step

variable {dec dec' : Decoder} {call : DecoderCall} {out : List DecodedSourceSymbol}
  {s n : FullSymbol} {notified : List Notification} {id : ℕ}

/-- The submission of a source symbol. -/
theorem submitted_of_isSource (ok : decoderStep dec call = .ok (dec', out))
    (is_source : call.IsSource id) (valid : id < symbolIdNone) :
    ∃ data, call.submitted dec = some (sourceSymbol id data) := by
  cases call with
  | decodeWithNewSourceSymbol buf esi =>
      have eq : (esi : ℕ) = id := is_source
      obtain ⟨s, create_eq, -⟩ := bind_eq_ok.mp ok
      obtain ⟨-, -, ⟨-, rfl⟩ | ⟨none, -⟩⟩ := newSourceSymbol_of_ok create_eq
      · refine ⟨buf.take dec.symbolSize, toOption_eq_some.mpr ?_⟩
        rw [create_eq, eq]
      · omega
  | _ => cases is_source

/-- Whether a new pivot is announced: in a call that announces what it decodes, the
identifier of a newly decoded pivot is left out only where it is submitted as a source
symbol. -/
theorem silent_iff_isSource (inv : dec.Invariant) (announces : call.Announces dec)
    (submits : call.submitted dec = some s)
    (el : Eliminated dec.symbolSet s n dec'.symbolSet notified)
    (old : ¬ dec.symbolSet.Decodes id) (new : dec'.symbolSet.Decodes id) :
    (id = n.firstNonzeroId ∧ fullSymbolHasOneId s = true) ↔ call.IsSource id := by
  have nz := el.nonzero
  cases call with
  | decodeWithNewSourceSymbol buf esi =>
      obtain ⟨-, -, ⟨valid, rfl⟩ | ⟨-, zero⟩⟩ := newSourceSymbol_of_ok (toOption_eq_some.mp submits)
      · have decoded :
            ∀ row, dec.symbolSet.rowAt esi = some row → fullSymbolHasOneId row = true := by
          intro row at_esi
          have all : (dec.symbolSet.rowAt esi).all fullSymbolHasOneId = true := announces.2
          rwa [at_esi] at all
        constructor
        · rintro ⟨rfl, -⟩
          exact (el.pivot_of_single inv.set one_ne_zero (sourceSymbol_coefs valid _)
            (el.decodes_pivot_iff.mp new)
            fun row at_esi => hasTwoIds_of_hasOneId (decoded row at_esi)).symm
        · intro is_source
          have eq : (esi : ℕ) = id := is_source
          refine ⟨?_, sourceSymbol_hasOneId valid _⟩
          by_contra other
          obtain ⟨row', at_id', -⟩ := new
          obtain ⟨row, at_id, -⟩ := el.rows id row' other at_id'
          exact old ⟨row, at_id, decoded row (eq ▸ at_id)⟩
      · rw [zero] at nz
        cases nz
  | decodeWithNewRepairSymbol buf =>
      refine iff_of_false ?_ not_false
      rintro ⟨rfl, one⟩
      have one_n := el.decodes_pivot_iff.mp new
      have cond : (newRepairSymbol dec buf).toOption.all (fun s => !fullSymbolHasOneId s ||
          (dec.symbolSet.rowAt s.firstNonzeroId).any fun row => !row.hasTwoIds) = true :=
        announces.2
      have found : (newRepairSymbol dec buf).toOption = some s := submits
      rw [found, Option.all_some, one, Bool.not_true, Bool.false_or, Option.any_eq_true] at cond
      obtain ⟨row, at_m, several⟩ := cond
      obtain ⟨a, a_ne, single⟩ := (submitted_wellFormed inv submits).hasOneId_iff.mp one
      have lead := el.pivot_of_single inv.set a_ne single one_n fun row' at_m' => by
        rw [at_m] at at_m'
        cases at_m'
        simpa using several
      rw [← lead, el.no_row_of_hasOneId inv.set one_n] at at_m
      cases at_m
  | _ => cases submits

/-- A step that announces what it decodes. -/
theorem decoderStep_notifies (inv : dec.Invariant) (active : dec.Active)
    (ok : decoderStep dec call = .ok (dec', out)) (announces : call.Announces dec) :
    Notifies dec call dec' out := by
  rcases decoderStep_cases inv ok with
    ⟨same, rfl, mem⟩ | ⟨s, n, notified, submits, wf, el, rfl⟩
  · refine ⟨fun id old => by rwa [same], fun id => ?_, fun id valid is_source => ?_⟩
    · rw [same, if_neg fun h => h.1 h.2.1]
      rfl
    · obtain ⟨data, submits⟩ := submitted_of_isSource ok is_source valid
      rw [same, ← inv.set.single_mem_rowSpan_iff, ← sourceSymbol_coefs valid data]
      exact mem _ submits
  · have free : dec.symbolSet.TopFree n.firstNonzeroId := by
      have all := announces.1
      rw [submits, Option.all_some, decide_eq_true_eq] at all
      exact el.topFree_iff.mpr all
    refine ⟨fun id => el.decodes_mono inv.set free, fun id => ?_, fun id valid is_source => ?_⟩
    · have ids : (notified.map Notification.deliver).map DecodedSourceSymbol.esi =
          notified.map Notification.decodedId := by
        rw [List.map_map]
        rfl
      rw [if_pos active.1, ids, el.count_eq free]
      refine if_congr (and_congr_right fun old => and_congr_right fun new => ?_) rfl rfl
      exact not_congr (silent_iff_isSource inv announces submits el old new)
    · obtain ⟨data, submits'⟩ := submitted_of_isSource ok is_source valid
      rw [submits] at submits'
      cases submits'
      rw [← (el.invariant inv.set).single_mem_rowSpan_iff, ← sourceSymbol_coefs valid data,
        el.rowSpan_eq free]
      exact Submodule.mem_sup_right (Submodule.mem_span_singleton_self _)

/-- Callbacks that are set stay set. -/
theorem decoderStep_active (active : dec.Active) (ok : decoderStep dec call = .ok (dec', out))
    (announces : call.Announces dec) : dec'.Active := by
  rcases decoderStep_shape ok with
    ⟨callback, rfl, -, rfl⟩ | ⟨s, -, decode_eq⟩ | ⟨-, -, coefTab, firstId, nbId, rfl, -⟩
  · exact ⟨rfl, announces.2⟩
  · rw [decodeFullSymbol_frame decode_eq]
    exact active
  · exact active

end Step

section Run

variable {start dec : Decoder} {calls : List DecoderCall} {outs : List DecodedSourceSymbol} {id : ℕ}
  (init : start.Invariant) (active : start.Active)
  (run : DecoderRun (fun dec call => call.Announces dec) start calls dec outs)
include init active run

omit init in
theorem active_of_run : dec.Active := by
  induction run with
  | nil => exact active
  | snoc _ ok cond ih => exact decoderStep_active ih ok cond.2

/-- A decoded identifier stays decoded and is not announced again. -/
theorem quiet_of_decodes (decoded : start.symbolSet.Decodes id) :
    dec.symbolSet.Decodes id ∧ (outs.map DecodedSourceSymbol.esi).count id = 0 := by
  induction run with
  | nil => exact ⟨decoded, rfl⟩
  | snoc before ok cond ih =>
      obtain ⟨still, silent⟩ := ih
      have inv := decoderInvariant_of_run init before
      have step := decoderStep_notifies inv (active_of_run active before) ok cond.2
      refine ⟨step.mono id still, ?_⟩
      rw [List.map_append, List.count_append, silent, step.count, if_neg fun h => h.1 still]

/-- Only decoded identifiers have been announced. -/
theorem decodes_of_announced (mem : id ∈ outs.map DecodedSourceSymbol.esi) :
    dec.symbolSet.Decodes id := by
  induction run with
  | nil => cases mem
  | snoc before ok cond ih =>
      have inv := decoderInvariant_of_run init before
      have step := decoderStep_notifies inv (active_of_run active before) ok cond.2
      rw [List.map_append] at mem
      rcases List.mem_append.mp mem with old | new
      · exact step.mono id (ih old)
      · have counted := List.count_pos_iff.mpr new
        rw [step.count] at counted
        split at counted
        · rename_i h
          exact h.2.1
        · cases counted

/-- Every source symbol that was submitted is decoded. -/
theorem decodes_of_source (valid : id < symbolIdNone) {call : DecoderCall} (mem : call ∈ calls)
    (is_source : call.IsSource id) : dec.symbolSet.Decodes id := by
  induction run with
  | nil => cases mem
  | snoc before ok cond ih =>
      have inv := decoderInvariant_of_run init before
      have step := decoderStep_notifies inv (active_of_run active before) ok cond.2
      rcases List.mem_append.mp mem with old | new
      · exact step.mono id (ih old)
      · rw [List.mem_singleton.mp new] at is_source
        exact step.source id valid is_source

end Run

/-- In every run of calls that announce what they decode: an identifier that becomes
decoded while it has not been submitted as a source symbol is announced exactly once,
in that call; and no identifier is announced that has been submitted. -/
theorem notified_once_of_run {n w : ℕ} {calls : List DecoderCall} {dec : Decoder}
    {outs : List DecodedSourceSymbol}
    (run : DecoderRun (fun dec call => call.Announces dec) (activeDecoder n w) calls dec outs)
    {before after : List DecoderCall} {call : DecoderCall} (split : calls = before ++ call :: after)
    {dec₀ dec₁ : Decoder} {outs₀ out : List DecodedSourceSymbol}
    (reached : Steps decoderStep (fun _ _ _ => True) (activeDecoder n w) before dec₀ outs₀)
    (ok : decoderStep dec₀ call = .ok (dec₁, out)) (id : ℕ) :
    (¬ dec₀.symbolSet.Decodes id → dec₁.symbolSet.Decodes id →
      (∀ c ∈ before ++ [call], ¬ c.IsSource id) →
      (out.map DecodedSourceSymbol.esi).count id = 1 ∧
        (outs.map DecodedSourceSymbol.esi).count id = 1) ∧
    (id ∈ out.map DecodedSourceSymbol.esi → ∀ c ∈ before ++ [call], ¬ c.IsSource id) := by
  have init := activeDecoder_invariant n w
  have active : (activeDecoder n w).Active := ⟨rfl, rfl⟩
  rw [split, ← List.singleton_append, ← List.append_assoc] at run
  obtain ⟨dec₁', outs₁, outs₂, run₁, run₂, rfl⟩ := run.split
  obtain ⟨dec₀', outs₀', out', run₀, ok', cond, rfl⟩ := run₁.split_last
  obtain ⟨rfl, rfl⟩ := reached.deterministic run₀
  rw [ok] at ok'
  cases ok'
  have inv := decoderInvariant_of_run init run₀
  have step := decoderStep_notifies inv (active_of_run active run₀) ok cond.2
  refine ⟨fun old new not_source => ?_, fun announced c mem is_source => ?_⟩
  · have once : (out.map DecodedSourceSymbol.esi).count id = 1 := by
      rw [step.count, if_pos ⟨old, new, not_source call (by simp)⟩]
    have earlier : (outs₀.map DecodedSourceSymbol.esi).count id = 0 := by
      refine List.count_eq_zero.mpr fun mem => ?_
      exact old (decodes_of_announced init active run₀ mem)
    obtain ⟨-, later⟩ := quiet_of_decodes (decoderInvariant_of_run init run₁)
      (active_of_run active run₁) run₂ new
    refine ⟨once, ?_⟩
    rw [List.map_append, List.map_append, List.count_append, List.count_append, earlier, once,
      later]
  · have counted := List.count_pos_iff.mpr announced
    rw [step.count] at counted
    split at counted
    case isFalse => cases counted
    case isTrue h =>
      obtain ⟨row, at_id, -⟩ := h.2.1
      have valid := lt_none_of_rowAt (decoderInvariant_of_run init run₁).set.toTableOk cond.1 at_id
      rcases List.mem_append.mp mem with old | new
      · exact h.1 (decodes_of_source init active run₀ valid old is_source)
      · rw [List.mem_singleton.mp new] at is_source
        exact h.2.2 is_source

theorem notified_once_after_loss :
    ∃ dec₀ dec₁ outs₀ out,
      Steps decoderStep (fun _ _ _ => True) (activeDecoder 2 2)
        [.decodeWithNewSourceSymbol (bytes [5, 7]) ⟨5, by decide⟩, .resetCodingWindow,
          .addSourceSymbolToCodingWindow ⟨5, by decide⟩,
          .addSourceSymbolToCodingWindow ⟨6, by decide⟩, .generateCodingCoefs 1 15 fun _ => 0]
        dec₀ outs₀ ∧
      decoderStep dec₀ (.decodeWithNewRepairSymbol (bytes [205, 102])) = .ok (dec₁, out) ∧
      (out.map DecodedSourceSymbol.esi).count 6 = 1 := by
  obtain ⟨dec₀, outs₀, steps₀, next⟩ := exists_steps_of_map
    (show (checkedRun decoderStep
      (fun dec call dec' => dec'.symbolSet.NoWrap ∧ call.Announces dec) (activeDecoder 2 2)
      [.decodeWithNewSourceSymbol (bytes [5, 7]) ⟨5, by decide⟩, .resetCodingWindow,
        .addSourceSymbolToCodingWindow ⟨5, by decide⟩,
        .addSourceSymbolToCodingWindow ⟨6, by decide⟩, .generateCodingCoefs 1 15 fun _ => 0]).map
      (fun r => (checkedRun decoderStep
        (fun dec call dec' => dec'.symbolSet.NoWrap ∧ call.Announces dec) r.1
        [.decodeWithNewRepairSymbol (bytes [205, 102])]).map fun r' =>
          decide (¬ r.1.symbolSet.Decodes 6 ∧ r'.1.symbolSet.Decodes 6)) = some (some true)
      by decide +kernel)
  obtain ⟨⟨dec₁, out⟩, run₁, becomes⟩ := Option.map_eq_some_iff.mp next
  obtain ⟨old, new⟩ := of_decide_eq_true becomes
  have steps₁ := steps_of_checkedRun run₁
  have reached : Steps decoderStep (fun _ _ _ => True) (activeDecoder 2 2) _ dec₀ outs₀ :=
    steps₀.mono fun _ => trivial
  have ok := steps₁.single_inv.1
  exact ⟨dec₀, dec₁, outs₀, out, reached, ok,
    ((notified_once_of_run (steps₀.append steps₁) rfl reached ok 6).1 old new (by decide)).1⟩

/-- A repair symbol with a single coefficient decodes its source symbol and tells
nobody. -/
theorem single_repair_not_notified :
    ¬ ∀ (n w : ℕ) (calls : List DecoderCall) (dec : Decoder) (outs : List DecodedSourceSymbol)
        (id : ℕ), (∀ call ∈ calls, ∀ callback, call ≠ .setCallbackFunctions callback) →
      DecoderRun (fun _ _ => True) (activeDecoder n w) calls dec outs →
      dec.symbolSet.Decodes id → (∀ call ∈ calls, ¬ call.IsSource id) →
      (outs.map DecodedSourceSymbol.esi).count id = 1 := by
  intro once
  obtain ⟨dec, outs, steps, silent⟩ := exists_steps_of_map
    (show (checkedRun decoderStep (fun _ _ dec' => dec'.symbolSet.NoWrap ∧ True)
      (activeDecoder 1 1)
      [.resetCodingWindow, .addSourceSymbolToCodingWindow ⟨5, by decide⟩,
        .generateCodingCoefs 1 15 fun _ => 0, .decodeWithNewRepairSymbol (bytes [7])]).map
      (fun r => decide (r.1.symbolSet.Decodes 5 ∧ r.2 = [])) = some true by decide +kernel)
  obtain ⟨decoded, none⟩ := of_decide_eq_true silent
  dsimp only at none
  have counted := once 1 1 _ dec outs 5 (by simp) steps decoded (by decide)
  rw [none] at counted
  cases counted

end SwifCodec
