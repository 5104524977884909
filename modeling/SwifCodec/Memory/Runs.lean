import SwifCodec.Memory.Decoder

/-!
Runs of a decoder in memory.

A run does in memory what it does without, next to whatever else is in the memory
(`decoder_memory_of_run`). The blocks of the table are freed by a release; a block that was pushed
out of the table is not (`released_iff_of_run`). The buffers that the callback hands out keep
their contents and are freed by the next submission that is not redundant
(`callback_buffer_of_run`).
-/

namespace SwifCodec

open Library FullSymbol FullSymbolSet Gf256

/-- The decoder as the other modules have it. -/
def DecoderMemory.view (state : DecoderMemory) : Decoder := state.1.view state.2

/-- The slots at the top that a submission needs are free. -/
def DecoderMemory.Keeps (state : DecoderMemory) (call : DecoderCall) : Prop :=
  ∀ s ∈ call.submitted state.view, state.view.symbolSet.TopFree s.firstNonzeroId

/-- A call that submits nothing, or a symbol that is found redundant. -/
def DecoderMemory.Redundant (state : DecoderMemory) (call : DecoderCall) : Prop :=
  ∀ s ∈ call.submitted state.view,
    fullSymbolSetRemoveEachPivot state.view.symbolSet s = .ok none

instance (state : DecoderMemory) (call : DecoderCall) : Decidable (state.Keeps call) :=
  inferInstanceAs (Decidable (∀ s ∈ _, _))

instance (state : DecoderMemory) (call : DecoderCall) : Decidable (state.Redundant call) :=
  inferInstanceAs (Decidable (∀ s ∈ _, _))

/-- The runs of a decoder in memory in which no set wraps. -/
abbrev MemoryRun (start : DecoderMemory) : List DecoderCall → DecoderMemory →
    List DecodedSourceSymbolAt → Prop :=
  Steps decoderStepAt (fun _ _ state => state.view.symbolSet.NoWrap) start

section Step

variable {m : Multiset (ℕ × FullSymbol)} {cells : OwnedTable} {state state' : DecoderMemory}
  {call : DecoderCall} {out : List DecodedSourceSymbolAt}

theorem swifRlcDecoderCreateAt_owns {h : Memory} (holds : h.Holds m) (n w : ℕ) :
    (swifRlcDecoderCreateAt n w).Owns h SymbolTable.alloc m := by
  refine ⟨rfl, rfl, ?_⟩
  rw [SymbolTable.alloc_entries, zero_add]
  exact holds

/-- A release frees the blocks of the table. -/
theorem swifRlcDecoderReleaseAt_ok {dec : DecoderAt} {h : Memory} (owns : dec.Owns h cells m) :
    ∃ h', swifRlcDecoderReleaseAt dec h = .ok ((), h') ∧ h'.Holds m := by
  unfold swifRlcDecoderReleaseAt
  rw [owns.table]
  exact fullSymbolSetFree_ok owns.length owns.holds

/-- What a step that returns does to the blocks. -/
structure Stepped (m : Multiset (ℕ × FullSymbol)) (cells : OwnedTable) (state : DecoderMemory)
    (call : DecoderCall) (state' : DecoderMemory) (out : List DecodedSourceSymbolAt)
    (cells' : OwnedTable) (lost : Multiset (ℕ × FullSymbol)) : Prop where
  later : state.2.Later state'.2
  step : decoderStep state.view call = .ok (state'.view, out.map DecodedSourceSymbolAt.view)
  owns : state'.1.Owns state'.2 cells' (lost + m)
  kept : state.Redundant call → cells' = cells ∧ lost = 0
  fresh : ¬ state.Redundant call → ∀ e ∈ cells'.entries + lost, state.2.blocks.length ≤ e.1
  lost_iff : lost = 0 ↔ state.Keeps call
  told : state'.view.symbolSet.NoWrap → ∀ d ∈ out,
    ∃ s, (d.newSymbolBuf, s) ∈ cells'.entries + lost ∧ d.data = s.data

theorem decoderStepAt_ok (ok : decoderStepAt state call = .ok (state', out)) :
    decoderCallAt state.1 call state.2 = .ok ((state'.1, out), state'.2) := by
  unfold decoderStepAt at ok
  split at ok
  case h_1 eq =>
    cases ok
    exact eq
  case h_2 => cases ok

theorem stepped_of_ok (owns : state.1.Owns state.2 cells m) (inv : state.view.Invariant)
    (ok : decoderStepAt state call = .ok (state', out)) :
    ∃ cells' lost, Stepped m cells state call state' out cells' lost := by
  obtain ⟨r, step_eq, later, cells', lost, dec_eq, out_eq, after⟩ :=
    (decoderCallAt_sim owns call).of_ok (decoderStepAt_ok ok)
  have step : decoderStep state.view call =
      .ok (state'.view, out.map DecodedSourceSymbolAt.view) := by
    refine step_eq.trans (congrArg Except.ok (Prod.ext ?_ ?_))
    · exact dec_eq
    · exact out_eq
  have contents : state.view.symbolSet = cells.contents := owns.view
  have contents' : state'.view.symbolSet = cells'.contents := after.owns.view
  cases submits : call.submitted state.view with
  | none =>
      obtain ⟨rfl, rfl, rfl⟩ := after.idle submits
      have nothing : ∀ s, call.submitted state.view ≠ some s := fun s some => by
        rw [submits] at some
        cases some
      exact ⟨cells', 0, later, step, after.owns, fun _ => ⟨rfl, rfl⟩,
        fun stored => absurd (fun s some => absurd some (nothing s)) stored,
        iff_of_true rfl fun s some => absurd some (nothing s), fun _ => nofun⟩
  | some s =>
      obtain ⟨calls, sub, told⟩ := (after.accepted s submits).calls
      have wf := submitted_wellFormed inv submits
      have set_inv := inv.set
      have wrap := inv.noWrap
      have set_inv' := decoderStep_set inv step
      have only : ∀ t, call.submitted state.view = some t → t = s := fun t some => by
        rw [submits] at some
        exact (Option.some.inj some).symm
      rw [contents] at set_inv wrap
      rw [contents'] at set_inv'
      refine ⟨cells', lost, later, step, after.owns, fun redundant => ?_, fun stored => ?_, ?_,
        fun wrap' d mem => ?_⟩
      · have none := redundant s submits
        rw [contents] at none
        exact ⟨(sub.redundant none).1, (sub.redundant none).2.1⟩
      · refine sub.fresh set_inv wrap wf fun none => stored fun t some => ?_
        rw [only t some, contents]
        exact none
      · rw [sub.lost_iff set_inv wrap wf, ← contents]
        refine ⟨fun top t some => ?_, fun keeps => keeps s submits⟩
        rw [only t some]
        exact top
      · rw [contents'] at wrap'
        obtain ⟨notification, among, t, pivot, read, data⟩ := told d mem
        obtain ⟨e, kept, reports⟩ := sub.reports set_inv wrap wf set_inv' wrap' notification among
        have address : e.1 = d.newSymbolBuf :=
          Option.some.inj (Except.ok.inj (reports.pivot.symm.trans pivot))
        rw [← address, reports.read] at read
        cases read
        exact ⟨e.2, by rw [← address]; exact kept, data⟩

end Step

/-! ### Whole runs -/

section Run

variable {h : Memory} {m : Multiset (ℕ × FullSymbol)} {state state' : DecoderMemory}
  {calls calls' : List DecoderCall} {outs outs' : List DecodedSourceSymbolAt} {n w : ℕ}

/-- A run in memory fails where the run without memory fails, never by using or freeing a freed
block, and ends where it ends, with the same callbacks. Then a release frees what the table
points to, and everything that was in the memory before is still there. -/
theorem decoder_memory_of_run (holds : h.Holds m) (n w : ℕ) (calls : List DecoderCall) :
    (∀ e, run decoderStepAt (swifRlcDecoderCreateAt n w, h) calls = .error e ↔
      ∃ e', e = .fault e' ∧ run decoderStep (swifRlcDecoderCreate n w) calls = .error e') ∧
    ∀ state outs, run decoderStepAt (swifRlcDecoderCreateAt n w, h) calls = .ok (state, outs) →
      run decoderStep (swifRlcDecoderCreate n w) calls =
          .ok (state.view, outs.map DecodedSourceSymbolAt.view) ∧
        ∃ lost h', swifRlcDecoderReleaseAt state.1 state.2 = .ok ((), h') ∧
          h'.Holds (lost + m) := by
  have refines := @run_refines _ DecoderCall _ Fault decoderStep _ _ (HeapFault Fault)
    decoderStepAt (fun state d => d = state.view ∧
      ∃ cells lost, state.1.Owns state.2 cells (lost + m)) HeapFault.fault
    DecodedSourceSymbolAt.view ?_ (swifRlcDecoderCreateAt n w, h) (swifRlcDecoderCreate n w)
    ⟨rfl, SymbolTable.alloc, 0, by
      rw [zero_add]
      exact swifRlcDecoderCreateAt_owns holds n w⟩ calls
  · rcases refines with ⟨e, fails, fails'⟩ | ⟨state, outs, d, ok', ok, rfl, cells, lost, owns⟩
    · rw [fails, fails']
      refine ⟨fun fault => ⟨fun eq => ?_, ?_⟩, nofun⟩
      · cases eq
        exact ⟨e, rfl, rfl⟩
      · rintro ⟨e', rfl, eq⟩
        cases eq
        rfl
    · rw [ok, ok']
      refine ⟨fun fault => iff_of_false nofun ?_, fun state' outs' eq => ?_⟩
      · rintro ⟨e', -, eq⟩
        cases eq
      · cases eq
        exact ⟨rfl, lost, swifRlcDecoderReleaseAt_ok owns⟩
  · rintro state d call ⟨rfl, cells, lost, owns⟩
    have sim := decoderCallAt_sim owns call
    unfold decoderStepAt
    cases result : decoderStep state.view call with
    | error e =>
        have fault : decoderCallAt state.1 call state.2 = .error (.fault e) := by
          unfold Simulates at sim
          rw [show decoderStep (state.1.view state.2) call = .error e from result] at sim
          exact sim
        rw [fault]
        exact .inl ⟨e, rfl, rfl⟩
    | ok r =>
        unfold Simulates at sim
        rw [show decoderStep (state.1.view state.2) call = .ok r from result] at sim
        obtain ⟨⟨dec', out⟩, h', ok, -, cells', lost', dec_eq, out_eq, after⟩ := sim
        rw [ok]
        refine .inr ⟨(dec', h'), out, r.1, rfl, ?_, dec_eq, cells', lost' + lost, ?_⟩
        · rw [← out_eq]
        · rw [add_assoc]
          exact after.owns

/-- What a run that ends gives. -/
theorem exists_run_of_map {start : DecoderMemory} {α : Type}
    {f : DecoderMemory × List DecodedSourceSymbolAt → α} {a : α}
    (ends : (run decoderStepAt start calls).toOption.map f = some a) :
    ∃ state outs, run decoderStepAt start calls = .ok (state, outs) ∧ f (state, outs) = a := by
  cases result : run decoderStepAt start calls with
  | error e =>
      rw [result] at ends
      cases ends
  | ok r =>
      rw [result] at ends
      exact ⟨r.1, r.2, rfl, Option.some.inj ends⟩

theorem decoder_memory_of_run_one_report : ∃ state d h' lost,
    run decoderStepAt (swifRlcDecoderCreateAt 2 2, Heap.empty)
      [.setCallbackFunctions true, .decodeWithNewSourceSymbol (bytes [5, 7]) ⟨5, by decide⟩,
        .resetCodingWindow, .addSourceSymbolToCodingWindow ⟨5, by decide⟩,
        .addSourceSymbolToCodingWindow ⟨6, by decide⟩, .generateCodingCoefs 1 15 fun _ => 0,
        .decodeWithNewRepairSymbol (bytes [205, 102])] = .ok (state, [d]) ∧
      d.esi = 6 ∧ swifRlcDecoderReleaseAt state.1 state.2 = .ok ((), h') ∧
      h'.Holds (lost + 0) := by
  obtain ⟨state, outs, ok, told⟩ := exists_run_of_map
    (show (run decoderStepAt (swifRlcDecoderCreateAt 2 2, Heap.empty)
      [.setCallbackFunctions true, .decodeWithNewSourceSymbol (bytes [5, 7]) ⟨5, by decide⟩,
        .resetCodingWindow, .addSourceSymbolToCodingWindow ⟨5, by decide⟩,
        .addSourceSymbolToCodingWindow ⟨6, by decide⟩, .generateCodingCoefs 1 15 fun _ => 0,
        .decodeWithNewRepairSymbol (bytes [205, 102])]).toOption.map
      (fun r => r.2.map DecodedSourceSymbolAt.esi) = some [6] by decide +kernel)
  obtain ⟨d, rfl, esi⟩ := List.map_eq_singleton_iff.mp told
  obtain ⟨-, lost, h', release, holds⟩ :=
    (decoder_memory_of_run Heap.holds_empty 2 2 _).2 state [d] ok
  exact ⟨state, d, h', lost, ok, esi, release, holds⟩

/-- After a run the blocks of the decoder are those of its table and those that were pushed out of
it. -/
theorem owns_of_run (holds : h.Holds m)
    (run : MemoryRun (swifRlcDecoderCreateAt n w, h) calls state outs) :
    state.view.Invariant ∧ ∃ cells lost, state.1.Owns state.2 cells (lost + m) ∧
      (lost = 0 ↔ Steps decoderStepAt (fun state call _ => state.Keeps call)
        (swifRlcDecoderCreateAt n w, h) calls state outs) := by
  induction run with
  | nil =>
      refine ⟨swifRlcDecoderCreate_invariant n w, SymbolTable.alloc, 0, ?_, fun _ => .nil,
        fun _ => rfl⟩
      rw [zero_add]
      exact swifRlcDecoderCreateAt_owns holds n w
  | @snoc state state' calls call outs out before ok wrap ih =>
      obtain ⟨inv, cells, lost, owns, kept⟩ := ih
      obtain ⟨cells', lost', stepped⟩ := stepped_of_ok owns inv ok
      refine ⟨decoderStep_invariant inv stepped.step wrap, cells', lost' + lost, ?_, ?_⟩
      · rw [add_assoc]
        exact stepped.owns
      · rw [add_eq_zero, stepped.lost_iff, kept]
        constructor
        · rintro ⟨keeps, all⟩
          exact all.snoc ok keeps
        · intro all
          obtain ⟨mid, o₁, o₂, all, ok', keeps, split⟩ := all.split_last
          obtain ⟨rfl, rfl⟩ := before.deterministic all
          exact ⟨keeps, by rwa [List.append_cancel_left split] at *⟩

/-- A release frees every block of the decoder exactly when no submission of the run pushed a row
out of the table. -/
theorem released_iff_of_run (holds : h.Holds m)
    (run : MemoryRun (swifRlcDecoderCreateAt n w, h) calls state outs) :
    (∃ h', swifRlcDecoderReleaseAt state.1 state.2 = .ok ((), h') ∧ h'.Holds m) ↔
      Steps decoderStepAt (fun state call _ => state.Keeps call)
        (swifRlcDecoderCreateAt n w, h) calls state outs := by
  obtain ⟨-, cells, lost, owns, kept⟩ := owns_of_run holds run
  obtain ⟨h', release, rest⟩ := swifRlcDecoderReleaseAt_ok owns
  rw [← kept, release]
  constructor
  · rintro ⟨h'', same, none⟩
    cases same
    have eq : lost + m = 0 + m := by rw [zero_add, rest.unique none]
    exact add_right_cancel eq
  · rintro rfl
    rw [zero_add] at rest
    exact ⟨h', rfl, rest⟩

/-- A row that is pushed out of the table is never freed. -/
theorem released_iff_of_run_pushed_out : ∃ state outs h',
    MemoryRun (swifRlcDecoderCreateAt 1 1, Heap.empty)
      [.decodeWithNewSourceSymbol (bytes [1]) ⟨20, by decide⟩,
        .decodeWithNewSourceSymbol (bytes [2]) ⟨35, by decide⟩,
        .decodeWithNewSourceSymbol (bytes [3]) ⟨10, by decide⟩] state outs ∧
      swifRlcDecoderReleaseAt state.1 state.2 = .ok ((), h') ∧ ¬ h'.Holds 0 ∧
      ¬ Steps decoderStepAt (fun state call _ => state.Keeps call)
        (swifRlcDecoderCreateAt 1 1, Heap.empty)
        [.decodeWithNewSourceSymbol (bytes [1]) ⟨20, by decide⟩,
          .decodeWithNewSourceSymbol (bytes [2]) ⟨35, by decide⟩,
          .decodeWithNewSourceSymbol (bytes [3]) ⟨10, by decide⟩] state outs := by
  obtain ⟨state, outs, run, left⟩ := exists_steps_of_map
    (show (checkedRun decoderStepAt (fun _ _ state => state.view.symbolSet.NoWrap)
      (swifRlcDecoderCreateAt 1 1, Heap.empty)
      [.decodeWithNewSourceSymbol (bytes [1]) ⟨20, by decide⟩,
        .decodeWithNewSourceSymbol (bytes [2]) ⟨35, by decide⟩,
        .decodeWithNewSourceSymbol (bytes [3]) ⟨10, by decide⟩]).map
      (fun r => (swifRlcDecoderReleaseAt r.1.1 r.1.2).toOption.map fun s =>
        (s.2.read 13).isSome) = some (some true) by decide +kernel)
  cases release : swifRlcDecoderReleaseAt state.1 state.2 with
  | error e =>
      dsimp only at left
      rw [release] at left
      cases left
  | ok r =>
      dsimp only at left
      rw [release] at left
      have live : (r.2.read 13).isSome = true := Option.some.inj left
      have leak : ¬ r.2.Holds 0 := fun none => by
        rw [none.read_eq_none.mpr (Multiset.notMem_zero _)] at live
        cases live
      refine ⟨state, outs, r.2, run, release, leak, fun keeps => ?_⟩
      obtain ⟨h', again, none⟩ := (released_iff_of_run Heap.holds_empty run).mpr keeps
      rw [release] at again
      cases again
      exact leak none

/-- A run leaves every block of the table, if all its submissions are found redundant, or none. -/
theorem fresh_of_run {start : DecoderMemory} {cells : OwnedTable}
    (owns : start.1.Owns start.2 cells m) (inv : start.view.Invariant)
    (run : MemoryRun start calls state outs) :
    state.view.Invariant ∧ start.2.Later state.2 ∧
      ∃ cells' lost, state.1.Owns state.2 cells' (lost + m) ∧
        ((Steps decoderStepAt (fun state call _ => state.Redundant call) start calls state outs ∧
            cells' = cells ∧ lost = 0) ∨
          (¬ Steps decoderStepAt (fun state call _ => state.Redundant call) start calls state outs ∧
            ∀ e ∈ cells'.entries + lost, start.2.blocks.length ≤ e.1)) := by
  induction run with
  | nil =>
      refine ⟨inv, .refl _, cells, 0, ?_, .inl ⟨.nil, rfl, rfl⟩⟩
      rw [zero_add]
      exact owns
  | @snoc state state' calls call outs out before ok wrap ih =>
      obtain ⟨inv', later, cells', lost, owns', so_far⟩ := ih
      obtain ⟨cells'', lost', stepped⟩ := stepped_of_ok owns' inv' ok
      refine ⟨decoderStep_invariant inv' stepped.step wrap, later.trans stepped.later, cells'',
        lost' + lost, by rw [add_assoc]; exact stepped.owns, ?_⟩
      -- The run is redundant when both parts are.
      have all_iff : Steps decoderStepAt (fun state call _ => state.Redundant call) start
          (calls ++ [call]) state' (outs ++ out) ↔
          Steps decoderStepAt (fun state call _ => state.Redundant call) start calls state outs ∧
            state.Redundant call := by
        constructor
        · intro all
          obtain ⟨mid, o₁, o₂, all, ok', redundant, split⟩ := all.split_last
          obtain ⟨rfl, rfl⟩ := before.deterministic all
          exact ⟨all, redundant⟩
        · rintro ⟨all, redundant⟩
          exact all.snoc ok redundant
      rw [all_iff]
      by_cases redundant : state.Redundant call
      · obtain ⟨rfl, rfl⟩ := stepped.kept redundant
        rw [zero_add, and_iff_left redundant]
        exact so_far
      · refine .inr ⟨fun both => redundant both.2, fun e mem => ?_⟩
        rw [← add_assoc] at mem
        rcases Multiset.mem_add.mp mem with new | old
        · exact later.length.trans (stepped.fresh redundant e new)
        · rcases so_far with ⟨-, -, none⟩ | ⟨-, fresh⟩
          · rw [none] at old
            exact absurd old (Multiset.notMem_zero e)
          · exact fresh e (Multiset.mem_add.mpr (.inr old))

/-- A block that is live before a run is live after it with the same contents, or freed. A block
of the table is live exactly as long as every submission is found redundant. -/
theorem live_iff_of_run {start : DecoderMemory} {cells : OwnedTable}
    (owns : start.1.Owns start.2 cells m) (inv : start.view.Invariant)
    (run : MemoryRun start calls state outs) {p : ℕ} {s : FullSymbol}
    (live : start.2.read p = some s) :
    (state.2.read p = some s ∨ state.2.read p = none) ∧
      ((p, s) ∈ cells.entries → ((state.2.read p).isSome ↔
        Steps decoderStepAt (fun state call _ => state.Redundant call) start calls state
          outs)) := by
  obtain ⟨-, -, cells', lost, owns', ⟨redundant, rfl, rfl⟩ | ⟨stored, fresh⟩⟩ :=
    fresh_of_run owns inv run
  · have same : state.2.read p = some s := by
      have holds' := owns'.holds
      rw [zero_add] at holds'
      exact (holds'.read p s).mpr ((owns.holds.read p s).mp live)
    refine ⟨.inl same, fun _ => iff_of_true ?_ redundant⟩
    rw [same]
    rfl
  · have old : ∀ e ∈ cells'.entries + lost, e.1 ≠ p := fun e mem eq =>
      absurd (Heap.lt_of_read live) (by rw [← eq]; exact Nat.not_lt.mpr (fresh e mem))
    have holds' := owns'.holds
    rw [← add_assoc] at holds'
    have kept_iff : ∀ t, state.2.read p = some t ↔ (p, t) ∈ m := fun t => by
      rw [holds'.read, Multiset.mem_add]
      exact ⟨fun either => either.resolve_left fun mem => old _ mem rfl, .inr⟩
    have disjoint : (p, s) ∈ cells.entries → state.2.read p = none := fun mem => by
      rw [Option.eq_none_iff_forall_not_mem]
      intro t kept
      have twice := owns.holds.nodup
      rw [Multiset.map_add, Multiset.nodup_add] at twice
      exact Multiset.disjoint_left.mp twice.2.2 (Multiset.mem_map_of_mem Prod.fst mem)
        (Multiset.mem_map.mpr ⟨(p, t), (kept_iff t).mp kept, rfl⟩)
    refine ⟨?_, fun mem => iff_of_false ?_ stored⟩
    · rcases Multiset.mem_add.mp ((owns.holds.read p s).mp live) with in_table | in_rest
      · exact .inr (disjoint in_table)
      · exact .inl ((kept_iff s).mpr in_rest)
    · rw [disjoint mem]
      exact Bool.false_ne_true

/-- The buffer that a callback is given has the reported data when the call returns. It is never
changed afterwards, only freed; where the call pushed no row out of the table, that is by the
first submission that is not found redundant. -/
theorem callback_buffer_of_run (holds : h.Holds m) {call : DecoderCall} {mid : DecoderMemory}
    {out : List DecodedSourceSymbolAt} {d : DecodedSourceSymbolAt}
    (before : MemoryRun (swifRlcDecoderCreateAt n w, h) calls state outs)
    (ok : decoderStepAt state call = .ok (mid, out)) (wrap : mid.view.symbolSet.NoWrap)
    (later : MemoryRun mid calls' state' outs') (told : d ∈ out) :
    ∃ s, mid.2.read d.newSymbolBuf = some s ∧ d.data = s.data ∧
      (state'.2.read d.newSymbolBuf = some s ∨ state'.2.read d.newSymbolBuf = none) ∧
      (state.Keeps call → ((state'.2.read d.newSymbolBuf).isSome ↔
        Steps decoderStepAt (fun state call _ => state.Redundant call) mid calls' state'
          outs')) := by
  obtain ⟨inv, cells, lost, owns, -⟩ := owns_of_run holds before
  obtain ⟨cells', lost', stepped⟩ := stepped_of_ok owns inv ok
  obtain ⟨s, kept, data⟩ := stepped.told wrap d told
  have owns' := stepped.owns.holds
  rw [← add_assoc] at owns'
  have live := (owns'.read d.newSymbolBuf s).mpr (Multiset.mem_add.mpr (.inl kept))
  have fate := live_iff_of_run stepped.owns (decoderStep_invariant inv stepped.step wrap) later live
  refine ⟨s, live, data, fate.1, fun keeps => fate.2 ?_⟩
  rwa [stepped.lost_iff.mpr keeps, add_zero] at kept

/-- The buffer of a decoded symbol is freed by the next source symbol. -/
theorem callback_buffer_of_run_freed : ∃ state outs mid d s state' outs',
    MemoryRun (swifRlcDecoderCreateAt 2 2, Heap.empty)
      [.setCallbackFunctions true, .decodeWithNewSourceSymbol (bytes [5, 7]) ⟨5, by decide⟩,
        .resetCodingWindow, .addSourceSymbolToCodingWindow ⟨5, by decide⟩,
        .addSourceSymbolToCodingWindow ⟨6, by decide⟩, .generateCodingCoefs 1 15 fun _ => 0]
      state outs ∧
    decoderStepAt state (.decodeWithNewRepairSymbol (bytes [205, 102])) = .ok (mid, [d]) ∧
    mid.2.read d.newSymbolBuf = some s ∧ d.data = s.data ∧
    MemoryRun mid [.decodeWithNewSourceSymbol (bytes [1, 2]) ⟨7, by decide⟩] state' outs' ∧
    state'.2.read d.newSymbolBuf = none := by
  obtain ⟨state, outs, before, rest⟩ := exists_steps_of_map
    (show (checkedRun decoderStepAt (fun _ _ state => state.view.symbolSet.NoWrap)
      (swifRlcDecoderCreateAt 2 2, Heap.empty)
      [.setCallbackFunctions true, .decodeWithNewSourceSymbol (bytes [5, 7]) ⟨5, by decide⟩,
        .resetCodingWindow, .addSourceSymbolToCodingWindow ⟨5, by decide⟩,
        .addSourceSymbolToCodingWindow ⟨6, by decide⟩, .generateCodingCoefs 1 15 fun _ => 0]).map
      (fun r => (checkedRun decoderStepAt (fun _ _ state => state.view.symbolSet.NoWrap) r.1
        [.decodeWithNewRepairSymbol (bytes [205, 102])]).map fun r' => r'.2.map fun d =>
          (checkedRun decoderStepAt (fun _ _ state => state.view.symbolSet.NoWrap) r'.1
            [.decodeWithNewSourceSymbol (bytes [1, 2]) ⟨7, by decide⟩]).map fun r'' =>
              r''.1.2.read d.newSymbolBuf) = some (some [some none]) by decide +kernel)
  obtain ⟨mid, out, call, rest⟩ := exists_steps_of_map rest
  obtain ⟨ok, wrap⟩ := call.single_inv
  obtain ⟨d, rfl, rest⟩ := List.map_eq_singleton_iff.mp rest
  obtain ⟨state', outs', later, freed⟩ := exists_steps_of_map rest
  obtain ⟨s, live, data, -⟩ := callback_buffer_of_run Heap.holds_empty before ok wrap later
    (List.mem_singleton_self d)
  exact ⟨state, outs, mid, d, s, state', outs', before, ok, live, data, later, freed⟩

end Run

end SwifCodec
