import SwifCodec.Memory.Storing

/-!
Which blocks are live after a submission to a set in echelon form.

A submission that is found redundant leaves every block. Any other one leaves no stored symbol in
the block it was in, so a pointer to a row is good until the next one. What was notified during a
submission is good after it (`SubmittedAt.reports`). A row that is pushed out of the table stays
live and is never freed (`SubmittedAt.lost_iff`).
-/

namespace SwifCodec

open Library FullSymbol FullSymbolSet

/-- What a notification points the application to. -/
structure NotificationAt.Reports (call : NotificationAt) (e : ℕ × FullSymbol) : Prop where
  pivot : call.set.getPivot call.decodedId = .ok (some e.1)
  read : call.memory.read e.1 = some e.2

section Table

variable {cells cells' : OwnedTable} {e : ℕ × FullSymbol} {j : ℕ}
  {lost prior : Multiset (ℕ × FullSymbol)} {call : NotificationAt}

/-- A table has a block for each stored symbol. -/
theorem card_entries (cells : OwnedTable) : cells.entries.card = cells.contents.occupied := by
  show cells.fullSymbolTab.reduceOption.length =
    (cells.fullSymbolTab.map (Option.map Prod.snd)).countP Option.isSome
  rw [List.reduceOption_length_eq, List.countP_map, List.countP_eq_length_filter]
  congr 1
  refine List.filter_congr fun cell _ => ?_
  cases cell <;> rfl

theorem rowAt_contents (at_j : cells.fullSymbolTab[j]? = some (some e)) :
    cells.contents.rowAt (cells.firstSymbolId + j) = some e.2 := by
  have slot := cells.contents.rowAt_slot j
  rw [List.getD_eq_getElem?_getD, getElem?_contents, at_j] at slot
  exact slot

/-- A block is pushed out exactly where the slots at the top are taken. -/
theorem Stored.lost_iff (stored : Stored cells e cells' lost prior) (ok : cells.contents.TableOk)
    (ins : Inserted cells.contents e.2 cells'.contents) :
    lost = 0 ↔ cells.contents.TopFree e.2.firstNonzeroId := by
  by_cases below : cells.contents.InsertsBelow e.2.firstNonzeroId
  · have free : cells.contents.rowAt e.2.firstNonzeroId = none := rowAt_below below.2
    have count := congrArg Multiset.card stored.entries
    rw [stored.below below, add_zero, Multiset.card_cons, Multiset.card_add, card_entries,
      card_entries] at count
    have added := ins.occupied_iff ok
    rw [and_iff_right free] at added
    rw [← added, ← Multiset.card_eq_zero]
    omega
  · exact iff_of_true (stored.above below) fun inside => absurd inside below

/-- A notification for the symbol that leads at its slot. -/
theorem NotificationAt.For.reports (told : call.For cells j e) (ok : cells.contents.TableOk)
    (wrap : cells.contents.NoWrap) (lead : e.2.firstNonzeroId = cells.firstSymbolId + j) :
    call.Reports e := by
  have row := rowAt_contents told.stored
  have some : cells.contents.firstSymbolId ≠ symbolIdNone := fun none => by
    rw [rowAt_of_first_none ok none] at row
    cases row
  have bound : cells.firstSymbolId + cells.size < 4294967296 := wrap some
  have inside : cells.firstSymbolId + j < cells.firstSymbolId + cells.size :=
    (bounds_of_rowAt ok row).2
  refine ⟨?_, told.read⟩
  unfold SymbolTable.getPivot
  rw [told.decodedId, lead, told.size, told.first, add32_of_lt (by omega), if_pos (by omega),
    Nat.add_sub_cancel_left, told.pointer]
  rfl

end Table

/-- After the rounds every row is a cleared one. -/
theorem Clearing.cleared {set mid : FullSymbolSet} {n u : FullSymbol} {id : ℕ}
    (clearing : Clearing set n set.size mid) (ok : set.TableOk) (at_id : mid.rowAt id = some u) :
    ∃ row, set.rowAt id = some row ∧ ClearedRow n row u := by
  have rel := clearing.rel ok id
  rw [at_id] at rel
  generalize set.rowAt id = slot at rel ⊢
  cases rel with
  | some cleared => exact ⟨_, rfl, cleared⟩

section Submission

variable {cells cells' : OwnedTable} {s u : FullSymbol} {bound : ℕ}
  {lost : Multiset (ℕ × FullSymbol)} {calls : List NotificationAt}

/-- What storing a reduced symbol does to the blocks. -/
theorem Pivoted.spec (pivoted : Pivoted cells u bound cells' lost calls)
    (inv : cells.contents.Invariant) (wrap : cells.contents.NoWrap)
    (red : ReducedBy cells.contents s u) :
    (∀ e ∈ cells'.entries + lost, bound ≤ e.1) ∧
      (lost = 0 ↔ cells.contents.TopFree u.firstNonzeroId) ∧
      ∀ call ∈ calls, ∃ e ∈ cells'.entries + lost, call.Reports e := by
  obtain ⟨n, mid, e, prior, k, scale_eq, cleared, add_eq, clone_eq, fresh, stored⟩ :=
    pivoted.steps red.wellFormed red.nonzero
  obtain ⟨n', scale_eq', piv, first, -⟩ := red.normalise inv
  rw [scale_eq] at scale_eq'
  cases scale_eq'
  obtain ⟨mid', notified, rounds, clearing, -⟩ :=
    addAsPivotLoop_spec inv wrap piv cells.contents.size le_rfl
  have rounds_eq : (List.range cells.contents.size).foldlM (addAsPivotStep n)
      (cells.contents, []) = .ok (mid.contents, calls.map NotificationAt.view) := cleared.rounds
  rw [rounds_eq] at rounds
  cases rounds
  have mid_ok := clearing.tableOk inv.toTableOk
  rw [fullSymbolClone_of_nonzero piv.wellFormed piv.nonzero] at clone_eq
  have copy : e.2 = n := (Except.ok.inj clone_eq).symm
  have ins := fullSymbolSetAdd_of_ok mid_ok piv.wellFormed piv.nonzero add_eq
  have blocks := stored.entries
  refine ⟨fun b mem => ?_, ?_, fun call mem => ?_⟩
  · have among : b ∈ e ::ₘ mid.entries := by
      rw [blocks]
      exact Multiset.mem_add.mpr (.inl mem)
    rcases Multiset.mem_cons.mp among with rfl | old
    · exact fresh
    · exact cleared.fresh b old
  · rw [← copy] at ins
    rw [stored.lost_iff mid_ok ins, copy, clearing.topFree_iff inv.toTableOk, first]
  · obtain ⟨j, b, told⟩ := cleared.told call mem
    -- The symbol in slot `j` is a cleared row, so it leads there, and not where the pivot goes.
    obtain ⟨row, at_old, row_cleared⟩ :=
      clearing.cleared inv.toTableOk (rowAt_contents told.stored)
    obtain ⟨ne, lead, -⟩ := row_cleared.of_hasOneId inv piv at_old told.single
    have kept : b ∈ cells'.entries + lost := by
      have among : b ∈ cells'.entries + lost + prior := by
        rw [← blocks]
        exact Multiset.mem_cons_of_mem (mem_entries.mpr ⟨j, told.stored⟩)
      refine (Multiset.mem_add.mp among).resolve_right fun overwritten => ?_
      have at_pivot := stored.overwritten mid_ok b overwritten
      rw [copy] at at_pivot
      obtain ⟨row', at_old', row_cleared'⟩ := clearing.cleared inv.toTableOk at_pivot
      exact (row_cleared'.of_hasOneId inv piv at_old' told.single).1 rfl
    exact ⟨b, kept, told.reports mid_ok (clearing.noWrap wrap) lead⟩

variable (sub : SubmittedAt cells s bound cells' lost calls) (inv : cells.contents.Invariant)
  (wrap : cells.contents.NoWrap) (wf : s.WellFormed)

include sub inv wrap wf

/-- A submission that is not found redundant leaves no stored symbol in the block it was in. -/
theorem SubmittedAt.fresh (stored : fullSymbolSetRemoveEachPivot cells.contents s ≠ .ok none) :
    ∀ e ∈ cells'.entries + lost, bound ≤ e.1 := by
  rcases fullSymbolSetRemoveEachPivot_spec inv wrap wf with ⟨none, -⟩ | ⟨u, some, -, red⟩
  · exact absurd none stored
  · obtain ⟨told, last, -, pivoted, -⟩ := sub.pivoted u some
    exact (pivoted.spec inv wrap red).1

/-- A submission loses a block exactly where its slots at the top are taken. -/
theorem SubmittedAt.lost_iff : lost = 0 ↔ cells.contents.TopFree s.firstNonzeroId := by
  rcases fullSymbolSetRemoveEachPivot_spec inv wrap wf with ⟨none, mem⟩ | ⟨u, some, nz, red⟩
  · refine iff_of_true (sub.redundant none).2.1 fun below => ?_
    exact absurd below (above_of_mem_rowSpan (s := ⟨s, wf⟩) inv mem)
  · obtain ⟨told, last, -, pivoted, -⟩ := sub.pivoted u some
    rw [(pivoted.spec inv wrap red).2.1, topFree_iff_of_below (red.first_below inv wf nz)]

/-- What was notified is still there after the submission. -/
theorem SubmittedAt.reports (inv' : cells'.contents.Invariant) (wrap' : cells'.contents.NoWrap) :
    ∀ call ∈ calls, ∃ e ∈ cells'.entries + lost, call.Reports e := by
  intro call mem
  rcases fullSymbolSetRemoveEachPivot_spec inv wrap wf with ⟨none, -⟩ | ⟨u, some, -, red⟩
  · rw [(sub.redundant none).2.2] at mem
    cases mem
  · obtain ⟨told, last, rfl, pivoted, at_last⟩ := sub.pivoted u some
    rcases List.mem_append.mp mem with early | late
    · exact (pivoted.spec inv wrap red).2.2 call early
    · obtain ⟨j, e, told⟩ := at_last call late
      have stored : e ∈ cells'.entries := mem_entries.mpr ⟨j, told.stored⟩
      refine ⟨e, Multiset.mem_add.mpr (.inl stored), told.reports inv'.toTableOk wrap' ?_⟩
      exact inv'.firstNonzeroId (rowAt_contents told.stored)

end Submission

end SwifCodec
