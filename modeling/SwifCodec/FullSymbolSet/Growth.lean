import SwifCodec.FullSymbolSet.Closure

/-!
The pivot table across insertions, `full_symbol_set_add` on its own.

The rows that an insertion below the set moves up have to end inside the table. A
table that is long enough for the distance keeps its size, one that is exactly as long
as the distance is doubled; one that is shorter gets at most `distance + 1` slots, and
the rows are moved behind them. `pivotTab_iff_of_run` says that this is the only
access outside the table in any sequence of insertions.
-/

namespace SwifCodec

open Library FullSymbol FullSymbolSet Gf256

/-- One call of `full_symbol_set_add`, with the slot it returns. -/
def insertSymbol (set : FullSymbolSet) (s : Submission) : Exec (FullSymbolSet × List ℕ) := do
  let (set, idx) ← fullSymbolSetAdd set s
  return (set, [idx])

namespace FullSymbolSet

/-- The table can be shifted for a symbol that leads at `id` below the set: it keeps its
size, or is doubled. -/
def Shifts (set : FullSymbolSet) (id : ℕ) : Prop :=
  set.InsertsBelow id →
    set.firstSymbolId - id < set.size ∨
      set.firstSymbolId - id = set.size ∧ 2 * set.size < 4294967296

/-- The table has its declared size, which fits in a `uint32_t`. -/
structure Sized (set : FullSymbolSet) : Prop where
  length : set.fullSymbolTab.length = set.size
  size_ge : 2 ≤ set.size
  size_lt : set.size < 4294967296
  first_le : set.firstSymbolId ≤ symbolIdNone

end FullSymbolSet

section Insert

variable {set set' : FullSymbolSet} {s n : FullSymbol} {k : ℕ}

theorem fullSymbolSetAlloc_sized : fullSymbolSetAlloc.Sized :=
  ⟨rfl, by decide, by decide, le_rfl⟩

/-- An insertion that can shift the table returns, with a table of the declared size. -/
theorem fullSymbolSetAdd_of_shifts (sized : set.Sized) (wf : n.WellFormed)
    (nz : fullSymbolIsZero n = false) (shifts : set.Shifts n.firstNonzeroId) :
    ∃ set' k, fullSymbolSetAdd set n = .ok (set', k) ∧ set'.Sized := by
  have lead_lt := wf.first_lt nz
  have size_ge := sized.size_ge
  have size_lt := sized.size_lt
  rw [fullSymbolSetAdd_eq wf nz]
  by_cases below : set.InsertsBelow n.firstNonzeroId
  · have room := shifts below
    obtain ⟨size, tab, add_eq, length, size_eq, -⟩ :=
      fullSymbolSetAddBelow_spec sized.length below.2 (by omega) (by omega)
    rw [if_pos below, add_eq]
    refine ⟨_, _, rfl, length, ?_, ?_, lead_lt.le⟩
    · show 2 ≤ size
      rw [size_eq]
      split <;> omega
    · show size < 4294967296
      rw [size_eq]
      split <;> omega
  · have first_le := startFor_le below
    obtain ⟨size, tab, add_eq, length, size_le, lt32, -, -⟩ :=
      fullSymbolSetAddAbove_spec sized.length size_lt lead_lt
    rw [if_neg below, add_eq]
    exact ⟨_, _, rfl, length, size_ge.trans size_le, lt32, first_le.trans lead_lt.le⟩

/-- An insertion that cannot moves its rows behind the table. -/
theorem fullSymbolSetAdd_of_not_shifts (sized : set.Sized) (wf : n.WellFormed)
    (nz : fullSymbolIsZero n = false) (far : ¬ set.Shifts n.firstNonzeroId) :
    fullSymbolSetAdd set n = .error (.outOfBounds .pivotTab) :=
  fullSymbolSetAdd_exceeds sized.size_ge sized.first_le wf nz far

/-- Insertions keep the table. -/
theorem insertSymbol_sized (sized : set.Sized) {s : Submission} {ks : List ℕ}
    (ok : insertSymbol set s = .ok (set', ks)) : set'.Sized := by
  obtain ⟨⟨set'', k⟩, add_eq, result⟩ := bind_eq_ok.mp ok
  cases result
  cases nz : fullSymbolIsZero s.1 with
  | true =>
      unfold fullSymbolSetAdd at add_eq
      rw [if_pos nz] at add_eq
      cases add_eq
      exact sized
  | false =>
      by_cases shifts : set.Shifts s.1.firstNonzeroId
      · obtain ⟨_, _, add_eq', sized'⟩ := fullSymbolSetAdd_of_shifts sized s.2 nz shifts
        rw [add_eq] at add_eq'
        cases add_eq'
        exact sized'
      · rw [fullSymbolSetAdd_of_not_shifts sized s.2 nz shifts] at add_eq
        cases add_eq

theorem sized_of_run {cs : List Submission} {ks : List ℕ}
    (run : Steps insertSymbol (fun _ _ _ => True) fullSymbolSetAlloc cs set ks) : set.Sized :=
  Steps.invariant (fun sized ok _ => insertSymbol_sized sized ok) run fullSymbolSetAlloc_sized

end Insert

/-- In every set that insertions can reach, the insertion of a symbol makes all its
accesses inside the table, and leaves a table of the new size whose slots are old ones,
the copy of the symbol or NULL, exactly when the symbol does not lead below the set or
the table can be shifted for it. -/
theorem pivotTab_iff_of_run {cs : List Submission} {set : FullSymbolSet} {ks : List ℕ}
    (run : Steps insertSymbol (fun _ _ _ => True) fullSymbolSetAlloc cs set ks) (s : Submission)
    (nz : fullSymbolIsZero s.1 = false) :
    (∃ set' k, fullSymbolSetAdd set s = .ok (set', k) ∧
      set'.fullSymbolTab.length = set'.size ∧
      ∀ slot ∈ set'.fullSymbolTab,
        slot ∈ set.fullSymbolTab ∨ slot = some s.1 ∨ slot = none) ↔
      set.Shifts s.1.firstNonzeroId := by
  have sized := sized_of_run run
  constructor
  · rintro ⟨set', k, ok, -⟩
    by_contra far
    rw [fullSymbolSetAdd_of_not_shifts sized s.2 nz far] at ok
    cases ok
  · intro shifts
    obtain ⟨set', k, ok, sized'⟩ := fullSymbolSetAdd_of_shifts sized s.2 nz shifts
    refine ⟨set', k, ok, sized'.length, fun slot mem => ?_⟩
    rcases mem_of_fullSymbolSetAdd ok mem with old | ⟨cloned, clone_eq, rfl⟩ | none
    · exact .inl old
    · rw [fullSymbolClone_of_nonzero s.2 nz] at clone_eq
      cases clone_eq
      exact .inr (.inl rfl)
    · exact .inr (.inr none)

theorem pivotTab_iff_below_set :
    ∃ set ks, Steps insertSymbol (fun _ _ _ => True) fullSymbolSetAlloc
        [sourceSubmission 20 (bytes [7])] set ks ∧
      ∃ set' k, fullSymbolSetAdd set (sourceSubmission 4 (bytes [9])) = .ok (set', k) ∧
        set'.fullSymbolTab.length = set'.size := by
  obtain ⟨set, ks, steps, shifts⟩ := exists_steps_of_map
    (show (checkedRun insertSymbol (fun _ _ _ => True) fullSymbolSetAlloc
      [sourceSubmission 20 (bytes [7])]).map
        (fun result => (result.1.firstSymbolId, result.1.size)) = some (20, 16)
      by decide +kernel)
  obtain ⟨first, size⟩ := Prod.mk.inj shifts
  dsimp only at first size
  obtain ⟨set', k, ok, length, -⟩ :=
    (pivotTab_iff_of_run steps (sourceSubmission 4 (bytes [9])) rfl).mpr fun _ => by
      rw [first, size]
      decide
  exact ⟨set, ks, steps, set', k, ok, length⟩

/-- With one symbol stored at 100, the table of 16 slots is grown to 51 for a symbol at 50,
and its 16 slots are moved up by 50. -/
theorem pivotTab_overrun :
    ¬ ∀ (cs : List Submission) (set : FullSymbolSet) (ks : List ℕ) (s : Submission),
        Steps insertSymbol (fun _ _ _ => True) fullSymbolSetAlloc cs set ks →
        fullSymbolIsZero s.1 = false →
        fullSymbolSetAdd set s ≠ .error (.outOfBounds .pivotTab) := by
  intro inside
  obtain ⟨set, ks, steps, fault⟩ := exists_steps_of_map
    (show (checkedRun insertSymbol (fun _ _ _ => True) fullSymbolSetAlloc
      [sourceSubmission 100 (bytes [7])]).map
        (fun result => fullSymbolSetAdd result.1 (sourceSubmission 50 (bytes [9]))) =
          some (.error (.outOfBounds .pivotTab)) by decide +kernel)
  exact inside _ set ks (sourceSubmission 50 (bytes [9])) steps rfl fault

end SwifCodec
