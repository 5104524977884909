import SwifCodec.FullSymbolSet.Reduce
import SwifCodec.Library.CountedLoop

/-!
The reduction loop ends on every set of well-formed symbols, in echelon form or not.

Each round may replace the symbol by one that reaches further right, but never further than
the symbol submitted and the rows of the table reach together (`extent`). That bounds the
counter in every round, so the rounds are consecutive and the counter does not wrap.
-/

namespace SwifCodec

open Library FullSymbol

namespace FullSymbolSet

/-- The rows of the table, in any order and with any leading identifiers. -/
def rows (set : FullSymbolSet) : List FullSymbol := set.fullSymbolTab.filterMap id

/-- Any set of well-formed symbols: the table has its declared size. -/
structure Stocked (set : FullSymbolSet) : Prop where
  length : set.fullSymbolTab.length = set.size
  wellFormed : ∀ row ∈ set.rows, row.WellFormed

/-- The largest last identifier among a symbol and the rows of the table. A zero row has no
identifier. -/
def extent (set : FullSymbolSet) (s : FullSymbol) : ℕ :=
  ((set.rows.filter fun row => !fullSymbolIsZero row).map lastNonzeroId).foldr max s.lastNonzeroId

variable {set : FullSymbolSet} {s row : FullSymbol}

theorem le_extent : s.lastNonzeroId ≤ set.extent s := by
  unfold extent
  induction (set.rows.filter fun row => !fullSymbolIsZero row).map lastNonzeroId with
  | nil => exact le_rfl
  | cons last lasts ih => exact ih.trans (Nat.le_max_right _ _)

theorem row_le_extent (mem : row ∈ set.rows) (nz : fullSymbolIsZero row = false) :
    row.lastNonzeroId ≤ set.extent s := by
  have listed : row.lastNonzeroId ∈
      (set.rows.filter fun row => !fullSymbolIsZero row).map lastNonzeroId :=
    List.mem_map_of_mem (List.mem_filter.mpr ⟨mem, by rw [nz]; rfl⟩)
  unfold extent
  exact List.le_max_of_le' _ listed le_rfl

theorem Stocked.extent_lt (ok : set.Stocked) (wf : s.WellFormed)
    (nz : fullSymbolIsZero s = false) : set.extent s < symbolIdNone := by
  have below : ∀ last ∈ (set.rows.filter fun row => !fullSymbolIsZero row).map lastNonzeroId,
      last < symbolIdNone := by
    intro last mem
    obtain ⟨row, listed, rfl⟩ := List.mem_map.mp mem
    obtain ⟨mem, nz⟩ := List.mem_filter.mp listed
    exact (ok.wellFormed row mem).last_lt (by simpa using nz)
  unfold extent
  generalize (set.rows.filter fun row => !fullSymbolIsZero row).map lastNonzeroId = lasts at below ⊢
  induction lasts with
  | nil => exact wf.last_lt nz
  | cons last lasts ih =>
      exact Nat.max_lt.mpr ⟨below last List.mem_cons_self,
        ih fun last mem => below last (List.mem_cons_of_mem _ mem)⟩

/-- Reading a pivot stays inside the table and finds one of its rows, also where
`first_symbol_id + size` wraps. -/
theorem Stocked.getPivot (ok : set.Stocked) (i : ℕ) :
    fullSymbolSetGetPivot set i = .ok none ∨
      ∃ row ∈ set.rows, fullSymbolSetGetPivot set i = .ok (some row) := by
  unfold fullSymbolSetGetPivot
  split
  case isTrue inside =>
    have wraps : add32 set.size set.firstSymbolId ≤ set.size + set.firstSymbolId := Nat.mod_le _ _
    have slot : i - set.firstSymbolId < set.fullSymbolTab.length := by
      rw [ok.length]
      omega
    rw [List.getElem?_eq_getElem slot, access_some]
    cases found : set.fullSymbolTab[i - set.firstSymbolId] with
    | none => exact .inl rfl
    | some row =>
        have mem : some row ∈ set.fullSymbolTab := found ▸ List.getElem_mem slot
        exact .inr ⟨row, List.mem_filterMap.mpr ⟨some row, mem, rfl⟩, rfl⟩
  case isFalse => exact .inl rfl

end FullSymbolSet

open FullSymbolSet

/-! ### One round -/

/-- The body of the loop of `full_symbol_set_remove_each_pivot`, at identifier `i`. -/
def removeEachPivotRound (set : FullSymbolSet) (acc : FullSymbol × Bool) (i : ℕ) :
    Exec (FullSymbol × Bool) := do
  let (newSymbol, isZero) := acc
  if fullSymbolGetCoef newSymbol i = 0 then return (newSymbol, isZero)
  else
    match ← fullSymbolSetGetPivot set i with
    | some symbolPivot =>
        let cloned ← fullSymbolClone symbolPivot
        let cloned ← fullSymbolScale cloned (fullSymbolGetCoef newSymbol i)
        let symbol2 ← fullSymbolAdd newSymbol cloned
        return (if fullSymbolIsZero symbol2 then newSymbol else symbol2, isZero)
    | none => return (newSymbol, false)

/-- `i <= new_symbol->last_nonzero_id`, read from the symbol of the moment. -/
def RoundLeft (acc : FullSymbol × Bool) (i : ℕ) : Prop := i ≤ acc.1.lastNonzeroId

/-- A run of the loop, with the values of its counter. -/
abbrev ReductionRun (set : FullSymbolSet) :
    ℕ → FullSymbol × Bool → List ℕ → FullSymbol × Bool → Prop :=
  CountedRun RoundLeft (removeEachPivotRound set) (add32 · 1)

section Round

variable {set : FullSymbolSet} {s cur pivot : FullSymbol} {i rounds : ℕ} {isZero : Bool}

theorem removeEachPivotLoop_succ (more : i ≤ cur.lastNonzeroId) :
    removeEachPivotLoop set (rounds + 1) i cur isZero =
      removeEachPivotRound set (cur, isZero) i >>= fun acc =>
        removeEachPivotLoop set rounds (add32 i 1) acc.1 acc.2 := by
  conv_lhs => unfold removeEachPivotLoop
  rw [if_neg (Nat.not_lt.mpr more), removeEachPivotRound]
  by_cases coef : fullSymbolGetCoef cur i = 0
  · rw [if_pos coef, if_pos coef]
    rfl
  · rw [if_neg coef, if_neg coef]
    -- a fault in the body is a fault of the loop
    cases fullSymbolSetGetPivot set i with
    | error e => rfl
    | ok found =>
        cases found with
        | none => rfl
        | some pivot =>
            rw [ok_bind, ok_bind, bind_assoc]
            refine bind_congr fun cloned => ?_
            rw [bind_assoc]
            refine bind_congr fun scaled => ?_
            rw [bind_assoc]
            refine bind_congr fun u => ?_
            rw [pure_eq_ok, ok_bind]
            cases fullSymbolIsZero u <;> rfl

/-- The row operation of a round: the copy of a zero row adds nothing. -/
theorem cloneScaleAdd_spec (wf : cur.WellFormed) (nz : fullSymbolIsZero cur = false)
    (wfp : pivot.WellFormed) (c : Gf256) :
    ∃ cloned scaled u, fullSymbolClone pivot = .ok cloned ∧
      fullSymbolScale cloned c = .ok scaled ∧ fullSymbolAdd cur scaled = .ok u ∧
      u.WellFormed ∧ u.coefs = cur.coefs + c • pivot.coefs := by
  cases zero : fullSymbolIsZero pivot with
  | false =>
      obtain ⟨scaled, u, scale_eq, add_eq, wfu, coefs, -⟩ := rowOperation_spec wf nz wfp zero c
      exact ⟨pivot, scaled, u, fullSymbolClone_of_nonzero wfp zero, scale_eq, add_eq, wfu, coefs⟩
  | true =>
      obtain ⟨cloned, clone_eq, -, zero_cloned, -⟩ := fullSymbolClone_of_zero wfp zero
      refine ⟨cloned, cloned, cur, clone_eq, fullSymbolScale_of_zero zero_cloned c,
        fullSymbolAdd_of_zero wf nz zero_cloned, wf, ?_⟩
      rw [wfp.isZero_iff.mp zero, smul_zero, add_zero]

/-- A symbol of the loop: it is not zero and does not reach past `m`. -/
structure Within (m : ℕ) (s : FullSymbol) : Prop where
  wellFormed : s.WellFormed
  nonzero : fullSymbolIsZero s = false
  last_le : s.lastNonzeroId ≤ m

/-- A round returns, with a symbol inside the same bound. -/
theorem removeEachPivotRound_within (ok : set.Stocked) (within : Within (set.extent s) cur) :
    ∃ cur' isZero', removeEachPivotRound set (cur, isZero) i = .ok (cur', isZero') ∧
      Within (set.extent s) cur' := by
  obtain ⟨wf, nz, last_le⟩ := within
  unfold removeEachPivotRound
  dsimp only
  by_cases coef : fullSymbolGetCoef cur i = 0
  · rw [if_pos coef]
    exact ⟨cur, isZero, rfl, wf, nz, last_le⟩
  rw [if_neg coef]
  rcases ok.getPivot i with free | ⟨pivot, mem, found⟩
  · rw [free, ok_bind]
    exact ⟨cur, false, rfl, wf, nz, last_le⟩
  · have wfp := ok.wellFormed pivot mem
    obtain ⟨cloned, scaled, u, clone_eq, scale_eq, add_eq, wfu, coefs⟩ :=
      cloneScaleAdd_spec wf nz wfp (fullSymbolGetCoef cur i)
    rw [found, ok_bind]
    dsimp only
    rw [clone_eq, ok_bind, scale_eq, ok_bind, add_eq, ok_bind]
    refine ⟨_, isZero, rfl, ?_⟩
    cases zero : fullSymbolIsZero u with
    | true => exact ⟨wf, nz, last_le⟩
    | false =>
        rw [if_neg Bool.false_ne_true]
        refine ⟨wfu, zero, ?_⟩
        -- past the bound both summands are zero
        by_contra beyond
        have last_ne := wfu.coefs_last_ne zero
        have pivot_zero : pivot.coefs u.lastNonzeroId = 0 := by
          cases zero_p : fullSymbolIsZero pivot with
          | true => rw [wfp.isZero_iff.mp zero_p, Finsupp.zero_apply]
          | false =>
              have row_le := row_le_extent (s := s) mem zero_p
              exact wfp.coefs_after zero_p (by omega)
        rw [coefs, Finsupp.add_apply, Finsupp.smul_apply, pivot_zero, smul_zero, add_zero,
          wf.coefs_after nz (by omega)] at last_ne
        exact last_ne rfl

/-- The loop with a number of rounds to spare returns the symbol of its run, and runs out of
rounds with fewer. -/
theorem removeEachPivotLoop_eq {acc acc' : FullSymbol × Bool} {is : List ℕ}
    (run : ReductionRun set i acc is acc') :
    ∀ rounds, removeEachPivotLoop set rounds i acc.1 acc.2 =
      if rounds ≤ is.length then .error .diverges
      else .ok (if acc'.2 then none else some acc'.1) := by
  induction run with
  | done stop =>
      intro rounds
      cases rounds with
      | zero => rfl
      | succ rounds =>
          rw [removeEachPivotLoop_done (Nat.lt_of_not_le stop), List.length_nil,
            if_neg (Nat.not_succ_le_zero rounds)]
  | @step i s s' s'' is more round_eq rest ih =>
      intro rounds
      cases rounds with
      | zero => rfl
      | succ rounds =>
          rw [removeEachPivotLoop_succ more, round_eq, ok_bind, ih rounds]
          simp only [List.length_cons, Nat.add_le_add_iff_right]

end Round

/-- The reduction loop ends on every set of well-formed symbols: from the first identifier
`f` of the symbol on it makes at most `extent - f + 1` rounds, at consecutive identifiers, and
the counter does not wrap. Given more rounds than these the loop of the model returns the
result of the run, and given no more it runs out of them. -/
theorem reduction_rounds (set : FullSymbolSet) (s : FullSymbol) (ok : set.Stocked)
    (wf : s.WellFormed) :
    (fullSymbolIsZero s = true ∧ fullSymbolSetRemoveEachPivot set s = .ok none) ∨
    ∃ k cur isZero,
      ReductionRun set s.firstNonzeroId (s, true) (List.range' s.firstNonzeroId k)
        (cur, isZero) ∧
      s.firstNonzeroId ≤ set.extent s ∧ k ≤ set.extent s - s.firstNonzeroId + 1 ∧
      s.firstNonzeroId + k < 4294967296 ∧
      fullSymbolSetRemoveEachPivot set s = .ok (if isZero then none else some cur) ∧
      ∀ rounds, removeEachPivotLoop set rounds s.firstNonzeroId s true =
        if rounds ≤ k then .error .diverges else .ok (if isZero then none else some cur) := by
  cases zero : fullSymbolIsZero s with
  | true => exact .inl ⟨rfl, fullSymbolSetRemoveEachPivot_of_zero wf zero⟩
  | false =>
      have size : symbolIdNone = 4294967295 := rfl
      have extent_lt := ok.extent_lt wf zero
      have last_le : s.lastNonzeroId ≤ set.extent s := le_extent
      have ordered := (wf.bounded zero).2.ordered
      have keeps : ∀ {acc : FullSymbol × Bool} {i}, Within (set.extent s) acc.1 →
          RoundLeft acc i →
          ∃ acc', removeEachPivotRound set acc i = .ok acc' ∧ Within (set.extent s) acc'.1 := by
        intro acc i within _
        obtain ⟨cur, isZero, round_eq, within'⟩ := removeEachPivotRound_within ok within
        exact ⟨(cur, isZero), round_eq, within'⟩
      obtain ⟨is, ⟨cur, isZero⟩, run, -, values, inside⟩ :
          ∃ is acc, ReductionRun set s.firstNonzeroId (s, true) is acc ∧
            Within (set.extent s) acc.1 ∧ is = List.range' s.firstNonzeroId is.length ∧
            s.firstNonzeroId + is.length ≤ set.extent s + 1 :=
        CountedRun.exists_of_bounded (fun within more => le_trans more within.last_le)
          (fun i le => add32_of_lt (by omega)) keeps ⟨wf, zero, last_le⟩ (by omega)
      refine .inr ⟨is.length, cur, isZero, values ▸ run, by omega, by omega, by omega, ?_,
        removeEachPivotLoop_eq run⟩
      rw [fullSymbolSetRemoveEachPivot_of_nonzero wf zero,
        removeEachPivotLoop_eq run, if_neg (by omega)]

/-- A set that is not in echelon form: no row leads at the identifier of its slot. -/
def misplacedSet : FullSymbolSet where
  size := 2
  firstSymbolId := 3
  nmbrPackets := 2
  fullSymbolTab := [some (sourceSymbol 4 [1]), some (sourceSymbol 9 [2])]

theorem reduction_rounds_misplaced :
    ∃ k cur isZero,
      ReductionRun misplacedSet 3 (sourceSymbol 3 [5], true) (List.range' 3 k) (cur, isZero) ∧
      k ≤ 9 - 3 + 1 ∧
      fullSymbolSetRemoveEachPivot misplacedSet (sourceSymbol 3 [5]) =
        .ok (if isZero then none else some cur) := by
  have stocked : misplacedSet.Stocked := by
    refine ⟨rfl, fun row mem => ?_⟩
    rcases List.mem_pair.mp mem with rfl | rfl
    · exact sourceSymbol_wellFormed (by decide) _
    · exact sourceSymbol_wellFormed (by decide) _
  have reach : misplacedSet.extent (sourceSymbol 3 [5]) = 9 := by decide
  have nonzero : ¬ fullSymbolIsZero (sourceSymbol 3 [5]) = true := by decide
  rcases reduction_rounds misplacedSet (sourceSymbol 3 [5]) stocked
    (sourceSymbol_wellFormed (by decide) _) with ⟨zero, -⟩ | ⟨k, cur, isZero, run, -, le, -, eq, -⟩
  · exact absurd zero nonzero
  · rw [reach] at le
    exact ⟨k, cur, isZero, run, le, eq⟩

end SwifCodec
