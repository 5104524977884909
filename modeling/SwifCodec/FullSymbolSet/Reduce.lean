import SwifCodec.FullSymbolSet.Rows
import Mathlib.Algebra.CharP.Two

/-!
Reduction of a symbol against the pivots of a set.

The loop of `full_symbol_set_remove_each_pivot` runs over the identifiers of the
symbol being reduced. `Reducing` is its invariant. A symbol that becomes a
multiple of one row is not recognised as redundant: the sum with that row is zero,
the zero sum is dropped, and the multiple of the row itself goes on. It is
reported as redundant only when that row is a single source symbol; otherwise it
is returned, the second case of `ReducedBy.cleared`.
-/

namespace SwifCodec

open Library FullSymbol FullSymbolSet

/-- Every stored symbol is sound for a source assignment. -/
def FullSymbolSet.AllSound {n : ℕ} (src : ℕ → Vector Gf256 n) (set : FullSymbolSet) : Prop :=
  ∀ id row, set.rowAt id = some row → Sound src row

/-- What the loop has achieved when it stands at identifier `i` with the symbol
`cur`, reduced from `s`. -/
structure Reducing (set : FullSymbolSet) (s cur : FullSymbol) (i : ℕ) (isZero : Bool) : Prop where
  wellFormed : cur.WellFormed
  nonzero : fullSymbolIsZero cur = false
  diff : s.coefs - cur.coefs ∈ set.rowSpan
  /-- Pivots already passed are cleared, or `cur` is a multiple of the row of one of them. -/
  cleared : (∀ p row, p < i → set.rowAt p = some row → cur.coefs p = 0) ∨
    ∃ p row, p < i ∧ set.rowAt p = some row ∧ s.coefs p ≠ 0 ∧ cur.coefs = s.coefs p • row.coefs
  pending : ∀ p row, i ≤ p → set.rowAt p = some row → cur.coefs p = s.coefs p
  zero : isZero = true → ∀ q < i, set.rowAt q = none → cur.coefs q = 0
  seen : isZero = false → ∃ q < i, set.rowAt q = none ∧ cur.coefs q ≠ 0
  sound : ∀ {n : ℕ} {src : ℕ → Vector Gf256 n}, set.AllSound src → Sound src s → Sound src cur

/-- A symbol `u` that a reduction of `s` returns. -/
structure ReducedBy (set : FullSymbolSet) (s u : FullSymbol) : Prop where
  wellFormed : u.WellFormed
  nonzero : fullSymbolIsZero u = false
  diff : s.coefs - u.coefs ∈ set.rowSpan
  cleared : (∀ p row, set.rowAt p = some row → u.coefs p = 0) ∨
    ∃ p row, set.rowAt p = some row ∧ fullSymbolHasOneId row = false ∧ s.coefs p ≠ 0 ∧
      u.coefs = s.coefs p • row.coefs
  sound : ∀ {n : ℕ} {src : ℕ → Vector Gf256 n}, set.AllSound src → Sound src s → Sound src u

section Loop

variable {set : FullSymbolSet} (inv : set.Invariant) {s cur : FullSymbol} {i : ℕ} {isZero : Bool}

theorem Reducing.init (wf : s.WellFormed) (nz : fullSymbolIsZero s = false) :
    Reducing set s s s.firstNonzeroId true where
  wellFormed := wf
  nonzero := nz
  diff := by
    rw [sub_self]
    exact Submodule.zero_mem _
  cleared := .inl fun _ _ lt _ => wf.coefs_before nz lt
  pending _ _ _ _ := rfl
  zero _ _ lt _ := wf.coefs_before nz lt
  seen := nofun
  sound _ h := h

/-- Passing an identifier whose coefficient is zero. -/
theorem Reducing.skip (red : Reducing set s cur i isZero) (coef : cur.coefs i = 0) :
    Reducing set s cur (i + 1) isZero where
  wellFormed := red.wellFormed
  nonzero := red.nonzero
  diff := red.diff
  cleared := by
    rcases red.cleared with clear | ⟨p, row, lt, at_p, ne, eq⟩
    · refine .inl fun p row lt at_p => ?_
      rcases Nat.lt_succ_iff_lt_or_eq.mp lt with lt | rfl
      · exact clear p row lt at_p
      · exact coef
    · exact .inr ⟨p, row, by omega, at_p, ne, eq⟩
  pending p row le at_p := red.pending p row (by omega) at_p
  zero h q lt at_q := by
    rcases Nat.lt_succ_iff_lt_or_eq.mp lt with lt | rfl
    · exact red.zero h q lt at_q
    · exact coef
  seen h := by
    obtain ⟨q, lt, at_q, ne⟩ := red.seen h
    exact ⟨q, by omega, at_q, ne⟩
  sound := red.sound

/-- Passing a non-zero coefficient without a pivot. -/
theorem Reducing.keep (red : Reducing set s cur i isZero) (coef : cur.coefs i ≠ 0)
    (free : set.rowAt i = none) : Reducing set s cur (i + 1) false where
  wellFormed := red.wellFormed
  nonzero := red.nonzero
  diff := red.diff
  cleared := by
    rcases red.cleared with clear | ⟨p, row, lt, at_p, ne, eq⟩
    · refine .inl fun p row lt at_p => ?_
      rcases Nat.lt_succ_iff_lt_or_eq.mp lt with lt | rfl
      · exact clear p row lt at_p
      · rw [free] at at_p
        cases at_p
    · exact .inr ⟨p, row, by omega, at_p, ne, eq⟩
  pending p row le at_p := red.pending p row (by omega) at_p
  zero := nofun
  seen _ := ⟨i, by omega, free, coef⟩
  sound := red.sound

include inv in
/-- Where the coefficient of a pivot is still non-zero, no earlier row was a multiple. -/
theorem Reducing.clear_of_pivot (red : Reducing set s cur i isZero) (coef : cur.coefs i ≠ 0)
    {pivot : FullSymbol} (at_i : set.rowAt i = some pivot) :
    ∀ p row, p < i → set.rowAt p = some row → cur.coefs p = 0 := by
  rcases red.cleared with clear | ⟨p, row, lt, at_p, ne, eq⟩
  · exact clear
  · rw [eq, Finsupp.smul_apply, inv.clear at_i at_p (by omega), smul_zero] at coef
    exact absurd rfl coef

include inv in
/-- Adding the multiple of a pivot row that cancels its coefficient. -/
theorem Reducing.eliminate (red : Reducing set s cur i isZero) (coef : cur.coefs i ≠ 0)
    {pivot u : FullSymbol} (at_i : set.rowAt i = some pivot) (wfu : u.WellFormed)
    (nzu : fullSymbolIsZero u = false) (coefs : u.coefs = cur.coefs + cur.coefs i • pivot.coefs)
    (sound : ∀ {n : ℕ} {src : ℕ → Vector Gf256 n}, Sound src cur → Sound src pivot →
      Sound src u) : Reducing set s u (i + 1) isZero where
  wellFormed := wfu
  nonzero := nzu
  diff := by
    have row : cur.coefs i • pivot.coefs ∈ set.rowSpan :=
      Submodule.smul_mem _ _ (coefs_mem_rowSpan at_i)
    have := Submodule.sub_mem _ red.diff row
    rwa [sub_sub, ← coefs] at this
  cleared := by
    refine .inl fun p row lt at_p => ?_
    rw [coefs, Finsupp.add_apply, Finsupp.smul_apply]
    rcases Nat.lt_succ_iff_lt_or_eq.mp lt with lt | rfl
    · rw [red.clear_of_pivot inv coef at_i p row lt at_p, inv.clear at_p at_i (by omega), smul_zero,
        add_zero]
    · rw [inv.lead at_i, smul_eq_mul, mul_one, CharTwo.add_self_eq_zero]
  pending p row le at_p := by
    rw [coefs, Finsupp.add_apply, Finsupp.smul_apply, red.pending p row (by omega) at_p,
      inv.clear at_p at_i (by omega), smul_zero, add_zero]
  zero h q lt at_q := by
    have ne : q ≠ i := by
      rintro rfl
      rw [at_q] at at_i
      cases at_i
    rw [coefs, Finsupp.add_apply, Finsupp.smul_apply, red.zero h q (by omega) at_q,
      inv.before at_i (by omega), smul_zero, add_zero]
  seen h := by
    obtain ⟨q, lt, at_q, ne⟩ := red.seen h
    refine ⟨q, by omega, at_q, ?_⟩
    rwa [coefs, Finsupp.add_apply, Finsupp.smul_apply, inv.before at_i lt, smul_zero, add_zero]
  sound rows h := sound (red.sound rows h) (rows _ _ at_i)

/-- A zero sum is dropped: the symbol is the multiple of the pivot row. -/
theorem Reducing.multiple (red : Reducing set s cur i isZero) (coef : cur.coefs i ≠ 0)
    {pivot : FullSymbol} (at_i : set.rowAt i = some pivot)
    (sum : cur.coefs + cur.coefs i • pivot.coefs = 0) : Reducing set s cur (i + 1) isZero where
  wellFormed := red.wellFormed
  nonzero := red.nonzero
  diff := red.diff
  cleared := by
    rw [red.pending i pivot le_rfl at_i] at coef sum
    refine .inr ⟨i, pivot, by omega, at_i, coef, ?_⟩
    ext1 q
    have := DFunLike.congr_fun sum q
    rwa [Finsupp.add_apply, Finsupp.zero_apply, CharTwo.add_eq_zero] at this
  pending p row le at_p := red.pending p row (by omega) at_p
  zero h q lt at_q := by
    refine red.zero h q (lt_of_le_of_ne (by omega) ?_) at_q
    rintro rfl
    rw [at_q] at at_i
    cases at_i
  seen h := by
    obtain ⟨q, lt, at_q, ne⟩ := red.seen h
    exact ⟨q, by omega, at_q, ne⟩
  sound := red.sound

section Round

variable {rounds : ℕ} (wf : cur.WellFormed) (nz : fullSymbolIsZero cur = false)

theorem removeEachPivotLoop_done (done : cur.lastNonzeroId < i) :
    removeEachPivotLoop set (rounds + 1) i cur isZero =
      .ok (if isZero then none else some cur) := by
  unfold removeEachPivotLoop
  rw [if_pos done]
  rfl

include wf nz

/-- A zero coefficient is passed. -/
theorem removeEachPivotLoop_skip (more : i ≤ cur.lastNonzeroId) (coef : cur.coefs i = 0) :
    removeEachPivotLoop set (rounds + 1) i cur isZero =
      removeEachPivotLoop set rounds (i + 1) cur isZero := by
  have size : symbolIdNone = 4294967295 := rfl
  have last_lt := wf.last_lt nz
  have next : add32 i 1 = i + 1 := add32_of_lt (by omega)
  have coef_eq : fullSymbolGetCoef cur i = cur.coefs i := wf.getCoef_eq (by omega)
  conv_lhs => unfold removeEachPivotLoop
  rw [if_neg (Nat.not_lt.mpr more), coef_eq, if_pos coef, next]

include inv

/-- A coefficient without pivot row stays. -/
theorem removeEachPivotLoop_keep (wrap : set.NoWrap) (more : i ≤ cur.lastNonzeroId)
    (coef : cur.coefs i ≠ 0) (at_i : set.rowAt i = none) :
    removeEachPivotLoop set (rounds + 1) i cur isZero =
      removeEachPivotLoop set rounds (i + 1) cur false := by
  have size : symbolIdNone = 4294967295 := rfl
  have last_lt := wf.last_lt nz
  have next : add32 i 1 = i + 1 := add32_of_lt (by omega)
  have coef_eq : fullSymbolGetCoef cur i = cur.coefs i := wf.getCoef_eq (by omega)
  conv_lhs => unfold removeEachPivotLoop
  rw [if_neg (Nat.not_lt.mpr more), coef_eq, if_neg coef, next,
    fullSymbolSetGetPivot_spec inv.toTableOk wrap, ok_bind, at_i]

/-- The pivot row is eliminated, unless the sum is zero. -/
theorem removeEachPivotLoop_eliminate (wrap : set.NoWrap) (more : i ≤ cur.lastNonzeroId)
    (coef : cur.coefs i ≠ 0) {pivot : FullSymbol} (at_i : set.rowAt i = some pivot) :
    ∃ u : FullSymbol, u.WellFormed ∧ u.coefs = cur.coefs + cur.coefs i • pivot.coefs ∧
      u.payload = cur.payload + cur.coefs i • pivot.payload ∧
      (pivot.data.length = cur.data.length → u.data.length = cur.data.length) ∧
      ∀ rounds isZero, removeEachPivotLoop set (rounds + 1) i cur isZero =
        removeEachPivotLoop set rounds (i + 1) (if fullSymbolIsZero u then cur else u) isZero := by
  have size : symbolIdNone = 4294967295 := rfl
  have last_lt := wf.last_lt nz
  have next : add32 i 1 = i + 1 := add32_of_lt (by omega)
  have coef_eq : fullSymbolGetCoef cur i = cur.coefs i := wf.getCoef_eq (by omega)
  have wfp := inv.wellFormed at_i
  have nzp := inv.nonzero at_i
  obtain ⟨scaled, u, scale_eq, add_eq, wfu, coefs, payload, length⟩ :=
    rowOperation_spec wf nz wfp nzp (cur.coefs i)
  refine ⟨u, wfu, coefs, payload, length, fun rounds isZero => ?_⟩
  conv_lhs => unfold removeEachPivotLoop
  rw [if_neg (Nat.not_lt.mpr more), coef_eq, if_neg coef, next,
    fullSymbolSetGetPivot_spec inv.toTableOk wrap, ok_bind, at_i]
  dsimp only
  rw [fullSymbolClone_of_nonzero wfp nzp, ok_bind, scale_eq, ok_bind, add_eq, ok_bind]
  cases fullSymbolIsZero u <;> rfl

end Round

include inv in
/-- The loop ends, past the last non-zero identifier of the symbol it has then, and keeps
what its rounds keep. -/
theorem removeEachPivotLoop_rule (wrap : set.NoWrap) {R : ℕ → FullSymbol → Bool → Prop}
    (nonzero : ∀ {i cur z}, R i cur z → cur.WellFormed ∧ fullSymbolIsZero cur = false)
    (skip : ∀ {i cur z}, R i cur z → cur.coefs i = 0 → R (i + 1) cur z)
    (keep : ∀ {i cur z}, R i cur z → cur.coefs i ≠ 0 → set.rowAt i = none → R (i + 1) cur false)
    (eliminate : ∀ {i cur z pivot u}, R i cur z → cur.coefs i ≠ 0 → set.rowAt i = some pivot →
      u.WellFormed → fullSymbolIsZero u = false → u.coefs = cur.coefs + cur.coefs i • pivot.coefs →
      u.payload = cur.payload + cur.coefs i • pivot.payload →
      (pivot.data.length = cur.data.length → u.data.length = cur.data.length) → R (i + 1) u z)
    (multiple : ∀ {i cur z pivot}, R i cur z → cur.coefs i ≠ 0 → set.rowAt i = some pivot →
      cur.coefs + cur.coefs i • pivot.coefs = 0 → R (i + 1) cur z) :
    ∀ {rounds i : ℕ} {cur : FullSymbol} {isZero : Bool}, 4294967296 ≤ rounds + i →
      i ≤ symbolIdNone → R i cur isZero →
      ∃ u j isZero', removeEachPivotLoop set rounds i cur isZero =
          .ok (if isZero' then none else some u) ∧
        R j u isZero' ∧ u.lastNonzeroId < j := by
  have size : symbolIdNone = 4294967295 := rfl
  intro rounds
  induction rounds with
  | zero =>
      intro i cur isZero enough le _
      omega
  | succ rounds ih =>
      intro i cur isZero enough le red
      obtain ⟨wf, nz⟩ := nonzero red
      have last_lt := wf.last_lt nz
      by_cases done : cur.lastNonzeroId < i
      · exact ⟨cur, i, isZero, removeEachPivotLoop_done done, red, done⟩
      have more : i ≤ cur.lastNonzeroId := Nat.le_of_not_lt done
      by_cases coef : cur.coefs i = 0
      · rw [removeEachPivotLoop_skip wf nz more coef]
        exact ih (by omega) (by omega) (skip red coef)
      cases at_i : set.rowAt i with
      | none =>
          rw [removeEachPivotLoop_keep inv wf nz wrap more coef at_i]
          exact ih (by omega) (by omega) (keep red coef at_i)
      | some pivot =>
          obtain ⟨u, wfu, coefs, payload, length, round_eq⟩ :=
            removeEachPivotLoop_eliminate inv wf nz wrap more coef at_i
          rw [round_eq]
          cases zero : fullSymbolIsZero u with
          | true =>
              rw [if_pos rfl]
              rw [wfu.isZero_iff, coefs] at zero
              exact ih (by omega) (by omega) (multiple red coef at_i zero)
          | false =>
              rw [if_neg Bool.false_ne_true]
              exact ih (by omega) (by omega)
                (eliminate red coef at_i wfu zero coefs payload length)

include inv in
/-- The loop reduces the symbol. -/
theorem removeEachPivotLoop_spec (wrap : set.NoWrap) {rounds : ℕ}
    (enough : 4294967296 ≤ rounds + i) (le : i ≤ symbolIdNone) (red : Reducing set s cur i isZero) :
    ∃ u j isZero', removeEachPivotLoop set rounds i cur isZero =
        .ok (if isZero' then none else some u) ∧
      Reducing set s u j isZero' ∧ u.lastNonzeroId < j := by
  refine removeEachPivotLoop_rule inv wrap (R := fun i cur z => Reducing set s cur i z)
    ?_ ?_ ?_ ?_ ?_ enough le red
  · intro i cur z red
    exact ⟨red.wellFormed, red.nonzero⟩
  · intro i cur z red coef
    exact red.skip coef
  · intro i cur z red coef free
    exact red.keep coef free
  · intro i cur z pivot u red coef at_i wfu nzu coefs payload length
    exact red.eliminate inv coef at_i wfu nzu coefs fun sound_cur sound_pivot =>
      sound_cur.rowOperation sound_pivot coefs payload length
  · intro i cur z pivot red coef at_i sum
    exact red.multiple coef at_i sum

end Loop

section Start

variable {set : FullSymbolSet} {s : FullSymbol}

/-- A zero symbol is redundant. -/
theorem fullSymbolSetRemoveEachPivot_of_zero (wf : s.WellFormed)
    (zero : fullSymbolIsZero s = true) : fullSymbolSetRemoveEachPivot set s = .ok none := by
  obtain ⟨r, clone_eq, wfr, zero_r, -⟩ := fullSymbolClone_of_zero wf zero
  obtain ⟨found, adjust_eq⟩ := fullSymbolAdjustMinMaxCoef_self wfr
  unfold fullSymbolSetRemoveEachPivot
  rw [clone_eq, ok_bind, adjust_eq, ok_bind]
  dsimp only
  rw [if_pos (wfr.bounds_of_isZero zero_r).1, pure_eq_ok]

/-- The loop starts with a copy of the symbol, at its first identifier. -/
theorem fullSymbolSetRemoveEachPivot_of_nonzero (wf : s.WellFormed)
    (nz : fullSymbolIsZero s = false) : fullSymbolSetRemoveEachPivot set s =
      removeEachPivotLoop set 4294967296 s.firstNonzeroId s true := by
  obtain ⟨found, adjust_eq⟩ := fullSymbolAdjustMinMaxCoef_self wf
  have first_lt := wf.first_lt nz
  unfold fullSymbolSetRemoveEachPivot
  rw [fullSymbolClone_of_nonzero wf nz, ok_bind, adjust_eq, ok_bind]
  dsimp only
  rw [if_neg first_lt.ne]

end Start

section Result

variable {set : FullSymbolSet} (inv : set.Invariant) {s cur : FullSymbol} {i : ℕ}

/-- When every non-pivot coefficient is zero at the end, the symbol was redundant. -/
theorem Reducing.redundant (red : Reducing set s cur i true) (done : cur.lastNonzeroId < i) :
    s.coefs ∈ set.rowSpan := by
  rcases red.cleared with clear | ⟨p, row, -, at_p, -, eq⟩
  · -- A cleared symbol would be zero, and the loop keeps it non-zero.
    have zero : cur.coefs = 0 := by
      ext1 q
      by_cases lt : q < i
      · cases at_q : set.rowAt q with
        | none => exact red.zero rfl q lt at_q
        | some row => exact clear q row lt at_q
      · exact red.wellFormed.coefs_after red.nonzero (by omega)
    rw [← red.wellFormed.isZero_iff, red.nonzero] at zero
    cases zero
  · have mem := Submodule.add_mem _ red.diff
      (Submodule.smul_mem _ (s.coefs p) (coefs_mem_rowSpan at_p))
    rwa [← eq, sub_add_cancel] at mem

include inv

/-- What is known of the symbol returned at the end. -/
theorem Reducing.result (red : Reducing set s cur i false) (done : cur.lastNonzeroId < i) :
    ReducedBy set s cur where
  wellFormed := red.wellFormed
  nonzero := red.nonzero
  diff := red.diff
  cleared := by
    rcases red.cleared with clear | ⟨p, row, -, at_p, ne, eq⟩
    · refine .inl fun p row at_p => ?_
      by_cases lt : p < i
      · exact clear p row lt at_p
      · exact red.wellFormed.coefs_after red.nonzero (by omega)
    · refine .inr ⟨p, row, at_p, ?_, ne, eq⟩
      obtain ⟨q, -, at_q, coef⟩ := red.seen rfl
      by_contra one
      rw [Bool.not_eq_false, inv.hasOneId_iff at_p] at one
      have qp : q ≠ p := by
        rintro rfl
        rw [at_q] at at_p
        cases at_p
      rw [eq, one, Finsupp.smul_apply, Finsupp.single_eq_of_ne qp, smul_zero] at coef
      exact coef rfl
  sound := red.sound

/-- `full_symbol_set_remove_each_pivot` returns NULL only for redundant symbols,
and otherwise a symbol reduced by the rows. -/
theorem fullSymbolSetRemoveEachPivot_spec (wrap : set.NoWrap) (wf : s.WellFormed) :
    (fullSymbolSetRemoveEachPivot set s = .ok none ∧ s.coefs ∈ set.rowSpan) ∨
    ∃ u, fullSymbolSetRemoveEachPivot set s = .ok (some u) ∧ fullSymbolIsZero s = false ∧
      ReducedBy set s u := by
  cases zero : fullSymbolIsZero s with
  | true =>
      refine .inl ⟨fullSymbolSetRemoveEachPivot_of_zero wf zero, ?_⟩
      rw [wf.isZero_iff.mp zero]
      exact Submodule.zero_mem _
  | false =>
      have enough : 4294967296 ≤ 4294967296 + s.firstNonzeroId := Nat.le_add_right _ _
      obtain ⟨u, j, isZero, loop_eq, red, done⟩ :=
        removeEachPivotLoop_spec inv wrap enough (wf.first_lt zero).le (Reducing.init wf zero)
      rw [fullSymbolSetRemoveEachPivot_of_nonzero wf zero, loop_eq]
      cases isZero with
      | true => exact .inl ⟨rfl, red.redundant done⟩
      | false => exact .inr ⟨u, rfl, rfl, red.result inv done⟩

/-- A symbol that is returned is reduced. -/
theorem ReducedBy.of_ok (wrap : set.NoWrap) (wf : s.WellFormed) {u : FullSymbol}
    (ok : fullSymbolSetRemoveEachPivot set s = .ok (some u)) : ReducedBy set s u := by
  rcases fullSymbolSetRemoveEachPivot_spec inv wrap wf with ⟨eq, -⟩ | ⟨u', eq, -, red⟩
  · rw [eq] at ok
    cases ok
  · rw [eq] at ok
    cases ok
    exact red

end Result

/-! ### Consequences for the reduced symbol -/

namespace ReducedBy

variable {set : FullSymbolSet} (inv : set.Invariant) {s u : FullSymbol} (red : ReducedBy set s u)
include inv red

/-- Below the table nothing changes. -/
theorem coefs_below {q : ℕ} (lt : q < set.firstSymbolId) : u.coefs q = s.coefs q := by
  have := inv.rowSpan_below red.diff lt
  rw [Finsupp.sub_apply, sub_eq_zero] at this
  exact this.symm

/-- The leading identifier is below the table for the reduced symbol exactly when
it is for the submitted one, and then it is the same. -/
theorem first_below (wf : s.WellFormed) (nz : fullSymbolIsZero s = false)
    (below : s.firstNonzeroId < set.firstSymbolId ∨ u.firstNonzeroId < set.firstSymbolId) :
    u.firstNonzeroId = s.firstNonzeroId := by
  rcases below with lt | lt
  · refine red.wellFormed.first_eq red.nonzero ?_ fun i hi => ?_
    · rw [red.coefs_below inv lt]
      exact wf.coefs_first_ne nz
    · rw [red.coefs_below inv (by omega)]
      exact wf.coefs_before nz hi
  · refine (wf.first_eq nz ?_ fun i hi => ?_).symm
    · rw [← red.coefs_below inv lt]
      exact red.wellFormed.coefs_first_ne red.nonzero
    · rw [← red.coefs_below inv (by omega)]
      exact red.wellFormed.coefs_before red.nonzero hi

end ReducedBy

end SwifCodec
