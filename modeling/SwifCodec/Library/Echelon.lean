import Mathlib.LinearAlgebra.Finsupp.LinearCombination
import Mathlib.LinearAlgebra.Finsupp.Span
import Mathlib.LinearAlgebra.Span.Basic

/-!
Reduced echelon families over a field.

A family `r : ι → Option V` holds at most one row for each pivot `ι`, and
`φ i : V → K` reads the coordinate `i` of a vector. The family is reduced when
the row of a pivot has coordinate 1 there and 0 before it, and every other row
has coordinate 0 there. Nothing is assumed about `V` beyond the coordinates, so
a vector may carry more data than its coordinates show.

* `Reduced.eq_zero_of_mem_span`: a combination of rows that vanishes at every
  pivot is zero, so subtracting pivots decides membership in the span.
* `Reduced.pivotUpdate` and `span_pivotUpdate`: clearing a new pivot in every
  row and storing it keeps the family reduced and adds exactly its line.
* `Reduced.eq_of_span_eq`: the span determines the family.
-/

namespace SwifCodec.Library

variable {ι K V : Type*}

/-- A family of rows with at most one row for each pivot. -/
abbrev Rows (ι V : Type*) := ι → Option V

namespace Rows

/-- The vectors stored in the family. -/
def carrier (r : Rows ι V) : Set V := {v | ∃ p, r p = some v}

theorem mem_carrier {r : Rows ι V} {p : ι} {v : V} (h : r p = some v) : v ∈ r.carrier := ⟨p, h⟩

variable [Field K] [AddCommGroup V] [Module K V]

/-- The linear span of the stored vectors. -/
def span (K : Type*) [Field K] [Module K V] (r : Rows ι V) : Submodule K V :=
  Submodule.span K r.carrier

theorem mem_span_of_row {r : Rows ι V} {p : ι} {v : V} (h : r p = some v) : v ∈ r.span K :=
  Submodule.subset_span (mem_carrier h)

theorem span_le {r : Rows ι V} {C : Submodule K V} :
    r.span K ≤ C ↔ ∀ p v, r p = some v → v ∈ C := by
  rw [span, Submodule.span_le]
  exact ⟨fun h p v hv => h ⟨p, hv⟩, fun h v ⟨p, hv⟩ => h p v hv⟩

/-- Every element of the span is a finite combination of rows at their pivots. -/
theorem mem_span_iff {r : Rows ι V} {v : V} :
    v ∈ r.span K ↔ ∃ c : {p // (r p).isSome} →₀ K,
      (c.sum fun p a => a • (r p).get p.2) = v := by
  have range : r.carrier = Set.range fun p : {p // (r p).isSome} => (r p).get p.2 := by
    ext w
    constructor
    · rintro ⟨p, hp⟩
      exact ⟨⟨p, by simp [hp]⟩, by simp [hp]⟩
    · rintro ⟨p, rfl⟩
      exact ⟨p.1, by simp⟩
  rw [span, range, Finsupp.mem_span_range_iff_exists_finsupp]

end Rows

variable [Field K] [AddCommGroup V] [Module K V]

/-- Reduced row echelon form with respect to the coordinates `φ`. -/
structure Reduced [LT ι] (φ : ι → V →ₗ[K] K) (r : Rows ι V) : Prop where
  lead : ∀ {p v}, r p = some v → φ p v = 1
  before : ∀ {p v i}, r p = some v → i < p → φ i v = 0
  clear : ∀ {p q v w}, r p = some v → r q = some w → p ≠ q → φ p w = 0

section Span

variable [LT ι] {φ : ι → V →ₗ[K] K} {r : Rows ι V}

/-- The coordinate at a pivot is the coefficient of its row. -/
theorem Reduced.coordinate (red : Reduced φ r) (c : {p // (r p).isSome} →₀ K)
    (p : {p // (r p).isSome}) : φ p (c.sum fun q a => a • (r q).get q.2) = c p := by
  rw [Finsupp.sum, map_sum, Finset.sum_eq_single p]
  · rw [map_smul, red.lead (Option.some_get p.2).symm, smul_eq_mul, mul_one]
  · intro q _ hq
    rw [map_smul, red.clear (Option.some_get p.2).symm (Option.some_get q.2).symm
      (fun h => hq (Subtype.ext h.symm)), smul_zero]
  · intro hp
    rw [Finsupp.notMem_support_iff.mp hp, zero_smul, map_zero]

/-- A combination of rows that vanishes at every pivot is zero. -/
theorem Reduced.eq_zero_of_mem_span (red : Reduced φ r) {v : V} (mem : v ∈ r.span K)
    (vanishes : ∀ p w, r p = some w → φ p v = 0) : v = 0 := by
  obtain ⟨c, rfl⟩ := Rows.mem_span_iff.mp mem
  have zero : c = 0 := by
    ext p
    rw [← red.coordinate c p]
    exact vanishes p _ (Option.some_get p.2).symm
  rw [zero, Finsupp.sum_zero_index]

/-- Rows determined by their pivots: two members of the span that agree at every
pivot are equal. -/
theorem Reduced.eq_of_mem_span (red : Reduced φ r) {v w : V} (hv : v ∈ r.span K)
    (hw : w ∈ r.span K) (agree : ∀ p u, r p = some u → φ p v = φ p w) : v = w := by
  refine sub_eq_zero.mp (red.eq_zero_of_mem_span (Submodule.sub_mem _ hv hw) fun p u hp => ?_)
  rw [map_sub, agree p u hp, sub_self]

/-- Reducedness passes to a family with fewer rows. -/
theorem Reduced.of_subset (red : Reduced φ r) {r' : Rows ι V}
    (sub : ∀ p v, r' p = some v → r p = some v) : Reduced φ r' where
  lead h := red.lead (sub _ _ h)
  before h := red.before (sub _ _ h)
  clear h h' := red.clear (sub _ _ h) (sub _ _ h')

end Span

/-! ### Leading coordinates and uniqueness -/

section Order

variable [LinearOrder ι] {φ : ι → V →ₗ[K] K} {r r' : Rows ι V}

/-- An element of the span that vanishes before `p` also vanishes at `p`, unless
`p` is a pivot. -/
theorem Reduced.vanishes_of_not_pivot (red : Reduced φ r) {v : V} (mem : v ∈ r.span K) {p : ι}
    (before : ∀ i < p, φ i v = 0) (free : r p = none) : φ p v = 0 := by
  obtain ⟨c, rfl⟩ := Rows.mem_span_iff.mp mem
  rw [Finsupp.sum, map_sum]
  refine Finset.sum_eq_zero fun q _ => ?_
  rw [map_smul]
  rcases lt_trichotomy q.1 p with lt | eq | gt
  · -- The row of an earlier pivot has coefficient zero.
    rw [← red.coordinate c q, before q.1 lt, zero_smul]
  · have some := q.2
    rw [eq, free] at some
    exact absurd some (by simp)
  · rw [red.before (Option.some_get q.2).symm gt, smul_zero]

/-- A span has a member with leading coordinate `p` exactly when `p` is a pivot. -/
theorem Reduced.pivot_iff (red : Reduced φ r) {p : ι} :
    (r p).isSome ↔ ∃ v ∈ r.span K, (∀ i < p, φ i v = 0) ∧ φ p v ≠ 0 := by
  constructor
  · intro h
    obtain ⟨v, hv⟩ := Option.isSome_iff_exists.mp h
    refine ⟨v, Rows.mem_span_of_row hv, fun i hi => red.before hv hi, ?_⟩
    rw [red.lead hv]
    exact one_ne_zero
  · rintro ⟨v, mem, before, ne⟩
    by_contra free
    exact ne (red.vanishes_of_not_pivot mem before (by simpa using free))

/-- The span determines a reduced family. -/
theorem Reduced.eq_of_span_eq (red : Reduced φ r) (red' : Reduced φ r')
    (same : r.span K = r'.span K) : r = r' := by
  have pivots : ∀ p, (r p).isSome ↔ (r' p).isSome := by
    intro p
    rw [red.pivot_iff, red'.pivot_iff, same]
  funext p
  cases hp : r p with
  | none =>
      have free := (pivots p).not.mp (by simp [hp])
      rw [Bool.not_eq_true, Option.isSome_eq_false_iff, Option.isNone_iff_eq_none] at free
      exact free.symm
  | some v =>
      obtain ⟨w, hw⟩ := Option.isSome_iff_exists.mp ((pivots p).mp (by simp [hp]))
      rw [hw]
      congr 1
      refine red.eq_of_mem_span (Rows.mem_span_of_row hp)
        (same ▸ Rows.mem_span_of_row hw) fun q u hq => ?_
      obtain ⟨u', hq'⟩ := Option.isSome_iff_exists.mp ((pivots q).mp (by simp [hq]))
      by_cases eq : q = p
      · subst eq
        rw [red.lead hp, red'.lead hw]
      · rw [red.clear hq hp eq, red'.clear hq' hw eq]

end Order

/-! ### Storing a new pivot -/

section Update

variable [DecidableEq ι]

/-- Clear coordinate `l` in every row with the vector `n`, and store `n` at `l`. -/
def pivotUpdate (φ : ι → V →ₗ[K] K) (r : Rows ι V) (l : ι) (n : V) : Rows ι V :=
  fun q => if q = l then some n else (r q).map fun v => v - φ l v • n

variable {φ : ι → V →ₗ[K] K} {r : Rows ι V} {l : ι} {n : V}

@[simp] theorem pivotUpdate_self : pivotUpdate φ r l n l = some n := by simp [pivotUpdate]

theorem pivotUpdate_of_ne {q : ι} (h : q ≠ l) :
    pivotUpdate φ r l n q = (r q).map fun v => v - φ l v • n := by simp [pivotUpdate, h]

/-- Every row after an update is the new vector or an old row cleared with it. -/
theorem pivotUpdate_eq_some {q : ι} {w : V} (h : pivotUpdate φ r l n q = some w) :
    (q = l ∧ w = n) ∨ (q ≠ l ∧ ∃ v, r q = some v ∧ w = v - φ l v • n) := by
  by_cases eq : q = l
  · subst eq
    exact .inl ⟨rfl, by simpa using h.symm⟩
  · rw [pivotUpdate_of_ne eq, Option.map_eq_some_iff] at h
    obtain ⟨v, hv, rfl⟩ := h
    exact .inr ⟨eq, v, hv, rfl⟩

/-- An update keeps every submodule that contains the rows and the new vector. -/
theorem pivotUpdate_mem {C : Submodule K V} (rows : ∀ p v, r p = some v → v ∈ C) (new : n ∈ C)
    {q : ι} {w : V} (h : pivotUpdate φ r l n q = some w) : w ∈ C := by
  obtain ⟨-, rfl⟩ | ⟨-, v, hv, rfl⟩ := pivotUpdate_eq_some h
  · exact new
  · exact Submodule.sub_mem _ (rows _ _ hv) (Submodule.smul_mem _ _ new)

/-- The span after an update, when the replaced row (if any) is the new vector. -/
theorem span_pivotUpdate (replaced : ∀ v, r l = some v → v = n) :
    (pivotUpdate φ r l n).span K = r.span K ⊔ Submodule.span K {n} := by
  apply le_antisymm
  · refine Rows.span_le.mpr fun q w h => pivotUpdate_mem (C := r.span K ⊔ Submodule.span K {n})
      (fun p v hv => Submodule.mem_sup_left (Rows.mem_span_of_row hv))
      (Submodule.mem_sup_right (Submodule.mem_span_singleton_self n)) h
  · have new : n ∈ (pivotUpdate φ r l n).span K := Rows.mem_span_of_row pivotUpdate_self
    refine sup_le (Rows.span_le.mpr fun q v hv => ?_)
      ((Submodule.span_singleton_le_iff_mem _ _).mpr new)
    by_cases eq : q = l
    · subst eq
      rw [replaced v hv]
      exact new
    · have kept : v - φ l v • n ∈ (pivotUpdate φ r l n).span K :=
        Rows.mem_span_of_row (p := q) (by rw [pivotUpdate_of_ne eq, hv]; rfl)
      simpa using Submodule.add_mem _ kept (Submodule.smul_mem _ (φ l v) new)

end Update

/-- An update with a normalised vector that vanishes at the other pivots keeps
the family reduced. -/
theorem Reduced.pivotUpdate [LinearOrder ι] {φ : ι → V →ₗ[K] K} {r : Rows ι V} {l : ι} {n : V}
    (red : Reduced φ r) (one : φ l n = 1) (before : ∀ i < l, φ i n = 0)
    (clear : ∀ q v, r q = some v → q ≠ l → φ q n = 0) : Reduced φ (pivotUpdate φ r l n) where
  lead {p w} h := by
    obtain ⟨rfl, rfl⟩ | ⟨ne, v, hv, rfl⟩ := pivotUpdate_eq_some h
    · exact one
    · rw [map_sub, map_smul, red.lead hv, clear _ _ hv ne, smul_zero, sub_zero]
  before {p w i} h lt := by
    obtain ⟨rfl, rfl⟩ | ⟨ne, v, hv, rfl⟩ := pivotUpdate_eq_some h
    · exact before i lt
    · rw [map_sub, map_smul, red.before hv lt]
      rcases lt_or_ge i l with il | li
      · rw [before i il, smul_zero, sub_zero]
      · rw [red.before hv (li.trans_lt lt), zero_smul, sub_zero]
  clear {p q v w} hp hq ne := by
    obtain ⟨rfl, rfl⟩ | ⟨pl, v', hv', rfl⟩ := pivotUpdate_eq_some hp <;>
      obtain ⟨rfl, rfl⟩ | ⟨ql, w', hw', rfl⟩ := pivotUpdate_eq_some hq
    · exact absurd rfl ne
    · rw [map_sub, map_smul, one, smul_eq_mul, mul_one, sub_self]
    · exact clear _ _ hv' ne
    · rw [map_sub, map_smul, red.clear hv' hw' ne, clear _ _ hv' pl, smul_zero, sub_zero]

end SwifCodec.Library
