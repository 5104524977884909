import SwifCodec.FullSymbol.Basic
import Mathlib.Data.Finsupp.Single
import Mathlib.Algebra.Module.Pi
import Mathlib.Data.Finsupp.SMul
import Mathlib.GroupTheory.GroupAction.Ring
import Mathlib.Order.Interval.Finset.Nat
import Mathlib.Tactic.Set

/-!
What a full symbol stands for, and the laws of its arithmetic.

A well-formed symbol is read as a vector: `coefs` is its coefficient function on
identifiers, finitely supported, and `payload` its data extended by zeros. The
cached bounds `firstNonzeroId` and `lastNonzeroId` of a well-formed symbol are
those of `coefs`. Each operation of the source preserves well-formedness, fails
no assertion, stays inside its blocks, and acts on the vectors linearly:
`fullSymbolClone_spec`, `fullSymbolScale_spec`, `fullSymbolAdd_spec`.
-/

namespace SwifCodec

open Library

/-- Outside the identifier range every coefficient reads as zero. -/
theorem fullSymbolGetCoef_of_not_mem {s : FullSymbol} {i : ℕ} (h : i < s.firstId ∨ s.lastId < i) :
    fullSymbolGetCoef s i = 0 := by
  unfold fullSymbolGetCoef fullSymbolIncludesId
  rw [if_neg]
  simp only [Bool.and_eq_true, decide_eq_true_eq]
  omega

theorem fullSymbolGetCoef_of_mem {s : FullSymbol} {i : ℕ} (h : s.firstId ≤ i ∧ i ≤ s.lastId) :
    fullSymbolGetCoef s i = s.coef.getD (i - s.firstId) 0 := by
  unfold fullSymbolGetCoef fullSymbolIncludesId
  rw [if_pos]
  simpa using h

/-! ### Well-formed symbols -/

namespace FullSymbol

/-- The identifier range is a real range and `coef` has one cell for each of its
identifiers. -/
structure Ranged (s : FullSymbol) : Prop where
  ordered : s.firstId ≤ s.lastId
  below : s.lastId < symbolIdNone
  cells : s.coef.length = s.lastId - s.firstId + 1

/-- The cached bounds are those of a symbol with a non-zero coefficient. -/
structure Bounded (s : FullSymbol) : Prop where
  first_le : s.firstId ≤ s.firstNonzeroId
  ordered : s.firstNonzeroId ≤ s.lastNonzeroId
  le_last : s.lastNonzeroId ≤ s.lastId
  first_ne : fullSymbolGetCoef s s.firstNonzeroId ≠ 0
  last_ne : fullSymbolGetCoef s s.lastNonzeroId ≠ 0
  outside : ∀ i, i < s.firstNonzeroId ∨ s.lastNonzeroId < i → fullSymbolGetCoef s i = 0

/-- The cached bounds are those of a symbol without a non-zero coefficient. -/
structure Cleared (s : FullSymbol) : Prop where
  first : s.firstNonzeroId = symbolIdNone
  last : s.lastNonzeroId = symbolIdNone
  all_zero : ∀ i, fullSymbolGetCoef s i = 0

/-- The two symbols differ at most in their cached bounds. -/
structure SameContent (s t : FullSymbol) : Prop where
  coef : s.coef = t.coef
  firstId : s.firstId = t.firstId
  lastId : s.lastId = t.lastId
  data : s.data = t.data

/-- The symbol over the empty identifier range. -/
structure Empty (s : FullSymbol) : Prop where
  first : s.firstId = symbolIdNone
  last : s.lastId = symbolIdNone
  cells : s.coef.length = 1
  firstNonzero : s.firstNonzeroId = symbolIdNone
  lastNonzero : s.lastNonzeroId = symbolIdNone

/-- The representation invariant of `swif_full_symbol_t`. -/
def WellFormed (s : FullSymbol) : Prop :=
  s.Empty ∨ s.Ranged ∧ (s.Cleared ∨ s.Bounded)

/-! ### The vector of a symbol -/

/-- The coefficient at an identifier; the cell of an empty range counts for none. -/
def coefAt (s : FullSymbol) (i : ℕ) : Gf256 :=
  if s.firstId = symbolIdNone then 0 else fullSymbolGetCoef s i

theorem coefAt_mem_range {s : FullSymbol} {i : ℕ} (h : s.coefAt i ≠ 0) :
    i ∈ Finset.Icc s.firstId s.lastId := by
  rw [Finset.mem_Icc]
  by_contra out
  apply h
  unfold coefAt
  rw [fullSymbolGetCoef_of_not_mem (by omega), ite_self]

/-- The coefficient function on identifiers. -/
noncomputable def coefs (s : FullSymbol) : ℕ →₀ Gf256 :=
  Finsupp.onFinset (Finset.Icc s.firstId s.lastId) s.coefAt fun _ h => coefAt_mem_range h

/-- The data as a sequence extended by zeros. -/
def payload (s : FullSymbol) : ℕ → Gf256 := fun i => s.data.getD i 0

theorem coefs_apply (s : FullSymbol) (i : ℕ) : s.coefs i = s.coefAt i := rfl

theorem Ranged.first_ne_none {s : FullSymbol} (h : s.Ranged) : s.firstId ≠ symbolIdNone := by
  have := h.ordered; have := h.below; omega

theorem Ranged.coefs_apply {s : FullSymbol} (h : s.Ranged) (i : ℕ) :
    s.coefs i = fullSymbolGetCoef s i := by
  rw [FullSymbol.coefs_apply, coefAt, if_neg h.first_ne_none]

theorem Empty.coefs_eq {s : FullSymbol} (h : s.Empty) : s.coefs = 0 := by
  ext1 i
  rw [FullSymbol.coefs_apply, coefAt, if_pos h.first]
  rfl

theorem Bounded.below {s : FullSymbol} (r : s.Ranged) (b : s.Bounded) :
    s.firstNonzeroId < symbolIdNone ∧ s.lastNonzeroId < symbolIdNone := by
  have := r.below; have := b.ordered; have := b.le_last
  constructor <;> omega

section WellFormed

variable {s : FullSymbol}

/-- A well-formed symbol is zero exactly when its coefficient function is. -/
theorem WellFormed.isZero_iff (wf : s.WellFormed) : fullSymbolIsZero s = true ↔ s.coefs = 0 := by
  unfold fullSymbolIsZero fullSymbolGetMinSymbolId
  rw [beq_iff_eq]
  rcases wf with e | ⟨r, c | b⟩
  · exact ⟨fun _ => e.coefs_eq, fun _ => e.firstNonzero⟩
  · refine ⟨fun _ => ?_, fun _ => c.first⟩
    ext1 i
    rw [r.coefs_apply, c.all_zero]
    rfl
  · have lt := (b.below r).1
    refine ⟨fun h => by omega, fun h => absurd ?_ b.first_ne⟩
    rw [← r.coefs_apply, h]
    rfl

/-- A non-zero well-formed symbol has a real range and exact bounds. -/
theorem WellFormed.bounded (wf : s.WellFormed) (nz : fullSymbolIsZero s = false) :
    s.Ranged ∧ s.Bounded := by
  unfold fullSymbolIsZero fullSymbolGetMinSymbolId at nz
  rw [beq_eq_false_iff_ne] at nz
  rcases wf with e | ⟨r, c | b⟩
  · exact absurd e.firstNonzero nz
  · exact absurd c.first nz
  · exact ⟨r, b⟩

theorem WellFormed.ranged_of_first_ne (wf : s.WellFormed) (h : s.firstId ≠ symbolIdNone) :
    s.Ranged := by
  rcases wf with e | ⟨r, -⟩
  · exact absurd e.first h
  · exact r

/-- Well-formedness does not look at the data. -/
theorem WellFormed.of_data (wf : s.WellFormed) (data : List Gf256) :
    ({ s with data := data } : FullSymbol).WellFormed := by
  rcases wf with e | ⟨r, c | b⟩
  · exact .inl ⟨e.first, e.last, e.cells, e.firstNonzero, e.lastNonzero⟩
  · exact .inr ⟨⟨r.ordered, r.below, r.cells⟩, .inl ⟨c.first, c.last, c.all_zero⟩⟩
  · exact .inr ⟨⟨r.ordered, r.below, r.cells⟩,
      .inr ⟨b.first_le, b.ordered, b.le_last, b.first_ne, b.last_ne, b.outside⟩⟩

/-- Below `SYMBOL_ID_NONE` the source reads the coefficient function. -/
theorem WellFormed.getCoef_eq (wf : s.WellFormed) {i : ℕ} (h : i < symbolIdNone) :
    fullSymbolGetCoef s i = s.coefs i := by
  rcases wf with e | ⟨r, -⟩
  · rw [e.coefs_eq, fullSymbolGetCoef, fullSymbolIncludesId, e.first]
    simp; omega
  · exact (r.coefs_apply i).symm

section Nonzero

variable (wf : s.WellFormed) (nz : fullSymbolIsZero s = false)
include wf nz

theorem WellFormed.first_lt : s.firstNonzeroId < symbolIdNone :=
  ((wf.bounded nz).2.below (wf.bounded nz).1).1

theorem WellFormed.last_lt : s.lastNonzeroId < symbolIdNone :=
  ((wf.bounded nz).2.below (wf.bounded nz).1).2

theorem WellFormed.coefs_first_ne : s.coefs s.firstNonzeroId ≠ 0 := by
  obtain ⟨r, b⟩ := wf.bounded nz
  rw [r.coefs_apply]
  exact b.first_ne

theorem WellFormed.coefs_last_ne : s.coefs s.lastNonzeroId ≠ 0 := by
  obtain ⟨r, b⟩ := wf.bounded nz
  rw [r.coefs_apply]
  exact b.last_ne

theorem WellFormed.coefs_before {i : ℕ} (h : i < s.firstNonzeroId) : s.coefs i = 0 := by
  obtain ⟨r, b⟩ := wf.bounded nz
  rw [r.coefs_apply]
  exact b.outside i (.inl h)

theorem WellFormed.coefs_after {i : ℕ} (h : s.lastNonzeroId < i) : s.coefs i = 0 := by
  obtain ⟨r, b⟩ := wf.bounded nz
  rw [r.coefs_apply]
  exact b.outside i (.inr h)

/-- The first non-zero identifier is where the coefficient function leads. -/
theorem WellFormed.first_eq {l : ℕ} (ne : s.coefs l ≠ 0) (before : ∀ i < l, s.coefs i = 0) :
    s.firstNonzeroId = l := by
  rcases lt_trichotomy s.firstNonzeroId l with lt | eq | gt
  · exact absurd (before _ lt) (wf.coefs_first_ne nz)
  · exact eq
  · exact absurd (wf.coefs_before nz gt) ne

end Nonzero

/-- `full_symbol_has_one_id` recognises the multiples of one source symbol. -/
theorem WellFormed.hasOneId_iff (wf : s.WellFormed) :
    fullSymbolHasOneId s = true ↔ ∃ a ≠ 0, s.coefs = Finsupp.single s.firstNonzeroId a := by
  unfold fullSymbolHasOneId fullSymbolGetMinSymbolId fullSymbolGetMaxSymbolId
  rw [Bool.and_eq_true, Bool.not_eq_true', beq_iff_eq]
  constructor
  · rintro ⟨nz, eq⟩
    refine ⟨_, wf.coefs_first_ne nz, ?_⟩
    ext1 i
    rcases lt_trichotomy s.firstNonzeroId i with lt | rfl | gt
    · rw [wf.coefs_after nz (by omega), Finsupp.single_eq_of_ne (by omega)]
    · rw [Finsupp.single_eq_same]
    · rw [wf.coefs_before nz gt, Finsupp.single_eq_of_ne (by omega)]
  · rintro ⟨a, ha, eq⟩
    have nz : fullSymbolIsZero s = false := by
      by_contra zero
      rw [Bool.not_eq_false, wf.isZero_iff] at zero
      rw [zero] at eq
      exact ha (Finsupp.single_eq_zero.mp eq.symm)
    refine ⟨nz, ?_⟩
    by_contra ne
    have := wf.coefs_last_ne nz
    rw [eq, Finsupp.single_eq_of_ne (Ne.symm ne)] at this
    exact this rfl

end WellFormed

/-- Two non-zero well-formed symbols with one coefficient function have the same bounds. -/
theorem WellFormed.bounds_eq {s t : FullSymbol} (wfs : s.WellFormed) (wft : t.WellFormed)
    (nz : fullSymbolIsZero s = false) (same : s.coefs = t.coefs) :
    s.firstNonzeroId = t.firstNonzeroId ∧ s.lastNonzeroId = t.lastNonzeroId := by
  have nzt : fullSymbolIsZero t = false := by
    by_contra zero
    rw [Bool.not_eq_false, wft.isZero_iff, ← same, ← wfs.isZero_iff, nz] at zero
    cases zero
  refine ⟨wfs.first_eq nz (same ▸ wft.coefs_first_ne nzt) fun i hi => ?_, ?_⟩
  · rw [same]
    exact wft.coefs_before nzt hi
  · rcases lt_trichotomy s.lastNonzeroId t.lastNonzeroId with lt | eq | gt
    · exact absurd (wfs.coefs_after nz lt) (same ▸ wft.coefs_last_ne nzt)
    · exact eq
    · exact absurd (wft.coefs_after nzt gt) (same ▸ wfs.coefs_last_ne nz)

end FullSymbol

/-! ### The cached bounds -/

theorem fullSymbolGetCoef_congr {s t : FullSymbol} (same : s.SameContent t) :
    fullSymbolGetCoef s = fullSymbolGetCoef t := by
  cases s; cases t
  obtain ⟨rfl, rfl, rfl, -⟩ := same
  rfl

/-- The upward scan stores the least identifier with a non-zero coefficient. -/
theorem fullSymbolAdjustMinCoef_spec {s : FullSymbol} (r : s.Ranged) :
    (∃ i, fullSymbolAdjustMinCoef s = .ok ({ s with firstNonzeroId := i }, true) ∧
      s.firstId ≤ i ∧ i ≤ s.lastId ∧ fullSymbolGetCoef s i ≠ 0 ∧
      ∀ j < i, fullSymbolGetCoef s j = 0) ∨
    (fullSymbolAdjustMinCoef s = .ok ({ s with firstNonzeroId := symbolIdNone }, false) ∧
      ∀ i, fullSymbolGetCoef s i = 0) := by
  have below := r.below
  have ordered := r.ordered
  unfold fullSymbolAdjustMinCoef
  rw [cAssert_of (by simp; omega), ok_bind]
  cases found : (List.range' s.firstId (s.lastId + 1 - s.firstId)).find?
      fun i => fullSymbolGetCoef s i ≠ 0 with
  | some i =>
      rw [List.find?_range'_eq_some] at found
      simp only [decide_eq_true_eq, List.mem_range'_1, Bool.not_eq_true', decide_eq_false_iff_not,
        not_not] at found
      obtain ⟨ne, mem, least⟩ := found
      refine .inl ⟨i, rfl, by omega, by omega, ne, fun j hj => ?_⟩
      by_cases inside : s.firstId ≤ j
      · exact least j inside hj
      · exact fullSymbolGetCoef_of_not_mem (.inl (by omega))
  | none =>
      refine .inr ⟨rfl, fun i => ?_⟩
      by_cases inside : s.firstId ≤ i ∧ i ≤ s.lastId
      · have := List.find?_eq_none.mp found i (by rw [List.mem_range'_1]; omega)
        simpa using this
      · exact fullSymbolGetCoef_of_not_mem (by omega)

/-- After the upward scan found an identifier, the downward scan stores the greatest. -/
theorem fullSymbolAdjustMaxCoef_spec {s : FullSymbol} (r : s.Ranged)
    (found : s.firstNonzeroId < symbolIdNone) {i : ℕ} (ne : fullSymbolGetCoef s i ≠ 0) :
    ∃ j, fullSymbolAdjustMaxCoef s = .ok ({ s with lastNonzeroId := j }, true) ∧
      j ≤ s.lastId ∧ fullSymbolGetCoef s j ≠ 0 ∧ ∀ k, j < k → fullSymbolGetCoef s k = 0 := by
  have below := r.below
  have ordered := r.ordered
  have size : symbolIdNone = 4294967295 := rfl
  have inside : s.firstId ≤ i ∧ i ≤ s.lastId := by
    by_contra out
    exact ne (fullSymbolGetCoef_of_not_mem (by omega))
  have count : fullSymbolCountAllocatedCoef { s with lastNonzeroId := symbolIdNone } =
      .ok (s.lastId - s.firstId + 1) := by
    unfold fullSymbolCountAllocatedCoef
    rw [if_neg (by show s.firstNonzeroId ≠ symbolIdNone; omega),
      cAssert_of (by simpa using ordered),
      ok_bind, pure_eq_ok, add32_of_lt (by show s.lastId - s.firstId + 1 < _; omega)]
  have congr : fullSymbolGetCoef { s with lastNonzeroId := symbolIdNone } =
      fullSymbolGetCoef s := fullSymbolGetCoef_congr ⟨rfl, rfl, rfl, rfl⟩
  have down : ∀ j, j < s.lastId - s.firstId + 1 → sub32 s.lastId j = s.lastId - j :=
    fun j hj => sub32_of_le (by omega) (by omega)
  unfold fullSymbolAdjustMaxCoef
  rw [cAssert_of (by simp; omega), ok_bind]
  simp only [count, ok_bind, congr, List.find?_map]
  cases scan : (List.range (s.lastId - s.firstId + 1)).find?
      ((fun i => decide (fullSymbolGetCoef s i ≠ 0)) ∘ sub32 s.lastId) with
  | some j =>
      rw [List.find?_range_eq_some] at scan
      simp only [Function.comp_apply, decide_eq_true_eq, List.mem_range, Bool.not_eq_true',
        decide_eq_false_iff_not, not_not] at scan
      obtain ⟨nej, lt, least⟩ := scan
      refine ⟨s.lastId - j, by simp [down j lt], by omega, by rwa [down j lt] at nej,
        fun k hk => ?_⟩
      by_cases top : k ≤ s.lastId
      · have := least (s.lastId - k) (by omega)
        rw [down _ (by omega)] at this
        rwa [show s.lastId - (s.lastId - k) = k by omega] at this
      · exact fullSymbolGetCoef_of_not_mem (.inr (by omega))
  | none =>
      have := List.find?_eq_none.mp scan (s.lastId - i) (by rw [List.mem_range]; omega)
      rw [Function.comp_apply, down _ (by omega),
        show s.lastId - (s.lastId - i) = i by omega] at this
      simp [ne] at this

/-- Recomputing the bounds of a symbol over a real range succeeds, changes only
the bounds, and makes the symbol well formed. -/
theorem fullSymbolAdjustMinMaxCoef_spec {s : FullSymbol} (r : s.Ranged) :
    ∃ t found, fullSymbolAdjustMinMaxCoef s = .ok (t, found) ∧ t.WellFormed ∧ t.SameContent s := by
  have size : symbolIdNone = 4294967295 := rfl
  have below := r.below
  have ordered := r.ordered
  unfold fullSymbolAdjustMinMaxCoef
  rw [if_neg r.first_ne_none]
  rcases fullSymbolAdjustMinCoef_spec r with
    ⟨i, min_eq, first_le, le_last, ne, before⟩ | ⟨min_eq, zero⟩
  · obtain ⟨j, max_eq, j_le, nej, after⟩ :=
      fullSymbolAdjustMaxCoef_spec (s := { s with firstNonzeroId := i }) ⟨ordered, below, r.cells⟩
        (show i < symbolIdNone by omega) (i := i) ne
    have ij : i ≤ j := by
      by_contra lt
      exact ne (after i (by omega))
    have outside : ∀ k, k < i ∨ j < k → fullSymbolGetCoef s k = 0 :=
      fun k hk => hk.elim (before k) (after k)
    refine ⟨{ s with firstNonzeroId := i, lastNonzeroId := j }, true, ?_,
      .inr ⟨⟨ordered, below, r.cells⟩, .inr ⟨first_le, ij, j_le, ne, nej, outside⟩⟩,
      ⟨rfl, rfl, rfl, rfl⟩⟩
    simp only [min_eq, max_eq, ok_bind]
    rfl
  · have max_eq : fullSymbolAdjustMaxCoef { s with firstNonzeroId := symbolIdNone } =
        .ok ({ s with firstNonzeroId := symbolIdNone, lastNonzeroId := symbolIdNone }, false) := by
      unfold fullSymbolAdjustMaxCoef
      rw [cAssert_of (by simp; omega), ok_bind]
      simp [fullSymbolCountAllocatedCoef]
    refine ⟨{ s with firstNonzeroId := symbolIdNone, lastNonzeroId := symbolIdNone }, false, ?_,
      .inr ⟨⟨ordered, below, r.cells⟩, .inl ⟨rfl, rfl, zero⟩⟩, ⟨rfl, rfl, rfl, rfl⟩⟩
    simp only [min_eq, max_eq, ok_bind]
    rfl

namespace FullSymbol

theorem SameContent.coefs_eq {s t : FullSymbol} (same : s.SameContent t) : s.coefs = t.coefs := by
  ext1 i
  rw [coefs_apply, coefs_apply, coefAt, coefAt, fullSymbolGetCoef_congr same, same.firstId]

theorem WellFormed.bounds_of_isZero {s : FullSymbol} (wf : s.WellFormed)
    (zero : fullSymbolIsZero s = true) :
    s.firstNonzeroId = symbolIdNone ∧ s.lastNonzeroId = symbolIdNone := by
  rcases wf with e | ⟨r, c | b⟩
  · exact ⟨e.firstNonzero, e.lastNonzero⟩
  · exact ⟨c.first, c.last⟩
  · have lt := (b.below r).1
    simp [fullSymbolIsZero, fullSymbolGetMinSymbolId] at zero
    omega

/-- The cached bounds are determined by the content. -/
theorem SameContent.eq {s t : FullSymbol} (same : s.SameContent t) (wfs : s.WellFormed)
    (wft : t.WellFormed) : s = t := by
  have bounds : s.firstNonzeroId = t.firstNonzeroId ∧ s.lastNonzeroId = t.lastNonzeroId := by
    cases nz : fullSymbolIsZero s with
    | false => exact wfs.bounds_eq wft nz same.coefs_eq
    | true =>
        have zero : fullSymbolIsZero t = true := by
          rw [wft.isZero_iff, ← same.coefs_eq, ← wfs.isZero_iff, nz]
        obtain ⟨first, last⟩ := wfs.bounds_of_isZero nz
        obtain ⟨first', last'⟩ := wft.bounds_of_isZero zero
        exact ⟨first.trans first'.symm, last.trans last'.symm⟩
  obtain ⟨coef, first, last, data⟩ := same
  cases s; cases t
  simp only at *
  simp [coef, first, last, data, bounds]

end FullSymbol

/-- Over the empty range no bound is computed. -/
theorem fullSymbolAdjustMinMaxCoef_empty {s : FullSymbol} (first : s.firstId = symbolIdNone)
    (last : s.lastId = symbolIdNone) :
    fullSymbolAdjustMinMaxCoef s =
      .ok ({ s with firstNonzeroId := symbolIdNone, lastNonzeroId := symbolIdNone }, false) := by
  unfold fullSymbolAdjustMinMaxCoef
  rw [if_pos first, cAssert_of (by simpa using last), ok_bind, pure_eq_ok]

/-- Recomputing the bounds of a well-formed symbol changes nothing. -/
theorem fullSymbolAdjustMinMaxCoef_self {s : FullSymbol} (wf : s.WellFormed) :
    ∃ found, fullSymbolAdjustMinMaxCoef s = .ok (s, found) := by
  by_cases none : s.firstId = symbolIdNone
  · rcases wf with e | ⟨r, -⟩
    · have same : ({ s with firstNonzeroId := symbolIdNone, lastNonzeroId := symbolIdNone } :
          FullSymbol).SameContent s := ⟨rfl, rfl, rfl, rfl⟩
      have cleared := same.eq (.inl ⟨e.first, e.last, e.cells, rfl, rfl⟩) (.inl e)
      exact ⟨false, by rw [fullSymbolAdjustMinMaxCoef_empty e.first e.last, cleared]⟩
    · exact absurd none r.first_ne_none
  · obtain ⟨t, found, eq, wft, same⟩ := fullSymbolAdjustMinMaxCoef_spec (wf.ranged_of_first_ne none)
    exact ⟨found, by rw [eq, same.eq wft wf]⟩

end SwifCodec
