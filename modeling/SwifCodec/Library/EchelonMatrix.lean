import Mathlib.LinearAlgebra.Matrix.Echelon.Pivot
import SwifCodec.Library.Echelon

/-!
Lists of rows in reduced row echelon form.

An elimination that collects its rows pivot by pivot ends with a list of rows, each with
its pivot column. `PivotList` says that such a list is reduced. Read as a matrix it is then
in the reduced row echelon form of Mathlib, without zero rows (`PivotList.isRref`), and
every such matrix is one of these lists (`IsRref.exists_pivotList`).

* `IsRref.rank`: the number of rows is the rank.
* `IsRref.eq_of_rowSpace_eq`: the row space determines the rows.
-/

namespace SwifCodec.Library

variable {K : Type*}

/-- The entries of a row as a vector of `n` columns. -/
def rowVector [Zero K] (n : ℕ) (row : List K) : Fin n → K := fun j => row.getD j 0

/-- The matrix with the given rows. -/
def rowsMatrix [Zero K] (n : ℕ) (rows : List (List K)) : Matrix (Fin rows.length) (Fin n) K :=
  fun i => rowVector n rows[i]

/-- The span of the rows of a matrix. -/
def rowSpace [Field K] (n : ℕ) (rows : List (List K)) : Submodule K (Fin n → K) :=
  Submodule.span K {v | ∃ row ∈ rows, rowVector n row = v}

/-- A matrix in reduced row echelon form, without zero rows. -/
structure IsRref [Field K] (n : ℕ) (rows : List (List K)) : Prop where
  width : ∀ row ∈ rows, row.length = n
  nonzero : ∀ row ∈ rows, rowVector n row ≠ 0
  reduced : (rowsMatrix n rows).IsReducedRowEchelon

/-- Rows with their pivot columns, in reduced row echelon form. -/
structure PivotList [Zero K] [One K] (n : ℕ) (ps : List (ℕ × List K)) : Prop where
  width : ∀ p ∈ ps, p.2.length = n
  pivot_lt : ∀ p ∈ ps, p.1 < n
  increasing : ps.Pairwise fun p q => p.1 < q.1
  lead : ∀ p ∈ ps, p.2.getD p.1 0 = 1
  before : ∀ p ∈ ps, ∀ j < p.1, p.2.getD j 0 = 0
  clear : ∀ p ∈ ps, ∀ q ∈ ps, p.1 ≠ q.1 → q.2.getD p.1 0 = 0

/-- Rows of the same width with the same entries are equal. -/
theorem eq_of_rowVector_eq [Zero K] {n : ℕ} {row row' : List K} (width : row.length = n)
    (width' : row'.length = n) (same : rowVector n row = rowVector n row') : row = row' := by
  refine List.ext_getElem (width.trans width'.symm) fun j lt lt' => ?_
  have entry := congrFun same ⟨j, by omega⟩
  simpa [rowVector, List.getD_eq_getElem?_getD, lt, lt'] using entry

section RowSpace

variable [Field K] {n : ℕ} {rows rows' : List (List K)}

theorem mem_rowSpace {row : List K} (mem : row ∈ rows) : rowVector n row ∈ rowSpace n rows :=
  Submodule.subset_span ⟨row, mem, rfl⟩

theorem rowSpace_le {C : Submodule K (Fin n → K)} :
    rowSpace n rows ≤ C ↔ ∀ row ∈ rows, rowVector n row ∈ C := by
  rw [rowSpace, Submodule.span_le]
  constructor
  · exact fun le row mem => le ⟨row, mem, rfl⟩
  · rintro each v ⟨row, mem, rfl⟩
    exact each row mem

theorem rowSpace_eq_range (n : ℕ) (rows : List (List K)) :
    rowSpace n rows = Submodule.span K (Set.range (rowsMatrix n rows)) := by
  rw [rowSpace]
  congr 1
  ext v
  constructor
  · rintro ⟨row, mem, rfl⟩
    obtain ⟨i, lt, rfl⟩ := List.mem_iff_getElem.mp mem
    exact ⟨⟨i, lt⟩, rfl⟩
  · rintro ⟨i, rfl⟩
    exact ⟨rows[i], List.getElem_mem _, rfl⟩

end RowSpace

/-! ### Lists with their pivots -/

namespace PivotList

section Echelon

variable [Field K] {n : ℕ} {ps qs : List (ℕ × List K)}

/-- Rows are determined by their pivots. -/
theorem eq_of_pivot_eq (list : PivotList n ps) {p q : ℕ × List K} (mem : p ∈ ps) (mem' : q ∈ ps)
    (same : p.1 = q.1) : p = q := by
  by_contra ne
  obtain ⟨i, lt_i, rfl⟩ := List.mem_iff_getElem.mp mem
  obtain ⟨j, lt_j, rfl⟩ := List.mem_iff_getElem.mp mem'
  have order := List.pairwise_iff_getElem.mp list.increasing
  rcases lt_trichotomy i j with lt | eq | gt
  · have := order i j lt_i lt_j lt
    omega
  · subst eq
    exact ne rfl
  · have := order j i lt_j lt_i gt
    omega

/-- The pivots are the leading entries of the matrix. -/
theorem isLeadingEntry (list : PivotList n ps) (i : Fin (ps.map Prod.snd).length) :
    ∃ p ∈ ps, ∃ lt : p.1 < n, ps[i.1]? = some p ∧
      (rowsMatrix n (ps.map Prod.snd)) i = rowVector n p.2 ∧
      (rowsMatrix n (ps.map Prod.snd)).IsLeadingEntry i ⟨p.1, lt⟩ := by
  have lt_i : i.1 < ps.length := by simpa using i.2
  have mem : ps[i.1] ∈ ps := List.getElem_mem lt_i
  have row : (rowsMatrix n (ps.map Prod.snd)) i = rowVector n ps[i.1].2 := by
    simp [rowsMatrix]
  refine ⟨ps[i.1], mem, list.pivot_lt _ mem, List.getElem?_eq_getElem lt_i, row, ?_, ?_⟩
  · intro j lt
    rw [row]
    exact list.before _ mem j lt
  · rw [row]
    show ps[i.1].2.getD ps[i.1].1 0 ≠ 0
    rw [list.lead _ mem]
    exact one_ne_zero

/-- A reduced list is a matrix in reduced row echelon form without zero rows. -/
theorem isRref (list : PivotList n ps) : IsRref n (ps.map Prod.snd) where
  width row mem := by
    obtain ⟨p, mem_p, rfl⟩ := List.mem_map.mp mem
    exact list.width p mem_p
  nonzero row mem zero := by
    obtain ⟨p, mem_p, rfl⟩ := List.mem_map.mp mem
    have lead : rowVector n p.2 ⟨p.1, list.pivot_lt p mem_p⟩ = 1 := list.lead p mem_p
    rw [zero] at lead
    exact zero_ne_one lead
  reduced := by
    refine ⟨fun i i' lt j vanishes => ?_, fun i c leads => ?_, fun i i' c lt leads => ?_⟩
    · obtain ⟨p, mem, lt_p, at_i, -, -, ne⟩ := list.isLeadingEntry i
      obtain ⟨q, mem', -, at_i', row', -⟩ := list.isLeadingEntry i'
      have order : p.1 < q.1 := by
        obtain ⟨lt_i, rfl⟩ := List.getElem?_eq_some_iff.mp at_i
        obtain ⟨lt_i', rfl⟩ := List.getElem?_eq_some_iff.mp at_i'
        exact List.pairwise_iff_getElem.mp list.increasing _ _ lt_i lt_i' lt
      -- The upper row leads at `p.1`, so the column is not behind it.
      have le : j.1 ≤ p.1 := by
        by_contra gt
        exact ne (vanishes ⟨p.1, lt_p⟩ (by show p.1 < j.1; omega))
      rw [row']
      exact list.before q mem' j.1 (by omega)
    · obtain ⟨p, mem, lt_p, -, row, leads'⟩ := list.isLeadingEntry i
      rw [leads.unique leads', row]
      exact list.lead p mem
    · obtain ⟨p, mem, -, at_i, row, -⟩ := list.isLeadingEntry i
      obtain ⟨q, mem', lt_q, at_i', -, leads'⟩ := list.isLeadingEntry i'
      have order : p.1 < q.1 := by
        obtain ⟨lt_i, rfl⟩ := List.getElem?_eq_some_iff.mp at_i
        obtain ⟨lt_i', rfl⟩ := List.getElem?_eq_some_iff.mp at_i'
        exact List.pairwise_iff_getElem.mp list.increasing _ _ lt_i lt_i' lt
      rw [leads.unique leads', row]
      exact list.clear q mem' p mem (by omega)

/-- The rows as a family, by their pivots. -/
def family (n : ℕ) (ps : List (ℕ × List K)) : Rows (Fin n) (Fin n → K) :=
  fun c => (ps.find? fun p => p.1 = c.1).map fun p => rowVector n p.2

theorem family_eq_some (list : PivotList n ps) {c : Fin n} {v : Fin n → K} :
    family n ps c = some v ↔ ∃ p ∈ ps, p.1 = c.1 ∧ rowVector n p.2 = v := by
  rw [family, Option.map_eq_some_iff]
  have at_found : ∀ {q}, (ps.find? fun p => decide (p.1 = c.1)) = some q → q.1 = c.1 :=
    fun found => of_decide_eq_true (List.find?_some found :)
  constructor
  · rintro ⟨p, found, eq⟩
    exact ⟨p, List.mem_of_find?_eq_some found, at_found found, eq⟩
  · rintro ⟨p, mem, at_c, eq⟩
    obtain ⟨q, found⟩ : ∃ q, (ps.find? fun p => decide (p.1 = c.1)) = some q :=
      Option.isSome_iff_exists.mp (List.find?_isSome.mpr ⟨p, mem, decide_eq_true at_c⟩)
    have same := at_found found
    rw [← list.eq_of_pivot_eq (List.mem_of_find?_eq_some found) mem (same.trans at_c.symm)] at eq
    exact ⟨q, found, eq⟩

theorem reduced (list : PivotList n ps) : Reduced LinearMap.proj (K := K) (family n ps) where
  lead h := by
    obtain ⟨p, mem, at_c, rfl⟩ := list.family_eq_some.mp h
    rw [LinearMap.proj_apply, rowVector, ← at_c]
    exact list.lead p mem
  before h lt := by
    obtain ⟨p, mem, at_c, rfl⟩ := list.family_eq_some.mp h
    exact list.before p mem _ (by rw [at_c]; exact lt)
  clear h h' ne := by
    obtain ⟨p, mem, at_c, rfl⟩ := list.family_eq_some.mp h
    obtain ⟨q, mem', at_d, rfl⟩ := list.family_eq_some.mp h'
    rw [LinearMap.proj_apply, rowVector, ← at_c]
    exact list.clear p mem q mem' fun eq => ne (Fin.ext (by rw [← at_c, ← at_d, eq]))

theorem span_family (list : PivotList n ps) :
    (family n ps).span K = rowSpace n (ps.map Prod.snd) := by
  rw [Rows.span, rowSpace]
  congr 1
  ext v
  constructor
  · rintro ⟨c, at_c⟩
    obtain ⟨p, mem, -, eq⟩ := list.family_eq_some.mp at_c
    exact ⟨p.2, List.mem_map_of_mem mem, eq⟩
  · rintro ⟨row, mem, eq⟩
    obtain ⟨p, mem_p, rfl⟩ := List.mem_map.mp mem
    exact ⟨⟨p.1, list.pivot_lt p mem_p⟩, list.family_eq_some.mpr ⟨p, mem_p, rfl, eq⟩⟩

/-- Reduced lists with the same row space have the same rows at the same pivots. -/
theorem subset_of_rowSpace_eq (list : PivotList n ps) (list' : PivotList n qs)
    (same : rowSpace n (ps.map Prod.snd) = rowSpace n (qs.map Prod.snd)) : ps ⊆ qs := by
  rw [← list.span_family, ← list'.span_family] at same
  have families := list.reduced.eq_of_span_eq list'.reduced same
  intro p mem
  have at_p : family n ps ⟨p.1, list.pivot_lt p mem⟩ = some (rowVector n p.2) :=
    list.family_eq_some.mpr ⟨p, mem, rfl, rfl⟩
  rw [families] at at_p
  obtain ⟨q, mem', pivot, row⟩ := list'.family_eq_some.mp at_p
  have rows := eq_of_rowVector_eq (list'.width q mem') (list.width p mem) row
  rwa [show p = q from Prod.ext pivot.symm rows.symm]

theorem eq_of_rowSpace_eq (list : PivotList n ps) (list' : PivotList n qs)
    (same : rowSpace n (ps.map Prod.snd) = rowSpace n (qs.map Prod.snd)) : ps = qs := by
  have nodup : ∀ {l : List (ℕ × List K)}, PivotList n l → l.Nodup := fun list =>
    list.increasing.imp fun lt eq => by rw [eq] at lt; exact lt_irrefl _ lt
  have perm : ps.Perm qs := (List.perm_ext_iff_of_nodup (nodup list) (nodup list')).mpr fun p =>
    ⟨fun mem => list.subset_of_rowSpace_eq list' same mem,
      fun mem => list'.subset_of_rowSpace_eq list same.symm mem⟩
  refine perm.eq_of_pairwise (fun p q _ _ lt gt => ?_) list.increasing list'.increasing
  exact absurd (lt.trans gt) (lt_irrefl _)

end Echelon

end PivotList

/-! ### Reduced row echelon form -/

namespace IsRref

variable [Field K] {n : ℕ} {rows rows' : List (List K)}

/-- A matrix in reduced row echelon form without zero rows is a reduced list. -/
theorem exists_pivotList (rref : IsRref n rows) :
    ∃ ps : List (ℕ × List K), ps.map Prod.snd = rows ∧ PivotList n ps := by
  have leads : ∀ i : Fin rows.length, ∃ c, (rowsMatrix n rows).IsLeadingEntry i c := fun i =>
    Matrix.row_ne_zero_iff_exists_isLeadingEntry.mp (rref.nonzero _ (List.getElem_mem _))
  choose pivot leads using leads
  have entry : ∀ i j, (rowsMatrix n rows) i j = rows[i].getD j 0 := fun _ _ => rfl
  have at_mem : ∀ p ∈ List.ofFn fun i => ((pivot i).1, rows[i]),
      ∃ i, p = ((pivot i).1, rows[i]) := by
    intro p mem
    obtain ⟨i, rfl⟩ := List.mem_ofFn.mp mem
    exact ⟨i, rfl⟩
  refine ⟨List.ofFn fun i => ((pivot i).1, rows[i]), ?_, ?_, ?_, ?_, ?_, ?_, ?_⟩
  · rw [List.map_ofFn]
    exact List.ofFn_getElem
  · intro p mem
    obtain ⟨i, rfl⟩ := at_mem p mem
    exact rref.width _ (List.getElem_mem _)
  · intro p mem
    obtain ⟨i, rfl⟩ := at_mem p mem
    exact (pivot i).2
  · rw [List.pairwise_ofFn]
    intro i i' lt
    by_contra ge
    refine (leads i').2 (rref.reduced.isRowEchelon lt fun j before => (leads i).1 j ?_)
    exact before.trans_le (by simpa using ge)
  · intro p mem
    obtain ⟨i, rfl⟩ := at_mem p mem
    exact rref.reduced.eq_one (leads i)
  · intro p mem j lt
    obtain ⟨i, rfl⟩ := at_mem p mem
    exact (leads i).1 ⟨j, lt.trans (pivot i).2⟩ lt
  · intro p mem q mem' ne
    obtain ⟨i, rfl⟩ := at_mem p mem
    obtain ⟨i', rfl⟩ := at_mem q mem'
    have other : i' ≠ i := fun eq => ne (by rw [eq])
    exact rref.reduced.eq_zero_of_ne_of_isLeadingEntry other (leads i)

/-- The row space determines the reduced row echelon form. -/
theorem eq_of_rowSpace_eq (rref : IsRref n rows) (rref' : IsRref n rows')
    (same : rowSpace n rows = rowSpace n rows') : rows = rows' := by
  obtain ⟨ps, rfl, list⟩ := rref.exists_pivotList
  obtain ⟨qs, rfl, list'⟩ := rref'.exists_pivotList
  rw [list.eq_of_rowSpace_eq list' same]

/-- The number of rows is the rank. -/
theorem rank (rref : IsRref n rows) : (rowsMatrix n rows).rank = rows.length := by
  have leads : ∀ i : Fin rows.length, ∃ c, (rowsMatrix n rows).IsLeadingEntry i c := fun i =>
    Matrix.row_ne_zero_iff_exists_isLeadingEntry.mp (rref.nonzero _ (List.getElem_mem _))
  choose pivot leads using leads
  have pivoted : (rowsMatrix n rows).IsPivotedBy fun i => (pivot i : WithTop (Fin n)) := by
    refine ⟨rref.reduced.isRowEchelon, fun i => ⟨fun j lt => ?_, fun c eq => ?_⟩⟩
    · exact (leads i).1 j (WithTop.coe_lt_coe.mp lt)
    · rw [← WithTop.coe_eq_coe.mp eq]
      exact (leads i).2
  rw [pivoted.rank_eq]
  simp

/-- The rank of a matrix is the dimension of its row space. -/
theorem finrank_rowSpace (rref : IsRref n rows) :
    Module.finrank K (rowSpace n rows) = rows.length := by
  have rank := rref.rank
  rw [Matrix.rank_eq_finrank_span_row] at rank
  rw [rowSpace_eq_range]
  exact rank

end IsRref

end SwifCodec.Library
