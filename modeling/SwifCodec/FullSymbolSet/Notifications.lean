import SwifCodec.FullSymbolSet.Elimination

/-!
Which decoded source symbols a submission announces.

The callbacks of one submission come from two places: a row that becomes a single
source symbol in the loop is announced, and so is the new pivot, unless the
submitted symbol was already a single source symbol. Where a submission loses no
row, an identifier is therefore announced once exactly when it becomes decoded,
except for the new pivot of a submission with one identifier
(`Eliminated.count_eq`).
-/

namespace SwifCodec

open Library FullSymbol FullSymbolSet

/-- The symbol is a combination of exactly two source symbols. -/
def FullSymbol.hasTwoIds (s : FullSymbol) : Bool :=
  decide (s.firstNonzeroId < s.lastNonzeroId) &&
    (List.range' (s.firstNonzeroId + 1) (s.lastNonzeroId - s.firstNonzeroId - 1)).all fun i =>
      fullSymbolGetCoef s i = 0

/-- A symbol with two coefficients has two identifiers. -/
theorem FullSymbol.WellFormed.hasTwoIds_of_coefs {s : FullSymbol} (wf : s.WellFormed)
    (nz : fullSymbolIsZero s = false) {m l : ℕ} {a b : Gf256} (lead : s.firstNonzeroId = m)
    (b_ne : b ≠ 0) (other : l ≠ m)
    (eq : s.coefs = Finsupp.single m a + Finsupp.single l b) : s.hasTwoIds = true := by
  have at_l : s.coefs l = b := by
    rw [eq, Finsupp.add_apply, Finsupp.single_eq_of_ne other, Finsupp.single_eq_same, zero_add]
  have zero : ∀ i, i ≠ m → i ≠ l → s.coefs i = 0 := by
    intro i ne_m ne_l
    rw [eq, Finsupp.add_apply, Finsupp.single_eq_of_ne ne_m, Finsupp.single_eq_of_ne ne_l, add_zero]
  have above : m < l := by
    by_contra le
    exact b_ne (at_l.symm.trans (wf.coefs_before nz (by omega)))
  have last : s.lastNonzeroId = l := by
    have le : l ≤ s.lastNonzeroId := by
      by_contra lt
      exact b_ne (at_l.symm.trans (wf.coefs_after nz (by omega)))
    by_contra ne
    exact wf.coefs_last_ne nz (zero _ (by omega) ne)
  have last_lt := wf.last_lt nz
  unfold FullSymbol.hasTwoIds
  rw [Bool.and_eq_true, decide_eq_true_eq, List.all_eq_true]
  refine ⟨by omega, fun i mem => ?_⟩
  obtain ⟨low, high⟩ := List.mem_range'_1.mp mem
  rw [decide_eq_true_eq, wf.getCoef_eq (by omega)]
  exact zero i (by omega) (by omega)

/-- A single source symbol does not have two identifiers. -/
theorem FullSymbol.hasTwoIds_of_hasOneId {s : FullSymbol} (one : fullSymbolHasOneId s = true) :
    s.hasTwoIds = false := by
  unfold fullSymbolHasOneId fullSymbolGetMinSymbolId fullSymbolGetMaxSymbolId at one
  rw [Bool.and_eq_true, beq_iff_eq] at one
  unfold FullSymbol.hasTwoIds
  rw [one.2, decide_eq_false (lt_irrefl _), Bool.false_and]

section Submission

variable {set set' : FullSymbolSet} (inv : set.Invariant) {s n : FullSymbol}
  {notified : List Notification} (el : Eliminated set s n set' notified) {id m : ℕ}
include inv el

/-- Decoded symbols stay decoded. -/
theorem Eliminated.decodes_mono (free : set.TopFree n.firstNonzeroId) (old : set.Decodes id) :
    set'.Decodes id := by
  rw [← (el.invariant inv).single_mem_rowSpan_iff, el.rowSpan_eq free]
  exact Submodule.mem_sup_left ((inv.single_mem_rowSpan_iff id).mpr old)

omit inv in
/-- The new pivot was not decoded. -/
theorem Eliminated.not_decodes_pivot : ¬ set.Decodes n.firstNonzeroId := by
  rintro ⟨row, at_l, one⟩
  rw [(el.pivotal.replaced row at_l).2] at one
  cases one

omit inv in
theorem Eliminated.decodes_pivot_iff :
    set'.Decodes n.firstNonzeroId ↔ fullSymbolHasOneId n = true := by
  constructor
  · rintro ⟨row, at_l, one⟩
    rw [el.stored] at at_l
    cases at_l
    exact one
  · intro one
    exact ⟨n, el.stored, one⟩

omit inv in
/-- A row that becomes a single source symbol was there before. -/
theorem Eliminated.becomesSingle_iff (free : set.TopFree n.firstNonzeroId)
    (other : id ≠ n.firstNonzeroId) :
    becomesSingle (set.rowAt id) (set'.rowAt id) = true ↔
      ¬ set.Decodes id ∧ set'.Decodes id := by
  cases at_id : set.rowAt id with
  | none =>
      rw [becomesSingle_none]
      refine iff_of_false Bool.false_ne_true ?_
      rintro ⟨-, row', at_id', -⟩
      obtain ⟨row, before, -⟩ := el.rows id row' other at_id'
      rw [at_id] at before
      cases before
  | some row =>
      obtain ⟨row', at_id', -⟩ := el.kept free id row other at_id
      rw [at_id', becomesSingle, Bool.and_eq_true, Bool.not_eq_true']
      constructor
      · rintro ⟨several, one⟩
        refine ⟨?_, row', at_id', one⟩
        rintro ⟨r, at_r, one_r⟩
        rw [at_id] at at_r
        cases at_r
        rw [several] at one_r
        cases one_r
      · rintro ⟨several, r', at_r', one⟩
        rw [at_id'] at at_r'
        cases at_r'
        refine ⟨?_, one⟩
        by_contra one_r
        exact several ⟨row, at_id, by simpa using one_r⟩

omit inv in
/-- An identifier is announced once when it becomes decoded, and not otherwise; the new
pivot of a submission with one identifier is not announced. -/
theorem Eliminated.count_eq (free : set.TopFree n.firstNonzeroId) (id : ℕ) :
    (notified.map Notification.decodedId).count id =
      if ¬ set.Decodes id ∧ set'.Decodes id ∧
        ¬ (id = n.firstNonzeroId ∧ fullSymbolHasOneId s = true) then 1 else 0 := by
  rw [el.count free]
  by_cases at_l : id = n.firstNonzeroId
  · rw [if_pos at_l]
    refine if_congr ?_ rfl rfl
    rw [at_l, el.decodes_pivot_iff, Bool.and_eq_true, Bool.not_eq_true']
    constructor
    · rintro ⟨several, one⟩
      exact ⟨el.not_decodes_pivot, one, fun h => by rw [several] at h; cases h.2⟩
    · rintro ⟨-, one, several⟩
      exact ⟨by simpa using several, one⟩
  · rw [if_neg at_l]
    refine if_congr ?_ rfl rfl
    rw [el.becomesSingle_iff free at_l]
    exact ⟨fun h => ⟨h.1, h.2, fun h' => at_l h'.1⟩, fun h => ⟨h.1, h.2.1⟩⟩

omit inv in
theorem Eliminated.pivot_unit (one : fullSymbolHasOneId n = true) :
    n.coefs = Finsupp.single n.firstNonzeroId 1 := by
  obtain ⟨b, -, eq⟩ := el.pivotal.wellFormed.hasOneId_iff.mp one
  have lead := el.pivotal.lead
  rw [eq, Finsupp.single_eq_same] at lead
  rw [eq, lead]

/-- A new pivot that is decoded overwrites no row. -/
theorem Eliminated.no_row_of_hasOneId (one : fullSymbolHasOneId n = true) :
    set.rowAt n.firstNonzeroId = none := by
  cases at_l : set.rowAt n.firstNonzeroId with
  | none => rfl
  | some row =>
      obtain ⟨same, several⟩ := el.pivotal.replaced row at_l
      rw [(inv.hasOneId_iff at_l).mpr (same.trans (el.pivot_unit one))] at several
      cases several

/-- A submission with one identifier whose new pivot is decoded: the pivot is that
identifier, or what is left of its row of two identifiers. -/
theorem Eliminated.pivot_of_single {a : Gf256} (a_ne : a ≠ 0)
    (single : s.coefs = Finsupp.single m a) (one : fullSymbolHasOneId n = true)
    (row_m : ∀ row, set.rowAt m = some row → row.hasTwoIds = false) : n.firstNonzeroId = m := by
  by_contra other
  obtain ⟨c, c_ne, diff⟩ := el.source
  have unit := el.pivot_unit one
  have no_row := el.no_row_of_hasOneId inv one
  have diff_eq : s.coefs - c • n.coefs =
      Finsupp.single m a + Finsupp.single n.firstNonzeroId c := by
    rw [single, unit, Finsupp.smul_single, smul_eq_mul, mul_one, coefs_sub_eq_add]
  rw [diff_eq] at diff
  cases at_m : set.rowAt m with
  | none =>
      -- No pivot sees the difference, so it is zero.
      have zero := inv.reduced.eq_zero_of_mem_span diff fun p f at_p => ?_
      · have at_m := DFunLike.congr_fun zero m
        rw [Finsupp.add_apply, Finsupp.single_eq_same, Finsupp.single_eq_of_ne (Ne.symm other),
          add_zero] at at_m
        exact a_ne at_m
      · obtain ⟨row, row_p, rfl⟩ := coefRows_eq_some.mp at_p
        have ne_m : p ≠ m := by
          rintro rfl
          rw [at_m] at row_p
          cases row_p
        have ne_l : p ≠ n.firstNonzeroId := by
          rintro rfl
          rw [no_row] at row_p
          cases row_p
        show (Finsupp.single m a + Finsupp.single n.firstNonzeroId c : ℕ →₀ Gf256) p = 0
        rw [Finsupp.add_apply, Finsupp.single_eq_of_ne ne_m, Finsupp.single_eq_of_ne ne_l, add_zero]
  | some row =>
      -- The difference is the row of `m`, scaled.
      have same := inv.reduced.eq_of_mem_span diff
        (Submodule.smul_mem _ a (coefs_mem_rowSpan at_m)) fun p f at_p => ?_
      · have two : row.coefs = Finsupp.single m 1 + Finsupp.single n.firstNonzeroId (a⁻¹ * c) := by
          have scaled := congrArg (a⁻¹ • ·) same
          rw [smul_smul, inv_mul_cancel₀ a_ne, one_smul, smul_add, Finsupp.smul_single,
            Finsupp.smul_single, smul_eq_mul, smul_eq_mul, inv_mul_cancel₀ a_ne] at scaled
          exact scaled.symm
        have found := (inv.wellFormed at_m).hasTwoIds_of_coefs (inv.nonzero at_m)
          (inv.firstNonzeroId at_m) (mul_ne_zero (inv_ne_zero a_ne) c_ne) other two
        rw [row_m row at_m] at found
        cases found
      · obtain ⟨row', row_p, rfl⟩ := coefRows_eq_some.mp at_p
        have ne_l : p ≠ n.firstNonzeroId := by
          rintro rfl
          rw [no_row] at row_p
          cases row_p
        show (Finsupp.single m a + Finsupp.single n.firstNonzeroId c : ℕ →₀ Gf256) p =
          (a • row.coefs) p
        rw [Finsupp.add_apply, Finsupp.single_eq_of_ne ne_l, add_zero, Finsupp.smul_apply]
        by_cases at_p_m : p = m
        · rw [at_p_m, Finsupp.single_eq_same, inv.lead at_m, smul_eq_mul, mul_one]
        · rw [Finsupp.single_eq_of_ne at_p_m, inv.clear row_p at_m at_p_m, smul_zero]

end Submission

end SwifCodec
