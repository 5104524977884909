import SwifCodec.FullSymbolSet.Runs
import SwifCodec.FullSymbolSet.Notifications

/-!
Redundant symbols.

The loop of `full_symbol_set_remove_each_pivot` drops a sum that cancels and goes
on with the symbol it had, which is then a multiple of the row of the last pivot
it reached (`Tracking.ends_at`). Its flag finds that multiple redundant only
when the row is a single source symbol, and otherwise the symbol is returned
(`reduces_iff`). It then takes the slot of that very row, with the coefficients
the row had, so a submission does nothing to the rows (`redundant_of_run`).
-/

namespace SwifCodec

open Library FullSymbol FullSymbolSet Gf256

namespace FullSymbolSet

/-- The vectors of the stored symbols, coefficients and data, by pivot identifier. -/
noncomputable def vecRows (set : FullSymbolSet) : Rows ℕ Vec :=
  fun id => (set.rowAt id).map FullSymbol.vec

/-- The span of the vectors of the stored symbols. -/
noncomputable def vecSpan (set : FullSymbolSet) : Submodule Gf256 Vec :=
  set.vecRows.span Gf256

theorem vec_mem_vecSpan {set : FullSymbolSet} {id : ℕ} {row : FullSymbol}
    (h : set.rowAt id = some row) : row.vec ∈ set.vecSpan := by
  apply Rows.mem_span_of_row (p := id)
  simp [vecRows, h]

/-- The row of the last pivot that occurs in `s` is a single source symbol. -/
def EndsSingle (set : FullSymbolSet) (s : FullSymbol) : Prop :=
  ∀ p row, set.rowAt p = some row → s.coefs p ≠ 0 →
    (∀ q row', p < q → set.rowAt q = some row' → s.coefs q = 0) →
      fullSymbolHasOneId row = true

/-- The reduction of `s` returns NULL exactly for a redundant symbol, and otherwise a
non-zero symbol without pivots that differs from `s` by a combination of rows. -/
def Reduces (set : FullSymbolSet) (s : FullSymbol) : Prop :=
  ∃ result, fullSymbolSetRemoveEachPivot set s = .ok result ∧
    (result = none ↔ s.coefs ∈ set.rowSpan) ∧
    ∀ u, result = some u → fullSymbolIsZero u = false ∧
      (∀ p row, set.rowAt p = some row → fullSymbolGetCoef u p = 0) ∧ s.vec - u.vec ∈ set.vecSpan

end FullSymbolSet

/-! ### What the loop tracks -/

/-- The reduction of `s` with its data, and the pivot at which a sum was dropped. -/
structure Tracking (set : FullSymbolSet) (s cur : FullSymbol) (i : ℕ) (isZero : Bool) : Prop
    extends Reducing set s cur i isZero where
  vec : s.vec - cur.vec ∈ set.vecSpan
  /-- A pivot that was passed and not cleared is the last one of `s`. -/
  last : ∀ p row, p < i → set.rowAt p = some row → cur.coefs p ≠ 0 →
    ∀ q row', p < q → set.rowAt q = some row' → s.coefs q = 0

section Loop

variable {set : FullSymbolSet} {s cur : FullSymbol} {i : ℕ} {isZero : Bool}

theorem Tracking.init (wf : s.WellFormed) (nz : fullSymbolIsZero s = false) :
    Tracking set s s s.firstNonzeroId true where
  toReducing := .init wf nz
  vec := by simp
  last _ _ lt _ ne := absurd (wf.coefs_before nz lt) ne

theorem Tracking.skip (tr : Tracking set s cur i isZero) (coef : cur.coefs i = 0) :
    Tracking set s cur (i + 1) isZero where
  toReducing := tr.toReducing.skip coef
  vec := tr.vec
  last p row lt at_p ne := by
    rcases Nat.lt_succ_iff_lt_or_eq.mp lt with lt | rfl
    · exact tr.last p row lt at_p ne
    · exact absurd coef ne

theorem Tracking.keep (tr : Tracking set s cur i isZero) (coef : cur.coefs i ≠ 0)
    (free : set.rowAt i = none) : Tracking set s cur (i + 1) false where
  toReducing := tr.toReducing.keep coef free
  vec := tr.vec
  last p row lt at_p ne := by
    rcases Nat.lt_succ_iff_lt_or_eq.mp lt with lt | rfl
    · exact tr.last p row lt at_p ne
    · rw [free] at at_p
      cases at_p

theorem Tracking.eliminate (inv : set.Invariant) (tr : Tracking set s cur i isZero)
    (coef : cur.coefs i ≠ 0) {pivot u : FullSymbol} (at_i : set.rowAt i = some pivot)
    (wfu : u.WellFormed) (nzu : fullSymbolIsZero u = false)
    (coefs : u.coefs = cur.coefs + cur.coefs i • pivot.coefs)
    (payload : u.payload = cur.payload + cur.coefs i • pivot.payload)
    (length : pivot.data.length = cur.data.length → u.data.length = cur.data.length) :
    Tracking set s u (i + 1) isZero := by
  have red := tr.toReducing.eliminate inv coef at_i wfu nzu coefs fun sound_cur sound_pivot =>
    sound_cur.rowOperation sound_pivot coefs payload length
  refine ⟨red, ?_, ?_⟩
  · have vec : u.vec = cur.vec + cur.coefs i • pivot.vec := Prod.ext coefs payload
    have row := Submodule.smul_mem _ (cur.coefs i) (vec_mem_vecSpan at_i)
    have mem := Submodule.sub_mem _ tr.vec row
    rwa [sub_sub, ← vec] at mem
  · -- Nothing that was passed is left.
    intro p row lt at_p ne
    rcases red.cleared with clear | ⟨p', row', lt', at_p', s_ne, eq⟩
    · exact absurd (clear p row lt at_p) ne
    · have cleared : u.coefs p' = 0 := by
        rw [coefs, Finsupp.add_apply, Finsupp.smul_apply]
        rcases Nat.lt_succ_iff_lt_or_eq.mp lt' with lt' | rfl
        · rw [tr.clear_of_pivot inv coef at_i p' row' lt' at_p', inv.clear at_p' at_i (by omega),
            smul_zero, add_zero]
        · rw [inv.lead at_i, smul_eq_mul, mul_one, CharTwo.add_self_eq_zero]
      rw [eq, Finsupp.smul_apply, inv.lead at_p', smul_eq_mul, mul_one] at cleared
      exact absurd cleared s_ne

theorem Tracking.multiple (inv : set.Invariant) (tr : Tracking set s cur i isZero)
    (coef : cur.coefs i ≠ 0) {pivot : FullSymbol} (at_i : set.rowAt i = some pivot)
    (sum : cur.coefs + cur.coefs i • pivot.coefs = 0) : Tracking set s cur (i + 1) isZero where
  toReducing := tr.toReducing.multiple coef at_i sum
  vec := tr.vec
  last p row lt at_p ne q row' gt at_q := by
    rcases Nat.lt_succ_iff_lt_or_eq.mp lt with lt | rfl
    · exact absurd (tr.clear_of_pivot inv coef at_i p row lt at_p) ne
    · -- A multiple of the row of `p` has no other pivot.
      have at_sum := DFunLike.congr_fun sum q
      rwa [Finsupp.add_apply, Finsupp.smul_apply, inv.clear at_q at_i (by omega), smul_zero,
        add_zero, tr.pending q row' (by omega) at_q, Finsupp.zero_apply] at at_sum

/-- The reduction of a non-zero symbol ends with what the loop tracks. -/
theorem fullSymbolSetRemoveEachPivot_tracked (inv : set.Invariant) (wrap : set.NoWrap)
    (wf : s.WellFormed) (nz : fullSymbolIsZero s = false) :
    ∃ u j isZero, fullSymbolSetRemoveEachPivot set s =
        .ok (if isZero then none else some u) ∧
      Tracking set s u j isZero ∧ u.lastNonzeroId < j := by
  have enough : 4294967296 ≤ 4294967296 + s.firstNonzeroId := Nat.le_add_right _ _
  rw [fullSymbolSetRemoveEachPivot_of_nonzero wf nz]
  refine removeEachPivotLoop_rule inv wrap (R := fun i cur z => Tracking set s cur i z)
    ?_ ?_ ?_ ?_ ?_ enough (wf.first_lt nz).le (Tracking.init wf nz)
  · intro i cur z tr
    exact ⟨tr.wellFormed, tr.nonzero⟩
  · intro i cur z tr coef
    exact tr.skip coef
  · intro i cur z tr coef free
    exact tr.keep coef free
  · intro i cur z pivot u tr coef at_i wfu nzu coefs payload length
    exact tr.eliminate inv coef at_i wfu nzu coefs payload length
  · intro i cur z pivot tr coef at_i sum
    exact tr.multiple inv coef at_i sum

end Loop

/-! ### When the reduction is right -/

section Result

variable {set : FullSymbolSet} (inv : set.Invariant) {s cur : FullSymbol} {i : ℕ} {isZero : Bool}
  (tr : Tracking set s cur i isZero) (done : cur.lastNonzeroId < i)
include inv tr done

/-- A redundant symbol ends as the multiple of the row of its last pivot. -/
theorem Tracking.ends_at (mem : s.coefs ∈ set.rowSpan) :
    ∃ p row, set.rowAt p = some row ∧ s.coefs p ≠ 0 ∧
      (∀ q row', p < q → set.rowAt q = some row' → s.coefs q = 0) ∧
      cur.coefs = s.coefs p • row.coefs := by
  rcases tr.cleared with clear | ⟨p, row, lt, at_p, ne, eq⟩
  · -- Without pivots the symbol would be zero.
    have cur_mem := Submodule.sub_mem _ mem tr.diff
    rw [sub_sub_cancel] at cur_mem
    have zero := inv.reduced.eq_zero_of_mem_span cur_mem fun p f at_p => ?_
    · have nz := tr.nonzero
      rw [tr.wellFormed.isZero_iff.mpr zero] at nz
      cases nz
    · obtain ⟨row, row_p, -⟩ := coefRows_eq_some.mp at_p
      by_cases lt : p < i
      · exact clear p row lt row_p
      · exact tr.wellFormed.coefs_after tr.nonzero (by omega)
  · refine ⟨p, row, at_p, ne, tr.last p row lt at_p ?_, eq⟩
    rwa [eq, Finsupp.smul_apply, inv.lead at_p, smul_eq_mul, mul_one]

/-- The flag says of the multiple of a row whether the row is a single source symbol. -/
theorem Tracking.flag {p : ℕ} {row : FullSymbol} {c : Gf256} (at_p : set.rowAt p = some row)
    (c_ne : c ≠ 0) (eq : cur.coefs = c • row.coefs) : isZero = fullSymbolHasOneId row := by
  cases isZero with
  | true =>
      symm
      rw [inv.hasOneId_iff at_p]
      ext1 q
      by_cases at_q : q = p
      · rw [at_q, inv.lead at_p, Finsupp.single_eq_same]
      · have zero : cur.coefs q = 0 := by
          by_cases lt : q < i
          · cases row_q : set.rowAt q with
            | none => exact tr.zero rfl q lt row_q
            | some row' => rw [eq, Finsupp.smul_apply, inv.clear row_q at_p at_q, smul_zero]
          · exact tr.wellFormed.coefs_after tr.nonzero (by omega)
        rw [eq, Finsupp.smul_apply, smul_eq_mul] at zero
        rw [Finsupp.single_eq_of_ne at_q]
        exact (mul_eq_zero.mp zero).resolve_left c_ne
  | false =>
      obtain ⟨q, -, free, coef⟩ := tr.seen rfl
      symm
      by_contra one
      rw [Bool.not_eq_false, inv.hasOneId_iff at_p] at one
      have ne : q ≠ p := by
        rintro rfl
        rw [free] at at_p
        cases at_p
      rw [eq, one, Finsupp.smul_apply, Finsupp.single_eq_of_ne ne, smul_zero] at coef
      exact coef rfl

end Result

/-- The reduction of a symbol does what it should exactly when, if the symbol is
redundant, the row of its last pivot is a single source symbol. -/
theorem reduces_iff {set : FullSymbolSet} (inv : set.Invariant) (wrap : set.NoWrap)
    {s : FullSymbol} (wf : s.WellFormed) :
    set.Reduces s ↔ (s.coefs ∈ set.rowSpan → set.EndsSingle s) := by
  cases zero : fullSymbolIsZero s with
  | true =>
      have coefs := wf.isZero_iff.mp zero
      refine iff_of_true
        ⟨none, fullSymbolSetRemoveEachPivot_of_zero wf zero, ?_, nofun⟩ fun _ p row _ ne => ?_
      · rw [coefs]
        exact iff_of_true rfl (Submodule.zero_mem _)
      · rw [coefs] at ne
        exact absurd rfl ne
  | false =>
      obtain ⟨u, i, isZero, eq, tr, done⟩ :=
        fullSymbolSetRemoveEachPivot_tracked inv wrap wf zero
      constructor
      · rintro ⟨result, eq', null, -⟩ mem p₀ row₀ at_p₀ ne₀ last₀
        rw [eq] at eq'
        cases eq'
        obtain ⟨p, row, at_p, ne, last, coefs⟩ := tr.ends_at inv done mem
        have flag := tr.flag inv done at_p ne coefs
        have same : p₀ = p := by
          rcases lt_trichotomy p₀ p with lt | same | gt
          · exact absurd (last₀ p row lt at_p) ne
          · exact same
          · exact absurd (last p₀ row₀ gt at_p₀) ne₀
        rw [same, at_p] at at_p₀
        cases at_p₀
        rw [← flag]
        have returned := null.mpr mem
        cases isZero with
        | true => rfl
        | false => cases returned
      · intro single
        cases isZero with
        | true => exact ⟨none, eq, iff_of_true rfl (tr.redundant done), nofun⟩
        | false =>
            have outside : s.coefs ∉ set.rowSpan := by
              intro mem
              obtain ⟨p, row, at_p, ne, last, coefs⟩ := tr.ends_at inv done mem
              have flag := tr.flag inv done at_p ne coefs
              rw [single mem p row at_p ne last] at flag
              cases flag
            refine ⟨some u, eq, iff_of_false nofun outside, ?_⟩
            rintro _ ⟨⟩
            refine ⟨tr.nonzero, fun p row at_p => ?_, tr.vec⟩
            rw [tr.wellFormed.getCoef_eq (lt_none_of_rowAt inv.toTableOk wrap at_p)]
            rcases (tr.result inv done).cleared with clear | ⟨q, row', at_q, -, -, coefs⟩
            · exact clear p row at_p
            · -- A multiple of a row would be redundant.
              have sum := Submodule.add_mem _ tr.diff
                (Submodule.smul_mem _ (s.coefs q) (coefs_mem_rowSpan at_q))
              rw [← coefs, sub_add_cancel] at sum
              exact absurd sum outside

/-- The sum of two stored source symbols is found redundant. -/
theorem reduces_iff_stored_sources :
    ∃ set os, SetRun (fun _ _ => True)
        [sourceSubmission 4 (bytes [7]), sourceSubmission 5 (bytes [9])] set os ∧
      set.Reduces (pairSymbol 4 1 (bytes [14])) := by
  obtain ⟨set, os, steps, shape⟩ := exists_steps_of_map
    (show (checkedRun submit (fun _ _ set' => set'.NoWrap ∧ True) fullSymbolSetAlloc
      [sourceSubmission 4 (bytes [7]), sourceSubmission 5 (bytes [9])]).map (fun result =>
        (result.1.firstSymbolId + result.1.size,
          (List.range 20).all fun p => (result.1.rowAt p).all fullSymbolHasOneId)) =
      some (20, true) by decide +kernel)
  obtain ⟨last, single⟩ := Prod.mk.inj shape
  dsimp only at last single
  obtain ⟨inv, wrap⟩ := invariant_of_run steps
  have ends : set.EndsSingle (pairSymbol 4 1 (bytes [14])) := by
    intro p row at_p _ _
    have bounds := bounds_of_rowAt inv.toTableOk at_p
    have one := List.all_eq_true.mp single p (List.mem_range.mpr (by omega))
    rw [at_p] at one
    exact one
  exact ⟨set, os, steps,
    (reduces_iff inv wrap (pairSubmission 4 1 (bytes [14])).2).mpr fun _ => ends⟩

/-- A stored sum of two source symbols that is submitted again is not found redundant. -/
theorem reduces_not_stored_pair :
    ¬ ∀ (set : FullSymbolSet) (s : FullSymbol), set.Invariant → set.NoWrap → s.WellFormed →
        set.Reduces s := by
  intro reduces
  obtain ⟨set, os, steps, found⟩ := exists_steps_of_map
    (show (checkedRun submit (fun _ _ set' => set'.NoWrap ∧ True) fullSymbolSetAlloc
      [pairSubmission 4 1 (bytes [7])]).map (fun result =>
        (result.1.rowAt 4, fullSymbolSetRemoveEachPivot result.1 (pairSymbol 4 1 (bytes [7])))) =
      some (some (pairSymbol 4 1 (bytes [7])), .ok (some (pairSymbol 4 1 (bytes [7]))))
      by decide +kernel)
  obtain ⟨at_4, returned⟩ := Prod.mk.inj found
  obtain ⟨inv, wrap⟩ := invariant_of_run steps
  obtain ⟨result, eq, null, -⟩ := reduces set _ inv wrap (pairSubmission 4 1 (bytes [7])).2
  dsimp only at returned at_4
  have eq : fullSymbolSetRemoveEachPivot set (pairSymbol 4 1 (bytes [7])) = .ok result := eq
  rw [returned] at eq
  cases eq
  cases null.mpr (coefs_mem_rowSpan at_4)

/-! ### A redundant submission -/

/-- An insertion into an occupied slot keeps the range of the table. -/
theorem fullSymbolSetAdd_occupied {set set' : FullSymbolSet} (ok : set.TableOk) {n row : FullSymbol}
    (wf : n.WellFormed) (nz : fullSymbolIsZero n = false)
    (at_lead : set.rowAt n.firstNonzeroId = some row) {k : ℕ}
    (add_eq : fullSymbolSetAdd set n = .ok (set', k)) :
    set'.firstSymbolId = set.firstSymbolId ∧ set'.size = set.size := by
  have bounds := bounds_of_rowAt ok at_lead
  have start : set.startFor n.firstNonzeroId = set.firstSymbolId := by
    refine if_neg fun none => ?_
    rw [rowAt_of_first_none ok none] at at_lead
    cases at_lead
  rw [fullSymbolSetAdd_eq wf nz, if_neg fun below => absurd below.2 (by omega), start] at add_eq
  obtain ⟨first, size⟩ := fullSymbolSetAddAbove_range add_eq
  exact ⟨first, size.trans (if_pos (by omega))⟩

section Submission

variable {set set' : FullSymbolSet} (inv : set.Invariant) (wrap : set.NoWrap) {s : Submission}
  {os : List Notification} (mem : s.1.coefs ∈ set.rowSpan)
  (ok : submit set s = .ok (set', os))
include inv mem

/-- What is left of a redundant symbol leads at an occupied pivot. -/
theorem ReducedBy.occupied {u n : FullSymbol} (red : ReducedBy set s u) (piv : Pivotal set n)
    (coefs : n.coefs = (u.coefs u.firstNonzeroId)⁻¹ • u.coefs) :
    ∃ row, set.rowAt n.firstNonzeroId = some row := by
  have mem_u := Submodule.sub_mem _ mem red.diff
  rw [sub_sub_cancel] at mem_u
  have mem_n : n.coefs ∈ set.rowSpan := by
    rw [coefs]
    exact Submodule.smul_mem _ _ mem_u
  have pivot : (set.coefRows n.firstNonzeroId).isSome := by
    refine inv.reduced.pivot_iff.mpr ⟨n.coefs, mem_n, fun i lt => piv.before lt, ?_⟩
    rw [Finsupp.lapply_apply, piv.lead]
    exact one_ne_zero
  obtain ⟨f, at_lead⟩ := Option.isSome_iff_exists.mp pivot
  obtain ⟨row, row_lead, -⟩ := coefRows_eq_some.mp at_lead
  exact ⟨row, row_lead⟩

include wrap ok

/-- A redundant submission keeps the range of the table. -/
theorem submit_redundant_range :
    set'.firstSymbolId = set.firstSymbolId ∧ set'.size = set.size := by
  rcases fullSymbolAddWithElimination_of_ok ok with ⟨rfl, -⟩ | ⟨u, calls, idx, reduce_eq, pivot_eq⟩
  · exact ⟨rfl, rfl⟩
  have red := ReducedBy.of_ok inv wrap s.2 reduce_eq
  obtain ⟨n, -, piv, -, coefs, -, result⟩ := fullSymbolSetAddAsPivot_spec inv wrap red
  rcases result with ⟨-, fault⟩ | ⟨mid, set'', notified, eq, -, -, cl, -, add_eq, -⟩
  · rw [fault] at pivot_eq
    cases pivot_eq
  rw [eq] at pivot_eq
  cases pivot_eq
  -- The rows that were cleared are still in their slots.
  obtain ⟨row, at_lead⟩ := red.occupied inv mem piv coefs
  have rel := cl.rel inv.toTableOk n.firstNonzeroId
  rw [at_lead] at rel
  cases at_mid : mid.rowAt n.firstNonzeroId with
  | none =>
      rw [at_mid] at rel
      cases rel
  | some row' =>
      obtain ⟨first, size⟩ := fullSymbolSetAdd_occupied (cl.tableOk inv.toTableOk) piv.wellFormed
        piv.nonzero at_mid add_eq
      exact ⟨first.trans cl.first, size.trans cl.size⟩

/-- A redundant submission keeps the coefficients of every row, and announces nothing. -/
theorem submit_redundant_rows : set'.coefRows = set.coefRows ∧ os = [] := by
  rcases submit_cases inv wrap ok with ⟨rfl, none, -⟩ | ⟨n, el⟩
  · exact ⟨rfl, none⟩
  have free : set.TopFree n.firstNonzeroId :=
    el.topFree_iff.mpr fun below => absurd below (above_of_mem_rowSpan inv mem)
  have span : set'.rowSpan = set.rowSpan := by
    rw [el.rowSpan_eq free]
    exact sup_eq_left.mpr ((Submodule.span_singleton_le_iff_mem _ _).mpr mem)
  refine ⟨(el.invariant inv).reduced.eq_of_span_eq inv.reduced span, ?_⟩
  -- An announced identifier would be decoded now and not before.
  have silent : ∀ id, (os.map Notification.decodedId).count id = 0 := by
    intro id
    rw [el.count_eq free, if_neg]
    rintro ⟨fresh, decodes, -⟩
    rw [← (el.invariant inv).single_mem_rowSpan_iff, span] at decodes
    exact fresh ((inv.single_mem_rowSpan_iff id).mp decodes)
  cases os with
  | nil => rfl
  | cons e rest =>
      have called := silent e.decodedId
      simp at called

end Submission

/-- After every run of sound submissions, a further sound submission that is redundant
returns, keeps the range of the table and every row with its data, and announces nothing. -/
theorem redundant_of_run {m : ℕ} {src : ℕ → Vector Gf256 m} {cs : List Submission}
    {set : FullSymbolSet} {os : List Notification} (run : SetRun (fun _ _ => True) cs set os)
    (sound : ∀ t ∈ cs, Sound src t.1) (s : Submission) (sound_s : Sound src s.1)
    (mem : s.1.coefs ∈ set.rowSpan) :
    ∃ set', submit set s = .ok (set', []) ∧
      set'.firstSymbolId = set.firstSymbolId ∧ set'.size = set.size ∧
      ∀ id, Option.Rel
        (fun row row' => (∀ i, fullSymbolGetCoef row i = fullSymbolGetCoef row' i) ∧
          row.data = row'.data)
        (set.rowAt id) (set'.rowAt id) := by
  obtain ⟨inv, wrap⟩ := invariant_of_run run
  obtain ⟨⟨set', notified⟩, ok⟩ := (submit_ok_iff (s := s) inv wrap).mpr fun below =>
    absurd below (above_of_mem_rowSpan inv mem)
  obtain ⟨first, size⟩ := submit_redundant_range inv wrap mem ok
  obtain ⟨same, rfl⟩ := submit_redundant_rows inv wrap mem ok
  have wrap' : set'.NoWrap := by
    unfold NoWrap
    rw [first, size]
    exact wrap
  have sound' : ∀ t ∈ cs ++ [s], Sound src t.1 := by
    intro t mem_t
    rcases List.mem_append.mp mem_t with old | new
    · exact sound t old
    · rw [List.mem_singleton.mp new]
      exact sound_s
  refine ⟨set', ok, first, size, rel_of_coefRows_eq inv (submit_invariant inv wrap ok)
    (allSound_of_run run sound) (allSound_of_run (run.snoc ok ⟨wrap', trivial⟩) sound') same.symm⟩

/-- The sum of two source symbols, submitted twice: it is reduced to itself and stored again. -/
theorem redundant_same_pair :
    ∃ set set' os, SetRun (fun _ _ => True) [pairSubmission 4 1 (bytes [3])] set os ∧
      submit set (pairSubmission 4 1 (bytes [3])) = .ok (set', []) ∧ set'.size = set.size := by
  obtain ⟨set, os, steps, stored⟩ := exists_steps_of_map
    (show (checkedRun submit (fun _ _ set' => set'.NoWrap ∧ True) fullSymbolSetAlloc
      [pairSubmission 4 1 (bytes [3])]).map (fun result => result.1.rowAt 4) =
        some (some (pairSymbol 4 1 (bytes [3]))) by decide +kernel)
  have sound : Sound (fun id => (#v[ofNat (id + 1)] : Vector Gf256 1))
      (pairSymbol 4 1 (bytes [3])) := by
    refine pairSymbol_sound (by decide) ?_
    decide +kernel
  obtain ⟨set', ok, -, size, -⟩ := redundant_of_run steps
    (fun t mem => by rw [List.mem_singleton.mp mem]; exact sound)
    (pairSubmission 4 1 (bytes [3])) sound (coefs_mem_rowSpan stored)
  exact ⟨set, set', os, steps, ok, size⟩

end SwifCodec
