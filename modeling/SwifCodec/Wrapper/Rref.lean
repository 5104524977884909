import SwifCodec.FullSymbolSet.Closure
import SwifCodec.Wrapper.ReducedMatrix

/-!
`compute_rref` computes the reduced row echelon form.

What it returns is in reduced row echelon form and combines rows of the input, for every
matrix (`computeRref_isRref`). It is the reduced row echelon form of the input
(`computeRref_spec`) when no row is pushed out of the pivot table on the way: for at most 16
columns, or when no row leads before the first non-zero row does. A matrix of zeros raises an
exception, and a matrix whose rows do not fit overruns the table (`computeRref_fault_iff`).
-/

namespace SwifCodec

open Library FullSymbol FullSymbolSet Gf256

section Rref

variable {n : ℕ} {rows rows' reduced : List (List Gf256)}

/-- A row without a non-zero entry is a zero vector. -/
theorem rowVector_eq_zero_iff {row : List Gf256} (width : row.length = n) :
    rowVector n row = 0 ↔ hasNonzero row = false := by
  rw [hasNonzero, List.any_eq_false]
  constructor
  · intro zero a mem
    obtain ⟨j, lt, rfl⟩ := List.mem_iff_getElem.mp mem
    have entry := congrFun zero ⟨j, by omega⟩
    simpa [rowVector, List.getD_eq_getElem?_getD, lt] using entry
  · intro zeros
    funext j
    have lt : j.1 < row.length := by omega
    have entry := zeros row[j.1] (List.getElem_mem lt)
    simpa [rowVector, List.getD_eq_getElem?_getD, lt] using entry

/-- The entries before the leading column are zero. -/
theorem getD_before_leadingColumn {row : List Gf256} {j : ℕ} (before : j < leadingColumn row) :
    row.getD j 0 = 0 := by
  have lt : j < row.length := before.trans_le List.findIdx_le_length
  have entry := List.not_of_lt_findIdx before
  simpa [List.getD_eq_getElem?_getD, lt] using entry

/-- The leading entry of a non-zero row. -/
theorem getD_leadingColumn {row : List Gf256} (nz : hasNonzero row = true) :
    leadingColumn row < row.length ∧ row.getD (leadingColumn row) 0 ≠ 0 := by
  obtain ⟨a, mem, ne⟩ := List.any_eq_true.mp nz
  have lt : leadingColumn row < row.length := List.findIdx_lt_length_of_exists ⟨a, mem, ne⟩
  have entry := List.findIdx_getElem (w := lt)
  refine ⟨lt, ?_⟩
  rw [List.getD_eq_getElem?_getD, List.getElem?_eq_getElem lt, Option.getD_some]
  exact of_decide_eq_true entry

/-- The symbol of a row is zero exactly when the row is. -/
theorem IsRowSymbol.coefs_eq_zero_iff {row : List Gf256} {s : Submission} (is : IsRowSymbol row s) :
    s.1.coefs = 0 ↔ hasNonzero row = false := by
  rw [← rowVector_eq_zero_iff rfl]
  constructor
  · intro zero
    funext j
    rw [rowVector, ← is.entries, zero]
    rfl
  · intro zero
    ext1 i
    rw [is.entries]
    by_cases lt : i < row.length
    · exact congrFun zero ⟨i, lt⟩
    · rw [List.getD_eq_getElem?_getD, List.getElem?_eq_none (by omega)]
      rfl

/-! ### Runs over the rows of a matrix -/

section Runs

variable {symbol : List Gf256 → Submission} {set : FullSymbolSet} {cs : List Submission}
  {os : List Notification}

/-- No row is pushed out of the pivot table. -/
def RowsFit (n : ℕ) (rows : List (List Gf256)) : Prop := n ≤ 16 ∨ StartsLeftmost rows

/-- When the rows of a matrix fit, each of them finds room in the pivot table. -/
theorem exists_run_of_rows (small : n ≤ 2147483639)
    (symbols : ∀ row, row.length = n → IsRowSymbol row (symbol row))
    (width : ∀ row ∈ rows, row.length = n) (fit : RowsFit n rows) :
    ∃ set os, SetRun (fun set s => set.Room s.1.firstNonzeroId) (rows.map symbol) set os := by
  have ids := idsBelow_of_mem symbols width
  rcases fit with sixteen | leftmost
  · exact exists_run_of_small sixteen _ ids
  have is : ∀ row ∈ rows, IsRowSymbol row (symbol row) := fun row mem =>
    symbols row (width row mem)
  cases found : rows.find? hasNonzero with
  | none =>
      have zeros : ∀ s ∈ rows.map symbol, s.1.coefs = 0 := by
        intro s mem
        obtain ⟨row, mem_row, rfl⟩ := List.mem_map.mp mem
        rw [(is row mem_row).coefs_eq_zero_iff]
        exact Bool.not_eq_true _ ▸ List.find?_eq_none.mp found row mem_row
      obtain ⟨set, os, run, -⟩ := exists_run_of_leftmost small (show 0 < symbolIdNone by decide)
        (rows.map symbol) ids (fun s mem j lt => absurd lt (Nat.not_lt_zero j))
        (fun pre s post eq zero nz => absurd (zeros s (by rw [eq]; simp)) nz)
      exact ⟨set, os, run⟩
  | some first =>
      have leads := leftmost first found
      have nz : hasNonzero first = true := (List.find?_some found :)
      have lead_lt := (getD_leadingColumn nz).1
      have first_width := width first (List.mem_of_find?_eq_some found)
      have none_eq : symbolIdNone = 4294967295 := rfl
      have vanishes : ∀ s ∈ rows.map symbol, ∀ j < leadingColumn first, s.1.coefs j = 0 := by
        intro s mem j lt
        obtain ⟨row, mem_row, rfl⟩ := List.mem_map.mp mem
        rw [(is row mem_row).entries]
        exact getD_before_leadingColumn (lt.trans_le (leads row mem_row))
      -- The first symbol that is not zero is the one of the first non-zero row.
      have starts : ∀ pre s post, rows.map symbol = pre ++ s :: post →
          (∀ t ∈ pre, t.1.coefs = 0) → s.1.coefs ≠ 0 → s.1.coefs (leadingColumn first) ≠ 0 := by
        intro pre s post eq zeros nz_s
        obtain ⟨before, rest, rfl, rfl, cut⟩ := List.map_eq_append_iff.mp eq
        obtain ⟨row, after, rfl, rfl, -⟩ := List.map_eq_cons_iff.mp cut
        have mem_row : row ∈ before ++ row :: after := by simp
        have row_nz : hasNonzero row = true := by
          rw [← Bool.not_eq_false, ← (is row mem_row).coefs_eq_zero_iff]
          exact nz_s
        have zero_before : before.find? hasNonzero = none := by
          refine List.find?_eq_none.mpr fun r mem => ?_
          rw [Bool.not_eq_true, ← (is r (List.mem_append_left _ mem)).coefs_eq_zero_iff]
          exact zeros _ (List.mem_map_of_mem mem)
        rw [List.find?_append, zero_before, Option.none_or, List.find?_cons_of_pos row_nz] at found
        rw [(is row mem_row).entries, Option.some.inj found]
        exact (getD_leadingColumn nz).2
      obtain ⟨set, os, run, -⟩ := exists_run_of_leftmost small
        (show leadingColumn first < symbolIdNone by omega) (rows.map symbol) ids vanishes starts
      exact ⟨set, os, run⟩

/-- The listed rows span the rows of the set. -/
theorem rowSpace_pivotRows (inv : set.Invariant) :
    rowSpace n ((set.pivotRows n).map Prod.snd) = set.rowSpan.map (columns n) := by
  have listed : ∀ {id row}, set.rowAt id = some row →
      rowVector n (toIntList n row.getCoefs) = columns n row.coefs := fun at_id =>
    funext fun j => getD_toIntList (inv.wellFormed at_id) (inv.nonzero at_id) j.1
  refine le_antisymm (rowSpace_le.mpr ?_) ?_
  · intro r mem
    obtain ⟨p, mem_p, rfl⟩ := List.mem_map.mp mem
    obtain ⟨row, at_p, eq⟩ := (mem_pivotRows inv.toTableOk).mp mem_p
    rw [← eq, listed at_p]
    exact Submodule.mem_map_of_mem (coefs_mem_rowSpan at_p)
  · refine Submodule.map_le_iff_le_comap.mpr (Rows.span_le.mpr fun id v at_id => ?_)
    obtain ⟨row, at_row, rfl⟩ := Option.map_eq_some_iff.mp at_id
    rw [Submodule.mem_comap, ← listed at_row]
    exact mem_rowSpace (List.mem_map.mpr
      ⟨(id, _), (mem_pivotRows inv.toTableOk).mpr ⟨row, at_row, rfl⟩, rfl⟩)

/-- A set lists no rows when it has none. -/
theorem pivotRows_eq_nil_iff (inv : set.Invariant) : set.pivotRows n = [] ↔ set.rowSpan = ⊥ := by
  rw [List.eq_nil_iff_forall_not_mem]
  constructor
  · intro none
    refine le_bot_iff.mp (Rows.span_le.mpr fun id v at_id => ?_)
    obtain ⟨row, at_row, rfl⟩ := Option.map_eq_some_iff.mp at_id
    exact absurd ((mem_pivotRows inv.toTableOk).mpr ⟨row, at_row, rfl⟩) (none (id, _))
  · intro bot p mem
    obtain ⟨row, at_p, -⟩ := (mem_pivotRows inv.toTableOk).mp mem
    have zero := coefs_mem_rowSpan at_p
    rw [bot, Submodule.mem_bot] at zero
    have lead := inv.lead at_p
    rw [zero] at lead
    exact zero_ne_one lead

/-- A submission leaves a set with rows with rows, and fills an empty one unless it is zero. -/
theorem submit_rowSpan_eq_bot_iff {set' : FullSymbolSet} {s : Submission} (inv : set.Invariant)
    (wrap : set.NoWrap) (ok : submit set s = .ok (set', os)) :
    set'.rowSpan = ⊥ ↔ set.rowSpan = ⊥ ∧ s.1.coefs = 0 := by
  rcases submit_cases inv wrap ok with ⟨rfl, -, mem⟩ | ⟨n, el⟩
  · refine ⟨fun bot => ⟨bot, ?_⟩, And.left⟩
    rwa [bot, Submodule.mem_bot] at mem
  · constructor
    · intro bot
      have mem := coefs_mem_rowSpan el.stored
      rw [bot, Submodule.mem_bot, ← el.pivotal.wellFormed.isZero_iff, el.pivotal.nonzero] at mem
      cases mem
    · rintro ⟨-, zero⟩
      have nz := el.nonzero
      rw [s.2.isZero_iff.mpr zero] at nz
      cases nz

/-- After a run a set is empty when every submission was zero. -/
theorem rowSpan_eq_bot_iff_of_run {meets : FullSymbolSet → Submission → Prop}
    (run : SetRun meets cs set os) : set.rowSpan = ⊥ ↔ ∀ s ∈ cs, s.1.coefs = 0 := by
  induction run with
  | nil => exact iff_of_true fullSymbolSetAlloc_rowSpan nofun
  | @snoc set set' cs s os os' before ok cond ih =>
      obtain ⟨inv, wrap⟩ := invariant_of_run before
      rw [submit_rowSpan_eq_bot_iff inv wrap ok, ih]
      constructor
      · rintro ⟨zeros, zero⟩ t mem
        rcases List.mem_append.mp mem with old | new
        · exact zeros t old
        · rw [List.mem_singleton.mp new, zero]
      · exact fun zeros => ⟨fun t mem => zeros t (List.mem_append_left _ mem),
          zeros s (List.mem_append_right _ List.mem_cons_self)⟩

end Runs

/-! ### What `compute_rref` returns -/

section Compute

variable {symbol : List Gf256 → Submission} {e : Fault}

/-- Feeding rows into a set fails only by overrunning the pivot table. -/
theorem foldlM_addRow_fault (small : n ≤ 2147483639)
    (symbols : ∀ row, row.length = n → IsRowSymbol row (symbol row))
    (width : ∀ row ∈ rows, row.length = n)
    (fault : rows.foldlM addRow fullSymbolSetAlloc = .error e) : e = .outOfBounds .pivotTab := by
  induction rows using List.reverseRecOn with
  | nil => cases fault
  | append_singleton rows row ih =>
      have before : ∀ r ∈ rows, r.length = n := fun r mem => width r (List.mem_append_left _ mem)
      rw [List.foldlM_append] at fault
      cases fold_eq : rows.foldlM addRow fullSymbolSetAlloc with
      | error e' =>
          rw [fold_eq] at fault
          cases fault
          exact ih before fold_eq
      | ok set =>
          obtain ⟨os, steps⟩ := (foldlM_addRow_iff symbols before).mp fold_eq
          obtain ⟨run, -, -⟩ := setRun_of_ids small steps (idsBelow_of_mem symbols before)
          obtain ⟨inv, wrap⟩ := invariant_of_run run
          have is := symbols row (width row (List.mem_append_right _ List.mem_cons_self))
          rw [fold_eq, ok_bind, List.foldlM_cons, is.addRow_eq] at fault
          cases submit_eq : submit set (symbol row) with
          | error e' =>
              rw [submit_eq] at fault
              cases fault
              exact (submit_fault inv wrap submit_eq).1
          | ok result =>
              rw [submit_eq] at fault
              cases fault

/-- A set that was filled in any run combines what was submitted. -/
theorem rowSpan_le_submittedSpan {meets : FullSymbolSet → Submission → Prop}
    {cs : List Submission} {set : FullSymbolSet} {os : List Notification}
    (run : SetRun meets cs set os) : set.rowSpan ≤ submittedSpan cs := by
  induction run with
  | nil =>
      rw [fullSymbolSetAlloc_rowSpan]
      exact bot_le
  | @snoc set set' cs s os os' before ok cond ih =>
      obtain ⟨inv, wrap⟩ := invariant_of_run before
      rw [submittedSpan_snoc]
      rcases submit_cases inv wrap ok with ⟨rfl, -, -⟩ | ⟨n, el⟩
      · exact ih.trans le_sup_left
      · exact el.rowSpan_le.trans (sup_le_sup_right ih _)

/-- The matrix has only zeros. -/
def AllZero (rows : List (List Gf256)) : Prop := ∀ row ∈ rows, ∀ a ∈ row, a = 0

theorem allZero_iff :
    AllZero rows ↔ ∀ row ∈ rows, hasNonzero row = false := by
  simp [AllZero, hasNonzero, List.any_eq_false]

/-- `compute_rref` is a loop that fills a set, and the matrix of that set. -/
theorem computeRref_eq (ne : rows ≠ []) (width : ∀ row ∈ rows, row.length = n) :
    computeRref rows = (callCodec (rows.foldlM addRow fullSymbolSetAlloc)).bind fun set =>
      set.getMatrix (some n) := by
  cases rows with
  | nil => exact absurd rfl ne
  | cons row rest =>
      rw [← width row List.mem_cons_self]
      rfl

/-- A run over the rows of a matrix ends in the set whose rows `compute_rref` returns. -/
theorem computeRref_of_steps (small : n ≤ 2147483639) (ne : rows ≠ [])
    (symbols : ∀ row, row.length = n → IsRowSymbol row (symbol row))
    (width : ∀ row ∈ rows, row.length = n)
    {set : FullSymbolSet} {os : List Notification}
    (steps : Steps submit (fun _ _ _ => True) fullSymbolSetAlloc (rows.map symbol) set os) :
    SetRun (fun _ _ => True) (rows.map symbol) set os ∧ set.rowSpan ≤ idsBelow n ∧
      computeRref rows =
        if set.pivotRows n = [] then .error .typeError
        else .ok ((set.pivotRows n).map Prod.snd) := by
  obtain ⟨run, -, ids⟩ := setRun_of_ids small steps (idsBelow_of_mem symbols width)
  refine ⟨run, ids, ?_⟩
  rw [computeRref_eq ne width, (foldlM_addRow_iff symbols width).mpr ⟨os, steps⟩,
    ← (invariant_of_run run).1.getMatrix_eq ids]
  rfl

/-- What `compute_rref` does with a matrix of `n` columns. -/
theorem computeRref_cases (pos : 0 < n) (small : n ≤ 2147483639) (ne : rows ≠ [])
    (width : ∀ row ∈ rows, row.length = n) :
    (computeRref rows = .error .typeError ∧ AllZero rows) ∨
    (∃ reduced, computeRref rows = .ok reduced ∧ ¬ AllZero rows ∧ IsRref n reduced ∧
      rowSpace n reduced ≤ rowSpace n rows ∧
      (RowsFit n rows → rowSpace n reduced = rowSpace n rows)) ∨
    (computeRref rows = .error (.codec (.outOfBounds .pivotTab)) ∧ ¬ RowsFit n rows) := by
  have none_eq : symbolIdNone = 4294967295 := rfl
  obtain ⟨symbol, symbols⟩ := exists_rowSymbol pos (show n ≤ symbolIdNone by omega)
  have spans : (submittedSpan (rows.map symbol)).map (columns n) = rowSpace n rows :=
    map_submittedSpan symbols width
  cases fold_eq : rows.foldlM addRow fullSymbolSetAlloc with
  | error e =>
      refine .inr (.inr ⟨?_, fun fit => ?_⟩)
      · rw [computeRref_eq ne width, fold_eq, foldlM_addRow_fault small symbols width fold_eq]
        rfl
      · obtain ⟨set, os, run⟩ := exists_run_of_rows small symbols width fit
        have returns := (foldlM_addRow_iff symbols width).mpr
          ⟨os, run.mono fun _ => trivial⟩
        rw [fold_eq] at returns
        cases returns
  | ok set =>
      obtain ⟨os, steps⟩ := (foldlM_addRow_iff symbols width).mp fold_eq
      obtain ⟨run, ids, returned⟩ := computeRref_of_steps small ne symbols width steps
      obtain ⟨inv, wrap⟩ := invariant_of_run run
      have zero_iff : set.pivotRows n = [] ↔ AllZero rows := by
        rw [pivotRows_eq_nil_iff inv, rowSpan_eq_bot_iff_of_run run, allZero_iff,
          List.forall_mem_map]
        exact forall₂_congr fun row mem => (symbols row (width row mem)).coefs_eq_zero_iff
      by_cases none : set.pivotRows n = []
      · exact .inl ⟨by rw [returned, if_pos none], zero_iff.mp none⟩
      · refine .inr (.inl ⟨_, by rw [returned, if_neg none], fun zero => none (zero_iff.mpr zero),
          (inv.pivotList ids).isRref, ?_, fun fit => ?_⟩)
        · rw [rowSpace_pivotRows inv, ← spans]
          exact Submodule.map_mono (rowSpan_le_submittedSpan run)
        · -- The run that keeps every row submits the same symbols, so it ends in this set.
          obtain ⟨set', os', run'⟩ := exists_run_of_rows small symbols width fit
          obtain ⟨rfl, -⟩ := run.deterministic run'
          rw [rowSpace_pivotRows inv, ← spans,
            rowSpan_eq_submittedSpan run' fun room => room.2]

/-- Whatever matrix `compute_rref` returns is in reduced row echelon form, and combines rows
of its input. -/
theorem computeRref_isRref (pos : 0 < n) (small : n ≤ 2147483639)
    (width : ∀ row ∈ rows, row.length = n) (ok : computeRref rows = .ok reduced) :
    IsRref n reduced ∧ rowSpace n reduced ≤ rowSpace n rows ∧
      reduced.length ≤ (rowsMatrix n rows).rank := by
  have result : IsRref n reduced ∧ rowSpace n reduced ≤ rowSpace n rows := by
    by_cases ne : rows = []
    · subst ne
      cases ok
      exact ⟨(show PivotList n [] from ⟨nofun, nofun, .nil, nofun, nofun, nofun⟩).isRref, le_rfl⟩
    · rcases computeRref_cases pos small ne width with
        ⟨eq, -⟩ | ⟨reduced', eq, -, rref, le, -⟩ | ⟨eq, -⟩
      · rw [eq] at ok
        cases ok
      · rw [eq] at ok
        cases ok
        exact ⟨rref, le⟩
      · rw [eq] at ok
        cases ok
  obtain ⟨rref, le⟩ := result
  refine ⟨rref, le, ?_⟩
  rw [← rref.finrank_rowSpace, Matrix.rank_eq_finrank_span_row]
  refine Submodule.finrank_mono (le.trans (le_of_eq ?_))
  exact rowSpace_eq_range n rows

/-- With 17 columns the third row pushes the second one out of the pivot table. -/
theorem computeRref_isRref_lost_row :
    ∃ rows, computeRref rows =
        .ok [bytes (1 :: List.replicate 16 0), bytes (0 :: 1 :: List.replicate 15 0)] ∧
      rows.length = 3 ∧
      IsRref 17 [bytes (1 :: List.replicate 16 0), bytes (0 :: 1 :: List.replicate 15 0)] := by
  have ok : computeRref [bytes (0 :: 1 :: List.replicate 15 0),
      bytes (List.replicate 16 0 ++ [1]), bytes (1 :: List.replicate 16 0)] =
        .ok [bytes (1 :: List.replicate 16 0), bytes (0 :: 1 :: List.replicate 15 0)] := by
    decide +kernel
  exact ⟨_, ok, rfl, (computeRref_isRref (show 0 < 17 by decide) (show 17 ≤ 2147483639 by decide)
    (by decide) ok).1⟩

/-- When the rows of a matrix that is not zero fit, `compute_rref` returns its reduced row
echelon form: the one matrix in that form with the same row space, with as many rows as the
rank. -/
theorem computeRref_spec (pos : 0 < n) (small : n ≤ 2147483639)
    (width : ∀ row ∈ rows, row.length = n) (fit : RowsFit n rows) (nonzero : ¬ AllZero rows) :
    ∃ reduced, computeRref rows = .ok reduced ∧ IsRref n reduced ∧
      rowSpace n reduced = rowSpace n rows ∧ reduced.length = (rowsMatrix n rows).rank ∧
      ∀ other, IsRref n other → rowSpace n other = rowSpace n rows → other = reduced := by
  have ne : rows ≠ [] := by
    rintro rfl
    exact nonzero nofun
  rcases computeRref_cases pos small ne width with
    ⟨-, zero⟩ | ⟨reduced, eq, -, rref, -, same⟩ | ⟨-, unfit⟩
  · exact absurd zero nonzero
  · refine ⟨reduced, eq, rref, same fit, ?_, fun other rref' same' => ?_⟩
    · rw [← rref.finrank_rowSpace, same fit, Matrix.rank_eq_finrank_span_row,
        rowSpace_eq_range]
      rfl
    · exact rref'.eq_of_rowSpace_eq rref (same'.trans (same fit).symm)
  · exact absurd fit unfit

theorem computeRref_spec_two_rows :
    ∃ reduced, computeRref [bytes [2, 4], bytes [3, 6]] = .ok reduced ∧
      rowSpace 2 reduced = rowSpace 2 [bytes [2, 4], bytes [3, 6]] := by
  obtain ⟨reduced, ok, -, same, -⟩ := computeRref_spec (show 0 < 2 by decide)
    (show 2 ≤ 2147483639 by decide)
    (show ∀ row ∈ [bytes [2, 4], bytes [3, 6]], row.length = 2 by decide)
    (.inl (show 2 ≤ 16 by decide))
    (fun zero => absurd (zero (bytes [2, 4]) List.mem_cons_self _ List.mem_cons_self) (by decide))
  exact ⟨reduced, ok, same⟩

/-- `compute_rref` raises an exception exactly for a matrix of zeros, and fails otherwise only
by overrunning the pivot table with rows that do not fit. -/
theorem computeRref_error (pos : 0 < n) (small : n ≤ 2147483639)
    (width : ∀ row ∈ rows, row.length = n) :
    (computeRref rows = .error .typeError ↔ rows ≠ [] ∧ AllZero rows) ∧
    ∀ fault, computeRref rows = .error fault → fault ≠ .typeError →
      fault = .codec (.outOfBounds .pivotTab) ∧ ¬ RowsFit n rows := by
  by_cases ne : rows = []
  · subst ne
    exact ⟨⟨nofun, fun both => absurd rfl both.1⟩, nofun⟩
  rcases computeRref_cases pos small ne width with
    ⟨eq, zero⟩ | ⟨reduced, eq, nonzero, -⟩ | ⟨eq, unfit⟩
  · refine ⟨iff_of_true eq ⟨ne, zero⟩, fun fault failed other => ?_⟩
    rw [eq] at failed
    cases failed
    exact absurd rfl other
  · rw [eq]
    exact ⟨⟨nofun, fun both => absurd both.2 nonzero⟩, nofun⟩
  · have nonzero : ¬ AllZero rows := by
      -- Rows of zeros fit: no row leads.
      intro zero
      refine unfit (.inr fun first found => ?_)
      have nz := (List.find?_some found :)
      rw [allZero_iff.mp zero first (List.mem_of_find?_eq_some found)] at nz
      cases nz
    rw [eq]
    refine ⟨⟨nofun, fun both => absurd both.2 nonzero⟩, fun fault failed _ => ?_⟩
    cases failed
    exact ⟨rfl, unfit⟩

theorem computeRref_error_overrun :
    ¬ RowsFit 18 [bytes (List.replicate 17 0 ++ [1]), bytes (1 :: List.replicate 17 0)] := by
  have failed : computeRref [bytes (List.replicate 17 0 ++ [1]),
      bytes (1 :: List.replicate 17 0)] = .error (.codec (.outOfBounds .pivotTab)) := by
    decide +kernel
  exact ((computeRref_error (show 0 < 18 by decide) (show 18 ≤ 2147483639 by decide)
    (by decide)).2 _ failed nofun).2

/-- The pivot of a row is the column where it leads. -/
theorem leadingColumn_of_pivot {ps : List (ℕ × List Gf256)} (list : PivotList n ps)
    {p : ℕ × List Gf256} (mem : p ∈ ps) : hasNonzero p.2 = true ∧ leadingColumn p.2 = p.1 := by
  have lt : p.1 < p.2.length := (list.pivot_lt p mem).trans_eq (list.width p mem).symm
  have lead := list.lead p mem
  rw [List.getD_eq_getElem?_getD, List.getElem?_eq_getElem lt, Option.getD_some] at lead
  have ne : p.2[p.1] ≠ 0 := by
    rw [lead]
    exact one_ne_zero
  have nz : hasNonzero p.2 = true :=
    List.any_eq_true.mpr ⟨_, List.getElem_mem lt, decide_eq_true ne⟩
  refine ⟨nz, le_antisymm ?_ ?_⟩
  · by_contra gt
    have zero : p.2.getD p.1 0 = 0 := getD_before_leadingColumn (by omega)
    rw [list.lead p mem] at zero
    exact one_ne_zero zero
  · by_contra gt
    exact (getD_leadingColumn nz).2 (list.before p mem _ (by omega))

/-- In a matrix in reduced row echelon form the first row leads leftmost. -/
theorem startsLeftmost_of_isRref (rref : IsRref n reduced) : StartsLeftmost reduced := by
  obtain ⟨ps, rfl, list⟩ := rref.exists_pivotList
  intro first found row mem
  cases ps with
  | nil => cases found
  | cons p ps =>
      rw [List.map_cons, List.find?_cons_of_pos (leadingColumn_of_pivot list List.mem_cons_self).1]
        at found
      cases found
      obtain ⟨q, mem_q, rfl⟩ := List.mem_map.mp mem
      rw [(leadingColumn_of_pivot list List.mem_cons_self).2, (leadingColumn_of_pivot list mem_q).2]
      rcases List.mem_cons.mp mem_q with rfl | later
      · exact le_rfl
      · exact (List.rel_of_pairwise_cons list.increasing later).le

/-- Every matrix in reduced row echelon form is its own. -/
theorem computeRref_of_isRref (pos : 0 < n) (small : n ≤ 2147483639) (rref : IsRref n reduced) :
    computeRref reduced = .ok reduced := by
  by_cases ne : reduced = []
  · subst ne
    rfl
  have nonzero : ¬ AllZero reduced := by
    intro zero
    obtain ⟨row, mem⟩ := List.exists_mem_of_ne_nil _ ne
    exact rref.nonzero row mem
      ((rowVector_eq_zero_iff (rref.width row mem)).mpr (allZero_iff.mp zero row mem))
  have fit : RowsFit n reduced := .inr (startsLeftmost_of_isRref rref)
  rcases computeRref_cases pos small ne rref.width with
    ⟨-, zero⟩ | ⟨other, eq, -, rref', -, same⟩ | ⟨-, unfit⟩
  · exact absurd zero nonzero
  · rw [eq, rref'.eq_of_rowSpace_eq rref (same fit)]
  · exact absurd fit unfit

/-- Reducing twice is reducing once, also where rows of the matrix are lost. -/
theorem computeRref_computeRref (pos : 0 < n) (small : n ≤ 2147483639)
    (width : ∀ row ∈ rows, row.length = n) (ok : computeRref rows = .ok reduced) :
    computeRref reduced = .ok reduced := by
  by_cases ne : rows = []
  · subst ne
    cases ok
    rfl
  rcases computeRref_cases pos small ne width with
    ⟨eq, -⟩ | ⟨reduced', eq, -, rref, -⟩ | ⟨eq, -⟩
  · rw [eq] at ok
    cases ok
  · rw [eq] at ok
    cases ok
    exact computeRref_of_isRref pos small rref
  · rw [eq] at ok
    cases ok

theorem computeRref_computeRref_lost_row :
    computeRref [bytes (1 :: List.replicate 16 0), bytes (0 :: 1 :: List.replicate 15 0)] =
      .ok [bytes (1 :: List.replicate 16 0), bytes (0 :: 1 :: List.replicate 15 0)] := by
  have ok : computeRref [bytes (0 :: 1 :: List.replicate 15 0),
      bytes (List.replicate 16 0 ++ [1]), bytes (1 :: List.replicate 16 0)] =
        .ok [bytes (1 :: List.replicate 16 0), bytes (0 :: 1 :: List.replicate 15 0)] := by
    decide +kernel
  exact computeRref_computeRref (show 0 < 17 by decide) (show 17 ≤ 2147483639 by decide)
    (by decide) ok

/-- The coefficients of a row symbol are entries of the row, or zero. -/
theorem IsRowSymbol.coefsIn {F : Set Gf256} (closed : ClosedCoefs F) {row : List Gf256}
    {s : Submission} (is : IsRowSymbol row s) (entries : ∀ a ∈ row, a ∈ F) : CoefsIn F s.1 := by
  refine s.2.coefsIn fun i => ?_
  rw [← is.ranged.coefs_apply, is.entries]
  exact closed.getD_mem entries i

/-- Elimination does not leave a set of coefficients that is closed under the operations of
the field: a matrix over it has its reduced row echelon form over it. -/
theorem computeRref_closed {F : Set Gf256} (closed : ClosedCoefs F) (pos : 0 < n)
    (small : n ≤ 2147483639) (width : ∀ row ∈ rows, row.length = n)
    (entries : ∀ row ∈ rows, ∀ a ∈ row, a ∈ F) (ok : computeRref rows = .ok reduced) :
    ∀ row ∈ reduced, ∀ a ∈ row, a ∈ F := by
  by_cases ne : rows = []
  · subst ne
    cases ok
    exact nofun
  have none_eq : symbolIdNone = 4294967295 := rfl
  obtain ⟨symbol, symbols⟩ := exists_rowSymbol pos (show n ≤ symbolIdNone by omega)
  cases fold_eq : rows.foldlM addRow fullSymbolSetAlloc with
  | error e =>
      rw [computeRref_eq ne width, fold_eq] at ok
      cases ok
  | ok set =>
      obtain ⟨os, steps⟩ := (foldlM_addRow_iff symbols width).mp fold_eq
      obtain ⟨run, ids, returned⟩ := computeRref_of_steps small ne symbols width steps
      obtain ⟨inv, -⟩ := invariant_of_run run
      have stored : set.All (CoefsIn F) := closed.rowClosed.of_run steps fun s mem => by
        obtain ⟨row, mem_row, rfl⟩ := List.mem_map.mp mem
        exact (symbols row (width row mem_row)).coefsIn closed (entries row mem_row)
      rw [returned] at ok
      split at ok
      · cases ok
      cases ok
      intro row mem a mem_a
      obtain ⟨p, mem_p, rfl⟩ := List.mem_map.mp mem
      obtain ⟨stored_row, at_p, eq⟩ := (mem_pivotRows inv.toTableOk).mp mem_p
      have bounds := bounds_of_rowAt inv.toTableOk at_p
      have slot := getElem?_slot inv.toTableOk (show p.1 - set.firstSymbolId < set.size by omega)
      rw [Nat.add_sub_cancel' bounds.1, at_p] at slot
      have cells : CoefsIn F stored_row := stored _ (List.mem_of_getElem? slot)
      obtain ⟨j, lt, rfl⟩ := List.mem_iff_getElem.mp mem_a
      have entry := getD_toIntList (inv.wellFormed at_p) (inv.nonzero at_p) (n := n) j
      rw [eq, List.getD_eq_getElem?_getD, List.getElem?_eq_getElem lt, Option.getD_some] at entry
      rw [entry, FullSymbol.coefs_apply, coefAt]
      split
      · exact closed.zero_mem
      · exact closed.getCoef_mem cells j

end Compute

end Rref

end SwifCodec
