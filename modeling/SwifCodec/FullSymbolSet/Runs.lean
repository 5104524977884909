import SwifCodec.FullSymbolSet.Elimination
import SwifCodec.Library.Run

/-!
Runs of submissions to a fresh set.

A run is a sequence of successful calls of `full_symbol_add_with_elimination`,
with `first_symbol_id + size` below 2^32 after each of them. Its submissions are
well-formed symbols, which is what the creation functions return.

* `rowEchelon_of_run`: the table is in reduced row echelon form.
* `single_iff_of_run`: what can be recovered has been recovered.
* `rows_independent_of_order`: the rows do not depend on the order.
* `rowSpan_iff_of_run`: nothing is lost, exactly as long as no symbol below the
  set pushes rows out of the table.
-/

namespace SwifCodec

open Library FullSymbol FullSymbolSet Gf256

/-- A symbol a caller can submit. -/
abbrev Submission := {s : FullSymbol // s.WellFormed}

/-- One call of `full_symbol_add_with_elimination`. -/
def submit (set : FullSymbolSet) (s : Submission) : Exec (FullSymbolSet × List Notification) :=
  fullSymbolAddWithElimination set s

/-- The runs from a fresh set whose identifiers do not wrap. -/
abbrev SetRun (meets : FullSymbolSet → Submission → Prop) :
    List Submission → FullSymbolSet → List Notification → Prop :=
  Steps submit (fun set s set' => set'.NoWrap ∧ meets set s) fullSymbolSetAlloc

/-- The submission of a source symbol. -/
def sourceSubmission (id : ℕ) (data : List Gf256) (valid : id < symbolIdNone := by decide) :
    Submission :=
  ⟨sourceSymbol id data, sourceSymbol_wellFormed valid data⟩

/-- The sum of source symbol `id` and a multiple of the next one. -/
def pairSymbol (id : ℕ) (c : Gf256) (data : List Gf256) : FullSymbol where
  coef := [1, c]
  firstId := id
  lastId := id + 1
  firstNonzeroId := id
  lastNonzeroId := id + 1
  data := data

theorem pairSymbol_wellFormed {id : ℕ} {c : Gf256} (valid : id + 1 < symbolIdNone) (c_ne : c ≠ 0)
    (data : List Gf256) : (pairSymbol id c data).WellFormed := by
  have first : fullSymbolGetCoef (pairSymbol id c data) id = 1 := by
    simp [fullSymbolGetCoef, fullSymbolIncludesId, pairSymbol]
  have last : fullSymbolGetCoef (pairSymbol id c data) (id + 1) = c := by
    simp [fullSymbolGetCoef, fullSymbolIncludesId, pairSymbol]
  refine .inr ⟨⟨Nat.le_succ id, valid, ?_⟩, .inr ⟨le_rfl, Nat.le_succ id, le_rfl, ?_, ?_, ?_⟩⟩
  · simp [pairSymbol]
  · exact first.trans_ne one_ne_zero
  · exact last.trans_ne c_ne
  · intro i out
    exact fullSymbolGetCoef_of_not_mem out

/-- The submission of a sum of two source symbols. -/
def pairSubmission (id : ℕ) (c : Gf256) (data : List Gf256)
    (valid : id + 1 < symbolIdNone := by decide) (c_ne : c ≠ 0 := by decide) : Submission :=
  ⟨pairSymbol id c data, pairSymbol_wellFormed valid c_ne data⟩

/-- The span of the coefficient functions of the submitted symbols. -/
noncomputable def submittedSpan (cs : List Submission) : Submodule Gf256 (ℕ →₀ Gf256) :=
  Submodule.span Gf256 {f | ∃ s ∈ cs, s.1.coefs = f}

section Step

variable {set set' : FullSymbolSet} {s : Submission} {os : List Notification}

/-- A successful submission is redundant or stores a new pivot. -/
theorem submit_cases (inv : set.Invariant) (wrap : set.NoWrap)
    (ok : submit set s = .ok (set', os)) :
    (set' = set ∧ os = [] ∧ s.1.coefs ∈ set.rowSpan) ∨ ∃ n, Eliminated set s n set' os := by
  unfold submit at ok
  rcases fullSymbolAddWithElimination_spec inv wrap s.2 with
    ⟨eq, mem⟩ | ⟨-, eq⟩ | ⟨n, set'', notified, eq, el⟩
  · rw [eq] at ok
    cases ok
    exact .inl ⟨rfl, rfl, mem⟩
  · rw [eq] at ok
    cases ok
  · rw [eq] at ok
    cases ok
    exact .inr ⟨n, el⟩

/-- The only fault of a submission is the one of rows that do not fit. -/
theorem submit_fault (inv : set.Invariant) (wrap : set.NoWrap) {e : Fault}
    (fault : submit set s = .error e) :
    e = .outOfBounds .pivotTab ∧ ¬ set.Fits s.1.firstNonzeroId := by
  unfold submit at fault
  rcases fullSymbolAddWithElimination_spec inv wrap s.2 with
    ⟨eq, -⟩ | ⟨exceeds, eq⟩ | ⟨n, set'', notified, eq, -⟩
  · rw [eq] at fault
    cases fault
  · rw [eq] at fault
    cases fault
    exact ⟨rfl, exceeds⟩
  · rw [eq] at fault
    cases fault

/-- A symbol that leads below the set is not redundant. -/
theorem above_of_mem_rowSpan (inv : set.Invariant) (mem : s.1.coefs ∈ set.rowSpan) :
    ¬ set.InsertsBelow s.1.firstNonzeroId := by
  intro below
  have first_le := inv.first_le
  have lt := below.2
  have nz : fullSymbolIsZero s.1 = false := by
    simp only [fullSymbolIsZero, fullSymbolGetMinSymbolId, beq_eq_false_iff_ne]
    omega
  exact s.2.coefs_first_ne nz (inv.rowSpan_below mem lt)

/-- A submission returns exactly when the rows it moves fit in the table. -/
theorem submit_ok_iff (inv : set.Invariant) (wrap : set.NoWrap) :
    (∃ result, submit set s = .ok result) ↔ set.Fits s.1.firstNonzeroId := by
  constructor
  · rintro ⟨⟨set', os⟩, ok⟩
    intro below
    unfold submit at ok
    rcases fullSymbolAddWithElimination_spec inv wrap s.2 with
      ⟨-, mem⟩ | ⟨-, eq⟩ | ⟨n, set'', notified, -, el⟩
    · exact absurd below (above_of_mem_rowSpan inv mem)
    · rw [eq] at ok
      cases ok
    · exact el.fits below
  · intro fits
    cases result : submit set s with
    | ok r => exact ⟨r, rfl⟩
    | error e => exact absurd fits (submit_fault inv wrap result).2

theorem submit_invariant (inv : set.Invariant) (wrap : set.NoWrap)
    (ok : submit set s = .ok (set', os)) : set'.Invariant := by
  rcases submit_cases inv wrap ok with ⟨rfl, -, -⟩ | ⟨n, el⟩
  · exact inv
  · exact el.invariant inv

/-- A submission adds its line to the span exactly when it loses no row. -/
theorem submit_rowSpan_iff (inv : set.Invariant) (wrap : set.NoWrap)
    (ok : submit set s = .ok (set', os)) :
    set'.rowSpan = set.rowSpan ⊔ Submodule.span Gf256 {s.1.coefs} ↔
      set.TopFree s.1.firstNonzeroId := by
  rcases submit_cases inv wrap ok with ⟨rfl, -, mem⟩ | ⟨n, el⟩
  · refine iff_of_true (sup_eq_left.mpr ((Submodule.span_singleton_le_iff_mem _ _).mpr mem)).symm ?_
    exact fun below => absurd below (above_of_mem_rowSpan inv mem)
  · rw [← el.topFree_iff]
    exact ⟨fun same => by_contra fun taken => el.rowSpan_ne inv taken same, el.rowSpan_eq⟩

end Step

section Run

variable {meets : FullSymbolSet → Submission → Prop} {cs : List Submission} {set : FullSymbolSet}
  {os : List Notification}

/-- The invariant holds after every run. -/
theorem invariant_of_run (run : SetRun meets cs set os) : set.Invariant ∧ set.NoWrap := by
  refine Steps.invariant (I := fun set => set.Invariant ∧ set.NoWrap) ?_ run
    ⟨fullSymbolSetAlloc_invariant, fullSymbolSetAlloc_noWrap⟩
  intro set s set' os h ok cond
  exact ⟨submit_invariant h.1 h.2 ok, cond.1⟩

theorem submittedSpan_snoc (cs : List Submission) (s : Submission) :
    submittedSpan (cs ++ [s]) = submittedSpan cs ⊔ Submodule.span Gf256 {s.1.coefs} := by
  have union : {f | ∃ t ∈ cs ++ [s], t.1.coefs = f} =
      {f | ∃ t ∈ cs, t.1.coefs = f} ∪ {s.1.coefs} := by
    ext f
    simp only [List.mem_append, List.mem_singleton, Set.mem_ofPred_eq, Set.union_singleton,
      Set.mem_insert_iff]
    constructor
    · rintro ⟨t, old | rfl, rfl⟩
      · exact .inr ⟨t, old, rfl⟩
      · exact .inl rfl
    · rintro (rfl | ⟨t, old, rfl⟩)
      · exact ⟨s, .inr rfl, rfl⟩
      · exact ⟨t, .inl old, rfl⟩
  rw [submittedSpan, submittedSpan, union, Submodule.span_union]

theorem submittedSpan_perm {cs cs' : List Submission} (perm : cs.Perm cs') :
    submittedSpan cs = submittedSpan cs' := by
  unfold submittedSpan
  congr 2
  funext f
  exact propext ⟨fun ⟨s, mem, eq⟩ => ⟨s, perm.mem_iff.mp mem, eq⟩,
    fun ⟨s, mem, eq⟩ => ⟨s, perm.mem_iff.mpr mem, eq⟩⟩

/-- The span after a run in which no step loses a row. -/
theorem rowSpan_eq_submittedSpan (run : SetRun meets cs set os)
    (free : ∀ {set s}, meets set s → set.TopFree s.1.firstNonzeroId) :
    set.rowSpan = submittedSpan cs := by
  induction run with
  | nil =>
      rw [fullSymbolSetAlloc_rowSpan, submittedSpan]
      simp
  | @snoc set set' cs s os os' before ok cond ih =>
      obtain ⟨inv, wrap⟩ := invariant_of_run before
      rw [(submit_rowSpan_iff inv wrap ok).mpr (free cond.2), ih, submittedSpan_snoc]

/-- The rows after a run of sound submissions are sound. -/
theorem allSound_of_run {m : ℕ} {src : ℕ → Vector Gf256 m} (run : SetRun meets cs set os)
    (sound : ∀ s ∈ cs, Sound src s.1) : set.AllSound src := by
  induction run with
  | nil =>
      intro id row h
      rw [fullSymbolSetAlloc_rowAt] at h
      cases h
  | @snoc set set' cs s os os' before ok cond ih =>
      obtain ⟨inv, wrap⟩ := invariant_of_run before
      have rows := ih fun t mem => sound t (List.mem_append_left _ mem)
      rcases submit_cases inv wrap ok with ⟨rfl, -, -⟩ | ⟨n, el⟩
      · exact rows
      · exact el.allSound rows (sound s (List.mem_append_right _ (List.mem_singleton_self s)))

end Run

/-! ### Reduced row echelon form -/

/-- After every run each stored symbol is non-zero, leads at the identifier of its
slot with coefficient 1, and has coefficient 0 at the pivots of the other slots;
and no further submission fails an assertion. -/
theorem rowEchelon_of_run {cs : List Submission} {set : FullSymbolSet} {os : List Notification}
    (run : SetRun (fun _ _ => True) cs set os) :
    (∀ k row, set.fullSymbolTab[k]? = some (some row) →
      fullSymbolIsZero row = false ∧ row.firstNonzeroId = set.firstSymbolId + k ∧
      fullSymbolGetCoef row (set.firstSymbolId + k) = 1 ∧
      ∀ j row', j ≠ k → set.fullSymbolTab[j]? = some (some row') →
        fullSymbolGetCoef row (set.firstSymbolId + j) = 0) ∧
    ∀ s, submit set s ≠ .error .assertion := by
  obtain ⟨inv, wrap⟩ := invariant_of_run run
  have rowAt_of_slot : ∀ {k row}, set.fullSymbolTab[k]? = some (some row) →
      set.rowAt (set.firstSymbolId + k) = some row := by
    intro k row h
    rw [rowAt_slot, List.getD_eq_getElem?_getD, h, Option.getD_some]
  constructor
  · intro k row h
    have at_k := rowAt_of_slot h
    have wf := inv.wellFormed at_k
    refine ⟨inv.nonzero at_k, inv.firstNonzeroId at_k, ?_, fun j row' ne h' => ?_⟩
    · rw [wf.getCoef_eq (lt_none_of_rowAt inv.toTableOk wrap at_k), inv.lead at_k]
    · have at_j := rowAt_of_slot h'
      rw [wf.getCoef_eq (lt_none_of_rowAt inv.toTableOk wrap at_j),
        inv.clear at_j at_k (by omega)]
  · intro s fault
    cases (submit_fault inv wrap fault).1

/-- Source symbol 5 is eliminated from the sum of 4 and 5. -/
theorem rowEchelon_after_pair :
    ∃ set os row, SetRun (fun _ _ => True)
        [pairSubmission 4 1 (bytes [2]), sourceSubmission 5 (bytes [9])] set os ∧
      set.rowAt 4 = some row ∧ fullSymbolGetCoef row 4 = 1 ∧ fullSymbolGetCoef row 5 = 0 ∧
      ∀ s, submit set s ≠ .error .assertion := by
  obtain ⟨set, os, steps, shape⟩ := exists_steps_of_map
    (show (checkedRun submit (fun _ _ set' => set'.NoWrap ∧ True) fullSymbolSetAlloc
      [pairSubmission 4 1 (bytes [2]), sourceSubmission 5 (bytes [9])]).map (fun result =>
        (result.1.firstSymbolId, (result.1.fullSymbolTab[0]?.join).isSome,
          (result.1.fullSymbolTab[1]?.join).isSome)) = some (4, true, true) by decide +kernel)
  obtain ⟨first, some_rows⟩ := Prod.mk.inj shape
  obtain ⟨some_0, some_1⟩ := Prod.mk.inj some_rows
  dsimp only at first some_0 some_1
  obtain ⟨row, at_0⟩ := Option.isSome_iff_exists.mp some_0
  obtain ⟨row', at_1⟩ := Option.isSome_iff_exists.mp some_1
  rw [Option.join_eq_some_iff] at at_0 at_1
  obtain ⟨echelon, safe⟩ := rowEchelon_of_run steps
  obtain ⟨-, -, lead, clear⟩ := echelon 0 row at_0
  have clear := clear 1 row' (by decide) at_1
  rw [first] at lead clear
  refine ⟨set, os, row, steps, ?_, lead, clear, safe⟩
  rw [show 4 = set.firstSymbolId + 0 by rw [first], rowAt_slot, List.getD_eq_getElem?_getD, at_0,
    Option.getD_some]

/-! ### Maximal decoding -/

/-- After every run a source symbol can be combined from the rows exactly when its
row is that source symbol. -/
theorem single_iff_of_run {cs : List Submission} {set : FullSymbolSet} {os : List Notification}
    (run : SetRun (fun _ _ => True) cs set os) (j : ℕ) :
    Finsupp.single j 1 ∈ set.rowSpan ↔
      ∃ row, set.rowAt j = some row ∧ fullSymbolHasOneId row = true := by
  obtain ⟨inv, -⟩ := invariant_of_run run
  exact inv.single_mem_rowSpan_iff j

/-- The sum of 4 and 5 and source symbol 5 give source symbol 4, and not 6. -/
theorem single_iff_after_pair :
    ∃ set os, SetRun (fun _ _ => True)
        [pairSubmission 4 1 (bytes [2]), sourceSubmission 5 (bytes [9])] set os ∧
      Finsupp.single 4 1 ∈ set.rowSpan ∧ Finsupp.single 6 1 ∉ set.rowSpan := by
  obtain ⟨set, os, steps, shape⟩ := exists_steps_of_map
    (show (checkedRun submit (fun _ _ set' => set'.NoWrap ∧ True) fullSymbolSetAlloc
      [pairSubmission 4 1 (bytes [2]), sourceSubmission 5 (bytes [9])]).map (fun result =>
        ((result.1.rowAt 4).map fullSymbolHasOneId, result.1.rowAt 6)) =
      some (some true, none) by decide +kernel)
  obtain ⟨one, at_6⟩ := Prod.mk.inj shape
  obtain ⟨row, at_4, one⟩ := Option.map_eq_some_iff.mp one
  refine ⟨set, os, steps, (single_iff_of_run steps 4).mpr ⟨row, at_4, one⟩, fun mem => ?_⟩
  obtain ⟨row', at_6', -⟩ := (single_iff_of_run steps 6).mp mem
  cases at_6.symm.trans at_6'

/-! ### Order independence -/

/-- Rows over the same coefficients are the same rows, when the stored symbols are sound. -/
theorem rel_of_coefRows_eq {m : ℕ} {src : ℕ → Vector Gf256 m} {set set' : FullSymbolSet}
    (inv : set.Invariant) (inv' : set'.Invariant) (rows : set.AllSound src)
    (rows' : set'.AllSound src) (same : set.coefRows = set'.coefRows) (id : ℕ) :
    Option.Rel
      (fun row row' => (∀ i, fullSymbolGetCoef row i = fullSymbolGetCoef row' i) ∧
        row.data = row'.data)
      (set.rowAt id) (set'.rowAt id) := by
  have at_id := congrFun same id
  cases h : set.rowAt id with
  | none =>
      cases h' : set'.rowAt id with
      | none => exact .none
      | some row' => simp [coefRows, h, h'] at at_id
  | some row =>
      cases h' : set'.rowAt id with
      | none => simp [coefRows, h, h'] at at_id
      | some row' =>
          rw [coefRows_of_rowAt h, coefRows_of_rowAt h', Option.some_inj] at at_id
          refine .some ⟨fun i => ?_, (rows id row h).data_eq (rows' id row' h') at_id⟩
          rw [← ((inv.wellFormed h).bounded (inv.nonzero h)).1.coefs_apply,
            ← ((inv'.wellFormed h').bounded (inv'.nonzero h')).1.coefs_apply, at_id]

/-- Two runs over the same sound submissions in different orders, neither of which
inserts below its set, end with the same rows. -/
theorem rows_independent_of_order {m : ℕ} {src : ℕ → Vector Gf256 m}
    {cs cs' : List Submission} (perm : cs.Perm cs') (sound : ∀ s ∈ cs, Sound src s.1)
    {set set' : FullSymbolSet} {os os' : List Notification}
    (run : SetRun (fun set s => ¬ set.InsertsBelow s.1.firstNonzeroId) cs set os)
    (run' : SetRun (fun set s => ¬ set.InsertsBelow s.1.firstNonzeroId) cs' set' os') (id : ℕ) :
    Option.Rel
      (fun row row' => (∀ i, fullSymbolGetCoef row i = fullSymbolGetCoef row' i) ∧
        row.data = row'.data)
      (set.rowAt id) (set'.rowAt id) := by
  have free : ∀ {set : FullSymbolSet} {s : Submission}, ¬ set.InsertsBelow s.1.firstNonzeroId →
      set.TopFree s.1.firstNonzeroId := fun above below => absurd below above
  obtain ⟨inv, -⟩ := invariant_of_run run
  obtain ⟨inv', -⟩ := invariant_of_run run'
  have same : set.coefRows = set'.coefRows := by
    refine inv.reduced.eq_of_span_eq inv'.reduced ?_
    show set.rowSpan = set'.rowSpan
    rw [rowSpan_eq_submittedSpan run free, rowSpan_eq_submittedSpan run' free,
      submittedSpan_perm perm]
  have rows := allSound_of_run run sound
  have rows' := allSound_of_run run' fun s mem => sound s (perm.mem_iff.mpr mem)
  exact rel_of_coefRows_eq inv inv' rows rows' same id

theorem pairSymbol_sound {m : ℕ} {src : ℕ → Vector Gf256 m} {id : ℕ} {c : Gf256}
    (valid : id + 1 < symbolIdNone) {data : List Gf256}
    (combined : data = repairData [1, c] src id) : Sound src (pairSymbol id c data) := by
  refine Sound.of_repairData (fun i => ?_) combined
  have first : (pairSymbol id c data).firstId ≠ symbolIdNone := ((Nat.le_succ id).trans_lt valid).ne
  rw [FullSymbol.coefs_apply, coefAt, if_neg first, fullSymbolGetCoef, fullSymbolIncludesId]
  refine if_congr ?_ rfl rfl
  show (decide (id ≤ i) && decide (i ≤ id + 1)) = true ↔ id ≤ i ∧ i < id + 2
  rw [Bool.and_eq_true, decide_eq_true_eq, decide_eq_true_eq]
  omega

/-- The sum of 5 and 6, before and after source symbol 6. -/
theorem rows_independent_of_order_pair :
    ∃ set set' os os',
      SetRun (fun set s => ¬ set.InsertsBelow s.1.firstNonzeroId)
        [sourceSubmission 4 (bytes [5]), pairSubmission 5 1 (bytes [1]),
          sourceSubmission 6 (bytes [7])] set os ∧
      SetRun (fun set s => ¬ set.InsertsBelow s.1.firstNonzeroId)
        [sourceSubmission 4 (bytes [5]), sourceSubmission 6 (bytes [7]),
          pairSubmission 5 1 (bytes [1])] set' os' ∧
      Option.Rel
        (fun row row' => (∀ i, fullSymbolGetCoef row i = fullSymbolGetCoef row' i) ∧
          row.data = row'.data)
        (set.rowAt 5) (set'.rowAt 5) := by
  obtain ⟨set, os, steps⟩ := exists_steps_of_checkedRun
    (show (checkedRun submit
      (fun set s set' => set'.NoWrap ∧ ¬ set.InsertsBelow s.1.firstNonzeroId) fullSymbolSetAlloc
      [sourceSubmission 4 (bytes [5]), pairSubmission 5 1 (bytes [1]),
        sourceSubmission 6 (bytes [7])]).isSome by decide +kernel)
  obtain ⟨set', os', steps'⟩ := exists_steps_of_checkedRun
    (show (checkedRun submit
      (fun set s set' => set'.NoWrap ∧ ¬ set.InsertsBelow s.1.firstNonzeroId) fullSymbolSetAlloc
      [sourceSubmission 4 (bytes [5]), sourceSubmission 6 (bytes [7]),
        pairSubmission 5 1 (bytes [1])]).isSome by decide +kernel)
  have sound : ∀ s ∈ [sourceSubmission 4 (bytes [5]), pairSubmission 5 1 (bytes [1]),
      sourceSubmission 6 (bytes [7])],
      Sound (fun id => (#v[ofNat (id + 1)] : Vector Gf256 1)) s.1 := by
    intro s mem
    rcases List.mem_cons.mp mem with rfl | mem
    · exact sourceSymbol_sound (show 4 < symbolIdNone by decide)
    rcases List.mem_cons.mp mem with rfl | mem
    · exact pairSymbol_sound (by decide) (by decide +kernel)
    · rw [List.mem_singleton.mp mem]
      exact sourceSymbol_sound (show 6 < symbolIdNone by decide)
  exact ⟨set, set', os, os', steps, steps',
    rows_independent_of_order (.cons _ (.swap _ _ _)) sound steps steps' 5⟩

/-! ### No information is lost -/

/-- After every call of a run the rows span what was submitted, exactly when every
submission found room; and a further submission returns exactly when its rows fit. -/
theorem rowSpan_iff_of_run {cs : List Submission} {set : FullSymbolSet} {os : List Notification}
    (run : SetRun (fun _ _ => True) cs set os) :
    ((∀ cs₁ cs₂ set₁ os₁, cs = cs₁ ++ cs₂ → SetRun (fun _ _ => True) cs₁ set₁ os₁ →
        set₁.rowSpan = submittedSpan cs₁) ↔
      SetRun (fun set s => set.Room s.1.firstNonzeroId) cs set os) ∧
    ∀ s : Submission, (∃ result, submit set s = .ok result) ↔ set.Fits s.1.firstNonzeroId := by
  refine ⟨⟨fun spans => ?_, fun room cs₁ cs₂ set₁ os₁ split run₁ => ?_⟩, fun s => ?_⟩
  · induction run with
    | nil => exact .nil
    | @snoc set set' cs s os os' before ok cond ih =>
        obtain ⟨inv, wrap⟩ := invariant_of_run before
        refine (ih fun cs₁ cs₂ set₁ os₁ split => spans cs₁ (cs₂ ++ [s]) set₁ os₁ ?_).snoc ok
          ⟨cond.1, (submit_ok_iff inv wrap).mp ⟨_, ok⟩, ?_⟩
        · rw [split, List.append_assoc]
        · refine (submit_rowSpan_iff inv wrap ok).mp ?_
          rw [spans cs [s] set os rfl before, ← submittedSpan_snoc]
          exact spans (cs ++ [s]) [] set' (os ++ os') (List.append_nil _).symm (before.snoc ok cond)
  · subst split
    obtain ⟨set₁', o₁, o₂, room₁, -, -⟩ := room.split
    rw [(run₁.deterministic room₁).1]
    exact rowSpan_eq_submittedSpan room₁ fun found => found.2
  · obtain ⟨inv, wrap⟩ := invariant_of_run run
    exact submit_ok_iff inv wrap

theorem rowSpan_iff_below_set :
    ∃ set os, SetRun (fun _ _ => True) [sourceSubmission 4 (bytes [7]),
        sourceSubmission 2 (bytes [9])] set os ∧
      set.rowSpan = submittedSpan [sourceSubmission 4 (bytes [7]),
        sourceSubmission 2 (bytes [9])] := by
  obtain ⟨set, os, room⟩ := exists_steps_of_checkedRun
    (show (checkedRun submit (fun set s set' => set'.NoWrap ∧ set.Room s.1.firstNonzeroId)
      fullSymbolSetAlloc [sourceSubmission 4 (bytes [7]),
        sourceSubmission 2 (bytes [9])]).isSome by decide +kernel)
  have steps : SetRun (fun _ _ => True) _ set os := room.mono fun cond => ⟨cond.1, trivial⟩
  exact ⟨set, os, steps, (rowSpan_iff_of_run steps).1.mpr room _ [] set os
    (List.append_nil _).symm steps⟩

/-- A source symbol below the set can push a row out of the table: 1 and 16 fill
the two ends of the first table, and 0 moves the row of 16 out of it. -/
theorem row_lost_below_set :
    ¬ ∀ cs set os, SetRun (fun _ _ => True) cs set os → set.rowSpan = submittedSpan cs := by
  intro kept
  obtain ⟨set, os, steps, lost⟩ := exists_steps_of_map
    (show (checkedRun submit (fun _ _ set' => set'.NoWrap ∧ True) fullSymbolSetAlloc
      [sourceSubmission 1 (bytes [7]), sourceSubmission 16 (bytes [8]),
        sourceSubmission 0 (bytes [9])]).map
        (fun result => result.1.rowAt 16) = some none by decide +kernel)
  have mem : Finsupp.single 16 1 ∈ set.rowSpan := by
    rw [kept _ _ _ steps]
    exact Submodule.subset_span
      ⟨sourceSubmission 16 (bytes [8]), by simp, sourceSymbol_coefs (by decide) _⟩
  have free : set.coefRows 16 = none := by
    rw [coefRows, show set.rowAt 16 = none from lost, Option.map_none]
  have zero := (invariant_of_run steps).1.reduced.vanishes_of_not_pivot mem
    (fun i lt => Finsupp.single_eq_of_ne (by omega)) free
  rw [Finsupp.lapply_apply, Finsupp.single_eq_same] at zero
  exact one_ne_zero zero

end SwifCodec
