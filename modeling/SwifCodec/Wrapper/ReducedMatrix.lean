import SwifCodec.FullSymbolSet.Extent
import SwifCodec.Library.EchelonMatrix
import SwifCodec.Wrapper.Matrix

/-!
The rows of a matrix in a set of full symbols.

`compute_rref` submits the rows of a matrix over GF(2^8) to a fresh set, as symbols without
data, and reads the rows of the set back in the order of their pivots. Here are the two ends:
what `get_matrix` reads from a set that satisfies its invariant (`Invariant.getMatrix_eq`), and
the runs in which every row of a matrix finds room in the pivot table, which are those on at
most 16 columns (`exists_run_of_small`), and those in which no row leads before the first
non-zero row does (`exists_run_of_leftmost`).
-/

namespace SwifCodec

open Library FullSymbol FullSymbolSet Gf256

/-! ### Reading the rows of a set -/

section Read

variable {set : FullSymbolSet} {n : ℕ}

/-- `FullSymbolSet.get` copies the row of an identifier. -/
theorem FullSymbolSet.Invariant.get_eq (inv : set.Invariant) (id : ℕ) :
    set.get id = .ok (set.rowAt id) := by
  have size_ge := inv.size_ge
  unfold FullSymbolSet.get getMaxId getMinId
  by_cases outside : id < set.firstSymbolId ∨ set.firstSymbolId + set.size - 1 < id
  · rw [if_pos outside]
    rcases outside with below | above
    · rw [rowAt_below below]
      rfl
    · rw [rowAt_above inv.toTableOk (by omega)]
      rfl
  · have slot := getElem?_slot inv.toTableOk (show id - set.firstSymbolId < set.size by omega)
    rw [Nat.add_sub_cancel' (by omega)] at slot
    rw [if_neg outside, slot, access_some, ok_bind]
    cases at_id : set.rowAt id with
    | none => rfl
    | some row =>
        dsimp only
        rw [fullSymbolClone_of_nonzero (inv.wellFormed at_id) (inv.nonzero at_id)]
        rfl

/-- A list of calls that all return. -/
theorem mapM_of_ok {α β : Type} {f : α → Exec β} {g : α → β} (each : ∀ a, f a = .ok (g a))
    (l : List α) : l.mapM f = .ok (l.map g) := by
  rw [show f = fun a => pure (g a) from funext each]
  exact List.mapM_pure

/-- A non-zero symbol on the columns below `n` becomes a row of `n` entries. -/
theorem length_toIntList {row : FullSymbol} (wf : row.WellFormed)
    (nz : fullSymbolIsZero row = false) (ids : row.coefs ∈ idsBelow n) :
    (toIntList n row.getCoefs).length = n := by
  have last_lt : row.lastNonzeroId < n := by
    by_contra ge
    exact wf.coefs_last_ne nz (mem_idsBelow.mp ids _ (by omega))
  have ordered := (wf.bounded nz).2.ordered
  unfold toIntList
  rw [getCoefs_of_nonzero wf nz]
  dsimp only
  simp only [List.length_append, List.length_replicate, List.length_map, List.length_range]
  omega

/-- The entries of the row are the coefficients. -/
theorem getD_toIntList {row : FullSymbol} (wf : row.WellFormed)
    (nz : fullSymbolIsZero row = false) (i : ℕ) :
    (toIntList n row.getCoefs).getD i 0 = row.coefs i := by
  rw [← getCoefs_getD wf nz i]
  unfold toIntList
  generalize row.getCoefs = coefs
  have padded : ∀ j k : ℕ, ((List.replicate k (0 : Gf256))[j]?).getD 0 = 0 := by
    intro j k
    rw [List.getElem?_replicate]
    split <;> rfl
  simp only [List.getD_eq_getElem?_getD, List.getElem?_append, List.length_append,
    List.length_replicate]
  by_cases le : coefs.1 ≤ i
  · by_cases inside : i < coefs.1 + coefs.2.length
    · rw [if_pos inside, if_neg (by omega), if_pos le]
    · rw [if_neg inside, if_pos le, padded, List.getElem?_eq_none (by omega)]
      rfl
  · rw [if_pos (by omega), if_pos (by omega), if_neg le, padded]

namespace FullSymbolSet

/-- The rows of a set with their pivots, as `get_matrix` lists them. -/
def pivotRows (set : FullSymbolSet) (n : ℕ) : List (ℕ × List Gf256) :=
  (List.range' set.firstSymbolId set.size).filterMap fun id =>
    (set.rowAt id).map fun row => (id, toIntList n row.getCoefs)

theorem mem_pivotRows (ok : set.TableOk) {p : ℕ × List Gf256} :
    p ∈ set.pivotRows n ↔ ∃ row, set.rowAt p.1 = some row ∧ toIntList n row.getCoefs = p.2 := by
  rw [pivotRows, List.mem_filterMap]
  constructor
  · rintro ⟨id, -, eq⟩
    obtain ⟨row, at_id, rfl⟩ := Option.map_eq_some_iff.mp eq
    exact ⟨row, at_id, rfl⟩
  · rintro ⟨row, at_p, eq⟩
    have bounds := bounds_of_rowAt ok at_p
    refine ⟨p.1, List.mem_range'_1.mpr bounds, ?_⟩
    rw [at_p, Option.map_some, eq]

/-- The rows of a set on the columns below `n` are in reduced row echelon form. -/
theorem Invariant.pivotList (inv : set.Invariant) (ids : set.rowSpan ≤ idsBelow n) :
    PivotList n (set.pivotRows n) := by
  have row_of : ∀ p ∈ set.pivotRows n, ∃ row, set.rowAt p.1 = some row ∧ p.2.length = n ∧
      ∀ i, p.2.getD i 0 = row.coefs i := by
    intro p mem
    obtain ⟨row, at_p, eq⟩ := (mem_pivotRows inv.toTableOk).mp mem
    have wf := inv.wellFormed at_p
    have nz := inv.nonzero at_p
    rw [← eq]
    exact ⟨row, at_p, length_toIntList wf nz (ids (coefs_mem_rowSpan at_p)), getD_toIntList wf nz⟩
  refine ⟨fun p mem => ?_, fun p mem => ?_, ?_, fun p mem => ?_, fun p mem j lt => ?_,
    fun p mem q mem' ne => ?_⟩
  · obtain ⟨row, -, length, -⟩ := row_of p mem
    exact length
  · obtain ⟨row, at_p, -, -⟩ := row_of p mem
    by_contra ge
    have zero := mem_idsBelow.mp (ids (coefs_mem_rowSpan at_p)) p.1 (by omega)
    rw [inv.lead at_p] at zero
    exact one_ne_zero zero
  · rw [pivotRows, List.pairwise_filterMap]
    refine (List.pairwise_lt_range' 1 Nat.one_pos).imp fun lt p some_p q some_q => ?_
    obtain ⟨row, -, rfl⟩ := Option.map_eq_some_iff.mp some_p
    obtain ⟨row', -, rfl⟩ := Option.map_eq_some_iff.mp some_q
    exact lt
  · obtain ⟨row, at_p, -, entries⟩ := row_of p mem
    rw [entries]
    exact inv.lead at_p
  · obtain ⟨row, at_p, -, entries⟩ := row_of p mem
    rw [entries]
    exact inv.before at_p lt
  · obtain ⟨row, at_p, -, -⟩ := row_of p mem
    obtain ⟨row', at_q, -, entries⟩ := row_of q mem'
    rw [entries]
    exact inv.clear at_p at_q ne

/-- `get_matrix` lists the rows, and raises an exception when there are none. -/
theorem Invariant.getMatrix_eq (inv : set.Invariant) (ids : set.rowSpan ≤ idsBelow n) :
    set.getMatrix (some n) =
      if set.pivotRows n = [] then .error .typeError
      else .ok ((set.pivotRows n).map Prod.snd) := by
  have size_ge := inv.size_ge
  have slots : List.range' set.getMinId (set.getMaxId + 1 - set.getMinId) =
      List.range' set.firstSymbolId set.size := by
    unfold getMaxId getMinId
    congr 1
    omega
  have rows : set.pivotRows n = ((List.range' set.firstSymbolId set.size).filterMap
      fun id => (set.rowAt id).map fun row => (id, row)).map
        fun p => (p.1, toIntList n p.2.getCoefs) := by
    rw [pivotRows, List.map_filterMap]
    congr 1
    funext id
    cases set.rowAt id <;> rfl
  have symbols : ((List.range' set.firstSymbolId set.size).map set.rowAt).filterMap id =
      ((List.range' set.firstSymbolId set.size).filterMap
        fun id => (set.rowAt id).map fun row => (id, row)).map Prod.snd := by
    rw [List.filterMap_map, List.map_filterMap]
    congr 1
    funext id
    show set.rowAt id = _
    cases set.rowAt id <;> rfl
  have width : ∀ p ∈ set.pivotRows n, p.2.length = n := (inv.pivotList ids).width
  unfold getMatrix
  dsimp only
  rw [slots, mapM_of_ok inv.get_eq]
  show toMatrix (((List.range' set.firstSymbolId set.size).map set.rowAt).filterMap id) (some n) = _
  rw [symbols]
  rw [rows] at width ⊢
  generalize ((List.range' set.firstSymbolId set.size).filterMap
    fun id => (set.rowAt id).map fun row => (id, row)) = found at width ⊢
  cases found with
  | nil => rfl
  | cons p rest =>
      have first_width := width _ (List.mem_map_of_mem List.mem_cons_self)
      rw [List.map_cons, toMatrix]
      dsimp only [Option.getD_some]
      rw [if_pos, if_neg (by simp)]
      · simp
      · rw [List.all_eq_true]
        intro row mem
        simp only [List.map_map, List.mem_map] at mem
        obtain ⟨q, mem, rfl⟩ := mem
        have other := width _ (List.mem_map_of_mem (List.mem_cons_of_mem _ mem))
        exact beq_iff_eq.mpr (other.trans first_width.symm)

end FullSymbolSet

end Read

/-! ### Submitting the rows of a matrix -/

/-- The first `n` coordinates of a coefficient function. -/
noncomputable def columns (n : ℕ) : (ℕ →₀ Gf256) →ₗ[Gf256] (Fin n → Gf256) :=
  LinearMap.pi fun j => Finsupp.lapply j.1

/-- The symbol made of a row. -/
structure IsRowSymbol (row : List Gf256) (s : Submission) : Prop where
  made : FullSymbol.initFromInfo (0, row, []) = .ok s.1
  ranged : s.1.Ranged
  entries : ∀ i, s.1.coefs i = row.getD i 0

section Submit

variable {n : ℕ} {set set' : FullSymbolSet} {row : List Gf256} {rows : List (List Gf256)}
  {s : Submission} {cs : List Submission}

theorem IsRowSymbol.columns (is : IsRowSymbol row s) : columns n s.1.coefs = rowVector n row := by
  funext j
  exact is.entries j.1

theorem IsRowSymbol.idsBelow (is : IsRowSymbol row s) (width : row.length = n) :
    s.1.coefs ∈ idsBelow n := by
  refine mem_idsBelow.mpr fun i le => ?_
  rw [is.entries, List.getD_eq_getElem?_getD, List.getElem?_eq_none (by omega)]
  rfl

theorem IsRowSymbol.addRow_eq (is : IsRowSymbol row s) :
    addRow set row = (submit set s).map Prod.fst := by
  unfold addRow
  rw [is.made, ok_bind, submit]
  cases fullSymbolAddWithElimination set s.1 <;> rfl

/-- Every row of a matrix with columns makes a symbol. -/
theorem exists_rowSymbol (pos : 0 < n) (valid : n ≤ symbolIdNone) :
    ∃ symbol : List Gf256 → Submission, ∀ row, row.length = n → IsRowSymbol row (symbol row) := by
  have each : ∀ row : List Gf256, ∃ s : Submission, row.length = n → IsRowSymbol row s := by
    intro row
    by_cases length : row.length = n
    · obtain ⟨r, init_eq, wf, coefs, -, ranged⟩ := initFromInfo_spec 0 row [] (by omega) (by omega)
      refine ⟨⟨r, wf⟩, fun _ => ⟨init_eq, ranged, fun i => ?_⟩⟩
      rw [coefs, if_pos (Nat.zero_le i), Nat.sub_zero]
    · exact ⟨sourceSubmission 0 [], fun eq => absurd eq length⟩
  exact Classical.axiomOfChoice each

variable {symbol : List Gf256 → Submission}
  (symbols : ∀ row, row.length = n → IsRowSymbol row (symbol row))
  (width : ∀ row ∈ rows, row.length = n)
include symbols width

/-- The symbols of the rows span the row space. -/
theorem map_submittedSpan :
    (submittedSpan (rows.map symbol)).map (columns n) = rowSpace n rows := by
  rw [submittedSpan, Submodule.map_span, rowSpace]
  congr 1
  ext v
  constructor
  · rintro ⟨f, ⟨s, mem, rfl⟩, rfl⟩
    obtain ⟨row, mem_row, rfl⟩ := List.mem_map.mp mem
    exact ⟨row, mem_row, ((symbols row (width row mem_row)).columns).symm⟩
  · rintro ⟨row, mem, rfl⟩
    exact ⟨_, ⟨symbol row, List.mem_map_of_mem mem, rfl⟩, (symbols row (width row mem)).columns⟩

theorem idsBelow_of_mem (s : Submission) (mem : s ∈ rows.map symbol) : s.1.coefs ∈ idsBelow n := by
  obtain ⟨row, mem_row, rfl⟩ := List.mem_map.mp mem
  exact (symbols row (width row mem_row)).idsBelow (width row mem_row)

/-- Feeding the rows into a set is a run of their symbols. -/
theorem foldlM_addRow_iff :
    rows.foldlM addRow set = .ok set' ↔
      ∃ os, Steps submit (fun _ _ _ => True) set (rows.map symbol) set' os := by
  induction rows generalizing set with
  | nil =>
      constructor
      · intro ok
        cases ok
        exact ⟨[], .nil⟩
      · rintro ⟨os, steps⟩
        obtain ⟨rfl, -⟩ :=
          steps.deterministic (.nil : Steps submit (fun _ _ _ => True) set [] set [])
        rfl
  | cons row rows ih =>
      have is := symbols row (width row List.mem_cons_self)
      have rest : ∀ mid, rows.foldlM addRow mid = .ok set' ↔
          ∃ os, Steps submit (fun _ _ _ => True) mid (rows.map symbol) set' os :=
        fun mid => ih fun r mem => width r (List.mem_cons_of_mem _ mem)
      rw [List.foldlM_cons, is.addRow_eq, List.map_cons]
      constructor
      · intro ok
        cases submit_eq : submit set (symbol row) with
        | error e =>
            rw [submit_eq] at ok
            cases ok
        | ok result =>
            rw [submit_eq] at ok
            obtain ⟨os, steps⟩ := (rest result.1).mp ok
            exact ⟨result.2 ++ os, (Steps.single submit_eq trivial).append steps⟩
      · rintro ⟨os, steps⟩
        have steps :
            Steps submit (fun _ _ _ => True) set ([symbol row] ++ rows.map symbol) set' os :=
          steps
        obtain ⟨mid, os₁, os₂, first, after, -⟩ := steps.split
        rw [first.single_inv.1]
        exact (rest mid).mpr ⟨os₂, after⟩

end Submit

/-! ### When every row finds room -/

/-- A row with a non-zero entry. -/
def hasNonzero (row : List Gf256) : Bool := row.any fun a => a ≠ 0

/-- The column of the first non-zero entry. -/
def leadingColumn (row : List Gf256) : ℕ := row.findIdx fun a => a ≠ 0

/-- No row leads before the first non-zero row does. -/
def StartsLeftmost (rows : List (List Gf256)) : Prop :=
  ∀ first ∈ rows.find? hasNonzero, ∀ row ∈ rows, leadingColumn first ≤ leadingColumn row

section Room

variable {set set' : FullSymbolSet} {n c : ℕ} {s : Submission} {cs : List Submission}
  {os os' : List Notification}

/-- Symbols that do not lead below the set find room. -/
theorem room_of_above (above : ¬ set.InsertsBelow s.1.firstNonzeroId) :
    set.Room s.1.firstNonzeroId :=
  ⟨fun below => absurd below above, fun below => absurd below above⟩

/-- A coefficient function that vanishes before `c` does not lead below `c`. -/
theorem FullSymbol.WellFormed.le_first {u : FullSymbol} (wf : u.WellFormed)
    (nz : fullSymbolIsZero u = false) (vanishes : ∀ j < c, u.coefs j = 0) :
    c ≤ u.firstNonzeroId := by
  by_contra lt
  exact wf.coefs_first_ne nz (vanishes _ (by omega))

/-- A set that starts at `c` is not entered below by symbols that vanish before `c`. -/
theorem not_insertsBelow (inv : set.Invariant) (start : set.firstSymbolId = c)
    (vanishes : ∀ j < c, s.1.coefs j = 0) : ¬ set.InsertsBelow s.1.firstNonzeroId := by
  have first_le := inv.first_le
  rintro ⟨-, lt⟩
  cases nz : fullSymbolIsZero s.1 with
  | true =>
      have none : s.1.firstNonzeroId = symbolIdNone := by
        simpa [fullSymbolIsZero, fullSymbolGetMinSymbolId] using nz
      omega
  | false =>
      have := s.2.le_first nz vanishes
      omega

/-- A set without a first identifier spans nothing. -/
theorem FullSymbolSet.TableOk.rowSpan_eq_bot (ok : set.TableOk)
    (unset : set.firstSymbolId = symbolIdNone) : set.rowSpan = ⊥ := by
  refine le_bot_iff.mp (Rows.span_le.mpr fun p v h => ?_)
  rw [coefRows, rowAt_of_first_none ok unset] at h
  cases h

/-- Symbols that vanish before `c` keep a set that starts there. -/
theorem submit_starts (inv : set.Invariant) (wrap : set.NoWrap) (valid : c < symbolIdNone)
    (start : set.firstSymbolId = c) (vanishes : ∀ j < c, s.1.coefs j = 0)
    (ok : submit set s = .ok (set', os)) : set'.firstSymbolId = c := by
  rcases submit_inserts inv wrap ok with rfl | ⟨mid, n, k, -, first, -, wf, nz, mem, add_eq⟩
  · exact start
  have before : set.rowSpan ⊔ Submodule.span Gf256 {s.1.coefs} ≤
      Finsupp.supported Gf256 Gf256 (Set.Ici c) := by
    refine sup_le (fun f mem => (Finsupp.mem_supported' _ _).mpr fun j out => ?_)
      ((Submodule.span_singleton_le_iff_mem _ _).mpr
        ((Finsupp.mem_supported' _ _).mpr fun j out => ?_))
    · exact inv.rowSpan_below mem (by simpa [start] using out)
    · exact vanishes j (by simpa using out)
  have le : c ≤ n.firstNonzeroId := wf.le_first nz fun j lt =>
    (Finsupp.mem_supported' _ _).mp (before mem) j (by simpa using lt)
  have above : ¬ mid.InsertsBelow n.firstNonzeroId := fun below => by
    have := below.2
    omega
  rw [fullSymbolSetAdd_eq wf nz, if_neg above] at add_eq
  rw [(fullSymbolSetAddAbove_range add_eq).1, startFor, if_neg (by omega), first, start]

/-- The first non-zero symbol fixes the start of the set. -/
theorem submit_first (inv : set.Invariant) (wrap : set.NoWrap)
    (unset : set.firstSymbolId = symbolIdNone) (vanishes : ∀ j < c, s.1.coefs j = 0)
    (leads : s.1.coefs c ≠ 0) (ok : submit set s = .ok (set', os)) : set'.firstSymbolId = c := by
  have empty := inv.toTableOk.rowSpan_eq_bot unset
  rcases submit_inserts inv wrap ok with rfl | ⟨mid, n, k, -, first, -, wf, nz, mem, add_eq⟩
  · rcases submit_cases inv wrap ok with ⟨-, -, mem⟩ | ⟨n, el⟩
    · rw [empty, Submodule.mem_bot] at mem
      rw [mem] at leads
      exact absurd rfl leads
    · have stored := el.stored
      rw [rowAt_of_first_none inv.toTableOk unset] at stored
      cases stored
  · rw [empty, bot_sup_eq, Submodule.mem_span_singleton] at mem
    obtain ⟨a, eq⟩ := mem
    have a_ne : a ≠ 0 := by
      rintro rfl
      rw [zero_smul] at eq
      exact wf.coefs_first_ne nz (by rw [← eq]; rfl)
    have lead : n.firstNonzeroId = c := by
      refine wf.first_eq nz ?_ fun j lt => ?_
      · rw [← eq, Finsupp.smul_apply, smul_eq_mul]
        exact mul_ne_zero a_ne leads
      · rw [← eq, Finsupp.smul_apply, vanishes j lt, smul_zero]
    have above : ¬ mid.InsertsBelow n.firstNonzeroId := fun below => below.1 (first.trans unset)
    rw [fullSymbolSetAdd_eq wf nz, if_neg above] at add_eq
    rw [(fullSymbolSetAddAbove_range add_eq).1, startFor, if_pos (first.trans unset), lead]

/-- A zero symbol changes nothing. -/
theorem submit_zero (inv : set.Invariant) (wrap : set.NoWrap) (zero : s.1.coefs = 0)
    (ok : submit set s = .ok (set', os)) : set' = set := by
  rcases submit_cases inv wrap ok with ⟨rfl, -, -⟩ | ⟨n, el⟩
  · rfl
  · have nz := el.nonzero
    rw [s.2.isZero_iff.mpr zero] at nz
    cases nz

/-- A set on at most 16 identifiers has room for every symbol on them. -/
theorem room_of_small (inv : set.Invariant) (small : n ≤ 16) (ext : set.Extent n)
    (rows : set.rowSpan ≤ idsBelow n) : set.Room s.1.firstNonzeroId := by
  have size_ge := ext.size_ge
  have start : set.InsertsBelow s.1.firstNonzeroId → set.firstSymbolId < n := by
    intro below
    rcases ext with ⟨unset, -⟩ | ⟨start, -, -⟩
    · exact absurd unset below.1
    · exact start
  refine ⟨fun below => ?_, fun below short k lt ge => ?_⟩
  · have := start below
    omega
  · cases at_k : set.fullSymbolTab.getD k none with
    | none => rfl
    | some row =>
        have at_row := (rowAt_slot k).trans at_k
        have zero := mem_idsBelow.mp (rows (coefs_mem_rowSpan at_row)) (set.firstSymbolId + k) (by
          have := start below
          have := below.2
          omega)
        rw [inv.lead at_row] at zero
        exact absurd zero one_ne_zero

/-- A run in which every symbol found room goes on with one more that does. -/
theorem exists_next (small : n ≤ 2147483639)
    (run : SetRun (fun set s => set.Room s.1.firstNonzeroId) cs set os)
    (ids : ∀ t ∈ cs ++ [s], t.1.coefs ∈ idsBelow n) (room : set.Room s.1.firstNonzeroId) :
    ∃ set' os', submit set s = .ok (set', os') ∧
      SetRun (fun set s => set.Room s.1.firstNonzeroId) (cs ++ [s]) set' (os ++ os') := by
  obtain ⟨inv, wrap⟩ := invariant_of_run run
  obtain ⟨⟨set', os'⟩, ok⟩ := (submit_ok_iff inv wrap).mpr room.1
  have steps : Steps submit (fun set s _ => set.Room s.1.firstNonzeroId) fullSymbolSetAlloc
      (cs ++ [s]) set' (os ++ os') := (run.mono fun cond => cond.2).snoc ok room
  exact ⟨set', os', ok, (setRun_of_ids small steps ids).1⟩

/-- On at most 16 identifiers every symbol finds room. -/
theorem exists_run_of_small (small : n ≤ 16) (cs : List Submission)
    (ids : ∀ s ∈ cs, s.1.coefs ∈ idsBelow n) :
    ∃ set os, SetRun (fun set s => set.Room s.1.firstNonzeroId) cs set os := by
  have small' : n ≤ 2147483639 := by omega
  induction cs using List.reverseRecOn with
  | nil => exact ⟨_, _, .nil⟩
  | append_singleton cs s ih =>
      have before : ∀ t ∈ cs, t.1.coefs ∈ idsBelow n := fun t mem =>
        ids t (List.mem_append_left _ mem)
      obtain ⟨set, os, run⟩ := ih before
      obtain ⟨-, ext, rows⟩ := setRun_of_ids small' (run.mono fun cond => cond.2) before
      obtain ⟨set', os', -, run'⟩ := exists_next small' run ids
        (room_of_small (invariant_of_run run).1 small ext rows)
      exact ⟨set', _, run'⟩

/-- When no symbol leads before the first non-zero one, every symbol finds room: the set
starts at the identifier where that symbol leads. -/
theorem exists_run_of_leftmost (small : n ≤ 2147483639) (valid : c < symbolIdNone)
    (cs : List Submission) (ids : ∀ s ∈ cs, s.1.coefs ∈ idsBelow n)
    (vanishes : ∀ s ∈ cs, ∀ j < c, s.1.coefs j = 0)
    (leads : ∀ pre s post, cs = pre ++ s :: post → (∀ t ∈ pre, t.1.coefs = 0) → s.1.coefs ≠ 0 →
      s.1.coefs c ≠ 0) :
    ∃ set os, SetRun (fun set s => set.Room s.1.firstNonzeroId) cs set os ∧
      (set.firstSymbolId = c ∨
        set.firstSymbolId = symbolIdNone ∧ ∀ s ∈ cs, s.1.coefs = 0) := by
  induction cs using List.reverseRecOn with
  | nil => exact ⟨_, _, .nil, .inr ⟨rfl, nofun⟩⟩
  | append_singleton cs s ih =>
      obtain ⟨set, os, run, start⟩ := ih (fun t mem => ids t (List.mem_append_left _ mem))
        (fun t mem => vanishes t (List.mem_append_left _ mem))
        fun pre t post eq => leads pre t (post ++ [s]) (by rw [eq]; simp)
      obtain ⟨inv, wrap⟩ := invariant_of_run run
      have before := vanishes s (List.mem_append_right _ List.mem_cons_self)
      rcases start with at_c | ⟨unset, zeros⟩
      · obtain ⟨set', os', ok, run'⟩ := exists_next small run ids
          (room_of_above (not_insertsBelow inv at_c before))
        exact ⟨set', _, run', .inl (submit_starts inv wrap valid at_c before ok)⟩
      · obtain ⟨set', os', ok, run'⟩ := exists_next small run ids
          (room_of_above fun below => below.1 unset)
        refine ⟨set', _, run', ?_⟩
        by_cases zero : s.1.coefs = 0
        · rw [submit_zero inv wrap zero ok]
          refine .inr ⟨unset, fun t mem => ?_⟩
          rcases List.mem_append.mp mem with old | new
          · exact zeros t old
          · rw [List.mem_singleton.mp new, zero]
        · exact .inl (submit_first inv wrap unset before (leads cs s [] rfl zeros zero) ok)

end Room

end SwifCodec
