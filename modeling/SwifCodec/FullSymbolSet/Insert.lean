import SwifCodec.FullSymbolSet.Rows

/-!
Insertion into the pivot table, `full_symbol_set_add`.

A symbol whose leading identifier is not below the set goes to its slot, in a
larger table if need be, and every stored row stays. Below the set the rows are
moved up by the distance `firstSymbolId - id` to the new leading identifier.
Three things can happen then:

* the distance is the size of the table: the table is doubled and all rows stay;
* it is smaller: the table keeps its size, and the rows of the top slots are lost;
* it is larger: the moved rows do not fit in the table and are written behind it.
-/

namespace SwifCodec

open Library FullSymbol FullSymbolSet

namespace FullSymbolSet

/-- A symbol leading at `id` takes the branch that inserts below the set. -/
def InsertsBelow (set : FullSymbolSet) (id : ℕ) : Prop :=
  set.firstSymbolId ≠ symbolIdNone ∧ id < set.firstSymbolId

/-- The rows moved up for a symbol leading at `id` stay inside the table. -/
def Fits (set : FullSymbolSet) (id : ℕ) : Prop :=
  set.InsertsBelow id → set.firstSymbolId - id ≤ set.size

/-- No row is lost when a symbol leading at `id` is inserted below the set: the
slots it pushes out of a table that keeps its size are empty. -/
def TopFree (set : FullSymbolSet) (id : ℕ) : Prop :=
  set.InsertsBelow id → set.firstSymbolId - id < set.size →
    ∀ k < set.size, set.size - (set.firstSymbolId - id) ≤ k →
      set.fullSymbolTab.getD k none = none

/-- Inserting a symbol that leads at `id` keeps every row. -/
def Room (set : FullSymbolSet) (id : ℕ) : Prop := set.Fits id ∧ set.TopFree id

instance (set : FullSymbolSet) (id : ℕ) : Decidable (set.InsertsBelow id) :=
  inferInstanceAs (Decidable (_ ∧ _))
instance (set : FullSymbolSet) (id : ℕ) : Decidable (set.Fits id) :=
  inferInstanceAs (Decidable (_ → _))
instance (set : FullSymbolSet) (id : ℕ) : Decidable (set.TopFree id) :=
  inferInstanceAs (Decidable (_ → _ → _))
instance (set : FullSymbolSet) (id : ℕ) : Decidable (set.Room id) :=
  inferInstanceAs (Decidable (_ ∧ _))

/-- The identifier of slot 0 when a symbol is inserted that does not start below the set:
an unset set takes the one of the symbol. -/
def startFor (set : FullSymbolSet) (id : ℕ) : ℕ :=
  if set.firstSymbolId = symbolIdNone then id else set.firstSymbolId

end FullSymbolSet

/-! ### Cells of a table under construction -/

theorem length_reallocTab (tab : List (Option FullSymbol)) (size : ℕ) :
    (reallocTab tab size).length = size := by
  simp [reallocTab]
  omega

/-- Reallocation keeps the cells below both sizes. -/
theorem getElem?_reallocTab {tab : List (Option FullSymbol)} {size k : ℕ} (old : k < tab.length)
    (new : k < size) : (reallocTab tab size)[k]? = some (some (tab.getD k none)) := by
  rw [reallocTab, List.getElem?_append_left (by simp; omega), List.getElem?_take, if_pos new,
    List.getElem?_map, List.getElem?_eq_getElem old, List.getD_eq_getElem?_getD,
    List.getElem?_eq_getElem old]
  rfl

/-- A table all of whose cells were written can be used. -/
theorem initialisedTab_eq {cells : RawTab} {f : ℕ → Option FullSymbol}
    (written : ∀ k < cells.length, cells[k]? = some (some (f k))) :
    initialisedTab cells = .ok ((List.range cells.length).map f) := by
  have eq : cells = ((List.range cells.length).map f).map some := by
    refine List.ext_getElem? fun k => ?_
    by_cases lt : k < cells.length
    · rw [written k lt, List.getElem?_map, List.getElem?_map, List.getElem?_range lt]
      rfl
    · rw [List.getElem?_eq_none (by omega), List.getElem?_eq_none (by simp; omega)]
  have all : cells.mapM id = some ((List.range cells.length).map f) := by
    conv_lhs => rw [eq]
    rw [List.mapM_map, Function.id_comp]
    induction (List.range cells.length).map f with
    | nil => rfl
    | cons x xs ih => simp [List.mapM_cons, ih]
  rw [initialisedTab, all]

theorem getD_map_range (n : ℕ) (f : ℕ → Option FullSymbol) (k : ℕ) :
    ((List.range n).map f).getD k none = if k < n then f k else none := by
  rw [List.getD_eq_getElem?_getD, List.getElem?_map]
  split
  case isTrue lt => rw [List.getElem?_range lt]; rfl
  case isFalse ge => rw [List.getElem?_eq_none (by simp; omega)]; rfl

/-- Writing one slot of a table. -/
theorem getD_store {tab tab' : List (Option FullSymbol)} {slot : Option FullSymbol} {k : ℕ}
    (store_eq : Block.store tab k [slot] = some tab') (j : ℕ) :
    tab'.getD j none = if j = k then slot else tab.getD j none := by
  rw [List.getD_eq_getElem?_getD, Block.getElem?_of_store store_eq]
  by_cases at_k : j = k
  · subst at_k
    rw [if_pos (by simp), if_pos rfl, Nat.sub_self]
    rfl
  · rw [if_neg (by simp; omega), if_neg at_k, ← List.getD_eq_getElem?_getD]

section Insert

variable {set : FullSymbolSet} {n : FullSymbol} {first shift idxPos : ℕ}

/-- Moving the rows up by at most the size of the table. -/
theorem shiftTab_spec (length : set.fullSymbolTab.length = set.size)
    (small : shift < set.size ∨ 2 * set.size < 4294967296) (fits : shift ≤ set.size)
    (pos : 0 < shift) :
    ∃ size cells, shiftTab set shift = .ok (size, cells) ∧ cells.length = size ∧
      size = (if shift < set.size then set.size else 2 * set.size) ∧
      ∀ k < size, shift ≤ k →
        cells[k]? = some (some (set.fullSymbolTab.getD (k - shift) none)) := by
  unfold shiftTab
  by_cases lt : shift < set.size
  · obtain ⟨cells, store_eq⟩ : ∃ cells, Block.store (set.fullSymbolTab.map some) shift
        (((set.fullSymbolTab.map some).drop 0).take (set.size - shift)) = some cells :=
      ⟨_, Block.store_eq_some (by simp; omega)⟩
    have move_eq : Block.move (set.fullSymbolTab.map some) shift 0 (set.size - shift) =
        some cells := by
      rw [Block.move, Block.load_eq_some (by simp; omega), Option.bind_some, store_eq]
    rw [if_pos lt, if_pos lt, move_eq, access_some, ok_bind]
    refine ⟨set.size, cells, rfl, ?_, rfl, fun k lt_k le => ?_⟩
    · rw [Block.length_of_store store_eq, List.length_map, length]
    · rw [Block.getElem?_of_store store_eq, if_pos (by simp; omega), List.getElem?_take,
        if_pos (by omega), List.drop_zero, List.getElem?_map, List.getElem?_eq_getElem (by omega),
        List.getD_eq_getElem?_getD, List.getElem?_eq_getElem (by omega)]
      rfl
  · have double : mul32 set.size 2 = 2 * set.size := by
      unfold mul32
      omega
    have whole := length_reallocTab set.fullSymbolTab (2 * set.size)
    have taken : ((reallocTab set.fullSymbolTab (2 * set.size)).drop 0).length = 2 * set.size := by
      rw [List.drop_zero, whole]
    obtain ⟨cells, store_eq⟩ : ∃ cells, Block.store (reallocTab set.fullSymbolTab (2 * set.size))
        shift (((reallocTab set.fullSymbolTab (2 * set.size)).drop 0).take set.size) = some cells :=
      ⟨_, Block.store_eq_some (by rw [List.length_take]; omega)⟩
    have move_eq : Block.move (reallocTab set.fullSymbolTab (2 * set.size)) shift 0 set.size =
        some cells := by
      rw [Block.move, Block.load_eq_some (by omega), Option.bind_some, store_eq]
    rw [if_neg lt, if_neg lt, double, if_pos (by omega)]
    dsimp only
    rw [move_eq, access_some, ok_bind]
    refine ⟨2 * set.size, cells, rfl, ?_, rfl, fun k lt_k le => ?_⟩
    · rw [Block.length_of_store store_eq, whole]
    · rw [Block.getElem?_of_store store_eq, if_pos (by rw [List.length_take]; omega),
        List.getElem?_take, if_pos (by omega), List.drop_zero,
        getElem?_reallocTab (by omega) (by omega)]

/-- Rows moved up by more than the size of the table end behind it, and so do rows moved up
by a size that cannot be doubled. -/
theorem shiftTab_outOfBounds (size_ge : 2 ≤ set.size) (shift_lt : shift < symbolIdNone)
    (exceeds : ¬ (shift < set.size ∨ shift = set.size ∧ 2 * set.size < 4294967296)) :
    shiftTab set shift = .error (.outOfBounds .pivotTab) := by
  have size32 : symbolIdNone = 4294967295 := rfl
  unfold shiftTab
  rw [if_neg (by omega)]
  dsimp only
  generalize hsize : (if shift < mul32 set.size 2 then mul32 set.size 2 else add32 shift 1) = size
  have short : size < shift + set.size := by
    rw [← hsize, add32_of_lt (by omega)]
    unfold mul32
    split <;> omega
  have whole := length_reallocTab set.fullSymbolTab size
  have move_eq : Block.move (reallocTab set.fullSymbolTab size) shift 0 set.size = none := by
    unfold Block.move
    cases load_eq : Block.load (reallocTab set.fullSymbolTab size) 0 set.size with
    | none => rfl
    | some cells =>
        rw [Option.bind_some, Block.store_eq_none_iff, Block.length_of_load load_eq]
        omega
  rw [move_eq, access_none, error_bind]

/-- Insertion below the set, when the moved rows fit. -/
theorem fullSymbolSetAddBelow_spec (length : set.fullSymbolTab.length = set.size)
    (below : n.firstNonzeroId < first)
    (small : first - n.firstNonzeroId < set.size ∨ 2 * set.size < 4294967296)
    (fits : first - n.firstNonzeroId ≤ set.size) :
    ∃ size tab, fullSymbolSetAddBelow set n first =
        .ok ({ size, firstSymbolId := n.firstNonzeroId, nmbrPackets := add32 set.nmbrPackets 1,
               fullSymbolTab := tab }, 0) ∧
      tab.length = size ∧
      size = (if first - n.firstNonzeroId < set.size then set.size else 2 * set.size) ∧
      ∀ k, tab.getD k none =
        if k = 0 then some n
        else if k < first - n.firstNonzeroId then none
        else if k < size then set.fullSymbolTab.getD (k - (first - n.firstNonzeroId)) none
        else none := by
  unfold fullSymbolSetAddBelow
  dsimp only
  rw [Nat.min_eq_right below.le, Nat.sub_self]
  have pos : 0 < first - n.firstNonzeroId := by omega
  generalize first - n.firstNonzeroId = shift at *
  obtain ⟨size, cells, shift_eq, len, size_eq, moved⟩ :=
    shiftTab_spec length small fits pos
  have d_le : shift ≤ size := by
    rw [size_eq]
    split <;> omega
  obtain ⟨cells₁, fill_eq⟩ : ∃ cells₁, Block.fill cells 0 shift (some none) = some cells₁ :=
    ⟨_, Block.store_eq_some (by rw [List.length_replicate]; omega)⟩
  have len₁ := Block.length_of_store fill_eq
  obtain ⟨cells₂, store_eq⟩ : ∃ cells₂, Block.store cells₁ 0 [some (some n)] = some cells₂ :=
    ⟨_, Block.store_eq_some (by simp; omega)⟩
  have len₂ := Block.length_of_store store_eq
  have written : ∀ k < cells₂.length, cells₂[k]? = some (some
      (if k = 0 then some n else if k < shift then none
        else set.fullSymbolTab.getD (k - shift) none)) := by
    intro k lt
    rw [Block.getElem?_of_store store_eq, Block.getElem?_of_store fill_eq]
    rcases Nat.eq_zero_or_pos k with rfl | pos
    · simp
    · rw [if_neg (by simp; omega), if_neg (show k ≠ 0 by omega)]
      by_cases low : k < shift
      · rw [if_pos (by simp; omega), if_pos low, List.getElem?_replicate, if_pos (by omega)]
      · rw [if_neg (by simp; omega), if_neg low, moved k (by omega) (by omega)]
  rw [shift_eq, ok_bind]
  dsimp only
  rw [fill_eq, access_some, ok_bind, store_eq, access_some, ok_bind, initialisedTab_eq written,
    ok_bind, pure_eq_ok]
  refine ⟨size, _, rfl, ?_, size_eq, fun k => ?_⟩
  · rw [List.length_map, List.length_range]
    omega
  · rw [getD_map_range]
    by_cases lt : k < cells₂.length
    · rw [if_pos lt, if_pos (show k < size by omega)]
    · rw [if_neg lt, if_neg (show k ≠ 0 by omega), if_neg (by omega), if_neg (by omega)]

/-- Growing the table keeps its rows. -/
theorem growTab_spec (length : set.fullSymbolTab.length = set.size)
    (size_lt : set.size < 4294967296) (idx_lt : idxPos < symbolIdNone) :
    ∃ size tab, growTab set idxPos = .ok (size, tab) ∧ tab.length = size ∧ set.size ≤ size ∧
      size < 4294967296 ∧ idxPos < size ∧
      ∀ k, tab.getD k none = set.fullSymbolTab.getD k none := by
  have size32 : symbolIdNone = 4294967295 := rfl
  unfold growTab
  by_cases lt : idxPos < set.size
  · rw [if_pos lt]
    exact ⟨_, _, rfl, length, le_rfl, size_lt, lt, fun _ => rfl⟩
  · rw [if_neg lt]
    dsimp only
    generalize hsize : (if idxPos < mul32 set.size 2 then mul32 set.size 2 else add32 idxPos 1) =
      size
    have bounds : idxPos < size ∧ size < 4294967296 := by
      have := mul32_lt set.size 2
      rw [← hsize, add32_of_lt (by omega)]
      split <;> omega
    have whole := length_reallocTab set.fullSymbolTab size
    have rest : sub32 size set.size = size - set.size := sub32_of_le (by omega) (by omega)
    obtain ⟨cells, fill_eq⟩ : ∃ cells, Block.fill (reallocTab set.fullSymbolTab size) set.size
        (size - set.size) (some none) = some cells :=
      ⟨_, Block.store_eq_some (by rw [List.length_replicate]; omega)⟩
    have len := Block.length_of_store fill_eq
    have written : ∀ k < cells.length, cells[k]? = some (some (set.fullSymbolTab.getD k none)) := by
      intro k lt_k
      rw [Block.getElem?_of_store fill_eq, List.length_replicate]
      by_cases old : k < set.size
      · rw [if_neg (by omega), getElem?_reallocTab (by omega) (by omega)]
      · rw [if_pos (by omega), List.getElem?_replicate, if_pos (by omega),
          getD_none_of_length_le (by omega)]
    rw [cAssert_of (by simpa using bounds.1), ok_bind, rest, fill_eq, access_some, ok_bind,
      initialisedTab_eq written, ok_bind, pure_eq_ok]
    refine ⟨size, _, rfl, ?_, by omega, bounds.2, bounds.1, fun k => ?_⟩
    · rw [List.length_map, List.length_range]
      omega
    · rw [getD_map_range]
      by_cases lt_k : k < cells.length
      · rw [if_pos lt_k]
      · rw [if_neg lt_k, getD_none_of_length_le (by omega)]

/-- Insertion at or above the first identifier of the set. -/
theorem fullSymbolSetAddAbove_spec (length : set.fullSymbolTab.length = set.size)
    (size_lt : set.size < 4294967296) (lead_lt : n.firstNonzeroId < symbolIdNone) :
    ∃ size tab, fullSymbolSetAddAbove set n first =
        .ok ({ size, firstSymbolId := first, nmbrPackets := add32 set.nmbrPackets 1,
               fullSymbolTab := tab }, n.firstNonzeroId - first) ∧
      tab.length = size ∧ set.size ≤ size ∧ size < 4294967296 ∧
      n.firstNonzeroId - first < size ∧
      ∀ k, tab.getD k none =
        if k = n.firstNonzeroId - first then some n else set.fullSymbolTab.getD k none := by
  unfold fullSymbolSetAddAbove
  dsimp only
  have idx_lt : n.firstNonzeroId - first < symbolIdNone := by omega
  generalize n.firstNonzeroId - first = idxPos at *
  obtain ⟨size, tab, grow_eq, len, size_le, lt32, inside, same⟩ :=
    growTab_spec length size_lt idx_lt
  obtain ⟨tab', store_eq⟩ : ∃ tab', Block.store tab idxPos [some n] = some tab' :=
    ⟨_, Block.store_eq_some (by simp; omega)⟩
  have len' := Block.length_of_store store_eq
  rw [grow_eq, ok_bind]
  dsimp only
  rw [store_eq, access_some, ok_bind, pure_eq_ok]
  refine ⟨size, tab', rfl, by omega, size_le, lt32, inside, fun k => ?_⟩
  rw [getD_store store_eq, same]

/-- The range of a table after an insertion at or above its first identifier. -/
theorem fullSymbolSetAddAbove_range {set' : FullSymbolSet} {k : ℕ}
    (ok : fullSymbolSetAddAbove set n first = .ok (set', k)) :
    set'.firstSymbolId = first ∧
      set'.size =
        if n.firstNonzeroId - first < set.size then set.size
        else if n.firstNonzeroId - first < mul32 set.size 2 then mul32 set.size 2
        else add32 (n.firstNonzeroId - first) 1 := by
  obtain ⟨⟨size, tab⟩, grow_eq, ok⟩ := bind_eq_ok.mp ok
  obtain ⟨tab', -, result⟩ := bind_eq_ok.mp ok
  cases result
  refine ⟨rfl, ?_⟩
  unfold growTab at grow_eq
  split at grow_eq
  case isTrue inside =>
    cases grow_eq
    exact (if_pos inside).symm
  case isFalse outside =>
    obtain ⟨-, -, rest⟩ := bind_eq_ok.mp grow_eq
    obtain ⟨cells, -, rest⟩ := bind_eq_ok.mp rest
    obtain ⟨slots, -, result⟩ := bind_eq_ok.mp rest
    cases result
    exact (if_neg outside).symm

end Insert

/-! ### The rows after an insertion -/

/-- What an insertion of `n` does to the rows. -/
structure Inserted (set : FullSymbolSet) (n : FullSymbol) (set' : FullSymbolSet) : Prop where
  tableOk : set'.TableOk
  first_le : set'.firstSymbolId ≤ n.firstNonzeroId
  lead_lt : n.firstNonzeroId < set'.firstSymbolId + set'.size
  stored : set'.rowAt n.firstNonzeroId = some n
  kept : ∀ q, q ≠ n.firstNonzeroId → q < set'.firstSymbolId + set'.size →
    set'.rowAt q = set.rowAt q
  lost : ∀ q row, set.rowAt q = some row → set'.firstSymbolId + set'.size ≤ q →
    set.InsertsBelow n.firstNonzeroId ∧ set.firstSymbolId - n.firstNonzeroId < set.size ∧
      set.size - (set.firstSymbolId - n.firstNonzeroId) ≤ q - set.firstSymbolId
  /-- A table that is long enough for the distance keeps its size. -/
  slid : set.InsertsBelow n.firstNonzeroId →
    set.firstSymbolId - n.firstNonzeroId < set.size →
      set'.firstSymbolId = n.firstNonzeroId ∧ set'.size = set.size

section Add

variable {set set' : FullSymbolSet} {n row : FullSymbol} {q : ℕ}

/-- Rows other than the new one were there before. -/
theorem Inserted.rowAt_before (ins : Inserted set n set') (ne : q ≠ n.firstNonzeroId)
    (h : set'.rowAt q = some row) : set.rowAt q = some row := by
  rw [← ins.kept q ne (bounds_of_rowAt ins.tableOk h).2, h]

/-- Where the top slots are not free a row is lost. -/
theorem Inserted.exists_lost (ins : Inserted set n set')
    (taken : ¬ set.TopFree n.firstNonzeroId) :
    ∃ q row, q ≠ n.firstNonzeroId ∧ set.rowAt q = some row ∧ set'.rowAt q = none := by
  unfold TopFree at taken
  push Not at taken
  obtain ⟨below, small, k, lt, top, some⟩ := taken
  obtain ⟨first, size⟩ := ins.slid below small
  have bound := below.2
  obtain ⟨row, at_k⟩ := Option.ne_none_iff_exists'.mp some
  refine ⟨set.firstSymbolId + k, row, by omega, by rw [rowAt_slot, at_k], ?_⟩
  exact rowAt_above ins.tableOk (by omega)

/-- Where the top slots are free no row is lost. -/
theorem Inserted.rowAt_eq (ins : Inserted set n set') (ok : set.TableOk)
    (free : set.TopFree n.firstNonzeroId) (ne : q ≠ n.firstNonzeroId) :
    set'.rowAt q = set.rowAt q := by
  by_cases inside : q < set'.firstSymbolId + set'.size
  · exact ins.kept q ne inside
  · rw [rowAt_above ins.tableOk (by omega)]
    cases at_q : set.rowAt q with
    | none => rfl
    | some row =>
        obtain ⟨below, small, top⟩ := ins.lost q row at_q (by omega)
        have bounds := bounds_of_rowAt ok at_q
        have empty := free below small (q - set.firstSymbolId) (by omega) top
        rw [rowAt, if_pos bounds.1, empty] at at_q
        cases at_q

/-- Insertion below the set moves the rows up, as long as the table can hold them. -/
theorem fullSymbolSetAddBelow_inserted (ok : set.TableOk)
    (lead_lt : n.firstNonzeroId < symbolIdNone) (below : set.InsertsBelow n.firstNonzeroId)
    (room : set.firstSymbolId - n.firstNonzeroId < set.size ∨
      set.firstSymbolId - n.firstNonzeroId = set.size ∧ 2 * set.size < 4294967296) :
    ∃ set', fullSymbolSetAddBelow set n set.firstSymbolId =
        .ok (set', n.firstNonzeroId - set'.firstSymbolId) ∧ Inserted set n set' := by
  have size_ge := ok.size_ge
  have size_lt := ok.size_lt
  have lt := below.2
  obtain ⟨size, tab, add_eq, len, size_eq, slots⟩ :=
    fullSymbolSetAddBelow_spec ok.length lt (by omega) (by omega)
  have size_bounds : set.size ≤ size ∧ size < 4294967296 := by
    rw [size_eq]
    split <;> omega
  rw [add_eq]
  refine ⟨{ size, firstSymbolId := n.firstNonzeroId, nmbrPackets := add32 set.nmbrPackets 1,
            fullSymbolTab := tab }, by simp, ⟨⟨len, by show 2 ≤ size; omega, size_bounds.2,
    lead_lt.le, fun none => absurd none lead_lt.ne⟩, le_rfl, ?_, ?_, fun q ne inside => ?_,
    fun q row at_q out => ?_, fun _ small => ⟨rfl, size_eq.trans (if_pos small)⟩⟩⟩
  · show n.firstNonzeroId < n.firstNonzeroId + size
    omega
  · rw [rowAt, if_pos le_rfl, Nat.sub_self, slots, if_pos rfl]
  · rcases Nat.lt_or_ge q n.firstNonzeroId with low | high
    · rw [rowAt_below (by exact low), rowAt_below (by omega)]
    · rw [rowAt, if_pos (by exact high)]
      show tab.getD (q - n.firstNonzeroId) none = _
      rw [slots, if_neg (by omega)]
      by_cases gap : q < set.firstSymbolId
      · rw [if_pos (by omega), rowAt_below gap]
      · have inside : q < n.firstNonzeroId + size := inside
        rw [if_neg (by omega), if_pos (by omega), rowAt, if_pos (by omega)]
        congr 1
        omega
  · have out : n.firstNonzeroId + size ≤ q := out
    have bounds := bounds_of_rowAt ok at_q
    refine ⟨below, ?_, by omega⟩
    by_contra big
    rw [if_neg big] at size_eq
    omega

theorem startFor_le {id : ℕ} (above : ¬ set.InsertsBelow id) : set.startFor id ≤ id := by
  unfold startFor
  unfold InsertsBelow at above
  split <;> omega

/-- Reading by identifier does not depend on where an unset set starts, as it has no rows. -/
theorem getD_startFor (ok : set.TableOk) {id : ℕ} (le : set.startFor id ≤ q) :
    set.fullSymbolTab.getD (q - set.startFor id) none = set.rowAt q := by
  unfold startFor at le ⊢
  by_cases none : set.firstSymbolId = symbolIdNone
  · rw [ok.empty none, rowAt_of_first_none ok none]
  · rw [if_neg none] at le ⊢
    rw [rowAt, if_pos le]

theorem rowAt_before_start (ok : set.TableOk) {id : ℕ} (lt : q < set.startFor id) :
    set.rowAt q = none := by
  unfold startFor at lt
  by_cases none : set.firstSymbolId = symbolIdNone
  · exact rowAt_of_first_none ok none q
  · rw [if_neg none] at lt
    exact rowAt_below lt

/-- Insertion above the start of the set loses nothing. -/
theorem fullSymbolSetAddAbove_inserted (ok : set.TableOk)
    (lead_lt : n.firstNonzeroId < symbolIdNone) (above : ¬ set.InsertsBelow n.firstNonzeroId) :
    ∃ set', fullSymbolSetAddAbove set n (set.startFor n.firstNonzeroId) =
        .ok (set', n.firstNonzeroId - set'.firstSymbolId) ∧ Inserted set n set' := by
  have size_ge := ok.size_ge
  have first_le := startFor_le above
  obtain ⟨size, tab, add_eq, len, size_le, lt32, inside, slots⟩ :=
    fullSymbolSetAddAbove_spec ok.length ok.size_lt lead_lt
  have same : ∀ q, set.startFor n.firstNonzeroId ≤ q →
      set.fullSymbolTab.getD (q - set.startFor n.firstNonzeroId) none = set.rowAt q :=
    fun q le => getD_startFor ok le
  have low : ∀ q, q < set.startFor n.firstNonzeroId → set.rowAt q = none :=
    fun q lt => rowAt_before_start ok lt
  rw [add_eq]
  generalize set.startFor n.firstNonzeroId = first at *
  refine ⟨_, rfl, ⟨⟨len, by show 2 ≤ size; omega, lt32, by show first ≤ symbolIdNone; omega,
    fun none => ?_⟩, first_le, ?_, ?_, fun q ne _ => ?_, fun q row at_q out => ?_,
    fun branch => absurd branch above⟩⟩
  · have none : first = symbolIdNone := none
    omega
  · show n.firstNonzeroId < first + size
    omega
  · rw [rowAt, if_pos (by exact first_le), slots, if_pos rfl]
  · rcases Nat.lt_or_ge q first with lt | le
    · rw [rowAt_below (by exact lt), low q lt]
    · rw [rowAt, if_pos (by exact le)]
      show tab.getD (q - first) none = _
      rw [slots, if_neg (by omega), same q le]
  · have out : first + size ≤ q := out
    have bounds := bounds_of_rowAt ok at_q
    have := same q (by omega)
    rw [getD_none_of_length_le (by have := ok.length; omega), at_q] at this
    cases this

theorem fullSymbolSetAdd_eq (wf : n.WellFormed) (nz : fullSymbolIsZero n = false)
    (set : FullSymbolSet) :
    fullSymbolSetAdd set n =
      if set.InsertsBelow n.firstNonzeroId then fullSymbolSetAddBelow set n set.firstSymbolId
      else fullSymbolSetAddAbove set n (set.startFor n.firstNonzeroId) := by
  unfold fullSymbolSetAdd startFor
  rw [nz, if_neg (by decide), fullSymbolClone_of_nonzero wf nz, ok_bind]
  dsimp only
  by_cases none : set.firstSymbolId = symbolIdNone
  · have above : ¬ set.InsertsBelow n.firstNonzeroId := fun h => h.1 none
    rw [if_neg above, if_pos none, if_neg (lt_irrefl _)]
  · rw [if_neg none]
    by_cases below : n.firstNonzeroId < set.firstSymbolId
    · have branch : set.InsertsBelow n.firstNonzeroId := ⟨none, below⟩
      rw [if_pos below, if_pos branch]
    · have above : ¬ set.InsertsBelow n.firstNonzeroId := fun h => below h.2
      rw [if_neg below, if_neg above]

/-- `full_symbol_set_add` of a non-zero symbol, when the table keeps its size or can be doubled
for the rows it moves. -/
theorem fullSymbolSetAdd_inserted (ok : set.TableOk) (wf : n.WellFormed)
    (nz : fullSymbolIsZero n = false)
    (room : set.InsertsBelow n.firstNonzeroId →
      set.firstSymbolId - n.firstNonzeroId < set.size ∨
        set.firstSymbolId - n.firstNonzeroId = set.size ∧ 2 * set.size < 4294967296) :
    ∃ set', fullSymbolSetAdd set n = .ok (set', n.firstNonzeroId - set'.firstSymbolId) ∧
      Inserted set n set' := by
  have lead_lt := wf.first_lt nz
  rw [fullSymbolSetAdd_eq wf nz]
  by_cases below : set.InsertsBelow n.firstNonzeroId
  · rw [if_pos below]
    exact fullSymbolSetAddBelow_inserted ok lead_lt below (room below)
  · rw [if_neg below]
    exact fullSymbolSetAddAbove_inserted ok lead_lt below

/-- `full_symbol_set_add` of a non-zero symbol, when the table can hold it. -/
theorem fullSymbolSetAdd_spec (ok : set.TableOk) (wrap : set.NoWrap) (wf : n.WellFormed)
    (nz : fullSymbolIsZero n = false) (fits : set.Fits n.firstNonzeroId) :
    ∃ set', fullSymbolSetAdd set n = .ok (set', n.firstNonzeroId - set'.firstSymbolId) ∧
      Inserted set n set' := by
  refine fullSymbolSetAdd_inserted ok wf nz fun below => ?_
  have wraps := wrap below.1
  have distance := fits below
  have size_ge := ok.size_ge
  omega

/-- `full_symbol_set_add` below the set, when the table neither keeps its size nor can be
doubled. -/
theorem fullSymbolSetAdd_exceeds (size_ge : 2 ≤ set.size)
    (first_le : set.firstSymbolId ≤ symbolIdNone) (wf : n.WellFormed)
    (nz : fullSymbolIsZero n = false)
    (far : ¬ (set.InsertsBelow n.firstNonzeroId →
      set.firstSymbolId - n.firstNonzeroId < set.size ∨
        set.firstSymbolId - n.firstNonzeroId = set.size ∧ 2 * set.size < 4294967296)) :
    fullSymbolSetAdd set n = .error (.outOfBounds .pivotTab) := by
  obtain ⟨below, exceeds⟩ := Classical.not_imp.mp far
  have first_lt : set.firstSymbolId < symbolIdNone := lt_of_le_of_ne first_le below.1
  rw [fullSymbolSetAdd_eq wf nz, if_pos below]
  unfold fullSymbolSetAddBelow
  dsimp only
  rw [shiftTab_outOfBounds size_ge (by omega) exceeds, error_bind]

/-- `full_symbol_set_add` below the set, when the moved rows do not fit. -/
theorem fullSymbolSetAdd_outOfBounds (ok : set.TableOk) (wf : n.WellFormed)
    (nz : fullSymbolIsZero n = false) (exceeds : ¬ set.Fits n.firstNonzeroId) :
    fullSymbolSetAdd set n = .error (.outOfBounds .pivotTab) := by
  refine fullSymbolSetAdd_exceeds ok.size_ge ok.first_le wf nz fun room => exceeds fun below => ?_
  have shift := room below
  omega

end Add

end SwifCodec
