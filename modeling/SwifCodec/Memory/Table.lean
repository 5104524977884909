import Mathlib.Data.List.ReduceOption
import Mathlib.Algebra.Order.Group.Multiset
import Mathlib.Tactic.Abel
import SwifCodec.FullSymbolSet.Basic

/-!
The table of a set, whatever its cells point to.

`full_symbol_set_add` moves pointers and does not follow them. A `SymbolTable` is a set whose
cells are of any type: with full symbols it is the set of the other modules
(`fullSymbolSetAddBelow_toSet` and the theorems next to it), with addresses it is the set as the
program has it. The table does the same to cells of any type (`addBelow_map`, `addAbove_map`),
and loses no cell but those that it pushes past its end (`addBelow_entries`).
-/

namespace SwifCodec

open Library

/-- `swif_full_symbol_set_t`, with cells in `β`. -/
structure SymbolTable (β : Type) where
  size : Nat
  firstSymbolId : Nat
  nmbrPackets : Nat
  fullSymbolTab : List (Option β)
  deriving DecidableEq, Repr

namespace SymbolTable

variable {β γ : Type}

/-- `full_symbol_set_alloc`. -/
def alloc : SymbolTable β where
  size := fullSymbolSetInitialSize
  firstSymbolId := symbolIdNone
  nmbrPackets := 0
  fullSymbolTab := List.replicate fullSymbolSetInitialSize none

/-- `realloc` of the pivot table to `size` cells; `none` is a cell not yet written. -/
def realloc (tab : List (Option β)) (size : Nat) : List (Option (Option β)) :=
  (tab.map some).take size ++ List.replicate (size - tab.length) none

/-- Use a table all of whose cells have been written. -/
def initialised (cells : List (Option (Option β))) : Exec (List (Option β)) :=
  match cells.mapM id with
  | some tab => .ok tab
  | none => .error .uninitialised

/-- The cells moved up by `shift` slots, with the size of the table. -/
def shift (set : SymbolTable β) (shift : Nat) : Exec (Nat × List (Option (Option β))) := do
  if shift < set.size then
    let cells ← access .pivotTab
      (Block.move (set.fullSymbolTab.map some) shift 0 (set.size - shift))
    return (set.size, cells)
  else
    let size := if shift < mul32 set.size 2 then mul32 set.size 2 else add32 shift 1
    let cells ← access .pivotTab (Block.move (realloc set.fullSymbolTab size) shift 0 set.size)
    return (size, cells)

/-- What `full_symbol_set_add` does to the table when the new symbol starts below the set. -/
def addBelow (set : SymbolTable β) (cloned : β) (newI0 setI0 : Nat) :
    Exec (SymbolTable β × Nat) := do
  let (size, cells) ← set.shift (setI0 - newI0)
  let cells ← access .pivotTab (Block.fill cells 0 (setI0 - newI0) (some none))
  let cells ← access .pivotTab (Block.store cells 0 [some (some cloned)])
  let tab ← initialised cells
  return ({ size, firstSymbolId := min setI0 newI0, nmbrPackets := add32 set.nmbrPackets 1,
            fullSymbolTab := tab }, newI0 - min setI0 newI0)

/-- A table in which slot `idxPos` exists, with its size. -/
def grow (set : SymbolTable β) (idxPos : Nat) : Exec (Nat × List (Option β)) := do
  if idxPos < set.size then
    return (set.size, set.fullSymbolTab)
  else
    let size := if idxPos < mul32 set.size 2 then mul32 set.size 2 else add32 idxPos 1
    cAssert (idxPos < size)
    let cells ← access .pivotTab
      (Block.fill (realloc set.fullSymbolTab size) set.size (sub32 size set.size) (some none))
    let tab ← initialised cells
    return (size, tab)

/-- What `full_symbol_set_add` does to the table when the new symbol does not start below the
set. -/
def addAbove (set : SymbolTable β) (cloned : β) (newI0 setI0 : Nat) :
    Exec (SymbolTable β × Nat) := do
  let idxPos := newI0 - setI0
  let (size, tab) ← set.grow idxPos
  let tab ← access .pivotTab (Block.store tab idxPos [some cloned])
  return ({ size, firstSymbolId := setI0, nmbrPackets := add32 set.nmbrPackets 1,
            fullSymbolTab := tab }, idxPos)

/-- `full_symbol_set_get_pivot`. -/
def getPivot (set : SymbolTable β) (symbolId : Nat) : Exec (Option β) :=
  if set.firstSymbolId ≤ symbolId ∧ symbolId < add32 set.size set.firstSymbolId then
    access .pivotTab set.fullSymbolTab[symbolId - set.firstSymbolId]?
  else .ok none

/-! ### Tables of full symbols -/

/-- A table of full symbols as a set. -/
def toSet (set : SymbolTable FullSymbol) : FullSymbolSet where
  size := set.size
  firstSymbolId := set.firstSymbolId
  nmbrPackets := set.nmbrPackets
  fullSymbolTab := set.fullSymbolTab

section ToSet

variable (set : SymbolTable FullSymbol) (cloned : FullSymbol) (setI0 : ℕ)

theorem initialisedTab_eq_initialised (cells : RawTab) :
    initialisedTab cells = initialised cells := by
  unfold initialisedTab initialised
  cases cells.mapM id <;> rfl

theorem growTab_toSet (idx : ℕ) : growTab set.toSet idx = set.grow idx := by
  unfold growTab
  simp only [initialisedTab_eq_initialised]
  rfl

theorem fullSymbolSetAddBelow_toSet : fullSymbolSetAddBelow set.toSet cloned setI0 =
    (set.addBelow cloned cloned.firstNonzeroId setI0).map fun r => (r.1.toSet, r.2) := by
  unfold fullSymbolSetAddBelow addBelow
  dsimp only
  have shift_eq : shiftTab set.toSet (setI0 - cloned.firstNonzeroId) =
      set.shift (setI0 - cloned.firstNonzeroId) := rfl
  rw [shift_eq]
  cases set.shift (setI0 - cloned.firstNonzeroId) with
  | error e => rfl
  | ok moved =>
      rw [ok_bind, ok_bind]
      cases access .pivotTab (Block.fill moved.2 0 (setI0 - cloned.firstNonzeroId) (some none)) with
      | error e => rfl
      | ok filled =>
          rw [ok_bind, ok_bind]
          cases access .pivotTab (Block.store filled 0 [some (some cloned)]) with
          | error e => rfl
          | ok cells =>
              rw [ok_bind, ok_bind, initialisedTab_eq_initialised]
              cases initialised cells <;> rfl

theorem fullSymbolSetAddAbove_toSet : fullSymbolSetAddAbove set.toSet cloned setI0 =
    (set.addAbove cloned cloned.firstNonzeroId setI0).map fun r => (r.1.toSet, r.2) := by
  unfold fullSymbolSetAddAbove addAbove
  dsimp only
  rw [growTab_toSet]
  cases set.grow (cloned.firstNonzeroId - setI0) with
  | error e => rfl
  | ok grown =>
      rw [ok_bind, ok_bind]
      cases access .pivotTab
        (Block.store grown.2 (cloned.firstNonzeroId - setI0) [some cloned]) <;> rfl

end ToSet

/-! ### Cells of another type -/

/-- The same table with other cells. -/
def map (f : β → γ) (set : SymbolTable β) : SymbolTable γ where
  size := set.size
  firstSymbolId := set.firstSymbolId
  nmbrPackets := set.nmbrPackets
  fullSymbolTab := set.fullSymbolTab.map (Option.map f)

section Map

variable (f : β → γ) (set : SymbolTable β)

theorem getElem?_map (i : ℕ) : (set.map f).fullSymbolTab[i]? =
    set.fullSymbolTab[i]?.map (Option.map f) := List.getElem?_map

theorem store_map {i : ℕ} (lt : i < set.fullSymbolTab.length) (b : β) :
    Block.store (set.map f).fullSymbolTab i [some (f b)] =
      some ((set.fullSymbolTab.set i (some b)).map (Option.map f)) := by
  have store_eq := Block.store_map (Option.map f) set.fullSymbolTab i [some b]
  rw [Block.store_singleton lt] at store_eq
  exact store_eq

theorem getPivot_map (id : ℕ) : (set.map f).getPivot id = (set.getPivot id).map (Option.map f) := by
  unfold getPivot
  rw [getElem?_map, access_map]
  show (if set.firstSymbolId ≤ id ∧ id < add32 set.size set.firstSymbolId then _ else _) = _
  split <;> rfl

theorem realloc_map (tab : List (Option β)) (size : ℕ) :
    realloc (tab.map (Option.map f)) size =
      (realloc tab size).map (Option.map (Option.map f)) := by
  unfold realloc
  rw [List.map_append, List.map_take, List.map_replicate, List.map_map, List.map_map,
    List.length_map]
  rfl

theorem initialised_map (cells : List (Option (Option β))) :
    initialised (cells.map (Option.map (Option.map f))) =
      (initialised cells).map (List.map (Option.map f)) := by
  have mapM_eq : (cells.map (Option.map (Option.map f))).mapM id =
      (cells.mapM id).map (List.map (Option.map f)) := by
    induction cells with
    | nil => rfl
    | cons cell cells ih =>
        rw [List.map_cons, List.mapM_cons, List.mapM_cons, ih]
        cases cell with
        | none => rfl
        | some slot => cases cells.mapM id <;> rfl
  unfold initialised
  rw [mapM_eq]
  cases cells.mapM id <;> rfl

theorem shift_map (d : ℕ) : (set.map f).shift d =
    (set.shift d).map fun r => (r.1, r.2.map (Option.map (Option.map f))) := by
  unfold shift
  dsimp +instances only [map]
  have some_map : (set.fullSymbolTab.map (Option.map f)).map some =
      (set.fullSymbolTab.map some).map (Option.map (Option.map f)) := by
    rw [List.map_map, List.map_map]
    rfl
  by_cases inside : d < set.size
  · rw [if_pos inside, if_pos inside, some_map, Block.move_map, access_map]
    cases access .pivotTab (Block.move (set.fullSymbolTab.map some) d 0 (set.size - d)) <;> rfl
  · rw [if_neg inside, if_neg inside, realloc_map, Block.move_map, access_map]
    generalize (if d < mul32 set.size 2 then mul32 set.size 2 else add32 d 1) = size
    cases access .pivotTab (Block.move (realloc set.fullSymbolTab size) d 0 set.size) <;> rfl

theorem grow_map (idx : ℕ) : (set.map f).grow idx =
    (set.grow idx).map fun r => (r.1, r.2.map (Option.map f)) := by
  unfold grow
  dsimp +instances only [map]
  by_cases inside : idx < set.size
  · rw [if_pos inside, if_pos inside]
    rfl
  · rw [if_neg inside, if_neg inside]
    generalize (if idx < mul32 set.size 2 then mul32 set.size 2 else add32 idx 1) = size
    have fill_eq : Block.fill (realloc (set.fullSymbolTab.map (Option.map f)) size) set.size
          (sub32 size set.size) (some none) =
        (Block.fill (realloc set.fullSymbolTab size) set.size (sub32 size set.size)
          (some none)).map (List.map (Option.map (Option.map f))) := by
      rw [realloc_map]
      exact Block.fill_map (Option.map (Option.map f)) _ _ _ (some none)
    rw [fill_eq, access_map]
    cases cAssert (idx < size) with
    | error e => rfl
    | ok _ =>
        rw [ok_bind, ok_bind]
        cases access .pivotTab (Block.fill (realloc set.fullSymbolTab size) set.size
          (sub32 size set.size) (some none)) with
        | error e => rfl
        | ok cells =>
            show (initialised (cells.map (Option.map (Option.map f))) >>= _) = _
            rw [initialised_map, ok_bind]
            cases initialised cells <;> rfl

theorem addBelow_map (cloned : β) (newI0 setI0 : ℕ) :
    (set.map f).addBelow (f cloned) newI0 setI0 =
      (set.addBelow cloned newI0 setI0).map fun r => (r.1.map f, r.2) := by
  unfold addBelow
  rw [shift_map]
  cases set.shift (setI0 - newI0) with
  | error e => rfl
  | ok moved =>
      obtain ⟨size, cells⟩ := moved
      have fill_eq := Block.fill_map (Option.map (Option.map f)) cells 0 (setI0 - newI0) (some none)
      show (access .pivotTab (Block.fill (cells.map (Option.map (Option.map f))) 0 (setI0 - newI0)
          (Option.map (Option.map f) (some none))) >>= _) =
        Except.map _ (access .pivotTab (Block.fill cells 0 (setI0 - newI0) (some none)) >>= _)
      rw [fill_eq, access_map]
      cases access .pivotTab (Block.fill cells 0 (setI0 - newI0) (some none)) with
      | error e => rfl
      | ok filled =>
          have store_eq := Block.store_map (Option.map (Option.map f)) filled 0
            [some (some cloned)]
          show (access .pivotTab (Block.store (filled.map (Option.map (Option.map f))) 0
              ([some (some cloned)].map (Option.map (Option.map f)))) >>= _) =
            Except.map _ (access .pivotTab (Block.store filled 0 [some (some cloned)]) >>= _)
          rw [store_eq, access_map]
          cases access .pivotTab (Block.store filled 0 [some (some cloned)]) with
          | error e => rfl
          | ok stored =>
              show (initialised (stored.map (Option.map (Option.map f))) >>= _) =
                Except.map _ (initialised stored >>= _)
              rw [initialised_map]
              cases initialised stored <;> rfl

theorem addAbove_map (cloned : β) (newI0 setI0 : ℕ) :
    (set.map f).addAbove (f cloned) newI0 setI0 =
      (set.addAbove cloned newI0 setI0).map fun r => (r.1.map f, r.2) := by
  unfold addAbove
  dsimp only
  rw [grow_map]
  cases set.grow (newI0 - setI0) with
  | error e => rfl
  | ok grown =>
      obtain ⟨size, tab⟩ := grown
      have store_eq := Block.store_map (Option.map f) tab (newI0 - setI0) [some cloned]
      show (access .pivotTab (Block.store (tab.map (Option.map f)) (newI0 - setI0)
          ([some cloned].map (Option.map f))) >>= _) =
        Except.map _ (access .pivotTab (Block.store tab (newI0 - setI0) [some cloned]) >>= _)
      rw [store_eq, access_map]
      cases access .pivotTab (Block.store tab (newI0 - setI0) [some cloned]) <;> rfl

end Map

/-! ### What the cells point to -/

/-- What the cells of a table point to. -/
def entries (set : SymbolTable β) : Multiset β := (set.fullSymbolTab.reduceOption : List β)

section Entries

variable {set set' : SymbolTable β} {cloned : β} {newI0 setI0 idx : ℕ}

theorem alloc_entries : (alloc : SymbolTable β).entries = 0 := by
  show ((List.replicate fullSymbolSetInitialSize none).reduceOption : List β) = (0 : Multiset β)
  rw [List.reduceOption_replicate_none]
  rfl

/-- A cell is overwritten. -/
theorem reduceOption_set {tab : List (Option β)} {i : ℕ} {old : Option β}
    (at_i : tab[i]? = some old) (new : Option β) :
    ((tab.set i new).reduceOption : Multiset β) + old.toList = tab.reduceOption + new.toList := by
  have lt := (List.getElem?_eq_some_iff.mp at_i).1
  have split : tab = tab.take i ++ [old] ++ tab.drop (i + 1) := by
    rw [← (List.getElem?_eq_some_iff.mp at_i).2, List.take_concat_get' tab i lt,
      List.take_append_drop]
  have overwritten : tab.set i new = tab.take i ++ [new] ++ tab.drop (i + 1) := by
    rw [List.set_eq_take_append_cons_drop, if_pos lt, List.append_assoc]
    rfl
  rw [overwritten]
  conv_rhs => rw [split]
  simp only [List.reduceOption_append, List.reduceOption_singleton, ← Multiset.coe_add]
  abel

/-- The cells of a table that has been reallocated point to what they did. -/
theorem reduceOption_realloc {tab : List (Option β)} {size : ℕ} (le : tab.length ≤ size) :
    ((realloc tab size).map Option.join).reduceOption = tab.reduceOption := by
  have taken : ((tab.map some).take size).map Option.join = tab := by
    rw [List.take_of_length_le (by rw [List.length_map]; exact le), List.map_map]
    exact List.map_id tab
  unfold realloc
  rw [List.map_append, taken, List.map_replicate, List.reduceOption_append]
  show tab.reduceOption ++ (List.replicate _ none).reduceOption = _
  rw [List.reduceOption_replicate_none, List.append_nil]

theorem length_realloc (tab : List (Option β)) (size : ℕ) : (realloc tab size).length = size := by
  unfold realloc
  rw [List.length_append, List.length_take, List.length_map, List.length_replicate]
  omega

theorem initialised_of_ok {cells : List (Option (Option β))} {tab : List (Option β)}
    (ok : initialised cells = .ok tab) : cells = tab.map some := by
  have written : cells.mapM id = some tab := by
    unfold initialised at ok
    cases mapM_eq : cells.mapM id with
    | none =>
        rw [mapM_eq] at ok
        cases ok
    | some tab' =>
        rw [mapM_eq] at ok
        cases ok
        rfl
  clear ok
  induction cells generalizing tab with
  | nil =>
      cases written
      rfl
  | cons cell cells ih =>
      rw [List.mapM_cons] at written
      obtain ⟨slot, slot_eq, rest⟩ := Option.bind_eq_some_iff.mp written
      obtain ⟨slots, slots_eq, result⟩ := Option.bind_eq_some_iff.mp rest
      cases result
      rw [List.map_cons, ← ih slots_eq]
      exact congrArg (· :: cells) slot_eq

/-- The cells that are moved up are those of the table, or of a larger one. -/
theorem shift_of_ok (fits : set.fullSymbolTab.length = set.size) {d size : ℕ}
    {cells : List (Option (Option β))} (ok : set.shift d = .ok (size, cells)) :
    ∃ source n, Block.move source d 0 n = some cells ∧ source.length = size ∧
      (source.map Option.join).reduceOption = set.fullSymbolTab.reduceOption := by
  unfold shift at ok
  by_cases inside : d < set.size
  · rw [if_pos inside] at ok
    obtain ⟨moved, move_eq, result⟩ := bind_eq_ok.mp ok
    cases result
    refine ⟨_, _, access_eq_ok.mp move_eq, by rw [List.length_map, fits], ?_⟩
    rw [List.map_map]
    exact congrArg _ (List.map_id _)
  · rw [if_neg inside] at ok
    dsimp only at ok
    generalize (if d < mul32 set.size 2 then mul32 set.size 2 else add32 d 1) = larger at ok
    obtain ⟨moved, move_eq, result⟩ := bind_eq_ok.mp ok
    cases result
    have move_eq := access_eq_ok.mp move_eq
    obtain ⟨room, -, -⟩ := Block.le_of_move move_eq
    rw [length_realloc, Nat.zero_add] at room
    exact ⟨_, _, move_eq, length_realloc _ _, reduceOption_realloc (by omega)⟩

/-- A symbol added below the set: the table points to it and to what it pointed to, but for what
was pushed past its end. -/
theorem addBelow_entries (fits : set.fullSymbolTab.length = set.size) (below : newI0 < setI0)
    (ok : set.addBelow cloned newI0 setI0 = .ok (set', idx)) :
    (∃ lost, cloned ::ₘ set.entries = set'.entries + lost) ∧
      set'.fullSymbolTab.length = set'.size := by
  unfold addBelow at ok
  obtain ⟨⟨size, cells⟩, shift_eq, ok⟩ := bind_eq_ok.mp ok
  obtain ⟨filled, fill_eq, ok⟩ := bind_eq_ok.mp ok
  obtain ⟨stored, store_eq, ok⟩ := bind_eq_ok.mp ok
  obtain ⟨tab, tab_eq, result⟩ := bind_eq_ok.mp ok
  cases result
  obtain ⟨source, n, move_eq, length, same⟩ := shift_of_ok fits shift_eq
  have filled_eq := Block.fill_of_move move_eq (access_eq_ok.mp fill_eq)
  have stored_eq := initialised_of_ok tab_eq
  obtain ⟨d, step⟩ : ∃ d, setI0 - newI0 = d + 1 := ⟨setI0 - newI0 - 1, by omega⟩
  rw [step] at filled_eq move_eq
  -- The symbol is in the first cell, and the moved cells follow the cleared ones.
  have tab_eq : tab = some cloned :: (List.replicate d none ++
      ((source.map Option.join).take n ++ (source.map Option.join).drop (d + 1 + n))) := by
    have store_eq := access_eq_ok.mp store_eq
    have written := @Block.store_singleton _ filled 0 (some (some cloned))
      (by rw [filled_eq, List.length_append, List.length_replicate]; omega)
    rw [written, filled_eq, List.replicate_succ, List.cons_append, List.set_cons_zero,
      Option.some.injEq, stored_eq] at store_eq
    have joined := congrArg (List.map Option.join) store_eq
    rw [List.map_map, List.map_cons, List.map_append, List.map_append, List.map_take,
      List.map_drop, List.map_replicate] at joined
    exact (List.map_id tab).symm.trans joined.symm
  have split : source.map Option.join = (source.map Option.join).take n ++
      (((source.map Option.join).drop n).take (d + 1) ++
        (source.map Option.join).drop (d + 1 + n)) := by
    rw [Nat.add_comm (d + 1) n, ← List.drop_drop, List.take_append_drop, List.take_append_drop]
  refine ⟨⟨(((source.map Option.join).drop n).take (d + 1)).reduceOption, ?_⟩, ?_⟩
  · show cloned ::ₘ (set.fullSymbolTab.reduceOption : Multiset β) = tab.reduceOption + _
    rw [tab_eq, ← same]
    conv_lhs => rw [split]
    simp only [List.reduceOption_cons_of_some, List.reduceOption_append,
      List.reduceOption_replicate_none, List.nil_append, ← Multiset.cons_coe, ← Multiset.coe_add,
      ← Multiset.singleton_add]
    abel
  · have length_eq := congrArg List.length stored_eq
    rw [List.length_map, Block.length_of_store (access_eq_ok.mp store_eq),
      Block.length_of_store (access_eq_ok.mp fill_eq), (Block.le_of_move move_eq).2.2, length]
      at length_eq
    exact length_eq.symm

/-- A table that grows gets cells for no symbol. -/
theorem grow_of_ok (fits : set.fullSymbolTab.length = set.size) {size : ℕ}
    {tab : List (Option β)} (ok : set.grow idx = .ok (size, tab)) :
    (idx < set.size ∧ size = set.size ∧ tab = set.fullSymbolTab) ∨
      (set.size ≤ idx ∧ idx < size ∧
        tab = set.fullSymbolTab ++ List.replicate (size - set.size) none) := by
  unfold grow at ok
  by_cases inside : idx < set.size
  · rw [if_pos inside] at ok
    cases ok
    exact .inl ⟨inside, rfl, rfl⟩
  rw [if_neg inside] at ok
  dsimp only at ok
  have larger_lt : (if idx < mul32 set.size 2 then mul32 set.size 2 else add32 idx 1) <
      4294967296 := by
    split
    · exact mul32_lt _ _
    · exact add32_lt _ _
  generalize (if idx < mul32 set.size 2 then mul32 set.size 2 else add32 idx 1) = larger
    at ok larger_lt
  obtain ⟨⟨⟩, assert_eq, ok⟩ := bind_eq_ok.mp ok
  obtain ⟨filled, fill_eq, ok⟩ := bind_eq_ok.mp ok
  obtain ⟨written, written_eq, result⟩ := bind_eq_ok.mp ok
  cases result
  have lt : idx < size := by
    by_contra exceeds
    rw [cAssert_of_not exceeds] at assert_eq
    cases assert_eq
  have cells : realloc set.fullSymbolTab size =
      set.fullSymbolTab.map some ++ (List.replicate (size - set.size) none ++ []) := by
    unfold realloc
    rw [List.take_of_length_le (by rw [List.length_map]; omega), fits, List.append_nil]
  have cleared : Block.store
      (set.fullSymbolTab.map some ++ (List.replicate (size - set.size) none ++ [])) set.size
        (List.replicate (size - set.size) (some none)) =
      some (set.fullSymbolTab.map some ++ (List.replicate (size - set.size) (some none) ++ [])) :=
    Block.store_part (by rw [List.length_map, fits])
      (by rw [List.length_replicate, List.length_replicate])
  have fill_eq := access_eq_ok.mp fill_eq
  rw [sub32_of_le (by omega) larger_lt, cells, Block.fill, cleared, Option.some.injEq,
    List.append_nil, initialised_of_ok written_eq] at fill_eq
  have joined := congrArg (List.map Option.join) fill_eq
  rw [List.map_append, List.map_map, List.map_map, List.map_replicate] at joined
  refine .inr ⟨Nat.le_of_not_lt inside, lt, ?_⟩
  exact (List.map_id tab).symm.trans (joined.symm.trans (congrArg (· ++ _) (List.map_id _)))

/-- A symbol added in a slot: the table points to it and to what it pointed to, but for what was
in the slot. -/
theorem addAbove_entries (fits : set.fullSymbolTab.length = set.size)
    (ok : set.addAbove cloned newI0 setI0 = .ok (set', idx)) :
    set'.fullSymbolTab.length = set'.size ∧
    ((newI0 - setI0 < set.size ∧ ∃ old, set.fullSymbolTab[newI0 - setI0]? = some old ∧
        cloned ::ₘ set.entries = set'.entries + (old.toList : Multiset β)) ∨
      (set.size ≤ newI0 - setI0 ∧ cloned ::ₘ set.entries = set'.entries)) := by
  unfold addAbove at ok
  obtain ⟨⟨size, tab⟩, grow_eq, ok⟩ := bind_eq_ok.mp ok
  obtain ⟨stored, store_eq, result⟩ := bind_eq_ok.mp ok
  cases result
  have store_eq := access_eq_ok.mp store_eq
  have overwrite : ∀ old, tab[newI0 - setI0]? = some old →
      cloned ::ₘ (tab.reduceOption : Multiset β) = stored.reduceOption + old.toList := by
    intro old at_idx
    rw [Block.store_singleton (List.getElem?_eq_some_iff.mp at_idx).1] at store_eq
    cases store_eq
    rw [reduceOption_set at_idx, Option.toList_some, Multiset.coe_singleton,
      ← Multiset.singleton_add, add_comm]
  rcases grow_of_ok fits grow_eq with ⟨inside, rfl, rfl⟩ | ⟨outside, lt, rfl⟩
  · refine ⟨(Block.length_of_store store_eq).trans fits, .inl ⟨inside, ?_⟩⟩
    obtain ⟨old, at_idx⟩ : ∃ old, set.fullSymbolTab[newI0 - setI0]? = some old :=
      ⟨_, List.getElem?_eq_getElem (by omega)⟩
    exact ⟨old, at_idx, overwrite old at_idx⟩
  · have empty : (set.fullSymbolTab ++ List.replicate (size - set.size) none)[newI0 - setI0]? =
        some none := by
      rw [List.getElem?_append_right (by omega), List.getElem?_replicate_of_lt (by omega)]
    have points := overwrite none empty
    rw [List.reduceOption_append, List.reduceOption_replicate_none, List.append_nil] at points
    refine ⟨?_, .inr ⟨outside, points.trans (add_zero _)⟩⟩
    show stored.length = size
    rw [Block.length_of_store store_eq, List.length_append, List.length_replicate]
    omega

end Entries

end SymbolTable

end SwifCodec
