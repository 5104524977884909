import Mathlib.Data.List.Basic

/-!
Allocated blocks of memory with checked accesses.

A block is the list of its cells. `load`, `store`, `fill` and `move` are the
reads and writes a C program makes through `memcpy`, `memset`, `memmove` and
simple loops; each is undefined when it would touch a cell outside the block.
-/

namespace SwifCodec.Library.Block

variable {α : Type*}

/-- Read `n` cells from position `off`. -/
def load (block : List α) (off n : Nat) : Option (List α) :=
  if off + n ≤ block.length then some ((block.drop off).take n) else none

/-- Write consecutive cells from position `off`. -/
def store (block : List α) (off : Nat) (cells : List α) : Option (List α) :=
  if off + cells.length ≤ block.length then
    some (block.take off ++ cells ++ block.drop (off + cells.length))
  else none

/-- `memset`: write `n` copies of a value. -/
def fill (block : List α) (off n : Nat) (value : α) : Option (List α) :=
  store block off (List.replicate n value)

/-- `memmove` inside one block: all cells are read before the first is written. -/
def move (block : List α) (dst src n : Nat) : Option (List α) :=
  (load block src n).bind (store block dst)

theorem load_eq_some {block : List α} {off n : Nat} (h : off + n ≤ block.length) :
    load block off n = some ((block.drop off).take n) := if_pos h

theorem store_eq_some {block : List α} {off : Nat} {cells : List α}
    (h : off + cells.length ≤ block.length) :
    store block off cells =
      some (block.take off ++ cells ++ block.drop (off + cells.length)) := if_pos h

/-- A store is defined exactly when it stays inside the block. -/
theorem store_eq_none_iff {block : List α} {off : Nat} {cells : List α} :
    store block off cells = none ↔ block.length < off + cells.length := by
  unfold store
  split <;> simp <;> omega

theorem load_eq_none_iff {block : List α} {off n : Nat} :
    load block off n = none ↔ block.length < off + n := by
  unfold load
  split <;> simp <;> omega

theorem length_of_load {block cells : List α} {off n : Nat}
    (h : load block off n = some cells) : cells.length = n := by
  unfold load at h
  split at h
  · cases h
    simp; omega
  · cases h

theorem length_of_store {block block' cells : List α} {off : Nat}
    (h : store block off cells = some block') : block'.length = block.length := by
  unfold store at h
  split at h
  · cases h
    simp; omega
  · cases h

/-- Contents after a store: the written cells inside the range, the old ones outside. -/
theorem getElem?_of_store {block block' cells : List α} {off : Nat}
    (h : store block off cells = some block') (i : Nat) :
    block'[i]? = if off ≤ i ∧ i < off + cells.length then cells[i - off]? else block[i]? := by
  unfold store at h
  split at h
  case isFalse => cases h
  case isTrue fits =>
    cases h
    simp only [List.getElem?_append, List.length_append, List.length_take, List.getElem?_take,
      List.getElem?_drop]
    have off_le : min off block.length = off := by omega
    rw [off_le]
    by_cases lo : i < off
    · rw [if_pos (by omega), if_pos lo, if_pos lo, if_neg (by omega)]
    · by_cases hi : i < off + cells.length
      · rw [if_pos hi, if_neg lo, if_pos ⟨by omega, hi⟩]
      · rw [if_neg hi, if_neg (by omega)]
        congr 1; omega

/-- Overwriting a whole block leaves exactly the written cells. -/
theorem store_all {block cells : List α} (h : cells.length = block.length) :
    store block 0 cells = some cells := by
  rw [store_eq_some (by omega)]
  simp [h]

/-- Overwriting one cell. -/
theorem store_singleton {block : List α} {off : Nat} {a : α} (h : off < block.length) :
    store block off [a] = some (block.set off a) := by
  rw [store_eq_some (by rw [List.length_singleton]; omega), List.set_eq_take_append_cons_drop,
    if_pos h, List.append_assoc]
  rfl

/-- The cells after one is overwritten. -/
theorem getElem?_of_store_singleton {block block' : List α} {off : Nat} {a : α}
    (h : store block off [a] = some block') (i : Nat) :
    block'[i]? = if i = off then some a else block[i]? := by
  rw [getElem?_of_store h]
  by_cases here : i = off
  · subst here
    rw [if_pos (by rw [List.length_singleton]; omega), if_pos rfl, Nat.sub_self]
    rfl
  · rw [if_neg (by rw [List.length_singleton]; omega), if_neg here]

theorem load_all (block : List α) : load block 0 block.length = some block := by
  simp [load]

theorem fill_all {block : List α} {n : Nat} (h : n = block.length) (value : α) :
    fill block 0 n value = some (List.replicate n value) := by
  rw [fill, store_all]
  simpa using h

/-- A block around a part of it. -/
theorem exists_part {block : List α} {off n : Nat} (h : off + n ≤ block.length) :
    ∃ front part back, block = front ++ (part ++ back) ∧ front.length = off ∧ part.length = n := by
  refine ⟨block.take off, (block.drop off).take n, (block.drop off).drop n, ?_, ?_, ?_⟩
  · rw [List.take_append_drop, List.take_append_drop]
  · rw [List.length_take]
    omega
  · rw [List.length_take, List.length_drop]
    omega

/-- Reading a part of a block. -/
theorem load_part {front part back : List α} {off n : Nat} (at_off : front.length = off)
    (length : part.length = n) : load (front ++ (part ++ back)) off n = some part := by
  subst at_off length
  rw [load_eq_some (by simp), List.drop_left, List.take_left]

/-- Overwriting a part of a block. -/
theorem store_part {front part back cells : List α} {off : Nat} (at_off : front.length = off)
    (length : cells.length = part.length) :
    store (front ++ (part ++ back)) off cells = some (front ++ (cells ++ back)) := by
  subst at_off
  have past : front.length + cells.length = (front ++ part).length := by
    rw [List.length_append, length]
  rw [store_eq_some (by simp [length]), List.take_left, past, ← List.append_assoc front part,
    List.drop_left, List.append_assoc]

/-! ### The cells of a block after an access -/

theorem mem_of_load {block cells : List α} {off n : Nat} {a : α}
    (h : load block off n = some cells) (mem : a ∈ cells) : a ∈ block := by
  unfold load at h
  split at h
  · cases h
    exact List.mem_of_mem_drop (List.mem_of_mem_take mem)
  · cases h

/-- A store leaves old cells and written ones. -/
theorem mem_of_store {block block' cells : List α} {off : Nat} {a : α}
    (h : store block off cells = some block') (mem : a ∈ block') : a ∈ block ∨ a ∈ cells := by
  unfold store at h
  split at h
  · cases h
    rcases List.mem_append.mp mem with front | back
    · rcases List.mem_append.mp front with old | written
      · exact .inl (List.mem_of_mem_take old)
      · exact .inr written
    · exact .inl (List.mem_of_mem_drop back)
  · cases h

theorem mem_of_fill {block block' : List α} {off n : Nat} {value a : α}
    (h : fill block off n value = some block') (mem : a ∈ block') : a ∈ block ∨ a = value := by
  rcases mem_of_store h mem with old | written
  · exact .inl old
  · exact .inr (List.eq_of_mem_replicate written)

/-- A move only copies cells. -/
theorem mem_of_move {block block' : List α} {dst src n : Nat} {a : α}
    (h : move block dst src n = some block') (mem : a ∈ block') : a ∈ block := by
  obtain ⟨cells, load_eq, store_eq⟩ := Option.bind_eq_some_iff.mp h
  rcases mem_of_store store_eq mem with old | moved
  · exact old
  · exact mem_of_load load_eq moved

/-- A move that is defined stays inside the block. -/
theorem le_of_move {block moved : List α} {dst src n : Nat}
    (h : move block dst src n = some moved) :
    src + n ≤ block.length ∧ dst + n ≤ block.length ∧ moved.length = block.length := by
  obtain ⟨cells, load_eq, store_eq⟩ := Option.bind_eq_some_iff.mp h
  have length := length_of_load load_eq
  refine ⟨Nat.le_of_not_lt fun lt => ?_, Nat.le_of_not_lt fun lt => ?_, length_of_store store_eq⟩
  · rw [load_eq_none_iff.mpr lt] at load_eq
    cases load_eq
  · rw [store_eq_none_iff.mpr (by rw [length]; exact lt)] at store_eq
    cases store_eq

/-- A part moved to the right of what is then overwritten. -/
theorem fill_of_move {block moved filled : List α} {off n : Nat} {value : α}
    (move_eq : move block off 0 n = some moved) (fill_eq : fill moved 0 off value = some filled) :
    filled = List.replicate off value ++ (block.take n ++ block.drop (off + n)) := by
  obtain ⟨cells, load_eq, store_eq⟩ := Option.bind_eq_some_iff.mp move_eq
  unfold load at load_eq
  split at load_eq
  case isFalse => cases load_eq
  case isTrue n_le =>
    cases load_eq
    rw [List.drop_zero] at store_eq
    unfold store at store_eq
    split at store_eq
    case isFalse => cases store_eq
    case isTrue fits =>
      cases store_eq
      have taken : (block.take n).length = n := List.length_take_of_le (by omega)
      have front : (block.take off).length = off := List.length_take_of_le (by omega)
      unfold fill store at fill_eq
      split at fill_eq
      case isFalse => cases fill_eq
      case isTrue =>
        cases fill_eq
        rw [List.take_zero, List.nil_append, List.length_replicate, Nat.zero_add, taken,
          List.append_assoc, List.drop_left' front]

/-! ### Blocks under a function -/

section Map

variable {β : Type*} (f : α → β) (block : List α) (off n : Nat)

theorem load_map : load (block.map f) off n = (load block off n).map (List.map f) := by
  unfold load
  rw [List.length_map]
  split
  · rw [Option.map_some, List.map_take, List.map_drop]
  · rfl

theorem store_map (cells : List α) :
    store (block.map f) off (cells.map f) = (store block off cells).map (List.map f) := by
  unfold store
  rw [List.length_map, List.length_map]
  split
  · rw [Option.map_some, List.map_append, List.map_append, List.map_take, List.map_drop]
  · rfl

theorem fill_map (value : α) :
    fill (block.map f) off n (f value) = (fill block off n value).map (List.map f) := by
  unfold fill
  rw [← List.map_replicate, store_map]

theorem move_map (src : Nat) :
    move (block.map f) off src n = (move block off src n).map (List.map f) := by
  unfold move
  rw [load_map]
  cases load block src n with
  | none => rfl
  | some cells => exact store_map f block off cells

end Map

end SwifCodec.Library.Block
