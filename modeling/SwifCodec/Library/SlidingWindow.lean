import Mathlib.Data.List.Basic

/-!
A ring of slots that holds the last elements of a history.

The element accepted as number `j` is written in slot `j` modulo the number of slots,
over the element it evicts. `held` and `evicted` split the history; `Holds` says that
the slots agree with it, and `Holds.push` that they still do after one more element.
-/

namespace SwifCodec.Library.SlidingWindow

variable {α : Type*} {w n : ℕ} {history : List α} {a : α}

/-! ### Slots -/

/-- The slot of the oldest element held, after `n` elements. -/
def leftSlot (w n : ℕ) : ℕ := if n < w then 0 else n % w

/-- The slot of the newest element, after `n` elements. -/
def rightSlot (w n : ℕ) : ℕ := if n = 0 then 0 else (n - 1) % w

/-- Two positions that are held together are in different slots. -/
theorem slot_ne {i j : ℕ} (lt : i < j) (near : j < i + w) : i % w ≠ j % w := by
  intro same
  have zero := Nat.sub_mod_eq_zero_of_mod_eq same.symm
  have le := Nat.le_of_dvd (by omega) (Nat.dvd_of_mod_eq_zero zero)
  omega

@[simp] theorem leftSlot_of_lt (filling : n < w) : leftSlot w n = 0 := if_pos filling

@[simp] theorem rightSlot_succ : rightSlot w (n + 1) = n % w := by
  simp [rightSlot]

/-- The left end stays where it is until the ring is full. -/
theorem leftSlot_succ_of_lt (filling : n < w) : leftSlot w (n + 1) = 0 := by
  by_cases room : n + 1 < w
  · exact leftSlot_of_lt room
  · have full : n + 1 = w := by omega
    simp [leftSlot, full]

theorem leftSlot_of_le (full : w ≤ n) : leftSlot w n = n % w := if_neg (by omega)

/-- A full ring overwrites its left end, which moves to the next slot. -/
theorem leftSlot_succ_of_le (full : w ≤ n) : leftSlot w (n + 1) = (leftSlot w n + 1) % w := by
  rw [leftSlot_of_le full, leftSlot_of_le (by omega), Nat.mod_add_mod]

/-- The slots from the left end on are those of the last elements. -/
theorem leftSlot_add (k : ℕ) : (leftSlot w n + k) % w = (n - min n w + k) % w := by
  by_cases filling : n < w
  · rw [leftSlot_of_lt filling, Nat.min_eq_left (Nat.le_of_lt filling), Nat.sub_self]
  · have full : w ≤ n := by omega
    have wraps : (n - w) % w = n % w := by
      conv_rhs => rw [← Nat.sub_add_cancel full, Nat.add_mod_right]
    rw [leftSlot_of_le full, Nat.min_eq_right full, ← wraps, Nat.mod_add_mod]

/-- The last position that was written in a slot. -/
theorem exists_position (pos : 0 < w) {r : ℕ} (lt : r < min n w) :
    ∃ j < n, n ≤ j + w ∧ j % w = r := by
  have below := Nat.mod_lt (n - 1 - r) pos
  have whole := Nat.div_add_mod (n - 1 - r) w
  refine ⟨r + w * ((n - 1 - r) / w), by omega, by omega, ?_⟩
  rw [Nat.add_mul_mod_self_left, Nat.mod_eq_of_lt (by omega)]

/-! ### The elements held -/

/-- The last `w` elements. -/
def held (w : ℕ) (history : List α) : List α := history.drop (history.length - w)

/-- The elements before them. -/
def evicted (w : ℕ) (history : List α) : List α := history.take (history.length - w)

@[simp] theorem length_held : (held w history).length = min history.length w := by
  simp only [held, List.length_drop]
  omega

theorem getElem?_held (k : ℕ) :
    (held w history)[k]? = history[history.length - min history.length w + k]? := by
  rw [held, List.getElem?_drop]
  congr 1
  omega

theorem evicted_of_le (room : history.length ≤ w) : evicted w history = [] := by
  simp [evicted, room]

/-- A full window evicts its oldest element for a new one. -/
theorem evicted_push (full : w ≤ history.length) {oldest : α}
    (first : (held w history)[0]? = some oldest) :
    evicted w (history ++ [a]) = evicted w history ++ [oldest] := by
  rw [getElem?_held, Nat.min_eq_right full, Nat.add_zero] at first
  have next : (history ++ [a]).length - w = history.length - w + 1 := by
    rw [List.length_append, List.length_singleton]
    omega
  obtain ⟨inside, -⟩ := List.getElem?_eq_some_iff.mp first
  rw [evicted, next, List.take_append_of_le_length (by omega), List.take_add_one, first]
  rfl

/-- The history is what was evicted, and then what is held. -/
theorem evicted_append_held (w : ℕ) (history : List α) :
    evicted w history ++ held w history = history := List.take_append_drop _ _

theorem held_map {β : Type*} (f : α → β) : held w (history.map f) = (held w history).map f := by
  rw [held, held, List.length_map, List.map_drop]

/-- An element with a name of its own is held as long as its name was not evicted. -/
theorem mem_held_iff {β : Type*} {name : α → β} (nodup : (history.map name).Nodup) :
    a ∈ held w history ↔ a ∈ history ∧ name a ∉ (evicted w history).map name := by
  have split := evicted_append_held w history
  rw [← split, List.map_append, List.nodup_append] at nodup
  constructor
  · intro is_held
    refine ⟨split ▸ List.mem_append_right _ is_held, fun was_evicted => ?_⟩
    exact nodup.2.2 _ was_evicted _ (List.mem_map_of_mem is_held) rfl
  · rintro ⟨mem, not_evicted⟩
    rw [← split] at mem
    refine (List.mem_append.mp mem).resolve_left fun was_evicted => ?_
    exact not_evicted (List.mem_map_of_mem was_evicted)

/-! ### The contents of the ring -/

/-- The ring holds the last `w` elements of the history. -/
def Holds (w : ℕ) (slots : List (Option α)) (history : List α) : Prop :=
  ∀ j a, history.length ≤ j + w → history[j]? = some a → slots[j % w]? = some (some a)

namespace Holds

variable {slots slots' : List (Option α)}

theorem nil : Holds w slots [] := by
  intro j a _ entry
  simp at entry

/-- Writing the next element over the oldest one. -/
theorem push (holds : Holds w slots history)
    (cells : ∀ i, slots'[i]? =
      if i = history.length % w then some (some a) else slots[i]?) :
    Holds w slots' (history ++ [a]) := by
  intro j b near entry
  rw [List.length_append, List.length_singleton] at near
  rw [cells]
  rcases Nat.lt_or_ge j history.length with old | new
  · rw [List.getElem?_append_left old] at entry
    rw [if_neg (slot_ne old (by omega))]
    exact holds j b (by omega) entry
  · obtain ⟨zero, same⟩ : j - history.length = 0 ∧ a = b := by
      rw [List.getElem?_append_right new, List.getElem?_singleton] at entry
      split at entry
      case isTrue zero => exact ⟨zero, Option.some.inj entry⟩
      case isFalse => cases entry
    have last : j = history.length := by omega
    rw [last, if_pos rfl, same]

/-- The elements held, from the left end on. -/
theorem from_left (holds : Holds w slots history) {k : ℕ}
    (entry : (held w history)[k]? = some a) :
    slots[(leftSlot w history.length + k) % w]? = some (some a) := by
  rw [getElem?_held] at entry
  rw [leftSlot_add]
  exact holds _ a (by omega) entry

/-- Every slot the history has reached holds one of its elements. -/
theorem filled (holds : Holds w slots history) (pos : 0 < w) {r : ℕ}
    (lt : r < min history.length w) : ∃ a ∈ history, slots[r]? = some (some a) := by
  obtain ⟨j, inside, near, slot⟩ := exists_position pos lt
  have written := holds j _ near (List.getElem?_eq_getElem inside)
  rw [slot] at written
  exact ⟨_, List.getElem_mem inside, written⟩

/-- The slots that the history has reached hold the last elements. -/
theorem mem_held_iff_slot (holds : Holds w slots history) (pos : 0 < w) :
    a ∈ held w history ↔ ∃ r < min history.length w, slots[r]? = some (some a) := by
  constructor
  · intro is_held
    obtain ⟨k, entry⟩ := List.getElem?_of_mem is_held
    obtain ⟨inside, -⟩ := List.getElem?_eq_some_iff.mp entry
    rw [length_held] at inside
    rw [getElem?_held] at entry
    refine ⟨_, ?_, holds _ a (by omega) entry⟩
    rcases Nat.lt_or_ge history.length w with filling | full
    · rw [Nat.mod_eq_of_lt (by omega)]
      omega
    · rw [Nat.min_eq_right full]
      exact Nat.mod_lt _ pos
  · rintro ⟨r, lt, slot⟩
    obtain ⟨j, inside, near, rfl⟩ := exists_position pos lt
    have written := holds j _ near (List.getElem?_eq_getElem inside)
    rw [slot] at written
    obtain rfl : a = history[j] := Option.some.inj (Option.some.inj written)
    refine List.mem_of_getElem? (i := j - (history.length - min history.length w)) ?_
    rw [getElem?_held, show history.length - min history.length w +
      (j - (history.length - min history.length w)) = j by omega]
    exact List.getElem?_eq_getElem inside

end Holds

end SwifCodec.Library.SlidingWindow
