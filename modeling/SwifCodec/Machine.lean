import SwifCodec.Library.Block

/-!
How the C code computes: 32-bit unsigned arithmetic and the ways a call can go
wrong. Every modelled function that may stop the program returns an `Exec`.
-/

namespace SwifCodec

/-- The blocks of memory the codec reads and writes. -/
inductive Buffer where
  | symbolCoef
  | symbolData
  | symbolBuf
  | pivotTab
  | coefTab
  | ccTab
  | ewTab
  deriving DecidableEq, Repr

/-- Why a call does not return. -/
inductive Fault where
  /-- an `assert` fails -/
  | assertion
  /-- an access outside the named block -/
  | outOfBounds (buffer : Buffer)
  /-- a slot of the pivot table is used before it was written -/
  | uninitialised
  | nullDereference
  | divisionByZero
  /-- a loop has not ended within its bound -/
  | diverges
  deriving DecidableEq, Repr

/-- The result of running C code. -/
abbrev Exec := Except Fault

/-- `assert(cond)`. -/
def cAssert (cond : Bool) : Exec Unit := if cond then .ok () else .error .assertion

/-- An access to a block, undefined outside it. -/
def access {α : Type} (buffer : Buffer) : Option α → Exec α
  | some a => .ok a
  | none => .error (.outOfBounds buffer)

@[simp] theorem cAssert_true : cAssert true = .ok () := rfl
@[simp] theorem cAssert_false : cAssert false = .error .assertion := rfl
@[simp] theorem access_some {α : Type} (buffer : Buffer) (a : α) :
    access buffer (some a) = .ok a := rfl
@[simp] theorem access_none {α : Type} (buffer : Buffer) :
    access buffer (none : Option α) = .error (.outOfBounds buffer) := rfl

theorem cAssert_of_not {p : Prop} [Decidable p] (h : ¬p) : cAssert p = .error .assertion := by
  rw [decide_eq_false h, cAssert_false]

theorem cAssert_of {cond : Bool} (h : cond = true) : cAssert cond = .ok () := by rw [h]; rfl

@[simp] theorem ok_bind {α β : Type} (a : α) (f : α → Exec β) :
    ((.ok a : Exec α) >>= f) = f a := rfl
@[simp] theorem error_bind {α β : Type} (e : Fault) (f : α → Exec β) :
    ((.error e : Exec α) >>= f) = .error e := rfl
@[simp] theorem pure_eq_ok {α : Type} (a : α) : (pure a : Exec α) = .ok a := rfl

/-- A sequence that returns went through its first part. -/
theorem bind_eq_ok {α β : Type} {x : Exec α} {f : α → Exec β} {b : β} :
    x >>= f = .ok b ↔ ∃ a, x = .ok a ∧ f a = .ok b := by
  cases x with
  | ok a => simp
  | error e => simp

/-- A sequence fails in its first part or in the rest. -/
theorem bind_eq_error {α β : Type} {x : Exec α} {f : α → Exec β} {e : Fault} :
    x >>= f = .error e ↔ x = .error e ∨ ∃ a, x = .ok a ∧ f a = .error e := by
  cases x with
  | ok a => simp
  | error e' => simp

theorem access_eq_ok {α : Type} {buffer : Buffer} {x : Option α} {a : α} :
    access buffer x = .ok a ↔ x = some a := by
  cases x <;> simp

theorem access_map {α β : Type} (f : α → β) (buffer : Buffer) (cell : Option α) :
    access buffer (cell.map f) = (access buffer cell).map f := by
  cases cell <;> rfl

/-- What every round of a loop keeps, the loop keeps. -/
theorem foldlM_keeps {α β : Type} {f : β → α → Exec β} {I : β → Prop}
    (keeps : ∀ b a b', I b → f b a = .ok b' → I b') {l : List α} {b b' : β}
    (ok : l.foldlM f b = .ok b') (init : I b) : I b' := by
  induction l generalizing b with
  | nil =>
      cases ok
      exact init
  | cons a l ih =>
      rw [List.foldlM_cons] at ok
      obtain ⟨next, first, rest⟩ := bind_eq_ok.mp ok
      exact ih rest (keeps b a next init first)

/-- A loop fails in one of its rounds. -/
theorem foldlM_eq_error {α β : Type} {f : β → α → Exec β} {l : List α} {b : β} {e : Fault}
    (fault : l.foldlM f b = .error e) : ∃ b', ∃ a ∈ l, f b' a = .error e := by
  induction l generalizing b with
  | nil => cases fault
  | cons a l ih =>
      rw [List.foldlM_cons] at fault
      rcases bind_eq_error.mp fault with first | ⟨next, -, rest⟩
      · exact ⟨b, a, List.mem_cons_self, first⟩
      · obtain ⟨b', a', mem, eq⟩ := ih rest
        exact ⟨b', a', List.mem_cons_of_mem _ mem, eq⟩

theorem mapM_eq_error {α β : Type} {f : α → Exec β} {l : List α} {e : Fault}
    (fault : l.mapM f = .error e) : ∃ a ∈ l, f a = .error e := by
  induction l with
  | nil => cases fault
  | cons a l ih =>
      rw [List.mapM_cons] at fault
      rcases bind_eq_error.mp fault with head | ⟨b, -, rest⟩
      · exact ⟨a, by simp, head⟩
      · rcases bind_eq_error.mp rest with tail | ⟨bs, -, result⟩
        · obtain ⟨c, mem, fault⟩ := ih tail
          exact ⟨c, by simp [mem], fault⟩
        · cases result

/-- The call makes no access outside the named block. -/
def Spares {α : Type} (buffer : Buffer) (x : Exec α) : Prop := x ≠ .error (.outOfBounds buffer)

namespace Spares

variable {α β : Type} {buffer : Buffer}

theorem ok (a : α) : Spares buffer (.ok a) := nofun

theorem bind {x : Exec α} {f : α → Exec β} (first : Spares buffer x)
    (rest : ∀ a, Spares buffer (f a)) : Spares buffer (x >>= f) := by
  intro fault
  rcases bind_eq_error.mp fault with early | ⟨a, -, late⟩
  · exact first early
  · exact rest a late

theorem cAssert (cond : Bool) : Spares buffer (cAssert cond) := by
  cases cond <;> nofun

theorem access {other : Buffer} (ne : other ≠ buffer) (cell : Option α) :
    Spares buffer (access other cell) := by
  cases cell with
  | none =>
      intro fault
      cases fault
      exact ne rfl
  | some a => exact ok a

theorem foldlM {f : β → α → Exec β} (each : ∀ b a, Spares buffer (f b a)) (l : List α) (b : β) :
    Spares buffer (l.foldlM f b) := by
  intro fault
  obtain ⟨b', a, -, eq⟩ := foldlM_eq_error fault
  exact each b' a eq

theorem mapM {f : α → Exec β} (each : ∀ a, Spares buffer (f a)) (l : List α) :
    Spares buffer (l.mapM f) := by
  intro fault
  obtain ⟨a, -, eq⟩ := mapM_eq_error fault
  exact each a eq

end Spares

/-! ### `uint32_t` arithmetic on values below 2^32 -/

def add32 (a b : Nat) : Nat := (a + b) % 4294967296
def sub32 (a b : Nat) : Nat := (a + 4294967296 - b) % 4294967296
def mul32 (a b : Nat) : Nat := (a * b) % 4294967296

theorem add32_of_lt {a b : Nat} (h : a + b < 4294967296) : add32 a b = a + b :=
  Nat.mod_eq_of_lt h

theorem sub32_of_le {a b : Nat} (h : b ≤ a) (ha : a < 4294967296) : sub32 a b = a - b := by
  unfold sub32; omega

theorem add32_lt (a b : Nat) : add32 a b < 4294967296 := Nat.mod_lt _ (by decide)
theorem mul32_lt (a b : Nat) : mul32 a b < 4294967296 := Nat.mod_lt _ (by decide)

end SwifCodec
