import Mathlib.Algebra.Order.Group.Multiset
import Mathlib.Data.Multiset.MapFold

/-!
Programs that allocate, write and free blocks of memory.

An address is handed out once, so a block that is used or freed after it was freed is never
taken for another. `Heap.Holds` lists the live blocks with their contents, each once; the list
has whatever other blocks there are, so what is said of a program holds next to any other data.

`Simulates` compares a program on a heap with one that computes without it: the program fails
where the other fails, and never by using a block that was freed. Its rules go through the two
programs step by step.
-/

namespace SwifCodec.Library

/-- A heap with contents in `α`: the block at address `p` is the `p`-th that was allocated, and
`none` once it is freed. -/
structure Heap (α : Type) where
  blocks : List (Option α)
  deriving DecidableEq, Repr

namespace Heap

variable {α : Type} {h h' h'' : Heap α} {m : Multiset (ℕ × α)} {p q : ℕ} {a b : α}

def empty : Heap α := ⟨[]⟩

def read (h : Heap α) (p : ℕ) : Option α := h.blocks[p]?.join

/-- A new block, with its address. -/
def alloc (h : Heap α) (a : α) : ℕ × Heap α := (h.blocks.length, ⟨h.blocks ++ [some a]⟩)

def write (h : Heap α) (p : ℕ) (a : α) : Option (Heap α) :=
  (h.read p).map fun _ => ⟨h.blocks.set p (some a)⟩

def free (h : Heap α) (p : ℕ) : Option (Heap α) :=
  (h.read p).map fun _ => ⟨h.blocks.set p none⟩

theorem lt_of_read (eq : h.read p = some a) : p < h.blocks.length := by
  by_contra outside
  rw [read, List.getElem?_eq_none (Nat.le_of_not_lt outside)] at eq
  cases eq

theorem read_alloc (q : ℕ) :
    (h.alloc a).2.read q = if q = h.blocks.length then some a else h.read q := by
  unfold alloc read
  dsimp only
  by_cases last : q = h.blocks.length
  · rw [if_pos last, last, List.getElem?_concat_length]
    rfl
  · rw [if_neg last]
    by_cases old : q < h.blocks.length
    · rw [List.getElem?_append_left old]
    · have outside : (h.blocks ++ [some a]).length ≤ q := by
        rw [List.length_append, List.length_singleton]
        omega
      rw [List.getElem?_eq_none outside, List.getElem?_eq_none (Nat.le_of_not_lt old)]

theorem read_set (lt : p < h.blocks.length) (c : Option α) (q : ℕ) :
    Heap.read ⟨h.blocks.set p c⟩ q = if q = p then c else h.read q := by
  unfold read
  by_cases same : q = p
  · rw [if_pos same, same, List.getElem?_set_self lt]
    rfl
  · rw [if_neg same, List.getElem?_set_ne (Ne.symm same)]

theorem read_write (eq : h.write p a = some h') (q : ℕ) :
    h'.read q = if q = p then some a else h.read q := by
  obtain ⟨b, live, rfl⟩ := Option.map_eq_some_iff.mp eq
  exact read_set (lt_of_read live) _ q

theorem read_free (eq : h.free p = some h') (q : ℕ) :
    h'.read q = if q = p then none else h.read q := by
  obtain ⟨b, live, rfl⟩ := Option.map_eq_some_iff.mp eq
  exact read_set (lt_of_read live) _ q

theorem exists_write (live : h.read p = some b) (a : α) : ∃ h', h.write p a = some h' :=
  ⟨_, by rw [write, live]; rfl⟩

theorem exists_free (live : h.read p = some b) : ∃ h', h.free p = some h' :=
  ⟨_, by rw [free, live]; rfl⟩

/-! ### Live blocks -/

/-- The live blocks are those listed, each once. -/
structure Holds (h : Heap α) (m : Multiset (ℕ × α)) : Prop where
  nodup : (m.map Prod.fst).Nodup
  read : ∀ p a, h.read p = some a ↔ (p, a) ∈ m

theorem holds_empty : (empty : Heap α).Holds 0 :=
  ⟨Multiset.nodup_zero, fun _ _ => iff_of_false nofun (Multiset.notMem_zero _)⟩

/-- A listed block is listed once. -/
theorem Holds.notMem (holds : h.Holds ((p, a) ::ₘ m)) : p ∉ m.map Prod.fst := by
  have nodup := holds.nodup
  rw [Multiset.map_cons, Multiset.nodup_cons] at nodup
  exact nodup.1

theorem Holds.read_cons (holds : h.Holds ((p, a) ::ₘ m)) : h.read p = some a :=
  (holds.read p a).mpr (Multiset.mem_cons_self _ _)

/-- A block is dead exactly when it is not listed. -/
theorem Holds.read_eq_none (holds : h.Holds m) : h.read p = none ↔ p ∉ m.map Prod.fst := by
  rw [Multiset.mem_map, Option.eq_none_iff_forall_not_mem]
  constructor
  · rintro dead ⟨⟨q, a⟩, mem, rfl⟩
    exact dead a ((holds.read q a).mpr mem)
  · intro unlisted a eq
    exact unlisted ⟨(p, a), (holds.read p a).mp eq, rfl⟩

/-- A heap has one list of live blocks. -/
theorem Holds.unique {m' : Multiset (ℕ × α)} (holds : h.Holds m) (holds' : h.Holds m') :
    m = m' := by
  refine (Multiset.Nodup.ext holds.nodup.of_map holds'.nodup.of_map).mpr fun e => ?_
  rw [← holds.read e.1 e.2, holds'.read e.1 e.2]

theorem Holds.alloc (holds : h.Holds m) : (h.alloc a).2.Holds (((h.alloc a).1, a) ::ₘ m) := by
  have unlisted : h.blocks.length ∉ m.map Prod.fst := by
    rw [← holds.read_eq_none, Heap.read, List.getElem?_eq_none le_rfl]
    rfl
  refine ⟨?_, fun q b => ?_⟩
  · rw [Multiset.map_cons, Multiset.nodup_cons]
    exact ⟨unlisted, holds.nodup⟩
  · rw [read_alloc, Multiset.mem_cons]
    by_cases last : q = h.blocks.length
    · subst last
      rw [if_pos rfl, Option.some.injEq]
      constructor
      · rintro rfl
        exact .inl rfl
      · rintro (eq | mem)
        · exact (Prod.mk.inj eq).2.symm
        · exact absurd (Multiset.mem_map_of_mem Prod.fst mem) unlisted
    · rw [if_neg last, holds.read]
      exact ⟨.inr, fun either => either.resolve_left fun eq => last (Prod.mk.inj eq).1⟩

/-- Changing a listed block, or dropping it. -/
theorem Holds.set (holds : h.Holds ((p, a) ::ₘ m)) (c : Option α) :
    Holds ⟨h.blocks.set p c⟩ (c.elim m fun b => (p, b) ::ₘ m) := by
  have unlisted := holds.notMem
  have lt := lt_of_read holds.read_cons
  have nodup := holds.nodup
  rw [Multiset.map_cons, Multiset.nodup_cons] at nodup
  have others : ∀ q b, q ≠ p → (h.read q = some b ↔ (q, b) ∈ m) := fun q b ne => by
    rw [holds.read, Multiset.mem_cons]
    exact ⟨fun either => either.resolve_left fun eq => ne (Prod.mk.inj eq).1, .inr⟩
  have here : ∀ b, (p, b) ∉ m := fun b mem => unlisted (Multiset.mem_map_of_mem Prod.fst mem)
  cases c with
  | none =>
      refine ⟨nodup.2, fun q b => ?_⟩
      rw [read_set lt]
      by_cases same : q = p
      · subst same
        rw [if_pos rfl]
        exact iff_of_false nofun (here b)
      · rw [if_neg same]
        exact others q b same
  | some c =>
      refine ⟨?_, fun q b => ?_⟩
      · rw [Option.elim, Multiset.map_cons, Multiset.nodup_cons]
        exact nodup
      · rw [read_set lt, Option.elim, Multiset.mem_cons]
        by_cases same : q = p
        · subst same
          rw [if_pos rfl, Option.some.injEq]
          constructor
          · rintro rfl
            exact .inl rfl
          · rintro (eq | mem)
            · exact (Prod.mk.inj eq).2.symm
            · exact absurd mem (here b)
        · rw [if_neg same, others q b same]
          exact ⟨.inr, fun either => either.resolve_left fun eq => same (Prod.mk.inj eq).1⟩

theorem Holds.write (holds : h.Holds ((p, a) ::ₘ m)) (b : α) :
    ∃ h', h.write p b = some h' ∧ h'.Holds ((p, b) ::ₘ m) :=
  ⟨_, by rw [Heap.write, holds.read_cons]; rfl, holds.set (some b)⟩

theorem Holds.free (holds : h.Holds ((p, a) ::ₘ m)) :
    ∃ h', h.free p = some h' ∧ h'.Holds m :=
  ⟨_, by rw [Heap.free, holds.read_cons]; rfl, holds.set none⟩

/-! ### Later heaps -/

/-- `h'` comes after `h`: addresses are handed out further on, and what was freed stays freed. -/
structure Later (h h' : Heap α) : Prop where
  length : h.blocks.length ≤ h'.blocks.length
  dead : ∀ p < h.blocks.length, h.read p = none → h'.read p = none

theorem Later.refl (h : Heap α) : h.Later h := ⟨le_rfl, fun _ _ dead => dead⟩

theorem Later.trans (first : h.Later h') (second : h'.Later h'') : h.Later h'' :=
  ⟨first.length.trans second.length, fun p lt dead =>
    second.dead p (lt.trans_le first.length) (first.dead p lt dead)⟩

theorem later_alloc (h : Heap α) (a : α) : h.Later (h.alloc a).2 := by
  refine ⟨?_, fun p lt dead => ?_⟩
  · show h.blocks.length ≤ (h.blocks ++ [some a]).length
    rw [List.length_append]
    exact Nat.le_add_right _ _
  · rw [read_alloc, if_neg lt.ne, dead]

theorem later_set (live : (h.read p).isSome) (c : Option α) : h.Later ⟨h.blocks.set p c⟩ := by
  obtain ⟨a, eq⟩ := Option.isSome_iff_exists.mp live
  refine ⟨(List.length_set).ge, fun q lt dead => ?_⟩
  rw [read_set (lt_of_read eq), if_neg, dead]
  rintro rfl
  rw [eq] at dead
  cases dead

theorem later_write (eq : h.write p a = some h') : h.Later h' := by
  obtain ⟨b, read, rfl⟩ := Option.map_eq_some_iff.mp eq
  exact later_set (Option.isSome_iff_exists.mpr ⟨b, read⟩) _

theorem later_free (eq : h.free p = some h') : h.Later h' := by
  obtain ⟨b, read, rfl⟩ := Option.map_eq_some_iff.mp eq
  exact later_set (Option.isSome_iff_exists.mpr ⟨b, read⟩) _

end Heap

/-! ### Programs -/

/-- Why a program on a heap stops: it fails by itself, or uses a block that was freed. -/
inductive HeapFault (ε : Type) where
  | fault (e : ε)
  | useAfterFree
  | doubleFree
  deriving DecidableEq, Repr

/-- A program on a heap with contents in `α`. -/
abbrev HeapExec (α ε : Type) : Type → Type := StateT (Heap α) (Except (HeapFault ε))

namespace HeapExec

variable {α ε β γ : Type} {h : Heap α}

def read (p : ℕ) : HeapExec α ε α := fun h =>
  match h.read p with
  | some a => .ok (a, h)
  | none => .error .useAfterFree

def alloc (a : α) : HeapExec α ε ℕ := fun h => .ok (h.alloc a)

def write (p : ℕ) (a : α) : HeapExec α ε Unit := fun h =>
  match h.write p a with
  | some h' => .ok ((), h')
  | none => .error .useAfterFree

def free (p : ℕ) : HeapExec α ε Unit := fun h =>
  match h.free p with
  | some h' => .ok ((), h')
  | none => .error .doubleFree

/-- Read a block of an earlier moment. -/
def readIn (earlier : Heap α) (p : ℕ) : HeapExec α ε α := fun h =>
  match earlier.read p with
  | some a => .ok (a, h)
  | none => .error .useAfterFree

/-- The heap as it is. -/
def heap : HeapExec α ε (Heap α) := fun h => .ok (h, h)

/-- A computation that does not use the heap. -/
def lift (x : Except ε β) : HeapExec α ε β := fun h =>
  match x with
  | .ok b => .ok (b, h)
  | .error e => .error (.fault e)

/-- A part of a program with faults of its own, as faults of the program. -/
def mapFault {ε' : Type} (f : ε → ε') (x : HeapExec α ε β) : HeapExec α ε' β := fun h =>
  match x h with
  | .ok r => .ok r
  | .error (.fault e) => .error (.fault (f e))
  | .error .useAfterFree => .error .useAfterFree
  | .error .doubleFree => .error .doubleFree

theorem bind_ok {x : HeapExec α ε β} {f : β → HeapExec α ε γ} {b : β} {h' : Heap α}
    (ok : x h = .ok (b, h')) : (x >>= f) h = f b h' := by
  show (x h >>= fun r => f r.1 r.2) = _
  rw [ok]
  rfl

theorem bind_error {x : HeapExec α ε β} {f : β → HeapExec α ε γ} {e : HeapFault ε}
    (fault : x h = .error e) : (x >>= f) h = .error e := by
  show (x h >>= fun r => f r.1 r.2) = _
  rw [fault]
  rfl

/-- A sequence that ends went through its first part. -/
theorem bind_eq_ok {x : HeapExec α ε β} {f : β → HeapExec α ε γ} {r : γ × Heap α} :
    (x >>= f) h = .ok r ↔ ∃ b h', x h = .ok (b, h') ∧ f b h' = .ok r := by
  constructor
  · intro ok
    cases first : x h with
    | error e =>
        rw [bind_error first] at ok
        cases ok
    | ok s =>
        rw [bind_ok first] at ok
        exact ⟨s.1, s.2, rfl, ok⟩
  · rintro ⟨b, h', first, rest⟩
    rw [bind_ok first, rest]

theorem lift_eq_ok {x : Except ε β} {r : β × Heap α} :
    HeapExec.lift x h = .ok r ↔ x = .ok r.1 ∧ r.2 = h := by
  unfold lift
  cases x with
  | error e => exact iff_of_false nofun fun both => nomatch both.1
  | ok b =>
      constructor
      · intro eq
        cases eq
        exact ⟨rfl, rfl⟩
      · rintro ⟨eq, rfl⟩
        cases eq
        rfl

/-- Programs that leave the heap, one for each item of a list: all of them end, or the sequence
fails as one of them does. -/
theorem mapM_cases {δ : Type} {f : δ → HeapExec α ε β} {e : HeapFault ε} {R : δ → β → Prop}
    {fails : δ → Prop} (ds : List δ)
    (each : ∀ d ∈ ds, (∃ b, f d h = .ok (b, h) ∧ R d b) ∨ (f d h = .error e ∧ fails d)) :
    (∃ bs, ds.mapM f h = .ok (bs, h) ∧ List.Forall₂ R ds bs) ∨
      (ds.mapM f h = .error e ∧ ∃ d ∈ ds, fails d) := by
  induction ds with
  | nil => exact .inl ⟨[], rfl, .nil⟩
  | cons d ds ih =>
      rw [List.mapM_cons]
      rcases each d List.mem_cons_self with ⟨b, ok, related⟩ | ⟨error, failed⟩
      · rw [bind_ok ok]
        rcases ih fun d' mem => each d' (List.mem_cons_of_mem d mem) with
          ⟨bs, rest, all⟩ | ⟨rest, d', mem, failed⟩
        · rw [bind_ok rest]
          exact .inl ⟨b :: bs, rfl, .cons related all⟩
        · rw [bind_error rest]
          exact .inr ⟨rfl, d', List.mem_cons_of_mem d mem, failed⟩
      · rw [bind_error error]
        exact .inr ⟨rfl, d, List.mem_cons_self, failed⟩

end HeapExec

/-! ### Simulation -/

/-- Started on `h`, the program `x` does what `y` does without a heap: it fails where `y` fails,
and ends where `y` ends, on a later heap and with results that `post` relates. -/
def Simulates {α ε β γ : Type} (h : Heap α) (x : HeapExec α ε β) (y : Except ε γ)
    (post : β → Heap α → γ → Prop) : Prop :=
  match y with
  | .error e => x h = .error (.fault e)
  | .ok c => ∃ b h', x h = .ok (b, h') ∧ h.Later h' ∧ post b h' c

namespace Simulates

variable {α ε β β' γ γ' : Type} {h h' : Heap α} {m : Multiset (ℕ × α)} {p : ℕ} {a : α}
  {x : HeapExec α ε β} {y : Except ε γ} {f : β → HeapExec α ε β'} {g : γ → Except ε γ'}
  {post : β → Heap α → γ → Prop} {post' : β' → Heap α → γ' → Prop}

theorem pure {b : β} {c : γ} (related : post b h c) :
    Simulates h (Pure.pure b : HeapExec α ε β) (.ok c) post :=
  ⟨b, h, rfl, .refl h, related⟩

theorem mono {post₁ : β → Heap α → γ → Prop} (sim : Simulates h x y post)
    (weaken : ∀ b h' c, h.Later h' → y = .ok c → post b h' c → post₁ b h' c) :
    Simulates h x y post₁ := by
  cases y with
  | error e => exact sim
  | ok c =>
      obtain ⟨b, h', ok, later, related⟩ := sim
      exact ⟨b, h', ok, later, weaken b h' c later rfl related⟩

/-- Two programs in sequence. -/
theorem bind (first : Simulates h x y post)
    (rest : ∀ b h' c, h.Later h' → y = .ok c → post b h' c → Simulates h' (f b) (g c) post') :
    Simulates h (x >>= f) (y >>= g) post' := by
  cases y with
  | error e => exact HeapExec.bind_error first
  | ok c =>
      obtain ⟨b, h', ok, later, related⟩ := first
      have next := rest b h' c later rfl related
      show Simulates h (x >>= f) (g c) post'
      cases result : g c with
      | error e =>
          rw [result] at next
          show (x >>= f) h = _
          rw [HeapExec.bind_ok ok]
          exact next
      | ok c' =>
          rw [result] at next
          obtain ⟨b', h'', ok', later', related'⟩ := next
          exact ⟨b', h'', by rw [HeapExec.bind_ok ok]; exact ok', later.trans later', related'⟩

/-- A step that the computation without a heap does not take. -/
theorem step {b : β} {y : Except ε γ'} (ok : x h = .ok (b, h')) (later : h.Later h')
    (rest : Simulates h' (f b) y post') : Simulates h (x >>= f) y post' := by
  cases y with
  | error e =>
      show (x >>= f) h = _
      rw [HeapExec.bind_ok ok]
      exact rest
  | ok c =>
      obtain ⟨b', h'', ok', later', related⟩ := rest
      exact ⟨b', h'', by rw [HeapExec.bind_ok ok]; exact ok', later.trans later', related⟩

theorem lift (y : Except ε γ) :
    Simulates h (HeapExec.lift y) y fun c h' c' => c' = c ∧ h' = h := by
  cases y with
  | error e => rfl
  | ok c => exact ⟨c, h, rfl, .refl h, rfl, rfl⟩

/-- A computation that is seen through a map. -/
theorem lift_view {z : Except ε β} {g : β → γ} (view : y = z.map g) :
    Simulates h (HeapExec.lift z) y fun b h' c => h' = h ∧ z = .ok b ∧ c = g b := by
  subst view
  cases z with
  | error e => rfl
  | ok b => exact ⟨b, h, rfl, .refl h, rfl, rfl, rfl⟩

/-- A part whose faults are faults of the program. -/
theorem mapFault {ε' : Type} (sim : Simulates h x y post) (f : ε → ε') :
    Simulates h (x.mapFault f) (y.mapError f) post := by
  cases y with
  | error e =>
      have fault : x h = .error (.fault e) := sim
      show x.mapFault f h = _
      unfold HeapExec.mapFault
      rw [fault]
  | ok c =>
      obtain ⟨b, h', ok, later, related⟩ := sim
      exact ⟨b, h', by unfold HeapExec.mapFault; rw [ok], later, related⟩

/-- The result of the program is the one it has on the heap. -/
theorem result (sim : Simulates h x y post) :
    Simulates h x y fun b h' c => post b h' c ∧ x h = .ok (b, h') := by
  cases y with
  | error e => exact sim
  | ok c =>
      obtain ⟨b, h', ok, later, related⟩ := sim
      exact ⟨b, h', ok, later, related, ok⟩

/-- Two results of one computation. -/
theorem lift_map {δ : Type} (z : Except ε δ) (f : δ → β) (g : δ → γ) :
    Simulates h (HeapExec.lift (z.map f)) (z.map g) fun b h' c =>
      h' = h ∧ ∃ d, z = .ok d ∧ b = f d ∧ c = g d := by
  cases z with
  | error e => rfl
  | ok d => exact ⟨f d, h, rfl, .refl h, rfl, d, rfl, rfl, rfl⟩

/-- A computation whose result is then put on the heap. -/
theorem lift_bind {f : γ → HeapExec α ε β}
    (rest : ∀ c, y = .ok c → Simulates h (f c) (.ok c) post) :
    Simulates h (HeapExec.lift y >>= f) y post := by
  cases y with
  | error e => exact HeapExec.bind_error rfl
  | ok c => exact step rfl (.refl h) (rest c rfl)

theorem alloc_last {c : γ} {post : ℕ → Heap α → γ → Prop} (holds : h.Holds m)
    (related : ∀ p h', h.blocks.length ≤ p → h'.Holds ((p, a) ::ₘ m) → post p h' c) :
    Simulates h (HeapExec.alloc a : HeapExec α ε ℕ) (.ok c) post :=
  ⟨_, _, rfl, h.later_alloc a, related _ _ le_rfl holds.alloc⟩

theorem write_last {b : α} {c : γ} {post : Unit → Heap α → γ → Prop}
    (holds : h.Holds ((p, a) ::ₘ m)) (related : ∀ h', h'.Holds ((p, b) ::ₘ m) → post () h' c) :
    Simulates h (HeapExec.write p b : HeapExec α ε Unit) (.ok c) post := by
  obtain ⟨h', eq, holds'⟩ := holds.write b
  exact ⟨(), h', by unfold HeapExec.write; rw [eq], Heap.later_write eq, related h' holds'⟩

section Step

variable {y : Except ε γ'}

theorem read {f : α → HeapExec α ε β'} (live : h.read p = some a)
    (rest : Simulates h (f a) y post') : Simulates h (HeapExec.read p >>= f) y post' :=
  step (by unfold HeapExec.read; rw [live]) (.refl h) rest

theorem readIn {earlier : Heap α} {f : α → HeapExec α ε β'} (live : earlier.read p = some a)
    (rest : Simulates h (f a) y post') : Simulates h (HeapExec.readIn earlier p >>= f) y post' :=
  step (by unfold HeapExec.readIn; rw [live]) (.refl h) rest

theorem heap {f : Heap α → HeapExec α ε β'} (rest : Simulates h (f h) y post') :
    Simulates h (HeapExec.heap >>= f) y post' :=
  step rfl (.refl h) rest

/-- The address of a new block was not used before. -/
theorem alloc {f : ℕ → HeapExec α ε β'} (holds : h.Holds m)
    (rest : ∀ p h', h.blocks.length ≤ p → h.Later h' → h'.Holds ((p, a) ::ₘ m) →
      Simulates h' (f p) y post') : Simulates h (HeapExec.alloc a >>= f) y post' :=
  step rfl (h.later_alloc a) (rest _ _ le_rfl (h.later_alloc a) holds.alloc)

theorem write {f : Unit → HeapExec α ε β'} {b : α} (holds : h.Holds ((p, a) ::ₘ m))
    (rest : ∀ h', h.Later h' → h'.Holds ((p, b) ::ₘ m) → Simulates h' (f ()) y post') :
    Simulates h (HeapExec.write p b >>= f) y post' := by
  obtain ⟨h', eq, holds'⟩ := holds.write b
  exact step (by unfold HeapExec.write; rw [eq]) (Heap.later_write eq)
    (rest h' (Heap.later_write eq) holds')

theorem free {f : Unit → HeapExec α ε β'} (holds : h.Holds ((p, a) ::ₘ m))
    (rest : ∀ h', h.Later h' → h'.Holds m → Simulates h' (f ()) y post') :
    Simulates h (HeapExec.free p >>= f) y post' := by
  obtain ⟨h', eq, holds'⟩ := holds.free
  exact step (by unfold HeapExec.free; rw [eq]) (Heap.later_free eq)
    (rest h' (Heap.later_free eq) holds')

/-- Writing a live block, whatever else is live. -/
theorem write_live {f : Unit → HeapExec α ε β'} {b : α} (live : h.read p = some a)
    (rest : ∀ h', h.Later h' → (∀ q, h'.read q = if q = p then some b else h.read q) →
      Simulates h' (f ()) y post') : Simulates h (HeapExec.write p b >>= f) y post' := by
  obtain ⟨h', eq⟩ := Heap.exists_write live b
  exact step (by unfold HeapExec.write; rw [eq]) (Heap.later_write eq)
    (rest h' (Heap.later_write eq) (Heap.read_write eq))

/-- Freeing a live block, whatever else is live. -/
theorem free_live {f : Unit → HeapExec α ε β'} (live : h.read p = some a)
    (rest : ∀ h', h.Later h' → (∀ q, h'.read q = if q = p then none else h.read q) →
      Simulates h' (f ()) y post') : Simulates h (HeapExec.free p >>= f) y post' := by
  obtain ⟨h', eq⟩ := Heap.exists_free live
  exact step (by unfold HeapExec.free; rw [eq]) (Heap.later_free eq)
    (rest h' (Heap.later_free eq) (Heap.read_free eq))

end Step

/-- A loop, with what its rounds keep. -/
theorem foldlM {f : β → ℕ → HeapExec α ε β} {g : γ → ℕ → Except ε γ}
    {I : ℕ → β → Heap α → γ → Prop} {n : ℕ} {b : β} {c : γ} (init : I 0 b h c)
    (round : ∀ i < n, ∀ b h' c, h.Later h' → I i b h' c →
      Simulates h' (f b i) (g c i) (I (i + 1))) :
    Simulates h ((List.range n).foldlM f b) ((List.range n).foldlM g c) (I n) := by
  induction n with
  | zero => exact pure init
  | succ n ih =>
      rw [List.range_succ, List.foldlM_append, List.foldlM_append]
      refine (ih fun i lt => round i (lt.trans (Nat.lt_succ_self n))).bind
        fun b' h' c' later _ kept => ?_
      rw [List.foldlM_cons, List.foldlM_cons]
      refine (round n (Nat.lt_succ_self n) b' h' c' later kept).bind
        fun b'' h'' c'' _ _ kept' => ?_
      exact pure kept'

/-- A loop over the items of a list, with what a round keeps. -/
theorem foldlM_list {δ : Type} {f : β → δ → HeapExec α ε β} {g : γ → δ → Except ε γ}
    {I : β → Heap α → γ → Prop} {b : β} {c : γ} (ds : List δ) (init : I b h c)
    (round : ∀ d b h' c, I b h' c → Simulates h' (f b d) (g c d) I) :
    Simulates h (ds.foldlM f b) (ds.foldlM g c) I := by
  induction ds generalizing h b c with
  | nil => exact pure init
  | cons d ds ih =>
      rw [List.foldlM_cons, List.foldlM_cons]
      exact (round d b h c init).bind fun b' h' c' _ _ kept => ih kept

/-- A program for each item of a list, that leaves the heap. -/
theorem mapM {δ : Type} {f : δ → HeapExec α ε β} {g : δ → Except ε γ} {R : δ → β → γ → Prop}
    (ds : List δ) (each : ∀ d ∈ ds, Simulates h (f d) (g d) fun b h' c => h' = h ∧ R d b c) :
    Simulates h (ds.mapM f) (ds.mapM g) fun bs h' cs =>
      h' = h ∧ ∃ ts : List (δ × β × γ), ds = ts.map (·.1) ∧ bs = ts.map (·.2.1) ∧
        cs = ts.map (·.2.2) ∧ ∀ t ∈ ts, R t.1 t.2.1 t.2.2 := by
  induction ds with
  | nil => exact pure ⟨rfl, [], rfl, rfl, rfl, nofun⟩
  | cons d ds ih =>
      rw [List.mapM_cons, List.mapM_cons]
      refine (each d (List.mem_cons_self)).bind fun b h₁ c _ _ related => ?_
      obtain ⟨rfl, related⟩ := related
      refine (ih fun d mem => each d (List.mem_cons_of_mem _ mem)).bind
        fun bs h₂ cs _ _ others => ?_
      obtain ⟨rfl, ts, rfl, rfl, rfl, all⟩ := others
      exact pure ⟨rfl, (d, b, c) :: ts, rfl, rfl, rfl, List.forall_mem_cons.mpr ⟨related, all⟩⟩

/-- A program that ends does what the computation does. -/
theorem of_ok {b : β} (sim : Simulates h x y post) (ok : x h = .ok (b, h')) :
    ∃ c, y = .ok c ∧ h.Later h' ∧ post b h' c := by
  cases y with
  | error e =>
      have fault : x h = .error (.fault e) := sim
      rw [fault] at ok
      cases ok
  | ok c =>
      obtain ⟨b', h'', ok', later, related⟩ := sim
      rw [ok'] at ok
      cases ok
      exact ⟨c, rfl, later, related⟩

/-- A program fails exactly as the computation does. -/
theorem error_iff (sim : Simulates h x y post) {e : HeapFault ε} :
    x h = .error e ↔ ∃ e', e = .fault e' ∧ y = .error e' := by
  cases y with
  | error e' =>
      have fault : x h = .error (.fault e') := sim
      rw [fault]
      constructor
      · intro eq
        cases eq
        exact ⟨e', rfl, rfl⟩
      · rintro ⟨e'', rfl, eq⟩
        cases eq
        rfl
  | ok c =>
      obtain ⟨b, h', ok, -⟩ := sim
      rw [ok]
      exact iff_of_false nofun (by rintro ⟨e', -, eq⟩; cases eq)

end Simulates

end SwifCodec.Library
