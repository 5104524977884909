import Mathlib.Data.List.Range

/-!
Loops with a counter whose bound the rounds may move.

`CountedRun more round next` is the relation of the runs that test `more` before each
round, carry out `round`, and advance the counter by `next`. A run is indexed by the values
of the counter in its rounds. An invariant that bounds the counter wherever the loop goes
on makes the loop end, with consecutive values of the counter.
-/

namespace SwifCodec.Library

variable {σ ε : Type*}

/-- A run of a counted loop, with the counter of each round. -/
inductive CountedRun (more : σ → ℕ → Prop) (round : σ → ℕ → Except ε σ) (next : ℕ → ℕ) :
    ℕ → σ → List ℕ → σ → Prop
  | done {i : ℕ} {s : σ} : ¬ more s i → CountedRun more round next i s [] s
  | step {i : ℕ} {s s' s'' : σ} {is : List ℕ} : more s i → round s i = .ok s' →
      CountedRun more round next (next i) s' is s'' → CountedRun more round next i s (i :: is) s''

variable {more : σ → ℕ → Prop} {round : σ → ℕ → Except ε σ} {next : ℕ → ℕ}

/-- Where an invariant of the rounds bounds the counter by `m`, a loop that starts at `i`
ends after at most `m + 1 - i` rounds. -/
theorem CountedRun.exists_of_bounded {I : σ → Prop} {m : ℕ}
    (bounded : ∀ {s i}, I s → more s i → i ≤ m) (next_eq : ∀ i ≤ m, next i = i + 1)
    (keeps : ∀ {s i}, I s → more s i → ∃ s', round s i = .ok s' ∧ I s') {i : ℕ} {s : σ}
    (init : I s) (le : i ≤ m + 1) :
    ∃ is s', CountedRun more round next i s is s' ∧ I s' ∧ is = List.range' i is.length ∧
      i + is.length ≤ m + 1 := by
  -- The number of values left below the bound decreases.
  obtain ⟨left, left_eq⟩ := Nat.exists_eq_add_of_le le
  induction left generalizing i s with
  | zero =>
      have stop : ¬ more s i := fun go => by
        have := bounded init go
        omega
      exact ⟨[], s, .done stop, init, rfl, le⟩
  | succ left ih =>
      by_cases go : more s i
      · obtain ⟨s', round_eq, init'⟩ := keeps init go
        have next_i := next_eq i (bounded init go)
        obtain ⟨is, s'', run, final, values, inside⟩ := ih init' (i := next i) (by omega) (by omega)
        refine ⟨i :: is, s'', .step go round_eq run, final, ?_, ?_⟩
        · rw [List.length_cons, List.range'_succ, ← next_i, ← values]
        · rw [List.length_cons]
          omega
      · exact ⟨[], s, .done go, init, rfl, le⟩

end SwifCodec.Library
