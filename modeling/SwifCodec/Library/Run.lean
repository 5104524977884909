import Mathlib.Data.List.Basic

/-!
Runs of a fallible step function.

A step consumes one call and yields the next state with the outputs it emits, or
fails. `run` executes a list of calls; `Steps step meets` is the relation of the
runs whose every step succeeds and meets a condition on the state before it, the
call and the state after it. Invariants of the steps are invariants of the runs.
-/

namespace SwifCodec.Library

variable {σ κ ω ε : Type*}

/-- Execute calls in order, collecting the outputs, until one fails. -/
def run (step : σ → κ → Except ε (σ × List ω)) : σ → List κ → Except ε (σ × List ω)
  | s, [] => .ok (s, [])
  | s, c :: cs =>
      match step s c with
      | .error e => .error e
      | .ok (s', os) =>
          match run step s' cs with
          | .error e => .error e
          | .ok (s'', os') => .ok (s'', os ++ os')

/-- Successful runs whose every step meets a condition. -/
inductive Steps (step : σ → κ → Except ε (σ × List ω)) (meets : σ → κ → σ → Prop)
    (s : σ) : List κ → σ → List ω → Prop
  | nil : Steps step meets s [] s []
  | snoc {s' s'' : σ} {cs : List κ} {c : κ} {os os' : List ω} :
      Steps step meets s cs s' os → step s' c = .ok (s'', os') → meets s' c s'' →
      Steps step meets s (cs ++ [c]) s'' (os ++ os')

/-- Execute calls in order, also checking the condition of each step. -/
def checkedRun (step : σ → κ → Except ε (σ × List ω)) (meets : σ → κ → σ → Prop)
    [∀ s c s', Decidable (meets s c s')] : σ → List κ → Option (σ × List ω)
  | s, [] => some (s, [])
  | s, c :: cs =>
      match step s c with
      | .error _ => none
      | .ok (s', os) =>
          if meets s c s' then
            (checkedRun step meets s' cs).map fun (s'', os') => (s'', os ++ os')
          else none

variable {step : σ → κ → Except ε (σ × List ω)} {meets meets' : σ → κ → σ → Prop}

namespace Steps

/-- An invariant kept by every step that meets the condition holds after every
such run. -/
theorem invariant {I : σ → Prop}
    (keeps : ∀ {s c s' os}, I s → step s c = .ok (s', os) → meets s c s' → I s')
    {s s' : σ} {cs : List κ} {os : List ω} (steps : Steps step meets s cs s' os) (init : I s) :
    I s' := by
  induction steps with
  | nil => exact init
  | snoc _ ok cond ih => exact keeps ih ok cond

/-- Runs compose. -/
theorem append {s s' s'' : σ} {cs cs' : List κ} {os os' : List ω}
    (first : Steps step meets s cs s' os) (second : Steps step meets s' cs' s'' os') :
    Steps step meets s (cs ++ cs') s'' (os ++ os') := by
  induction second with
  | nil => simpa using first
  | snoc _ ok cond ih =>
      rw [← List.append_assoc, ← List.append_assoc]
      exact ih.snoc ok cond

theorem single {s s' : σ} {c : κ} {os : List ω} (ok : step s c = .ok (s', os))
    (cond : meets s c s') : Steps step meets s [c] s' os := by
  simpa using Steps.nil.snoc ok cond

/-- A run splits at any point of its calls. -/
theorem split {s s'' : σ} {cs cs' : List κ} {os : List ω}
    (steps : Steps step meets s (cs ++ cs') s'' os) :
    ∃ s' os₁ os₂, Steps step meets s cs s' os₁ ∧ Steps step meets s' cs' s'' os₂ ∧
      os = os₁ ++ os₂ := by
  generalize hall : cs ++ cs' = all at steps
  induction steps generalizing cs' with
  | nil =>
      obtain ⟨rfl, rfl⟩ := List.append_eq_nil_iff.mp hall
      exact ⟨s, [], [], .nil, .nil, rfl⟩
  | @snoc m e ds d o o' before ok cond ih =>
      rcases List.eq_nil_or_concat cs' with rfl | ⟨init, last, rfl⟩
      · rw [List.append_nil] at hall
        subst hall
        exact ⟨e, o ++ o', [], before.snoc ok cond, .nil, (List.append_nil _).symm⟩
      · rw [List.concat_eq_append, ← List.append_assoc] at hall
        obtain ⟨rfl, eq⟩ := List.append_inj' hall rfl
        cases eq
        obtain ⟨s', o₁, o₂, h₁, h₂, rfl⟩ := ih rfl
        refine ⟨s', o₁, o₂ ++ o', h₁, ?_, List.append_assoc _ _ _⟩
        rw [List.concat_eq_append]
        exact h₂.snoc ok cond

/-- The last call of a run. -/
theorem split_last {s s'' : σ} {cs : List κ} {c : κ} {os : List ω}
    (steps : Steps step meets s (cs ++ [c]) s'' os) :
    ∃ s' os₁ os₂, Steps step meets s cs s' os₁ ∧ step s' c = .ok (s'', os₂) ∧
      meets s' c s'' ∧ os = os₁ ++ os₂ := by
  generalize hall : cs ++ [c] = all at steps
  cases steps with
  | nil => simp at hall
  | snoc before ok cond =>
      obtain ⟨rfl, eq⟩ := List.append_inj' hall rfl
      cases eq
      exact ⟨_, _, _, before, ok, cond, rfl⟩

/-- A run of one call is a step. -/
theorem single_inv {s s' : σ} {c : κ} {os : List ω} (steps : Steps step meets s [c] s' os) :
    step s c = .ok (s', os) ∧ meets s c s' := by
  rw [← List.nil_append [c]] at steps
  obtain ⟨m, os₁, os₂, start, ok, cond, rfl⟩ := steps.split_last
  generalize hnil : ([] : List κ) = none at start
  cases start with
  | nil => exact ⟨ok, cond⟩
  | snoc _ _ _ => simp at hnil

/-- A run is determined by its calls. -/
theorem deterministic {s s₁ s₂ : σ} {cs : List κ} {os₁ os₂ : List ω}
    (first : Steps step meets s cs s₁ os₁) (second : Steps step meets' s cs s₂ os₂) :
    s₁ = s₂ ∧ os₁ = os₂ := by
  induction first generalizing s₂ os₂ with
  | nil =>
      generalize hall : [] = all at second
      cases second with
      | nil => exact ⟨rfl, rfl⟩
      | snoc _ _ _ => simp at hall
  | snoc _ ok _ ih =>
      obtain ⟨m, o₁, o₂, before, ok', -, rfl⟩ := second.split_last
      obtain ⟨rfl, rfl⟩ := ih before
      rw [ok] at ok'
      cases ok'
      exact ⟨rfl, rfl⟩

/-- A relation that steps keep, call by call and output by output, relates whole runs. -/
theorem simulate {σ' κ' ω' : Type*} {step' : σ' → κ' → Except ε (σ' × List ω')}
    {R : σ → σ' → Prop} {f : κ → κ'} {g : ω → ω'}
    (sim : ∀ {s s' c m os}, R s s' → step s c = .ok (m, os) → meets s c m →
      ∃ m', step' s' (f c) = .ok (m', os.map g) ∧ R m m')
    {s m : σ} {s' : σ'} {cs : List κ} {os : List ω} (steps : Steps step meets s cs m os)
    (init : R s s') :
    ∃ m', Steps step' (fun _ _ _ => True) s' (cs.map f) m' (os.map g) ∧ R m m' := by
  induction steps with
  | nil => exact ⟨s', .nil, init⟩
  | snoc _ ok cond ih =>
      obtain ⟨m', before, related⟩ := ih
      obtain ⟨e', ok', related'⟩ := sim related ok cond
      refine ⟨e', ?_, related'⟩
      rw [List.map_append, List.map_append]
      exact before.snoc ok' trivial

theorem mono (weaken : ∀ {s c s'}, meets s c s' → meets' s c s') {s s' : σ} {cs : List κ}
    {os : List ω} (steps : Steps step meets s cs s' os) : Steps step meets' s cs s' os := by
  induction steps with
  | nil => exact .nil
  | snoc _ ok cond ih => exact ih.snoc ok (weaken cond)

end Steps

/-- Where each step does what another step function does, and fails as it does, so do runs. -/
theorem run_refines {σ' ω' ε' : Type*} {step' : σ' → κ → Except ε' (σ' × List ω')}
    {R : σ' → σ → Prop} {fault : ε → ε'} {tell : ω' → ω}
    (sim : ∀ {s' s c}, R s' s → (∃ e, step s c = .error e ∧ step' s' c = .error (fault e)) ∨
      ∃ t' os' t, step' s' c = .ok (t', os') ∧ step s c = .ok (t, os'.map tell) ∧ R t' t)
    {s' : σ'} {s : σ} (init : R s' s) (cs : List κ) :
    (∃ e, run step s cs = .error e ∧ run step' s' cs = .error (fault e)) ∨
      ∃ t' os' t, run step' s' cs = .ok (t', os') ∧ run step s cs = .ok (t, os'.map tell) ∧
        R t' t := by
  induction cs generalizing s' s with
  | nil => exact .inr ⟨s', [], s, rfl, rfl, init⟩
  | cons c cs ih =>
      unfold run
      rcases sim (c := c) init with ⟨e, fails, fails'⟩ | ⟨t', os', t, ok', ok, related⟩
      · rw [fails, fails']
        exact .inl ⟨e, rfl, rfl⟩
      · rw [ok, ok']
        dsimp only
        rcases ih related with ⟨e, fails, fails'⟩ | ⟨u', vs', u, more', more, related'⟩
        · rw [fails, fails']
          exact .inl ⟨e, rfl, rfl⟩
        · rw [more, more']
          exact .inr ⟨u', os' ++ vs', u, rfl, by rw [List.map_append], related'⟩

/-- A checked execution is a run that meets the condition. -/
theorem steps_of_checkedRun [∀ s c s', Decidable (meets s c s')] {s s' : σ} {cs : List κ}
    {os : List ω} (ok : checkedRun step meets s cs = some (s', os)) :
    Steps step meets s cs s' os := by
  induction cs generalizing s s' os with
  | nil =>
      cases ok
      exact .nil
  | cons c cs ih =>
      unfold checkedRun at ok
      split at ok
      · cases ok
      · rename_i m o first
        split at ok
        case isFalse => cases ok
        case isTrue cond =>
          obtain ⟨⟨e, o'⟩, rest, eq⟩ := Option.map_eq_some_iff.mp ok
          cases eq
          have one : Steps step meets s [c] m o := .single first cond
          exact one.append (ih rest)

/-- A checked execution that ends is a run. -/
theorem exists_steps_of_checkedRun [∀ s c s', Decidable (meets s c s')] {s : σ} {cs : List κ}
    (ends : (checkedRun step meets s cs).isSome) :
    ∃ s' os, Steps step meets s cs s' os := by
  obtain ⟨⟨s', os⟩, ok⟩ := Option.isSome_iff_exists.mp ends
  exact ⟨s', os, steps_of_checkedRun ok⟩

/-- What is read off a checked execution holds of its run. -/
theorem exists_steps_of_map {α : Type*} [∀ s c s', Decidable (meets s c s')] {s : σ}
    {cs : List κ} {f : σ × List ω → α} {a : α}
    (ends : (checkedRun step meets s cs).map f = some a) :
    ∃ s' os, Steps step meets s cs s' os ∧ f (s', os) = a := by
  obtain ⟨⟨s', os⟩, ok, eq⟩ := Option.map_eq_some_iff.mp ends
  exact ⟨s', os, steps_of_checkedRun ok, eq⟩

end SwifCodec.Library
