import SwifCodec.Rlc.Decoder
import SwifCodec.Library.Run

/-!
The coding window under preparation at a decoder.

The window is the range of `nb_id` identifiers from `first_id`. A call counts its
identifier when it is at most `max_coding_window_size` after the first one, wherever
it falls: a gap, a repetition and one identifier too many are counted as well.
`windowKept_iff_of_reset` says for which calls the range is the identifiers accepted.
-/

namespace SwifCodec

open Library

/-- One call of `swif_rlc_decoder_add_source_symbol_to_coding_window`, with the
identifier and the status as its output. -/
def addStep (dec : Decoder) (esi : ℕ) : Exec (Decoder × List (ℕ × SwifStatus)) := do
  let (dec, status) ← swifRlcDecoderAddSourceSymbolToCodingWindow dec esi
  return (dec, [(esi, status)])

/-- The identifiers whose call returned `SWIF_STATUS_OK`. -/
def acceptedEsis (events : List (ℕ × SwifStatus)) : List ℕ :=
  (events.filter fun e => e.2 = .ok).map Prod.fst

/-- The calls on a window that was reset. -/
abbrev AddRun (dec : Decoder) : List ℕ → Decoder → List (ℕ × SwifStatus) → Prop :=
  Steps addStep (fun _ _ _ => True) dec

/-- The window is not too large, and its identifiers are those accepted. -/
def WindowMatches (dec : Decoder) (events : List (ℕ × SwifStatus)) : Prop :=
  dec.nbId ≤ dec.maxCodingWindowSize ∧
    ∀ id, (dec.firstId ≤ id ∧ id < dec.firstId + dec.nbId) ↔ id ∈ acceptedEsis events

/-- The window matches before and after each call, and a call that is refused keeps it. -/
def WindowKept (dec : Decoder) (esis : List ℕ) : Prop :=
  WindowMatches dec [] ∧ ∀ before esi after, esis = before ++ esi :: after →
    ∃ dec₁ events, AddRun dec before dec₁ events ∧
      ∃ dec₂ status, addStep dec₁ esi = .ok (dec₂, [(esi, status)]) ∧
        WindowMatches dec₂ (events ++ [(esi, status)]) ∧
        (status ≠ .ok → dec₂.firstId = dec₁.firstId ∧ dec₂.nbId = dec₁.nbId)

/-- The first symbol has room, and a later one is next and has room, or is too far from
the first one to be counted. -/
def Decoder.KeepsWindow (dec : Decoder) (esi : ℕ) : Prop :=
  if dec.firstId = symbolIdNone then 0 < dec.maxCodingWindowSize
  else (esi = dec.firstId + dec.nbId ∧ dec.nbId < dec.maxCodingWindowSize) ∨
    dec.maxCodingWindowSize < sub32 esi dec.firstId

/-- Every call of the run keeps the window. -/
def KeepsWindow (dec : Decoder) (esis : List ℕ) : Prop :=
  ∀ before esi after, esis = before ++ esi :: after →
    ∀ dec₁ events, AddRun dec before dec₁ events → dec₁.KeepsWindow esi

section Step

variable {dec dec' dec₁ : Decoder} {esi : ℕ} {esis : List ℕ} {status : SwifStatus}
  {events : List (ℕ × SwifStatus)}

theorem acceptedEsis_append (events events' : List (ℕ × SwifStatus)) :
    acceptedEsis (events ++ events') = acceptedEsis events ++ acceptedEsis events' := by
  simp [acceptedEsis]

@[simp] theorem acceptedEsis_ok : acceptedEsis [(esi, .ok)] = [esi] := rfl

@[simp] theorem acceptedEsis_error : acceptedEsis [(esi, .error)] = [] := rfl

/-- The window is empty until its first identifier is known. -/
def Decoder.Prepared (dec : Decoder) : Prop := dec.firstId = symbolIdNone → dec.nbId = 0

/-- The window has its first identifier after a call. -/
theorem Decoder.windowStart_ne (valid : esi < invalidEsi) :
    dec.windowStart esi ≠ symbolIdNone := by
  have size : invalidEsi = symbolIdNone := rfl
  unfold Decoder.windowStart
  split <;> omega

/-- A call counts the identifiers up to the size of the window after the first one. -/
theorem addStep_eq (prepared : dec.Prepared) :
    addStep dec esi =
      if sub32 esi (dec.windowStart esi) ≤ dec.maxCodingWindowSize then
        .ok ({ dec with firstId := dec.windowStart esi, nbId := add32 dec.nbId 1 }, [(esi, .ok)])
      else .ok ({ dec with firstId := dec.windowStart esi }, [(esi, .error)]) := by
  have passes : ¬ (dec.firstId = symbolIdNone ∧ dec.nbId ≠ 0) := fun both =>
    both.2 (prepared both.1)
  unfold addStep
  rw [swifRlcDecoderAddSourceSymbol_spec, if_neg passes]
  split <;> rfl

/-- The distance of the first identifier to itself. -/
theorem sub32_self (a : ℕ) : sub32 a a = 0 := by
  unfold sub32
  omega

/-- A call returns, and the window is prepared after it. -/
theorem exists_addStep (prepared : dec.Prepared) (valid : esi < invalidEsi) :
    ∃ dec' status, addStep dec esi = .ok (dec', [(esi, status)]) ∧ dec'.Prepared ∧
      (status ≠ .ok → dec'.firstId = dec.firstId ∧ dec'.nbId = dec.nbId) := by
  have some_id := dec.windowStart_ne valid
  rw [addStep_eq prepared]
  split
  case isTrue => exact ⟨_, _, rfl, fun none => absurd none some_id, fun failed => absurd rfl failed⟩
  case isFalse far =>
    refine ⟨_, _, rfl, fun none => absurd none some_id, fun _ => ⟨?_, rfl⟩⟩
    show dec.windowStart esi = dec.firstId
    rw [Decoder.windowStart]
    refine if_neg fun none => far ?_
    rw [Decoder.windowStart, if_pos none, sub32_self]
    exact Nat.zero_le _

/-- Every list of calls with valid identifiers runs to its end. -/
theorem exists_addRun (prepared : dec.Prepared) (valid : ∀ esi ∈ esis, esi < invalidEsi) :
    ∃ dec₁ events, AddRun dec esis dec₁ events ∧ dec₁.Prepared := by
  induction esis using List.reverseRecOn with
  | nil => exact ⟨dec, [], .nil, prepared⟩
  | append_singleton esis esi ih =>
      obtain ⟨dec₁, events, run, prepared₁⟩ := ih fun a mem => valid a (by simp [mem])
      obtain ⟨dec₂, status, step_eq, prepared₂, -⟩ :=
        exists_addStep prepared₁ (valid esi (by simp))
      exact ⟨dec₂, _, run.snoc step_eq trivial, prepared₂⟩

/-- The first identifier of a window is counted; it has to have room. -/
theorem windowMatches_first_iff (none : dec.firstId = symbolIdNone) (empty : dec.nbId = 0)
    (before : WindowMatches dec events) :
    WindowMatches { dec with firstId := esi, nbId := add32 dec.nbId 1 } (events ++ [(esi, .ok)]) ↔
      0 < dec.maxCodingWindowSize := by
  have one : add32 0 1 = 1 := rfl
  unfold WindowMatches
  simp only [acceptedEsis_append, acceptedEsis_ok, List.mem_append, List.mem_singleton,
    ← before.2, empty, one]
  constructor
  · rintro ⟨room, -⟩
    exact room
  · intro room
    refine ⟨room, fun id => ?_⟩
    omega

/-- A further identifier that is counted has to be the next one, and to have room. -/
theorem windowMatches_next_iff (valid : esi < invalidEsi) (before : WindowMatches dec events) :
    WindowMatches { dec with nbId := add32 dec.nbId 1 } (events ++ [(esi, .ok)]) ↔
      esi = dec.firstId + dec.nbId ∧ dec.nbId < dec.maxCodingWindowSize := by
  have size : invalidEsi = 4294967295 := rfl
  obtain ⟨le, ids⟩ := before
  unfold WindowMatches
  simp only [acceptedEsis_append, acceptedEsis_ok, List.mem_append, List.mem_singleton, ← ids]
  constructor
  · rintro ⟨room, range⟩
    -- The identifier added, the one after the old range, and the one after the new range.
    have added := range esi
    have next := range (dec.firstId + dec.nbId)
    have last := range (dec.firstId + add32 dec.nbId 1)
    unfold add32 at *
    omega
  · rintro ⟨rfl, room⟩
    rw [add32_of_lt (by omega)]
    refine ⟨room, fun id => ?_⟩
    omega

/-- After one call, the range is the identifiers accepted exactly when the call keeps the
window. -/
theorem windowMatches_iff (prepared : dec.Prepared) (valid : esi < invalidEsi)
    (before : WindowMatches dec events)
    (step_eq : addStep dec esi = .ok (dec', [(esi, status)])) :
    WindowMatches dec' (events ++ [(esi, status)]) ↔ dec.KeepsWindow esi := by
  rw [addStep_eq prepared] at step_eq
  unfold Decoder.KeepsWindow
  by_cases none : dec.firstId = symbolIdNone
  · have start : dec.windowStart esi = esi := if_pos none
    rw [start, sub32_self, if_pos (Nat.zero_le _)] at step_eq
    cases step_eq
    rw [if_pos none]
    exact windowMatches_first_iff none (prepared none) before
  · have start : dec.windowStart esi = dec.firstId := if_neg none
    rw [start] at step_eq
    rw [if_neg none]
    split at step_eq
    case isTrue near =>
      cases step_eq
      rw [or_iff_left (by omega)]
      exact windowMatches_next_iff valid before
    case isFalse far =>
      cases step_eq
      refine iff_of_true ?_ (.inr (by omega))
      unfold WindowMatches
      rw [acceptedEsis_append, acceptedEsis_error, List.append_nil]
      exact before

end Step

/-! ### Runs after a reset -/

section Run

variable {dec dec₀ dec₁ : Decoder} {esis esis' : List ℕ} {events : List (ℕ × SwifStatus)}

theorem KeepsWindow.init (keeps : KeepsWindow dec (esis ++ esis')) : KeepsWindow dec esis := by
  intro before esi after split
  refine keeps before esi (after ++ esis') ?_
  rw [split, List.append_assoc]
  rfl

/-- A run whose calls keep the window leaves the identifiers it accepted. -/
theorem windowMatches_of_run (prepared : dec.Prepared) (start : WindowMatches dec [])
    (run : AddRun dec esis dec₁ events) (valid : ∀ esi ∈ esis, esi < invalidEsi)
    (keeps : KeepsWindow dec esis) : WindowMatches dec₁ events ∧ dec₁.Prepared := by
  induction run with
  | nil => exact ⟨start, prepared⟩
  | @snoc dec₁ dec₂ esis esi events out before ok _ ih =>
      obtain ⟨kept, prepared₁⟩ := ih (fun a mem => valid a (by simp [mem])) keeps.init
      have valid_esi := valid esi (by simp)
      obtain ⟨dec', status, step_eq, prepared₂, -⟩ := exists_addStep prepared₁ valid_esi
      rw [ok] at step_eq
      cases step_eq
      have call := keeps esis esi [] rfl dec₁ events before
      exact ⟨(windowMatches_iff prepared₁ valid_esi kept ok).mpr call, prepared₂⟩

/-- An empty window. -/
theorem windowMatches_reset (reset : swifRlcDecoderResetCodingWindow dec = .ok dec₀) :
    WindowMatches dec₀ [] ∧ dec₀.Prepared := by
  obtain ⟨coef, -, result⟩ := bind_eq_ok.mp reset
  cases result
  refine ⟨⟨Nat.zero_le _, fun id => ?_⟩, fun _ => rfl⟩
  simp only [acceptedEsis, List.filter_nil, List.map_nil, List.not_mem_nil, iff_false]
  omega

/-- A window that is kept matches at every point. -/
theorem WindowKept.windowMatches (kept : WindowKept dec (esis ++ esis'))
    (run : AddRun dec esis dec₁ events) : WindowMatches dec₁ events := by
  rcases List.eq_nil_or_concat esis with rfl | ⟨before, esi, rfl⟩
  · have empty : AddRun dec [] dec [] := .nil
    obtain ⟨rfl, rfl⟩ := run.deterministic empty
    exact kept.1
  · rw [List.concat_eq_append] at kept run
    obtain ⟨dec', events', run', dec'', status, step_eq, match_after, -⟩ :=
      kept.2 before esi esis' (by rw [List.append_assoc]; rfl)
    obtain ⟨rfl, rfl⟩ := run.deterministic (run'.snoc step_eq trivial)
    exact match_after

end Run

/-- After a reset, the window is the range of the identifiers accepted at every point of
the calls exactly when each call is the first and has room, is the next one and has room,
or is refused. -/
theorem windowKept_iff_of_reset {dec dec₀ : Decoder} {esis : List ℕ}
    (reset : swifRlcDecoderResetCodingWindow dec = .ok dec₀)
    (valid : ∀ esi ∈ esis, esi < invalidEsi) : WindowKept dec₀ esis ↔ KeepsWindow dec₀ esis := by
  obtain ⟨start, prepared⟩ := windowMatches_reset reset
  constructor
  · intro kept before esi after split dec₁ events run
    have valid_before : ∀ a ∈ before, a < invalidEsi := fun a mem => valid a (by simp [split, mem])
    obtain ⟨dec', events', run', prepared₁⟩ := exists_addRun prepared valid_before
    obtain ⟨rfl, rfl⟩ := run.deterministic run'
    obtain ⟨dec'', events'', run'', dec₂, status, step_eq, match_after, -⟩ :=
      kept.2 before esi after split
    obtain ⟨rfl, rfl⟩ := run.deterministic run''
    rw [split] at kept
    exact (windowMatches_iff prepared₁ (valid esi (by simp [split])) (kept.windowMatches run)
      step_eq).mp match_after
  · intro keeps
    refine ⟨start, fun before esi after split => ?_⟩
    have prefix_split : esis = before ++ [esi] ++ after := by
      rw [split, List.append_assoc]
      rfl
    rw [prefix_split] at keeps valid
    have valid_before : ∀ a ∈ before, a < invalidEsi := fun a mem => valid a (by simp [mem])
    have valid_esi := valid esi (by simp)
    obtain ⟨dec₁, events, run, -⟩ := exists_addRun prepared valid_before
    obtain ⟨kept, prepared₁⟩ :=
      windowMatches_of_run prepared start run valid_before keeps.init.init
    obtain ⟨dec₂, status, step_eq, -, unchanged⟩ := exists_addStep prepared₁ valid_esi
    refine ⟨dec₁, events, run, dec₂, status, step_eq, ?_, unchanged⟩
    exact (windowMatches_iff prepared₁ valid_esi kept step_eq).mpr
      (keeps.init before esi [] rfl dec₁ events run)

/-- A decoder with a window of two whose window was reset. -/
def resetDecoder : Decoder :=
  { swifRlcDecoderCreate 1 2 with coefTab := some [0], firstId := symbolIdNone, nbId := 0 }

theorem swifRlcDecoderCreate_reset :
    swifRlcDecoderResetCodingWindow (swifRlcDecoderCreate 1 2) = .ok resetDecoder := by
  decide +kernel

theorem windowKept_iff_in_order : WindowKept resetDecoder [5, 6] := by
  refine (windowKept_iff_of_reset swifRlcDecoderCreate_reset (by decide)).mpr ?_
  intro before esi after split dec₁ events run
  rcases before with _ | ⟨first, _ | ⟨second, rest⟩⟩
  · obtain ⟨rfl, -⟩ := run.deterministic (.nil : AddRun resetDecoder [] resetDecoder [])
    cases split
    unfold Decoder.KeepsWindow
    decide
  · cases split
    obtain ⟨dec, events', steps, next⟩ := exists_steps_of_map
      (show (checkedRun addStep (fun _ _ _ => True) resetDecoder [5]).map
        (fun result => decide (result.1.firstId = 5 ∧ result.1.nbId = 1 ∧
          result.1.maxCodingWindowSize = 2)) = some true by decide +kernel)
    obtain ⟨rfl, -⟩ := run.deterministic steps
    obtain ⟨first, nb, size⟩ := of_decide_eq_true next
    unfold Decoder.KeepsWindow
    rw [if_neg (by rw [first]; decide), first, nb, size]
    decide
  · simp at split

/-- With a window of two, the identifiers 5 and 7 are accepted, and the window is 5 and 6. -/
theorem window_not_kept :
    ¬ ∀ (dec dec₀ : Decoder) (esis : List ℕ), swifRlcDecoderResetCodingWindow dec = .ok dec₀ →
        (∀ esi ∈ esis, esi < invalidEsi) → WindowKept dec₀ esis := by
  intro kept
  obtain ⟨dec₁, events, run, dec₂, status, step_eq, ⟨-, ids⟩, -⟩ :=
    (kept _ _ [5, 7] swifRlcDecoderCreate_reset (by decide)).2 [5] 7 [] rfl
  obtain ⟨dec', events', steps', facts⟩ := exists_steps_of_map
    (show (checkedRun addStep (fun _ _ _ => True) resetDecoder [5, 7]).map
      (fun result => (result.1.firstId, result.1.nbId, acceptedEsis result.2)) =
        some (5, 2, [5, 7]) by decide +kernel)
  obtain ⟨rfl, rfl⟩ := (run.snoc step_eq trivial).deterministic steps'
  obtain ⟨first, rest⟩ := Prod.mk.inj facts
  obtain ⟨nb, accepted⟩ := Prod.mk.inj rest
  dsimp only at first nb accepted
  have middle := (ids 6).mp (by omega)
  rw [accepted] at middle
  revert middle
  decide

end SwifCodec
