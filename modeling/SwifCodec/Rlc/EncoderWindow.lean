import SwifCodec.Rlc.Encoder
import SwifCodec.Library.Run
import SwifCodec.Library.SlidingWindow

/-!
The coding window of an encoder.

`Ring` says what the ring and its counters are after a list of accepted source
symbols, whatever their identifiers and buffers; a call that is accepted adds its
symbol to the list, and a call that is not changes nothing. The window of every run
with valid identifiers is `codingWindow_of_run`.

`INVALID_ESI` stands for an empty window, and is also an identifier that the encoder
accepts: after it, every identifier is accepted. `esiContinuity_iff` says which
runs keep consecutive identifiers across the wrap to zero.
-/

namespace SwifCodec

open Library SlidingWindow

/-- A source symbol as it is given to the window. -/
structure SourceSymbol where
  buf : List Gf256
  esi : ℕ
  deriving DecidableEq, Repr

/-- A call on the window, with its status and the identifiers passed to the removal
callback. -/
structure WindowEvent where
  symbol : SourceSymbol
  status : SwifStatus
  removed : List ℕ
  deriving DecidableEq, Repr

/-- One call of `swif_rlc_encoder_add_source_symbol_to_coding_window`. -/
def windowStep (enc : Encoder) (s : SourceSymbol) : Exec (Encoder × List WindowEvent) := do
  let (enc, status, removed) ← swifRlcEncoderAddSourceSymbolToCodingWindow enc s.buf s.esi
  return (enc, [⟨s, status, removed⟩])

/-- The symbols whose call returned `SWIF_STATUS_OK`. -/
def acceptedSymbols (events : List WindowEvent) : List SourceSymbol :=
  (events.filter fun e => e.status = .ok).map WindowEvent.symbol

/-- All calls of the removal callback. -/
def removedEsis (events : List WindowEvent) : List ℕ := events.flatMap WindowEvent.removed

/-- The runs of an encoder with a window of `w` symbols, whose removal callback is set
or not. -/
abbrev WindowRun (n w : ℕ) (callback : Bool) : List SourceSymbol → Encoder → List WindowEvent →
    Prop :=
  Steps windowStep (fun _ _ _ => True)
    (swifRlcEncoderSetCallbackFunctions (swifRlcEncoderCreate n w) callback)

/-! ### One call -/

/-- The encoder after the symbols of `history` were accepted. -/
structure Ring (enc : Encoder) (history : List SourceSymbol) : Prop where
  size_pos : 0 < enc.maxCodingWindowSize
  size_lt : enc.maxCodingWindowSize < 4294967296
  ewTab : enc.ewTab.length = enc.maxCodingWindowSize
  ewSsNb : enc.ewSsNb = min history.length enc.maxCodingWindowSize
  ewLeft : enc.ewLeft = leftSlot enc.maxCodingWindowSize history.length
  ewRight : enc.ewRight = rightSlot enc.maxCodingWindowSize history.length
  ewEsiRight : enc.ewEsiRight = (history.getLast?.map SourceSymbol.esi).getD invalidEsi
  holds : Holds enc.maxCodingWindowSize enc.ewTab (history.map SourceSymbol.buf)

/-- The calls of the removal callback when the next symbol is accepted. -/
def Encoder.evicts (enc : Encoder) : List ℕ :=
  if enc.ewSsNb = enc.maxCodingWindowSize then
    if enc.removedCallback then [sub32 (add32 enc.ewEsiRight 1) enc.ewSsNb] else []
  else []

section Call

variable {n w esi : ℕ} {enc enc' : Encoder} {history : List SourceSymbol} {s : SourceSymbol}
  {buf : List Gf256}

/-- Writing one slot of the ring. -/
theorem getElem?_ring {tab : List (Option (List Gf256))} {k : ℕ} (inside : k < tab.length)
    (buf : List Gf256) :
    ∃ tab', Block.store tab k [some buf] = some tab' ∧ tab'.length = tab.length ∧
      ∀ i, tab'[i]? = if i = k then some (some buf) else tab[i]? := by
  obtain ⟨tab', store_eq⟩ : ∃ tab', Block.store tab k [some buf] = some tab' :=
    ⟨_, Block.store_eq_some (by rw [List.length_singleton]; omega)⟩
  exact ⟨tab', store_eq, Block.length_of_store store_eq,
    Block.getElem?_of_store_singleton store_eq⟩

/-- A call that returns is refused and changes nothing, or adds the symbol. -/
theorem swifRlcEncoderAddSourceSymbol_of_ok {status : SwifStatus} {removed : List ℕ}
    (ok : swifRlcEncoderAddSourceSymbolToCodingWindow enc buf esi =
      .ok (enc', status, removed)) :
    (¬ enc.Accepts esi ∧ enc' = enc ∧ status = .error ∧ removed = []) ∨
      (enc.Accepts esi ∧ status = .ok ∧ removed = enc.evicts ∧
        ∃ tab left right, enc' = { enc with
          ewTab := tab, ewLeft := left, ewRight := right, ewEsiRight := esi,
          ewSsNb := if enc.ewSsNb = enc.maxCodingWindowSize then enc.ewSsNb
            else add32 enc.ewSsNb 1 }) := by
  unfold swifRlcEncoderAddSourceSymbolToCodingWindow at ok
  unfold Encoder.Accepts Encoder.evicts
  split at ok
  case isTrue refused =>
    cases ok
    exact .inl ⟨by tauto, rfl, rfl, rfl⟩
  case isFalse accepted =>
    have accepts : enc.ewEsiRight = invalidEsi ∨ esi = add32 enc.ewEsiRight 1 := by tauto
    right
    refine ⟨accepts, ?_⟩
    split at ok
    case isTrue full =>
      obtain ⟨tab, -, ok⟩ := bind_eq_ok.mp ok
      obtain ⟨left, -, result⟩ := bind_eq_ok.mp ok
      cases result
      rw [if_pos full, if_pos full]
      exact ⟨rfl, rfl, _, _, _, rfl⟩
    case isFalse room =>
      rw [if_neg room, if_neg room]
      split at ok
      case isTrue empty =>
        obtain ⟨-, -, ok⟩ := bind_eq_ok.mp ok
        obtain ⟨tab, -, result⟩ := bind_eq_ok.mp ok
        cases result
        exact ⟨rfl, rfl, _, _, _, rfl⟩
      case isFalse some_symbol =>
        obtain ⟨right, -, ok⟩ := bind_eq_ok.mp ok
        obtain ⟨tab, -, result⟩ := bind_eq_ok.mp ok
        cases result
        exact ⟨rfl, rfl, _, _, _, rfl⟩

/-- Setting coefficients writes only their table. -/
theorem swifRlcEncoderSetCodingCoefsTab_of_ok {tab : List Gf256} {nb : ℕ}
    (ok : swifRlcEncoderSetCodingCoefsTab enc tab nb = .ok enc') :
    ∃ ccTab, enc' = { enc with ccTab } ∧ ccTab.length = enc.ccTab.length := by
  unfold swifRlcEncoderSetCodingCoefsTab at ok
  obtain ⟨-, -, ok⟩ := bind_eq_ok.mp ok
  obtain ⟨cells, -, ok⟩ := bind_eq_ok.mp ok
  obtain ⟨ccTab, store_eq, result⟩ := bind_eq_ok.mp ok
  cases result
  exact ⟨ccTab, rfl, Block.length_of_store (access_eq_ok.mp store_eq)⟩

/-- So does generating them. -/
theorem swifRlcEncoderGenerateCodingCoefs_of_ok {key dt : ℕ} {status : SwifStatus}
    (ok : swifRlcEncoderGenerateCodingCoefs enc key dt = .ok (enc', status)) :
    ∃ ccTab, enc' = { enc with ccTab } ∧ ccTab.length = enc.ccTab.length := by
  unfold swifRlcEncoderGenerateCodingCoefs at ok
  obtain ⟨ccTab, generate_eq, result⟩ := bind_eq_ok.mp ok
  cases result
  exact ⟨ccTab, rfl, length_generateCodingCoefs generate_eq⟩

/-- A call with another identifier than the next one changes nothing. -/
theorem swifRlcEncoderAddSourceSymbol_rejected (refused : ¬ enc.Accepts esi) :
    swifRlcEncoderAddSourceSymbolToCodingWindow enc buf esi = .ok (enc, .error, []) := by
  have both : enc.ewEsiRight ≠ invalidEsi ∧ esi ≠ add32 enc.ewEsiRight 1 := by
    unfold Encoder.Accepts at refused
    tauto
  unfold swifRlcEncoderAddSourceSymbolToCodingWindow
  rw [if_pos both, pure_eq_ok]

theorem swifRlcEncoderCreate_ring (pos : 0 < w) (lt : w < 4294967296) (callback : Bool) :
    Ring (swifRlcEncoderSetCallbackFunctions (swifRlcEncoderCreate n w) callback) [] where
  size_pos := pos
  size_lt := lt
  ewTab := List.length_replicate
  ewSsNb := (Nat.zero_min w).symm
  ewLeft := (leftSlot_of_lt pos).symm
  ewRight := rfl
  ewEsiRight := rfl
  holds := .nil

/-- Neither the coefficients nor the callback are part of the ring. -/
theorem Ring.setCcTab (ring : Ring enc history) (tab : List Gf256) :
    Ring { enc with ccTab := tab } history :=
  ⟨ring.size_pos, ring.size_lt, ring.ewTab, ring.ewSsNb, ring.ewLeft, ring.ewRight,
    ring.ewEsiRight, ring.holds⟩

theorem Ring.setCallback (ring : Ring enc history) (callback : Bool) :
    Ring (swifRlcEncoderSetCallbackFunctions enc callback) history :=
  ⟨ring.size_pos, ring.size_lt, ring.ewTab, ring.ewSsNb, ring.ewLeft, ring.ewRight,
    ring.ewEsiRight, ring.holds⟩

/-- The window after an accepted symbol, once the counters are those of one more. -/
theorem Ring.extend (ring : Ring enc history) {tab' : List (Option (List Gf256))}
    {left' right' nb' : ℕ} (length : tab'.length = enc.ewTab.length)
    (cells : ∀ i, tab'[i]? = if i = history.length % enc.maxCodingWindowSize
      then some (some s.buf) else enc.ewTab[i]?)
    (left_eq : left' = leftSlot enc.maxCodingWindowSize (history.length + 1))
    (right_eq : right' = history.length % enc.maxCodingWindowSize)
    (nb_eq : nb' = min (history.length + 1) enc.maxCodingWindowSize) :
    Ring { enc with ewTab := tab', ewLeft := left', ewRight := right', ewEsiRight := s.esi,
                    ewSsNb := nb' } (history ++ [s]) where
  size_pos := ring.size_pos
  size_lt := ring.size_lt
  ewTab := length.trans ring.ewTab
  ewSsNb := by simpa using nb_eq
  ewLeft := by simpa using left_eq
  ewRight := by simpa using right_eq
  ewEsiRight := by simp
  holds := by
    rw [List.map_append]
    refine ring.holds.push fun i => ?_
    rw [List.length_map]
    exact cells i

/-- An accepted symbol takes the next slot of the ring. -/
theorem swifRlcEncoderAddSourceSymbol_accepted (ring : Ring enc history)
    (accepts : enc.Accepts s.esi) :
    ∃ enc', swifRlcEncoderAddSourceSymbolToCodingWindow enc s.buf s.esi =
        .ok (enc', .ok, enc.evicts) ∧ Ring enc' (history ++ [s]) := by
  have pos := ring.size_pos
  have lt := ring.size_lt
  have nb := ring.ewSsNb
  have left := ring.ewLeft
  have right := ring.ewRight
  have inside : history.length % enc.maxCodingWindowSize < enc.ewTab.length := by
    rw [ring.ewTab]
    exact Nat.mod_lt _ pos
  obtain ⟨tab', store_eq, length, cells⟩ := getElem?_ring inside s.buf
  have allowed : ¬ (enc.ewEsiRight ≠ invalidEsi ∧ s.esi ≠ add32 enc.ewEsiRight 1) := by
    rintro ⟨some_esi, other⟩
    exact accepts.elim some_esi other
  unfold swifRlcEncoderAddSourceSymbolToCodingWindow Encoder.evicts
  rw [if_neg allowed]
  by_cases full : enc.ewSsNb = enc.maxCodingWindowSize
  · have le : enc.maxCodingWindowSize ≤ history.length := by omega
    have left_eq := leftSlot_succ_of_le le
    rw [leftSlot_of_le le] at left left_eq
    rw [if_pos full, if_pos full, left, store_eq, access_some, ok_bind, mod32_of_pos pos,
      add32_of_lt (by have := Nat.mod_lt history.length pos; omega), ok_bind, pure_eq_ok]
    exact ⟨_, rfl, ring.extend length cells left_eq.symm rfl (by omega)⟩
  have filling : history.length < enc.maxCodingWindowSize := by omega
  have at_end : history.length % enc.maxCodingWindowSize = history.length :=
    Nat.mod_eq_of_lt filling
  have one_more : add32 enc.ewSsNb 1 = min (history.length + 1) enc.maxCodingWindowSize := by
    rw [add32_of_lt (by omega)]
    omega
  rw [leftSlot_of_lt filling] at left
  have left_eq := left.trans (leftSlot_succ_of_lt filling).symm
  rw [if_neg full, if_neg full]
  by_cases empty : enc.ewSsNb = 0
  · -- The first symbol: the two ends of the ring are still together.
    have none : history.length = 0 := by omega
    have at_zero : enc.ewRight = 0 := by
      rw [right, none]
      rfl
    have right_eq : enc.ewRight = history.length % enc.maxCodingWindowSize := by
      rw [at_zero, none, Nat.zero_mod]
    rw [← right_eq] at store_eq
    rw [if_pos empty, cAssert_of (decide_eq_true (left.trans at_zero.symm)), ok_bind, store_eq,
      access_some, ok_bind, pure_eq_ok]
    exact ⟨_, rfl, ring.extend length cells left_eq right_eq one_more⟩
  · obtain ⟨before, one_before⟩ : ∃ before, history.length = before + 1 :=
      ⟨history.length - 1, by omega⟩
    have slot_eq : add32 enc.ewRight 1 = history.length := by
      rw [right, one_before, rightSlot_succ, Nat.mod_eq_of_lt (by omega), add32_of_lt (by omega)]
    rw [if_neg empty, slot_eq, mod32_of_pos pos, ok_bind, store_eq, access_some, ok_bind,
      pure_eq_ok]
    exact ⟨_, rfl, ring.extend length cells left_eq rfl one_more⟩

/-- A call that is accepted adds its symbol, and keeps what was configured. -/
theorem windowStep_accepted (ring : Ring enc history) (accepts : enc.Accepts s.esi) :
    ∃ enc', windowStep enc s = .ok (enc', [⟨s, .ok, enc.evicts⟩]) ∧ Ring enc' (history ++ [s]) ∧
      enc'.maxCodingWindowSize = enc.maxCodingWindowSize ∧
      enc'.removedCallback = enc.removedCallback := by
  obtain ⟨enc', add_eq, ring'⟩ := swifRlcEncoderAddSourceSymbol_accepted ring accepts
  refine ⟨enc', ?_, ring', ?_⟩
  · unfold windowStep
    rw [add_eq]
    rfl
  · rcases swifRlcEncoderAddSourceSymbol_of_ok add_eq with ⟨refused, -⟩ | ⟨-, -, -, -, -, -, rfl⟩
    · exact absurd accepts refused
    · exact ⟨rfl, rfl⟩

theorem windowStep_rejected (refused : ¬ enc.Accepts s.esi) :
    windowStep enc s = .ok (enc, [⟨s, .error, []⟩]) := by
  unfold windowStep
  rw [swifRlcEncoderAddSourceSymbol_rejected refused]
  rfl

end Call

/-! ### Runs -/

section Run

variable {n w : ℕ} {callback : Bool} {enc enc' : Encoder} {calls : List SourceSymbol}
  {events : List WindowEvent} {e : WindowEvent} {s : SourceSymbol}

theorem acceptedSymbols_append (events events' : List WindowEvent) :
    acceptedSymbols (events ++ events') = acceptedSymbols events ++ acceptedSymbols events' := by
  simp [acceptedSymbols]

@[simp] theorem acceptedSymbols_ok (removed : List ℕ) :
    acceptedSymbols [⟨s, .ok, removed⟩] = [s] := rfl

@[simp] theorem acceptedSymbols_error (removed : List ℕ) :
    acceptedSymbols [⟨s, .error, removed⟩] = [] := rfl

/-- What the encoder is after a run. -/
structure Traced (w : ℕ) (callback : Bool) (enc : Encoder) (events : List WindowEvent) :
    Prop where
  ring : Ring enc (acceptedSymbols events)
  size : enc.maxCodingWindowSize = w
  callback : enc.removedCallback = callback

/-- The two results of a call. -/
theorem Traced.step (traced : Traced w callback enc events) (s : SourceSymbol) :
    ∃ enc' e, windowStep enc s = .ok (enc', [e]) ∧ Traced w callback enc' (events ++ [e]) ∧
      ((enc.Accepts s.esi ∧ e = ⟨s, .ok, enc.evicts⟩) ∨
        (¬ enc.Accepts s.esi ∧ enc' = enc ∧ e = ⟨s, .error, []⟩)) := by
  by_cases accepts : enc.Accepts s.esi
  · obtain ⟨enc', step_eq, ring, size, kept⟩ := windowStep_accepted traced.ring accepts
    refine ⟨enc', _, step_eq, ?_, .inl ⟨accepts, rfl⟩⟩
    constructor
    · rwa [acceptedSymbols_append]
    · exact size.trans traced.size
    · exact kept.trans traced.callback
  · refine ⟨enc, _, windowStep_rejected accepts, ?_, .inr ⟨accepts, rfl, rfl⟩⟩
    constructor
    · rw [acceptedSymbols_append, acceptedSymbols_error, List.append_nil]
      exact traced.ring
    · exact traced.size
    · exact traced.callback

/-- Every list of calls runs to its end. -/
theorem exists_windowRun (n : ℕ) (pos : 0 < w) (lt : w < 4294967296) (callback : Bool)
    (calls : List SourceSymbol) :
    ∃ enc events, WindowRun n w callback calls enc events ∧ Traced w callback enc events ∧
      acceptedSymbols events ⊆ calls := by
  induction calls using List.reverseRecOn with
  | nil =>
      refine ⟨_, [], .nil, ⟨swifRlcEncoderCreate_ring pos lt callback, rfl, rfl⟩, ?_⟩
      exact List.Subset.refl _
  | append_singleton calls s ih =>
      obtain ⟨enc, events, run, traced, sub⟩ := ih
      obtain ⟨enc', e, step_eq, traced', result⟩ := traced.step s
      refine ⟨enc', events ++ [e], run.snoc step_eq trivial, traced', ?_⟩
      intro a mem
      rw [acceptedSymbols_append] at mem
      rcases List.mem_append.mp mem with old | new
      · exact List.mem_append_left _ (sub old)
      · rcases result with ⟨-, rfl⟩ | ⟨-, -, rfl⟩
        · exact List.mem_append_right _ new
        · cases new

/-- Every run is one of these. -/
theorem traced_of_run (pos : 0 < w) (lt : w < 4294967296)
    (run : WindowRun n w callback calls enc events) :
    Traced w callback enc events ∧ acceptedSymbols events ⊆ calls := by
  obtain ⟨enc', events', run', traced, sub⟩ := exists_windowRun n pos lt callback calls
  obtain ⟨rfl, rfl⟩ := run.deterministic run'
  exact ⟨traced, sub⟩

end Run

/-! ### Consecutive identifiers -/

/-- The identifiers of the symbols follow each other from `first`, modulo 2^32. -/
def Numbered (first : ℕ) (history : List SourceSymbol) : Prop :=
  ∀ j s, history[j]? = some s → s.esi = (first + j) % 4294967296

section Numbered

variable {first w : ℕ} {history : List SourceSymbol} {s prev : SourceSymbol} {enc : Encoder}

/-- The identifier after the last one continues the numbering. -/
theorem Numbered.snoc (numbered : Numbered first history) (valid : s.esi < 4294967296)
    (next : ∀ prev, history.getLast? = some prev → s.esi = add32 prev.esi 1) :
    ∃ first', Numbered first' (history ++ [s]) := by
  rcases List.eq_nil_or_concat history with rfl | ⟨before, prev, rfl⟩
  · refine ⟨s.esi, fun j a entry => ?_⟩
    rw [List.nil_append, List.getElem?_singleton] at entry
    split at entry
    case isFalse => cases entry
    case isTrue zero =>
      cases entry
      rw [zero, Nat.add_zero, Nat.mod_eq_of_lt valid]
  · rw [List.concat_eq_append] at numbered next ⊢
    have last := numbered before.length prev (by simp)
    have esi_eq := next prev (by simp)
    unfold add32 at esi_eq
    refine ⟨first, fun j a entry => ?_⟩
    rcases Nat.lt_or_ge j (before ++ [prev]).length with old | new
    · rw [List.getElem?_append_left old] at entry
      exact numbered j a entry
    · rw [List.getElem?_append_right new, List.getElem?_singleton] at entry
      split at entry
      case isFalse => cases entry
      case isTrue zero =>
        cases entry
        rw [List.length_append, List.length_singleton] at zero new
        omega

/-- Below the highest identifier the numbering does not wrap. -/
theorem Numbered.plain (numbered : Numbered first history)
    (valid : ∀ s ∈ history, s.esi < invalidEsi) :
    ∃ first', ∀ (j : ℕ) (s : SourceSymbol), history[j]? = some s → s.esi = first' + j := by
  refine ⟨first % 4294967296, fun j => ?_⟩
  induction j with
  | zero =>
      intro s entry
      have start := numbered 0 s entry
      omega
  | succ j ih =>
      intro s entry
      obtain ⟨inside, -⟩ := List.getElem?_eq_some_iff.mp entry
      have before := List.getElem?_eq_getElem (show j < history.length by omega)
      have next := numbered (j + 1) s entry
      have value := ih _ before
      have below := valid _ (List.mem_of_getElem? before)
      have size : invalidEsi = 4294967295 := rfl
      omega

/-- A window that is not empty has a newest symbol. -/
theorem Ring.exists_last (ring : Ring enc history) (some_symbol : enc.ewSsNb ≠ 0) :
    ∃ prev, history.getLast? = some prev := by
  have nb := ring.ewSsNb
  have some_symbol : history ≠ [] := by
    rintro rfl
    rw [List.length_nil, Nat.zero_min] at nb
    omega
  exact ⟨_, List.getLast?_eq_getLast_of_ne_nil some_symbol⟩

/-- The identifier of the newest symbol. -/
theorem Ring.ewEsiRight_of_last (ring : Ring enc history) (last : history.getLast? = some prev) :
    enc.ewEsiRight = prev.esi := by
  rw [ring.ewEsiRight, last]
  rfl

theorem Ring.ewEsiRight_eq (ring : Ring enc history) (numbered : Numbered first history)
    (some_symbol : 0 < history.length) :
    enc.ewEsiRight = (first + (history.length - 1)) % 4294967296 := by
  have last := List.getElem?_eq_getElem (show history.length - 1 < history.length by omega)
  rw [← numbered _ _ last]
  exact ring.ewEsiRight_of_last (by rw [List.getLast?_eq_getElem?, last])

/-- What the encoder computes from its last identifier and the number of symbols is the
identifier of the oldest symbol. -/
theorem Ring.oldest (ring : Ring enc history) (numbered : Numbered first history)
    (oldest : (held enc.maxCodingWindowSize history)[0]? = some s) :
    sub32 (add32 enc.ewEsiRight 1) enc.ewSsNb = s.esi ∧
      (swifRlcEncoderGetCodingWindowInformation enc).1 = s.esi := by
  rw [getElem?_held] at oldest
  obtain ⟨inside, -⟩ := List.getElem?_eq_some_iff.mp oldest
  have esi_eq := numbered _ _ oldest
  have right := ring.ewEsiRight_eq numbered (by omega)
  have nb := ring.ewSsNb
  have lt := ring.size_lt
  show sub32 (add32 enc.ewEsiRight 1) enc.ewSsNb = s.esi ∧
    add32 (sub32 enc.ewEsiRight enc.ewSsNb) 1 = s.esi
  unfold add32 sub32
  constructor
  · omega
  · omega

/-- An accepted symbol evicts the oldest one of a full window. -/
theorem Ring.evicted_snoc (ring : Ring enc history) (numbered : Numbered first history) :
    (evicted enc.maxCodingWindowSize (history ++ [s])).map SourceSymbol.esi =
      (evicted enc.maxCodingWindowSize history).map SourceSymbol.esi ++
        if enc.ewSsNb = enc.maxCodingWindowSize
        then [sub32 (add32 enc.ewEsiRight 1) enc.ewSsNb] else [] := by
  have pos := ring.size_pos
  have nb := ring.ewSsNb
  by_cases full : enc.ewSsNb = enc.maxCodingWindowSize
  · have some_symbol : 0 < (held enc.maxCodingWindowSize history).length := by
      rw [length_held]
      omega
    have oldest := List.getElem?_eq_getElem some_symbol
    rw [if_pos full, evicted_push (by omega) oldest, List.map_append,
      (ring.oldest numbered oldest).1]
    rfl
  · have room : history.length + 1 ≤ enc.maxCodingWindowSize := by omega
    rw [if_neg full, evicted_of_le (by simpa using room), evicted_of_le (by omega)]
    rfl

end Numbered

/-- No call of the run is made just after 0xFFFFFFFF was accepted, unless its
identifier is 0. -/
def RestartsAtZero (n w : ℕ) (callback : Bool) (calls : List SourceSymbol) : Prop :=
  ∀ before s after, calls = before ++ s :: after →
    ∀ enc events, WindowRun n w callback before enc events →
      enc.ewEsiRight = invalidEsi → enc.ewSsNb ≠ 0 → s.esi = 0

section Consecutive

variable {n w : ℕ} {callback : Bool} {enc enc' : Encoder} {calls : List SourceSymbol}
  {events : List WindowEvent} {s prev : SourceSymbol}

theorem RestartsAtZero.init {calls' : List SourceSymbol}
    (restarts : RestartsAtZero n w callback (calls ++ calls')) :
    RestartsAtZero n w callback calls := by
  intro before a after split
  refine restarts before a (after ++ calls') ?_
  rw [split, List.append_assoc]
  rfl

theorem RestartsAtZero.last (restarts : RestartsAtZero n w callback (calls ++ [s]))
    (run : WindowRun n w callback calls enc events) (none : enc.ewEsiRight = invalidEsi)
    (some_symbol : enc.ewSsNb ≠ 0) : s.esi = 0 :=
  restarts calls s [] rfl enc events run none some_symbol

/-- A call after an accepted one is accepted for the next identifier, and for every other
one when that was 0xFFFFFFFF. -/
theorem Traced.accepts_iff (traced : Traced w callback enc events)
    (last : (acceptedSymbols events).getLast? = some prev) :
    enc.Accepts s.esi ↔ prev.esi = invalidEsi ∨ s.esi = add32 prev.esi 1 := by
  rw [Encoder.Accepts, traced.ring.ewEsiRight_of_last last]

theorem Traced.ewSsNb_ne_zero (traced : Traced w callback enc events)
    (last : (acceptedSymbols events).getLast? = some prev) : enc.ewSsNb ≠ 0 := by
  have some_symbol := List.length_pos_of_mem (List.mem_of_getLast? last)
  have nb := traced.ring.ewSsNb
  have pos := traced.ring.size_pos
  omega

/-- The accepted symbols of a run are numbered, if it restarts at zero. -/
theorem numbered_of_run (pos : 0 < w) (lt : w < 4294967296)
    (run : WindowRun n w callback calls enc events)
    (restarts : RestartsAtZero n w callback calls) (valid : ∀ s ∈ calls, s.esi < 4294967296) :
    ∃ first, Numbered first (acceptedSymbols events) := by
  induction run with
  | nil => exact ⟨0, fun j s entry => by simp [acceptedSymbols] at entry⟩
  | @snoc enc enc' calls s events out before ok _ ih =>
      obtain ⟨first, numbered⟩ := ih restarts.init fun a mem => valid a (by simp [mem])
      obtain ⟨traced, -⟩ := traced_of_run pos lt before
      obtain ⟨enc'', e, step_eq, -, result⟩ := traced.step s
      rw [step_eq] at ok
      cases ok
      rw [acceptedSymbols_append]
      rcases result with ⟨accepts, rfl⟩ | ⟨-, -, rfl⟩
      · refine numbered.snoc (valid s (by simp)) fun prev last => ?_
        rcases (traced.accepts_iff last).mp accepts with none | next
        · have right := traced.ring.ewEsiRight_of_last last
          rw [none] at right ⊢
          rw [restarts.last before right (traced.ewSsNb_ne_zero last)]
          decide
        · exact next
      · rw [acceptedSymbols_error, List.append_nil]
        exact ⟨first, numbered⟩

/-- The removal callback was called for the symbols that are no longer held. -/
theorem removedEsis_of_run (pos : 0 < w) (lt : w < 4294967296)
    (run : WindowRun n w callback calls enc events)
    (restarts : RestartsAtZero n w callback calls) (valid : ∀ s ∈ calls, s.esi < 4294967296) :
    removedEsis events =
      if callback then (evicted w (acceptedSymbols events)).map SourceSymbol.esi else [] := by
  induction run with
  | nil => simp [removedEsis, acceptedSymbols, evicted]
  | @snoc enc enc' calls s events out before ok _ ih =>
      have valid' : ∀ a ∈ calls, a.esi < 4294967296 := fun a mem => valid a (by simp [mem])
      have earlier := ih restarts.init valid'
      obtain ⟨first, numbered⟩ := numbered_of_run pos lt before restarts.init valid'
      obtain ⟨traced, -⟩ := traced_of_run pos lt before
      obtain ⟨enc'', e, step_eq, -, result⟩ := traced.step s
      rw [step_eq] at ok
      cases ok
      have removed : removedEsis (events ++ [e]) = removedEsis events ++ e.removed := by
        simp [removedEsis]
      rw [removed, earlier, acceptedSymbols_append]
      rcases result with ⟨-, rfl⟩ | ⟨-, -, rfl⟩
      · have evicted_eq := traced.ring.evicted_snoc numbered (s := s)
        rw [traced.size] at evicted_eq
        rw [acceptedSymbols_ok, evicted_eq, Encoder.evicts, traced.callback, traced.size]
        cases callback <;> simp
      · simp

end Consecutive

/-! ### The window of a run -/

/-- The window after calls whose identifiers are below `INVALID_ESI`: the symbols held,
what the encoder says about them, and the calls of the removal callback until now and
in the next call. -/
structure CodingWindow (w : ℕ) (callback : Bool) (enc : Encoder) (events : List WindowEvent) :
    Prop where
  ewSsNb : enc.ewSsNb = min (acceptedSymbols events).length w
  consecutive : ∃ first, (acceptedSymbols events).map SourceSymbol.esi =
    List.range' first (acceptedSymbols events).length
  slot : ∀ k < enc.ewSsNb, ∃ s ∈ acceptedSymbols events,
    s.esi + enc.ewSsNb = enc.ewEsiRight + 1 + k ∧
      enc.ewTab[(enc.ewLeft + k) % w]? = some (some s.buf)
  ewRight : 0 < enc.ewSsNb → enc.ewRight = (enc.ewLeft + (enc.ewSsNb - 1)) % w
  information : 0 < enc.ewSsNb → swifRlcEncoderGetCodingWindowInformation enc =
    (enc.ewEsiRight + 1 - enc.ewSsNb, enc.ewEsiRight, enc.ewSsNb)
  removed : removedEsis events =
    if callback then (evicted w (acceptedSymbols events)).map SourceSymbol.esi else []
  next : ∀ s, ∃ enc' e, windowStep enc s = .ok (enc', [e]) ∧ e.symbol = s ∧
    (e.status = .ok → e.removed =
      if callback ∧ enc.ewSsNb = w then [enc.ewEsiRight + 1 - enc.ewSsNb] else []) ∧
    (e.status ≠ .ok → enc' = enc ∧ e.removed = [])

section CodingWindow

variable {n w first : ℕ} {callback : Bool} {enc : Encoder} {calls : List SourceSymbol}
  {events : List WindowEvent} {history : List SourceSymbol}

/-- Valid identifiers never restart. -/
theorem restartsAtZero_of_valid (pos : 0 < w) (lt : w < 4294967296)
    (valid : ∀ s ∈ calls, s.esi < invalidEsi) : RestartsAtZero n w callback calls := by
  intro before s after split enc events run none some_symbol
  obtain ⟨traced, sub⟩ := traced_of_run pos lt run
  obtain ⟨prev, last⟩ := traced.ring.exists_last some_symbol
  have right := traced.ring.ewEsiRight_of_last last
  have mem : prev ∈ calls := by
    rw [split]
    exact List.mem_append_left _ (sub (List.mem_of_getLast? last))
  have below := valid prev mem
  omega

theorem map_esi_eq_range' (plain : ∀ j s, history[j]? = some s → SourceSymbol.esi s = first + j) :
    history.map SourceSymbol.esi = List.range' first history.length := by
  refine List.ext_getElem? fun j => ?_
  rw [List.getElem?_map]
  rcases Nat.lt_or_ge j history.length with inside | outside
  · have entry := List.getElem?_eq_getElem inside
    rw [entry, List.getElem?_range' inside, Option.map_some, plain _ _ entry, Nat.one_mul]
  · rw [List.getElem?_eq_none outside, List.getElem?_eq_none (by simpa using outside)]
    rfl

/-- The right end of the ring is the slot of the last symbol held. -/
theorem Ring.ewRight_eq (ring : Ring enc history) (some_symbol : 0 < enc.ewSsNb) :
    enc.ewRight = (enc.ewLeft + (enc.ewSsNb - 1)) % enc.maxCodingWindowSize := by
  have nb := ring.ewSsNb
  have last : rightSlot enc.maxCodingWindowSize history.length =
      (history.length - 1) % enc.maxCodingWindowSize := if_neg (by omega)
  have position :
      history.length - min history.length enc.maxCodingWindowSize + (enc.ewSsNb - 1) =
        history.length - 1 := by omega
  rw [ring.ewRight, ring.ewLeft, leftSlot_add, last, position]

section Plain

variable (traced : Traced w callback enc events)
  (plain : ∀ j s, (acceptedSymbols events)[j]? = some s → SourceSymbol.esi s = first + j)
  (below : ∀ s ∈ acceptedSymbols events, s.esi < invalidEsi)
include traced plain below

/-- The identifier of the last symbol held. -/
theorem Traced.ewEsiRight_succ (some_symbol : 0 < enc.ewSsNb) :
    enc.ewEsiRight + 1 = first + (acceptedSymbols events).length ∧
      enc.ewEsiRight < invalidEsi := by
  obtain ⟨prev, last⟩ := traced.ring.exists_last (by omega)
  have mem := List.mem_of_getLast? last
  have esi_eq := plain _ _ (List.getLast?_eq_getElem?.symm.trans last)
  have bound := below prev mem
  have right := traced.ring.ewEsiRight_of_last last
  have some_accepted := List.length_pos_of_mem mem
  omega

/-- The slots hold the last symbols accepted, from the left end of the ring on. -/
theorem Traced.slot {k : ℕ} (lt : k < enc.ewSsNb) :
    ∃ s ∈ acceptedSymbols events, s.esi + enc.ewSsNb = enc.ewEsiRight + 1 + k ∧
      enc.ewTab[(enc.ewLeft + k) % w]? = some (some s.buf) := by
  have nb := traced.ring.ewSsNb
  rw [traced.size] at nb
  have inside : k < (held w (acceptedSymbols events)).length := by
    rw [length_held]
    omega
  have position := List.getElem?_eq_getElem inside
  rw [getElem?_held] at position
  have esi_eq := plain _ _ position
  obtain ⟨last_eq, -⟩ := traced.ewEsiRight_succ plain below (by omega)
  refine ⟨_, List.mem_of_getElem? position, by omega, ?_⟩
  have holds := traced.ring.holds
  rw [traced.size] at holds
  rw [traced.ring.ewLeft, traced.size]
  have slot := holds.from_left (k := k) (a := (held w (acceptedSymbols events))[k].buf) (by
    rw [getElem?_held, List.length_map, List.getElem?_map, position]
    rfl)
  rwa [List.length_map] at slot

/-- The next call removes the oldest symbol if the window is full, and changes nothing if
it is refused. -/
theorem Traced.next_call (s : SourceSymbol) :
    ∃ enc' e, windowStep enc s = .ok (enc', [e]) ∧ e.symbol = s ∧
      (e.status = .ok → e.removed =
        if callback ∧ enc.ewSsNb = w then [enc.ewEsiRight + 1 - enc.ewSsNb] else []) ∧
      (e.status ≠ .ok → enc' = enc ∧ e.removed = []) := by
  have nb := traced.ring.ewSsNb
  rw [traced.size] at nb
  have pos := traced.ring.size_pos
  rw [traced.size] at pos
  have none_eq : invalidEsi = 4294967295 := rfl
  obtain ⟨enc', e, step_eq, -, result⟩ := traced.step s
  refine ⟨enc', e, step_eq, ?_⟩
  rcases result with ⟨-, rfl⟩ | ⟨-, rfl, rfl⟩
  · refine ⟨rfl, fun _ => ?_, fun failed => absurd rfl failed⟩
    rw [Encoder.evicts, traced.size, traced.callback]
    by_cases full : enc.ewSsNb = w
    · obtain ⟨last_eq, bound⟩ := traced.ewEsiRight_succ plain below (by omega)
      have oldest : sub32 (add32 enc.ewEsiRight 1) enc.ewSsNb =
          enc.ewEsiRight + 1 - enc.ewSsNb := by
        unfold add32 sub32
        omega
      rw [if_pos full, oldest]
      simp [full]
    · rw [if_neg full, if_neg (fun both => full both.2)]
  · refine ⟨rfl, ?_, fun _ => ⟨rfl, rfl⟩⟩
    intro accepted
    cases accepted

/-- The window of a run with consecutive identifiers. -/
theorem Traced.codingWindow (removed : removedEsis events =
      if callback then (evicted w (acceptedSymbols events)).map SourceSymbol.esi else []) :
    CodingWindow w callback enc events := by
  have nb := traced.ring.ewSsNb
  rw [traced.size] at nb
  constructor
  case ewSsNb => exact nb
  case consecutive => exact ⟨first, map_esi_eq_range' plain⟩
  case removed => exact removed
  case slot => exact fun k lt => traced.slot plain below lt
  case ewRight =>
    intro some_symbol
    rw [← traced.size]
    exact traced.ring.ewRight_eq some_symbol
  case information =>
    intro some_symbol
    obtain ⟨last_eq, bound⟩ := traced.ewEsiRight_succ plain below some_symbol
    have none_eq : invalidEsi = 4294967295 := rfl
    have information : add32 (sub32 enc.ewEsiRight enc.ewSsNb) 1 =
        enc.ewEsiRight + 1 - enc.ewSsNb := by
      unfold add32 sub32
      omega
    rw [← information]
    rfl
  case next => exact traced.next_call plain below

end Plain

end CodingWindow

/-- Every sequence of calls with identifiers below `INVALID_ESI` runs to its end and
leaves the window of the last symbols accepted. -/
theorem codingWindow_of_run (n : ℕ) {w : ℕ} (pos : 0 < w) (lt : w < 4294967296)
    (callback : Bool) (calls : List SourceSymbol) (valid : ∀ s ∈ calls, s.esi < invalidEsi) :
    ∃ enc events, WindowRun n w callback calls enc events ∧ CodingWindow w callback enc events := by
  obtain ⟨enc, events, run, traced, sub⟩ := exists_windowRun n pos lt callback calls
  have restarts : RestartsAtZero n w callback calls := restartsAtZero_of_valid pos lt valid
  have below : ∀ s ∈ calls, s.esi < 4294967296 := by
    intro s mem
    have size : invalidEsi = 4294967295 := rfl
    have := valid s mem
    omega
  obtain ⟨first, numbered⟩ := numbered_of_run pos lt run restarts below
  have accepted : ∀ s ∈ acceptedSymbols events, s.esi < invalidEsi :=
    fun s mem => valid s (sub mem)
  obtain ⟨first', plain⟩ := numbered.plain accepted
  exact ⟨enc, events, run,
    traced.codingWindow plain accepted (removedEsis_of_run pos lt run restarts below)⟩

theorem codingWindow_three_symbols :
    ∃ enc events, WindowRun 1 2 true [⟨[7], 5⟩, ⟨[8], 6⟩, ⟨[9], 7⟩] enc events ∧
      CodingWindow 2 true enc events :=
  codingWindow_of_run 1 (by decide) (by decide) true _ (by decide)

/-! ### Identifiers across the wrap -/

/-- The symbols held have consecutive identifiers modulo 2^32, and the encoder reports
the oldest one as the first. -/
def ConsecutiveWindow (w : ℕ) (enc : Encoder) (history : List SourceSymbol) : Prop :=
  (∀ k a b, (held w history)[k]? = some a → (held w history)[k + 1]? = some b →
    b.esi = add32 a.esi 1) ∧
  ∀ a, (held w history)[0]? = some a →
    (swifRlcEncoderGetCodingWindowInformation enc).1 = a.esi

/-- Every call after an accepted one is accepted exactly for the next identifier modulo
2^32, and leaves a window of consecutive identifiers. -/
def EsiContinuity (n w : ℕ) (callback : Bool) (calls : List SourceSymbol) : Prop :=
  ∀ before s after, calls = before ++ s :: after →
    ∃ enc events, WindowRun n w callback before enc events ∧
      ∃ enc' e, windowStep enc s = .ok (enc', [e]) ∧
        (∀ prev, (acceptedSymbols events).getLast? = some prev →
          (e.status = .ok ↔ s.esi = add32 prev.esi 1)) ∧
        ConsecutiveWindow w enc' (acceptedSymbols (events ++ [e]))

theorem Traced.consecutiveWindow {w first : ℕ} {callback : Bool} {enc : Encoder}
    {events : List WindowEvent} (traced : Traced w callback enc events)
    (numbered : Numbered first (acceptedSymbols events)) :
    ConsecutiveWindow w enc (acceptedSymbols events) := by
  constructor
  · intro k a b at_k next
    rw [getElem?_held] at at_k next
    have esi_a := numbered _ _ at_k
    have esi_b := numbered _ _ next
    unfold add32
    omega
  · intro a oldest
    rw [← traced.size] at oldest
    exact (traced.ring.oldest numbered oldest).2

/-- The identifiers of a run are continuous across the wrap exactly when each call made
just after 0xFFFFFFFF was accepted has the identifier 0. -/
theorem esiContinuity_iff {n w : ℕ} {callback : Bool} {calls : List SourceSymbol}
    (pos : 0 < w) (lt : w < 4294967296) (valid : ∀ s ∈ calls, s.esi < 4294967296) :
    EsiContinuity n w callback calls ↔ RestartsAtZero n w callback calls := by
  constructor
  · intro continuity before s after split enc events run none some_symbol
    obtain ⟨enc₀, events₀, run₀, enc', e, step_eq, law, -⟩ := continuity before s after split
    obtain ⟨rfl, rfl⟩ := run.deterministic run₀
    obtain ⟨traced, -⟩ := traced_of_run pos lt run
    obtain ⟨prev, last⟩ := traced.ring.exists_last some_symbol
    have right := traced.ring.ewEsiRight_of_last last
    obtain ⟨enc'', e', step_eq', -, result⟩ := traced.step s
    rw [step_eq] at step_eq'
    cases step_eq'
    rcases result with ⟨-, rfl⟩ | ⟨refused, -⟩
    · rw [(law prev last).mp rfl, ← right, none]
      decide
    · exact absurd ((traced.accepts_iff last).mpr (.inl (right.symm.trans none))) refused
  · intro restarts before s after split
    have prefix_split : calls = before ++ [s] ++ after := by
      rw [split, List.append_assoc]
      rfl
    rw [prefix_split] at restarts valid
    have restarts' := restarts.init
    obtain ⟨enc, events, run, traced, -⟩ := exists_windowRun n pos lt callback before
    obtain ⟨enc', e, step_eq, traced', result⟩ := traced.step s
    refine ⟨enc, events, run, enc', e, step_eq, ?_, ?_⟩
    · intro prev last
      have accepts_iff := traced.accepts_iff (s := s) last
      have next : prev.esi = invalidEsi → s.esi = add32 prev.esi 1 := by
        intro none
        have right := traced.ring.ewEsiRight_of_last last
        rw [restarts'.last run (right.trans none) (traced.ewSsNb_ne_zero last), none]
        decide
      rcases result with ⟨accepts, rfl⟩ | ⟨refused, -, rfl⟩
      · refine iff_of_true rfl ?_
        exact (accepts_iff.mp accepts).elim next id
      · refine iff_of_false nofun fun same => ?_
        exact refused (accepts_iff.mpr (.inr same))
    · obtain ⟨first, numbered⟩ := numbered_of_run pos lt (run.snoc step_eq trivial) restarts'
        fun a mem => valid a (List.mem_append_left _ mem)
      exact traced'.consecutiveWindow numbered

/-- After 0xFFFFFFFF comes 0. -/
theorem esiContinuity_across_wrap :
    EsiContinuity 1 2 true [⟨[7], 4294967294⟩, ⟨[8], 4294967295⟩, ⟨[9], 0⟩] := by
  refine (esiContinuity_iff (by decide) (by decide) (by decide)).mpr ?_
  intro before s after split enc events run none some_symbol
  rcases before with _ | ⟨first, _ | ⟨second, _ | ⟨third, rest⟩⟩⟩
  · obtain ⟨rfl, -⟩ := run.deterministic (.nil : WindowRun 1 2 true [] _ [])
    exact absurd rfl some_symbol
  · obtain ⟨rfl, -⟩ := List.cons.inj split
    obtain ⟨enc₁, events₁, steps, right⟩ := exists_steps_of_map
      (show (checkedRun windowStep (fun _ _ _ => True)
        (swifRlcEncoderSetCallbackFunctions (swifRlcEncoderCreate 1 2) true)
        [⟨[7], 4294967294⟩]).map (fun result => result.1.ewEsiRight) = some 4294967294
        by decide +kernel)
    obtain ⟨rfl, -⟩ := run.deterministic steps
    cases right.symm.trans none
  · cases split
    rfl
  · simp at split

/-- With a window of two, the identifiers 0xFFFFFFFF and 7 are both accepted, and 7 is
not the next one. -/
theorem esiContinuity_broken :
    ¬ ∀ (n w : ℕ) (callback : Bool) (calls : List SourceSymbol), 0 < w → w < 4294967296 →
        (∀ s ∈ calls, s.esi < 4294967296) → EsiContinuity n w callback calls := by
  intro continuity
  obtain ⟨enc, events, run, enc', e, step_eq, law, -⟩ :=
    continuity 1 2 true [⟨[7], 4294967295⟩, ⟨[8], 7⟩] (by decide) (by decide) (by decide)
      [⟨[7], 4294967295⟩] ⟨[8], 7⟩ [] rfl
  obtain ⟨enc₀, events₀, steps₀, facts⟩ := exists_steps_of_map
    (show (checkedRun windowStep (fun _ _ _ => True)
      (swifRlcEncoderSetCallbackFunctions (swifRlcEncoderCreate 1 2) true)
      [⟨[7], 4294967295⟩]).map (fun result =>
        ((acceptedSymbols result.2).getLast?,
          (windowStep result.1 ⟨[8], 7⟩).map fun next => next.2.map WindowEvent.status)) =
      some (some ⟨[7], 4294967295⟩, .ok [.ok]) by decide +kernel)
  obtain ⟨rfl, rfl⟩ := run.deterministic steps₀
  rw [step_eq] at facts
  obtain ⟨last, accepted⟩ := Prod.mk.inj facts
  have status : e.status = .ok := by
    injection accepted with statuses
    simpa using statuses
  have next := (law _ last).mp status
  revert next
  decide

end SwifCodec
