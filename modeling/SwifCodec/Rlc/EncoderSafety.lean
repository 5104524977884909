import SwifCodec.Rlc.EncoderWindow

/-!
Indices and moduli of an encoder.

Every index into the tables of the encoder is a number modulo the size of the window, and
every slot a repair symbol reads was written by a call that added a source symbol, as long
as the window has a slot. The size is not checked at creation: an encoder with a window of
no symbols is created, and the first source symbol added to it is written outside its table.
`indexSafe_iff` says that nothing else goes wrong.
-/

namespace SwifCodec

open Library SlidingWindow

/-- A call on an encoder, with any buffers, identifiers, tables and keys. -/
inductive EncodingCall where
  | addSourceSymbolToCodingWindow (newSrcSymbol : SourceSymbol)
  | setCodingCoefsTab (codingCoefsTab : List Gf256) (nbCoefsInTab : ℕ)
  | generateCodingCoefs (key dt : ℕ)
  | buildRepairSymbol
  deriving DecidableEq, Repr

/-- One call. A repair symbol goes to the caller and leaves the encoder as it is. -/
def encodingStep (enc : Encoder) : EncodingCall → Exec (Encoder × List WindowEvent)
  | .addSourceSymbolToCodingWindow s => windowStep enc s
  | .setCodingCoefsTab tab nb => do
      let enc ← swifRlcEncoderSetCodingCoefsTab enc tab nb
      return (enc, [])
  | .generateCodingCoefs key dt => do
      let (enc, _) ← swifRlcEncoderGenerateCodingCoefs enc key dt
      return (enc, [])
  | .buildRepairSymbol => do
      let _ ← swifRlcBuildRepairSymbol enc
      return (enc, [])

/-- The call adds a source symbol. -/
def EncodingCall.Adds : EncodingCall → Prop
  | .addSourceSymbolToCodingWindow _ => True
  | _ => False

instance (call : EncodingCall) : Decidable call.Adds :=
  match call with
  | .addSourceSymbolToCodingWindow _ => .isTrue trivial
  | .setCodingCoefsTab _ _ => .isFalse not_false
  | .generateCodingCoefs _ _ => .isFalse not_false
  | .buildRepairSymbol => .isFalse not_false

/-- `set_coding_coefs_tab` asserts that the coefficients fit in a table of `w` entries. -/
def EncodingCall.Fits (w : ℕ) : EncodingCall → Prop
  | .setCodingCoefsTab _ nb => nb ≤ w
  | _ => True

instance (w : ℕ) (call : EncodingCall) : Decidable (call.Fits w) :=
  match call with
  | .addSourceSymbolToCodingWindow _ => .isTrue trivial
  | .setCodingCoefsTab _ nb => inferInstanceAs (Decidable (nb ≤ w))
  | .generateCodingCoefs _ _ => .isTrue trivial
  | .buildRepairSymbol => .isTrue trivial

/-- The runs of an encoder created with a window of `w` symbols of `n` bytes, whose removal
callback is set or not. -/
abbrev EncodingRun (n w : ℕ) (callback : Bool) :
    List EncodingCall → Encoder → List WindowEvent → Prop :=
  Steps encodingStep (fun _ _ _ => True)
    (swifRlcEncoderSetCallbackFunctions (swifRlcEncoderCreate n w) callback)

/-- A modulo by zero, an index outside a table of the encoder, or a slot without symbol. -/
def IndexFault : Fault → Prop
  | .divisionByZero => True
  | .outOfBounds .ewTab => True
  | .outOfBounds .ccTab => True
  | .nullDereference => True
  | _ => False

/-- The call has no fault of these kinds. -/
def SparesIndices {α : Type} (x : Exec α) : Prop := ∀ fault, x = .error fault → ¬ IndexFault fault

/-- The tables have one entry for each symbol of the window, and the slots in use hold
source symbols that were added. -/
structure Indexed (w : ℕ) (enc : Encoder) (events : List WindowEvent) : Prop where
  size : enc.maxCodingWindowSize = w
  ewTab : enc.ewTab.length = w
  ccTab : enc.ccTab.length = w
  ewSsNb : enc.ewSsNb ≤ w
  filled : ∀ i < enc.ewSsNb, i % w < w ∧
    ∃ s ∈ acceptedSymbols events, enc.ewTab[i % w]? = some (some s.buf)

/-- No call of the run has an index fault, and every slot in use was written, at any time. -/
def IndexSafe (n w : ℕ) (callback : Bool) (calls : List EncodingCall) : Prop :=
  ∀ before after, calls = before ++ after →
    ∀ enc events, EncodingRun n w callback before enc events →
      Indexed w enc events ∧ ∀ call ∈ after.head?, SparesIndices (encodingStep enc call)

/-! ### The faults of a call -/

namespace SparesIndices

variable {α β : Type}

theorem ok (a : α) : SparesIndices (.ok a) := nofun

theorem bind {x : Exec α} {f : α → Exec β} (first : SparesIndices x)
    (rest : ∀ a, x = .ok a → SparesIndices (f a)) : SparesIndices (x >>= f) := by
  intro fault eq
  rcases bind_eq_error.mp eq with early | ⟨a, eq_a, late⟩
  · exact first fault early
  · exact rest a eq_a fault late

theorem cAssert (cond : Bool) : SparesIndices (cAssert cond) := by
  intro fault eq
  cases cond <;> cases eq
  exact not_false

/-- The buffers of the caller are not tables of the encoder. -/
theorem symbolBuf (cells : Option α) : SparesIndices (access .symbolBuf cells) := by
  intro fault eq
  cases cells <;> cases eq
  exact not_false

theorem foldlM {f : β → α → Exec β} {l : List α} (each : ∀ b, ∀ a ∈ l, SparesIndices (f b a))
    (b : β) : SparesIndices (l.foldlM f b) := by
  intro fault eq
  obtain ⟨b', a, mem, eq⟩ := foldlM_eq_error eq
  exact each b' a mem fault eq

end SparesIndices

section Call

variable {w : ℕ} {enc enc' : Encoder} {events out : List WindowEvent} {call : EncodingCall}

/-- A repair symbol only reads slots in use. -/
theorem Indexed.buildRepairSymbol (indexed : Indexed w enc events) :
    SparesIndices (swifRlcBuildRepairSymbol enc) := by
  refine SparesIndices.foldlM (fun newBuf i mem => ?_) _
  rw [List.mem_range'_1] at mem
  obtain ⟨slot, s, -, held⟩ := indexed.filled i (by omega)
  have entry : ∃ coef, enc.ccTab[i % w]? = some coef :=
    ⟨_, List.getElem?_eq_getElem (by rw [indexed.ccTab]; exact slot)⟩
  obtain ⟨coef, coef_eq⟩ := entry
  unfold buildRepairStep
  rw [indexed.size, mod32_of_pos (by omega), ok_bind, coef_eq, access_some, ok_bind, held,
    access_some, ok_bind]
  exact SparesIndices.symbolBuf _

/-- The coefficients set are copied to the front of the table. -/
theorem Indexed.setCodingCoefsTab (indexed : Indexed w enc events) (tab : List Gf256) (nb : ℕ) :
    SparesIndices (swifRlcEncoderSetCodingCoefsTab enc tab nb) := by
  unfold swifRlcEncoderSetCodingCoefsTab
  by_cases le : nb ≤ enc.maxCodingWindowSize
  · rw [cAssert_of (decide_eq_true le), ok_bind]
    refine .bind (.symbolBuf _) fun cells eq => ?_
    have length := Block.length_of_load (access_eq_ok.mp eq)
    rw [indexed.size, ← indexed.ccTab] at le
    rw [Block.store_eq_some (by omega), access_some, ok_bind]
    exact .ok _
  · rw [cAssert_of_not le, error_bind]
    intro fault eq
    cases eq
    exact not_false

/-- The coefficients generated are as many as there are symbols in the window. -/
theorem Indexed.generateCodingCoefs (indexed : Indexed w enc events) (key dt : ℕ) :
    ∃ tab, swifRlcEncoderGenerateCodingCoefs enc key dt = .ok ({ enc with ccTab := tab }, .ok) ∧
      tab.length = w := by
  have le : enc.ewSsNb ≤ enc.maxCodingWindowSize := by
    rw [indexed.size]
    exact indexed.ewSsNb
  have fits : enc.ewSsNb % 65536 ≤ enc.ccTab.length := by
    rw [indexed.ccTab]
    exact (Nat.mod_le _ _).trans indexed.ewSsNb
  obtain ⟨tab, generate_eq⟩ : ∃ tab, SwifCodec.generateCodingCoefs .ccTab enc.ccTab enc.ewSsNb
      enc.maxCodingWindowSize key dt = .ok tab := by
    rcases Nat.lt_or_ge 15 dt with refused | density
    · exact ⟨_, generateCodingCoefs_refused le refused⟩
    · obtain ⟨cs, -, eq⟩ := generateCodingCoefs_spec le density fits
      exact ⟨_, eq⟩
  refine ⟨tab, ?_, (length_generateCodingCoefs generate_eq).trans indexed.ccTab⟩
  unfold swifRlcEncoderGenerateCodingCoefs
  rw [generate_eq, ok_bind]
  rfl

/-- A call that adds no symbol has no index fault. -/
theorem Indexed.spares (indexed : Indexed w enc events) (other : ¬ call.Adds) :
    SparesIndices (encodingStep enc call) := by
  cases call with
  | addSourceSymbolToCodingWindow s => exact absurd trivial other
  | setCodingCoefsTab tab nb =>
      exact .bind (indexed.setCodingCoefsTab tab nb) fun _ _ => .ok _
  | generateCodingCoefs key dt =>
      obtain ⟨tab, eq, -⟩ := indexed.generateCodingCoefs key dt
      rw [encodingStep, eq]
      exact .ok _
  | buildRepairSymbol => exact .bind indexed.buildRepairSymbol fun _ _ => .ok _

/-- A call that adds no symbol writes at most the coefficients. -/
theorem encodingStep_of_not_adds (other : ¬ call.Adds)
    (ok : encodingStep enc call = .ok (enc', out)) :
    ∃ tab, enc' = { enc with ccTab := tab } ∧ tab.length = enc.ccTab.length ∧ out = [] := by
  cases call with
  | addSourceSymbolToCodingWindow s => exact absurd trivial other
  | setCodingCoefsTab tab nb =>
      obtain ⟨next, set_eq, result⟩ := bind_eq_ok.mp ok
      cases result
      obtain ⟨ccTab, rfl, length⟩ := swifRlcEncoderSetCodingCoefsTab_of_ok set_eq
      exact ⟨ccTab, rfl, length, rfl⟩
  | generateCodingCoefs key dt =>
      obtain ⟨⟨next, status⟩, generate_eq, result⟩ := bind_eq_ok.mp ok
      cases result
      obtain ⟨ccTab, rfl, length⟩ := swifRlcEncoderGenerateCodingCoefs_of_ok generate_eq
      exact ⟨ccTab, rfl, length, rfl⟩
  | buildRepairSymbol =>
      obtain ⟨newBuf, -, result⟩ := bind_eq_ok.mp ok
      cases result
      exact ⟨enc.ccTab, rfl, rfl, rfl⟩

end Call

/-! ### A window with a slot -/

/-- The encoder of a run with a window that has a slot. -/
structure Ringed (w : ℕ) (enc : Encoder) (events : List WindowEvent) : Prop where
  ring : Ring enc (acceptedSymbols events)
  size : enc.maxCodingWindowSize = w
  ccTab : enc.ccTab.length = w

section Ringed

variable {n w : ℕ} {callback : Bool} {enc enc' : Encoder} {events out : List WindowEvent}
  {call : EncodingCall} {calls : List EncodingCall}

theorem Ringed.indexed (ringed : Ringed w enc events) : Indexed w enc events where
  size := ringed.size
  ewTab := ringed.ring.ewTab.trans ringed.size
  ccTab := ringed.ccTab
  ewSsNb := by
    rw [ringed.ring.ewSsNb, ringed.size]
    exact Nat.min_le_right _ _
  filled := by
    intro i lt
    have pos := ringed.ring.size_pos
    rw [ringed.ring.ewSsNb] at lt
    obtain ⟨buf, mem, slot⟩ := ringed.ring.holds.filled pos (r := i) (by simpa using lt)
    obtain ⟨s, added, rfl⟩ := List.mem_map.mp mem
    rw [← ringed.size, Nat.mod_eq_of_lt (by omega)]
    exact ⟨by omega, s, added, slot⟩

/-- Adding a symbol returns, accepted or not. -/
theorem Ringed.add (ringed : Ringed w enc events) (s : SourceSymbol) :
    ∃ enc' out, windowStep enc s = .ok (enc', out) ∧ Ringed w enc' (events ++ out) := by
  by_cases accepts : enc.Accepts s.esi
  · obtain ⟨enc', add_eq, ring⟩ := swifRlcEncoderAddSourceSymbol_accepted ringed.ring accepts
    have kept : enc'.maxCodingWindowSize = enc.maxCodingWindowSize ∧ enc'.ccTab = enc.ccTab := by
      rcases swifRlcEncoderAddSourceSymbol_of_ok add_eq with ⟨refused, -⟩ | ⟨-, -, -, -, -, -, rfl⟩
      · exact absurd accepts refused
      · exact ⟨rfl, rfl⟩
    refine ⟨enc', [⟨s, .ok, enc.evicts⟩], ?_, ?_, kept.1.trans ringed.size, ?_⟩
    · unfold windowStep
      rw [add_eq]
      rfl
    · rwa [acceptedSymbols_append, acceptedSymbols_ok]
    · rw [kept.2, ringed.ccTab]
  · refine ⟨enc, _, windowStep_rejected accepts, ?_, ringed.size, ringed.ccTab⟩
    rw [acceptedSymbols_append, acceptedSymbols_error, List.append_nil]
    exact ringed.ring

/-- Every call keeps the ring. -/
theorem Ringed.step (ringed : Ringed w enc events)
    (ok : encodingStep enc call = .ok (enc', out)) : Ringed w enc' (events ++ out) := by
  by_cases adds : call.Adds
  · cases call with
    | addSourceSymbolToCodingWindow s =>
        obtain ⟨enc'', out', add_eq, ringed'⟩ := ringed.add s
        rw [encodingStep, add_eq] at ok
        cases ok
        exact ringed'
    | _ => exact adds.elim
  · obtain ⟨tab, rfl, length, rfl⟩ := encodingStep_of_not_adds adds ok
    rw [List.append_nil]
    exact ⟨ringed.ring.setCcTab tab, ringed.size, length.trans ringed.ccTab⟩

/-- No call has an index fault. -/
theorem Ringed.spares (ringed : Ringed w enc events) (call : EncodingCall) :
    SparesIndices (encodingStep enc call) := by
  by_cases adds : call.Adds
  · cases call with
    | addSourceSymbolToCodingWindow s =>
        obtain ⟨enc', out, add_eq, -⟩ := ringed.add s
        rw [encodingStep, add_eq]
        exact .ok _
    | _ => exact adds.elim
  · exact ringed.indexed.spares adds

theorem ringed_of_run (pos : 0 < w) (lt : w < 4294967296)
    (run : EncodingRun n w callback calls enc events) : Ringed w enc events := by
  induction run with
  | nil =>
      exact ⟨swifRlcEncoderCreate_ring pos lt callback, rfl, List.length_replicate⟩
  | snoc _ ok _ ih => exact ih.step ok

end Ringed

/-! ### A window without symbols -/

/-- The encoder of a run that added no source symbol. -/
structure Unused (w : ℕ) (enc : Encoder) : Prop where
  size : enc.maxCodingWindowSize = w
  ewTab : enc.ewTab.length = w
  ccTab : enc.ccTab.length = w
  ewSsNb : enc.ewSsNb = 0
  ewLeft : enc.ewLeft = 0
  ewEsiRight : enc.ewEsiRight = invalidEsi

section Unused

variable {n w : ℕ} {callback : Bool} {enc : Encoder} {events : List WindowEvent}
  {call : EncodingCall} {calls : List EncodingCall}

theorem Unused.indexed (unused : Unused w enc) (events : List WindowEvent) :
    Indexed w enc events where
  size := unused.size
  ewTab := unused.ewTab
  ccTab := unused.ccTab
  ewSsNb := by
    rw [unused.ewSsNb]
    exact Nat.zero_le _
  filled := by
    intro i lt
    rw [unused.ewSsNb] at lt
    cases lt

theorem unused_of_run (none : ∀ call ∈ calls, ¬ EncodingCall.Adds call)
    (run : EncodingRun n w callback calls enc events) : Unused w enc := by
  induction run with
  | nil => exact ⟨rfl, List.length_replicate, List.length_replicate, rfl, rfl, rfl⟩
  | snoc _ ok _ ih =>
      have unused := ih fun call mem => none call (List.mem_append_left _ mem)
      obtain ⟨tab, rfl, length, -⟩ := encodingStep_of_not_adds (none _ (by simp)) ok
      exact ⟨unused.size, unused.ewTab, length.trans unused.ccTab, unused.ewSsNb, unused.ewLeft,
        unused.ewEsiRight⟩

/-- Without a slot, a call that adds no symbol returns. -/
theorem Unused.returns (unused : Unused 0 enc) (other : ¬ call.Adds) (fits : call.Fits 0) :
    ∃ result, encodingStep enc call = .ok result := by
  cases call with
  | addSourceSymbolToCodingWindow s => exact absurd trivial other
  | setCodingCoefsTab tab nb =>
      obtain rfl : nb = 0 := Nat.le_zero.mp fits
      rw [encodingStep, swifRlcEncoderSetCodingCoefsTab,
        cAssert_of (decide_eq_true (Nat.zero_le _)), ok_bind,
        Block.load_eq_some (Nat.zero_le _), access_some, ok_bind, Block.store_eq_some (by simp),
        access_some]
      exact ⟨_, rfl⟩
  | generateCodingCoefs key dt =>
      obtain ⟨tab, eq, -⟩ := (unused.indexed []).generateCodingCoefs key dt
      rw [encodingStep, eq]
      exact ⟨_, rfl⟩
  | buildRepairSymbol =>
      rw [encodingStep, swifRlcBuildRepairSymbol, unused.ewSsNb, Nat.zero_sub]
      exact ⟨_, rfl⟩

/-- The first source symbol added to a window without slots is written outside its table. -/
theorem Unused.add_fault (unused : Unused 0 enc) (s : SourceSymbol) :
    encodingStep enc (.addSourceSymbolToCodingWindow s) = .error (.outOfBounds .ewTab) := by
  have accepted : ¬ (enc.ewEsiRight ≠ invalidEsi ∧ s.esi ≠ add32 enc.ewEsiRight 1) :=
    fun refused => refused.1 unused.ewEsiRight
  have full : enc.ewSsNb = enc.maxCodingWindowSize := unused.ewSsNb.trans unused.size.symm
  have outside : Block.store enc.ewTab enc.ewLeft [some s.buf] = none := by
    rw [Block.store_eq_none_iff, unused.ewTab]
    exact Nat.lt_add_left _ Nat.zero_lt_one
  unfold encodingStep windowStep swifRlcEncoderAddSourceSymbolToCodingWindow
  dsimp only
  rw [if_neg accepted, if_pos full, outside]
  rfl

end Unused

/-! ### All runs -/

/-- The calls before the first one that adds a symbol. -/
theorem exists_first_add {calls : List EncodingCall} (some_add : ∃ call ∈ calls, call.Adds) :
    ∃ before s after, calls = before ++ .addSourceSymbolToCodingWindow s :: after ∧
      ∀ call ∈ before, ¬ EncodingCall.Adds call := by
  induction calls with
  | nil =>
      obtain ⟨call, mem, -⟩ := some_add
      cases mem
  | cons call calls ih =>
      by_cases adds : call.Adds
      · cases call with
        | addSourceSymbolToCodingWindow s => exact ⟨[], s, calls, rfl, nofun⟩
        | _ => exact adds.elim
      · obtain ⟨later, mem, adds'⟩ := some_add
        rcases List.mem_cons.mp mem with rfl | mem
        · exact absurd adds' adds
        · obtain ⟨before, s, after, rfl, none⟩ := ih ⟨later, mem, adds'⟩
          refine ⟨call :: before, s, after, rfl, fun other mem => ?_⟩
          rcases List.mem_cons.mp mem with rfl | mem
          · exact adds
          · exact none other mem

/-- Without a slot, calls that add no symbol run to their end. -/
theorem exists_encodingRun {n : ℕ} {callback : Bool} {calls : List EncodingCall}
    (none : ∀ call ∈ calls, ¬ EncodingCall.Adds call)
    (fits : ∀ call ∈ calls, EncodingCall.Fits 0 call) :
    ∃ enc events, EncodingRun n 0 callback calls enc events := by
  induction calls using List.reverseRecOn with
  | nil => exact ⟨_, _, .nil⟩
  | append_singleton calls call ih =>
      have earlier : ∀ call ∈ calls, ¬ EncodingCall.Adds call :=
        fun call mem => none call (List.mem_append_left _ mem)
      obtain ⟨enc, events, run⟩ := ih earlier fun call mem => fits call (List.mem_append_left _ mem)
      obtain ⟨⟨enc', out⟩, ok⟩ := (unused_of_run earlier run).returns (none call (by simp))
        (fits call (by simp))
      exact ⟨enc', events ++ out, run.snoc ok trivial⟩

/-- The calls of an encoder divide by no zero, stay inside its tables and read only slots
that hold a source symbol, exactly when the window has a slot or no source symbol is added. -/
theorem indexSafe_iff (n w : ℕ) (lt : w < 4294967296) (callback : Bool)
    (calls : List EncodingCall) (fits : ∀ call ∈ calls, EncodingCall.Fits w call) :
    IndexSafe n w callback calls ↔ 1 ≤ w ∨ ∀ call ∈ calls, ¬ EncodingCall.Adds call := by
  constructor
  · intro safe
    by_contra neither
    obtain ⟨zero, some_add⟩ := not_or.mp neither
    obtain rfl : w = 0 := by omega
    obtain ⟨before, s, after, rfl, none⟩ := exists_first_add (by simpa using some_add)
    obtain ⟨enc, events, run⟩ :=
      exists_encodingRun none fun call mem => fits call (List.mem_append_left _ mem)
    obtain ⟨-, spares⟩ := safe before _ rfl enc events run
    exact spares _ rfl _ ((unused_of_run none run).add_fault s) trivial
  · intro slots before after split enc events run
    rcases slots with pos | none
    · have ringed := ringed_of_run pos lt run
      exact ⟨ringed.indexed, fun call _ => ringed.spares call⟩
    · have unused := unused_of_run (fun call mem => none call (by simp [split, mem])) run
      refine ⟨unused.indexed events, fun call next => (unused.indexed events).spares ?_⟩
      exact none call (split ▸ List.mem_append_right _ (List.mem_of_mem_head? next))

theorem indexSafe_iff_three_symbols :
    IndexSafe 1 2 false
      [.addSourceSymbolToCodingWindow ⟨[7], 5⟩, .addSourceSymbolToCodingWindow ⟨[8], 6⟩,
        .addSourceSymbolToCodingWindow ⟨[9], 7⟩, .setCodingCoefsTab [1, 1] 2,
        .buildRepairSymbol] :=
  (indexSafe_iff 1 2 (by decide) false _ (by decide)).mpr (.inl (by decide))

/-- An encoder with a window of no symbols is created, and the first source symbol is written
outside its table. -/
theorem indexSafe_broken :
    ¬ ∀ (n w : ℕ) (callback : Bool) (calls : List EncodingCall), w < 4294967296 →
        (∀ call ∈ calls, EncodingCall.Fits w call) → IndexSafe n w callback calls := by
  intro safe
  obtain ⟨-, spares⟩ := safe 1 0 false [.addSourceSymbolToCodingWindow ⟨[7], 5⟩] (by decide)
    (by decide) [] _ rfl _ _ .nil
  have fault : encodingStep (swifRlcEncoderSetCallbackFunctions (swifRlcEncoderCreate 1 0) false)
      (.addSourceSymbolToCodingWindow ⟨[7], 5⟩) = .error (.outOfBounds .ewTab) := by decide
  exact spares _ rfl _ fault trivial

end SwifCodec
