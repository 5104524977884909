import SwifCodec.Memory.Encoder

/-!
An application and its encoder.

Between the calls of the encoder the application allocates, overwrites and frees buffers.

* `encoder_memory_of_run`: while it leaves the buffers of the window alone, and builds repair
  symbols in other buffers, every call does what it does for an encoder that copies the source
  symbols; nothing fails by using a buffer that was freed.
* `lent_iff_of_run`: the buffers of the window are those of the symbols accepted and not yet passed
  to the removal callback, so the application can tell when a buffer is its own again.
-/

namespace SwifCodec

open Library SlidingWindow Gf256

/-- A call of the application, on the encoder or on its buffers. -/
inductive EncoderCallAt where
  | addSourceSymbolToCodingWindow (newSrcSymbolBuf newSrcSymbolEsi : ℕ)
  | setCodingCoefsTab (codingCoefsTab : List Gf256) (nbCoefsInTab : ℕ)
  | generateCodingCoefs (key dt : ℕ)
  | buildRepairSymbol (newBuf : Option ℕ)
  | allocate (contents : List Gf256)
  | overwrite (buf : ℕ) (contents : List Gf256)
  | release (buf : ℕ)
  deriving DecidableEq, Repr

/-- What the application sees of a call: a source symbol with the contents of its buffer at that
moment, or a repair symbol with the address of its buffer. -/
inductive EncoderEvent where
  | window (buf : ℕ) (event : WindowEvent)
  | repair (buf : ℕ) (symbol : List Gf256)
  deriving DecidableEq, Repr

/-- The calls on the window. -/
def windowEvents (outs : List EncoderEvent) : List WindowEvent :=
  outs.filterMap fun
    | .window _ event => some event
    | .repair _ _ => none

/-- One call in memory. -/
def encoderCallAt (enc : EncoderAt) : EncoderCallAt → BufferExec (EncoderAt × List EncoderEvent)
  | .addSourceSymbolToCodingWindow buf esi => do
      let memory ← HeapExec.heap
      let (enc, status, removed) ← HeapExec.lift
        (swifRlcEncoderAddSourceSymbolToCodingWindowAt enc buf esi)
      return (enc, [.window buf ⟨⟨(memory.read buf).getD [], esi⟩, status, removed⟩])
  | .setCodingCoefsTab tab nb => do
      let memory ← HeapExec.heap
      let e ← HeapExec.lift (swifRlcEncoderSetCodingCoefsTab (enc.view memory) tab nb)
      return ({ enc with ccTab := e.ccTab }, [])
  | .generateCodingCoefs key dt => do
      let memory ← HeapExec.heap
      let (e, _) ← HeapExec.lift (swifRlcEncoderGenerateCodingCoefs (enc.view memory) key dt)
      return ({ enc with ccTab := e.ccTab }, [])
  | .buildRepairSymbol newBuf => do
      let p ← swifRlcBuildRepairSymbolAt enc newBuf
      let data ← HeapExec.read p
      return (enc, [.repair p (data.take enc.symbolSize)])
  | .allocate contents => do
      let _ ← HeapExec.alloc contents
      return (enc, [])
  | .overwrite buf contents => do
      HeapExec.write buf contents
      return (enc, [])
  | .release buf => do
      HeapExec.free buf
      return (enc, [])

/-- An encoder with the buffers of the application. -/
abbrev EncoderMemory := EncoderAt × Buffers

/-- One call of a run. -/
def encoderStepAt (state : EncoderMemory) (call : EncoderCallAt) :
    Except (HeapFault Fault) (EncoderMemory × List EncoderEvent) :=
  match encoderCallAt state.1 call state.2 with
  | .ok ((enc, out), h) => .ok ((enc, h), out)
  | .error e => .error e

namespace EncoderMemory

/-- The encoder as the other modules have it. -/
def view (state : EncoderMemory) : Encoder := state.1.view state.2

/-- The call as the encoder of the other modules gets it; none, if it is on a buffer. -/
def seen (state : EncoderMemory) : EncoderCallAt → Option EncodingCall
  | .addSourceSymbolToCodingWindow buf esi =>
      some (.addSourceSymbolToCodingWindow ⟨(state.2.read buf).getD [], esi⟩)
  | .setCodingCoefsTab tab nb => some (.setCodingCoefsTab tab nb)
  | .generateCodingCoefs key dt => some (.generateCodingCoefs key dt)
  | .buildRepairSymbol _ => some .buildRepairSymbol
  | .allocate _ | .overwrite _ _ | .release _ => none

/-- The application passes and uses live buffers, and leaves those of the window alone. -/
def Respects (state : EncoderMemory) : EncoderCallAt → Prop
  | .addSourceSymbolToCodingWindow buf _ => (state.2.read buf).isSome
  | .buildRepairSymbol newBuf => state.1.Target state.2 newBuf
  | .overwrite buf _ | .release buf => ¬ state.1.Lent buf ∧ (state.2.read buf).isSome
  | .setCodingCoefsTab _ _ | .generateCodingCoefs _ _ | .allocate _ => True

instance (state : EncoderMemory) (call : EncoderCallAt) : Decidable (state.Respects call) :=
  match call with
  | .addSourceSymbolToCodingWindow _ _ => inferInstanceAs (Decidable (_ = true))
  | .setCodingCoefsTab _ _ => .isTrue trivial
  | .generateCodingCoefs _ _ => .isTrue trivial
  | .buildRepairSymbol _ => inferInstanceAs (Decidable (EncoderAt.Target _ _ _))
  | .allocate _ => .isTrue trivial
  | .overwrite _ _ => inferInstanceAs (Decidable (_ ∧ _))
  | .release _ => inferInstanceAs (Decidable (_ ∧ _))

/-- What the encoder of the other modules does. -/
def answer (state : EncoderMemory) (call : EncoderCallAt) : Exec (Encoder × List WindowEvent) :=
  match state.seen call with
  | some c => encodingStep state.view c
  | none => .ok (state.view, [])

end EncoderMemory

/-! ### Calls -/

section Call

variable {enc : EncoderAt} {h : Buffers} {call : EncoderCallAt}

/-- What a call does, next to what the encoder of the other modules does. -/
structure Served (enc : EncoderAt) (h : Buffers) (call : EncoderCallAt) (enc' : EncoderAt)
    (out : List EncoderEvent) (h' : Buffers) (answer : Encoder × List WindowEvent) : Prop where
  view : answer.1 = enc'.view h'
  events : answer.2 = windowEvents out
  live : ∀ q, enc'.Lent q → (h'.read q).isSome
  repair : ∀ newBuf, call = .buildRepairSymbol newBuf → ∃ p symbol,
    out = [.repair p symbol] ∧ swifRlcBuildRepairSymbol (enc.view h) = .ok symbol ∧
      Built enc h newBuf p h' symbol

/-- An encoder whose buffers keep their contents. -/
theorem EncoderAt.view_congr {h' : Buffers} (same : ∀ q, enc.Lent q → h'.read q = h.read q) :
    enc.view h' = enc.view h := by
  have slots : enc.ewTab.map (Option.map fun p => (h'.read p).getD []) =
      enc.ewTab.map (Option.map fun p => (h.read p).getD []) := by
    refine List.map_congr_left fun slot mem => ?_
    cases slot with
    | none => rfl
    | some q => rw [Option.map_some, Option.map_some, same q mem]
  unfold view map
  rw [slots]

/-- A call that leaves the window and its buffers. -/
theorem Served.idle {h' : Buffers} (live : ∀ q, enc.Lent q → (h.read q).isSome)
    (same : ∀ q, enc.Lent q → h'.read q = h.read q) (tab : List Gf256)
    (other : ∀ newBuf, call ≠ .buildRepairSymbol newBuf) :
    Served enc h call { enc with ccTab := tab } [] h' ({ enc.view h with ccTab := tab }, []) where
  view := by
    rw [← EncoderAt.view_congr same]
    rfl
  events := rfl
  live q lent := by
    rw [same q lent]
    exact live q lent
  repair newBuf is_build := absurd is_build (other newBuf)

/-- A call does in memory what it does without: it fails where it fails, and never by using a
freed block. -/
theorem encoderCallAt_sim (live : ∀ q, enc.Lent q → (h.read q).isSome)
    (respects : EncoderMemory.Respects (enc, h) call) :
    Simulates h (encoderCallAt enc call) (EncoderMemory.answer (enc, h) call)
      fun r h' r' => Served enc h call r.1 r.2 h' r' := by
  cases call with
  | addSourceSymbolToCodingWindow buf esi =>
      refine Simulates.heap ?_
      show Simulates h _ (windowStep (enc.view h) ⟨(h.read buf).getD [], esi⟩) _
      unfold windowStep EncoderAt.view
      rw [swifRlcEncoderAddSourceSymbol_map fun p => (h.read p).getD []]
      cases added : swifRlcEncoderAddSourceSymbolToCodingWindowAt enc buf esi with
      | error e => exact rfl
      | ok r =>
          obtain ⟨enc', status, removed⟩ := r
          refine Simulates.step rfl (.refl h) (Simulates.pure ⟨rfl, rfl, fun q lent => ?_, nofun⟩)
          rcases swifRlcEncoderAddSourceSymbolAt_lent added lent with old | rfl
          · exact live q old
          · exact respects
  | setCodingCoefsTab tab nb =>
      refine Simulates.heap ?_
      show Simulates h _ (swifRlcEncoderSetCodingCoefsTab (enc.view h) tab nb >>= _) _
      cases set : swifRlcEncoderSetCodingCoefsTab (enc.view h) tab nb with
      | error e => exact rfl
      | ok e =>
          obtain ⟨ccTab, rfl, -⟩ := swifRlcEncoderSetCodingCoefsTab_of_ok set
          exact Simulates.step rfl (.refl h)
            (Simulates.pure (Served.idle live (fun _ _ => rfl) ccTab nofun))
  | generateCodingCoefs key dt =>
      refine Simulates.heap ?_
      show Simulates h _ (swifRlcEncoderGenerateCodingCoefs (enc.view h) key dt >>= _) _
      cases generated : swifRlcEncoderGenerateCodingCoefs (enc.view h) key dt with
      | error e => exact rfl
      | ok r =>
          obtain ⟨ccTab, eq, -⟩ := swifRlcEncoderGenerateCodingCoefs_of_ok generated
          obtain ⟨e, status⟩ := r
          obtain rfl : e = _ := eq
          exact Simulates.step rfl (.refl h)
            (Simulates.pure (Served.idle live (fun _ _ => rfl) ccTab nofun))
  | buildRepairSymbol newBuf =>
      refine (swifRlcBuildRepairSymbolAt_sim live respects).bind fun p h' symbol _ ok built => ?_
      obtain ⟨rest, read⟩ := built.read
      refine Simulates.read read ?_
      rw [← built.length, List.take_left]
      have others : ∀ q, enc.Lent q → h'.read q = h.read q := by
        intro q lent
        refine built.others q ?_
        rintro rfl
        rcases built.address with rfl | ⟨-, fresh⟩
        · exact (respects q rfl).1 lent
        · have used := live q lent
          rw [fresh] at used
          cases used
      refine Simulates.pure ⟨?_, rfl, fun q lent => ?_, ?_⟩
      · exact (EncoderAt.view_congr others).symm
      · rw [others q lent]
        exact live q lent
      · rintro newBuf' same
        cases same
        exact ⟨p, symbol, rfl, ok, built⟩
  | allocate contents =>
      refine Simulates.step rfl (h.later_alloc contents)
        (Simulates.pure (Served.idle live (fun q lent => ?_) enc.ccTab nofun))
      obtain ⟨data, read⟩ := Option.isSome_iff_exists.mp (live q lent)
      exact (h.read_alloc q).trans (if_neg (Heap.lt_of_read read).ne)
  | overwrite buf contents =>
      obtain ⟨data, read⟩ := Option.isSome_iff_exists.mp respects.2
      refine Simulates.write_live read fun h' _ reads =>
        Simulates.pure (Served.idle live (fun q lent => ?_) enc.ccTab nofun)
      rw [reads, if_neg]
      rintro rfl
      exact respects.1 lent
  | release buf =>
      obtain ⟨data, read⟩ := Option.isSome_iff_exists.mp respects.2
      refine Simulates.free_live read fun h' _ reads =>
        Simulates.pure (Served.idle live (fun q lent => ?_) enc.ccTab nofun)
      rw [reads, if_neg]
      rintro rfl
      exact respects.1 lent

end Call

/-! ### The encoder of the other modules -/

/-- The calls of a run as the encoder of the other modules gets them. -/
def seenCalls (state : EncoderMemory) : List EncoderCallAt → List EncodingCall
  | [] => []
  | call :: calls =>
      (state.seen call).toList ++
        match encoderStepAt state call with
        | .ok (state', _) => seenCalls state' calls
        | .error _ => []

/-- The runs of an application that leaves the buffers of the window alone. -/
abbrev LendingRun (n w : ℕ) (callback : Bool) (h : Buffers) :
    List EncoderCallAt → EncoderMemory → List EncoderEvent → Prop :=
  Steps encoderStepAt (fun state call _ => state.Respects call)
    (swifRlcEncoderCreateAt n w callback, h)

section Run

variable {n w : ℕ} {callback : Bool} {h : Buffers} {start state state' : EncoderMemory}
  {call : EncoderCallAt} {calls : List EncoderCallAt} {outs out : List EncoderEvent}

theorem swifRlcEncoderCreateAt_map (f : ℕ → List Gf256) (n w : ℕ) (callback : Bool) :
    (swifRlcEncoderCreateAt n w callback).map f =
      swifRlcEncoderSetCallbackFunctions (swifRlcEncoderCreate n w) callback := by
  unfold EncoderAt.map swifRlcEncoderCreateAt
  rw [List.map_replicate]
  rfl

theorem swifRlcEncoderCreateAt_not_lent (p : ℕ) : ¬ (swifRlcEncoderCreateAt n w callback).Lent p :=
  fun lent => by cases List.eq_of_mem_replicate lent

theorem windowEvents_append (outs outs' : List EncoderEvent) :
    windowEvents (outs ++ outs') = windowEvents outs ++ windowEvents outs' :=
  List.filterMap_append

/-- The last call of a run is seen after the others. -/
theorem seenCalls_concat {meets : EncoderMemory → EncoderCallAt → EncoderMemory → Prop}
    (run : Steps encoderStepAt meets start calls state outs) (call : EncoderCallAt) :
    seenCalls start (calls ++ [call]) = seenCalls start calls ++ (state.seen call).toList := by
  induction calls generalizing start outs with
  | nil =>
      have no_call : Steps encoderStepAt meets start [] start [] := .nil
      obtain ⟨rfl, -⟩ := run.deterministic no_call
      rw [List.nil_append, seenCalls, seenCalls, List.nil_append]
      cases encoderStepAt state call with
      | error e => exact List.append_nil _
      | ok r => exact List.append_nil _
  | cons first calls ih =>
      rw [← List.singleton_append] at run
      obtain ⟨mid, o₁, o₂, one, rest, -⟩ := run.split
      rw [List.cons_append, seenCalls, seenCalls, (one.single_inv).1]
      dsimp only
      rw [ih rest, List.append_assoc]

/-- What a step does is what the other encoder does. -/
theorem encoderStepAt_sim (live : ∀ q, state.1.Lent q → (state.2.read q).isSome)
    (respects : state.Respects call) :
    (∀ e, encoderStepAt state call = .error e ↔
      ∃ fault, e = .fault fault ∧ state.answer call = .error fault) ∧
    ∀ state' out, encoderStepAt state call = .ok (state', out) →
      ∃ r, state.answer call = .ok r ∧
        Served state.1 state.2 call state'.1 out state'.2 r := by
  have sim := encoderCallAt_sim live respects
  unfold encoderStepAt
  constructor
  · intro e
    rw [← sim.error_iff]
    cases encoderCallAt state.1 call state.2 with
    | error e' => rw [Except.error.injEq, Except.error.injEq]
    | ok r => exact iff_of_false nofun nofun
  · intro state' out ok
    cases result : encoderCallAt state.1 call state.2 with
    | error e =>
        rw [result] at ok
        cases ok
    | ok r =>
        rw [result] at ok
        cases ok
        obtain ⟨r', answer, -, served⟩ := sim.of_ok result
        exact ⟨r', answer, served⟩

/-- After a run the buffers of the window are live, and the encoder is the one of the other
modules after the same calls. -/
theorem encodingRun_of_run (run : LendingRun n w callback h calls state outs) :
    (∀ q, state.1.Lent q → (state.2.read q).isSome) ∧
      EncodingRun n w callback (seenCalls (swifRlcEncoderCreateAt n w callback, h) calls)
        state.view (windowEvents outs) := by
  induction run with
  | nil =>
      refine ⟨fun q lent => absurd lent (swifRlcEncoderCreateAt_not_lent q), ?_⟩
      rw [EncoderMemory.view, EncoderAt.view, swifRlcEncoderCreateAt_map]
      exact .nil
  | @snoc state state' calls call outs out before ok respects ih =>
      obtain ⟨live, run⟩ := ih
      obtain ⟨r, answer, served⟩ := (encoderStepAt_sim live respects).2 state' out ok
      refine ⟨served.live, ?_⟩
      rw [seenCalls_concat before, windowEvents_append]
      have r_eq : r = (state'.view, windowEvents out) := Prod.ext served.view served.events
      rw [r_eq, EncoderMemory.answer] at answer
      cases seen : state.seen call with
      | none =>
          rw [seen] at answer
          obtain ⟨same, none⟩ := Prod.mk.inj (Except.ok.inj answer)
          rw [← none, ← same, Option.toList_none, List.append_nil, List.append_nil]
          exact run
      | some c =>
          rw [seen] at answer
          exact run.snoc answer trivial

/-- While the application leaves the buffers of the window alone, the encoder is the one that
copies the source symbols when they are added: the next call fails where that one fails, and never
by using a freed buffer, and a repair symbol is the one it builds. No other buffer is changed. -/
theorem encoder_memory_of_run (run : LendingRun n w callback h calls state outs) :
    EncodingRun n w callback (seenCalls (swifRlcEncoderCreateAt n w callback, h) calls)
        state.view (windowEvents outs) ∧
      ∀ call, state.Respects call →
        (∀ e, encoderStepAt state call = .error e ↔
          ∃ fault, e = .fault fault ∧ state.answer call = .error fault) ∧
        ∀ newBuf state' out, call = .buildRepairSymbol newBuf →
          encoderStepAt state call = .ok (state', out) → ∃ p symbol, out = [.repair p symbol] ∧
            swifRlcBuildRepairSymbol state.view = .ok symbol ∧
            Built state.1 state.2 newBuf p state'.2 symbol := by
  obtain ⟨live, encoding⟩ := encodingRun_of_run run
  refine ⟨encoding, fun call respects => ?_⟩
  obtain ⟨fails, returns⟩ := encoderStepAt_sim live respects
  refine ⟨fails, fun newBuf state' out is_build ok => ?_⟩
  obtain ⟨r, -, served⟩ := returns state' out ok
  exact served.repair newBuf is_build

/-- The application frees the buffer of a symbol that left the window, and builds. -/
theorem encoder_memory_of_run_freed : ∃ state outs state' p symbol,
    LendingRun 1 2 true Heap.empty
      [.allocate (bytes [3]), .allocate (bytes [5]), .allocate (bytes [7]),
        .addSourceSymbolToCodingWindow 0 8, .addSourceSymbolToCodingWindow 1 9,
        .addSourceSymbolToCodingWindow 2 10, .release 0, .setCodingCoefsTab (bytes [2, 4]) 2]
      state outs ∧
    state.Respects (.buildRepairSymbol none) ∧
    encoderStepAt state (.buildRepairSymbol none) = .ok (state', [.repair p symbol]) ∧
    swifRlcBuildRepairSymbol state.view = .ok symbol ∧
    Built state.1 state.2 none p state'.2 symbol := by
  obtain ⟨state, outs, run, rest⟩ := exists_steps_of_map
    (show (checkedRun encoderStepAt (fun state call _ => state.Respects call)
      (swifRlcEncoderCreateAt 1 2 true, Heap.empty)
      [.allocate (bytes [3]), .allocate (bytes [5]), .allocate (bytes [7]),
        .addSourceSymbolToCodingWindow 0 8, .addSourceSymbolToCodingWindow 1 9,
        .addSourceSymbolToCodingWindow 2 10, .release 0, .setCodingCoefsTab (bytes [2, 4]) 2]).map
      (fun r => (checkedRun encoderStepAt (fun state call _ => state.Respects call) r.1
        [.buildRepairSymbol none]).isSome) = some true by decide +kernel)
  obtain ⟨state', out, build⟩ := exists_steps_of_checkedRun rest
  obtain ⟨ok, respects⟩ := build.single_inv
  obtain ⟨p, symbol, rfl, same, built⟩ :=
    ((encoder_memory_of_run run).2 _ respects).2 none state' out rfl ok
  exact ⟨state, outs, state', p, symbol, run, respects, ok, same, built⟩

end Run

/-! ### The buffers of the window -/

/-- The calls on the window, with a name for each buffer in place of its contents. -/
def namedEvents (name : ℕ → List Gf256) (outs : List EncoderEvent) : List WindowEvent :=
  outs.filterMap fun
    | .window buf event => some { event with symbol := ⟨name buf, event.symbol.esi⟩ }
    | .repair _ _ => none

/-- The window after a run: the buffers of the last symbols accepted, and no other. -/
structure Lending (name : ℕ → List Gf256) (w : ℕ) (enc : EncoderAt) (events : List WindowEvent) :
    Prop where
  traced : Traced w true (enc.map name) events
  blank : ∀ (k p : ℕ), enc.ewTab[k]? = some (some p) → k < enc.ewSsNb
  numbered : ∃ first, Numbered first (acceptedSymbols events)
  below : ∀ s ∈ acceptedSymbols events, s.esi < invalidEsi
  removed : removedEsis events = (evicted w (acceptedSymbols events)).map SourceSymbol.esi

section Lending

variable {name : ℕ → List Gf256} {w n buf esi : ℕ} {h : Buffers} {enc enc' : EncoderAt}
  {state state' : EncoderMemory} {call : EncoderCallAt} {calls : List EncoderCallAt}
  {outs out : List EncoderEvent} {events : List WindowEvent} {status : SwifStatus}
  {removed : List ℕ} {meets : EncoderMemory → EncoderCallAt → EncoderMemory → Prop}

theorem namedEvents_append (outs outs' : List EncoderEvent) :
    namedEvents name (outs ++ outs') = namedEvents name outs ++ namedEvents name outs' :=
  List.filterMap_append

theorem removedEsis_namedEvents (outs : List EncoderEvent) :
    removedEsis (namedEvents name outs) = removedEsis (windowEvents outs) := by
  induction outs with
  | nil => rfl
  | cons out outs ih =>
      cases out with
      | window buf event => exact congrArg (event.removed ++ ·) ih
      | repair buf symbol => exact ih

theorem mem_acceptedSymbols_namedEvents {s : SourceSymbol} :
    s ∈ acceptedSymbols (namedEvents name outs) ↔ ∃ buf event,
      EncoderEvent.window buf event ∈ outs ∧ event.status = .ok ∧
        s = ⟨name buf, event.symbol.esi⟩ := by
  unfold acceptedSymbols namedEvents
  constructor
  · intro mem
    obtain ⟨named, is_named, rfl⟩ := List.mem_map.mp mem
    obtain ⟨is_named, accepted⟩ := List.mem_filter.mp is_named
    obtain ⟨out, told, some_event⟩ := List.mem_filterMap.mp is_named
    cases out with
    | window buf event =>
        cases some_event
        exact ⟨buf, event, told, of_decide_eq_true accepted, rfl⟩
    | repair buf symbol => cases some_event
  · rintro ⟨buf, event, told, accepted, rfl⟩
    refine List.mem_map.mpr ⟨{ event with symbol := ⟨name buf, event.symbol.esi⟩ }, ?_, rfl⟩
    exact List.mem_filter.mpr
      ⟨List.mem_filterMap.mpr ⟨_, told, rfl⟩, decide_eq_true accepted⟩

/-- A step adds a symbol to the window, or leaves the window. -/
theorem encoderStepAt_of_ok (ok : encoderStepAt state call = .ok (state', out)) :
    (∃ buf esi status removed contents, call = .addSourceSymbolToCodingWindow buf esi ∧
      swifRlcEncoderAddSourceSymbolToCodingWindowAt state.1 buf esi =
        .ok (state'.1, status, removed) ∧
      out = [.window buf ⟨⟨contents, esi⟩, status, removed⟩]) ∨
    (∃ ccTab, state'.1 = { state.1 with ccTab }) ∧ ∀ name, namedEvents name out = [] := by
  obtain ⟨enc', h'⟩ := state'
  have ok' : encoderCallAt state.1 call state.2 = .ok ((enc', out), h') := by
    unfold encoderStepAt at ok
    split at ok
    case h_1 eq =>
      cases ok
      exact eq
    case h_2 => cases ok
  cases call with
  | addSourceSymbolToCodingWindow buf esi =>
      obtain ⟨memory, h₁, heap_eq, ok'⟩ := HeapExec.bind_eq_ok.mp ok'
      obtain ⟨⟨enc'', status, removed⟩, h₂, added, ok'⟩ := HeapExec.bind_eq_ok.mp ok'
      cases ok'
      exact .inl ⟨buf, esi, status, removed, _, rfl, (HeapExec.lift_eq_ok.mp added).1, rfl⟩
  | setCodingCoefsTab tab nb =>
      obtain ⟨memory, h₁, heap_eq, ok'⟩ := HeapExec.bind_eq_ok.mp ok'
      obtain ⟨e, h₂, -, ok'⟩ := HeapExec.bind_eq_ok.mp ok'
      cases ok'
      exact .inr ⟨⟨e.ccTab, rfl⟩, fun _ => rfl⟩
  | generateCodingCoefs key dt =>
      obtain ⟨memory, h₁, heap_eq, ok'⟩ := HeapExec.bind_eq_ok.mp ok'
      obtain ⟨⟨e, status⟩, h₂, -, ok'⟩ := HeapExec.bind_eq_ok.mp ok'
      cases ok'
      exact .inr ⟨⟨e.ccTab, rfl⟩, fun _ => rfl⟩
  | buildRepairSymbol newBuf =>
      obtain ⟨p, h₁, -, ok'⟩ := HeapExec.bind_eq_ok.mp ok'
      obtain ⟨data, h₂, -, ok'⟩ := HeapExec.bind_eq_ok.mp ok'
      cases ok'
      exact .inr ⟨⟨_, rfl⟩, fun _ => rfl⟩
  | allocate contents =>
      obtain ⟨p, h₁, -, ok'⟩ := HeapExec.bind_eq_ok.mp ok'
      cases ok'
      exact .inr ⟨⟨_, rfl⟩, fun _ => rfl⟩
  | overwrite buf contents =>
      obtain ⟨p, h₁, -, ok'⟩ := HeapExec.bind_eq_ok.mp ok'
      cases ok'
      exact .inr ⟨⟨_, rfl⟩, fun _ => rfl⟩
  | release buf =>
      obtain ⟨p, h₁, -, ok'⟩ := HeapExec.bind_eq_ok.mp ok'
      cases ok'
      exact .inr ⟨⟨_, rfl⟩, fun _ => rfl⟩

theorem swifRlcEncoderCreateAt_lending (pos : 0 < w) (lt : w < 4294967296) :
    Lending name w (swifRlcEncoderCreateAt n w true) [] where
  traced := by
    rw [swifRlcEncoderCreateAt_map]
    exact ⟨swifRlcEncoderCreate_ring pos lt true, rfl, rfl⟩
  blank k p entry := absurd (List.mem_of_getElem? entry) (swifRlcEncoderCreateAt_not_lent p)
  numbered := ⟨0, fun j s entry => by cases entry⟩
  below := nofun
  removed := by
    rw [show acceptedSymbols [] = [] from rfl, evicted_of_le (Nat.zero_le w)]
    rfl

/-- Coefficients are not in the window. -/
theorem Lending.setCcTab (lending : Lending name w enc events) (ccTab : List Gf256) :
    Lending name w { enc with ccTab } events where
  traced :=
    ⟨lending.traced.ring.setCcTab ccTab, lending.traced.size, lending.traced.callback⟩
  blank := lending.blank
  numbered := lending.numbered
  below := lending.below
  removed := lending.removed

/-- The slots written so far are the first ones. -/
theorem Lending.blank_add (lending : Lending name w enc events)
    (added : swifRlcEncoderAddSourceSymbolToCodingWindowAt enc buf esi =
      .ok (enc', status, removed)) {k p : ℕ} (entry : enc'.ewTab[k]? = some (some p)) :
    k < enc'.ewSsNb := by
  have nb := lending.traced.ring.ewSsNb
  have pos := lending.traced.ring.size_pos
  have lt := lending.traced.ring.size_lt
  have right := lending.traced.ring.ewRight
  have length := lending.traced.ring.ewTab
  simp only [EncoderAt.map_ewSsNb, EncoderAt.map_maxCodingWindowSize, EncoderAt.map_ewRight,
    EncoderAt.map_ewTab, List.length_map] at nb pos lt right length
  rcases swifRlcEncoderAddSourceSymbolAt_of_ok added with ⟨rfl, -⟩ | ⟨-, i, inside, tab_eq, rest⟩
  · exact lending.blank k p entry
  have old : k ≠ i → k < enc.ewSsNb := by
    intro other
    rw [tab_eq, List.getElem?_set_ne (Ne.symm other)] at entry
    exact lending.blank k p entry
  rcases rest with ⟨full, nb_eq⟩ | ⟨empty, slot, nb_eq⟩ | ⟨room, some_symbol, slot, nb_eq⟩
  · obtain ⟨below, -⟩ := List.getElem?_eq_some_iff.mp entry
    rw [tab_eq, List.length_set] at below
    omega
  · -- The first symbol is in slot 0.
    have none : (acceptedSymbols events).length = 0 := by omega
    rw [none] at right
    have zero : enc.ewRight = 0 := right
    rw [nb_eq, empty, add32_of_lt (by decide)]
    by_contra outside
    exact absurd (old (by rintro rfl; omega)) (by omega)
  · -- The next one is behind the last.
    obtain ⟨before, one_before⟩ : ∃ before, (acceptedSymbols events).length = before + 1 :=
      ⟨(acceptedSymbols events).length - 1, by omega⟩
    rw [one_before, rightSlot_succ, Nat.mod_eq_of_lt (by omega)] at right
    rw [mod32_of_pos pos, right, add32_of_lt (by omega), Nat.mod_eq_of_lt (by omega)] at slot
    have at_end : before + 1 = i := Except.ok.inj slot
    rw [nb_eq, add32_of_lt (by omega)]
    by_contra outside
    exact absurd (old (by rintro rfl; omega)) (by omega)

/-- An accepted symbol takes the next slot; in a full window, that of the oldest symbol, which is
passed to the callback. -/
theorem Lending.add (lending : Lending name w enc events) (valid : esi < invalidEsi)
    (added : swifRlcEncoderAddSourceSymbolToCodingWindowAt enc buf esi =
      .ok (enc', status, removed)) :
    Lending name w enc' (events ++ [⟨⟨name buf, esi⟩, status, removed⟩]) := by
  have named : windowStep (enc.map name) ⟨name buf, esi⟩ =
      .ok (enc'.map name, [⟨⟨name buf, esi⟩, status, removed⟩]) := by
    unfold windowStep
    rw [swifRlcEncoderAddSourceSymbol_map, added]
    rfl
  obtain ⟨e, event, step_eq, traced, result⟩ := lending.traced.step ⟨name buf, esi⟩
  rw [named] at step_eq
  cases step_eq
  have blank : ∀ (k p : ℕ), enc'.ewTab[k]? = some (some p) → k < enc'.ewSsNb :=
    fun k p entry => lending.blank_add added entry
  have removed_eq : removedEsis (events ++ [⟨⟨name buf, esi⟩, status, removed⟩]) =
      removedEsis events ++ removed := by
    rw [removedEsis, List.flatMap_append, List.flatMap_singleton]
    rfl
  obtain ⟨first, numbered⟩ := lending.numbered
  rcases result with ⟨accepts, event_eq⟩ | ⟨-, -, event_eq⟩
  · have history : acceptedSymbols (events ++ [⟨⟨name buf, esi⟩, status, removed⟩]) =
        acceptedSymbols events ++ [⟨name buf, esi⟩] := by
      rw [event_eq, acceptedSymbols_append, acceptedSymbols_ok]
    have evicted_eq := lending.traced.ring.evicted_snoc (s := ⟨name buf, esi⟩) numbered
    rw [lending.traced.size] at evicted_eq
    refine ⟨traced, blank, ?_, ?_, ?_⟩
    · rw [history]
      refine numbered.snoc (valid.trans (by decide)) fun prev last => ?_
      refine ((lending.traced.accepts_iff last).mp accepts).resolve_left fun is_invalid => ?_
      exact (lending.below prev (List.mem_of_getLast? last)).ne is_invalid
    · rw [history]
      intro s mem
      rcases List.mem_append.mp mem with old | new
      · exact lending.below s old
      · cases List.mem_singleton.mp new
        exact valid
    · rw [removed_eq, lending.removed, history, evicted_eq, (WindowEvent.mk.inj event_eq).2.2,
        Encoder.evicts, lending.traced.callback, lending.traced.size, if_pos rfl]
  · have history : acceptedSymbols (events ++ [⟨⟨name buf, esi⟩, status, removed⟩]) =
        acceptedSymbols events := by
      rw [event_eq, acceptedSymbols_append, acceptedSymbols_error, List.append_nil]
    refine ⟨traced, blank, ?_, ?_, ?_⟩
    · rw [history]
      exact ⟨first, numbered⟩
    · rw [history]
      exact lending.below
    · rw [removed_eq, history, (WindowEvent.mk.inj event_eq).2.2, List.append_nil]
      exact lending.removed

/-- After any calls with valid identifiers the window is that of the symbols accepted. -/
theorem lending_of_run (pos : 0 < w) (lt : w < 4294967296)
    (run : Steps encoderStepAt meets (swifRlcEncoderCreateAt n w true, h) calls state outs)
    (valid : ∀ buf esi, EncoderCallAt.addSourceSymbolToCodingWindow buf esi ∈ calls →
      esi < invalidEsi) : Lending name w state.1 (namedEvents name outs) := by
  induction run with
  | nil => exact swifRlcEncoderCreateAt_lending pos lt
  | @snoc state state' calls call outs out before ok _ ih =>
      have lending := ih fun buf esi mem => valid buf esi (List.mem_append_left _ mem)
      rcases encoderStepAt_of_ok ok with ⟨buf, esi, status, removed, contents, rfl, added, rfl⟩ |
        ⟨⟨ccTab, enc_eq⟩, unnamed⟩
      · have last := List.mem_append_right calls
          (List.mem_singleton_self (EncoderCallAt.addSourceSymbolToCodingWindow buf esi))
        rw [namedEvents_append]
        exact lending.add (valid buf esi last) added
      · rw [namedEvents_append, unnamed, List.append_nil, enc_eq]
        exact lending.setCcTab ccTab

/-- The buffers of the window are those of the symbols held. -/
theorem Lending.lent_iff (lending : Lending name w enc events) (inj : Function.Injective name)
    (p : ℕ) : enc.Lent p ↔ ∃ s ∈ held w (acceptedSymbols events), s.buf = name p := by
  have pos := lending.traced.ring.size_pos
  have nb := lending.traced.ring.ewSsNb
  have holds := lending.traced.ring.holds
  rw [lending.traced.size] at pos nb holds
  have slot_iff : ∀ k : ℕ, (enc.map name).ewTab[k]? = some (some (name p)) ↔
      enc.ewTab[k]? = some (some p) := by
    intro k
    rw [EncoderAt.map_ewTab, List.getElem?_map]
    exact (Option.map_injective (Option.map_injective inj)).eq_iff
      (b := some (some p))
  have held_iff := holds.mem_held_iff_slot (a := name p) pos
  rw [List.length_map, ← nb, held_map, List.mem_map] at held_iff
  rw [held_iff, EncoderAt.Lent, List.mem_iff_getElem?]
  constructor
  · rintro ⟨k, entry⟩
    exact ⟨k, lending.blank k p entry, (slot_iff k).mpr entry⟩
  · rintro ⟨k, -, entry⟩
    exact ⟨k, (slot_iff k).mp entry⟩

/-- After any calls with valid identifiers, the buffers of the window are those of the symbols
that were accepted and not passed to the removal callback since. -/
theorem lent_iff_of_run (pos : 0 < w) (lt : w < 4294967296)
    (run : Steps encoderStepAt meets (swifRlcEncoderCreateAt n w true, h) calls state outs)
    (valid : ∀ buf esi, EncoderCallAt.addSourceSymbolToCodingWindow buf esi ∈ calls →
      esi < invalidEsi) (p : ℕ) :
    state.1.Lent p ↔ ∃ event, EncoderEvent.window p event ∈ outs ∧ event.status = .ok ∧
      event.symbol.esi ∉ removedEsis (windowEvents outs) := by
  -- Names of its own for every buffer, so that the contents do not matter.
  obtain ⟨name, inj⟩ : ∃ name : ℕ → List Gf256, Function.Injective name :=
    ⟨fun p => List.replicate p 0, List.replicate_left_injective 0⟩
  have lending : Lending name w state.1 (namedEvents name outs) := lending_of_run pos lt run valid
  obtain ⟨first, numbered⟩ := lending.numbered
  obtain ⟨start, plain⟩ := numbered.plain lending.below
  have nodup : ((acceptedSymbols (namedEvents name outs)).map SourceSymbol.esi).Nodup := by
    rw [map_esi_eq_range' plain]
    exact List.nodup_range'
  have removed := lending.removed
  rw [removedEsis_namedEvents] at removed
  rw [lending.lent_iff inj, removed]
  constructor
  · rintro ⟨s, is_held, buf_eq⟩
    obtain ⟨mem, kept⟩ := (mem_held_iff nodup).mp is_held
    obtain ⟨buf, event, told, accepted, rfl⟩ := mem_acceptedSymbols_namedEvents.mp mem
    obtain rfl : buf = p := inj buf_eq
    exact ⟨event, told, accepted, kept⟩
  · rintro ⟨event, told, accepted, kept⟩
    refine ⟨⟨name p, event.symbol.esi⟩, (mem_held_iff nodup).mpr ⟨?_, kept⟩, rfl⟩
    exact mem_acceptedSymbols_namedEvents.mpr ⟨p, event, told, accepted, rfl⟩

/-- The first of three symbols leaves a window of two: its buffer is no longer lent. -/
theorem lent_iff_of_run_three : ∃ state outs,
    Steps encoderStepAt (fun _ _ _ => True) (swifRlcEncoderCreateAt 1 2 true, Heap.empty)
      [.allocate (bytes [3]), .allocate (bytes [5]), .allocate (bytes [7]),
        .addSourceSymbolToCodingWindow 0 8, .addSourceSymbolToCodingWindow 1 9,
        .addSourceSymbolToCodingWindow 2 10] state outs ∧
    removedEsis (windowEvents outs) = [8] ∧ state.1.Lent 1 ∧
    ∃ event, EncoderEvent.window 1 event ∈ outs ∧ event.status = .ok ∧ event.symbol.esi ≠ 8 := by
  obtain ⟨state, outs, run, rest⟩ := exists_steps_of_map
    (show (checkedRun encoderStepAt (fun _ _ _ => True)
      (swifRlcEncoderCreateAt 1 2 true, Heap.empty)
      [.allocate (bytes [3]), .allocate (bytes [5]), .allocate (bytes [7]),
        .addSourceSymbolToCodingWindow 0 8, .addSourceSymbolToCodingWindow 1 9,
        .addSourceSymbolToCodingWindow 2 10]).map
      (fun r => (removedEsis (windowEvents r.2), decide (r.1.1.Lent 1))) =
        some ([8], true) by decide +kernel)
  obtain ⟨removed, lent⟩ := Prod.mk.inj rest
  have is_lent := of_decide_eq_true lent
  have valid : ∀ buf esi, EncoderCallAt.addSourceSymbolToCodingWindow buf esi ∈
      [.allocate (bytes [3]), .allocate (bytes [5]), .allocate (bytes [7]),
        .addSourceSymbolToCodingWindow 0 8, .addSourceSymbolToCodingWindow 1 9,
        .addSourceSymbolToCodingWindow 2 10] → esi < invalidEsi := by
    intro buf esi mem
    simp at mem
    unfold invalidEsi
    omega
  obtain ⟨event, told, accepted, kept⟩ :=
    (lent_iff_of_run (by decide) (by decide) run valid 1).mp is_lent
  rw [removed, List.mem_singleton] at kept
  exact ⟨state, outs, run, removed, is_lent, event, told, accepted, kept⟩

end Lending

end SwifCodec
