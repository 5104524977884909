import SwifCodec.Memory.Lifetime
import SwifCodec.Rlc.DecoderRuns

/-!
The RLC decoder in memory.

A `DecoderAt` has the pivot table of its set as the program has it, with addresses. Its callbacks
hand the application the address of a buffer inside the codec, which the application may keep.
The window functions do not touch the set; they are those of the other modules. The control
block, the set and the coefficient table are not followed.
-/

namespace SwifCodec

open Library FullSymbol FullSymbolSet

/-- `swif_decoder_rlc_cb_t` in memory. -/
structure DecoderAt where
  maxCodingWindowSize : Nat
  symbolSize : Nat
  symbolSet : SymbolTable ℕ
  coefTab : Option (List Gf256)
  firstId : Nat
  nbId : Nat
  notifyDecodedFunc : Bool
  decodedSourceSymbolCallback : Bool
  deriving DecidableEq, Repr

/-- A call of `decoded_source_symbol_callback`, with the address of the symbol that has the buffer
and what is in the buffer at that moment. -/
structure DecodedSourceSymbolAt where
  newSymbolBuf : ℕ
  data : List Gf256
  esi : Nat
  deriving DecidableEq, Repr

/-- The call as the other modules have it. -/
def DecodedSourceSymbolAt.view (call : DecodedSourceSymbolAt) : DecodedSourceSymbol :=
  ⟨call.data, call.esi⟩

namespace DecoderAt

/-- The decoder as the other modules have it. -/
def view (dec : DecoderAt) (h : Memory) : Decoder where
  maxCodingWindowSize := dec.maxCodingWindowSize
  symbolSize := dec.symbolSize
  symbolSet := dec.symbolSet.view h
  coefTab := dec.coefTab
  firstId := dec.firstId
  nbId := dec.nbId
  notifyDecodedFunc := dec.notifyDecodedFunc
  decodedSourceSymbolCallback := dec.decodedSourceSymbolCallback

/-- The decoder after a function that leaves the set. -/
def update (dec : DecoderAt) (d : Decoder) : DecoderAt where
  maxCodingWindowSize := d.maxCodingWindowSize
  symbolSize := d.symbolSize
  symbolSet := dec.symbolSet
  coefTab := d.coefTab
  firstId := d.firstId
  nbId := d.nbId
  notifyDecodedFunc := d.notifyDecodedFunc
  decodedSourceSymbolCallback := d.decodedSourceSymbolCallback

end DecoderAt

/-- `swif_rlc_decoder_create`. -/
def swifRlcDecoderCreateAt (symbolSize maxCodingWindowSize : Nat) : DecoderAt where
  maxCodingWindowSize := maxCodingWindowSize
  symbolSize := symbolSize
  symbolSet := SymbolTable.alloc
  coefTab := none
  firstId := 0
  nbId := 0
  notifyDecodedFunc := false
  decodedSourceSymbolCallback := false

/-- `full_symbol_set_notify_decoded` on the set of a decoder. -/
def rlcDecoderNotifyDecodedAt (dec : DecoderAt) (call : NotificationAt) :
    MemoryExec (List DecodedSourceSymbolAt) := do
  if dec.notifyDecodedFunc then
    match ← HeapExec.lift (call.set.getPivot call.decodedId) with
    | none => HeapExec.lift (.error .nullDereference)
    | some fullSymbol =>
        let s ← HeapExec.readIn call.memory fullSymbol
        if dec.decodedSourceSymbolCallback then return [⟨fullSymbol, s.data, call.decodedId⟩]
        else HeapExec.lift (.error .nullDereference)
  else return []

/-- The common part of the two decode functions: a full symbol is created, submitted and freed. -/
def decodeFullSymbolAt (dec : DecoderAt) (created : Exec FullSymbol) :
    MemoryExec (DecoderAt × List DecodedSourceSymbolAt) := do
  let s ← HeapExec.lift created
  let fullSymbol ← HeapExec.alloc s
  let (symbolSet, notified) ← fullSymbolAddWithEliminationAt dec.symbolSet fullSymbol
  let decoded ← notified.mapM (rlcDecoderNotifyDecodedAt dec)
  fullSymbolFree fullSymbol
  return ({ dec with symbolSet }, decoded.flatten)

/-- `swif_rlc_decoder_decode_with_new_source_symbol`. -/
def swifRlcDecoderDecodeWithNewSourceSymbolAt (dec : DecoderAt) (newSymbolBuf : List Gf256)
    (newSymbolEsi : Nat) : MemoryExec (DecoderAt × List DecodedSourceSymbolAt) := do
  let memory ← HeapExec.heap
  decodeFullSymbolAt dec (newSourceSymbol (dec.view memory) newSymbolBuf newSymbolEsi)

/-- `swif_rlc_decoder_decode_with_new_repair_symbol`. -/
def swifRlcDecoderDecodeWithNewRepairSymbolAt (dec : DecoderAt) (newSymbolBuf : List Gf256) :
    MemoryExec (DecoderAt × List DecodedSourceSymbolAt) := do
  let memory ← HeapExec.heap
  decodeFullSymbolAt dec (newRepairSymbol (dec.view memory) newSymbolBuf)

/-- One call in memory. -/
def decoderCallAt (dec : DecoderAt) :
    DecoderCall → MemoryExec (DecoderAt × List DecodedSourceSymbolAt)
  | .decodeWithNewSourceSymbol buf esi => swifRlcDecoderDecodeWithNewSourceSymbolAt dec buf esi
  | .decodeWithNewRepairSymbol buf => swifRlcDecoderDecodeWithNewRepairSymbolAt dec buf
  | call => do
      let memory ← HeapExec.heap
      let (d, _) ← HeapExec.lift (decoderStep (dec.view memory) call)
      return (dec.update d, [])

/-- `swif_rlc_decoder_release`, for the stored symbols. -/
def swifRlcDecoderReleaseAt (dec : DecoderAt) : MemoryExec Unit :=
  fullSymbolSetFree dec.symbolSet

/-- A decoder with its memory. -/
abbrev DecoderMemory := DecoderAt × Memory

/-- One call of a run. -/
def decoderStepAt (state : DecoderMemory) (call : DecoderCall) :
    Except (HeapFault Fault) (DecoderMemory × List DecodedSourceSymbolAt) :=
  match decoderCallAt state.1 call state.2 with
  | .ok ((dec, out), h) => .ok ((dec, h), out)
  | .error e => .error e

/-! ### Calls -/

/-- The table of a decoder has the blocks `cells`, and the rest of the memory is `m`. -/
structure DecoderAt.Owns (dec : DecoderAt) (h : Memory) (cells : OwnedTable)
    (m : Multiset (ℕ × FullSymbol)) : Prop where
  table : dec.symbolSet = cells.pointers
  length : cells.fullSymbolTab.length = cells.size
  holds : h.Holds (cells.entries + m)

section Call

variable {h : Memory} {m : Multiset (ℕ × FullSymbol)} {dec : DecoderAt} {cells : OwnedTable}
  {call : DecoderCall}

theorem DecoderAt.Owns.view (owns : dec.Owns h cells m) :
    dec.symbolSet.view h = cells.contents := by
  rw [owns.table]
  exact view_pointers owns.holds (Multiset.le_add_right _ _)

/-- A notification does what it does to the application without memory. -/
theorem rlcDecoderNotifyDecodedAt_sim {notification : NotificationAt} (d : Decoder)
    (notify : d.notifyDecodedFunc = dec.notifyDecodedFunc)
    (callback : d.decodedSourceSymbolCallback = dec.decodedSourceSymbolCallback)
    (live : ∀ p, some p ∈ notification.set.fullSymbolTab →
      (notification.memory.read p).isSome) :
    Simulates h (rlcDecoderNotifyDecodedAt dec notification)
      (rlcDecoderNotifyDecoded d notification.view) fun out h' out' =>
        h' = h ∧ out' = out.map DecodedSourceSymbolAt.view ∧
          ∀ told ∈ out, ∃ s, notification.set.getPivot notification.decodedId =
            .ok (some told.newSymbolBuf) ∧
            notification.memory.read told.newSymbolBuf = some s ∧ told.data = s.data := by
  unfold rlcDecoderNotifyDecodedAt rlcDecoderNotifyDecoded
  rw [notify, callback]
  cases dec.notifyDecodedFunc with
  | false => exact Simulates.pure ⟨rfl, rfl, nofun⟩
  | true =>
      rw [if_pos rfl, if_pos rfl]
      have pivot_eq := notification.set.getPivot_map
        (fun p => (notification.memory.read p).getD ⟨[], 0, 0, 0, 0, []⟩) notification.decodedId
      have found : fullSymbolSetGetPivot notification.view.set notification.view.decodedId =
          (notification.set.getPivot notification.decodedId).map (Option.map fun p =>
            (notification.memory.read p).getD ⟨[], 0, 0, 0, 0, []⟩) := pivot_eq
      rw [found]
      cases at_pivot : notification.set.getPivot notification.decodedId with
      | error e => exact rfl
      | ok cell =>
          cases cell with
          | none => exact rfl
          | some p =>
              have stored : some p ∈ notification.set.fullSymbolTab := by
                unfold SymbolTable.getPivot at at_pivot
                split at at_pivot
                · exact List.mem_of_getElem? (access_eq_ok.mp at_pivot)
                · cases at_pivot
              obtain ⟨s, read⟩ := Option.isSome_iff_exists.mp (live p stored)
              refine Simulates.step rfl (.refl h) (Simulates.readIn read ?_)
              show Simulates h _ ((if dec.decodedSourceSymbolCallback then
                .ok [⟨((notification.memory.read p).getD ⟨[], 0, 0, 0, 0, []⟩).data,
                  notification.decodedId⟩] else .error .nullDereference :
                    Exec (List DecodedSourceSymbol))) _
              rw [read, Option.getD_some]
              by_cases set : dec.decodedSourceSymbolCallback = true
              · rw [if_pos set, if_pos set]
                refine Simulates.pure ⟨rfl, rfl, fun told mem => ?_⟩
                rw [List.mem_singleton.mp mem]
                exact ⟨s, rfl, read, rfl⟩
              · rw [if_neg set, if_neg set]
                exact rfl

/-- What a call that submits `s` does to the blocks of the decoder. -/
structure Accepted (cells : OwnedTable) (s : FullSymbol) (bound : ℕ) (cells' : OwnedTable)
    (lost : Multiset (ℕ × FullSymbol)) (out : List DecodedSourceSymbolAt) : Prop where
  calls : ∃ calls, SubmittedAt cells s bound cells' lost calls ∧ ∀ told ∈ out, ∃ call ∈ calls,
    ∃ t, call.set.getPivot call.decodedId = .ok (some told.newSymbolBuf) ∧
      call.memory.read told.newSymbolBuf = some t ∧ told.data = t.data

/-- A decode call keeps the blocks it does not free, and frees the symbol it created. -/
theorem decodeFullSymbolAt_sim (owns : dec.Owns h cells m) (created : Exec FullSymbol) :
    Simulates h (decodeFullSymbolAt dec created)
      (created >>= fun s => decodeFullSymbol (dec.view h) s) fun r h' r' => ∃ cells' lost s,
        r'.1 = r.1.view h' ∧ r'.2 = r.2.map DecodedSourceSymbolAt.view ∧
        r.1.Owns h' cells' (lost + m) ∧ created = .ok s ∧
        Accepted cells s h.blocks.length cells' lost r.2 := by
  unfold decodeFullSymbolAt
  refine (Simulates.lift created).bind fun s h₁ s' _ created_eq same => ?_
  obtain ⟨rfl, rfl⟩ := same
  unfold decodeFullSymbol
  refine Simulates.alloc owns.holds fun p h₂ fresh later₂ holds₂ => ?_
  rw [← Multiset.add_cons] at holds₂
  rw [owns.table]
  have view_set : (dec.view h₁).symbolSet = cells.contents := owns.view
  rw [view_set]
  refine (fullSymbolAddWithEliminationAt_sim owns.length holds₂ (Multiset.mem_cons_self _ _)).bind
    fun r h₃ r' later₃ _ post => ?_
  obtain ⟨cells', lost, calls, rfl, rfl, holds₃, sub⟩ := post
  dsimp only
  rw [List.mapM_map]
  refine (Simulates.mapM calls fun call mem =>
    rlcDecoderNotifyDecodedAt_sim (dec.view h₁) rfl rfl (sub.live call mem)).bind
    fun outs h₄ outs' _ _ post => ?_
  obtain ⟨rfl, ts, rfl, rfl, rfl, told⟩ := post
  rw [Multiset.add_cons] at holds₃
  refine Simulates.free holds₃ fun h₅ _ holds₅ => ?_
  have owns' : ({ dec with symbolSet := cells'.pointers } : DecoderAt).Owns h₅ cells' (lost + m) :=
    ⟨rfl, sub.length, by rwa [← add_assoc]⟩
  refine Simulates.pure ⟨cells', lost, s', ?_, ?_, owns', created_eq,
    ⟨_, sub.mono later₂.length, fun d mem => ?_⟩⟩
  · show ({ dec.view h₁ with symbolSet := cells'.contents } : Decoder) = _
    rw [← owns'.view]
    rfl
  · dsimp only
    rw [List.map_flatten, List.map_map]
    exact congrArg List.flatten (List.map_congr_left fun t mem => (told t mem).1)
  · obtain ⟨out, among, mem⟩ := List.mem_flatten.mp mem
    obtain ⟨t, mem_t, rfl⟩ := List.mem_map.mp among
    exact ⟨t.1, List.mem_map_of_mem mem_t, (told t mem_t).2 d mem⟩

/-- The blocks after a call. -/
structure After (dec : DecoderAt) (h : Memory) (cells : OwnedTable)
    (m : Multiset (ℕ × FullSymbol)) (call : DecoderCall) (dec' : DecoderAt) (h' : Memory)
    (out : List DecodedSourceSymbolAt) (cells' : OwnedTable)
    (lost : Multiset (ℕ × FullSymbol)) : Prop where
  owns : dec'.Owns h' cells' (lost + m)
  idle : call.submitted (dec.view h) = none → cells' = cells ∧ lost = 0 ∧ out = []
  accepted : ∀ s, call.submitted (dec.view h) = some s →
    Accepted cells s h.blocks.length cells' lost out

/-- A call that submits nothing leaves every block. -/
theorem idleCall_sim (owns : dec.Owns h cells m) (idle : call.submitted (dec.view h) = none) :
    Simulates h (do
        let memory ← HeapExec.heap
        let (d, _) ← HeapExec.lift (decoderStep (dec.view memory) call)
        return (dec.update d, ([] : List DecodedSourceSymbolAt)))
      (decoderStep (dec.view h) call) fun r h' r' => ∃ cells' lost,
        r'.1 = r.1.view h' ∧ r'.2 = r.2.map DecodedSourceSymbolAt.view ∧
        After dec h cells m call r.1 h' r.2 cells' lost := by
  refine Simulates.heap (Simulates.lift_bind fun r ok => ?_)
  obtain ⟨d, out⟩ := r
  have kept : d.symbolSet = dec.symbolSet.view h ∧ out = [] := by
    rcases decoderStep_shape ok with ⟨callback, -, rfl, rfl⟩ | ⟨s, submits, -⟩ |
      ⟨-, rfl, coefTab, firstId, nbId, rfl, -⟩
    · exact ⟨rfl, rfl⟩
    · rw [idle] at submits
      cases submits
    · exact ⟨rfl, rfl⟩
  obtain ⟨same, rfl⟩ := kept
  refine Simulates.pure ⟨cells, 0, ?_, rfl, ⟨?_, fun _ => ⟨rfl, rfl, rfl⟩, fun s submits => ?_⟩⟩
  · show d = { d with symbolSet := dec.symbolSet.view h }
    rw [← same]
  · rw [zero_add]
    exact ⟨owns.table, owns.length, owns.holds⟩
  · rw [idle] at submits
    cases submits

/-- A decode call in memory. -/
theorem decodeCall_sim (owns : dec.Owns h cells m) {created : Exec FullSymbol}
    (submits : call.submitted (dec.view h) = created.toOption) :
    Simulates h (decodeFullSymbolAt dec created)
      (created >>= fun s => decodeFullSymbol (dec.view h) s) fun r h' r' => ∃ cells' lost,
        r'.1 = r.1.view h' ∧ r'.2 = r.2.map DecodedSourceSymbolAt.view ∧
        After dec h cells m call r.1 h' r.2 cells' lost := by
  refine (decodeFullSymbolAt_sim owns created).mono fun r h' r' _ _ post => ?_
  obtain ⟨cells', lost, s, dec_eq, out_eq, owns', created_eq, accepted⟩ := post
  rw [created_eq] at submits
  refine ⟨cells', lost, dec_eq, out_eq, owns', fun none => ?_, fun t some => ?_⟩
  · rw [submits] at none
    cases none
  · rw [submits] at some
    cases some
    exact accepted

/-- A call does in memory what it does without: it fails where it fails, and never by using or
freeing a freed block. -/
theorem decoderCallAt_sim (owns : dec.Owns h cells m) (call : DecoderCall) :
    Simulates h (decoderCallAt dec call) (decoderStep (dec.view h) call) fun r h' r' =>
      ∃ cells' lost, r'.1 = r.1.view h' ∧ r'.2 = r.2.map DecodedSourceSymbolAt.view ∧
        After dec h cells m call r.1 h' r.2 cells' lost := by
  cases call with
  | decodeWithNewSourceSymbol buf esi => exact Simulates.heap (decodeCall_sim owns rfl)
  | decodeWithNewRepairSymbol buf => exact Simulates.heap (decodeCall_sim owns rfl)
  | setCallbackFunctions callback => exact idleCall_sim owns rfl
  | resetCodingWindow => exact idleCall_sim owns rfl
  | addSourceSymbolToCodingWindow esi => exact idleCall_sim owns rfl
  | generateCodingCoefs key dt fresh => exact idleCall_sim owns rfl

end Call

end SwifCodec
