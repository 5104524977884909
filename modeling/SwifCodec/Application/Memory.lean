import SwifCodec.Application.Delivery
import SwifCodec.Memory.Runs

/-!
The client with the codec in memory.

The callback gives the client a pointer into a row of the codec, and the client keeps it in its
table, next to its own packets. The codec changes the row by replacing it, so what the pointer
points to stays as it was until the codec frees it; the client is not told.

* `application_memory_of_run`: with the codec in memory the two programs do what they do without,
  and a slot that the callback filled points to the buffer of a report, with the reported data as
  long as the codec has not freed it.
* `application_print_of_run`: when the client reads a freed buffer at the end, and what it prints
  otherwise. The cleanup after that is not followed.
-/

namespace SwifCodec

open Library FullSymbol FullSymbolSet Gf256

/-- The client of a codec in memory: its table has the addresses of the codec's buffers. -/
abbrev ClientAt := ClientState DecoderAt ℕ

/-- A part of the client, on the memory of the codec. -/
abbrev ClientExec := HeapExec FullSymbol ApplicationFault

/-- The client at the start of a session. -/
def clientAtOf (ewSize totSrc totEnc : Nat) : ClientAt where
  ses :=
    { swifRlcDecoderCreateAt applicationSymbolSize ewSize with
      notifyDecodedFunc := true
      decodedSourceSymbolCallback := true }
  totSrc := totSrc
  srcSymbolsTab := List.replicate totSrc none
  srcSymbolsStatusTab := List.replicate totSrc .missing
  repairSymbolsTab := List.replicate (totEnc - totSrc) none
  nReceived := 0

/-- The calls of the receiver before the last, which leave the rows. -/
def prepareRepairPacket (dec : Decoder) (esi nss repairKey dt : ℕ) :
    Exec (Decoder × SwifStatus) := do
  let dec ← swifRlcDecoderResetCodingWindow dec
  let (dec, status) ← prepareCodingWindow dec esi nss
  if status ≠ .ok then return (dec, status)
  swifRlcDecoderGenerateCodingCoefs dec repairKey dt fun _ => 0

/-- `receiveRepairPacket` with the decoder in memory. -/
def receiveRepairPacketAt (dec : DecoderAt) (fpi : RepairFpi) (symbol : List Gf256) :
    MemoryExec (DecoderAt × SwifStatus × List DecodedSourceSymbolAt) := do
  let memory ← HeapExec.heap
  let (d, status) ← HeapExec.lift (prepareRepairPacket (dec.view memory) fpi.esi.toNat fpi.nss
    fpi.repairKey.toNat fpi.dt)
  if status ≠ .ok then return (dec.update d, status, [])
  let (dec, out) ← swifRlcDecoderDecodeWithNewRepairSymbolAt (dec.update d) symbol
  return (dec, .ok, out)

/-- The arguments of a callback of the codec in memory. -/
def DecodedSourceSymbolAt.arguments (call : DecodedSourceSymbolAt) : ℕ × ℕ :=
  (call.newSymbolBuf, call.esi)

/-- `receivePacket` with the codec in memory. -/
def receivePacketAt (client : ClientAt) (datagram : Datagram) :
    ClientExec (ClientAt × List DecodedSourceSymbolAt) :=
  let client := { client with nReceived := add32 client.nReceived 1 }
  match readPacket datagram with
  | .source esi pkt =>
      if client.totSrc ≤ esi then HeapExec.lift (.error .failure)
      else do
        let client ← HeapExec.lift (rememberSymbol client esi (.pkt pkt) .received)
        let (ses, decoded) ← HeapExec.mapFault .codec
          (swifRlcDecoderDecodeWithNewSourceSymbolAt client.ses pkt esi)
        let client ← HeapExec.lift (decodedSourceSymbolCallbacks { client with ses }
          (decoded.map DecodedSourceSymbolAt.arguments))
        return (client, decoded)
  | .repair fpi symbol =>
      if client.totSrc ≤ fpi.esi.toNat then HeapExec.lift (.error .failure)
      else do
        let repairSymbolsTab ← HeapExec.lift (tableAccess .repairSymbolsTab
          (Block.store client.repairSymbolsTab 0 [some symbol]))
        let (ses, status, decoded) ← HeapExec.mapFault .codec
          (receiveRepairPacketAt client.ses fpi symbol)
        if status ≠ .ok then HeapExec.lift (.error .failure)
        else do
          let client ← HeapExec.lift (decodedSourceSymbolCallbacks
            { client with ses, repairSymbolsTab }
            (decoded.map DecodedSourceSymbolAt.arguments))
          return (client, decoded)
  | .unidentified => HeapExec.lift (.error .failure)

/-- `dump_buffer_32` on a pointer of `src_symbols_tab`: the bytes that it prints. -/
def dumpBuffer32 (buf : Option (SrcSymbolBuf ℕ)) (len32 : Nat) : ClientExec (List Gf256) :=
  match buf with
  | none => HeapExec.lift (.error (.codec .nullDereference))
  | some (.pkt contents) => return contents.take (4 * len32)
  | some (.newSymbolBuf newSymbolBuf) => do
      let s ← HeapExec.read newSymbolBuf
      return s.data.take (4 * len32)

/-- One round of the loop of `main` after the last packet: a symbol is printed, or NULL. -/
def printSrcSymbolAt (client : ClientAt) (esi : ℕ) : ClientExec (Option (List Gf256)) := do
  let status ← HeapExec.lift (tableAccess .srcSymbolsTab client.srcSymbolsStatusTab[esi]?)
  if status ≠ .missing then
    let buf ← HeapExec.lift (tableAccess .srcSymbolsTab client.srcSymbolsTab[esi]?)
    let printed ← dumpBuffer32 buf 4
    return some printed
  else return none

/-- The loop of `main` after the last packet. -/
def printSrcSymbolsAt (client : ClientAt) : ClientExec (List (Option (List Gf256))) :=
  (List.range client.totSrc).mapM (printSrcSymbolAt client)

/-- The part of `main` before the loop: the parameters are checked before the codec is created. -/
def clientCreateAt (datagram : Datagram) : ApplicationExec ClientAt := do
  let pkt := datagram.take (sizeofRepairFpi + applicationSymbolSize)
  if pkt.length ≠ sizeofFecOti then throw .failure
  let oti ← tableAccess .fecOti (readFecOti pkt)
  let _ ← clientAccept oti
  return clientAtOf oti.ewSize oti.totSrc oti.totEnc

/-- The two programs, with the addresses of the client. -/
structure ApplicationAt where
  server : Server
  client : ClientAt
  sent : List Datagram
  deriving DecidableEq, Repr

/-- `applicationCreate` with the codec of the client in memory. -/
def applicationCreateAt (ewSize dt totEnc : Nat) (fresh : List Gf256) :
    ApplicationExec ApplicationAt := do
  let (server, oti) ← serverCreate ewSize dt totEnc fresh
  let client ← clientCreateAt oti
  return { server, client, sent := [] }

/-- `applicationStep` with the codec of the client in memory. -/
def applicationCallAt (app : ApplicationAt) :
    ApplicationCall → ClientExec (ApplicationAt × List DecodedSourceSymbolAt)
  | .server call => do
      let (server, datagrams) ← HeapExec.lift (serverStep app.server call)
      return ({ app with server, sent := app.sent ++ datagrams }, [])
  | .deliver i =>
      match app.sent[i]? with
      | none => return (app, [])
      | some datagram => do
          let (client, out) ← receivePacketAt app.client datagram
          return ({ app with client }, out)

/-- The two programs with the memory of the codec. -/
abbrev ApplicationMemory := ApplicationAt × Memory

/-- One event of a run. -/
def applicationStepAt (state : ApplicationMemory) (call : ApplicationCall) :
    Except (HeapFault ApplicationFault) (ApplicationMemory × List DecodedSourceSymbolAt) :=
  match applicationCallAt state.1 call state.2 with
  | .ok ((app, out), h) => .ok ((app, h), out)
  | .error fault => .error fault

/-! ### The client without the addresses -/

def SrcSymbolBuf.map {β γ : Type} (f : β → γ) : SrcSymbolBuf β → SrcSymbolBuf γ
  | .pkt contents => .pkt contents
  | .newSymbolBuf address => .newSymbolBuf (f address)

def ClientState.map {σ τ β γ : Type} (f : σ → τ) (g : β → γ) (client : ClientState σ β) :
    ClientState τ γ where
  ses := f client.ses
  totSrc := client.totSrc
  srcSymbolsTab := client.srcSymbolsTab.map (Option.map (SrcSymbolBuf.map g))
  srcSymbolsStatusTab := client.srcSymbolsStatusTab
  repairSymbolsTab := client.repairSymbolsTab
  nReceived := client.nReceived

/-- The client as the other modules have it. -/
def ClientState.view (client : ClientAt) (h : Memory) : Client :=
  client.map (fun ses => ses.view h) fun _ => ()

/-- The two programs as the other modules have them. -/
def ApplicationAt.view (app : ApplicationAt) (h : Memory) : Application where
  server := app.server
  client := app.client.view h
  sent := app.sent

@[inherit_doc ApplicationAt.view]
def ApplicationMemory.view (state : ApplicationMemory) : Application := state.1.view state.2

section Map

variable {σ τ β γ : Type} (f : σ → τ) (g : β → γ)

theorem rememberSymbol_map (client : ClientState σ β) (esi : ℕ) (buf : SrcSymbolBuf β)
    (status : SrcSymbolStatus) :
    rememberSymbol (client.map f g) esi (buf.map g) status =
      (rememberSymbol client esi buf status).map (ClientState.map f g) := by
  unfold rememberSymbol
  have stored := Block.store_map (Option.map (SrcSymbolBuf.map g)) client.srcSymbolsTab esi
    [some buf]
  show (tableAccess .srcSymbolsTab (Block.store (client.srcSymbolsTab.map _) esi
    ([some buf].map (Option.map (SrcSymbolBuf.map g)))) >>= _) = _
  rw [stored]
  cases Block.store client.srcSymbolsTab esi [some buf] with
  | none => rfl
  | some tab =>
      show (tableAccess .srcSymbolsTab (Block.store client.srcSymbolsStatusTab esi [status]) >>=
        _) = _
      cases Block.store client.srcSymbolsStatusTab esi [status] with
      | none => rfl
      | some statuses => rfl

theorem decodedSourceSymbolCallbacks_map (client : ClientState σ β) (calls : List (β × ℕ)) :
    decodedSourceSymbolCallbacks (client.map f g) (calls.map fun call => (g call.1, call.2)) =
      (decodedSourceSymbolCallbacks client calls).map (ClientState.map f g) := by
  induction calls generalizing client with
  | nil => rfl
  | cons call calls ih =>
      unfold decodedSourceSymbolCallbacks at ih ⊢
      rw [List.map_cons, List.foldlM_cons, List.foldlM_cons]
      have first : decodedSourceSymbolCallback (client.map f g) (g call.1) call.2 =
          (decodedSourceSymbolCallback client call.1 call.2).map (ClientState.map f g) :=
        rememberSymbol_map f g client call.2 (.newSymbolBuf call.1) .decoded
      dsimp only
      rw [first]
      cases decodedSourceSymbolCallback client call.1 call.2 with
      | error e => rfl
      | ok client' => exact ih client'

end Map

/-! ### The codec -/

/-- A decoder that differs from another in its window only. -/
structure Decoder.Windowed (dec d : Decoder) : Prop where
  symbolSet : d.symbolSet = dec.symbolSet
  firstId : dec.firstId < 4294967296 → d.firstId < 4294967296
  nbId : dec.nbId < 4294967296 → d.nbId < 4294967296

section Windowed

variable {dec mid d : Decoder} {esi nss key dt : ℕ} {status : SwifStatus}

theorem Decoder.Windowed.trans (first : dec.Windowed mid) (second : mid.Windowed d) :
    dec.Windowed d :=
  ⟨second.symbolSet.trans first.symbolSet, fun lt => second.firstId (first.firstId lt),
    fun lt => second.nbId (first.nbId lt)⟩

theorem Decoder.Windowed.invariant (windowed : dec.Windowed d) (inv : dec.Invariant) :
    d.Invariant := by
  refine ⟨?_, ?_, windowed.firstId inv.firstId, windowed.nbId inv.nbId⟩
  · rw [windowed.symbolSet]
    exact inv.set
  · rw [windowed.symbolSet]
    exact inv.noWrap

theorem prepareCodingWindow_windowed (ok : prepareCodingWindow dec esi nss = .ok (d, status)) :
    dec.Windowed d := by
  induction nss generalizing d status with
  | zero =>
      cases ok
      exact ⟨rfl, id, id⟩
  | succ nss ih =>
      obtain ⟨⟨mid, before⟩, prepared, rest⟩ := bind_eq_ok.mp ok
      have windowed := ih prepared
      dsimp only at rest
      by_cases goes_on : before = .ok
      · rw [if_pos goes_on] at rest
        rw [swifRlcDecoderAddSourceSymbol_of_ok rest]
        refine windowed.trans ⟨rfl, fun lt => ?_, fun lt => ?_⟩
        · show mid.windowStart (add32 esi nss) < 4294967296
          unfold Decoder.windowStart
          split
          · exact add32_lt esi nss
          · exact lt
        · show (if status = .ok then add32 mid.nbId 1 else mid.nbId) < 4294967296
          split
          · exact add32_lt mid.nbId 1
          · exact lt
      · rw [if_neg goes_on] at rest
        cases rest
        exact windowed

theorem prepareRepairPacket_windowed
    (ok : prepareRepairPacket dec esi nss key dt = .ok (d, status)) : dec.Windowed d := by
  obtain ⟨reset, reset_eq, rest⟩ := bind_eq_ok.mp ok
  obtain ⟨coef, -, eq⟩ := bind_eq_ok.mp reset_eq
  cases eq
  obtain ⟨⟨mid, before⟩, prepared, rest⟩ := bind_eq_ok.mp rest
  have none_lt : symbolIdNone < 4294967296 := by decide
  have first : dec.Windowed
      { dec with coefTab := some coef, firstId := symbolIdNone, nbId := 0 } :=
    ⟨rfl, fun _ => none_lt, fun _ => Nat.succ_pos _⟩
  have windowed := first.trans (prepareCodingWindow_windowed prepared)
  dsimp only at rest
  by_cases stops : before ≠ .ok
  · rw [if_pos stops] at rest
    cases rest
    exact windowed
  · rw [if_neg stops] at rest
    obtain ⟨tab, -, eq⟩ := bind_eq_ok.mp rest
    cases eq
    exact windowed.trans ⟨rfl, id, id⟩

/-- The receiver prepares the window and then decodes. -/
theorem receiveRepairPacket_eq (dec : Decoder) (fpi : RepairFpi) (symbol : List Gf256) :
    receiveRepairPacket dec fpi symbol = (do
      let (d, status) ← prepareRepairPacket dec fpi.esi.toNat fpi.nss fpi.repairKey.toNat fpi.dt
      if status ≠ .ok then return (d, status, [])
      let (d, out) ← swifRlcDecoderDecodeWithNewRepairSymbol d symbol
      return (d, .ok, out)) := by
  unfold receiveRepairPacket submitRepairPacket prepareRepairPacket
  cases swifRlcDecoderResetCodingWindow dec with
  | error e => rfl
  | ok reset =>
      rw [ok_bind, ok_bind]
      cases prepareCodingWindow reset fpi.esi.toNat fpi.nss with
      | error e => rfl
      | ok result =>
          obtain ⟨mid, before⟩ := result
          rw [ok_bind, ok_bind]
          dsimp only
          by_cases stops : before ≠ .ok
          · rw [if_pos stops, if_pos stops]
            exact (if_pos stops).symm
          · rw [if_neg stops, if_neg stops]

end Windowed

section Codec

variable {h h' : Memory} {m : Multiset (ℕ × FullSymbol)} {dec ready dec' : DecoderAt}
  {cells : OwnedTable} {call : DecoderCall} {out : List DecodedSourceSymbolAt}

/-- What a packet does to the blocks of the codec: those there were stay as they were or are freed,
and the callbacks are given blocks with the data they report. -/
structure CodecStep (m : Multiset (ℕ × FullSymbol)) (h : Memory) (dec' : DecoderAt) (h' : Memory)
    (out : List DecodedSourceSymbolAt) : Prop where
  owns : ∃ cells' lost, dec'.Owns h' cells' (lost + m)
  unchanged : ∀ p < h.blocks.length, ∀ s, h'.read p = some s → h.read p = some s
  told : (dec'.view h').symbolSet.NoWrap → ∀ d ∈ out,
    ∃ s, h'.read d.newSymbolBuf = some s ∧ d.data = s.data

theorem codecStep_of_ok (owns : ready.Owns h cells m) (inv : (ready.view h).Invariant)
    (ok : decoderCallAt ready call h = .ok ((dec', out), h')) : CodecStep m h dec' h' out := by
  have step : decoderStepAt (ready, h) call = .ok ((dec', h'), out) := by
    unfold decoderStepAt
    rw [ok]
  have seen : (DecoderMemory.view (ready, h)).Invariant := inv
  obtain ⟨cells', lost, stepped⟩ := stepped_of_ok owns seen step
  refine ⟨⟨cells', lost, stepped.owns⟩, fun p lt s live => ?_, fun wrap d mem => ?_⟩
  · have mem : (p, s) ∈ cells'.entries + (lost + m) := (stepped.owns.holds.read p s).mp live
    refine (owns.holds.read p s).mpr ?_
    by_cases redundant : DecoderMemory.Redundant (ready, h) call
    · obtain ⟨rfl, rfl⟩ := stepped.kept redundant
      rwa [zero_add] at mem
    · rw [← add_assoc] at mem
      rcases Multiset.mem_add.mp mem with new | old
      · exact absurd lt (Nat.not_lt.mpr (stepped.fresh redundant _ new))
      · exact Multiset.mem_add.mpr (.inr old)
  · obtain ⟨s, mem, data⟩ := stepped.told wrap d mem
    refine ⟨s, (stepped.owns.holds.read _ s).mpr ?_, data⟩
    rw [← add_assoc]
    exact Multiset.mem_add.mpr (.inl mem)

/-- A decoder whose window was prepared, in memory. -/
theorem DecoderAt.view_update {d : Decoder} (windowed : (dec.view h).Windowed d) :
    (dec.update d).view h = d := by
  show { d with symbolSet := (dec.view h).symbolSet } = d
  rw [← windowed.symbolSet]

/-- One call, with what it does to the blocks. -/
theorem decoderCallAt_step (owns : ready.Owns h cells m) (inv : (ready.view h).Invariant)
    (call : DecoderCall) :
    Simulates h (decoderCallAt ready call) (decoderStep (ready.view h) call) fun r h' r' =>
      r' = (r.1.view h', r.2.map DecodedSourceSymbolAt.view) ∧ CodecStep m h r.1 h' r.2 := by
  refine (decoderCallAt_sim owns call).result.mono fun r h' r' _ _ post => ?_
  obtain ⟨⟨cells', lost, dec_eq, out_eq, -⟩, ok⟩ := post
  exact ⟨Prod.ext dec_eq out_eq, codecStep_of_ok owns inv ok⟩

/-- A repair packet, when it is not refused, is one call on a decoder whose window was prepared. -/
theorem receiveRepairPacketAt_sim (owns : dec.Owns h cells m) (inv : (dec.view h).Invariant)
    (fpi : RepairFpi) (symbol : List Gf256) :
    Simulates h (receiveRepairPacketAt dec fpi symbol)
      (receiveRepairPacket (dec.view h) fpi symbol) fun r h' r' =>
        r' = (r.1.view h', r.2.1, r.2.2.map DecodedSourceSymbolAt.view) ∧
          (r.2.1 = .ok → CodecStep m h r.1 h' r.2.2) := by
  rw [receiveRepairPacket_eq]
  refine Simulates.heap ((Simulates.lift _).bind fun r h₁ r' _ prepared same => ?_)
  obtain ⟨rfl, rfl⟩ := same
  obtain ⟨d, status⟩ := r'
  have windowed := prepareRepairPacket_windowed prepared
  have view := DecoderAt.view_update windowed
  dsimp only
  by_cases stops : status ≠ .ok
  · rw [if_pos stops, if_pos stops]
    refine Simulates.pure ⟨?_, fun same => absurd same stops⟩
    rw [view]
    rfl
  · rw [if_neg stops, if_neg stops]
    have ready : (dec.update d).Owns h₁ cells m := ⟨owns.table, owns.length, owns.holds⟩
    have step := decoderCallAt_step ready (by rw [view]; exact windowed.invariant inv)
      (.decodeWithNewRepairSymbol symbol)
    rw [view] at step
    refine step.bind fun r h' r' _ _ post => ?_
    obtain ⟨rfl, codec⟩ := post
    exact Simulates.pure ⟨rfl, fun _ => codec⟩

end Codec

/-! ### A packet -/

section Receive

variable {h : Memory} {m : Multiset (ℕ × FullSymbol)} {client : ClientAt} {cells : OwnedTable}
  {datagram : Datagram}

/-- The callbacks, without the addresses. -/
theorem decodedSourceSymbolCallbacks_view (client : ClientAt) (h : Memory)
    (out : List DecodedSourceSymbolAt) :
    decodedSourceSymbolCallbacks (client.view h)
        ((out.map DecodedSourceSymbolAt.view).map DecodedSourceSymbol.arguments) =
      (decodedSourceSymbolCallbacks client (out.map DecodedSourceSymbolAt.arguments)).map
        fun client' => client'.view h := by
  have calls : (out.map DecodedSourceSymbolAt.view).map DecodedSourceSymbol.arguments =
      (out.map DecodedSourceSymbolAt.arguments).map fun call => ((), call.2) := by
    rw [List.map_map, List.map_map]
    rfl
  rw [calls]
  exact decodedSourceSymbolCallbacks_map _ _ client _

/-- What a packet does to the client and the blocks of its codec: a slot is as before, or has a
packet, or was filled by a callback. -/
structure ClientStep (m : Multiset (ℕ × FullSymbol)) (h : Memory) (client client' : ClientAt)
    (h' : Memory) (out : List DecodedSourceSymbolAt) : Prop where
  codec : CodecStep m h client'.ses h' out
  entry : ∀ id, client'.entry id = client.entry id ∨
    (∃ pkt, client'.entry id = (some (some (.pkt pkt)), some .received)) ∨
    ∃ d ∈ out, d.esi = id ∧ client'.entry id = decodedEntry d.newSymbolBuf

/-- The callbacks, which come last in both kinds of packets. -/
theorem callbacksAt_sim {ready : ClientAt} {dec : DecoderAt} {h' : Memory}
    {out : List DecodedSourceSymbolAt} (codec : CodecStep m h dec h' out)
    (before : ∀ id, ready.entry id = client.entry id ∨
      ∃ pkt, ready.entry id = (some (some (.pkt pkt)), some .received)) :
    Simulates h' (do
        let client ← HeapExec.lift (decodedSourceSymbolCallbacks { ready with ses := dec }
          (out.map DecodedSourceSymbolAt.arguments))
        return (client, out))
      (do
        let client ← decodedSourceSymbolCallbacks (ClientState.view { ready with ses := dec } h')
          ((out.map DecodedSourceSymbolAt.view).map DecodedSourceSymbol.arguments)
        return (client, out.map DecodedSourceSymbolAt.view))
      fun r h'' r' => r' = (r.1.view h'', r.2.map DecodedSourceSymbolAt.view) ∧
        ClientStep m h client r.1 h'' r.2 := by
  refine (Simulates.lift_view (decodedSourceSymbolCallbacks_view _ h' out)).bind
    fun client' h'' view _ _ told => ?_
  obtain ⟨rfl, ok, rfl⟩ := told
  obtain ⟨same_ses, slots⟩ := callbacks_of_ok ok
  refine Simulates.pure ⟨rfl, by rw [same_ses]; exact codec, fun id => ?_⟩
  rcases slots id with old | ⟨call, mem, same, new⟩
  · rw [old]
    exact (before id).imp_right .inl
  · obtain ⟨d, d_mem, rfl⟩ := List.mem_map.mp mem
    exact .inr (.inr ⟨d, d_mem, same, new⟩)

/-- A packet does with the codec in memory what it does without. -/
theorem receivePacketAt_sim (owns : client.ses.Owns h cells m)
    (inv : (client.view h).ses.Invariant) (small : client.totSrc ≤ 100000) :
    Simulates h (receivePacketAt client datagram) (receivePacket (client.view h) datagram)
      fun r h' r' => r' = (r.1.view h', r.2.map DecodedSourceSymbolAt.view) ∧
        ClientStep m h client r.1 h' r.2 := by
  unfold receivePacketAt receivePacket
  dsimp only
  cases readPacket datagram with
  | unidentified => rfl
  | source esi pkt =>
      dsimp only
      by_cases outside : client.totSrc ≤ esi
      · rw [if_pos outside, if_pos (show (client.view h).totSrc ≤ esi from outside)]
        rfl
      rw [if_neg outside, if_neg (show ¬ (client.view h).totSrc ≤ esi from outside)]
      refine (Simulates.lift_view (rememberSymbol_map (fun ses => ses.view h) (fun _ => ())
        { client with nReceived := add32 client.nReceived 1 } esi (.pkt pkt) .received)).bind
        fun ready h₁ view _ _ remembered => ?_
      obtain ⟨rfl, ok, rfl⟩ := remembered
      obtain ⟨same_ses, slot⟩ := rememberSymbol_of_ok ok
      have valid : esi < 4294967296 := by omega
      have ready_owns : ready.ses.Owns h₁ cells m := by
        rw [same_ses]
        exact owns
      have ready_inv : (ready.ses.view h₁).Invariant := by
        rw [same_ses]
        exact inv
      refine ((decoderCallAt_step ready_owns ready_inv
        (.decodeWithNewSourceSymbol pkt ⟨esi, valid⟩)).mapFault ApplicationFault.codec).bind
        fun r h' r' _ _ decoded => ?_
      obtain ⟨rfl, codec⟩ := decoded
      refine @callbacksAt_sim h₁ m client ready r.1 h' r.2 codec fun id => ?_
      rw [slot id]
      split
      · exact .inr ⟨pkt, rfl⟩
      · exact .inl rfl
  | repair fpi symbol =>
      dsimp only
      by_cases outside : client.totSrc ≤ fpi.esi.toNat
      · rw [if_pos outside, if_pos (show (client.view h).totSrc ≤ fpi.esi.toNat from outside)]
        rfl
      rw [if_neg outside, if_neg (show ¬ (client.view h).totSrc ≤ fpi.esi.toNat from outside)]
      refine (Simulates.lift _).bind fun tab h₁ tab' _ _ same => ?_
      obtain ⟨rfl, rfl⟩ := same
      refine ((receiveRepairPacketAt_sim owns inv fpi symbol).mapFault ApplicationFault.codec).bind
        fun r h' r' _ _ taken => ?_
      obtain ⟨rfl, codec⟩ := taken
      obtain ⟨dec, status, out⟩ := r
      dsimp only at codec ⊢
      by_cases refused : status ≠ .ok
      · rw [if_pos refused, if_pos refused]
        rfl
      · rw [if_neg refused, if_neg refused]
        exact @callbacksAt_sim h₁ m client { client with
          nReceived := add32 client.nReceived 1
          repairSymbolsTab := tab' } dec h' out (codec (not_not.mp refused)) fun _ => .inl rfl

end Receive

/-! ### Events -/

section Step

variable {w dt totEnc : ℕ} {m : Multiset (ℕ × FullSymbol)} {fresh : List Gf256}
  {state state' : ApplicationMemory} {call : ApplicationCall}
  {out outs : List DecodedSourceSymbolAt}

/-- The status of a symbol says what its pointer points to. -/
def Marked (entry : Option (Option (SrcSymbolBuf ℕ)) × Option SrcSymbolStatus) : Prop :=
  entry = (some none, some .missing) ∨
    (∃ pkt, entry = (some (some (.pkt pkt)), some .received)) ∨ ∃ p, entry = decodedEntry p

/-- What the two programs keep true between two events, after the callbacks `outs`. -/
structure ApplicationMemory.Invariant (w dt totEnc : ℕ) (m : Multiset (ℕ × FullSymbol))
    (outs : List DecodedSourceSymbolAt) (state : ApplicationMemory) : Prop where
  view : state.view.Invariant w dt totEnc
  owns : ∃ cells lost, state.1.client.ses.Owns state.2 cells (lost + m)
  marked : ∀ id < serverTotSrc, Marked (state.1.client.entry id)
  slots : ∀ id p, state.1.client.entry id = decodedEntry p →
    p < state.2.blocks.length ∧ ∃ d ∈ outs, d.esi = id ∧ d.newSymbolBuf = p ∧
      ∀ s, state.2.read p = some s → d.data = s.data

theorem clientAtOf_view (ewSize totSrc totEnc : ℕ) (h : Memory) :
    (clientAtOf ewSize totSrc totEnc).view h = clientOf ewSize totSrc totEnc := by
  unfold ClientState.view ClientState.map clientAtOf clientOf
  dsimp only
  rw [List.map_replicate]
  rfl

/-- The client accepts the parameters it accepts without memory. -/
theorem clientCreateAt_eq (datagram : Datagram) (h : Memory) :
    clientCreate datagram = (clientCreateAt datagram).map fun client => client.view h := by
  unfold clientCreate clientCreateAt
  dsimp only
  split
  · rfl
  · cases tableAccess .fecOti
      (readFecOti (datagram.take (sizeofRepairFpi + applicationSymbolSize))) with
    | error fault => rfl
    | ok oti =>
        rw [application_ok_bind, application_ok_bind]
        by_cases accepted : oti.Accepted
        · rw [clientAccept_of_accepted accepted, ← clientAtOf_view _ _ _ h]
          rfl
        · rw [clientAccept_of_not_accepted accepted]
          rfl

theorem clientCreateAt_of_ok {datagram : Datagram} {client : ClientAt}
    (ok : clientCreateAt datagram = .ok client) :
    ∃ ewSize totSrc totEnc, client = clientAtOf ewSize totSrc totEnc := by
  unfold clientCreateAt at ok
  dsimp only at ok
  split at ok
  · cases ok
  · cases read : tableAccess .fecOti
      (readFecOti (datagram.take (sizeofRepairFpi + applicationSymbolSize))) with
    | error fault =>
        rw [read] at ok
        cases ok
    | ok oti =>
        rw [read, application_ok_bind] at ok
        cases accept : clientAccept oti with
        | error fault =>
            rw [accept] at ok
            cases ok
        | ok client =>
            rw [accept] at ok
            cases ok
            exact ⟨_, _, _, rfl⟩

theorem applicationCreateAt_spec {app : ApplicationAt} {h : Memory} (holds : h.Holds m)
    (lt : w < 4294967296) (total : totEnc < 4294967296)
    (size : fresh.length = sizeofRepairFpi + applicationSymbolSize)
    (created : applicationCreateAt w dt totEnc fresh = .ok app) :
    applicationCreate w dt totEnc fresh = .ok (app.view h) ∧
      ApplicationMemory.Invariant w dt totEnc m [] (app, h) := by
  unfold applicationCreateAt at created
  cases server_eq : serverCreate w dt totEnc fresh with
  | error fault =>
      rw [server_eq] at created
      cases created
  | ok started =>
      obtain ⟨server, oti⟩ := started
      rw [server_eq, application_ok_bind] at created
      dsimp only at created
      cases client_eq : clientCreateAt oti with
      | error fault =>
          rw [client_eq] at created
          cases created
      | ok client =>
          rw [client_eq] at created
          cases created
          have created : applicationCreate w dt totEnc fresh =
              .ok (ApplicationAt.view { server, client, sent := [] } h) := by
            unfold applicationCreate
            rw [server_eq, application_ok_bind]
            dsimp only
            rw [clientCreateAt_eq oti h, client_eq]
            rfl
          obtain ⟨n, src, enc, rfl⟩ := clientCreateAt_of_ok client_eq
          have init := (applicationCreate_spec lt total size created).1
          refine ⟨created, init, ⟨SymbolTable.alloc, 0, ?_⟩, fun id low => ?_,
            fun id p filled => ?_⟩
          · have owns := swifRlcDecoderCreateAt_owns holds applicationSymbolSize n
            rw [zero_add]
            exact ⟨owns.table, owns.length, owns.holds⟩
          · have inside : id < src := low.trans_eq init.totSrc.symm
            show Marked ((List.replicate src none)[id]?,
              (List.replicate src SrcSymbolStatus.missing)[id]?)
            rw [List.getElem?_replicate, List.getElem?_replicate, if_pos inside, if_pos inside]
            exact .inl rfl
          · have slot : (List.replicate src none)[id]? =
                some (some (SrcSymbolBuf.newSymbolBuf p)) := congrArg Prod.fst filled
            rw [List.getElem?_replicate] at slot
            split at slot <;> cases slot

theorem ApplicationMemory.Invariant.codec (inv : state.Invariant w dt totEnc m outs) :
    (state.1.client.ses.view state.2).Invariant := by
  have small := inv.view.client.small
  exact inv.view.client.below.invariant (by omega)

/-- An event does with the codec in memory what it does without. -/
theorem applicationCallAt_sim {cells : OwnedTable} {lost : Multiset (ℕ × FullSymbol)}
    (inv : state.Invariant w dt totEnc m outs)
    (owns : state.1.client.ses.Owns state.2 cells (lost + m)) (call : ApplicationCall) :
    Simulates state.2 (applicationCallAt state.1 call) (applicationStep state.view call)
      fun r h' r' => r' = (r.1.view h', r.2.map DecodedSourceSymbolAt.view) ∧
        ClientStep (lost + m) state.2 state.1.client r.1.client h' r.2 := by
  have unchanged : ClientStep (lost + m) state.2 state.1.client state.1.client state.2 [] :=
    ⟨⟨⟨cells, 0, by rw [zero_add]; exact owns⟩, fun _ _ _ live => live, fun _ => nofun⟩,
      fun _ => .inl rfl⟩
  unfold applicationCallAt applicationStep
  cases call with
  | server call =>
      refine (Simulates.lift _).bind fun r h' r' _ _ same => ?_
      obtain ⟨rfl, rfl⟩ := same
      exact Simulates.pure ⟨rfl, unchanged⟩
  | deliver i =>
      dsimp only
      show Simulates _ _ (match state.1.sent[i]? with
        | none => _
        | some datagram => _) _
      cases state.1.sent[i]? with
      | none => exact Simulates.pure ⟨rfl, unchanged⟩
      | some datagram =>
          refine (receivePacketAt_sim owns inv.codec inv.view.client.small).bind
            fun r h' r' _ _ received => ?_
          obtain ⟨rfl, step⟩ := received
          exact Simulates.pure ⟨rfl, step⟩

theorem applicationStepAt_error_iff (inv : state.Invariant w dt totEnc m outs)
    {fault : HeapFault ApplicationFault} :
    applicationStepAt state call = .error fault ↔
      ∃ e, fault = .fault e ∧ applicationStep state.view call = .error e := by
  obtain ⟨cells, lost, owns⟩ := inv.owns
  rw [← (applicationCallAt_sim inv owns call).error_iff]
  unfold applicationStepAt
  split
  case h_1 ok =>
    rw [ok]
    exact iff_of_false nofun nofun
  case h_2 fault' fails =>
    rw [fails, Except.error.injEq, Except.error.injEq]

/-- Every event is one without memory, and keeps the invariant. -/
theorem applicationStepAt_of_ok (inv : state.Invariant w dt totEnc m outs)
    (ok : applicationStepAt state call = .ok (state', out)) :
    applicationStep state.view call = .ok (state'.view, out.map DecodedSourceSymbolAt.view) ∧
      state'.Invariant w dt totEnc m (outs ++ out) := by
  obtain ⟨cells, lost, owns⟩ := inv.owns
  have call_ok : applicationCallAt state.1 call state.2 = .ok ((state'.1, out), state'.2) := by
    unfold applicationStepAt at ok
    split at ok
    case h_1 eq =>
      cases ok
      exact eq
    case h_2 => cases ok
  obtain ⟨r, step_eq, later, rfl, step⟩ := (applicationCallAt_sim inv owns call).of_ok call_ok
  have view := applicationStep_invariant inv.view step_eq
  obtain ⟨cells', lost', owns'⟩ := step.codec.owns
  refine ⟨step_eq, view, ⟨cells', lost' + lost, by rw [add_assoc]; exact owns'⟩,
    fun id low => ?_, fun id p filled => ?_⟩
  · rcases step.entry id with before | ⟨pkt, new⟩ | ⟨d, mem, same, new⟩
    · rw [before]
      exact inv.marked id low
    · rw [new]
      exact .inr (.inl ⟨pkt, rfl⟩)
    · rw [new]
      exact .inr (.inr ⟨d.newSymbolBuf, rfl⟩)
  rcases step.entry id with before | ⟨pkt, new⟩ | ⟨d, mem, same, new⟩
  · rw [before] at filled
    obtain ⟨lt, d, mem, same, there, data⟩ := inv.slots id p filled
    exact ⟨lt.trans_le later.length, d, List.mem_append_left _ mem, same, there,
      fun s live => data s (step.codec.unchanged p lt s live)⟩
  · rw [new] at filled
    cases filled
  · rw [new] at filled
    cases filled
    have small := view.client.small
    obtain ⟨s, live, data⟩ := step.codec.told
      (view.client.below.invariant (by omega)).noWrap d mem
    refine ⟨Heap.lt_of_read live, d, List.mem_append_right _ mem, same, rfl, fun s' live' => ?_⟩
    rw [live] at live'
    cases live'
    exact data

end Step

/-! ### What is printed at the end -/

section Print

variable {w dt totEnc : ℕ} {m : Multiset (ℕ × FullSymbol)} {state : ApplicationMemory}
  {outs : List DecodedSourceSymbolAt}

/-- What is printed of a symbol: NULL, or the first 16 bytes of its packet, or those of the data of
a report for it. -/
inductive Printed (outs : List DecodedSourceSymbolAt) (client : ClientAt) (id : ℕ) :
    Option (List Gf256) → Prop
  | missing : client.entry id = (some none, some .missing) → Printed outs client id none
  | received (pkt : List Gf256) : client.entry id = (some (some (.pkt pkt)), some .received) →
      Printed outs client id (some (pkt.take 16))
  | decoded (d : DecodedSourceSymbolAt) : client.entry id = decodedEntry d.newSymbolBuf →
      d ∈ outs → d.esi = id → Printed outs client id (some (d.data.take 16))

theorem printSrcSymbolAt_eq {client : ClientAt} {id : ℕ} {buf : Option (SrcSymbolBuf ℕ)}
    {status : SrcSymbolStatus} (entry : client.entry id = (some buf, some status)) :
    printSrcSymbolAt client id =
      if status ≠ .missing then dumpBuffer32 buf 4 >>= fun printed => pure (some printed)
      else pure none := by
  have tab_eq : client.srcSymbolsTab[id]? = some buf := congrArg Prod.fst entry
  have status_eq : client.srcSymbolsStatusTab[id]? = some status := congrArg Prod.snd entry
  unfold printSrcSymbolAt
  rw [status_eq, tab_eq]
  rfl

/-- A symbol is printed, unless its buffer was freed. -/
theorem printSrcSymbolAt_spec (inv : state.Invariant w dt totEnc m outs) {id : ℕ}
    (low : id < serverTotSrc) :
    (∃ printed, printSrcSymbolAt state.1.client id state.2 = .ok (printed, state.2) ∧
      Printed outs state.1.client id printed ∧
      ∀ p, state.1.client.entry id = decodedEntry p → state.2.read p ≠ none) ∨
    (printSrcSymbolAt state.1.client id state.2 = .error .useAfterFree ∧
      ∃ p, state.1.client.entry id = decodedEntry p ∧ state.2.read p = none) := by
  rcases inv.marked id low with missing | ⟨pkt, received⟩ | ⟨p, filled⟩
  · rw [printSrcSymbolAt_eq missing]
    refine .inl ⟨none, rfl, .missing missing, fun p filled => ?_⟩
    cases missing.symm.trans filled
  · rw [printSrcSymbolAt_eq received]
    refine .inl ⟨_, rfl, .received pkt received, fun p filled => ?_⟩
    cases received.symm.trans filled
  · obtain ⟨-, d, mem, same, rfl, data⟩ := inv.slots id p filled
    rw [printSrcSymbolAt_eq filled, if_pos (by decide)]
    have read_eq : (HeapExec.read d.newSymbolBuf : ClientExec FullSymbol) state.2 =
        ((state.2.read d.newSymbolBuf).map fun s => .ok (s, state.2)).getD
          (.error .useAfterFree) := by
      unfold HeapExec.read
      cases state.2.read d.newSymbolBuf with
      | none => rfl
      | some s => rfl
    cases live : state.2.read d.newSymbolBuf with
    | none =>
        rw [live] at read_eq
        exact .inr ⟨HeapExec.bind_error (HeapExec.bind_error read_eq), _, filled, live⟩
    | some s =>
        rw [live] at read_eq
        refine .inl ⟨some (d.data.take 16), ?_, .decoded d filled mem same,
          fun p filled' freed => ?_⟩
        · rw [data s live]
          exact HeapExec.bind_ok (HeapExec.bind_ok read_eq)
        · cases filled.symm.trans filled'
          rw [live] at freed
          cases freed

/-- A slot that the callback filled is the slot of a source symbol. -/
theorem ApplicationMemory.Invariant.lt_of_decoded (inv : state.Invariant w dt totEnc m outs)
    {id p : ℕ} (filled : state.1.client.entry id = decodedEntry p) : id < serverTotSrc := by
  have length : state.1.client.srcSymbolsTab.length = serverTotSrc := by
    rw [← inv.view.totSrc, ← inv.view.client.tab]
    exact (List.length_map _).symm
  have slot : state.1.client.srcSymbolsTab[id]? = some (some (.newSymbolBuf p)) :=
    congrArg Prod.fst filled
  rw [← length]
  exact (List.getElem?_eq_some_iff.mp slot).1

/-- All symbols are printed, unless a buffer was freed. -/
theorem printSrcSymbolsAt_spec (inv : state.Invariant w dt totEnc m outs) :
    (∃ printed, printSrcSymbolsAt state.1.client state.2 = .ok (printed, state.2) ∧
      List.Forall₂ (Printed outs state.1.client) (List.range serverTotSrc) printed ∧
      ∀ id p, state.1.client.entry id = decodedEntry p → state.2.read p ≠ none) ∨
    (printSrcSymbolsAt state.1.client state.2 = .error .useAfterFree ∧
      ∃ id p, state.1.client.entry id = decodedEntry p ∧ state.2.read p = none) := by
  have totSrc : state.1.client.totSrc = serverTotSrc := inv.view.totSrc
  unfold printSrcSymbolsAt
  rw [totSrc]
  rcases HeapExec.mapM_cases (List.range serverTotSrc) fun id mem =>
    printSrcSymbolAt_spec inv (List.mem_range.mp mem) with
    ⟨printed, ok, each⟩ | ⟨fails, id, -, p, filled, freed⟩
  · refine .inl ⟨printed, ok, each.imp fun _ _ both => both.1, fun id p filled => ?_⟩
    obtain ⟨length, related⟩ := List.forall₂_iff_get.mp each
    have low : id < (List.range serverTotSrc).length := by
      rw [List.length_range]
      exact inv.lt_of_decoded filled
    have at_id := (related id low (length ▸ low)).2 p
    rw [List.get_eq_getElem, List.getElem_range] at at_id
    exact at_id filled
  · exact .inr ⟨fails, id, p, filled, freed⟩

end Print

/-! ### Runs -/

section Run

variable {w dt totEnc : ℕ} {m : Multiset (ℕ × FullSymbol)} {h : Memory} {fresh : List Gf256}
  {app₀ : ApplicationAt} {calls : List ApplicationCall} {state : ApplicationMemory}
  {outs : List DecodedSourceSymbolAt}
  {meets : Application → ApplicationCall → Application → Prop}

/-- A run is one without memory, and keeps the invariant. -/
theorem memory_of_run (holds : h.Holds m) (lt : w < 4294967296) (total : totEnc < 4294967296)
    (size : fresh.length = sizeofRepairFpi + applicationSymbolSize)
    (created : applicationCreateAt w dt totEnc fresh = .ok app₀)
    (run : Steps applicationStepAt (fun state call state' => meets state.view call state'.view)
      (app₀, h) calls state outs) :
    Steps applicationStep meets (app₀.view h) calls state.view
        (outs.map DecodedSourceSymbolAt.view) ∧
      state.Invariant w dt totEnc m outs := by
  induction run with
  | nil => exact ⟨.nil, (applicationCreateAt_spec holds lt total size created).2⟩
  | snoc _ ok cond ih =>
      obtain ⟨before, inv⟩ := ih
      obtain ⟨step_eq, inv'⟩ := applicationStepAt_of_ok inv ok
      rw [List.map_append]
      exact ⟨before.snoc step_eq cond, inv'⟩

/-- In every run of the two programs with the codec of the client in memory: the run is one of
those without memory; the next event fails exactly as it fails there, never by using or freeing a
freed block; and a slot that the callback filled points to the buffer of a report for its symbol,
which has the reported data or was freed by the codec. -/
theorem application_memory_of_run (holds : h.Holds m) (lt : w < 4294967296)
    (total : totEnc < 4294967296)
    (size : fresh.length = sizeofRepairFpi + applicationSymbolSize)
    (created : applicationCreateAt w dt totEnc fresh = .ok app₀)
    (run : Steps applicationStepAt (fun state call state' => meets state.view call state'.view)
      (app₀, h) calls state outs) :
    (∃ start, applicationCreate w dt totEnc fresh = .ok start ∧
      Steps applicationStep meets start calls state.view
        (outs.map DecodedSourceSymbolAt.view)) ∧
    (∀ call fault, applicationStepAt state call = .error fault ↔
      ∃ e, fault = .fault e ∧ applicationStep state.view call = .error e) ∧
    ∀ id p, state.1.client.entry id = decodedEntry p →
      ∃ d ∈ outs, d.esi = id ∧ d.newSymbolBuf = p ∧
        (state.2.read p = none ∨ ∃ s, state.2.read p = some s ∧ s.data = d.data) := by
  obtain ⟨started, -⟩ := applicationCreateAt_spec holds lt total size created
  obtain ⟨steps, inv⟩ := memory_of_run holds lt total size created run
  refine ⟨⟨_, started, steps⟩, fun call fault => applicationStepAt_error_iff inv,
    fun id p filled => ?_⟩
  obtain ⟨-, d, mem, same, there, data⟩ := inv.slots id p filled
  refine ⟨d, mem, same, there, ?_⟩
  cases live : state.2.read p with
  | none => exact .inl rfl
  | some s => exact .inr ⟨s, rfl, (data s live).symm⟩

/-- In every run, what the client prints after the last packet: it reads a freed buffer exactly when
the buffer of a symbol marked as decoded was freed, and fails in no other way; else it prints for
each symbol NULL, or the beginning of what was received or reported. -/
theorem application_print_of_run (holds : h.Holds m) (lt : w < 4294967296)
    (total : totEnc < 4294967296)
    (size : fresh.length = sizeofRepairFpi + applicationSymbolSize)
    (created : applicationCreateAt w dt totEnc fresh = .ok app₀)
    (run : Steps applicationStepAt (fun _ _ _ => True) (app₀, h) calls state outs) :
    (∀ fault, printSrcSymbolsAt state.1.client state.2 = .error fault ↔
      fault = .useAfterFree ∧
        ∃ id p, state.1.client.entry id = decodedEntry p ∧ state.2.read p = none) ∧
    ∀ printed h', printSrcSymbolsAt state.1.client state.2 = .ok (printed, h') →
      h' = state.2 ∧
        List.Forall₂ (Printed outs state.1.client) (List.range serverTotSrc) printed := by
  obtain ⟨-, inv⟩ := @memory_of_run w dt totEnc m h fresh app₀ calls state outs
    (fun _ _ _ => True) holds lt total size created run
  rcases printSrcSymbolsAt_spec inv with ⟨printed, ok, each, live⟩ | ⟨fails, freed⟩
  · rw [ok]
    refine ⟨fun fault => iff_of_false nofun ?_, fun printed' h' eq => ?_⟩
    · rintro ⟨-, id, p, filled, freed⟩
      exact live id p filled freed
    · cases eq
      exact ⟨rfl, each⟩
  · rw [fails]
    refine ⟨fun fault => ⟨fun eq => ?_, ?_⟩, nofun⟩
    · cases eq
      exact ⟨rfl, freed⟩
    · rintro ⟨rfl, -⟩
      rfl

end Run

theorem applicationCreateAt_two :
    applicationCreateAt 2 15 1001 (List.replicate 72 0) =
      .ok { server := serverOf 2 15 1001 (List.replicate 72 0)
            client := clientAtOf 2 serverTotSrc 1001
            sent := [] } := by
  decide +kernel

/-- The second symbol is decoded from the repair symbol, and the third frees its buffer. -/
theorem exists_freed_run : ∃ state d,
    Steps applicationStepAt (fun _ _ _ => True)
      ({ server := serverOf 2 15 1001 (List.replicate 72 0)
         client := clientAtOf 2 serverTotSrc 1001
         sent := [] }, Heap.empty)
      [.server .sendSourceSymbol, .server .sendSourceSymbol, .server .sendRepairSymbol,
        .server .sendSourceSymbol, .deliver 0, .deliver 2, .deliver 3] state [d] ∧
    state.1.client.entry 1 = decodedEntry d.newSymbolBuf ∧ state.2.read d.newSymbolBuf = none := by
  obtain ⟨state, outs, steps, freed⟩ := exists_steps_of_map
    (show (checkedRun applicationStepAt (fun _ _ _ => True)
      (({ server := serverOf 2 15 1001 (List.replicate 72 0)
          client := clientAtOf 2 serverTotSrc 1001
          sent := [] } : ApplicationAt), (Heap.empty : Memory))
      [.server .sendSourceSymbol, .server .sendSourceSymbol, .server .sendRepairSymbol,
        .server .sendSourceSymbol, .deliver 0, .deliver 2, .deliver 3]).map
      (fun r => r.2.map fun d => decide (r.1.1.client.entry 1 = decodedEntry d.newSymbolBuf ∧
        r.1.2.read d.newSymbolBuf = none)) = some [true] by decide +kernel)
  obtain ⟨d, rfl, freed⟩ := List.map_eq_singleton_iff.mp freed
  obtain ⟨filled, gone⟩ := of_decide_eq_true freed
  exact ⟨state, d, steps, filled, gone⟩

theorem application_memory_of_run_freed : ∃ app₀ state outs p,
    applicationCreateAt 2 15 1001 (List.replicate 72 0) = .ok app₀ ∧
    Steps applicationStepAt (fun _ _ _ => True) (app₀, Heap.empty)
      [.server .sendSourceSymbol, .server .sendSourceSymbol, .server .sendRepairSymbol,
        .server .sendSourceSymbol, .deliver 0, .deliver 2, .deliver 3] state outs ∧
    state.1.client.entry 1 = decodedEntry p ∧ state.2.read p = none ∧
    ∃ d ∈ outs, d.esi = 1 ∧ d.newSymbolBuf = p := by
  obtain ⟨state, d, steps, filled, gone⟩ := exists_freed_run
  obtain ⟨-, -, slots⟩ := @application_memory_of_run 2 15 1001 0 Heap.empty _ _ _ _ _
    (fun _ _ _ => True) Heap.holds_empty (by decide) (by decide) (by decide)
    applicationCreateAt_two steps
  obtain ⟨d', mem, same, there, -⟩ := slots 1 d.newSymbolBuf filled
  exact ⟨_, state, [d], d.newSymbolBuf, applicationCreateAt_two, steps, filled, gone, d', mem,
    same, there⟩

/-- The client prints from the freed buffer. -/
theorem application_print_of_run_freed : ∃ app₀ state outs,
    applicationCreateAt 2 15 1001 (List.replicate 72 0) = .ok app₀ ∧
    Steps applicationStepAt (fun _ _ _ => True) (app₀, Heap.empty)
      [.server .sendSourceSymbol, .server .sendSourceSymbol, .server .sendRepairSymbol,
        .server .sendSourceSymbol, .deliver 0, .deliver 2, .deliver 3] state outs ∧
    printSrcSymbolsAt state.1.client state.2 = .error .useAfterFree := by
  obtain ⟨state, d, steps, filled, gone⟩ := exists_freed_run
  obtain ⟨fails, -⟩ := application_print_of_run Heap.holds_empty (by decide) (by decide)
    (by decide) applicationCreateAt_two steps
  exact ⟨_, state, [d], applicationCreateAt_two, steps,
    (fails .useAfterFree).mpr ⟨rfl, 1, d.newSymbolBuf, filled, gone⟩⟩

end SwifCodec
