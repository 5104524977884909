import SwifCodec.Application.Server
import SwifCodec.Rlc.Progress

/-!
The receiver `simple_client.c`.

The client learns the parameters of the session from its first packet, and then hands each
packet to the decoder. It remembers the symbols it receives, and its callback those the decoder
reports, in a table by identifier. The identifier in the header is compared with the number of
source symbols; that of a reported symbol is not, so a repair window that goes past the last
source symbol can make the callback write past the end of the table.

`clientCreate_of_server` says which sessions of the server the client accepts, and
`client_of_run` what it does with any packet after any others, as long as no repair window
goes past the last source symbol.
-/

namespace SwifCodec

open Library FullSymbolSet Gf256

/-- `src_symbol_status_at_recv_t`. -/
inductive SrcSymbolStatus where
  | missing
  | received
  | decoded
  deriving DecidableEq, Repr

/-- A pointer of `src_symbols_tab`: to a packet, which the client allocates for each reception and
leaves alone until it ends, or to the buffer that the codec passed to the callback. That one stays
with the codec, so the client has its address only. -/
inductive SrcSymbolBuf (β : Type) where
  | pkt (contents : List Gf256)
  | newSymbolBuf (address : β)
  deriving DecidableEq, Repr

/-- The client between two packets, with a codec in `σ` whose buffers have addresses in `β`. A
pointer is `none` for NULL. -/
structure ClientState (σ β : Type) where
  ses : σ
  totSrc : Nat
  srcSymbolsTab : List (Option (SrcSymbolBuf β))
  srcSymbolsStatusTab : List SrcSymbolStatus
  repairSymbolsTab : List (Option (List Gf256))
  nReceived : Nat
  deriving DecidableEq, Repr

/-- The client of a codec without memory, whose buffers all have the address `()`. -/
abbrev Client := ClientState Decoder Unit

/-- The client at the start of a session. -/
def clientOf (ewSize totSrc totEnc : Nat) : Client where
  ses := swifRlcDecoderSetCallbackFunctions
    (swifRlcDecoderCreate applicationSymbolSize ewSize) true
  totSrc := totSrc
  srcSymbolsTab := List.replicate totSrc none
  srcSymbolsStatusTab := List.replicate totSrc .missing
  repairSymbolsTab := List.replicate (totEnc - totSrc) none
  nReceived := 0

/-- The checks of the parameters of a session. -/
def clientAccept (oti : FecOti) : ApplicationExec Client := do
  if oti.totEnc < oti.totSrc ∨ 100000 < oti.totSrc ∨ 100000 < oti.totEnc then throw .failure
  if oti.codepoint ≠ swifCodepointRlcGf256FullDensityCodec then throw .failure
  if oti.totSrc < oti.ewSize then throw .failure
  return clientOf oti.ewSize oti.totSrc oti.totEnc

/-- The part of `main` before the loop: the first packet has the parameters of the session. -/
def clientCreate (datagram : Datagram) : ApplicationExec Client := do
  let pkt := datagram.take (sizeofRepairFpi + applicationSymbolSize)
  if pkt.length ≠ sizeofFecOti then throw .failure
  let oti ← tableAccess .fecOti (readFecOti pkt)
  clientAccept oti

/-- A pointer to a symbol and its status are put into the tables. -/
def rememberSymbol {σ β : Type} (client : ClientState σ β) (esi : Nat) (buf : SrcSymbolBuf β)
    (status : SrcSymbolStatus) : ApplicationExec (ClientState σ β) := do
  let srcSymbolsTab ← tableAccess .srcSymbolsTab (Block.store client.srcSymbolsTab esi [some buf])
  let srcSymbolsStatusTab ← tableAccess .srcSymbolsTab
    (Block.store client.srcSymbolsStatusTab esi [status])
  return { client with srcSymbolsTab, srcSymbolsStatusTab }

/-- `decoded_source_symbol_callback`. -/
def decodedSourceSymbolCallback {σ β : Type} (client : ClientState σ β) (newSymbolBuf : β)
    (esi : Nat) : ApplicationExec (ClientState σ β) :=
  rememberSymbol client esi (.newSymbolBuf newSymbolBuf) .decoded

/-- The callbacks of one call of the codec. -/
def decodedSourceSymbolCallbacks {σ β : Type} (client : ClientState σ β) (calls : List (β × Nat)) :
    ApplicationExec (ClientState σ β) :=
  calls.foldlM (fun client call => decodedSourceSymbolCallback client call.1 call.2) client

/-- The arguments of a callback of the codec without memory. -/
def DecodedSourceSymbol.arguments (call : DecodedSourceSymbol) : Unit × Nat := ((), call.esi)

/-- The body of the loop over the packets. Every repair symbol is remembered in slot 0, because
`rep_idx` is set to 0 for each packet. -/
def receivePacket (client : Client) (datagram : Datagram) :
    ApplicationExec (Client × List DecodedSourceSymbol) := do
  let client := { client with nReceived := add32 client.nReceived 1 }
  match readPacket datagram with
  | .source esi pkt =>
      if client.totSrc ≤ esi then throw .failure
      let client ← rememberSymbol client esi (.pkt pkt) .received
      let (ses, decoded) ← runCodec (swifRlcDecoderDecodeWithNewSourceSymbol client.ses pkt esi)
      let client ← decodedSourceSymbolCallbacks { client with ses }
        (decoded.map DecodedSourceSymbol.arguments)
      return (client, decoded)
  | .repair fpi symbol =>
      if client.totSrc ≤ fpi.esi.toNat then throw .failure
      let repairSymbolsTab ← tableAccess .repairSymbolsTab
        (Block.store client.repairSymbolsTab 0 [some symbol])
      let (ses, status, decoded) ← runCodec (receiveRepairPacket client.ses fpi symbol)
      if status ≠ .ok then throw .failure
      let client ← decodedSourceSymbolCallbacks { client with ses, repairSymbolsTab }
        (decoded.map DecodedSourceSymbol.arguments)
      return (client, decoded)
  | .unidentified => throw .failure

/-! ### The parameters of a session -/

section Create

variable {ewSize dt totEnc : ℕ} {fresh : List Gf256} {server : Server} {client : Client}
  {oti : FecOti} {datagram : Datagram}

/-- The parameters that pass the checks of the client. -/
def FecOti.Accepted (oti : FecOti) : Prop :=
  oti.totSrc ≤ oti.totEnc ∧ oti.totEnc ≤ 100000 ∧
    oti.codepoint = swifCodepointRlcGf256FullDensityCodec ∧ oti.ewSize ≤ oti.totSrc

theorem clientAccept_of_accepted (accepted : oti.Accepted) :
    clientAccept oti = .ok (clientOf oti.ewSize oti.totSrc oti.totEnc) := by
  obtain ⟨enough, bounded, codepoint, window⟩ := accepted
  unfold clientAccept
  rw [if_neg (by omega), if_neg (fun differ => differ codepoint), if_neg (by omega)]
  rfl

theorem clientAccept_of_not_accepted (refused : ¬ oti.Accepted) :
    clientAccept oti = .error .failure := by
  unfold clientAccept
  by_cases bounds : oti.totEnc < oti.totSrc ∨ 100000 < oti.totSrc ∨ 100000 < oti.totEnc
  · rw [if_pos bounds]
    rfl
  rw [if_neg bounds]
  by_cases codepoint : oti.codepoint ≠ swifCodepointRlcGf256FullDensityCodec
  · rw [if_pos codepoint]
    rfl
  rw [if_neg codepoint]
  by_cases window : oti.totSrc < oti.ewSize
  · rw [if_pos window]
    rfl
  · exact absurd ⟨by omega, by omega, not_not.mp codepoint, by omega⟩ refused

/-- A client that starts has accepted its parameters. -/
theorem clientCreate_of_ok (ok : clientCreate datagram = .ok client) :
    ∃ oti : FecOti, oti.Accepted ∧ client = clientOf oti.ewSize oti.totSrc oti.totEnc := by
  unfold clientCreate at ok
  dsimp only at ok
  by_cases length : (datagram.take (sizeofRepairFpi + applicationSymbolSize)).length ≠ sizeofFecOti
  · rw [if_pos length] at ok
    cases ok
  rw [if_neg length] at ok
  cases read : readFecOti (datagram.take (sizeofRepairFpi + applicationSymbolSize)) with
  | none =>
      rw [read] at ok
      cases ok
  | some oti =>
      rw [read] at ok
      change clientAccept oti = .ok client at ok
      by_cases accepted : oti.Accepted
      · rw [clientAccept_of_accepted accepted] at ok
        cases ok
        exact ⟨oti, accepted, rfl⟩
      · rw [clientAccept_of_not_accepted accepted] at ok
        cases ok

/-- The client on the first packet of a server that started. -/
theorem clientCreate_of_server {sent : Datagram} (lt : ewSize < 4294967296)
    (total : totEnc < 4294967296)
    (size : fresh.length = sizeofRepairFpi + applicationSymbolSize)
    (created : serverCreate ewSize dt totEnc fresh = .ok (server, sent)) :
    clientCreate sent =
      if ewSize ≤ serverTotSrc ∧ totEnc ≤ 100000 then .ok (clientOf ewSize serverTotSrc totEnc)
      else .error .failure := by
  obtain ⟨-, -, -, -, -, -, enough, rfl⟩ := serverCreate_spec lt size created
  obtain ⟨length, read⟩ := readFecOti_toDatagram
    ⟨swifCodepointRlcGf256FullDensityCodec, ewSize, serverTotSrc, totEnc⟩
  dsimp only at read
  rw [Nat.mod_eq_of_lt lt, Nat.mod_eq_of_lt total,
    show swifCodepointRlcGf256FullDensityCodec % 4294967296 =
      swifCodepointRlcGf256FullDensityCodec from rfl,
    show serverTotSrc % 4294967296 = serverTotSrc from rfl] at read
  unfold clientCreate
  rw [List.take_of_length_le (by rw [length]; decide)]
  dsimp only
  rw [if_neg (fun differ => differ length), read]
  show clientAccept ⟨swifCodepointRlcGf256FullDensityCodec, ewSize, serverTotSrc, totEnc⟩ = _
  by_cases fits : ewSize ≤ serverTotSrc ∧ totEnc ≤ 100000
  · rw [if_pos fits, clientAccept_of_accepted ⟨enough, fits.2, rfl, fits.1⟩]
  · rw [if_neg fits, clientAccept_of_not_accepted]
    exact fun accepted => fits ⟨accepted.2.2.2, accepted.2.1⟩

end Create

/-! ### Tables -/

section Tables

variable {σ β : Type} {client : ClientState σ β} {esi : ℕ} {buf : SrcSymbolBuf β}
  {status : SrcSymbolStatus} {calls : List (β × ℕ)}

/-- The tables have one slot for each source symbol. -/
structure ClientState.TablesOk (client : ClientState σ β) : Prop where
  tab : client.srcSymbolsTab.length = client.totSrc
  status : client.srcSymbolsStatusTab.length = client.totSrc

/-- What the tables say about an identifier. -/
def ClientState.entry (client : ClientState σ β) (esi : ℕ) :
    Option (Option (SrcSymbolBuf β)) × Option SrcSymbolStatus :=
  (client.srcSymbolsTab[esi]?, client.srcSymbolsStatusTab[esi]?)

/-- The entry of a symbol that the callback was called for. -/
def decodedEntry (newSymbolBuf : β) : Option (Option (SrcSymbolBuf β)) × Option SrcSymbolStatus :=
  (some (some (.newSymbolBuf newSymbolBuf)), some .decoded)

/-- Remembering a symbol changes its slot. -/
theorem rememberSymbol_of_ok {client' : ClientState σ β}
    (ok : rememberSymbol client esi buf status = .ok client') :
    client'.ses = client.ses ∧ ∀ id, client'.entry id =
      if id = esi then (some (some buf), some status) else client.entry id := by
  unfold rememberSymbol at ok
  cases tab_eq : Block.store client.srcSymbolsTab esi [some buf] with
  | none =>
      rw [tab_eq] at ok
      cases ok
  | some tab =>
      cases statuses_eq : Block.store client.srcSymbolsStatusTab esi [status] with
      | none =>
          rw [tab_eq, statuses_eq] at ok
          cases ok
      | some statuses =>
          rw [tab_eq, statuses_eq] at ok
          cases ok
          refine ⟨rfl, fun id => ?_⟩
          unfold ClientState.entry
          dsimp only
          rw [Block.getElem?_of_store_singleton tab_eq,
            Block.getElem?_of_store_singleton statuses_eq]
          split <;> rfl

/-- Remembering a symbol that has a slot. -/
theorem rememberSymbol_spec (tables : client.TablesOk) (lt : esi < client.totSrc) :
    ∃ tab statuses, rememberSymbol client esi buf status =
        .ok { client with srcSymbolsTab := tab, srcSymbolsStatusTab := statuses } ∧
      tab.length = client.totSrc ∧ statuses.length = client.totSrc ∧
      ∀ id, (tab[id]?, statuses[id]?) =
        if id = esi then (some (some buf), some status) else client.entry id := by
  have remember_eq : rememberSymbol client esi buf status = .ok { client with
      srcSymbolsTab := client.srcSymbolsTab.set esi (some buf)
      srcSymbolsStatusTab := client.srcSymbolsStatusTab.set esi status } := by
    unfold rememberSymbol
    rw [Block.store_singleton (by rw [tables.tab]; exact lt),
      Block.store_singleton (by rw [tables.status]; exact lt)]
    rfl
  exact ⟨_, _, remember_eq, by rw [List.length_set, tables.tab],
    by rw [List.length_set, tables.status], (rememberSymbol_of_ok remember_eq).2⟩

/-- The callbacks change the slots of their symbols. -/
theorem callbacks_of_ok {client' : ClientState σ β}
    (ok : decodedSourceSymbolCallbacks client calls = .ok client') :
    client'.ses = client.ses ∧ ∀ id, client'.entry id = client.entry id ∨
      ∃ d ∈ calls, d.2 = id ∧ client'.entry id = decodedEntry d.1 := by
  induction calls generalizing client with
  | nil =>
      cases ok
      exact ⟨rfl, fun id => .inl rfl⟩
  | cons d calls ih =>
      unfold decodedSourceSymbolCallbacks at ok
      rw [List.foldlM_cons] at ok
      cases first : decodedSourceSymbolCallback client d.1 d.2 with
      | error e =>
          rw [first] at ok
          cases ok
      | ok mid =>
          rw [first, application_ok_bind] at ok
          obtain ⟨same_ses, slot⟩ := rememberSymbol_of_ok first
          obtain ⟨same_ses', slots⟩ := ih ok
          refine ⟨same_ses'.trans same_ses, fun id => ?_⟩
          rcases slots id with old | ⟨d', mem, same, new⟩
          · rw [old]
            have before := slot id
            by_cases here : id = d.2
            · rw [if_pos here] at before
              exact .inr ⟨d, List.mem_cons_self, here.symm, before⟩
            · rw [if_neg here] at before
              exact .inl before
          · exact .inr ⟨d', List.mem_cons_of_mem _ mem, same, new⟩

/-- The callbacks for symbols that have a slot. -/
theorem callbacks_spec (tables : client.TablesOk) (low : ∀ d ∈ calls, d.2 < client.totSrc) :
    ∃ tab statuses, decodedSourceSymbolCallbacks client calls =
        .ok { client with srcSymbolsTab := tab, srcSymbolsStatusTab := statuses } ∧
      tab.length = client.totSrc ∧ statuses.length = client.totSrc := by
  induction calls generalizing client with
  | nil => exact ⟨_, _, rfl, tables.tab, tables.status⟩
  | cons d calls ih =>
      obtain ⟨tab, statuses, eq, tab_length, status_length, -⟩ :=
        @rememberSymbol_spec σ β client d.2 (.newSymbolBuf d.1) .decoded tables
          (low d List.mem_cons_self)
      obtain ⟨tab', statuses', eq', tab_length', status_length'⟩ :=
        @ih { client with srcSymbolsTab := tab, srcSymbolsStatusTab := statuses }
          ⟨tab_length, status_length⟩ fun d' mem => low d' (List.mem_cons_of_mem _ mem)
      refine ⟨tab', statuses', ?_, tab_length', status_length'⟩
      unfold decodedSourceSymbolCallbacks
      rw [List.foldlM_cons]
      show (rememberSymbol client d.2 (.newSymbolBuf d.1) .decoded >>= _) = _
      rw [eq, application_ok_bind]
      exact eq'

end Tables

/-! ### Packets -/

section Receive

variable {client client' : Client} {datagram : Datagram} {esi : ℕ} {pkt symbol : List Gf256}
  {fpi : RepairFpi} {out : List DecodedSourceSymbol}

theorem length_of_readPacket_source (read : readPacket datagram = .source esi pkt) :
    pkt.length = 68 := by
  unfold readPacket at read
  dsimp only at read
  split at read
  · rename_i source
    cases read
    exact beq_iff_eq.mp source
  · split at read <;> cases read

theorem length_of_readPacket_repair (read : readPacket datagram = .repair fpi symbol) :
    symbol.length = applicationSymbolSize := by
  unfold readPacket at read
  dsimp only at read
  split at read
  · cases read
  · split at read
    · rename_i repair
      have length : (datagram.take (sizeofRepairFpi + applicationSymbolSize)).length = 72 :=
        beq_iff_eq.mp repair
      cases read
      rw [List.length_drop, length]
      rfl
    · cases read

/-- What the client keeps true between two packets, when no repair window has gone past the
last source symbol. -/
structure ClientState.Invariant (client : Client) : Prop extends client.TablesOk where
  below : client.ses.Below client.totSrc
  small : client.totSrc ≤ 100000
  symbolSize : client.ses.symbolSize = applicationSymbolSize
  cells : (client.ses.coefTab.map List.length).getD client.ses.symbolSize = client.ses.symbolSize

theorem clientOf_invariant {ewSize totSrc totEnc : ℕ} (small : totSrc ≤ 100000) :
    (clientOf ewSize totSrc totEnc).Invariant where
  tab := List.length_replicate
  status := List.length_replicate
  below := activeDecoder_below applicationSymbolSize ewSize totSrc
  small := small
  symbolSize := rfl
  cells := rfl

/-- The client after some callbacks. -/
structure CalledBack (client client' : Client) (out : List DecodedSourceSymbol) : Prop where
  invariant : client'.Invariant
  totSrc : client'.totSrc = client.totSrc
  repairs : client'.repairSymbolsTab.length = client.repairSymbolsTab.length
  entry : ∀ id, client'.entry id = client.entry id ∨
    ∃ d ∈ out, d.esi = id ∧ client'.entry id = decodedEntry ()

/-- A decoder that differs from another in its rows and its coding window only. -/
structure Decoder.Succeeds (ses ses' : Decoder) : Prop where
  symbolSize : ses'.symbolSize = ses.symbolSize
  window : ses'.maxCodingWindowSize = ses.maxCodingWindowSize
  cells : (ses'.coefTab.map List.length).getD ses'.symbolSize =
    (ses.coefTab.map List.length).getD ses.symbolSize

/-- The callbacks of a decoding step. -/
theorem ClientState.Invariant.callbacks (inv : client.Invariant) {ses : Decoder}
    {repairs : List (Option (List Gf256))} (below : ses.Below client.totSrc)
    (succeeds : client.ses.Succeeds ses)
    (length : repairs.length = client.repairSymbolsTab.length)
    (low : ∀ d ∈ out, d.esi < client.totSrc) :
    ∃ client', decodedSourceSymbolCallbacks { client with ses, repairSymbolsTab := repairs }
        (out.map DecodedSourceSymbol.arguments) = .ok client' ∧ client'.ses = ses ∧
      CalledBack client client' out := by
  have inside : ∀ call ∈ out.map DecodedSourceSymbol.arguments, call.2 < client.totSrc := by
    intro call mem
    obtain ⟨d, d_mem, rfl⟩ := List.mem_map.mp mem
    exact low d d_mem
  obtain ⟨tab, statuses, eq, tab_length, status_length⟩ :=
    @callbacks_spec Decoder Unit { client with ses, repairSymbolsTab := repairs } _
      ⟨inv.tab, inv.status⟩ inside
  refine ⟨_, eq, rfl, ⟨⟨tab_length, status_length⟩, below, inv.small, ?_, ?_⟩, rfl, length,
    fun id => ((callbacks_of_ok eq).2 id).imp_right ?_⟩
  · exact succeeds.symbolSize.trans inv.symbolSize
  · exact succeeds.cells.trans (inv.cells.trans succeeds.symbolSize.symm)
  · rintro ⟨call, mem, same, told⟩
    obtain ⟨d, d_mem, rfl⟩ := List.mem_map.mp mem
    exact ⟨d, d_mem, same, told⟩

/-- A decoding step changes the rows only. -/
theorem Decoder.Succeeds.of_decodeFullSymbol {dec ses : Decoder} {s : FullSymbol}
    (ok : decodeFullSymbol dec s = .ok (ses, out)) : dec.Succeeds ses := by
  rw [decodeFullSymbol_frame ok]
  exact ⟨rfl, rfl, rfl⟩

/-- What a packet puts into the table of the source symbols. -/
def Packet.received : Packet → ℕ → Option (List Gf256)
  | .source esi pkt, id => if id = esi then some pkt else none
  | _, _ => none

/-- The client after a packet that it handled: the codec has taken the packet, and what was
received and what was reported is in the tables. -/
structure Handled (client : Client) (datagram : Datagram) (client' : Client)
    (out : List DecodedSourceSymbol) : Prop where
  invariant : client'.Invariant
  totSrc : client'.totSrc = client.totSrc
  window : client'.ses.maxCodingWindowSize = client.ses.maxCodingWindowSize
  repairs : client'.repairSymbolsTab.length = client.repairSymbolsTab.length
  reports : ∀ d ∈ out, d.esi < client.totSrc
  source : ∀ esi pkt, readPacket datagram = .source esi pkt →
    swifRlcDecoderDecodeWithNewSourceSymbol client.ses pkt esi = .ok (client'.ses, out)
  repair : ∀ fpi symbol, readPacket datagram = .repair fpi symbol →
    receiveRepairPacket client.ses fpi symbol = .ok (client'.ses, .ok, out)
  entry : ∀ id, (client'.entry id = client.entry id ∧ (readPacket datagram).received id = none) ∨
    (∃ pkt, (readPacket datagram).received id = some pkt ∧
      client'.entry id = (some (some (.pkt pkt)), some .received)) ∨
    ∃ d ∈ out, d.esi = id ∧ client'.entry id = decodedEntry ()

/-- How the client fails on a packet, if it does. The identifier of the packet is compared with
the size of the tables, and a repair packet needs a slot to be remembered in. The codec refuses a
window that is too large; if it is too large by one, or empty, an assertion fails; one larger than
a symbol overruns the coefficient table; and rows that are moved up too far leave the pivot
table. -/
def ClientState.sourceFault (client : Client) (esi : ℕ) : Option ApplicationFault :=
  if client.totSrc ≤ esi then some .failure
  else if client.ses.symbolSet.Fits esi then none
  else some (.codec (.outOfBounds .pivotTab))

/-- The identifier that a repair symbol leads at. -/
def RepairFpi.lead (fpi : RepairFpi) : ℕ :=
  ((codingCoefficients fpi.repairKey.toNat fpi.nss fpi.dt).map
    (leadingId fpi.esi.toNat)).getD symbolIdNone

@[inherit_doc ClientState.sourceFault]
def ClientState.repairFault (client : Client) (fpi : RepairFpi) : Option ApplicationFault :=
  if client.totSrc ≤ fpi.esi.toNat then some .failure
  else if client.repairSymbolsTab = [] then some (.outOfBounds .repairSymbolsTab)
  else if client.ses.maxCodingWindowSize + 1 < fpi.nss then some .failure
  else if fpi.nss = 0 ∨ fpi.nss = client.ses.maxCodingWindowSize + 1 then some (.codec .assertion)
  else if applicationSymbolSize < fpi.nss then some (.codec (.outOfBounds .coefTab))
  else if client.ses.symbolSet.Fits fpi.lead then none
  else some (.codec (.outOfBounds .pivotTab))

@[inherit_doc ClientState.sourceFault]
def ClientState.packetFault (client : Client) (datagram : Datagram) : Option ApplicationFault :=
  match readPacket datagram with
  | .source esi _ => client.sourceFault esi
  | .repair fpi _ => client.repairFault fpi
  | .unidentified => some .failure

theorem ClientState.packetFault_ne_srcSymbolsTab (client : Client) (datagram : Datagram) :
    client.packetFault datagram ≠ some (.outOfBounds .srcSymbolsTab) := by
  unfold ClientState.packetFault ClientState.sourceFault ClientState.repairFault
  split
  · split_ifs <;> nofun
  · split_ifs <;> nofun
  · nofun

/-- The client handles the packet, or fails in the given way. -/
def ClientState.EndsAs (client : Client) (datagram : Datagram) : Option ApplicationFault → Prop
  | none => ∃ client' out, receivePacket client datagram = .ok (client', out) ∧
      Handled client datagram client' out
  | some fault => receivePacket client datagram = .error fault

/-- What the client does with a source packet. -/
theorem receivePacket_source (inv : client.Invariant)
    (read : readPacket datagram = .source esi pkt) :
    client.EndsAs datagram (client.sourceFault esi) := by
  have small := inv.small
  have length := length_of_readPacket_source read
  have step : receivePacket client datagram = (do
      if client.totSrc ≤ esi then throw .failure
      let client ← rememberSymbol { client with nReceived := add32 client.nReceived 1 } esi
        (.pkt pkt) .received
      let (ses, decoded) ← runCodec (swifRlcDecoderDecodeWithNewSourceSymbol client.ses pkt esi)
      let client ← decodedSourceSymbolCallbacks { client with ses }
        (decoded.map DecodedSourceSymbol.arguments)
      return (client, decoded)) := by
    unfold receivePacket
    dsimp only
    rw [read]
  unfold ClientState.sourceFault
  by_cases outside : client.totSrc ≤ esi
  · rw [if_pos outside] at step ⊢
    exact step
  have inside : esi < client.totSrc := Nat.lt_of_not_le outside
  rw [if_neg outside] at step ⊢
  obtain ⟨tab, statuses, remember_eq, tab_length, status_length, entry⟩ :=
    @rememberSymbol_spec Decoder Unit { client with nReceived := add32 client.nReceived 1 } esi
      (.pkt pkt) .received ⟨inv.tab, inv.status⟩ inside
  dsimp only at step
  rw [remember_eq, application_ok_bind] at step
  rcases decodeWithNewSourceSymbol_progress (show client.totSrc ≤ 2147483639 by omega) inv.below
    inside (show client.ses.symbolSize ≤ pkt.length by rw [inv.symbolSize, length]; decide) with
    ⟨fits, ses, out, decode_eq, below, low⟩ | ⟨exceeds, decode_eq⟩
  · obtain ⟨s, -, decoded⟩ := bind_eq_ok.mp decode_eq
    have succeeds := Decoder.Succeeds.of_decodeFullSymbol decoded
    have remembered : ClientState.Invariant { client with
        nReceived := add32 client.nReceived 1
        srcSymbolsTab := tab
        srcSymbolsStatusTab := statuses } :=
      ⟨⟨tab_length, status_length⟩, inv.below, small, inv.symbolSize, inv.cells⟩
    obtain ⟨client', callbacks_eq, ses_eq, reported⟩ := remembered.callbacks below succeeds
      (show client.repairSymbolsTab.length = client.repairSymbolsTab.length from rfl) low
    dsimp only at step
    rw [runCodec_ok decode_eq, application_ok_bind] at step
    dsimp only at step
    rw [callbacks_eq] at step
    rw [if_pos fits]
    refine ⟨client', out, step, reported.invariant, reported.totSrc,
      by rw [ses_eq, succeeds.window], reported.repairs, low, ?_, ?_, fun id => ?_⟩
    · rintro esi' pkt' read'
      rw [read] at read'
      cases read'
      rw [ses_eq]
      exact decode_eq
    · rintro fpi symbol read'
      rw [read] at read'
      cases read'
    · rw [read]
      rcases reported.entry id with old | told
      · have at_id := old.trans (entry id)
        by_cases here : id = esi
        · rw [if_pos here] at at_id
          exact .inr (.inl ⟨pkt, if_pos here, at_id⟩)
        · rw [if_neg here] at at_id
          exact .inl ⟨at_id, if_neg here⟩
      · exact .inr (.inr told)
  · have fault : runCodec (swifRlcDecoderDecodeWithNewSourceSymbol client.ses pkt esi) =
        .error (.codec (.outOfBounds .pivotTab)) := by
      rw [decode_eq]
      rfl
    dsimp only at step
    rw [fault] at step
    rw [if_neg exceeds]
    exact step

/-- A repair packet that the client does not refuse at once goes to the codec. -/
theorem receivePacket_repair_eq (read : readPacket datagram = .repair fpi symbol)
    (inside : fpi.esi.toNat < client.totSrc) (slot : client.repairSymbolsTab ≠ []) :
    receivePacket client datagram = (do
      let (ses, status, decoded) ← runCodec (receiveRepairPacket client.ses fpi symbol)
      if status ≠ .ok then throw .failure
      let client ← decodedSourceSymbolCallbacks
        { client with
          ses
          repairSymbolsTab := client.repairSymbolsTab.set 0 (some symbol)
          nReceived := add32 client.nReceived 1 }
        (decoded.map DecodedSourceSymbol.arguments)
      return (client, decoded)) := by
  unfold receivePacket
  dsimp only
  rw [read]
  dsimp only
  rw [if_neg (Nat.not_le.mpr inside), Block.store_singleton (List.length_pos_iff.mpr slot)]
  rfl

/-- What the client does with a repair packet that the codec takes. -/
theorem receivePacket_repair_ok (inv : client.Invariant)
    (read : readPacket datagram = .repair fpi symbol) (inside : fpi.esi.toNat < client.totSrc)
    (slot : client.repairSymbolsTab ≠ []) {ses : Decoder}
    (taken : receiveRepairPacket client.ses fpi symbol = .ok (ses, .ok, out))
    (below : ses.Below client.totSrc) (succeeds : client.ses.Succeeds ses)
    (low : ∀ d ∈ out, d.esi < client.totSrc) :
    ∃ client', receivePacket client datagram = .ok (client', out) ∧
      Handled client datagram client' out := by
  have counted : ClientState.Invariant { client with nReceived := add32 client.nReceived 1 } :=
    ⟨⟨inv.tab, inv.status⟩, inv.below, inv.small, inv.symbolSize, inv.cells⟩
  obtain ⟨client', callbacks_eq, ses_eq, reported⟩ := counted.callbacks below succeeds
    (show (client.repairSymbolsTab.set 0 (some symbol)).length = client.repairSymbolsTab.length
      from List.length_set) low
  refine ⟨client', ?_, reported.invariant, reported.totSrc, by rw [ses_eq, succeeds.window],
    reported.repairs, low, ?_, ?_, fun id => ?_⟩
  · rw [receivePacket_repair_eq read inside slot, runCodec_ok taken, application_ok_bind]
    dsimp only
    rw [if_neg (by decide)]
    show (decodedSourceSymbolCallbacks _ (out.map DecodedSourceSymbol.arguments) >>= _) = _
    rw [callbacks_eq]
    rfl
  · rintro esi pkt read'
    rw [read] at read'
    cases read'
  · rintro fpi' symbol' read'
    rw [read] at read'
    cases read'
    rw [ses_eq]
    exact taken
  · rw [read]
    exact (reported.entry id).imp (fun old => ⟨old, rfl⟩) .inr

/-- A repair packet on which the codec fails. -/
theorem receivePacket_repair_fault (read : readPacket datagram = .repair fpi symbol)
    (inside : fpi.esi.toNat < client.totSrc) (slot : client.repairSymbolsTab ≠ []) {fault : Fault}
    (fails : receiveRepairPacket client.ses fpi symbol = .error fault) :
    receivePacket client datagram = .error (.codec fault) := by
  rw [receivePacket_repair_eq read inside slot, fails]
  rfl

/-- What the client does with a repair packet whose window ends with the source symbols. -/
theorem receivePacket_repair (inv : client.Invariant)
    (read : readPacket datagram = .repair fpi symbol)
    (ends : fpi.esi.toNat + fpi.nss ≤ client.totSrc) :
    client.EndsAs datagram (client.repairFault fpi) := by
  have small := inv.small
  have length := length_of_readPacket_repair read
  have nss_le := fpi.nss_le
  have key : fpi.repairKey.toNat % 65536 = fpi.repairKey.toNat :=
    Nat.mod_eq_of_lt fpi.repairKey.isLt
  unfold ClientState.repairFault
  by_cases outside : client.totSrc ≤ fpi.esi.toNat
  · rw [if_pos outside]
    show receivePacket client datagram = .error .failure
    unfold receivePacket
    dsimp only
    rw [read]
    dsimp only
    rw [if_pos outside]
    rfl
  have inside : fpi.esi.toNat < client.totSrc := Nat.lt_of_not_le outside
  rw [if_neg outside]
  by_cases slot : client.repairSymbolsTab = []
  · rw [if_pos slot]
    show receivePacket client datagram = .error (.outOfBounds .repairSymbolsTab)
    unfold receivePacket
    dsimp only
    rw [read]
    dsimp only
    rw [if_neg outside, slot]
    rfl
  rw [if_neg slot]
  have codec := @submitRepairPacket_progress client.totSrc fpi.esi.toNat fpi.nss
    fpi.repairKey.toNat fpi.dt client.ses symbol (by omega) inv.below fpi.dt_le (by omega) ends
    (by rw [inv.symbolSize, length]) inv.cells
  rw [key, inv.symbolSize] at codec
  rcases codec with ⟨bad, eq⟩ | ⟨large, dec', eq⟩ | ⟨fits, long, eq⟩ |
    ⟨pos, fits, short, cs, tab, drawn, tab_length, progress, eq⟩
  · rw [if_neg (by omega), if_pos bad]
    exact receivePacket_repair_fault read inside slot eq
  · have taken : receiveRepairPacket client.ses fpi symbol = .ok (dec', .error, []) := eq
    rw [if_pos large]
    show receivePacket client datagram = .error .failure
    rw [receivePacket_repair_eq read inside slot, runCodec_ok taken]
    rfl
  · rw [if_neg (by omega), if_neg (by omega), if_pos long]
    exact receivePacket_repair_fault read inside slot eq
  · rw [if_neg (by omega), if_neg (by omega), if_neg (Nat.not_lt.mpr short), RepairFpi.lead, drawn,
      Option.map_some, Option.getD_some]
    rcases progress with ⟨room, ses, out, decode_eq, below, low⟩ | ⟨exceeds, decode_eq⟩
    · have taken : receiveRepairPacket client.ses fpi symbol = .ok (ses, .ok, out) := by
        unfold receiveRepairPacket
        rw [eq, decode_eq]
        rfl
      obtain ⟨s, -, decoded⟩ := bind_eq_ok.mp decode_eq
      have prepared := Decoder.Succeeds.of_decodeFullSymbol decoded
      have succeeds : client.ses.Succeeds ses := by
        refine ⟨prepared.symbolSize, prepared.window, prepared.cells.trans ?_⟩
        rw [inv.cells, inv.symbolSize]
        exact tab_length
      rw [if_pos room]
      obtain ⟨client', receive_eq, handled⟩ :=
        receivePacket_repair_ok inv read inside slot taken below succeeds low
      exact ⟨client', out, receive_eq, handled⟩
    · have fails : receiveRepairPacket client.ses fpi symbol = .error (.outOfBounds .pivotTab) := by
        unfold receiveRepairPacket
        rw [eq, decode_eq]
        rfl
      rw [if_neg exceeds]
      exact receivePacket_repair_fault read inside slot fails

/-- A repair window does not go past the last source symbol. -/
def ClientState.InWindow (client : Client) (datagram : Datagram) : Prop :=
  match readPacket datagram with
  | .repair fpi _ => fpi.esi.toNat + fpi.nss ≤ client.totSrc
  | _ => True

instance (client : Client) (datagram : Datagram) : Decidable (client.InWindow datagram) := by
  unfold ClientState.InWindow
  split <;> infer_instance

/-- What the client does with a packet. -/
theorem receivePacket_spec (inv : client.Invariant) (ends : client.InWindow datagram) :
    client.EndsAs datagram (client.packetFault datagram) := by
  unfold ClientState.InWindow at ends
  unfold ClientState.packetFault
  cases read : readPacket datagram with
  | source esi pkt => exact receivePacket_source inv read
  | repair fpi symbol =>
      rw [read] at ends
      exact receivePacket_repair inv read ends
  | unidentified =>
      show receivePacket client datagram = .error .failure
      unfold receivePacket
      dsimp only
      rw [read]
      rfl

/-- A packet that does not make the client fail is handled. -/
theorem handled_of_ok {client' : Client} (inv : client.Invariant) (ends : client.InWindow datagram)
    (ok : receivePacket client datagram = .ok (client', out)) :
    Handled client datagram client' out := by
  have spec := receivePacket_spec inv ends
  cases fault : client.packetFault datagram with
  | none =>
      rw [fault] at spec
      obtain ⟨client'', out', eq, handled⟩ := spec
      rw [eq] at ok
      cases ok
      exact handled
  | some fault' =>
      rw [fault] at spec
      have eq : receivePacket client datagram = .error fault' := spec
      rw [eq] at ok
      cases ok

/-- The client fails exactly as `packetFault` says. -/
theorem receivePacket_error_iff (inv : client.Invariant) (ends : client.InWindow datagram)
    {fault : ApplicationFault} :
    receivePacket client datagram = .error fault ↔ client.packetFault datagram = some fault := by
  have spec := receivePacket_spec inv ends
  cases packet_fault : client.packetFault datagram with
  | none =>
      rw [packet_fault] at spec
      obtain ⟨client', out, eq, -⟩ := spec
      rw [eq]
      exact iff_of_false nofun nofun
  | some fault' =>
      rw [packet_fault] at spec
      have eq : receivePacket client datagram = .error fault' := spec
      rw [eq, Except.error.injEq, Option.some.injEq]

end Receive

/-! ### Runs of the client -/

section Run

variable {client₀ client : Client} {oti : Datagram} {datagrams : List Datagram}
  {outs : List DecodedSourceSymbol}

theorem clientCreate_invariant (created : clientCreate oti = .ok client) : client.Invariant := by
  obtain ⟨oti, ⟨enough, bounded, -⟩, rfl⟩ := clientCreate_of_ok created
  exact clientOf_invariant (by omega)

/-- In every run of the client, whatever the packets are, as long as no repair window goes past
the last source symbol: every reported identifier is one of a source symbol; the next packet is
handled, or makes the client fail, as `packetFault` says; and the client never writes outside the
tables of the source symbols. -/
theorem client_of_run (created : clientCreate oti = .ok client₀)
    (run : Steps receivePacket (fun client datagram _ => client.InWindow datagram) client₀ datagrams
      client outs) :
    (∀ d ∈ outs, d.esi < client.totSrc) ∧
    ∀ datagram, client.InWindow datagram →
      (∀ fault, receivePacket client datagram = .error fault ↔
        client.packetFault datagram = some fault) ∧
      receivePacket client datagram ≠ .error (.outOfBounds .srcSymbolsTab) := by
  have reached : client.Invariant ∧ ∀ d ∈ outs, d.esi < client.totSrc := by
    induction run with
    | nil => exact ⟨clientCreate_invariant created, nofun⟩
    | snoc _ ok ends ih =>
        obtain ⟨inv, reports⟩ := ih
        have handled := handled_of_ok inv ends ok
        refine ⟨handled.invariant, fun d mem => ?_⟩
        rw [handled.totSrc]
        exact (List.mem_append.mp mem).elim (reports d) (handled.reports d)
  obtain ⟨inv, reports⟩ := reached
  refine ⟨reports, fun datagram ends => ⟨fun fault => receivePacket_error_iff inv ends, ?_⟩⟩
  rw [Ne, receivePacket_error_iff inv ends]
  exact client.packetFault_ne_srcSymbolsTab datagram

end Run

/-- A source packet of a symbol of equal bytes. -/
def constantSource (esi : ℕ) (byte : Gf256) : Datagram :=
  List.replicate applicationSymbolSize byte ++ htonl esi

theorem client_of_run_one_symbol :
    ∃ client₀ client outs,
      clientCreate (FecOti.toDatagram ⟨1, 2, 2, 3⟩) = .ok client₀ ∧
      Steps receivePacket (fun client datagram _ => client.InWindow datagram) client₀
        [constantSource 1 7] client outs ∧
      receivePacket client (repairDatagram 1 15 2 0 (List.replicate applicationSymbolSize 5)) ≠
        .error (.outOfBounds .srcSymbolsTab) := by
  have created : clientCreate (FecOti.toDatagram ⟨1, 2, 2, 3⟩) = .ok (clientOf 2 2 3) := by
    decide +kernel
  obtain ⟨client, outs, steps, inside⟩ := exists_steps_of_map
    (show (checkedRun receivePacket (fun client datagram _ => client.InWindow datagram)
      (clientOf 2 2 3) [constantSource 1 7]).map (fun r => decide (r.1.InWindow
        (repairDatagram 1 15 2 0 (List.replicate applicationSymbolSize 5)))) = some true by
      decide +kernel)
  exact ⟨_, client, outs, created, steps,
    ((client_of_run created steps).2 _ (of_decide_eq_true inside)).2⟩

-- A repair window that goes past the last source symbol, after its first symbol was received: the
-- callback for the other symbol writes past the end of the table.
example : (checkedRun receivePacket (fun _ _ _ => True) (clientOf 2 2 3)
      [constantSource 1 7]).map (fun r => decide (receivePacket r.1
        (repairDatagram 1 15 2 1 (List.replicate applicationSymbolSize 5)) =
          .error (.outOfBounds .srcSymbolsTab))) = some true := by
  decide +kernel

end SwifCodec
