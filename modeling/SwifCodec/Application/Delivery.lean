import SwifCodec.Application.Client

/-!
The two programs connected by a network.

The server sends source and repair packets; the network delivers packets by their number, in any
order, any number of times or never; the client handles what it gets.

* `application_of_run`: what the client has or is told of a source symbol is what the server sent,
  as long as the repair packets it got were built while the ring of the encoder was aligned.
* `application_faults_of_run`: how a packet of the server can make the client fail.
* `application_in_order_of_run`: with a window of at most 16 symbols, and packets lost but not
  reordered, no packet does.
-/

namespace SwifCodec

open Library FullSymbolSet Gf256

/-- The two programs with the packets sent so far. -/
structure Application where
  server : Server
  client : Client
  sent : List Datagram
  deriving DecidableEq, Repr

/-- What happens next; packets are delivered by their number. -/
inductive ApplicationCall where
  | server (call : ServerCall)
  | deliver (i : ℕ)
  deriving DecidableEq, Repr

/-- The server starts, and its first packet reaches the client. -/
def applicationCreate (ewSize dt totEnc : Nat) (fresh : List Gf256) :
    ApplicationExec Application := do
  let (server, oti) ← serverCreate ewSize dt totEnc fresh
  let client ← clientCreate oti
  return { server, client, sent := [] }

/-- One event. The outputs are the callbacks of the decoder. -/
def applicationStep (app : Application) :
    ApplicationCall → ApplicationExec (Application × List DecodedSourceSymbol)
  | .server call => do
      let (server, datagrams) ← serverStep app.server call
      return ({ app with server, sent := app.sent ++ datagrams }, [])
  | .deliver i =>
      match app.sent[i]? with
      | none => .ok (app, [])
      | some datagram => do
          let (client, out) ← receivePacket app.client datagram
          return ({ app with client }, out)

/-- A repair packet that is delivered was built while the ring of the encoder was aligned with
its source symbols. -/
def ApplicationCall.Aligned (w : ℕ) (app : Application) : ApplicationCall → Prop
  | .server _ => True
  | .deliver i => (app.sent[i]?.all fun d => isSourcePacket d.length) = true ∨
      sourcePackets (app.sent.take i) ≤ w ∨ w ∣ sourcePackets (app.sent.take i)

instance (w : ℕ) (app : Application) (call : ApplicationCall) : Decidable (call.Aligned w app) :=
  match call with
  | .server _ => .isTrue trivial
  | .deliver _ => inferInstanceAs (Decidable (_ ∨ _))

/-! ### What the client reads in the packets of the server -/

section Read

variable {w dt i count : ℕ} {datagram : Datagram}

/-- The client reads in a packet what the server put there. -/
theorem SentPacket.read (sent : SentPacket w dt i count datagram) (density : dt ≤ 15)
    (window : w ≤ serverTotSrc) (bounded : count ≤ serverTotSrc) :
    (readPacket datagram = .source count (sourceDatagram count) ∧ datagram.length = 68) ∨
    ∃ fpi symbol, readPacket datagram = .repair fpi symbol ∧ datagram.length = 72 ∧ 0 < count ∧
      fpi.repairKey.toNat = i % 65536 ∧ fpi.dt = dt ∧ fpi.nss = min count w ∧
      fpi.esi.toNat = count - min count w ∧
      (count ≤ w ∨ w ∣ count → ∃ cs, codingCoefficients (i % 65536) (min count w) dt = some cs ∧
        symbol = repairData cs serverSrc (count - min count w)) := by
  have total : serverTotSrc = 1000 := rfl
  cases sent with
  | source =>
      refine .inl ⟨?_, length_sourceDatagram count⟩
      rw [sourceDatagram, readPacket_source (by rw [Vector.length_toList]),
        Nat.mod_eq_of_lt (by omega)]
  | repair some_symbol length carries =>
      obtain ⟨dt_eq, nss_eq⟩ := @RepairFpi.fields i dt (min count w) (count - min count w) density
      refine .inr ⟨_, _, readPacket_repair length, length_repairDatagram length, some_symbol,
        BitVec.toNat_ofNat .., dt_eq, ?_, ?_, carries⟩
      · rw [nss_eq, Nat.mod_eq_of_lt (by omega)]
      · rw [BitVec.toNat_ofNat, Nat.mod_eq_of_lt (by omega)]

/-- The source packets up to a packet. -/
theorem sourcePackets_take_succ {sent : List Datagram} (at_i : sent[i]? = some datagram) :
    sourcePackets (sent.take (i + 1)) =
      sourcePackets (sent.take i) + if isSourcePacket datagram.length then 1 else 0 := by
  unfold sourcePackets
  rw [List.take_add_one, at_i, List.countP_append]
  exact congrArg _ List.countP_singleton

theorem sourcePackets_take_le (sent : List Datagram) {j k : ℕ} (le : j ≤ k) :
    sourcePackets (sent.take j) ≤ sourcePackets (sent.take k) :=
  (List.take_sublist_take_left le).countP_le

end Read

/-! ### The invariant -/

section Step

variable {w dt totEnc : ℕ} {app app' : Application} {call : ApplicationCall}
  {out : List DecodedSourceSymbol}

/-- What the two programs keep true between two events. -/
structure Application.Invariant (w dt totEnc : ℕ) (app : Application) : Prop where
  ran : app.server.Ran w dt totEnc app.sent
  client : app.client.Invariant
  totSrc : app.client.totSrc = serverTotSrc
  window : app.client.ses.maxCodingWindowSize = w
  repairs : app.client.repairSymbolsTab.length = totEnc - serverTotSrc
  window_le : w ≤ serverTotSrc

theorem Application.Invariant.density (inv : app.Invariant w dt totEnc) : dt ≤ 15 :=
  inv.ran.dt_eq ▸ inv.ran.invariant.density

/-- The source symbols before a packet of the server. -/
theorem Application.Invariant.count_le (inv : app.Invariant w dt totEnc) (i : ℕ) :
    sourcePackets (app.sent.take i) ≤ app.server.esi := by
  rw [inv.ran.esi_eq]
  exact (List.take_sublist i app.sent).countP_le

/-- The server has counted a source packet that it sent. -/
theorem Application.Invariant.count_lt (inv : app.Invariant w dt totEnc) {i : ℕ}
    {datagram : Datagram} (sent : app.sent[i]? = some datagram) (length : datagram.length = 68) :
    sourcePackets (app.sent.take i) < app.server.esi := by
  have next := sourcePackets_take_succ sent
  rw [length, if_pos (by decide)] at next
  rw [← Nat.succ_le_iff, Nat.succ_eq_add_one, ← next]
  exact inv.count_le (i + 1)

/-- What the client reads in a packet that was sent. -/
theorem Application.Invariant.read (inv : app.Invariant w dt totEnc) {i : ℕ} {datagram : Datagram}
    (sent : app.sent[i]? = some datagram) :
    (readPacket datagram = .source (sourcePackets (app.sent.take i))
        (sourceDatagram (sourcePackets (app.sent.take i))) ∧ datagram.length = 68) ∨
    ∃ fpi symbol, readPacket datagram = .repair fpi symbol ∧ datagram.length = 72 ∧
      0 < sourcePackets (app.sent.take i) ∧ fpi.repairKey.toNat = i % 65536 ∧ fpi.dt = dt ∧
      fpi.nss = min (sourcePackets (app.sent.take i)) w ∧
      fpi.esi.toNat = sourcePackets (app.sent.take i) - min (sourcePackets (app.sent.take i)) w ∧
      (sourcePackets (app.sent.take i) ≤ w ∨ w ∣ sourcePackets (app.sent.take i) →
        ∃ cs, codingCoefficients (i % 65536) (min (sourcePackets (app.sent.take i)) w) dt =
            some cs ∧
          symbol = repairData cs serverSrc
            (sourcePackets (app.sent.take i) - min (sourcePackets (app.sent.take i)) w)) :=
  (inv.ran.packets i datagram sent).read inv.density inv.window_le
    ((inv.count_le i).trans inv.ran.invariant.esi_le)

/-- The repair windows of the server end at the last source symbol it has sent. -/
theorem Application.Invariant.inWindow (inv : app.Invariant w dt totEnc) {i : ℕ}
    {datagram : Datagram} (sent : app.sent[i]? = some datagram) :
    app.client.InWindow datagram := by
  have count_le := (inv.count_le i).trans inv.ran.invariant.esi_le
  have totSrc := inv.totSrc
  unfold ClientState.InWindow
  rcases inv.read sent with ⟨read, -⟩ | ⟨fpi, symbol, read, -, -, -, -, nss, esi, -⟩
  · rw [read]
    trivial
  · rw [read]
    dsimp only
    omega

theorem applicationCreate_spec {fresh : List Gf256} (lt : w < 4294967296)
    (total : totEnc < 4294967296)
    (size : fresh.length = sizeofRepairFpi + applicationSymbolSize)
    (created : applicationCreate w dt totEnc fresh = .ok app) :
    app.Invariant w dt totEnc ∧ app.sent = [] ∧ app.client = clientOf w serverTotSrc totEnc ∧
      2 ≤ w ∧ serverTotSrc ≤ totEnc := by
  unfold applicationCreate at created
  cases server_eq : serverCreate w dt totEnc fresh with
  | error fault =>
      rw [server_eq] at created
      cases created
  | ok started =>
      obtain ⟨server, oti⟩ := started
      rw [server_eq, application_ok_bind] at created
      dsimp only at created
      rw [clientCreate_of_server lt total size server_eq] at created
      by_cases fits : w ≤ serverTotSrc ∧ totEnc ≤ 100000
      · rw [if_pos fits, application_ok_bind] at created
        cases created
        obtain ⟨-, -, -, -, -, two_le, enough, -⟩ := serverCreate_spec lt size server_eq
        have small : serverTotSrc ≤ 100000 := by
          unfold serverTotSrc
          omega
        have repairs : (clientOf w serverTotSrc totEnc).repairSymbolsTab.length =
            totEnc - serverTotSrc := by
          simp only [clientOf, List.length_replicate]
        have ran := serverCreate_ran lt size server_eq
        have client := @clientOf_invariant w serverTotSrc totEnc small
        exact ⟨⟨ran, client, rfl, rfl, repairs, fits.1⟩, rfl, rfl, two_le, enough⟩
      · rw [if_neg fits] at created
        cases created

/-- What an event does: the server sends packets, or the client handles one that was sent, or
nothing. -/
theorem applicationStep_cases (inv : app.Invariant w dt totEnc)
    (ok : applicationStep app call = .ok (app', out)) :
    (∃ next server datagrams, call = .server next ∧
      serverStep app.server next = .ok (server, datagrams) ∧ out = [] ∧
      app' = { app with server, sent := app.sent ++ datagrams }) ∨
    (∃ i datagram client, call = .deliver i ∧ app.sent[i]? = some datagram ∧
      Handled app.client datagram client out ∧ app' = { app with client }) ∨
    (app' = app ∧ out = []) := by
  unfold applicationStep at ok
  cases call with
  | server next =>
      dsimp only at ok
      cases step_eq : serverStep app.server next with
      | error fault =>
          rw [step_eq] at ok
          cases ok
      | ok result =>
          rw [step_eq, application_ok_bind] at ok
          cases ok
          exact .inl ⟨next, result.1, result.2, rfl, step_eq, rfl, rfl⟩
  | deliver i =>
      dsimp only at ok
      cases sent : app.sent[i]? with
      | none =>
          rw [sent] at ok
          cases ok
          exact .inr (.inr ⟨rfl, rfl⟩)
      | some datagram =>
          rw [sent] at ok
          dsimp only at ok
          cases receive_eq : receivePacket app.client datagram with
          | error fault =>
              rw [receive_eq] at ok
              cases ok
          | ok result =>
              have handled := handled_of_ok inv.client (inv.inWindow sent) receive_eq
              rw [receive_eq, application_ok_bind] at ok
              cases ok
              exact .inr (.inl ⟨i, datagram, result.1, rfl, sent, handled, rfl⟩)

/-- Every event keeps the invariant. -/
theorem applicationStep_invariant (inv : app.Invariant w dt totEnc)
    (ok : applicationStep app call = .ok (app', out)) : app'.Invariant w dt totEnc := by
  rcases applicationStep_cases inv ok with
    ⟨next, server, datagrams, rfl, step_eq, rfl, rfl⟩ |
      ⟨i, datagram, client, rfl, sent, handled, rfl⟩ | ⟨rfl, -⟩
  · exact { inv with ran := serverStep_ran inv.ran step_eq }
  · exact ⟨inv.ran, handled.invariant, handled.totSrc.trans inv.totSrc,
      handled.window.trans inv.window, handled.repairs.trans inv.repairs, inv.window_le⟩
  · exact inv

/-- The server only goes on. -/
theorem applicationStep_esi_le (inv : app.Invariant w dt totEnc)
    (ok : applicationStep app call = .ok (app', out)) : app.server.esi ≤ app'.server.esi := by
  rcases applicationStep_cases inv ok with
    ⟨next, server, datagrams, rfl, step_eq, rfl, rfl⟩ |
      ⟨i, datagram, client, rfl, sent, handled, rfl⟩ | ⟨rfl, -⟩
  · have ran := serverStep_ran inv.ran step_eq
    show app.server.esi ≤ server.esi
    rw [ran.esi_eq, inv.ran.esi_eq]
    exact (List.sublist_append_left _ _).countP_le
  · exact le_rfl
  · exact le_rfl

end Step

/-! ### What the client has is what was sent -/

section Right

variable {w dt totEnc : ℕ} {app app' : Application} {call : ApplicationCall}
  {out outs : List DecodedSourceSymbol}

/-- A slot of the client's tables after `count` source symbols and the callbacks `outs`: nothing,
the packet of the source symbol, or a buffer of the codec, reported for the symbol. -/
def RightEntry (count : ℕ) (outs : List DecodedSourceSymbol) (id : ℕ)
    (entry : Option (Option (SrcSymbolBuf Unit)) × Option SrcSymbolStatus) : Prop :=
  entry = (none, none) ∨ entry = (some none, some .missing) ∨
    (id < count ∧ (entry = (some (some (.pkt (sourceDatagram id))), some .received) ∨
      (entry = decodedEntry () ∧ ∃ d ∈ outs, d.esi = id)))

theorem RightEntry.mono {count count' id : ℕ} {outs outs' : List DecodedSourceSymbol}
    {entry : Option (Option (SrcSymbolBuf Unit)) × Option SrcSymbolStatus}
    (right : RightEntry count outs id entry) (le : count ≤ count') (more : outs ⊆ outs') :
    RightEntry count' outs' id entry := by
  rcases right with outside | missing | ⟨lt, received | ⟨decoded, d, mem, same⟩⟩
  · exact .inl outside
  · exact .inr (.inl missing)
  · exact .inr (.inr ⟨by omega, .inl received⟩)
  · exact .inr (.inr ⟨by omega, .inr ⟨decoded, d, more mem, same⟩⟩)

/-- The client has nothing but what the server sent and the decoder reported. -/
structure Application.Right (app : Application) (outs : List DecodedSourceSymbol) : Prop where
  faithful : app.client.ses.Faithful serverSrc {id | id ∈ List.range app.server.esi}
  entry : ∀ id, RightEntry app.server.esi outs id (app.client.entry id)

/-- Only the front of a source packet is decoded. -/
theorem decodeWithNewSourceSymbol_append {dec : Decoder} {esi : ℕ} (valid : esi < symbolIdNone)
    {buf rest : List Gf256} (length : buf.length = dec.symbolSize) :
    swifRlcDecoderDecodeWithNewSourceSymbol dec (buf ++ rest) esi =
      swifRlcDecoderDecodeWithNewSourceSymbol dec buf esi := by
  unfold swifRlcDecoderDecodeWithNewSourceSymbol
  rw [newSourceSymbol_eq valid (by rw [List.length_append]; omega),
    newSourceSymbol_eq valid length.ge, List.take_left' length, List.take_of_length_le length.le]

/-- What the codec makes of a packet of the server that was built while the ring was aligned. -/
theorem Application.Right.delivered (right : app.Right outs) (inv : app.Invariant w dt totEnc) {i : ℕ}
    {datagram : Datagram} {client : Client} (sent : app.sent[i]? = some datagram)
    (aligned : ApplicationCall.Aligned w app (.deliver i))
    (handled : Handled app.client datagram client out) :
    client.ses.Faithful serverSrc {id | id ∈ List.range app.server.esi} ∧
      Delivers serverSrc {id | id ∈ List.range app.server.esi} out := by
  have total : serverTotSrc = 1000 := rfl
  have none_eq : symbolIdNone = 4294967295 := rfl
  have invalid_eq : invalidEsi = 4294967295 := rfl
  have esi_le := inv.ran.invariant.esi_le
  have window_le := inv.window_le
  have count_le := inv.count_le i
  have wrap : app.client.ses.symbolSet.NoWrap := by
    refine inv.client.below.extent.noWrap ?_
    rw [inv.totSrc]
    omega
  rcases inv.read sent with ⟨read, length⟩ |
    ⟨fpi, symbol, read, length, pos, key, density, nss, esi, carries⟩
  · have counted := inv.count_lt sent length
    generalize sourcePackets (app.sent.take i) = count at read counted
    have valid : count < 4294967296 := by omega
    have decode_eq := handled.source _ _ read
    rw [sourceDatagram, decodeWithNewSourceSymbol_append (by omega)
      (by rw [Vector.length_toList, inv.client.symbolSize])] at decode_eq
    have step : decoderStep app.client.ses
        (.decodeWithNewSourceSymbol (serverSrc count).toList ⟨count, valid⟩) =
          .ok (client.ses, out) := decode_eq
    exact decoderStep_faithful right.faithful wrap step rfl (List.mem_range.mpr counted)
  · have in_place : sourcePackets (app.sent.take i) ≤ w ∨ w ∣ sourcePackets (app.sent.take i) := by
      rcases aligned with source | in_place
      · rw [sent] at source
        have is_source : isSourcePacket datagram.length = true := source
        rw [length] at is_source
        cases is_source
      · exact in_place
    obtain ⟨cs, drawn, symbol_eq⟩ := carries in_place
    generalize sourcePackets (app.sent.take i) = count at *
    have sound : RepairPacket.Sound serverSrc (List.range app.server.esi)
        ⟨count - min count w, min count w, i % 65536, dt, symbol⟩ := by
      refine ⟨inv.density, ?_, fun _ => ?_, fun k lt => ?_, cs, ?_, symbol_eq⟩
      · show min count w < 65536
        omega
      · show count - min count w + min count w ≤ invalidEsi
        omega
      · have held : k < min count w := lt
        show count - min count w + k ∈ List.range app.server.esi
        rw [List.mem_range]
        omega
      · rw [Nat.mod_mod]
        exact drawn
    have taken := handled.repair fpi symbol read
    unfold receiveRepairPacket at taken
    rw [key, density, nss, esi] at taken
    exact submitRepairPacket_faithful right.faithful wrap sound taken

theorem range_subset {count count' : ℕ} (le : count ≤ count') :
    {id | id ∈ List.range count} ⊆ {id | id ∈ List.range count'} :=
  fun _ mem => List.mem_range.mpr ((List.mem_range.mp mem).trans_le le)

/-- Every event whose packets were built in place keeps what the client has right. -/
theorem applicationStep_right (right : app.Right outs) (inv : app.Invariant w dt totEnc)
    (ok : applicationStep app call = .ok (app', out)) (aligned : call.Aligned w app) :
    app'.Right (outs ++ out) ∧
      Delivers serverSrc {id | id ∈ List.range app'.server.esi} out := by
  have grows := applicationStep_esi_le inv ok
  have old := List.subset_append_left outs out
  rcases applicationStep_cases inv ok with
    ⟨next, server, datagrams, rfl, step_eq, rfl, rfl⟩ |
      ⟨i, datagram, client, rfl, sent, handled, rfl⟩ | ⟨rfl, rfl⟩
  · exact ⟨⟨right.faithful.mono (range_subset grows), fun id => (right.entry id).mono grows old⟩,
      nofun⟩
  · obtain ⟨faithful, delivers⟩ := right.delivered inv sent aligned handled
    refine ⟨⟨faithful, fun id => ?_⟩, delivers⟩
    rcases handled.entry id with ⟨same, -⟩ | ⟨pkt, received, new⟩ | ⟨d, mem, same, new⟩
    · show RightEntry app.server.esi (outs ++ out) id (client.entry id)
      rw [same]
      exact (right.entry id).mono grows old
    · rcases inv.read sent with ⟨read, length⟩ | ⟨fpi, symbol, read, -⟩
      · have counted := inv.count_lt sent length
        rw [read] at received
        unfold Packet.received at received
        dsimp only at received
        split_ifs at received with same
        cases received
        rw [← same] at counted new
        exact .inr (.inr ⟨counted, .inl new⟩)
      · rw [read] at received
        cases received
    · obtain ⟨known, -⟩ := delivers d mem
      subst same
      exact .inr (.inr ⟨List.mem_range.mp known,
        .inr ⟨new, d, List.mem_append_right outs mem, rfl⟩⟩)
  · rw [List.append_nil]
    exact ⟨right, nofun⟩

/-- The client has nothing yet. -/
theorem right_of_clientOf (fresh : app.client = clientOf w serverTotSrc totEnc) :
    app.Right [] where
  faithful := by
    rw [fresh]
    exact @sessionCreate_faithful applicationSymbolSize w serverSrc _
  entry id := by
    rw [fresh]
    show RightEntry app.server.esi [] id ((List.replicate serverTotSrc none)[id]?,
      (List.replicate serverTotSrc SrcSymbolStatus.missing)[id]?)
    rw [List.getElem?_replicate, List.getElem?_replicate]
    split
    · exact .inr (.inl rfl)
    · exact .inl rfl

end Right

/-! ### Runs -/

section Run

variable {w dt totEnc : ℕ} {app₀ app : Application} {calls : List ApplicationCall}
  {outs : List DecodedSourceSymbol}

theorem applicationInvariant_of_run {meets : Application → ApplicationCall → Application → Prop}
    (init : app₀.Invariant w dt totEnc) (run : Steps applicationStep meets app₀ calls app outs) :
    app.Invariant w dt totEnc :=
  run.invariant (fun inv ok _ => applicationStep_invariant inv ok) init

/-- In every run in which each repair packet that is delivered was built while the ring of the
encoder was aligned, whatever is lost, reordered or duplicated: each report of the decoder gives
the data of a source symbol that was sent; and each slot of the client is empty, or points to the
packet that the server sent for it, or to the buffer of a report for it. -/
theorem application_of_run {fresh : List Gf256} (lt : w < 4294967296) (total : totEnc < 4294967296)
    (size : fresh.length = sizeofRepairFpi + applicationSymbolSize)
    (created : applicationCreate w dt totEnc fresh = .ok app₀)
    (run : Steps applicationStep (fun app call _ => call.Aligned w app) app₀ calls app outs) :
    (∀ esi < serverTotSrc, app.client.entry esi = (some none, some .missing) ∨
      (esi < app.server.esi ∧
        (app.client.entry esi = (some (some (.pkt (sourceDatagram esi))), some .received) ∨
          (app.client.entry esi = decodedEntry () ∧ ∃ d ∈ outs, d.esi = esi)))) ∧
    ∀ d ∈ outs, d.esi < app.server.esi ∧ d.newSymbolBuf = (serverSrc d.esi).toList := by
  obtain ⟨init, -, client_eq, -⟩ := applicationCreate_spec lt total size created
  have reached : app.Invariant w dt totEnc ∧ app.Right outs ∧
      Delivers serverSrc {id | id ∈ List.range app.server.esi} outs := by
    induction run with
    | nil => exact ⟨init, right_of_clientOf client_eq, nofun⟩
    | snoc _ ok aligned ih =>
        obtain ⟨inv, right, before⟩ := ih
        obtain ⟨right', now⟩ := applicationStep_right right inv ok aligned
        have inv' := applicationStep_invariant inv ok
        refine ⟨inv', right', fun d mem => ?_⟩
        rcases List.mem_append.mp mem with old | new
        · exact before.mono (range_subset (applicationStep_esi_le inv ok)) d old
        · exact now d new
  obtain ⟨inv, right, delivered⟩ := reached
  refine ⟨fun esi low => ?_, fun d mem => ?_⟩
  · rcases right.entry esi with outside | missing | there
    · have slot : (app.client.srcSymbolsTab[esi]?) = none := congrArg Prod.fst outside
      rw [List.getElem?_eq_none_iff, inv.client.tab, inv.totSrc] at slot
      omega
    · exact .inl missing
    · exact .inr there
  · obtain ⟨known, data⟩ := delivered d mem
    exact ⟨List.mem_range.mp known, data⟩

end Run

/-- The two programs at the start of a session. -/
def applicationOf (ewSize dt totEnc : Nat) (fresh : List Gf256) : Application where
  server := serverOf ewSize dt totEnc fresh
  client := clientOf ewSize serverTotSrc totEnc
  sent := []

theorem applicationCreate_two :
    applicationCreate 2 15 1001 (List.replicate 72 0) =
      .ok (applicationOf 2 15 1001 (List.replicate 72 0)) := by
  decide +kernel

/-- The second symbol is lost and decoded from the repair symbol. -/
theorem application_of_run_after_loss :
    ∃ app outs, Steps applicationStep (fun app call _ => call.Aligned 2 app)
        (applicationOf 2 15 1001 (List.replicate 72 0))
        [.server .sendSourceSymbol, .server .sendSourceSymbol, .server .sendRepairSymbol,
          .deliver 0, .deliver 2] app outs ∧
      outs.map DecodedSourceSymbol.esi = [1] ∧
      ∀ d ∈ outs, d.esi < app.server.esi ∧ d.newSymbolBuf = (serverSrc d.esi).toList := by
  obtain ⟨app, outs, steps, told⟩ := exists_steps_of_map
    (show (checkedRun applicationStep (fun app call _ => call.Aligned 2 app)
      (applicationOf 2 15 1001 (List.replicate 72 0))
      [.server .sendSourceSymbol, .server .sendSourceSymbol, .server .sendRepairSymbol,
        .deliver 0, .deliver 2]).map (fun r => r.2.map DecodedSourceSymbol.esi) =
      some [1] by decide +kernel)
  exact ⟨app, outs, steps, told,
    (application_of_run (by decide) (by decide) (by decide) applicationCreate_two steps).2⟩

/-! ### Failures -/

section Fault

variable {w dt totEnc i : ℕ} {app₀ app : Application} {calls : List ApplicationCall}
  {outs : List DecodedSourceSymbol} {datagram : Datagram}

theorem RepairFpi.le_lead (fpi : RepairFpi) : fpi.esi.toNat ≤ fpi.lead := by
  have lt := fpi.esi.isLt
  have valid : fpi.esi.toNat ≤ symbolIdNone := by
    unfold symbolIdNone
    omega
  unfold RepairFpi.lead
  cases codingCoefficients fpi.repairKey.toNat fpi.nss fpi.dt with
  | none => exact valid
  | some cs => exact le_leadingId valid cs

/-- A packet that starts more than 16 symbols before the pivot table of the client: a source packet
with its symbol, a repair packet with the first symbol that has a coefficient in it. -/
def Application.TooOld (app : Application) (i : ℕ) : Prop :=
  app.client.ses.symbolSet.firstSymbolId < serverTotSrc ∧
    ((∃ esi pkt, app.sent[i]?.map readPacket = some (.source esi pkt) ∧
        esi + 16 < app.client.ses.symbolSet.firstSymbolId) ∨
      ∃ fpi symbol, app.sent[i]?.map readPacket = some (.repair fpi symbol) ∧
        fpi.lead + 16 < app.client.ses.symbolSet.firstSymbolId)

/-- How a packet of the server can make the client fail. -/
theorem deliver_fault (inv : app.Invariant w dt totEnc) (pos : 0 < w) {fault : ApplicationFault}
    (fails : applicationStep app (.deliver i) = .error fault) :
    (fault = .codec (.outOfBounds .coefTab) ∧ applicationSymbolSize < w) ∨
    (fault = .codec (.outOfBounds .pivotTab) ∧ app.TooOld i) := by
  have totSrc := inv.totSrc
  have esi_le := inv.ran.invariant.esi_le
  have count_le := inv.count_le i
  unfold applicationStep at fails
  dsimp only at fails
  cases sent : app.sent[i]? with
  | none =>
      rw [sent] at fails
      cases fails
  | some datagram =>
      rw [sent] at fails
      dsimp only at fails
      have failed : receivePacket app.client datagram = .error fault := by
        cases receive_eq : receivePacket app.client datagram with
        | ok result =>
            rw [receive_eq] at fails
            cases fails
        | error fault' =>
            rw [receive_eq] at fails
            cases fails
            rfl
      rw [receivePacket_error_iff inv.client (inv.inWindow sent)] at failed
      unfold ClientState.packetFault at failed
      rcases inv.read sent with ⟨read, length⟩ |
        ⟨fpi, symbol, read, length, some_symbol, -, -, nss, esi, -⟩
      · have counted := inv.count_lt sent length
        rw [read] at failed
        dsimp only at failed
        unfold ClientState.sourceFault at failed
        rw [if_neg (by omega)] at failed
        split_ifs at failed with fits
        cases failed
        obtain ⟨far, low⟩ := inv.client.below.extent.far_below fits
        have source := congrArg (Option.map readPacket) sent
        rw [Option.map_some, read] at source
        exact .inr ⟨rfl, by omega, .inl ⟨_, _, source, far⟩⟩
      · rw [read] at failed
        dsimp only at failed
        unfold ClientState.repairFault at failed
        rw [if_neg (by omega)] at failed
        have window := inv.window
        split_ifs at failed with slot large bad long fits
        · -- A session without slots for repair packets has no repair packets.
          have none : app.client.repairSymbolsTab.length = 0 := by rw [slot]; rfl
          have some_repair : serverTotSrc < totEnc :=
            inv.ran.repairs datagram (List.mem_of_getElem? sent) (by rw [length]; rfl)
          rw [inv.repairs] at none
          omega
        · omega
        · omega
        · cases failed
          exact .inl ⟨rfl, by omega⟩
        · cases failed
          obtain ⟨far, low⟩ := inv.client.below.extent.far_below fits
          have repair := congrArg (Option.map readPacket) sent
          rw [Option.map_some, read] at repair
          exact .inr ⟨rfl, by omega, .inr ⟨fpi, symbol, repair, far⟩⟩

/-- In every run, a packet of the server makes the client fail in two ways only: its coefficient
table is overrun when the window is larger than a symbol; its pivot table is overrun when the
packet is more than 16 symbols older than all that it has. -/
theorem application_faults_of_run {fresh : List Gf256} (lt : w < 4294967296)
    (total : totEnc < 4294967296) (size : fresh.length = sizeofRepairFpi + applicationSymbolSize)
    (created : applicationCreate w dt totEnc fresh = .ok app₀)
    (run : Steps applicationStep (fun _ _ _ => True) app₀ calls app outs) (i : ℕ)
    (fault : ApplicationFault) (fails : applicationStep app (.deliver i) = .error fault) :
    (fault = .codec (.outOfBounds .coefTab) ∧ applicationSymbolSize < w) ∨
    (fault = .codec (.outOfBounds .pivotTab) ∧ app.TooOld i) := by
  obtain ⟨init, -, -, two_le, -⟩ := applicationCreate_spec lt total size created
  exact deliver_fault (applicationInvariant_of_run init run) (by omega) fails

/-- The first packet after the last of twenty. -/
theorem application_faults_of_run_reordered :
    ∃ app outs, Steps applicationStep (fun _ _ _ => True)
        (applicationOf 2 15 1001 (List.replicate 72 0))
        (List.replicate 20 (.server .sendSourceSymbol) ++ [.deliver 19]) app outs ∧
      applicationStep app (.deliver 0) = .error (.codec (.outOfBounds .pivotTab)) ∧
      app.TooOld 0 := by
  obtain ⟨app, outs, steps, fails⟩ := exists_steps_of_map
    (show (checkedRun applicationStep (fun _ _ _ => True)
      (applicationOf 2 15 1001 (List.replicate 72 0))
      (List.replicate 20 (.server .sendSourceSymbol) ++ [.deliver 19])).map
        (fun r => decide (applicationStep r.1 (.deliver 0) =
          .error (.codec (.outOfBounds .pivotTab)))) = some true by decide +kernel)
  have failed := of_decide_eq_true fails
  refine ⟨app, outs, steps, failed, ?_⟩
  rcases application_faults_of_run (by decide) (by decide) (by decide) applicationCreate_two steps 0
    _ failed with ⟨other, -⟩ | ⟨-, old⟩
  · cases other
  · exact old

/-! ### Delivery in order -/

/-- The numbers of the packets that were delivered. -/
def delivered (calls : List ApplicationCall) : List ℕ :=
  calls.filterMap fun
    | .deliver i => some i
    | .server _ => none

/-- A packet leaves the decoder below the source symbols that were sent up to it. -/
theorem Application.Invariant.delivered_below (inv : app.Invariant w dt totEnc) {client : Client}
    {out : List DecodedSourceSymbol} (sent : app.sent[i]? = some datagram)
    (handled : Handled app.client datagram client out)
    (below : app.client.ses.Below (sourcePackets (app.sent.take i))) :
    client.ses.Below (sourcePackets (app.sent.take (i + 1))) := by
  have total : serverTotSrc = 1000 := rfl
  have count_le := inv.count_le i
  have esi_le := inv.ran.invariant.esi_le
  have window_le := inv.window_le
  have next := sourcePackets_take_succ sent
  rcases inv.read sent with ⟨read, length⟩ | ⟨fpi, symbol, read, length, -, -, -, nss, esi, -⟩
  · rw [length, if_pos (by decide)] at next
    rw [next]
    have more := below.mono (Nat.le_add_right _ 1)
    have decode_eq := handled.source _ _ read
    have fits : app.client.ses.symbolSize ≤
        (sourceDatagram (sourcePackets (app.sent.take i))).length := by
      rw [inv.client.symbolSize, length_sourceDatagram]
      decide
    rcases decodeWithNewSourceSymbol_progress (show _ ≤ 2147483639 by omega) more
      (Nat.lt_succ_self _) fits with ⟨-, ses, out', eq, below', -⟩ | ⟨-, eq⟩
    · rw [eq] at decode_eq
      cases decode_eq
      exact below'
    · rw [eq] at decode_eq
      cases decode_eq
  · rw [length, if_neg (by decide), Nat.add_zero] at next
    rw [next]
    have taken := handled.repair fpi symbol read
    unfold receiveRepairPacket at taken
    have symbol_length := length_of_readPacket_repair read
    rcases @submitRepairPacket_progress (sourcePackets (app.sent.take i)) fpi.esi.toNat fpi.nss
      fpi.repairKey.toNat fpi.dt app.client.ses symbol (by omega) below fpi.dt_le (by omega)
      (by omega) (by rw [inv.client.symbolSize, symbol_length]) inv.client.cells with
      ⟨-, eq⟩ | ⟨-, dec', eq⟩ | ⟨-, -, eq⟩ | ⟨-, -, -, cs, tab, -, -, progress, eq⟩
    · rw [eq] at taken
      cases taken
    · rw [eq] at taken
      cases taken
    · rw [eq] at taken
      cases taken
    · rcases progress with ⟨-, ses, out', decode_eq, below', -⟩ | ⟨-, decode_eq⟩
      · rw [eq, decode_eq] at taken
        cases taken
        exact below'
      · rw [eq, decode_eq] at taken
        cases taken

/-- The pivot table of the client starts after the source symbols up to a packet that is too old. -/
theorem Application.TooOld.lt (inv : app.Invariant w dt totEnc) (small : w ≤ 16)
    (old : app.TooOld i) :
    sourcePackets (app.sent.take i) < app.client.ses.symbolSet.firstSymbolId := by
  obtain ⟨-, ⟨esi', pkt', read', far⟩ | ⟨fpi', symbol', read', far⟩⟩ := old
  all_goals
    obtain ⟨datagram, sent, read'⟩ := Option.map_eq_some_iff.mp read'
    rcases inv.read sent with ⟨read, -⟩ | ⟨fpi, symbol, read, -, -, -, -, nss, esi, -⟩
    all_goals rw [read] at read'
  · cases read'
    omega
  · cases read'
  · cases read'
  · cases read'
    have lead := fpi'.le_lead
    omega

/-- After packets in increasing order, the decoder is below the source symbols sent up to any
later packet. -/
theorem below_of_run_in_order (init : app₀.Invariant w dt totEnc)
    (fresh : app₀.client = clientOf w serverTotSrc totEnc)
    (run : Steps applicationStep (fun _ _ _ => True) app₀ calls app outs)
    (order : (delivered calls).Pairwise (· < ·)) (k : ℕ) (later : ∀ j ∈ delivered calls, j < k) :
    app.client.ses.Below (sourcePackets (app.sent.take k)) := by
  induction run generalizing k with
  | nil =>
      rw [fresh]
      exact activeDecoder_below applicationSymbolSize w _
  | @snoc mid last calls call outs out before ok cond ih =>
      have inv := applicationInvariant_of_run init before
      unfold delivered at order later
      rw [List.filterMap_append, List.pairwise_append] at order
      rw [List.filterMap_append] at later
      obtain ⟨order, -, below_last⟩ := order
      have ih := ih order
      have earlier : ∀ j ∈ delivered calls, j < k :=
        fun j mem => later j (List.mem_append_left _ mem)
      rcases applicationStep_cases inv ok with
        ⟨next, server, datagrams, rfl, step_eq, -, rfl⟩ |
          ⟨i, datagram, client, rfl, sent, handled, rfl⟩ | ⟨rfl, -⟩
      · refine (ih k earlier).mono ?_
        show sourcePackets (mid.sent.take k) ≤ sourcePackets ((mid.sent ++ datagrams).take k)
        rw [List.take_append]
        exact (List.sublist_append_left _ _).countP_le
      · have at_i : i ∈ List.filterMap (fun call => match call with
            | .deliver i => some i
            | .server _ => none) [ApplicationCall.deliver i] := List.mem_cons_self
        have i_lt : i < k := later i (List.mem_append_right _ at_i)
        have now := ih i fun j mem => below_last j mem i at_i
        exact (inv.delivered_below sent handled now).mono (sourcePackets_take_le _ i_lt)
      · exact ih k earlier

/-- With a window of at most 16 symbols: in every run in which packets are lost but arrive in order,
each once, no further packet makes the client fail. -/
theorem application_in_order_of_run {fresh : List Gf256} (small : w ≤ 16) (total : totEnc < 4294967296)
    (size : fresh.length = sizeofRepairFpi + applicationSymbolSize)
    (created : applicationCreate w dt totEnc fresh = .ok app₀)
    (run : Steps applicationStep (fun _ _ _ => True) app₀ calls app outs)
    (order : (delivered calls).Pairwise (· < ·)) (i : ℕ) (later : ∀ j ∈ delivered calls, j < i) :
    ∃ result, applicationStep app (.deliver i) = .ok result := by
  obtain ⟨init, -, client_eq, two_le, -⟩ :=
    applicationCreate_spec (show w < 4294967296 by omega) total size created
  have inv := applicationInvariant_of_run init run
  have below := below_of_run_in_order init client_eq run order i later
  have symbols : applicationSymbolSize = 64 := rfl
  cases step_eq : applicationStep app (.deliver i) with
  | ok result => exact ⟨result, rfl⟩
  | error fault =>
      exfalso
      rcases deliver_fault inv (by omega) step_eq with ⟨-, large⟩ | ⟨-, low, old⟩
      · omega
      · -- The table starts at a symbol sent before the packet, whose window starts at most `w`
        -- before.
        have none_eq : symbolIdNone = 4294967295 := rfl
        have total_src : serverTotSrc = 1000 := rfl
        have far : sourcePackets (app.sent.take i) < app.client.ses.symbolSet.firstSymbolId :=
          Application.TooOld.lt inv small ⟨low, old⟩
        rcases below.extent with ⟨unset, -⟩ | ⟨start, -⟩
        · omega
        · omega

end Fault

theorem application_in_order_after_loss :
    ∃ app outs, Steps applicationStep (fun _ _ _ => True)
        (applicationOf 2 15 1001 (List.replicate 72 0))
        [.server .sendSourceSymbol, .server .sendSourceSymbol, .server .sendRepairSymbol,
          .deliver 0] app outs ∧
      ∃ result, applicationStep app (.deliver 2) = .ok result := by
  obtain ⟨app, outs, steps⟩ := exists_steps_of_checkedRun
    (show (checkedRun applicationStep (fun _ _ _ => True)
      (applicationOf 2 15 1001 (List.replicate 72 0))
      [.server .sendSourceSymbol, .server .sendSourceSymbol, .server .sendRepairSymbol,
        .deliver 0]).isSome by decide +kernel)
  exact ⟨app, outs, steps, application_in_order_of_run (by decide) (by decide) (by decide)
    applicationCreate_two steps (by decide) 2 (by decide)⟩

end SwifCodec
