import SwifCodec.Application.Wire
import SwifCodec.Rlc.Session

/-!
The sender `simple_server.c`.

The server takes 1000 source symbols of 64 bytes through the encoder, one after another, and
sends each of them; between two of them it sends repair symbols, as often as its code rate
asks for. The counter that decides when is a floating-point number, which stays 0 when the session
has no more encoding symbols than source symbols; otherwise the repair symbols come here at
arbitrary moments. The sockets, the sleeps and the loss of packets are the network's.

`server_of_run` says what the datagrams of every run are, by their number, and that the server
stops early in one case only, when the table of encoding symbols is full before the last source
symbol.
-/

namespace SwifCodec

open Library

/-- The tables and buffers of the two programs. -/
inductive ApplicationTable where
  | pktWithFpi
  | encSymbolsTab
  | srcSymbolsTab
  | repairSymbolsTab
  | fecOti
  deriving DecidableEq, Repr

/-- Why a program does not go on: the codec stops it, it writes outside a table, or it ends
itself with an error. -/
inductive ApplicationFault where
  | codec (fault : Fault)
  | outOfBounds (table : ApplicationTable)
  | failure
  deriving DecidableEq, Repr

/-- The result of running a part of the programs. -/
abbrev ApplicationExec := Except ApplicationFault

/-- A call of the codec. -/
def runCodec {α : Type} (x : Exec α) : ApplicationExec α := x.mapError .codec

/-- An access to a table, undefined outside it. -/
def tableAccess {α : Type} (table : ApplicationTable) : Option α → ApplicationExec α
  | some a => .ok a
  | none => .error (.outOfBounds table)

/-- `SWIF_CODEPOINT_RLC_GF_256_FULL_DENSITY_CODEC`. -/
def swifCodepointRlcGf256FullDensityCodec : Nat := 1

/-- The value of `tot_src` in the server. -/
def serverTotSrc : Nat := 1000

/-- The server between two rounds of its loops. -/
structure Server where
  ses : Encoder
  dt : Nat
  totEnc : Nat
  esi : Nat
  idx : Nat
  pktWithFpi : List Gf256
  deriving DecidableEq, Repr

/-- The server at the start of a session. The buffer for the packets has the contents `fresh`. -/
def serverOf (ewSize dt totEnc : Nat) (fresh : List Gf256) : Server where
  ses := swifRlcEncoderSetCallbackFunctions (swifRlcEncoderCreate applicationSymbolSize ewSize) true
  dt := dt
  totEnc := totEnc
  esi := 0
  idx := 0
  pktWithFpi := fresh

/-- The part of `main` before the loop: the checks of the arguments, and the datagram with the
parameters of the session. -/
def serverCreate (ewSize dt totEnc : Nat) (fresh : List Gf256) :
    ApplicationExec (Server × Datagram) := do
  if ewSize < 2 then throw .failure
  if 15 < dt then throw .failure
  if totEnc < serverTotSrc then throw .failure
  let oti : FecOti :=
    { codepoint := swifCodepointRlcGf256FullDensityCodec, ewSize, totSrc := serverTotSrc, totEnc }
  return (serverOf ewSize dt totEnc fresh, oti.toDatagram)

/-- The body of the loop over the source symbols up to the repair symbols. -/
def sendSourceSymbol (server : Server) : ApplicationExec (Server × List Datagram) := do
  if server.totEnc ≤ server.idx then throw (.outOfBounds .encSymbolsTab)
  let symbol := List.replicate applicationSymbolSize (Gf256.ofNat (server.esi + 1))
  let (ses, status, _) ← runCodec
    (swifRlcEncoderAddSourceSymbolToCodingWindow server.ses symbol server.esi)
  if status ≠ .ok then throw .failure
  let (pktWithFpi, datagram) ← tableAccess .pktWithFpi
    (sourcePacket server.pktWithFpi server.esi symbol)
  return ({ server with ses, esi := server.esi + 1, idx := server.idx + 1, pktWithFpi },
    [datagram])

/-- The body of the loop over the repair symbols. -/
def sendRepairSymbol (server : Server) : ApplicationExec (Server × List Datagram) := do
  let (ses, status) ← runCodec (swifRlcEncoderGenerateCodingCoefs server.ses server.idx server.dt)
  if status ≠ .ok then throw .failure
  let symbol ← runCodec (swifRlcBuildRepairSymbol ses)
  let (first, last, nss) := swifRlcEncoderGetCodingWindowInformation ses
  if nss ≠ add32 (sub32 last first) 1 then throw .failure
  let (pktWithFpi, datagram) ← tableAccess .pktWithFpi
    (repairPacket server.pktWithFpi server.idx server.dt nss first symbol)
  return ({ server with ses, idx := server.idx + 1, pktWithFpi }, [datagram])

/-- What the server does next. -/
inductive ServerCall where
  | sendSourceSymbol
  | sendRepairSymbol
  deriving DecidableEq, Repr

/-- The server goes on to the next source symbol, if there is one, or sends a repair symbol,
if the session has any, after the first source symbol and while there is room in its table. -/
def serverStep (server : Server) : ServerCall → ApplicationExec (Server × List Datagram)
  | .sendSourceSymbol =>
      if server.esi < serverTotSrc then sendSourceSymbol server else .ok (server, [])
  | .sendRepairSymbol =>
      -- With `tot_enc = tot_src` the interval between repairs is infinite, and nothing is added
      -- to the counter.
      if serverTotSrc < server.totEnc ∧ 0 < server.esi ∧ server.idx < server.totEnc then
        sendRepairSymbol server
      else .ok (server, [])

/-- The source symbols of the server. -/
def serverSrc (esi : ℕ) : Vector Gf256 applicationSymbolSize :=
  Vector.replicate applicationSymbolSize (Gf256.ofNat (esi + 1))

/-- The datagram of a source symbol. -/
def sourceDatagram (esi : ℕ) : Datagram := (serverSrc esi).toList ++ htonl esi

/-- A datagram the server can send with number `i` after `count` source symbols: the next source
symbol; or a repair symbol with its number as key and the last source symbols as window. The
repair symbol combines these symbols if the ring of the encoder is aligned with them. -/
inductive SentPacket (w dt i count : ℕ) : Datagram → Prop
  | source : SentPacket w dt i count (sourceDatagram count)
  | repair {symbol : List Gf256} : 0 < count → symbol.length = applicationSymbolSize →
      (count ≤ w ∨ w ∣ count → ∃ cs, codingCoefficients (i % 65536) (min count w) dt = some cs ∧
        symbol = repairData cs serverSrc (count - min count w)) →
      SentPacket w dt i count (repairDatagram i dt (min count w) (count - min count w) symbol)

/-! ### The steps of the server -/

section Step

variable {server server' : Server} {w : ℕ}

theorem runCodec_ok {α : Type} {x : Exec α} {a : α} (ok : x = .ok a) : runCodec x = .ok a := by
  rw [ok]
  rfl

@[simp] theorem application_ok_bind {α β : Type} (a : α) (f : α → ApplicationExec β) :
    ((.ok a : ApplicationExec α) >>= f) = f a := rfl

theorem toList_serverSrc (esi : ℕ) :
    (serverSrc esi).toList = List.replicate applicationSymbolSize (Gf256.ofNat (esi + 1)) :=
  Vector.toList_replicate

/-- What the server keeps true between two rounds. -/
structure Server.Invariant (w : ℕ) (server : Server) : Prop where
  window : Window serverSrc server.ses 0 server.esi
  size : server.ses.maxCodingWindowSize = w
  density : server.dt ≤ 15
  esi_le : server.esi ≤ serverTotSrc
  pkt : server.pktWithFpi.length = sizeofRepairFpi + applicationSymbolSize

/-- A server that starts keeps the invariant. -/
theorem serverCreate_spec {dt totEnc : ℕ} {fresh : List Gf256} {oti : Datagram}
    (lt : w < 4294967296) (size : fresh.length = sizeofRepairFpi + applicationSymbolSize)
    (ok : serverCreate w dt totEnc fresh = .ok (server, oti)) :
    server.Invariant w ∧ server.esi = 0 ∧ server.idx = 0 ∧ server.dt = dt ∧
      server.totEnc = totEnc ∧ 2 ≤ w ∧ serverTotSrc ≤ totEnc ∧
      oti = FecOti.toDatagram ⟨swifCodepointRlcGf256FullDensityCodec, w, serverTotSrc, totEnc⟩ := by
  unfold serverCreate at ok
  by_cases small : w < 2
  · rw [if_pos small] at ok
    cases ok
  by_cases density : 15 < dt
  · rw [if_neg small, if_pos density] at ok
    cases ok
  by_cases few : totEnc < serverTotSrc
  · rw [if_neg small, if_neg density, if_pos few] at ok
    cases ok
  rw [if_neg small, if_neg density, if_neg few] at ok
  cases ok
  have window : Window serverSrc (swifRlcEncoderCreate applicationSymbolSize w) 0 0 :=
    swifRlcEncoderCreate_window (by omega) lt
  exact ⟨⟨window.setCallback true, rfl, Nat.not_lt.mp density, Nat.zero_le _, size⟩, rfl, rfl, rfl,
    rfl, by omega, by omega, rfl⟩

/-- The encoder of the server takes the next identifier. -/
theorem Server.Invariant.accepts (inv : server.Invariant w) : server.ses.Accepts server.esi := by
  have right := inv.window.ewEsiRight
  have total : serverTotSrc = 1000 := rfl
  have le := inv.esi_le
  by_cases none : server.esi = 0
  · exact .inl (by rw [right, if_pos none])
  · refine .inr ?_
    rw [right, if_neg none, add32_of_lt (by omega)]
    omega

/-- Sending a source symbol, while there is room in the table. -/
theorem sendSourceSymbol_spec (inv : server.Invariant w) (due : server.esi < serverTotSrc)
    (room : server.idx < server.totEnc) :
    ∃ server', sendSourceSymbol server = .ok (server', [sourceDatagram server.esi]) ∧
      server'.Invariant w ∧ server'.esi = server.esi + 1 ∧ server'.idx = server.idx + 1 ∧
      server'.totEnc = server.totEnc ∧ server'.dt = server.dt := by
  have total : serverTotSrc = 1000 := rfl
  have invalid : invalidEsi = 4294967295 := rfl
  obtain ⟨ses, removed, add_eq, window, size, -⟩ :=
    swifRlcEncoderAddSourceSymbol_window inv.window inv.accepts (by omega)
  rw [toList_serverSrc] at add_eq
  obtain ⟨pkt, source_eq, pkt_length⟩ := @sourcePacket_spec server.pktWithFpi
    (List.replicate applicationSymbolSize (Gf256.ofNat (server.esi + 1))) server.esi inv.pkt
    List.length_replicate
  have start : nextStart 0 server.esi server.esi = 0 := by
    unfold nextStart
    split
    · assumption
    · rfl
  rw [start] at window
  refine ⟨{ server with ses, esi := server.esi + 1, idx := server.idx + 1, pktWithFpi := pkt },
    ?_, ⟨window, size.trans inv.size, inv.density, due, pkt_length.trans inv.pkt⟩, rfl, rfl, rfl,
    rfl⟩
  unfold sendSourceSymbol
  rw [if_neg (by omega)]
  dsimp only
  rw [runCodec_ok add_eq, source_eq, sourceDatagram, toList_serverSrc]
  rfl

/-- The window of the encoder after at least one source symbol. -/
theorem Server.Invariant.information (inv : server.Invariant w) (some_symbol : 0 < server.esi) :
    swifRlcEncoderGetCodingWindowInformation server.ses =
      (server.esi - min server.esi w, server.esi - 1, min server.esi w) := by
  have first := inv.window.information_first some_symbol
  have nb := inv.window.ewSsNb
  have right := inv.window.ewEsiRight
  rw [if_neg (by omega), Nat.zero_add] at right
  rw [inv.size] at nb
  rw [Nat.zero_add, nb] at first
  exact Prod.ext first (Prod.ext right nb)

/-- The repair symbol that the encoder of the server builds from the coefficients of a key. -/
theorem Server.Invariant.builds (inv : server.Invariant w) (key : ℕ) :
    ∃ ses cs, swifRlcEncoderGenerateCodingCoefs server.ses key server.dt = .ok (ses, .ok) ∧
      codingCoefficients (key % 65536) (min server.esi w) server.dt = some cs ∧
      swifRlcBuildRepairSymbol ses = .ok (repairData (cs.drop server.ses.ewLeft) serverSrc
        (server.esi - min server.esi w)) ∧
      Server.Invariant w { server with ses } := by
  have total : serverTotSrc = 1000 := rfl
  have esi_le := inv.esi_le
  have nb := inv.window.ewSsNb
  have ccTab := inv.window.ccTab
  rw [inv.size] at nb ccTab
  have cast : server.ses.ewSsNb % 65536 = server.ses.ewSsNb := Nat.mod_eq_of_lt (by omega)
  obtain ⟨cs, drawn, generate_eq⟩ := @generateCodingCoefs_spec .ccTab server.ses.ccTab
    server.ses.ewSsNb server.ses.maxCodingWindowSize key server.dt
    (by rw [inv.size]; omega) inv.density (by omega)
  rw [cast] at drawn generate_eq
  have drawn_length := length_codingCoefficients drawn
  have length : (cs ++ server.ses.ccTab.drop server.ses.ewSsNb).length =
      server.ses.maxCodingWindowSize := by
    rw [List.length_append, List.length_drop, ccTab, inv.size]
    omega
  have window := inv.window.setCcTab length
  have built := swifRlcBuildRepairSymbol_spec window
  have taken : (cs ++ server.ses.ccTab.drop server.ses.ewSsNb).take server.ses.ewSsNb = cs :=
    List.take_left' drawn_length
  rw [taken, Nat.zero_add] at built
  refine ⟨{ server.ses with ccTab := cs ++ server.ses.ccTab.drop server.ses.ewSsNb }, cs, ?_, ?_,
    ?_, ⟨window, inv.size, inv.density, inv.esi_le, inv.pkt⟩⟩
  · unfold swifRlcEncoderGenerateCodingCoefs
    rw [generate_eq]
    rfl
  · rw [← nb]
    exact drawn
  · rw [← nb]
    exact built

/-- Sending a repair symbol, after at least one source symbol. -/
theorem sendRepairSymbol_spec (inv : server.Invariant w) (some_symbol : 0 < server.esi) :
    ∃ server' datagram, sendRepairSymbol server = .ok (server', [datagram]) ∧
      server'.Invariant w ∧ SentPacket w server.dt server.idx server.esi datagram ∧
      datagram.length = sizeofRepairFpi + applicationSymbolSize ∧ server'.esi = server.esi ∧
      server'.idx = server.idx + 1 ∧ server'.totEnc = server.totEnc ∧ server'.dt = server.dt := by
  obtain ⟨ses, cs, generated, drawn, built, inv'⟩ := inv.builds server.idx
  have info : swifRlcEncoderGetCodingWindowInformation ses =
      (server.esi - min server.esi w, server.esi - 1, min server.esi w) :=
    inv'.information some_symbol
  have size_pos := inv.window.size_pos
  have total : serverTotSrc = 1000 := rfl
  have esi_le := inv.esi_le
  rw [inv.size] at size_pos
  have consistent : min server.esi w =
      add32 (sub32 (server.esi - 1) (server.esi - min server.esi w)) 1 := by
    unfold add32 sub32
    omega
  have carries : server.esi ≤ w ∨ w ∣ server.esi →
      repairData (cs.drop server.ses.ewLeft) serverSrc (server.esi - min server.esi w) =
        repairData cs serverSrc (server.esi - min server.esi w) := by
    intro aligned
    rw [← inv.size, ← inv.window.ewLeft_eq_zero_iff] at aligned
    rw [aligned, List.drop_zero]
  have symbol_length : (repairData (cs.drop server.ses.ewLeft) serverSrc
      (server.esi - min server.esi w)).length = applicationSymbolSize := length_repairData _ _
  generalize repairData (cs.drop server.ses.ewLeft) serverSrc (server.esi - min server.esi w) =
    symbol at built carries symbol_length
  have packet := @repairPacket_spec server.pktWithFpi symbol server.idx server.dt
    (min server.esi w) (server.esi - min server.esi w) inv.pkt symbol_length
  have sent : SentPacket w server.dt server.idx server.esi
      (repairDatagram server.idx server.dt (min server.esi w) (server.esi - min server.esi w)
        symbol) :=
    .repair some_symbol symbol_length fun aligned => ⟨cs, drawn, carries aligned⟩
  have length := @length_repairDatagram symbol server.idx server.dt (min server.esi w)
    (server.esi - min server.esi w) symbol_length
  generalize repairDatagram server.idx server.dt (min server.esi w)
    (server.esi - min server.esi w) symbol = datagram at packet sent length
  refine ⟨{ server with ses, idx := server.idx + 1, pktWithFpi := datagram }, datagram, ?_,
    ⟨inv'.window, inv'.size, inv.density, esi_le, length⟩, sent, length, rfl, rfl, rfl, rfl⟩
  unfold sendRepairSymbol
  rw [runCodec_ok generated, application_ok_bind]
  dsimp only
  rw [if_neg (by decide)]
  rw [runCodec_ok built, application_ok_bind, info]
  dsimp only
  rw [if_neg (fun differ => differ consistent), packet]
  rfl

end Step

/-! ### Runs of the server -/

section Run

variable {server server' : Server} {w dt totEnc : ℕ} {call : ServerCall} {calls : List ServerCall}
  {sent out : List Datagram}

/-- The number of source packets. -/
def sourcePackets (sent : List Datagram) : ℕ := sent.countP fun d => isSourcePacket d.length

/-- The server after it has sent the given datagrams. -/
structure Server.Ran (w dt totEnc : ℕ) (server : Server) (sent : List Datagram) : Prop where
  invariant : server.Invariant w
  dt_eq : server.dt = dt
  totEnc_eq : server.totEnc = totEnc
  idx_eq : server.idx = sent.length
  idx_le : server.idx ≤ totEnc
  esi_eq : server.esi = sourcePackets sent
  packets : ∀ i d, sent[i]? = some d → SentPacket w dt i (sourcePackets (sent.take i)) d
  repairs : ∀ d ∈ sent, isSourcePacket d.length = false → serverTotSrc < totEnc

theorem length_sourceDatagram (esi : ℕ) : (sourceDatagram esi).length = 68 := by
  rw [sourceDatagram, List.length_append, Vector.length_toList, length_htonl]
  rfl

/-- One more datagram. -/
theorem SentPacket.snoc {datagram : Datagram}
    (packets : ∀ i d, sent[i]? = some d → SentPacket w dt i (sourcePackets (sent.take i)) d)
    (last : SentPacket w dt sent.length (sourcePackets sent) datagram) :
    ∀ i d, (sent ++ [datagram])[i]? = some d →
      SentPacket w dt i (sourcePackets ((sent ++ [datagram]).take i)) d := by
  intro i d at_i
  rcases Nat.lt_or_ge i sent.length with old | new
  · rw [List.getElem?_append_left old] at at_i
    rw [List.take_append_of_le_length old.le]
    exact packets i d at_i
  · obtain ⟨lt, -⟩ := List.getElem?_eq_some_iff.mp at_i
    rw [List.length_append, List.length_singleton] at lt
    obtain rfl : i = sent.length := by omega
    rw [List.getElem?_concat_length] at at_i
    cases at_i
    rw [List.take_left]
    exact last

/-- Every step of the server keeps its history right. -/
theorem serverStep_ran (ran : server.Ran w dt totEnc sent)
    (ok : serverStep server call = .ok (server', out)) : server'.Ran w dt totEnc (sent ++ out) := by
  have inv := ran.invariant
  have idle : (server, ([] : List Datagram)) = (server', out) →
      server'.Ran w dt totEnc (sent ++ out) := by
    intro same
    cases same
    rw [List.append_nil]
    exact ran
  cases call with
  | sendSourceSymbol =>
      unfold serverStep at ok
      dsimp only at ok
      by_cases due : server.esi < serverTotSrc
      · rw [if_pos due] at ok
        by_cases room : server.idx < server.totEnc
        · obtain ⟨server₁, send_eq, inv', esi, idx, total, density⟩ :=
            sendSourceSymbol_spec inv due room
          rw [send_eq] at ok
          cases ok
          have counted : sourcePackets (sent ++ [sourceDatagram server.esi]) =
              sourcePackets sent + 1 := by
            unfold sourcePackets
            rw [List.countP_append, List.countP_singleton, length_sourceDatagram]
            rfl
          refine ⟨inv', density.trans ran.dt_eq, total.trans ran.totEnc_eq, ?_, ?_, ?_,
            SentPacket.snoc ran.packets ?_, ?_⟩
          · rw [idx, ran.idx_eq, List.length_append]
            rfl
          · rw [idx, ← ran.totEnc_eq]
            exact room
          · rw [esi, counted, ran.esi_eq]
          · rw [ran.esi_eq]
            exact .source
          · intro d mem repair
            rcases List.mem_append.mp mem with old | new
            · exact ran.repairs d old repair
            · rw [List.mem_singleton.mp new, length_sourceDatagram] at repair
              cases repair
        · unfold sendSourceSymbol at ok
          rw [if_pos (by omega)] at ok
          cases ok
      · rw [if_neg due] at ok
        exact idle (Except.ok.inj ok)
  | sendRepairSymbol =>
      unfold serverStep at ok
      dsimp only at ok
      by_cases goes : serverTotSrc < server.totEnc ∧ 0 < server.esi ∧ server.idx < server.totEnc
      · obtain ⟨server₁, datagram, send_eq, inv', packet, length, esi, idx, total, density⟩ :=
          sendRepairSymbol_spec inv goes.2.1
        rw [if_pos goes, send_eq] at ok
        cases ok
        have counted : sourcePackets (sent ++ [datagram]) = sourcePackets sent := by
          unfold sourcePackets
          rw [List.countP_append, List.countP_singleton, length]
          rfl
        rw [ran.dt_eq, ran.idx_eq, ran.esi_eq] at packet
        refine ⟨inv', density.trans ran.dt_eq, total.trans ran.totEnc_eq, ?_, ?_, ?_,
          SentPacket.snoc ran.packets packet, fun _ _ _ => ran.totEnc_eq ▸ goes.1⟩
        · rw [idx, ran.idx_eq, List.length_append]
          rfl
        · rw [idx, ← ran.totEnc_eq]
          exact goes.2.2
        · rw [esi, counted, ran.esi_eq]
      · rw [if_neg goes] at ok
        exact idle (Except.ok.inj ok)

theorem serverCreate_ran {fresh : List Gf256} {oti : Datagram} (lt : w < 4294967296)
    (size : fresh.length = sizeofRepairFpi + applicationSymbolSize)
    (ok : serverCreate w dt totEnc fresh = .ok (server, oti)) :
    server.Ran w dt totEnc [] := by
  obtain ⟨inv, esi, idx, density, total, -⟩ := serverCreate_spec lt size ok
  exact ⟨inv, density, total, idx, by omega, esi, nofun, nofun⟩

theorem ran_of_run (ran : server.Ran w dt totEnc [])
    (run : Steps serverStep (fun _ _ _ => True) server calls server' sent) :
    server'.Ran w dt totEnc sent := by
  induction run with
  | nil => exact ran
  | snoc _ ok _ ih => exact serverStep_ran ih ok

/-- When the server fails. -/
theorem serverStep_error_iff (ran : server.Ran w dt totEnc sent) {fault : ApplicationFault} :
    serverStep server call = .error fault ↔
      call = .sendSourceSymbol ∧ fault = .outOfBounds .encSymbolsTab ∧
        sourcePackets sent < serverTotSrc ∧ sent.length = totEnc := by
  have inv := ran.invariant
  have idx_le := ran.idx_le
  have idx_eq := ran.idx_eq
  have esi_eq := ran.esi_eq
  have totEnc_eq := ran.totEnc_eq
  cases call with
  | sendSourceSymbol =>
      unfold serverStep
      dsimp only
      by_cases due : server.esi < serverTotSrc
      · rw [if_pos due]
        by_cases room : server.idx < server.totEnc
        · obtain ⟨server₁, send_eq, -⟩ := sendSourceSymbol_spec inv due room
          rw [send_eq]
          refine ⟨nofun, ?_⟩
          rintro ⟨-, -, -, full⟩
          omega
        · have fails : sendSourceSymbol server = .error (.outOfBounds .encSymbolsTab) := by
            unfold sendSourceSymbol
            rw [if_pos (by omega)]
            rfl
          rw [fails]
          constructor
          · rintro ⟨⟩
            exact ⟨rfl, rfl, by omega, by omega⟩
          · rintro ⟨-, rfl, -⟩
            rfl
      · rw [if_neg due]
        refine ⟨nofun, ?_⟩
        rintro ⟨-, -, more, -⟩
        omega
  | sendRepairSymbol =>
      refine ⟨fun failed => ?_, nofun⟩
      unfold serverStep at failed
      dsimp only at failed
      by_cases goes : serverTotSrc < server.totEnc ∧ 0 < server.esi ∧ server.idx < server.totEnc
      · obtain ⟨server₁, datagram, send_eq, -⟩ := sendRepairSymbol_spec inv goes.2.1
        rw [if_pos goes, send_eq] at failed
        cases failed
      · rw [if_neg goes] at failed
        cases failed

/-- In every run of the server: each datagram is the next source symbol, or a repair symbol
whose header names its number and the last source symbols, at most as many as the window holds;
and the server fails only when it has a source symbol left and its table is full. -/
theorem server_of_run {fresh : List Gf256} {oti : Datagram} {server₀ : Server}
    (lt : w < 4294967296) (size : fresh.length = sizeofRepairFpi + applicationSymbolSize)
    (created : serverCreate w dt totEnc fresh = .ok (server₀, oti))
    (run : Steps serverStep (fun _ _ _ => True) server₀ calls server sent) :
    (∀ i d, sent[i]? = some d → SentPacket w dt i (sourcePackets (sent.take i)) d) ∧
    ∀ call fault, serverStep server call = .error fault ↔
      call = .sendSourceSymbol ∧ fault = .outOfBounds .encSymbolsTab ∧
        sourcePackets sent < serverTotSrc ∧ sent.length = totEnc := by
  have ran := ran_of_run (serverCreate_ran lt size created) run
  exact ⟨ran.packets, fun call fault => serverStep_error_iff ran⟩

end Run

theorem server_of_run_three_packets :
    ∃ server₀ oti server sent,
      serverCreate 2 15 1001 (List.replicate 72 0) = .ok (server₀, oti) ∧
      Steps serverStep (fun _ _ _ => True) server₀
        [.sendSourceSymbol, .sendSourceSymbol, .sendRepairSymbol] server sent ∧
      ∀ i d, sent[i]? = some d → SentPacket 2 15 i (sourcePackets (sent.take i)) d := by
  have created : serverCreate 2 15 1001 (List.replicate 72 0) =
      .ok (serverOf 2 15 1001 (List.replicate 72 0),
        FecOti.toDatagram ⟨1, 2, serverTotSrc, 1001⟩) := rfl
  obtain ⟨server, sent, steps⟩ := exists_steps_of_checkedRun
    (show (checkedRun serverStep (fun _ _ _ => True) (serverOf 2 15 1001 (List.replicate 72 0))
      [.sendSourceSymbol, .sendSourceSymbol, .sendRepairSymbol]).isSome by decide +kernel)
  exact ⟨_, _, server, sent, created, steps,
    (server_of_run (by decide) (by decide) created steps).1⟩

end SwifCodec
