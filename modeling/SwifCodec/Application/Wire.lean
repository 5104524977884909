import SwifCodec.Library.ByteOrder
import SwifCodec.Rlc.Receiver

/-!
The datagrams of `simple_server.c` and `simple_client.c`.

A source packet carries its symbol before its identifier, a repair packet has its header before
the symbol; their lengths, 68 and 72 bytes, tell them apart. All header fields are in network
byte order. The server writes every packet into the same buffer, over what the last packet left
there (`sourcePacket_spec`, `repairPacket_spec`), and the client reads back what the server
wrote (`readPacket_of_sent`).
-/

namespace SwifCodec

open Library

/-- `SYMBOL_SIZE`. -/
def applicationSymbolSize : Nat := 64

/-- `sizeof(repair_fpi_t)`. -/
def sizeofRepairFpi : Nat := 8

/-- `sizeof(source_fpi_t)`. -/
def sizeofSourceFpi : Nat := 4

/-- `sizeof(fec_oti_t)`. -/
def sizeofFecOti : Nat := 16

/-- A `uint32_t` in memory after `htonl`. -/
def htonl (value : Nat) : List Gf256 := (networkBytes 4 value).map Gf256.mk

/-- A `uint16_t` in memory after `htons`. -/
def htons (value : Nat) : List Gf256 := (networkBytes 2 value).map Gf256.mk

/-- `ntohl` and `ntohs` of a field in memory. -/
def ntoh (field : List Gf256) : Nat := hostValue (field.map Gf256.bits)

/-- The bytes of a datagram. -/
abbrev Datagram := List Gf256

/-! ### Session parameters -/

/-- `fec_oti_t`, in host byte order. -/
structure FecOti where
  codepoint : Nat
  ewSize : Nat
  totSrc : Nat
  totEnc : Nat
  deriving DecidableEq, Repr

/-- The bytes of a `fec_oti_t` as the server sends it. -/
def FecOti.toDatagram (oti : FecOti) : Datagram :=
  htonl oti.codepoint ++ htonl oti.ewSize ++ htonl oti.totSrc ++ htonl oti.totEnc

/-- The fields of a `fec_oti_t` as the client reads them. -/
def readFecOti (pkt : Datagram) : Option FecOti := do
  let codepoint ← Block.load pkt 0 4
  let ewSize ← Block.load pkt 4 4
  let totSrc ← Block.load pkt 8 4
  let totEnc ← Block.load pkt 12 4
  return { codepoint := ntoh codepoint, ewSize := ntoh ewSize, totSrc := ntoh totSrc,
           totEnc := ntoh totEnc }

/-! ### Packets -/

/-- The server writes a source symbol and its identifier into its buffer, and sends the front
of the buffer. -/
def sourcePacket (pktWithFpi : List Gf256) (esi : Nat) (symbol : List Gf256) :
    Option (List Gf256 × Datagram) := do
  let pkt ← Block.store pktWithFpi applicationSymbolSize (htonl esi)
  let cells ← Block.load symbol 0 applicationSymbolSize
  let pkt ← Block.store pkt 0 cells
  let datagram ← Block.load pkt 0 (sizeofSourceFpi + applicationSymbolSize)
  return (pkt, datagram)

/-- The server writes the header of a repair symbol and the symbol into its buffer. -/
def repairPacket (pktWithFpi : List Gf256) (repairKey dt nss first : Nat) (symbol : List Gf256) :
    Option (List Gf256 × Datagram) := do
  let pkt ← Block.store pktWithFpi 0 (htons repairKey)
  let pkt ← Block.store pkt 2 (htons (dt <<< 12 ||| (nss &&& 0x0FFF)))
  let pkt ← Block.store pkt 4 (htonl first)
  let cells ← Block.load symbol 0 applicationSymbolSize
  let pkt ← Block.store pkt sizeofRepairFpi cells
  let datagram ← Block.load pkt 0 (sizeofRepairFpi + applicationSymbolSize)
  return (pkt, datagram)

/-- What the client takes a datagram for. -/
inductive Packet where
  | source (esi : Nat) (pkt : List Gf256)
  | repair (fpi : RepairFpi) (symbol : List Gf256)
  | unidentified
  deriving DecidableEq, Repr

/-- `is_source_packet`. -/
def isSourcePacket (pktLen : Nat) : Bool := pktLen == sizeofSourceFpi + applicationSymbolSize

/-- `is_repair_packet`. -/
def isRepairPacket (pktLen : Nat) : Bool := pktLen == sizeofRepairFpi + applicationSymbolSize

/-- The client receives at most the size of a repair packet, and reads the header that the
length of what it received calls for. -/
def readPacket (datagram : Datagram) : Packet :=
  let pkt := datagram.take (sizeofRepairFpi + applicationSymbolSize)
  if isSourcePacket pkt.length then
    .source (ntoh (pkt.drop applicationSymbolSize)) pkt
  else if isRepairPacket pkt.length then
    .repair
      { repairKey := BitVec.ofNat 16 (ntoh (pkt.take 2))
        dtNss := BitVec.ofNat 16 (ntoh ((pkt.drop 2).take 2))
        esi := BitVec.ofNat 32 (ntoh ((pkt.drop 4).take 4)) }
      (pkt.drop sizeofRepairFpi)
  else .unidentified

/-! ### Header fields -/

section Fields

variable {value : ℕ}

@[simp] theorem length_htonl (value : ℕ) : (htonl value).length = 4 := by
  rw [htonl, List.length_map, length_networkBytes]

@[simp] theorem length_htons (value : ℕ) : (htons value).length = 2 := by
  rw [htons, List.length_map, length_networkBytes]

theorem map_bits_mk (cells : List (BitVec 8)) : (cells.map Gf256.mk).map Gf256.bits = cells := by
  rw [List.map_map]
  exact List.map_id _

@[simp] theorem ntoh_htonl (value : ℕ) : ntoh (htonl value) = value % 4294967296 := by
  rw [ntoh, htonl, map_bits_mk, hostValue_networkBytes]
  rfl

@[simp] theorem ntoh_htons (value : ℕ) : ntoh (htons value) = value % 65536 := by
  rw [ntoh, htons, map_bits_mk, hostValue_networkBytes]
  rfl

/-- The client reads the parameters that the server sent. -/
theorem readFecOti_toDatagram (oti : FecOti) :
    oti.toDatagram.length = sizeofFecOti ∧
      readFecOti oti.toDatagram = some
        { codepoint := oti.codepoint % 4294967296, ewSize := oti.ewSize % 4294967296,
          totSrc := oti.totSrc % 4294967296, totEnc := oti.totEnc % 4294967296 } := by
  have length : oti.toDatagram.length = 16 := by simp [FecOti.toDatagram]
  refine ⟨length, ?_⟩
  unfold readFecOti
  rw [Block.load_eq_some (by omega), Block.load_eq_some (by omega), Block.load_eq_some (by omega),
    Block.load_eq_some (by omega)]
  simp [FecOti.toDatagram, List.drop_append, List.drop_eq_nil_of_le, List.take_of_length_le]

/-- The two fields of `dt_nss` do not overlap. -/
theorem dtNss_value (dt nss : ℕ) :
    dt <<< 12 ||| (nss &&& 0x0FFF) = 4096 * dt + nss % 4096 := by
  rw [show (0x0FFF : ℕ) = 2 ^ 12 - 1 by rfl, Nat.and_two_pow_sub_one_eq_mod,
    Nat.shiftLeft_eq, Nat.mul_comm dt, ← Nat.two_pow_add_eq_or_of_lt (Nat.mod_lt _ (by decide))]

end Fields

/-! ### Sent and received packets -/

section Packets

variable {pktWithFpi symbol : List Gf256} {esi repairKey dt nss first : ℕ}

/-- The datagram of a source symbol does not depend on what was in the buffer. -/
theorem sourcePacket_spec (size : pktWithFpi.length = sizeofRepairFpi + applicationSymbolSize)
    (length : symbol.length = applicationSymbolSize) :
    ∃ pkt, sourcePacket pktWithFpi esi symbol = some (pkt, symbol ++ htonl esi) ∧
      pkt.length = pktWithFpi.length := by
  have sizes : sizeofRepairFpi + applicationSymbolSize = 72 := rfl
  have symbol_size : applicationSymbolSize = 64 := rfl
  obtain ⟨front, part, back, rfl, front_length, part_length⟩ :=
    Block.exists_part (show applicationSymbolSize + 4 ≤ pktWithFpi.length by omega)
  have header : Block.store (front ++ (part ++ back)) applicationSymbolSize (htonl esi) =
      some (front ++ (htonl esi ++ back)) :=
    Block.store_part front_length (by rw [length_htonl, part_length])
  have load : Block.load symbol 0 applicationSymbolSize = some symbol := by
    rw [← length, Block.load_all]
  have body : Block.store (front ++ (htonl esi ++ back)) 0 symbol =
      some (symbol ++ (htonl esi ++ back)) :=
    Block.store_part (show ([] : List Gf256).length = 0 from rfl) (length.trans front_length.symm)
  have sent : Block.load (symbol ++ (htonl esi ++ back)) 0
      (sizeofSourceFpi + applicationSymbolSize) = some (symbol ++ htonl esi) := by
    rw [← List.append_assoc]
    exact Block.load_part (show ([] : List Gf256).length = 0 from rfl)
      (by rw [List.length_append, length, length_htonl, Nat.add_comm]; rfl)
  refine ⟨symbol ++ (htonl esi ++ back), ?_, ?_⟩
  · unfold sourcePacket
    rw [header]
    dsimp only [Option.bind_eq_bind, Option.bind_some]
    rw [load]
    dsimp only [Option.bind_some]
    rw [body]
    dsimp only [Option.bind_some]
    rw [sent]
    rfl
  · simp only [List.length_append, length_htonl]
    omega

/-- The datagram of a repair symbol. -/
def repairDatagram (repairKey dt nss first : Nat) (symbol : List Gf256) : Datagram :=
  htons repairKey ++ (htons (4096 * dt + nss % 4096) ++ (htonl first ++ symbol))

theorem length_repairDatagram (length : symbol.length = applicationSymbolSize) :
    (repairDatagram repairKey dt nss first symbol).length = 72 := by
  simp [repairDatagram, length, applicationSymbolSize]

/-- The datagram of a repair symbol does not depend on what was in the buffer. -/
theorem repairPacket_spec (size : pktWithFpi.length = sizeofRepairFpi + applicationSymbolSize)
    (length : symbol.length = applicationSymbolSize) :
    repairPacket pktWithFpi repairKey dt nss first symbol =
      some (repairDatagram repairKey dt nss first symbol,
        repairDatagram repairKey dt nss first symbol) := by
  have sizes : sizeofRepairFpi + applicationSymbolSize = 72 := rfl
  have symbol_size : applicationSymbolSize = 64 := rfl
  obtain ⟨start, key, rest, rfl, start_length, key_length⟩ :=
    Block.exists_part (show 0 + 2 ≤ pktWithFpi.length by omega)
  obtain rfl : start = [] := List.length_eq_zero_iff.mp start_length
  simp only [List.length_append, List.length_nil] at size
  obtain ⟨dt_nss, id, body, rfl, dt_nss_length, id_length⟩ :=
    Block.exists_part (show 2 + 4 ≤ rest.length by omega)
  simp only [List.length_append] at size
  have store_key : Block.store ([] ++ (key ++ (dt_nss ++ (id ++ body)))) 0 (htons repairKey) =
      some ([] ++ (htons repairKey ++ (dt_nss ++ (id ++ body)))) :=
    Block.store_part rfl (by rw [length_htons, key_length])
  have store_dt_nss : Block.store (htons repairKey ++ (dt_nss ++ (id ++ body))) 2
      (htons (dt <<< 12 ||| (nss &&& 0x0FFF))) =
        some (htons repairKey ++ (htons (4096 * dt + nss % 4096) ++ (id ++ body))) := by
    rw [dtNss_value]
    exact Block.store_part (length_htons _) (by rw [length_htons, dt_nss_length])
  have store_id : Block.store (htons repairKey ++ (htons (4096 * dt + nss % 4096) ++ (id ++ body)))
      4 (htonl first) =
        some (htons repairKey ++ (htons (4096 * dt + nss % 4096) ++ (htonl first ++ body))) := by
    rw [← List.append_assoc, Block.store_part (by simp) (by rw [length_htonl, id_length]),
      List.append_assoc]
  have load : Block.load symbol 0 applicationSymbolSize = some symbol := by
    rw [← length, Block.load_all]
  have store_body : Block.store
      (htons repairKey ++ (htons (4096 * dt + nss % 4096) ++ (htonl first ++ body)))
      sizeofRepairFpi symbol = some (repairDatagram repairKey dt nss first symbol) := by
    have header : (htons repairKey ++ (htons (4096 * dt + nss % 4096) ++ htonl first)).length =
        sizeofRepairFpi := by simp [sizeofRepairFpi]
    have stored := @Block.store_part _ _ body [] _ _ header (show symbol.length = _ by omega)
    rw [repairDatagram]
    simpa only [List.append_assoc, List.append_nil] using stored
  have sent : Block.load (repairDatagram repairKey dt nss first symbol) 0
      (sizeofRepairFpi + applicationSymbolSize) =
        some (repairDatagram repairKey dt nss first symbol) := by
    rw [sizes, ← length_repairDatagram length, Block.load_all]
  unfold repairPacket
  rw [store_key]
  dsimp only [Option.bind_eq_bind, Option.bind_some, List.nil_append]
  rw [store_dt_nss]
  dsimp only [Option.bind_some]
  rw [store_id]
  dsimp only [Option.bind_some]
  rw [load]
  dsimp only [Option.bind_some]
  rw [store_body]
  dsimp only [Option.bind_some]
  rw [sent]
  rfl

/-- The client takes the datagram of a source symbol for one, and finds its identifier. -/
theorem readPacket_source (length : symbol.length = applicationSymbolSize) :
    readPacket (symbol ++ htonl esi) = .source (esi % 4294967296) (symbol ++ htonl esi) := by
  have symbol_size : applicationSymbolSize = 64 := rfl
  have total : (symbol ++ htonl esi).length = 68 := by
    rw [List.length_append, length_htonl, length, symbol_size]
  unfold readPacket
  rw [List.take_of_length_le (by rw [total]; decide)]
  dsimp only
  rw [total, if_pos (show isSourcePacket 68 = true from rfl), ← length, List.drop_left, ntoh_htonl]

/-- The client takes the datagram of a repair symbol for one, and finds its header. -/
theorem readPacket_repair (length : symbol.length = applicationSymbolSize) :
    readPacket (repairDatagram repairKey dt nss first symbol) =
      .repair ⟨BitVec.ofNat 16 repairKey, BitVec.ofNat 16 (4096 * dt + nss % 4096),
        BitVec.ofNat 32 first⟩ symbol := by
  have total : (repairDatagram repairKey dt nss first symbol).length = 72 :=
    length_repairDatagram length
  have key : (repairDatagram repairKey dt nss first symbol).take 2 = htons repairKey :=
    List.take_left' (length_htons _)
  have dt_nss : ((repairDatagram repairKey dt nss first symbol).drop 2).take 2 =
      htons (4096 * dt + nss % 4096) := by
    rw [repairDatagram, List.drop_left' (length_htons _), List.take_left' (length_htons _)]
  have id : ((repairDatagram repairKey dt nss first symbol).drop 4).take 4 = htonl first := by
    rw [repairDatagram, ← List.append_assoc, List.drop_left' (by simp),
      List.take_left' (length_htonl _)]
  have body : (repairDatagram repairKey dt nss first symbol).drop sizeofRepairFpi = symbol := by
    rw [repairDatagram, ← List.append_assoc, ← List.append_assoc,
      List.drop_left' (by simp [sizeofRepairFpi])]
  unfold readPacket
  rw [List.take_of_length_le (by rw [total]; decide)]
  dsimp only
  rw [total, if_neg (by decide), if_pos (show isRepairPacket 72 = true from rfl), key, dt_nss, id,
    body]
  simp only [ntoh_htons, ntoh_htonl]
  congr 2
  · exact BitVec.eq_of_toNat_eq (by simp)
  · exact BitVec.eq_of_toNat_eq (by simp)
  · exact BitVec.eq_of_toNat_eq (by simp)

/-- The fields of a header that was sent. -/
theorem RepairFpi.fields (density : dt ≤ 15) :
    RepairFpi.dt ⟨BitVec.ofNat 16 repairKey, BitVec.ofNat 16 (4096 * dt + nss % 4096),
        BitVec.ofNat 32 first⟩ = dt ∧
      RepairFpi.nss ⟨BitVec.ofNat 16 repairKey, BitVec.ofNat 16 (4096 * dt + nss % 4096),
        BitVec.ofNat 32 first⟩ = nss % 4096 := by
  have low : nss % 4096 < 4096 := Nat.mod_lt _ (by decide)
  have fits : (4096 * dt + nss % 4096) % 2 ^ 16 = 4096 * dt + nss % 4096 :=
    Nat.mod_eq_of_lt (by omega)
  constructor
  · rw [RepairFpi.dt, BitVec.toNat_ushiftRight, BitVec.toNat_ofNat, fits,
      Nat.shiftRight_eq_div_pow]
    omega
  · rw [RepairFpi.nss, BitVec.toNat_and, BitVec.toNat_ofNat, fits]
    show (4096 * dt + nss % 4096) &&& (2 ^ 12 - 1) = nss % 4096
    rw [Nat.and_two_pow_sub_one_eq_mod]
    omega

end Packets

/-- What the client reads is what the server wrote, whatever its buffer held before: the
identifier and the data of a source symbol; the data of a repair symbol with the key modulo
2^16, the density, the window size modulo 2^12 and the first identifier. -/
theorem readPacket_of_sent (pktWithFpi symbol : List Gf256) (esi repairKey dt nss : ℕ)
    (size : pktWithFpi.length = sizeofRepairFpi + applicationSymbolSize)
    (length : symbol.length = applicationSymbolSize) (valid : esi < 4294967296)
    (density : dt ≤ 15) :
    (∃ pkt datagram, sourcePacket pktWithFpi esi symbol = some (pkt, datagram) ∧
      readPacket datagram = .source esi datagram ∧
      Block.load datagram 0 applicationSymbolSize = some symbol) ∧
    ∃ pkt datagram fpi, repairPacket pktWithFpi repairKey dt nss esi symbol =
        some (pkt, datagram) ∧ readPacket datagram = .repair fpi symbol ∧
      fpi.repairKey.toNat = repairKey % 65536 ∧ fpi.dt = dt ∧ fpi.nss = nss % 4096 ∧
      fpi.esi.toNat = esi := by
  have value : esi % 4294967296 = esi := Nat.mod_eq_of_lt valid
  constructor
  · obtain ⟨pkt, source_eq, -⟩ := sourcePacket_spec size length
    refine ⟨pkt, _, source_eq, ?_, ?_⟩
    · rw [readPacket_source length, value]
    · exact Block.load_part (show ([] : List Gf256).length = 0 from rfl) length
  · obtain ⟨dt_eq, nss_eq⟩ := RepairFpi.fields density
    exact ⟨_, _, _, repairPacket_spec size length, readPacket_repair length,
      BitVec.toNat_ofNat .., dt_eq, nss_eq, (BitVec.toNat_ofNat ..).trans value⟩

theorem readPacket_of_sent_last_symbol :
    ∃ pkt datagram, sourcePacket (List.replicate 72 0) 999 (List.replicate 64 1) =
        some (pkt, datagram) ∧ readPacket datagram = .source 999 datagram := by
  obtain ⟨⟨pkt, datagram, source_eq, read_eq, -⟩, -⟩ := readPacket_of_sent
    (List.replicate 72 0) (List.replicate 64 1) 999 1003 15 1000 rfl rfl (by decide) (by decide)
  exact ⟨pkt, datagram, source_eq, read_eq⟩

end SwifCodec
