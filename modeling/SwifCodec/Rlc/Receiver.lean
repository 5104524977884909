import SwifCodec.Rlc.CoefTab

/-!
The receiver of repair packets: the part of `simple_client.c` that hands a repair
packet to the codec.

The receiver prepares the coding window of the packet's header, identifier by
identifier, generates the coefficients and submits the symbol; it stops at the first
call that reports an error. A window of one more than `max_coding_window_size`
identifiers is accepted by the window preparation and fails an assertion of the
generator, and an empty window fails one of `full_symbol_alloc`.
-/

namespace SwifCodec

open Library Gf256

/-- `repair_fpi_t`, in host byte order. -/
structure RepairFpi where
  repairKey : BitVec 16
  dtNss : BitVec 16
  esi : BitVec 32
  deriving DecidableEq, Repr

/-- The upper 4 bits of `dt_nss`. -/
def RepairFpi.dt (fpi : RepairFpi) : ℕ := (fpi.dtNss >>> 12).toNat

/-- The lower 12 bits of `dt_nss`. -/
def RepairFpi.nss (fpi : RepairFpi) : ℕ := (fpi.dtNss &&& 0x0FFF).toNat

/-- The loop that adds `nss` identifiers from `esi`, up to the first error. -/
def prepareCodingWindow (dec : Decoder) (esi : ℕ) : ℕ → Exec (Decoder × SwifStatus)
  | 0 => .ok (dec, .ok)
  | nss + 1 => do
      let (dec, status) ← prepareCodingWindow dec esi nss
      if status = .ok then swifRlcDecoderAddSourceSymbolToCodingWindow dec (add32 esi nss)
      else return (dec, status)

/-- A repair symbol with its header goes through the calls of the receiver. The table is
allocated by the reset, if it is not there, and not by the generator. -/
def submitRepairPacket (dec : Decoder) (esi nss repairKey dt : ℕ) (symbol : List Gf256) :
    Exec (Decoder × SwifStatus × List DecodedSourceSymbol) := do
  let dec ← swifRlcDecoderResetCodingWindow dec
  let (dec, status) ← prepareCodingWindow dec esi nss
  if status ≠ .ok then return (dec, status, [])
  let (dec, status) ← swifRlcDecoderGenerateCodingCoefs dec repairKey dt fun _ => 0
  if status ≠ .ok then return (dec, status, [])
  let (dec, out) ← swifRlcDecoderDecodeWithNewRepairSymbol dec symbol
  return (dec, .ok, out)

/-- A repair packet from the network. -/
def receiveRepairPacket (dec : Decoder) (fpi : RepairFpi) (symbol : List Gf256) :
    Exec (Decoder × SwifStatus × List DecodedSourceSymbol) :=
  submitRepairPacket dec fpi.esi.toNat fpi.nss fpi.repairKey.toNat fpi.dt symbol

theorem RepairFpi.dt_le (fpi : RepairFpi) : fpi.dt ≤ 15 := by
  have lt := fpi.dtNss.isLt
  rw [RepairFpi.dt, BitVec.toNat_ushiftRight, Nat.shiftRight_eq_div_pow]
  omega

theorem RepairFpi.nss_le (fpi : RepairFpi) : fpi.nss ≤ 4095 := by
  rw [RepairFpi.nss, BitVec.toNat_and]
  exact Nat.and_le_right

section Prepare

variable {dec : Decoder} {esi nss : ℕ}

/-- Adding consecutive identifiers after a reset. One more than the window size is let in. -/
theorem prepareCodingWindow_spec (first : dec.firstId = symbolIdNone) (empty : dec.nbId = 0)
    (below : esi + nss ≤ symbolIdNone) (pos : 0 < nss) :
    prepareCodingWindow dec esi nss =
      if nss ≤ dec.maxCodingWindowSize + 1 then
        .ok ({ dec with firstId := esi, nbId := nss }, .ok)
      else .ok ({ dec with firstId := esi, nbId := dec.maxCodingWindowSize + 1 }, .error) := by
  have size : symbolIdNone = 4294967295 := rfl
  obtain ⟨nss, rfl⟩ := Nat.exists_eq_add_one_of_ne_zero pos.ne'
  induction nss with
  | zero =>
      have start : dec.windowStart esi = esi := by rw [Decoder.windowStart, if_pos first]
      have zero : add32 esi 0 = esi := add32_of_lt (by omega)
      show swifRlcDecoderAddSourceSymbolToCodingWindow dec (add32 esi 0) = _
      rw [zero, swifRlcDecoderAddSourceSymbol_spec, if_neg fun h => h.2 empty, start,
        sub32_of_le le_rfl (by omega), Nat.sub_self, if_pos (Nat.zero_le _), if_pos (by omega),
        empty, add32_of_lt (by omega)]
  | succ nss ih =>
      unfold prepareCodingWindow
      rw [ih (by omega) (by omega)]
      by_cases fits : nss + 1 ≤ dec.maxCodingWindowSize + 1
      · have not_first : esi ≠ symbolIdNone := by omega
        have next : add32 esi (nss + 1) = esi + (nss + 1) := add32_of_lt (by omega)
        rw [if_pos fits, ok_bind]
        dsimp only
        rw [if_pos rfl, next, swifRlcDecoderAddSourceSymbol_spec, if_neg fun h => not_first h.1]
        have start : Decoder.windowStart { dec with firstId := esi, nbId := nss + 1 }
            (esi + (nss + 1)) = esi := if_neg not_first
        rw [start, sub32_of_le (by omega) (by omega), Nat.add_sub_cancel_left]
        dsimp only
        by_cases room : nss + 1 ≤ dec.maxCodingWindowSize
        · rw [if_pos room, if_pos (by omega), add32_of_lt (by omega)]
        · rw [if_neg room, if_neg (by omega), show nss + 1 = dec.maxCodingWindowSize + 1 by omega]
      · rw [if_neg fits, ok_bind]
        dsimp only
        rw [if_neg (by decide), if_neg (by omega)]
        rfl

end Prepare

/-! ### Assertions -/

section Assertion

variable {dec : Decoder} {esi nss repairKey dt : ℕ} {symbol : List Gf256}

/-- The decoder after the reset and the preparation of a window. -/
def Decoder.prepared (dec : Decoder) (coef : List Gf256) (esi nss : ℕ) : Decoder :=
  { dec with coefTab := some coef, firstId := esi, nbId := nss }

/-- What a generation in an allocated table leaves. -/
theorem swifRlcDecoderGenerateCodingCoefs_prepared (coef : List Gf256) (esi nss key dt : ℕ)
    (fresh : ℕ → Gf256) :
    swifRlcDecoderGenerateCodingCoefs (dec.prepared coef esi nss) key dt fresh =
      (generateCodingCoefs .coefTab coef nss dec.maxCodingWindowSize key dt).map
        fun tab => (dec.prepared tab esi nss, .ok) := by
  unfold swifRlcDecoderGenerateCodingCoefs Decoder.prepared
  dsimp only [Option.getD_some]
  cases generateCodingCoefs .coefTab coef nss dec.maxCodingWindowSize key dt <;> rfl

/-- What is left to do once the window of a packet is prepared. -/
def finishRepairPacket (dec : Decoder) (coef : List Gf256) (esi nss repairKey dt : ℕ)
    (symbol : List Gf256) : Exec (Decoder × SwifStatus × List DecodedSourceSymbol) := do
  let tab ← generateCodingCoefs .coefTab coef nss dec.maxCodingWindowSize repairKey dt
  let (dec, out) ← swifRlcDecoderDecodeWithNewRepairSymbol (dec.prepared tab esi nss) symbol
  return (dec, .ok, out)

/-- Generation always reports `SWIF_STATUS_OK`. -/
theorem finishRepairPacket_eq (coef : List Gf256) (esi nss repairKey dt : ℕ)
    (symbol : List Gf256) :
    (do
      let (dec, status) ← swifRlcDecoderGenerateCodingCoefs (dec.prepared coef esi nss) repairKey
        dt fun _ => 0
      if status ≠ .ok then return (dec, status, [])
      let (dec, out) ← swifRlcDecoderDecodeWithNewRepairSymbol dec symbol
      return (dec, .ok, out)) = finishRepairPacket dec coef esi nss repairKey dt symbol := by
  unfold finishRepairPacket
  rw [swifRlcDecoderGenerateCodingCoefs_prepared]
  cases generateCodingCoefs .coefTab coef nss dec.maxCodingWindowSize repairKey dt with
  | error e => rfl
  | ok tab => rfl

/-- A packet whose window is not empty: the receiver stops when the window is larger than
`max_coding_window_size` by more than one, and goes on to the generator otherwise. -/
theorem submitRepairPacket_of_window (repairKey dt : ℕ) (symbol : List Gf256)
    (reset : dec.symbolSize ≤ (dec.coefTab.map List.length).getD dec.symbolSize) (pos : 0 < nss)
    (below : esi + nss ≤ symbolIdNone) :
    ∃ coef, coef.length = (dec.coefTab.map List.length).getD dec.symbolSize ∧
      submitRepairPacket dec esi nss repairKey dt symbol =
        if nss ≤ dec.maxCodingWindowSize + 1 then
          finishRepairPacket dec coef esi nss repairKey dt symbol
        else .ok (dec.prepared coef esi (dec.maxCodingWindowSize + 1), .error, []) := by
  obtain ⟨coef, reset_eq, length⟩ := swifRlcDecoderResetCodingWindow_spec reset
  refine ⟨coef, length, ?_⟩
  unfold submitRepairPacket
  rw [reset_eq, ok_bind, prepareCodingWindow_spec rfl rfl below pos]
  by_cases le : nss ≤ dec.maxCodingWindowSize + 1
  · rw [if_pos le, if_pos le, ok_bind]
    exact finishRepairPacket_eq coef esi nss repairKey dt symbol
  · rw [if_neg le, if_neg le]
    rfl

/-- An empty window goes on to the generator as the reset leaves it. -/
theorem submitRepairPacket_of_empty (esi repairKey dt : ℕ) (symbol : List Gf256)
    (reset : dec.symbolSize ≤ (dec.coefTab.map List.length).getD dec.symbolSize) :
    ∃ coef, submitRepairPacket dec esi 0 repairKey dt symbol =
      finishRepairPacket dec coef symbolIdNone 0 repairKey dt symbol := by
  obtain ⟨coef, reset_eq, -⟩ := swifRlcDecoderResetCodingWindow_spec reset
  refine ⟨coef, ?_⟩
  unfold submitRepairPacket
  rw [reset_eq, ok_bind]
  exact finishRepairPacket_eq coef symbolIdNone 0 repairKey dt symbol

/-- An empty window fails an assertion when the repair symbol becomes a full symbol. -/
theorem finishRepairPacket_empty {coef : List Gf256} (density : dt ≤ 15) :
    finishRepairPacket dec coef symbolIdNone 0 repairKey dt symbol = .error .assertion := by
  have first_lt : symbolIdNone < 4294967296 := Nat.lt_succ_self _
  have bad : ¬ HeaderOk symbolIdNone 0 := by
    rintro (⟨pos, -⟩ | ⟨-, one⟩)
    · exact absurd pos (lt_irrefl 0)
    · cases one
  obtain ⟨cs, -, generate_eq⟩ := generateCodingCoefs_spec (Nat.zero_le _) density (Nat.zero_le _)
  unfold finishRepairPacket
  rw [generate_eq, ok_bind]
  unfold swifRlcDecoderDecodeWithNewRepairSymbol newRepairSymbol Decoder.prepared
  dsimp only
  rw [fullSymbolCreate_assertion first_lt (Nat.succ_pos _) bad]
  rfl

end Assertion

end SwifCodec
