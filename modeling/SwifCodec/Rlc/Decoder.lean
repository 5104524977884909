import SwifCodec.Rlc.Api
import SwifCodec.FullSymbolSet.Elimination

/-!
The RLC decoder: a set of full symbols, and the coding window under preparation
for the next repair symbol.

The coefficients of that window are in `coefTab`, which is allocated by the first
call of `reset_coding_window` or `generate_coding_coefs`. A decode call returns
the calls of the application's callback. The application's callback runs in the
middle of the elimination; it gets the data of the row as it is at that moment.
-/

namespace SwifCodec

open Library FullSymbolSet

/-- `swif_decoder_rlc_cb_t`. `coefTab` is `none` for a NULL pointer, `notifyDecodedFunc`
and `decodedSourceSymbolCallback` tell whether these pointers are set. -/
structure Decoder where
  maxCodingWindowSize : Nat
  symbolSize : Nat
  symbolSet : FullSymbolSet
  coefTab : Option (List Gf256)
  firstId : Nat
  nbId : Nat
  notifyDecodedFunc : Bool
  decodedSourceSymbolCallback : Bool
  deriving DecidableEq, Repr

/-- A call of `decoded_source_symbol_callback`. -/
structure DecodedSourceSymbol where
  newSymbolBuf : List Gf256
  esi : Nat
  deriving DecidableEq, Repr

/-- `swif_rlc_decoder_create`: the fields that are not set are zero. -/
def swifRlcDecoderCreate (symbolSize maxCodingWindowSize : Nat) : Decoder where
  maxCodingWindowSize := maxCodingWindowSize
  symbolSize := symbolSize
  symbolSet := fullSymbolSetAlloc
  coefTab := none
  firstId := 0
  nbId := 0
  notifyDecodedFunc := false
  decodedSourceSymbolCallback := false

/-- `swif_rlc_decoder_set_callback_functions`. -/
def swifRlcDecoderSetCallbackFunctions (dec : Decoder) (decodedSourceSymbolCallback : Bool) :
    Decoder :=
  { dec with decodedSourceSymbolCallback, notifyDecodedFunc := true }

/-! ### Decoding -/

/-- `full_symbol_set_notify_decoded` on the set of a decoder, where the function it
calls is `rlc_decoder_notify_decoded`. -/
def rlcDecoderNotifyDecoded (dec : Decoder) (call : Notification) :
    Exec (List DecodedSourceSymbol) := do
  if dec.notifyDecodedFunc then
    match ← fullSymbolSetGetPivot call.set call.decodedId with
    | none => .error .nullDereference
    | some fullSymbol =>
        if dec.decodedSourceSymbolCallback then return [⟨fullSymbol.data, call.decodedId⟩]
        else .error .nullDereference
  else return []

/-- The common part of the two decode functions. -/
def decodeFullSymbol (dec : Decoder) (fullSymbol : FullSymbol) :
    Exec (Decoder × List DecodedSourceSymbol) := do
  let (symbolSet, notified) ← fullSymbolAddWithElimination dec.symbolSet fullSymbol
  let decoded ← notified.mapM (rlcDecoderNotifyDecoded dec)
  return ({ dec with symbolSet }, decoded.flatten)

/-- The full symbol that `swif_rlc_decoder_decode_with_new_source_symbol` submits;
`full_symbol_dump` counts its coefficients. -/
def newSourceSymbol (dec : Decoder) (newSymbolBuf : List Gf256) (newSymbolEsi : Nat) :
    Exec FullSymbol := do
  let fullSymbol ← fullSymbolCreateFromSource newSymbolEsi newSymbolBuf dec.symbolSize
  let _ ← fullSymbolCountAllocatedCoef fullSymbol
  return fullSymbol

/-- The full symbol that `swif_rlc_decoder_decode_with_new_repair_symbol` submits. -/
def newRepairSymbol (dec : Decoder) (newSymbolBuf : List Gf256) : Exec FullSymbol :=
  fullSymbolCreate (dec.coefTab.getD []) dec.firstId dec.nbId newSymbolBuf dec.symbolSize

/-- `swif_rlc_decoder_decode_with_new_source_symbol`. -/
def swifRlcDecoderDecodeWithNewSourceSymbol (dec : Decoder) (newSymbolBuf : List Gf256)
    (newSymbolEsi : Nat) : Exec (Decoder × List DecodedSourceSymbol) := do
  let fullSymbol ← newSourceSymbol dec newSymbolBuf newSymbolEsi
  decodeFullSymbol dec fullSymbol

/-- `swif_rlc_decoder_decode_with_new_repair_symbol`; its `new_symbol_esi` is not used. -/
def swifRlcDecoderDecodeWithNewRepairSymbol (dec : Decoder) (newSymbolBuf : List Gf256) :
    Exec (Decoder × List DecodedSourceSymbol) := do
  let fullSymbol ← newRepairSymbol dec newSymbolBuf
  decodeFullSymbol dec fullSymbol

/-! ### The coding window under preparation -/

/-- `swif_rlc_decoder_reset_coding_window`. -/
def swifRlcDecoderResetCodingWindow (dec : Decoder) : Exec Decoder := do
  let coef := dec.coefTab.getD (List.replicate dec.symbolSize 0)
  let coef ← access .coefTab (Block.fill coef 0 dec.symbolSize 0)
  return { dec with coefTab := some coef, firstId := symbolIdNone, nbId := 0 }

/-- `swif_rlc_decoder_add_source_symbol_to_coding_window`. -/
def swifRlcDecoderAddSourceSymbolToCodingWindow (dec : Decoder) (newSrcSymbolEsi : Nat) :
    Exec (Decoder × SwifStatus) := do
  if dec.firstId = symbolIdNone then cAssert (dec.nbId = 0)
  let firstId := if dec.firstId = symbolIdNone then newSrcSymbolEsi else dec.firstId
  if sub32 newSrcSymbolEsi firstId ≤ dec.maxCodingWindowSize then
    return ({ dec with firstId, nbId := add32 dec.nbId 1 }, .ok)
  else
    return ({ dec with firstId }, .error)

/-- `swif_rlc_decoder_generate_coding_coefs`, with its status. A block that it
allocates has the contents `fresh`. -/
def swifRlcDecoderGenerateCodingCoefs (dec : Decoder) (key dt : Nat) (fresh : Nat → Gf256) :
    Exec (Decoder × SwifStatus) := do
  let coef := dec.coefTab.getD ((List.range dec.maxCodingWindowSize).map fresh)
  let coef ← generateCodingCoefs .coefTab coef dec.nbId dec.maxCodingWindowSize key dt
  return ({ dec with coefTab := some coef }, .ok)

/-! ### What the window functions do -/

section Window

variable {dec : Decoder} {esi : ℕ}

theorem Decoder.length_coefTab (dec : Decoder) (fresh : List Gf256) :
    (dec.coefTab.getD fresh).length = (dec.coefTab.map List.length).getD fresh.length := by
  cases dec.coefTab <;> rfl

/-- A reset of a table that holds `symbol_size` cells. -/
theorem swifRlcDecoderResetCodingWindow_spec
    (fits : dec.symbolSize ≤ (dec.coefTab.map List.length).getD dec.symbolSize) :
    ∃ coef, swifRlcDecoderResetCodingWindow dec =
        .ok { dec with coefTab := some coef, firstId := symbolIdNone, nbId := 0 } ∧
      coef.length = (dec.coefTab.map List.length).getD dec.symbolSize := by
  have length := dec.length_coefTab (List.replicate dec.symbolSize 0)
  rw [List.length_replicate] at length
  obtain ⟨coef, fill_eq⟩ : ∃ coef,
      Block.fill (dec.coefTab.getD (List.replicate dec.symbolSize 0)) 0 dec.symbolSize 0 =
        some coef :=
    ⟨_, Block.store_eq_some (by rw [List.length_replicate]; omega)⟩
  refine ⟨coef, ?_, (Block.length_of_store fill_eq).trans length⟩
  unfold swifRlcDecoderResetCodingWindow
  dsimp only
  rw [fill_eq]
  rfl

/-- A table with fewer cells is overrun. -/
theorem swifRlcDecoderResetCodingWindow_outOfBounds
    (short : (dec.coefTab.map List.length).getD dec.symbolSize < dec.symbolSize) :
    swifRlcDecoderResetCodingWindow dec = .error (.outOfBounds .coefTab) := by
  have length := dec.length_coefTab (List.replicate dec.symbolSize 0)
  rw [List.length_replicate] at length
  have fill_eq :
      Block.fill (dec.coefTab.getD (List.replicate dec.symbolSize 0)) 0 dec.symbolSize 0 = none :=
    Block.store_eq_none_iff.mpr (by rw [List.length_replicate]; omega)
  unfold swifRlcDecoderResetCodingWindow
  dsimp only
  rw [fill_eq]
  rfl

/-- The first identifier of the window after adding `esi`. -/
def Decoder.windowStart (dec : Decoder) (esi : ℕ) : ℕ :=
  if dec.firstId = symbolIdNone then esi else dec.firstId

theorem swifRlcDecoderAddSourceSymbol_spec :
    swifRlcDecoderAddSourceSymbolToCodingWindow dec esi =
      if dec.firstId = symbolIdNone ∧ dec.nbId ≠ 0 then .error .assertion
      else if sub32 esi (dec.windowStart esi) ≤ dec.maxCodingWindowSize then
        .ok ({ dec with firstId := dec.windowStart esi, nbId := add32 dec.nbId 1 }, .ok)
      else .ok ({ dec with firstId := dec.windowStart esi }, .error) := by
  unfold swifRlcDecoderAddSourceSymbolToCodingWindow
  rw [← Decoder.windowStart]
  by_cases fresh : dec.firstId = symbolIdNone
  · by_cases empty : dec.nbId = 0
    · have passes : ¬ (dec.firstId = symbolIdNone ∧ dec.nbId ≠ 0) := fun both => both.2 empty
      rw [if_pos fresh, cAssert_of (decide_eq_true empty), ok_bind, if_neg passes]
      rfl
    · have fails : dec.firstId = symbolIdNone ∧ dec.nbId ≠ 0 := ⟨fresh, empty⟩
      rw [if_pos fresh, cAssert_of_not empty, error_bind, if_pos fails]
  · have passes : ¬ (dec.firstId = symbolIdNone ∧ dec.nbId ≠ 0) := fun both => fresh both.1
    rw [if_neg fresh, if_neg passes]
    rfl

/-- The window after a call that returns. -/
theorem swifRlcDecoderAddSourceSymbol_of_ok {dec' : Decoder} {status : SwifStatus}
    (ok : swifRlcDecoderAddSourceSymbolToCodingWindow dec esi = .ok (dec', status)) :
    dec' = { dec with
      firstId := dec.windowStart esi
      nbId := if status = .ok then add32 dec.nbId 1 else dec.nbId } := by
  rw [swifRlcDecoderAddSourceSymbol_spec] at ok
  split at ok
  · cases ok
  · split at ok
    · cases ok
      rfl
    · cases ok
      rfl

end Window

/-! ### What the decode functions do -/

section Decode

variable {dec dec' : Decoder} {s : FullSymbol} {out : List DecodedSourceSymbol}

/-- What the application is told by a notification. -/
def Notification.deliver (call : Notification) : DecodedSourceSymbol :=
  ⟨((call.set.rowAt call.decodedId).map FullSymbol.data).getD [], call.decodedId⟩

/-- A notification that returns has told the application about the row, if it is set. -/
theorem rlcDecoderNotifyDecoded_of_ok {e : Notification} {told : List DecodedSourceSymbol}
    (ok : rlcDecoderNotifyDecoded dec e = .ok told) :
    told = if dec.notifyDecodedFunc then [e.deliver] else [] := by
  unfold rlcDecoderNotifyDecoded at ok
  by_cases notify : dec.notifyDecodedFunc = true
  · rw [if_pos notify] at ok ⊢
    obtain ⟨found, pivot_eq, rest⟩ := bind_eq_ok.mp ok
    cases found with
    | none => cases rest
    | some row =>
        rw [Notification.deliver, fullSymbolSetGetPivot_of_ok pivot_eq]
        dsimp only at rest
        split at rest
        · cases rest
          rfl
        · cases rest
  · rw [if_neg notify] at ok ⊢
    cases ok
    rfl

/-- The notifications of a submission that returns, as the application gets them. -/
theorem mapM_notifyDecoded_of_ok {notified : List Notification}
    {told : List (List DecodedSourceSymbol)}
    (ok : notified.mapM (rlcDecoderNotifyDecoded dec) = .ok told) :
    told.flatten = if dec.notifyDecodedFunc then notified.map Notification.deliver else [] := by
  induction notified generalizing told with
  | nil =>
      cases ok
      rw [List.map_nil, ite_self]
      rfl
  | cons e notified ih =>
      rw [List.mapM_cons] at ok
      obtain ⟨first, first_eq, rest⟩ := bind_eq_ok.mp ok
      obtain ⟨others, others_eq, result⟩ := bind_eq_ok.mp rest
      cases result
      rw [List.flatten_cons, ih others_eq, rlcDecoderNotifyDecoded_of_ok first_eq]
      split <;> rfl

/-- A notification can only fail by not finding what it reads. -/
theorem rlcDecoderNotifyDecoded_fault {call : Notification} {e : Fault}
    (fault : rlcDecoderNotifyDecoded dec call = .error e) :
    e = .nullDereference ∨ e = .outOfBounds .pivotTab := by
  unfold rlcDecoderNotifyDecoded at fault
  split at fault
  · rcases bind_eq_error.mp fault with pivot | ⟨row, -, rest⟩
    · unfold fullSymbolSetGetPivot at pivot
      split at pivot
      · generalize call.set.fullSymbolTab[call.decodedId - call.set.firstSymbolId]? = cell at pivot
        cases cell with
        | none =>
            cases pivot
            exact .inr rfl
        | some row => cases pivot
      · cases pivot
    · split at rest
      · cases rest
        exact .inl rfl
      · split at rest
        · cases rest
        · cases rest
          exact .inl rfl
  · cases fault

/-- A symbol that was submitted is redundant or stored. -/
theorem decodeFullSymbol_cases (inv : dec.symbolSet.Invariant) (wrap : dec.symbolSet.NoWrap)
    (wf : s.WellFormed) (ok : decodeFullSymbol dec s = .ok (dec', out)) :
    (dec' = dec ∧ out = [] ∧ s.coefs ∈ dec.symbolSet.rowSpan) ∨
      ∃ n notified, Eliminated dec.symbolSet s n dec'.symbolSet notified ∧
        dec' = { dec with symbolSet := dec'.symbolSet } ∧
        out = if dec.notifyDecodedFunc then notified.map Notification.deliver else [] := by
  unfold decodeFullSymbol at ok
  rcases fullSymbolAddWithElimination_spec inv wrap wf with
    ⟨eq, mem⟩ | ⟨-, eq⟩ | ⟨n, set', notified, eq, el⟩
  · rw [eq] at ok
    cases ok
    exact .inl ⟨rfl, rfl, mem⟩
  · rw [eq] at ok
    cases ok
  · rw [eq, ok_bind] at ok
    obtain ⟨outs, outs_eq, result⟩ := bind_eq_ok.mp ok
    cases result
    exact .inr ⟨n, notified, el, rfl, mapM_notifyDecoded_of_ok outs_eq⟩

end Decode

end SwifCodec
