import SwifCodec.Rlc.Api
import SwifCodec.FullSymbol.Arithmetic

/-!
The RLC encoder: a ring of source symbols, and the repair symbols built from it.

The window keeps pointers to the buffers of the caller; a slot of the ring holds
the contents of its buffer.
-/

namespace SwifCodec

open Library

/-- `swif_encoder_rlc_cb_t`. The table `ccTab` is allocated at creation;
`removedCallback` tells whether the removal callback is set. -/
structure Encoder where
  maxCodingWindowSize : Nat
  symbolSize : Nat
  ccTab : List Gf256
  ewTab : List (Option (List Gf256))
  ewLeft : Nat
  ewRight : Nat
  ewEsiRight : Nat
  ewSsNb : Nat
  removedCallback : Bool
  deriving DecidableEq, Repr

/-- `swif_rlc_encoder_create`. -/
def swifRlcEncoderCreate (symbolSize maxCodingWindowSize : Nat) : Encoder where
  maxCodingWindowSize := maxCodingWindowSize
  symbolSize := symbolSize
  ccTab := List.replicate maxCodingWindowSize 0
  ewTab := List.replicate maxCodingWindowSize none
  ewLeft := 0
  ewRight := 0
  ewEsiRight := invalidEsi
  ewSsNb := 0
  removedCallback := false

/-- `swif_rlc_encoder_set_callback_functions`. -/
def swifRlcEncoderSetCallbackFunctions (enc : Encoder) (removedCallback : Bool) : Encoder :=
  { enc with removedCallback }

/-- `swif_rlc_encoder_add_source_symbol_to_coding_window`, with the identifiers
passed to the removal callback. -/
def swifRlcEncoderAddSourceSymbolToCodingWindow (enc : Encoder) (newSrcSymbolBuf : List Gf256)
    (newSrcSymbolEsi : Nat) : Exec (Encoder × SwifStatus × List Nat) := do
  if enc.ewEsiRight ≠ invalidEsi ∧ newSrcSymbolEsi ≠ add32 enc.ewEsiRight 1 then
    return (enc, .error, [])
  if enc.ewSsNb = enc.maxCodingWindowSize then
    let removed :=
      if enc.removedCallback then [sub32 (add32 enc.ewEsiRight 1) enc.ewSsNb] else []
    let ewTab ← access .ewTab (Block.store enc.ewTab enc.ewLeft [some newSrcSymbolBuf])
    let ewLeft ← mod32 (add32 enc.ewLeft 1) enc.maxCodingWindowSize
    return ({ enc with ewTab, ewRight := enc.ewLeft, ewLeft, ewEsiRight := newSrcSymbolEsi }, .ok,
      removed)
  else if enc.ewSsNb = 0 then
    cAssert (enc.ewLeft = enc.ewRight)
    let ewTab ← access .ewTab (Block.store enc.ewTab enc.ewRight [some newSrcSymbolBuf])
    return ({ enc with ewTab, ewEsiRight := newSrcSymbolEsi,
                       ewSsNb := add32 enc.ewSsNb 1 }, .ok, [])
  else
    let ewRight ← mod32 (add32 enc.ewRight 1) enc.maxCodingWindowSize
    let ewTab ← access .ewTab (Block.store enc.ewTab ewRight [some newSrcSymbolBuf])
    return ({ enc with ewRight, ewTab, ewEsiRight := newSrcSymbolEsi,
                       ewSsNb := add32 enc.ewSsNb 1 }, .ok, [])

/-- `swif_rlc_encoder_get_coding_window_information`: first, last and number. -/
def swifRlcEncoderGetCodingWindowInformation (enc : Encoder) : Nat × Nat × Nat :=
  (add32 (sub32 enc.ewEsiRight enc.ewSsNb) 1, enc.ewEsiRight, enc.ewSsNb)

/-- `swif_rlc_encoder_set_coding_coefs_tab`. -/
def swifRlcEncoderSetCodingCoefsTab (enc : Encoder) (codingCoefsTab : List Gf256)
    (nbCoefsInTab : Nat) : Exec Encoder := do
  cAssert (nbCoefsInTab ≤ enc.maxCodingWindowSize)
  let cells ← access .symbolBuf (Block.load codingCoefsTab 0 nbCoefsInTab)
  let ccTab ← access .ccTab (Block.store enc.ccTab 0 cells)
  return { enc with ccTab }

/-- `swif_rlc_encoder_generate_coding_coefs`, with its status. -/
def swifRlcEncoderGenerateCodingCoefs (enc : Encoder) (key dt : Nat) :
    Exec (Encoder × SwifStatus) := do
  let ccTab ← generateCodingCoefs .ccTab enc.ccTab enc.ewSsNb enc.maxCodingWindowSize key dt
  return ({ enc with ccTab }, .ok)

/-- One round of the loop of `swif_rlc_build_repair_symbol`. -/
def buildRepairStep (enc : Encoder) (newBuf : List Gf256) (i : Nat) : Exec (List Gf256) := do
  let idx ← mod32 i enc.maxCodingWindowSize
  let coef ← access .ccTab enc.ccTab[idx]?
  let slot ← access .ewTab enc.ewTab[idx]?
  match slot with
  | some symbol => access .symbolBuf (symbolAddScaled newBuf coef symbol enc.symbolSize)
  | none => if enc.symbolSize = 0 then return newBuf else .error .nullDereference

/-- `swif_rlc_build_repair_symbol`. -/
def swifRlcBuildRepairSymbol (enc : Encoder) : Exec (List Gf256) :=
  (List.range' enc.ewLeft (enc.ewSsNb - enc.ewLeft)).foldlM (buildRepairStep enc)
    (List.replicate enc.symbolSize 0)

/-- The encoder accepts the identifier. -/
def Encoder.Accepts (enc : Encoder) (esi : ℕ) : Prop :=
  enc.ewEsiRight = invalidEsi ∨ esi = add32 enc.ewEsiRight 1

instance (enc : Encoder) (esi : ℕ) : Decidable (enc.Accepts esi) :=
  inferInstanceAs (Decidable (_ ∨ _))

end SwifCodec
