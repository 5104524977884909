import SwifCodec.Gf256
import SwifCodec.Machine

/-!
Symbols and full symbols: `swif_symbol.c` and the symbol part of
`swif_full_symbol_impl.c`.

A full symbol is a linear combination of source symbols together with the
coefficients that name it. Identifiers are `uint32_t` values, kept as natural
numbers below 2^32. Functions that update a symbol in place return it. The field
`data_size` is the length of `data`; memory allocation always succeeds, and the
spare byte allocated behind an empty `data` is left out.
-/

namespace SwifCodec

open Library

/-! ### `swif_symbol.c` -/

/-- `symbol_mul` with the result written over the symbol itself. -/
def symbolMul (symbol1 : List Gf256) (coeff : Gf256) (symbolSize : Nat) : Option (List Gf256) :=
  if coeff = 0 then Block.fill symbol1 0 symbolSize 0
  else (Block.load symbol1 0 symbolSize).bind fun data =>
    Block.store symbol1 0 (data.map (gf256Mul coeff))

/-- `symbol_add`. -/
def symbolAdd (symbol1 symbol2 : List Gf256) (symbolSize : Nat) (result : List Gf256) :
    Option (List Gf256) :=
  (Block.load symbol1 0 symbolSize).bind fun data1 =>
    (Block.load symbol2 0 symbolSize).bind fun data2 =>
      Block.store result 0 (List.zipWith gf256Add data1 data2)

/-- `symbol_add_scaled`. -/
def symbolAddScaled (symbol1 : List Gf256) (coef : Gf256) (symbol2 : List Gf256)
    (symbolSize : Nat) : Option (List Gf256) :=
  (Block.load symbol1 0 symbolSize).bind fun data1 =>
    (Block.load symbol2 0 symbolSize).bind fun data2 =>
      Block.store symbol1 0
        (List.zipWith (fun a b => gf256Add a (gf256Mul coef b)) data1 data2)

/-! ### The structure -/

/-- `SYMBOL_ID_NONE`. -/
def symbolIdNone : Nat := 0xffffffff

/-- `swif_full_symbol_t`. `coef[0]` is the coefficient of `firstId`. -/
structure FullSymbol where
  coef : List Gf256
  firstId : Nat
  lastId : Nat
  firstNonzeroId : Nat
  lastNonzeroId : Nat
  data : List Gf256
  deriving DecidableEq, Repr

def fullSymbolGetSize (s : FullSymbol) : Nat := s.data.length
def fullSymbolGetMinSymbolId (s : FullSymbol) : Nat := s.firstNonzeroId
def fullSymbolGetMaxSymbolId (s : FullSymbol) : Nat := s.lastNonzeroId

def fullSymbolIsZero (s : FullSymbol) : Bool := fullSymbolGetMinSymbolId s == symbolIdNone

def fullSymbolHasOneId (s : FullSymbol) : Bool :=
  !fullSymbolIsZero s && fullSymbolGetMinSymbolId s == fullSymbolGetMaxSymbolId s

def fullSymbolIncludesId (s : FullSymbol) (symbolId : Nat) : Bool :=
  decide (s.firstId ≤ symbolId) && decide (symbolId ≤ s.lastId)

def fullSymbolGetCoef (s : FullSymbol) (symbolId : Nat) : Gf256 :=
  if fullSymbolIncludesId s symbolId then s.coef.getD (symbolId - s.firstId) 0 else 0

/-- `full_symbol_count_allocated_coef`. -/
def fullSymbolCountAllocatedCoef (s : FullSymbol) : Exec Nat := do
  if s.firstNonzeroId = symbolIdNone then
    cAssert (s.lastNonzeroId = symbolIdNone)
    return 0
  else
    cAssert (s.firstId ≤ s.lastId)
    return add32 (s.lastId - s.firstId) 1

/-! ### The cached bounds of the non-zero coefficients -/

/-- `full_symbol_adjust_min_coef`: scan upwards from `first_id`. -/
def fullSymbolAdjustMinCoef (s : FullSymbol) : Exec (FullSymbol × Bool) := do
  cAssert (s.firstId ≠ symbolIdNone ∧ s.lastId ≠ symbolIdNone)
  match (List.range' s.firstId (s.lastId + 1 - s.firstId)).find?
      fun i => fullSymbolGetCoef s i ≠ 0 with
  | some i => return ({ s with firstNonzeroId := i }, true)
  | none => return ({ s with firstNonzeroId := symbolIdNone }, false)

/-- `full_symbol_adjust_max_coef`: scan downwards from `last_id`. The number of
steps is read from the result of the other scan. -/
def fullSymbolAdjustMaxCoef (s : FullSymbol) : Exec (FullSymbol × Bool) := do
  cAssert (s.firstId ≠ symbolIdNone ∧ s.lastId ≠ symbolIdNone)
  let s := { s with lastNonzeroId := symbolIdNone }
  let count ← fullSymbolCountAllocatedCoef s
  match ((List.range count).map (sub32 s.lastId)).find? fun i => fullSymbolGetCoef s i ≠ 0 with
  | some i => return ({ s with lastNonzeroId := i }, true)
  | none => return (s, false)

/-- `full_symbol_adjust_min_max_coef`. -/
def fullSymbolAdjustMinMaxCoef (s : FullSymbol) : Exec (FullSymbol × Bool) := do
  if s.firstId = symbolIdNone then
    cAssert (s.lastId = symbolIdNone)
    return ({ s with firstNonzeroId := symbolIdNone, lastNonzeroId := symbolIdNone }, false)
  else
    let (s, result1) ← fullSymbolAdjustMinCoef s
    let (s, result2) ← fullSymbolAdjustMaxCoef s
    cAssert (result1 = result2)
    return (s, result1)

/-! ### Creation -/

/-- `full_symbol_alloc`. The empty range still has one coefficient cell. -/
def fullSymbolAlloc (firstSymbolId lastSymbolId symbolSize : Nat) : Exec FullSymbol := do
  let symbolIdSize ←
    if firstSymbolId = symbolIdNone then do
      cAssert (lastSymbolId = symbolIdNone)
      pure 1
    else do
      cAssert (firstSymbolId ≤ lastSymbolId)
      pure (add32 (lastSymbolId - firstSymbolId) 1)
  let (result, _) ← fullSymbolAdjustMinMaxCoef
    { coef := List.replicate symbolIdSize 0
      firstId := firstSymbolId
      lastId := lastSymbolId
      firstNonzeroId := 0
      lastNonzeroId := 0
      data := List.replicate symbolSize 0 }
  return result

/-- `full_symbol_create_from_source`. -/
def fullSymbolCreateFromSource (symbolId : Nat) (symbolData : List Gf256) (symbolSize : Nat) :
    Exec FullSymbol := do
  let s ← fullSymbolAlloc symbolId symbolId symbolSize
  cAssert (fullSymbolIncludesId s symbolId)
  let coef ← access .symbolCoef (Block.store s.coef (sub32 symbolId s.firstId) [1])
  let (s, _) ← fullSymbolAdjustMinMaxCoef { s with coef }
  let cells ← access .symbolBuf (Block.load symbolData 0 symbolSize)
  let data ← access .symbolData (Block.store s.data 0 cells)
  return { s with data }

/-- `full_symbol_create`. A NULL coefficient table is a block without cells. -/
def fullSymbolCreate (symbolCoefTable : List Gf256) (minSymbolId nbSymbolId : Nat)
    (symbolData : List Gf256) (symbolSize : Nat) : Exec FullSymbol := do
  let s ← fullSymbolAlloc minSymbolId (sub32 (add32 minSymbolId nbSymbolId) 1) symbolSize
  let coefs ← access .coefTab (Block.load symbolCoefTable 0 nbSymbolId)
  let coef ← access .symbolCoef (Block.store s.coef 0 coefs)
  let (s, _) ← fullSymbolAdjustMinMaxCoef
    { s with
      coef
      firstId := minSymbolId
      lastId := sub32 (add32 minSymbolId nbSymbolId) 1 }
  let cells ← access .symbolBuf (Block.load symbolData 0 symbolSize)
  let data ← access .symbolData (Block.store s.data 0 cells)
  return { s with data }

/-- `full_symbol_clone`. The coefficients and data of a zero symbol are not copied. -/
def fullSymbolClone (s : FullSymbol) : Exec FullSymbol := do
  let allocated ← fullSymbolAlloc s.firstId s.lastId (fullSymbolGetSize s)
  let result :=
    { allocated with
      firstId := s.firstId
      lastId := s.lastId
      firstNonzeroId := s.firstNonzeroId
      lastNonzeroId := s.lastNonzeroId }
  if fullSymbolIsZero s then return result
  let coefs ← access .symbolCoef (Block.load s.coef 0 (add32 (s.lastId - s.firstId) 1))
  let coef ← access .symbolCoef (Block.store result.coef 0 coefs)
  let data ← access .symbolData (Block.store result.data 0 s.data)
  return { result with coef, data }

/-! ### Arithmetic -/

/-- `full_symbol_scale`. -/
def fullSymbolScale (s : FullSymbol) (coef : Gf256) : Exec FullSymbol := do
  if s.firstId = symbolIdNone ∨ s.firstNonzeroId = symbolIdNone then return s
  cAssert (s.firstNonzeroId ≠ symbolIdNone ∧ s.lastNonzeroId ≠ symbolIdNone)
  let data ← access .symbolData (symbolMul s.data coef s.data.length)
  let count ← fullSymbolCountAllocatedCoef s
  let coefs ← access .symbolCoef (symbolMul s.coef coef count)
  let (s, _) ← fullSymbolAdjustMinMaxCoef { s with data, coef := coefs }
  return s

/-- `full_symbol_add_base`: the sum is written over `result`, whose identifier
range and size are already set. `full_symbol_add` passes no zero symbol; the branch
of the source for two of them is left out. -/
def fullSymbolAddBase (symbol1 symbol2 result : FullSymbol) : Exec FullSymbol := do
  cAssert (symbol1.data.length ≤ result.data.length ∧ symbol2.data.length ≤ result.data.length)
  cAssert (fullSymbolIncludesId result symbol1.firstNonzeroId)
  cAssert (fullSymbolIncludesId result symbol1.lastNonzeroId)
  cAssert (fullSymbolIncludesId result symbol2.firstNonzeroId)
  cAssert (fullSymbolIncludesId result symbol2.lastNonzeroId)
  let first := min symbol1.firstNonzeroId symbol2.firstNonzeroId
  let last := max symbol1.lastNonzeroId symbol2.lastNonzeroId
  let coef ← access .symbolCoef (Block.fill result.coef 0 (first - result.firstId) 0)
  let coef ← access .symbolCoef
    (Block.fill coef (last + 1 - result.firstId) (result.lastId - last) 0)
  let coef ← access .symbolCoef (Block.store coef (first - result.firstId)
    ((List.range' first (last + 1 - first)).map fun i =>
      gf256Add (fullSymbolGetCoef symbol1 i) (fullSymbolGetCoef symbol2 i)))
  let (result, _) ← fullSymbolAdjustMinMaxCoef { result with coef }
  let (long, short) :=
    if symbol2.data.length ≤ symbol1.data.length then (symbol1.data, symbol2.data)
    else (symbol2.data, symbol1.data)
  let data ← access .symbolData
    (symbolAdd symbol1.data symbol2.data short.length result.data)
  let data ← access .symbolData (Block.store data short.length (long.drop short.length))
  let data ← access .symbolData
    (Block.fill data long.length (result.data.length - long.length) 0)
  return { result with data }

/-- `full_symbol_add`. -/
def fullSymbolAdd (symbol1 symbol2 : FullSymbol) : Exec FullSymbol := do
  if fullSymbolIsZero symbol1 && fullSymbolIsZero symbol2 then
    fullSymbolAlloc symbolIdNone symbolIdNone 0
  else if fullSymbolIsZero symbol1 then fullSymbolClone symbol2
  else if fullSymbolIsZero symbol2 then fullSymbolClone symbol1
  else
    let result ← fullSymbolAlloc (min symbol1.firstNonzeroId symbol2.firstNonzeroId)
      (max symbol1.lastNonzeroId symbol2.lastNonzeroId)
      (max symbol1.data.length symbol2.data.length)
    fullSymbolAddBase symbol1 symbol2 result

end SwifCodec
