import SwifCodec.FullSymbol.Basic

/-!
The set of full symbols and its Gaussian elimination: the set part of
`swif_full_symbol_impl.c`.

Slot `k` of the pivot table is for the symbol whose first non-zero identifier is
`firstSymbolId + k`. The table is the list of its slots, `none` for a NULL
pointer. Functions return the updated set, and where the source calls
`full_symbol_set_notify_decoded` they return the notifications in the order of
the calls, each with the set as it is at that moment.
-/

namespace SwifCodec

open Library

/-- `FULL_SYMBOL_SET_INITIAL_SIZE`. -/
def fullSymbolSetInitialSize : Nat := 16

/-- `ENTRY_INDEX_NONE`. -/
def entryIndexNone : Nat := 0xffffffff

/-- `swif_full_symbol_set_t`. -/
structure FullSymbolSet where
  size : Nat
  firstSymbolId : Nat
  nmbrPackets : Nat
  fullSymbolTab : List (Option FullSymbol)
  deriving DecidableEq, Repr

/-- A call of `full_symbol_set_notify_decoded`. -/
structure Notification where
  set : FullSymbolSet
  decodedId : Nat
  deriving DecidableEq, Repr

/-- `full_symbol_set_alloc`. -/
def fullSymbolSetAlloc : FullSymbolSet where
  size := fullSymbolSetInitialSize
  firstSymbolId := symbolIdNone
  nmbrPackets := 0
  fullSymbolTab := List.replicate fullSymbolSetInitialSize none

/-! ### Insertion -/

/-- Cells of a table during reallocation; `none` is a cell not yet written. -/
abbrev RawTab := List (Option (Option FullSymbol))

/-- `realloc` of the pivot table to `size` cells. -/
def reallocTab (tab : List (Option FullSymbol)) (size : Nat) : RawTab :=
  (tab.map some).take size ++ List.replicate (size - tab.length) none

/-- Use a table all of whose cells have been written. -/
def initialisedTab (cells : RawTab) : Exec (List (Option FullSymbol)) :=
  match cells.mapM id with
  | some tab => .ok tab
  | none => .error .uninitialised

/-- The rows moved up by `shift` slots, with the size of the table. -/
def shiftTab (set : FullSymbolSet) (shift : Nat) : Exec (Nat × RawTab) := do
  if shift < set.size then
    let cells ← access .pivotTab
      (Block.move (set.fullSymbolTab.map some) shift 0 (set.size - shift))
    return (set.size, cells)
  else
    let size := if shift < mul32 set.size 2 then mul32 set.size 2 else add32 shift 1
    let cells ← access .pivotTab (Block.move (reallocTab set.fullSymbolTab size) shift 0 set.size)
    return (size, cells)

/-- `full_symbol_set_add`, when the new symbol starts below the set. -/
def fullSymbolSetAddBelow (set : FullSymbolSet) (cloned : FullSymbol) (setI0 : Nat) :
    Exec (FullSymbolSet × Nat) := do
  let newI0 := cloned.firstNonzeroId
  let (size, cells) ← shiftTab set (setI0 - newI0)
  let cells ← access .pivotTab (Block.fill cells 0 (setI0 - newI0) (some none))
  let cells ← access .pivotTab (Block.store cells 0 [some (some cloned)])
  let tab ← initialisedTab cells
  return ({ size, firstSymbolId := min setI0 newI0, nmbrPackets := add32 set.nmbrPackets 1,
            fullSymbolTab := tab }, newI0 - min setI0 newI0)

/-- A table in which slot `idxPos` exists, with its size. -/
def growTab (set : FullSymbolSet) (idxPos : Nat) : Exec (Nat × List (Option FullSymbol)) := do
  if idxPos < set.size then
    return (set.size, set.fullSymbolTab)
  else
    let size := if idxPos < mul32 set.size 2 then mul32 set.size 2 else add32 idxPos 1
    cAssert (idxPos < size)
    let cells ← access .pivotTab
      (Block.fill (reallocTab set.fullSymbolTab size) set.size (sub32 size set.size) (some none))
    let tab ← initialisedTab cells
    return (size, tab)

/-- `full_symbol_set_add`, when the new symbol does not start below the set. A
symbol already stored in its slot is overwritten. -/
def fullSymbolSetAddAbove (set : FullSymbolSet) (cloned : FullSymbol) (setI0 : Nat) :
    Exec (FullSymbolSet × Nat) := do
  let idxPos := cloned.firstNonzeroId - setI0
  let (size, tab) ← growTab set idxPos
  let tab ← access .pivotTab (Block.store tab idxPos [some cloned])
  return ({ size, firstSymbolId := setI0, nmbrPackets := add32 set.nmbrPackets 1,
            fullSymbolTab := tab }, idxPos)

/-- `full_symbol_set_add`: store a copy and return its slot. -/
def fullSymbolSetAdd (set : FullSymbolSet) (fullSymbol : FullSymbol) :
    Exec (FullSymbolSet × Nat) := do
  if fullSymbolIsZero fullSymbol then return (set, entryIndexNone)
  let cloned ← fullSymbolClone fullSymbol
  let setI0 :=
    if set.firstSymbolId = symbolIdNone then cloned.firstNonzeroId else set.firstSymbolId
  if cloned.firstNonzeroId < setI0 then fullSymbolSetAddBelow set cloned setI0
  else fullSymbolSetAddAbove set cloned setI0

/-! ### Elimination -/

/-- `full_symbol_set_get_pivot`. -/
def fullSymbolSetGetPivot (set : FullSymbolSet) (symbolId : Nat) : Exec (Option FullSymbol) :=
  if set.firstSymbolId ≤ symbolId ∧ symbolId < add32 set.size set.firstSymbolId then
    access .pivotTab set.fullSymbolTab[symbolId - set.firstSymbolId]?
  else .ok none

/-- The loop of `full_symbol_set_remove_each_pivot`, at identifier `i`. Its bound
is read again from the current symbol in each round. -/
def removeEachPivotLoop (set : FullSymbolSet) :
    (rounds i : Nat) → FullSymbol → (isZero : Bool) → Exec (Option FullSymbol)
  | 0, _, _, _ => .error .diverges
  | rounds + 1, i, newSymbol, isZero =>
      if newSymbol.lastNonzeroId < i then
        return if isZero then none else some newSymbol
      else if fullSymbolGetCoef newSymbol i = 0 then
        removeEachPivotLoop set rounds (add32 i 1) newSymbol isZero
      else do
        match ← fullSymbolSetGetPivot set i with
        | some symbolPivot =>
            let cloned ← fullSymbolClone symbolPivot
            let cloned ← fullSymbolScale cloned (fullSymbolGetCoef newSymbol i)
            let symbol2 ← fullSymbolAdd newSymbol cloned
            if fullSymbolIsZero symbol2 then
              removeEachPivotLoop set rounds (add32 i 1) newSymbol isZero
            else
              removeEachPivotLoop set rounds (add32 i 1) symbol2 isZero
        | none => removeEachPivotLoop set rounds (add32 i 1) newSymbol false

/-- `full_symbol_set_remove_each_pivot`. The loop counts a `uint32_t`. -/
def fullSymbolSetRemoveEachPivot (set : FullSymbolSet) (newSymbol1 : FullSymbol) :
    Exec (Option FullSymbol) := do
  let newSymbol ← fullSymbolClone newSymbol1
  let (newSymbol, _) ← fullSymbolAdjustMinMaxCoef newSymbol
  if newSymbol.firstNonzeroId = symbolIdNone then return none
  removeEachPivotLoop set 4294967296 newSymbol.firstNonzeroId newSymbol true

/-- One round of the loop of `full_symbol_set_add_as_pivot`: clear the new pivot
in slot `i`. -/
def addAsPivotStep (newSymbol : FullSymbol) (acc : FullSymbolSet × List Notification) (i : Nat) :
    Exec (FullSymbolSet × List Notification) := do
  let (set, notified) := acc
  match ← access .pivotTab set.fullSymbolTab[i]? with
  | none => return (set, notified)
  | some row =>
      let cloned ← fullSymbolClone newSymbol
      let cloned ← fullSymbolScale cloned (fullSymbolGetCoef row newSymbol.firstNonzeroId)
      let symbol2 ← fullSymbolAdd row cloned
      let isDecoded := !fullSymbolHasOneId row && fullSymbolHasOneId symbol2
      let tab ← access .pivotTab (Block.store set.fullSymbolTab i [some symbol2])
      let set := { set with fullSymbolTab := tab }
      if isDecoded then
        let si := fullSymbolGetMinSymbolId symbol2
        cAssert (fullSymbolGetCoef symbol2 si = 1)
        return (set, notified ++ [{ set, decodedId := si }])
      return (set, notified)

/-- `full_symbol_set_add_as_pivot`, with the slot of the new symbol. -/
def fullSymbolSetAddAsPivot (set : FullSymbolSet) (newSymbol : FullSymbol) :
    Exec (FullSymbolSet × List Notification × Nat) := do
  let (newSymbol, _) ← fullSymbolAdjustMinMaxCoef newSymbol
  if newSymbol.firstNonzeroId = symbolIdNone then return (set, [], entryIndexNone)
  let newSymbol ← fullSymbolScale newSymbol
    (gf256Inv (fullSymbolGetCoef newSymbol newSymbol.firstNonzeroId))
  let (set, notified) ← (List.range set.size).foldlM (addAsPivotStep newSymbol) (set, [])
  let (set, idx) ← fullSymbolSetAdd set newSymbol
  return (set, notified, idx)

/-- `full_symbol_add_with_elimination`. -/
def fullSymbolAddWithElimination (set : FullSymbolSet) (newSymbol : FullSymbol) :
    Exec (FullSymbolSet × List Notification) := do
  match ← fullSymbolSetRemoveEachPivot set newSymbol with
  | none => return (set, [])
  | some reduced =>
      let (set, notified, idx) ← fullSymbolSetAddAsPivot set reduced
      if idx = entryIndexNone then return (set, notified)
      let slot ← access .pivotTab set.fullSymbolTab[idx]?
      if fullSymbolHasOneId newSymbol then return (set, notified)
      match slot with
      | none => .error .nullDereference
      | some stored =>
          if fullSymbolHasOneId stored then
            let si := fullSymbolGetMinSymbolId stored
            cAssert (fullSymbolGetCoef stored si = 1)
            return (set, notified ++ [{ set, decodedId := si }])
          return (set, notified)

end SwifCodec
