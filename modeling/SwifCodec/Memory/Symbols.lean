import SwifCodec.Library.Heap
import SwifCodec.Memory.Table

/-!
The full symbols and their set, in memory: the functions of `swif_full_symbol_impl.c` that
allocate and free, with the pointers that they keep.

A full symbol and its two buffers are allocated and freed together and never exchanged, so they
are one block, and a pointer to any of them is its address. The contents of a block are computed
as in the other modules; what is followed here is which block is read, overwritten, stored and
freed. Storing a pivot replaces the block of every stored symbol. Memory allocation always
succeeds; the structure of the set and its table are not followed.
-/

namespace SwifCodec

open Library

/-- The full symbols in memory. -/
abbrev Memory := Heap FullSymbol

/-- A function of the codec, on the memory. -/
abbrev MemoryExec := HeapExec FullSymbol Fault

/-! ### Symbols -/

/-- `full_symbol_clone`. -/
def fullSymbolCloneAt (fullSymbol : ℕ) : MemoryExec ℕ := do
  let s ← HeapExec.read fullSymbol
  let result ← HeapExec.lift (fullSymbolClone s)
  HeapExec.alloc result

/-- `full_symbol_free`. -/
def fullSymbolFree (fullSymbol : ℕ) : MemoryExec Unit := HeapExec.free fullSymbol

/-- `full_symbol_adjust_min_max_coef`, where its result is not used. -/
def fullSymbolAdjustMinMaxCoefAt (symbol : ℕ) : MemoryExec Unit := do
  let s ← HeapExec.read symbol
  let (s, _) ← HeapExec.lift (fullSymbolAdjustMinMaxCoef s)
  HeapExec.write symbol s

/-- `full_symbol_scale`. -/
def fullSymbolScaleAt (symbol1 : ℕ) (coef : Gf256) : MemoryExec Unit := do
  let s ← HeapExec.read symbol1
  let s ← HeapExec.lift (fullSymbolScale s coef)
  HeapExec.write symbol1 s

/-- `full_symbol_add`. -/
def fullSymbolAddAt (symbol1 symbol2 : ℕ) : MemoryExec ℕ := do
  let s1 ← HeapExec.read symbol1
  let s2 ← HeapExec.read symbol2
  let result ← HeapExec.lift (fullSymbolAdd s1 s2)
  HeapExec.alloc result

/-! ### The set -/

/-- The symbol in the slot of a new one is freed. -/
def freeSlot (set : SymbolTable ℕ) (idxPos : Nat) : MemoryExec Unit :=
  if idxPos < set.size then do
    match ← HeapExec.lift (access .pivotTab set.fullSymbolTab[idxPos]?) with
    | some old => fullSymbolFree old
    | none => pure ()
  else pure ()

/-- `full_symbol_set_add`. -/
def fullSymbolSetAddAt (set : SymbolTable ℕ) (fullSymbol : ℕ) :
    MemoryExec (SymbolTable ℕ × Nat) := do
  let s ← HeapExec.read fullSymbol
  if fullSymbolIsZero s then return (set, entryIndexNone)
  let pointer ← fullSymbolCloneAt fullSymbol
  let cloned ← HeapExec.read pointer
  let newI0 := cloned.firstNonzeroId
  let setI0 := if set.firstSymbolId = symbolIdNone then newI0 else set.firstSymbolId
  if newI0 < setI0 then HeapExec.lift (set.addBelow pointer newI0 setI0)
  else
    freeSlot set (newI0 - setI0)
    HeapExec.lift (set.addAbove pointer newI0 setI0)

/-- The loop of `full_symbol_set_remove_each_pivot`, at identifier `i`. -/
def removeEachPivotLoopAt (set : SymbolTable ℕ) :
    (rounds i : Nat) → (newSymbol : ℕ) → (isZero : Bool) → MemoryExec (Option ℕ)
  | 0, _, _, _ => HeapExec.lift (.error .diverges)
  | rounds + 1, i, newSymbol, isZero => do
      let s ← HeapExec.read newSymbol
      if s.lastNonzeroId < i then
        if isZero then
          fullSymbolFree newSymbol
          return none
        else return some newSymbol
      else if fullSymbolGetCoef s i = 0 then
        removeEachPivotLoopAt set rounds (add32 i 1) newSymbol isZero
      else
        match ← HeapExec.lift (set.getPivot i) with
        | some symbolPivot =>
            let cloned ← fullSymbolCloneAt symbolPivot
            fullSymbolScaleAt cloned (fullSymbolGetCoef s i)
            let symbol2 ← fullSymbolAddAt newSymbol cloned
            let sum ← HeapExec.read symbol2
            if fullSymbolIsZero sum then
              fullSymbolFree symbol2
              fullSymbolFree cloned
              removeEachPivotLoopAt set rounds (add32 i 1) newSymbol isZero
            else
              fullSymbolFree newSymbol
              fullSymbolFree cloned
              removeEachPivotLoopAt set rounds (add32 i 1) symbol2 isZero
        | none => removeEachPivotLoopAt set rounds (add32 i 1) newSymbol false

/-- `full_symbol_set_remove_each_pivot`. -/
def fullSymbolSetRemoveEachPivotAt (set : SymbolTable ℕ) (newSymbol1 : ℕ) :
    MemoryExec (Option ℕ) := do
  let newSymbol ← fullSymbolCloneAt newSymbol1
  fullSymbolAdjustMinMaxCoefAt newSymbol
  let s ← HeapExec.read newSymbol
  if s.firstNonzeroId = symbolIdNone then
    fullSymbolFree newSymbol
    return none
  else removeEachPivotLoopAt set 4294967296 s.firstNonzeroId newSymbol true

/-- A call of `full_symbol_set_notify_decoded`, with the set and the memory of that moment. -/
structure NotificationAt where
  set : SymbolTable ℕ
  memory : Memory
  decodedId : Nat
  deriving DecidableEq, Repr

/-- One round of the loop of `full_symbol_set_add_as_pivot`: the symbol in slot `i` is replaced
by a new one, and freed. -/
def addAsPivotStepAt (newSymbol firstIndex : Nat) (acc : SymbolTable ℕ × List NotificationAt)
    (i : Nat) : MemoryExec (SymbolTable ℕ × List NotificationAt) := do
  let (set, notified) := acc
  match ← HeapExec.lift (access .pivotTab set.fullSymbolTab[i]?) with
  | none => return (set, notified)
  | some pointer =>
      let cloned ← fullSymbolCloneAt newSymbol
      let row ← HeapExec.read pointer
      fullSymbolScaleAt cloned (fullSymbolGetCoef row firstIndex)
      let symbol2 ← fullSymbolAddAt pointer cloned
      let sum ← HeapExec.read symbol2
      let isDecoded := !fullSymbolHasOneId row && fullSymbolHasOneId sum
      fullSymbolFree pointer
      let tab ← HeapExec.lift (access .pivotTab (Block.store set.fullSymbolTab i [some symbol2]))
      fullSymbolFree cloned
      let set := { set with fullSymbolTab := tab }
      if isDecoded then
        let si := fullSymbolGetMinSymbolId sum
        HeapExec.lift (cAssert (fullSymbolGetCoef sum si = 1))
        let memory ← HeapExec.heap
        return (set, notified ++ [{ set, memory, decodedId := si }])
      else return (set, notified)

/-- `full_symbol_set_add_as_pivot`, with the slot of the new symbol. -/
def fullSymbolSetAddAsPivotAt (set : SymbolTable ℕ) (newSymbol : ℕ) :
    MemoryExec (SymbolTable ℕ × List NotificationAt × Nat) := do
  fullSymbolAdjustMinMaxCoefAt newSymbol
  let s ← HeapExec.read newSymbol
  if s.firstNonzeroId = symbolIdNone then return (set, [], entryIndexNone)
  else
    fullSymbolScaleAt newSymbol (gf256Inv (fullSymbolGetCoef s s.firstNonzeroId))
    let s ← HeapExec.read newSymbol
    let (set, notified) ←
      (List.range set.size).foldlM (addAsPivotStepAt newSymbol s.firstNonzeroId) (set, [])
    let (set, idx) ← fullSymbolSetAddAt set newSymbol
    return (set, notified, idx)

/-- `full_symbol_add_with_elimination`. -/
def fullSymbolAddWithEliminationAt (set : SymbolTable ℕ) (newSymbol : ℕ) :
    MemoryExec (SymbolTable ℕ × List NotificationAt) := do
  match ← fullSymbolSetRemoveEachPivotAt set newSymbol with
  | none => return (set, [])
  | some reduced =>
      let (set, notified, idx) ← fullSymbolSetAddAsPivotAt set reduced
      fullSymbolFree reduced
      if idx = entryIndexNone then return (set, notified)
      let slot ← HeapExec.lift (access .pivotTab set.fullSymbolTab[idx]?)
      let s ← HeapExec.read newSymbol
      if fullSymbolHasOneId s then return (set, notified)
      match slot with
      | none => HeapExec.lift (.error .nullDereference)
      | some pointer =>
          let stored ← HeapExec.read pointer
          if fullSymbolHasOneId stored then
            let si := fullSymbolGetMinSymbolId stored
            HeapExec.lift (cAssert (fullSymbolGetCoef stored si = 1))
            let memory ← HeapExec.heap
            return (set, notified ++ [{ set, memory, decodedId := si }])
          else return (set, notified)

/-- `full_symbol_set_free`, for what is in the table. -/
def fullSymbolSetFree (set : SymbolTable ℕ) : MemoryExec Unit :=
  (List.range set.size).foldlM (fun _ i => freeSlot set i) ()

end SwifCodec
