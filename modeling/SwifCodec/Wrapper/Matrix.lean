import SwifCodec.FullSymbolSet.Basic
import SwifCodec.Wrapper.Info

/-!
Sets of full symbols as matrices, in the Python wrapper.

`get_matrix` lists the coefficients of the stored symbols in the order of their pivots,
padded with zeros to one width, and `compute_rref` feeds a matrix row by row into a fresh set
and reads its matrix. Python integers do not wrap, so the identifiers of the slots do not
either; the rows of a matrix are lists of bytes. NumPy is one before version 1.24, which still
has `np.int`; a later one has no array for any symbols.
-/

namespace SwifCodec

open Library

/-- Why a function of the wrapper does not return: the codec stops the program, or NumPy
raises an exception. -/
inductive WrapperFault where
  | codec (fault : Fault)
  | typeError
  | valueError
  deriving DecidableEq, Repr

/-- A call of the codec. -/
def callCodec {α : Type} (x : Exec α) : Except WrapperFault α := x.mapError .codec

namespace FullSymbolSet

/-- `FullSymbolSet.get_min_id`. -/
def getMinId (set : FullSymbolSet) : Nat := set.firstSymbolId

/-- `FullSymbolSet.get_max_id`. -/
def getMaxId (set : FullSymbolSet) : Nat := set.getMinId + set.size - 1

/-- `FullSymbolSet.get`: a copy of the symbol of a pivot. -/
def get (set : FullSymbolSet) (pivotId : Nat) : Exec (Option FullSymbol) := do
  if pivotId < set.getMinId ∨ set.getMaxId < pivotId then return none
  match ← access .pivotTab set.fullSymbolTab[pivotId - set.getMinId]? with
  | some fs => do
      let result ← fullSymbolClone fs
      return some result
  | none => return none

end FullSymbolSet

/-- `to_int_list` of `to_matrix`, to a width of `max_id + 1`. -/
def toIntList (width : Nat) (coefs : Nat × List Gf256) : List Gf256 :=
  let result := List.replicate coefs.1 0 ++ coefs.2
  result ++ List.replicate (width - result.length) 0

/-- `to_matrix`, with a NumPy before 1.24. For no symbols it calls `np.array` with a keyword the
function does not have; rows of different lengths are no array of integers. -/
def toMatrix (symbolList : List FullSymbol) (nbCol : Option Nat) :
    Except WrapperFault (List (List Gf256)) :=
  match symbolList with
  | [] => .error .typeError
  | symbol :: rest =>
      let maxId := (rest.map fullSymbolGetMaxSymbolId).foldl max (fullSymbolGetMaxSymbolId symbol)
      let width := nbCol.getD (maxId + 1)
      let first := toIntList width symbol.getCoefs
      let others := rest.map fun s => toIntList width s.getCoefs
      if others.all fun row => row.length == first.length then .ok (first :: others)
      else .error .valueError

/-- `FullSymbolSet.get_matrix`. -/
def FullSymbolSet.getMatrix (set : FullSymbolSet) (nbCol : Option Nat) :
    Except WrapperFault (List (List Gf256)) := do
  let ids := List.range' set.getMinId (set.getMaxId + 1 - set.getMinId)
  let symbols ← callCodec (ids.mapM set.get)
  toMatrix (symbols.filterMap id) nbCol

/-- The loop of `compute_rref`: submit the rows of a matrix as symbols without data. -/
def addRow (set : FullSymbolSet) (row : List Gf256) : Exec FullSymbolSet := do
  let symbol ← FullSymbol.initFromInfo (0, row, [])
  let (set, _) ← fullSymbolAddWithElimination set symbol
  return set

/-- `compute_rref`. -/
def computeRref (rows : List (List Gf256)) : Except WrapperFault (List (List Gf256)) :=
  match rows with
  | [] => .ok []
  | row :: _ => do
      let set ← callCodec (rows.foldlM addRow fullSymbolSetAlloc)
      set.getMatrix (some row.length)

end SwifCodec
