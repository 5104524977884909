import SwifCodec.FullSymbolSet.Basic
import SwifCodec.FullSymbol.Creation
import SwifCodec.Library.Echelon

/-!
What a set of full symbols stands for.

`rowAt` reads the pivot table by identifier, and `coefRows` is the family of
coefficient functions found there, a family of rows in the sense of
`Library.Rows`. The invariant of the set (`Invariant`) says that the table has
its declared size, that the stored symbols are well formed, and that their
coefficients are in reduced row echelon form.
-/

namespace SwifCodec

open Library FullSymbol

namespace FullSymbolSet

/-- The symbol stored for a pivot identifier. -/
def rowAt (set : FullSymbolSet) (id : ℕ) : Option FullSymbol :=
  if set.firstSymbolId ≤ id then set.fullSymbolTab.getD (id - set.firstSymbolId) none else none

/-- The row of an identifier is a single source symbol. -/
def Decodes (set : FullSymbolSet) (id : ℕ) : Prop :=
  ∃ row, set.rowAt id = some row ∧ fullSymbolHasOneId row = true

instance (set : FullSymbolSet) (id : ℕ) : Decidable (set.Decodes id) :=
  decidable_of_iff ((set.rowAt id).any fullSymbolHasOneId = true) (Option.any_eq_true _ _)

/-- The coefficient functions of the stored symbols, by pivot identifier. -/
noncomputable def coefRows (set : FullSymbolSet) : Rows ℕ (ℕ →₀ Gf256) :=
  fun id => (set.rowAt id).map coefs

/-- The span of the coefficient functions of the stored symbols. -/
noncomputable def rowSpan (set : FullSymbolSet) : Submodule Gf256 (ℕ →₀ Gf256) :=
  set.coefRows.span Gf256

/-- The table has its declared size, and is empty before the first symbol. -/
structure TableOk (set : FullSymbolSet) : Prop where
  length : set.fullSymbolTab.length = set.size
  size_ge : 2 ≤ set.size
  size_lt : set.size < 4294967296
  first_le : set.firstSymbolId ≤ symbolIdNone
  empty : set.firstSymbolId = symbolIdNone → ∀ k, set.fullSymbolTab.getD k none = none

/-- The identifiers of the slots fit in a `uint32_t`: `first_symbol_id + size`
does not wrap. -/
def NoWrap (set : FullSymbolSet) : Prop :=
  set.firstSymbolId ≠ symbolIdNone → set.firstSymbolId + set.size < 4294967296

instance (set : FullSymbolSet) : Decidable set.NoWrap := inferInstanceAs (Decidable (_ → _))

/-- The invariant of a set between two calls. -/
structure Invariant (set : FullSymbolSet) : Prop extends TableOk set where
  wellFormed : ∀ {id row}, set.rowAt id = some row → row.WellFormed
  reduced : Reduced Finsupp.lapply set.coefRows

section

variable {set : FullSymbolSet} {id k : ℕ} {row : FullSymbol}

theorem rowAt_slot (k : ℕ) : set.rowAt (set.firstSymbolId + k) = set.fullSymbolTab.getD k none := by
  rw [rowAt, if_pos (by omega), Nat.add_sub_cancel_left]

theorem rowAt_below (h : id < set.firstSymbolId) : set.rowAt id = none := if_neg (by omega)

theorem getD_none_of_length_le {tab : List (Option FullSymbol)} (h : tab.length ≤ k) :
    tab.getD k none = none := by
  rw [List.getD_eq_getElem?_getD, List.getElem?_eq_none h, Option.getD_none]

theorem rowAt_above (ok : set.TableOk) (h : set.firstSymbolId + set.size ≤ id) :
    set.rowAt id = none := by
  have := ok.length
  rw [rowAt, if_pos (by omega), getD_none_of_length_le (by omega)]

/-- Rows are stored at identifiers of the table. -/
theorem bounds_of_rowAt (ok : set.TableOk) (h : set.rowAt id = some row) :
    set.firstSymbolId ≤ id ∧ id < set.firstSymbolId + set.size := by
  refine ⟨?_, ?_⟩
  · by_contra lt
    rw [rowAt_below (by omega)] at h
    cases h
  · by_contra ge
    rw [rowAt_above ok (by omega)] at h
    cases h

theorem rowAt_of_first_none (ok : set.TableOk) (none : set.firstSymbolId = symbolIdNone) (id : ℕ) :
    set.rowAt id = Option.none := by
  rw [rowAt, ok.empty none, ite_self]

/-- Every row identifier is below `SYMBOL_ID_NONE`. -/
theorem lt_none_of_rowAt (ok : set.TableOk) (wrap : set.NoWrap) (h : set.rowAt id = some row) :
    id < symbolIdNone := by
  have size : symbolIdNone = 4294967295 := rfl
  have bounds := bounds_of_rowAt ok h
  have first_ne : set.firstSymbolId ≠ symbolIdNone := by
    intro none
    rw [rowAt_of_first_none ok none] at h
    cases h
  have := wrap first_ne
  omega

/-- Reading a slot of the table. -/
theorem getElem?_slot (ok : set.TableOk) (h : k < set.size) :
    set.fullSymbolTab[k]? = some (set.rowAt (set.firstSymbolId + k)) := by
  have := ok.length
  rw [rowAt_slot, List.getD_eq_getElem?_getD, List.getElem?_eq_getElem (by omega), Option.getD_some]

theorem coefRows_eq_some {f : ℕ →₀ Gf256} :
    set.coefRows id = some f ↔ ∃ row, set.rowAt id = some row ∧ row.coefs = f := by
  simp [coefRows]

theorem coefRows_of_rowAt (h : set.rowAt id = some row) : set.coefRows id = some row.coefs := by
  simp [coefRows, h]

theorem coefs_mem_rowSpan (h : set.rowAt id = some row) : row.coefs ∈ set.rowSpan :=
  Rows.mem_span_of_row (coefRows_of_rowAt h)

end

section Invariant

variable {set : FullSymbolSet} (inv : set.Invariant) {p q : ℕ} {row row' : FullSymbol}
include inv

theorem Invariant.lead (h : set.rowAt p = some row) : row.coefs p = 1 :=
  inv.reduced.lead (coefRows_of_rowAt h)

theorem Invariant.before (h : set.rowAt p = some row) (lt : q < p) : row.coefs q = 0 :=
  inv.reduced.before (coefRows_of_rowAt h) lt

theorem Invariant.clear (h : set.rowAt p = some row) (h' : set.rowAt q = some row') (ne : p ≠ q) :
    row'.coefs p = 0 :=
  inv.reduced.clear (coefRows_of_rowAt h) (coefRows_of_rowAt h') ne

theorem Invariant.nonzero (h : set.rowAt p = some row) : fullSymbolIsZero row = false := by
  by_contra zero
  rw [Bool.not_eq_false, (inv.wellFormed h).isZero_iff] at zero
  have := inv.lead h
  rw [zero] at this
  exact zero_ne_one this

theorem Invariant.firstNonzeroId (h : set.rowAt p = some row) : row.firstNonzeroId = p :=
  (inv.wellFormed h).first_eq (inv.nonzero h) (by rw [inv.lead h]; exact one_ne_zero)
    fun _ hi => inv.before h hi

/-- The combinations of rows have no coefficient below the table. -/
theorem Invariant.rowSpan_below {f : ℕ →₀ Gf256} (mem : f ∈ set.rowSpan)
    (lt : p < set.firstSymbolId) : f p = 0 := by
  have le : set.rowSpan ≤ LinearMap.ker (Finsupp.lapply (R := Gf256) p) := by
    refine Rows.span_le.mpr fun q g h => ?_
    obtain ⟨row, hrow, rfl⟩ := coefRows_eq_some.mp h
    have := bounds_of_rowAt inv.toTableOk hrow
    exact inv.before hrow (by omega)
  exact le mem

/-- A stored symbol is a single source symbol exactly when it is the unit vector of its pivot. -/
theorem Invariant.hasOneId_iff (h : set.rowAt p = some row) :
    fullSymbolHasOneId row = true ↔ row.coefs = Finsupp.single p 1 := by
  rw [(inv.wellFormed h).hasOneId_iff, inv.firstNonzeroId h]
  constructor
  · rintro ⟨a, -, eq⟩
    have := inv.lead h
    rw [eq, Finsupp.single_eq_same] at this
    rw [eq, this]
  · intro eq
    exact ⟨1, one_ne_zero, eq⟩

/-- The unit vector of an identifier is a combination of rows exactly when its row is
that unit vector. -/
theorem Invariant.single_mem_rowSpan_iff (j : ℕ) :
    Finsupp.single j 1 ∈ set.rowSpan ↔ set.Decodes j := by
  constructor
  · intro mem
    have pivot : (set.coefRows j).isSome := by
      refine inv.reduced.pivot_iff.mpr ⟨_, mem, fun i lt => ?_, ?_⟩
      · exact Finsupp.single_eq_of_ne (by omega)
      · show (Finsupp.single j 1 : ℕ →₀ Gf256) j ≠ 0
        rw [Finsupp.single_eq_same]
        exact one_ne_zero
    obtain ⟨f, hf⟩ := Option.isSome_iff_exists.mp pivot
    obtain ⟨row, at_j, rfl⟩ := coefRows_eq_some.mp hf
    refine ⟨row, at_j, (inv.hasOneId_iff at_j).mpr ?_⟩
    -- Both are combinations of rows, and they agree at every pivot.
    refine inv.reduced.eq_of_mem_span (coefs_mem_rowSpan at_j) mem fun p u at_p => ?_
    obtain ⟨row', at_p', rfl⟩ := coefRows_eq_some.mp at_p
    show row.coefs p = (Finsupp.single j 1 : ℕ →₀ Gf256) p
    by_cases eq : p = j
    · rw [eq, inv.lead at_j, Finsupp.single_eq_same]
    · rw [inv.clear at_p' at_j eq, Finsupp.single_eq_of_ne eq]
  · rintro ⟨row, at_j, one⟩
    rw [← (inv.hasOneId_iff at_j).mp one]
    exact coefs_mem_rowSpan at_j

end Invariant

end FullSymbolSet

open FullSymbolSet

/-- A fresh set satisfies the invariant. -/
theorem fullSymbolSetAlloc_rowAt (id : ℕ) : fullSymbolSetAlloc.rowAt id = none := by
  rw [rowAt, fullSymbolSetAlloc, List.getD_eq_getElem?_getD, List.getElem?_replicate]
  split
  · split <;> rfl
  · rfl

theorem fullSymbolSetAlloc_invariant : fullSymbolSetAlloc.Invariant where
  length := rfl
  size_ge := by decide
  size_lt := by decide
  first_le := by decide
  empty _ k := by
    rw [fullSymbolSetAlloc, List.getD_eq_getElem?_getD, List.getElem?_replicate]
    split <;> rfl
  wellFormed h := by
    rw [fullSymbolSetAlloc_rowAt] at h
    cases h
  reduced := by
    have free : fullSymbolSetAlloc.coefRows = fun _ => none := by
      funext id
      rw [coefRows, fullSymbolSetAlloc_rowAt, Option.map_none]
    rw [free]
    exact ⟨nofun, nofun, nofun⟩

theorem fullSymbolSetAlloc_noWrap : fullSymbolSetAlloc.NoWrap := fun h => absurd rfl h

/-- A fresh set spans nothing. -/
theorem fullSymbolSetAlloc_rowSpan : fullSymbolSetAlloc.rowSpan = ⊥ := by
  refine le_bot_iff.mp (Rows.span_le.mpr fun p v h => ?_)
  rw [coefRows, fullSymbolSetAlloc_rowAt] at h
  cases h

/-- `full_symbol_set_get_pivot` reads the row of an identifier. -/
theorem fullSymbolSetGetPivot_spec {set : FullSymbolSet} (ok : set.TableOk) (wrap : set.NoWrap)
    (id : ℕ) : fullSymbolSetGetPivot set id = .ok (set.rowAt id) := by
  have size32 : symbolIdNone = 4294967295 := rfl
  have size_lt := ok.size_lt
  have size_ge := ok.size_ge
  have first_le := ok.first_le
  unfold fullSymbolSetGetPivot
  by_cases none : set.firstSymbolId = symbolIdNone
  · have wraps : add32 set.size set.firstSymbolId = set.size - 1 := by
      unfold add32
      omega
    rw [if_neg (by omega), rowAt_of_first_none ok none]
  · have := wrap none
    rw [add32_of_lt (by omega)]
    by_cases inside : set.firstSymbolId ≤ id ∧ id < set.size + set.firstSymbolId
    · rw [if_pos inside, getElem?_slot ok (by omega), access_some]
      congr 2
      omega
    · rw [if_neg inside]
      rcases not_and_or.mp inside with below | above
      · rw [rowAt_below (by omega)]
      · rw [rowAt_above ok (by omega)]

/-- A pivot that is found is the row of its identifier, also in a set that wraps. -/
theorem fullSymbolSetGetPivot_of_ok {set : FullSymbolSet} {id : ℕ} {row : FullSymbol}
    (ok : fullSymbolSetGetPivot set id = .ok (some row)) : set.rowAt id = some row := by
  unfold fullSymbolSetGetPivot at ok
  split at ok
  case isTrue inside =>
    rw [rowAt, if_pos inside.1, List.getD_eq_getElem?_getD, access_eq_ok.mp ok, Option.getD_some]
  case isFalse => cases ok

end SwifCodec
