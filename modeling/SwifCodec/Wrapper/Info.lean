import SwifCodec.FullSymbol.Creation

/-!
The class `FullSymbol` of the Python wrapper: a full symbol as a tuple.

`get_info` returns the first non-zero identifier, the coefficients from there to the last
non-zero one, and the data; `init_from_info` builds a symbol from such a tuple. The tuple
names the linear combination whatever identifier range the symbol was allocated with
(`getInfo_eq_iff`), and a symbol built from it is that combination (`initFromInfo_getInfo`).
The tuple of a zero symbol has no coefficients, and a symbol cannot be built from it: the
last identifier of the empty range from 0 is `SYMBOL_ID_NONE`, which fails an assertion.
-/

namespace SwifCodec

open Library

/-- `full_symbol_count_coef`. -/
def fullSymbolCountCoef (s : FullSymbol) : Nat :=
  if fullSymbolGetMinSymbolId s = symbolIdNone then 0
  else add32 (sub32 (fullSymbolGetMaxSymbolId s) (fullSymbolGetMinSymbolId s)) 1

/-- `full_symbol_get_data`. -/
def fullSymbolGetData (s : FullSymbol) : List Gf256 := s.data

namespace FullSymbol

/-- `FullSymbol.get_coefs`. -/
def getCoefs (s : FullSymbol) : Nat × List Gf256 :=
  if fullSymbolIsZero s then (0, [])
  else
    let minId := fullSymbolGetMinSymbolId s
    (minId, (List.range (fullSymbolCountCoef s)).map fun i => fullSymbolGetCoef s (minId + i))

/-- `FullSymbol.get_info`. -/
def getInfo (s : FullSymbol) : Nat × List Gf256 × List Gf256 :=
  ((getCoefs s).1, (getCoefs s).2, fullSymbolGetData s)

/-- `FullSymbol.init_from_info`, for a tuple of three. -/
def initFromInfo (info : Nat × List Gf256 × List Gf256) : Exec FullSymbol :=
  fullSymbolCreate info.2.1 info.1 info.2.1.length info.2.2 info.2.2.length

section Info

variable {s t : FullSymbol}

theorem getCoefs_of_zero (zero : fullSymbolIsZero s = true) : s.getCoefs = (0, []) := if_pos zero

/-- The coefficients of a non-zero symbol are those between its two bounds. -/
theorem getCoefs_of_nonzero (wf : s.WellFormed) (nz : fullSymbolIsZero s = false) :
    s.getCoefs = (s.firstNonzeroId, (List.range (s.lastNonzeroId - s.firstNonzeroId + 1)).map
      fun i => s.coefs (s.firstNonzeroId + i)) := by
  have size : symbolIdNone = 4294967295 := rfl
  have ordered := (wf.bounded nz).2.ordered
  have last_lt := wf.last_lt nz
  have count : fullSymbolCountCoef s = s.lastNonzeroId - s.firstNonzeroId + 1 := by
    unfold fullSymbolCountCoef fullSymbolGetMinSymbolId fullSymbolGetMaxSymbolId
    rw [if_neg (by omega), sub32_of_le ordered (by omega), add32_of_lt (by omega)]
  unfold getCoefs
  rw [nz, if_neg Bool.false_ne_true, count]
  refine congrArg (Prod.mk s.firstNonzeroId) (List.map_congr_left fun i mem => ?_)
  have lt := List.mem_range.mp mem
  exact wf.getCoef_eq (by show s.firstNonzeroId + i < symbolIdNone; omega)

/-- Reading the listed coefficients at their identifiers gives the coefficient function. -/
theorem getCoefs_getD (wf : s.WellFormed) (nz : fullSymbolIsZero s = false) (i : ℕ) :
    (if s.getCoefs.1 ≤ i then s.getCoefs.2.getD (i - s.getCoefs.1) 0 else 0) = s.coefs i := by
  have ordered := (wf.bounded nz).2.ordered
  rw [getCoefs_of_nonzero wf nz]
  dsimp only
  by_cases le : s.firstNonzeroId ≤ i
  · rw [if_pos le, List.getD_eq_getElem?_getD, List.getElem?_map]
    rcases Nat.lt_or_ge s.lastNonzeroId i with gt | inside
    · rw [List.getElem?_eq_none (by rw [List.length_range]; omega), wf.coefs_after nz gt]
      rfl
    · rw [List.getElem?_range (by omega)]
      show s.coefs (s.firstNonzeroId + (i - s.firstNonzeroId)) = s.coefs i
      rw [Nat.add_sub_cancel' le]
  · rw [if_neg le, wf.coefs_before nz (by omega)]

/-- A non-zero symbol lists at least one coefficient. -/
theorem getCoefs_length_pos (wf : s.WellFormed) (nz : fullSymbolIsZero s = false) :
    0 < s.getCoefs.2.length := by
  rw [getCoefs_of_nonzero wf nz]
  simp

/-- The tuple names the linear combination, and nothing else. -/
theorem getInfo_eq_iff (wfs : s.WellFormed) (wft : t.WellFormed) :
    s.getInfo = t.getInfo ↔ s.coefs = t.coefs ∧ s.data = t.data := by
  have zero_iff : ∀ {u : FullSymbol}, u.WellFormed →
      (fullSymbolIsZero u = true ↔ u.coefs = 0) := fun wf => wf.isZero_iff
  constructor
  · intro same
    obtain ⟨first, rest⟩ := Prod.mk.inj same
    obtain ⟨coefs, data⟩ := Prod.mk.inj rest
    refine ⟨?_, data⟩
    cases nzs : fullSymbolIsZero s with
    | true =>
        cases nzt : fullSymbolIsZero t with
        | true => rw [(zero_iff wfs).mp nzs, (zero_iff wft).mp nzt]
        | false =>
            have pos := getCoefs_length_pos wft nzt
            rw [← coefs, getCoefs_of_zero nzs] at pos
            exact absurd pos (lt_irrefl 0)
    | false =>
        have nzt : fullSymbolIsZero t = false := by
          by_contra zero
          have pos := getCoefs_length_pos wfs nzs
          rw [coefs, getCoefs_of_zero (Bool.not_eq_false _ ▸ zero)] at pos
          exact absurd pos (lt_irrefl 0)
        ext1 i
        rw [← getCoefs_getD wfs nzs, ← getCoefs_getD wft nzt, first, coefs]
  · rintro ⟨coefs, data⟩
    have same : s.getCoefs = t.getCoefs := by
      cases nz : fullSymbolIsZero s with
      | true =>
          have zero : fullSymbolIsZero t = true := by
            rw [zero_iff wft, ← coefs, ← zero_iff wfs, nz]
          rw [getCoefs_of_zero nz, getCoefs_of_zero zero]
      | false =>
          have nz' : fullSymbolIsZero t = false := by
            by_contra zero
            rw [Bool.not_eq_false, zero_iff wft, ← coefs, ← zero_iff wfs, nz] at zero
            cases zero
          obtain ⟨first, last⟩ := wfs.bounds_eq wft nz coefs
          rw [getCoefs_of_nonzero wfs nz, getCoefs_of_nonzero wft nz', first, last, coefs]
    rw [getInfo, getInfo, same, fullSymbolGetData, fullSymbolGetData, data]

/-- A tuple whose identifiers are valid makes the symbol with its coefficients and data. -/
theorem initFromInfo_spec (first : ℕ) (header data : List Gf256) (pos : 0 < header.length)
    (below : first + header.length ≤ symbolIdNone) :
    ∃ r, initFromInfo (first, header, data) = .ok r ∧ r.WellFormed ∧
      (∀ i, r.coefs i = if first ≤ i then header.getD (i - first) 0 else 0) ∧ r.data = data ∧
      r.Ranged := by
  obtain ⟨r, create_eq, wf, coefs, data_eq, ranged⟩ :=
    fullSymbolCreate_spec pos below le_rfl (le_refl data.length)
  refine ⟨r, create_eq, wf, fun i => ?_, by rw [data_eq, List.take_length], ranged⟩
  rw [coefs]
  by_cases le : first ≤ i
  · by_cases lt : i < first + header.length
    · rw [if_pos ⟨le, lt⟩, if_pos le]
    · rw [if_neg (fun both => lt both.2), if_pos le,
        List.getD_eq_getElem?_getD, List.getElem?_eq_none (by omega)]
      rfl
  · rw [if_neg (fun both => le both.1), if_neg le]

/-- A symbol built from the tuple of a non-zero symbol is the same combination, with the same
tuple; building one from the tuple of a zero symbol fails an assertion. -/
theorem initFromInfo_getInfo (s : FullSymbol) (wf : s.WellFormed) :
    (fullSymbolIsZero s = false → ∃ r, initFromInfo s.getInfo = .ok r ∧ r.WellFormed ∧
      r.coefs = s.coefs ∧ r.data = s.data ∧ r.getInfo = s.getInfo) ∧
    (fullSymbolIsZero s = true → initFromInfo s.getInfo = .error .assertion) := by
  have size : symbolIdNone = 4294967295 := rfl
  constructor
  · intro nz
    have last_lt := wf.last_lt nz
    have ordered := (wf.bounded nz).2.ordered
    have below : s.getCoefs.1 + s.getCoefs.2.length ≤ symbolIdNone := by
      rw [getCoefs_of_nonzero wf nz, List.length_map, List.length_range]
      omega
    obtain ⟨r, init_eq, wfr, coefs, data, -⟩ := initFromInfo_spec s.getCoefs.1 s.getCoefs.2 s.data
      (getCoefs_length_pos wf nz) below
    have same : r.coefs = s.coefs := by
      ext1 i
      rw [coefs, getCoefs_getD wf nz]
    exact ⟨r, init_eq, wfr, same, data, (getInfo_eq_iff wfr wf).mpr ⟨same, data⟩⟩
  · intro zero
    have bad : ¬ HeaderOk 0 0 := by
      rintro (⟨pos, -⟩ | ⟨-, one⟩)
      · exact absurd pos (lt_irrefl 0)
      · cases one
    unfold initFromInfo getInfo
    rw [getCoefs_of_zero zero]
    exact fullSymbolCreate_assertion (Nat.succ_pos _) (Nat.succ_pos _) bad

theorem initFromInfo_getInfo_padded :
    ∃ r, initFromInfo (FullSymbol.getInfo
        { coef := Gf256.bytes [0, 7, 0, 9, 0], firstId := 3, lastId := 7, firstNonzeroId := 4,
          lastNonzeroId := 6, data := Gf256.bytes [1] }) = .ok r ∧
      r.getInfo = (4, Gf256.bytes [7, 0, 9], Gf256.bytes [1]) := by
  obtain ⟨r, create_eq, wf, -⟩ := fullSymbolCreate_spec (show 0 < 5 by decide)
    (show 3 + 5 ≤ symbolIdNone by decide) (show 5 ≤ (Gf256.bytes [0, 7, 0, 9, 0]).length by decide)
    (show 1 ≤ (Gf256.bytes [1]).length by decide)
  have eq : fullSymbolCreate (Gf256.bytes [0, 7, 0, 9, 0]) 3 5 (Gf256.bytes [1]) 1 =
      .ok { coef := Gf256.bytes [0, 7, 0, 9, 0], firstId := 3, lastId := 7, firstNonzeroId := 4,
            lastNonzeroId := 6, data := Gf256.bytes [1] } := by decide +kernel
  rw [create_eq] at eq
  cases eq
  obtain ⟨r, init_eq, -, -, -, info⟩ := (initFromInfo_getInfo _ wf).1 rfl
  exact ⟨r, init_eq, info.trans (by decide +kernel)⟩

end Info

end FullSymbol

end SwifCodec
