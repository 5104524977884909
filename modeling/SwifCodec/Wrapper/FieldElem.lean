import Mathlib.Data.Fintype.BigOperators
import Mathlib.FieldTheory.Finite.Basic
import Mathlib.RingTheory.RootsOfUnity.PrimitiveRoots
import SwifCodec.Wrapper.Rref

/-!
The class `GF256Elem` of the Python wrapper: powers, roots of unity and subfields.

`__pow__` squares and multiplies, for any integer exponent. The wrapper lists the subfields
GF(16) and GF(4) as 0 and the roots of unity of order 15 and 3, and asks whether only elements
of a subfield GF(q) satisfy `x ** (q - 1) == 1`. They do, for every subfield
(`mem_subfield_iff`); and the roots of unity of an order make a subfield with 0 in exactly four
cases (`exists_subfield_iff`).
-/

namespace SwifCodec

open Library FullSymbol FullSymbolSet Gf256

/-! ### The class `GF256Elem` -/

/-- The loop of `GF256Elem.__pow__`. -/
def powLoop (result current : Gf256) (v1 : Nat) : Gf256 :=
  if 0 < v1 then
    powLoop (if v1 &&& 1 ≠ 0 then gf256Mul result current else result) (gf256Mul current current)
      (v1 >>> 1)
  else result
termination_by v1
decreasing_by
  rw [Nat.shiftRight_one]
  omega

/-- `GF256Elem.__pow__`, for an integer exponent and no modulus. -/
def gf256ElemPow (self : Gf256) (v1 : Int) : Gf256 :=
  if v1 < 0 then gf256Inv (powLoop 1 self (-v1).toNat) else powLoop 1 self v1.toNat

/-- `gf256_roots_of_unity`. -/
def gf256RootsOfUnity (p : Int) : List Gf256 :=
  ((List.range 256).map Gf256.ofNat).filter fun x => gf256ElemPow x p = 1

/-- `subfield_GF16`. -/
def subfieldGf16 : List Gf256 := 0 :: gf256RootsOfUnity 15

/-- `subfield_GF4`. -/
def subfieldGf4 : List Gf256 := 0 :: gf256RootsOfUnity 3

/-- The dictionary `{ x:i for i,x in enumerate(subfield) }`: the last entry of a key counts. -/
def indexInSubfield (subfield : List Gf256) (x : Gf256) : Option Nat :=
  (subfield.zipIdx.reverse.find? fun entry => entry.1 = x).map Prod.snd

/-- `as_gf16_int`. -/
def asGf16Int (elem : Gf256) : Option Nat := indexInSubfield subfieldGf16 elem

/-- `as_gf4_int`. -/
def asGf4Int (elem : Gf256) : Option Nat := indexInSubfield subfieldGf4 elem

/-- `make_gf16`; the assertion on `i` fails as `none`. -/
def makeGf16 (i : Int) : Option Gf256 :=
  if 0 ≤ i ∧ i < 16 then subfieldGf16[i.toNat]? else none

/-- `make_gf4`; the assertion on `i` fails as `none`. -/
def makeGf4 (i : Int) : Option Gf256 :=
  if 0 ≤ i ∧ i < 4 then subfieldGf4[i.toNat]? else none

/-! ### Powers -/

section Pow

variable {x : Gf256}

/-- Each round of the loop moves the lowest bit of the exponent into the result. -/
theorem powLoop_eq (result current : Gf256) (v1 : ℕ) :
    powLoop result current v1 = result * current ^ v1 := by
  induction v1 using Nat.strong_induction_on generalizing result current with
  | h v1 ih =>
      rw [powLoop]
      split
      case isFalse zero => rw [show v1 = 0 by omega, pow_zero, mul_one]
      case isTrue pos =>
        rw [ih (v1 >>> 1) (by rw [Nat.shiftRight_one]; omega), Nat.shiftRight_one,
          Nat.and_one_is_mod]
        have halves : v1 = 2 * (v1 / 2) + v1 % 2 := by omega
        have square : gf256Mul current current ^ (v1 / 2) = current ^ (2 * (v1 / 2)) := by
          rw [gf256Mul_eq, ← pow_two, ← pow_mul]
        rw [square]
        rcases Nat.mod_two_eq_zero_or_one v1 with even | odd
        · rw [if_neg (by omega), show 2 * (v1 / 2) = v1 by omega]
        · rw [if_pos (by omega), gf256Mul_eq, mul_assoc, ← pow_succ',
            show 2 * (v1 / 2) + 1 = v1 by omega]

/-- Powers are those of the field, for negative exponents too. -/
theorem gf256ElemPow_eq (x : Gf256) (p : ℤ) : gf256ElemPow x p = x ^ p := by
  unfold gf256ElemPow
  by_cases negative : p < 0
  · obtain ⟨k, eq⟩ : ∃ k : ℕ, p = -(k : ℤ) := ⟨(-p).toNat, by omega⟩
    rw [if_pos negative, powLoop_eq, one_mul, gf256Inv_eq, eq, neg_neg, Int.toNat_natCast,
      zpow_neg, zpow_natCast]
  · obtain ⟨k, eq⟩ : ∃ k : ℕ, p = k := ⟨p.toNat, by omega⟩
    rw [if_neg negative, powLoop_eq, one_mul, eq, Int.toNat_natCast, zpow_natCast]

theorem ofNat_toNat (x : Gf256) : Gf256.ofNat x.toNat = x := by
  ext1
  simp [Gf256.ofNat, Gf256.toNat]

theorem mem_all (x : Gf256) : x ∈ (List.range 256).map Gf256.ofNat :=
  List.mem_map.mpr ⟨x.toNat, List.mem_range.mpr x.bits.isLt, ofNat_toNat x⟩

theorem mem_gf256RootsOfUnity {p : ℤ} : x ∈ gf256RootsOfUnity p ↔ x ^ p = 1 := by
  rw [gf256RootsOfUnity, List.mem_filter, gf256ElemPow_eq, decide_eq_true_iff]
  exact and_iff_right (mem_all x)

end Pow

/-! ### Subfields -/

instance : Fintype Gf256 :=
  Fintype.ofEquiv (Fin 256)
    { toFun i := Gf256.ofNat i.1
      invFun x := ⟨x.toNat, x.bits.isLt⟩
      left_inv i := Fin.ext (by simp [Gf256.ofNat, Gf256.toNat])
      right_inv x := ofNat_toNat x }

theorem card_gf256 : Fintype.card Gf256 = 256 := by
  rw [Fintype.ofEquiv_card, Fintype.card_fin]

section Subfields

variable {x : Gf256} (K : Subfield Gf256)

/-- A subfield has 2, 4, 16 or 256 elements. -/
theorem card_subfield : ∃ k ∈ ({1, 2, 4, 8} : Finset ℕ), Nat.card K = 2 ^ k := by
  have := Fintype.ofFinite K
  have power := Module.card_eq_pow_finrank (K := K) (V := Gf256)
  rw [card_gf256, ← Nat.card_eq_fintype_card] at power
  have pos : Module.finrank K Gf256 ≠ 0 := Module.finrank_pos.ne'
  obtain ⟨k, -, eq⟩ := (Nat.dvd_prime_pow Nat.prime_two).mp
    (show Nat.card K ∣ 2 ^ 8 from ⟨Nat.card K ^ (Module.finrank K Gf256 - 1), by
      rw [← pow_succ', Nat.sub_one_add_one pos, ← power]
      rfl⟩)
  rw [eq, ← pow_mul] at power
  have eight : 8 = k * Module.finrank K Gf256 :=
    Nat.pow_right_injective le_rfl (show 2 ^ 8 = _ from power)
  have mem : k ∈ Nat.divisors 8 := Nat.mem_divisors.mpr ⟨⟨_, eight⟩, by decide⟩
  exact ⟨k, (show Nat.divisors 8 = {1, 2, 4, 8} by decide) ▸ mem, eq⟩

/-- A subfield GF(q) is 0 and the roots of unity of order `q - 1`, and only its elements
are. -/
theorem mem_subfield_iff_pow : x ∈ K ↔ x = 0 ∨ x ^ (Nat.card K - 1) = 1 := by
  classical
  have := Fintype.ofFinite K
  have card : Nat.card K = Fintype.card K := Nat.card_eq_fintype_card
  have order : 0 < Fintype.card K - 1 := Nat.sub_pos_of_lt Fintype.one_lt_card
  have root : ∀ y ∈ K, y ≠ 0 → y ^ (Nat.card K - 1) = 1 := by
    intro y mem ne
    have unit := FiniteField.pow_card_sub_one_eq_one (⟨y, mem⟩ : K) fun eq =>
      ne (congrArg Subtype.val eq)
    rw [card]
    exact congrArg Subtype.val unit
  constructor
  · intro mem
    by_cases zero : x = 0
    · exact .inl zero
    · exact .inr (root x mem zero)
  -- There are at most `q - 1` roots of unity of this order, and the subfield has as many.
  · rintro (rfl | unit)
    · exact K.zero_mem
    let units : Finset Gf256 := (Finset.univ.filter fun y : K => y ≠ 0).map
      (Function.Embedding.subtype _)
    have count : units.card = Fintype.card K - 1 := by
      rw [Finset.card_map, Finset.filter_ne', Finset.card_erase_of_mem (Finset.mem_univ _),
        Finset.card_univ]
    have inside : units ⊆ Polynomial.nthRootsFinset (Fintype.card K - 1) (1 : Gf256) := by
      intro y mem
      obtain ⟨z, mem_z, rfl⟩ := Finset.mem_map.mp mem
      have ne := (Finset.mem_filter.mp mem_z).2
      rw [Polynomial.mem_nthRootsFinset order, ← card]
      exact root z.1 z.2 fun eq => ne (Subtype.ext eq)
    have same := Finset.eq_of_subset_of_card_le inside
      (count ▸ (@Multiset.toFinset_card_le _ (_) _).trans (Polynomial.card_nthRoots _ _))
    have mem : x ∈ units := by
      rw [same, Polynomial.mem_nthRootsFinset order, ← card]
      exact unit
    obtain ⟨z, -, rfl⟩ := Finset.mem_map.mp mem
    exact z.2

/-- The fixed points of a power of the Frobenius map: `x ^ (2 ^ k) = x`. -/
noncomputable def fixedSubfield (k : ℕ) : Subfield Gf256 :=
  (iterateFrobenius Gf256 2 k).eqLocusField (RingHom.id Gf256)

theorem mem_fixedSubfield {k : ℕ} : x ∈ fixedSubfield k ↔ x ^ 2 ^ k = x := by
  rw [fixedSubfield, RingHom.mem_eqLocusField, iterateFrobenius_def, RingHom.id_apply]

/-- The powers of a non-zero element repeat with period 255. -/
theorem zpow_eq_one_iff_gcd {p : ℤ} (ne : x ≠ 0) : x ^ p = 1 ↔ x ^ Int.gcd p 255 = 1 := by
  obtain ⟨u, rfl⟩ : ∃ u : Gf256ˣ, (u : Gf256) = x := ⟨Units.mk0 x ne, rfl⟩
  have period : orderOf u ∣ 255 := by
    refine orderOf_dvd_of_pow_eq_one (Units.ext ?_)
    rw [Units.val_pow_eq_pow_val, show 255 = Fintype.card Gf256 - 1 by rw [card_gf256]]
    exact FiniteField.pow_card_sub_one_eq_one _ ne
  rw [← Units.val_zpow_eq_zpow_val, ← Units.val_pow_eq_pow_val, Units.val_eq_one,
    Units.val_eq_one, ← orderOf_dvd_iff_zpow_eq_one, ← orderOf_dvd_iff_pow_eq_one]
  constructor
  · exact fun divides => Int.natCast_dvd_natCast.mp
      (Int.dvd_coe_gcd divides (Int.natCast_dvd_natCast.mpr period))
  · exact fun divides => (Int.natCast_dvd_natCast.mpr divides).trans (Int.gcd_dvd_left ..)

/-- There are roots of unity of every order that divides 255. -/
theorem exists_orderOf {d : ℕ} (divides : d ∣ 255) : ∃ x : Gf256, x ≠ 0 ∧ orderOf x = d := by
  have generator : orderOf (Gf256.ofNat 2) = 255 := by
    refine orderOf_eq_of_pow_and_pow_div_prime (by decide) (by decide +kernel) fun q prime dvd => ?_
    have cases : q ∈ Nat.primeFactors 255 := Nat.mem_primeFactors.mpr ⟨prime, dvd, by decide⟩
    rw [show Nat.primeFactors 255 = {3, 5, 17} by decide +kernel] at cases
    fin_cases cases <;> decide +kernel
  obtain ⟨e, eq⟩ := divides
  have pos : e ≠ 0 := by
    rintro rfl
    omega
  refine ⟨Gf256.ofNat 2 ^ e, pow_ne_zero e (by decide), ?_⟩
  rw [orderOf_pow_of_dvd pos (by rw [generator, eq]; exact dvd_mul_left e d), generator, eq,
    Nat.mul_div_cancel _ (Nat.pos_of_ne_zero pos)]

end Subfields

/-- Every subfield GF(q) is 0 with the roots of unity of order `q - 1` as the wrapper lists
them, and `q` is 2, 4, 16 or 256. -/
theorem mem_subfield_iff (K : Subfield Gf256) :
    Nat.card K ∈ ({2, 4, 16, 256} : Finset ℕ) ∧
      ∀ x, x ∈ K ↔ x ∈ 0 :: gf256RootsOfUnity (Nat.card K - 1 : ℕ) := by
  constructor
  · obtain ⟨k, mem, eq⟩ := card_subfield K
    rw [eq]
    fin_cases mem <;> decide
  · intro x
    rw [List.mem_cons, mem_gf256RootsOfUnity, zpow_natCast]
    exact mem_subfield_iff_pow K

/-- The roots of unity of an order make a subfield with 0 exactly when the greatest common
divisor of the order and 255 is 1, 3, 15 or 255. -/
theorem exists_subfield_iff (p : ℤ) :
    (∃ K : Subfield Gf256, ∀ x, x ∈ K ↔ x ∈ 0 :: gf256RootsOfUnity p) ↔
      Int.gcd p 255 ∈ ({1, 3, 15, 255} : Finset ℕ) := by
  have listed : ∀ x, x ∈ 0 :: gf256RootsOfUnity p ↔ x = 0 ∨ x ^ Int.gcd p 255 = 1 := by
    intro x
    rw [List.mem_cons, mem_gf256RootsOfUnity]
    by_cases zero : x = 0
    · exact iff_of_true (.inl zero) (.inl zero)
    · rw [zpow_eq_one_iff_gcd zero]
  have divides : Int.gcd p 255 ∣ 255 := Int.natCast_dvd_natCast.mp (Int.gcd_dvd_right ..)
  generalize Int.gcd p 255 = g at listed divides
  constructor
  · rintro ⟨K, members⟩
    obtain ⟨k, mem, card⟩ := card_subfield K
    have roots : ∀ x : Gf256, x ≠ 0 → (x ^ g = 1 ↔ x ^ (2 ^ k - 1) = 1) := by
      intro x ne
      have same := (members x).symm.trans (mem_subfield_iff_pow K)
      rw [listed, card] at same
      simpa [ne] using same
    have order : 2 ^ k - 1 ∣ 255 := by fin_cases mem <;> decide
    have le : g ∣ 2 ^ k - 1 := by
      obtain ⟨x, ne, rfl⟩ := exists_orderOf divides
      exact orderOf_dvd_of_pow_eq_one ((roots x ne).mp (pow_orderOf_eq_one x))
    have ge : 2 ^ k - 1 ∣ g := by
      obtain ⟨x, ne, eq⟩ := exists_orderOf order
      rw [← eq]
      exact orderOf_dvd_of_pow_eq_one ((roots x ne).mpr (eq ▸ pow_orderOf_eq_one x))
    rw [Nat.dvd_antisymm le ge]
    fin_cases mem <;> decide
  · intro mem
    obtain ⟨k, eq⟩ : ∃ k, 2 ^ k = g + 1 := by
      fin_cases mem
      · exact ⟨1, rfl⟩
      · exact ⟨2, rfl⟩
      · exact ⟨4, rfl⟩
      · exact ⟨8, rfl⟩
    refine ⟨fixedSubfield k, fun x => ?_⟩
    rw [mem_fixedSubfield, listed, eq, pow_succ]
    by_cases zero : x = 0
    · simp [zero]
    · rw [mul_eq_right₀ zero]
      simp [zero]

/-! ### Indices in a subfield -/

section Index

variable {x : Gf256} {subfield : List Gf256} {i : ℕ}

/-- In a list without duplicates the dictionary gives the position of an element. -/
theorem indexInSubfield_eq_some_iff (nodup : subfield.Nodup) :
    indexInSubfield subfield x = some i ↔ subfield[i]? = some x := by
  have listed : ∀ {entry : Gf256 × ℕ}, entry ∈ subfield.zipIdx.reverse ↔
      subfield[entry.2]? = some entry.1 := by
    intro entry
    rw [List.mem_reverse, List.mem_zipIdx_iff_getElem?]
  unfold indexInSubfield
  rw [Option.map_eq_some_iff]
  constructor
  · rintro ⟨entry, found, rfl⟩
    have key := of_decide_eq_true (List.find?_some found :)
    rw [← key]
    exact listed.mp (List.mem_of_find?_eq_some found)
  · intro at_i
    have mem : (x, i) ∈ subfield.zipIdx.reverse := listed.mpr at_i
    have some : (subfield.zipIdx.reverse.find? fun entry => entry.1 = x).isSome :=
      List.find?_isSome.mpr ⟨(x, i), mem, decide_eq_true rfl⟩
    obtain ⟨entry, found⟩ := Option.isSome_iff_exists.mp some
    have key : entry.1 = x := of_decide_eq_true (List.find?_some found :)
    have at_entry := listed.mp (List.mem_of_find?_eq_some found)
    refine ⟨entry, found, ?_⟩
    obtain ⟨lt, -⟩ := List.getElem?_eq_some_iff.mp at_i
    exact ((List.getElem?_inj lt nodup).mp (at_i.trans (key ▸ at_entry.symm))).symm

theorem indexInSubfield_isSome_iff : (indexInSubfield subfield x).isSome ↔ x ∈ subfield := by
  rw [indexInSubfield, Option.isSome_map, List.find?_isSome]
  constructor
  · rintro ⟨entry, mem, key⟩
    rw [List.mem_reverse, List.mem_zipIdx_iff_getElem?] at mem
    rw [← of_decide_eq_true key]
    exact List.mem_of_getElem? mem
  · intro mem
    obtain ⟨i, at_i⟩ := List.mem_iff_getElem?.mp mem
    exact ⟨(x, i), List.mem_reverse.mpr (List.mem_zipIdx_iff_getElem?.mpr at_i),
      decide_eq_true rfl⟩

theorem nodup_gf256RootsOfUnity (p : ℤ) : (gf256RootsOfUnity p).Nodup := by
  refine List.Nodup.filter _ (List.Nodup.map_on (fun m mem n mem' eq => ?_) List.nodup_range)
  have value : ∀ k < 256, (Gf256.ofNat k).toNat = k := fun k lt => by
    simpa [Gf256.ofNat, Gf256.toNat] using lt
  rw [← value m (List.mem_range.mp mem), eq, value n (List.mem_range.mp mem')]

/-- The subfields of the wrapper list no element twice. -/
theorem nodup_subfield {p : ℕ} (pos : 0 < p) : (0 :: gf256RootsOfUnity p).Nodup := by
  refine List.nodup_cons.mpr ⟨fun mem => ?_, nodup_gf256RootsOfUnity p⟩
  rw [mem_gf256RootsOfUnity, zpow_natCast, zero_pow pos.ne'] at mem
  exact zero_ne_one mem

/-- The roots of unity of an order that divides 255 are as many as the order. -/
theorem length_gf256RootsOfUnity {d : ℕ} (divides : d ∣ 255) :
    (gf256RootsOfUnity d).length = d := by
  obtain ⟨x, ne, order⟩ := exists_orderOf divides
  have pos : 0 < d := Nat.pos_of_dvd_of_pos divides (by decide)
  have : NeZero d := ⟨pos.ne'⟩
  have primitive : IsPrimitiveRoot x d := order ▸ IsPrimitiveRoot.orderOf x
  rw [← List.toFinset_card_of_nodup (nodup_gf256RootsOfUnity d)]
  refine Eq.trans (congrArg Finset.card ?_) primitive.card_nthRootsFinset
  ext y
  rw [List.mem_toFinset, mem_gf256RootsOfUnity, zpow_natCast, Polynomial.mem_nthRootsFinset pos]

/-- The tables of `as_gf16_int` and `make_gf16`, for a subfield of `d + 1` elements. -/
structure IndexTables (d : ℕ) (asInt : Gf256 → Option ℕ) (make : ℤ → Option Gf256) : Prop where
  inverse : ∀ (x : Gf256) (i : ℕ), asInt x = some i ↔ make i = some x
  made : ∀ i, (make i).isSome ↔ 0 ≤ i ∧ i < d + 1
  indexed : ∀ x, (asInt x).isSome ↔ x ^ (d + 1) = x

theorem indexed_of_dvd {d : ℕ} (divides : d ∣ 255) :
    IndexTables d (indexInSubfield (0 :: gf256RootsOfUnity d))
      fun i => if 0 ≤ i ∧ i < d + 1 then (0 :: gf256RootsOfUnity d)[i.toNat]? else none := by
  have pos : 0 < d := Nat.pos_of_dvd_of_pos divides (by decide)
  have length : (0 :: gf256RootsOfUnity d).length = d + 1 := by
    rw [List.length_cons, length_gf256RootsOfUnity divides]
  refine ⟨fun x i => ?_, fun i => ?_, fun x => ?_⟩
  · rw [indexInSubfield_eq_some_iff (nodup_subfield pos), Int.toNat_natCast]
    by_cases lt : i < d + 1
    · rw [if_pos (by omega)]
    · rw [if_neg (by omega), List.getElem?_eq_none (by omega)]
  · by_cases inside : 0 ≤ i ∧ i < d + 1
    · rw [if_pos inside, List.getElem?_eq_getElem (by omega)]
      exact iff_of_true rfl inside
    · rw [if_neg inside]
      exact iff_of_false nofun inside
  · rw [indexInSubfield_isSome_iff, List.mem_cons, mem_gf256RootsOfUnity, zpow_natCast, pow_succ]
    by_cases zero : x = 0
    · simp [zero]
    · rw [mul_eq_right₀ zero]
      simp [zero]

end Index

/-- `as_gf16_int` and `make_gf16` are inverse to each other between the elements of GF(16) and
the integers from 0 to 15, and so are those of GF(4) with the integers from 0 to 3. -/
theorem indexed_gf16_gf4 : IndexTables 15 asGf16Int makeGf16 ∧ IndexTables 3 asGf4Int makeGf4 :=
  ⟨indexed_of_dvd (by decide), indexed_of_dvd (by decide)⟩

/-- A subfield is closed under the operations of the elimination. -/
theorem closedCoefs_subfield (K : Subfield Gf256) : ClosedCoefs (K : Set Gf256) where
  zero_mem := K.zero_mem
  one_mem := K.one_mem
  add_mem := K.add_mem
  mul_mem := K.mul_mem
  inv_mem := K.inv_mem

/-- The reduced row echelon form of a matrix over a subfield is over the subfield. -/
theorem computeRref_subfield (K : Subfield Gf256) {n : ℕ} {rows reduced : List (List Gf256)}
    (pos : 0 < n) (small : n ≤ 2147483639) (width : ∀ row ∈ rows, row.length = n)
    (entries : ∀ row ∈ rows, ∀ a ∈ row, a ∈ K) (ok : computeRref rows = .ok reduced) :
    ∀ row ∈ reduced, ∀ a ∈ row, a ∈ K :=
  computeRref_closed (closedCoefs_subfield K) pos small width entries ok

theorem computeRref_subfield_gf4 :
    ∃ reduced, computeRref [bytes [0, 214, 1], bytes [215, 1, 0]] = .ok reduced ∧
      ∀ row ∈ reduced, ∀ a ∈ row, a ^ 4 = a := by
  obtain ⟨reduced, ok⟩ : ∃ reduced,
      computeRref [bytes [0, 214, 1], bytes [215, 1, 0]] = .ok reduced := by
    cases result : computeRref [bytes [0, 214, 1], bytes [215, 1, 0]] with
    | ok reduced => exact ⟨reduced, rfl⟩
    | error fault =>
        have returns : (computeRref [bytes [0, 214, 1], bytes [215, 1, 0]]).isOk = true := by
          decide +kernel
        rw [result] at returns
        cases returns
  have entries : ∀ row ∈ [bytes [0, 214, 1], bytes [215, 1, 0]], ∀ a ∈ row,
      a ∈ fixedSubfield 2 := by
    simp only [mem_fixedSubfield]
    decide +kernel
  have closed := computeRref_subfield (fixedSubfield 2) (show 0 < 3 by decide)
    (show 3 ≤ 2147483639 by decide) (by decide) entries ok
  exact ⟨reduced, ok, fun row mem a mem_a => mem_fixedSubfield.mp (closed row mem a mem_a)⟩

end SwifCodec
