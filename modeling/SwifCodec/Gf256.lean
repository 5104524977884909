import Mathlib.Algebra.Field.Basic
import Mathlib.Algebra.CharP.Two
import SwifCodec.Library.XorLinear

/-!
Arithmetic in GF(2^8), as `swif_symbol.c` computes it on `uint8_t` values.

A byte is the coefficient vector of a polynomial over GF(2). Addition is the
exclusive or of `gf256_add`. The generated table `gf256_mul_table` holds the
products modulo `x^8 + x^4 + x^3 + x^2 + 1` (0x11d); `gf256Mul` computes that
entry by shift and add instead of spelling out its 65536 values. The inverse
table `gf256_inv_table` is copied.

The laws of a field are proved once here. Multiplication is linear in each
argument, so commutativity and associativity only have to be checked on the
eight single-bit bytes.
-/

namespace SwifCodec

open Library

/-- A `uint8_t` read as an element of GF(2^8). -/
structure Gf256 where
  bits : BitVec 8
  deriving DecidableEq, Repr

namespace Gf256

/-- The byte with value `n` modulo 256: the cast `(uint8_t) n`. -/
def ofNat (n : Nat) : Gf256 := ⟨BitVec.ofNat 8 n⟩

/-- The bytes with the given values. -/
def bytes (ns : List Nat) : List Gf256 := ns.map ofNat

/-- The numerical value of a byte. -/
def toNat (a : Gf256) : Nat := a.bits.toNat

@[ext] theorem ext {a b : Gf256} (h : a.bits = b.bits) : a = b := by
  cases a; cases b; cases h; rfl

end Gf256

/-! ### The operations of `swif_symbol.h` -/

/-- `gf256_add`: exclusive or. -/
def gf256Add (a b : Gf256) : Gf256 := ⟨a.bits ^^^ b.bits⟩

/-- `gf256_sub` is `gf256_add`. -/
def gf256Sub (a b : Gf256) : Gf256 := gf256Add a b

/-- Multiplication by the polynomial `x`: shift, and reduce by 0x11d when the
top bit leaves the byte. -/
def timesX (a : BitVec 8) : BitVec 8 :=
  (a <<< 1) ^^^ (if a.msb then 0x1d#8 else 0#8)

/-- Shift-and-add product over the `k` low bits of `b`. -/
def shiftAdd : Nat → BitVec 8 → BitVec 8 → BitVec 8
  | 0, _, _ => 0#8
  | k + 1, a, b => (if b.getLsbD 0 then a else 0#8) ^^^ shiftAdd k (timesX a) (b >>> 1)

/-- `gf256_mul`: the entry `gf256_mul_table[a][b]`. -/
def gf256Mul (a b : Gf256) : Gf256 := ⟨shiftAdd 8 a.bits b.bits⟩

/-- `gf256_inv_table`. -/
def gf256InvTable : List Nat :=
  [
    0, 1, 142, 244, 71, 167, 122, 186, 173, 157, 221, 152, 61, 170, 93, 150,
    216, 114, 192, 88, 224, 62, 76, 102, 144, 222, 85, 128, 160, 131, 75, 42,
    108, 237, 57, 81, 96, 86, 44, 138, 112, 208, 31, 74, 38, 139, 51, 110,
    72, 137, 111, 46, 164, 195, 64, 94, 80, 34, 207, 169, 171, 12, 21, 225,
    54, 95, 248, 213, 146, 78, 166, 4, 48, 136, 43, 30, 22, 103, 69, 147,
    56, 35, 104, 140, 129, 26, 37, 97, 19, 193, 203, 99, 151, 14, 55, 65,
    36, 87, 202, 91, 185, 196, 23, 77, 82, 141, 239, 179, 32, 236, 47, 50,
    40, 209, 17, 217, 233, 251, 218, 121, 219, 119, 6, 187, 132, 205, 254, 252,
    27, 84, 161, 29, 124, 204, 228, 176, 73, 49, 39, 45, 83, 105, 2, 245,
    24, 223, 68, 79, 155, 188, 15, 92, 11, 220, 189, 148, 172, 9, 199, 162,
    28, 130, 159, 198, 52, 194, 70, 5, 206, 59, 13, 60, 156, 8, 190, 183,
    135, 229, 238, 107, 235, 242, 191, 175, 197, 100, 7, 123, 149, 154, 174, 182,
    18, 89, 165, 53, 101, 184, 163, 158, 210, 247, 98, 90, 133, 125, 168, 58,
    41, 113, 200, 246, 249, 67, 215, 214, 16, 115, 118, 120, 153, 10, 25, 145,
    20, 63, 230, 240, 134, 177, 226, 241, 250, 116, 243, 180, 109, 33, 178, 106,
    227, 231, 181, 234, 3, 143, 211, 201, 66, 212, 232, 117, 127, 255, 126, 253]

/-- `gf256_inv`; the entry of 0 is 0. -/
def gf256Inv (a : Gf256) : Gf256 := Gf256.ofNat (gf256InvTable.getD a.toNat 0)

/-- `gf256_div`. -/
def gf256Div (a b : Gf256) : Gf256 := gf256Mul a (gf256Inv b)

/-! ### Linearity of the product -/

theorem timesX_xor (a b : BitVec 8) : timesX (a ^^^ b) = timesX a ^^^ timesX b := by
  unfold timesX
  rw [BitVec.shiftLeft_xor_distrib, BitVec.msb_xor]
  cases a.msb <;> cases b.msb <;> simp <;>
    first
    | ac_rfl
    | rw [show ∀ x y z : BitVec 8, x ^^^ z ^^^ (y ^^^ z) = z ^^^ (z ^^^ (x ^^^ y)) by
          intros; ac_rfl, xor_cancel_left]

theorem shiftAdd_xor_left (k : Nat) (a a' b : BitVec 8) :
    shiftAdd k (a ^^^ a') b = shiftAdd k a b ^^^ shiftAdd k a' b := by
  induction k generalizing a a' b with
  | zero => simp [shiftAdd]
  | succ k ih =>
      simp only [shiftAdd, timesX_xor, ih]
      cases b.getLsbD 0 with
      | false => simp
      | true => simp only [if_true]; ac_rfl

theorem shiftAdd_xor_right (k : Nat) (a b b' : BitVec 8) :
    shiftAdd k a (b ^^^ b') = shiftAdd k a b ^^^ shiftAdd k a b' := by
  induction k generalizing a b b' with
  | zero => simp [shiftAdd]
  | succ k ih =>
      simp only [shiftAdd, BitVec.ushiftRight_xor_distrib, ih, BitVec.getLsbD_xor]
      cases b.getLsbD 0 <;> cases b'.getLsbD 0 <;> simp <;>
        first
        | ac_rfl
        | rw [show ∀ x y z : BitVec 8, z ^^^ x ^^^ (z ^^^ y) = z ^^^ (z ^^^ (x ^^^ y)) by
              intros; ac_rfl, xor_cancel_left]

/-! ### The field -/

namespace Gf256

instance : Zero Gf256 := ⟨⟨0#8⟩⟩
instance : One Gf256 := ⟨⟨1#8⟩⟩
instance : Add Gf256 := ⟨gf256Add⟩
instance : Neg Gf256 := ⟨id⟩
instance : Sub Gf256 := ⟨gf256Sub⟩
instance : Mul Gf256 := ⟨gf256Mul⟩
instance : Inv Gf256 := ⟨gf256Inv⟩
instance : Div Gf256 := ⟨gf256Div⟩

@[simp] theorem bits_zero : (0 : Gf256).bits = 0#8 := rfl
@[simp] theorem bits_one : (1 : Gf256).bits = 1#8 := rfl
@[simp] theorem bits_add (a b : Gf256) : (a + b).bits = a.bits ^^^ b.bits := rfl
@[simp] theorem bits_neg (a : Gf256) : (-a).bits = a.bits := rfl
@[simp] theorem bits_sub (a b : Gf256) : (a - b).bits = a.bits ^^^ b.bits := rfl
@[simp] theorem bits_mul (a b : Gf256) : (a * b).bits = shiftAdd 8 a.bits b.bits := rfl

private theorem shiftAdd_comm (a b : BitVec 8) : shiftAdd 8 a b = shiftAdd 8 b a := by
  have left : ∀ b, XorLinear fun a => shiftAdd 8 a b := fun b x y => shiftAdd_xor_left 8 x y b
  have right : ∀ a, XorLinear fun b => shiftAdd 8 a b := fun a => shiftAdd_xor_right 8 a
  refine (right a).ext (left a) (fun i hi => ?_) b
  refine (left _).ext (right _) (fun j hj => ?_) a
  clear left right
  revert i j
  decide

private theorem shiftAdd_assoc (a b c : BitVec 8) :
    shiftAdd 8 (shiftAdd 8 a b) c = shiftAdd 8 a (shiftAdd 8 b c) := by
  have left : ∀ b, XorLinear fun a => shiftAdd 8 a b := fun b x y => shiftAdd_xor_left 8 x y b
  have right : ∀ a, XorLinear fun b => shiftAdd 8 a b := fun a => shiftAdd_xor_right 8 a
  refine (right _).ext ((right a).comp (right b)) (fun i hi => ?_) c
  refine ((left _).comp (right a)).ext ((right a).comp (left _)) (fun j hj => ?_) b
  refine ((left _).comp (left _)).ext (left _) (fun k hk => ?_) a
  clear left right
  revert i j k
  decide

private theorem shiftAdd_zero (a : BitVec 8) : shiftAdd 8 a 0#8 = 0#8 := by
  revert a; decide

private theorem shiftAdd_one (a : BitVec 8) : shiftAdd 8 a 1#8 = a := by
  revert a; decide

/-- Every entry of the inverse table is the inverse the product table calls for. -/
private theorem shiftAdd_inv (a : BitVec 8) (ha : a ≠ 0#8) :
    shiftAdd 8 a (gf256Inv ⟨a⟩).bits = 1#8 := by
  revert a; decide

instance : Field Gf256 where
  add_assoc a b c := by ext1; exact BitVec.xor_assoc ..
  zero_add a := by ext1; exact BitVec.zero_xor
  add_zero a := by ext1; exact BitVec.xor_zero
  add_comm a b := by ext1; exact BitVec.xor_comm ..
  neg_add_cancel a := by ext1; exact BitVec.xor_self
  sub_eq_add_neg a b := rfl
  left_distrib a b c := by ext1; exact shiftAdd_xor_right 8 ..
  right_distrib a b c := by ext1; exact shiftAdd_xor_left 8 ..
  zero_mul a := by ext1; rw [bits_mul, shiftAdd_comm]; exact shiftAdd_zero _
  mul_zero a := by ext1; exact shiftAdd_zero _
  mul_assoc a b c := by ext1; exact shiftAdd_assoc ..
  mul_comm a b := by ext1; exact shiftAdd_comm ..
  one_mul a := by ext1; rw [bits_mul, shiftAdd_comm]; exact shiftAdd_one _
  mul_one a := by ext1; exact shiftAdd_one _
  exists_pair_ne := ⟨0, 1, by decide⟩
  mul_inv_cancel a ha := by
    ext1
    exact shiftAdd_inv _ fun h => ha (Gf256.ext h)
  inv_zero := by decide
  nsmul := nsmulRec
  zsmul := zsmulRec
  nnqsmul := _
  nnqsmul_def _ _ := rfl
  qsmul := _
  qsmul_def _ _ := rfl

instance : CharP Gf256 2 := CharTwo.of_one_ne_zero_of_two_eq_zero one_ne_zero (by decide)

end Gf256

@[simp] theorem gf256Add_eq (a b : Gf256) : gf256Add a b = a + b := rfl
@[simp] theorem gf256Mul_eq (a b : Gf256) : gf256Mul a b = a * b := rfl
@[simp] theorem gf256Inv_eq (a : Gf256) : gf256Inv a = a⁻¹ := rfl
@[simp] theorem gf256Div_eq (a b : Gf256) : gf256Div a b = a / b := rfl

end SwifCodec
