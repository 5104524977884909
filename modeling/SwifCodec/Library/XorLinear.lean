import Mathlib.Data.BitVec

/-!
Functions on bit vectors that are linear in exclusive or. They are determined by
their values on the single bits.
-/

namespace SwifCodec.Library

variable {w v : ℕ} {f g : BitVec w → BitVec v}

/-- `f` maps exclusive or to exclusive or. -/
def XorLinear (f : BitVec w → BitVec v) : Prop := ∀ x y, f (x ^^^ y) = f x ^^^ f y

theorem xor_cancel_left (x y : BitVec w) : x ^^^ (x ^^^ y) = y := by
  rw [← BitVec.xor_assoc, BitVec.xor_self, BitVec.zero_xor]

/-- The terms of two sums can be added one by one. -/
theorem xor_xor_xor_comm (a b c d : BitVec w) :
    a ^^^ b ^^^ (c ^^^ d) = a ^^^ c ^^^ (b ^^^ d) := by
  ac_rfl

theorem and_xor_distrib_right (x y m : BitVec w) : (x ^^^ y) &&& m = (x &&& m) ^^^ (y &&& m) := by
  refine BitVec.eq_of_getLsbD_eq fun i _ => ?_
  rw [BitVec.getLsbD_and, BitVec.getLsbD_xor, BitVec.getLsbD_xor, BitVec.getLsbD_and,
    BitVec.getLsbD_and, Bool.and_xor_distrib_right]

namespace XorLinear

theorem zero (hf : XorLinear f) : f 0#w = 0#v := by
  have twice := hf 0#w 0#w
  rw [BitVec.xor_self] at twice
  rw [twice, BitVec.xor_self]

theorem comp {u : ℕ} {h : BitVec u → BitVec w} (hf : XorLinear f) (hh : XorLinear h) :
    XorLinear fun x => f (h x) := by
  intro x y
  show f (h (x ^^^ y)) = f (h x) ^^^ f (h y)
  rw [hh, hf]

/-- Two linear functions that agree on the single bits are equal. -/
theorem ext (hf : XorLinear f) (hg : XorLinear g)
    (agree : ∀ i < w, f (1#w <<< i) = g (1#w <<< i)) (b : BitVec w) : f b = g b := by
  have below : ∀ k ≤ w, ∀ x : BitVec w, (∀ i, k ≤ i → x.getLsbD i = false) → f x = g x := by
    intro k
    induction k with
    | zero =>
        intro _ x none
        have zero_x : x = 0#w := BitVec.eq_of_getLsbD_eq fun i _ => by
          rw [none i (Nat.zero_le i), BitVec.getLsbD_zero]
        rw [zero_x, hf.zero, hg.zero]
    | succ k ih =>
        intro le x clear
        cases top : x.getLsbD k with
        | false =>
            refine ih (by omega) x fun i low => ?_
            rcases Nat.eq_or_lt_of_le low with rfl | lt
            · exact top
            · exact clear i lt
        | true =>
            -- The bit `k` is split off.
            have rest := ih (by omega) (1#w <<< k ^^^ x) fun i low => ?_
            · have split : x = 1#w <<< k ^^^ (1#w <<< k ^^^ x) := (xor_cancel_left _ _).symm
              rw [split, hf, hg, rest, agree k (by omega)]
            · rcases Nat.eq_or_lt_of_le low with rfl | lt
              · simp [top]
                omega
              · simp [clear i lt]
                omega
  exact below w le_rfl b fun i ge => BitVec.getLsbD_of_ge b i ge

end XorLinear

end SwifCodec.Library
