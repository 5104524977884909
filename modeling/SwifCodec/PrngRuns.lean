import SwifCodec.Prng
import SwifCodec.Library.XorLinear

/-!
Runs of the pseudo-random number generator.

The generator never gets to the all-zero state, so its low output bit cannot stay
zero: the bit is the low bit of `status3`, while it is zero the state moves linearly,
and 127 low bits then determine `status3` (`recover_eq`). Every state therefore draws
an odd number within 130 draws (`exists_odd_draw`).
-/

namespace SwifCodec

open Library

namespace TinyMt32

/-- `x` of `tinymt32_next_state`, after its shift. -/
def mixed (s : TinyMt32) : BitVec 32 :=
  ((s.status0 &&& tinymt32Mask) ^^^ s.status1 ^^^ s.status2) ^^^
    (((s.status0 &&& tinymt32Mask) ^^^ s.status1 ^^^ s.status2) <<< 1)

/-- `y` of `tinymt32_next_state`, the next `status3`. -/
def fresh (s : TinyMt32) : BitVec 32 := s.status3 ^^^ ((s.status3 >>> 1) ^^^ s.mixed)

/-- The next state when `y` is even. -/
def quietStep (s : TinyMt32) : TinyMt32 :=
  { s with status0 := s.status1, status1 := s.status2, status2 := s.mixed ^^^ (s.fresh <<< 10),
           status3 := s.fresh }

/-- The words of two states added; the parameters are those of the first. -/
def add (s t : TinyMt32) : TinyMt32 :=
  { s with status0 := s.status0 ^^^ t.status0, status1 := s.status1 ^^^ t.status1,
           status2 := s.status2 ^^^ t.status2, status3 := s.status3 ^^^ t.status3 }

section Linear

variable (s t : TinyMt32)

theorem mixed_add : (s.add t).mixed = s.mixed ^^^ t.mixed := by
  simp only [mixed, add, and_xor_distrib_right, BitVec.shiftLeft_xor_distrib]
  ac_rfl

theorem fresh_add : (s.add t).fresh = s.fresh ^^^ t.fresh := by
  rw [fresh, mixed_add]
  simp only [fresh, add, BitVec.ushiftRight_xor_distrib]
  ac_rfl

theorem quietStep_add : (s.add t).quietStep = s.quietStep.add t.quietStep := by
  unfold quietStep
  rw [mixed_add, fresh_add, BitVec.shiftLeft_xor_distrib, xor_xor_xor_comm]
  rfl

end Linear

/-- The sum of the columns whose step puts a low bit into `status3`. -/
def recover : List (BitVec 32) → TinyMt32 → BitVec 32
  | [], _ => 0#32
  | c :: cs, s => (if s.fresh.getLsbD 0 then c else 0#32) ^^^ recover cs s.quietStep

theorem recover_add (cs : List (BitVec 32)) (s t : TinyMt32) :
    recover cs (s.add t) = recover cs s ^^^ recover cs t := by
  induction cs generalizing s t with
  | nil => exact BitVec.xor_zero.symm
  | cons c cs ih =>
      unfold recover
      rw [quietStep_add, ih, fresh_add, BitVec.getLsbD_xor, xor_xor_xor_comm]
      congr 1
      cases s.fresh.getLsbD 0 <;> cases t.fresh.getLsbD 0 <;> simp

/-- The combination of 127 low bits that is `status3`. -/
def recoverColumns : List (BitVec 32) := [
  0x0eefed54, 0xda7a8e66, 0xccba3777, 0x6c54a0f1, 0x8de09c6d, 0x85fa2c0d, 0xc367ba2b, 0xd08f7789,
  0xab3bf6cd, 0x602ebb76, 0x56e87169, 0x3479525b, 0x4867fb4a, 0x3c77349c, 0xfb5ce61e, 0x7f547bbb,
  0x60ce71d0, 0xa4917aca, 0xddfb8a72, 0x2f13fff7, 0x8389f3c2, 0xa0c548b0, 0xa6c44621, 0x43be8fd1,
  0x52539cca, 0xc3420451, 0xad54ba2b, 0xf7d70769, 0xcd27d426, 0xd5f1bffc, 0x107aaefc, 0x87104d1d,
  0x6724894b, 0x472c9ca8, 0xc0f68442, 0xb1a8482d, 0x9c430809, 0xac4a014f, 0x6f48bbf6, 0xc8c667eb,
  0x7eb364d8, 0xf62ec735, 0x8106794b, 0xd0adff63, 0xa479e190, 0x1b004c9f, 0xd1532fd1, 0xe8cb816b,
  0x449fcf9b, 0x07c52eeb, 0x70816b02, 0xbc0e2a35, 0x05976c91, 0xbd33dd0f, 0x30f1dd26, 0xf1eb3ef3,
  0xcd3aaf2f, 0x24e1186b, 0x827b77be, 0x3c6d2065, 0xaa78b7fd, 0xd3d4c7a7, 0x0e3afad2, 0x9b318a8b,
  0x10d3aac4, 0x562c5b55, 0x99b3d017, 0x37214fab, 0x89496c24, 0x94eaa928, 0x6ed9d86b, 0x6071baa1,
  0x37d41887, 0x174db0ab, 0x2cf264e7, 0x2ba16965, 0x0fa438b0, 0xa05c38dd, 0xba5e30b1, 0xe1aed2a9,
  0xaf2b0f07, 0xdf7fd895, 0x30018ca1, 0xac527b9d, 0x67d6a5e4, 0x1271a0b3, 0x59391423, 0xfad5ba99,
  0x5f5b2b80, 0x01236852, 0x61eaf25b, 0x2e8a4377, 0x1388b448, 0x0c2103a3, 0x1bbb1ec6, 0x3ce47c09,
  0xa3c66bae, 0x6c0570b1, 0xdc87c8e7, 0xd0935399, 0x1bc27e45, 0x9af0bf2a, 0x28eb054d, 0x1a7bc85b,
  0xc8124aa5, 0x863a2b6e, 0xb52e3ca8, 0x6868d65b, 0xacc793d7, 0x5d54fcbe, 0x828ab7f5, 0x6caf8df9,
  0xdc11b333, 0x1ed2f932, 0xffe7ebfc, 0x5ca05421, 0x2dc76732, 0x7ea0a8ec, 0xaccae43f, 0x70a411c3,
  0xa7e2e0f2, 0x4bbda78e, 0x21980fc3, 0x1bb0181d, 0xd4a6180e, 0x89ca1ff8, 0x34d0c803]

/-- The state with the given words and no parameters. -/
def ofWords (w₀ w₁ w₂ w₃ : BitVec 32) : TinyMt32 := ⟨w₀, w₁, w₂, w₃, 0, 0, 0⟩

/-- Only the words of a state matter. -/
theorem recover_ofWords (cs : List (BitVec 32)) (s : TinyMt32) :
    recover cs (ofWords s.status0 s.status1 s.status2 s.status3) = recover cs s := by
  have zero : recover cs (ofWords 0 0 0 0) = 0#32 := by
    have twice := recover_add cs (ofWords 0 0 0 0) (ofWords 0 0 0 0)
    rwa [show (ofWords 0 0 0 0).add (ofWords 0 0 0 0) = ofWords 0 0 0 0 by decide,
      BitVec.xor_self] at twice
  have sum := recover_add cs (ofWords 0 0 0 0) s
  rw [zero, BitVec.zero_xor] at sum
  rw [← sum]
  simp [add, ofWords]

/-- 127 low bits of a quiet state determine `status3`. -/
theorem recover_eq (s : TinyMt32) : recover recoverColumns s = s.status3 := by
  have linear : ∀ f : BitVec 32 → TinyMt32, (∀ x y, f (x ^^^ y) = (f x).add (f y)) →
      XorLinear fun w => recover recoverColumns (f w) := by
    intro f add_f x y
    show recover recoverColumns (f (x ^^^ y)) = _
    rw [add_f, recover_add]
  have zero : XorLinear fun _ : BitVec 32 => 0#32 := fun _ _ => BitVec.xor_zero.symm
  have ident : XorLinear fun w : BitVec 32 => w := fun _ _ => rfl
  have word₀ := (linear (fun w => ofWords w 0 0 0) fun x y => by simp [add, ofWords]).ext zero
    (by decide +kernel) s.status0
  have word₁ := (linear (fun w => ofWords 0 w 0 0) fun x y => by simp [add, ofWords]).ext zero
    (by decide +kernel) s.status1
  have word₂ := (linear (fun w => ofWords 0 0 w 0) fun x y => by simp [add, ofWords]).ext zero
    (by decide +kernel) s.status2
  have word₃ := (linear (fun w => ofWords 0 0 0 w) fun x y => by simp [add, ofWords]).ext ident
    (by decide +kernel) s.status3
  have split : ofWords s.status0 s.status1 s.status2 s.status3 =
      ((ofWords s.status0 0 0 0).add (ofWords 0 s.status1 0 0)).add
        ((ofWords 0 0 s.status2 0).add (ofWords 0 0 0 s.status3)) := by
    simp [add, ofWords]
  rw [← recover_ofWords, split, recover_add, recover_add, recover_add]
  rw [word₀, word₁, word₂, word₃]
  simp

/-! ### The zero state -/

/-- The state is not zero; the top bit of `status0` is not part of it. -/
def Nonzero (s : TinyMt32) : Prop :=
  ¬ (s.status0 &&& tinymt32Mask = 0#32 ∧ s.status1 = 0#32 ∧ s.status2 = 0#32 ∧ s.status3 = 0#32)

section Zero

variable {s : TinyMt32}

theorem recover_eq_zero (cs : List (BitVec 32)) (s : TinyMt32)
    (quiet : ∀ k < cs.length, (quietStep^[k] s).fresh.getLsbD 0 = false) :
    recover cs s = 0#32 := by
  induction cs generalizing s with
  | nil => rfl
  | cons c cs ih =>
      have first : s.fresh.getLsbD 0 = false := quiet 0 (Nat.succ_pos _)
      have rest : recover cs s.quietStep = 0#32 :=
        ih _ fun k lt => quiet (k + 1) (Nat.succ_lt_succ lt)
      rw [recover, first, rest, if_neg (by decide), BitVec.xor_zero]

/-- `status3` is zero before 127 even words. -/
theorem status3_eq_zero (quiet : ∀ k < 127, (quietStep^[k] s).fresh.getLsbD 0 = false) :
    s.status3 = 0#32 := by
  rw [← recover_eq]
  exact recover_eq_zero recoverColumns s quiet

theorem mixed_eq_zero (now : s.status3 = 0#32) (next : s.fresh = 0#32) : s.mixed = 0#32 := by
  rw [fresh, now] at next
  simpa using next

theorem quietStep_status2_eq_zero (now : s.status3 = 0#32) (next : s.fresh = 0#32) :
    s.quietStep.status2 = 0#32 := by
  show s.mixed ^^^ (s.fresh <<< 10) = 0#32
  rw [mixed_eq_zero now next, next]
  rfl

/-- A state that stays quiet for 130 steps is zero after three of them. -/
theorem not_nonzero_of_quiet (quiet : ∀ k < 130, (quietStep^[k] s).fresh.getLsbD 0 = false) :
    ¬ (quietStep^[3] s).Nonzero := by
  have status3 : ∀ k ≤ 3, (quietStep^[k] s).status3 = 0#32 := by
    intro k le
    refine status3_eq_zero fun j lt => ?_
    rw [← Function.iterate_add_apply]
    exact quiet (j + k) (by omega)
  have status2 : ∀ k < 3, (quietStep^[k + 1] s).status2 = 0#32 := by
    intro k lt
    have next := status3 (k + 1) (by omega)
    rw [Function.iterate_succ_apply'] at next ⊢
    exact quietStep_status2_eq_zero (status3 k (by omega)) next
  have first : (quietStep^[3] s).status0 = 0#32 := status2 0 (by omega)
  intro nonzero
  refine nonzero ⟨?_, status2 1 (by omega), status2 2 (by omega), status3 3 le_rfl⟩
  rw [first]
  rfl

end Zero

end TinyMt32

/-! ### Steps of the generator -/

section Next

open TinyMt32

variable {s : TinyMt32}

theorem and_one_eq_zero_iff {w : BitVec 32} : w &&& 1#32 = 0#32 ↔ w.getLsbD 0 = false := by
  rw [BitVec.and_one_eq_setWidth_ofBool_getLsbD]
  cases w.getLsbD 0 <;> decide

theorem tinymt32NextState_status3 (s : TinyMt32) : (tinymt32NextState s).status3 = s.fresh := by
  unfold tinymt32NextState
  dsimp only
  split <;> rfl

theorem tinymt32NextState_tmat (s : TinyMt32) : (tinymt32NextState s).tmat = s.tmat := by
  unfold tinymt32NextState
  dsimp only
  split <;> rfl

theorem tinymt32NextState_of_quiet (quiet : s.fresh.getLsbD 0 = false) :
    tinymt32NextState s = s.quietStep :=
  if_pos (and_one_eq_zero_iff.mpr quiet)

theorem eq_zero_of_xor_shiftLeft {w : BitVec 32} (h : w ^^^ (w <<< 1) = 0#32) : w = 0#32 := by
  have same : w = w <<< 1 := BitVec.xor_eq_zero_iff.mp h
  have nat := congrArg BitVec.toNat same
  rw [BitVec.toNat_shiftLeft, Nat.shiftLeft_eq] at nat
  have lt := w.isLt
  refine BitVec.eq_of_toNat_eq ?_
  show w.toNat = 0
  omega

theorem eq_zero_of_xor_ushiftRight {w : BitVec 32} (h : w ^^^ (w >>> 1) = 0#32) : w = 0#32 := by
  have same : w = w >>> 1 := BitVec.xor_eq_zero_iff.mp h
  have nat := congrArg BitVec.toNat same
  rw [BitVec.toNat_ushiftRight, Nat.shiftRight_eq_div_pow] at nat
  refine BitVec.eq_of_toNat_eq ?_
  show w.toNat = 0
  omega

/-- Only the zero state is followed by the zero state. -/
theorem tinymt32NextState_nonzero (nonzero : s.Nonzero) : (tinymt32NextState s).Nonzero := by
  rintro ⟨word₀, word₁, word₂, word₃⟩
  rw [tinymt32NextState_status3] at word₃
  have quiet : s.fresh.getLsbD 0 = false := by rw [word₃]; rfl
  rw [tinymt32NextState_of_quiet quiet] at word₀ word₁ word₂
  have status2 : s.status2 = 0#32 := word₁
  have mixed : s.mixed = 0#32 := by
    have sum : s.mixed ^^^ (s.fresh <<< 10) = 0#32 := word₂
    rwa [word₃, BitVec.zero_shiftLeft, BitVec.xor_zero] at sum
  have status3 : s.status3 = 0#32 := by
    rw [fresh, mixed, BitVec.xor_zero] at word₃
    exact eq_zero_of_xor_ushiftRight word₃
  have words := eq_zero_of_xor_shiftLeft mixed
  rw [status2, BitVec.xor_zero] at words
  have masked : s.status0 &&& tinymt32Mask = s.status1 := BitVec.xor_eq_zero_iff.mp words
  -- The top bit of `status1`, which the mask of the next state drops, is masked here.
  have status1 : s.status1 = 0#32 := by
    have below : s.status1 &&& tinymt32Mask = 0#32 := word₀
    rwa [← masked, BitVec.and_assoc, BitVec.and_self, masked] at below
  exact nonzero ⟨masked.trans status1, status1, status2, status3⟩

/-- A state that is not zero puts an odd word into `status3` within 130 steps. -/
theorem exists_odd_draw (nonzero : s.Nonzero) :
    ∃ k < 130, (tinymt32NextState^[k + 1] s).status3.getLsbD 0 = true := by
  by_contra none
  have even : ∀ k < 130, (tinymt32NextState^[k + 1] s).status3.getLsbD 0 = false := by
    intro k lt
    rw [← Bool.not_eq_true]
    exact fun odd => none ⟨k, lt, odd⟩
  have same : ∀ k ≤ 130, tinymt32NextState^[k] s = quietStep^[k] s := by
    intro k
    induction k with
    | zero => exact fun _ => rfl
    | succ k ih =>
        intro le
        have low := even k (by omega)
        rw [Function.iterate_succ_apply', tinymt32NextState_status3] at low
        rw [Function.iterate_succ_apply', Function.iterate_succ_apply', ← ih (by omega),
          tinymt32NextState_of_quiet low]
  have quiet : ∀ k < 130, (quietStep^[k] s).fresh.getLsbD 0 = false := by
    intro k lt
    have low := even k lt
    rwa [Function.iterate_succ_apply', tinymt32NextState_status3, same k lt.le] at low
  have reached : (tinymt32NextState^[3] s).Nonzero :=
    tinymt32NextState_nonzero (tinymt32NextState_nonzero (tinymt32NextState_nonzero nonzero))
  rw [same 3 (by omega)] at reached
  exact not_nonzero_of_quiet quiet reached

/-- The low bit of an output is the low bit of `status3`, as the low bit of `tmat` is set. -/
theorem tinymt32Temper_low (tmat : s.tmat = tinymt32TmatParam) :
    (tinymt32Temper s).getLsbD 0 = s.status3.getLsbD 0 := by
  have set : tinymt32TmatParam.getLsbD 0 = true := by decide
  unfold tinymt32Temper
  dsimp only
  rw [tmat, BitVec.getLsbD_xor, BitVec.getLsbD_xor, BitVec.and_one_eq_setWidth_ofBool_getLsbD,
    BitVec.getLsbD_and, set, Bool.and_true]
  cases (s.status0 + s.status2 >>> 8).getLsbD 0
  · rw [show (-BitVec.setWidth 32 (BitVec.ofBool false)).getLsbD 0 = false by decide,
      Bool.xor_false, Bool.xor_false]
  · rw [show (-BitVec.setWidth 32 (BitVec.ofBool true)).getLsbD 0 = true by decide,
      Bool.xor_assoc, Bool.xor_self, Bool.xor_false]

end Next

/-! ### Initialised states -/

/-- The states a generator gets to. -/
structure TinyMt32.Live (s : TinyMt32) : Prop where
  nonzero : s.Nonzero
  tmat : s.tmat = tinymt32TmatParam

theorem TinyMt32.Live.next {s : TinyMt32} (live : s.Live) : (tinymt32NextState s).Live :=
  ⟨tinymt32NextState_nonzero live.nonzero, (tinymt32NextState_tmat s).trans live.tmat⟩

theorem TinyMt32.Live.iterate {s : TinyMt32} (live : s.Live) (n : ℕ) :
    (tinymt32NextState^[n] s).Live := by
  induction n with
  | zero => exact live
  | succ n ih =>
      rw [Function.iterate_succ_apply']
      exact ih.next

theorem foldl_next_live {ι : Type} (l : List ι) {s : TinyMt32} (live : s.Live) :
    (l.foldl (fun s _ => tinymt32NextState s) s).Live := by
  induction l generalizing s with
  | nil => exact live
  | cons _ l ih => exact ih live.next

/-- The multiplier and the shift of `tinymt32_init`. -/
def initMix (w : BitVec 32) : BitVec 32 := 1812433253#32 * (w ^^^ (w >>> 30))

/-- Initialisation does not end in the zero state: the second pass over `status3` would
have to cancel the constant that the first one left there. -/
theorem tinymt32Init_live (seed : BitVec 32) : (tinymt32Init seed).Live := by
  refine foldl_next_live _ ⟨?_, rfl⟩
  -- The words before the second pass over `status1`, `status2` and `status3`.
  set w₁ := tinymt32Mat1Param ^^^ (1#32 + initMix seed)
  set w₂ := tinymt32Mat2Param ^^^ (2#32 + initMix w₁)
  set w₃ := tinymt32TmatParam ^^^ (3#32 + initMix w₂)
  set w₀ := seed ^^^ (4#32 + initMix w₃)
  rintro ⟨-, word₁, word₂, word₃⟩
  have second₁ : w₁ ^^^ (5#32 + initMix w₀) = 0#32 := word₁
  have second₂ : w₂ ^^^ (6#32 + initMix (w₁ ^^^ (5#32 + initMix w₀))) = 0#32 := word₂
  have second₃ : w₃ ^^^ (7#32 + initMix (w₂ ^^^ (6#32 + initMix
    (w₁ ^^^ (5#32 + initMix w₀))))) = 0#32 := word₃
  rw [second₂] at second₃
  rw [second₁] at second₂
  have eq₂ : w₂ = 6#32 + initMix 0#32 := BitVec.xor_eq_zero_iff.mp second₂
  have eq₃ : w₃ = 7#32 + initMix 0#32 := BitVec.xor_eq_zero_iff.mp second₃
  have first₃ : w₃ = tinymt32TmatParam ^^^ (3#32 + initMix w₂) := rfl
  rw [eq₂, eq₃] at first₃
  revert first₃
  decide

/-- The state after some draws. -/
def TinyMt32.draws (s : TinyMt32) (n : ℕ) : TinyMt32 :=
  (fun s => (tinymt32GenerateUint32 s).2)^[n] s

/-- For every seed, no number of draws gets to the zero state. -/
theorem nonzero_of_draws (seed : BitVec 32) (n : ℕ) : ((tinymt32Init seed).draws n).Nonzero :=
  ((tinymt32Init_live seed).iterate n).nonzero

end SwifCodec
