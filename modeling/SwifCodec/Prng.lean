import Mathlib.Data.BitVec

/-!
The pseudo-random number generator `swif_prng.c`: TinyMT32 with the parameter
set fixed by the RLC FEC scheme.

`uint32_t` values are 32-bit vectors. The functions that update the state in
place return it.
-/

namespace SwifCodec

/-- `tinymt32_t`; the array `status` has four cells. -/
structure TinyMt32 where
  status0 : BitVec 32
  status1 : BitVec 32
  status2 : BitVec 32
  status3 : BitVec 32
  mat1 : BitVec 32
  mat2 : BitVec 32
  tmat : BitVec 32
  deriving DecidableEq, Repr

def tinymt32Mat1Param : BitVec 32 := 0x8f7011ee#32
def tinymt32Mat2Param : BitVec 32 := 0xfc78ff1f#32
def tinymt32TmatParam : BitVec 32 := 0x3793fdff#32
def tinymt32Mask : BitVec 32 := 0x7fffffff#32

namespace TinyMt32

/-- `status[i & 3]`. -/
def status (s : TinyMt32) (i : Nat) : BitVec 32 :=
  match i &&& 3 with
  | 0 => s.status0
  | 1 => s.status1
  | 2 => s.status2
  | _ => s.status3

/-- `status[i & 3] ^= v`. -/
def xorStatus (s : TinyMt32) (i : Nat) (v : BitVec 32) : TinyMt32 :=
  match i &&& 3 with
  | 0 => { s with status0 := s.status0 ^^^ v }
  | 1 => { s with status1 := s.status1 ^^^ v }
  | 2 => { s with status2 := s.status2 ^^^ v }
  | _ => { s with status3 := s.status3 ^^^ v }

end TinyMt32

/-- `tinymt32_next_state`. -/
def tinymt32NextState (s : TinyMt32) : TinyMt32 :=
  let x := (s.status0 &&& tinymt32Mask) ^^^ s.status1 ^^^ s.status2
  let x := x ^^^ (x <<< 1)
  let y := s.status3 ^^^ ((s.status3 >>> 1) ^^^ x)
  let next :=
    { s with status0 := s.status1, status1 := s.status2, status2 := x ^^^ (y <<< 10), status3 := y }
  if y &&& 1#32 = 0#32 then next
  else { next with status1 := next.status1 ^^^ s.mat1, status2 := next.status2 ^^^ s.mat2 }

/-- `tinymt32_temper`. -/
def tinymt32Temper (s : TinyMt32) : BitVec 32 :=
  let t1 := s.status0 + (s.status2 >>> 8)
  s.status3 ^^^ t1 ^^^ (-(t1 &&& 1#32) &&& s.tmat)

/-- `tinymt32_init`: MIN_LOOP and PRE_LOOP are 8. -/
def tinymt32Init (seed : BitVec 32) : TinyMt32 :=
  let s : TinyMt32 :=
    { status0 := seed
      status1 := tinymt32Mat1Param
      status2 := tinymt32Mat2Param
      status3 := tinymt32TmatParam
      mat1 := tinymt32Mat1Param
      mat2 := tinymt32Mat2Param
      tmat := tinymt32TmatParam }
  let s := (List.range' 1 7).foldl (fun s i =>
    s.xorStatus i (BitVec.ofNat 32 i +
      1812433253#32 * (s.status (i - 1) ^^^ (s.status (i - 1) >>> 30)))) s
  (List.range 8).foldl (fun s _ => tinymt32NextState s) s

/-- `tinymt32_generate_uint32`. -/
def tinymt32GenerateUint32 (s : TinyMt32) : BitVec 32 × TinyMt32 :=
  let s := tinymt32NextState s
  (tinymt32Temper s, s)

/-- `tinymt32_rand16`. -/
def tinymt32Rand16 (s : TinyMt32) : BitVec 32 × TinyMt32 :=
  let (r, s) := tinymt32GenerateUint32 s
  (r &&& 0xf#32, s)

/-- `tinymt32_rand256`. -/
def tinymt32Rand256 (s : TinyMt32) : BitVec 32 × TinyMt32 :=
  let (r, s) := tinymt32GenerateUint32 s
  (r &&& 0xff#32, s)

end SwifCodec
