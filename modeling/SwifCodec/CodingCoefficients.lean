import SwifCodec.Gf256
import SwifCodec.Machine
import SwifCodec.PrngRuns

/-!
The generator of coding coefficients, `swif_coding_coefficients.c`.

The table is written entry by entry, so a table that is too short is overrun in
the middle of the loop. The redrawing loops are bounded by the number of states
of the generator: a loop that has not met a non-zero byte by then has repeated a
state and never ends. No loop gets there (`nonzeroByte_live`).
-/

namespace SwifCodec

open Library

/-- The number of values of the four status words. -/
def prngStates : Nat := 2 ^ 128

/-- `do cc_tab[i] = (uint8_t) tinymt32_rand256(&s); while (cc_tab[i] == 0);` -/
def drawNonzero (table : Buffer) (i : Nat) :
    (draws : Nat) → List Gf256 → TinyMt32 → Exec (List Gf256 × TinyMt32)
  | 0, _, _ => .error .diverges
  | draws + 1, ccTab, s => do
      let (r, s) := tinymt32Rand256 s
      let ccTab ← access table (Block.store ccTab i [Gf256.ofNat r.toNat])
      if Gf256.ofNat r.toNat = 0 then drawNonzero table i draws ccTab s
      else return (ccTab, s)

/-- One entry of the table, for `m = 8`. -/
def drawCoefficient (table : Buffer) (dt : Nat) (acc : List Gf256 × TinyMt32) (i : Nat) :
    Exec (List Gf256 × TinyMt32) := do
  let (ccTab, s) := acc
  if dt = 15 then drawNonzero table i prngStates ccTab s
  else
    let (r, s) := tinymt32Rand16 s
    if r.toNat ≤ dt then drawNonzero table i prngStates ccTab s
    else
      let ccTab ← access table (Block.store ccTab i [0])
      return (ccTab, s)

/-- One entry of the table, for `m = 1`. -/
def drawBit (table : Buffer) (dt : Nat) (acc : List Gf256 × TinyMt32) (i : Nat) :
    Exec (List Gf256 × TinyMt32) := do
  let (ccTab, s) := acc
  let (r, s) := tinymt32Rand16 s
  let ccTab ← access table (Block.store ccTab i [if r.toNat ≤ dt then 1 else 0])
  return (ccTab, s)

/-- `swif_rlc_generate_coding_coefficients`, with the return code. The key and
the number of coefficients are `uint16_t`, `dt` and `m` are `uint8_t`. -/
def swifRlcGenerateCodingCoefficients (table : Buffer) (repairKey : Nat) (ccTab : List Gf256)
    (ccNb dt m : Nat) : Exec (List Gf256 × Int) := do
  if 15 < dt then return (ccTab, -1)
  match m with
  | 1 =>
      if dt = 15 then
        let ccTab ← access table (Block.fill ccTab 0 ccNb 1)
        return (ccTab, 0)
      else
        let (ccTab, _) ← (List.range ccNb).foldlM (drawBit table dt)
          (ccTab, tinymt32Init (BitVec.ofNat 32 repairKey))
        return (ccTab, 0)
  | 8 =>
      let (ccTab, _) ← (List.range ccNb).foldlM (drawCoefficient table dt)
        (ccTab, tinymt32Init (BitVec.ofNat 32 repairKey))
      return (ccTab, 0)
  | _ => return (ccTab, -2)

/-! ### The coefficients of a key -/

/-- The first non-zero byte of at most `draws` draws. -/
def nonzeroByte : (draws : Nat) → TinyMt32 → Option (Gf256 × TinyMt32)
  | 0, _ => none
  | draws + 1, s =>
      let (r, s) := tinymt32Rand256 s
      if Gf256.ofNat r.toNat = 0 then nonzeroByte draws s else some (Gf256.ofNat r.toNat, s)

/-- The next coefficient, for `m = 8`. -/
def nextCoefficient (dt : Nat) (s : TinyMt32) : Option (Gf256 × TinyMt32) :=
  if dt = 15 then nonzeroByte prngStates s
  else
    let (r, s) := tinymt32Rand16 s
    if r.toNat ≤ dt then nonzeroByte prngStates s else some (0, s)

/-- The first `n` coefficients from a state of the generator. -/
def coefficientsFrom (dt : Nat) (s : TinyMt32) : Nat → Option (List Gf256 × TinyMt32)
  | 0 => some ([], s)
  | n + 1 =>
      (coefficientsFrom dt s n).bind fun (cs, s) =>
        (nextCoefficient dt s).map fun (c, s) => (cs ++ [c], s)

/-- The `n` coefficients a key and a density stand for, if drawing them ends. -/
def codingCoefficients (repairKey n dt : Nat) : Option (List Gf256) :=
  (coefficientsFrom dt (tinymt32Init (BitVec.ofNat 32 repairKey)) n).map Prod.fst

theorem length_coefficientsFrom {dt n : ℕ} {s s' : TinyMt32} {cs : List Gf256}
    (h : coefficientsFrom dt s n = some (cs, s')) : cs.length = n := by
  induction n generalizing cs s' with
  | zero =>
      cases h
      rfl
  | succ n ih =>
      obtain ⟨⟨cs₁, s₁⟩, first, h⟩ := Option.bind_eq_some_iff.mp h
      obtain ⟨⟨c, s₂⟩, -, eq⟩ := Option.map_eq_some_iff.mp h
      cases eq
      rw [List.length_append, ih first]
      rfl

theorem length_codingCoefficients {repairKey n dt : ℕ} {cs : List Gf256}
    (h : codingCoefficients repairKey n dt = some cs) : cs.length = n := by
  obtain ⟨⟨cs', s'⟩, from_eq, eq⟩ := Option.map_eq_some_iff.mp h
  cases eq
  exact length_coefficientsFrom from_eq

/-! ### Drawing ends -/

section Draw

variable {s : TinyMt32}

/-- A byte drawn from an odd word is not zero. -/
theorem ofNat_rand256_ne_zero (live : s.Live)
    (odd : (tinymt32NextState s).status3.getLsbD 0 = true) :
    Gf256.ofNat (tinymt32Rand256 s).1.toNat ≠ 0 := by
  intro zero
  have byte : BitVec.setWidth 8 (tinymt32Rand256 s).1 = 0#8 := congrArg Gf256.bits zero
  have low : (tinymt32Rand256 s).1.getLsbD 0 = true := by
    show (tinymt32Temper (tinymt32NextState s) &&& 0xff#32).getLsbD 0 = true
    rw [BitVec.getLsbD_and, tinymt32Temper_low live.next.tmat, odd]
    rfl
  have cast := congrArg (fun b => b.getLsbD 0) byte
  rw [BitVec.getLsbD_setWidth, low] at cast
  cases cast

/-- A redrawing loop ends at the first odd word at the latest. -/
theorem nonzeroByte_of_odd (live : s.Live) {k draws : ℕ} (lt : k < draws)
    (odd : (tinymt32NextState^[k + 1] s).status3.getLsbD 0 = true) :
    ∃ c s', nonzeroByte draws s = some (c, s') ∧ s'.Live := by
  obtain ⟨draws, rfl⟩ := Nat.exists_eq_add_of_lt lt
  clear lt
  induction k generalizing s with
  | zero =>
      have draw := ofNat_rand256_ne_zero live odd
      exact ⟨_, _, if_neg draw, live.next⟩
  | succ k ih =>
      by_cases zero : Gf256.ofNat (tinymt32Rand256 s).1.toNat = 0
      · obtain ⟨c, s', rest, live'⟩ := ih live.next odd
        refine ⟨c, s', ?_, live'⟩
        rw [show k + 1 + draws + 1 = k + draws + 1 + 1 by omega]
        exact (if_pos zero).trans rest
      · exact ⟨_, _, if_neg zero, live.next⟩

theorem nonzeroByte_live (live : s.Live) :
    ∃ c s', nonzeroByte prngStates s = some (c, s') ∧ s'.Live := by
  obtain ⟨k, lt, odd⟩ := exists_odd_draw live.nonzero
  have room : 130 ≤ prngStates := by decide
  exact nonzeroByte_of_odd live (lt.trans_le room) odd

theorem nextCoefficient_live (live : s.Live) (dt : ℕ) :
    ∃ c s', nextCoefficient dt s = some (c, s') ∧ s'.Live := by
  unfold nextCoefficient
  split
  · exact nonzeroByte_live live
  · have next : (tinymt32Rand16 s).2.Live := live.next
    dsimp only
    split
    · exact nonzeroByte_live next
    · exact ⟨_, _, rfl, next⟩

theorem coefficientsFrom_live (live : s.Live) (dt n : ℕ) :
    ∃ cs s', coefficientsFrom dt s n = some (cs, s') ∧ s'.Live := by
  induction n with
  | zero => exact ⟨[], s, rfl, live⟩
  | succ n ih =>
      obtain ⟨cs, s', before, live'⟩ := ih
      obtain ⟨c, s'', next, live''⟩ := nextCoefficient_live live' dt
      refine ⟨cs ++ [c], s'', ?_, live''⟩
      rw [coefficientsFrom, before, Option.bind_some]
      dsimp only
      rw [next, Option.map_some]

end Draw

/-! ### What the generator writes -/

section Table

variable {table : Buffer} {tab : List Gf256} {i : ℕ} {s : TinyMt32}

theorem store_cell (inside : i < tab.length) (c : Gf256) :
    Block.store tab i [c] = some (tab.set i c) := by
  rw [Block.store_eq_some (by simp only [List.length_singleton]; omega),
    List.set_eq_take_append_cons_drop, if_pos inside]
  simp

theorem store_cell_outside (outside : tab.length ≤ i) (c : Gf256) : Block.store tab i [c] = none :=
  Block.store_eq_none_iff.mpr (by simp; omega)

/-- Inside the table the loop leaves the first non-zero byte. -/
theorem drawNonzero_eq (inside : i < tab.length) (draws : ℕ) (s : TinyMt32) :
    drawNonzero table i draws tab s =
      match nonzeroByte draws s with
      | none => .error .diverges
      | some (c, s) => .ok (tab.set i c, s) := by
  induction draws generalizing tab s with
  | zero => rfl
  | succ draws ih =>
      unfold drawNonzero nonzeroByte
      dsimp only
      rw [store_cell inside, access_some, ok_bind]
      split
      · rw [ih (by simpa using inside)]
        cases nonzeroByte draws (tinymt32Rand256 s).2 with
        | none => rfl
        | some result => simp
      · rfl

theorem drawCoefficient_eq (inside : i < tab.length) (dt : ℕ) (s : TinyMt32) :
    drawCoefficient table dt (tab, s) i =
      match nextCoefficient dt s with
      | none => .error .diverges
      | some (c, s) => .ok (tab.set i c, s) := by
  unfold drawCoefficient nextCoefficient
  dsimp only
  split
  · exact drawNonzero_eq inside _ _
  · split
    · exact drawNonzero_eq inside _ _
    · rw [store_cell inside]
      rfl

/-- The first write outside the table is a fault. -/
theorem drawCoefficient_outside (outside : tab.length ≤ i) (dt : ℕ) (s : TinyMt32) :
    drawCoefficient table dt (tab, s) i = .error (.outOfBounds table) := by
  have draw : ∀ s, drawNonzero table i prngStates tab s = .error (.outOfBounds table) := by
    intro s
    rw [show prngStates = (2 ^ 128 - 1) + 1 from rfl]
    unfold drawNonzero
    dsimp only
    rw [store_cell_outside outside, access_none, error_bind]
  unfold drawCoefficient
  dsimp only
  split
  · exact draw s
  · split
    · exact draw _
    · rw [store_cell_outside outside, access_none, error_bind]

/-- Writing the entry after the first ones of a table. -/
theorem set_front {cs : List Gf256} {n : ℕ} (length : cs.length = n) (fits : n + 1 ≤ tab.length)
    (c : Gf256) : (cs ++ tab.drop n).set n c = cs ++ [c] ++ tab.drop (n + 1) := by
  rw [List.set_append_right _ _ (by omega), length, Nat.sub_self,
    List.drop_eq_getElem_cons (by omega : n < tab.length), List.set_cons_zero, List.append_assoc]
  rfl

/-- The loop over the entries of a table that is long enough. -/
theorem drawCoefficients_eq (dt : ℕ) (s : TinyMt32) {n : ℕ} (fits : n ≤ tab.length) :
    (List.range n).foldlM (drawCoefficient table dt) (tab, s) =
      match coefficientsFrom dt s n with
      | none => .error .diverges
      | some (cs, s) => .ok (cs ++ tab.drop n, s) := by
  induction n with
  | zero => rfl
  | succ n ih =>
      rw [List.range_succ, List.foldlM_append, ih (by omega), coefficientsFrom]
      cases before : coefficientsFrom dt s n with
      | none => rfl
      | some result =>
          obtain ⟨cs, s'⟩ := result
          have len := length_coefficientsFrom before
          dsimp only
          rw [ok_bind, List.foldlM_cons, Option.bind_some,
            drawCoefficient_eq (by rw [List.length_append, List.length_drop]; omega)]
          cases nextCoefficient dt s' with
          | none => rfl
          | some next =>
              obtain ⟨c, s''⟩ := next
              dsimp only
              rw [ok_bind, List.foldlM_nil, pure_eq_ok, Option.map_some]
              dsimp only
              rw [set_front len fits]

variable {repairKey n dt : ℕ}

/-- A table that is long enough gets the coefficients of the key in front. -/
theorem swifRlcGenerateCodingCoefficients_spec (density : dt ≤ 15) (fits : n ≤ tab.length) :
    ∃ cs, codingCoefficients repairKey n dt = some cs ∧
      swifRlcGenerateCodingCoefficients table repairKey tab n dt 8 =
        .ok (cs ++ tab.drop n, 0) := by
  obtain ⟨cs, s, drawn, -⟩ :=
    coefficientsFrom_live (tinymt32Init_live (BitVec.ofNat 32 repairKey)) dt n
  refine ⟨cs, by rw [codingCoefficients, drawn]; rfl, ?_⟩
  unfold swifRlcGenerateCodingCoefficients
  rw [if_neg (by omega)]
  dsimp only
  rw [drawCoefficients_eq dt _ fits, drawn]
  rfl

/-- A table that is too short is overrun. -/
theorem swifRlcGenerateCodingCoefficients_short (density : dt ≤ 15) (short : tab.length < n) :
    swifRlcGenerateCodingCoefficients table repairKey tab n dt 8 =
      .error (.outOfBounds table) := by
  obtain ⟨cs, s, drawn, -⟩ :=
    coefficientsFrom_live (tinymt32Init_live (BitVec.ofNat 32 repairKey)) dt tab.length
  unfold swifRlcGenerateCodingCoefficients
  rw [if_neg (by omega)]
  dsimp only
  have split : List.range n = List.range tab.length ++ tab.length :: List.range' (tab.length + 1)
      (n - tab.length - 1) := by
    have whole := List.range'_append_1 (s := 0) (m := tab.length) (n := n - tab.length - 1 + 1)
    rw [Nat.zero_add, show tab.length + (n - tab.length - 1 + 1) = n by omega,
      List.range'_succ] at whole
    rw [List.range_eq_range', List.range_eq_range', whole]
  show ((List.range n).foldlM (drawCoefficient table dt)
    (tab, tinymt32Init (BitVec.ofNat 32 repairKey)) >>= fun acc => pure (acc.1, (0 : Int))) = _
  have len := length_coefficientsFrom drawn
  rw [split, List.foldlM_append, drawCoefficients_eq dt _ le_rfl, drawn]
  dsimp only
  rw [ok_bind, List.foldlM_cons, drawCoefficient_outside (by simp [len]), error_bind, error_bind]

/-- A redrawing loop ends, inside the table or at its end. -/
theorem drawNonzero_ends (live : s.Live) (i : ℕ) :
    drawNonzero table i prngStates tab s ≠ .error .diverges := by
  rcases Nat.lt_or_ge i tab.length with inside | outside
  · obtain ⟨c, s', drawn, -⟩ := nonzeroByte_live live
    rw [drawNonzero_eq inside, drawn]
    nofun
  · rw [show prngStates = (2 ^ 128 - 1) + 1 from rfl]
    unfold drawNonzero
    dsimp only
    rw [store_cell_outside outside, access_none, error_bind]
    nofun

/-- A density above 15 is refused and the table kept. -/
theorem swifRlcGenerateCodingCoefficients_refused (density : 15 < dt) :
    swifRlcGenerateCodingCoefficients table repairKey tab n dt 8 = .ok (tab, -1) := by
  unfold swifRlcGenerateCodingCoefficients
  rw [if_pos density]
  rfl

/-- The generator ends for every key, count and density. -/
theorem swifRlcGenerateCodingCoefficients_ends :
    swifRlcGenerateCodingCoefficients table repairKey tab n dt 8 ≠ .error .diverges := by
  rcases Nat.lt_or_ge 15 dt with refused | density
  · rw [swifRlcGenerateCodingCoefficients_refused refused]
    nofun
  · rcases Nat.lt_or_ge tab.length n with short | fits
    · rw [swifRlcGenerateCodingCoefficients_short density short]
      nofun
    · obtain ⟨cs, -, generate_eq⟩ := swifRlcGenerateCodingCoefficients_spec density fits
      rw [generate_eq]
      nofun

end Table

/-- From every state of a generator some later byte is not zero, a redrawing loop started
there ends, and so does the generation of coefficients with any key, count and density. -/
theorem redrawing_ends (repairKey draws : ℕ) :
    (∃ k, Gf256.ofNat (tinymt32Rand256 (tinymt32NextState^[k] (tinymt32NextState^[draws]
      (tinymt32Init (BitVec.ofNat 32 repairKey))))).1.toNat ≠ 0) ∧
    (∀ table i tab, drawNonzero table i prngStates tab (tinymt32NextState^[draws]
      (tinymt32Init (BitVec.ofNat 32 repairKey))) ≠ .error .diverges) ∧
    ∀ table tab ccNb dt,
      swifRlcGenerateCodingCoefficients table repairKey tab ccNb dt 8 ≠ .error .diverges := by
  have live := (tinymt32Init_live (BitVec.ofNat 32 repairKey)).iterate draws
  obtain ⟨k, -, odd⟩ := exists_odd_draw live.nonzero
  rw [Function.iterate_succ_apply'] at odd
  refine ⟨⟨k, ofNat_rand256_ne_zero (live.iterate k) odd⟩, ?_, ?_⟩
  · intro table i tab
    exact drawNonzero_ends live i
  · intro table tab ccNb dt
    exact swifRlcGenerateCodingCoefficients_ends

end SwifCodec
