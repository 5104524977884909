import SwifCodec.CodingCoefficients

/-!
What the tables of `swif_rlc_generate_coding_coefficients` have in common.

For `m = 1` every entry takes one draw, so entry `i` is decided by the state after `i`
draws. For `m = 8` an entry takes as many draws as it needs, and the coefficients of a
longer table are those of the shorter one, continued from the state it left
(`coefficientsFrom_add`). `codingCoefficients_law` collects the consequences.
-/

namespace SwifCodec

open Library TinyMt32

/-! ### One bit for each draw -/

/-- The first `n` coefficients from a state of the generator, for `m = 1`. -/
def bitsFrom (dt : ℕ) (s : TinyMt32) (n : ℕ) : List Gf256 :=
  (List.range n).map fun i => if (tinymt32Rand16 (s.draws i)).1.toNat ≤ dt then 1 else 0

section Bits

variable {table : Buffer} {tab : List Gf256} {dt dt' n i : ℕ} {s : TinyMt32}

theorem TinyMt32.draws_succ (s : TinyMt32) (n : ℕ) :
    s.draws (n + 1) = (tinymt32Rand16 (s.draws n)).2 := by
  unfold TinyMt32.draws
  rw [Function.iterate_succ_apply']
  rfl

theorem length_bitsFrom : (bitsFrom dt s n).length = n := by
  rw [bitsFrom, List.length_map, List.length_range]

theorem getElem?_bitsFrom (lt : i < n) :
    (bitsFrom dt s n)[i]? =
      some (if (tinymt32Rand16 (s.draws i)).1.toNat ≤ dt then 1 else 0) := by
  rw [bitsFrom, List.getElem?_map, List.getElem?_range lt, Option.map_some]

/-- The loop over the entries of a table that is long enough. -/
theorem drawBits_eq (fits : n ≤ tab.length) :
    (List.range n).foldlM (drawBit table dt) (tab, s) =
      .ok (bitsFrom dt s n ++ tab.drop n, s.draws n) := by
  induction n with
  | zero => rfl
  | succ n ih =>
      have inside : n < (bitsFrom dt s n ++ tab.drop n).length := by
        rw [List.length_append, length_bitsFrom, List.length_drop]
        omega
      rw [List.range_succ, List.foldlM_append, ih (by omega), ok_bind, List.foldlM_cons, drawBit]
      dsimp only
      rw [store_cell inside, access_some, ok_bind, pure_eq_ok, ok_bind, List.foldlM_nil,
        pure_eq_ok, set_front length_bitsFrom fits, TinyMt32.draws_succ]
      congr 2
      rw [bitsFrom, bitsFrom, List.range_succ, List.map_append, List.map_singleton]

/-- A number of four bits is at most 15. -/
theorem rand16_le (s : TinyMt32) : (tinymt32Rand16 s).1.toNat ≤ 15 := by
  show (tinymt32Temper (tinymt32NextState s) &&& 0xf#32).toNat ≤ 15
  rw [BitVec.toNat_and]
  exact Nat.and_le_right

/-- At the highest density every bit is set. -/
theorem bitsFrom_dense (s : TinyMt32) (n : ℕ) : bitsFrom 15 s n = List.replicate n 1 := by
  refine List.eq_replicate_iff.mpr ⟨length_bitsFrom, fun c mem => ?_⟩
  obtain ⟨i, -, rfl⟩ := List.mem_map.mp mem
  exact if_pos (rand16_le _)

/-- A bit that is set stays set at a higher density. -/
theorem bitsFrom_mono (le : dt ≤ dt') (lt : i < n) (one : (bitsFrom dt s n)[i]? = some 1) :
    (bitsFrom dt' s n)[i]? = some 1 := by
  rw [getElem?_bitsFrom lt] at one ⊢
  split at one
  case isTrue drawn => rw [if_pos (drawn.trans le)]
  case isFalse => cases one

end Bits

/-! ### Coefficients of GF(2^8) -/

section Bytes

variable {dt n : ℕ} {s s' : TinyMt32} {c : Gf256} {cs : List Gf256}

/-- A longer table continues from the state the shorter one left. -/
theorem coefficientsFrom_add (dt : ℕ) (s : TinyMt32) (n k : ℕ) :
    coefficientsFrom dt s (n + k) =
      (coefficientsFrom dt s n).bind fun (cs, s') =>
        (coefficientsFrom dt s' k).map fun (cs', s'') => (cs ++ cs', s'') := by
  induction k with
  | zero =>
      rw [Nat.add_zero]
      cases coefficientsFrom dt s n with
      | none => rfl
      | some result => simp [coefficientsFrom]
  | succ k ih =>
      rw [Nat.add_succ, coefficientsFrom, ih]
      cases coefficientsFrom dt s n with
      | none => rfl
      | some result =>
          obtain ⟨cs, s'⟩ := result
          rw [Option.bind_some, Option.bind_some]
          dsimp only
          rw [coefficientsFrom]
          cases coefficientsFrom dt s' k with
          | none => rfl
          | some result' =>
              obtain ⟨cs', s''⟩ := result'
              rw [Option.map_some, Option.bind_some, Option.bind_some]
              dsimp only
              cases nextCoefficient dt s'' with
              | none => rfl
              | some next => rw [Option.map_some, Option.map_some, Option.map_some,
                  List.append_assoc]

theorem nonzeroByte_ne_zero {draws : ℕ} (drawn : nonzeroByte draws s = some (c, s')) : c ≠ 0 := by
  induction draws generalizing s with
  | zero => cases drawn
  | succ draws ih =>
      unfold nonzeroByte at drawn
      dsimp only at drawn
      split at drawn
      case isTrue => exact ih drawn
      case isFalse ne =>
        cases drawn
        exact ne

/-- At the highest density every coefficient is drawn until it is not zero. -/
theorem coefficientsFrom_dense (drawn : coefficientsFrom 15 s n = some (cs, s')) :
    ∀ c ∈ cs, c ≠ 0 := by
  induction n generalizing cs s' with
  | zero =>
      cases drawn
      nofun
  | succ n ih =>
      obtain ⟨⟨front, s₁⟩, before, rest⟩ := Option.bind_eq_some_iff.mp drawn
      obtain ⟨⟨last, s₂⟩, next, eq⟩ := Option.map_eq_some_iff.mp rest
      cases eq
      intro c mem
      rcases List.mem_append.mp mem with old | new
      · exact ih before c old
      · rw [List.mem_singleton.mp new]
        unfold nextCoefficient at next
        rw [if_pos rfl] at next
        exact nonzeroByte_ne_zero next

end Bytes

/-! ### The law -/

section Law

variable {table : Buffer} {tab : List Gf256} {repairKey dt m n : ℕ}

/-- A table of bits that is long enough, also at the highest density, where the source
fills it without drawing. -/
theorem swifRlcGenerateCodingCoefficients_bits (density : dt ≤ 15) (fits : n ≤ tab.length) :
    swifRlcGenerateCodingCoefficients table repairKey tab n dt 1 =
      .ok (bitsFrom dt (tinymt32Init (BitVec.ofNat 32 repairKey)) n ++ tab.drop n, 0) := by
  unfold swifRlcGenerateCodingCoefficients
  rw [if_neg (by omega)]
  dsimp only
  by_cases dense : dt = 15
  · subst dense
    have inside : 0 + (List.replicate n (1 : Gf256)).length ≤ tab.length := by
      rw [List.length_replicate]
      omega
    rw [if_pos rfl, bitsFrom_dense, Block.fill, Block.store_eq_some inside, access_some, ok_bind,
      pure_eq_ok]
    simp
  · rw [if_neg dense, drawBits_eq fits]
    rfl

/-- The tables of a key and a density have one sequence of coefficients in front. -/
theorem exists_front (repairKey : ℕ) (density : dt ≤ 15) (field : m = 1 ∨ m = 8) :
    ∃ front : ℕ → List Gf256, (∀ n, (front n).length = n) ∧
      (∀ n n', n ≤ n' → front n <+: front n') ∧
      ∀ table tab n, n ≤ tab.length →
        swifRlcGenerateCodingCoefficients table repairKey tab n dt m =
          .ok (front n ++ tab.drop n, 0) := by
  rcases field with rfl | rfl
  · refine ⟨fun n => bitsFrom dt (tinymt32Init (BitVec.ofNat 32 repairKey)) n,
      fun n => length_bitsFrom, fun n n' le => ?_, fun table tab n fits => ?_⟩
    · obtain ⟨k, rfl⟩ := Nat.exists_eq_add_of_le le
      dsimp only
      rw [bitsFrom, bitsFrom, List.range_add, List.map_append]
      exact List.prefix_append _ _
    · exact swifRlcGenerateCodingCoefficients_bits density fits
  · have drawn : ∀ n, ∃ cs s', coefficientsFrom dt (tinymt32Init (BitVec.ofNat 32 repairKey)) n =
        some (cs, s') := by
      intro n
      obtain ⟨cs, s', eq, -⟩ :=
        coefficientsFrom_live (tinymt32Init_live (BitVec.ofNat 32 repairKey)) dt n
      exact ⟨cs, s', eq⟩
    choose front state front_eq using drawn
    refine ⟨front, fun n => length_coefficientsFrom (front_eq n), fun n n' le => ?_,
      fun table tab n fits => ?_⟩
    · obtain ⟨k, rfl⟩ := Nat.exists_eq_add_of_le le
      have whole := front_eq (n + k)
      rw [coefficientsFrom_add, front_eq n, Option.bind_some] at whole
      obtain ⟨⟨rest, s''⟩, -, eq⟩ := Option.map_eq_some_iff.mp whole
      obtain ⟨same, -⟩ := Prod.mk.inj eq
      rw [← same]
      exact List.prefix_append _ _
    · obtain ⟨cs, coefs_eq, generate_eq⟩ : ∃ cs, codingCoefficients repairKey n dt = some cs ∧
          swifRlcGenerateCodingCoefficients table repairKey tab n dt 8 =
            .ok (cs ++ tab.drop n, 0) := swifRlcGenerateCodingCoefficients_spec density fits
      rw [codingCoefficients, front_eq n, Option.map_some] at coefs_eq
      cases coefs_eq
      exact generate_eq

/-- A call that is refused returns another code than 0 and keeps the table. -/
theorem swifRlcGenerateCodingCoefficients_returns_error (bad : 15 < dt ∨ m ≠ 1 ∧ m ≠ 8) :
    ∃ code ≠ 0, swifRlcGenerateCodingCoefficients table repairKey tab n dt m =
      .ok (tab, code) := by
  unfold swifRlcGenerateCodingCoefficients
  by_cases density : 15 < dt
  · exact ⟨-1, by decide, if_pos density⟩
  · obtain ⟨not_one, not_eight⟩ := bad.resolve_left density
    refine ⟨-2, by decide, (if_neg density).trans ?_⟩
    split
    case h_1 => exact absurd rfl not_one
    case h_2 => exact absurd rfl not_eight
    case h_3 => rfl

end Law

/-- For every key: the coefficients of a table are those of every longer table, and the
entries behind them are kept; at the highest density no coefficient of GF(2^8) is zero,
and those of GF(2) are the ones the drawing loop would give; a coefficient of GF(2) that
is 1 stays 1 at a higher density; and a bad density or field is refused. -/
theorem codingCoefficients_law (table : Buffer) (repairKey : ℕ) :
    (∀ dt m n n' (tab tab' : List Gf256), dt ≤ 15 → m = 1 ∨ m = 8 → n ≤ n' → n ≤ tab.length →
      n' ≤ tab'.length →
      ∃ out out', swifRlcGenerateCodingCoefficients table repairKey tab n dt m = .ok (out, 0) ∧
        swifRlcGenerateCodingCoefficients table repairKey tab' n' dt m = .ok (out', 0) ∧
        (∀ i < n, out'[i]? = out[i]?) ∧ (∀ i, n ≤ i → out[i]? = tab[i]?) ∧
        ∀ i, n' ≤ i → out'[i]? = tab'[i]?) ∧
    (∀ n (tab : List Gf256), n ≤ tab.length →
      ∃ out, swifRlcGenerateCodingCoefficients table repairKey tab n 15 8 = .ok (out, 0) ∧
        ∀ i < n, out.getD i 0 ≠ 0) ∧
    (∀ n (tab : List Gf256), n ≤ tab.length →
      swifRlcGenerateCodingCoefficients table repairKey tab n 15 1 =
        (do
          let (ccTab, _) ← (List.range n).foldlM (drawBit table 15)
            (tab, tinymt32Init (BitVec.ofNat 32 repairKey))
          return (ccTab, 0))) ∧
    (∀ dt dt' n (tab tab' : List Gf256), dt ≤ dt' → dt' ≤ 15 → n ≤ tab.length →
      n ≤ tab'.length →
      ∃ out out', swifRlcGenerateCodingCoefficients table repairKey tab n dt 1 = .ok (out, 0) ∧
        swifRlcGenerateCodingCoefficients table repairKey tab' n dt' 1 = .ok (out', 0) ∧
        ∀ i < n, out[i]? = some 1 → out'[i]? = some 1) ∧
    ∀ dt m n (tab : List Gf256), 15 < dt ∨ m ≠ 1 ∧ m ≠ 8 →
      ∃ code ≠ 0, swifRlcGenerateCodingCoefficients table repairKey tab n dt m =
        .ok (tab, code) := by
  refine ⟨?_, ?_, ?_, ?_, ?_⟩
  · intro dt m n n' tab tab' density field le fits fits'
    obtain ⟨front, length, sub, generate_eq⟩ := exists_front repairKey density field
    refine ⟨_, _, generate_eq table tab n fits, generate_eq table tab' n' fits', ?_, ?_, ?_⟩
    · intro i lt
      rw [List.getElem?_append_left (by rw [length]; omega),
        List.getElem?_append_left (by rw [length]; omega)]
      obtain ⟨rest, eq⟩ := sub n n' le
      rw [← eq, List.getElem?_append_left (by rw [length]; omega)]
    · intro i behind
      rw [List.getElem?_append_right (by rw [length]; omega), length, List.getElem?_drop,
        Nat.add_sub_cancel' behind]
    · intro i behind
      rw [List.getElem?_append_right (by rw [length]; omega), length, List.getElem?_drop,
        Nat.add_sub_cancel' behind]
  · intro n tab fits
    obtain ⟨cs, coefs_eq, generate_eq⟩ : ∃ cs, codingCoefficients repairKey n 15 = some cs ∧
        swifRlcGenerateCodingCoefficients table repairKey tab n 15 8 =
          .ok (cs ++ tab.drop n, 0) := swifRlcGenerateCodingCoefficients_spec le_rfl fits
    have length := length_codingCoefficients coefs_eq
    refine ⟨_, generate_eq, fun i lt => ?_⟩
    obtain ⟨⟨cs', s'⟩, drawn, rfl⟩ := Option.map_eq_some_iff.mp coefs_eq
    have inside : i < cs'.length := length.symm ▸ lt
    rw [List.getD_eq_getElem?_getD, List.getElem?_append_left inside,
      List.getElem?_eq_getElem inside, Option.getD_some]
    exact coefficientsFrom_dense drawn _ (List.getElem_mem inside)
  · intro n tab fits
    rw [swifRlcGenerateCodingCoefficients_bits le_rfl fits, drawBits_eq fits]
    rfl
  · intro dt dt' n tab tab' le density fits fits'
    refine ⟨_, _, swifRlcGenerateCodingCoefficients_bits (le.trans density) fits,
      swifRlcGenerateCodingCoefficients_bits density fits', fun i lt one => ?_⟩
    rw [List.getElem?_append_left (by rwa [length_bitsFrom])] at one ⊢
    exact bitsFrom_mono le lt one
  · intro dt m n tab bad
    exact swifRlcGenerateCodingCoefficients_returns_error bad

theorem codingCoefficients_law_seven :
    (∃ out out',
      swifRlcGenerateCodingCoefficients .ccTab 7 [0, 1, 0] 2 6 8 = .ok (out, 0) ∧
        swifRlcGenerateCodingCoefficients .ccTab 7 [0, 0, 1, 1] 3 6 8 = .ok (out', 0) ∧
        (∀ i < 2, out'[i]? = out[i]?) ∧ (∀ i, 2 ≤ i → out[i]? = ([0, 1, 0] : List Gf256)[i]?) ∧
        ∀ i, 3 ≤ i → out'[i]? = ([0, 0, 1, 1] : List Gf256)[i]?) ∧
    (∃ out, swifRlcGenerateCodingCoefficients .ccTab 7 [0, 1, 0] 2 15 8 = .ok (out, 0) ∧
      ∀ i < 2, out.getD i 0 ≠ 0) ∧
    (∃ out out',
      swifRlcGenerateCodingCoefficients .ccTab 7 [0, 1, 0] 2 6 1 = .ok (out, 0) ∧
        swifRlcGenerateCodingCoefficients .ccTab 7 [0, 0, 1, 1] 2 9 1 = .ok (out', 0) ∧
        ∀ i < 2, out[i]? = some 1 → out'[i]? = some 1) ∧
    ∃ code ≠ 0,
      swifRlcGenerateCodingCoefficients .ccTab 7 [0, 1, 0] 2 16 8 = .ok ([0, 1, 0], code) := by
  obtain ⟨same, dense, -, mono, refused⟩ := codingCoefficients_law .ccTab 7
  exact ⟨same 6 8 2 3 _ _ (by decide) (.inr rfl) (by decide) (by decide) (by decide),
    dense 2 _ (by decide), mono 6 9 2 _ _ (by decide) (by decide) (by decide) (by decide),
    refused 16 8 2 _ (.inl (by decide))⟩

end SwifCodec
