import SwifCodec.FullSymbol.Laws

/-!
Specifications of the operations on full symbols: creation, cloning, scaling and
addition. Each says that the call returns, that the result is well formed, and
what its coefficients and data are.
-/

namespace SwifCodec

open Library FullSymbol

/-! ### Allocation and copies -/

/-- Allocation over a real range gives the zero symbol there. -/
theorem fullSymbolAlloc_spec {first last : ℕ} (ordered : first ≤ last) (below : last < symbolIdNone)
    (size : ℕ) :
    ∃ r, fullSymbolAlloc first last size = .ok r ∧ r.WellFormed ∧ r.firstId = first ∧
      r.lastId = last ∧ r.coef = List.replicate (last - first + 1) 0 ∧
      r.data = List.replicate size 0 := by
  have size32 : symbolIdNone = 4294967295 := rfl
  have ranged : Ranged
      { coef := List.replicate (last - first + 1) 0, firstId := first, lastId := last,
        firstNonzeroId := 0, lastNonzeroId := 0, data := List.replicate size 0 } :=
    ⟨ordered, below, by simp⟩
  obtain ⟨t, found, eq, wf, same⟩ := fullSymbolAdjustMinMaxCoef_spec ranged
  refine ⟨t, ?_, wf, same.firstId, same.lastId, same.coef, same.data⟩
  unfold fullSymbolAlloc
  rw [if_neg (by omega), cAssert_of (by simpa using ordered), ok_bind, pure_eq_ok, ok_bind,
    add32_of_lt (by omega)]
  dsimp only
  rw [eq]
  rfl

/-- Allocation over the empty range. -/
theorem fullSymbolAlloc_none (size : ℕ) :
    fullSymbolAlloc symbolIdNone symbolIdNone size =
      .ok { coef := [0], firstId := symbolIdNone, lastId := symbolIdNone,
            firstNonzeroId := symbolIdNone, lastNonzeroId := symbolIdNone,
            data := List.replicate size 0 } := by
  simp [fullSymbolAlloc, fullSymbolAdjustMinMaxCoef]

/-- A clone of a non-zero symbol is the symbol. -/
theorem fullSymbolClone_of_nonzero {s : FullSymbol} (wf : s.WellFormed)
    (nz : fullSymbolIsZero s = false) : fullSymbolClone s = .ok s := by
  have size : symbolIdNone = 4294967295 := rfl
  obtain ⟨r, -⟩ := wf.bounded nz
  obtain ⟨t, alloc_eq, -, -, -, coef_eq, data_eq⟩ :=
    fullSymbolAlloc_spec r.ordered r.below s.data.length
  have below := r.below
  have cells := r.cells
  unfold fullSymbolClone fullSymbolGetSize
  rw [alloc_eq, ok_bind]
  simp only [nz, Bool.false_eq_true, if_false]
  rw [add32_of_lt (by omega), ← cells, Block.load_all, access_some, ok_bind, coef_eq, data_eq,
    Block.store_all (by simpa using cells), access_some, ok_bind,
    Block.store_all (by simp), access_some, ok_bind]
  rfl

/-- A clone of a zero symbol is a zero symbol of the same size with zero data. -/
theorem fullSymbolClone_of_zero {s : FullSymbol} (wf : s.WellFormed)
    (zero : fullSymbolIsZero s = true) :
    ∃ r, fullSymbolClone s = .ok r ∧ r.WellFormed ∧ fullSymbolIsZero r = true ∧
      r.data = List.replicate s.data.length 0 ∧ (r.firstId = symbolIdNone → r.coef = [0]) := by
  unfold fullSymbolClone fullSymbolGetSize
  simp only [zero, if_true]
  rcases wf with e | ⟨r, c | b⟩
  · rw [e.first, e.last, fullSymbolAlloc_none]
    exact ⟨_, rfl, .inl ⟨rfl, rfl, rfl, e.firstNonzero, e.lastNonzero⟩,
      by simpa [fullSymbolIsZero, fullSymbolGetMinSymbolId] using e.firstNonzero, rfl, fun _ => rfl⟩
  · obtain ⟨t, alloc_eq, -, first, last, coef_eq, data_eq⟩ :=
      fullSymbolAlloc_spec r.ordered r.below s.data.length
    rw [alloc_eq]
    refine ⟨_, rfl, .inr ⟨⟨r.ordered, r.below, by simp [coef_eq]⟩, .inl ⟨c.first, c.last, ?_⟩⟩, ?_,
      data_eq, fun none => absurd none r.first_ne_none⟩
    · intro i
      simp only [fullSymbolGetCoef, coef_eq]
      split
      · rw [List.getD_eq_getElem?_getD, List.getElem?_replicate]
        split <;> rfl
      · rfl
    · simpa [fullSymbolIsZero, fullSymbolGetMinSymbolId] using c.first
  · have := (b.below r).1
    simp [fullSymbolIsZero, fullSymbolGetMinSymbolId] at zero
    omega

/-! ### Scaling -/

theorem symbolMul_all (block : List Gf256) (c : Gf256) :
    symbolMul block c block.length = some (block.map (c * ·)) := by
  unfold symbolMul
  split
  case isTrue zero =>
    subst zero
    rw [Block.fill_all rfl]
    simp [List.map_const']
  case isFalse =>
    rw [Block.load_all, Option.bind_some, Block.store_all (by simp)]
    rfl

theorem getD_map_mul (block : List Gf256) (c : Gf256) (i : ℕ) :
    (block.map (c * ·)).getD i 0 = c * block.getD i 0 := by
  rw [List.getD_eq_getElem?_getD, List.getD_eq_getElem?_getD, List.getElem?_map]
  cases block[i]? <;> simp

/-- A zero symbol is not scaled. -/
theorem fullSymbolScale_of_zero {s : FullSymbol} (zero : fullSymbolIsZero s = true) (c : Gf256) :
    fullSymbolScale s c = .ok s := by
  have none : s.firstNonzeroId = symbolIdNone := by
    simpa [fullSymbolIsZero, fullSymbolGetMinSymbolId] using zero
  unfold fullSymbolScale
  rw [if_pos (.inr none)]
  rfl

/-- Scaling a non-zero symbol multiplies its cells and recomputes the bounds. -/
theorem fullSymbolScale_of_nonzero {s : FullSymbol} (wf : s.WellFormed)
    (nz : fullSymbolIsZero s = false) (c : Gf256) :
    ∃ t, fullSymbolScale s c = .ok t ∧ t.WellFormed ∧
      t.SameContent { s with coef := s.coef.map (c * ·), data := s.data.map (c * ·) } := by
  have size : symbolIdNone = 4294967295 := rfl
  obtain ⟨r, b⟩ := wf.bounded nz
  obtain ⟨first_lt, last_lt⟩ := b.below r
  have below := r.below
  have ordered := r.ordered
  have cells := r.cells
  have count : fullSymbolCountAllocatedCoef s = .ok s.coef.length := by
    unfold fullSymbolCountAllocatedCoef
    rw [if_neg (by omega), cAssert_of (by simpa using ordered), ok_bind, pure_eq_ok,
      add32_of_lt (by omega), cells]
  have ranged : Ranged
      { s with coef := s.coef.map (c * ·), data := s.data.map (c * ·) } :=
    ⟨ordered, below, by simpa using cells⟩
  obtain ⟨t, found, eq, wft, same⟩ := fullSymbolAdjustMinMaxCoef_spec ranged
  refine ⟨t, ?_, wft, same⟩
  have first_ne := r.first_ne_none
  unfold fullSymbolScale
  rw [if_neg (by omega), cAssert_of (by simp; omega), ok_bind, symbolMul_all, access_some,
    ok_bind, count, ok_bind, symbolMul_all, access_some, ok_bind, eq]
  rfl

/-- Scaling acts linearly on the coefficients, and on the data of a non-zero symbol. -/
theorem fullSymbolScale_spec {s : FullSymbol} (wf : s.WellFormed) (c : Gf256) :
    ∃ r, fullSymbolScale s c = .ok r ∧ r.WellFormed ∧ r.coefs = c • s.coefs ∧
      r.data.length = s.data.length ∧
      (fullSymbolIsZero s = false → r.payload = c • s.payload) := by
  cases zero : fullSymbolIsZero s with
  | true =>
      refine ⟨s, fullSymbolScale_of_zero zero c, wf, ?_, rfl, fun h => absurd h (by decide)⟩
      rw [wf.isZero_iff.mp zero, smul_zero]
  | false =>
      obtain ⟨r, -⟩ := wf.bounded zero
      obtain ⟨t, eq, wft, same⟩ := fullSymbolScale_of_nonzero wf zero c
      have rt := wft.ranged_of_first_ne (same.firstId ▸ r.first_ne_none)
      refine ⟨t, eq, wft, ?_, by simp [same.data], fun _ => ?_⟩
      · ext1 i
        have first : t.firstId = s.firstId := same.firstId
        have last : t.lastId = s.lastId := same.lastId
        have cell : t.coef = s.coef.map (c * ·) := same.coef
        rw [Finsupp.smul_apply, r.coefs_apply, rt.coefs_apply]
        by_cases inside : s.firstId ≤ i ∧ i ≤ s.lastId
        · rw [fullSymbolGetCoef_of_mem inside, fullSymbolGetCoef_of_mem (by omega), cell, first,
            getD_map_mul, smul_eq_mul]
        · rw [fullSymbolGetCoef_of_not_mem (by omega), fullSymbolGetCoef_of_not_mem (by omega),
            smul_zero]
      · funext i
        rw [payload, same.data]
        exact getD_map_mul s.data c i

/-- Scaling a non-zero symbol by a non-zero factor leaves it non-zero. -/
theorem isZero_scale {s r : FullSymbol} (wf : s.WellFormed) (wfr : r.WellFormed) {c : Gf256}
    (coefs : r.coefs = c • s.coefs) (hc : c ≠ 0) : fullSymbolIsZero r = fullSymbolIsZero s := by
  rw [Bool.eq_iff_iff, wfr.isZero_iff, wf.isZero_iff, coefs, smul_eq_zero_iff_right hc]

/-! ### Addition -/

/-- A list is determined by its reads with default. -/
theorem eq_map_range' {block : List Gf256} {first n : ℕ} {f : ℕ → Gf256}
    (length : block.length = n) (read : ∀ k < n, block[k]? = some (f (first + k))) :
    block = (List.range' first n).map f := by
  apply List.ext_getElem?
  intro k
  rw [List.getElem?_map]
  by_cases lt : k < n
  · rw [read k lt, List.getElem?_range' lt, Option.map_some, Nat.one_mul]
  · rw [List.getElem?_eq_none (by omega), List.getElem?_eq_none (by rw [List.length_range']; omega),
      Option.map_none]

theorem getD_map_range' {first n k : ℕ} {f : ℕ → Gf256} (lt : k < n) :
    ((List.range' first n).map f).getD k 0 = f (first + k) := by
  rw [List.getD_eq_getElem?_getD, List.getElem?_map, List.getElem?_range' lt]
  simp

theorem getD_of_length_le {block : List Gf256} {k : ℕ} (h : block.length ≤ k) :
    block.getD k 0 = 0 := by
  rw [List.getD_eq_getElem?_getD, List.getElem?_eq_none h, Option.getD_none]

/-- Data written as a sum of zero-extended sequences. -/
theorem payload_map_range' {r s t : FullSymbol} {n : ℕ} (size_s : s.data.length ≤ n)
    (size_t : t.data.length ≤ n) :
    ({ r with data := (List.range' 0 n).map fun i => s.data.getD i 0 + t.data.getD i 0 } :
      FullSymbol).payload = s.payload + t.payload := by
  funext i
  rw [Pi.add_apply, payload, payload, payload]
  by_cases lt : i < n
  · rw [getD_map_range' lt, Nat.zero_add]
  · rw [getD_of_length_le (by simp; omega), getD_of_length_le (by omega),
      getD_of_length_le (by omega), add_zero]

theorem gf256Add_comm (a b : Gf256) : gf256Add a b = gf256Add b a := add_comm a b

section AddBase

variable {s t r : FullSymbol}

/-- The three writes into the coefficients of the result leave the sum in every cell. -/
theorem addBase_coef (rr : r.Ranged) (bs : s.Bounded) (bt : t.Bounded)
    (first_s : r.firstId ≤ s.firstNonzeroId) (first_t : r.firstId ≤ t.firstNonzeroId)
    (last_s : s.lastNonzeroId ≤ r.lastId) (last_t : t.lastNonzeroId ≤ r.lastId) :
    ∃ c₁ c₂,
      Block.fill r.coef 0 (min s.firstNonzeroId t.firstNonzeroId - r.firstId) 0 = some c₁ ∧
      Block.fill c₁ (max s.lastNonzeroId t.lastNonzeroId + 1 - r.firstId)
        (r.lastId - max s.lastNonzeroId t.lastNonzeroId) 0 = some c₂ ∧
      Block.store c₂ (min s.firstNonzeroId t.firstNonzeroId - r.firstId)
        ((List.range' (min s.firstNonzeroId t.firstNonzeroId)
          (max s.lastNonzeroId t.lastNonzeroId + 1 - min s.firstNonzeroId t.firstNonzeroId)).map
          fun i => gf256Add (fullSymbolGetCoef s i) (fullSymbolGetCoef t i)) =
        some ((List.range' r.firstId r.coef.length).map
          fun i => fullSymbolGetCoef s i + fullSymbolGetCoef t i) := by
  have cells := rr.cells
  have orders := bs.ordered
  have ordert := bt.ordered
  generalize hfirst : min s.firstNonzeroId t.firstNonzeroId = first at *
  generalize hlast : max s.lastNonzeroId t.lastNonzeroId = last at *
  obtain ⟨c₁, h₁⟩ : ∃ c₁, Block.fill r.coef 0 (first - r.firstId) 0 = some c₁ :=
    ⟨_, Block.store_eq_some (by rw [List.length_replicate]; omega)⟩
  have len₁ := Block.length_of_store h₁
  obtain ⟨c₂, h₂⟩ : ∃ c₂, Block.fill c₁ (last + 1 - r.firstId) (r.lastId - last) 0 = some c₂ :=
    ⟨_, Block.store_eq_some (by rw [List.length_replicate]; omega)⟩
  have len₂ := Block.length_of_store h₂
  obtain ⟨c₃, h₃⟩ : ∃ c₃, Block.store c₂ (first - r.firstId)
      ((List.range' first (last + 1 - first)).map
        fun i => gf256Add (fullSymbolGetCoef s i) (fullSymbolGetCoef t i)) = some c₃ :=
    ⟨_, Block.store_eq_some (by rw [List.length_map, List.length_range']; omega)⟩
  have len₃ := Block.length_of_store h₃
  refine ⟨c₁, c₂, h₁, h₂, h₃.trans (congrArg some (eq_map_range' (by omega) fun k hk => ?_))⟩
  have outside : ∀ i, i < first ∨ last < i →
      fullSymbolGetCoef s i + fullSymbolGetCoef t i = 0 := by
    intro i hi
    rw [bs.outside i (by omega), bt.outside i (by omega), add_zero]
  rw [Block.getElem?_of_store h₃, Block.getElem?_of_store h₂, Block.getElem?_of_store h₁]
  simp only [List.length_map, List.length_range', List.length_replicate, List.getElem?_map,
    List.getElem?_replicate]
  by_cases lo : r.firstId + k < first
  · rw [if_neg (by omega), if_neg (by omega), if_pos (by omega), if_pos (by omega),
      outside _ (.inl lo)]
  · by_cases hi : last < r.firstId + k
    · rw [if_neg (by omega), if_pos (by omega), if_pos (by omega), outside _ (.inr hi)]
    · rw [if_pos (by omega), List.getElem?_range' (by omega), Option.map_some]
      rw [show first + 1 * (k - (first - r.firstId)) = r.firstId + k by omega]
      rfl

/-- A symbol whose cells hold the sums is the sum. -/
theorem addBase_coefs (rs : s.Ranged) (bs : s.Bounded) (rt : t.Ranged) (bt : t.Bounded)
    (rr : r.Ranged) (first_s : r.firstId ≤ s.firstNonzeroId)
    (first_t : r.firstId ≤ t.firstNonzeroId) (last_s : s.lastNonzeroId ≤ r.lastId)
    (last_t : t.lastNonzeroId ≤ r.lastId) {u : FullSymbol} (ru : u.Ranged)
    (same : u.SameContent
      { r with
        coef := (List.range' r.firstId r.coef.length).map
          fun i => fullSymbolGetCoef s i + fullSymbolGetCoef t i }) :
    u.coefs = s.coefs + t.coefs := by
  have cells := rr.cells
  have first : u.firstId = r.firstId := same.firstId
  have last : u.lastId = r.lastId := same.lastId
  have cell : u.coef = _ := same.coef
  ext1 i
  rw [Finsupp.add_apply, rs.coefs_apply, rt.coefs_apply, ru.coefs_apply]
  by_cases inside : r.firstId ≤ i ∧ i ≤ r.lastId
  · rw [fullSymbolGetCoef_of_mem (by omega), cell, first, getD_map_range' (by omega),
      Nat.add_sub_cancel' inside.1]
  · rw [fullSymbolGetCoef_of_not_mem (by omega), bs.outside i (by omega), bt.outside i (by omega),
      add_zero]

theorem symbolAdd_of_le {symbol1 symbol2 : List Gf256} {n : ℕ} (le₁ : n ≤ symbol1.length)
    (le₂ : n ≤ symbol2.length) (result : List Gf256) :
    symbolAdd symbol1 symbol2 n result =
      Block.store result 0 (List.zipWith gf256Add (symbol1.take n) (symbol2.take n)) := by
  unfold symbolAdd
  rw [Block.load_eq_some (by omega), Option.bind_some, Block.load_eq_some (by omega),
    Option.bind_some, List.drop_zero, List.drop_zero]

/-- The writes into the data of the result leave the sum of the zero-extended data. -/
theorem addBase_data {block long short : List Gf256} (le : short.length ≤ long.length)
    (fits : long.length ≤ block.length) {sum : List Gf256}
    (hsum : sum = List.zipWith gf256Add (long.take short.length) (short.take short.length)) :
    ∃ d₁ d₂, Block.store block 0 sum = some d₁ ∧
      Block.store d₁ short.length (long.drop short.length) = some d₂ ∧
      Block.fill d₂ long.length (block.length - long.length) 0 =
        some ((List.range' 0 block.length).map fun i => long.getD i 0 + short.getD i 0) := by
  have len : sum.length = short.length := by
    rw [hsum, List.length_zipWith, List.length_take, List.length_take]; omega
  obtain ⟨d₁, h₁⟩ : ∃ d₁, Block.store block 0 sum = some d₁ :=
    ⟨_, Block.store_eq_some (by omega)⟩
  have len₁ := Block.length_of_store h₁
  obtain ⟨d₂, h₂⟩ : ∃ d₂, Block.store d₁ short.length (long.drop short.length) = some d₂ :=
    ⟨_, Block.store_eq_some (by rw [List.length_drop]; omega)⟩
  have len₂ := Block.length_of_store h₂
  obtain ⟨d₃, h₃⟩ : ∃ d₃, Block.fill d₂ long.length (block.length - long.length) 0 = some d₃ :=
    ⟨_, Block.store_eq_some (by rw [List.length_replicate]; omega)⟩
  have len₃ := Block.length_of_store h₃
  refine ⟨d₁, d₂, h₁, h₂, h₃.trans (congrArg some (eq_map_range' (by omega) fun k hk => ?_))⟩
  rw [Block.getElem?_of_store h₃, Block.getElem?_of_store h₂, Block.getElem?_of_store h₁]
  simp only [List.length_replicate, List.length_drop, List.getElem?_replicate, List.getElem?_drop,
    List.getD_eq_getElem?_getD, Nat.zero_add, Nat.sub_zero, len]
  by_cases inner : k < short.length
  · rw [if_neg (by omega), if_neg (by omega), if_pos ⟨by omega, inner⟩, hsum,
      List.getElem?_zipWith, List.getElem?_take, if_pos inner, List.take_length,
      List.getElem?_eq_getElem (by omega : k < long.length), List.getElem?_eq_getElem inner]
    rfl
  · rw [List.getElem?_eq_none (by omega : short.length ≤ k)]
    by_cases middle : k < long.length
    · rw [if_neg (by omega), if_pos (by omega),
        show short.length + (k - short.length) = k by omega, List.getElem?_eq_getElem middle]
      simp
    · rw [if_pos (by omega), if_pos (by omega), List.getElem?_eq_none (by omega)]
      simp

/-- `full_symbol_add_base` overwrites a result symbol whose range and size are
large enough with the sum of two non-zero symbols. -/
theorem fullSymbolAddBase_spec (wfs : s.WellFormed) (nzs : fullSymbolIsZero s = false)
    (wft : t.WellFormed) (nzt : fullSymbolIsZero t = false) (rr : r.Ranged)
    (first_s : r.firstId ≤ s.firstNonzeroId) (first_t : r.firstId ≤ t.firstNonzeroId)
    (last_s : s.lastNonzeroId ≤ r.lastId) (last_t : t.lastNonzeroId ≤ r.lastId)
    (size_s : s.data.length ≤ r.data.length) (size_t : t.data.length ≤ r.data.length) :
    ∃ u, fullSymbolAddBase s t r = .ok u ∧ u.WellFormed ∧ u.coefs = s.coefs + t.coefs ∧
      u.payload = s.payload + t.payload ∧ u.data.length = r.data.length ∧
      u.firstId = r.firstId ∧ u.lastId = r.lastId := by
  obtain ⟨rs, bs⟩ := wfs.bounded nzs
  obtain ⟨rt, bt⟩ := wft.bounded nzt
  have orders := bs.ordered
  have ordert := bt.ordered
  obtain ⟨c₁, c₂, h₁, h₂, h₃⟩ := addBase_coef rr bs bt first_s first_t last_s last_t
  have cells := rr.cells
  have ranged : Ranged
      { r with
        coef := (List.range' r.firstId r.coef.length).map
          fun i => fullSymbolGetCoef s i + fullSymbolGetCoef t i } :=
    ⟨rr.ordered, rr.below, by simpa using cells⟩
  obtain ⟨u, found, eq, wfu, same⟩ := fullSymbolAdjustMinMaxCoef_spec ranged
  have ru := wfu.ranged_of_first_ne (same.firstId ▸ rr.first_ne_none)
  have coefs := addBase_coefs rs bs rt bt rr first_s first_t last_s last_t ru same
  have includes : ∀ i, r.firstId ≤ i → i ≤ r.lastId → fullSymbolIncludesId r i = true := by
    intro i h h'
    simp [fullSymbolIncludesId, h, h']
  unfold fullSymbolAddBase
  rw [cAssert_of (by simpa using ⟨size_s, size_t⟩), ok_bind,
    cAssert_of (includes _ first_s (by omega)), ok_bind,
    cAssert_of (includes _ (by omega) last_s), ok_bind,
    cAssert_of (includes _ first_t (by omega)), ok_bind,
    cAssert_of (includes _ (by omega) last_t), ok_bind]
  dsimp only
  rw [h₁, access_some, ok_bind, h₂, access_some, ok_bind, h₃, access_some, ok_bind, eq, ok_bind]
  dsimp only
  have data_eq : u.data = r.data := same.data
  split
  case isTrue le =>
    obtain ⟨d₁, d₂, w₁, w₂, w₃⟩ := addBase_data le size_s rfl
    dsimp only
    rw [data_eq, symbolAdd_of_le le le_rfl, w₁, access_some, ok_bind, w₂, access_some, ok_bind, w₃,
      access_some, ok_bind]
    exact ⟨_, rfl, wfu.of_data _, coefs, payload_map_range' size_s size_t,
      by simp, same.firstId, same.lastId⟩
  case isFalse gt =>
    obtain ⟨d₁, d₂, w₁, w₂, w₃⟩ := addBase_data (show s.data.length ≤ t.data.length by omega)
      size_t rfl
    dsimp only
    rw [data_eq, symbolAdd_of_le le_rfl (by omega), List.zipWith_comm_of_comm gf256Add_comm, w₁,
      access_some, ok_bind, w₂, access_some, ok_bind, w₃, access_some, ok_bind]
    refine ⟨_, rfl, wfu.of_data _, coefs, ?_, by simp, same.firstId, same.lastId⟩
    rw [add_comm]
    exact payload_map_range' size_t size_s

end AddBase

section Add

variable {s t : FullSymbol}

/-- The sum of two non-zero symbols. -/
theorem fullSymbolAdd_of_nonzero (wfs : s.WellFormed) (nzs : fullSymbolIsZero s = false)
    (wft : t.WellFormed) (nzt : fullSymbolIsZero t = false) :
    ∃ u, fullSymbolAdd s t = .ok u ∧ u.WellFormed ∧ u.coefs = s.coefs + t.coefs ∧
      u.payload = s.payload + t.payload ∧ u.data.length = max s.data.length t.data.length ∧
      u.Ranged := by
  obtain ⟨rs, bs⟩ := wfs.bounded nzs
  obtain ⟨rt, bt⟩ := wft.bounded nzt
  have orders := bs.ordered
  have ordert := bt.ordered
  have lasts := wfs.last_lt nzs
  have lastt := wft.last_lt nzt
  obtain ⟨r, alloc_eq, wfr, first, last, -, data⟩ :=
    fullSymbolAlloc_spec
      (show min s.firstNonzeroId t.firstNonzeroId ≤ max s.lastNonzeroId t.lastNonzeroId by omega)
      (by omega)
      (max s.data.length t.data.length)
  have size : r.data.length = max s.data.length t.data.length := by rw [data, List.length_replicate]
  obtain ⟨u, add_eq, wfu, coefs, payload, length, first_u, -⟩ :=
    fullSymbolAddBase_spec wfs nzs wft nzt (wfr.ranged_of_first_ne (by omega)) (by omega) (by omega)
      (by omega) (by omega) (by omega) (by omega)
  refine ⟨u, ?_, wfu, coefs, payload, length.trans size, wfu.ranged_of_first_ne (by omega)⟩
  unfold fullSymbolAdd
  simp only [nzs, nzt, Bool.and_self, Bool.false_eq_true, if_false]
  rw [alloc_eq, ok_bind, add_eq]

/-- The sum of two zero symbols is the symbol over the empty range. -/
theorem fullSymbolAdd_of_zeros (zero_s : fullSymbolIsZero s = true)
    (zero_t : fullSymbolIsZero t = true) :
    ∃ u, fullSymbolAdd s t = .ok u ∧ u.Empty ∧ u.coef = [0] ∧ u.data = List.replicate 0 0 := by
  unfold fullSymbolAdd
  rw [zero_s, zero_t]
  exact ⟨_, fullSymbolAlloc_none 0, ⟨rfl, rfl, rfl, rfl, rfl⟩, rfl, rfl⟩

/-- A non-zero symbol added to a zero one is copied. -/
theorem fullSymbolAdd_zero_left (zero : fullSymbolIsZero s = true)
    (nz : fullSymbolIsZero t = false) : fullSymbolAdd s t = fullSymbolClone t := by
  unfold fullSymbolAdd
  rw [zero, nz]
  rfl

/-- Adding a zero symbol to a non-zero one changes nothing. -/
theorem fullSymbolAdd_of_zero (wfs : s.WellFormed) (nzs : fullSymbolIsZero s = false)
    (zero : fullSymbolIsZero t = true) : fullSymbolAdd s t = .ok s := by
  unfold fullSymbolAdd
  simp only [nzs, zero, Bool.false_and, Bool.false_eq_true, if_false, if_true]
  exact fullSymbolClone_of_nonzero wfs nzs

/-- Clone, scale and add: the row operation `s + c * t` on non-zero symbols. -/
theorem rowOperation_spec (wfs : s.WellFormed) (nzs : fullSymbolIsZero s = false)
    (wft : t.WellFormed) (nzt : fullSymbolIsZero t = false) (c : Gf256) :
    ∃ t' u, fullSymbolScale t c = .ok t' ∧ fullSymbolAdd s t' = .ok u ∧ u.WellFormed ∧
      u.coefs = s.coefs + c • t.coefs ∧ u.payload = s.payload + c • t.payload ∧
      (t.data.length = s.data.length → u.data.length = s.data.length) := by
  obtain ⟨t', scale_eq, wft', coefs', length', payload'⟩ := fullSymbolScale_spec wft c
  by_cases hc : c = 0
  · subst hc
    have zero : fullSymbolIsZero t' = true := by rw [wft'.isZero_iff, coefs', zero_smul]
    refine ⟨t', s, scale_eq, fullSymbolAdd_of_zero wfs nzs zero, wfs, ?_, ?_, fun _ => rfl⟩
    · rw [zero_smul, add_zero]
    · rw [zero_smul, add_zero]
  · have nzt' : fullSymbolIsZero t' = false := by rw [isZero_scale wft wft' coefs' hc, nzt]
    obtain ⟨u, add_eq, wfu, coefs, payload, length, -⟩ :=
      fullSymbolAdd_of_nonzero wfs nzs wft' nzt'
    refine ⟨t', u, scale_eq, add_eq, wfu, ?_, ?_, fun same => ?_⟩
    · rw [coefs, coefs']
    · rw [payload, payload' nzt]
    · rw [length, length', same, max_self]

end Add

end SwifCodec
