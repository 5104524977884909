import SwifCodec.FullSymbol.Arithmetic
import Mathlib.Algebra.BigOperators.Intervals
import Mathlib.LinearAlgebra.Finsupp.LinearCombination
import Mathlib.LinearAlgebra.Prod

/-!
Full symbols made from received packets, and the data they should carry.

A source assignment gives every identifier its `n` bytes. A symbol is sound for
an assignment when its data is the combination of the source data that its
coefficients name; these symbols form a subspace (`Sound`), which is why every
row operation of the decoder keeps it.
-/

namespace SwifCodec

open Library FullSymbol

/-! ### Symbols created from packets -/

/-- The full symbol of a source symbol. -/
def sourceSymbol (id : ℕ) (data : List Gf256) : FullSymbol :=
  { coef := [1], firstId := id, lastId := id, firstNonzeroId := id, lastNonzeroId := id, data }

theorem getD_singleton_zero (k : ℕ) : ([1] : List Gf256).getD k 0 = if k = 0 then 1 else 0 := by
  cases k <;> rfl

section SourceSymbol

variable {id : ℕ} (valid : id < symbolIdNone) (data : List Gf256)

theorem sourceSymbol_getCoef (i : ℕ) :
    fullSymbolGetCoef (sourceSymbol id data) i = if i = id then 1 else 0 := by
  by_cases inside : i = id
  · subst inside
    have inside : (sourceSymbol i data).firstId ≤ i ∧ i ≤ (sourceSymbol i data).lastId :=
      ⟨le_rfl, le_rfl⟩
    rw [fullSymbolGetCoef_of_mem inside, if_pos rfl]
    show ([1] : List Gf256).getD (i - i) 0 = 1
    rw [Nat.sub_self, getD_singleton_zero, if_pos rfl]
  · rw [fullSymbolGetCoef_of_not_mem (lt_or_gt_of_ne inside), if_neg inside]

include valid

theorem sourceSymbol_ranged : (sourceSymbol id data).Ranged :=
  ⟨le_rfl, valid, by show 1 = id - id + 1; omega⟩

theorem sourceSymbol_wellFormed : (sourceSymbol id data).WellFormed := by
  have one : fullSymbolGetCoef (sourceSymbol id data) id ≠ 0 := by
    rw [sourceSymbol_getCoef, if_pos rfl]
    exact one_ne_zero
  refine .inr ⟨sourceSymbol_ranged valid data, .inr ⟨le_rfl, le_rfl, le_rfl, one, one,
    fun i out => ?_⟩⟩
  have out : i < id ∨ id < i := out
  rw [sourceSymbol_getCoef, if_neg (by omega)]

theorem sourceSymbol_coefs : (sourceSymbol id data).coefs = Finsupp.single id 1 := by
  ext1 i
  rw [(sourceSymbol_ranged valid data).coefs_apply, sourceSymbol_getCoef, Finsupp.single_apply]
  exact if_congr eq_comm rfl rfl

theorem sourceSymbol_hasOneId : fullSymbolHasOneId (sourceSymbol id data) = true := by
  simp [fullSymbolHasOneId, fullSymbolIsZero, fullSymbolGetMinSymbolId, fullSymbolGetMaxSymbolId,
    sourceSymbol, valid.ne]

end SourceSymbol

section Create

variable {buf : List Gf256} {n : ℕ}

/-- A read that succeeds from the start of a block stays inside it. -/
theorem le_of_load {block cells : List Gf256} {k : ℕ} (ok : Block.load block 0 k = some cells) :
    k ≤ block.length := by
  by_contra short
  rw [Block.load_eq_none_iff.mpr (by omega)] at ok
  cases ok

/-- A source packet becomes the unit vector of its identifier. -/
theorem fullSymbolCreateFromSource_spec {symbolId : ℕ} (valid : symbolId < symbolIdNone)
    (fits : n ≤ buf.length) :
    fullSymbolCreateFromSource symbolId buf n = .ok (sourceSymbol symbolId (buf.take n)) := by
  have size : symbolIdNone = 4294967295 := rfl
  obtain ⟨s, alloc_eq, -, first, last, coef, data⟩ := fullSymbolAlloc_spec le_rfl valid n
  have ranged : Ranged { s with coef := [1] } := by
    constructor
    · exact (first.trans last.symm).le
    · show s.lastId < symbolIdNone
      omega
    · show 1 = s.lastId - s.firstId + 1
      omega
  obtain ⟨t, found, eq, wft, same⟩ := fullSymbolAdjustMinMaxCoef_spec ranged
  have content : t.SameContent (sourceSymbol symbolId s.data) :=
    ⟨same.coef, same.firstId.trans first, same.lastId.trans last, same.data⟩
  have offset : sub32 symbolId s.firstId = 0 := by
    rw [first, sub32_of_le le_rfl (by omega), Nat.sub_self]
  unfold fullSymbolCreateFromSource
  rw [alloc_eq, ok_bind, cAssert_of (by simp [fullSymbolIncludesId, first, last]), ok_bind,
    offset, coef, Block.store_all (by simp), access_some, ok_bind, eq, ok_bind,
    content.eq wft (sourceSymbol_wellFormed valid _)]
  dsimp only
  rw [Block.load_eq_some (by omega), access_some, ok_bind, List.drop_zero, sourceSymbol, data,
    Block.store_all (by simpa using fits), access_some, ok_bind, pure_eq_ok]
  rfl

/-- `SYMBOL_ID_NONE` names no source symbol: the packet becomes a zero symbol. -/
theorem fullSymbolCreateFromSource_none (fits : n ≤ buf.length) :
    ∃ r, fullSymbolCreateFromSource symbolIdNone buf n = .ok r ∧ r.WellFormed ∧
      fullSymbolIsZero r = true := by
  unfold fullSymbolCreateFromSource
  rw [fullSymbolAlloc_none, ok_bind, cAssert_of (by simp [fullSymbolIncludesId]), ok_bind]
  dsimp only
  rw [show sub32 symbolIdNone symbolIdNone = 0 by decide, Block.store_all (by simp), access_some,
    ok_bind, fullSymbolAdjustMinMaxCoef_empty rfl rfl, ok_bind]
  dsimp only
  rw [Block.load_eq_some (by omega), access_some, ok_bind,
    Block.store_all (by simpa using fits), access_some, ok_bind, pure_eq_ok]
  exact ⟨_, rfl, .inl ⟨rfl, rfl, rfl, rfl, rfl⟩, rfl⟩

variable {tab : List Gf256} {first nb : ℕ}

/-- A repair packet over a window of identifiers becomes the row of its coefficients. -/
theorem fullSymbolCreate_spec (pos : 0 < nb) (below : first + nb ≤ symbolIdNone)
    (cells : nb ≤ tab.length) (fits : n ≤ buf.length) :
    ∃ r, fullSymbolCreate tab first nb buf n = .ok r ∧ r.WellFormed ∧
      (∀ i, r.coefs i = if first ≤ i ∧ i < first + nb then tab.getD (i - first) 0 else 0) ∧
      r.data = buf.take n ∧ r.Ranged := by
  have size : symbolIdNone = 4294967295 := rfl
  have last_eq : sub32 (add32 first nb) 1 = first + nb - 1 := by
    rw [add32_of_lt (by omega), sub32_of_le (by omega) (by omega)]
  obtain ⟨s, alloc_eq, -, first_s, last_s, coef, data⟩ :=
    fullSymbolAlloc_spec (show first ≤ first + nb - 1 by omega) (by omega) n
  have length : (tab.take nb).length = nb := by rw [List.length_take]; omega
  have ranged :
      Ranged { s with coef := tab.take nb, firstId := first, lastId := first + nb - 1 } := by
    constructor
    · show first ≤ first + nb - 1
      omega
    · show first + nb - 1 < symbolIdNone
      omega
    · show (tab.take nb).length = first + nb - 1 - first + 1
      omega
  obtain ⟨t, found, eq, wft, same⟩ := fullSymbolAdjustMinMaxCoef_spec ranged
  have first_t : t.firstId = first := same.firstId
  have last_t : t.lastId = first + nb - 1 := same.lastId
  have coef_t : t.coef = tab.take nb := same.coef
  have data_t : t.data = s.data := same.data
  have rt := wft.ranged_of_first_ne (by omega)
  refine ⟨{ t with data := buf.take n }, ?_, wft.of_data _, fun i => ?_, rfl,
    (wft.of_data _).ranged_of_first_ne (show t.firstId ≠ symbolIdNone by omega)⟩
  · unfold fullSymbolCreate
    rw [last_eq, alloc_eq, ok_bind, Block.load_eq_some (by omega), access_some, ok_bind,
      List.drop_zero, coef, Block.store_all (by rw [List.length_replicate]; omega), access_some,
      ok_bind, eq, ok_bind]
    dsimp only
    rw [Block.load_eq_some (by omega), access_some, ok_bind, List.drop_zero, data_t, data,
      Block.store_all (by simpa using fits), access_some, ok_bind, pure_eq_ok]
  · show t.coefs i = _
    rw [rt.coefs_apply]
    by_cases inside : first ≤ i ∧ i < first + nb
    · rw [fullSymbolGetCoef_of_mem (by omega), coef_t, first_t, if_pos inside,
        List.getD_eq_getElem?_getD, List.getElem?_take, if_pos (by omega),
        ← List.getD_eq_getElem?_getD]
    · rw [fullSymbolGetCoef_of_not_mem (by omega), if_neg inside]

/-- The header whose only identifier is `SYMBOL_ID_NONE` gives a zero symbol. -/
theorem fullSymbolCreate_none (cells : 1 ≤ tab.length) (fits : n ≤ buf.length) :
    ∃ r, fullSymbolCreate tab symbolIdNone 1 buf n = .ok r ∧ r.WellFormed ∧
      fullSymbolIsZero r = true := by
  unfold fullSymbolCreate
  rw [show sub32 (add32 symbolIdNone 1) 1 = symbolIdNone by decide, fullSymbolAlloc_none, ok_bind,
    Block.load_eq_some (by omega), access_some, ok_bind]
  dsimp only
  have length : ((tab.drop 0).take 1).length = 1 := by
    rw [List.length_take, List.length_drop]
    omega
  rw [Block.store_all (by rw [length]; rfl), access_some,
    ok_bind, fullSymbolAdjustMinMaxCoef_empty rfl rfl, ok_bind]
  dsimp only
  rw [Block.load_eq_some (by omega), access_some, ok_bind,
    Block.store_all (by simpa using fits), access_some, ok_bind, pure_eq_ok]
  exact ⟨_, rfl, .inl ⟨rfl, rfl, length, rfl, rfl⟩, rfl⟩

/-- The headers `full_symbol_create` handles without failing an assertion. -/
def HeaderOk (first nb : ℕ) : Prop :=
  (0 < nb ∧ first + nb ≤ symbolIdNone) ∨ (first = symbolIdNone ∧ nb = 1)

/-- Every other header fails an assertion of `full_symbol_alloc`. -/
theorem fullSymbolCreate_assertion (first_lt : first < 4294967296) (nb_lt : nb < 4294967296)
    (bad : ¬ HeaderOk first nb) :
    fullSymbolCreate tab first nb buf n = .error .assertion := by
  have size : symbolIdNone = 4294967295 := rfl
  unfold HeaderOk at bad
  have alloc : fullSymbolAlloc first (sub32 (add32 first nb) 1) n = .error .assertion := by
    unfold fullSymbolAlloc
    by_cases none : first = symbolIdNone
    · have last : sub32 (add32 first nb) 1 ≠ symbolIdNone := by
        unfold sub32 add32
        omega
      rw [if_pos none, cAssert_of_not last]
      rfl
    · rw [if_neg none]
      by_cases ordered : first ≤ sub32 (add32 first nb) 1
      · have last : sub32 (add32 first nb) 1 = symbolIdNone := by
          revert ordered
          unfold sub32 add32
          omega
        rw [last, cAssert_of (decide_eq_true (by omega)), ok_bind, pure_eq_ok, ok_bind]
        unfold fullSymbolAdjustMinMaxCoef fullSymbolAdjustMinCoef
        simp [none]
      · rw [cAssert_of_not ordered]
        rfl
  unfold fullSymbolCreate
  rw [alloc, error_bind]

/-- A coefficient table that is too short is read past its end. -/
theorem fullSymbolCreate_outOfBounds (ok : HeaderOk first nb) (short : tab.length < nb) :
    fullSymbolCreate tab first nb buf n = .error (.outOfBounds .coefTab) := by
  have size : symbolIdNone = 4294967295 := rfl
  obtain ⟨s, alloc_eq⟩ : ∃ s, fullSymbolAlloc first (sub32 (add32 first nb) 1) n = .ok s := by
    rcases ok with ⟨pos, below⟩ | ⟨rfl, rfl⟩
    · rw [show sub32 (add32 first nb) 1 = first + nb - 1 by
        rw [add32_of_lt (by omega), sub32_of_le (by omega) (by omega)]]
      obtain ⟨s, alloc_eq, -⟩ :=
        fullSymbolAlloc_spec (show first ≤ first + nb - 1 by omega) (by omega) n
      exact ⟨s, alloc_eq⟩
    · exact ⟨_, fullSymbolAlloc_none n⟩
  unfold fullSymbolCreate
  rw [alloc_eq, ok_bind, Block.load_eq_none_iff.mpr (by omega), access_none, error_bind]

/-- A full symbol that `full_symbol_create_from_source` returns. -/
theorem fullSymbolCreateFromSource_of_ok {id : ℕ} {r : FullSymbol} (lt : id < 4294967296)
    (ok : fullSymbolCreateFromSource id buf n = .ok r) :
    r.WellFormed ∧ n ≤ buf.length ∧
      ((id < symbolIdNone ∧ r = sourceSymbol id (buf.take n)) ∨
        (id = symbolIdNone ∧ fullSymbolIsZero r = true)) := by
  have size : symbolIdNone = 4294967295 := rfl
  have fits : n ≤ buf.length := by
    obtain ⟨s, -, rest⟩ := bind_eq_ok.mp ok
    obtain ⟨-, -, rest⟩ := bind_eq_ok.mp rest
    obtain ⟨coef, -, rest⟩ := bind_eq_ok.mp rest
    obtain ⟨⟨t, found⟩, -, rest⟩ := bind_eq_ok.mp rest
    obtain ⟨cells, load_eq, -⟩ := bind_eq_ok.mp rest
    exact le_of_load (access_eq_ok.mp load_eq)
  by_cases valid : id < symbolIdNone
  · rw [fullSymbolCreateFromSource_spec valid fits] at ok
    cases ok
    exact ⟨sourceSymbol_wellFormed valid _, fits, .inl ⟨valid, rfl⟩⟩
  · have none : id = symbolIdNone := by omega
    obtain ⟨s, eq, wf, zero⟩ := fullSymbolCreateFromSource_none fits
    rw [none, eq] at ok
    cases ok
    exact ⟨wf, fits, .inr ⟨none, zero⟩⟩

/-- A full symbol that `full_symbol_create` returns. -/
theorem fullSymbolCreate_of_ok {r : FullSymbol} (first_lt : first < 4294967296)
    (nb_lt : nb < 4294967296) (ok : fullSymbolCreate tab first nb buf n = .ok r) :
    r.WellFormed ∧ nb ≤ tab.length ∧ n ≤ buf.length ∧
      (((∀ i, r.coefs i = if first ≤ i ∧ i < first + nb then tab.getD (i - first) 0 else 0) ∧
        r.data = buf.take n) ∨ fullSymbolIsZero r = true) := by
  obtain ⟨cells, fits⟩ : nb ≤ tab.length ∧ n ≤ buf.length := by
    obtain ⟨s, -, rest⟩ := bind_eq_ok.mp ok
    obtain ⟨coefs, coefs_eq, rest⟩ := bind_eq_ok.mp rest
    obtain ⟨coef, -, rest⟩ := bind_eq_ok.mp rest
    obtain ⟨⟨t, found⟩, -, rest⟩ := bind_eq_ok.mp rest
    obtain ⟨cells, load_eq, -⟩ := bind_eq_ok.mp rest
    exact ⟨le_of_load (access_eq_ok.mp coefs_eq), le_of_load (access_eq_ok.mp load_eq)⟩
  by_cases header : HeaderOk first nb
  · rcases header with ⟨pos, below⟩ | ⟨rfl, rfl⟩
    · obtain ⟨s, eq, wf, coefs, data, -⟩ := fullSymbolCreate_spec pos below cells fits
      rw [eq] at ok
      cases ok
      exact ⟨wf, cells, fits, .inl ⟨coefs, data⟩⟩
    · obtain ⟨s, eq, wf, zero⟩ := fullSymbolCreate_none cells fits
      rw [eq] at ok
      cases ok
      exact ⟨wf, cells, fits, .inr zero⟩
  · rw [fullSymbolCreate_assertion first_lt nb_lt header] at ok
    cases ok

end Create

/-! ### Source data -/

/-- The vector a symbol stands for: its coefficients and its data. -/
abbrev Vec := (ℕ →₀ Gf256) × (ℕ → Gf256)

/-- The coefficients and the data of a symbol. -/
noncomputable def FullSymbol.vec (s : FullSymbol) : Vec := (s.coefs, s.payload)

section Source

variable {n : ℕ}

/-- The data of a source symbol, extended by zeros. -/
def sourcePayload (src : ℕ → Vector Gf256 n) (id : ℕ) : ℕ → Gf256 :=
  fun i => (src id).toList.getD i 0

/-- The vectors whose data is the combination of the source data that their
coefficients name. -/
noncomputable def combinations (src : ℕ → Vector Gf256 n) : Submodule Gf256 Vec :=
  (Finsupp.linearCombination Gf256 (sourcePayload src)).graph

/-- The symbol carries `n` bytes of data, the combination its coefficients name. -/
structure Sound (src : ℕ → Vector Gf256 n) (s : FullSymbol) : Prop where
  vec_mem : s.vec ∈ combinations src
  length : s.data.length = n

/-- The bytes a repair packet should carry: the combination of a window of source
symbols with the given coefficients. -/
def repairData (coefs : List Gf256) (src : ℕ → Vector Gf256 n) (first : ℕ) : List Gf256 :=
  (List.range n).map fun i =>
    ((List.range coefs.length).map fun k =>
      gf256Mul (coefs.getD k 0) ((src (first + k)).toList.getD i 0)).sum

variable {src : ℕ → Vector Gf256 n} {s : FullSymbol}

theorem mem_combinations {v : Vec} :
    v ∈ combinations src ↔ v.2 = Finsupp.linearCombination Gf256 (sourcePayload src) v.1 :=
  LinearMap.mem_graph_iff _ _

/-- Two blocks of the same length with the same zero-extended contents are equal. -/
theorem eq_of_getD {block block' : List Gf256} (length : block.length = block'.length)
    (same : ∀ i, block.getD i 0 = block'.getD i 0) : block = block' := by
  refine List.ext_getElem length fun i h h' => ?_
  have := same i
  rwa [List.getD_eq_getElem?_getD, List.getD_eq_getElem?_getD, List.getElem?_eq_getElem h,
    List.getElem?_eq_getElem h'] at this

/-- Each data byte of a sound symbol is the combination of the source bytes. -/
theorem Sound.byte (sound : Sound src s) (i : ℕ) :
    s.data.getD i 0 =
      ∑ id ∈ Finset.Icc s.firstId s.lastId, s.coefs id * (src id).toList.getD i 0 := by
  have eq : s.payload = Finsupp.linearCombination Gf256 (sourcePayload src) s.coefs :=
    mem_combinations.mp sound.vec_mem
  show s.payload i = _
  rw [eq, Finsupp.linearCombination_apply,
    Finsupp.sum_of_support_subset s.coefs (s := Finset.Icc s.firstId s.lastId)
      (fun id h => coefAt_mem_range (by simpa [coefs_apply] using h)) _ (by simp),
    Finset.sum_apply]
  rfl

theorem length_repairData (coefs : List Gf256) (first : ℕ) :
    (repairData coefs src first).length = n := by
  rw [repairData, List.length_map, List.length_range]

theorem repairData_nil (first : ℕ) : repairData [] src first = List.replicate n 0 := by
  simp [repairData, List.map_const']

/-- The bytes of a repair packet, extended by zeros. -/
theorem repairData_getD (coefs : List Gf256) (first i : ℕ) :
    (repairData coefs src first).getD i 0 =
      ∑ k ∈ Finset.range coefs.length, coefs.getD k 0 * (src (first + k)).toList.getD i 0 := by
  by_cases inside : i < n
  · rw [repairData, List.getD_eq_getElem?_getD, List.getElem?_map, List.getElem?_range inside]
    rfl
  · rw [getD_of_length_le (by rw [length_repairData]; omega)]
    refine (Finset.sum_eq_zero fun k _ => ?_).symm
    have short : (src (first + k)).toList.length ≤ i := by rw [Vector.length_toList]; omega
    rw [getD_of_length_le short, mul_zero]

/-- A symbol with the coefficients and the data of a repair packet is sound. -/
theorem Sound.of_repairData {coefs : List Gf256} {first : ℕ}
    (same : ∀ i, s.coefs i =
      if first ≤ i ∧ i < first + coefs.length then coefs.getD (i - first) 0 else 0)
    (data : s.data = repairData coefs src first) : Sound src s where
  vec_mem := by
    rw [mem_combinations]
    have inside : s.coefs.support ⊆ Finset.Ico first (first + coefs.length) := by
      intro i mem
      rw [Finsupp.mem_support_iff, same] at mem
      exact Finset.mem_Ico.mpr (by_contra fun out => mem (if_neg out))
    funext i
    show s.data.getD i 0 = Finsupp.linearCombination Gf256 (sourcePayload src) s.coefs i
    rw [data, repairData_getD, Finsupp.linearCombination_apply,
      Finsupp.sum_of_support_subset s.coefs inside _ (by simp), Finset.sum_apply,
      Finset.sum_Ico_eq_sum_range, Nat.add_sub_cancel_left]
    refine Finset.sum_congr rfl fun k mem => ?_
    have lt := Finset.mem_range.mp mem
    rw [same, if_pos (by omega), Nat.add_sub_cancel_left]
    rfl
  length := by rw [data, length_repairData]

/-- A source symbol with its own data is sound. -/
theorem sourceSymbol_sound {id : ℕ} (valid : id < symbolIdNone) :
    Sound src (sourceSymbol id (src id).toList) where
  vec_mem := by
    rw [mem_combinations]
    show sourcePayload src id = _
    rw [FullSymbol.vec, sourceSymbol_coefs valid, Finsupp.linearCombination_single, one_smul]
  length := Vector.length_toList

/-- A sound symbol that is a unit vector carries the data of its source symbol. -/
theorem Sound.data_of_single (sound : Sound src s) {id : ℕ} (unit : s.coefs = Finsupp.single id 1) :
    s.data = (src id).toList := by
  refine eq_of_getD (by rw [sound.length, Vector.length_toList]) fun i => ?_
  have eq : s.payload = Finsupp.linearCombination Gf256 (sourcePayload src) s.coefs :=
    mem_combinations.mp sound.vec_mem
  rw [unit, Finsupp.linearCombination_single, one_smul] at eq
  exact congrFun eq i

/-- The result of a row operation on sound symbols is sound. -/
theorem Sound.rowOperation {t u : FullSymbol} {c : Gf256} (sound_s : Sound src s)
    (sound_t : Sound src t) (coefs : u.coefs = s.coefs + c • t.coefs)
    (payload : u.payload = s.payload + c • t.payload)
    (length : t.data.length = s.data.length → u.data.length = s.data.length) : Sound src u where
  vec_mem := by
    have vec : u.vec = s.vec + c • t.vec := Prod.ext coefs payload
    rw [vec]
    exact Submodule.add_mem _ sound_s.vec_mem (Submodule.smul_mem _ c sound_t.vec_mem)
  length := by rw [length (sound_t.length.trans sound_s.length.symm), sound_s.length]

/-- Two sound symbols with the same coefficients carry the same data. -/
theorem Sound.data_eq {t : FullSymbol} (sound_s : Sound src s) (sound_t : Sound src t)
    (same : s.coefs = t.coefs) : s.data = t.data := by
  refine eq_of_getD (by rw [sound_s.length, sound_t.length]) fun i => ?_
  have eq_s : s.payload = _ := mem_combinations.mp sound_s.vec_mem
  have eq_t : t.payload = _ := mem_combinations.mp sound_t.vec_mem
  exact congrFun (eq_s.trans ((congrArg _ same).trans eq_t.symm)) i

end Source

end SwifCodec
