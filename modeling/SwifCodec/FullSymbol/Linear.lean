import SwifCodec.FullSymbol.Creation

/-!
Symbol arithmetic as linear algebra on the vectors of symbols.

Where one of its symbols is zero, the source copies or keeps a symbol instead of computing,
and the data of a zero symbol is dropped. So the operations act on the data as on the
coefficients when a zero symbol has zero data (`ZeroData`), whatever the ranges, the sizes
and the cached bounds of the symbols are.
-/

namespace SwifCodec

open Library FullSymbol

namespace FullSymbol

/-- If all coefficients of the symbol are zero, so is its data. -/
def ZeroData (s : FullSymbol) : Prop := (∀ i, s.coefs i = 0) → ∀ i, s.data.getD i 0 = 0

/-- `u` has the sums of the coefficients and of the zero-extended data of `s` and `t`. -/
structure IsSum (s t u : FullSymbol) : Prop where
  coefs : ∀ i, u.coefs i = gf256Add (s.coefs i) (t.coefs i)
  data : ∀ i, u.data.getD i 0 = gf256Add (s.data.getD i 0) (t.data.getD i 0)

/-- `u` has the coefficients and the zero-extended data of `s`, multiplied by `c`. -/
structure IsScaled (c : Gf256) (s u : FullSymbol) : Prop where
  coefs : ∀ i, u.coefs i = gf256Mul c (s.coefs i)
  data : ∀ i, u.data.getD i 0 = gf256Mul c (s.data.getD i 0)

variable {s t u : FullSymbol} {c : Gf256}

theorem isSum_iff : IsSum s t u ↔ u.vec = s.vec + t.vec := by
  constructor
  · intro sum
    exact Prod.ext (Finsupp.ext sum.coefs) (funext sum.data)
  · intro eq
    exact ⟨fun i => DFunLike.congr_fun (congrArg Prod.fst eq) i,
      fun i => congrFun (congrArg Prod.snd eq) i⟩

theorem isScaled_iff : IsScaled c s u ↔ u.vec = c • s.vec := by
  constructor
  · intro scaled
    exact Prod.ext (Finsupp.ext scaled.coefs) (funext scaled.data)
  · intro eq
    exact ⟨fun i => DFunLike.congr_fun (congrArg Prod.fst eq) i,
      fun i => congrFun (congrArg Prod.snd eq) i⟩

/-- With zero data, a zero symbol is the zero vector. -/
theorem ZeroData.vec_of_isZero (zd : s.ZeroData) (wf : s.WellFormed)
    (zero : fullSymbolIsZero s = true) : s.vec = 0 := by
  have coefs := wf.isZero_iff.mp zero
  exact Prod.ext coefs (funext (zd fun i => by rw [coefs]; rfl))

theorem payload_of_replicate {n : ℕ} (data : s.data = List.replicate n 0) : s.payload = 0 := by
  funext i
  rw [payload, data, List.getD_eq_getElem?_getD, List.getElem?_replicate]
  split <;> rfl

/-- Scaling keeps the zero data of a zero symbol. -/
theorem ZeroData.of_scaled (zd : s.ZeroData) (eq : u.vec = c • s.vec) : u.ZeroData := by
  have scaled := isScaled_iff.mpr eq
  intro zero i
  rw [scaled.data, gf256Mul_eq]
  by_cases factor : c = 0
  · rw [factor, zero_mul]
  · have coefs : ∀ i, s.coefs i = 0 := fun i =>
      (mul_eq_zero.mp ((scaled.coefs i).symm.trans (zero i))).resolve_left factor
    rw [zd coefs i, mul_zero]

end FullSymbol

section Operations

variable {s t r : FullSymbol}

/-- A clone is the same vector. -/
theorem fullSymbolClone_vec (wf : s.WellFormed) (zd : s.ZeroData) :
    ∃ u, fullSymbolClone s = .ok u ∧ u.WellFormed ∧ u.vec = s.vec := by
  cases zero : fullSymbolIsZero s with
  | false => exact ⟨s, fullSymbolClone_of_nonzero wf zero, wf, rfl⟩
  | true =>
      obtain ⟨u, eq, wfu, zero_u, data, -⟩ := fullSymbolClone_of_zero wf zero
      refine ⟨u, eq, wfu, ?_⟩
      rw [zd.vec_of_isZero wf zero]
      exact Prod.ext (wfu.isZero_iff.mp zero_u) (payload_of_replicate data)

/-- Scaling a symbol scales its vector. -/
theorem fullSymbolScale_vec (wf : s.WellFormed) (zd : s.ZeroData) (c : Gf256) :
    ∃ u, fullSymbolScale s c = .ok u ∧ u.WellFormed ∧ u.vec = c • s.vec := by
  cases zero : fullSymbolIsZero s with
  | true =>
      refine ⟨s, fullSymbolScale_of_zero zero c, wf, ?_⟩
      rw [zd.vec_of_isZero wf zero, smul_zero]
  | false =>
      obtain ⟨u, eq, wfu, coefs, -, payload⟩ := fullSymbolScale_spec wf c
      exact ⟨u, eq, wfu, Prod.ext coefs (payload zero)⟩

/-- The sum of two symbols is the sum of their vectors. -/
theorem fullSymbolAdd_vec (wfs : s.WellFormed) (zs : s.ZeroData) (wft : t.WellFormed)
    (zt : t.ZeroData) :
    ∃ u, fullSymbolAdd s t = .ok u ∧ u.WellFormed ∧ u.vec = s.vec + t.vec := by
  cases zero_s : fullSymbolIsZero s with
  | true =>
      rw [zs.vec_of_isZero wfs zero_s, zero_add]
      cases zero_t : fullSymbolIsZero t with
      | true =>
          rw [zt.vec_of_isZero wft zero_t]
          obtain ⟨u, eq, empty, -, data⟩ := fullSymbolAdd_of_zeros zero_s zero_t
          exact ⟨u, eq, .inl empty, Prod.ext empty.coefs_eq (payload_of_replicate data)⟩
      | false =>
          rw [fullSymbolAdd_zero_left zero_s zero_t]
          exact fullSymbolClone_vec wft zt
  | false =>
      cases zero_t : fullSymbolIsZero t with
      | true =>
          rw [zt.vec_of_isZero wft zero_t, add_zero]
          exact ⟨s, fullSymbolAdd_of_zero wfs zero_s zero_t, wfs, rfl⟩
      | false =>
          obtain ⟨u, eq, wf, coefs, payload, -, -⟩ :=
            fullSymbolAdd_of_nonzero wfs zero_s wft zero_t
          exact ⟨u, eq, wf, Prod.ext coefs payload⟩

/-- `full_symbol_includes_id` holds exactly inside the range. -/
theorem fullSymbolIncludesId_iff {i : ℕ} :
    fullSymbolIncludesId r i = true ↔ r.firstId ≤ i ∧ i ≤ r.lastId := by
  rw [fullSymbolIncludesId, Bool.and_eq_true, decide_eq_true_eq, decide_eq_true_eq]

/-- Scaling twice is scaling by the product, down to the representation. -/
theorem fullSymbolScale_scale (wf : s.WellFormed) (a b : Gf256) :
    ∃ u v, fullSymbolScale s a = .ok u ∧ fullSymbolScale u b = .ok v ∧
      fullSymbolScale s (gf256Mul a b) = .ok v := by
  cases zero : fullSymbolIsZero s with
  | true =>
      exact ⟨s, s, fullSymbolScale_of_zero zero a, fullSymbolScale_of_zero zero b,
        fullSymbolScale_of_zero zero _⟩
  | false =>
      obtain ⟨u, scale_a, wfu, coefs, -⟩ := fullSymbolScale_spec wf a
      by_cases factor : a = 0
      · -- nothing is left to scale after the first factor
        have zero_u : fullSymbolIsZero u = true := by
          rw [wfu.isZero_iff, coefs, factor, zero_smul]
        refine ⟨u, u, scale_a, fullSymbolScale_of_zero zero_u b, ?_⟩
        rw [gf256Mul_eq, factor, zero_mul, ← factor, scale_a]
      · have nz : fullSymbolIsZero u = false := by rw [isZero_scale wf wfu coefs factor, zero]
        obtain ⟨u', eq, -, same⟩ := fullSymbolScale_of_nonzero wf zero a
        obtain ⟨v, scale_b, wfv, same_v⟩ := fullSymbolScale_of_nonzero wfu nz b
        obtain ⟨w, scale_ab, wfw, same_w⟩ := fullSymbolScale_of_nonzero wf zero (gf256Mul a b)
        rw [scale_a] at eq
        cases eq
        have twice : ∀ block : List Gf256,
            (block.map (a * ·)).map (b * ·) = block.map (gf256Mul a b * ·) := by
          intro block
          rw [List.map_map]
          refine List.map_congr_left fun x _ => ?_
          rw [Function.comp_apply, gf256Mul_eq, mul_left_comm, mul_assoc]
        have content : v.SameContent w := by
          refine ⟨?_, ?_, ?_, ?_⟩
          · rw [same_v.coef, same.coef, same_w.coef]
            exact twice s.coef
          · rw [same_v.firstId, same.firstId, same_w.firstId]
          · rw [same_v.lastId, same.lastId, same_w.lastId]
          · rw [same_v.data, same.data, same_w.data]
            exact twice s.data
        refine ⟨u, v, scale_a, scale_b, ?_⟩
        rw [scale_ab, content.eq wfv wfw]

end Operations

/-- Symbol arithmetic is linear: addition, also over an existing symbol, is the sum of
coefficients and of zero-extended data; scaling multiplies each of them; scaling
distributes over addition, and scaling twice is scaling by the product. -/
theorem symbol_arithmetic_linear (s t : FullSymbol) (wfs : s.WellFormed) (wft : t.WellFormed)
    (zs : s.ZeroData) (zt : t.ZeroData) :
    (∃ u, fullSymbolAdd s t = .ok u ∧ u.WellFormed ∧ IsSum s t u) ∧
    (∀ r : FullSymbol, fullSymbolIsZero s = false → fullSymbolIsZero t = false → r.Ranged →
      s.data.length ≤ r.data.length → t.data.length ≤ r.data.length →
      (∀ i ∈ [s.firstNonzeroId, s.lastNonzeroId, t.firstNonzeroId, t.lastNonzeroId],
        fullSymbolIncludesId r i = true) →
      ∃ u, fullSymbolAddBase s t r = .ok u ∧ u.WellFormed ∧ IsSum s t u) ∧
    (∀ c, ∃ u, fullSymbolScale s c = .ok u ∧ u.WellFormed ∧ IsScaled c s u) ∧
    (∀ c, ∃ u v s' t' w, fullSymbolAdd s t = .ok u ∧ fullSymbolScale u c = .ok v ∧
      fullSymbolScale s c = .ok s' ∧ fullSymbolScale t c = .ok t' ∧
      fullSymbolAdd s' t' = .ok w ∧ v.coefs = w.coefs ∧
      (u.ZeroData → v.payload = w.payload)) ∧
    ∀ a b, ∃ u v, fullSymbolScale s a = .ok u ∧ fullSymbolScale u b = .ok v ∧
      fullSymbolScale s (gf256Mul a b) = .ok v := by
  refine ⟨?_, ?_, ?_, ?_, fullSymbolScale_scale wfs⟩
  · obtain ⟨u, eq, wf, vec⟩ := fullSymbolAdd_vec wfs zs wft zt
    exact ⟨u, eq, wf, isSum_iff.mpr vec⟩
  · intro r nzs nzt ranged size_s size_t includes
    have inside : ∀ i ∈ [s.firstNonzeroId, s.lastNonzeroId, t.firstNonzeroId, t.lastNonzeroId],
        r.firstId ≤ i ∧ i ≤ r.lastId := fun i mem => fullSymbolIncludesId_iff.mp (includes i mem)
    obtain ⟨u, eq, wf, coefs, payload, -⟩ :=
      fullSymbolAddBase_spec wfs nzs wft nzt ranged (inside _ (by simp)).1 (inside _ (by simp)).1
        (inside _ (by simp)).2 (inside _ (by simp)).2 size_s size_t
    exact ⟨u, eq, wf, isSum_iff.mpr (Prod.ext coefs payload)⟩
  · intro c
    obtain ⟨u, eq, wf, vec⟩ := fullSymbolScale_vec wfs zs c
    exact ⟨u, eq, wf, isScaled_iff.mpr vec⟩
  · intro c
    obtain ⟨u, add_eq, wfu, vec_u⟩ := fullSymbolAdd_vec wfs zs wft zt
    obtain ⟨v, scale_u, -, coefs_v, -⟩ := fullSymbolScale_spec wfu c
    obtain ⟨s', scale_s, wfs', vec_s⟩ := fullSymbolScale_vec wfs zs c
    obtain ⟨t', scale_t, wft', vec_t⟩ := fullSymbolScale_vec wft zt c
    obtain ⟨w, add_eq', -, vec_w⟩ :=
      fullSymbolAdd_vec wfs' (zs.of_scaled vec_s) wft' (zt.of_scaled vec_t)
    have distributed : w.vec = c • u.vec := by rw [vec_w, vec_s, vec_t, vec_u, smul_add]
    refine ⟨u, v, s', t', w, add_eq, scale_u, scale_s, scale_t, add_eq', ?_, fun zu => ?_⟩
    · exact coefs_v.trans (congrArg Prod.fst distributed).symm
    · obtain ⟨v', scale_u', -, vec_v⟩ := fullSymbolScale_vec wfu zu c
      rw [scale_u] at scale_u'
      cases scale_u'
      exact congrArg Prod.snd (vec_v.trans distributed.symm)

theorem symbol_arithmetic_linear_two_symbols :
    (∃ u, fullSymbolAdd (sourceSymbol 3 [1, 0]) (sourceSymbol 7 [1]) = .ok u ∧
      u.WellFormed ∧ IsSum (sourceSymbol 3 [1, 0]) (sourceSymbol 7 [1]) u) ∧
    (∃ u, fullSymbolAddBase (sourceSymbol 3 [1, 0]) (sourceSymbol 7 [1])
        { coef := List.replicate 6 1, firstId := 2, lastId := 7, firstNonzeroId := 2,
          lastNonzeroId := 7, data := [1, 1, 1] } = .ok u ∧
      u.WellFormed ∧ IsSum (sourceSymbol 3 [1, 0]) (sourceSymbol 7 [1]) u) ∧
    ∀ c, ∃ u, fullSymbolScale (sourceSymbol 3 [1, 0]) c = .ok u ∧ u.WellFormed ∧
      IsScaled c (sourceSymbol 3 [1, 0]) u := by
  have three : 3 < symbolIdNone := by decide
  have seven : 7 < symbolIdNone := by decide
  have nonzero : ∀ id data, id < symbolIdNone → (sourceSymbol id data).ZeroData := by
    intro id data valid zero
    have one := zero id
    rw [sourceSymbol_coefs valid, Finsupp.single_eq_same] at one
    exact absurd one one_ne_zero
  obtain ⟨add, base, scale, -⟩ := symbol_arithmetic_linear (sourceSymbol 3 [1, 0])
    (sourceSymbol 7 [1]) (sourceSymbol_wellFormed three _) (sourceSymbol_wellFormed seven _)
    (nonzero 3 _ three) (nonzero 7 _ seven)
  exact ⟨add, base _ (by decide) (by decide) ⟨by decide, by decide, rfl⟩ (by decide) (by decide)
    (by decide), scale⟩

end SwifCodec
