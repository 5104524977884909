import SwifCodec.FullSymbol.Creation

/-!
Symbols obtained by any composition of the symbol operations.

Creation, cloning, scaling and addition keep the representation invariant, and a symbol
over the empty range, which only the addition of two zero symbols gives, keeps a zero in
its one cell (`Stored`). So the cached bounds of every such symbol are exact.
-/

namespace SwifCodec

open Library FullSymbol

/-- A composition of symbol operations. -/
inductive SymbolExpr where
  | create (symbolCoefTable : List Gf256) (minSymbolId nbSymbolId : Nat)
      (symbolData : List Gf256) (symbolSize : Nat)
  | createFromSource (symbolId : Nat) (symbolData : List Gf256) (symbolSize : Nat)
  | clone (s : SymbolExpr)
  | scale (s : SymbolExpr) (coef : Gf256)
  | add (symbol1 symbol2 : SymbolExpr)

namespace SymbolExpr

/-- The symbol of a composition. -/
def eval : SymbolExpr → Exec FullSymbol
  | create tab first nb buf n => fullSymbolCreate tab first nb buf n
  | createFromSource id buf n => fullSymbolCreateFromSource id buf n
  | clone s => do fullSymbolClone (← s.eval)
  | scale s coef => do fullSymbolScale (← s.eval) coef
  | add symbol1 symbol2 => do
      let s ← symbol1.eval
      let t ← symbol2.eval
      fullSymbolAdd s t

/-- Every created symbol has identifiers below `SYMBOL_ID_NONE`, and its caller provides
the coefficients and the data it names. -/
def Valid : SymbolExpr → Prop
  | create tab first nb buf n =>
      1 ≤ nb ∧ first + nb - 1 < symbolIdNone ∧ nb ≤ tab.length ∧ n ≤ buf.length
  | createFromSource id buf n => id < symbolIdNone ∧ n ≤ buf.length
  | clone s => s.Valid
  | scale s _ => s.Valid
  | add symbol1 symbol2 => symbol1.Valid ∧ symbol2.Valid

end SymbolExpr

namespace FullSymbol

/-- A well-formed symbol whose cell for the empty range, if that is its range, is zero. -/
structure Stored (s : FullSymbol) : Prop where
  wellFormed : s.WellFormed
  cell : s.firstId = symbolIdNone → s.coef = [0]

theorem Ranged.stored {s : FullSymbol} (r : s.Ranged) (wf : s.WellFormed) : s.Stored where
  wellFormed := wf
  cell := fun none => absurd none r.first_ne_none

variable {s t : FullSymbol}

/-- A symbol without bounds reads as zero everywhere. -/
theorem Stored.getCoef_of_isZero (h : s.Stored) (zero : fullSymbolIsZero s = true) (i : ℕ) :
    fullSymbolGetCoef s i = 0 := by
  by_cases none : s.firstId = symbolIdNone
  · unfold fullSymbolGetCoef
    rw [h.cell none]
    split
    · cases i - s.firstId <;> rfl
    · rfl
  · have coefs := h.wellFormed.isZero_iff.mp zero
    rw [← (h.wellFormed.ranged_of_first_ne none).coefs_apply, coefs]
    rfl

/-! ### What one operation keeps -/

theorem Stored.clone (h : s.Stored) : ∃ r, fullSymbolClone s = .ok r ∧ r.Stored := by
  cases zero : fullSymbolIsZero s with
  | false => exact ⟨s, fullSymbolClone_of_nonzero h.wellFormed zero, h⟩
  | true =>
      obtain ⟨r, eq, wf, -, -, cell⟩ := fullSymbolClone_of_zero h.wellFormed zero
      exact ⟨r, eq, wf, cell⟩

theorem Stored.scale (h : s.Stored) (c : Gf256) :
    ∃ r, fullSymbolScale s c = .ok r ∧ r.Stored := by
  cases zero : fullSymbolIsZero s with
  | true => exact ⟨s, fullSymbolScale_of_zero zero c, h⟩
  | false =>
      obtain ⟨t, eq, wf, same⟩ := fullSymbolScale_of_nonzero h.wellFormed zero c
      have first : t.firstId = s.firstId := same.firstId
      have ne := (h.wellFormed.bounded zero).1.first_ne_none
      exact ⟨t, eq, (wf.ranged_of_first_ne (by omega)).stored wf⟩

theorem Stored.add (hs : s.Stored) (ht : t.Stored) :
    ∃ r, fullSymbolAdd s t = .ok r ∧ r.Stored := by
  cases zero_s : fullSymbolIsZero s with
  | true =>
      cases zero_t : fullSymbolIsZero t with
      | true =>
          obtain ⟨u, eq, empty, coef, -⟩ := fullSymbolAdd_of_zeros zero_s zero_t
          exact ⟨u, eq, .inl empty, fun _ => coef⟩
      | false =>
          rw [fullSymbolAdd_zero_left zero_s zero_t]
          exact ht.clone
  | false =>
      cases zero_t : fullSymbolIsZero t with
      | true => exact ⟨s, fullSymbolAdd_of_zero hs.wellFormed zero_s zero_t, hs⟩
      | false =>
          obtain ⟨u, eq, wf, -, -, -, ranged⟩ :=
            fullSymbolAdd_of_nonzero hs.wellFormed zero_s ht.wellFormed zero_t
          exact ⟨u, eq, ranged.stored wf⟩

end FullSymbol

/-- Every composition of operations on valid input returns a symbol. -/
theorem SymbolExpr.Valid.eval_stored {e : SymbolExpr} (valid : e.Valid) :
    ∃ s, e.eval = .ok s ∧ s.Stored := by
  induction e with
  | create tab first nb buf n =>
      obtain ⟨pos, below, cells, fits⟩ := valid
      obtain ⟨s, eq, wf, -, -, ranged⟩ :=
        fullSymbolCreate_spec pos (show first + nb ≤ symbolIdNone by omega) cells fits
      exact ⟨s, eq, ranged.stored wf⟩
  | createFromSource id buf n =>
      obtain ⟨below, fits⟩ := valid
      exact ⟨_, fullSymbolCreateFromSource_spec below fits,
        (sourceSymbol_ranged below _).stored (sourceSymbol_wellFormed below _)⟩
  | clone e ih =>
      obtain ⟨s, eval_eq, stored⟩ := ih valid
      obtain ⟨r, eq, stored'⟩ := stored.clone
      exact ⟨r, by rw [eval, eval_eq, ok_bind, eq], stored'⟩
  | scale e c ih =>
      obtain ⟨s, eval_eq, stored⟩ := ih valid
      obtain ⟨r, eq, stored'⟩ := stored.scale c
      exact ⟨r, by rw [eval, eval_eq, ok_bind, eq], stored'⟩
  | add e₁ e₂ ih₁ ih₂ =>
      obtain ⟨s, eval_s, stored_s⟩ := ih₁ valid.1
      obtain ⟨t, eval_t, stored_t⟩ := ih₂ valid.2
      obtain ⟨r, eq, stored⟩ := stored_s.add stored_t
      exact ⟨r, by rw [eval, eval_s, ok_bind, eval_t, ok_bind, eq], stored⟩

/-- Every composition of symbol operations returns without failing an assertion, and the
cached bounds of its symbol are exact: both are `SYMBOL_ID_NONE` and every coefficient is
zero, or they lie in the identifier range, carry non-zero coefficients, and every
coefficient outside them is zero. -/
theorem bounds_of_composition (e : SymbolExpr) (valid : e.Valid) :
    ∃ s, e.eval = .ok s ∧
      ((s.firstNonzeroId = symbolIdNone ∧ s.lastNonzeroId = symbolIdNone ∧
          ∀ i, fullSymbolGetCoef s i = 0) ∨
        (s.firstId ≤ s.firstNonzeroId ∧ s.firstNonzeroId ≤ s.lastNonzeroId ∧
          s.lastNonzeroId ≤ s.lastId ∧ fullSymbolGetCoef s s.firstNonzeroId ≠ 0 ∧
          fullSymbolGetCoef s s.lastNonzeroId ≠ 0 ∧
          ∀ i, i < s.firstNonzeroId ∨ s.lastNonzeroId < i → fullSymbolGetCoef s i = 0)) := by
  obtain ⟨s, eq, stored⟩ := valid.eval_stored
  refine ⟨s, eq, ?_⟩
  cases zero : fullSymbolIsZero s with
  | true =>
      obtain ⟨first, last⟩ := stored.wellFormed.bounds_of_isZero zero
      exact .inl ⟨first, last, stored.getCoef_of_isZero zero⟩
  | false =>
      obtain ⟨-, b⟩ := stored.wellFormed.bounded zero
      exact .inr ⟨b.first_le, b.ordered, b.le_last, b.first_ne, b.last_ne, b.outside⟩

theorem bounds_of_composition_cancelling :
    ∃ s, (SymbolExpr.add (.scale (.create [0, 3, 0] 4 3 [7] 1) 2)
        (.scale (.clone (.create [3] 5 1 [7] 1)) 2)).eval = .ok s ∧
      ((s.firstNonzeroId = symbolIdNone ∧ s.lastNonzeroId = symbolIdNone ∧
          ∀ i, fullSymbolGetCoef s i = 0) ∨
        (s.firstId ≤ s.firstNonzeroId ∧ s.firstNonzeroId ≤ s.lastNonzeroId ∧
          s.lastNonzeroId ≤ s.lastId ∧ fullSymbolGetCoef s s.firstNonzeroId ≠ 0 ∧
          fullSymbolGetCoef s s.lastNonzeroId ≠ 0 ∧
          ∀ i, i < s.firstNonzeroId ∨ s.lastNonzeroId < i → fullSymbolGetCoef s i = 0)) :=
  bounds_of_composition _ (by simp [SymbolExpr.Valid, symbolIdNone])

end SwifCodec
