import SwifCodec.FullSymbolSet.Basic

/-!
The elimination does not touch the coefficient table of the decoder.

Full symbols and their set have blocks of their own. Whatever a call of
`full_symbol_add_with_elimination` does, and in whatever set, it makes no access
outside `coef_tab`.
-/

namespace SwifCodec

open Library

/-! ### Full symbols -/

section FullSymbol

variable (s t r : FullSymbol)

theorem fullSymbolCountAllocatedCoef_spares :
    Spares .coefTab (fullSymbolCountAllocatedCoef s) := by
  unfold fullSymbolCountAllocatedCoef
  split
  · exact .bind (.cAssert _) fun _ => .ok _
  · exact .bind (.cAssert _) fun _ => .ok _

theorem fullSymbolAdjustMinMaxCoef_spares : Spares .coefTab (fullSymbolAdjustMinMaxCoef s) := by
  unfold fullSymbolAdjustMinMaxCoef
  split
  · exact .bind (.cAssert _) fun _ => .ok _
  · refine .bind ?_ fun _ => .bind ?_ fun _ => .bind (.cAssert _) fun _ => .ok _
    · unfold fullSymbolAdjustMinCoef
      refine .bind (.cAssert _) fun _ => ?_
      split
      · exact .ok _
      · exact .ok _
    · unfold fullSymbolAdjustMaxCoef
      refine .bind (.cAssert _) fun _ => .bind (fullSymbolCountAllocatedCoef_spares _) fun _ => ?_
      split
      · exact .ok _
      · exact .ok _

theorem fullSymbolAlloc_spares (first last size : ℕ) :
    Spares .coefTab (fullSymbolAlloc first last size) := by
  unfold fullSymbolAlloc
  dsimp only
  split
  · exact .bind (.cAssert _) fun _ => .bind (.ok _) fun _ =>
      .bind (fullSymbolAdjustMinMaxCoef_spares _) fun _ => .ok _
  · exact .bind (.cAssert _) fun _ => .bind (.ok _) fun _ =>
      .bind (fullSymbolAdjustMinMaxCoef_spares _) fun _ => .ok _

theorem fullSymbolCreateFromSource_spares (id : ℕ) (data : List Gf256) (size : ℕ) :
    Spares .coefTab (fullSymbolCreateFromSource id data size) := by
  unfold fullSymbolCreateFromSource
  exact .bind (fullSymbolAlloc_spares _ _ _) fun _ => .bind (.cAssert _) fun _ =>
    .bind (.access (by decide) _) fun _ => .bind (fullSymbolAdjustMinMaxCoef_spares _) fun _ =>
    .bind (.access (by decide) _) fun _ => .bind (.access (by decide) _) fun _ => .ok _

/-- Only the coefficients themselves are read from the table. -/
theorem fullSymbolCreate_spares {tab : List Gf256} {nb : ℕ} (cells : nb ≤ tab.length) (first : ℕ)
    (data : List Gf256) (size : ℕ) :
    Spares .coefTab (fullSymbolCreate tab first nb data size) := by
  unfold fullSymbolCreate
  rw [Block.load_eq_some (by omega)]
  exact .bind (fullSymbolAlloc_spares _ _ _) fun _ => .bind (.ok _) fun _ =>
    .bind (.access (by decide) _) fun _ => .bind (fullSymbolAdjustMinMaxCoef_spares _) fun _ =>
    .bind (.access (by decide) _) fun _ => .bind (.access (by decide) _) fun _ => .ok _

theorem fullSymbolClone_spares : Spares .coefTab (fullSymbolClone s) := by
  unfold fullSymbolClone
  refine .bind (fullSymbolAlloc_spares _ _ _) fun _ => ?_
  dsimp only
  split
  · exact .ok _
  · exact .bind (.access (by decide) _) fun _ => .bind (.access (by decide) _) fun _ =>
      .bind (.access (by decide) _) fun _ => .ok _

theorem fullSymbolScale_spares (coef : Gf256) : Spares .coefTab (fullSymbolScale s coef) := by
  unfold fullSymbolScale
  split
  · exact .ok _
  · exact .bind (.cAssert _) fun _ => .bind (.access (by decide) _) fun _ =>
      .bind (fullSymbolCountAllocatedCoef_spares _) fun _ => .bind (.access (by decide) _) fun _ =>
      .bind (fullSymbolAdjustMinMaxCoef_spares _) fun _ => .ok _

theorem fullSymbolAdd_spares : Spares .coefTab (fullSymbolAdd s t) := by
  unfold fullSymbolAdd
  split
  · exact fullSymbolAlloc_spares _ _ _
  · split
    · exact fullSymbolClone_spares _
    · split
      · exact fullSymbolClone_spares _
      · refine .bind (fullSymbolAlloc_spares _ _ _) fun _ => ?_
        unfold fullSymbolAddBase
        exact .bind (.cAssert _) fun _ => .bind (.cAssert _) fun _ => .bind (.cAssert _) fun _ =>
          .bind (.cAssert _) fun _ => .bind (.cAssert _) fun _ =>
          .bind (.access (by decide) _) fun _ => .bind (.access (by decide) _) fun _ =>
          .bind (.access (by decide) _) fun _ =>
          .bind (fullSymbolAdjustMinMaxCoef_spares _) fun _ =>
          .bind (.access (by decide) _) fun _ => .bind (.access (by decide) _) fun _ =>
          .bind (.access (by decide) _) fun _ => .ok _

end FullSymbol

/-! ### The set -/

section Set

variable (set : FullSymbolSet) (s : FullSymbol)

theorem initialisedTab_spares (cells : RawTab) : Spares .coefTab (initialisedTab cells) := by
  unfold initialisedTab
  split
  · exact .ok _
  · nofun

theorem fullSymbolSetAddBelow_spares (setI0 : ℕ) :
    Spares .coefTab (fullSymbolSetAddBelow set s setI0) := by
  unfold fullSymbolSetAddBelow
  refine .bind ?_ fun _ => .bind (.access (by decide) _) fun _ =>
    .bind (.access (by decide) _) fun _ => .bind (initialisedTab_spares _) fun _ => .ok _
  unfold shiftTab
  split
  · exact .bind (.access (by decide) _) fun _ => .ok _
  · exact .bind (.access (by decide) _) fun _ => .ok _

theorem fullSymbolSetAddAbove_spares (setI0 : ℕ) :
    Spares .coefTab (fullSymbolSetAddAbove set s setI0) := by
  unfold fullSymbolSetAddAbove
  refine .bind ?_ fun _ => .bind (.access (by decide) _) fun _ => .ok _
  unfold growTab
  split
  · exact .ok _
  · exact .bind (.cAssert _) fun _ => .bind (.access (by decide) _) fun _ =>
      .bind (initialisedTab_spares _) fun _ => .ok _

theorem fullSymbolSetAdd_spares : Spares .coefTab (fullSymbolSetAdd set s) := by
  unfold fullSymbolSetAdd
  split
  · exact .ok _
  · refine .bind (fullSymbolClone_spares _) fun cloned => ?_
    generalize (if set.firstSymbolId = symbolIdNone then cloned.firstNonzeroId
      else set.firstSymbolId) = setI0
    dsimp only
    split
    · exact fullSymbolSetAddBelow_spares _ _ _
    · exact fullSymbolSetAddAbove_spares _ _ _

theorem fullSymbolSetGetPivot_spares (id : ℕ) :
    Spares .coefTab (fullSymbolSetGetPivot set id) := by
  unfold fullSymbolSetGetPivot
  split
  · exact .access (by decide) _
  · exact .ok _

theorem removeEachPivotLoop_spares (rounds i : ℕ) (isZero : Bool) :
    Spares .coefTab (removeEachPivotLoop set rounds i s isZero) := by
  induction rounds generalizing i s isZero with
  | zero => nofun
  | succ rounds ih =>
      unfold removeEachPivotLoop
      split
      · exact .ok _
      · split
        · exact ih _ _ _
        · refine .bind (fullSymbolSetGetPivot_spares _ _) fun pivot => ?_
          split
          · refine .bind (fullSymbolClone_spares _) fun _ => .bind (fullSymbolScale_spares _ _)
              fun _ => .bind (fullSymbolAdd_spares _ _) fun _ => ?_
            split
            · exact ih _ _ _
            · exact ih _ _ _
          · exact ih _ _ _

theorem fullSymbolSetRemoveEachPivot_spares :
    Spares .coefTab (fullSymbolSetRemoveEachPivot set s) := by
  unfold fullSymbolSetRemoveEachPivot
  refine .bind (fullSymbolClone_spares _) fun _ =>
    .bind (fullSymbolAdjustMinMaxCoef_spares _) fun _ => ?_
  dsimp only
  split
  · exact .ok _
  · exact removeEachPivotLoop_spares _ _ _ _ _

theorem addAsPivotStep_spares (acc : FullSymbolSet × List Notification) (i : ℕ) :
    Spares .coefTab (addAsPivotStep s acc i) := by
  unfold addAsPivotStep
  refine .bind (.access (by decide) _) fun slot => ?_
  dsimp only
  split
  · exact .ok _
  · refine .bind (fullSymbolClone_spares _) fun _ => .bind (fullSymbolScale_spares _ _) fun _ =>
      .bind (fullSymbolAdd_spares _ _) fun _ => .bind (.access (by decide) _) fun _ => ?_
    split
    · exact .bind (.cAssert _) fun _ => .ok _
    · exact .ok _

theorem fullSymbolSetAddAsPivot_spares : Spares .coefTab (fullSymbolSetAddAsPivot set s) := by
  unfold fullSymbolSetAddAsPivot
  refine .bind (fullSymbolAdjustMinMaxCoef_spares _) fun _ => ?_
  dsimp only
  split
  · exact .ok _
  · exact .bind (fullSymbolScale_spares _ _) fun _ =>
      .bind (.foldlM (addAsPivotStep_spares _) _ _) fun _ =>
      .bind (fullSymbolSetAdd_spares _ _) fun _ => .ok _

/-- A submission makes no access outside `coef_tab`. -/
theorem fullSymbolAddWithElimination_spares :
    Spares .coefTab (fullSymbolAddWithElimination set s) := by
  unfold fullSymbolAddWithElimination
  refine .bind (fullSymbolSetRemoveEachPivot_spares _ _) fun reduced => ?_
  split
  · exact .ok _
  · refine .bind (fullSymbolSetAddAsPivot_spares _ _) fun _ => ?_
    dsimp only
    split
    · exact .ok _
    · refine .bind (.access (by decide) _) fun slot => ?_
      split
      · exact .ok _
      · split
        · nofun
        · split
          · exact .bind (.cAssert _) fun _ => .ok _
          · exact .ok _

end Set

end SwifCodec
