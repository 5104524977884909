import SwifCodec.FullSymbolSet.Runs

/-!
What every row of a set keeps, whatever the shape of the set.

A row is a copy of a submitted symbol, scaled and added to others. A property of
symbols that these operations keep holds of every row of every run
(`RowClosed.submit`), also where identifiers wrap and the table is not in echelon
form. An instance is a set of coefficients closed under the operations of the field:
the elimination does not leave it (`coefs_closed_of_run`).
-/

namespace SwifCodec

open Library FullSymbol FullSymbolSet Gf256

/-! ### The rows of a table -/

/-- The property holds of every stored symbol. -/
def FullSymbolSet.All (P : FullSymbol → Prop) (set : FullSymbolSet) : Prop :=
  ∀ row, some row ∈ set.fullSymbolTab → P row

section Table

variable {set set' : FullSymbolSet} {s : FullSymbol} {tab : List (Option FullSymbol)}
  {slot : Option FullSymbol}

theorem mem_of_reallocTab {size : ℕ} (mem : some slot ∈ reallocTab tab size) : slot ∈ tab := by
  rcases List.mem_append.mp mem with old | fresh
  · simpa using List.mem_of_mem_take old
  · cases List.eq_of_mem_replicate fresh

/-- The slots of an initialised table were written. -/
theorem mem_of_initialisedTab {cells : RawTab} (ok : initialisedTab cells = .ok tab)
    (mem : slot ∈ tab) : some slot ∈ cells := by
  unfold initialisedTab at ok
  split at ok
  case h_1 tab' all =>
    cases ok
    induction cells generalizing tab with
    | nil =>
        cases all
        cases mem
    | cons cell cells ih =>
        rw [List.mapM_cons] at all
        obtain ⟨head, head_eq, rest⟩ := Option.bind_eq_some_iff.mp all
        obtain ⟨tail, tail_eq, result⟩ := Option.bind_eq_some_iff.mp rest
        cases result
        rcases List.mem_cons.mp mem with rfl | later
        · exact List.mem_cons.mpr (.inl head_eq.symm)
        · exact List.mem_cons.mpr (.inr (ih later tail_eq))
  case h_2 => cases ok

theorem mem_of_shiftTab {shift size : ℕ} {cells : RawTab}
    (ok : shiftTab set shift = .ok (size, cells)) (mem : some slot ∈ cells) :
    slot ∈ set.fullSymbolTab := by
  unfold shiftTab at ok
  split at ok
  · obtain ⟨moved, move_eq, result⟩ := bind_eq_ok.mp ok
    cases result
    simpa using Block.mem_of_move (access_eq_ok.mp move_eq) mem
  · obtain ⟨moved, move_eq, result⟩ := bind_eq_ok.mp ok
    cases result
    exact mem_of_reallocTab (Block.mem_of_move (access_eq_ok.mp move_eq) mem)

theorem mem_of_growTab {idxPos size : ℕ} (ok : growTab set idxPos = .ok (size, tab))
    (mem : slot ∈ tab) : slot ∈ set.fullSymbolTab ∨ slot = none := by
  unfold growTab at ok
  split at ok
  · cases ok
    exact .inl mem
  · obtain ⟨-, -, ok⟩ := bind_eq_ok.mp ok
    obtain ⟨cells, fill_eq, ok⟩ := bind_eq_ok.mp ok
    obtain ⟨tab', tab_eq, result⟩ := bind_eq_ok.mp ok
    cases result
    rcases Block.mem_of_fill (access_eq_ok.mp fill_eq) (mem_of_initialisedTab tab_eq mem) with
      old | fresh
    · exact .inl (mem_of_reallocTab old)
    · cases fresh
      exact .inr rfl

/-- A slot after an insertion is an old one, the copy, or NULL. -/
theorem mem_of_fullSymbolSetAdd {k : ℕ} (ok : fullSymbolSetAdd set s = .ok (set', k))
    (mem : slot ∈ set'.fullSymbolTab) :
    slot ∈ set.fullSymbolTab ∨ (∃ cloned, fullSymbolClone s = .ok cloned ∧ slot = some cloned) ∨
      slot = none := by
  unfold fullSymbolSetAdd at ok
  split at ok
  · cases ok
    exact .inl mem
  · obtain ⟨cloned, clone_eq, ok⟩ := bind_eq_ok.mp ok
    generalize (if set.firstSymbolId = symbolIdNone then cloned.firstNonzeroId
      else set.firstSymbolId) = setI0 at ok
    dsimp only at ok
    split at ok
    · obtain ⟨⟨size, cells⟩, shift_eq, ok⟩ := bind_eq_ok.mp ok
      obtain ⟨filled, fill_eq, ok⟩ := bind_eq_ok.mp ok
      obtain ⟨written, store_eq, ok⟩ := bind_eq_ok.mp ok
      obtain ⟨tab, tab_eq, result⟩ := bind_eq_ok.mp ok
      cases result
      rcases Block.mem_of_store (access_eq_ok.mp store_eq) (mem_of_initialisedTab tab_eq mem) with
        old | new
      · rcases Block.mem_of_fill (access_eq_ok.mp fill_eq) old with moved | fresh
        · exact .inl (mem_of_shiftTab shift_eq moved)
        · cases fresh
          exact .inr (.inr rfl)
      · cases List.mem_singleton.mp new
        exact .inr (.inl ⟨cloned, clone_eq, rfl⟩)
    · obtain ⟨⟨size, tab⟩, grow_eq, ok⟩ := bind_eq_ok.mp ok
      obtain ⟨written, store_eq, result⟩ := bind_eq_ok.mp ok
      cases result
      rcases Block.mem_of_store (access_eq_ok.mp store_eq) mem with old | new
      · rcases mem_of_growTab grow_eq old with kept | fresh
        · exact .inl kept
        · exact .inr (.inr fresh)
      · cases List.mem_singleton.mp new
        exact .inr (.inl ⟨cloned, clone_eq, rfl⟩)

end Table

/-! ### Row operations -/

/-- A property of symbols that copies, scalings with the coefficients `F`, and sums keep.
`F` contains the coefficients of the symbols that have the property. -/
structure RowClosed (F : Set Gf256) (P : FullSymbol → Prop) : Prop where
  coef : ∀ {s} (i : ℕ), P s → fullSymbolGetCoef s i ∈ F
  inv : ∀ {c}, c ∈ F → gf256Inv c ∈ F
  adjust : ∀ {s t found}, P s → fullSymbolAdjustMinMaxCoef s = .ok (t, found) → P t
  clone : ∀ {s t}, P s → fullSymbolClone s = .ok t → P t
  scale : ∀ {s t c}, P s → c ∈ F → fullSymbolScale s c = .ok t → P t
  add : ∀ {s t u}, P s → P t → fullSymbolAdd s t = .ok u → P u

/-- What the sums of the loop of `full_symbol_set_remove_each_pivot` keep, the loop keeps. -/
theorem removeEachPivotLoop_keeps {set : FullSymbolSet} {Q : FullSymbol → Prop}
    (step : ∀ {cur pivot cloned scaled sum : FullSymbol} {i : ℕ}, Q cur →
      fullSymbolSetGetPivot set i = .ok (some pivot) → fullSymbolClone pivot = .ok cloned →
      fullSymbolScale cloned (fullSymbolGetCoef cur i) = .ok scaled →
      fullSymbolAdd cur scaled = .ok sum → fullSymbolIsZero sum = false → Q sum)
    {rounds i : ℕ} {cur u : FullSymbol} {isZero : Bool}
    (ok : removeEachPivotLoop set rounds i cur isZero = .ok (some u)) (init : Q cur) : Q u := by
  induction rounds generalizing i cur isZero with
  | zero => cases ok
  | succ rounds ih =>
      unfold removeEachPivotLoop at ok
      split at ok
      · cases isZero with
        | true => cases ok
        | false =>
            cases ok
            exact init
      split at ok
      · exact ih ok init
      obtain ⟨found, pivot_eq, ok⟩ := bind_eq_ok.mp ok
      cases found with
      | none => exact ih ok init
      | some pivot =>
          obtain ⟨cloned, clone_eq, ok⟩ := bind_eq_ok.mp ok
          obtain ⟨scaled, scale_eq, ok⟩ := bind_eq_ok.mp ok
          obtain ⟨sum, add_eq, ok⟩ := bind_eq_ok.mp ok
          split at ok
          case isTrue => exact ih ok init
          case isFalse nonzero =>
            rw [Bool.not_eq_true] at nonzero
            exact ih ok (step init pivot_eq clone_eq scale_eq add_eq nonzero)

theorem mem_of_getPivot {set : FullSymbolSet} {i : ℕ} {pivot : FullSymbol}
    (ok : fullSymbolSetGetPivot set i = .ok (some pivot)) : some pivot ∈ set.fullSymbolTab := by
  unfold fullSymbolSetGetPivot at ok
  split at ok
  · exact List.mem_of_getElem? (access_eq_ok.mp ok)
  · cases ok

namespace RowClosed

variable {F : Set Gf256} {P : FullSymbol → Prop} (closed : RowClosed F P)
  {set set' : FullSymbolSet} {s u : FullSymbol} {notified : List Notification}
include closed

/-- The symbol that a reduction returns. -/
theorem removeEachPivot (rows : set.All P) (new : P s)
    (ok : fullSymbolSetRemoveEachPivot set s = .ok (some u)) : P u := by
  obtain ⟨cloned, clone_eq, ok⟩ := bind_eq_ok.mp ok
  obtain ⟨⟨adjusted, found⟩, adjust_eq, ok⟩ := bind_eq_ok.mp ok
  dsimp only at ok
  split at ok
  · cases ok
  · refine removeEachPivotLoop_keeps ?_ ok (closed.adjust (closed.clone new clone_eq) adjust_eq)
    intro cur pivot cloned scaled sum i init pivot_eq clone_eq scale_eq add_eq _
    have row := closed.clone (rows pivot (mem_of_getPivot pivot_eq)) clone_eq
    exact closed.add init (closed.scale row (closed.coef i init) scale_eq) add_eq

/-- One round of the loop that clears the new pivot. -/
theorem addAsPivotStep {i : ℕ} {acc acc' : FullSymbolSet × List Notification} (new : P s)
    (rows : acc.1.All P) (ok : addAsPivotStep s acc i = .ok acc') : acc'.1.All P := by
  obtain ⟨slot, slot_eq, ok⟩ := bind_eq_ok.mp ok
  cases slot with
  | none =>
      cases ok
      exact rows
  | some row =>
      obtain ⟨cloned, clone_eq, ok⟩ := bind_eq_ok.mp ok
      obtain ⟨scaled, scale_eq, ok⟩ := bind_eq_ok.mp ok
      obtain ⟨sum, add_eq, ok⟩ := bind_eq_ok.mp ok
      obtain ⟨tab, store_eq, ok⟩ := bind_eq_ok.mp ok
      have at_i := rows row (List.mem_of_getElem? (access_eq_ok.mp slot_eq))
      have cleared : P sum := closed.add at_i
        (closed.scale (closed.clone new clone_eq) (closed.coef _ at_i) scale_eq) add_eq
      have kept : ({ acc.1 with fullSymbolTab := tab } : FullSymbolSet).All P := by
        intro row' mem
        rcases Block.mem_of_store (access_eq_ok.mp store_eq) mem with old | written
        · exact rows row' old
        · cases List.mem_singleton.mp written
          exact cleared
      split at ok
      · obtain ⟨-, -, result⟩ := bind_eq_ok.mp ok
        cases result
        exact kept
      · cases ok
        exact kept

/-- An insertion. -/
theorem setAdd {k : ℕ} (rows : set.All P) (new : P s)
    (ok : fullSymbolSetAdd set s = .ok (set', k)) : set'.All P := by
  intro row mem
  rcases mem_of_fullSymbolSetAdd ok mem with old | ⟨cloned, clone_eq, eq⟩ | none
  · exact rows row old
  · cases eq
    exact closed.clone new clone_eq
  · cases none

theorem addAsPivot {k : ℕ} (rows : set.All P) (new : P s)
    (ok : fullSymbolSetAddAsPivot set s = .ok (set', notified, k)) : set'.All P := by
  obtain ⟨⟨adjusted, found⟩, adjust_eq, ok⟩ := bind_eq_ok.mp ok
  have at_first := closed.adjust new adjust_eq
  dsimp only at ok
  split at ok
  · cases ok
    exact rows
  · obtain ⟨scaled, scale_eq, ok⟩ := bind_eq_ok.mp ok
    obtain ⟨⟨mid, calls⟩, loop_eq, ok⟩ := bind_eq_ok.mp ok
    obtain ⟨⟨last, idx⟩, add_eq, result⟩ := bind_eq_ok.mp ok
    cases result
    have pivot := closed.scale at_first (closed.inv (closed.coef _ at_first)) scale_eq
    have cleared : mid.All P := foldlM_keeps (I := fun acc => acc.1.All P)
      (fun acc i acc' rows step_eq => closed.addAsPivotStep pivot rows step_eq) loop_eq rows
    exact closed.setAdd cleared pivot add_eq

/-- A submission keeps the property of the rows. -/
theorem addWithElimination (rows : set.All P) (new : P s)
    (ok : fullSymbolAddWithElimination set s = .ok (set', notified)) : set'.All P := by
  rcases fullSymbolAddWithElimination_of_ok ok with ⟨rfl, -⟩ | ⟨u, calls, idx, reduce_eq, pivot_eq⟩
  · exact rows
  · exact closed.addAsPivot rows (closed.removeEachPivot rows new reduce_eq) pivot_eq

/-- The property holds of every row of every run, if it holds of what is submitted. -/
theorem of_run {cs : List Submission}
    (run : Steps submit (fun _ _ _ => True) fullSymbolSetAlloc cs set notified)
    (new : ∀ s ∈ cs, P s.1) : set.All P := by
  induction run with
  | nil =>
      intro row mem
      cases List.eq_of_mem_replicate mem
  | @snoc set set' cs s os os' before ok _ ih =>
      have rows := ih fun t mem => new t (List.mem_append_left _ mem)
      exact closed.addWithElimination rows (new s (by simp)) ok

end RowClosed

/-! ### Coefficients in a closed set -/

/-- A set of coefficients closed under the operations of the field. -/
structure ClosedCoefs (F : Set Gf256) : Prop where
  zero_mem : 0 ∈ F
  one_mem : 1 ∈ F
  add_mem : ∀ {a b}, a ∈ F → b ∈ F → gf256Add a b ∈ F
  mul_mem : ∀ {a b}, a ∈ F → b ∈ F → gf256Mul a b ∈ F
  inv_mem : ∀ {a}, a ∈ F → gf256Inv a ∈ F

/-- All allocated coefficients of the symbol are in the set. -/
def CoefsIn (F : Set Gf256) (s : FullSymbol) : Prop := ∀ c ∈ s.coef, c ∈ F

section CoefsIn

variable {F : Set Gf256} (closed : ClosedCoefs F) {s t u r : FullSymbol} {c : Gf256} {found : Bool}

/-- Recomputing the bounds leaves the coefficients. -/
theorem coef_of_adjustMinMaxCoef (ok : fullSymbolAdjustMinMaxCoef s = .ok (t, found)) :
    t.coef = s.coef := by
  unfold fullSymbolAdjustMinMaxCoef at ok
  split at ok
  · obtain ⟨-, -, result⟩ := bind_eq_ok.mp ok
    cases result
    rfl
  · obtain ⟨⟨low, found₁⟩, min_eq, ok⟩ := bind_eq_ok.mp ok
    obtain ⟨⟨high, found₂⟩, max_eq, ok⟩ := bind_eq_ok.mp ok
    obtain ⟨-, -, result⟩ := bind_eq_ok.mp ok
    cases result
    have low_coef : low.coef = s.coef := by
      obtain ⟨-, -, min_eq⟩ := bind_eq_ok.mp min_eq
      split at min_eq
      · cases min_eq
        rfl
      · cases min_eq
        rfl
    have high_coef : t.coef = low.coef := by
      obtain ⟨-, -, max_eq⟩ := bind_eq_ok.mp max_eq
      obtain ⟨count, -, max_eq⟩ := bind_eq_ok.mp max_eq
      split at max_eq
      · cases max_eq
        rfl
      · cases max_eq
        rfl
    exact high_coef.trans low_coef

include closed

theorem ClosedCoefs.getD_mem {block : List Gf256} (cells : ∀ c ∈ block, c ∈ F) (k : ℕ) :
    block.getD k 0 ∈ F := by
  rw [List.getD_eq_getElem?_getD]
  cases entry : block[k]? with
  | none => exact closed.zero_mem
  | some c => exact cells c (List.mem_of_getElem? entry)

theorem ClosedCoefs.getCoef_mem (cells : CoefsIn F s) (i : ℕ) : fullSymbolGetCoef s i ∈ F := by
  unfold fullSymbolGetCoef
  split
  · exact closed.getD_mem cells _
  · exact closed.zero_mem

/-- A fresh symbol has zero coefficients only. -/
theorem ClosedCoefs.alloc {first last size : ℕ} (ok : fullSymbolAlloc first last size = .ok t) :
    CoefsIn F t := by
  have zeros : ∀ {n : ℕ} {adjusted : FullSymbol} {found : Bool}, fullSymbolAdjustMinMaxCoef
      { coef := List.replicate n 0, firstId := first, lastId := last, firstNonzeroId := 0,
        lastNonzeroId := 0, data := List.replicate size 0 } = .ok (adjusted, found) →
      CoefsIn F adjusted := by
    intro n adjusted found adjust_eq c mem
    rw [coef_of_adjustMinMaxCoef adjust_eq] at mem
    rw [List.eq_of_mem_replicate mem]
    exact closed.zero_mem
  unfold fullSymbolAlloc at ok
  dsimp only at ok
  split at ok
  · obtain ⟨-, -, ok⟩ := bind_eq_ok.mp ok
    obtain ⟨n, -, ok⟩ := bind_eq_ok.mp ok
    obtain ⟨⟨adjusted, found⟩, adjust_eq, result⟩ := bind_eq_ok.mp ok
    cases result
    exact zeros adjust_eq
  · obtain ⟨-, -, ok⟩ := bind_eq_ok.mp ok
    obtain ⟨n, -, ok⟩ := bind_eq_ok.mp ok
    obtain ⟨⟨adjusted, found⟩, adjust_eq, result⟩ := bind_eq_ok.mp ok
    cases result
    exact zeros adjust_eq

theorem ClosedCoefs.clone (cells : CoefsIn F s) (ok : fullSymbolClone s = .ok t) :
    CoefsIn F t := by
  obtain ⟨fresh, alloc_eq, ok⟩ := bind_eq_ok.mp ok
  have fresh_cells := closed.alloc alloc_eq
  dsimp only at ok
  split at ok
  · cases ok
    exact fresh_cells
  · obtain ⟨coefs, load_eq, ok⟩ := bind_eq_ok.mp ok
    obtain ⟨coef, store_eq, ok⟩ := bind_eq_ok.mp ok
    obtain ⟨data, -, result⟩ := bind_eq_ok.mp ok
    cases result
    intro c mem
    rcases Block.mem_of_store (access_eq_ok.mp store_eq) mem with old | copied
    · exact fresh_cells c old
    · exact cells c (Block.mem_of_load (access_eq_ok.mp load_eq) copied)

theorem ClosedCoefs.scale (cells : CoefsIn F s) (factor : c ∈ F)
    (ok : fullSymbolScale s c = .ok t) : CoefsIn F t := by
  unfold fullSymbolScale at ok
  split at ok
  · cases ok
    exact cells
  · obtain ⟨-, -, ok⟩ := bind_eq_ok.mp ok
    obtain ⟨data, -, ok⟩ := bind_eq_ok.mp ok
    obtain ⟨count, -, ok⟩ := bind_eq_ok.mp ok
    obtain ⟨coefs, mul_eq, ok⟩ := bind_eq_ok.mp ok
    obtain ⟨⟨adjusted, found⟩, adjust_eq, result⟩ := bind_eq_ok.mp ok
    cases result
    have scaled : ∀ a ∈ coefs, a ∈ F := by
      have mul_eq := access_eq_ok.mp mul_eq
      unfold symbolMul at mul_eq
      intro a mem
      split at mul_eq
      · rcases Block.mem_of_fill mul_eq mem with old | rfl
        · exact cells a old
        · exact closed.zero_mem
      · obtain ⟨loaded, load_eq, store_eq⟩ := Option.bind_eq_some_iff.mp mul_eq
        rcases Block.mem_of_store store_eq mem with old | product
        · exact cells a old
        · obtain ⟨b, mem_b, rfl⟩ := List.mem_map.mp product
          exact closed.mul_mem factor (cells b (Block.mem_of_load load_eq mem_b))
    intro a mem
    rw [coef_of_adjustMinMaxCoef adjust_eq] at mem
    exact scaled a mem

theorem ClosedCoefs.addBase (cells_s : CoefsIn F s) (cells_t : CoefsIn F t)
    (cells_r : CoefsIn F r) (ok : fullSymbolAddBase s t r = .ok u) : CoefsIn F u := by
  unfold fullSymbolAddBase at ok
  obtain ⟨-, -, ok⟩ := bind_eq_ok.mp ok
  obtain ⟨-, -, ok⟩ := bind_eq_ok.mp ok
  obtain ⟨-, -, ok⟩ := bind_eq_ok.mp ok
  obtain ⟨-, -, ok⟩ := bind_eq_ok.mp ok
  obtain ⟨-, -, ok⟩ := bind_eq_ok.mp ok
  obtain ⟨low, low_eq, ok⟩ := bind_eq_ok.mp ok
  obtain ⟨high, high_eq, ok⟩ := bind_eq_ok.mp ok
  obtain ⟨coef, store_eq, ok⟩ := bind_eq_ok.mp ok
  obtain ⟨⟨adjusted, found⟩, adjust_eq, ok⟩ := bind_eq_ok.mp ok
  obtain ⟨d₁, -, ok⟩ := bind_eq_ok.mp ok
  obtain ⟨d₂, -, ok⟩ := bind_eq_ok.mp ok
  obtain ⟨d₃, -, result⟩ := bind_eq_ok.mp ok
  cases result
  intro a mem
  have kept := coef_of_adjustMinMaxCoef adjust_eq
  dsimp only at mem kept
  rw [kept] at mem
  rcases Block.mem_of_store (access_eq_ok.mp store_eq) mem with old | sum
  · rcases Block.mem_of_fill (access_eq_ok.mp high_eq) old with old | rfl
    · rcases Block.mem_of_fill (access_eq_ok.mp low_eq) old with old | rfl
      · exact cells_r a old
      · exact closed.zero_mem
    · exact closed.zero_mem
  · obtain ⟨i, -, rfl⟩ := List.mem_map.mp sum
    exact closed.add_mem (closed.getCoef_mem cells_s i) (closed.getCoef_mem cells_t i)

theorem ClosedCoefs.add (cells_s : CoefsIn F s) (cells_t : CoefsIn F t)
    (ok : fullSymbolAdd s t = .ok u) : CoefsIn F u := by
  unfold fullSymbolAdd at ok
  split at ok
  · exact closed.alloc ok
  split at ok
  · exact closed.clone cells_t ok
  split at ok
  · exact closed.clone cells_s ok
  · obtain ⟨fresh, alloc_eq, ok⟩ := bind_eq_ok.mp ok
    exact closed.addBase cells_s cells_t (closed.alloc alloc_eq) ok

/-- The row operations do not leave the set. -/
theorem ClosedCoefs.rowClosed : RowClosed F (CoefsIn F) where
  coef i cells := closed.getCoef_mem cells i
  inv := closed.inv_mem
  adjust cells ok := by
    intro c mem
    rw [coef_of_adjustMinMaxCoef ok] at mem
    exact cells c mem
  clone := closed.clone
  scale := closed.scale
  add := closed.add

end CoefsIn

/-- The cells of a well-formed symbol are its coefficients. -/
theorem FullSymbol.WellFormed.coefsIn {F : Set Gf256} {s : FullSymbol} (wf : s.WellFormed)
    (coefs : ∀ i, fullSymbolGetCoef s i ∈ F) : CoefsIn F s := by
  intro c mem
  obtain ⟨k, entry⟩ := List.mem_iff_getElem?.mp mem
  obtain ⟨inside, -⟩ := List.getElem?_eq_some_iff.mp entry
  have range : s.firstId ≤ s.firstId + k ∧ s.firstId + k ≤ s.lastId := by
    rcases wf with e | ⟨r, -⟩
    · have cells := e.cells
      have first := e.first
      have last := e.last
      omega
    · have cells := r.cells
      have ordered := r.ordered
      omega
  have read := coefs (s.firstId + k)
  rw [fullSymbolGetCoef_of_mem range, Nat.add_sub_cancel_left, List.getD_eq_getElem?_getD, entry,
    Option.getD_some] at read
  exact read

/-- In every run whose submissions have their coefficients in a closed set, so have all
rows. -/
theorem coefs_closed_of_run {F : Set Gf256} (closed : ClosedCoefs F) {cs : List Submission}
    {set : FullSymbolSet} {os : List Notification}
    (run : Steps submit (fun _ _ _ => True) fullSymbolSetAlloc cs set os)
    (submitted : ∀ s ∈ cs, ∀ i, fullSymbolGetCoef s.1 i ∈ F) :
    ∀ (k : ℕ) row, set.fullSymbolTab[k]? = some (some row) → ∀ i, fullSymbolGetCoef row i ∈ F := by
  intro k row at_k i
  have rows := closed.rowClosed.of_run run fun s mem => s.2.coefsIn (submitted s mem)
  exact closed.getCoef_mem (rows row (List.mem_of_getElem? at_k)) i

/-- The coefficients of the binary field. -/
theorem closedCoefs_binary : ClosedCoefs ({0, 1} : Set Gf256) where
  zero_mem := .inl rfl
  one_mem := .inr rfl
  add_mem := by
    rintro a b (rfl | rfl) (rfl | rfl)
    · exact .inl (by decide)
    · exact .inr (by decide)
    · exact .inr (by decide)
    · exact .inl (by decide)
  mul_mem := by
    rintro a b (rfl | rfl) (rfl | rfl)
    · exact .inl (by decide)
    · exact .inl (by decide)
    · exact .inl (by decide)
    · exact .inr (by decide)
  inv_mem := by
    rintro a (rfl | rfl)
    · exact .inl (by decide)
    · exact .inr (by decide)

/-- The sums of 4 and 5 and of 5 and 6, of which the second is eliminated from the first. -/
theorem coefs_closed_two_pairs :
    ∃ set os, Steps submit (fun _ _ _ => True) fullSymbolSetAlloc
        [pairSubmission 4 1 (bytes [7]), pairSubmission 5 1 (bytes [9])] set os ∧
      ∀ (k : ℕ) row, set.fullSymbolTab[k]? = some (some row) →
        ∀ i, fullSymbolGetCoef row i ∈ ({0, 1} : Set Gf256) := by
  obtain ⟨set, os, steps⟩ := exists_steps_of_checkedRun
    (show (checkedRun submit (fun _ _ _ => True) fullSymbolSetAlloc
      [pairSubmission 4 1 (bytes [7]), pairSubmission 5 1 (bytes [9])]).isSome by decide +kernel)
  have binary : ∀ (id : ℕ) (data : List Gf256) (i : ℕ),
      fullSymbolGetCoef (pairSymbol id 1 data) i ∈ ({0, 1} : Set Gf256) := by
    intro id data i
    unfold fullSymbolGetCoef
    split
    · exact closedCoefs_binary.getD_mem (by simp [pairSymbol]) _
    · exact .inl rfl
  refine ⟨set, os, steps, coefs_closed_of_run closedCoefs_binary steps fun s mem i => ?_⟩
  rcases List.mem_cons.mp mem with rfl | mem
  · exact binary 4 _ i
  · rw [List.mem_singleton.mp mem]
    exact binary 5 _ i

end SwifCodec
