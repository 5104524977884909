import SwifCodec.FullSymbolSet.PacketCount
import SwifCodec.Memory.Symbols

/-!
The functions in memory do what the functions on contents do.

Each function is compared with the one of the other modules that computes the contents: it fails
where that one fails, never by using a freed block or freeing one twice, and it leaves the blocks
it was given and those it says it makes.
-/

namespace SwifCodec

open Library FullSymbol FullSymbolSet

/-! ### Symbols -/

section Symbols

variable {h : Memory} {m : Multiset (ℕ × FullSymbol)} {p q : ℕ} {s t : FullSymbol}

/-- A clone is a new block. -/
theorem fullSymbolCloneAt_sim (holds : h.Holds m) (mem : (p, s) ∈ m) :
    Simulates h (fullSymbolCloneAt p) (fullSymbolClone s) fun q h' c =>
      h.blocks.length ≤ q ∧ h'.Holds ((q, c) ::ₘ m) := by
  unfold fullSymbolCloneAt
  refine Simulates.read ((holds.read p s).mpr mem) (Simulates.lift_bind fun c _ => ?_)
  exact Simulates.alloc_last holds fun q h' fresh holds' => ⟨fresh, holds'⟩

theorem fullSymbolAdjustMinMaxCoefAt_sim (holds : h.Holds ((p, s) ::ₘ m)) :
    Simulates h (fullSymbolAdjustMinMaxCoefAt p) (fullSymbolAdjustMinMaxCoef s) fun _ h' c =>
      h'.Holds ((p, c.1) ::ₘ m) := by
  unfold fullSymbolAdjustMinMaxCoefAt
  refine Simulates.read holds.read_cons (Simulates.lift_bind fun c _ => ?_)
  exact Simulates.write_last holds fun h' holds' => holds'

/-- A symbol is scaled in its block. -/
theorem fullSymbolScaleAt_sim (coef : Gf256) (holds : h.Holds ((p, s) ::ₘ m)) :
    Simulates h (fullSymbolScaleAt p coef) (fullSymbolScale s coef) fun _ h' c =>
      h'.Holds ((p, c) ::ₘ m) := by
  unfold fullSymbolScaleAt
  refine Simulates.read holds.read_cons (Simulates.lift_bind fun c _ => ?_)
  exact Simulates.write_last holds fun h' holds' => holds'

/-- A sum is a new block. -/
theorem fullSymbolAddAt_sim (holds : h.Holds m) (mem : (p, s) ∈ m) (mem' : (q, t) ∈ m) :
    Simulates h (fullSymbolAddAt p q) (fullSymbolAdd s t) fun r h' c =>
      h.blocks.length ≤ r ∧ h'.Holds ((r, c) ::ₘ m) := by
  unfold fullSymbolAddAt
  refine Simulates.read ((holds.read p s).mpr mem) (Simulates.read ((holds.read q t).mpr mem') ?_)
  refine Simulates.lift_bind fun c _ => ?_
  exact Simulates.alloc_last holds fun r h' fresh holds' => ⟨fresh, holds'⟩

end Symbols

/-! ### Tables -/

/-- A table whose cells have the address of a symbol and the symbol. -/
abbrev OwnedTable := SymbolTable (ℕ × FullSymbol)

namespace SymbolTable

/-- The table as it is in memory. -/
def pointers (cells : OwnedTable) : SymbolTable ℕ := cells.map Prod.fst

/-- The table as a set of symbols. -/
def contents (cells : OwnedTable) : FullSymbolSet := (cells.map Prod.snd).toSet

/-- What a reader of the memory finds behind a table of addresses. -/
def view (set : SymbolTable ℕ) (h : Memory) : FullSymbolSet :=
  (set.map fun p => (h.read p).getD ⟨[], 0, 0, 0, 0, []⟩).toSet

end SymbolTable

section Tables

variable {h : Memory} {m : Multiset (ℕ × FullSymbol)} {cells : OwnedTable} {i : ℕ}

theorem mem_entries {β : Type} {set : SymbolTable β} {b : β} :
    b ∈ set.entries ↔ ∃ i : ℕ, set.fullSymbolTab[i]? = some (some b) := by
  unfold SymbolTable.entries
  rw [Multiset.mem_coe, List.reduceOption_mem_iff, List.mem_iff_getElem?]

/-- The memory behind the table has its symbols. -/
theorem view_pointers (holds : h.Holds m) (within : cells.entries ≤ m) :
    cells.pointers.view h = cells.contents := by
  have same : (cells.fullSymbolTab.map (Option.map Prod.fst)).map
      (Option.map fun p => (h.read p).getD ⟨[], 0, 0, 0, 0, []⟩) =
      cells.fullSymbolTab.map (Option.map Prod.snd) := by
    rw [List.map_map]
    refine List.map_congr_left fun cell mem => ?_
    cases cell with
    | none => rfl
    | some e =>
        have mem : e ∈ cells.entries := by
          unfold SymbolTable.entries
          rwa [Multiset.mem_coe, List.reduceOption_mem_iff]
        have read := (holds.read e.1 e.2).mpr (Multiset.mem_of_le within mem)
        show some ((h.read e.1).getD _) = some e.2
        rw [read]
        rfl
  show FullSymbolSet.mk _ _ _ _ = FullSymbolSet.mk _ _ _ _
  exact congrArg (FullSymbolSet.mk cells.size cells.firstSymbolId cells.nmbrPackets) same

/-- What a table points to is live. -/
theorem live_pointers (holds : h.Holds m) (within : cells.entries ≤ m) :
    ∀ p, some p ∈ cells.pointers.fullSymbolTab → (h.read p).isSome := by
  intro p mem
  obtain ⟨cell, stored, eq⟩ := List.mem_map.mp mem
  obtain ⟨e, rfl, rfl⟩ := Option.map_eq_some_iff.mp eq
  have among : e ∈ cells.entries := by
    unfold SymbolTable.entries
    rwa [Multiset.mem_coe, List.reduceOption_mem_iff]
  rw [(holds.read e.1 e.2).mpr (Multiset.mem_of_le within among)]
  rfl

theorem getElem?_pointers : cells.pointers.fullSymbolTab[i]? =
    cells.fullSymbolTab[i]?.map (Option.map Prod.fst) := cells.getElem?_map _ i

theorem getElem?_contents : cells.contents.fullSymbolTab[i]? =
    cells.fullSymbolTab[i]?.map (Option.map Prod.snd) := cells.getElem?_map _ i

/-- Reading a slot. -/
theorem slot_sim (i : ℕ) :
    Simulates h (HeapExec.lift (access .pivotTab cells.pointers.fullSymbolTab[i]?))
      (access .pivotTab cells.contents.fullSymbolTab[i]?) fun r h' r' => h' = h ∧
        ∃ cell, cells.fullSymbolTab[i]? = some cell ∧ r = cell.map Prod.fst ∧
          r' = cell.map Prod.snd := by
  rw [getElem?_pointers, getElem?_contents, access_map, access_map]
  refine (Simulates.lift_map _ _ _).mono fun r h' r' _ _ post => ?_
  obtain ⟨same, cell, eq, rfl, rfl⟩ := post
  exact ⟨same, cell, access_eq_ok.mp eq, rfl, rfl⟩

/-- Finding a pivot. -/
theorem getPivot_sim (i : ℕ) :
    Simulates h (HeapExec.lift (cells.pointers.getPivot i))
      (fullSymbolSetGetPivot cells.contents i) fun r h' r' => h' = h ∧
        ∃ cell, (∀ e, cell = some e → e ∈ cells.entries) ∧ r = cell.map Prod.fst ∧
          r' = cell.map Prod.snd := by
  have pointers_eq := cells.getPivot_map Prod.fst i
  have contents_eq : fullSymbolSetGetPivot cells.contents i =
      (cells.getPivot i).map (Option.map Prod.snd) := cells.getPivot_map Prod.snd i
  rw [contents_eq]
  show Simulates h (HeapExec.lift ((cells.map Prod.fst).getPivot i)) _ _
  rw [pointers_eq]
  refine (Simulates.lift_map _ _ _).mono fun r h' r' _ _ post => ?_
  obtain ⟨same, cell, eq, rfl, rfl⟩ := post
  refine ⟨same, cell, fun e at_i => ?_, rfl, rfl⟩
  subst at_i
  unfold SymbolTable.getPivot at eq
  split at eq
  · exact mem_entries.mpr ⟨_, access_eq_ok.mp eq⟩
  · cases eq

end Tables

/-! ### Reduction -/

section Reduce

variable {h : Memory} {m : Multiset (ℕ × FullSymbol)} {cells : OwnedTable} {p : ℕ} {s : FullSymbol}

/-- The symbol that is reduced is the one block that the loop makes and keeps. -/
theorem removeEachPivotLoopAt_sim (within : cells.entries ≤ m) (rounds i : ℕ) (isZero : Bool)
    (holds : h.Holds ((p, s) ::ₘ m)) :
    Simulates h (removeEachPivotLoopAt cells.pointers rounds i p isZero)
      (removeEachPivotLoop cells.contents rounds i s isZero) fun r h' r' =>
        (r = none ∧ r' = none ∧ h'.Holds m) ∨
          ∃ q u, r = some q ∧ r' = some u ∧ h'.Holds ((q, u) ::ₘ m) := by
  induction rounds generalizing i isZero h p s with
  | zero => exact rfl
  | succ rounds ih =>
      unfold removeEachPivotLoopAt removeEachPivotLoop
      refine Simulates.read holds.read_cons ?_
      by_cases done : s.lastNonzeroId < i
      · rw [if_pos done, if_pos done]
        cases isZero with
        | true =>
            refine Simulates.free holds fun h' _ holds' => ?_
            exact Simulates.pure (.inl ⟨rfl, rfl, holds'⟩)
        | false => exact Simulates.pure (.inr ⟨p, s, rfl, rfl, holds⟩)
      rw [if_neg done, if_neg done]
      by_cases skip : fullSymbolGetCoef s i = 0
      · rw [if_pos skip, if_pos skip]
        exact ih (add32 i 1) isZero holds
      rw [if_neg skip, if_neg skip]
      refine (getPivot_sim i).bind fun r h₁ r' _ _ found => ?_
      obtain ⟨rfl, cell, stored, rfl, rfl⟩ := found
      cases cell with
      | none => exact ih (add32 i 1) false holds
      | some e =>
          obtain ⟨pivot, row⟩ := e
          have mem : (pivot, row) ∈ (p, s) ::ₘ m :=
            Multiset.mem_cons_of_mem (Multiset.mem_of_le within (stored _ rfl))
          refine (fullSymbolCloneAt_sim holds mem).bind fun c h₂ v _ _ cloned => ?_
          refine (fullSymbolScaleAt_sim _ cloned.2).bind fun _ h₃ v' _ _ holds₃ => ?_
          have given : (p, s) ∈ (c, v') ::ₘ (p, s) ::ₘ m :=
            Multiset.mem_cons_of_mem (Multiset.mem_cons_self _ _)
          refine (fullSymbolAddAt_sim holds₃ given (Multiset.mem_cons_self _ _)).bind
            fun r h₄ sum _ _ added => ?_
          have holds₄ := added.2
          refine Simulates.read holds₄.read_cons ?_
          by_cases zero : fullSymbolIsZero sum = true
          · rw [if_pos zero, if_pos zero]
            refine Simulates.free holds₄ fun h₅ _ holds₅ => ?_
            refine Simulates.free holds₅ fun h₆ _ holds₆ => ?_
            exact ih (add32 i 1) isZero holds₆
          · rw [if_neg zero, if_neg zero]
            rw [Multiset.cons_swap (c, v'), Multiset.cons_swap (r, sum)] at holds₄
            refine Simulates.free holds₄ fun h₅ _ holds₅ => ?_
            rw [Multiset.cons_swap] at holds₅
            refine Simulates.free holds₅ fun h₆ _ holds₆ => ?_
            exact ih (add32 i 1) isZero holds₆

/-- The reduced symbol is a new block, and nothing else is left. -/
theorem fullSymbolSetRemoveEachPivotAt_sim (within : cells.entries ≤ m) (holds : h.Holds m)
    (mem : (p, s) ∈ m) :
    Simulates h (fullSymbolSetRemoveEachPivotAt cells.pointers p)
      (fullSymbolSetRemoveEachPivot cells.contents s) fun r h' r' =>
        (r = none ∧ r' = none ∧ h'.Holds m) ∨
          ∃ q u, r = some q ∧ r' = some u ∧ h'.Holds ((q, u) ::ₘ m) := by
  unfold fullSymbolSetRemoveEachPivotAt fullSymbolSetRemoveEachPivot
  refine (fullSymbolCloneAt_sim holds mem).bind fun q h₁ v _ _ cloned => ?_
  refine (fullSymbolAdjustMinMaxCoefAt_sim cloned.2).bind fun _ h₂ adjusted _ _ holds₂ => ?_
  obtain ⟨v', found⟩ := adjusted
  refine Simulates.read holds₂.read_cons ?_
  by_cases zero : v'.firstNonzeroId = symbolIdNone
  · rw [if_pos zero]
    dsimp only
    rw [if_pos zero]
    refine Simulates.free holds₂ fun h₃ _ holds₃ => ?_
    exact Simulates.pure (.inl ⟨rfl, rfl, holds₃⟩)
  · rw [if_neg zero]
    dsimp only
    rw [if_neg zero]
    exact removeEachPivotLoopAt_sim within 4294967296 v'.firstNonzeroId true holds₂

end Reduce

end SwifCodec
