import SwifCodec.Memory.Refinement

/-!
Storing a pivot in memory.

Each round of `full_symbol_set_add_as_pivot` replaces the block of its slot, and
`full_symbol_set_add` adds one more. After both, no stored symbol is in the block it was in
before (`Pivoted.fresh`). A block that `full_symbol_set_add` pushes past the end of the table is
not freed, and nothing points to it any more: that is so exactly where a row is pushed out
(`Pivoted.lost_iff`).
-/

namespace SwifCodec

open Library FullSymbol FullSymbolSet

/-! ### Storing a pivot -/

/-- A notification as the other modules have it. -/
def NotificationAt.view (call : NotificationAt) : Notification :=
  ⟨call.set.view call.memory, call.decodedId⟩

/-- A notification for the block `e`, which is in slot `j` since. -/
structure NotificationAt.For (call : NotificationAt) (cells : OwnedTable) (j : ℕ)
    (e : ℕ × FullSymbol) : Prop where
  stored : cells.fullSymbolTab[j]? = some (some e)
  pointer : call.set.fullSymbolTab[j]? = some (some e.1)
  size : call.set.size = cells.size
  first : call.set.firstSymbolId = cells.firstSymbolId
  read : call.memory.read e.1 = some e.2
  live : ∀ p, some p ∈ call.set.fullSymbolTab → (call.memory.read p).isSome
  decodedId : call.decodedId = e.2.firstNonzeroId
  single : fullSymbolHasOneId e.2 = true

/-- The table after slot `i` got a block at `bound` or further, or stayed empty. -/
structure Replaced (cells : OwnedTable) (i bound : ℕ) (cells' : OwnedTable) : Prop where
  size : cells'.size = cells.size
  first : cells'.firstSymbolId = cells.firstSymbolId
  length : cells'.fullSymbolTab.length = cells.fullSymbolTab.length
  other : ∀ j, j ≠ i → cells'.fullSymbolTab[j]? = cells.fullSymbolTab[j]?
  fresh : ∀ e, cells'.fullSymbolTab[i]? = some (some e) → bound ≤ e.1

section Store

variable {h : Memory} {m : Multiset (ℕ × FullSymbol)} {cells : OwnedTable} {p i : ℕ}
  {n : FullSymbol} {notifiedAt : List NotificationAt}

theorem Replaced.of_empty (bound : ℕ) (empty : cells.fullSymbolTab[i]? = some none) :
    Replaced cells i bound cells where
  size := rfl
  first := rfl
  length := rfl
  other _ _ := rfl
  fresh e at_i := by
    rw [empty] at at_i
    cases at_i

/-- A block in place of another. -/
theorem Replaced.set {bound q r : ℕ} {row u : FullSymbol}
    (at_i : cells.fullSymbolTab[i]? = some (some (q, row))) (fresh : bound ≤ r) :
    Replaced cells i bound
        { cells with fullSymbolTab := cells.fullSymbolTab.set i (some (r, u)) } ∧
      (r, u) ::ₘ cells.entries = (q, row) ::ₘ
        (SymbolTable.mk cells.size cells.firstSymbolId cells.nmbrPackets
          (cells.fullSymbolTab.set i (some (r, u)))).entries := by
  have lt := (List.getElem?_eq_some_iff.mp at_i).1
  refine ⟨⟨rfl, rfl, List.length_set, fun j ne => List.getElem?_set_ne (Ne.symm ne),
    fun e at_new => ?_⟩, ?_⟩
  · dsimp only at at_new
    rw [List.getElem?_set_self lt] at at_new
    cases at_new
    exact fresh
  · have points := SymbolTable.reduceOption_set at_i (some (r, u))
    rw [Option.toList_some, Option.toList_some, Multiset.coe_singleton, Multiset.coe_singleton,
      add_comm, Multiset.singleton_add, add_comm, Multiset.singleton_add] at points
    exact points.symm

/-- A round replaces the block of its slot. -/
theorem addAsPivotStepAt_sim (holds : h.Holds (cells.entries + ((p, n) ::ₘ m))) :
    Simulates h (addAsPivotStepAt p n.firstNonzeroId (cells.pointers, notifiedAt) i)
      (addAsPivotStep n (cells.contents, notifiedAt.map NotificationAt.view) i) fun r h' r' =>
        ∃ cells' new, r = (cells'.pointers, notifiedAt ++ new) ∧
          r' = (cells'.contents, (notifiedAt ++ new).map NotificationAt.view) ∧
          h'.Holds (cells'.entries + ((p, n) ::ₘ m)) ∧
          Replaced cells i h.blocks.length cells' ∧ ∀ call ∈ new, ∃ e, call.For cells' i e := by
  unfold addAsPivotStepAt addAsPivotStep
  dsimp only
  refine (slot_sim i).bind fun r h₁ r' _ _ found => ?_
  obtain ⟨rfl, cell, at_i, rfl, rfl⟩ := found
  cases cell with
  | none =>
      refine Simulates.pure ⟨cells, [], ?_, ?_, holds, .of_empty _ at_i, nofun⟩
      · rw [List.append_nil]
      · rw [List.append_nil]
  | some e =>
      obtain ⟨q, row⟩ := e
      have stored : (q, row) ∈ cells.entries := mem_entries.mpr ⟨i, at_i⟩
      have given : (p, n) ∈ cells.entries + ((p, n) ::ₘ m) :=
        Multiset.mem_add.mpr (.inr (Multiset.mem_cons_self _ _))
      refine (fullSymbolCloneAt_sim holds given).bind fun c h₂ v later₂ _ cloned => ?_
      have in_table : (q, row) ∈ cells.entries + ((p, n) ::ₘ m) :=
        Multiset.mem_add.mpr (.inl stored)
      refine Simulates.read ((cloned.2.read q row).mpr (Multiset.mem_cons_of_mem in_table)) ?_
      refine (fullSymbolScaleAt_sim _ cloned.2).bind fun _ h₃ v' later₃ _ holds₃ => ?_
      refine (fullSymbolAddAt_sim holds₃ (Multiset.mem_cons_of_mem in_table)
        (Multiset.mem_cons_self _ _)).bind fun r h₄ u _ _ added => ?_
      have fresh : h₁.blocks.length ≤ r := (later₂.trans later₃).length.trans added.1
      obtain ⟨replaced, swap⟩ := @Replaced.set cells i _ q r row u at_i fresh
      generalize new_eq : SymbolTable.mk cells.size cells.firstSymbolId cells.nmbrPackets
        (cells.fullSymbolTab.set i (some (r, u))) = cells' at replaced swap
      have holds₄ := added.2
      refine Simulates.read holds₄.read_cons ?_
      rw [Multiset.cons_swap, ← Multiset.cons_add, swap, Multiset.cons_add,
        Multiset.cons_swap] at holds₄
      refine Simulates.free holds₄ fun h₅ _ holds₅ => ?_
      have lt := (List.getElem?_eq_some_iff.mp at_i).1
      have pointers_eq : Block.store cells.pointers.fullSymbolTab i [some r] =
          some cells'.pointers.fullSymbolTab := by
        rw [← new_eq]
        exact cells.store_map Prod.fst lt (r, u)
      have contents_eq : Block.store cells.contents.fullSymbolTab i [some u] =
          some cells'.contents.fullSymbolTab := by
        rw [← new_eq]
        exact cells.store_map Prod.snd lt (r, u)
      rw [pointers_eq, contents_eq]
      refine Simulates.step rfl (.refl h₅) (Simulates.free holds₅ fun h₆ _ kept => ?_)
      have pointers_set : { cells.pointers with fullSymbolTab := cells'.pointers.fullSymbolTab } =
          cells'.pointers := by
        rw [← new_eq]
        rfl
      have contents_set : { cells.contents with fullSymbolTab := cells'.contents.fullSymbolTab } =
          cells'.contents := by
        rw [← new_eq]
        rfl
      rw [access_some, ok_bind]
      dsimp only
      rw [pointers_set, contents_set]
      by_cases decoded : (!fullSymbolHasOneId row && fullSymbolHasOneId u) = true
      · rw [if_pos decoded, if_pos decoded]
        refine (Simulates.lift _).bind fun _ h₇ _ _ _ same => ?_
        obtain ⟨-, rfl⟩ := same
        refine Simulates.heap (Simulates.pure ⟨cells', [⟨cells'.pointers, h₇, _⟩], rfl, ?_, kept,
          replaced, fun call mem => ?_⟩)
        · rw [List.map_append, List.map_singleton]
          unfold NotificationAt.view
          rw [view_pointers kept (Multiset.le_add_right _ _)]
        · rw [Bool.and_eq_true] at decoded
          have at_new : cells'.fullSymbolTab[i]? = some (some (r, u)) := by
            rw [← new_eq]
            exact List.getElem?_set_self lt
          have at_pointer : cells'.pointers.fullSymbolTab[i]? = some (some r) := by
            rw [getElem?_pointers, at_new]
            rfl
          have live := (kept.read r u).mpr
            (Multiset.mem_add.mpr (.inl (mem_entries.mpr ⟨i, at_new⟩)))
          rw [List.mem_singleton.mp mem]
          exact ⟨(r, u), at_new, at_pointer, rfl, rfl, live,
            live_pointers kept (Multiset.le_add_right _ _), rfl, decoded.2⟩
      · rw [if_neg decoded, if_neg decoded]
        refine Simulates.pure ⟨cells', [], ?_, ?_, kept, replaced, nofun⟩
        · rw [List.append_nil]
        · rw [List.append_nil]

/-- A notification is for its block as long as that block stays in its slot. -/
theorem NotificationAt.For.replaced {call : NotificationAt} {cells' : OwnedTable} {j bound : ℕ}
    {e : ℕ × FullSymbol} (told : call.For cells j e) (round : Replaced cells i bound cells')
    (ne : j ≠ i) : call.For cells' j e where
  stored := by rw [round.other j ne, told.stored]
  pointer := told.pointer
  size := by rw [round.size, told.size]
  first := by rw [round.first, told.first]
  read := told.read
  live := told.live
  decodedId := told.decodedId
  single := told.single

/-- The rounds of `full_symbol_set_add_as_pivot`: every stored symbol is in a new block, and what
was notified is still in its slot. -/
structure Cleared (cells : OwnedTable) (n : FullSymbol) (bound : ℕ) (mid : OwnedTable)
    (calls : List NotificationAt) : Prop where
  rounds : (List.range cells.size).foldlM (addAsPivotStep n) (cells.contents, []) =
    .ok (mid.contents, calls.map NotificationAt.view)
  length : mid.fullSymbolTab.length = mid.size
  fresh : ∀ e ∈ mid.entries, bound ≤ e.1
  told : ∀ call ∈ calls, ∃ j e, call.For mid j e

theorem Cleared.mono {bound bound' : ℕ} {mid : OwnedTable} {calls : List NotificationAt}
    (cleared : Cleared cells n bound mid calls) (le : bound' ≤ bound) :
    Cleared cells n bound' mid calls :=
  ⟨cleared.rounds, cleared.length, fun e mem => le.trans (cleared.fresh e mem), cleared.told⟩

theorem addAsPivotLoopAt_sim (fits : cells.fullSymbolTab.length = cells.size)
    (holds : h.Holds (cells.entries + ((p, n) ::ₘ m))) :
    Simulates h ((List.range cells.size).foldlM (addAsPivotStepAt p n.firstNonzeroId)
        (cells.pointers, []))
      ((List.range cells.size).foldlM (addAsPivotStep n) (cells.contents, [])) fun r h' r' =>
        ∃ mid calls, r = (mid.pointers, calls) ∧
          r' = (mid.contents, calls.map NotificationAt.view) ∧
          h'.Holds (mid.entries + ((p, n) ::ₘ m)) ∧ Cleared cells n h.blocks.length mid calls := by
  have loop := @Simulates.foldlM FullSymbol Fault _ _ h (addAsPivotStepAt p n.firstNonzeroId)
    (addAsPivotStep n)
    (fun i r h' r' => ∃ mid calls, r = (mid.pointers, calls) ∧
      r' = (mid.contents, calls.map NotificationAt.view) ∧
      h'.Holds (mid.entries + ((p, n) ::ₘ m)) ∧ mid.size = cells.size ∧
      mid.fullSymbolTab.length = cells.fullSymbolTab.length ∧
      (∀ j < i, ∀ e, mid.fullSymbolTab[j]? = some (some e) → h.blocks.length ≤ e.1) ∧
      ∀ call ∈ calls, ∃ j < i, ∃ e, call.For mid j e)
    cells.size (cells.pointers, []) (cells.contents, [])
    ⟨cells, [], rfl, rfl, holds, rfl, rfl, nofun, nofun⟩ ?_
  · refine loop.mono fun r h' r' _ rounds post => ?_
    obtain ⟨mid, calls, rfl, rfl, holds', size, length, fresh, told⟩ := post
    refine ⟨mid, calls, rfl, rfl, holds', rounds, by rw [length, fits, size], fun e mem => ?_,
      fun call mem => ?_⟩
    · obtain ⟨j, at_j⟩ := mem_entries.mp mem
      have lt := (List.getElem?_eq_some_iff.mp at_j).1
      exact fresh j (by omega) e at_j
    · obtain ⟨j, -, e, told⟩ := told call mem
      exact ⟨j, e, told⟩
  · rintro i lt r h' r' later ⟨mid, calls, rfl, rfl, holds', size, length, fresh, told⟩
    refine (addAsPivotStepAt_sim holds').mono fun r h'' r' later' _ post => ?_
    obtain ⟨mid', new, rfl, rfl, holds'', round, new_told⟩ := post
    refine ⟨mid', calls ++ new, rfl, rfl, holds'', round.size.trans size,
      round.length.trans length, fun j lt e at_j => ?_, fun call mem => ?_⟩
    · rcases Nat.lt_succ_iff_lt_or_eq.mp lt with before | rfl
      · rw [round.other j before.ne] at at_j
        exact fresh j before e at_j
      · exact later.length.trans (round.fresh e at_j)
    · rcases List.mem_append.mp mem with old | fresh_call
      · obtain ⟨j, before, e, told⟩ := told call old
        exact ⟨j, Nat.lt_succ_of_lt before, e, told.replaced round before.ne⟩
      · obtain ⟨e, told⟩ := new_told call fresh_call
        exact ⟨i, Nat.lt_succ_self i, e, told⟩

end Store

/-! ### Adding a symbol -/

/-- Block `e` was stored in a table: what it pushed past the end, and what was in its slot. -/
structure Stored (cells : OwnedTable) (e : ℕ × FullSymbol) (cells' : OwnedTable)
    (lost prior : Multiset (ℕ × FullSymbol)) : Prop where
  length : cells'.fullSymbolTab.length = cells'.size
  entries : e ::ₘ cells.entries = cells'.entries + lost + prior
  below : cells.contents.InsertsBelow e.2.firstNonzeroId → prior = 0
  above : ¬ cells.contents.InsertsBelow e.2.firstNonzeroId → lost = 0
  overwritten : cells.contents.TableOk → ∀ old ∈ prior,
    cells.contents.rowAt e.2.firstNonzeroId = some old.2

section Add

variable {h : Memory} {m : Multiset (ℕ × FullSymbol)} {cells cells' : OwnedTable} {p q i : ℕ}
  {n c : FullSymbol}

/-- What is in a slot is freed. -/
theorem freeSlot_ok {old : Option (ℕ × FullSymbol)} (lt : i < cells.size)
    (at_i : cells.fullSymbolTab[i]? = some old)
    (holds : h.Holds ((old.toList : Multiset (ℕ × FullSymbol)) + m)) :
    ∃ h', freeSlot cells.pointers i h = .ok ((), h') ∧ h.Later h' ∧ h'.Holds m := by
  have slot : access .pivotTab cells.pointers.fullSymbolTab[i]? = .ok (old.map Prod.fst) := by
    rw [getElem?_pointers, at_i]
    rfl
  unfold freeSlot
  rw [if_pos (show i < cells.pointers.size from lt), slot]
  cases old with
  | none =>
      refine ⟨h, rfl, .refl h, ?_⟩
      rwa [Option.toList_none, Multiset.coe_nil, zero_add] at holds
  | some e =>
      rw [Option.toList_some, Multiset.coe_singleton, Multiset.singleton_add] at holds
      obtain ⟨h', free_eq, holds'⟩ := holds.free
      refine ⟨h', ?_, Heap.later_free free_eq, holds'⟩
      show HeapExec.free e.1 h = .ok ((), h')
      unfold HeapExec.free
      rw [free_eq]

/-- What a table does is the same with addresses and with symbols. -/
theorem lift_table (x : Exec (OwnedTable × ℕ)) :
    Simulates h (HeapExec.lift (x.map fun r => (r.1.map Prod.fst, r.2)))
      ((x.map fun r => (r.1.map Prod.snd, r.2)).map fun r => (r.1.toSet, r.2)) fun r h' r' =>
        h' = h ∧ ∃ cells' k, x = .ok (cells', k) ∧ r = (cells'.pointers, k) ∧
          r' = (cells'.contents, k) := by
  cases x with
  | error e => rfl
  | ok r => exact ⟨_, h, rfl, .refl h, rfl, r.1, r.2, rfl, rfl, rfl⟩

theorem addBelow_sim (cells : OwnedTable) (q : ℕ) (c : FullSymbol) (setI0 : ℕ) :
    Simulates h (HeapExec.lift (cells.pointers.addBelow q c.firstNonzeroId setI0))
      (fullSymbolSetAddBelow cells.contents c setI0) fun r h' r' => h' = h ∧ ∃ cells' k,
        cells.addBelow (q, c) c.firstNonzeroId setI0 = .ok (cells', k) ∧
          r = (cells'.pointers, k) ∧ r' = (cells'.contents, k) := by
  have pointers_eq := cells.addBelow_map Prod.fst (q, c) c.firstNonzeroId setI0
  have contents_eq := SymbolTable.fullSymbolSetAddBelow_toSet (cells.map Prod.snd) c setI0
  rw [cells.addBelow_map Prod.snd (q, c) c.firstNonzeroId setI0] at contents_eq
  show Simulates h (HeapExec.lift ((cells.map Prod.fst).addBelow q c.firstNonzeroId setI0))
    (fullSymbolSetAddBelow (cells.map Prod.snd).toSet c setI0) _
  rw [pointers_eq, contents_eq]
  exact lift_table _

theorem addAbove_sim (cells : OwnedTable) (q : ℕ) (c : FullSymbol) (setI0 : ℕ) :
    Simulates h (HeapExec.lift (cells.pointers.addAbove q c.firstNonzeroId setI0))
      (fullSymbolSetAddAbove cells.contents c setI0) fun r h' r' => h' = h ∧ ∃ cells' k,
        cells.addAbove (q, c) c.firstNonzeroId setI0 = .ok (cells', k) ∧
          r = (cells'.pointers, k) ∧ r' = (cells'.contents, k) := by
  have pointers_eq := cells.addAbove_map Prod.fst (q, c) c.firstNonzeroId setI0
  have contents_eq := SymbolTable.fullSymbolSetAddAbove_toSet (cells.map Prod.snd) c setI0
  rw [cells.addAbove_map Prod.snd (q, c) c.firstNonzeroId setI0] at contents_eq
  show Simulates h (HeapExec.lift ((cells.map Prod.fst).addAbove q c.firstNonzeroId setI0))
    (fullSymbolSetAddAbove (cells.map Prod.snd).toSet c setI0) _
  rw [pointers_eq, contents_eq]
  exact lift_table _

/-- A symbol that does not start below the set goes to a slot; what was there is freed. -/
theorem addToSlot_sim (fits : cells.fullSymbolTab.length = cells.size)
    (above : ¬ cells.contents.InsertsBelow c.firstNonzeroId)
    (holds : h.Holds ((q, c) ::ₘ (cells.entries + m))) :
    Simulates h (freeSlot cells.pointers
          (c.firstNonzeroId - cells.contents.startFor c.firstNonzeroId) >>= fun _ =>
        HeapExec.lift (cells.pointers.addAbove q c.firstNonzeroId
          (cells.contents.startFor c.firstNonzeroId)))
      (fullSymbolSetAddAbove cells.contents c (cells.contents.startFor c.firstNonzeroId))
      fun r h' r' => ∃ cells' prior k, Stored cells (q, c) cells' 0 prior ∧
        r = (cells'.pointers, k) ∧ r' = (cells'.contents, k) ∧ h'.Holds (cells'.entries + m) := by
  have start_le := startFor_le above
  have read_slot : cells.contents.TableOk → cells.contents.fullSymbolTab.getD
      (c.firstNonzeroId - cells.contents.startFor c.firstNonzeroId) none =
        cells.contents.rowAt c.firstNonzeroId := fun ok => getD_startFor ok start_le
  generalize cells.contents.startFor c.firstNonzeroId = setI0 at start_le read_slot ⊢
  by_cases inside : c.firstNonzeroId - setI0 < cells.size
  · obtain ⟨old, at_slot⟩ : ∃ old, cells.fullSymbolTab[c.firstNonzeroId - setI0]? = some old :=
      ⟨_, List.getElem?_eq_getElem (by omega)⟩
    -- The blocks of the other slots.
    obtain ⟨rest, split⟩ : ∃ rest, rest + (old.toList : Multiset (ℕ × FullSymbol)) =
        cells.entries := by
      refine ⟨_, (SymbolTable.reduceOption_set at_slot none).trans ?_⟩
      rw [Option.toList_none, Multiset.coe_nil, add_zero]
      rfl
    have order : (q, c) ::ₘ (cells.entries + m) =
        (old.toList : Multiset (ℕ × FullSymbol)) + ((q, c) ::ₘ (rest + m)) := by
      rw [← split, Multiset.add_cons, add_comm rest, add_assoc]
    rw [order] at holds
    obtain ⟨h₁, free_eq, later, holds₁⟩ := freeSlot_ok inside at_slot holds
    refine Simulates.step free_eq later ((addAbove_sim cells q c setI0).mono
      fun r h' r' _ _ post => ?_)
    obtain ⟨rfl, cells', k, add_eq, rfl, rfl⟩ := post
    obtain ⟨length, ⟨-, old', at_slot', entries⟩ | ⟨outside, -⟩⟩ :=
      SymbolTable.addAbove_entries fits add_eq
    · rw [at_slot] at at_slot'
      cases at_slot'
      have kept : (q, c) ::ₘ rest = cells'.entries := by
        apply @add_right_cancel _ _ _ _ (old.toList : Multiset (ℕ × FullSymbol))
        rw [← entries, ← split, Multiset.cons_add]
      rw [← Multiset.cons_add, kept] at holds₁
      refine ⟨cells', (old.toList : Multiset (ℕ × FullSymbol)), k, ⟨length, ?_,
        fun below => absurd below above, fun _ => rfl, fun ok e mem => ?_⟩, rfl, rfl, holds₁⟩
      · rw [entries, add_zero]
      rw [← read_slot ok, List.getD_eq_getElem?_getD, getElem?_contents, at_slot]
      rw [Multiset.mem_coe, Option.mem_toList] at mem
      rw [Option.mem_def.mp mem]
      rfl
    · omega
  · have nothing : freeSlot cells.pointers (c.firstNonzeroId - setI0) h = .ok ((), h) := by
      unfold freeSlot
      rw [if_neg (show ¬ _ < cells.pointers.size from inside)]
      rfl
    refine Simulates.step nothing (.refl h) ((addAbove_sim cells q c setI0).mono
      fun r h' r' _ _ post => ?_)
    obtain ⟨rfl, cells', k, add_eq, rfl, rfl⟩ := post
    obtain ⟨length, ⟨small, -⟩ | ⟨-, entries⟩⟩ := SymbolTable.addAbove_entries fits add_eq
    · exact absurd small inside
    · rw [← Multiset.cons_add, entries] at holds
      exact ⟨cells', 0, k, ⟨length, by rw [entries, add_zero, add_zero],
        fun below => absurd below above, fun _ => rfl, nofun⟩, rfl, rfl, holds⟩

/-- A symbol that is not zero is stored in a new block. -/
theorem fullSymbolSetAddAt_sim (fits : cells.fullSymbolTab.length = cells.size)
    (holds : h.Holds (cells.entries + m)) (mem : (p, n) ∈ m) :
    Simulates h (fullSymbolSetAddAt cells.pointers p) (fullSymbolSetAdd cells.contents n)
      fun r h' r' =>
        (fullSymbolIsZero n = true ∧ r = (cells.pointers, entryIndexNone) ∧
          r' = (cells.contents, entryIndexNone) ∧ h'.Holds (cells.entries + m)) ∨
        ∃ q c cells' lost prior k, fullSymbolClone n = .ok c ∧ h.blocks.length ≤ q ∧
          Stored cells (q, c) cells' lost prior ∧ r = (cells'.pointers, k) ∧
          r' = (cells'.contents, k) ∧ h'.Holds (cells'.entries + lost + m) := by
  have given : (p, n) ∈ cells.entries + m := Multiset.mem_add.mpr (.inr mem)
  unfold fullSymbolSetAddAt fullSymbolSetAdd
  refine Simulates.read ((holds.read p n).mpr given) ?_
  by_cases zero : fullSymbolIsZero n = true
  · rw [if_pos zero, if_pos zero]
    exact Simulates.pure (.inl ⟨zero, rfl, rfl, holds⟩)
  rw [if_neg zero, if_neg zero]
  refine (fullSymbolCloneAt_sim holds given).bind fun q h₁ c _ clone_eq cloned => ?_
  obtain ⟨fresh, holds₁⟩ := cloned
  refine Simulates.read holds₁.read_cons ?_
  dsimp only
  have pointers_start : (if cells.pointers.firstSymbolId = symbolIdNone then c.firstNonzeroId
      else cells.pointers.firstSymbolId) = cells.contents.startFor c.firstNonzeroId := rfl
  have contents_start : (if cells.contents.firstSymbolId = symbolIdNone then c.firstNonzeroId
      else cells.contents.firstSymbolId) = cells.contents.startFor c.firstNonzeroId := rfl
  rw [pointers_start, contents_start]
  by_cases below : c.firstNonzeroId < cells.contents.startFor c.firstNonzeroId
  · rw [if_pos below, if_pos below]
    refine (addBelow_sim cells q c _).mono fun r h' r' _ _ post => ?_
    obtain ⟨rfl, cells', k, add_eq, rfl, rfl⟩ := post
    obtain ⟨⟨lost, entries⟩, length⟩ := SymbolTable.addBelow_entries fits below add_eq
    rw [← Multiset.cons_add, entries] at holds₁
    refine .inr ⟨q, c, cells', lost, 0, k, clone_eq, fresh, ?_, rfl, rfl, holds₁⟩
    exact ⟨length, by rw [entries, add_zero], fun _ => rfl,
      fun above => absurd (startFor_le above) (Nat.not_le_of_lt below), nofun⟩
  · rw [if_neg below, if_neg below]
    have above : ¬ cells.contents.InsertsBelow c.firstNonzeroId := by
      rintro ⟨some, lt⟩
      refine below ?_
      unfold startFor
      rw [if_neg some]
      exact lt
    refine (addToSlot_sim fits above holds₁).mono fun r h' r' _ _ post => ?_
    obtain ⟨cells', prior, k, stored, rfl, rfl, holds'⟩ := post
    rw [← add_zero cells'.entries] at holds'
    exact .inr ⟨q, c, cells', 0, prior, k, clone_eq, fresh, stored, rfl, rfl, holds'⟩

/-- Freeing a set frees what its table points to. -/
theorem fullSymbolSetFree_ok (fits : cells.fullSymbolTab.length = cells.size)
    (holds : h.Holds (cells.entries + m)) :
    ∃ h', fullSymbolSetFree cells.pointers h = .ok ((), h') ∧ h'.Holds m := by
  have loop := @Simulates.foldlM FullSymbol Fault _ _ h (fun _ i => freeSlot cells.pointers i)
    (fun (_ : Unit) _ => .ok ())
    (fun i _ h' _ => h'.Holds (((cells.fullSymbolTab.drop i).reduceOption : Multiset _) + m))
    cells.size () () holds ?_
  · have nothing : ∀ is : List ℕ,
        is.foldlM (fun (_ : Unit) _ => (.ok () : Exec Unit)) () = .ok () := by
      intro is
      induction is with
      | nil => rfl
      | cons i is ih => exact ih
    rw [nothing] at loop
    obtain ⟨_, h', free_eq, -, holds'⟩ := loop
    rw [← fits, List.drop_length] at holds'
    refine ⟨h', free_eq, ?_⟩
    rwa [List.reduceOption_nil, Multiset.coe_nil, zero_add] at holds'
  · intro i lt _ h' _ _ holds'
    obtain ⟨old, at_i⟩ : ∃ old, cells.fullSymbolTab[i]? = some old :=
      ⟨_, List.getElem?_eq_getElem (by omega)⟩
    have split : ((cells.fullSymbolTab.drop i).reduceOption : Multiset (ℕ × FullSymbol)) =
        (old.toList : Multiset (ℕ × FullSymbol)) +
          (cells.fullSymbolTab.drop (i + 1)).reduceOption := by
      rw [List.drop_eq_getElem?_toList_append, at_i]
      cases old <;> rfl
    rw [split, add_assoc] at holds'
    obtain ⟨h'', free_eq, later, holds''⟩ := freeSlot_ok lt at_i holds'
    exact ⟨(), h'', free_eq, later, holds''⟩

end Add

/-! ### A reduced symbol -/

/-- What `full_symbol_set_add_as_pivot` does to the table with a symbol `u` that is not zero:
every stored symbol is replaced, and the normalised symbol is stored. -/
structure Pivoted (cells : OwnedTable) (u : FullSymbol) (bound : ℕ) (cells' : OwnedTable)
    (lost : Multiset (ℕ × FullSymbol)) (calls : List NotificationAt) : Prop where
  length : cells'.fullSymbolTab.length = cells'.size
  live : ∀ call ∈ calls, ∀ p, some p ∈ call.set.fullSymbolTab → (call.memory.read p).isSome
  steps : u.WellFormed → fullSymbolIsZero u = false → ∃ n mid e prior k,
    fullSymbolScale u (gf256Inv (fullSymbolGetCoef u u.firstNonzeroId)) = .ok n ∧
    Cleared cells n bound mid calls ∧ fullSymbolSetAdd mid.contents n = .ok (cells'.contents, k) ∧
    fullSymbolClone n = .ok e.2 ∧ bound ≤ e.1 ∧ Stored mid e cells' lost prior

/-- What `full_symbol_add_with_elimination` does to the table. -/
structure SubmittedAt (cells : OwnedTable) (s : FullSymbol) (bound : ℕ) (cells' : OwnedTable)
    (lost : Multiset (ℕ × FullSymbol)) (calls : List NotificationAt) : Prop where
  length : cells'.fullSymbolTab.length = cells'.size
  redundant : fullSymbolSetRemoveEachPivot cells.contents s = .ok none →
    cells' = cells ∧ lost = 0 ∧ calls = []
  pivoted : ∀ u, fullSymbolSetRemoveEachPivot cells.contents s = .ok (some u) →
    ∃ told last, calls = told ++ last ∧ Pivoted cells u bound cells' lost told ∧
      ∀ call ∈ last, ∃ j e, call.For cells' j e
  live : ∀ call ∈ calls, ∀ p, some p ∈ call.set.fullSymbolTab → (call.memory.read p).isSome

section Pivot

variable {h : Memory} {m : Multiset (ℕ × FullSymbol)} {cells cells' : OwnedTable} {p : ℕ}
  {s u : FullSymbol} {lost : Multiset (ℕ × FullSymbol)} {calls : List NotificationAt}
  {bound bound' : ℕ}

theorem Pivoted.mono (pivoted : Pivoted cells u bound cells' lost calls) (le : bound' ≤ bound) :
    Pivoted cells u bound' cells' lost calls := by
  refine ⟨pivoted.length, pivoted.live, fun wf nz => ?_⟩
  obtain ⟨n, mid, e, prior, k, scale_eq, cleared, add_eq, clone_eq, fresh, stored⟩ :=
    pivoted.steps wf nz
  exact ⟨n, mid, e, prior, k, scale_eq, cleared.mono le, add_eq, clone_eq, le.trans fresh, stored⟩

theorem SubmittedAt.mono (sub : SubmittedAt cells s bound cells' lost calls)
    (le : bound' ≤ bound) : SubmittedAt cells s bound' cells' lost calls := by
  refine ⟨sub.length, sub.redundant, fun u some => ?_, sub.live⟩
  obtain ⟨told, last, split, pivoted, at_last⟩ := sub.pivoted u some
  exact ⟨told, last, split, pivoted.mono le, at_last⟩

theorem fullSymbolSetAddAsPivotAt_sim (fits : cells.fullSymbolTab.length = cells.size)
    (holds : h.Holds (cells.entries + ((p, u) ::ₘ m))) :
    Simulates h (fullSymbolSetAddAsPivotAt cells.pointers p)
      (fullSymbolSetAddAsPivot cells.contents u) fun r h' r' => ∃ v cells' lost calls k,
        r = (cells'.pointers, calls, k) ∧
        r' = (cells'.contents, calls.map NotificationAt.view, k) ∧
        h'.Holds (cells'.entries + lost + ((p, v) ::ₘ m)) ∧
        Pivoted cells u h.blocks.length cells' lost calls := by
  unfold fullSymbolSetAddAsPivotAt fullSymbolSetAddAsPivot
  rw [Multiset.add_cons] at holds
  refine (fullSymbolAdjustMinMaxCoefAt_sim holds).bind
    fun _ h₁ adjusted later₁ adjust_eq holds₁ => ?_
  obtain ⟨v, found⟩ := adjusted
  have same : u.WellFormed → v = u := fun wf => by
    obtain ⟨found', self_eq⟩ := fullSymbolAdjustMinMaxCoef_self wf
    rw [self_eq] at adjust_eq
    cases adjust_eq
    rfl
  dsimp only at holds₁
  refine Simulates.read holds₁.read_cons ?_
  by_cases none : v.firstNonzeroId = symbolIdNone
  · rw [if_pos none]
    dsimp only
    rw [if_pos none]
    rw [← Multiset.add_cons] at holds₁
    refine Simulates.pure ⟨v, cells, 0, [], entryIndexNone, rfl, rfl, ?_, fits, nofun,
      fun wf nz => ?_⟩
    · rwa [add_zero]
    · rw [same wf] at none
      exact absurd none (wf.first_lt nz).ne
  rw [if_neg none]
  dsimp only
  rw [if_neg none]
  refine (fullSymbolScaleAt_sim _ holds₁).bind fun _ h₂ n later₂ scale_eq holds₂ => ?_
  refine Simulates.read holds₂.read_cons ?_
  rw [← Multiset.add_cons] at holds₂
  refine (addAsPivotLoopAt_sim fits holds₂).bind fun r h₃ r' later₃ _ cleared => ?_
  obtain ⟨mid, calls, rfl, rfl, holds₃, cleared⟩ := cleared
  have live : ∀ call ∈ calls, ∀ p, some p ∈ call.set.fullSymbolTab →
      (call.memory.read p).isSome := fun call mem => by
    obtain ⟨j, e, told⟩ := cleared.told call mem
    exact told.live
  have bound_le : h.blocks.length ≤ h₂.blocks.length := later₁.length.trans later₂.length
  refine (fullSymbolSetAddAt_sim cleared.length holds₃ (Multiset.mem_cons_self _ _)).bind
    fun r h₄ r' _ add_eq post => ?_
  rcases post with ⟨zero, rfl, rfl, holds₄⟩ |
    ⟨q, c, cells', lost, prior, k, clone_eq, fresh, stored, rfl, rfl, holds₄⟩
  · refine Simulates.pure ⟨n, mid, 0, calls, entryIndexNone, rfl, rfl, ?_, cleared.length, live,
      fun wf nz => ?_⟩
    · rwa [add_zero]
    · rw [same wf] at scale_eq
      obtain ⟨n', scale_eq', -, nz', -⟩ := fullSymbolScale_lead wf nz
      rw [scale_eq] at scale_eq'
      cases scale_eq'
      rw [zero] at nz'
      cases nz'
  · refine Simulates.pure ⟨n, cells', lost, calls, k, rfl, rfl, holds₄, stored.length, live,
      fun wf _ => ?_⟩
    rw [same wf] at scale_eq
    exact ⟨n, mid, (q, c), prior, k, scale_eq, cleared.mono bound_le, add_eq, clone_eq,
      bound_le.trans (later₃.length.trans fresh), stored⟩

theorem fullSymbolAddWithEliminationAt_sim (fits : cells.fullSymbolTab.length = cells.size)
    (holds : h.Holds (cells.entries + m)) (mem : (p, s) ∈ m) :
    Simulates h (fullSymbolAddWithEliminationAt cells.pointers p)
      (fullSymbolAddWithElimination cells.contents s) fun r h' r' => ∃ cells' lost calls,
        r = (cells'.pointers, calls) ∧ r' = (cells'.contents, calls.map NotificationAt.view) ∧
        h'.Holds (cells'.entries + lost + m) ∧
        SubmittedAt cells s h.blocks.length cells' lost calls := by
  have given : (p, s) ∈ cells.entries + m := Multiset.mem_add.mpr (.inr mem)
  unfold fullSymbolAddWithEliminationAt fullSymbolAddWithElimination
  refine (fullSymbolSetRemoveEachPivotAt_sim (Multiset.le_add_right _ _) holds given).bind
    fun r h₁ r' later₁ reduce_eq reduced => ?_
  rcases reduced with ⟨rfl, rfl, holds₁⟩ | ⟨q, u, rfl, rfl, holds₁⟩
  · refine Simulates.pure ⟨cells, 0, [], rfl, rfl, ?_, fits, fun _ => ⟨rfl, rfl, rfl⟩,
      fun u some => ?_, nofun⟩
    · rwa [add_zero]
    · rw [reduce_eq] at some
      cases some
  dsimp only
  rw [← Multiset.add_cons] at holds₁
  refine (fullSymbolSetAddAsPivotAt_sim fits holds₁).bind fun r h₂ r' later₂ _ post => ?_
  obtain ⟨v, cells', lost, told, k, rfl, rfl, holds₂, pivoted⟩ := post
  have submitted : ∀ last : List NotificationAt, (∀ call ∈ last, ∃ j e, call.For cells' j e) →
      SubmittedAt cells s h.blocks.length cells' lost (told ++ last) := fun last told_last => by
    refine ⟨pivoted.length, fun none => ?_, fun u' some => ?_, fun call mem => ?_⟩
    · rw [reduce_eq] at none
      cases none
    · rw [reduce_eq] at some
      cases some
      exact ⟨told, last, rfl, pivoted.mono later₁.length, told_last⟩
    · rcases List.mem_append.mp mem with early | late
      · exact pivoted.live call early
      · obtain ⟨j, e, told⟩ := told_last call late
        exact told.live
  have quiet := submitted [] nofun
  rw [List.append_nil] at quiet
  rw [Multiset.add_cons] at holds₂
  refine Simulates.free holds₂ fun h₃ _ holds₃ => ?_
  dsimp only
  by_cases none : k = entryIndexNone
  · rw [if_pos none, if_pos none]
    exact Simulates.pure ⟨cells', lost, told, rfl, rfl, holds₃, quiet⟩
  rw [if_neg none, if_neg none]
  refine (slot_sim k).bind fun r h₄ r' _ _ found => ?_
  obtain ⟨rfl, cell, at_k, rfl, rfl⟩ := found
  refine Simulates.read ((holds₃.read p s).mpr (Multiset.mem_add.mpr (.inr mem))) ?_
  by_cases single : fullSymbolHasOneId s = true
  · rw [if_pos single, if_pos single]
    exact Simulates.pure ⟨cells', lost, told, rfl, rfl, holds₃, quiet⟩
  rw [if_neg single, if_neg single]
  cases cell with
  | none => exact rfl
  | some e =>
      have in_table : e ∈ cells'.entries + lost + m :=
        Multiset.mem_add.mpr (.inl (Multiset.mem_add.mpr (.inl (mem_entries.mpr ⟨k, at_k⟩))))
      have live := (holds₃.read e.1 e.2).mpr in_table
      refine Simulates.read live ?_
      dsimp only [Option.map_some]
      by_cases decoded : fullSymbolHasOneId e.2 = true
      · rw [if_pos decoded, if_pos decoded]
        refine (Simulates.lift _).bind fun _ h₅ _ _ _ same => ?_
        obtain ⟨-, rfl⟩ := same
        have at_pointer : cells'.pointers.fullSymbolTab[k]? = some (some e.1) := by
          rw [getElem?_pointers, at_k]
          rfl
        refine Simulates.heap (Simulates.pure ⟨cells', lost,
          told ++ [⟨cells'.pointers, h₅, fullSymbolGetMinSymbolId e.2⟩], rfl, ?_, holds₃,
          submitted _ fun call mem => ?_⟩)
        · rw [List.map_append, List.map_singleton]
          unfold NotificationAt.view
          rw [view_pointers holds₃ ((Multiset.le_add_right _ _).trans (Multiset.le_add_right _ _))]
        · rw [List.mem_singleton.mp mem]
          exact ⟨k, e, at_k, at_pointer, rfl, rfl, live, live_pointers holds₃
            ((Multiset.le_add_right _ _).trans (Multiset.le_add_right _ _)), rfl, decoded⟩
      · rw [if_neg decoded, if_neg decoded]
        exact Simulates.pure ⟨cells', lost, told, rfl, rfl, holds₃, quiet⟩

end Pivot

end SwifCodec
