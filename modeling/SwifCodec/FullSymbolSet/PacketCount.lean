import SwifCodec.FullSymbolSet.Growth
import SwifCodec.FullSymbolSet.Redundant
import SwifCodec.FullSymbolSet.Iterations

/-!
The packet counter of a set.

`nmbr_packets` is only ever incremented, once in each insertion, so it counts the stored
symbols as long as every insertion adds one: the new symbol finds its slot free, and no row
is pushed out of the top of the table (`Inserted.occupied_iff`). Whether that is so is
decided by the reduction before the insertion (`submit_counted_iff`). In a set whose
identifiers wrap there is no reduction, since no pivot is found.
-/

namespace SwifCodec

open Library FullSymbol FullSymbolSet Gf256

/-! ### The stored symbols -/

namespace FullSymbolSet

/-- The number of stored symbols, the slots of the table that are not NULL. -/
def occupied (set : FullSymbolSet) : ℕ := set.fullSymbolTab.countP Option.isSome

/-- `nmbr_packets` is the number of stored symbols. -/
def Counted (set : FullSymbolSet) : Prop := set.nmbrPackets = set.occupied

instance (set : FullSymbolSet) : Decidable set.Counted := inferInstanceAs (Decidable (_ = _))

/-- The identifiers of the stored symbols. -/
def pivotIds (set : FullSymbolSet) : Finset ℕ :=
  ((Finset.range set.size).filter fun k => (set.fullSymbolTab.getD k none).isSome).image
    (set.firstSymbolId + ·)

end FullSymbolSet

/-- The slots of two tables are the same and are occupied alike. -/
structure SameSlots (set mid : FullSymbolSet) : Prop where
  size : mid.size = set.size
  first : mid.firstSymbolId = set.firstSymbolId
  packets : mid.nmbrPackets = set.nmbrPackets
  length : mid.fullSymbolTab.length = set.fullSymbolTab.length
  slot : ∀ k, mid.fullSymbolTab.getD k none = none ↔ set.fullSymbolTab.getD k none = none

section Count

variable {set mid set' : FullSymbolSet} {n : FullSymbol} {id : ℕ}

theorem mem_pivotIds (ok : set.TableOk) : id ∈ set.pivotIds ↔ (set.rowAt id).isSome := by
  unfold pivotIds
  rw [Finset.mem_image]
  constructor
  · rintro ⟨k, mem, rfl⟩
    rw [rowAt_slot]
    exact (Finset.mem_filter.mp mem).2
  · intro stored
    obtain ⟨row, at_id⟩ := Option.isSome_iff_exists.mp stored
    obtain ⟨first_le, lt⟩ := bounds_of_rowAt ok at_id
    refine ⟨id - set.firstSymbolId, Finset.mem_filter.mpr ⟨Finset.mem_range.mpr (by omega), ?_⟩,
      by omega⟩
    rw [← rowAt_slot, Nat.add_sub_cancel' first_le]
    exact stored

/-- The occupied slots of a table, counted by their indices. -/
theorem card_occupied (tab : List (Option FullSymbol)) :
    ((Finset.range tab.length).filter fun k => (tab.getD k none).isSome).card =
      tab.countP Option.isSome := by
  induction tab using List.reverseRecOn with
  | nil => rfl
  | append_singleton tab slot ih =>
      have old : ((Finset.range tab.length).filter fun k =>
          ((tab ++ [slot]).getD k none).isSome) =
          (Finset.range tab.length).filter fun k => (tab.getD k none).isSome := by
        refine Finset.filter_congr fun k mem => ?_
        rw [List.getD_eq_getElem?_getD, List.getElem?_append_left (Finset.mem_range.mp mem),
          ← List.getD_eq_getElem?_getD]
      have last : (tab ++ [slot]).getD tab.length none = slot := by simp
      rw [List.length_append, List.length_singleton, Finset.range_add_one, Finset.filter_insert,
        old, last, List.countP_append, List.countP_singleton, ← ih]
      cases slot with
      | none => rfl
      | some row =>
          rw [if_pos Option.isSome_some, Finset.card_insert_of_notMem (by simp)]
          rfl

theorem card_pivotIds (ok : set.TableOk) : set.pivotIds.card = set.occupied := by
  unfold pivotIds occupied
  rw [Finset.card_image_of_injective _ fun _ _ => Nat.add_left_cancel, ← ok.length, card_occupied]

theorem occupied_le (ok : set.TableOk) : set.occupied ≤ set.size := by
  rw [← ok.length]
  exact List.countP_le_length

/-! ### Insertion -/

/-- An insertion adds a stored symbol exactly when it finds its slot free and pushes no row
out of the table. -/
theorem Inserted.occupied_iff (ins : Inserted set n set') (ok : set.TableOk) :
    set'.occupied = set.occupied + 1 ↔
      set.rowAt n.firstNonzeroId = none ∧ set.TopFree n.firstNonzeroId := by
  have within : set'.pivotIds ⊆ insert n.firstNonzeroId set.pivotIds := by
    intro id mem
    rw [Finset.mem_insert, mem_pivotIds ok]
    by_cases here : id = n.firstNonzeroId
    · exact .inl here
    · obtain ⟨row, at_id⟩ := Option.isSome_iff_exists.mp ((mem_pivotIds ins.tableOk).mp mem)
      rw [ins.rowAt_before here at_id]
      exact .inr rfl
  rw [← card_pivotIds ins.tableOk, ← card_pivotIds ok]
  constructor
  · intro added
    have free : n.firstNonzeroId ∉ set.pivotIds := by
      intro taken
      rw [Finset.insert_eq_of_mem taken] at within
      have le := Finset.card_le_card within
      omega
    refine ⟨?_, ?_⟩
    · rw [mem_pivotIds ok, Option.isSome_iff_ne_none, not_not] at free
      exact free
    · by_contra taken
      obtain ⟨q, row, ne, at_q, gone⟩ := ins.exists_lost taken
      have lost : q ∉ set'.pivotIds := by
        rw [mem_pivotIds ins.tableOk, gone]
        exact Bool.false_ne_true
      have old : q ∈ insert n.firstNonzeroId set.pivotIds := by
        rw [Finset.mem_insert, mem_pivotIds ok, at_q]
        exact .inr rfl
      have lt := Finset.card_lt_card (Finset.ssubset_iff_of_subset within |>.mpr ⟨q, old, lost⟩)
      rw [Finset.card_insert_of_notMem free] at lt
      omega
  · rintro ⟨free, top⟩
    have same : set'.pivotIds = insert n.firstNonzeroId set.pivotIds := by
      refine Finset.Subset.antisymm within fun id mem => ?_
      rw [mem_pivotIds ins.tableOk]
      by_cases here : id = n.firstNonzeroId
      · rw [here, ins.stored]
        rfl
      · rw [ins.rowAt_eq ok top here, ← mem_pivotIds ok]
        exact (Finset.mem_insert.mp mem).resolve_left here
    rw [same, Finset.card_insert_of_notMem]
    rw [mem_pivotIds ok, free]
    exact Bool.false_ne_true

/-- Every branch of an insertion increments `nmbr_packets`. -/
theorem fullSymbolSetAdd_nmbrPackets (nz : fullSymbolIsZero n = false) {k : ℕ}
    (add_eq : fullSymbolSetAdd set n = .ok (set', k)) :
    set'.nmbrPackets = add32 set.nmbrPackets 1 := by
  unfold fullSymbolSetAdd at add_eq
  rw [nz, if_neg Bool.false_ne_true] at add_eq
  obtain ⟨cloned, -, add_eq⟩ := bind_eq_ok.mp add_eq
  generalize (if set.firstSymbolId = symbolIdNone then cloned.firstNonzeroId
    else set.firstSymbolId) = setI0 at add_eq
  dsimp only at add_eq
  split at add_eq
  · obtain ⟨⟨size, cells⟩, -, add_eq⟩ := bind_eq_ok.mp add_eq
    obtain ⟨filled, -, add_eq⟩ := bind_eq_ok.mp add_eq
    obtain ⟨written, -, add_eq⟩ := bind_eq_ok.mp add_eq
    obtain ⟨tab, -, result⟩ := bind_eq_ok.mp add_eq
    cases result
    rfl
  · obtain ⟨⟨size, tab⟩, -, add_eq⟩ := bind_eq_ok.mp add_eq
    obtain ⟨written, -, result⟩ := bind_eq_ok.mp add_eq
    cases result
    rfl

/-- The counter stays right exactly when the insertion adds a stored symbol. It does not
wrap, since the table has at most 2^32 - 1 slots. -/
theorem Inserted.counted_iff (ins : Inserted set n set') (ok : set.TableOk)
    (packets : set'.nmbrPackets = add32 set.nmbrPackets 1) (counted : set.Counted) :
    set'.Counted ↔ set.rowAt n.firstNonzeroId = none ∧ set.TopFree n.firstNonzeroId := by
  have size_lt := ok.size_lt
  have size_lt' := ins.tableOk.size_lt
  have le := occupied_le ok
  have le' := occupied_le ins.tableOk
  have some : 0 < set'.occupied := by
    rw [← card_pivotIds ins.tableOk, Finset.card_pos]
    refine ⟨n.firstNonzeroId, ?_⟩
    rw [mem_pivotIds ins.tableOk, ins.stored]
    rfl
  rw [← ins.occupied_iff ok]
  unfold Counted at counted ⊢
  rw [packets, counted]
  unfold add32
  omega

/-- An insertion that returns has inserted the symbol. -/
theorem fullSymbolSetAdd_of_ok (ok : set.TableOk) (wf : n.WellFormed)
    (nz : fullSymbolIsZero n = false) {k : ℕ} (add_eq : fullSymbolSetAdd set n = .ok (set', k)) :
    Inserted set n set' := by
  have shifts : set.Shifts n.firstNonzeroId := by
    by_contra far
    rw [fullSymbolSetAdd_exceeds ok.size_ge ok.first_le wf nz far] at add_eq
    cases add_eq
  obtain ⟨set'', add_eq', ins⟩ := fullSymbolSetAdd_inserted ok wf nz shifts
  rw [add_eq'] at add_eq
  cases add_eq
  exact ins

/-! ### Clearing -/

theorem SameSlots.refl (set : FullSymbolSet) : SameSlots set set :=
  ⟨rfl, rfl, rfl, rfl, fun _ => Iff.rfl⟩

theorem SameSlots.trans (same : SameSlots set mid) (same' : SameSlots mid set') :
    SameSlots set set' where
  size := same'.size.trans same.size
  first := same'.first.trans same.first
  packets := same'.packets.trans same.packets
  length := same'.length.trans same.length
  slot k := (same'.slot k).trans (same.slot k)

theorem SameSlots.tableOk (same : SameSlots set mid) (ok : set.TableOk) : mid.TableOk where
  length := by rw [same.length, same.size, ok.length]
  size_ge := by rw [same.size]; exact ok.size_ge
  size_lt := by rw [same.size]; exact ok.size_lt
  first_le := by rw [same.first]; exact ok.first_le
  empty none k := (same.slot k).mpr (ok.empty (same.first ▸ none) k)

theorem SameSlots.rowAt_none_iff (same : SameSlots set mid) :
    mid.rowAt id = none ↔ set.rowAt id = none := by
  unfold rowAt
  rw [same.first]
  split
  · exact same.slot _
  · exact Iff.rfl

theorem SameSlots.topFree_iff (same : SameSlots set mid) : mid.TopFree id ↔ set.TopFree id := by
  unfold TopFree InsertsBelow
  rw [same.first, same.size]
  simp only [same.slot]

theorem SameSlots.counted (same : SameSlots set mid) (ok : set.TableOk) (counted : set.Counted) :
    mid.Counted := by
  have ids : mid.pivotIds = set.pivotIds := by
    ext id
    rw [mem_pivotIds (same.tableOk ok), mem_pivotIds ok, Option.isSome_iff_ne_none,
      Option.isSome_iff_ne_none, ne_eq, ne_eq, same.rowAt_none_iff]
  unfold Counted at counted ⊢
  rw [same.packets, counted, ← card_pivotIds (same.tableOk ok), ids, card_pivotIds ok]

/-- A round of the loop that clears the new pivot replaces a row, or does nothing. -/
theorem addAsPivotStep_sameSlots {notified notified' : List Notification} {i : ℕ}
    (ok : addAsPivotStep n (set, notified) i = .ok (set', notified')) : SameSlots set set' := by
  obtain ⟨slot, slot_eq, ok⟩ := bind_eq_ok.mp ok
  cases slot with
  | none =>
      cases ok
      exact .refl set
  | some row =>
      obtain ⟨cloned, -, ok⟩ := bind_eq_ok.mp ok
      obtain ⟨scaled, -, ok⟩ := bind_eq_ok.mp ok
      obtain ⟨sum, -, ok⟩ := bind_eq_ok.mp ok
      obtain ⟨tab, store_eq, ok⟩ := bind_eq_ok.mp ok
      have store_eq := access_eq_ok.mp store_eq
      have stored : SameSlots set { set with fullSymbolTab := tab } := by
        refine ⟨rfl, rfl, rfl, Block.length_of_store store_eq, fun k => ?_⟩
        rw [getD_store store_eq]
        split
        case isTrue here =>
          rw [here, List.getD_eq_getElem?_getD, access_eq_ok.mp slot_eq]
          exact iff_of_false nofun nofun
        case isFalse => exact Iff.rfl
      split at ok
      · obtain ⟨-, -, result⟩ := bind_eq_ok.mp ok
        cases result
        exact stored
      · cases ok
        exact stored

/-- `full_symbol_set_add_as_pivot` inserts a normalised symbol into a table with the same
slots. -/
theorem fullSymbolSetAddAsPivot_of_ok {u : FullSymbol} (wf : u.WellFormed)
    (nz : fullSymbolIsZero u = false) {calls : List Notification} {idx : ℕ}
    (ok : fullSymbolSetAddAsPivot set u = .ok (set', calls, idx)) :
    ∃ n mid, n.WellFormed ∧ fullSymbolIsZero n = false ∧ n.firstNonzeroId = u.firstNonzeroId ∧
      SameSlots set mid ∧ fullSymbolSetAdd mid n = .ok (set', idx) := by
  obtain ⟨n, scale_eq, wfn, nzn, first, -⟩ := fullSymbolScale_lead wf nz
  obtain ⟨found, adjust_eq⟩ := fullSymbolAdjustMinMaxCoef_self wf
  unfold fullSymbolSetAddAsPivot at ok
  rw [adjust_eq, ok_bind] at ok
  dsimp only at ok
  rw [if_neg (wf.first_lt nz).ne, scale_eq, ok_bind] at ok
  obtain ⟨⟨mid, notified⟩, loop_eq, ok⟩ := bind_eq_ok.mp ok
  obtain ⟨⟨last, slot⟩, add_eq, result⟩ := bind_eq_ok.mp ok
  cases result
  refine ⟨n, mid, wfn, nzn, first, ?_, add_eq⟩
  exact foldlM_keeps (I := fun acc => SameSlots set acc.1)
    (fun acc i acc' same step_eq => same.trans (addAsPivotStep_sameSlots step_eq)) loop_eq
    (.refl set)

/-- Storing a reduced symbol keeps the counter right exactly when its slot is free and no row
is pushed out. -/
theorem fullSymbolSetAddAsPivot_counted {u : FullSymbol} (ok : set.TableOk) (wf : u.WellFormed)
    (nz : fullSymbolIsZero u = false) {calls : List Notification} {idx : ℕ}
    (pivot_eq : fullSymbolSetAddAsPivot set u = .ok (set', calls, idx)) :
    set'.TableOk ∧ (set.Counted →
      (set'.Counted ↔ set.rowAt u.firstNonzeroId = none ∧ set.TopFree u.firstNonzeroId)) := by
  obtain ⟨n, mid, wfn, nzn, first, same, add_eq⟩ := fullSymbolSetAddAsPivot_of_ok wf nz pivot_eq
  have ins := fullSymbolSetAdd_of_ok (same.tableOk ok) wfn nzn add_eq
  refine ⟨ins.tableOk, fun counted => ?_⟩
  rw [ins.counted_iff (same.tableOk ok) (fullSymbolSetAdd_nmbrPackets nzn add_eq)
    (same.counted ok counted), same.rowAt_none_iff, same.topFree_iff, first]

end Count

/-! ### The reduction before the insertion -/

namespace FullSymbolSet

/-- Unless its identifiers wrap, the set is in reduced row echelon form. -/
def Regular (set : FullSymbolSet) : Prop := set.NoWrap → set.Invariant

/-- A submission of `s` adds a stored symbol or is found redundant. -/
structure Keeps (set : FullSymbolSet) (s : FullSymbol) : Prop where
  regular : set.Regular
  topFree : set.TopFree s.firstNonzeroId
  /-- A redundant symbol is found redundant. -/
  found : set.NoWrap → s.coefs ∈ set.rowSpan → set.EndsSingle s
  /-- Without a reduction the symbol goes to the slot of its own first identifier. -/
  free : ¬ set.NoWrap → fullSymbolIsZero s = false → set.rowAt s.firstNonzeroId = none

end FullSymbolSet

section Wrap

variable {set : FullSymbolSet} {s : FullSymbol}

/-- Where `first_symbol_id + size` wraps, no pivot is found. -/
theorem fullSymbolSetGetPivot_of_wrap (ok : set.TableOk) (wrap : ¬ set.NoWrap) (i : ℕ) :
    fullSymbolSetGetPivot set i = .ok none := by
  have size32 : symbolIdNone = 4294967295 := rfl
  have size_lt := ok.size_lt
  have first_le := ok.first_le
  unfold NoWrap at wrap
  push Not at wrap
  have wraps : add32 set.size set.firstSymbolId = set.size + set.firstSymbolId - 4294967296 := by
    unfold add32
    omega
  unfold fullSymbolSetGetPivot
  rw [if_neg (by omega)]

/-- Without pivots the loop runs to the end of the symbol. -/
theorem removeEachPivotLoop_free (free : ∀ i, fullSymbolSetGetPivot set i = .ok none)
    (wf : s.WellFormed) (nz : fullSymbolIsZero s = false) :
    ∀ {rounds i : ℕ}, 4294967296 ≤ rounds + i → i ≤ symbolIdNone →
      removeEachPivotLoop set rounds i s false = .ok (some s) := by
  have size : symbolIdNone = 4294967295 := rfl
  have last_lt := wf.last_lt nz
  intro rounds
  induction rounds with
  | zero =>
      intro i enough le
      omega
  | succ rounds ih =>
      intro i enough le
      by_cases done : s.lastNonzeroId < i
      · exact removeEachPivotLoop_done done
      have round_eq : removeEachPivotRound set (s, false) i = .ok (s, false) := by
        unfold removeEachPivotRound
        dsimp only
        split
        · rfl
        · rw [free, ok_bind, pure_eq_ok]
      rw [removeEachPivotLoop_succ (Nat.le_of_not_lt done), round_eq, ok_bind,
        add32_of_lt (by omega)]
      exact ih (by omega) (by omega)

/-- A set that wraps reduces nothing. -/
theorem fullSymbolSetRemoveEachPivot_of_wrap (ok : set.TableOk) (wrap : ¬ set.NoWrap)
    (wf : s.WellFormed) (nz : fullSymbolIsZero s = false) :
    fullSymbolSetRemoveEachPivot set s = .ok (some s) := by
  have size : symbolIdNone = 4294967295 := rfl
  have first_lt := wf.first_lt nz
  have ordered := (wf.bounded nz).2.ordered
  have free := fullSymbolSetGetPivot_of_wrap ok wrap
  -- The first coefficient is not zero, and clears the flag.
  have round_eq : removeEachPivotRound set (s, true) s.firstNonzeroId = .ok (s, false) := by
    have lead_ne := wf.coefs_first_ne nz
    rw [← wf.getCoef_eq first_lt] at lead_ne
    unfold removeEachPivotRound
    dsimp only
    rw [if_neg lead_ne, free, ok_bind, pure_eq_ok]
  rw [fullSymbolSetRemoveEachPivot_of_nonzero wf nz, show 4294967296 = 4294967295 + 1 from rfl,
    removeEachPivotLoop_succ ordered, round_eq, ok_bind, add32_of_lt (by omega)]
  exact removeEachPivotLoop_free free wf nz (by omega) (by omega)

end Wrap

section Submission

variable {set set' : FullSymbolSet} {s : Submission} {u : FullSymbol} {os : List Notification}

/-- The reduced symbol leads at a free slot exactly when the submission is not one that
should have been found redundant. -/
theorem slot_free_iff (inv : set.Invariant) (wrap : set.NoWrap)
    (reduce_eq : fullSymbolSetRemoveEachPivot set s = .ok (some u)) :
    set.rowAt u.firstNonzeroId = none ↔ (s.1.coefs ∈ set.rowSpan → set.EndsSingle s) := by
  have red := ReducedBy.of_ok inv wrap s.2 reduce_eq
  constructor
  · intro free mem
    obtain ⟨n, -, piv, first, coefs, -⟩ := red.normalise inv
    obtain ⟨row, at_lead⟩ := red.occupied inv mem piv coefs
    rw [first, free] at at_lead
    cases at_lead
  · intro single
    obtain ⟨result, eq, -, cleared⟩ := (reduces_iff inv wrap s.2).mpr single
    rw [reduce_eq] at eq
    cases eq
    obtain ⟨nz, pivots, -⟩ := cleared u rfl
    cases at_lead : set.rowAt u.firstNonzeroId with
    | none => rfl
    | some row =>
        have zero := pivots _ row at_lead
        rw [red.wellFormed.getCoef_eq (red.wellFormed.first_lt nz)] at zero
        exact absurd zero (red.wellFormed.coefs_first_ne nz)

/-- In a set in echelon form the counter stays right exactly when the submission is found
redundant if it is, and pushes no row out. -/
theorem submit_counted_of_invariant (inv : set.Invariant) (wrap : set.NoWrap)
    (counted : set.Counted) (ok : submit set s = .ok (set', os)) :
    set'.Counted ↔ set.TopFree s.1.firstNonzeroId ∧
      (s.1.coefs ∈ set.rowSpan → set.EndsSingle s) := by
  rcases fullSymbolAddWithElimination_of_ok ok with ⟨rfl, reduce_eq⟩ | ⟨u, calls, idx, reduce_eq,
    pivot_eq⟩
  · have mem : s.1.coefs ∈ set'.rowSpan := by
      rcases fullSymbolSetRemoveEachPivot_spec inv wrap s.2 with ⟨-, mem⟩ | ⟨u, eq, -⟩
      · exact mem
      · rw [reduce_eq] at eq
        cases eq
    refine iff_of_true counted ⟨fun below => absurd below (above_of_mem_rowSpan inv mem), ?_⟩
    exact (reduces_iff inv wrap s.2).mp ⟨none, reduce_eq, iff_of_true rfl mem, nofun⟩
  · have red := ReducedBy.of_ok inv wrap s.2 reduce_eq
    have nz : fullSymbolIsZero s.1 = false := by
      by_contra zero
      rw [Bool.not_eq_false] at zero
      rw [fullSymbolSetRemoveEachPivot_of_zero s.2 zero] at reduce_eq
      cases reduce_eq
    rw [(fullSymbolSetAddAsPivot_counted inv.toTableOk red.wellFormed red.nonzero pivot_eq).2
      counted, slot_free_iff inv wrap reduce_eq,
      topFree_iff_of_below (red.first_below inv s.2 nz), and_comm]

/-- In a set that wraps the slot of the submission itself has to be free. -/
theorem submit_counted_of_wrap (table : set.TableOk) (wrap : ¬ set.NoWrap)
    (counted : set.Counted) (ok : submit set s = .ok (set', os)) :
    set'.TableOk ∧ (set'.Counted ↔ set.TopFree s.1.firstNonzeroId ∧
      (fullSymbolIsZero s.1 = false → set.rowAt s.1.firstNonzeroId = none)) := by
  cases zero : fullSymbolIsZero s.1 with
  | true =>
      rcases fullSymbolAddWithElimination_of_ok ok with ⟨rfl, -⟩ | ⟨u, calls, idx, reduce_eq, -⟩
      · have first := table.first_le
        have none := (s.2.bounds_of_isZero zero).1
        exact ⟨table, iff_of_true counted ⟨fun below => absurd below.2 (by omega), nofun⟩⟩
      · rw [fullSymbolSetRemoveEachPivot_of_zero s.2 zero] at reduce_eq
        cases reduce_eq
  | false =>
      have same := fullSymbolSetRemoveEachPivot_of_wrap table wrap s.2 zero
      rcases fullSymbolAddWithElimination_of_ok ok with ⟨-, reduce_eq⟩ | ⟨u, calls, idx, reduce_eq,
        pivot_eq⟩
      · rw [same] at reduce_eq
        cases reduce_eq
      · rw [same] at reduce_eq
        cases reduce_eq
        obtain ⟨table', count⟩ := fullSymbolSetAddAsPivot_counted table s.2 zero pivot_eq
        refine ⟨table', (count counted).trans (and_comm.trans ?_)⟩
        exact and_congr_right fun _ => ⟨fun free _ => free, fun free => free rfl⟩

/-- A submission keeps the counter right exactly when it adds a stored symbol or is found
redundant. -/
theorem submit_counted_iff (table : set.TableOk) (regular : set.Regular) (counted : set.Counted)
    (ok : submit set s = .ok (set', os)) :
    set'.TableOk ∧ (set'.Counted ↔ set.Keeps s) := by
  by_cases wrap : set.NoWrap
  · have inv := regular wrap
    refine ⟨(submit_invariant inv wrap ok).toTableOk, ?_⟩
    rw [submit_counted_of_invariant inv wrap counted ok]
    exact ⟨fun ⟨top, found⟩ => ⟨regular, top, fun _ => found, absurd wrap⟩,
      fun keeps => ⟨keeps.topFree, keeps.found wrap⟩⟩
  · obtain ⟨table', count⟩ := submit_counted_of_wrap table wrap counted ok
    refine ⟨table', count.trans ?_⟩
    exact ⟨fun ⟨top, free⟩ => ⟨regular, top, fun h => absurd h wrap, fun _ => free⟩,
      fun keeps => ⟨keeps.topFree, keeps.free wrap⟩⟩

end Submission

/-! ### Runs -/

section Run

variable {cs : List Submission} {set : FullSymbolSet} {os : List Notification}

theorem fullSymbolSetAlloc_counted : fullSymbolSetAlloc.Counted := by decide

/-- Submissions that keep the counter right, from a fresh set on. -/
theorem counted_of_keeps
    (run : Steps submit (fun set s _ => set.Keeps s) fullSymbolSetAlloc cs set os) :
    set.TableOk ∧ set.Counted := by
  refine Steps.invariant (I := fun set => set.TableOk ∧ set.Counted) ?_ run
    ⟨fullSymbolSetAlloc_invariant.toTableOk, fullSymbolSetAlloc_counted⟩
  intro set s set' os ⟨table, counted⟩ ok keeps
  obtain ⟨table', count⟩ := submit_counted_iff table keeps.regular counted ok
  exact ⟨table', count.mpr keeps⟩

/-- A run that does not wrap finds every set in echelon form. -/
theorem keeps_of_setRun {meets : FullSymbolSet → Submission → Prop}
    (run : SetRun meets cs set os)
    (topFree : ∀ {set s}, meets set s → set.TopFree s.1.firstNonzeroId)
    (found : ∀ {set s}, meets set s → s.1.coefs ∈ set.rowSpan → set.EndsSingle s) :
    Steps submit (fun set s _ => set.Keeps s) fullSymbolSetAlloc cs set os := by
  induction run with
  | nil => exact .nil
  | snoc before ok cond ih =>
      obtain ⟨inv, wrap⟩ := invariant_of_run before
      exact ih.snoc ok ⟨fun _ => inv, topFree cond.2, fun _ => found cond.2, absurd wrap⟩

/-- A symbol ends at a single source symbol where all rows are single source symbols. -/
theorem endsSingle_of_singles {s : FullSymbol}
    (singles : ∀ row, some row ∈ set.fullSymbolTab → fullSymbolHasOneId row = true) :
    set.EndsSingle s := by
  intro p row at_p _ _
  unfold rowAt at at_p
  split at at_p
  · rw [List.getD_eq_getElem?_getD] at at_p
    cases entry : set.fullSymbolTab[p - set.firstSymbolId]? with
    | none =>
        rw [entry] at at_p
        cases at_p
    | some slot =>
        rw [entry, Option.getD_some] at at_p
        exact singles row (at_p ▸ List.mem_of_getElem? entry)
  · cases at_p

end Run

/-- In every run whose submissions each add a stored symbol or are found redundant, the
counter is the number of stored symbols. As long as the calls find their sets in echelon form
or wrapping, no other run has it right in every set it reaches. -/
theorem counted_of_run (cs : List Submission) (set : FullSymbolSet) (os : List Notification) :
    (Steps submit (fun set s _ => set.Keeps s) fullSymbolSetAlloc cs set os → set.Counted) ∧
    (Steps submit (fun set _ _ => set.Regular) fullSymbolSetAlloc cs set os →
      ((∀ cs₁ cs₂ set₁ os₁, cs = cs₁ ++ cs₂ →
          Steps submit (fun _ _ _ => True) fullSymbolSetAlloc cs₁ set₁ os₁ → set₁.Counted) ↔
        Steps submit (fun set s _ => set.Keeps s) fullSymbolSetAlloc cs set os)) := by
  refine ⟨fun run => (counted_of_keeps run).2, fun run => ⟨fun counted => ?_, ?_⟩⟩
  · induction run with
    | nil => exact .nil
    | @snoc set set' cs s os os' before ok regular ih =>
        have keeps := ih fun cs₁ cs₂ set₁ os₁ split =>
          counted cs₁ (cs₂ ++ [s]) set₁ os₁ (by rw [split, List.append_assoc])
        obtain ⟨table, now⟩ := counted_of_keeps keeps
        refine keeps.snoc ok ((submit_counted_iff table regular now ok).2.mp ?_)
        refine counted (cs ++ [s]) [] set' (os ++ os') (List.append_nil _).symm ?_
        exact (before.mono fun _ => trivial).snoc ok trivial
  · rintro keeps cs₁ cs₂ set₁ os₁ rfl run₁
    obtain ⟨set₁', o₁, o₂, keeps₁, -, -⟩ := keeps.split
    rw [(run₁.deterministic keeps₁).1]
    exact (counted_of_keeps keeps₁).2

theorem counted_below_set :
    ∃ set os, Steps submit (fun set s _ => set.Keeps s) fullSymbolSetAlloc
        [sourceSubmission 4 (bytes [7]), sourceSubmission 2 (bytes [9]),
          sourceSubmission 4 (bytes [7])] set os ∧
      set.Counted ∧ set.nmbrPackets = 2 := by
  obtain ⟨set, os, steps, two⟩ := exists_steps_of_map
    (show (checkedRun submit (fun set s set' => set'.NoWrap ∧
        (set.TopFree s.1.firstNonzeroId ∧
          ∀ slot ∈ set.fullSymbolTab, slot.all fullSymbolHasOneId = true)) fullSymbolSetAlloc
      [sourceSubmission 4 (bytes [7]), sourceSubmission 2 (bytes [9]),
        sourceSubmission 4 (bytes [7])]).map (fun result => result.1.nmbrPackets) = some 2
      by decide +kernel)
  have keeps := keeps_of_setRun steps (fun cond => cond.1) fun cond _ =>
    endsSingle_of_singles fun row mem => cond.2 (some row) mem
  exact ⟨set, os, keeps, (counted_of_run _ set os).1 keeps, two⟩

/-- A sum of two source symbols that is submitted twice is stored over itself, and counted
twice. -/
theorem counted_same_pair :
    ¬ ∀ cs set os, Steps submit (fun _ _ _ => True) fullSymbolSetAlloc cs set os →
        set.Counted := by
  intro counted
  obtain ⟨set, os, steps, twice⟩ := exists_steps_of_map
    (show (checkedRun submit (fun _ _ _ => True) fullSymbolSetAlloc
      [pairSubmission 4 1 (bytes [7]), pairSubmission 4 1 (bytes [7])]).map
        (fun result => (result.1.nmbrPackets, result.1.occupied)) = some (2, 1)
      by decide +kernel)
  obtain ⟨packets, stored⟩ := Prod.mk.inj twice
  have same : set.nmbrPackets = set.occupied := counted _ set os steps
  dsimp only at packets stored
  omega

end SwifCodec
