import SwifCodec.FullSymbolSet.Pivot

/-!
One submission, `full_symbol_add_with_elimination`.

A submission is redundant, or runs out of the table, or stores a new pivot.
`Eliminated` says what the last case does to the rows and which callbacks it
fires; on coefficients it is the `pivotUpdate` of the echelon library, so the
invariant of the set is kept.
-/

namespace SwifCodec

open Library FullSymbol FullSymbolSet

/-- A callback finds the single source symbol it reports in the set of that moment. -/
structure Decoded (set : FullSymbolSet) (s : FullSymbol) (set' : FullSymbolSet)
    (e : Notification) : Prop where
  tableOk : e.set.TableOk
  noWrap : set'.NoWrap → e.set.NoWrap
  row : ∃ u, e.set.rowAt e.decodedId = some u ∧ u.coefs = Finsupp.single e.decodedId 1 ∧
    ∀ {m : ℕ} {src : ℕ → Vector Gf256 m}, set.AllSound src → Sound src s → Sound src u
  spanned : Finsupp.single e.decodedId 1 ∈ set.rowSpan ⊔ Submodule.span Gf256 {s.coefs}

/-- Submitting `s` stored the new pivot `n`. -/
structure Eliminated (set : FullSymbolSet) (s n : FullSymbol) (set' : FullSymbolSet)
    (notified : List Notification) : Prop where
  pivotal : Pivotal set n
  source : ∃ c : Gf256, c ≠ 0 ∧ s.coefs - c • n.coefs ∈ set.rowSpan
  nonzero : fullSymbolIsZero s = false
  first_below : s.firstNonzeroId < set.firstSymbolId ∨ n.firstNonzeroId < set.firstSymbolId →
    n.firstNonzeroId = s.firstNonzeroId
  fits : set.Fits s.firstNonzeroId
  sound : ∀ {m : ℕ} {src : ℕ → Vector Gf256 m}, set.AllSound src → Sound src s → Sound src n
  tableOk : set'.TableOk
  stored : set'.rowAt n.firstNonzeroId = some n
  rows : ∀ q row', q ≠ n.firstNonzeroId → set'.rowAt q = some row' →
    ∃ row, set.rowAt q = some row ∧ ClearedRow n row row'
  kept : set.TopFree n.firstNonzeroId → ∀ q row, q ≠ n.firstNonzeroId → set.rowAt q = some row →
    ∃ row', set'.rowAt q = some row' ∧ ClearedRow n row row'
  lost : ¬ set.TopFree n.firstNonzeroId →
    ∃ q row, q ≠ n.firstNonzeroId ∧ set.rowAt q = some row ∧ set'.rowAt q = none
  decoded : ∀ e ∈ notified, Decoded set s set' e
  count : set.TopFree n.firstNonzeroId → ∀ id, (notified.map Notification.decodedId).count id =
    if id = n.firstNonzeroId then (if !fullSymbolHasOneId s && fullSymbolHasOneId n then 1 else 0)
    else if becomesSingle (set.rowAt id) (set'.rowAt id) then 1 else 0

/-- The set after a submission is the old one, or the one the new pivot was stored in. -/
theorem fullSymbolAddWithElimination_of_ok {set set' : FullSymbolSet} {s : FullSymbol}
    {notified : List Notification}
    (ok : fullSymbolAddWithElimination set s = .ok (set', notified)) :
    (set' = set ∧ fullSymbolSetRemoveEachPivot set s = .ok none) ∨
    ∃ u calls idx, fullSymbolSetRemoveEachPivot set s = .ok (some u) ∧
      fullSymbolSetAddAsPivot set u = .ok (set', calls, idx) := by
  obtain ⟨reduced, reduce_eq, ok⟩ := bind_eq_ok.mp ok
  cases reduced with
  | none =>
      cases ok
      exact .inl ⟨rfl, reduce_eq⟩
  | some u =>
      obtain ⟨⟨last, calls, idx⟩, pivot_eq, ok⟩ := bind_eq_ok.mp ok
      -- Whatever is reported at the end, the set is the one of the pivot.
      have same : set' = last := by
        dsimp only at ok
        split at ok
        · cases ok
          rfl
        obtain ⟨slot, -, ok⟩ := bind_eq_ok.mp ok
        split at ok
        · cases ok
          rfl
        cases slot with
        | none => cases ok
        | some stored =>
            dsimp only at ok
            split at ok
            · obtain ⟨-, -, result⟩ := bind_eq_ok.mp ok
              cases result
              rfl
            · cases ok
              rfl
      subst same
      exact .inr ⟨u, calls, idx, reduce_eq, pivot_eq⟩

section AddAsPivot

variable {set mid : FullSymbolSet} {n : FullSymbol} {id : ℕ}

theorem Clearing.fits_iff (cl : Clearing set n set.size mid) (id : ℕ) :
    mid.Fits id ↔ set.Fits id := by
  unfold Fits InsertsBelow
  rw [cl.first, cl.size]

/-- Clearing rows neither fills nor empties a slot. -/
theorem Clearing.slot_none_iff (cl : Clearing set n set.size mid) (ok : set.TableOk) (k : ℕ) :
    mid.fullSymbolTab.getD k none = none ↔ set.fullSymbolTab.getD k none = none := by
  have rel := cl.rel ok (set.firstSymbolId + k)
  rw [rowAt_slot, ← cl.first, rowAt_slot] at rel
  generalize set.fullSymbolTab.getD k none = slot at rel ⊢
  generalize mid.fullSymbolTab.getD k none = slot' at rel ⊢
  cases rel <;> simp

theorem Clearing.topFree_iff (cl : Clearing set n set.size mid) (ok : set.TableOk) :
    mid.TopFree id ↔ set.TopFree id := by
  unfold TopFree InsertsBelow
  rw [cl.first, cl.size]
  simp only [cl.slot_none_iff ok]

/-- `full_symbol_set_add_as_pivot` of a reduced symbol: it is normalised, cleared in every
row, and inserted. -/
theorem fullSymbolSetAddAsPivot_spec (inv : set.Invariant) (wrap : set.NoWrap) {s u : FullSymbol}
    (red : ReducedBy set s u) :
    ∃ n, fullSymbolScale u (gf256Inv (fullSymbolGetCoef u u.firstNonzeroId)) = .ok n ∧
      Pivotal set n ∧ n.firstNonzeroId = u.firstNonzeroId ∧
      n.coefs = (u.coefs u.firstNonzeroId)⁻¹ • u.coefs ∧
      (∀ {m : ℕ} {src : ℕ → Vector Gf256 m}, Sound src u → Sound src n) ∧
      ((¬ set.Fits n.firstNonzeroId ∧
          fullSymbolSetAddAsPivot set u = .error (.outOfBounds .pivotTab)) ∨
        ∃ mid set' notified,
          fullSymbolSetAddAsPivot set u =
            .ok (set', notified, n.firstNonzeroId - set'.firstSymbolId) ∧
          set.Fits n.firstNonzeroId ∧
          (List.range set.size).foldlM (addAsPivotStep n) (set, []) = .ok (mid, notified) ∧
          Clearing set n set.size mid ∧ Announced set n set.size mid notified ∧
          fullSymbolSetAdd mid n = .ok (set', n.firstNonzeroId - set'.firstSymbolId) ∧
          Inserted mid n set') := by
  have first_lt := red.wellFormed.first_lt red.nonzero
  obtain ⟨n, scale_eq, piv, first, coefs, sound⟩ := red.normalise inv
  obtain ⟨found, adjust_eq⟩ := fullSymbolAdjustMinMaxCoef_self red.wellFormed
  obtain ⟨mid, notified, loop_eq, cl, an⟩ := addAsPivotLoop_spec inv wrap piv set.size le_rfl
  refine ⟨n, scale_eq, piv, first, coefs, sound, ?_⟩
  unfold fullSymbolSetAddAsPivot
  rw [adjust_eq, ok_bind]
  dsimp only
  rw [if_neg (by omega), scale_eq, ok_bind, loop_eq, ok_bind]
  dsimp only
  by_cases fits : set.Fits n.firstNonzeroId
  · obtain ⟨set', add_eq, ins⟩ := fullSymbolSetAdd_spec (cl.tableOk inv.toTableOk) (cl.noWrap wrap)
      piv.wellFormed piv.nonzero ((cl.fits_iff _).mpr fits)
    rw [add_eq, ok_bind]
    exact .inr ⟨mid, set', notified, rfl, fits, rfl, cl, an, add_eq, ins⟩
  · rw [fullSymbolSetAdd_outOfBounds (cl.tableOk inv.toTableOk) piv.wellFormed piv.nonzero
      fun h => fits ((cl.fits_iff _).mp h), error_bind]
    exact .inl ⟨fits, rfl⟩

end AddAsPivot

section Submission

variable {set mid set' : FullSymbolSet} (inv : set.Invariant) (wrap : set.NoWrap)
  {s u n : FullSymbol} {notified : List Notification}

/-- The coefficients of the new pivot come from the rows and the submission. -/
theorem pivot_mem_span (source : ∃ c : Gf256, c ≠ 0 ∧ s.coefs - c • n.coefs ∈ set.rowSpan) :
    n.coefs ∈ set.rowSpan ⊔ Submodule.span Gf256 {s.coefs} := by
  obtain ⟨c, c_ne, diff⟩ := source
  have submitted : s.coefs ∈ set.rowSpan ⊔ Submodule.span Gf256 {s.coefs} :=
    Submodule.mem_sup_right (Submodule.mem_span_singleton_self _)
  have mem := Submodule.sub_mem _ submitted (Submodule.mem_sup_left diff)
  rw [sub_sub_cancel] at mem
  have := Submodule.smul_mem _ c⁻¹ mem
  rwa [smul_smul, inv_mul_cancel₀ c_ne, one_smul] at this

/-- A cleared row is a combination of rows, if the new pivot is. -/
theorem ClearedRow.mem {row t : FullSymbol} (cleared : ClearedRow n row t)
    {span : Submodule Gf256 (ℕ →₀ Gf256)} (mem_row : row.coefs ∈ span) (mem_n : n.coefs ∈ span) :
    t.coefs ∈ span := by
  rw [cleared.coefs]
  exact Submodule.add_mem _ mem_row (Submodule.smul_mem _ _ mem_n)

/-- Rows reported in the loop are sound when the old rows and the submission are. -/
theorem Reported.toDecoded {e : Notification} (rep : Reported set n e)
    (source : ∃ c : Gf256, c ≠ 0 ∧ s.coefs - c • n.coefs ∈ set.rowSpan)
    (sound : ∀ {m : ℕ} {src : ℕ → Vector Gf256 m}, set.AllSound src → Sound src s → Sound src n) :
    Decoded set s set' e where
  tableOk := rep.tableOk
  noWrap _ := rep.noWrap
  row := by
    obtain ⟨row, u, at_id, at_u, cleared, unit⟩ := rep.decoded
    exact ⟨u, at_u, unit, fun rows h => cleared.sound (rows _ _ at_id) (sound rows h)⟩
  spanned := by
    obtain ⟨row, u, at_id, at_u, cleared, unit⟩ := rep.decoded
    rw [← unit]
    exact cleared.mem (Submodule.mem_sup_left (coefs_mem_rowSpan at_id)) (pivot_mem_span source)

include inv in
/-- The callbacks of the loop, counted on the final rows. -/
theorem Announced.count_final (piv : Pivotal set n) (cl : Clearing set n set.size mid)
    (an : Announced set n set.size mid notified) (ins : Inserted mid n set')
    (free : set.TopFree n.firstNonzeroId) (id : ℕ) :
    (notified.map Notification.decodedId).count id =
      if id = n.firstNonzeroId then 0
      else if becomesSingle (set.rowAt id) (set'.rowAt id) then 1 else 0 := by
  rw [an.count]
  have rel := cl.rel inv.toTableOk id
  by_cases at_l : id = n.firstNonzeroId
  · -- A row overwritten by the new pivot is zero by then, and not reported.
    rw [if_pos at_l, if_neg]
    rintro ⟨-, -, single⟩
    cases at_id : set.rowAt id with
    | none =>
        rw [at_id, becomesSingle_none] at single
        cases single
    | some row =>
        rw [at_id] at rel single
        generalize mid.rowAt id = slot at rel single
        cases rel with
        | some cleared =>
            rw [becomesSingle, Bool.and_eq_true] at single
            exact (cleared.of_hasOneId inv piv at_id single.2).1 at_l
  · have free' := (cl.topFree_iff inv.toTableOk).mpr free
    rw [if_neg at_l, ins.rowAt_eq (cl.tableOk inv.toTableOk) free' at_l]
    refine if_congr ⟨fun h => h.2.2, fun single => ?_⟩ rfl rfl
    cases at_id : set.rowAt id with
    | none =>
        rw [at_id, becomesSingle_none] at single
        cases single
    | some row =>
        rw [at_id] at single
        have bounds := bounds_of_rowAt inv.toTableOk at_id
        exact ⟨bounds.1, bounds.2, single⟩

include inv in
/-- What the loop and the insertion achieve together, whatever is reported at the end. -/
theorem Announced.eliminated (piv : Pivotal set n)
    (source : ∃ c : Gf256, c ≠ 0 ∧ s.coefs - c • n.coefs ∈ set.rowSpan)
    (nz : fullSymbolIsZero s = false)
    (first_below : s.firstNonzeroId < set.firstSymbolId ∨ n.firstNonzeroId < set.firstSymbolId →
      n.firstNonzeroId = s.firstNonzeroId)
    (fits : set.Fits s.firstNonzeroId)
    (sound : ∀ {m : ℕ} {src : ℕ → Vector Gf256 m}, set.AllSound src → Sound src s → Sound src n)
    (cl : Clearing set n set.size mid) (an : Announced set n set.size mid notified)
    (ins : Inserted mid n set') {reports : List Notification}
    (decoded : ∀ e ∈ reports, Decoded set s set' e)
    (count : ∀ id, (reports.map Notification.decodedId).count id =
      if id = n.firstNonzeroId ∧ (!fullSymbolHasOneId s && fullSymbolHasOneId n) then 1 else 0) :
    Eliminated set s n set' (notified ++ reports) where
  pivotal := piv
  source := source
  nonzero := nz
  first_below := first_below
  fits := fits
  sound := sound
  tableOk := ins.tableOk
  stored := ins.stored
  rows q row' ne at_q := by
    have rel := cl.rel inv.toTableOk q
    rw [ins.rowAt_before ne at_q] at rel
    generalize set.rowAt q = slot at rel ⊢
    cases rel with
    | some cleared => exact ⟨_, rfl, cleared⟩
  kept free q row ne at_q := by
    have rel := cl.rel inv.toTableOk q
    have free' := (cl.topFree_iff inv.toTableOk).mpr free
    rw [← ins.rowAt_eq (cl.tableOk inv.toTableOk) free' ne, at_q] at rel
    generalize set'.rowAt q = slot at rel ⊢
    cases rel with
    | some cleared => exact ⟨_, rfl, cleared⟩
  lost taken := by
    have taken' : ¬ mid.TopFree n.firstNonzeroId := fun free =>
      taken ((cl.topFree_iff inv.toTableOk).mp free)
    obtain ⟨q, row, ne, at_q, gone⟩ := ins.exists_lost taken'
    have rel := cl.rel inv.toTableOk q
    rw [at_q] at rel
    cases at_old : set.rowAt q with
    | none =>
        rw [at_old] at rel
        cases rel
    | some old => exact ⟨q, old, ne, at_old, gone⟩
  decoded e mem := (List.mem_append.mp mem).elim
    (fun old => (an.reported e old).toDecoded source sound) (decoded e)
  count free id := by
    rw [List.map_append, List.count_append, an.count_final inv piv cl ins free, count]
    by_cases at_l : id = n.firstNonzeroId
    · rw [if_pos at_l, if_pos at_l, zero_add]
      exact if_congr (and_iff_right at_l) rfl rfl
    · have other : ¬ (id = n.firstNonzeroId ∧
          (!fullSymbolHasOneId s && fullSymbolHasOneId n) = true) := fun h => at_l h.1
      rw [if_neg at_l, if_neg at_l, if_neg other, add_zero]

/-- The new pivot is the submission up to a factor and rows. -/
theorem ReducedBy.source (red : ReducedBy set s u)
    (coefs : n.coefs = (u.coefs u.firstNonzeroId)⁻¹ • u.coefs) :
    ∃ c : Gf256, c ≠ 0 ∧ s.coefs - c • n.coefs ∈ set.rowSpan := by
  have lead_ne := red.wellFormed.coefs_first_ne red.nonzero
  refine ⟨u.coefs u.firstNonzeroId, lead_ne, ?_⟩
  rw [coefs, smul_smul, mul_inv_cancel₀ lead_ne, one_smul]
  exact red.diff

/-- The new pivot fits into the table when the submission does. -/
theorem fits_iff_of_below {l m : ℕ}
    (below : m < set.firstSymbolId ∨ l < set.firstSymbolId → l = m) : set.Fits l ↔ set.Fits m := by
  by_cases either : m < set.firstSymbolId ∨ l < set.firstSymbolId
  · rw [below either]
  · unfold Fits InsertsBelow
    exact iff_of_true (fun h => absurd (.inr h.2) either) (fun h => absurd (.inl h.2) either)

/-- The slots a new pivot needs are those its submission needs. -/
theorem topFree_iff_of_below {l m : ℕ}
    (below : m < set.firstSymbolId ∨ l < set.firstSymbolId → l = m) :
    set.TopFree l ↔ set.TopFree m := by
  by_cases either : m < set.firstSymbolId ∨ l < set.firstSymbolId
  · rw [below either]
  · exact iff_of_true (fun h => absurd (.inr h.2) either) (fun h => absurd (.inl h.2) either)

/-- The new pivot is found in its slot. -/
theorem Inserted.slot (ins : Inserted mid n set') :
    set'.fullSymbolTab[n.firstNonzeroId - set'.firstSymbolId]? = some (some n) := by
  have first_le := ins.first_le
  have inside := ins.lead_lt
  rw [getElem?_slot ins.tableOk (by omega), Nat.add_sub_cancel' first_le, ins.stored]

/-- A submission that stores a new pivot reports it if it is a single source symbol and the
submitted symbol was not. -/
theorem fullSymbolAddWithElimination_stored {u : FullSymbol}
    (reduce_eq : fullSymbolSetRemoveEachPivot set s = .ok (some u))
    (pivot_eq : fullSymbolSetAddAsPivot set u =
      .ok (set', notified, n.firstNonzeroId - set'.firstSymbolId))
    (piv : Pivotal set n) (ins : Inserted mid n set') :
    fullSymbolAddWithElimination set s =
      .ok (set', notified ++ if !fullSymbolHasOneId s && fullSymbolHasOneId n then
        [{ set := set', decodedId := n.firstNonzeroId }] else []) := by
  have size32 : symbolIdNone = 4294967295 := rfl
  have lead_lt := piv.wellFormed.first_lt piv.nonzero
  unfold fullSymbolAddWithElimination
  rw [reduce_eq, ok_bind]
  dsimp only
  rw [pivot_eq, ok_bind]
  dsimp only
  rw [if_neg (by unfold entryIndexNone; omega), ins.slot, access_some, ok_bind]
  dsimp only
  cases one_s : fullSymbolHasOneId s with
  | true => simp
  | false =>
      cases one_n : fullSymbolHasOneId n with
      | false => simp
      | true =>
          simp only [Bool.false_eq_true, if_false, if_true]
          rw [cAssert_of (by simpa using piv.getCoef_min), ok_bind, pure_eq_ok,
            fullSymbolGetMinSymbolId]
          rfl

include inv wrap in
/-- A submission is redundant, runs out of the table, or stores a new pivot. -/
theorem fullSymbolAddWithElimination_spec (wf : s.WellFormed) :
    (fullSymbolAddWithElimination set s = .ok (set, []) ∧ s.coefs ∈ set.rowSpan) ∨
    (¬ set.Fits s.firstNonzeroId ∧
      fullSymbolAddWithElimination set s = .error (.outOfBounds .pivotTab)) ∨
    ∃ n set' notified, fullSymbolAddWithElimination set s = .ok (set', notified) ∧
      Eliminated set s n set' notified := by
  rcases fullSymbolSetRemoveEachPivot_spec inv wrap wf with ⟨reduce_eq, mem⟩ |
    ⟨u, reduce_eq, nz, red⟩
  · unfold fullSymbolAddWithElimination
    rw [reduce_eq, ok_bind]
    exact .inl ⟨rfl, mem⟩
  obtain ⟨n, -, piv, first, coefs, sound_n, result⟩ := fullSymbolSetAddAsPivot_spec inv wrap red
  have first_below : s.firstNonzeroId < set.firstSymbolId ∨ n.firstNonzeroId < set.firstSymbolId →
      n.firstNonzeroId = s.firstNonzeroId := by
    rw [first]
    exact red.first_below inv wf nz
  have fits_iff := fits_iff_of_below first_below
  rcases result with ⟨exceeds, pivot_eq⟩ |
    ⟨mid, set', notified, pivot_eq, fits, -, cl, an, -, ins⟩
  · unfold fullSymbolAddWithElimination
    rw [reduce_eq, ok_bind]
    dsimp only
    rw [pivot_eq, error_bind]
    exact .inr (.inl ⟨fun h => exceeds (fits_iff.mpr h), rfl⟩)
  have sound : ∀ {m : ℕ} {src : ℕ → Vector Gf256 m}, set.AllSound src → Sound src s →
      Sound src n := fun rows h => sound_n (red.sound rows h)
  have source := red.source coefs
  refine .inr (.inr
    ⟨n, set', _, fullSymbolAddWithElimination_stored reduce_eq pivot_eq piv ins, ?_⟩)
  cases reports : !fullSymbolHasOneId s && fullSymbolHasOneId n with
  | false =>
      exact an.eliminated inv piv source nz first_below (fits_iff.mp fits) sound cl ins nofun
        fun id => by simp [reports]
  | true =>
      have single := reports
      rw [Bool.and_eq_true] at single
      have unit := piv.unit_of_hasOneId single.2
      refine an.eliminated inv piv source nz first_below (fits_iff.mp fits) sound cl ins
        (fun e mem => ?_) fun id => ?_
      · rw [List.mem_singleton.mp mem]
        exact ⟨ins.tableOk, fun wrap' => wrap', ⟨n, ins.stored, unit, sound⟩,
          unit ▸ pivot_mem_span source⟩
      · rw [if_pos rfl, List.map_singleton, List.count_singleton, reports]
        by_cases at_l : id = n.firstNonzeroId
        · rw [if_pos (by simp [at_l]), if_pos ⟨at_l, rfl⟩]
        · rw [if_neg (by simpa using Ne.symm at_l), if_neg fun h => at_l h.1]

theorem Eliminated.topFree_iff (el : Eliminated set s n set' notified) :
    set.TopFree n.firstNonzeroId ↔ set.TopFree s.firstNonzeroId :=
  topFree_iff_of_below el.first_below

end Submission

/-! ### The invariant and the span -/

theorem coefs_sub_eq_add (f g : ℕ →₀ Gf256) : f - g = f + g := by
  ext1 i
  exact CharTwo.sub_eq_add _ _

section Update

variable {set set' : FullSymbolSet} (inv : set.Invariant) {s n : FullSymbol}
  {notified : List Notification} (el : Eliminated set s n set' notified)

theorem ClearedRow.coefs_eq_sub {n row u : FullSymbol} (cl : ClearedRow n row u) :
    u.coefs = row.coefs - Finsupp.lapply (R := Gf256) n.firstNonzeroId row.coefs • n.coefs := by
  rw [cl.coefs, coefs_sub_eq_add]
  rfl

include el in
/-- The rows after a submission are rows of the updated family. -/
theorem Eliminated.coefRows_sub {q : ℕ} {f : ℕ →₀ Gf256} (h : set'.coefRows q = some f) :
    pivotUpdate Finsupp.lapply set.coefRows n.firstNonzeroId n.coefs q = some f := by
  obtain ⟨row', at_q, rfl⟩ := coefRows_eq_some.mp h
  by_cases at_l : q = n.firstNonzeroId
  · subst at_l
    rw [el.stored] at at_q
    cases at_q
    exact pivotUpdate_self
  · obtain ⟨row, before, cleared⟩ := el.rows q row' at_l at_q
    rw [pivotUpdate_of_ne at_l, coefRows_of_rowAt before, Option.map_some, cleared.coefs_eq_sub]

include el in
/-- Where no row is lost, the rows are the updated family. -/
theorem Eliminated.coefRows_eq (free : set.TopFree n.firstNonzeroId) :
    set'.coefRows = pivotUpdate Finsupp.lapply set.coefRows n.firstNonzeroId n.coefs := by
  funext q
  cases new : set'.coefRows q with
  | some f => exact (el.coefRows_sub new).symm
  | none =>
      have at_l : q ≠ n.firstNonzeroId := by
        rintro rfl
        rw [coefRows_of_rowAt el.stored] at new
        cases new
      cases at_q : set.rowAt q with
      | none => rw [pivotUpdate_of_ne at_l, coefRows, at_q]; rfl
      | some row =>
          obtain ⟨row', at_q', -⟩ := el.kept free q row at_l at_q
          rw [coefRows_of_rowAt at_q'] at new
          cases new

include inv el

/-- A submission keeps the invariant. -/
theorem Eliminated.invariant : set'.Invariant where
  toTableOk := el.tableOk
  wellFormed {q row'} at_q := by
    by_cases at_l : q = n.firstNonzeroId
    · subst at_l
      rw [el.stored] at at_q
      cases at_q
      exact el.pivotal.wellFormed
    · obtain ⟨row, -, cleared⟩ := el.rows q row' at_l at_q
      exact cleared.wellFormed
  reduced := by
    have updated := inv.reduced.pivotUpdate (l := n.firstNonzeroId) (n := n.coefs) el.pivotal.lead
      (fun i lt => el.pivotal.before lt) fun q f at_q ne => by
        obtain ⟨row, before, -⟩ := coefRows_eq_some.mp at_q
        exact el.pivotal.clear q row before ne
    exact updated.of_subset fun q f h => el.coefRows_sub h

omit inv in
/-- A submission adds nothing but its line to the span. -/
theorem Eliminated.rowSpan_le :
    set'.rowSpan ≤ set.rowSpan ⊔ Submodule.span Gf256 {s.coefs} := by
  have mem_n := pivot_mem_span el.source
  refine Rows.span_le.mpr fun q f row_q => ?_
  obtain ⟨row', at_q, rfl⟩ := coefRows_eq_some.mp row_q
  by_cases at_l : q = n.firstNonzeroId
  · subst at_l
    rw [el.stored] at at_q
    cases at_q
    exact mem_n
  · obtain ⟨row, before, cleared⟩ := el.rows q row' at_l at_q
    exact cleared.mem (Submodule.mem_sup_left (coefs_mem_rowSpan before)) mem_n

omit inv in
/-- A submission that loses no row adds exactly its line to the span. -/
theorem Eliminated.rowSpan_eq (free : set.TopFree n.firstNonzeroId) :
    set'.rowSpan = set.rowSpan ⊔ Submodule.span Gf256 {s.coefs} := by
  obtain ⟨c, -, diff⟩ := el.source
  have update : set'.rowSpan = set.rowSpan ⊔ Submodule.span Gf256 {n.coefs} := by
    rw [rowSpan, el.coefRows_eq free]
    refine span_pivotUpdate fun f at_l => ?_
    obtain ⟨row, before, rfl⟩ := coefRows_eq_some.mp at_l
    exact (el.pivotal.replaced row before).1
  rw [update]
  apply le_antisymm
  · exact sup_le le_sup_left
      ((Submodule.span_singleton_le_iff_mem _ _).mpr (pivot_mem_span el.source))
  · refine sup_le le_sup_left ((Submodule.span_singleton_le_iff_mem _ _).mpr ?_)
    have stored : n.coefs ∈ set.rowSpan ⊔ Submodule.span Gf256 {n.coefs} :=
      Submodule.mem_sup_right (Submodule.mem_span_singleton_self _)
    have := Submodule.add_mem _ (Submodule.mem_sup_left diff) (Submodule.smul_mem _ c stored)
    rwa [sub_add_cancel] at this

/-- A submission that loses a row does not span its row any more. -/
theorem Eliminated.rowSpan_ne (taken : ¬ set.TopFree n.firstNonzeroId) :
    set'.rowSpan ≠ set.rowSpan ⊔ Submodule.span Gf256 {s.coefs} := by
  intro same
  obtain ⟨q, row, ne, at_q, gone⟩ := el.lost taken
  obtain ⟨c, c_ne, diff⟩ := el.source
  have mem_row : row.coefs ∈ set'.rowSpan := by
    rw [same]
    exact Submodule.mem_sup_left (coefs_mem_rowSpan at_q)
  have mem_n : n.coefs ∈ set'.rowSpan := coefs_mem_rowSpan el.stored
  -- The lost row, cleared at the new pivot, still leads at `q`.
  have mem := Submodule.sub_mem _ mem_row (Submodule.smul_mem _ (row.coefs n.firstNonzeroId) mem_n)
  have free : set'.coefRows q = none := by rw [coefRows, gone, Option.map_none]
  have vanishes := (el.invariant inv).reduced.vanishes_of_not_pivot mem (fun i lt => ?_) free
  · rw [Finsupp.lapply_apply, Finsupp.sub_apply, Finsupp.smul_apply, inv.lead at_q,
      el.pivotal.clear q row at_q ne, smul_zero, sub_zero] at vanishes
    exact one_ne_zero vanishes
  · rw [Finsupp.lapply_apply, Finsupp.sub_apply, Finsupp.smul_apply, inv.before at_q lt, zero_sub,
      neg_eq_zero]
    rcases Nat.lt_or_ge i n.firstNonzeroId with low | high
    · rw [el.pivotal.before low, smul_zero]
    · rw [inv.before at_q (by omega), zero_smul]

omit inv in
/-- A submission keeps soundness. -/
theorem Eliminated.allSound {m : ℕ} {src : ℕ → Vector Gf256 m} (rows : set.AllSound src)
    (sound : Sound src s) : set'.AllSound src := by
  intro q row' at_q
  by_cases at_l : q = n.firstNonzeroId
  · subst at_l
    rw [el.stored] at at_q
    cases at_q
    exact el.sound rows sound
  · obtain ⟨row, before, cleared⟩ := el.rows q row' at_l at_q
    exact cleared.sound (rows q row before) (el.sound rows sound)

end Update

end SwifCodec
