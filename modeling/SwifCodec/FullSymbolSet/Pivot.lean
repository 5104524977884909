import SwifCodec.FullSymbolSet.Reduce
import SwifCodec.FullSymbolSet.Insert

/-!
Storing a reduced symbol as a pivot, `full_symbol_set_add_as_pivot`.

The symbol is normalised, its leading coefficient is cleared in every row, slot
after slot, and then it is inserted. Callbacks are fired between two slots, when
part of the rows are cleared; `Clearing` says what holds then.
-/

namespace SwifCodec

open Library FullSymbol FullSymbolSet

/-! ### Normalised symbols -/

/-- A symbol ready to be stored as a pivot of a set. -/
structure Pivotal (set : FullSymbolSet) (n : FullSymbol) : Prop where
  wellFormed : n.WellFormed
  nonzero : fullSymbolIsZero n = false
  lead : n.coefs n.firstNonzeroId = 1
  clear : ∀ p row, set.rowAt p = some row → p ≠ n.firstNonzeroId → n.coefs p = 0
  /-- A row it overwrites has the same coefficients and is not a single source symbol. -/
  replaced : ∀ row, set.rowAt n.firstNonzeroId = some row →
    row.coefs = n.coefs ∧ fullSymbolHasOneId row = false

theorem Pivotal.before {set : FullSymbolSet} {n : FullSymbol} (piv : Pivotal set n) {q : ℕ}
    (lt : q < n.firstNonzeroId) : n.coefs q = 0 :=
  piv.wellFormed.coefs_before piv.nonzero lt

/-- A new pivot that is a single source symbol is the unit vector of its identifier. -/
theorem Pivotal.unit_of_hasOneId {set : FullSymbolSet} {n : FullSymbol} (piv : Pivotal set n)
    (one : fullSymbolHasOneId n = true) : n.coefs = Finsupp.single n.firstNonzeroId 1 := by
  obtain ⟨a, -, eq⟩ := piv.wellFormed.hasOneId_iff.mp one
  have lead := piv.lead
  rw [eq, Finsupp.single_eq_same] at lead
  rw [eq, lead]

/-- The source reads the coefficient 1 at the leading identifier of a new pivot. -/
theorem Pivotal.getCoef_min {set : FullSymbolSet} {n : FullSymbol} (piv : Pivotal set n) :
    fullSymbolGetCoef n (fullSymbolGetMinSymbolId n) = 1 := by
  rw [fullSymbolGetMinSymbolId,
    piv.wellFormed.getCoef_eq (piv.wellFormed.first_lt piv.nonzero), piv.lead]

/-- Scaling a symbol by the inverse of its leading coefficient. -/
theorem fullSymbolScale_lead {u : FullSymbol} (wf : u.WellFormed)
    (nz : fullSymbolIsZero u = false) :
    ∃ n, fullSymbolScale u (gf256Inv (fullSymbolGetCoef u u.firstNonzeroId)) = .ok n ∧
      n.WellFormed ∧ fullSymbolIsZero n = false ∧ n.firstNonzeroId = u.firstNonzeroId ∧
      n.coefs = (u.coefs u.firstNonzeroId)⁻¹ • u.coefs ∧ n.data.length = u.data.length ∧
      n.payload = (u.coefs u.firstNonzeroId)⁻¹ • u.payload := by
  have lead_ne := wf.coefs_first_ne nz
  obtain ⟨n, scale_eq, wfn, coefs, length, payload⟩ :=
    fullSymbolScale_spec wf (u.coefs u.firstNonzeroId)⁻¹
  have nzn : fullSymbolIsZero n = false := by
    rw [isZero_scale wf wfn coefs (inv_ne_zero lead_ne), nz]
  refine ⟨n, ?_, wfn, nzn, ?_, coefs, length, payload nz⟩
  · rw [wf.getCoef_eq (wf.first_lt nz)]
    exact scale_eq
  · refine wfn.first_eq nzn ?_ fun i hi => ?_
    · rw [coefs, Finsupp.smul_apply, smul_eq_mul, inv_mul_cancel₀ lead_ne]
      exact one_ne_zero
    · rw [coefs, Finsupp.smul_apply, wf.coefs_before nz hi, smul_zero]

/-- A reduced symbol with its leading coefficient scaled to one is ready to be stored. -/
theorem ReducedBy.normalise {set : FullSymbolSet} (inv : set.Invariant) {s u : FullSymbol}
    (red : ReducedBy set s u) :
    ∃ n, fullSymbolScale u (gf256Inv (fullSymbolGetCoef u u.firstNonzeroId)) = .ok n ∧
      Pivotal set n ∧ n.firstNonzeroId = u.firstNonzeroId ∧
      n.coefs = (u.coefs u.firstNonzeroId)⁻¹ • u.coefs ∧
      (∀ {m : ℕ} {src : ℕ → Vector Gf256 m}, Sound src u → Sound src n) := by
  have lead_ne := red.wellFormed.coefs_first_ne red.nonzero
  obtain ⟨n, scale_eq, wfn, nz, first, coefs, length, payload⟩ :=
    fullSymbolScale_lead red.wellFormed red.nonzero
  have lead : n.coefs n.firstNonzeroId = 1 := by
    rw [first, coefs, Finsupp.smul_apply, smul_eq_mul, inv_mul_cancel₀ lead_ne]
  refine ⟨n, scale_eq, ?_, first, coefs, fun sound => ⟨?_, length.trans sound.length⟩⟩
  · rcases red.cleared with clear | ⟨p, row, at_p, several, ne, eq⟩
    · refine ⟨wfn, nz, lead, fun q row at_q _ => ?_, fun row at_l => ?_⟩
      · rw [coefs, Finsupp.smul_apply, clear q row at_q, smul_zero]
      · rw [first] at at_l
        exact absurd (clear _ row at_l) lead_ne
    · -- The symbol is a multiple of the row of `p`, hence leads at `p`.
      have at_first : u.firstNonzeroId = p := by
        refine red.wellFormed.first_eq red.nonzero ?_ fun i hi => ?_
        · rw [eq, Finsupp.smul_apply, inv.lead at_p, smul_eq_mul, mul_one]
          exact ne
        · rw [eq, Finsupp.smul_apply, inv.before at_p hi, smul_zero]
      have same : n.coefs = row.coefs := by
        rw [coefs, eq, at_first, Finsupp.smul_apply, inv.lead at_p, smul_eq_mul, mul_one, smul_smul,
          inv_mul_cancel₀ ne, one_smul]
      refine ⟨wfn, nz, lead, fun q row' at_q neq => ?_, fun row' at_l => ?_⟩
      · rw [first, at_first] at neq
        rw [same, inv.clear at_q at_p neq]
      · rw [first, at_first, at_p] at at_l
        cases at_l
        exact ⟨same.symm, several⟩
  · have vec : n.vec = (u.coefs u.firstNonzeroId)⁻¹ • u.vec := Prod.ext coefs payload
    rw [vec]
    exact Submodule.smul_mem _ _ sound.vec_mem

/-! ### Clearing the new pivot in the rows -/

/-- `u` is the row with its coefficient at the new pivot cleared. -/
structure ClearedRow (n row u : FullSymbol) : Prop where
  wellFormed : u.WellFormed
  coefs : u.coefs = row.coefs + row.coefs n.firstNonzeroId • n.coefs
  payload : u.payload = row.payload + row.coefs n.firstNonzeroId • n.payload
  length : n.data.length = row.data.length → u.data.length = row.data.length

theorem ClearedRow.sound {n row u : FullSymbol} (cl : ClearedRow n row u) {m : ℕ}
    {src : ℕ → Vector Gf256 m} (sound_row : Sound src row) (sound_n : Sound src n) :
    Sound src u :=
  sound_row.rowOperation sound_n cl.coefs cl.payload cl.length

section Cleared

variable {set : FullSymbolSet} (inv : set.Invariant) {n row u : FullSymbol} (piv : Pivotal set n)
  {p : ℕ} (at_p : set.rowAt p = some row) (cl : ClearedRow n row u)
include inv piv at_p cl

omit inv in
/-- A row overwritten by the new pivot is cleared to zero. -/
theorem ClearedRow.zero (eq : p = n.firstNonzeroId) : u.coefs = 0 := by
  subst eq
  rw [cl.coefs, (piv.replaced row at_p).1, piv.lead, one_smul]
  ext1 q
  exact CharTwo.add_self_eq_zero _

/-- Every other row keeps its pivot. -/
theorem ClearedRow.lead (ne : p ≠ n.firstNonzeroId) : u.coefs p = 1 := by
  rw [cl.coefs, Finsupp.add_apply, Finsupp.smul_apply, inv.lead at_p, piv.clear p row at_p ne,
    smul_zero, add_zero]

theorem ClearedRow.before {q : ℕ} (lt : q < p) : u.coefs q = 0 := by
  rw [cl.coefs, Finsupp.add_apply, Finsupp.smul_apply, inv.before at_p lt, zero_add]
  rcases Nat.lt_or_ge q n.firstNonzeroId with low | high
  · rw [piv.before low, smul_zero]
  · rw [inv.before at_p (by omega), zero_smul]

/-- A cleared row that is a single source symbol is the unit vector of its pivot. -/
theorem ClearedRow.of_hasOneId (one : fullSymbolHasOneId u = true) :
    p ≠ n.firstNonzeroId ∧ u.firstNonzeroId = p ∧ u.coefs = Finsupp.single p 1 := by
  obtain ⟨a, ha, eq⟩ := cl.wellFormed.hasOneId_iff.mp one
  have ne : p ≠ n.firstNonzeroId := by
    intro eq_p
    rw [cl.zero piv at_p eq_p] at eq
    exact ha (Finsupp.single_eq_zero.mp eq.symm)
  have lead := cl.lead inv piv at_p ne
  have first : u.firstNonzeroId = p := by
    by_contra other
    rw [eq, Finsupp.single_eq_of_ne (Ne.symm other)] at lead
    exact zero_ne_one lead
  rw [eq, first, Finsupp.single_eq_same] at lead
  rw [first, lead] at eq
  exact ⟨ne, first, eq⟩

end Cleared

/-- The row was there and is now, but not before, a single source symbol. -/
def becomesSingle : Option FullSymbol → Option FullSymbol → Bool
  | some row, some row' => !fullSymbolHasOneId row && fullSymbolHasOneId row'
  | _, _ => false

/-- A notification: the set at that moment holds the single source symbol. -/
structure Reported (set : FullSymbolSet) (n : FullSymbol) (e : Notification) : Prop where
  tableOk : e.set.TableOk
  noWrap : e.set.NoWrap
  decoded : ∃ row u, set.rowAt e.decodedId = some row ∧ e.set.rowAt e.decodedId = some u ∧
    ClearedRow n row u ∧ u.coefs = Finsupp.single e.decodedId 1
  /-- Part of the rows are cleared, the others are still the old ones. -/
  rows : ∀ id row', e.set.rowAt id = some row' → ∃ row, set.rowAt id = some row ∧
    (row' = row ∨ ClearedRow n row row')

/-- After `k` rounds, the slots below `k` are cleared. -/
structure Clearing (set : FullSymbolSet) (n : FullSymbol) (k : ℕ) (set' : FullSymbolSet) :
    Prop where
  size : set'.size = set.size
  first : set'.firstSymbolId = set.firstSymbolId
  length : set'.fullSymbolTab.length = set.fullSymbolTab.length
  done : ∀ j < k, Option.Rel (ClearedRow n) (set.fullSymbolTab.getD j none)
    (set'.fullSymbolTab.getD j none)
  rest : ∀ j, k ≤ j → set'.fullSymbolTab.getD j none = set.fullSymbolTab.getD j none

/-- After `k` rounds, each row below slot `k` that became a single source symbol
was reported once. -/
structure Announced (set : FullSymbolSet) (n : FullSymbol) (k : ℕ) (set' : FullSymbolSet)
    (notified : List Notification) : Prop where
  reported : ∀ e ∈ notified, Reported set n e
  count : ∀ id, (notified.map Notification.decodedId).count id =
    if set.firstSymbolId ≤ id ∧ id < set.firstSymbolId + k ∧
      becomesSingle (set.rowAt id) (set'.rowAt id) then 1 else 0

section Loop

variable {set set' : FullSymbolSet} {n : FullSymbol} {k : ℕ} {notified : List Notification}

/-- A table between two rounds is still a table of the set's size. -/
theorem Clearing.tableOk (cl : Clearing set n k set') (ok : set.TableOk) : set'.TableOk where
  length := by rw [cl.length, ok.length, cl.size]
  size_ge := by rw [cl.size]; exact ok.size_ge
  size_lt := by rw [cl.size]; exact ok.size_lt
  first_le := by rw [cl.first]; exact ok.first_le
  empty none j := by
    rw [cl.first] at none
    have before := ok.empty none j
    rcases Nat.lt_or_ge j k with lt | ge
    · have rel := cl.done j lt
      rw [before] at rel
      generalize set'.fullSymbolTab.getD j Option.none = slot at rel
      cases rel
      rfl
    · rw [cl.rest j ge, before]

theorem Clearing.noWrap (cl : Clearing set n k set') (wrap : set.NoWrap) : set'.NoWrap := by
  unfold NoWrap
  rw [cl.first, cl.size]
  exact wrap

/-- Every row is an old row, cleared or still to be cleared. -/
theorem Clearing.rows (cl : Clearing set n k set') {id : ℕ} {row' : FullSymbol}
    (h : set'.rowAt id = some row') :
    ∃ row, set.rowAt id = some row ∧ (row' = row ∨ ClearedRow n row row') := by
  rcases Nat.lt_or_ge id set.firstSymbolId with low | high
  · rw [rowAt_below (by rw [cl.first]; exact low)] at h
    cases h
  · obtain ⟨j, rfl⟩ := Nat.exists_eq_add_of_le high
    rw [← cl.first, rowAt_slot] at h
    rw [rowAt_slot]
    rcases Nat.lt_or_ge j k with lt | ge
    · have rel := cl.done j lt
      rw [h] at rel
      generalize set.fullSymbolTab.getD j none = slot at rel ⊢
      cases rel with
      | some cleared => exact ⟨_, rfl, .inr cleared⟩
    · rw [cl.rest j ge] at h
      exact ⟨row', h, .inl rfl⟩

/-- At the end of the loop every row is cleared. -/
theorem Clearing.rel (cl : Clearing set n set.size set') (ok : set.TableOk) (id : ℕ) :
    Option.Rel (ClearedRow n) (set.rowAt id) (set'.rowAt id) := by
  rcases Nat.lt_or_ge id set.firstSymbolId with low | high
  · rw [rowAt_below low, rowAt_below (by rw [cl.first]; exact low)]
    exact .none
  · obtain ⟨j, rfl⟩ := Nat.exists_eq_add_of_le high
    rw [rowAt_slot, ← cl.first, rowAt_slot]
    rcases Nat.lt_or_ge j set.size with lt | ge
    · exact cl.done j lt
    · have len := ok.length
      have len' := cl.length
      rw [getD_none_of_length_le (by omega), getD_none_of_length_le (by omega)]
      exact .none

/-- Writing one slot changes one row. -/
theorem rowAt_store {tab : List (Option FullSymbol)} {slot : Option FullSymbol}
    (store_eq : Block.store set.fullSymbolTab k [slot] = some tab) (id : ℕ) :
    ({ set with fullSymbolTab := tab } : FullSymbolSet).rowAt id =
      if id = set.firstSymbolId + k then slot else set.rowAt id := by
  unfold rowAt
  dsimp only
  rw [getD_store store_eq]
  by_cases high : set.firstSymbolId ≤ id
  · rw [if_pos high, if_pos high]
    by_cases at_k : id = set.firstSymbolId + k
    · rw [if_pos (by omega), if_pos at_k]
    · rw [if_neg (by omega), if_neg at_k]
  · rw [if_neg high, if_neg (by omega), if_neg high]

theorem becomesSingle_none (row' : Option FullSymbol) : becomesSingle none row' = false := rfl

/-- Nothing is cleared before the first round. -/
theorem Clearing.init : Clearing set n 0 set where
  size := rfl
  first := rfl
  length := rfl
  done _ lt := absurd lt (Nat.not_lt_zero _)
  rest _ _ := rfl

theorem Announced.init : Announced set n 0 set [] where
  reported _ h := absurd h List.not_mem_nil
  count id := by
    rw [if_neg (by omega)]
    rfl

/-- A round over an empty slot. -/
theorem Clearing.empty (cl : Clearing set n k set')
    (at_k : set.rowAt (set.firstSymbolId + k) = none) : Clearing set n (k + 1) set' where
  size := cl.size
  first := cl.first
  length := cl.length
  done j lt := by
    rcases Nat.lt_succ_iff_lt_or_eq.mp lt with lt | rfl
    · exact cl.done j lt
    · rw [rowAt_slot] at at_k
      rw [cl.rest j le_rfl, at_k]
      exact .none
  rest j le := cl.rest j (by omega)

/-- A round that replaces the row of a slot. -/
theorem Clearing.store (cl : Clearing set n k set') {row u : FullSymbol}
    (at_k : set.rowAt (set.firstSymbolId + k) = some row) (cleared : ClearedRow n row u)
    {tab : List (Option FullSymbol)}
    (store_eq : Block.store set'.fullSymbolTab k [some u] = some tab) :
    Clearing set n (k + 1) { set' with fullSymbolTab := tab } where
  size := cl.size
  first := cl.first
  length := (Block.length_of_store store_eq).trans cl.length
  done j lt := by
    show Option.Rel _ _ (tab.getD j none)
    rw [getD_store store_eq]
    rcases Nat.lt_succ_iff_lt_or_eq.mp lt with lt | rfl
    · rw [if_neg (by omega)]
      exact cl.done j lt
    · rw [if_pos rfl, ← rowAt_slot, at_k]
      exact .some cleared
  rest j le := by
    show tab.getD j none = _
    rw [getD_store store_eq, if_neg (by omega), cl.rest j (by omega)]

/-- The reports after a round that leaves the rows of other slots alone. -/
theorem Announced.next {set'' : FullSymbolSet} (an : Announced set n k set' notified)
    (other : ∀ id, id ≠ set.firstSymbolId + k → set''.rowAt id = set'.rowAt id)
    {new : List Notification} (reported : ∀ e ∈ new, Reported set n e)
    (count : ∀ id, (new.map Notification.decodedId).count id =
      if id = set.firstSymbolId + k ∧ becomesSingle (set.rowAt id) (set''.rowAt id) then 1 else 0) :
    Announced set n (k + 1) set'' (notified ++ new) where
  reported e mem := (List.mem_append.mp mem).elim (an.reported e) (reported e)
  count id := by
    rw [List.map_append, List.count_append, an.count, count]
    by_cases here : id = set.firstSymbolId + k
    · rw [if_neg (by omega), zero_add]
      exact if_congr ⟨fun h => ⟨by omega, by omega, h.2⟩, fun h => ⟨here, h.2.2⟩⟩ rfl rfl
    · have none : ¬ (id = set.firstSymbolId + k ∧
          becomesSingle (set.rowAt id) (set''.rowAt id) = true) := fun h => here h.1
      rw [if_neg none, add_zero, other id here]
      exact if_congr (and_congr_right fun _ => and_congr_left fun _ => by omega) rfl rfl

/-- A round after which the row of its slot did not become a single source symbol. -/
theorem Announced.quiet {set'' : FullSymbolSet} (an : Announced set n k set' notified)
    (other : ∀ id, id ≠ set.firstSymbolId + k → set''.rowAt id = set'.rowAt id)
    (silent : becomesSingle (set.rowAt (set.firstSymbolId + k))
      (set''.rowAt (set.firstSymbolId + k)) = false) :
    Announced set n (k + 1) set'' notified := by
  have next : Announced set n (k + 1) set'' (notified ++ []) := by
    refine an.next other nofun fun id => ?_
    rw [if_neg]
    · rfl
    · rintro ⟨rfl, single⟩
      rw [silent] at single
      cases single
  rwa [List.append_nil] at next

/-- A round that reports the row of its slot. -/
theorem Announced.report {set'' : FullSymbolSet} (an : Announced set n k set' notified)
    (other : ∀ id, id ≠ set.firstSymbolId + k → set''.rowAt id = set'.rowAt id)
    (single : becomesSingle (set.rowAt (set.firstSymbolId + k))
      (set''.rowAt (set.firstSymbolId + k)) = true)
    (reported : Reported set n { set := set'', decodedId := set.firstSymbolId + k }) :
    Announced set n (k + 1) set''
      (notified ++ [{ set := set'', decodedId := set.firstSymbolId + k }]) := by
  refine an.next other (fun e mem => ?_) fun id => ?_
  · rw [List.mem_singleton.mp mem]
    exact reported
  · rw [List.map_singleton, List.count_singleton]
    by_cases here : id = set.firstSymbolId + k
    · rw [here, if_pos (beq_self_eq_true _), if_pos ⟨rfl, single⟩]
    · rw [if_neg (by simpa using Ne.symm here), if_neg fun h => here h.1]

/-- Reading a slot that is still to be cleared. -/
theorem Clearing.slot (cl : Clearing set n k set') (ok : set.TableOk) (lt : k < set.size) :
    set'.fullSymbolTab[k]? = some (set.rowAt (set.firstSymbolId + k)) := by
  rw [getElem?_slot (cl.tableOk ok) (by rw [cl.size]; exact lt), rowAt_slot, rowAt_slot,
    cl.rest k le_rfl]

/-- A round over an empty slot does nothing. -/
theorem addAsPivotStep_none (ok : set.TableOk) (cl : Clearing set n k set') (lt : k < set.size)
    (at_k : set.rowAt (set.firstSymbolId + k) = none) :
    addAsPivotStep n (set', notified) k = .ok (set', notified) := by
  unfold addAsPivotStep
  dsimp only
  rw [cl.slot ok lt, at_k, access_some, ok_bind]
  rfl

/-- A round over a stored row clears it, and reports it if it became a single source
symbol. -/
theorem addAsPivotStep_some (inv : set.Invariant) (wrap : set.NoWrap) (piv : Pivotal set n)
    (cl : Clearing set n k set') (lt : k < set.size) {row : FullSymbol}
    (at_k : set.rowAt (set.firstSymbolId + k) = some row) :
    ∃ u tab, ClearedRow n row u ∧ Block.store set'.fullSymbolTab k [some u] = some tab ∧
      addAsPivotStep n (set', notified) k =
        .ok ({ set' with fullSymbolTab := tab },
          notified ++ if !fullSymbolHasOneId row && fullSymbolHasOneId u then
            [{ set := { set' with fullSymbolTab := tab }, decodedId := set.firstSymbolId + k }]
          else []) := by
  have ok' := cl.tableOk inv.toTableOk
  have lead_lt := piv.wellFormed.first_lt piv.nonzero
  have wf := inv.wellFormed at_k
  obtain ⟨scaled, u, scale_eq, add_eq, wfu, coefs, payload, length⟩ :=
    rowOperation_spec wf (inv.nonzero at_k) piv.wellFormed piv.nonzero
      (row.coefs n.firstNonzeroId)
  have cleared : ClearedRow n row u := ⟨wfu, coefs, payload, length⟩
  obtain ⟨tab, store_eq⟩ : ∃ tab, Block.store set'.fullSymbolTab k [some u] = some tab := by
    have len := ok'.length
    have size := cl.size
    exact ⟨_, Block.store_eq_some (by simp; omega)⟩
  refine ⟨u, tab, cleared, store_eq, ?_⟩
  unfold addAsPivotStep
  dsimp only
  rw [cl.slot inv.toTableOk lt, at_k, access_some, ok_bind]
  dsimp only
  rw [fullSymbolClone_of_nonzero piv.wellFormed piv.nonzero, ok_bind, wf.getCoef_eq lead_lt,
    scale_eq, ok_bind, add_eq, ok_bind, store_eq, access_some, ok_bind]
  cases decoded : !fullSymbolHasOneId row && fullSymbolHasOneId u with
  | false => simp
  | true =>
      have single := decoded
      rw [Bool.and_eq_true] at single
      obtain ⟨-, first, unit⟩ := cleared.of_hasOneId inv piv at_k single.2
      have one : fullSymbolGetCoef u (fullSymbolGetMinSymbolId u) = 1 := by
        rw [fullSymbolGetMinSymbolId, first,
          wfu.getCoef_eq (lt_none_of_rowAt inv.toTableOk wrap at_k), unit, Finsupp.single_eq_same]
      rw [if_pos rfl, if_pos rfl, cAssert_of (by simpa using one), ok_bind, pure_eq_ok,
        fullSymbolGetMinSymbolId, first]

/-- One round of the loop. -/
theorem addAsPivotStep_spec (inv : set.Invariant) (wrap : set.NoWrap) (piv : Pivotal set n)
    (cl : Clearing set n k set') (an : Announced set n k set' notified) (lt : k < set.size) :
    ∃ set'' notified', addAsPivotStep n (set', notified) k = .ok (set'', notified') ∧
      Clearing set n (k + 1) set'' ∧ Announced set n (k + 1) set'' notified' := by
  cases at_k : set.rowAt (set.firstSymbolId + k) with
  | none =>
      refine ⟨set', notified, addAsPivotStep_none inv.toTableOk cl lt at_k, cl.empty at_k,
        an.quiet (fun _ _ => rfl) ?_⟩
      rw [at_k, becomesSingle_none]
  | some row =>
      obtain ⟨u, tab, cleared, store_eq, step_eq⟩ := addAsPivotStep_some inv wrap piv cl lt at_k
      have next := cl.store at_k cleared store_eq
      have read : ∀ id, ({ set' with fullSymbolTab := tab } : FullSymbolSet).rowAt id =
          if id = set.firstSymbolId + k then some u else set'.rowAt id := by
        intro id
        rw [rowAt_store store_eq, cl.first]
      have other : ∀ id, id ≠ set.firstSymbolId + k →
          ({ set' with fullSymbolTab := tab } : FullSymbolSet).rowAt id = set'.rowAt id := by
        intro id ne
        rw [read, if_neg ne]
      refine ⟨_, _, step_eq, next, ?_⟩
      cases decoded : !fullSymbolHasOneId row && fullSymbolHasOneId u with
      | false =>
          rw [if_neg Bool.false_ne_true, List.append_nil]
          refine an.quiet other ?_
          rw [at_k, read, if_pos rfl, becomesSingle, decoded]
      | true =>
          rw [if_pos rfl]
          refine an.report other ?_ ?_
          · rw [at_k, read, if_pos rfl, becomesSingle, decoded]
          · have single := decoded
            rw [Bool.and_eq_true] at single
            obtain ⟨-, -, unit⟩ := cleared.of_hasOneId inv piv at_k single.2
            exact ⟨next.tableOk inv.toTableOk, next.noWrap wrap,
              ⟨row, u, at_k, by rw [read, if_pos rfl], cleared, unit⟩, fun _ _ h => next.rows h⟩

/-- The loop of `full_symbol_set_add_as_pivot` clears every row. -/
theorem addAsPivotLoop_spec (inv : set.Invariant) (wrap : set.NoWrap) (piv : Pivotal set n) :
    ∀ k ≤ set.size, ∃ set' notified,
      (List.range k).foldlM (addAsPivotStep n) (set, []) = .ok (set', notified) ∧
        Clearing set n k set' ∧ Announced set n k set' notified := by
  intro k
  induction k with
  | zero => exact fun _ => ⟨set, [], rfl, .init, .init⟩
  | succ k ih =>
      intro le
      obtain ⟨set₁, notified₁, loop_eq, cl, an⟩ := ih (by omega)
      obtain ⟨set₂, notified₂, step_eq, cl', an'⟩ := addAsPivotStep_spec inv wrap piv cl an le
      refine ⟨set₂, notified₂, ?_, cl', an'⟩
      rw [List.range_succ, List.foldlM_append, loop_eq, ok_bind, List.foldlM_cons, step_eq, ok_bind,
        List.foldlM_nil, pure_eq_ok]

end Loop

end SwifCodec
