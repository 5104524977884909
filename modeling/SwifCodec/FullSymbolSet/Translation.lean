import SwifCodec.FullSymbolSet.Elimination

/-!
Identifiers moved up by a constant.

`Moved` relates a symbol to its copy with every identifier moved up, and
`MovedSet` a set to such a copy. The elimination compares identifiers, takes
differences of them, and adds them to sizes of the table, so it does the same to
both sets as long as `first_symbol_id + size` does not wrap for either
(`fullSymbolAddWithElimination_moved`). The proofs run the two eliminations
side by side, function by function.
-/

namespace SwifCodec

open Library FullSymbol FullSymbolSet

/-! ### Symbols -/

/-- `s'` is `s` with every identifier moved up by `t`, and both carry `n` bytes. -/
structure FullSymbol.Moved (t n : ℕ) (s s' : FullSymbol) : Prop where
  wellFormed : s.WellFormed
  wellFormed' : s'.WellFormed
  above : ∀ i, s'.coefs (i + t) = s.coefs i
  below : ∀ i < t, s'.coefs i = 0
  data : s'.data = s.data
  length : s.data.length = n

namespace FullSymbol.Moved

variable {t n : ℕ} {s s' : FullSymbol} (mv : Moved t n s s')
include mv

theorem isZero : fullSymbolIsZero s' = fullSymbolIsZero s := by
  rw [Bool.eq_iff_iff, mv.wellFormed.isZero_iff, mv.wellFormed'.isZero_iff]
  constructor
  · intro zero
    ext1 i
    rw [← mv.above i, zero]
    rfl
  · intro zero
    ext1 i
    by_cases low : i < t
    · exact mv.below i low
    · obtain ⟨j, rfl⟩ := Nat.exists_eq_add_of_le' (Nat.le_of_not_lt low)
      rw [mv.above j, zero]
      rfl

theorem first (nz : fullSymbolIsZero s = false) : s'.firstNonzeroId = s.firstNonzeroId + t := by
  apply mv.wellFormed'.first_eq (mv.isZero.trans nz)
  · rw [mv.above]
    exact mv.wellFormed.coefs_first_ne nz
  · intro i lt
    by_cases low : i < t
    · exact mv.below i low
    · obtain ⟨j, rfl⟩ := Nat.exists_eq_add_of_le' (Nat.le_of_not_lt low)
      rw [mv.above]
      exact mv.wellFormed.coefs_before nz (Nat.lt_of_add_lt_add_right lt)

theorem last (nz : fullSymbolIsZero s = false) : s'.lastNonzeroId = s.lastNonzeroId + t := by
  have nz' := mv.isZero.trans nz
  have ne := mv.wellFormed'.coefs_last_ne nz'
  apply le_antisymm
  · by_contra gt
    obtain ⟨j, eq⟩ := Nat.exists_eq_add_of_le' (show t ≤ s'.lastNonzeroId by omega)
    rw [eq, mv.above] at ne
    exact ne (mv.wellFormed.coefs_after nz (by omega))
  · by_contra lt
    have zero := mv.wellFormed'.coefs_after nz' (Nat.lt_of_not_le lt)
    rw [mv.above] at zero
    exact mv.wellFormed.coefs_last_ne nz zero

theorem hasOneId : fullSymbolHasOneId s' = fullSymbolHasOneId s := by
  unfold fullSymbolHasOneId fullSymbolGetMinSymbolId fullSymbolGetMaxSymbolId
  rw [mv.isZero]
  cases nz : fullSymbolIsZero s with
  | true => rfl
  | false =>
      rw [mv.first nz, mv.last nz]
      simp

theorem getCoef {i : ℕ} (lt : i + t < symbolIdNone) :
    fullSymbolGetCoef s' (i + t) = fullSymbolGetCoef s i := by
  rw [mv.wellFormed'.getCoef_eq lt, mv.wellFormed.getCoef_eq (by omega), mv.above]

theorem payload : s'.payload = s.payload := by
  unfold FullSymbol.payload
  rw [mv.data]

/-- Row operations with the same factor. -/
theorem rowOperation {r r' u u' : FullSymbol} (mv_r : Moved t n r r') (wfu : u.WellFormed)
    (wfu' : u'.WellFormed) {c : Gf256} (coefs : u.coefs = s.coefs + c • r.coefs)
    (coefs' : u'.coefs = s'.coefs + c • r'.coefs) (payload : u.payload = s.payload + c • r.payload)
    (payload' : u'.payload = s'.payload + c • r'.payload)
    (length : r.data.length = s.data.length → u.data.length = s.data.length)
    (length' : r'.data.length = s'.data.length → u'.data.length = s'.data.length) :
    Moved t n u u' := by
  have size : u.data.length = n := by rw [length (mv_r.length.trans mv.length.symm), mv.length]
  have size' : u'.data.length = n := by
    have same : r'.data.length = s'.data.length := by
      rw [mv_r.data, mv.data, mv_r.length, mv.length]
    rw [length' same, mv.data, mv.length]
  refine ⟨wfu, wfu', fun i => ?_, fun i low => ?_, ?_, size⟩
  · simp only [coefs, coefs', Finsupp.add_apply, Finsupp.smul_apply, mv.above, mv_r.above]
  · simp only [coefs', Finsupp.add_apply, Finsupp.smul_apply, mv.below i low, mv_r.below i low,
      smul_zero, add_zero]
  · refine eq_of_getD (size'.trans size.symm) fun i => ?_
    have byte : u'.payload i = u.payload i := by
      rw [payload, payload', mv.payload, mv_r.payload]
    exact byte

/-- Scaling with the same factor. -/
theorem scale (nz : fullSymbolIsZero s = false) {c : Gf256} {r r' : FullSymbol}
    (eq : fullSymbolScale s c = .ok r) (eq' : fullSymbolScale s' c = .ok r') : Moved t n r r' := by
  obtain ⟨r₁, eq₁, wf, coefs, length, payload⟩ := fullSymbolScale_spec mv.wellFormed c
  obtain ⟨r₂, eq₂, wf', coefs', length', payload'⟩ := fullSymbolScale_spec mv.wellFormed' c
  rw [eq] at eq₁
  rw [eq'] at eq₂
  cases eq₁
  cases eq₂
  refine ⟨wf, wf', fun i => ?_, fun i low => ?_, ?_, length.trans mv.length⟩
  · rw [coefs, coefs', Finsupp.smul_apply, Finsupp.smul_apply, mv.above]
  · rw [coefs', Finsupp.smul_apply, mv.below i low, smul_zero]
  · refine eq_of_getD (by rw [length, length', mv.data]) fun i => ?_
    have byte : r'.payload i = r.payload i := by
      rw [payload nz, payload' (mv.isZero.trans nz), mv.payload]
    exact byte

end FullSymbol.Moved

/-! ### Sets -/

/-- `set'` is `set` with every identifier moved up by `t`. -/
structure MovedSet (t n : ℕ) (set set' : FullSymbolSet) : Prop where
  size : set'.size = set.size
  first : (set.firstSymbolId = symbolIdNone ∧ set'.firstSymbolId = symbolIdNone) ∨
    (set.firstSymbolId ≠ symbolIdNone ∧ set'.firstSymbolId ≠ symbolIdNone ∧
      set'.firstSymbolId = set.firstSymbolId + t)
  slots : ∀ k, Option.Rel (Moved t n) (set.fullSymbolTab.getD k none)
    (set'.fullSymbolTab.getD k none)

/-- The identifiers of the slots, moved up by `t`, fit in a `uint32_t`. -/
def FullSymbolSet.NoWrapAt (t : ℕ) (set : FullSymbolSet) : Prop :=
  set.firstSymbolId ≠ symbolIdNone → set.firstSymbolId + t + set.size < 4294967296

instance (t : ℕ) (set : FullSymbolSet) : Decidable (set.NoWrapAt t) :=
  inferInstanceAs (Decidable (_ → _))

namespace MovedSet

variable {t n id : ℕ} {set set' : FullSymbolSet} (ms : MovedSet t n set set')
include ms

theorem noWrap (fits : set.NoWrapAt t) : set'.NoWrap := by
  intro ne
  rcases ms.first with ⟨-, none⟩ | ⟨first, -, eq⟩
  · exact absurd none ne
  · rw [eq, ms.size]
    exact fits first

/-- The row of an identifier, and of the identifier moved up. -/
theorem rowAt (ok : set.TableOk) (ok' : set'.TableOk) (id : ℕ) :
    Option.Rel (Moved t n) (set.rowAt id) (set'.rowAt (id + t)) := by
  rcases ms.first with ⟨first, first'⟩ | ⟨-, -, eq⟩
  · rw [rowAt_of_first_none ok first, rowAt_of_first_none ok' first']
    exact .none
  · by_cases low : id < set.firstSymbolId
    · rw [rowAt_below low, rowAt_below (by omega)]
      exact .none
    · obtain ⟨k, rfl⟩ := Nat.exists_eq_add_of_le (Nat.le_of_not_lt low)
      have same : set.firstSymbolId + k + t = set'.firstSymbolId + k := by omega
      rw [same, rowAt_slot, rowAt_slot]
      exact ms.slots k

theorem rowAt_none (ok : set.TableOk) (ok' : set'.TableOk) (at_id : set.rowAt id = none) :
    set'.rowAt (id + t) = none := by
  have rel := ms.rowAt ok ok' id
  rw [at_id] at rel
  generalize set'.rowAt (id + t) = slot at rel ⊢
  cases rel
  rfl

theorem rowAt_some (ok : set.TableOk) (ok' : set'.TableOk) {row : FullSymbol}
    (at_id : set.rowAt id = some row) :
    ∃ row', set'.rowAt (id + t) = some row' ∧ Moved t n row row' := by
  have rel := ms.rowAt ok ok' id
  rw [at_id] at rel
  generalize set'.rowAt (id + t) = slot at rel ⊢
  cases rel with
  | some moved => exact ⟨_, rfl, moved⟩

/-- No row is moved below `t`. -/
theorem rowAt_low (ok' : set'.TableOk) (low : id < t) : set'.rowAt id = none := by
  rcases ms.first with ⟨-, first'⟩ | ⟨-, -, eq⟩
  · exact rowAt_of_first_none ok' first' id
  · exact rowAt_below (by omega)

theorem insertsBelow_iff : set'.InsertsBelow (id + t) ↔ set.InsertsBelow id := by
  unfold InsertsBelow
  rcases ms.first with ⟨first, first'⟩ | ⟨first, first', eq⟩
  · exact iff_of_false (fun h => h.1 first') fun h => h.1 first
  · rw [eq] at first' ⊢
    exact and_congr (iff_of_true first' first) Nat.add_lt_add_iff_right

theorem fits_iff : set'.Fits (id + t) ↔ set.Fits id := by
  unfold Fits
  rw [ms.insertsBelow_iff, ms.size]
  refine forall_congr' fun below => ?_
  rcases ms.first with ⟨first, -⟩ | ⟨-, -, eq⟩
  · exact absurd first below.1
  · rw [eq, Nat.add_sub_add_right]

theorem startFor_eq (id : ℕ) : set'.startFor (id + t) = set.startFor id + t := by
  unfold startFor
  rcases ms.first with ⟨first, first'⟩ | ⟨first, first', eq⟩
  · rw [if_pos first, if_pos first']
  · rw [if_neg first, if_neg first', eq]

/-- The identifier of a slot that holds a row. -/
theorem slotId_eq {k : ℕ} {row : FullSymbol} (ok : set.TableOk)
    (at_k : set.rowAt (set.firstSymbolId + k) = some row) :
    set'.firstSymbolId + k = set.firstSymbolId + k + t := by
  rcases ms.first with ⟨first, -⟩ | ⟨-, -, eq⟩
  · rw [rowAt_of_first_none ok first] at at_k
    cases at_k
  · omega

end MovedSet

/-- Two calls of the notification function, side by side. -/
structure MovedCall (t n : ℕ) (e e' : Notification) : Prop where
  sets : MovedSet t n e.set e'.set
  tableOk : e.set.TableOk
  tableOk' : e'.set.TableOk
  noWrap' : e'.set.NoWrap
  decodedId : e'.decodedId = e.decodedId + t

/-! ### Insertion -/

section Insert

variable {t n k : ℕ} {set set' set₁ : FullSymbolSet} {s s' : FullSymbol}

/-- Below the set, both tables are shifted by the same distance. -/
theorem fullSymbolSetAddBelow_moved (ms : MovedSet t n set set') (ok : set.TableOk)
    (ok' : set'.TableOk) (wrap : set.NoWrap) (wrap' : set'.NoWrap) (mv : Moved t n s s')
    (nz : fullSymbolIsZero s = false) (fits : set.Fits s.firstNonzeroId)
    (below : set.InsertsBelow s.firstNonzeroId)
    (add_eq : fullSymbolSetAddBelow set s set.firstSymbolId = .ok (set₁, k)) :
    ∃ set₁', fullSymbolSetAddBelow set' s' set'.firstSymbolId = .ok (set₁', k) ∧
      MovedSet t n set₁ set₁' := by
  have first := mv.first nz
  have lead_lt := mv.wellFormed.first_lt nz
  have lead_lt' := mv.wellFormed'.first_lt (mv.isZero.trans nz)
  have below' := ms.insertsBelow_iff.mpr below
  have near := fits below
  have room := wrap below.1
  have room' := wrap' below'.1
  have size := ms.size
  have distance : set'.firstSymbolId - s'.firstNonzeroId =
      set.firstSymbolId - s.firstNonzeroId := by
    rcases ms.first with ⟨none, -⟩ | ⟨-, -, eq⟩
    · exact absurd none below.1
    · omega
  obtain ⟨size₁, tab, eq, -, size_eq, slots⟩ :=
    fullSymbolSetAddBelow_spec ok.length below.2 (by omega) near
  obtain ⟨size₁', tab', eq', -, size_eq', slots'⟩ :=
    fullSymbolSetAddBelow_spec ok'.length (first ▸ below'.2) (by omega) (by omega)
  rw [distance, size, ← size_eq] at size_eq'
  rw [eq] at add_eq
  cases add_eq
  refine ⟨_, eq', size_eq', .inr ⟨lead_lt.ne, lead_lt'.ne, first⟩, fun j => ?_⟩
  dsimp only
  rw [slots, slots', distance, size_eq']
  split
  · exact .some mv
  split
  · exact .none
  split
  · exact ms.slots _
  · exact .none

/-- In the set or above it, both tables grow to the same size. -/
theorem fullSymbolSetAddAbove_moved (ms : MovedSet t n set set') (ok : set.TableOk)
    (ok' : set'.TableOk) (mv : Moved t n s s') (nz : fullSymbolIsZero s = false)
    (above : ¬ set.InsertsBelow s.firstNonzeroId)
    (add_eq : fullSymbolSetAddAbove set s (set.startFor s.firstNonzeroId) = .ok (set₁, k)) :
    ∃ set₁', fullSymbolSetAddAbove set' s' (set.startFor s.firstNonzeroId + t) = .ok (set₁', k) ∧
      MovedSet t n set₁ set₁' := by
  have first := mv.first nz
  have lead_lt := mv.wellFormed.first_lt nz
  have lead_lt' := mv.wellFormed'.first_lt (mv.isZero.trans nz)
  have start_le := startFor_le above
  have index : s'.firstNonzeroId - (set.startFor s.firstNonzeroId + t) =
      s.firstNonzeroId - set.startFor s.firstNonzeroId := by omega
  obtain ⟨size₁, tab, eq, -, -, -, -, slots⟩ :=
    fullSymbolSetAddAbove_spec ok.length ok.size_lt lead_lt
  obtain ⟨size₁', tab', eq', -, -, -, -, slots'⟩ :=
    @fullSymbolSetAddAbove_spec set' s' (set.startFor s.firstNonzeroId + t) ok'.length ok'.size_lt
      lead_lt'
  have size := (fullSymbolSetAddAbove_range eq).2
  have size' := (fullSymbolSetAddAbove_range eq').2
  rw [eq] at add_eq
  cases add_eq
  rw [index] at eq' size' slots'
  rw [ms.size, ← size] at size'
  refine ⟨_, eq', size', .inr ⟨?_, ?_, rfl⟩, fun j => ?_⟩
  · dsimp only
    omega
  · dsimp only
    omega
  · dsimp only
    rw [slots, slots']
    split
    · exact .some mv
    · exact ms.slots j

/-- Both insertions go to the same slot. -/
theorem fullSymbolSetAdd_moved (ms : MovedSet t n set set') (ok : set.TableOk) (ok' : set'.TableOk)
    (wrap : set.NoWrap) (wrap' : set'.NoWrap) (mv : Moved t n s s')
    (nz : fullSymbolIsZero s = false) (add_eq : fullSymbolSetAdd set s = .ok (set₁, k)) :
    ∃ set₁', fullSymbolSetAdd set' s' = .ok (set₁', k) ∧ MovedSet t n set₁ set₁' := by
  have fits : set.Fits s.firstNonzeroId := by
    by_contra exceeds
    rw [fullSymbolSetAdd_outOfBounds ok mv.wellFormed nz exceeds] at add_eq
    cases add_eq
  rw [fullSymbolSetAdd_eq mv.wellFormed nz] at add_eq
  rw [fullSymbolSetAdd_eq mv.wellFormed' (mv.isZero.trans nz), mv.first nz]
  by_cases below : set.InsertsBelow s.firstNonzeroId
  · rw [if_pos below] at add_eq
    rw [if_pos (ms.insertsBelow_iff.mpr below)]
    exact fullSymbolSetAddBelow_moved ms ok ok' wrap wrap' mv nz fits below add_eq
  · rw [if_neg below] at add_eq
    rw [if_neg (mt ms.insertsBelow_iff.mp below), ms.startFor_eq]
    exact fullSymbolSetAddAbove_moved ms ok ok' mv nz below add_eq

end Insert

/-! ### Reduction -/

section Reduce

variable {t n : ℕ} {set set' : FullSymbolSet} (inv : set.Invariant) (inv' : set'.Invariant)
  (wrap : set.NoWrap) (wrap' : set'.NoWrap) (ms : MovedSet t n set set')
include inv inv' wrap wrap' ms

/-- Both loops pass the same identifiers and end alike. -/
theorem removeEachPivotLoop_moved {rounds i : ℕ} {cur cur' : FullSymbol} {isZero : Bool}
    (enough : 4294967296 ≤ rounds + i) (le : i ≤ symbolIdNone) (mv : Moved t n cur cur')
    (nz : fullSymbolIsZero cur = false) :
    ∃ result result', removeEachPivotLoop set rounds i cur isZero = .ok result ∧
      removeEachPivotLoop set' rounds (i + t) cur' isZero = .ok result' ∧
      Option.Rel (Moved t n) result result' := by
  have size32 : symbolIdNone = 4294967295 := rfl
  induction rounds generalizing i cur cur' isZero with
  | zero => omega
  | succ rounds ih =>
      have wf := mv.wellFormed
      have wf' := mv.wellFormed'
      have nz' := mv.isZero.trans nz
      have last := mv.last nz
      have last_lt' := wf'.last_lt nz'
      by_cases done : cur.lastNonzeroId < i
      · have done' : cur'.lastNonzeroId < i + t := by omega
        rw [removeEachPivotLoop_done done, removeEachPivotLoop_done done']
        cases isZero with
        | true => exact ⟨none, none, rfl, rfl, .none⟩
        | false => exact ⟨some cur, some cur', rfl, rfl, .some mv⟩
      have more : i ≤ cur.lastNonzeroId := Nat.le_of_not_lt done
      have more' : i + t ≤ cur'.lastNonzeroId := by omega
      have next : i + t + 1 = i + 1 + t := Nat.add_right_comm i t 1
      have same := mv.above i
      by_cases coef : cur.coefs i = 0
      · rw [removeEachPivotLoop_skip wf nz more coef,
          removeEachPivotLoop_skip wf' nz' more' (same.trans coef), next]
        exact ih (by omega) (by omega) mv nz
      have coef' : cur'.coefs (i + t) ≠ 0 := by rwa [same]
      cases at_i : set.rowAt i with
      | none =>
          have at_i' := ms.rowAt_none inv.toTableOk inv'.toTableOk at_i
          rw [removeEachPivotLoop_keep inv wf nz wrap more coef at_i,
            removeEachPivotLoop_keep inv' wf' nz' wrap' more' coef' at_i', next]
          exact ih (by omega) (by omega) mv nz
      | some pivot =>
          obtain ⟨pivot', at_i', mv_p⟩ := ms.rowAt_some inv.toTableOk inv'.toTableOk at_i
          obtain ⟨u, wfu, coefs, payload, length, round_eq⟩ :=
            removeEachPivotLoop_eliminate inv wf nz wrap more coef at_i
          obtain ⟨u', wfu', coefs', payload', length', round_eq'⟩ :=
            removeEachPivotLoop_eliminate inv' wf' nz' wrap' more' coef' at_i'
          rw [same] at coefs' payload'
          have mv_u := mv.rowOperation mv_p wfu wfu' coefs coefs' payload payload' length length'
          rw [round_eq, round_eq', next, mv_u.isZero]
          cases zero : fullSymbolIsZero u with
          | true =>
              rw [if_pos rfl, if_pos rfl]
              exact ih (by omega) (by omega) mv nz
          | false =>
              rw [if_neg Bool.false_ne_true, if_neg Bool.false_ne_true]
              exact ih (by omega) (by omega) mv_u zero

/-- Both reductions end alike. -/
theorem fullSymbolSetRemoveEachPivot_moved {s s' : FullSymbol} (mv : Moved t n s s') :
    ∃ result result', fullSymbolSetRemoveEachPivot set s = .ok result ∧
      fullSymbolSetRemoveEachPivot set' s' = .ok result' ∧
      Option.Rel (Moved t n) result result' := by
  have wf := mv.wellFormed
  have wf' := mv.wellFormed'
  cases nz : fullSymbolIsZero s with
  | true => exact ⟨none, none, fullSymbolSetRemoveEachPivot_of_zero wf nz,
      fullSymbolSetRemoveEachPivot_of_zero wf' (mv.isZero.trans nz), .none⟩
  | false =>
      have enough : 4294967296 ≤ 4294967296 + s.firstNonzeroId := Nat.le_add_right _ _
      rw [fullSymbolSetRemoveEachPivot_of_nonzero wf nz,
        fullSymbolSetRemoveEachPivot_of_nonzero wf' (mv.isZero.trans nz), mv.first nz]
      exact removeEachPivotLoop_moved inv inv' wrap wrap' ms enough (wf.first_lt nz).le mv nz

end Reduce

/-! ### Storing the pivot -/

section AddAsPivot

variable {t n k : ℕ} {set set' mid mid' : FullSymbolSet} (inv : set.Invariant)
  (inv' : set'.Invariant) (wrap : set.NoWrap) (wrap' : set'.NoWrap) (ms : MovedSet t n set set')
  {p p' : FullSymbol} (piv : Pivotal set p) (piv' : Pivotal set' p') (mv : Moved t n p p')
include inv inv' wrap wrap' ms piv piv' mv

/-- Both rounds clear the same slot and report it alike. -/
theorem addAsPivotStep_moved (cl : Clearing set p k mid) (cl' : Clearing set' p' k mid')
    (ms_mid : MovedSet t n mid mid') (lt : k < set.size)
    {calls calls' : List Notification} (same : List.Forall₂ (MovedCall t n) calls calls')
    {next next' : FullSymbolSet} {told told' : List Notification}
    (eq : addAsPivotStep p (mid, calls) k = .ok (next, told))
    (eq' : addAsPivotStep p' (mid', calls') k = .ok (next', told')) :
    MovedSet t n next next' ∧ List.Forall₂ (MovedCall t n) told told' := by
  have ok := inv.toTableOk
  have ok' := inv'.toTableOk
  have lt' : k < set'.size := by rw [ms.size]; exact lt
  have slot := ms.slots k
  rw [← rowAt_slot, ← rowAt_slot] at slot
  cases at_k : set.rowAt (set.firstSymbolId + k) with
  | none =>
      cases at_k' : set'.rowAt (set'.firstSymbolId + k) with
      | none =>
          rw [addAsPivotStep_none ok cl lt at_k] at eq
          rw [addAsPivotStep_none ok' cl' lt' at_k'] at eq'
          cases eq
          cases eq'
          exact ⟨ms_mid, same⟩
      | some row' =>
          rw [at_k, at_k'] at slot
          cases slot
  | some row =>
      cases at_k' : set'.rowAt (set'.firstSymbolId + k) with
      | none =>
          rw [at_k, at_k'] at slot
          cases slot
      | some row' =>
          rw [at_k, at_k'] at slot
          cases slot with
          | some mv_row =>
              obtain ⟨u, tab, cleared, store_eq, step_eq⟩ :=
                addAsPivotStep_some inv wrap piv cl lt at_k
              obtain ⟨u', tab', cleared', store_eq', step_eq'⟩ :=
                addAsPivotStep_some inv' wrap' piv' cl' lt' at_k'
              have factor : row'.coefs p'.firstNonzeroId = row.coefs p.firstNonzeroId := by
                rw [mv.first piv.nonzero, mv_row.above]
              have mv_u : Moved t n u u' := mv_row.rowOperation mv cleared.wellFormed
                cleared'.wellFormed cleared.coefs (factor ▸ cleared'.coefs) cleared.payload
                (factor ▸ cleared'.payload) cleared.length cleared'.length
              have stored : MovedSet t n { mid with fullSymbolTab := tab }
                  { mid' with fullSymbolTab := tab' } := by
                refine ⟨ms_mid.size, ms_mid.first, fun j => ?_⟩
                dsimp only
                rw [getD_store store_eq, getD_store store_eq']
                split
                · exact .some mv_u
                · exact ms_mid.slots j
              rw [step_eq] at eq
              rw [step_eq', mv_row.hasOneId, mv_u.hasOneId] at eq'
              cases eq
              cases eq'
              refine ⟨stored, List.rel_append same ?_⟩
              split
              · exact .cons ⟨stored, (cl.store at_k cleared store_eq).tableOk ok,
                  (cl'.store at_k' cleared' store_eq').tableOk ok',
                  (cl'.store at_k' cleared' store_eq').noWrap wrap', ms.slotId_eq ok at_k⟩ .nil
              · exact .nil

/-- Both loops clear the same slots and report them alike. -/
theorem addAsPivotLoop_moved (le : k ≤ set.size) {calls calls' : List Notification}
    (eq : (List.range k).foldlM (addAsPivotStep p) (set, []) = .ok (mid, calls))
    (eq' : (List.range k).foldlM (addAsPivotStep p') (set', []) = .ok (mid', calls')) :
    MovedSet t n mid mid' ∧ List.Forall₂ (MovedCall t n) calls calls' := by
  induction k generalizing mid mid' calls calls' with
  | zero =>
      cases eq
      cases eq'
      exact ⟨ms, .nil⟩
  | succ k ih =>
      obtain ⟨set₁, calls₁, loop_eq, cl, -⟩ := addAsPivotLoop_spec inv wrap piv k (by omega)
      obtain ⟨set₁', calls₁', loop_eq', cl', -⟩ :=
        addAsPivotLoop_spec inv' wrap' piv' k (by rw [ms.size]; omega)
      obtain ⟨ms₁, same⟩ := ih (by omega) loop_eq loop_eq'
      rw [List.range_succ, List.foldlM_append, loop_eq, ok_bind, List.foldlM_cons] at eq
      rw [List.range_succ, List.foldlM_append, loop_eq', ok_bind, List.foldlM_cons] at eq'
      obtain ⟨⟨next, told⟩, step_eq, result⟩ := bind_eq_ok.mp eq
      obtain ⟨⟨next', told'⟩, step_eq', result'⟩ := bind_eq_ok.mp eq'
      cases result
      cases result'
      exact addAsPivotStep_moved inv inv' wrap wrap' ms piv piv' mv cl cl' ms₁ le same step_eq
        step_eq'

end AddAsPivot

/-! ### A submission -/

/-- Both submissions return alike, as long as the table after them does not wrap. -/
theorem fullSymbolAddWithElimination_moved {t n : ℕ} {set set' set₁ : FullSymbolSet}
    (inv : set.Invariant) (inv' : set'.Invariant) (wrap : set.NoWrap) (wrap' : set'.NoWrap)
    (ms : MovedSet t n set set') {s s' : FullSymbol} (mv : Moved t n s s')
    {calls : List Notification} (ok : fullSymbolAddWithElimination set s = .ok (set₁, calls))
    (after : set₁.NoWrapAt t) :
    ∃ set₁' calls', fullSymbolAddWithElimination set' s' = .ok (set₁', calls') ∧
      MovedSet t n set₁ set₁' ∧ List.Forall₂ (MovedCall t n) calls calls' := by
  obtain ⟨result, result', reduce_eq, reduce_eq', rel⟩ :=
    fullSymbolSetRemoveEachPivot_moved inv inv' wrap wrap' ms mv
  cases rel with
  | none =>
      unfold fullSymbolAddWithElimination at ok ⊢
      rw [reduce_eq, ok_bind] at ok
      rw [reduce_eq', ok_bind]
      cases ok
      exact ⟨set', [], rfl, ms, .nil⟩
  | @some u u' mv_u =>
      have red := ReducedBy.of_ok inv wrap mv.wellFormed reduce_eq
      have red' := ReducedBy.of_ok inv' wrap' mv.wellFormed' reduce_eq'
      obtain ⟨p, scale_eq, piv, -, -, -, stored⟩ := fullSymbolSetAddAsPivot_spec inv wrap red
      obtain ⟨p', scale_eq', piv', -, -, -, stored'⟩ :=
        fullSymbolSetAddAsPivot_spec inv' wrap' red'
      have first := mv_u.first red.nonzero
      have lead_lt' := red'.wellFormed.first_lt red'.nonzero
      rw [first, mv_u.getCoef (by omega)] at scale_eq'
      have mv_p := mv_u.scale red.nonzero scale_eq scale_eq'
      have lead := mv_p.first piv.nonzero
      rcases stored with ⟨-, fault⟩ | ⟨mid, set₂, calls₂, eq, fits, loop_eq, cl, -, add_eq, ins⟩
      · unfold fullSymbolAddWithElimination at ok
        rw [reduce_eq, ok_bind] at ok
        dsimp only at ok
        rw [fault] at ok
        cases ok
      rcases stored' with ⟨exceeds, -⟩ |
        ⟨mid', set₂', calls₂', eq', -, loop_eq', cl', -, add_eq', ins'⟩
      · rw [lead, ms.fits_iff] at exceeds
        exact absurd fits exceeds
      rw [fullSymbolAddWithElimination_stored reduce_eq eq piv ins] at ok
      cases ok
      rw [ms.size] at loop_eq'
      obtain ⟨ms_mid, same⟩ := addAsPivotLoop_moved inv inv' wrap wrap' ms piv piv' mv_p le_rfl
        loop_eq loop_eq'
      obtain ⟨set₃', add_eq₃, ms_last⟩ := fullSymbolSetAdd_moved ms_mid
        (cl.tableOk inv.toTableOk) (cl'.tableOk inv'.toTableOk) (cl.noWrap wrap) (cl'.noWrap wrap')
        mv_p piv.nonzero add_eq
      rw [add_eq'] at add_eq₃
      obtain ⟨rfl, -⟩ := Prod.mk.inj (Except.ok.inj add_eq₃)
      refine ⟨set₂', _, fullSymbolAddWithElimination_stored reduce_eq' eq' piv' ins', ms_last,
        List.rel_append same ?_⟩
      rw [mv.hasOneId, mv_p.hasOneId]
      split
      · exact .cons ⟨ms_last, ins.tableOk, ins'.tableOk, ms_last.noWrap after, lead⟩ .nil
      · exact .nil

end SwifCodec
