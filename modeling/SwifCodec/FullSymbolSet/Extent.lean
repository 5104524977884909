import SwifCodec.FullSymbolSet.Runs

/-!
How far the pivot table reaches.

The table grows by doubling, or to the slot it needs, and never reaches far behind the
largest identifier that was submitted: with identifiers below `b` its end stays below
`2 * b + 16`. So with a bound of at most 2^31 - 9 the sum `first_symbol_id + size` does not
wrap in any run (`setRun_of_ids`), which the results about runs assume of every step.
-/

namespace SwifCodec

open Library FullSymbol FullSymbolSet Gf256

namespace FullSymbolSet

/-- A set over identifiers below `b`: nothing is stored yet, or the table starts below `b`
and ends below `2 * b + 16`. -/
def Extent (set : FullSymbolSet) (b : ℕ) : Prop :=
  (set.firstSymbolId = symbolIdNone ∧ set.size = 16) ∨
    (set.firstSymbolId < b ∧ 16 ≤ set.size ∧ set.firstSymbolId + set.size ≤ 2 * b + 16)

theorem Extent.size_ge {set : FullSymbolSet} {b : ℕ} (ext : set.Extent b) : 16 ≤ set.size := by
  rcases ext with ⟨-, size⟩ | ⟨-, size, -⟩ <;> omega

/-- A table that ends early enough does not wrap. -/
theorem Extent.noWrap {set : FullSymbolSet} {b : ℕ} (ext : set.Extent b) (small : b ≤ 2147483639) :
    set.NoWrap := by
  intro first
  rcases ext with ⟨unset, -⟩ | ⟨-, -, reach⟩
  · exact absurd unset first
  · omega

end FullSymbolSet

/-- The coefficient functions on identifiers below `b`. -/
noncomputable abbrev idsBelow (b : ℕ) : Submodule Gf256 (ℕ →₀ Gf256) :=
  Finsupp.supported Gf256 Gf256 (Set.Iio b)

theorem mem_idsBelow {b : ℕ} {f : ℕ →₀ Gf256} : f ∈ idsBelow b ↔ ∀ i, b ≤ i → f i = 0 := by
  rw [Finsupp.mem_supported']
  exact forall_congr' fun i => imp_congr_left (by simp)

section Step

variable {set set' mid : FullSymbolSet} {n : FullSymbol} {s : Submission} {b k : ℕ}

/-- A non-zero symbol on identifiers below `b` leads below `b`. -/
theorem FullSymbol.WellFormed.first_lt_of_idsBelow (wf : n.WellFormed)
    (nz : fullSymbolIsZero n = false) (ids : n.coefs ∈ idsBelow b) : n.firstNonzeroId < b := by
  by_contra ge
  exact wf.coefs_first_ne nz (mem_idsBelow.mp ids _ (by omega))

/-- An insertion keeps the extent of the table. -/
theorem fullSymbolSetAdd_extent (valid : b ≤ symbolIdNone) (ok : set.TableOk) (wf : n.WellFormed)
    (nz : fullSymbolIsZero n = false) (lead_lt : n.firstNonzeroId < b) (ext : set.Extent b)
    (add_eq : fullSymbolSetAdd set n = .ok (set', k)) : set'.Extent b := by
  have size_lt := ok.size_lt
  have size_ge := ext.size_ge
  by_cases below : set.InsertsBelow n.firstNonzeroId
  · -- A table that is long enough slides down, and one of exactly that length is doubled.
    have room : set.firstSymbolId - n.firstNonzeroId < set.size ∨
        set.firstSymbolId - n.firstNonzeroId = set.size ∧ 2 * set.size < 4294967296 := by
      by_contra far
      rw [fullSymbolSetAdd_exceeds ok.size_ge ok.first_le wf nz fun h => far (h below)] at add_eq
      cases add_eq
    have first_lt := below.2
    obtain ⟨size, tab, below_eq, -, size_eq, -⟩ :=
      fullSymbolSetAddBelow_spec ok.length below.2 (by omega) (by omega)
    rw [fullSymbolSetAdd_eq wf nz, if_pos below, below_eq] at add_eq
    cases add_eq
    rcases ext with ⟨unset, -⟩ | ⟨start, -, reach⟩
    · exact absurd unset below.1
    · refine .inr ⟨lead_lt, ?_, ?_⟩
      · show 16 ≤ size
        rw [size_eq]
        split <;> omega
      · show n.firstNonzeroId + size ≤ 2 * b + 16
        rw [size_eq]
        split <;> omega
  · rw [fullSymbolSetAdd_eq wf nz, if_neg below] at add_eq
    obtain ⟨first, size⟩ := fullSymbolSetAddAbove_range add_eq
    have none_eq : symbolIdNone = 4294967295 := rfl
    have lead := wf.first_lt nz
    have double : mul32 set.size 2 ≤ 2 * set.size := by
      unfold mul32
      omega
    have next : add32 (n.firstNonzeroId - set.startFor n.firstNonzeroId) 1 =
        n.firstNonzeroId - set.startFor n.firstNonzeroId + 1 := add32_of_lt (by omega)
    have start := startFor_le below
    rw [next] at size
    refine .inr ⟨by omega, ?_, ?_⟩
    · rw [size]
      split
      · exact size_ge
      · split <;> omega
    · rw [first, size]
      rcases ext with ⟨unset, sixteen⟩ | ⟨set_first, -, reach⟩
      · have at_lead : set.startFor n.firstNonzeroId = n.firstNonzeroId := if_pos unset
        rw [at_lead, if_pos (by omega)]
        omega
      · have same : set.startFor n.firstNonzeroId = set.firstSymbolId := by
          exact if_neg (by omega)
        rw [same] at start ⊢
        split
        · exact reach
        · split <;> omega

/-- A submission that is not redundant inserts a symbol into a table of the same extent. -/
theorem submit_inserts (inv : set.Invariant) (wrap : set.NoWrap) {os : List Notification}
    (ok : submit set s = .ok (set', os)) :
    set' = set ∨ ∃ mid n k, mid.TableOk ∧ mid.firstSymbolId = set.firstSymbolId ∧
      mid.size = set.size ∧ n.WellFormed ∧ fullSymbolIsZero n = false ∧
      n.coefs ∈ set.rowSpan ⊔ Submodule.span Gf256 {s.1.coefs} ∧
      fullSymbolSetAdd mid n = .ok (set', k) := by
  unfold submit at ok
  rcases fullSymbolAddWithElimination_of_ok ok with ⟨rfl, -⟩ |
    ⟨u, calls, idx, reduce_eq, pivot_eq⟩
  · exact .inl rfl
  rcases fullSymbolSetRemoveEachPivot_spec inv wrap s.2 with ⟨none_eq, -⟩ | ⟨u', some_eq, -, red⟩
  · rw [reduce_eq] at none_eq
    cases none_eq
  rw [reduce_eq] at some_eq
  cases some_eq
  obtain ⟨n, -, piv, -, coefs, -, result⟩ := fullSymbolSetAddAsPivot_spec inv wrap red
  rcases result with ⟨-, fault⟩ | ⟨mid, set'', notified, pivot_eq', -, -, cl, -, add_eq, -⟩
  · rw [pivot_eq] at fault
    cases fault
  · rw [pivot_eq] at pivot_eq'
    cases pivot_eq'
    exact .inr ⟨mid, n, _, cl.tableOk inv.toTableOk, cl.first, cl.size, piv.wellFormed,
      piv.nonzero, pivot_mem_span (red.source coefs), add_eq⟩

/-- A submission over identifiers below `b` keeps the rows and the table there. -/
theorem submit_extent (valid : b ≤ symbolIdNone) (inv : set.Invariant) (wrap : set.NoWrap)
    {os : List Notification} (ext : set.Extent b) (rows : set.rowSpan ≤ idsBelow b)
    (ids : s.1.coefs ∈ idsBelow b) (ok : submit set s = .ok (set', os)) :
    set'.Extent b ∧ set'.rowSpan ≤ idsBelow b := by
  have spans : set.rowSpan ⊔ Submodule.span Gf256 {s.1.coefs} ≤ idsBelow b :=
    sup_le rows ((Submodule.span_singleton_le_iff_mem _ _).mpr ids)
  constructor
  · rcases submit_inserts inv wrap ok with rfl | ⟨mid, n, k, tab, first, size, wf, nz, mem, add_eq⟩
    · exact ext
    · refine fullSymbolSetAdd_extent valid tab wf nz (wf.first_lt_of_idsBelow nz (spans mem)) ?_
        add_eq
      unfold Extent
      rw [first, size]
      exact ext
  · rcases submit_cases inv wrap ok with ⟨rfl, -, -⟩ | ⟨n, el⟩
    · exact rows
    · exact el.rowSpan_le.trans spans

end Step

/-- In a run over identifiers below a bound of at most 2^31 - 9 the table never wraps, and all its
rows are on these identifiers. -/
theorem setRun_of_ids {b : ℕ} (small : b ≤ 2147483639) {meets : FullSymbolSet → Submission → Prop}
    {cs : List Submission} {set : FullSymbolSet} {os : List Notification}
    (steps : Steps submit (fun set s _ => meets set s) fullSymbolSetAlloc cs set os)
    (ids : ∀ s ∈ cs, s.1.coefs ∈ idsBelow b) :
    SetRun meets cs set os ∧ set.Extent b ∧ set.rowSpan ≤ idsBelow b := by
  induction steps with
  | nil =>
      refine ⟨.nil, .inl ⟨rfl, rfl⟩, ?_⟩
      rw [fullSymbolSetAlloc_rowSpan]
      exact bot_le
  | snoc _ ok cond ih =>
      obtain ⟨run, ext, rows⟩ := ih fun s mem => ids s (List.mem_append_left _ mem)
      obtain ⟨inv, wrap⟩ := invariant_of_run run
      have valid : b ≤ symbolIdNone := small.trans (by decide)
      obtain ⟨ext', rows'⟩ := submit_extent valid inv wrap ext rows
        (ids _ (List.mem_append_right _ List.mem_cons_self)) ok
      exact ⟨run.snoc ok ⟨ext'.noWrap small, cond⟩, ext', rows'⟩

end SwifCodec
