import SwifCodec.Rlc.RepairSymbol

/-!
Runs of an encoder.

A run is a sequence of calls in which every source symbol is accepted and has an
identifier below `INVALID_ESI`. `buildRepairSymbol_iff_of_run` says for which runs
the repair symbol is the combination its header describes.
-/

namespace SwifCodec

open Library Gf256

/-- A call on an encoder. -/
inductive EncoderCall where
  | setCallbackFunctions (removedCallback : Bool)
  | addSourceSymbolToCodingWindow (newSrcSymbolEsi : ℕ)
  | setCodingCoefsTab (codingCoefsTab : List Gf256) (nbCoefsInTab : ℕ)
  | generateCodingCoefs (key dt : ℕ)
  deriving DecidableEq, Repr

section Calls

variable {n : ℕ} (src : ℕ → Vector Gf256 n)

/-- One call; a source symbol carries the data of its identifier. The outputs are
the identifiers passed to the removal callback. -/
def encoderStep (enc : Encoder) : EncoderCall → Exec (Encoder × List ℕ)
  | .setCallbackFunctions callback => .ok (swifRlcEncoderSetCallbackFunctions enc callback, [])
  | .addSourceSymbolToCodingWindow esi => do
      let (enc, _, removed) ← swifRlcEncoderAddSourceSymbolToCodingWindow enc (src esi).toList esi
      return (enc, removed)
  | .setCodingCoefsTab tab nb => do
      let enc ← swifRlcEncoderSetCodingCoefsTab enc tab nb
      return (enc, [])
  | .generateCodingCoefs key dt => do
      let (enc, _) ← swifRlcEncoderGenerateCodingCoefs enc key dt
      return (enc, [])

/-- The call is not a source symbol, or one the encoder accepts. -/
def EncoderCall.Accepted (enc : Encoder) : EncoderCall → Prop
  | .addSourceSymbolToCodingWindow esi => enc.Accepts esi ∧ esi < invalidEsi
  | _ => True

instance (enc : Encoder) (call : EncoderCall) : Decidable (call.Accepted enc) :=
  match call with
  | .setCallbackFunctions _ => .isTrue trivial
  | .addSourceSymbolToCodingWindow _ => inferInstanceAs (Decidable (_ ∧ _))
  | .setCodingCoefsTab _ _ => .isTrue trivial
  | .generateCodingCoefs _ _ => .isTrue trivial

/-- The runs of a fresh encoder with a window of `w` symbols. -/
abbrev EncoderRun (w : ℕ) : List EncoderCall → Encoder → List ℕ → Prop :=
  Steps (encoderStep src) (fun enc call _ => call.Accepted enc) (swifRlcEncoderCreate n w)

/-- The number of source symbols of a run. -/
def addedSymbols (calls : List EncoderCall) : ℕ :=
  calls.countP fun
    | .addSourceSymbolToCodingWindow _ => true
    | _ => false

end Calls

section Run

variable {n w : ℕ} {src : ℕ → Vector Gf256 n} {enc enc' : Encoder} {call : EncoderCall}
  {calls : List EncoderCall} {start count : ℕ} {removed : List ℕ}

/-- A call moves the window by the symbols it adds. -/
theorem encoderStep_window (win : Window src enc start count)
    (ok : encoderStep src enc call = .ok (enc', removed)) (accepted : call.Accepted enc) :
    enc'.maxCodingWindowSize = enc.maxCodingWindowSize ∧
      ∃ start', Window src enc' start' (count + addedSymbols [call]) := by
  cases call with
  | setCallbackFunctions callback =>
      cases ok
      exact ⟨rfl, start, win.setCallback callback⟩
  | addSourceSymbolToCodingWindow esi =>
      obtain ⟨e, rem, add_eq, win', size, -⟩ :=
        swifRlcEncoderAddSourceSymbol_window win accepted.1 accepted.2
      unfold encoderStep at ok
      dsimp only at ok
      rw [add_eq] at ok
      cases ok
      exact ⟨size, _, win'⟩
  | setCodingCoefsTab tab nb =>
      obtain ⟨e, set_eq, eq⟩ := bind_eq_ok.mp ok
      cases eq
      obtain ⟨ccTab, rfl, length⟩ := swifRlcEncoderSetCodingCoefsTab_of_ok set_eq
      exact ⟨rfl, start, win.setCcTab (length.trans win.ccTab)⟩
  | generateCodingCoefs key dt =>
      obtain ⟨⟨e, status⟩, generate_eq, eq⟩ := bind_eq_ok.mp ok
      cases eq
      obtain ⟨ccTab, rfl, length⟩ := swifRlcEncoderGenerateCodingCoefs_of_ok generate_eq
      exact ⟨rfl, start, win.setCcTab (length.trans win.ccTab)⟩

/-- Every run leaves a window of its last source symbols. -/
theorem window_of_run (pos : 0 < w) (lt : w < 4294967296)
    (run : EncoderRun src w calls enc removed) :
    enc.maxCodingWindowSize = w ∧ ∃ start, Window src enc start (addedSymbols calls) := by
  induction run with
  | nil => exact ⟨rfl, 0, swifRlcEncoderCreate_window pos lt⟩
  | @snoc enc enc' calls call _ _ _ ok accepted ih =>
      obtain ⟨size, start, win⟩ := ih
      obtain ⟨size', start', win'⟩ := encoderStep_window win ok accepted
      refine ⟨size'.trans size, start', ?_⟩
      rwa [addedSymbols, List.countP_append]

end Run

/-! ### The header of a repair symbol -/

section Header

variable {n : ℕ} {src : ℕ → Vector Gf256 n} {enc : Encoder} {start count : ℕ}

theorem Window.information_nb :
    (swifRlcEncoderGetCodingWindowInformation enc).2.2 = enc.ewSsNb := rfl

/-- The first identifier the encoder reports is the one of the oldest symbol held. -/
theorem Window.information_first (win : Window src enc start count) (some_symbol : 0 < count) :
    (swifRlcEncoderGetCodingWindowInformation enc).1 = start + (count - enc.ewSsNb) := by
  have size : invalidEsi = 4294967295 := rfl
  have below := win.below
  have nb := win.ewSsNb
  have pos := win.size_pos
  have right := win.ewEsiRight
  rw [if_neg (by omega)] at right
  show add32 (sub32 enc.ewEsiRight enc.ewSsNb) 1 = _
  rw [right]
  unfold add32 sub32
  omega

/-- The coefficients of a repair symbol are in place exactly when the window starts in
slot 0. -/
theorem Window.ewLeft_eq_zero_iff (win : Window src enc start count) :
    enc.ewLeft = 0 ↔ count ≤ enc.maxCodingWindowSize ∨ enc.maxCodingWindowSize ∣ count := by
  rw [win.ewLeft]
  by_cases filling : count < enc.maxCodingWindowSize
  · rw [if_pos filling]
    exact iff_of_true rfl (.inl filling.le)
  · rw [if_neg filling, ← Nat.dvd_iff_mod_eq_zero]
    constructor
    · exact .inr
    · rintro (le | dvd)
      · rw [show count = enc.maxCodingWindowSize by omega]
      · exact dvd

/-- The table with a single coefficient 1. -/
def unitCoefs (w k : ℕ) : List Gf256 := (List.range w).map fun i => if i = k then 1 else 0

theorem unitCoefs_getD {w k i : ℕ} (lt : i < w) :
    (unitCoefs w k).getD i 0 = if i = k then 1 else 0 := by
  rw [unitCoefs, List.getD_eq_getElem?_getD, List.getElem?_map, List.getElem?_range lt]
  rfl

theorem zeroVector_getD (i : ℕ) : (Vector.replicate n (0 : Gf256)).toList.getD i 0 = 0 := by
  rw [Vector.toList_replicate, List.getD_eq_getElem?_getD, List.getElem?_replicate]
  split <;> rfl

/-- Leaving out the first coefficients is only right for symbols without data. -/
theorem repairData_drop_iff {w nb left first : ℕ} (nb_le : nb ≤ w) (left_le : left ≤ nb) :
    (∀ tab : List Gf256, tab.length = w →
      repairData ((tab.take nb).drop left) src first = repairData (tab.take nb) src first) ↔
      left = 0 ∨ ∀ k < nb, src (first + k) = Vector.replicate n 0 := by
  constructor
  · intro same
    by_cases at_zero : left = 0
    · exact .inl at_zero
    refine .inr fun k => ?_
    induction k using Nat.strong_induction_on with
    | _ k ih =>
      intro lt
      have length : (unitCoefs w k).length = w := by
        rw [unitCoefs, List.length_map, List.length_range]
      have byte : ∀ i, (src (first + k)).toList.getD i 0 = 0 := by
        intro i
        have shifted :
            (repairData (((unitCoefs w k).take nb).drop left) src first).getD i 0 = 0 := by
          rw [repairData_window_getD (by omega)]
          refine Finset.sum_eq_zero fun j mem => ?_
          have inside := Finset.mem_range.mp mem
          rw [unitCoefs_getD (by omega)]
          by_cases moved : left + j = k
          · -- The symbol that takes the coefficient of `k` has no data.
            rw [ih j (by omega) (by omega), zeroVector_getD, mul_zero]
          · rw [if_neg moved, zero_mul]
        have plain : (repairData ((unitCoefs w k).take nb) src first).getD i 0 =
            (src (first + k)).toList.getD i 0 := by
          rw [← List.drop_zero (l := (unitCoefs w k).take nb), repairData_window_getD (by omega),
            Finset.sum_eq_single k]
          · rw [Nat.zero_add, unitCoefs_getD (by omega), if_pos rfl, one_mul]
          · intro j mem other
            have inside := Finset.mem_range.mp mem
            rw [Nat.zero_add, unitCoefs_getD (by omega), if_neg other, zero_mul]
          · intro out
            exact absurd (Finset.mem_range.mpr (by omega)) out
        rw [← plain, ← same (unitCoefs w k) length, shifted]
      refine Vector.toList_inj.mp (eq_of_getD (by simp) fun i => ?_)
      rw [byte, zeroVector_getD]
  · rintro (rfl | zero) tab length
    · rw [List.drop_zero]
    · refine eq_of_getD (by rw [length_repairData, length_repairData]) fun i => ?_
      have byte : ∀ k < nb, (src (first + k)).toList.getD i 0 = 0 := by
        intro k lt
        rw [zero k lt, zeroVector_getD]
      rw [repairData_window_getD (by omega), ← List.drop_zero (l := tab.take nb),
        repairData_window_getD (by omega), Finset.sum_eq_zero, Finset.sum_eq_zero]
      · intro k mem
        rw [byte k (by have := Finset.mem_range.mp mem; omega), mul_zero]
      · intro k mem
        rw [byte k (by have := Finset.mem_range.mp mem; omega), mul_zero]

end Header

/-! ### Repair symbols of a run -/

/-- In every run, the repair symbol is the combination of the reported window for
every coefficient table, exactly when the window has not slid, or has slid back to
slot 0, or its symbols carry no data. -/
theorem buildRepairSymbol_iff_of_run {n w : ℕ} {src : ℕ → Vector Gf256 n} {enc : Encoder}
    {calls : List EncoderCall} {removed : List ℕ} (pos : 0 < w) (lt : w < 4294967296)
    (run : EncoderRun src w calls enc removed) :
    (∀ tab : List Gf256, tab.length = w →
      swifRlcBuildRepairSymbol { enc with ccTab := tab } =
        .ok (repairData (tab.take (swifRlcEncoderGetCodingWindowInformation enc).2.2) src
          (swifRlcEncoderGetCodingWindowInformation enc).1)) ↔
      addedSymbols calls ≤ w ∨ w ∣ addedSymbols calls ∨
        ∀ k < (swifRlcEncoderGetCodingWindowInformation enc).2.2,
          src ((swifRlcEncoderGetCodingWindowInformation enc).1 + k) = Vector.replicate n 0 := by
  obtain ⟨rfl, start, win⟩ := window_of_run pos lt run
  have nb := win.ewSsNb
  have built : ∀ tab : List Gf256, tab.length = enc.maxCodingWindowSize →
      swifRlcBuildRepairSymbol { enc with ccTab := tab } =
        .ok (repairData ((tab.take enc.ewSsNb).drop enc.ewLeft) src
          (start + (addedSymbols calls - enc.ewSsNb))) :=
    fun tab length => swifRlcBuildRepairSymbol_spec (win.setCcTab length)
  rw [Window.information_nb, ← or_assoc, ← win.ewLeft_eq_zero_iff]
  rcases Nat.eq_zero_or_pos (addedSymbols calls) with none | some_symbol
  · have empty : enc.ewSsNb = 0 := by omega
    refine iff_of_true (fun tab length => ?_) (.inr fun k lt => by omega)
    rw [built tab length, empty, List.take_zero, List.drop_nil, repairData_nil, repairData_nil]
  · have nb_le : enc.ewSsNb ≤ enc.maxCodingWindowSize := by omega
    rw [win.information_first some_symbol, ← repairData_drop_iff nb_le win.ewLeft_le]
    refine forall₂_congr fun tab length => ?_
    rw [built tab length]
    exact ⟨fun eq => Except.ok.inj eq, congrArg _⟩

theorem buildRepairSymbol_iff_two_symbols :
    ∃ enc removed,
      EncoderRun (fun id => (#v[ofNat (id + 1)] : Vector Gf256 1)) 2
        [.addSourceSymbolToCodingWindow 0, .addSourceSymbolToCodingWindow 1] enc removed ∧
      ∀ tab : List Gf256, tab.length = 2 →
        swifRlcBuildRepairSymbol { enc with ccTab := tab } =
          .ok (repairData tab (fun id => (#v[ofNat (id + 1)] : Vector Gf256 1)) 0) := by
  obtain ⟨enc, removed, steps, window⟩ := exists_steps_of_map
    (show (checkedRun (encoderStep fun id => (#v[ofNat (id + 1)] : Vector Gf256 1))
      (fun enc call _ => call.Accepted enc) (swifRlcEncoderCreate 1 2)
      [.addSourceSymbolToCodingWindow 0, .addSourceSymbolToCodingWindow 1]).map (fun r =>
        swifRlcEncoderGetCodingWindowInformation r.1) = some (0, 1, 2) by decide +kernel)
  refine ⟨enc, removed, steps, fun tab length => ?_⟩
  have built := (buildRepairSymbol_iff_of_run (by decide) (by decide) steps).mpr
    (.inl (by decide)) tab length
  rw [window] at built
  rw [built, List.take_of_length_le length.le]

/-- After the third symbol of a window of two, the coefficient of symbol 1 is not used:
the table [1, 0] should give the data of symbol 1 and gives zero. -/
theorem repairSymbol_wrong_after_slide :
    ¬ ∀ (n w : ℕ) (src : ℕ → Vector Gf256 n) (enc : Encoder) (calls : List EncoderCall)
        (removed : List ℕ), 0 < w → w < 4294967296 → EncoderRun src w calls enc removed →
      swifRlcBuildRepairSymbol enc =
        .ok (repairData (enc.ccTab.take (swifRlcEncoderGetCodingWindowInformation enc).2.2) src
          (swifRlcEncoderGetCodingWindowInformation enc).1) := by
  intro right
  obtain ⟨enc, removed, steps, wrong⟩ := exists_steps_of_map
    (show (checkedRun (encoderStep fun id => (#v[ofNat (id + 1)] : Vector Gf256 1))
      (fun enc call _ => call.Accepted enc) (swifRlcEncoderCreate 1 2)
      [.addSourceSymbolToCodingWindow 0, .addSourceSymbolToCodingWindow 1,
        .addSourceSymbolToCodingWindow 2, .setCodingCoefsTab [1, 0] 2]).map (fun result =>
          decide (swifRlcBuildRepairSymbol result.1 =
            .ok (repairData
              (result.1.ccTab.take (swifRlcEncoderGetCodingWindowInformation result.1).2.2)
              (fun id => (#v[ofNat (id + 1)] : Vector Gf256 1))
              (swifRlcEncoderGetCodingWindowInformation result.1).1))) = some false
      by decide +kernel)
  exact of_decide_eq_false wrong
    (right 1 2 _ enc _ removed (by decide) (by decide) steps)

end SwifCodec
