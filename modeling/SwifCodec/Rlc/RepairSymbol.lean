import SwifCodec.Rlc.EncoderWindow
import SwifCodec.FullSymbol.Creation

/-!
The repair symbols of an encoder.

`Window` is the ring of a run whose symbols carry the data of a source assignment.
`swif_rlc_build_repair_symbol` starts at slot `ewLeft` instead of following the window
around the ring, so it misses `ewLeft` symbols and shifts the coefficients of the
others.
-/

namespace SwifCodec

open Library

/-! ### The window -/

/-- The symbols with consecutive identifiers from `start` and the data `src` gives them. -/
def windowSymbols {n : ℕ} (src : ℕ → Vector Gf256 n) (start count : ℕ) : List SourceSymbol :=
  (List.range count).map fun j => ⟨(src (start + j)).toList, start + j⟩

/-- The encoder after `count` accepted source symbols, with consecutive identifiers
from `start` and the data `src` gives them: its ring, and the sizes of its symbols and of its
table of coefficients. -/
structure Window {n : ℕ} (src : ℕ → Vector Gf256 n) (enc : Encoder) (start count : ℕ) : Prop where
  ring : Ring enc (windowSymbols src start count)
  symbolSize : enc.symbolSize = n
  ccTab : enc.ccTab.length = enc.maxCodingWindowSize
  below : start + count ≤ invalidEsi

section Window

variable {n : ℕ} {src : ℕ → Vector Gf256 n} {enc : Encoder} {start count esi : ℕ}

theorem getElem?_windowSymbols {j : ℕ} (inside : j < count) :
    (windowSymbols src start count)[j]? = some ⟨(src (start + j)).toList, start + j⟩ := by
  rw [windowSymbols, List.getElem?_map, List.getElem?_range inside, Option.map_some]

@[simp] theorem length_windowSymbols : (windowSymbols src start count).length = count := by
  rw [windowSymbols, List.length_map, List.length_range]

theorem swifRlcEncoderCreate_window {w : ℕ} (pos : 0 < w) (lt : w < 4294967296) :
    Window src (swifRlcEncoderCreate n w) 0 0 where
  ring := swifRlcEncoderCreate_ring pos lt false
  symbolSize := rfl
  ccTab := List.length_replicate
  below := Nat.zero_le _

theorem Window.setCcTab (win : Window src enc start count) {tab : List Gf256}
    (length : tab.length = enc.maxCodingWindowSize) :
    Window src { enc with ccTab := tab } start count :=
  ⟨win.ring.setCcTab tab, win.symbolSize, length, win.below⟩

theorem Window.setCallback (win : Window src enc start count) (callback : Bool) :
    Window src (swifRlcEncoderSetCallbackFunctions enc callback) start count :=
  ⟨win.ring.setCallback callback, win.symbolSize, win.ccTab, win.below⟩

theorem Window.size_pos (win : Window src enc start count) : 0 < enc.maxCodingWindowSize :=
  win.ring.size_pos

theorem Window.ewSsNb (win : Window src enc start count) :
    enc.ewSsNb = min count enc.maxCodingWindowSize := by
  rw [win.ring.ewSsNb, length_windowSymbols]

theorem Window.ewLeft (win : Window src enc start count) :
    enc.ewLeft =
      if count < enc.maxCodingWindowSize then 0 else count % enc.maxCodingWindowSize := by
  rw [win.ring.ewLeft, length_windowSymbols, SlidingWindow.leftSlot]

theorem Window.ewEsiRight (win : Window src enc start count) :
    enc.ewEsiRight = if count = 0 then invalidEsi else start + count - 1 := by
  rw [win.ring.ewEsiRight, List.getLast?_eq_getElem?, length_windowSymbols]
  split
  case isTrue empty =>
    subst empty
    rfl
  case isFalse some_symbol =>
    rw [getElem?_windowSymbols (by omega), Option.map_some, Option.getD_some]
    show start + (count - 1) = start + count - 1
    omega

theorem Window.slot (win : Window src enc start count) (j : ℕ)
    (near : count ≤ j + enc.maxCodingWindowSize) (inside : j < count) :
    enc.ewTab[j % enc.maxCodingWindowSize]? = some (some (src (start + j)).toList) := by
  refine win.ring.holds j _ ?_ ?_
  · rw [List.length_map, length_windowSymbols]
    exact near
  · rw [List.getElem?_map, getElem?_windowSymbols inside, Option.map_some]

/-- The first identifier of a window that takes the symbol `esi`. -/
def nextStart (start count esi : ℕ) : ℕ := if count = 0 then esi else start

/-- An accepted identifier continues the window. -/
theorem Window.esi_eq (win : Window src enc start count) (accepts : enc.Accepts esi) :
    esi = nextStart start count esi + count := by
  have size : invalidEsi = 4294967295 := rfl
  have below := win.below
  unfold nextStart
  by_cases empty : count = 0
  · rw [if_pos empty, empty, Nat.add_zero]
  · rw [if_neg empty]
    have right := win.ewEsiRight
    rw [if_neg empty] at right
    rcases accepts with none | next
    · omega
    · rw [next, right, add32_of_lt (by omega)] at *
      omega

/-- The next symbol of a window. -/
theorem windowSymbols_succ (next : esi = nextStart start count esi + count) :
    windowSymbols src start count ++ [⟨(src esi).toList, esi⟩] =
      windowSymbols src (nextStart start count esi) (count + 1) := by
  unfold windowSymbols
  rw [List.range_succ, List.map_append, List.map_singleton, ← next]
  by_cases empty : count = 0
  · subst empty
    rfl
  · rw [nextStart, if_neg empty]

/-- An accepted source symbol takes the next slot of the ring. -/
theorem swifRlcEncoderAddSourceSymbol_window (win : Window src enc start count)
    (accepts : enc.Accepts esi) (valid : esi < invalidEsi) :
    ∃ enc' removed,
      swifRlcEncoderAddSourceSymbolToCodingWindow enc (src esi).toList esi =
        .ok (enc', .ok, removed) ∧
      Window src enc' (nextStart start count esi) (count + 1) ∧
      enc'.maxCodingWindowSize = enc.maxCodingWindowSize ∧ enc'.ccTab = enc.ccTab := by
  have next := win.esi_eq accepts
  obtain ⟨enc', add_eq, ring⟩ := swifRlcEncoderAddSourceSymbol_accepted
    (s := ⟨(src esi).toList, esi⟩) win.ring accepts
  rw [windowSymbols_succ next] at ring
  refine ⟨enc', _, add_eq, ?_⟩
  rcases swifRlcEncoderAddSourceSymbol_of_ok add_eq with
    ⟨refused, -⟩ | ⟨-, -, -, tab, left, right, rfl⟩
  · exact absurd accepts refused
  · exact ⟨⟨ring, win.symbolSize, win.ccTab, by omega⟩, rfl, rfl⟩

/-! ### Repair symbols -/

/-- `symbol_add_scaled` on blocks of the symbol size. -/
theorem symbolAddScaled_spec {block symbol : List Gf256} (c : Gf256) (length : block.length = n)
    (length' : symbol.length = n) :
    ∃ sum, symbolAddScaled block c symbol n = some sum ∧ sum.length = n ∧
      ∀ i, sum.getD i 0 = block.getD i 0 + c * symbol.getD i 0 := by
  subst length
  have zip : (List.zipWith (fun a b => gf256Add a (gf256Mul c b)) block symbol).length =
      block.length := by
    rw [List.length_zipWith, length', Nat.min_self]
  refine ⟨_, ?_, zip, fun i => ?_⟩
  · unfold symbolAddScaled
    rw [Block.load_all, Option.bind_some, ← length', Block.load_all, Option.bind_some,
      Block.store_all zip]
  · by_cases inside : i < block.length
    · simp [List.getD_eq_getElem?_getD, inside, length']
    · rw [getD_of_length_le (by omega), getD_of_length_le (by omega),
        getD_of_length_le (by omega), mul_zero, add_zero]

/-- The bytes made with the coefficients `left .. nb - 1` of a table. -/
theorem repairData_window_getD {tab : List Gf256} {nb : ℕ} (le : nb ≤ tab.length)
    (left first i : ℕ) :
    (repairData ((tab.take nb).drop left) src first).getD i 0 =
      ∑ k ∈ Finset.range (nb - left),
        tab.getD (left + k) 0 * (src (first + k)).toList.getD i 0 := by
  have cells : ((tab.take nb).drop left).length = nb - left := by
    rw [List.length_drop, List.length_take]
    omega
  rw [repairData_getD, cells]
  refine Finset.sum_congr rfl fun k mem => ?_
  have lt := Finset.mem_range.mp mem
  rw [List.getD_eq_getElem?_getD (l := (tab.take nb).drop left), List.getElem?_drop,
    List.getElem?_take, if_pos (by omega), ← List.getD_eq_getElem?_getD]

/-- The slots from `ewLeft` hold the first symbols of the window. -/
theorem Window.slot_left (win : Window src enc start count) {k : ℕ}
    (lt : enc.ewLeft + k < enc.ewSsNb) :
    enc.ewTab[enc.ewLeft + k]? = some (some (src (start + (count - enc.ewSsNb) + k)).toList) := by
  have nb := win.ewSsNb
  have left := win.ewLeft
  have slot := win.slot (count - enc.ewSsNb + k) (by omega) (by omega)
  rw [← add_assoc] at slot
  have place : (count - enc.ewSsNb + k) % enc.maxCodingWindowSize = enc.ewLeft + k := by
    by_cases filling : count < enc.maxCodingWindowSize
    · rw [if_pos filling] at left
      rw [Nat.mod_eq_of_lt (by omega)]
      omega
    · rw [if_neg filling] at left
      have parts := Nat.mod_add_div count enc.maxCodingWindowSize
      have turns : 0 < count / enc.maxCodingWindowSize :=
        Nat.div_pos (by omega) win.size_pos
      obtain ⟨turn, turns_eq⟩ := Nat.exists_eq_add_of_lt turns
      rw [turns_eq, Nat.mul_add, Nat.mul_one] at parts
      have position : count - enc.ewSsNb + k =
          enc.ewLeft + k + enc.maxCodingWindowSize * (0 + turn) := by omega
      rw [position, Nat.add_mul_mod_self_left, Nat.mod_eq_of_lt (by omega)]
  rwa [place] at slot

/-- The rounds of the loop of `swif_rlc_build_repair_symbol`. -/
theorem buildRepairLoop_spec (win : Window src enc start count) (m : ℕ)
    (le : enc.ewLeft + m ≤ enc.ewSsNb) :
    ∃ buf, (List.range' enc.ewLeft m).foldlM (buildRepairStep enc)
        (List.replicate enc.symbolSize 0) = .ok buf ∧ buf.length = n ∧
      ∀ i, buf.getD i 0 = ∑ k ∈ Finset.range m, enc.ccTab.getD (enc.ewLeft + k) 0 *
        (src (start + (count - enc.ewSsNb) + k)).toList.getD i 0 := by
  induction m with
  | zero =>
      refine ⟨_, rfl, ?_, fun i => ?_⟩
      · rw [List.length_replicate, win.symbolSize]
      · rw [Finset.sum_range_zero, List.getD_eq_getElem?_getD, List.getElem?_replicate]
        split <;> rfl
  | succ m ih =>
      obtain ⟨buf, loop_eq, length, byte⟩ := ih (by omega)
      have nb := win.ewSsNb
      have index_lt : enc.ewLeft + m < enc.maxCodingWindowSize := by omega
      have index : mod32 (enc.ewLeft + m) enc.maxCodingWindowSize = .ok (enc.ewLeft + m) := by
        rw [mod32_of_pos win.size_pos, Nat.mod_eq_of_lt index_lt]
      have coef : enc.ccTab[enc.ewLeft + m]? = some (enc.ccTab.getD (enc.ewLeft + m) 0) := by
        have inside : enc.ewLeft + m < enc.ccTab.length := by rwa [win.ccTab]
        rw [List.getD_eq_getElem?_getD, List.getElem?_eq_getElem inside, Option.getD_some]
      have data_length : (src (start + (count - enc.ewSsNb) + m)).toList.length = n :=
        Vector.length_toList
      obtain ⟨sum, add_eq, length', byte'⟩ :=
        symbolAddScaled_spec (enc.ccTab.getD (enc.ewLeft + m) 0) length data_length
      refine ⟨sum, ?_, length', fun i => ?_⟩
      · rw [List.range'_concat, List.foldlM_append, loop_eq, ok_bind, List.foldlM_cons,
          Nat.one_mul]
        unfold buildRepairStep
        rw [index, ok_bind, coef, access_some, ok_bind, win.slot_left (by omega), access_some,
          ok_bind, win.symbolSize]
        dsimp only
        rw [add_eq, access_some, ok_bind]
        rfl
      · rw [byte', byte, Finset.sum_range_succ]

theorem Window.ewLeft_le (win : Window src enc start count) : enc.ewLeft ≤ enc.ewSsNb := by
  have nb := win.ewSsNb
  have left := win.ewLeft
  have wraps := Nat.mod_lt count win.size_pos
  by_cases filling : count < enc.maxCodingWindowSize
  · rw [if_pos filling] at left
    omega
  · rw [if_neg filling] at left
    omega

/-- What `swif_rlc_build_repair_symbol` builds: the coefficients from `ewLeft` on,
applied to the first symbols of the window. -/
theorem swifRlcBuildRepairSymbol_spec (win : Window src enc start count) :
    swifRlcBuildRepairSymbol enc = .ok (repairData ((enc.ccTab.take enc.ewSsNb).drop enc.ewLeft)
      src (start + (count - enc.ewSsNb))) := by
  have nb := win.ewSsNb
  have ccTab := win.ccTab
  have left_le := win.ewLeft_le
  obtain ⟨buf, loop_eq, length, byte⟩ :=
    buildRepairLoop_spec win (enc.ewSsNb - enc.ewLeft) (by omega)
  unfold swifRlcBuildRepairSymbol
  rw [loop_eq]
  refine congrArg _ (eq_of_getD (length.trans (length_repairData _ _).symm) fun i => ?_)
  rw [byte, repairData_window_getD (by omega)]

end Window

end SwifCodec
