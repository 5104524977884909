import SwifCodec.Library.Heap
import SwifCodec.Rlc.EncoderSafety

/-!
The RLC encoder in memory.

The window keeps the pointers that the application passes, and a repair symbol is computed from
what the buffers hold at that moment. So a buffer is lent to the encoder while a slot of the
window points to it. `encoderCallAt_sim` says that the encoder does what the encoder of the other
modules does, which copies the buffers, as long as the application leaves the lent buffers alone.

The control block and its two tables are not followed: nothing else points to them. Memory
allocation always succeeds.
-/

namespace SwifCodec

open Library SlidingWindow

/-- The buffers of an application in memory. -/
abbrev Buffers := Heap (List Gf256)

/-- A function of the encoder, on the buffers. -/
abbrev BufferExec := HeapExec (List Gf256) Fault

/-- `swif_encoder_rlc_cb_t` in memory. -/
structure EncoderAt where
  maxCodingWindowSize : Nat
  symbolSize : Nat
  ccTab : List Gf256
  ewTab : List (Option ℕ)
  ewLeft : Nat
  ewRight : Nat
  ewEsiRight : Nat
  ewSsNb : Nat
  removedCallback : Bool
  deriving DecidableEq, Repr

namespace EncoderAt

/-- The encoder of the other modules, with the contents `f p` for the buffer `p`. -/
@[simps] def map (f : ℕ → List Gf256) (enc : EncoderAt) : Encoder where
  maxCodingWindowSize := enc.maxCodingWindowSize
  symbolSize := enc.symbolSize
  ccTab := enc.ccTab
  ewTab := enc.ewTab.map (Option.map f)
  ewLeft := enc.ewLeft
  ewRight := enc.ewRight
  ewEsiRight := enc.ewEsiRight
  ewSsNb := enc.ewSsNb
  removedCallback := enc.removedCallback

/-- The encoder with what its buffers hold. -/
def view (enc : EncoderAt) (h : Buffers) : Encoder := enc.map fun p => (h.read p).getD []

/-- A slot of the window points to the buffer. -/
def Lent (enc : EncoderAt) (buf : ℕ) : Prop := some buf ∈ enc.ewTab

instance (enc : EncoderAt) (buf : ℕ) : Decidable (enc.Lent buf) :=
  inferInstanceAs (Decidable (_ ∈ _))

end EncoderAt

/-- `swif_rlc_encoder_create`, with the removal callback set or not. -/
def swifRlcEncoderCreateAt (symbolSize maxCodingWindowSize : Nat) (removedCallback : Bool) :
    EncoderAt where
  maxCodingWindowSize := maxCodingWindowSize
  symbolSize := symbolSize
  ccTab := List.replicate maxCodingWindowSize 0
  ewTab := List.replicate maxCodingWindowSize none
  ewLeft := 0
  ewRight := 0
  ewEsiRight := invalidEsi
  ewSsNb := 0
  removedCallback := removedCallback

/-- `swif_rlc_encoder_add_source_symbol_to_coding_window`: the pointer is stored, the buffer is
not read. -/
def swifRlcEncoderAddSourceSymbolToCodingWindowAt (enc : EncoderAt) (newSrcSymbolBuf : ℕ)
    (newSrcSymbolEsi : Nat) : Exec (EncoderAt × SwifStatus × List Nat) := do
  if enc.ewEsiRight ≠ invalidEsi ∧ newSrcSymbolEsi ≠ add32 enc.ewEsiRight 1 then
    return (enc, .error, [])
  if enc.ewSsNb = enc.maxCodingWindowSize then
    let removed :=
      if enc.removedCallback then [sub32 (add32 enc.ewEsiRight 1) enc.ewSsNb] else []
    let ewTab ← access .ewTab (Block.store enc.ewTab enc.ewLeft [some newSrcSymbolBuf])
    let ewLeft ← mod32 (add32 enc.ewLeft 1) enc.maxCodingWindowSize
    return ({ enc with ewTab, ewRight := enc.ewLeft, ewLeft, ewEsiRight := newSrcSymbolEsi }, .ok,
      removed)
  else if enc.ewSsNb = 0 then
    cAssert (enc.ewLeft = enc.ewRight)
    let ewTab ← access .ewTab (Block.store enc.ewTab enc.ewRight [some newSrcSymbolBuf])
    return ({ enc with ewTab, ewEsiRight := newSrcSymbolEsi,
                       ewSsNb := add32 enc.ewSsNb 1 }, .ok, [])
  else
    let ewRight ← mod32 (add32 enc.ewRight 1) enc.maxCodingWindowSize
    let ewTab ← access .ewTab (Block.store enc.ewTab ewRight [some newSrcSymbolBuf])
    return ({ enc with ewRight, ewTab, ewEsiRight := newSrcSymbolEsi,
                       ewSsNb := add32 enc.ewSsNb 1 }, .ok, [])

/-- One round of the loop of `swif_rlc_build_repair_symbol`. Symbols without bytes are not
read. -/
def buildRepairStepAt (enc : EncoderAt) (newBuf i : ℕ) : BufferExec ℕ := do
  let idx ← HeapExec.lift (mod32 i enc.maxCodingWindowSize)
  let coef ← HeapExec.lift (access .ccTab enc.ccTab[idx]?)
  let slot ← HeapExec.lift (access .ewTab enc.ewTab[idx]?)
  if enc.symbolSize = 0 then return newBuf
  match slot with
  | none => HeapExec.lift (.error .nullDereference)
  | some symbol =>
      let data1 ← HeapExec.read newBuf
      let data2 ← HeapExec.read symbol
      let data ← HeapExec.lift
        (access .symbolBuf (symbolAddScaled data1 coef data2 enc.symbolSize))
      HeapExec.write newBuf data
      return newBuf

/-- The buffer that a repair symbol is written to: a new one, or the one that the application
passes, cleared. -/
def clearedBuf (enc : EncoderAt) : (newBuf : Option ℕ) → BufferExec ℕ
  | none => HeapExec.alloc (List.replicate enc.symbolSize 0)
  | some newBuf => do
      let data ← HeapExec.read newBuf
      let data ← HeapExec.lift (access .symbolBuf (Block.fill data 0 enc.symbolSize 0))
      HeapExec.write newBuf data
      return newBuf

/-- `swif_rlc_build_repair_symbol`, with the address of the buffer. -/
def swifRlcBuildRepairSymbolAt (enc : EncoderAt) (newBuf : Option ℕ) : BufferExec ℕ := do
  let newBuf ← clearedBuf enc newBuf
  (List.range' enc.ewLeft (enc.ewSsNb - enc.ewLeft)).foldlM (buildRepairStepAt enc) newBuf

/-! ### Adding a source symbol -/

section Add

variable {enc enc' : EncoderAt} {buf esi : ℕ} {status : SwifStatus} {removed : List ℕ}
  (f : ℕ → List Gf256)

/-- The window moves pointers, whatever they point to. -/
theorem swifRlcEncoderAddSourceSymbol_map (enc : EncoderAt) (buf esi : ℕ) :
    swifRlcEncoderAddSourceSymbolToCodingWindow (enc.map f) (f buf) esi =
      (swifRlcEncoderAddSourceSymbolToCodingWindowAt enc buf esi).map
        fun r => (r.1.map f, r.2.1, r.2.2) := by
  have stored : ∀ k, access .ewTab (Block.store (enc.map f).ewTab k [some (f buf)]) =
      (access .ewTab (Block.store enc.ewTab k [some buf])).map (List.map (Option.map f)) :=
    fun k => by
      rw [← access_map, ← Block.store_map]
      rfl
  unfold swifRlcEncoderAddSourceSymbolToCodingWindow swifRlcEncoderAddSourceSymbolToCodingWindowAt
  simp only [stored, EncoderAt.map_ewEsiRight, EncoderAt.map_ewSsNb,
    EncoderAt.map_maxCodingWindowSize, EncoderAt.map_ewLeft, EncoderAt.map_ewRight]
  by_cases refused : enc.ewEsiRight ≠ invalidEsi ∧ esi ≠ add32 enc.ewEsiRight 1
  · rw [if_pos refused, if_pos refused]
    rfl
  rw [if_neg refused, if_neg refused]
  by_cases full : enc.ewSsNb = enc.maxCodingWindowSize
  · rw [if_pos full, if_pos full]
    cases access .ewTab (Block.store enc.ewTab enc.ewLeft [some buf]) with
    | error e => rfl
    | ok tab => cases mod32 (add32 enc.ewLeft 1) enc.maxCodingWindowSize <;> rfl
  rw [if_neg full, if_neg full]
  by_cases empty : enc.ewSsNb = 0
  · rw [if_pos empty, if_pos empty]
    cases cAssert (enc.ewLeft = enc.ewRight) with
    | error e => rfl
    | ok _ => cases access .ewTab (Block.store enc.ewTab enc.ewRight [some buf]) <;> rfl
  · rw [if_neg empty, if_neg empty]
    cases mod32 (add32 enc.ewRight 1) enc.maxCodingWindowSize with
    | error e => rfl
    | ok k =>
        dsimp only [ok_bind]
        cases access .ewTab (Block.store enc.ewTab k [some buf]) <;> rfl

/-- A call that returns is refused and changes nothing, or stores the pointer in one slot. -/
theorem swifRlcEncoderAddSourceSymbolAt_of_ok
    (ok : swifRlcEncoderAddSourceSymbolToCodingWindowAt enc buf esi =
      .ok (enc', status, removed)) :
    (enc' = enc ∧ status = .error) ∨ (status = .ok ∧ ∃ k < enc.ewTab.length,
      enc'.ewTab = enc.ewTab.set k (some buf) ∧
      ((enc.ewSsNb = enc.maxCodingWindowSize ∧ enc'.ewSsNb = enc.ewSsNb) ∨
        (enc.ewSsNb = 0 ∧ k = enc.ewRight ∧ enc'.ewSsNb = add32 enc.ewSsNb 1) ∨
        (enc.ewSsNb ≠ enc.maxCodingWindowSize ∧ enc.ewSsNb ≠ 0 ∧
          mod32 (add32 enc.ewRight 1) enc.maxCodingWindowSize = .ok k ∧
          enc'.ewSsNb = add32 enc.ewSsNb 1))) := by
  have written : ∀ {k : ℕ} {tab : List (Option ℕ)},
      access .ewTab (Block.store enc.ewTab k [some buf]) = .ok tab →
        k < enc.ewTab.length ∧ tab = enc.ewTab.set k (some buf) := by
    intro k tab eq
    have store_eq := access_eq_ok.mp eq
    have inside : k < enc.ewTab.length := by
      by_contra outside
      rw [Block.store_eq_none_iff.mpr (by rw [List.length_singleton]; omega)] at store_eq
      cases store_eq
    rw [Block.store_singleton inside] at store_eq
    exact ⟨inside, (Option.some.inj store_eq).symm⟩
  unfold swifRlcEncoderAddSourceSymbolToCodingWindowAt at ok
  split at ok
  case isTrue =>
    cases ok
    exact .inl ⟨rfl, rfl⟩
  case isFalse =>
    right
    split at ok
    case isTrue full =>
      obtain ⟨tab, tab_eq, ok⟩ := bind_eq_ok.mp ok
      obtain ⟨left, -, result⟩ := bind_eq_ok.mp ok
      cases result
      obtain ⟨inside, rfl⟩ := written tab_eq
      exact ⟨rfl, _, inside, rfl, .inl ⟨full, rfl⟩⟩
    case isFalse room =>
      split at ok
      case isTrue empty =>
        obtain ⟨-, -, ok⟩ := bind_eq_ok.mp ok
        obtain ⟨tab, tab_eq, result⟩ := bind_eq_ok.mp ok
        cases result
        obtain ⟨inside, rfl⟩ := written tab_eq
        exact ⟨rfl, _, inside, rfl, .inr (.inl ⟨empty, rfl, rfl⟩)⟩
      case isFalse some_symbol =>
        obtain ⟨right, right_eq, ok⟩ := bind_eq_ok.mp ok
        obtain ⟨tab, tab_eq, result⟩ := bind_eq_ok.mp ok
        cases result
        obtain ⟨inside, rfl⟩ := written tab_eq
        exact ⟨rfl, _, inside, rfl, .inr (.inr ⟨room, some_symbol, right_eq, rfl⟩)⟩

/-- No other buffer is lent by a call that adds `buf`. -/
theorem swifRlcEncoderAddSourceSymbolAt_lent
    (ok : swifRlcEncoderAddSourceSymbolToCodingWindowAt enc buf esi = .ok (enc', status, removed))
    {p : ℕ} (lent : enc'.Lent p) : enc.Lent p ∨ p = buf := by
  rcases swifRlcEncoderAddSourceSymbolAt_of_ok ok with ⟨rfl, -⟩ | ⟨-, k, -, tab_eq, -⟩
  · exact .inl lent
  · unfold EncoderAt.Lent at lent ⊢
    rw [tab_eq] at lent
    rcases List.mem_or_eq_of_mem_set lent with old | new
    · exact .inl old
    · exact .inr (Option.some.inj new)

end Add

/-! ### Building a repair symbol -/

section Build

variable {enc : EncoderAt} {h h' : Buffers} {p : ℕ} {n : ℕ} {rest newBuf : List Gf256}

/-- The memory while a repair symbol is built in the block `p`, since `h`. -/
structure Building (h : Buffers) (p n : ℕ) (rest : List Gf256) (h' : Buffers)
    (newBuf : List Gf256) : Prop where
  read : h'.read p = some (newBuf ++ rest)
  length : newBuf.length = n
  others : ∀ q, q ≠ p → h'.read q = h.read q

/-- `symbol_add_scaled` on the first bytes of a longer buffer. -/
theorem symbolAddScaled_append (length : newBuf.length = n) (rest : List Gf256) (coef : Gf256)
    (symbol : List Gf256) :
    symbolAddScaled (newBuf ++ rest) coef symbol n =
      (symbolAddScaled newBuf coef symbol n).map (· ++ rest) := by
  have load_eq : Block.load (newBuf ++ rest) 0 n = some newBuf := by
    rw [Block.load_eq_some (by rw [List.length_append]; omega), List.drop_zero, ← length,
      List.take_left]
  have load_eq' : Block.load newBuf 0 n = some newBuf := by
    rw [← length]
    exact Block.load_all newBuf
  unfold symbolAddScaled
  rw [load_eq, load_eq', Option.bind_some, Option.bind_some]
  cases load : Block.load symbol 0 n with
  | none => rfl
  | some data2 =>
      have zip : (List.zipWith (fun a b => gf256Add a (gf256Mul coef b)) newBuf data2).length =
          newBuf.length := by
        rw [List.length_zipWith, length, Block.length_of_load load, Nat.min_self]
      rw [Option.bind_some, Option.bind_some, Block.store_all zip,
        Block.store_eq_some (by rw [List.length_append]; omega), List.take_zero, List.nil_append,
        Nat.zero_add, zip, List.drop_left]
      rfl

/-- A symbol without bytes is left as it is. -/
theorem symbolAddScaled_zero (block symbol : List Gf256) (coef : Gf256) :
    symbolAddScaled block coef symbol 0 = some block := by
  simp [symbolAddScaled, Block.load, Block.store]

theorem length_symbolAddScaled {block sum symbol : List Gf256} {coef : Gf256}
    (added : symbolAddScaled block coef symbol n = some sum) : sum.length = block.length := by
  obtain ⟨data1, -, added⟩ := Option.bind_eq_some_iff.mp added
  obtain ⟨data2, -, store_eq⟩ := Option.bind_eq_some_iff.mp added
  exact Block.length_of_store store_eq

theorem Building.write (building : Building h p n rest h' newBuf) {h'' : Buffers}
    {sum : List Gf256} (reads : ∀ q, h''.read q = if q = p then some (sum ++ rest) else h'.read q)
    (length : sum.length = n) : Building h p n rest h'' sum where
  read := by rw [reads, if_pos rfl]
  length := length
  others q other := by rw [reads, if_neg other, building.others q other]

/-- A round reads lent buffers and writes the new one. -/
theorem buildRepairStepAt_sim
    (lent : ∀ q, enc.Lent q → q ≠ p ∧ (h.read q).isSome)
    (building : Building h p enc.symbolSize rest h' newBuf) (i : ℕ) :
    Simulates h' (buildRepairStepAt enc p i) (buildRepairStep (enc.view h) newBuf i)
      fun p' h'' newBuf' => p' = p ∧ Building h p enc.symbolSize rest h'' newBuf' := by
  unfold buildRepairStepAt buildRepairStep
  refine (Simulates.lift _).bind fun idx h₁ idx' _ _ same => ?_
  obtain ⟨rfl, rfl⟩ := same
  refine (Simulates.lift _).bind fun coef h₁ coef' _ _ same => ?_
  obtain ⟨rfl, rfl⟩ := same
  have slot_eq : (enc.view h).ewTab[idx']? =
      (enc.ewTab[idx']?).map (Option.map fun q => (h.read q).getD []) := List.getElem?_map
  rw [slot_eq, access_map]
  cases at_slot : access .ewTab enc.ewTab[idx']? with
  | error e => exact rfl
  | ok slot =>
      refine Simulates.step rfl (.refl h₁) ?_
      cases slot with
      | none =>
          show Simulates h₁ _
            (if enc.symbolSize = 0 then .ok newBuf else .error Fault.nullDereference) _
          by_cases zero : enc.symbolSize = 0
          · rw [if_pos zero, if_pos zero]
            exact Simulates.pure ⟨rfl, building⟩
          · rw [if_neg zero, if_neg zero]
            exact rfl
      | some q =>
          show Simulates h₁ _ (access .symbolBuf
            (symbolAddScaled newBuf coef' ((h.read q).getD []) enc.symbolSize)) _
          by_cases zero : enc.symbolSize = 0
          · have same := symbolAddScaled_zero newBuf ((h.read q).getD []) coef'
            rw [← zero] at same
            rw [if_pos zero, same]
            exact Simulates.pure ⟨rfl, building⟩
          rw [if_neg zero]
          obtain ⟨other, live⟩ := lent q (List.mem_of_getElem? (access_eq_ok.mp at_slot))
          obtain ⟨symbol, read⟩ := Option.isSome_iff_exists.mp live
          rw [read, Option.getD_some]
          refine Simulates.read building.read (Simulates.read ((building.others q other).trans read)
            ?_)
          rw [symbolAddScaled_append building.length, access_map]
          cases added : access .symbolBuf (symbolAddScaled newBuf coef' symbol enc.symbolSize) with
          | error e => exact rfl
          | ok sum =>
              have length : sum.length = enc.symbolSize := by
                rw [← building.length]
                exact length_symbolAddScaled (access_eq_ok.mp added)
              refine Simulates.step rfl (.refl h₁)
                (Simulates.write_live building.read fun h₂ _ reads => Simulates.pure ⟨rfl, ?_⟩)
              exact building.write reads length

/-- The buffer that the application passes, if it does, is its own and large enough. -/
def EncoderAt.Target (enc : EncoderAt) (h : Buffers) (newBuf : Option ℕ) : Prop :=
  ∀ p ∈ newBuf, ¬ enc.Lent p ∧ enc.symbolSize ≤ ((h.read p).getD []).length ∧ (h.read p).isSome

instance (enc : EncoderAt) (h : Buffers) (newBuf : Option ℕ) : Decidable (enc.Target h newBuf) :=
  inferInstanceAs (Decidable (∀ p ∈ _, _))

/-- What is at the address of a repair symbol. -/
structure Built (enc : EncoderAt) (h : Buffers) (newBuf : Option ℕ) (p : ℕ) (h' : Buffers)
    (symbol : List Gf256) : Prop where
  address : newBuf = some p ∨ (newBuf = none ∧ h.read p = none)
  read : ∃ rest, h'.read p = some (symbol ++ rest)
  length : symbol.length = enc.symbolSize
  others : ∀ q, q ≠ p → h'.read q = h.read q

/-- The buffer is cleared before the first symbol is added. -/
theorem clearedBuf_ok (live : ∀ q, enc.Lent q → (h.read q).isSome) {newBuf : Option ℕ}
    (target : enc.Target h newBuf) :
    ∃ p h' rest, clearedBuf enc newBuf h = .ok (p, h') ∧ h.Later h' ∧
      (newBuf = some p ∨ (newBuf = none ∧ h.read p = none)) ∧ ¬ enc.Lent p ∧
      Building h p enc.symbolSize rest h' (List.replicate enc.symbolSize 0) := by
  cases newBuf with
  | none =>
      have fresh : h.read h.blocks.length = none := by
        rw [Heap.read, List.getElem?_eq_none le_rfl]
        rfl
      have reads := h.read_alloc (a := List.replicate enc.symbolSize (0 : Gf256))
      refine ⟨_, _, [], rfl, h.later_alloc _, .inr ⟨rfl, fresh⟩, fun lent => ?_, ?_⟩
      · have used := live _ lent
        rw [fresh] at used
        cases used
      · refine ⟨?_, List.length_replicate, fun q other => ?_⟩
        · rw [List.append_nil]
          exact (reads _).trans (if_pos rfl)
        · exact (reads q).trans (if_neg other)
  | some p =>
      obtain ⟨own, large, used⟩ := target p rfl
      obtain ⟨data, read⟩ := Option.isSome_iff_exists.mp used
      rw [read, Option.getD_some] at large
      obtain ⟨cells, cells_eq⟩ : ∃ cells, cells =
          List.replicate enc.symbolSize (0 : Gf256) ++ data.drop enc.symbolSize := ⟨_, rfl⟩
      have fill_eq : Block.fill data 0 enc.symbolSize 0 = some cells := by
        rw [cells_eq, Block.fill, Block.store_eq_some (by rw [List.length_replicate]; omega),
          List.length_replicate, Nat.zero_add]
        rfl
      obtain ⟨h', write_eq⟩ := Heap.exists_write read cells
      have read_ok : (HeapExec.read p : BufferExec _) h = .ok (data, h) := by
        unfold HeapExec.read
        rw [read]
      have fill_ok : (HeapExec.lift (access .symbolBuf (Block.fill data 0 enc.symbolSize 0)) :
          BufferExec _) h = .ok (cells, h) := by
        rw [fill_eq]
        rfl
      have write_ok : (HeapExec.write p cells : BufferExec Unit) h = .ok ((), h') := by
        unfold HeapExec.write
        rw [write_eq]
      refine ⟨p, h', data.drop enc.symbolSize, ?_, Heap.later_write write_eq, .inl rfl, own, ?_,
        List.length_replicate, fun q other => ?_⟩
      · exact (HeapExec.bind_ok read_ok).trans
          ((HeapExec.bind_ok fill_ok).trans (HeapExec.bind_ok write_ok))
      · rw [Heap.read_write write_eq, if_pos rfl, cells_eq]
      · rw [Heap.read_write write_eq, if_neg other]

/-- A repair symbol is the one that the encoder of the other modules builds. -/
theorem swifRlcBuildRepairSymbolAt_sim (live : ∀ q, enc.Lent q → (h.read q).isSome)
    {newBuf : Option ℕ} (target : enc.Target h newBuf) :
    Simulates h (swifRlcBuildRepairSymbolAt enc newBuf) (swifRlcBuildRepairSymbol (enc.view h))
      fun p h' symbol => Built enc h newBuf p h' symbol := by
  obtain ⟨p, h₁, rest, ok, later, address, own, building⟩ := clearedBuf_ok live target
  unfold swifRlcBuildRepairSymbolAt swifRlcBuildRepairSymbol
  refine Simulates.step ok later ?_
  refine (Simulates.foldlM_list (I := fun p' h' newBuf =>
    p' = p ∧ Building h p enc.symbolSize rest h' newBuf) _ ⟨rfl, building⟩ ?_).mono ?_
  · rintro i p' h' newBuf ⟨rfl, building⟩
    refine buildRepairStepAt_sim (fun q lent => ⟨?_, live q lent⟩) building i
    rintro rfl
    exact own lent
  · rintro p' h' symbol - - ⟨rfl, building⟩
    exact ⟨address, ⟨rest, building.read⟩, building.length, building.others⟩

end Build

end SwifCodec
