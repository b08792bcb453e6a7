import Pcsx2.Spu2.Voice

/-!
# Plain DMA to and from the SPU2 RAM

A transfer of one core, cut into pieces. Neither AutoDMA nor a transfer of the other core is under way,
and the source buffer stays where it is.
-/

namespace Pcsx2.Spu2
open Foundation

def CYCLES_PER_WORD : Nat := 24

/-- The interrupt settings of both cores. -/
structure Irq where
  IRQEnable : Fin 2 → Bool
  IRQA : Fin 2 → Nat

/-- `DMAPtr` counts the words taken from the source, `DMARPtr` has those that were read. `Info` has the
interrupt bits of `Spdif.Info`, and `dmaIrq` is set by `spu2DMA4Irq` or `spu2DMA7Irq`. -/
structure Dma where
  ram : Ram
  ActiveTSA : Nat
  TSA : Nat
  ReadSize : Nat
  DMAICounter : Nat
  LastClock : UInt64
  IsDMARead : Bool
  DMAPtr : Nat
  DMARPtr : List UInt16
  has_to_call_irq_dma : Fin 2 → Bool
  Info : Fin 2 → Bool
  dmaIrq : Bool

/-- No transfer is under way and no interrupt is pending. -/
def Dma.idle (ram : Ram) (TSA : Nat) (LastClock : UInt64) : Dma where
  ram := ram
  ActiveTSA := 0
  TSA := TSA
  ReadSize := 0
  DMAICounter := 0
  LastClock := LastClock
  IsDMARead := false
  DMAPtr := 0
  DMARPtr := []
  has_to_call_irq_dma := fun _ => false
  Info := fun _ => false
  dmaIrq := false

/-! ## One piece -/

/-- Where a piece lies: the words up to the end of the RAM and those that wrap, the end address, how far
the pointers move and which interrupt addresses are taken as passed. -/
structure Span where
  buff1size : Nat
  buff2end : Nat
  TDA : Nat
  moved : Nat
  passes : Nat → Bool

def span (activeTSA count : Nat) : Span :=
  let buff1end := activeTSA + count
  if ramSize < buff1end then
    let buff2end := buff1end - ramSize
    let TDA := buff2end % ramSize
    { buff1size := ramSize - activeTSA, buff2end, TDA, moved := ramSize - activeTSA + TDA
      passes := fun IRQA => activeTSA < IRQA || IRQA < TDA }
  else
    { buff1size := count, buff2end := 0, TDA := buff1end, moved := buff1end - activeTSA
      passes := fun IRQA => activeTSA < IRQA && IRQA < buff1end }

/-- What `FinishDMAwrite` and `FinishDMAread` have in common. -/
def Dma.pass (irq : Irq) (s : Dma) (span : Span) : Dma :=
  { s with
    ReadSize := s.ReadSize - span.moved
    ActiveTSA := span.TDA % ramSize
    TSA := span.TDA % ramSize
    has_to_call_irq_dma := fun i =>
      s.has_to_call_irq_dma i || irq.IRQEnable i && span.passes (irq.IRQA i) }

def Dma.finishDMAwrite (irq : Irq) (source : Nat → UInt16) (s : Dma) : Dma :=
  let DMAICounter := s.ReadSize
  let span := span s.ActiveTSA (min s.ReadSize (0x100 + DMAICounter / CYCLES_PER_WORD))
  let ram := s.ram.dmaWrite s.ActiveTSA (load source s.DMAPtr span.buff1size)
    (load source (s.DMAPtr + span.buff1size) span.buff2end)
  let s := { s.pass irq span with ram, DMAPtr := s.DMAPtr + span.moved }
  { s with DMAICounter := (DMAICounter - s.ReadSize) * CYCLES_PER_WORD }

def Dma.finishDMAread (irq : Irq) (s : Dma) : Dma :=
  let span := span s.ActiveTSA (min s.ReadSize (0x100 + s.DMAICounter / CYCLES_PER_WORD))
  let words := load s.ram.mem s.ActiveTSA span.buff1size ++ load s.ram.mem 0 span.buff2end
  let s := { s.pass irq span with DMARPtr := s.DMARPtr ++ words }
  { s with DMAICounter :=
      if s.ReadSize ≠ 0 then min s.ReadSize 0x100 * CYCLES_PER_WORD else CYCLES_PER_WORD }

/-! ## A transfer -/

def Dma.plainDMAWrite (irq : Irq) (source : Nat → UInt16) (size : Nat) (clock : UInt64) (s : Dma) : Dma :=
  Dma.finishDMAwrite irq source
    { s with ReadSize := size, IsDMARead := false, DMAICounter := 0, LastClock := clock }

def Dma.doDMAwrite (irq : Irq) (source : Nat → UInt16) (size : Nat) (clock : UInt64) (s : Dma) : Dma :=
  let s := { s with DMAPtr := 0 }
  if size < 2 then { s with DMAICounter := CYCLES_PER_WORD, LastClock := clock }
  else Dma.plainDMAWrite irq source size clock { s with ActiveTSA := s.TSA % ramSize }

def Dma.doDMAread (size : Nat) (clock : UInt64) (s : Dma) : Dma :=
  { s with
    DMARPtr := [], ActiveTSA := s.TSA % ramSize, ReadSize := size, IsDMARead := true
    LastClock := clock, DMAICounter := min size 0x100 * CYCLES_PER_WORD }

/-- The calls of `spu2Irq` in `CheckDMAProgress`. -/
def Dma.callIrqs (irq : Irq) (s : Dma) : Dma :=
  { s with
    has_to_call_irq_dma := fun _ => false
    Info := fun i => s.Info i || s.has_to_call_irq_dma i && irq.IRQEnable i }

def Dma.checkDMAProgress (irq : Irq) (source : Nat → UInt16) (s : Dma) (clock : UInt64) : Dma :=
  if 0 < s.DMAICounter ∧ 0 < clock - s.LastClock then
    let amt := min (clock - s.LastClock).toNat s.DMAICounter
    let s := { s with DMAICounter := s.DMAICounter - amt, LastClock := clock }
    if 0 < s.DMAICounter then s
    else
      let s := s.callIrqs irq
      let s :=
        if s.ReadSize = 0 then s
        else if s.IsDMARead then s.finishDMAread irq else s.finishDMAwrite irq source
      if s.DMAICounter = 0 then { s with TSA := s.ActiveTSA, dmaIrq := true } else s
  else s

/-- Calls of `CheckDMAProgress` at the given clock values. -/
def Dma.run (irq : Irq) (source : Nat → UInt16) (s : Dma) (clocks : List UInt64) : Dma :=
  clocks.foldl (Dma.checkDMAProgress irq source) s

/-! ## What is promised -/

/-- The address of the `i`-th word. -/
def wordAddr (TSA i : Nat) : Nat := (TSA + i) % ramSize

def Between (TSA size IRQA : Nat) : Prop := ∃ i, 0 < i ∧ i < size ∧ wordAddr TSA i = IRQA

structure Done (irq : Irq) (TSA size : Nat) (t : Dma) : Prop where
  tsa : t.TSA = wordAddr TSA size
  irq : ∀ i, irq.IRQEnable i = true → (t.Info i = true ↔ Between TSA size (irq.IRQA i))

/-- Word `i` is where it belongs, unless the transfer went over the whole RAM and stored a later word
there. -/
structure WriteDone (irq : Irq) (ram : Ram) (TSA : Nat) (source : Nat → UInt16) (size : Nat) (t : Dma) :
    Prop where
  stored : ∀ i < size, (∀ j < size, i < j → wordAddr TSA j ≠ wordAddr TSA i) →
    t.ram.mem (wordAddr TSA i) = source i
  unchanged : ∀ a, (∀ i < size, wordAddr TSA i ≠ a) → t.ram.mem a = ram.mem a
  done : Done irq TSA size t

structure ReadDone (irq : Irq) (ram : Ram) (TSA size : Nat) (t : Dma) : Prop where
  words : t.DMARPtr = (List.range size).map fun i => ram.mem (wordAddr TSA i)
  unchanged : t.ram = ram
  done : Done irq TSA size t

/-! ## Where a transfer is cut -/

/-- Start address and length of each piece; `more` is what a piece may have beyond 256 words. -/
def pieces (more : Nat → Nat) (activeTSA readSize : Nat) : List (Nat × Nat) :=
  if readSize = 0 then []
  else
    let count := min readSize (0x100 + more readSize)
    (activeTSA, count) :: pieces more (wordAddr activeTSA count) (readSize - count)
termination_by readSize

def more (isDMARead : Bool) (readSize : Nat) : Nat :=
  if isDMARead then 0 else readSize / CYCLES_PER_WORD

def writePieces (TSA size : Nat) : List (Nat × Nat) := pieces (more false) (TSA % ramSize) size

def readPieces (TSA size : Nat) : List (Nat × Nat) := pieces (more true) (TSA % ramSize) size

/-- An address inside a piece, behind its first word. -/
def Inside (piece : Nat × Nat) (IRQA : Nat) : Prop :=
  ∃ i, 0 < i ∧ i < piece.2 ∧ wordAddr piece.1 i = IRQA

/-- No interrupt address is where a piece follows another one, unless it is inside of a third, and none
is outside of the RAM while a piece wraps. -/
structure NoneMissed (irq : Irq) (pieces : List (Nat × Nat)) : Prop where
  cut : ∀ i, irq.IRQEnable i = true → ∀ piece ∈ pieces.tail, piece.1 = irq.IRQA i →
    ∃ other ∈ pieces, Inside other (irq.IRQA i)
  inRam : ∀ i, irq.IRQEnable i = true → ∀ piece ∈ pieces, ramSize < piece.1 + piece.2 →
    irq.IRQA i < ramSize

/-! ## A piece as words at wrapped addresses -/

section

variable {activeTSA count : Nat}

theorem span_moved (inside : activeTSA < ramSize) (short : count ≤ ramSize) :
    (span activeTSA count).moved = count := by
  unfold span
  dsimp only
  split
  · have below : activeTSA + count - ramSize < ramSize := by omega
    dsimp only
    rw [Nat.mod_eq_of_lt below]
    omega
  · exact Nat.add_sub_cancel_left _ _

theorem span_TDA (inside : activeTSA < ramSize) (short : count ≤ ramSize) :
    (span activeTSA count).TDA % ramSize = wordAddr activeTSA count := by
  unfold span wordAddr
  dsimp only
  split
  · have below : activeTSA + count - ramSize < ramSize := by omega
    dsimp only
    rw [Nat.mod_mod, ← Nat.mod_eq_sub_mod (by omega)]
  · rfl

theorem wordAddr_of_lt {i : Nat} (below : activeTSA + i < ramSize) :
    wordAddr activeTSA i = activeTSA + i := Nat.mod_eq_of_lt below

theorem wordAddr_of_ge {i : Nat} (above : ramSize ≤ activeTSA + i) (short : activeTSA + i < 2 * ramSize) :
    wordAddr activeTSA i = activeTSA + i - ramSize := by
  rw [wordAddr, Nat.mod_eq_sub_mod above, Nat.mod_eq_of_lt (by omega)]

theorem wordAddr_lt (TSA i : Nat) : wordAddr TSA i < ramSize := Nat.mod_lt _ (by decide)

theorem wordAddr_add (TSA i j : Nat) : wordAddr (wordAddr TSA i) j = wordAddr TSA (i + j) := by
  rw [wordAddr, wordAddr, wordAddr, Nat.mod_add_mod, Nat.add_assoc]

theorem span_words {β : Type*} (inside : activeTSA < ramSize) (short : count ≤ ramSize)
    (f : Nat → Nat → β) :
    (List.range (span activeTSA count).buff1size).map (fun i => f (activeTSA + i) i) ++
      (List.range (span activeTSA count).buff2end).map
        (fun i => f i ((span activeTSA count).buff1size + i)) =
      (List.range count).map fun i => f (wordAddr activeTSA i) i := by
  unfold span
  dsimp only
  split
  · rename_i wraps
    obtain ⟨wrapped, rfl⟩ : ∃ wrapped, count = (ramSize - activeTSA) + wrapped :=
      ⟨activeTSA + count - ramSize, by omega⟩
    have rest : activeTSA + (ramSize - activeTSA + wrapped) - ramSize = wrapped := by omega
    dsimp only
    rw [rest, List.range_add, List.map_append, List.map_map]
    refine congrArg₂ _ ?_ ?_
    · refine List.map_congr_left fun i member => ?_
      have := List.mem_range.1 member
      rw [wordAddr_of_lt (by omega)]
    · refine List.map_congr_left fun i member => ?_
      have := List.mem_range.1 member
      have address : activeTSA + (ramSize - activeTSA + i) - ramSize = i := by omega
      rw [Function.comp_apply, wordAddr_of_ge (by omega) (by omega), address]
  · rename_i whole
    dsimp only
    rw [List.range_zero, List.map_nil, List.append_nil]
    refine List.map_congr_left fun i member => ?_
    have := List.mem_range.1 member
    rw [wordAddr_of_lt (by omega)]

theorem span_passes (inside : activeTSA < ramSize) (short : count ≤ ramSize) (IRQA : Nat) :
    (span activeTSA count).passes IRQA = true ↔
      Inside (activeTSA, count) IRQA ∨ ramSize ≤ IRQA ∧ ramSize < activeTSA + count := by
  unfold span
  dsimp only
  split
  · rename_i wraps
    have below : activeTSA + count - ramSize < ramSize := by omega
    simp only [Nat.mod_eq_of_lt below, Bool.or_eq_true, decide_eq_true_eq]
    constructor
    · intro passed
      by_cases outside : ramSize ≤ IRQA
      · exact Or.inr ⟨outside, wraps⟩
      left
      rcases passed with above | wrapped
      · refine ⟨IRQA - activeTSA, by omega, by dsimp only; omega, ?_⟩
        rw [wordAddr_of_lt (by dsimp only; omega)]
        dsimp only
        omega
      · refine ⟨ramSize - activeTSA + IRQA, by omega, by dsimp only; omega, ?_⟩
        rw [wordAddr_of_ge (by dsimp only; omega) (by dsimp only; omega)]
        dsimp only
        omega
    · rintro (⟨i, some, before, rfl⟩ | ⟨outside, -⟩)
      · dsimp only at before ⊢
        rcases Nat.lt_or_ge (activeTSA + i) ramSize with low | high
        · rw [wordAddr_of_lt low]
          omega
        · rw [wordAddr_of_ge high (by omega)]
          omega
      · omega
  · rename_i whole
    simp only [Bool.and_eq_true, decide_eq_true_eq]
    constructor
    · rintro ⟨above, before⟩
      refine Or.inl ⟨IRQA - activeTSA, by omega, by dsimp only; omega, ?_⟩
      rw [wordAddr_of_lt (by dsimp only; omega)]
      dsimp only
      omega
    · rintro (⟨i, some, before, rfl⟩ | ⟨-, wraps⟩)
      · dsimp only at before ⊢
        rw [wordAddr_of_lt (by omega)]
        omega
      · omega

def stores (TSA : Nat) (source : Nat → UInt16) (size : Nat) : List (Nat × UInt16) :=
  (List.range size).map fun i => (wordAddr TSA i, source i)

theorem dmaWrite_stores (ram : Ram) (source : Nat → UInt16) (inside : activeTSA < ramSize)
    (short : count ≤ ramSize) :
    (ram.dmaWrite activeTSA (load source 0 (span activeTSA count).buff1size)
        (load source (span activeTSA count).buff1size (span activeTSA count).buff2end)).mem =
      perform ram.mem (stores activeTSA source count) := by
  rw [dmaWrite_mem, ← perform_append, blockStores_load, blockStores_load, stores,
    ← span_words inside short fun address i => (address, source i)]
  simp only [Nat.zero_add]

theorem stores_add (TSA : Nat) (source : Nat → UInt16) (done count : Nat) :
    stores TSA source (done + count) = stores TSA source done ++
      stores (wordAddr TSA done) (fun i => source (done + i)) count := by
  simp only [stores, List.range_add, List.map_append, List.map_map, wordAddr_add]
  rfl

theorem load_words (mem : Nat → UInt16) (inside : activeTSA < ramSize) (short : count ≤ ramSize) :
    load mem activeTSA (span activeTSA count).buff1size ++ load mem 0 (span activeTSA count).buff2end =
      (List.range count).map fun i => mem (wordAddr activeTSA i) := by
  rw [← span_words inside short fun address _ => mem address]
  simp only [load, Nat.zero_add]

end

/-! ## One call for the next piece -/

section

variable {irq : Irq} {source : Nat → UInt16} {s t : Dma}

def Passes (piece : Nat × Nat) (IRQA : Nat) : Prop :=
  Inside piece IRQA ∨ ramSize ≤ IRQA ∧ ramSize < piece.1 + piece.2

structure Passed (irq : Irq) (s t : Dma) (count : Nat) : Prop where
  readSize : t.ReadSize = s.ReadSize - count
  activeTSA : t.ActiveTSA = wordAddr s.ActiveTSA count
  tsa : t.TSA = t.ActiveTSA
  called : ∀ i, t.has_to_call_irq_dma i = true ↔ s.has_to_call_irq_dma i = true ∨
    irq.IRQEnable i = true ∧ Passes (s.ActiveTSA, count) (irq.IRQA i)
  info : t.Info = s.Info
  isDMARead : t.IsDMARead = s.IsDMARead
  dmaIrq : t.dmaIrq = s.dmaIrq
  counter : 0 < t.DMAICounter ∧ t.DMAICounter ≤ ramSize * CYCLES_PER_WORD

theorem pass_called {count : Nat} (inside : s.ActiveTSA < ramSize) (short : count ≤ ramSize) (i : Fin 2) :
    (s.pass irq (span s.ActiveTSA count)).has_to_call_irq_dma i = true ↔
      s.has_to_call_irq_dma i = true ∨
        irq.IRQEnable i = true ∧ Passes (s.ActiveTSA, count) (irq.IRQA i) := by
  simp only [Dma.pass, Bool.or_eq_true, Bool.and_eq_true, span_passes inside short, Passes]

theorem finishDMAwrite_passed (inside : s.ActiveTSA < ramSize) (more : 0 < s.ReadSize)
    (short : 0x100 + s.ReadSize / CYCLES_PER_WORD ≤ ramSize) :
    Passed irq s (s.finishDMAwrite irq source)
      (min s.ReadSize (0x100 + s.ReadSize / CYCLES_PER_WORD)) := by
  have large : 0 < 0x100 + s.ReadSize / CYCLES_PER_WORD := Nat.add_pos_left (by decide) _
  unfold Dma.finishDMAwrite
  dsimp only
  generalize 0x100 + s.ReadSize / CYCLES_PER_WORD = most at short large
  generalize atCount : min s.ReadSize most = count
  have fits : count ≤ ramSize := by omega
  have some : 0 < count := by omega
  have all : count ≤ s.ReadSize := by omega
  refine ⟨?_, ?_, rfl, pass_called inside fits, rfl, rfl, rfl, ?_⟩
  · simp only [Dma.pass, span_moved inside fits]
  · simp only [Dma.pass, span_TDA inside fits]
  · simp only [Dma.pass, span_moved inside fits, CYCLES_PER_WORD]
    omega

variable (irq source) in
theorem finishDMAwrite_words (inside : s.ActiveTSA < ramSize)
    (short : 0x100 + s.ReadSize / CYCLES_PER_WORD ≤ ramSize) :
    (s.finishDMAwrite irq source).ram.mem = perform s.ram.mem (stores s.ActiveTSA
        (fun i => source (s.DMAPtr + i)) (min s.ReadSize (0x100 + s.ReadSize / CYCLES_PER_WORD))) ∧
      (s.finishDMAwrite irq source).DMAPtr =
        s.DMAPtr + min s.ReadSize (0x100 + s.ReadSize / CYCLES_PER_WORD) := by
  unfold Dma.finishDMAwrite
  dsimp only
  generalize 0x100 + s.ReadSize / CYCLES_PER_WORD = most at short
  generalize atCount : min s.ReadSize most = count
  have fits : count ≤ ramSize := by omega
  rw [← dmaWrite_stores _ _ inside fits, span_moved inside fits]
  refine ⟨?_, rfl⟩
  simp only [load, Nat.zero_add, Nat.add_assoc]

theorem finishDMAread_passed (inside : s.ActiveTSA < ramSize) (more : 0 < s.ReadSize)
    (elapsed : s.DMAICounter = 0) :
    Passed irq s (s.finishDMAread irq) (min s.ReadSize 0x100) := by
  unfold Dma.finishDMAread
  dsimp only
  rw [elapsed, Nat.zero_div, Nat.add_zero]
  generalize atCount : min s.ReadSize 0x100 = count
  have large : 0x100 ≤ ramSize := by decide
  have fits : count ≤ ramSize := by omega
  refine ⟨?_, ?_, rfl, pass_called inside fits, rfl, rfl, rfl, ?_⟩
  · simp only [Dma.pass, span_moved inside fits]
  · simp only [Dma.pass, span_TDA inside fits]
  · simp only [Dma.pass, span_moved inside fits, CYCLES_PER_WORD]
    split <;> omega

variable (irq) in
theorem finishDMAread_words (inside : s.ActiveTSA < ramSize) (elapsed : s.DMAICounter = 0) :
    (s.finishDMAread irq).ram = s.ram ∧ (s.finishDMAread irq).DMARPtr = s.DMARPtr ++
      (List.range (min s.ReadSize 0x100)).map fun i => s.ram.mem (wordAddr s.ActiveTSA i) := by
  unfold Dma.finishDMAread
  dsimp only
  rw [elapsed, Nat.zero_div, Nat.add_zero]
  generalize atCount : min s.ReadSize 0x100 = count
  have large : 0x100 ≤ ramSize := by decide
  have fits : count ≤ ramSize := by omega
  rw [load_words _ inside fits]
  exact ⟨rfl, rfl⟩

/-- `FinishDMAread` or `FinishDMAwrite`, when the time for the piece before has elapsed. -/
def Dma.finish (irq : Irq) (source : Nat → UInt16) (s : Dma) : Dma :=
  if s.IsDMARead then s.finishDMAread irq else s.finishDMAwrite irq source

def Dma.count (s : Dma) : Nat := min s.ReadSize (0x100 + more s.IsDMARead s.ReadSize)

/-- The words moved by a transfer so far. -/
def Moved (ram : Ram) (source : Nat → UInt16) (TSA done : Nat) (s : Dma) : Prop :=
  if s.IsDMARead then
    s.ram = ram ∧ s.DMARPtr = (List.range done).map fun i => ram.mem (wordAddr TSA i)
  else s.ram.mem = perform ram.mem (stores TSA source done) ∧ s.DMAPtr = done

variable (irq source) in
theorem finish_passed (inside : s.ActiveTSA < ramSize) (some : 0 < s.ReadSize)
    (short : 0x100 + more s.IsDMARead s.ReadSize ≤ ramSize)
    (elapsed : s.IsDMARead = true → s.DMAICounter = 0) :
    Passed irq s (s.finish irq source) s.count := by
  unfold Dma.finish Dma.count
  cases kind : s.IsDMARead with
  | true => exact finishDMAread_passed inside some (elapsed kind)
  | false =>
      rw [kind] at short
      exact finishDMAwrite_passed inside some short

variable (irq) in
theorem finish_moved {ram : Ram} {TSA done : Nat} (inside : s.ActiveTSA < ramSize)
    (short : 0x100 + more s.IsDMARead s.ReadSize ≤ ramSize)
    (elapsed : s.IsDMARead = true → s.DMAICounter = 0) (address : s.ActiveTSA = wordAddr TSA done)
    (same : (s.finish irq source).IsDMARead = s.IsDMARead) (moved : Moved ram source TSA done s) :
    Moved ram source TSA (done + s.count) (s.finish irq source) := by
  unfold Moved at moved ⊢
  rw [same]
  unfold Dma.finish Dma.count
  cases kind : s.IsDMARead with
  | true =>
      rw [kind] at moved
      obtain ⟨sameRam, words⟩ := finishDMAread_words irq inside (elapsed kind)
      obtain ⟨start, before⟩ := moved
      refine ⟨sameRam.trans start, words.trans ?_⟩
      rw [before, start, address, List.range_add, List.map_append, List.map_map]
      simp only [wordAddr_add]
      rfl
  | false =>
      rw [kind] at moved short
      obtain ⟨stored, pointer⟩ := finishDMAwrite_words irq source inside short
      obtain ⟨before, start⟩ := moved
      refine ⟨stored.trans ?_, pointer.trans (by rw [start]; rfl)⟩
      rw [before, ← perform_append, stores_add, address, start]
      rfl

/-! ## A transfer as a run -/

structure Progress (irq : Irq) (ram : Ram) (source : Nat → UInt16) (TSA size : Nat)
    (front : List (Nat × Nat)) (done : Nat) (s : Dma) : Prop where
  moved : Moved ram source TSA done s
  total : done + s.ReadSize = size
  address : s.ActiveTSA = wordAddr TSA done
  called : ∀ i, irq.IRQEnable i = true →
    (s.Info i = true ∨ s.has_to_call_irq_dma i = true ↔ ∃ piece ∈ front, Passes piece (irq.IRQA i))
  short : 0x100 + more s.IsDMARead size ≤ ramSize

structure Waiting (s : Dma) : Prop where
  under : s.dmaIrq = false
  some : 0 < s.DMAICounter
  bound : s.DMAICounter ≤ ramSize * CYCLES_PER_WORD

structure Complete (s : Dma) : Prop where
  dmaIrq : s.dmaIrq = true
  all : s.ReadSize = 0
  tsa : s.TSA = s.ActiveTSA
  elapsed : s.DMAICounter = 0
  called : ∀ i, s.has_to_call_irq_dma i = false

theorem pieces_cons (more : Nat → Nat) (activeTSA : Nat) {readSize : Nat} (some : readSize ≠ 0) :
    pieces more activeTSA readSize =
      (activeTSA, min readSize (0x100 + more readSize)) ::
        pieces more (wordAddr activeTSA (min readSize (0x100 + more readSize)))
          (readSize - min readSize (0x100 + more readSize)) := by
  rw [pieces, if_neg some]

theorem more_mono (isDMARead : Bool) {n m : Nat} (le : n ≤ m) : more isDMARead n ≤ more isDMARead m := by
  unfold more
  split
  · exact Nat.le_refl _
  · exact Nat.div_le_div_right le

theorem Progress.finish {ram : Ram} {TSA size done : Nat} {front : List (Nat × Nat)}
    (progress : Progress irq ram source TSA size front done s) (some : 0 < s.ReadSize)
    (elapsed : s.IsDMARead = true → s.DMAICounter = 0) (under : s.dmaIrq = false) :
    Progress irq ram source TSA size (front ++ [(s.ActiveTSA, s.count)]) (done + s.count)
      (s.finish irq source) ∧ Waiting (s.finish irq source) ∧
      (s.finish irq source).IsDMARead = s.IsDMARead ∧ (s.finish irq source).ReadSize < s.ReadSize ∧
      pieces (more s.IsDMARead) s.ActiveTSA s.ReadSize = (s.ActiveTSA, s.count) ::
        pieces (more (s.finish irq source).IsDMARead) (s.finish irq source).ActiveTSA
          (s.finish irq source).ReadSize := by
  have total := progress.total
  have inside : s.ActiveTSA < ramSize := progress.address ▸ wordAddr_lt _ _
  have short : 0x100 + more s.IsDMARead s.ReadSize ≤ ramSize :=
    Nat.le_trans (Nat.add_le_add_left (more_mono _ (by omega)) _) progress.short
  have passed := finish_passed irq source inside some short elapsed
  have moved := finish_moved irq inside short elapsed progress.address passed.isDMARead
    progress.moved
  have count : s.count ≤ s.ReadSize := Nat.min_le_left _ _
  refine ⟨⟨moved, ?_, ?_, ?_, passed.isDMARead ▸ progress.short⟩,
    ⟨passed.dmaIrq.trans under, passed.counter.1, passed.counter.2⟩, passed.isDMARead, ?_, ?_⟩
  · rw [passed.readSize]
    omega
  · rw [passed.activeTSA, progress.address, wordAddr_add]
  · intro i enabled
    simp only [passed.called, passed.info, enabled, true_and, ← or_assoc]
    rw [progress.called i enabled]
    simp only [List.mem_append, List.mem_singleton, or_and_right, exists_or, exists_eq_left]
  · have moves : 0 < s.count := Nat.lt_min.2 ⟨some, Nat.add_pos_left (by decide) _⟩
    rw [passed.readSize]
    omega
  · rw [passed.isDMARead, passed.activeTSA, passed.readSize]
    exact pieces_cons _ _ (Nat.ne_of_gt some)

def OnTheWay (irq : Irq) (ram : Ram) (source : Nat → UInt16) (TSA size : Nat) (isDMARead : Bool)
    (s : Dma) : Prop :=
  (Waiting s ∨ Complete s) ∧ ∃ front done, Progress irq ram source TSA size front done s ∧ s.IsDMARead = isDMARead ∧
    pieces (more isDMARead) (TSA % ramSize) size =
      front ++ pieces (more s.IsDMARead) s.ActiveTSA s.ReadSize

def Dma.elapse (irq : Irq) (source : Nat → UInt16) (s : Dma) (clock : UInt64) : Dma :=
  let s := Dma.callIrqs irq { s with DMAICounter := 0, LastClock := clock }
  if s.ReadSize = 0 then { s with TSA := s.ActiveTSA, dmaIrq := true } else s.finish irq source

section

variable {ram : Ram} {TSA size done : Nat} {isDMARead : Bool} {front : List (Nat × Nat)}

theorem Progress.called_again (progress : Progress irq ram source TSA size front done s)
    (clock : UInt64) : Progress irq ram source TSA size front done
      (Dma.callIrqs irq { s with DMAICounter := 0, LastClock := clock }) := by
  refine ⟨progress.moved, progress.total, progress.address, fun i enabled => ?_, progress.short⟩
  rw [← progress.called i enabled]
  simp only [Dma.callIrqs, enabled, Bool.and_true, Bool.or_eq_true, Bool.false_eq_true, or_false]

theorem onTheWay_elapse (progress : Progress irq ram source TSA size front done s)
    (kind : s.IsDMARead = isDMARead) (under : s.dmaIrq = false)
    (all : pieces (more isDMARead) (TSA % ramSize) size =
      front ++ pieces (more s.IsDMARead) s.ActiveTSA s.ReadSize) (clock : UInt64) :
    OnTheWay irq ram source TSA size isDMARead (s.elapse irq source clock) ∧
      ((s.elapse irq source clock).dmaIrq = true ∨
        (s.elapse irq source clock).ReadSize < s.ReadSize) := by
  have again := progress.called_again clock
  unfold Dma.elapse
  dsimp only
  split
  · rename_i empty
    exact ⟨⟨.inr ⟨rfl, empty, rfl, rfl, fun _ => rfl⟩, front, done,
      ⟨again.moved, again.total, again.address, again.called, again.short⟩, kind, all⟩, Or.inl rfl⟩
  · rename_i left
    obtain ⟨next, status, same, less, rest⟩ := again.finish (Nat.pos_of_ne_zero left) (fun _ => rfl)
      under
    refine ⟨⟨.inl status, _, _, next, same.trans kind, ?_⟩, Or.inr less⟩
    rw [all, List.append_assoc, List.singleton_append, ← rest]
    rfl

theorem check_elapse (onTheWay : OnTheWay irq ram source TSA size isDMARead s) {clock : UInt64}
    (some : 0 < s.DMAICounter) (long : s.DMAICounter ≤ (clock - s.LastClock).toNat) :
    s.checkDMAProgress irq source clock = s.elapse irq source clock := by
  obtain ⟨status, front, done, progress, kind, all⟩ := onTheWay
  have later : 0 < clock - s.LastClock := by
    rw [UInt64.lt_iff_toNat_lt]
    exact Nat.lt_of_lt_of_le some long
  have none_left : s.DMAICounter - min (clock - s.LastClock).toNat s.DMAICounter = 0 := by omega
  have under : s.dmaIrq = false := by
    rcases status with waiting | complete
    · exact waiting.under
    · exact absurd complete.elapsed (Nat.ne_of_gt some)
  unfold Dma.checkDMAProgress Dma.elapse
  rw [if_pos ⟨some, later⟩]
  dsimp only
  rw [none_left, if_neg (Nat.lt_irrefl 0)]
  by_cases empty : s.ReadSize = 0
  · have empty' : (Dma.callIrqs irq { s with DMAICounter := 0, LastClock := clock }).ReadSize = 0 := empty
    rw [if_pos empty', if_pos empty']
    exact if_pos rfl
  · have left : (Dma.callIrqs irq { s with DMAICounter := 0, LastClock := clock }).ReadSize ≠ 0 := empty
    obtain ⟨-, next, -⟩ := (progress.called_again clock).finish (Nat.pos_of_ne_zero left) (fun _ => rfl)
      under
    rw [if_neg left, if_neg left]
    exact if_neg (Nat.ne_of_gt next.some)

theorem onTheWay_check (onTheWay : OnTheWay irq ram source TSA size isDMARead s) (clock : UInt64) :
    OnTheWay irq ram source TSA size isDMARead (s.checkDMAProgress irq source clock) := by
  by_cases idle : s.DMAICounter = 0 ∨ ¬0 < clock - s.LastClock
  · have same : s.checkDMAProgress irq source clock = s := if_neg fun both =>
      idle.elim (Nat.ne_of_gt both.1) fun no => no both.2
    exact same.symm ▸ onTheWay
  obtain ⟨some, later⟩ := not_or.1 idle
  have some := Nat.pos_of_ne_zero some
  rcases Nat.lt_or_ge (clock - s.LastClock).toNat s.DMAICounter with short | long
  · obtain ⟨status, front, done, progress, kind, all⟩ := onTheWay
    have left : 0 < s.DMAICounter - min (clock - s.LastClock).toNat s.DMAICounter := by omega
    have waits : s.checkDMAProgress irq source clock = { s with
        DMAICounter := s.DMAICounter - min (clock - s.LastClock).toNat s.DMAICounter
        LastClock := clock } := by
      unfold Dma.checkDMAProgress
      rw [if_pos ⟨some, not_not.1 later⟩]
      exact if_pos left
    rw [waits]
    refine ⟨?_, front, done, ⟨progress.moved, progress.total, progress.address, progress.called,
      progress.short⟩, kind, all⟩
    rcases status with waiting | complete
    · exact .inl ⟨waiting.under, left, Nat.le_trans (Nat.sub_le _ _) waiting.bound⟩
    · exact absurd complete.elapsed (Nat.ne_of_gt some)
  · rw [check_elapse onTheWay some long]
    obtain ⟨status, front, done, progress, kind, all⟩ := onTheWay
    rcases status with waiting | complete
    · exact (onTheWay_elapse progress kind waiting.under all clock).1
    · exact absurd complete.elapsed (Nat.ne_of_gt some)

theorem onTheWay_run (onTheWay : OnTheWay irq ram source TSA size isDMARead s) (clocks : List UInt64) :
    OnTheWay irq ram source TSA size isDMARead (s.run irq source clocks) := by
  induction clocks generalizing s with
  | nil => exact onTheWay
  | cons clock clocks ih => exact ih (onTheWay_check onTheWay clock)

theorem complete_run (onTheWay : OnTheWay irq ram source TSA size isDMARead s) :
    ∃ clocks, (s.run irq source clocks).dmaIrq = true := by
  induction left : s.ReadSize using Nat.strong_induction_on generalizing s with
  | _ n ih =>
  subst left
  have onTheWay' := onTheWay
  obtain ⟨status, front, done, progress, kind, all⟩ := onTheWay
  rcases status with ⟨under, some, bound⟩ | complete
  swap
  · exact ⟨[], complete.dmaIrq⟩
  have fits : s.DMAICounter < 2 ^ 64 := Nat.lt_of_le_of_lt bound (by decide)
  let clock : UInt64 := .ofNat s.DMAICounter + s.LastClock
  have diff : (clock - s.LastClock).toNat = s.DMAICounter := by
    have cancel : clock - s.LastClock = .ofNat s.DMAICounter := UInt64.add_sub_cancel _ _
    rw [cancel, UInt64.toNat_ofNat_of_lt' fits]
  have next := check_elapse onTheWay' some (Nat.le_of_eq diff.symm)
  obtain ⟨onTheWay, ended | less⟩ := onTheWay_elapse progress kind under all clock
  · exact ⟨[clock], (congrArg Dma.dmaIrq next).trans ended⟩
  · obtain ⟨clocks, complete⟩ := ih _ less onTheWay rfl
    refine ⟨clock :: clocks, ?_⟩
    change (Dma.run irq source (s.checkDMAProgress irq source clock) clocks).dmaIrq = true
    rw [next]
    exact complete

end

end

/-! ## Addresses in the pieces -/

section

variable {more : Nat → Nat} {activeTSA size IRQA : Nat}

theorem inside_or_start {count : Nat} (inside : activeTSA < ramSize) (some : 0 < count) :
    (∃ i < count, wordAddr activeTSA i = IRQA) ↔
      activeTSA = IRQA ∨ Inside (activeTSA, count) IRQA := by
  have start : wordAddr activeTSA 0 = activeTSA := wordAddr_of_lt inside
  constructor
  · rintro ⟨i, before, rfl⟩
    rcases Nat.eq_zero_or_pos i with rfl | later
    · exact Or.inl start.symm
    · exact Or.inr ⟨i, later, before, rfl⟩
  · rintro (rfl | ⟨i, -, before, at_i⟩)
    · exact ⟨0, some, start⟩
    · exact ⟨i, before, at_i⟩

variable (activeTSA IRQA) in
theorem split_words {count : Nat} (P : Nat → Prop) (fits : count ≤ size) :
    (∃ i < size, P i ∧ wordAddr activeTSA i = IRQA) ↔
      (∃ i < count, P i ∧ wordAddr activeTSA i = IRQA) ∨
        ∃ i < size - count, P (count + i) ∧ wordAddr (wordAddr activeTSA count) i = IRQA := by
  simp only [wordAddr_add]
  constructor
  · rintro ⟨i, before, holds, at_i⟩
    rcases Nat.lt_or_ge i count with low | high
    · exact Or.inl ⟨i, low, holds, at_i⟩
    · obtain ⟨k, rfl⟩ := Nat.exists_eq_add_of_le high
      exact Or.inr ⟨k, by omega, holds, at_i⟩
  · rintro (⟨i, low, holds, at_i⟩ | ⟨i, low, holds, at_i⟩)
    · exact ⟨i, by omega, holds, at_i⟩
    · exact ⟨count + i, by omega, holds, at_i⟩

variable (more) in
theorem pieces_cover (inside : activeTSA < ramSize) :
    (∃ i < size, wordAddr activeTSA i = IRQA) ↔
      ∃ piece ∈ pieces more activeTSA size, piece.1 = IRQA ∨ Inside piece IRQA := by
  induction left : size using Nat.strong_induction_on generalizing activeTSA size with
  | _ n ih =>
  subst left
  rcases Nat.eq_zero_or_pos size with rfl | some
  · rw [pieces, if_pos rfl]
    simp
  · rw [pieces_cons more activeTSA (Nat.ne_of_gt some)]
    generalize atCount : min size (0x100 + more size) = count
    have moves : 0 < count := by omega
    have fits : count ≤ size := by omega
    have split := split_words activeTSA IRQA (fun _ => True) fits
    simp only [true_and] at split
    rw [split, inside_or_start inside moves, ih (size - count) (by omega) (wordAddr_lt _ _) rfl,
      List.exists_mem_cons_iff]

variable (more) in
theorem between_iff (some : 0 < size) : Between activeTSA size IRQA ↔
    (∃ piece ∈ pieces more activeTSA size, Inside piece IRQA) ∨
      ∃ piece ∈ (pieces more activeTSA size).tail, piece.1 = IRQA := by
  rw [pieces_cons more activeTSA (Nat.ne_of_gt some)]
  generalize atCount : min size (0x100 + more size) = count
  have moves : 0 < count := by omega
  have fits : count ≤ size := by omega
  have split := split_words activeTSA IRQA (0 < ·) fits
  have rest : (∃ i < size - count, 0 < count + i ∧ wordAddr (wordAddr activeTSA count) i = IRQA) ↔
      ∃ i < size - count, wordAddr (wordAddr activeTSA count) i = IRQA := by
    simp only [Nat.add_pos_left moves, true_and]
  have between : Between activeTSA size IRQA ↔ ∃ i < size, 0 < i ∧ wordAddr activeTSA i = IRQA :=
    ⟨fun ⟨i, later, before, at_i⟩ => ⟨i, before, later, at_i⟩,
      fun ⟨i, before, later, at_i⟩ => ⟨i, later, before, at_i⟩⟩
  have first : (∃ i < count, 0 < i ∧ wordAddr activeTSA i = IRQA) ↔ Inside (activeTSA, count) IRQA :=
    ⟨fun ⟨i, before, later, at_i⟩ => ⟨i, later, before, at_i⟩,
      fun ⟨i, later, before, at_i⟩ => ⟨i, before, later, at_i⟩⟩
  rw [between, split, first, rest, pieces_cover more (wordAddr_lt _ _),
    List.exists_mem_cons_iff, List.tail_cons, or_assoc]
  refine or_congr_right ?_
  simp only [and_or_left, exists_or]
  exact or_comm

theorem passes_iff (irq : Irq) (some : 0 < size) :
    (∀ i, irq.IRQEnable i = true →
      ((∃ piece ∈ pieces more activeTSA size, Passes piece (irq.IRQA i)) ↔
        Between activeTSA size (irq.IRQA i))) ↔ NoneMissed irq (pieces more activeTSA size) := by
  have below {piece : Nat × Nat} {IRQA : Nat} (passed : Inside piece IRQA) : IRQA < ramSize := by
    obtain ⟨i, -, -, rfl⟩ := passed
    exact wordAddr_lt _ _
  constructor
  · intro same
    constructor
    · intro i enabled piece member start
      have between := (between_iff more some).2 (Or.inr ⟨piece, member, start⟩)
      obtain ⟨other, member, passed | ⟨outside, -⟩⟩ := (same i enabled).2 between
      · exact ⟨other, member, passed⟩
      · obtain ⟨k, -, -, at_k⟩ := between
        exact absurd (at_k ▸ wordAddr_lt _ _) (Nat.not_lt_of_le outside)
    · intro i enabled piece member wraps
      by_contra outside
      have between := (same i enabled).1 ⟨piece, member, Or.inr ⟨Nat.le_of_not_lt outside, wraps⟩⟩
      obtain ⟨k, -, -, at_k⟩ := between
      exact outside (at_k ▸ wordAddr_lt _ _)
  · intro none i enabled
    rw [between_iff more some]
    constructor
    · rintro ⟨piece, member, passed | ⟨outside, wraps⟩⟩
      · exact Or.inl ⟨piece, member, passed⟩
      · exact absurd (none.inRam i enabled piece member wraps) (Nat.not_lt_of_le outside)
    · rintro (⟨piece, member, passed⟩ | ⟨piece, member, start⟩)
      · exact ⟨piece, member, Or.inl passed⟩
      · obtain ⟨other, member, passed⟩ := none.cut i enabled piece member start
        exact ⟨other, member, Or.inl passed⟩

end

/-! ## The whole transfer -/

section

variable {irq : Irq} {source : Nat → UInt16} {ram : Ram} {TSA size : Nat} {isDMARead : Bool} {t : Dma}

theorem wordAddr_mod (TSA i : Nat) : wordAddr (TSA % ramSize) i = wordAddr TSA i :=
  Nat.mod_add_mod _ _ _

theorem between_mod (TSA size IRQA : Nat) : Between (TSA % ramSize) size IRQA ↔ Between TSA size IRQA := by
  simp only [Between, wordAddr_mod]

theorem stores_succ (TSA : Nat) (source : Nat → UInt16) (size : Nat) :
    stores TSA source (size + 1) = stores TSA source size ++ [(wordAddr TSA size, source size)] := by
  simp only [stores, List.range_succ, List.map_append, List.map_singleton]

theorem perform_stores (mem : Nat → UInt16) (TSA : Nat) (source : Nat → UInt16) {size i : Nat}
    (before : i < size) (last : ∀ j < size, i < j → wordAddr TSA j ≠ wordAddr TSA i) :
    perform mem (stores TSA source size) (wordAddr TSA i) = source i := by
  induction size with
  | zero => exact absurd before (Nat.not_lt_zero i)
  | succ size ih =>
      rw [stores_succ, perform_append, perform_cons, perform_nil]
      rcases Nat.lt_succ_iff_lt_or_eq.1 before with earlier | rfl
      · rw [Function.update_of_ne (last size (Nat.lt_succ_self _) earlier).symm]
        exact ih earlier fun j lt => last j (Nat.lt_succ_of_lt lt)
      · exact Function.update_self _ _ _

theorem perform_stores_of_ne (mem : Nat → UInt16) (TSA : Nat) (source : Nat → UInt16) {size a : Nat}
    (other : ∀ i < size, wordAddr TSA i ≠ a) : perform mem (stores TSA source size) a = mem a := by
  refine perform_of_not_mem fun s member => ?_
  obtain ⟨i, inRange, rfl⟩ := List.mem_map.1 member
  exact other i (List.mem_range.1 inRange)

theorem onTheWay_write (irq : Irq) (source : Nat → UInt16) (ram : Ram) (TSA : Nat)
    (lastClock clock : UInt64) (two : 2 ≤ size) (short : 0x100 + size / CYCLES_PER_WORD ≤ ramSize) :
    OnTheWay irq ram source TSA size false
      ((Dma.idle ram TSA lastClock).doDMAwrite irq source size clock) := by
  let s : Dma := { Dma.idle ram TSA lastClock with
    ActiveTSA := TSA % ramSize, ReadSize := size, LastClock := clock }
  have start : Progress irq ram source TSA size [] 0 s :=
    ⟨⟨rfl, rfl⟩, Nat.zero_add _, rfl, fun i _ => by simp [s, Dma.idle], short⟩
  obtain ⟨next, status, same, -, rest⟩ := start.finish (by exact Nat.lt_of_lt_of_le (by decide) two)
    (fun _ => rfl) rfl
  have begun : (Dma.idle ram TSA lastClock).doDMAwrite irq source size clock = s.finish irq source :=
    if_neg (Nat.not_lt_of_le two)
  rw [begun]
  exact ⟨.inl status, _, _, next, same, rest⟩

theorem onTheWay_read (irq : Irq) (source : Nat → UInt16) (ram : Ram) (TSA : Nat)
    (lastClock clock : UInt64) (two : 2 ≤ size) :
    OnTheWay irq ram source TSA size true ((Dma.idle ram TSA lastClock).doDMAread size clock) := by
  have counter : 0 < min size 0x100 * CYCLES_PER_WORD ∧
      min size 0x100 * CYCLES_PER_WORD ≤ ramSize * CYCLES_PER_WORD := by
    have large : 0x100 ≤ ramSize := by decide
    simp only [CYCLES_PER_WORD]
    omega
  have pieceFits : 0x100 + more true size ≤ ramSize := by
    change 0x100 + 0 ≤ ramSize
    decide
  exact ⟨.inl ⟨rfl, counter.1, counter.2⟩, [], 0, ⟨⟨rfl, rfl⟩, Nat.zero_add _, rfl,
    fun i _ => by simp [Dma.doDMAread, Dma.idle], pieceFits⟩, rfl, rfl⟩

theorem complete_iff (onTheWay : OnTheWay irq ram source TSA size isDMARead t)
    (complete : t.dmaIrq = true) (some : 0 < size) :
    Moved ram source TSA size t ∧
      (Done irq TSA size t ↔ NoneMissed irq (pieces (more isDMARead) (TSA % ramSize) size)) := by
  obtain ⟨waiting | ended, front, done, progress, kind, all⟩ := onTheWay
  · exact absurd (waiting.under.symm.trans complete) (by decide)
  have empty := ended.all
  have total := progress.total
  obtain rfl : done = size := by omega
  have nothing : pieces (more t.IsDMARead) t.ActiveTSA t.ReadSize = [] := by
    rw [pieces, if_pos empty]
  rw [nothing, List.append_nil] at all
  refine ⟨progress.moved, ?_⟩
  rw [← passes_iff irq some, all]
  have info (i : Fin 2) (enabled : irq.IRQEnable i = true) :
      t.Info i = true ↔ ∃ piece ∈ front, Passes piece (irq.IRQA i) := by
    rw [← progress.called i enabled, ended.called i]
    simp
  constructor
  · intro promised i enabled
    rw [← info i enabled, between_mod]
    exact promised.irq i enabled
  · intro same
    refine ⟨ended.tsa.trans progress.address, fun i enabled => ?_⟩
    rw [info i enabled, same i enabled, between_mod]

end

/-- A plain DMA does all it should, whenever `CheckDMAProgress` is called, if and only if no interrupt
address is missed between two pieces. -/
theorem plainDMA_iff (irq : Irq) (ram : Ram) (TSA : Nat) (source : Nat → UInt16) (size : Nat)
    (lastClock clock : UInt64) (two : 2 ≤ size) :
    (0x100 + size / CYCLES_PER_WORD ≤ ramSize →
      ((∀ clocks, (((Dma.idle ram TSA lastClock).doDMAwrite irq source size clock).run irq source
            clocks).dmaIrq = true →
          WriteDone irq ram TSA source size
            (((Dma.idle ram TSA lastClock).doDMAwrite irq source size clock).run irq source clocks)) ↔
        NoneMissed irq (writePieces TSA size))) ∧
    ((∀ clocks, (((Dma.idle ram TSA lastClock).doDMAread size clock).run irq source
          clocks).dmaIrq = true →
        ReadDone irq ram TSA size
          (((Dma.idle ram TSA lastClock).doDMAread size clock).run irq source clocks)) ↔
      NoneMissed irq (readPieces TSA size)) := by
  have some : 0 < size := Nat.lt_of_lt_of_le (by decide) two
  have write := onTheWay_write irq source ram TSA lastClock clock two
  have read := onTheWay_read irq source ram TSA lastClock clock two
  refine ⟨fun short => ⟨fun all => ?_, fun none clocks complete => ?_⟩,
    ⟨fun all => ?_, fun none clocks complete => ?_⟩⟩
  · obtain ⟨clocks, complete⟩ := complete_run (write short)
    exact (complete_iff (onTheWay_run (write short) clocks) complete some).2.1 (all clocks complete).done
  · have later := onTheWay_run (write short) clocks
    obtain ⟨moved, done⟩ := complete_iff later complete some
    obtain ⟨-, front, count, -, kind, -⟩ := later
    rw [Moved, if_neg (by rw [kind]; exact Bool.false_ne_true)] at moved
    refine ⟨fun i before last => ?_, fun a other => ?_, done.2 none⟩
    · rw [moved.1]
      exact perform_stores _ _ _ before last
    · rw [moved.1]
      exact perform_stores_of_ne _ _ _ other
  · obtain ⟨clocks, complete⟩ := complete_run read
    exact (complete_iff (onTheWay_run read clocks) complete some).2.1 (all clocks complete).done
  · have later := onTheWay_run read clocks
    obtain ⟨moved, done⟩ := complete_iff later complete some
    obtain ⟨-, front, count, -, kind, -⟩ := later
    rw [Moved, if_pos kind] at moved
    exact ⟨moved.2, moved.1, done.2 none⟩

/-- The transfer wraps right onto the interrupt address. -/
theorem plainDMA_iff_wrapping :
    let irq : Irq := ⟨fun _ => true, fun _ => 0⟩
    let s := Dma.idle (.init fun _ => 0) 0xFFFFF 0
    NoneMissed irq (writePieces 0xFFFFF 2) ∧
    ((∀ clocks, ((s.doDMAwrite irq .ofNat 2 0).run irq .ofNat clocks).dmaIrq = true →
        WriteDone irq (.init fun _ => 0) 0xFFFFF .ofNat 2
          ((s.doDMAwrite irq .ofNat 2 0).run irq .ofNat clocks)) ↔
      NoneMissed irq (writePieces 0xFFFFF 2)) := by
  have one : writePieces 0xFFFFF 2 = [(0xFFFFF, 2)] := by
    simp [writePieces, pieces, more, ramSize, CYCLES_PER_WORD]
  refine ⟨?_, (plainDMA_iff _ _ 0xFFFFF _ 2 0 0 (by decide)).1 (by decide)⟩
  rw [one]
  exact ⟨fun _ _ _ member => absurd member List.not_mem_nil, fun _ _ _ _ _ => (by decide : 0 < ramSize)⟩

/-- A second piece starts at 0x100, and the interrupt at that address does not come. -/
theorem plainDMA_cut_missed :
    let irq : Irq := ⟨fun _ => true, fun _ => 0x100⟩
    let t := (Dma.idle (.init fun _ => 0) 0 0).doDMAread 257 0
    Between 0 257 0x100 ∧ ∃ clocks, (t.run irq .ofNat clocks).dmaIrq = true ∧
      ¬ ReadDone irq (.init fun _ => 0) 0 257 (t.run irq .ofNat clocks) := by
  intro irq t
  have onTheWay : OnTheWay irq (.init fun _ => 0) .ofNat 0 257 true t :=
    onTheWay_read irq _ _ 0 0 0 (by decide)
  obtain ⟨clocks, complete⟩ := complete_run onTheWay
  refine ⟨⟨0x100, by decide, by decide, rfl⟩, clocks, complete, fun done => ?_⟩
  have none := (complete_iff (onTheWay_run onTheWay clocks) complete (by decide)).2.1 done.done
  have two : pieces (more true) (0 % ramSize) 257 = [(0, 0x100), (0x100, 1)] := by
    simp [pieces, more, ramSize, wordAddr]
  rw [two] at none
  obtain ⟨other, member, i, later, before, at_i⟩ :=
    none.cut 0 rfl (0x100, 1) List.mem_cons_self rfl
  rcases List.mem_cons.1 member with rfl | member
  · rw [wordAddr_of_lt (Nat.lt_trans (Nat.add_lt_add_left before 0) (by decide))] at at_i
    rw [Nat.zero_add] at at_i
    exact Nat.ne_of_lt before at_i
  · obtain rfl := List.mem_singleton.1 member
    exact absurd before (Nat.not_lt_of_le later)

end Pcsx2.Spu2
