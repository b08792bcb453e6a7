import Mathlib.Data.List.Range
import Pcsx2.Foundation.Loop
import Pcsx2.Foundation.Run
import Pcsx2.Spu2.Dma

/-!
# AutoDMA

The input area of a core has a left and a right half, and each half two blocks. `ReadInput` asks for the next blocks
of the transfer whenever a block was played.
-/

namespace Pcsx2.Spu2
open Foundation

/-- What AutoDMA uses of a core. `DMAPtr` counts the words of the IOP's memory. `copies` is not in the source: it remembers
the place in the input area and the place in the source of each block that the transfer has copied. -/
structure AutoDma where
  Index : Nat
  ram : Ram
  AutoDMACtrl : UInt16
  InputDataLeft : Nat
  InputDataTransferred : Nat
  InputDataProgress : Nat
  InputPosWrite : Nat
  DMAPtr : Option Nat
  MADR : Nat
  TADR : Nat
  ActiveTSA : Nat
  DMAICounter : Nat
  AdmaInProgress : Bool
  dmaIrq : Bool
  copies : List (Nat × Nat)

def u32Sub (a b : Nat) : Nat := (a + 2 ^ 32 - b) % 2 ^ 32

def u32Add (a b : Nat) : Nat := (a + b) % 2 ^ 32

namespace AutoDma

/-- The variables of the loop of `AutoDMAReadBuffer`. -/
structure Refill where
  core : AutoDma
  size : Int
  spos : Nat
  leftbuffer : Bool

def copyBlock (source : Nat → UInt16) (s : AutoDma) (spos : Nat) : AutoDma :=
  match s.DMAPtr with
  | none => s
  | some ptr =>
    { s with
      ram := s.ram.copy (0x2000 + s.Index * 0x400 + spos) (load source (ptr + s.InputDataProgress) 0x100)
      copies := s.copies ++ [(spos, ptr + s.InputDataProgress)] }

/-- The bit 0x200 of `spos` is the side. -/
def refillTurn (source : Nat → UInt16) (r : Refill) : Turn Refill AutoDma :=
  if r.size = 0 then .done r.core
  else
    let spos := if r.leftbuffer then r.spos % 0x200 else r.spos % 0x200 + 0x200
    let core := copyBlock source r.core spos
    .again {
      core := { core with
        InputDataTransferred := u32Add core.InputDataTransferred 0x200
        InputDataLeft := u32Sub core.InputDataLeft 0x100
        InputDataProgress := u32Add core.InputDataProgress 0x100
        InputPosWrite := u32Add core.InputPosWrite 0x80 }
      size := r.size - 0x100
      spos
      leftbuffer := !r.leftbuffer }

def onRight (s : AutoDma) : Bool := s.InputPosWrite / 0x80 % 2 == 1

def refillStart (s : AutoDma) : Refill :=
  let size := min s.InputDataLeft 0x200
  let core := { s with AutoDMACtrl := s.AutoDMACtrl &&& 3 }
  { core := if s.DMAPtr = none then { core with DMAPtr := some (s.MADR % 0x200000 / 2), InputDataProgress := 0 } else core
    size := if s.onRight then (min size 0x100 : Nat) else size
    spos := s.InputPosWrite / 0x100 % 2 * 0x100
    leftbuffer := !s.onRight }

def refillEnd (s : AutoDma) : AutoDma := if s.onRight then s else { s with InputPosWrite := 0xffff }

def AutoDMAReadBuffer (source : Nat → UInt16) (fuel : Nat) (s : AutoDma) : Option AutoDma :=
  if s.InputPosWrite = 0xffff then some s
  else (Loop.run (refillTurn source) fuel s.refillStart).map refillEnd

def StartADMAWrite (source : Nat → UInt16) (fuel : Nat) (sz : Nat) (s : AutoDma) : Option AutoDma :=
  let size : Int := (sz : Int).bmod (2 ^ 32)
  let s := { s with InputDataProgress := 0, TADR := u32Add s.MADR (2 * sz), copies := [] }
  if s.AutoDMACtrl &&& UInt16.ofNat (s.Index + 1) = 0 then
    some { s with ActiveTSA := 0x2000 + s.Index * 0x400, DMAICounter := u32Add 0 (sz * CYCLES_PER_WORD) }
  else if 256 ≤ size then
    let s := { s with InputDataLeft := sz }
    (if s.InputPosWrite ≠ 0xffff then AutoDMAReadBuffer source fuel s else some s).map fun s =>
      { s with AdmaInProgress := true }
  else
    some { s with InputDataLeft := 0, DMAICounter := u32Add 0 (sz * CYCLES_PER_WORD) }

/-- `MADR` is moved on as if it was read step by step, and the end of the transfer is told at its end. -/
def countTransferred (s : AutoDma) : AutoDma :=
  if s.InputDataTransferred = 0 then s
  else
    let amount := min s.InputDataTransferred 0x180
    let s := { s with InputDataTransferred := s.InputDataTransferred - amount, MADR := u32Add s.MADR amount }
    if s.InputDataTransferred = 0 ∧ s.InputDataLeft = 0 then { s with dmaIrq := true } else s

def sample (s : AutoDma) (place : Nat) : Int := ((s.ram.mem place).toNat : Int).bmod (2 ^ 16)

def played (s : AutoDma) (OutPos PlayMode : Nat) : Int × Int :=
  if s.Index = 1 ∨ PlayMode / 2 % 2 = 0 then
    (s.sample (0x2000 + s.Index * 0x400 + OutPos), s.sample (0x2200 + s.Index * 0x400 + OutPos))
  else
    (0, 0)

/-- `PlayMode` 2 of the first core reads the area twice as fast. Interrupts at `IRQA` are left out. -/
def ReadInput (source : Nat → UInt16) (fuel : Nat) (OutPos PlayMode : Nat) (s : AutoDma) : Option ((Int × Int) × AutoDma) :=
  let retval := s.played OutPos PlayMode
  let s := s.countTransferred
  let ReadIndex := if PlayMode = 2 ∧ s.Index = 0 then OutPos * 2 % 0x200 else OutPos
  if ReadIndex = 0x100 ∨ ReadIndex = 0 ∨ ReadIndex = 0x80 ∨ ReadIndex = 0x180 then
    let s := if ReadIndex = 0x100 then { s with InputPosWrite := 0 }
      else if ReadIndex = 0 then { s with InputPosWrite := 0x100 } else s
    if 0x100 ≤ s.InputDataLeft then
      (AutoDMAReadBuffer source fuel s).map fun s =>
        (retval, { s with AdmaInProgress := true, InputDataLeft := if s.InputDataLeft < 0x100 then 0 else s.InputDataLeft })
    else if s.AutoDMACtrl &&& UInt16.ofNat (s.Index + 1) ≠ 0 then
      some (retval, { s with AutoDMACtrl := s.AutoDMACtrl ||| 0xfffc })
    else
      some (retval, s)
  else
    some (retval, s)

/-- `DoDMAwrite` when AutoDMA is enabled and there is more than one word. -/
def DoDMAwrite (source : Nat → UInt16) (fuel : Nat) (pMem sz : Nat) (s : AutoDma) : Option AutoDma :=
  StartADMAWrite source fuel sz { s with DMAPtr := some pMem }

/-! ## What a refill does -/

variable {source : Nat → UInt16} {s t : AutoDma} {base fuel : Nat}

def stepped (source : Nat → UInt16) (s : AutoDma) (base spos : Nat) : AutoDma :=
  { s with
    ram := s.ram.copy (0x2000 + s.Index * 0x400 + spos) (load source (base + s.InputDataProgress) 0x100)
    copies := s.copies ++ [(spos, base + s.InputDataProgress)]
    InputDataTransferred := u32Add s.InputDataTransferred 0x200
    InputDataLeft := u32Sub s.InputDataLeft 0x100
    InputDataProgress := u32Add s.InputDataProgress 0x100
    InputPosWrite := u32Add s.InputPosWrite 0x80 }

variable {spos : Nat}

theorem turn_again {core : AutoDma} {size : Int} {leftbuffer : Bool} (ptr : core.DMAPtr = some base) (more : size ≠ 0) :
    refillTurn source ⟨core, size, spos, leftbuffer⟩ =
      .again ⟨stepped source core base (if leftbuffer then spos % 0x200 else spos % 0x200 + 0x200), size - 0x100,
        if leftbuffer then spos % 0x200 else spos % 0x200 + 0x200, !leftbuffer⟩ := by
  simp only [refillTurn, if_neg more, copyBlock, ptr, stepped]

theorem not_ends_uneven {r : Refill} {a : AutoDma} (uneven : r.size % 0x100 ≠ 0) : ¬Loop.Ends (refillTurn source) r a := by
  intro ends
  induction ends with
  | @done r a now =>
      by_cases none : r.size = 0
      · rw [none] at uneven
        exact uneven rfl
      · rw [refillTurn, if_neg none] at now
        cases now
  | @again r t a next _ ih =>
      by_cases none : r.size = 0
      · rw [none] at uneven
        exact uneven rfl
      · rw [refillTurn, if_neg none] at next
        cases next
        refine ih ?_
        simp only
        omega

theorem ends_one {core a : AutoDma} {leftbuffer : Bool} (ptr : core.DMAPtr = some base) :
    Loop.Ends (refillTurn source) ⟨core, 0x100, spos, leftbuffer⟩ a ↔
      a = stepped source core base (if leftbuffer then spos % 0x200 else spos % 0x200 + 0x200) := by
  rw [Loop.ends_again (turn_again ptr (by decide))]
  exact Loop.ends_done rfl

theorem ends_two {core a : AutoDma} (ptr : core.DMAPtr = some base) :
    Loop.Ends (refillTurn source) ⟨core, 0x200, spos, true⟩ a ↔
      a = stepped source (stepped source core base (spos % 0x200)) base (spos % 0x200 + 0x200) := by
  have ptr' : (stepped source core base (spos % 0x200)).DMAPtr = some base := ptr
  rw [Loop.ends_again (turn_again ptr (by decide))]
  refine (ends_one ptr').trans ?_
  simp

theorem readBuffer_ends (asked : s.InputPosWrite ≠ 0xffff) :
    (∃ fuel, AutoDMAReadBuffer source fuel s = some t) ↔
      ∃ a, Loop.Ends (refillTurn source) s.refillStart a ∧ t = a.refillEnd := by
  constructor
  · rintro ⟨fuel, ran⟩
    rw [AutoDMAReadBuffer, if_neg asked] at ran
    obtain ⟨a, ended, rfl⟩ := Option.map_eq_some_iff.1 ran
    exact ⟨a, .of_run ended, rfl⟩
  · rintro ⟨a, ends, rfl⟩
    obtain ⟨fuel, ran⟩ := ends.run
    refine ⟨fuel, ?_⟩
    rw [AutoDMAReadBuffer, if_neg asked, ran]
    rfl

def firstSide (s : AutoDma) : Nat := if s.InputPosWrite ≠ 0xffff ∧ s.onRight then 1 else 0

/-- The blocks copied are the first ones of the source, on the sides in turn, and the RAM has them. -/
structure Copied (source : Nat → UInt16) (ram : Ram) (base sz first : Nat) (s : AutoDma) (n : Nat) : Prop where
  DMAPtr : s.DMAPtr = some base
  progress : s.InputDataProgress = 0x100 * n
  sources : s.copies.map Prod.snd = (List.range n).map fun k => base + 0x100 * k
  sides : (s.copies.map fun copy => copy.1 / 0x200) = (List.range n).map fun k => (first + k) % 2
  places : ∀ copy ∈ s.copies, copy.1 < 0x400 ∧ copy.1 % 0x100 = 0
  stored : s.ram = s.copies.foldl (fun ram copy => ram.copy (0x2000 + s.Index * 0x400 + copy.1) (load source copy.2 0x100)) ram
  enough : 0x100 * n ≤ sz

variable {ram : Ram} {sz first n : Nat}

theorem Copied.stepped (copied : Copied source ram base sz first s n) (small : sz < 2 ^ 32) (more : 0x100 * (n + 1) ≤ sz)
    (place : spos < 0x400 ∧ spos % 0x100 = 0) (side : spos / 0x200 = (first + n) % 2) :
    Copied source ram base sz first (stepped source s base spos) (n + 1) where
  DMAPtr := copied.DMAPtr
  progress := by
    simp only [AutoDma.stepped, u32Add, copied.progress]
    omega
  sources := by
    simp only [AutoDma.stepped, List.map_append, copied.sources, List.range_succ, copied.progress]
    rfl
  sides := by
    simp only [AutoDma.stepped, List.map_append, copied.sides, List.range_succ]
    simp [side]
  places := by
    intro copy member
    rcases List.mem_append.1 member with before | new
    · exact copied.places copy before
    · obtain rfl := List.mem_singleton.1 new
      exact place
  stored := by
    simp only [AutoDma.stepped, List.foldl_append, ← copied.stored]
    rfl
  enough := more

theorem Copied.refillEnd (copied : Copied source ram base sz first s n) : Copied source ram base sz first s.refillEnd n := by
  unfold AutoDma.refillEnd
  split_ifs
  · exact copied
  · exact { copied with }

inductive Refilled (source : Nat → UInt16) (ram : Ram) (base sz first n : Nat) (s t : AutoDma) : Prop
  | right (m : Copied source ram base sz first t (n + 1)) (left : t.InputDataLeft = sz - 0x100 * (n + 1)) (side : s.firstSide = 1)
      (done : t.InputPosWrite = 0xffff)
  | last (m : Copied source ram base sz first t (n + 1)) (left : t.InputDataLeft = 0) (side : s.firstSide = 0)
      (one : s.InputDataLeft = 0x100)
  | both (m : Copied source ram base sz first t (n + 2)) (left : t.InputDataLeft = sz - 0x100 * (n + 2)) (side : s.firstSide = 0)
      (two : 0x200 ≤ s.InputDataLeft) (done : t.InputPosWrite = 0xffff)

theorem readBuffer_iff {x : AutoDma} (asked : s.InputPosWrite ≠ 0xffff) (ends : ∀ a, Loop.Ends (refillTurn source) s.refillStart a ↔ a = x)
    (u : AutoDma) : (∃ fuel, AutoDMAReadBuffer source fuel s = some u) ↔ u = x.refillEnd := by
  rw [readBuffer_ends asked]
  constructor
  · rintro ⟨a, ended, rfl⟩
    rw [(ends a).1 ended]
  · rintro rfl
    exact ⟨x, (ends x).2 rfl, rfl⟩

theorem refillEnd_left {x : AutoDma} (left : x.onRight = false) : x.refillEnd.InputPosWrite = 0xffff := by
  rw [AutoDma.refillEnd, if_neg (by rw [left]; exact Bool.false_ne_true)]

@[simp] theorem refillEnd_InputDataLeft (x : AutoDma) : x.refillEnd.InputDataLeft = x.InputDataLeft := by
  unfold AutoDma.refillEnd
  split_ifs <;> rfl

theorem stepped_onRight (s : AutoDma) (base spos : Nat) : (stepped source s base spos).onRight = !s.onRight := by
  simp only [AutoDma.stepped, onRight, u32Add]
  rcases Nat.mod_two_eq_zero_or_one (s.InputPosWrite / 0x80) with zero | one
  · rw [zero, (by omega : (s.InputPosWrite + 0x80) % 2 ^ 32 / 0x80 % 2 = 1)]
    rfl
  · rw [one, (by omega : (s.InputPosWrite + 0x80) % 2 ^ 32 / 0x80 % 2 = 0)]
    rfl

theorem readBuffer_cases (asked : s.InputPosWrite ≠ 0xffff) (copied : Copied source ram base sz first s n) (small : sz < 2 ^ 32)
    (left : s.InputDataLeft = sz - 0x100 * n) (enough : 0x100 ≤ s.InputDataLeft) (side : s.firstSide = (first + n) % 2) :
    (s.firstSide = 0 ∧ 0x100 < s.InputDataLeft ∧ s.InputDataLeft < 0x200 ∧ ∀ fuel, AutoDMAReadBuffer source fuel s = none) ∨
      ∃ t, (∀ u, (∃ fuel, AutoDMAReadBuffer source fuel s = some u) ↔ u = t) ∧ Refilled source ram base sz first n s t := by
  have ptr := copied.DMAPtr
  let start : AutoDma := { s with AutoDMACtrl := s.AutoDMACtrl &&& 3 }
  have ptr' : start.DMAPtr = some base := ptr
  have copied' : Copied source ram base sz first start n := { copied with }
  have started : s.refillStart = ⟨start, if s.onRight then (min (min s.InputDataLeft 0x200) 0x100 : Nat) else (min s.InputDataLeft 0x200 : Nat),
      s.InputPosWrite / 0x100 % 2 * 0x100, !s.onRight⟩ := by
    simp [refillStart, ptr, start]
  have more : 0x100 * (n + 1) ≤ sz := by omega
  have place : s.InputPosWrite / 0x100 % 2 * 0x100 % 0x200 < 0x200 ∧ s.InputPosWrite / 0x100 % 2 * 0x100 % 0x200 % 0x100 = 0 := by omega
  generalize s.InputPosWrite / 0x100 % 2 * 0x100 = spos at started place
  cases onRight : s.onRight with
  | true =>
      have first_eq : s.firstSide = 1 := if_pos ⟨asked, onRight⟩
      have size : ((min (min s.InputDataLeft 0x200) 0x100 : Nat) : Int) = 0x100 := by omega
      rw [onRight, if_pos rfl, size] at started
      refine .inr ⟨_, readBuffer_iff asked fun a => by rw [started]; exact ends_one ptr', .right ?_ ?_ first_eq ?_⟩
      · refine (copied'.stepped small more ?_ ?_).refillEnd
        · simp
          omega
        · simp
          omega
      · simp [AutoDma.stepped, u32Sub, start]
        omega
      · exact refillEnd_left (by rw [stepped_onRight]; simp [start, AutoDma.onRight] at onRight ⊢; omega)
  | false =>
      have first_eq : s.firstSide = 0 := if_neg fun both => by simp [onRight] at both
      rw [onRight, if_neg Bool.false_ne_true, Bool.not_false] at started
      have even : (first + n) % 2 = 0 := by rw [← side, first_eq]
      have place : spos % 0x200 < 0x400 ∧ spos % 0x200 % 0x100 = 0 := by omega
      have on_left := copied'.stepped small more place (by omega)
      rcases (by omega : s.InputDataLeft = 0x100 ∨ 0x200 ≤ s.InputDataLeft ∨ 0x100 < s.InputDataLeft ∧ s.InputDataLeft < 0x200)
        with one | two | between
      · have size : ((min s.InputDataLeft 0x200 : Nat) : Int) = 0x100 := by omega
        rw [size] at started
        refine .inr ⟨_, readBuffer_iff asked fun a => by rw [started]; exact ends_one ptr', .last ?_ ?_ first_eq one⟩
        · exact on_left.refillEnd
        · simp [AutoDma.stepped, u32Sub, start]
          omega
      · have size : ((min s.InputDataLeft 0x200 : Nat) : Int) = 0x200 := by omega
        rw [size] at started
        refine .inr ⟨_, readBuffer_iff asked fun a => by rw [started]; exact ends_two ptr', .both ?_ ?_ first_eq two ?_⟩
        · exact (on_left.stepped small (by omega) (by omega) (by omega)).refillEnd
        · simp [AutoDma.stepped, u32Sub, start]
          omega
        · exact refillEnd_left (by rw [stepped_onRight, stepped_onRight, Bool.not_not]; exact onRight)
      · refine .inl ⟨first_eq, between.1, between.2, fun fuel => ?_⟩
        rw [AutoDMAReadBuffer, if_neg asked, started, Option.map_eq_none_iff, Option.eq_none_iff_forall_not_mem]
        intro a ran
        exact not_ends_uneven (by simp only; omega) (.of_run ran)

/-! ## What reading does -/

structure Rests (s t : AutoDma) : Prop where
  Index : t.Index = s.Index
  ram : t.ram = s.ram
  InputDataLeft : t.InputDataLeft = s.InputDataLeft
  InputDataProgress : t.InputDataProgress = s.InputDataProgress
  DMAPtr : t.DMAPtr = s.DMAPtr
  copies : t.copies = s.copies

theorem Copied.rests (copied : Copied source ram base sz first s n) (rests : Rests s t) : Copied source ram base sz first t n := by
  obtain ⟨Index, same, -, progress, ptr, copies⟩ := rests
  refine ⟨ptr.trans copied.DMAPtr, progress.trans copied.progress, ?_, ?_, ?_, ?_, copied.enough⟩
  · rw [copies, copied.sources]
  · rw [copies, copied.sides]
  · rw [copies]
    exact copied.places
  · rw [same, copies, Index]
    exact copied.stored

theorem countTransferred_rests (s : AutoDma) : Rests s s.countTransferred ∧ s.countTransferred.InputPosWrite = s.InputPosWrite := by
  simp only [countTransferred]
  split_ifs <;> exact ⟨⟨rfl, rfl, rfl, rfl, rfl, rfl⟩, rfl⟩

theorem readInput_cases (source : Nat → UInt16) (OutPos PlayMode : Nat) (s : AutoDma) :
    (∃ retval t, Rests s t ∧ (0x100 ≤ s.InputDataLeft → t.InputPosWrite = s.InputPosWrite) ∧
      ∀ fuel, ReadInput source fuel OutPos PlayMode s = some (retval, t)) ∨
    (0x100 ≤ s.InputDataLeft ∧ ∃ retval t, Rests s t ∧ (t.InputPosWrite = s.InputPosWrite ∨ t.InputPosWrite = 0 ∨ t.InputPosWrite = 0x100) ∧
      ∀ fuel, ReadInput source fuel OutPos PlayMode s = (AutoDMAReadBuffer source fuel t).map fun s =>
        (retval, { s with AdmaInProgress := true, InputDataLeft := if s.InputDataLeft < 0x100 then 0 else s.InputDataLeft })) := by
  obtain ⟨rests, same⟩ := countTransferred_rests s
  obtain ⟨Index, same_ram, left, progress, ptr, copies⟩ := rests
  have rests' (t : AutoDma) (fields : Rests s.countTransferred t) : Rests s t :=
    ⟨fields.Index.trans Index, fields.ram.trans same_ram, fields.InputDataLeft.trans left, fields.InputDataProgress.trans progress,
      fields.DMAPtr.trans ptr, fields.copies.trans copies⟩
  simp only [ReadInput]
  generalize (if PlayMode = 2 ∧ s.countTransferred.Index = 0 then OutPos * 2 % 0x200 else OutPos) = ReadIndex
  generalize s.played OutPos PlayMode = retval
  by_cases reload : ReadIndex = 0x100 ∨ ReadIndex = 0 ∨ ReadIndex = 0x80 ∨ ReadIndex = 0x180
  · simp only [if_pos reload]
    have moved : ∀ asked : AutoDma, asked = (if ReadIndex = 0x100 then { s.countTransferred with InputPosWrite := 0 }
        else if ReadIndex = 0 then { s.countTransferred with InputPosWrite := 0x100 } else s.countTransferred) →
        Rests s.countTransferred asked ∧
          (asked.InputPosWrite = s.InputPosWrite ∨ asked.InputPosWrite = 0 ∨ asked.InputPosWrite = 0x100) := by
      intro asked asked_eq
      split_ifs at asked_eq <;> rw [asked_eq]
      · exact ⟨⟨rfl, rfl, rfl, rfl, rfl, rfl⟩, .inr (.inl rfl)⟩
      · exact ⟨⟨rfl, rfl, rfl, rfl, rfl, rfl⟩, .inr (.inr rfl)⟩
      · exact ⟨⟨rfl, rfl, rfl, rfl, rfl, rfl⟩, .inl same⟩
    generalize asked_eq : (if ReadIndex = 0x100 then { s.countTransferred with InputPosWrite := 0 }
      else if ReadIndex = 0 then { s.countTransferred with InputPosWrite := 0x100 } else s.countTransferred) = asked at moved ⊢
    obtain ⟨fields, place⟩ := moved asked rfl
    have kept := rests' asked fields
    by_cases enough : 0x100 ≤ asked.InputDataLeft
    · simp only [if_pos enough]
      exact .inr ⟨kept.InputDataLeft ▸ enough, retval, asked, kept, place, fun _ => rfl⟩
    · simp only [if_neg enough]
      have few : ¬0x100 ≤ s.InputDataLeft := kept.InputDataLeft ▸ enough
      split_ifs
      · exact .inl ⟨retval, { asked with AutoDMACtrl := asked.AutoDMACtrl ||| 0xfffc }, { kept with }, fun more => absurd more few, fun _ => rfl⟩
      · exact .inl ⟨retval, _, kept, fun more => absurd more few, fun _ => rfl⟩
  · simp only [if_neg reload]
    exact .inl ⟨retval, _, rests' _ ⟨rfl, rfl, rfl, rfl, rfl, rfl⟩, fun _ => same, fun _ => rfl⟩

/-! ## A transfer -/

def ReadStep (source : Nat → UInt16) (s t : AutoDma) : Prop :=
  ∃ OutPos PlayMode fuel retval, ReadInput source fuel OutPos PlayMode s = some (retval, t)

/-- The blocks come in order, not more of them than the transfer has, and all of them when there is no whole block left. -/
def InOrder (source : Nat → UInt16) (ram : Ram) (base sz first : Nat) (s : AutoDma) : Prop :=
  ∃ n, Copied source ram base sz first s n ∧ (s.InputDataLeft = sz - 0x100 * n ∨ s.InputDataLeft = 0) ∧
    (s.InputDataLeft < 0x100 → n = sz / 0x100)

structure Delivers (source : Nat → UInt16) (s : AutoDma) (pMem sz : Nat) : Prop where
  starts : ∃ fuel t, DoDMAwrite source fuel pMem sz s = some t
  reads : ∀ fuel t, DoDMAwrite source fuel pMem sz s = some t → ∀ u, Run (ReadStep source) t u →
    InOrder source s.ram pMem sz s.firstSide u ∧ ∀ OutPos PlayMode, ∃ fuel v, ReadInput source fuel OutPos PlayMode u = some v

/-- A transfer that is taken, and ends with whole buffers or with a left half. -/
def Fits (s : AutoDma) (sz : Nat) : Prop := sz < 0x100 ∨ sz < 2 ^ 31 ∧ (sz - 0x100 * s.firstSide) % 0x200 ≤ 0x100

def Goes (source : Nat → UInt16) (ram : Ram) (base sz first : Nat) (s : AutoDma) : Prop :=
  ∃ n, Copied source ram base sz first s n ∧
    (s.InputDataLeft = sz - 0x100 * n ∧ 0x100 ≤ s.InputDataLeft ∧ s.InputPosWrite = 0xffff ∧ (first + n) % 2 = 0 ∧
        s.InputDataLeft % 0x200 ≤ 0x100 ∨
      (s.InputDataLeft = sz - 0x100 * n ∨ s.InputDataLeft = 0) ∧ s.InputDataLeft < 0x100 ∧ n = sz / 0x100)

theorem Goes.inOrder (goes : Goes source ram base sz first s) : InOrder source ram base sz first s := by
  obtain ⟨n, copied, ⟨left, enough, -⟩ | ⟨left, -, all⟩⟩ := goes
  · exact ⟨n, copied, .inl left, fun few => absurd enough (Nat.not_le.2 few)⟩
  · exact ⟨n, copied, left, fun _ => all⟩

theorem firstSide_of_left (left : s.InputPosWrite = 0 ∨ s.InputPosWrite = 0x100) : s.firstSide = 0 := by
  rcases left with h | h <;> simp [firstSide, onRight, h]

theorem Goes.read (goes : Goes source ram base sz first s) (small : sz < 2 ^ 32) (OutPos PlayMode : Nat) :
    (∃ fuel v, ReadInput source fuel OutPos PlayMode s = some v) ∧
      ∀ fuel retval t, ReadInput source fuel OutPos PlayMode s = some (retval, t) → Goes source ram base sz first t := by
  obtain ⟨n, copied, left⟩ := goes
  rcases readInput_cases source OutPos PlayMode s with ⟨retval, t, rests, place, reads⟩ | ⟨enough, retval, t, rests, place, reads⟩
  · refine ⟨⟨0, _, reads 0⟩, fun fuel _ u read => ?_⟩
    rw [reads] at read
    cases read
    refine ⟨n, copied.rests rests, ?_⟩
    rw [rests.InputDataLeft]
    rcases left with ⟨left, enough, waits, even, whole⟩ | after
    · exact .inl ⟨left, enough, (place enough).trans waits, even, whole⟩
    · exact .inr after
  · obtain ⟨left, -, waits, even, whole⟩ := left.resolve_right fun after => absurd enough (Nat.not_le.2 after.2.1)
    have copied' := copied.rests rests
    rcases place with same | at_left
    · have unasked (fuel : Nat) : AutoDMAReadBuffer source fuel t = some t := if_pos (same.trans waits)
      refine ⟨⟨0, _, by rw [reads, unasked]; rfl⟩, fun fuel _ u read => ?_⟩
      rw [reads, unasked] at read
      cases read
      refine ⟨n, { copied' with }, .inl ?_⟩
      simp only [rests.InputDataLeft, if_neg (Nat.not_lt.2 enough)]
      exact ⟨left, enough, same.trans waits, even, whole⟩
    · have side := firstSide_of_left at_left
      have asked : t.InputPosWrite ≠ 0xffff := by rcases at_left with h | h <;> rw [h] <;> decide
      have left' : t.InputDataLeft = sz - 0x100 * n := rests.InputDataLeft.trans left
      rcases readBuffer_cases asked copied' small left' (by rw [rests.InputDataLeft]; exact enough) (by rw [side, even]) with
        ⟨-, more, fewer, -⟩ | ⟨v, only, refilled⟩
      · rw [rests.InputDataLeft] at more fewer
        omega
      · obtain ⟨fuel, ran⟩ := (only v).2 rfl
        refine ⟨⟨fuel, _, by rw [reads, ran]; rfl⟩, fun fuel _ u read => ?_⟩
        rw [reads] at read
        obtain ⟨w, ran', found⟩ := Option.map_eq_some_iff.1 read
        obtain rfl := (only w).1 ⟨fuel, ran'⟩
        cases found
        cases refilled with
        | right _ _ side' => rw [side] at side'; cases side'
        | last copied'' zero _ one =>
            rw [left'] at one
            refine ⟨n + 1, { copied'' with }, .inr ?_⟩
            simp only [zero]
            exact ⟨.inr rfl, by decide, by omega⟩
        | both copied'' rest _ two done =>
            rw [left'] at two
            rw [left] at whole
            refine ⟨n + 2, { copied'' with }, ?_⟩
            simp only [rest]
            by_cases few : sz - 0x100 * (n + 2) < 0x100
            · simp only [if_pos few]
              exact .inr ⟨.inr trivial, by decide, by omega⟩
            · simp only [if_neg few]
              exact .inl ⟨trivial, by omega, done, by omega, by omega⟩

theorem size_taken (small : sz < 2 ^ 32) : 256 ≤ (sz : Int).bmod (2 ^ 32) ↔ 0x100 ≤ sz ∧ sz < 2 ^ 31 := by
  simp only [Int.bmod]
  omega

theorem start_cases (source : Nat → UInt16) (pMem : Nat) (small : sz < 2 ^ 32)
    (enabled : s.AutoDMACtrl &&& UInt16.ofNat (s.Index + 1) ≠ 0) :
    (∃ t, (∀ fuel, DoDMAwrite source fuel pMem sz s = some t) ∧ Copied source s.ram pMem sz s.firstSide t 0 ∧
      (¬(0x100 ≤ sz ∧ sz < 2 ^ 31) ∧ t.InputDataLeft = 0 ∨
        (0x100 ≤ sz ∧ sz < 2 ^ 31) ∧ t.InputDataLeft = sz ∧ t.InputPosWrite = 0xffff ∧ s.firstSide = 0)) ∨
    (0x100 ≤ sz ∧ sz < 2 ^ 31) ∧ ∃ asked, asked.InputPosWrite ≠ 0xffff ∧ asked.firstSide = s.firstSide ∧
      Copied source s.ram pMem sz s.firstSide asked 0 ∧ asked.InputDataLeft = sz ∧
      ∀ fuel, DoDMAwrite source fuel pMem sz s =
        (AutoDMAReadBuffer source fuel asked).map fun s => { s with AdmaInProgress := true } := by
  let asked : AutoDma := { s with
    DMAPtr := some pMem
    InputDataProgress := 0
    TADR := u32Add s.MADR (2 * sz)
    copies := []
    InputDataLeft := sz }
  have copied : Copied source s.ram pMem sz s.firstSide asked 0 := by
    refine ⟨rfl, rfl, rfl, rfl, ?_, rfl, Nat.zero_le _⟩
    intro copy member
    cases member
  simp only [DoDMAwrite, StartADMAWrite, if_neg enabled, size_taken small]
  by_cases taken : 0x100 ≤ sz ∧ sz < 2 ^ 31
  · simp only [if_pos taken]
    by_cases waits : s.InputPosWrite = 0xffff
    · simp only [waits, ne_eq, not_true_eq_false, if_false]
      refine .inl ⟨{ asked with AdmaInProgress := true }, fun _ => ?_, { copied with }, .inr ⟨taken, rfl, waits, ?_⟩⟩
      · simp [asked, waits]
      · simp [firstSide, waits]
    · simp only [ne_eq, waits, not_false_eq_true, if_true]
      exact .inr ⟨taken, asked, waits, rfl, copied, rfl, fun _ => rfl⟩
  · simp only [if_neg taken]
    exact .inl ⟨_, fun _ => rfl, { copied with }, .inl ⟨taken, rfl⟩⟩

theorem firstSide_lt (s : AutoDma) : s.firstSide < 2 := by
  unfold firstSide
  split_ifs <;> decide

variable (source) in
theorem start_goes (pMem : Nat) (small : sz < 2 ^ 32) (enabled : s.AutoDMACtrl &&& UInt16.ofNat (s.Index + 1) ≠ 0) (fits : s.Fits sz) :
    ∃ t, (∃ fuel, DoDMAwrite source fuel pMem sz s = some t) ∧
      (∀ fuel u, DoDMAwrite source fuel pMem sz s = some u → u = t) ∧ Goes source s.ram pMem sz s.firstSide t := by
  have first_lt := firstSide_lt s
  unfold Fits at fits
  rcases start_cases source pMem small enabled with ⟨t, starts, copied, ⟨refused, left⟩ | ⟨taken, left, waits, side⟩⟩ |
    ⟨taken, asked, waits, side, copied, left, starts⟩
  · refine ⟨t, ⟨0, starts 0⟩, fun fuel u ran => Option.some_inj.1 (ran.symm.trans (starts fuel)), 0, copied, .inr ?_⟩
    exact ⟨.inr left, by omega, by omega⟩
  · refine ⟨t, ⟨0, starts 0⟩, fun fuel u ran => Option.some_inj.1 (ran.symm.trans (starts fuel)), 0, copied, .inl ?_⟩
    rw [side] at fits
    exact ⟨left, by omega, waits, by rw [side], by omega⟩
  · rcases readBuffer_cases waits copied small left (by omega) (by rw [side]; omega) with ⟨side', more, fewer, -⟩ | ⟨v, only, refilled⟩
    · rw [side] at side'
      omega
    · obtain ⟨fuel, ran⟩ := (only v).2 rfl
      refine ⟨{ v with AdmaInProgress := true }, ⟨fuel, by rw [starts, ran]; rfl⟩, ?_, ?_⟩
      · intro fuel' u ran'
        rw [starts] at ran'
        obtain ⟨w, ran'', rfl⟩ := Option.map_eq_some_iff.1 ran'
        rw [(only w).1 ⟨fuel', ran''⟩]
      · cases refilled with
        | right copied' rest side' done =>
            rw [side] at side'
            refine ⟨1, { copied' with }, ?_⟩
            by_cases few : sz - 0x100 * 1 < 0x100
            · exact .inr ⟨.inl rest, rest.trans_lt few, by omega⟩
            · exact .inl ⟨rest, by simp only [rest]; omega, done, by omega, by simp only [rest]; omega⟩
        | last copied' zero side' one => exact ⟨1, { copied' with }, .inr ⟨.inr zero, by simp only [zero]; decide, by omega⟩⟩
        | both copied' rest side' two done =>
            rw [side] at side'
            refine ⟨2, { copied' with }, ?_⟩
            by_cases few : sz - 0x100 * 2 < 0x100
            · exact .inr ⟨.inl rest, rest.trans_lt few, by omega⟩
            · exact .inl ⟨rest, by simp only [rest]; omega, done, by omega, by simp only [rest]; omega⟩

theorem delivers_of_fits {pMem : Nat} (small : sz < 2 ^ 32) (enabled : s.AutoDMACtrl &&& UInt16.ofNat (s.Index + 1) ≠ 0) (fits : s.Fits sz) :
    Delivers source s pMem sz := by
  obtain ⟨t, ⟨fuel, ran⟩, only, goes⟩ := start_goes source pMem small enabled fits
  refine ⟨⟨fuel, t, ran⟩, fun fuel' t' ran' u run => ?_⟩
  obtain rfl := only fuel' t' ran'
  have goes_on : Goes source s.ram pMem sz s.firstSide u := by
    refine run.invariant goes ?_
    rintro before after now ⟨OutPos, PlayMode, fuel, retval, read⟩
    exact (now.read small OutPos PlayMode).2 fuel retval after read
  exact ⟨goes_on.inOrder, fun OutPos PlayMode => (goes_on.read small OutPos PlayMode).1⟩

/-! ## The sizes that never end -/

theorem readInput_zero (source : Nat → UInt16) (enough : 0x100 ≤ s.InputDataLeft) :
    ∃ retval t, Rests s t ∧ t.InputPosWrite = 0x100 ∧
      ∀ fuel, ReadInput source fuel 0 0 s = (AutoDMAReadBuffer source fuel t).map fun s =>
        (retval, { s with AdmaInProgress := true, InputDataLeft := if s.InputDataLeft < 0x100 then 0 else s.InputDataLeft }) := by
  obtain ⟨rests, -⟩ := countTransferred_rests s
  refine ⟨s.played 0 0, { s.countTransferred with InputPosWrite := 0x100 }, { rests with }, rfl, fun fuel => ?_⟩
  have enough' : 0x100 ≤ s.countTransferred.InputDataLeft := rests.InputDataLeft ▸ enough
  simp [ReadInput, enough']

theorem stuck_ends (small : sz < 2 ^ 32) (goes : ∀ u, Run (ReadStep source) s u → ∃ fuel v, ReadInput source fuel 0 0 u = some v)
    (copied : Copied source ram base sz first s n) (left : s.InputDataLeft = sz - 0x100 * n) (even : (first + n) % 2 = 0)
    (uneven : 0x100 < s.InputDataLeft % 0x200) : False := by
  induction bound : s.InputDataLeft using Nat.strongRecOn generalizing s n with
  | _ l ih =>
      obtain ⟨retval, t, rests, place, reads⟩ := readInput_zero source (by omega : 0x100 ≤ s.InputDataLeft)
      obtain ⟨fuel, v, read⟩ := goes s .refl
      have side := firstSide_of_left (.inr place)
      rw [reads] at read
      obtain ⟨w, ran, rfl⟩ := Option.map_eq_some_iff.1 read
      rcases readBuffer_cases (by rw [place]; decide) (copied.rests rests) small (rests.InputDataLeft.trans left)
        (by rw [rests.InputDataLeft]; omega) (by rw [side, even]) with ⟨-, -, -, never⟩ | ⟨x, only, refilled⟩
      · rw [never] at ran
        cases ran
      · obtain rfl := (only w).1 ⟨fuel, ran⟩
        cases refilled with
        | right _ _ side' => rw [side] at side'; cases side'
        | last _ _ _ one =>
            rw [rests.InputDataLeft] at one
            omega
        | both copied' rest _ two _ =>
            rw [rests.InputDataLeft] at two
            have more : ¬w.InputDataLeft < 0x100 := by omega
            have step : ReadStep source s { w with
                AdmaInProgress := true
                InputDataLeft := if w.InputDataLeft < 0x100 then 0 else w.InputDataLeft } :=
              ⟨0, 0, fuel, retval, by rw [reads, ran]; rfl⟩
            rw [if_neg more] at step
            refine ih w.InputDataLeft (by omega) (fun u run => goes u (.head step run)) { copied' with } rest (by omega) ?_ rfl
            simp only
            omega

theorem fits_of_delivers {pMem : Nat} (small : sz < 2 ^ 32) (enabled : s.AutoDMACtrl &&& UInt16.ofNat (s.Index + 1) ≠ 0)
    (delivers : Delivers source s pMem sz) : s.Fits sz := by
  have first_lt := firstSide_lt s
  obtain ⟨⟨fuel, t, ran⟩, reads⟩ := delivers
  have ends (u : AutoDma) (run : Run (ReadStep source) t u) : ∃ fuel v, ReadInput source fuel 0 0 u = some v :=
    (reads fuel t ran u run).2 0 0
  by_contra misfit
  simp only [Fits, not_or, not_and, Nat.not_lt, Nat.not_le] at misfit
  obtain ⟨some_block, misfit⟩ := misfit
  rcases start_cases source pMem small enabled with ⟨t', starts, copied, ⟨refused, left⟩ | ⟨taken, left, -, side⟩⟩ |
    ⟨taken, asked, waits, side, copied, left, starts⟩
  · obtain rfl := Option.some_inj.1 (ran.symm.trans (starts fuel))
    obtain ⟨n, copied', -, all⟩ := (reads fuel t ran t .refl).1
    have count := congrArg List.length (copied.sources.symm.trans copied'.sources)
    rw [List.length_map, List.length_map, List.length_range, List.length_range] at count
    have none := all (by rw [left]; decide)
    omega
  · obtain rfl := Option.some_inj.1 (ran.symm.trans (starts fuel))
    have uneven := misfit taken.2
    rw [side] at uneven
    exact stuck_ends small ends copied left (by rw [side]) (by omega)
  · have uneven := misfit taken.2
    rw [starts] at ran
    obtain ⟨v, ran', rfl⟩ := Option.map_eq_some_iff.1 ran
    rcases readBuffer_cases waits copied small left (by omega) (by rw [side]; omega) with ⟨-, -, -, never⟩ | ⟨w, only, refilled⟩
    · rw [never] at ran'
      cases ran'
    · obtain rfl := (only v).1 ⟨fuel, ran'⟩
      cases refilled with
      | right copied' rest side' _ =>
          rw [side] at side'
          exact stuck_ends small ends { copied' with } rest (by omega) (by simp only [rest]; omega)
      | last _ _ side' one =>
          rw [side] at side'
          rw [side', left.symm.trans one] at uneven
          exact absurd uneven (by decide)
      | both copied' rest side' two _ =>
          rw [side] at side'
          exact stuck_ends small ends { copied' with } rest (by omega) (by simp only [rest]; omega)

/-- An AutoDMA transfer is delivered if and only if it fits. -/
theorem delivers_iff (source : Nat → UInt16) (s : AutoDma) (pMem : Nat) {sz : Nat} (small : sz < 2 ^ 32)
    (enabled : s.AutoDMACtrl &&& UInt16.ofNat (s.Index + 1) ≠ 0) : Delivers source s pMem sz ↔ s.Fits sz :=
  ⟨fits_of_delivers small enabled, delivers_of_fits small enabled⟩

def enabledCore : AutoDma where
  Index := 0
  ram := .init fun _ => 0
  AutoDMACtrl := 1
  InputDataLeft := 0
  InputDataTransferred := 0
  InputDataProgress := 0
  InputPosWrite := 0x100
  DMAPtr := none
  MADR := 0
  TADR := 0
  ActiveTSA := 0
  DMAICounter := 0
  AdmaInProgress := false
  dmaIrq := false
  copies := []

theorem delivers_four_blocks : Delivers (fun _ => 0) enabledCore 0 0x400 :=
  (delivers_iff (fun _ => 0) enabledCore 0 (by decide) (by decide)).2 (by unfold Fits; decide)

/-- One block and a half is copied for ever. -/
theorem never_delivers : ¬∀ source (s : AutoDma) pMem sz, sz < 2 ^ 32 → s.AutoDMACtrl &&& UInt16.ofNat (s.Index + 1) ≠ 0 →
    Delivers source s pMem sz := by
  intro law
  have fits := fits_of_delivers (by decide) (by decide) (law (fun _ => 0) enabledCore 0 0x180 (by decide) (by decide))
  have misfit : ¬enabledCore.Fits 0x180 := by
    unfold Fits
    decide
  exact misfit fits

end AutoDma

end Pcsx2.Spu2
