import Mathlib.Algebra.Order.Ring.Int
import Mathlib.Data.List.Range
import Pcsx2.Foundation.Memory

/-!
# GIF tags
-/

namespace Pcsx2.Gif

def regAD : Nat := 14

def leNat (bytes : List UInt8) : Nat := bytes.foldr (fun b rest => b.toNat + 256 * rest) 0

structure HwGifTag where
  NLOOP : Nat
  EOP : Bool
  FLG : Nat
  NREG : Nat
  REGS : Nat
  deriving DecidableEq

def HwGifTag.ofBytes (pMem : List UInt8) : HwGifTag :=
  let v := leNat pMem
  { NLOOP := v % 2 ^ 15
    EOP := v / 2 ^ 15 % 2 = 1
    FLG := v / 2 ^ 58 % 4
    NREG := v / 2 ^ 60 % 2 ^ 4
    REGS := v / 2 ^ 64 % 2 ^ 64 }

structure GifTag where
  tag : HwGifTag
  nLoop : Nat
  nRegs : Nat
  nRegIdx : Nat
  len : Nat
  cycles : Nat
  regs : List Nat
  hasAD : Bool
  isValid : Bool
  deriving DecidableEq

def GifTag.reset : GifTag :=
  { tag := ⟨0, false, 0, 0, 0⟩, nLoop := 0, nRegs := 0, nRegIdx := 0, len := 0, cycles := 0,
    regs := List.replicate 16 0, hasAD := false, isValid := false }

def GifTag.curReg (t : GifTag) : Nat := t.regs.getD (t.nRegIdx % 16) 0

def GifTag.packedStep (t : GifTag) : GifTag :=
  if 0 < t.nLoop then
    if t.nRegs ≤ t.nRegIdx + 1 then { t with nRegIdx := 0, nLoop := t.nLoop - 1 }
    else { t with nRegIdx := t.nRegIdx + 1 }
  else t

def GifTag.analyzeTag (t : GifTag) : GifTag :=
  let regs := (List.range 16).map fun i =>
    if i < t.nRegs then t.tag.REGS / 2 ^ (4 * i) % 2 ^ 4 else 0
  { t with regs, hasAD := regs.contains regAD }

def HwGifTag.nRegs (tag : HwGifTag) : Nat := (tag.NREG + 15) % 16 + 1

def GifTag.setTag (t : GifTag) (pMem : List UInt8) : GifTag :=
  let tag := HwGifTag.ofBytes pMem
  let t := { t with nLoop := tag.NLOOP, hasAD := false, nRegIdx := 0, isValid := true }
  match tag.FLG with
  | 0 =>
    let len := tag.nRegs * tag.NLOOP * 16
    GifTag.analyzeTag { t with tag, nRegs := tag.nRegs, len, cycles := len * 2 }
  | 1 =>
    let len := (tag.nRegs * tag.NLOOP + 1) / 2 * 16
    { t with tag, nRegs := tag.nRegs, len, cycles := len * 4 }
  | _ =>
    let len := tag.NLOOP * 16
    { t with tag := { tag with FLG := 2 }, nRegs := 0, len, cycles := len * 4 }

def eopTag : List UInt8 := [0, 0x80, 0, 0, 0, 0, 0, 0, 0, 0, 0, 0, 0, 0, 0, 0]

theorem ofBytes_eopTag : HwGifTag.ofBytes eopTag = ⟨0, true, 0, 0, 0⟩ := by decide

end Pcsx2.Gif

/-!
# A GIF path

The packet buffer of one path and the parser that runs over it. Waiting for the MTGS thread leaves
the path as it is, so it is no part of the functions here.
-/

namespace Pcsx2.Gif
open Foundation

structure GSPacket where
  offset : Nat
  size : Nat
  cycles : Nat
  deriving DecidableEq

inductive PathState where
  | idle | packed | reglist | image | wait
  deriving DecidableEq

def PathState.ofFlg : Nat → PathState
  | 0 => .packed
  | 1 => .reglist
  | _ => .image

structure Path where
  buffer : Nat → UInt8
  buffSize : Nat
  buffLimit : Nat
  curSize : Nat
  curOffset : Nat
  dmaRewind : Nat
  gifTag : GifTag
  gsPack : GSPacket
  state : PathState

/-- The parts of `GIF_STAT` that a path looks at. -/
structure GifStat where
  APATH : Nat
  M3R : Bool
  M3P : Bool

/-- Path 3 is not masked while it is active, so the rest of a chunk is not given back to the DMA. -/
def GifStat.Unmasked (stat : GifStat) : Prop := ¬(stat.APATH = 3 ∧ (stat.M3R ∨ stat.M3P))

def Path.init (buffer : Nat → UInt8) (buffSize buffSafeZone : Nat) : Path :=
  { buffer, buffSize, buffLimit := buffSize - buffSafeZone, curSize := 0, curOffset := 0,
    dmaRewind := 0, gifTag := .reset, gsPack := ⟨0, 0, 0⟩, state := .idle }

/-! ## The buffer -/

/-- `RealignPacket` without the wait and the blank packet. -/
def Path.realignPacket (p : Path) : Path :=
  let offset := p.curOffset - p.gsPack.size
  { p with
    buffer := perform p.buffer (blockStores 0 (load p.buffer offset (p.curSize - offset)))
    curSize := p.curSize - offset
    curOffset := p.gsPack.size
    gsPack := { p.gsPack with offset := 0 } }

/-- The copy at the end of `CopyGSPacketData`. -/
def Path.append (p : Path) (pMem : List UInt8) : Path :=
  { p with
    buffer := perform p.buffer (blockStores p.curSize pMem)
    curSize := p.curSize + pMem.length }

def Path.copyGSPacketData (p : Path) (pMem : List UInt8) : Path :=
  if p.buffSize < p.curSize + pMem.length then p.realignPacket.append pMem else p.append pMem

/-! ## Parsing -/

def Path.incTag (p : Path) (incAmount : Nat) : Path :=
  { p with
    curOffset := p.curOffset + incAmount
    gsPack := { p.gsPack with size := p.gsPack.size + incAmount } }

/-- What `Gif_HandlerAD` returns, with a SIGNAL pending and none queued behind it or not. -/
def handlerAD (pending : Bool) (pMem : List UInt8) : Bool :=
  pMem.getD 8 0 = 0x60 && pending

inductive AdEnd where
  | finished | starved | dblSIGNAL

/-- The loop over A+D data. `handled` is what `Gif_HandlerAD` was given up to now; `pending` says
after which of these a further SIGNAL stalls. -/
def Path.packedAD (pending : List (List UInt8) → Bool) (p : Path) (handled : List (List UInt8)) :
    Path × List (List UInt8) × AdEnd :=
  if p.gifTag.nLoop = 0 then (p, handled, .finished)
  else if _ : p.curSize < p.curOffset + 16 then (p, handled, .starved)
  else
    let pMem := load p.buffer p.curOffset 16
    let next := { p.incTag 16 with gifTag := p.gifTag.packedStep }
    if p.gifTag.curReg = regAD then
      if handlerAD (pending handled) pMem then (next, handled ++ [pMem], .dblSIGNAL)
      else Path.packedAD pending next (handled ++ [pMem])
    else Path.packedAD pending next handled
termination_by p.curSize - p.curOffset
decreasing_by all_goals simp only [Path.incTag]; omega

/-- How a turn of the loop in `ExecuteGSPacket` ends. -/
inductive Turn where
  /-- Return without a complete packet. -/
  | starved (p : Path)
  | next (p : Path)
  | complete (p : Path) (gsPack : GSPacket)

def Path.endTag (stat : GifStat) (p : Path) : Turn :=
  let p := { p with gifTag := { p.gifTag with isValid := false } }
  if p.gifTag.tag.EOP then
    let t := p.gsPack
    let p := { p with dmaRewind := 0, gsPack := ⟨p.curOffset, 0, 0⟩ }
    if stat.APATH = 3 then
      let p := { p with state := .wait }
      if 0 < p.curSize - p.curOffset ∧ (stat.M3R ∨ stat.M3P) then
        .complete { p with dmaRewind := p.curSize - p.curOffset, curSize := p.curOffset } t
      else .complete p t
    else .complete { p with state := .idle } t
  else .next p

def Path.tagData (stat : GifStat) (pending : List (List UInt8) → Bool) (p : Path)
    (handled : List (List UInt8)) : Turn × List (List UInt8) :=
  if p.gifTag.hasAD then
    match p.packedAD pending handled with
    | (p, handled, .starved) => (.starved p, handled)
    | (p, handled, .dblSIGNAL) =>
      if p.gifTag.tag.EOP ∧ p.gifTag.nLoop = 0 then (p.endTag stat, handled)
      else (.starved p, handled)
    | (p, handled, .finished) => (p.endTag stat, handled)
  else ((p.incTag p.gifTag.len).endTag stat, handled)

def Path.readTag (p : Path) : Path × Bool :=
  let gifTag := p.gifTag.setTag (load p.buffer p.curOffset 16)
  let p := { p with gifTag, state := .ofFlg gifTag.tag.FLG }
  if gifTag.hasAD = false ∧ p.curSize < p.curOffset + 16 + gifTag.len then
    ({ p with gifTag := { gifTag with isValid := false } }, false)
  else
    let p := p.incTag 16
    ({ p with gsPack := { p.gsPack with cycles := p.gsPack.cycles + 2 + gifTag.cycles } }, true)

def Path.needsRealign (p : Path) : Prop :=
  p.gifTag.isValid = false ∧ p.curOffset + 16 ≤ p.curSize ∧ p.buffLimit < p.curOffset

instance (p : Path) : Decidable p.needsRealign := inferInstanceAs (Decidable (_ ∧ _ ∧ _))

def Path.turn (stat : GifStat) (pending : List (List UInt8) → Bool) (p : Path)
    (handled : List (List UInt8)) : Turn × List (List UInt8) :=
  if p.gifTag.isValid then p.tagData stat pending handled
  else if p.curSize < p.curOffset + 16 then (.starved p, handled)
  else
    match p.readTag with
    | (p, true) => p.tagData stat pending handled
    | (p, false) => (.starved p, handled)

/-! ## What a turn does to the buffer's bounds -/

structure Path.Advances (p q : Path) : Prop where
  buffer : q.buffer = p.buffer
  buffSize : q.buffSize = p.buffSize
  buffLimit : q.buffLimit = p.buffLimit
  curSize : q.curSize = p.curSize
  offset : q.gsPack.offset = p.gsPack.offset
  forward : p.curOffset ≤ q.curOffset
  distance : q.gsPack.size + p.curOffset = p.gsPack.size + q.curOffset

/-- The packet being assembled ends at the current offset. A tag is kept valid only in the middle of
its A+D data. -/
structure Path.Valid (p : Path) : Prop where
  offset : p.gsPack.offset + p.gsPack.size = p.curOffset
  within : p.curOffset ≤ p.curSize
  tag : p.gifTag.isValid = true → p.gifTag.hasAD = true ∧ 16 ≤ p.gsPack.size

section

variable {p q r : Path} {stat : GifStat} {pending : List (List UInt8) → Bool}
  {handled : List (List UInt8)}

theorem Path.Advances.refl (p : Path) : p.Advances p :=
  ⟨rfl, rfl, rfl, rfl, rfl, Nat.le_refl _, rfl⟩

theorem Path.Advances.trans (first : p.Advances q) (second : q.Advances r) : p.Advances r where
  buffer := second.buffer.trans first.buffer
  buffSize := second.buffSize.trans first.buffSize
  buffLimit := second.buffLimit.trans first.buffLimit
  curSize := second.curSize.trans first.curSize
  offset := second.offset.trans first.offset
  forward := Nat.le_trans first.forward second.forward
  distance := by
    have := first.distance
    have := second.distance
    omega

theorem advances_incTag (p : Path) (n : Nat) : p.Advances (p.incTag n) :=
  ⟨rfl, rfl, rfl, rfl, rfl, Nat.le_add_right _ _, by simp only [Path.incTag]; omega⟩

theorem Path.Advances.withTag (advances : p.Advances q) (gifTag : GifTag) :
    p.Advances { q with gifTag } :=
  { advances with }

@[simp] theorem packedStep_isValid (t : GifTag) : t.packedStep.isValid = t.isValid := by
  unfold GifTag.packedStep
  split
  · split <;> rfl
  · rfl

@[simp] theorem packedStep_hasAD (t : GifTag) : t.packedStep.hasAD = t.hasAD := by
  unfold GifTag.packedStep
  split
  · split <;> rfl
  · rfl

@[simp] theorem packedStep_tag (t : GifTag) : t.packedStep.tag = t.tag := by
  unfold GifTag.packedStep
  split
  · split <;> rfl
  · rfl

theorem advances_packed (p : Path) : p.Advances { p.incTag 16 with gifTag := p.gifTag.packedStep } :=
  (advances_incTag p 16).withTag _

theorem packedAD_advances (pending : List (List UInt8) → Bool) (p : Path)
    (handled : List (List UInt8)) : p.Advances (p.packedAD pending handled).1 := by
  fun_induction Path.packedAD pending p handled with
  | case1 p handled => exact .refl p
  | case2 p handled => exact .refl p
  | case3 p => exact advances_packed p
  | case4 p handled more room pMem next atAD go ih => exact (advances_packed p).trans ih
  | case5 p handled more room next other ih => exact (advances_packed p).trans ih

theorem packedAD_within (pending : List (List UInt8) → Bool) (p : Path)
    (handled : List (List UInt8)) (within : p.curOffset ≤ p.curSize) :
    (p.packedAD pending handled).1.curOffset ≤ p.curSize := by
  fun_induction Path.packedAD pending p handled with
  | case1 p handled => exact within
  | case2 p handled => exact within
  | case3 p handled more room => exact Nat.le_of_not_lt room
  | case4 p handled more room pMem next atAD go ih => exact ih (Nat.le_of_not_lt room)
  | case5 p handled more room next other ih => exact ih (Nat.le_of_not_lt room)

theorem packedAD_tag (pending : List (List UInt8) → Bool) (p : Path) (handled : List (List UInt8)) :
    (p.packedAD pending handled).1.gifTag.isValid = p.gifTag.isValid ∧
    (p.packedAD pending handled).1.gifTag.hasAD = p.gifTag.hasAD := by
  fun_induction Path.packedAD pending p handled with
  | case1 p handled => exact ⟨rfl, rfl⟩
  | case2 p handled => exact ⟨rfl, rfl⟩
  | case3 p handled => exact ⟨packedStep_isValid _, packedStep_hasAD _⟩
  | case4 p handled more room pMem next atAD go ih =>
      exact ⟨ih.1.trans (packedStep_isValid _), ih.2.trans (packedStep_hasAD _)⟩
  | case5 p handled more room next other ih =>
      exact ⟨ih.1.trans (packedStep_isValid _), ih.2.trans (packedStep_hasAD _)⟩

structure Turn.Next (p q : Path) : Prop where
  advances : p.Advances q
  valid : q.Valid

structure Turn.Complete (stat : GifStat) (p q : Path) (gsPack : GSPacket) : Prop where
  buffer : q.buffer = p.buffer
  buffSize : q.buffSize = p.buffSize
  buffLimit : q.buffLimit = p.buffLimit
  curSize : q.curSize ≤ p.curSize
  kept : stat.Unmasked → q.curSize = p.curSize
  offset : gsPack.offset = p.gsPack.offset
  size : gsPack.offset + gsPack.size = q.curOffset
  some : 16 ≤ gsPack.size
  valid : q.Valid
  fresh : q.gsPack.size = 0

def Turn.Spec (stat : GifStat) (p : Path) : Turn → Prop
  | .starved q => Turn.Next p q
  | .next q => Turn.Next p q
  | .complete q gsPack => Turn.Complete stat p q gsPack

theorem endTag_spec (stat : GifStat) (advances : p.Advances q) (offset : p.gsPack.offset + p.gsPack.size = p.curOffset)
    (within : q.curOffset ≤ q.curSize) (some : 16 ≤ q.gsPack.size) :
    Turn.Spec stat p (q.endTag stat) := by
  have distance := advances.distance
  have start := advances.offset
  have invalid {P : Prop} : false = true → P := fun no => absurd no Bool.false_ne_true
  have size := advances.curSize
  unfold Path.endTag
  dsimp only
  split
  · split
    · rename_i three
      split
      · rename_i masked
        exact ⟨advances.buffer, advances.buffSize, advances.buffLimit, by dsimp only; omega,
          fun unmasked => absurd ⟨three, masked.2⟩ unmasked, start, by dsimp only; omega, some,
          ⟨rfl, Nat.le_refl _, invalid⟩, rfl⟩
      · exact ⟨advances.buffer, advances.buffSize, advances.buffLimit, by dsimp only; omega,
          fun _ => size, start, by dsimp only; omega, some, ⟨rfl, within, invalid⟩, rfl⟩
    · exact ⟨advances.buffer, advances.buffSize, advances.buffLimit, by dsimp only; omega,
        fun _ => size, start, by dsimp only; omega, some, ⟨rfl, within, invalid⟩, rfl⟩
  · exact ⟨advances.withTag _, by dsimp only; omega, within, invalid⟩

theorem tagData_spec (advances : p.Advances q)
    (offset : p.gsPack.offset + p.gsPack.size = p.curOffset)
    (within : q.curOffset ≤ q.curSize) (some : 16 ≤ q.gsPack.size)
    (data : q.gifTag.hasAD = false → q.curOffset + q.gifTag.len ≤ q.curSize) :
    Turn.Spec stat p (q.tagData stat pending handled).1 := by
  unfold Path.tagData
  split
  · rename_i hasAD
    have rest := packedAD_advances pending q handled
    have bound := packedAD_within pending q handled within
    have sameAD := (packedAD_tag pending q handled).2
    generalize q.packedAD pending handled = result at *
    obtain ⟨r, handled', ended⟩ := result
    dsimp only at rest bound sameAD
    have all := advances.trans rest
    have distance := rest.distance
    have forward := rest.forward
    have more : 16 ≤ r.gsPack.size := by omega
    have size := rest.curSize
    have stopped : Turn.Next p r := by
      have := all.distance
      refine ⟨all, ?_, by omega, fun _ => ⟨sameAD.trans hasAD, more⟩⟩
      rw [all.offset]
      omega
    have done := endTag_spec stat all offset (by omega) more
    cases ended with
    | starved => exact stopped
    | dblSIGNAL =>
        dsimp only
        split
        · exact done
        · exact stopped
    | finished => exact done
  · rename_i noAD
    have room := data (by simpa using noAD)
    exact endTag_spec stat (advances.trans (advances_incTag q _)) offset (by simpa [Path.incTag] using room)
      (by simp only [Path.incTag]; omega)

theorem setTag_isValid (t : GifTag) (pMem : List UInt8) : (t.setTag pMem).isValid = true := by
  unfold GifTag.setTag
  dsimp only
  split <;> rfl

theorem turn_spec (stat : GifStat) (pending : List (List UInt8) → Bool) (handled : List (List UInt8))
    (valid : p.Valid) : Turn.Spec stat p (p.turn stat pending handled).1 := by
  unfold Path.turn
  split
  · rename_i isValid
    obtain ⟨hasAD, some⟩ := valid.tag isValid
    exact tagData_spec (.refl p) valid.offset valid.within some
      fun no => absurd (hasAD.symm.trans no) (by decide)
  rename_i invalid
  split
  · exact ⟨.refl p, valid⟩
  rename_i room
  unfold Path.readTag
  dsimp only
  split
  · rename_i read
    split at read
    · cases read
    · rename_i enough
      cases read
      refine tagData_spec ?_ valid.offset ?_ ?_ ?_
      · exact ⟨rfl, rfl, rfl, rfl, rfl, Nat.le_add_right _ _, by simp only [Path.incTag]; omega⟩
      · simp only [Path.incTag]
        omega
      · simp only [Path.incTag]
        omega
      · intro noAD
        exact Nat.le_of_not_lt fun short => enough ⟨noAD, short⟩
  · rename_i read
    split at read
    · cases read
      refine ⟨⟨rfl, rfl, rfl, rfl, rfl, Nat.le_refl _, rfl⟩, valid.offset, valid.within, ?_⟩
      exact fun no => absurd no Bool.false_ne_true
    · cases read

/-! ## The whole of `ExecuteGSPacket` -/

def Path.remaining (p : Path) : Nat :=
  2 * (p.curSize - p.curOffset) + if p.gifTag.isValid then 1 else 0

def Turn.Below (n : Nat) : Turn → Prop
  | .starved _ => True
  | .next q => q.remaining < n
  | .complete q _ => q.remaining < n

theorem endTag_below {n : Nat} (few : 2 * (p.curSize - p.curOffset) < n) :
    (p.endTag stat).Below n := by
  unfold Path.endTag
  dsimp only
  split
  · split
    · split
      · simp only [Turn.Below, Path.remaining, Bool.false_eq_true, if_false]
        omega
      · simpa [Turn.Below, Path.remaining] using few
    · simpa [Turn.Below, Path.remaining] using few
  · simpa [Turn.Below, Path.remaining] using few

theorem tagData_below {n : Nat} (few : 2 * (p.curSize - p.curOffset) < n) :
    (p.tagData stat pending handled).1.Below n := by
  unfold Path.tagData
  split
  · have advances := packedAD_advances pending p handled
    generalize p.packedAD pending handled = result at *
    obtain ⟨q, handled', ended⟩ := result
    have forward := advances.forward
    have size := advances.curSize
    dsimp only at forward size
    have less : (q.endTag stat).Below n := endTag_below (by omega)
    cases ended with
    | starved => trivial
    | dblSIGNAL =>
        dsimp only
        split
        · exact less
        · trivial
    | finished => exact less
  · exact endTag_below (by simp only [Path.incTag]; omega)

theorem turn_below (stat : GifStat) (pending : List (List UInt8) → Bool) (p : Path)
    (handled : List (List UInt8)) : (p.turn stat pending handled).1.Below p.remaining := by
  unfold Path.turn
  split
  · rename_i isValid
    exact tagData_below (by simp only [Path.remaining, isValid, if_true]; omega)
  split
  · trivial
  rename_i room
  unfold Path.readTag
  dsimp only
  split
  · rename_i read
    split at read
    · cases read
    · cases read
      refine tagData_below ?_
      simp only [Path.remaining, Path.incTag]
      omega
  · trivial

end

/-- The start of a turn: the packet is moved to the front where a tag is past `buffLimit`. -/
def Path.align (p : Path) : Path := if p.needsRealign then p.realignPacket else p

theorem align_remaining (p : Path) : p.align.remaining ≤ p.remaining := by
  unfold Path.align
  split
  · refine Nat.add_le_add_right ?_ _
    simp only [Path.realignPacket]
    omega
  · exact Nat.le_refl _

/-- `ExecuteGSPacket`: the packet if it is complete. -/
def Path.executeGSPacket (stat : GifStat) (pending : List (List UInt8) → Bool) (p : Path)
    (handled : List (List UInt8)) : Path × Option GSPacket × List (List UInt8) :=
  have below := turn_below stat pending p.align handled
  match result : p.align.turn stat pending handled with
  | (.starved p, handled) => (p, none, handled)
  | (.complete p gsPack, handled) => (p, some gsPack, handled)
  | (.next q, handled) =>
    have := Nat.lt_of_lt_of_le (result ▸ below : Turn.Below _ _) (align_remaining p)
    q.executeGSPacket stat pending handled
termination_by p.remaining

end Pcsx2.Gif
