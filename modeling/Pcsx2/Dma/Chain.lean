import Mathlib.Algebra.Order.Ring.Int
import Pcsx2.Foundation.Run
import Pcsx2.Foundation.Memory

/-!
# Source chains

The registers of a channel that reads a chain of tags, and the quadwords it sends one after another.
-/

namespace Pcsx2.Dma

open Foundation

abbrev Word := BitVec 32

abbrev Quad := BitVec 128

def Quad.word (quad : Quad) (i : Nat) : Word := quad.extractLsb' (32 * i) 32

def TAG_CNTS : BitVec 3 := 0
def TAG_REFE : BitVec 3 := 0
def TAG_CNT : BitVec 3 := 1
def TAG_NEXT : BitVec 3 := 2
def TAG_REF : BitVec 3 := 3
def TAG_REFS : BitVec 3 := 4
def TAG_CALL : BitVec 3 := 5
def TAG_RET : BitVec 3 := 6
def TAG_END : BitVec 3 := 7

/-! ## Tags and registers -/

abbrev Tag := Word

namespace Tag

variable (tag : Tag)

def QWC : Nat := (tag.extractLsb' 0 16).toNat

def ID : BitVec 3 := tag.extractLsb' 28 3

def IRQ : Bool := tag.getLsbD 31

def upper : BitVec 16 := tag.extractLsb' 16 16

end Tag

def NORMAL_MODE : BitVec 2 := 0
def CHAIN_MODE : BitVec 2 := 1

structure Chcr where
  MOD : BitVec 2
  ASP : BitVec 2
  TTE : Bool
  TIE : Bool
  STR : Bool
  TAG : BitVec 16
  deriving DecidableEq

/-- `tag()`: the first word of the last tag, as far as `CHCR` keeps it. -/
def Chcr.tag (chcr : Chcr) : Tag := chcr.TAG.zeroExtend 32 <<< 16

structure Registers where
  chcr : Chcr
  madr : Word
  qwc : Nat
  tadr : Word
  asr0 : Word
  asr1 : Word
  deriving DecidableEq

namespace Registers

variable (ch : Registers)

/-- `unsafeTransfer` -/
def transfer (tag : Tag) : Registers := { ch with chcr.TAG := tag.upper, qwc := tag.QWC }

def hwDmacSrcTadrInc : Registers :=
  if ch.chcr.STR = false then ch
  else if ch.chcr.MOD ≠ 1 then ch
  else if ch.chcr.TAG.extractLsb' 12 3 = TAG_CNT then { ch with tadr := ch.madr }
  else ch

def hwDmacSrcChain (id : BitVec 3) : Registers × Bool :=
  if id = TAG_REFE then ({ ch with tadr := ch.tadr + 16 }, true)
  else if id = TAG_CNT then ({ ch with madr := ch.tadr + 16, tadr := ch.tadr + 16 }, false)
  else if id = TAG_NEXT then ({ ch with madr := ch.tadr + 16, tadr := ch.madr }, false)
  else if id = TAG_REF ∨ id = TAG_REFS then ({ ch with tadr := ch.tadr + 16 }, false)
  else if id = TAG_END then ({ ch with madr := ch.tadr + 16 }, true)
  -- undefined tags end the DMA
  else (ch, true)

def hwDmacSrcChainWithStack (id : BitVec 3) : Registers × Bool :=
  if id = TAG_REFE then ({ ch with tadr := ch.tadr + 16 }, true)
  else if id = TAG_CNT then ({ ch with tadr := ch.tadr + 16, madr := ch.tadr + 16 }, false)
  else if id = TAG_NEXT then ({ ch with madr := ch.tadr + 16, tadr := ch.madr }, false)
  else if id = TAG_REF ∨ id = TAG_REFS then ({ ch with tadr := ch.tadr + 16 }, false)
  else if id = TAG_CALL then
    let temp := ch.madr
    let ch := { ch with madr := ch.tadr + 16 }
    let next := ch.madr + BitVec.ofNat 32 (ch.qwc <<< 4)
    if ch.chcr.ASP = 0 then ({ ch with asr0 := next, chcr.ASP := 1, tadr := temp }, false)
    else if ch.chcr.ASP = 1 then ({ ch with asr1 := next, chcr.ASP := 2, tadr := temp }, false)
    -- the stack is full
    else (ch, true)
  else if id = TAG_RET then
    let ch := { ch with madr := ch.tadr + 16 }
    if ch.chcr.ASP = 2 then ({ ch with tadr := ch.asr1, asr1 := 0, chcr.ASP := 1 }, false)
    else if ch.chcr.ASP = 1 then ({ ch with tadr := ch.asr0, asr0 := 0, chcr.ASP := 0 }, false)
    else (ch, true)
  else ({ ch with madr := ch.tadr + 16 }, true)

end Registers

/-! ## Memory -/

inductive Region
  | scratch
  | main
  | zeroRead
  | zeroWrite
  deriving DecidableEq

abbrev EeMemory := Region → Nat → Quad

/-- The host array behind an address and the quadword in it. `exposedRam` is the size of main memory. -/
def dmaGetAddr (exposedRam : Nat) (addr : Word) (write : Bool) : Option (Region × Nat) :=
  if addr.getLsbD 31 then some (.scratch, (addr &&& 0x3ff0).toNat / 16)
  else
    let addr := addr &&& 0x1ffffff0
    if addr.toNat < exposedRam then some (.main, addr.toNat / 16)
    else if addr < 0x10000000 then some (if write then .zeroWrite else .zeroRead, 0)
    else if addr < 0x10004000 then some (.scratch, (addr &&& 0x3ff0).toNat / 16)
    else none

def EeMemory.quads (mem : EeMemory) (host : Region × Nat) (count : Nat) : List Quad :=
  load (mem host.1) host.2 count

/-! ## What a chain sends -/

def Registers.advance (ch : Registers) (count : Nat) : Registers :=
  hwDmacSrcTadrInc { ch with madr := ch.madr + BitVec.ofNat 32 (count <<< 4), qwc := ch.qwc - count }

theorem Registers.advance_advance (ch : Registers) (m n : Nat) :
    (ch.advance m).advance n = ch.advance (m + n) := by
  have address : ch.madr + BitVec.ofNat 32 (m <<< 4) + BitVec.ofNat 32 (n <<< 4) =
      ch.madr + BitVec.ofNat 32 ((m + n) <<< 4) := by
    rw [BitVec.add_assoc, ← BitVec.ofNat_add, Nat.shiftLeft_eq, Nat.shiftLeft_eq, Nat.shiftLeft_eq, Nat.add_mul]
  unfold advance hwDmacSrcTadrInc
  dsimp only
  split
  · rw [address, Nat.sub_sub]
  · split
    · rw [address, Nat.sub_sub]
    · split <;> rw [address, Nat.sub_sub]

structure Reading where
  ch : Registers
  last : Bool

section

variable (chain : Registers → BitVec 3 → Registers × Bool)

/-- The tag at `TADR` is read: the registers of its packet. -/
def Registers.readTag (ch : Registers) (quad : Quad) : Reading :=
  let tag : Tag := quad.word 0
  let next := chain { ch.transfer tag with madr := quad.word 1 } tag.ID
  ⟨next.1, next.2 || (next.1.chcr.TIE && tag.IRQ)⟩

variable (mem : EeMemory) (exposedRam : Nat)

structure Reading.InMemory (r : Reading) : Prop where
  packet : 0 < r.ch.qwc → ∃ host, dmaGetAddr exposedRam r.ch.madr false = some host ∧
    ∀ i < r.ch.qwc, ∃ other,
      dmaGetAddr exposedRam (r.ch.madr + BitVec.ofNat 32 (i <<< 4)) false = some other ∧
        mem other.1 other.2 = mem host.1 (host.2 + i)
  tag : r.ch.qwc = 0 → r.last = false → (dmaGetAddr exposedRam r.ch.tadr false).isSome

variable {chain mem exposedRam}

@[simp] theorem Registers.advance_qwc (ch : Registers) (count : Nat) : (ch.advance count).qwc = ch.qwc - count := by
  unfold advance hwDmacSrcTadrInc
  split
  · rfl
  · split
    · rfl
    · split <;> rfl

@[simp] theorem Registers.advance_madr (ch : Registers) (count : Nat) :
    (ch.advance count).madr = ch.madr + BitVec.ofNat 32 (count <<< 4) := by
  unfold advance hwDmacSrcTadrInc
  split
  · rfl
  · split
    · rfl
    · split <;> rfl

@[simp] theorem Registers.advance_chcr (ch : Registers) (count : Nat) : (ch.advance count).chcr = ch.chcr := by
  unfold advance hwDmacSrcTadrInc
  split
  · rfl
  · split
    · rfl
    · split <;> rfl

end

end Pcsx2.Dma
