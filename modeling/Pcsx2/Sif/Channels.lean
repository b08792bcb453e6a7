import Pcsx2.Dma.Chain
import Pcsx2.Foundation.Loop
import Pcsx2.Sif.Fifo

/-!
# SIF1, from the EE to the IOP

The EE puts the quadwords of a source chain into the FIFO; the IOP takes tags out of it and, for
each, words to its memory. `SIF1Dma` lets both go on until neither can. The cycles that transfers
take are left out.
-/

namespace Pcsx2.Sif

open Foundation Dma

abbrev Byte := BitVec 8

def quadWords (quad : Quad) : List Word := [quad.word 0, quad.word 1, quad.word 2, quad.word 3]

def wordBytes (word : Word) : List Byte :=
  [word.extractLsb' 0 8, word.extractLsb' 8 8, word.extractLsb' 16 8, word.extractLsb' 24 8]

/-- The memory the EE reads, and how much of the IOP's there is. -/
structure Host where
  mem : EeMemory
  exposedRam : Nat
  exposedIopRam : Nat

/-- Copies words to `iopPhysMem(madr)`. -/
def Host.copyToIop (host : Host) (iopMem : Nat → Byte) (madr : Word) (words : List Word) : Nat → Byte :=
  perform iopMem (blockStores (madr.toNat % host.exposedIopRam) (words.flatMap wordBytes))

namespace Sif1

structure State where
  fifo : SifFifo
  eeEnd : Bool
  eeBusy : Bool
  iopEnd : Bool
  iopBusy : Bool
  counter : Nat
  /-- `sif1data` and `sif1words`, of the last tag. -/
  data : Word
  words : Word
  sif1ch : Registers
  /-- `hw_dma10.madr` -/
  madr : Word
  iopMem : Nat → Byte
  sif1_dma_stall : Bool
  /-- `dmacRegs.ctrl.STD == STD_SIF1` -/
  std : Bool
  stadr : Nat
  /-- How often `EndEE` and `EndIOP` signalled their interrupts. -/
  eeEnds : Nat
  iopEnds : Nat
  /-- All the EE has put into the FIFO, how many words of it the IOP has taken, and whether the EE's last tag ended
  its chain. -/
  sent : List Word
  taken : Nat
  last : Bool

variable (host : Host) (s : State)

namespace State

def writeFifo (words : List Word) : State :=
  { s with fifo := s.fifo.write words, sent := s.sent ++ words }

def writeSize : Nat := min s.sif1ch.qwc (s.fifo.sif_free >>> 2)

def WriteEEtoFifo : State :=
  match dmaGetAddr host.exposedRam s.sif1ch.madr false with
  | none => { s with sif1ch.chcr.STR := false }
  | some ptag =>
      { s.writeFifo ((host.mem.quads ptag s.writeSize).flatMap quadWords) with
        sif1ch := s.sif1ch.advance s.writeSize }

def WriteFifoToIOP : State :=
  let readSize := min s.counter s.fifo.size
  let (words, fifo) := s.fifo.read readSize
  { s with
    fifo
    taken := s.taken + readSize
    iopMem := host.copyToIop s.iopMem s.madr words
    madr := s.madr + BitVec.ofNat 32 (readSize <<< 2)
    counter := s.counter - readSize }

def ProcessEETag : State :=
  match dmaGetAddr host.exposedRam s.sif1ch.tadr false with
  | none => { s with sif1ch.chcr.STR := false }
  | some ptag =>
      let quad := host.mem ptag.1 ptag.2
      let s := if s.sif1ch.chcr.TTE then s.writeFifo [quad.word 2, quad.word 3] else s
      let next := s.sif1ch.readTag Registers.hwDmacSrcChain quad
      { s with sif1ch := next.ch, eeEnd := next.last, last := next.last }

/-- `sif1tag.IRQ || (sif1tag.ID & 4)` -/
def endsIop (data : Word) : Bool := Tag.IRQ data || (Tag.ID data &&& 4 != 0)

def SIFIOPReadTag : State :=
  let (words, fifo) := s.fifo.read 4
  let data := words.getD 0 0
  let wordCount := words.getD 1 0
  { s with
    fifo
    taken := s.taken + 4
    data
    words := wordCount
    madr := data &&& 0xffffff
    counter := (wordCount &&& 0xFFFFC).toNat
    iopEnd := endsIop data || s.iopEnd }

def EndEE : State := { s with eeEnd := false, eeBusy := false, eeEnds := s.eeEnds + 1 }

def EndIOP : State := { s with data := 0, iopEnd := false, iopBusy := false, iopEnds := s.iopEnds + 1 }

/-- Whether the next piece ends above `STADR`. -/
def aboveStadr : Bool := (s.sif1ch.madr + BitVec.ofNat 32 (s.writeSize * 16)).toNat > s.stadr

def stallsAt : Bool :=
  s.std && (s.sif1ch.chcr.MOD = NORMAL_MODE ||
    (s.sif1ch.chcr.TAG.zeroExtend 32 >>> 28) &&& 7 = TAG_REFS.zeroExtend 32) && s.aboveStadr

def HandleEETransfer : State :=
  if s.sif1ch.chcr.STR = false then { s with eeEnd := false, eeBusy := false }
  else if s.sif1ch.qwc = 0 then
    if s.sif1ch.chcr.MOD = NORMAL_MODE ∨ s.eeEnd = true then s.EndEE else s.ProcessEETag host
  else if s.stallsAt then { s with sif1_dma_stall := true }
  else if 0 < s.fifo.sif_free then s.WriteEEtoFifo host
  else s

def HandleIOPTransfer : State :=
  let s := if 0 < s.counter ∧ 0 < s.fifo.size then s.WriteFifoToIOP host else s
  if s.counter = 0 then
    if s.iopEnd then s.EndIOP
    else if 4 ≤ s.fifo.size then s.SIFIOPReadTag
    else s
  else s

def eeReady : Bool :=
  s.eeBusy && !s.sif1_dma_stall && (0 < s.fifo.sif_free || (s.eeEnd && s.sif1ch.qwc = 0))

def iopReady : Bool := s.iopBusy && (4 ≤ s.fifo.size || (s.iopEnd && s.counter = 0))

def eePass : State := if s.eeReady then s.HandleEETransfer host else s

def iopPass : State := if s.iopReady then s.HandleIOPTransfer host else s

/-- `BusyCheck` after a pass of the loop that starts in the state. -/
def busyCheck : Bool := s.eeReady || (s.eePass host).iopReady

/-- At most so many passes of the loop. -/
def loop : Nat → State → State
  | 0, s => s
  | passes + 1, s => if s.busyCheck host then loop passes ((s.eePass host).iopPass host) else s

def SIF1Dma (passes : Nat) : State :=
  if s.sif1_dma_stall && s.aboveStadr then s else { s with sif1_dma_stall := false }.loop host passes

def resumesLast (vif1TIE : Bool) : Bool :=
  s.sif1ch.chcr.MOD = CHAIN_MODE && 0 < s.sif1ch.qwc &&
    (s.sif1ch.chcr.tag.ID = TAG_REFE || s.sif1ch.chcr.tag.ID = TAG_END || (s.sif1ch.chcr.tag.IRQ && vif1TIE))

/-- `vif1TIE` is the bit of VIF1's `CHCR`. -/
def dmaSIF1 (vif1TIE : Bool) (passes : Nat) : State :=
  { s with eeBusy := true, eeEnd := s.resumesLast vif1TIE }.SIF1Dma host passes

def psxDma10 (passes : Nat) : State :=
  { s with iopBusy := true, iopEnd := false }.SIF1Dma host passes

end State

/-! ## Runs -/

/-- What happens to a channel that has been set up. `CHCR` is written back with nothing but `STR` changed. -/
inductive Action
  /-- `STR` is cleared. -/
  | suspend
  /-- `STR` is set. -/
  | start (vif1TIE : Bool) (passes : Nat)
  | psxDma10 (passes : Nat)
  /-- The DMAC's stall control is changed. -/
  | stall (std : Bool) (stadr : Nat)

def step (s : State) : Action → State
  | .suspend => { s with sif1ch.chcr.STR := false }
  | .start vif1TIE passes =>
      -- a start is ignored while the channel is active
      if s.sif1ch.chcr.STR then s else { s with sif1ch.chcr.STR := true }.dmaSIF1 host vif1TIE passes
  | .psxDma10 passes => s.psxDma10 host passes
  | .stall std stadr => { s with std, stadr }

def run (actions : List Action) : State := actions.foldl (step host) s

end Sif1

end Pcsx2.Sif

/-!
# SIF0, from the IOP to the EE

The IOP puts the words of its tags and of their packets into the FIFO, each packet filled up to whole quadwords; the EE
takes its tags out of it and, for each, quadwords to its memory. The cycles that transfers take are left out.
-/

namespace Pcsx2.Sif
open Foundation Dma

/-- The word at `iopPhysMem`. -/
def iopWord (iopMem : Nat → Byte) (i : Nat) : Word := iopMem (i + 3) ++ iopMem (i + 2) ++ iopMem (i + 1) ++ iopMem i

def Host.iopWords (host : Host) (iopMem : Nat → Byte) (addr : Word) (count : Nat) : List Word :=
  (List.range count).map fun i => iopWord iopMem (addr.toNat % host.exposedIopRam + 4 * i)

def wordsQuad (words : Nat → Word) : Quad := words 3 ++ words 2 ++ words 1 ++ words 0

def copyToEe (mem : EeMemory) (ptag : Region × Nat) (words : List Word) : EeMemory := fun region =>
  if region = ptag.1 then
    perform (mem region) (blockStores ptag.2 ((List.range (words.length / 4)).map fun i =>
      wordsQuad fun lane => words.getD (4 * i + lane) 0))
  else mem region

namespace Sif0

structure State where
  fifo : SifFifo
  eeEnd : Bool
  eeBusy : Bool
  iopEnd : Bool
  iopBusy : Bool
  writeJunk : Nat
  counter : Nat
  /-- `sif0data` and `sif0words`, of the last tag. -/
  data : Word
  words : Word
  sif0ch : Registers
  eeMem : EeMemory
  /-- `hw_dma9.madr` and `hw_dma9.tadr` -/
  madr : Word
  tadr : Word
  /-- `dmacRegs.ctrl.STS == STS_SIF0` -/
  sts : Bool
  stadr : Word
  /-- How often `EndEE` and `EndIOP` signalled their interrupts. -/
  eeEnds : Nat
  iopEnds : Nat
  /-- How many words of its tags and packets the IOP has put into the FIFO, and how many the EE has taken. -/
  sent : Nat
  taken : Nat

variable (host : Host) (iopMem : Nat → Byte) (s : State)

namespace State

/-- `dmacRegs.stadr.ADDR` has 31 bits. -/
def setStadr (addr : Word) : State := { s with stadr := addr &&& 0x7fffffff }

def controlsStall : Bool :=
  s.sts && (s.sif0ch.chcr.MOD = NORMAL_MODE ||
    (s.sif0ch.chcr.TAG.zeroExtend 32 >>> 28) &&& 7 = TAG_CNTS.zeroExtend 32)

def WriteFifoToEE : State :=
  let readSize := min s.sif0ch.qwc (s.fifo.size >>> 2)
  match dmaGetAddr host.exposedRam s.sif0ch.madr true with
  | none => { s with sif0ch.chcr.STR := false }
  | some ptag =>
      let (words, fifo) := s.fifo.read (readSize <<< 2)
      let s := { s with
        fifo
        taken := s.taken + readSize <<< 2
        eeMem := copyToEe s.eeMem ptag words
        sif0ch.madr := s.sif0ch.madr + BitVec.ofNat 32 (readSize <<< 4)
        sif0ch.qwc := s.sif0ch.qwc - readSize }
      if s.sif0ch.qwc = 0 ∧ s.controlsStall then s.setStadr s.sif0ch.madr else s

def WriteIOPtoFifo : State :=
  let writeSize := min s.counter s.fifo.sif_free
  { s with
    fifo := s.fifo.write (host.iopWords iopMem s.madr writeSize)
    sent := s.sent + writeSize
    madr := s.madr + BitVec.ofNat 32 (writeSize <<< 2)
    counter := s.counter - writeSize }

def ProcessEETag : State :=
  let (words, fifo) := s.fifo.read 4
  let tag : Tag := words.getD 0 0
  let s := { s with
    fifo
    taken := s.taken + 4
    sif0ch := { s.sif0ch.transfer tag with madr := words.getD 1 0 } }
  let s := if s.sif0ch.chcr.TIE ∧ tag.IRQ then { s with eeEnd := true } else s
  if tag.ID = TAG_CNTS then if s.sts then s.setStadr s.sif0ch.madr else s
  else if tag.ID = TAG_END then { s with eeEnd := true }
  else s

/-- The first two words of the tag at an address of the IOP. -/
def tagAt (tadr : Word) : Word × Word :=
  let tag := host.iopWords iopMem tadr 2
  (tag.getD 0 0, tag.getD 1 0)

def tagCounter (words : Word) : Nat := (words &&& 0xFFFFF).toNat

def ProcessIOPTag : State :=
  let (data, words) := tagAt host iopMem s.tadr
  let counter := tagCounter words
  { s with
    data
    words
    fifo := s.fifo.write (host.iopWords iopMem (s.tadr + 8) 4)
    sent := s.sent + 4
    tadr := s.tadr + 16
    madr := data &&& 0xFFFFFF
    counter
    writeJunk := if counter % 4 = 0 then 0 else 4 - counter % 4
    iopEnd := Sif1.State.endsIop data || s.iopEnd }

def EndEE : State := { s with eeEnd := false, eeBusy := false, eeEnds := s.eeEnds + 1 }

def EndIOP : State := { s with data := 0, iopEnd := false, iopBusy := false, iopEnds := s.iopEnds + 1 }

def HandleEETransfer : State :=
  if s.sif0ch.chcr.STR = false then { s with eeEnd := false, eeBusy := false }
  else
    let s :=
      if s.sif0ch.qwc = 0 then
        if s.sif0ch.chcr.MOD = NORMAL_MODE ∨ s.eeEnd = true then s.EndEE
        else if 4 ≤ s.fifo.size then s.ProcessEETag
        else s
      else s
    if 0 < s.sif0ch.qwc ∧ 4 ≤ s.fifo.size then s.WriteFifoToEE host else s

def HandleIOPTransfer : State :=
  if s.counter = 0 then if s.iopEnd then s.EndIOP else s.ProcessIOPTag host iopMem
  else if 0 < s.fifo.sif_free then s.WriteIOPtoFifo host iopMem
  else s

def fillUp : State :=
  if s.counter = 0 ∧ s.writeJunk ≠ 0 ∧ s.writeJunk ≤ s.fifo.sif_free then
    { s with fifo := s.fifo.writeJunk s.writeJunk, writeJunk := 0 }
  else s

def iopReady : Bool := s.iopBusy && (0 < s.fifo.sif_free || (s.iopEnd && s.counter = 0))

def eeReady : Bool := s.eeBusy && (4 ≤ s.fifo.size || (s.eeEnd && s.sif0ch.qwc = 0))

def iopPass : State := if s.iopReady then s.HandleIOPTransfer host iopMem else s

def eePass : State := if s.eeReady then s.HandleEETransfer host else s

def pass : State := ((s.fillUp).iopPass host iopMem).eePass host

/-- `BusyCheck` after a pass of the loop that starts in the state. -/
def busyCheck : Bool := s.fillUp.iopReady || (s.fillUp.iopPass host iopMem).eeReady

def SIF0Dma (passes : Nat) : State := busyLoop (busyCheck host iopMem) (pass host iopMem) passes s

end State

end Sif0

end Pcsx2.Sif
