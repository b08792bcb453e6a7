import Mathlib.Algebra.Order.Ring.Int
import Pcsx2.Foundation.Triple

/-!
# The bus behind SIO2 and the protocol of memory cards

Handlers work on the globals that the devices share: both FIFOs, the cards, the pads and the multitaps. Where
the program would take the front of an empty FIFO or index an array out of its bounds, the model faults.
Card images and pads are abstract.
-/

namespace Pcsx2.Sio
open Foundation

scoped instance neZeroPorts : NeZero 2 := ⟨Nat.succ_ne_zero 1⟩

scoped instance neZeroSlots : NeZero 4 := ⟨Nat.succ_ne_zero 3⟩

inductive Fault
  | emptyFifo
  | cmdQueue (index : Nat)
  | sectorBuffer (index : Nat)
  deriving DecidableEq

structure McdSizeInfo where
  SectorSize : UInt16
  EraseBlockSizeInSectors : UInt16
  McdSizeInSectors : UInt32
  Xor : UInt8

/-- The `FileMcd_*` functions on the image of a card, and what a pad answers. -/
structure Devices (Card Pad : Type) where
  getSizeInfo : Card → McdSizeInfo
  read : Card → UInt32 → (size : Nat) → Vector UInt8 size × Card
  save : Card → UInt32 → List UInt8 → Card
  eraseBlock : Card → UInt32 → Card
  notConnected : Pad → Bool
  softReset : Pad → Pad
  sendCommandByte : Pad → UInt8 → UInt8 × Pad

/-- `_mcd`, with the card that is in the slot: `IsPresent` and `IsPSX` look at what the host has opened there,
which no command changes. -/
structure Mcd (Card : Type) where
  term : UInt8
  goodSector : Bool
  sectorAddr : UInt32
  transferAddr : UInt32
  FLAG : UInt8
  autoEjectTicks : Nat
  IsPresent : Bool
  IsPSX : Bool
  image : Card

structure PadBase (Pad : Type) where
  ejectTicks : Nat
  pad : Pad

structure MultitapProtocol where
  currentPadSlot : Fin 4
  currentMemcardSlot : Fin 4

structure PS1MemoryCardState where
  currentByte : Nat
  sectorAddrMSB : UInt8
  sectorAddrLSB : UInt8
  checksum : UInt8
  expectedChecksum : UInt8
  buf : Vector UInt8 128

structure Bus (Card Pad : Type) where
  CmdStat : UInt32
  fifoIn : List UInt8
  fifoOut : List UInt8
  mcds : Fin 2 → Fin 4 → Mcd Card
  mcd : Fin 2 × Fin 4
  ps1McState : PS1MemoryCardState
  multitaps : Fin 2 → MultitapProtocol
  multitapEnabled : Fin 2 → Bool
  pads : Fin 2 → Fin 4 → PadBase Pad

abbrev SioM (Card Pad : Type) := StateT (Bus Card Pad) (Except Fault)

variable {Card Pad : Type}

namespace Bus

def card (bus : Bus Card Pad) : Mcd Card := bus.mcds bus.mcd.1 bus.mcd.2

def setCard (bus : Bus Card Pad) (card : Mcd Card) : Bus Card Pad :=
  { bus with mcds := fun port slot => if (port, slot) = bus.mcd then card else bus.mcds port slot }

def push (bus : Bus Card Pad) (bytes : List UInt8) : Bus Card Pad :=
  { bus with fifoOut := bus.fifoOut ++ bytes }

end Bus

/-! ## FIFOs -/

/-- `g_Sio2FifoIn.front()` and then `pop_front()`. -/
def popIn : SioM Card Pad UInt8 := do
  let bus ← get
  match bus.fifoIn with
  | [] => throw .emptyFifo
  | byte :: rest => do set { bus with fifoIn := rest }; return byte

def pushOut (byte : UInt8) : SioM Card Pad Unit := modify fun bus => bus.push [byte]

/-- `while (g_Sio2FifoOut.size() < size) g_Sio2FifoOut.push_back(byte)`. -/
def fillOut (size : Nat) (byte : UInt8) : SioM Card Pad Unit :=
  modify fun bus => bus.push (List.replicate (size - bus.fifoOut.length) byte)

/-- A loop that takes the bytes of `g_Sio2FifoIn`, given here as well, until it is empty. -/
def respondToEach (respond : UInt8 → SioM Card Pad UInt8) : List UInt8 → SioM Card Pad Unit
  | [] => return
  | byte :: rest => do
    let response ← respond byte
    let _ ← popIn
    pushOut response
    respondToEach respond rest

def modifyCard (update : Mcd Card → Mcd Card) : SioM Card Pad Unit :=
  modify fun bus => bus.setCard (update bus.card)

/-! ## PS2 commands -/

namespace MemoryCardProtocol

variable (devices : Devices Card Pad) (commandLength : Nat)

/-- `PS1_FAIL()`: a PS1 card gives dead air to a command of SIO2, and `handler` is not run. -/
def unlessPS1Fail (handler : SioM Card Pad Unit) : SioM Card Pad Unit := do
  if (← get).card.IsPSX ∧ 0 < commandLength then
    fillOut commandLength 0x00
  else
    handler

def The2bTerminator (length : Nat) : SioM Card Pad Unit := do
  fillOut (length - 2) 0x00
  pushOut 0x2b
  pushOut (← get).card.term

def pushAbsent : SioM Card Pad Unit := do
  pushOut 0xff
  pushOut 0xff
  pushOut 0xff
  pushOut 0xff

def Probe : SioM Card Pad Unit := unlessPS1Fail commandLength do
  if !(← get).card.IsPresent then pushAbsent else The2bTerminator 4

def UnknownWriteDeleteEnd : SioM Card Pad Unit := unlessPS1Fail commandLength (The2bTerminator 4)

def SetSector : SioM Card Pad Unit := unlessPS1Fail commandLength do
  let sectorLSB ← popIn
  let sector2nd ← popIn
  let sector3rd ← popIn
  let sectorMSB ← popIn
  let expectedChecksum ← popIn
  let computedChecksum := sectorLSB ^^^ sector2nd ^^^ sector3rd ^^^ sectorMSB
  let newSector := sectorLSB.toUInt32 ||| (sector2nd.toUInt32 <<< 8) ||| (sector3rd.toUInt32 <<< 16) |||
    (sectorMSB.toUInt32 <<< 24)
  modifyCard fun mcd => { mcd with
    goodSector := computedChecksum = expectedChecksum
    sectorAddr := newSector
    transferAddr := ((devices.getSizeInfo mcd.image).SectorSize.toUInt32 + 16) * newSector }
  The2bTerminator 9

def GetSpecs : SioM Card Pad Unit := unlessPS1Fail commandLength do
  let info := devices.getSizeInfo (← get).card.image
  pushOut 0x2b
  pushOut (info.SectorSize &&& 0xff).toUInt8
  pushOut (info.SectorSize >>> 8).toUInt8
  pushOut (info.EraseBlockSizeInSectors &&& 0xff).toUInt8
  pushOut (info.EraseBlockSizeInSectors >>> 8).toUInt8
  pushOut (info.McdSizeInSectors &&& 0xff).toUInt8
  pushOut (info.McdSizeInSectors >>> 8).toUInt8
  pushOut (info.McdSizeInSectors >>> 16).toUInt8
  pushOut (info.McdSizeInSectors >>> 24).toUInt8
  pushOut info.Xor
  pushOut (← get).card.term

def SetTerminator : SioM Card Pad Unit := unlessPS1Fail commandLength do
  let term ← popIn
  modifyCard fun mcd => { mcd with term }
  pushOut 0x00
  pushOut 0x2b
  pushOut (← get).card.term

def GetTerminator : SioM Card Pad Unit := unlessPS1Fail commandLength do
  pushOut 0x2b
  pushOut (← get).card.term
  pushOut (← get).card.term

/-- The loop of `WriteData`: the bytes taken and their checksum. -/
def writeLoop : Nat → UInt8 → SioM Card Pad (List UInt8 × UInt8)
  | 0, checksum => return ([], checksum)
  | n + 1, checksum => do
    let writeByte ← popIn
    pushOut 0x00
    let (buf, checksum) ← writeLoop n (checksum ^^^ writeByte)
    return (writeByte :: buf, checksum)

def ReadWriteIncrement (length : UInt8) : SioM Card Pad Unit :=
  modifyCard fun mcd => { mcd with transferAddr := mcd.transferAddr + length.toUInt32 }

def WriteData : SioM Card Pad Unit := unlessPS1Fail commandLength do
  pushOut 0x00
  pushOut 0x2b
  let writeLength ← popIn
  let (buf, checksum) ← writeLoop writeLength.toNat 0x00
  modifyCard fun mcd => { mcd with image := devices.save mcd.image mcd.transferAddr buf }
  pushOut checksum
  pushOut (← get).card.term
  ReadWriteIncrement writeLength

def ReadData : SioM Card Pad Unit := unlessPS1Fail commandLength do
  let readLength ← popIn
  pushOut 0x00
  pushOut 0x2b
  let mcd := (← get).card
  let (buf, image) := devices.read mcd.image mcd.transferAddr readLength.toNat
  modifyCard fun mcd => { mcd with image }
  modify fun bus => bus.push buf.toList
  pushOut (buf.toList.foldl (· ^^^ ·) 0x00)
  pushOut (← get).card.term
  ReadWriteIncrement readLength

def ReadWriteEnd : SioM Card Pad Unit := unlessPS1Fail commandLength (The2bTerminator 4)

def EraseBlock : SioM Card Pad Unit := unlessPS1Fail commandLength do
  modifyCard fun mcd => { mcd with image := devices.eraseBlock mcd.image mcd.transferAddr }
  The2bTerminator 4

def UnknownBoot : SioM Card Pad Unit := unlessPS1Fail commandLength (The2bTerminator 5)

/-- The mode bytes of `AuthXor`, by what the card is asked to do. -/
inductive AuthMode
  | longXor
  | shortNoXor
  | longNoXor
  | unexpected
  deriving DecidableEq

def authMode (modeByte : UInt8) : AuthMode :=
  if modeByte ∈ [0x01, 0x02, 0x04, 0x0f, 0x11, 0x13] then .longXor
  else if modeByte ∈ [0x00, 0x03, 0x05, 0x08, 0x09, 0x0a, 0x0c, 0x0d, 0x0e, 0x10, 0x12, 0x14] then .shortNoXor
  else if modeByte ∈ [0x06, 0x07, 0x0b] then .longNoXor
  else .unexpected

def AuthXor : SioM Card Pad Unit := unlessPS1Fail commandLength do
  let modeByte ← popIn
  match authMode modeByte with
  | .longXor => do
    pushOut 0x00
    pushOut 0x2b
    let (_, xorResult) ← writeLoop 8 0x00
    pushOut xorResult
    pushOut (← get).card.term
  | .shortNoXor => The2bTerminator 5
  | .longNoXor => The2bTerminator 14
  | .unexpected => return

def AuthF3 : SioM Card Pad Unit := unlessPS1Fail commandLength do
  if !(← get).card.IsPresent then
    pushAbsent
  else
    modifyCard fun mcd => { mcd with term := 0x55 }
    The2bTerminator 5

def AuthF7 : SioM Card Pad Unit := unlessPS1Fail commandLength (The2bTerminator 5)

/-! ## PS1 commands -/

def ResetPS1State : SioM Card Pad Unit :=
  modify fun bus => { bus with ps1McState := ⟨2, 0, 0, 0, 0, Vector.replicate 128 0⟩ }

def modifyPS1 (update : PS1MemoryCardState → PS1MemoryCardState) : SioM Card Pad Unit :=
  modify fun bus => { bus with ps1McState := update bus.ps1McState }

def RecalculatePS1Addr : SioM Card Pad Unit := do
  let ps1 := (← get).ps1McState
  let sectorAddr := (ps1.sectorAddrMSB.toUInt32 <<< 8) ||| ps1.sectorAddrLSB.toUInt32
  modifyCard fun mcd =>
    { mcd with sectorAddr, goodSector := sectorAddr ≤ 0x03ff, transferAddr := 128 * sectorAddr }

/-- `ps1McState.buf[index]`. -/
def sectorByte (index : Nat) : SioM Card Pad UInt8 := do
  match (← get).ps1McState.buf[index]? with
  | none => throw (.sectorBuffer index)
  | some byte => return byte

/-- `ps1McState.buf[index] = data`. -/
def setSectorByte (index : Nat) (data : UInt8) : SioM Card Pad Unit := do
  if index < 128 then
    modifyPS1 fun ps1 => { ps1 with buf := ps1.buf.setIfInBounds index data }
  else
    throw (.sectorBuffer index)

/-- The `default` branch of `PS1Read`. -/
def readSectorByte (currentByte : Nat) : SioM Card Pad UInt8 := do
  let ret ← sectorByte (currentByte - 10)
  modifyPS1 fun ps1 => { ps1 with checksum := ps1.checksum ^^^ ret }
  return ret

def PS1ReadByte (data : UInt8) : SioM Card Pad UInt8 := do
  let ps1 := (← get).ps1McState
  if ps1.currentByte = 2 then return 0x5a
  else if ps1.currentByte = 3 then return 0x5d
  else if ps1.currentByte = 4 then
    modifyPS1 fun ps1 => { ps1 with sectorAddrMSB := data }
    return 0x00
  else if ps1.currentByte = 5 then
    modifyPS1 fun ps1 => { ps1 with sectorAddrLSB := data }
    RecalculatePS1Addr
    return 0x00
  else if ps1.currentByte = 6 then return 0x5c
  else if ps1.currentByte = 7 then return 0x5d
  else if ps1.currentByte = 8 then return ps1.sectorAddrMSB
  else if ps1.currentByte = 9 then return ps1.sectorAddrLSB
  else if ps1.currentByte = 138 then return ps1.checksum
  else if ps1.currentByte = 139 then return 0x47
  else if ps1.currentByte = 10 then
    let mcd := (← get).card
    let (buf, image) := devices.read mcd.image mcd.transferAddr 128
    modifyCard fun mcd => { mcd with image }
    modifyPS1 fun ps1 => { ps1 with buf, checksum := ps1.sectorAddrMSB ^^^ ps1.sectorAddrLSB }
    readSectorByte ps1.currentByte
  else
    readSectorByte ps1.currentByte

def advancePS1 (ret : UInt8) : SioM Card Pad UInt8 := do
  modifyPS1 fun ps1 => { ps1 with currentByte := ps1.currentByte + 1 }
  return ret

def PS1Read (data : UInt8) : SioM Card Pad UInt8 := do
  if !(← get).card.IsPresent then
    return 0xff
  else
    advancePS1 (← PS1ReadByte devices data)

def PS1State (_data : UInt8) : SioM Card Pad UInt8 := return 0x00

/-- The `default` branch of `PS1Write`. -/
def writeSectorByte (currentByte : Nat) (data : UInt8) : SioM Card Pad UInt8 := do
  setSectorByte (currentByte - 6) data
  modifyPS1 fun ps1 => { ps1 with checksum := ps1.checksum ^^^ data }
  return 0x00

def PS1WriteByte (data : UInt8) : SioM Card Pad UInt8 := do
  let ps1 := (← get).ps1McState
  if ps1.currentByte = 2 then return 0x5a
  else if ps1.currentByte = 3 then return 0x5d
  else if ps1.currentByte = 4 then
    modifyPS1 fun ps1 => { ps1 with sectorAddrMSB := data }
    return 0x00
  else if ps1.currentByte = 5 then
    modifyPS1 fun ps1 => { ps1 with sectorAddrLSB := data }
    RecalculatePS1Addr
    return 0x00
  else if ps1.currentByte = 134 then
    modifyPS1 fun ps1 => { ps1 with expectedChecksum := data }
    return 0x00
  else if ps1.currentByte = 135 then return 0x5c
  else if ps1.currentByte = 136 then return 0x5d
  else if ps1.currentByte = 137 then
    if !(← get).card.goodSector then return 0xff
    else if ps1.expectedChecksum ≠ ps1.checksum then return 0x4e
    else
      modifyCard fun mcd => { mcd with
        image := devices.save mcd.image mcd.transferAddr ps1.buf.toList
        FLAG := mcd.FLAG &&& 0x07 }
      return 0x47
  else if ps1.currentByte = 6 then
    modifyPS1 fun ps1 => { ps1 with checksum := ps1.sectorAddrMSB ^^^ ps1.sectorAddrLSB }
    writeSectorByte ps1.currentByte data
  else
    writeSectorByte ps1.currentByte data

def PS1Write (data : UInt8) : SioM Card Pad UInt8 := do
  advancePS1 (← PS1WriteByte devices data)

def PS1Pocketstation (_data : UInt8) : SioM Card Pad UInt8 := return 0x00

end MemoryCardProtocol

end Pcsx2.Sio
