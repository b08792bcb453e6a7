import Pcsx2.Sio.Memcard

/-!
# SIO2

The guest describes commands in the 16 entries of `CmdQueue` and sends their bytes one at a time. The last byte of
a command makes the addressed device answer.
-/

namespace Pcsx2.Sio

variable {Card Pad : Type}

namespace CmdStat

def DISCONNECTED : UInt32 := 0x1d100
def CONNECTED : UInt32 := 0x1100
def NO_DEVICES_MISSING : UInt32 := 0x1000
def PORT_1_MISSING : UInt32 := 0x1D000
def PORT_2_MISSING : UInt32 := 0x2D000
def ONE_PORT_OPEN : UInt32 := 0x100
def TWO_PORTS_OPEN : UInt32 := 0x200

def access (stat : UInt32) : UInt32 :=
  (if stat &&& ONE_PORT_OPEN ≠ 0 then (stat &&& ~~~ONE_PORT_OPEN) ||| TWO_PORTS_OPEN
    else stat ||| ONE_PORT_OPEN) ||| NO_DEVICES_MISSING

end CmdStat

inductive SioMode
  | pad
  | multitap
  | infrared
  | memcard
  | unhandled

def SioMode.ofByte (byte : UInt8) : SioMode :=
  if byte = 0x01 then .pad
  else if byte = 0x21 then .multitap
  else if byte = 0x61 then .infrared
  else if byte = 0x81 then .memcard
  else .unhandled

inductive MultitapMode
  | padSupportCheck
  | memcardSupportCheck
  | selectPad
  | selectMemcard
  | unhandled

def MultitapMode.ofByte (byte : UInt8) : MultitapMode :=
  if byte = 0x12 then .padSupportCheck
  else if byte = 0x13 then .memcardSupportCheck
  else if byte = 0x21 then .selectPad
  else if byte = 0x22 then .selectMemcard
  else .unhandled

inductive MemcardCommand
  | probe
  | unknownWriteDeleteEnd
  | setEraseSector
  | setWriteSector
  | setReadSector
  | getSpecs
  | setTerminator
  | getTerminator
  | writeData
  | readData
  | ps1Read
  | ps1State
  | ps1Write
  | ps1Pocketstation
  | readWriteEnd
  | eraseBlock
  | unknownBoot
  | authXor
  | authF3
  | authF7
  | unhandled

def MemcardCommand.ofByte (byte : UInt8) : MemcardCommand :=
  if byte = 0x11 then .probe
  else if byte = 0x12 then .unknownWriteDeleteEnd
  else if byte = 0x21 then .setEraseSector
  else if byte = 0x22 then .setWriteSector
  else if byte = 0x23 then .setReadSector
  else if byte = 0x26 then .getSpecs
  else if byte = 0x27 then .setTerminator
  else if byte = 0x28 then .getTerminator
  else if byte = 0x42 then .writeData
  else if byte = 0x43 then .readData
  else if byte = 0x52 then .ps1Read
  else if byte = 0x53 then .ps1State
  else if byte = 0x57 then .ps1Write
  else if byte = 0x58 then .ps1Pocketstation
  else if byte = 0x81 then .readWriteEnd
  else if byte = 0x82 then .eraseBlock
  else if byte = 0xbf then .unknownBoot
  else if byte = 0xf0 then .authXor
  else if byte = 0xf3 then .authF3
  else if byte = 0xf7 then .authF7
  else .unhandled

/-! ## Devices -/

def SetCmdStat (value : UInt32) : SioM Card Pad Unit := modify fun bus => { bus with CmdStat := value }

def accessPort : SioM Card Pad Unit := modify fun bus => { bus with CmdStat := CmdStat.access bus.CmdStat }

def popAndPush (respond : UInt8 → SioM Card Pad UInt8) : List UInt8 → SioM Card Pad Unit
  | [] => return
  | _ :: rest => do
    pushOut (← respond (← popIn))
    popAndPush respond rest

def modifyPad (port : Fin 2) (slot : Fin 4) (update : PadBase Pad → PadBase Pad) : SioM Card Pad Unit :=
  modify fun bus => { bus with pads := fun p s =>
    if (p, s) = (port, slot) then update (bus.pads p s) else bus.pads p s }

def padResponse (devices : Devices Card Pad) (port : Fin 2) (slot : Fin 4) (commandByte : UInt8) :
    SioM Card Pad UInt8 := do
  let pad := (← get).pads port slot
  if pad.ejectTicks ≠ 0 then
    return 0xff
  else
    let (responseByte, next) := devices.sendCommandByte pad.pad commandByte
    modifyPad port slot fun pad => { pad with pad := next }
    return responseByte

/-- `Sio2::Pad`. -/
def accessPad (devices : Devices Card Pad) (port : Fin 2) : SioM Card Pad Unit := do
  let slot := ((← get).multitaps port).currentPadSlot
  accessPort
  let pad := (← get).pads port slot
  if devices.notConnected pad.pad ∨ pad.ejectTicks ≠ 0 then
    modify fun bus => { bus with
      CmdStat := bus.CmdStat ||| if port = 0 then CmdStat.PORT_1_MISSING else CmdStat.PORT_2_MISSING }
  pushOut 0xff
  modifyPad port slot fun pad => { pad with pad := devices.softReset pad.pad }
  popAndPush (padResponse devices port slot) (← get).fifoIn
  modifyPad port slot fun pad => { pad with ejectTicks := pad.ejectTicks - 1 }

namespace MultitapProtocol

def SupportCheck (port : Fin 2) : SioM Card Pad Unit := do
  if (← get).multitapEnabled port then
    modify fun bus => bus.push [0xff, 0x80, 0x5a, 0x04, 0x00, 0x5a]
  else
    modify fun bus => bus.push (List.replicate 6 0xff)

/-- `Select`, where `update` sets the slot of the mode. -/
def Select (port : Fin 2) (update : Fin 4 → MultitapProtocol → MultitapProtocol) : SioM Card Pad Unit := do
  if (← get).multitapEnabled port then
    let newSlot ← popIn
    if inBounds : newSlot.toNat < 4 then
      let slot := Fin.mk newSlot.toNat inBounds
      modify fun bus => { bus with
        multitaps := fun p => if p = port then update slot (bus.multitaps p) else bus.multitaps p }
      modify fun bus => bus.push [0xff, 0x80, 0x5a, 0x00, 0x00, newSlot, 0x5a]
    else
      modify fun bus => bus.push [0xff, 0x80, 0x5a, 0x00, 0x00, 0xff, 0x66]
  else
    modify fun bus => bus.push (List.replicate 7 0xff)

def SendToMultitap (port : Fin 2) : SioM Card Pad Unit := do
  let commandByte ← popIn
  match MultitapMode.ofByte commandByte with
  | .padSupportCheck => SupportCheck port
  | .memcardSupportCheck => SupportCheck port
  | .selectPad => Select port fun slot mtap => { mtap with currentPadSlot := slot }
  | .selectMemcard => Select port fun slot mtap => { mtap with currentMemcardSlot := slot }
  | .unhandled => return

end MultitapProtocol

/-- `Sio2::Multitap`. -/
def accessMultitap (port : Fin 2) : SioM Card Pad Unit := do
  accessPort
  if !(← get).multitapEnabled port then
    modify fun bus => { bus with CmdStat := bus.CmdStat ||| CmdStat.PORT_1_MISSING }
  MultitapProtocol.SendToMultitap port

/-- `Sio2::Infrared`. -/
def accessInfrared (commandLength : Nat) : SioM Card Pad Unit := do
  SetCmdStat CmdStat.DISCONNECTED
  let _ ← popIn
  fillOut commandLength 0xff

open MemoryCardProtocol in
/-- The `switch` of `Sio2::Memcard`. -/
def dispatchMemcard (devices : Devices Card Pad) (commandLength : Nat) (commandByte : UInt8) :
    SioM Card Pad Unit :=
  match MemcardCommand.ofByte commandByte with
  | .probe => Probe commandLength
  | .unknownWriteDeleteEnd => UnknownWriteDeleteEnd commandLength
  | .setEraseSector => SetSector devices commandLength
  | .setWriteSector => SetSector devices commandLength
  | .setReadSector => SetSector devices commandLength
  | .getSpecs => GetSpecs devices commandLength
  | .setTerminator => SetTerminator commandLength
  | .getTerminator => GetTerminator commandLength
  | .writeData => WriteData devices commandLength
  | .readData => ReadData devices commandLength
  | .ps1Read => do
    ResetPS1State
    respondToEach (PS1Read devices) (← get).fifoIn
  | .ps1State => do
    ResetPS1State
    respondToEach PS1State (← get).fifoIn
  | .ps1Write => do
    ResetPS1State
    respondToEach (PS1Write devices) (← get).fifoIn
  | .ps1Pocketstation => do
    ResetPS1State
    respondToEach PS1Pocketstation (← get).fifoIn
  | .readWriteEnd => ReadWriteEnd commandLength
  | .eraseBlock => EraseBlock devices commandLength
  | .unknownBoot => UnknownBoot commandLength
  | .authXor => AuthXor commandLength
  | .authF3 => AuthF3 commandLength
  | .authF7 => AuthF7 commandLength
  | .unhandled => return

/-- `Sio2::Memcard`. -/
def accessMemcard (devices : Devices Card Pad) (port : Fin 2) (commandLength : Nat) :
    SioM Card Pad Unit := do
  modify fun bus => { bus with mcd := (port, (bus.multitaps port).currentMemcardSlot) }
  let mcd := (← get).card
  if mcd.autoEjectTicks ≠ 0 then
    -- Dead air, after the answer to the mode byte that is gone already.
    SetCmdStat CmdStat.DISCONNECTED
    pushOut 0xff
    popAndPush (fun _ => return 0xff) (← get).fifoIn
  else
    SetCmdStat (if mcd.IsPresent then CmdStat.CONNECTED else CmdStat.DISCONNECTED)
    let commandByte ← popIn
    let responseByte := if mcd.IsPresent then 0x00 else 0xff
    pushOut responseByte
    pushOut responseByte
    dispatchMemcard devices commandLength commandByte

/-! ## The command queue -/

structure Sio2 (Card Pad : Type) where
  CmdQueue : Vector UInt32 16
  port : Fin 2
  queueRead : Bool
  queuePosition : Nat
  commandLength : Nat
  dmaBlockSize : Nat
  queueComplete : Bool
  bus : Bus Card Pad

namespace Sio2

def SoftReset (s : Sio2 Card Pad) : Sio2 Card Pad :=
  { s with
    queueRead := false
    queuePosition := 0
    commandLength := 0
    dmaBlockSize := 0
    queueComplete := false
    bus := { s.bus with fifoIn := [], CmdStat := 0 } }

def Initialize (s : Sio2 Card Pad) : Sio2 Card Pad :=
  let s := s.SoftReset
  { s with
    CmdQueue := Vector.replicate 16 0
    port := 0
    bus := { s.bus with
      CmdStat := CmdStat.DISCONNECTED
      fifoOut := []
      mcds := fun port slot => { s.bus.mcds port slot with term := 0x55, FLAG := 0x08, autoEjectTicks := 0 }
      mcd := (0, 0) } }

def SetCmd (s : Sio2 Card Pad) (position : Fin 16) (value : UInt32) : Sio2 Card Pad :=
  let s := { s with CmdQueue := s.CmdQueue.set position value }
  if position = 0 then s.SoftReset else s

/-- The bytes of zero that align `g_Sio2FifoOut` to the blocks of a DMA. -/
def align (dmaBlockSize : Nat) : SioM Card Pad Unit :=
  modify fun bus =>
    let dmaDiff := bus.fifoOut.length % dmaBlockSize
    if 0 < dmaBlockSize ∧ 0 < dmaDiff then bus.push (List.replicate (dmaBlockSize - dmaDiff) 0x00) else bus

def process (devices : Devices Card Pad) (port : Fin 2) (commandLength dmaBlockSize : Nat) :
    SioM Card Pad Unit := do
  let sioMode ← popIn
  match SioMode.ofByte sioMode with
  | .pad => accessPad devices port
  | .multitap => accessMultitap port
  | .infrared => accessInfrared commandLength
  | .memcard => accessMemcard devices port commandLength
  | .unhandled => do
    pushOut 0xff
    SetCmdStat CmdStat.DISCONNECTED
  align dmaBlockSize

def hasCommand (s : Sio2 Card Pad) : Bool :=
  (s.bus.fifoIn.length = s.commandLength ∧ s.dmaBlockSize = 0) ∨ s.bus.fifoIn.length = s.dmaBlockSize

/-- `g_Sio2FifoIn.push_back(data)`. -/
def taken (s : Sio2 Card Pad) (data : UInt8) : Sio2 Card Pad :=
  { s with bus := { s.bus with fifoIn := s.bus.fifoIn ++ [data] } }

/-- What `Write` does once the entry of the queue is read. -/
def receive (devices : Devices Card Pad) (s : Sio2 Card Pad) (data : UInt8) : Except Fault (Sio2 Card Pad) := do
  if s.queueComplete then
    return s
  else if (s.taken data).hasCommand then
    let (_, bus) ← process devices s.port s.commandLength s.dmaBlockSize (s.taken data).bus
    return { s with queueRead := false, queuePosition := s.queuePosition + 1, bus }
  else
    return s.taken data

/-- The entry `currentCmd` of the queue is the current command. -/
def loadCmd (s : Sio2 Card Pad) (currentCmd : UInt32) : Sio2 Card Pad :=
  let commandLength := ((currentCmd >>> 8) &&& 0x3ff).toNat
  { s with
    port := if currentCmd &&& 1 = 0 then 0 else 1
    commandLength
    queueRead := true
    queueComplete := s.queueComplete || commandLength == 0
    bus := { s.bus with fifoIn := [] } }

def Write (devices : Devices Card Pad) (s : Sio2 Card Pad) (data : UInt8) : Except Fault (Sio2 Card Pad) :=
  if s.queueRead then
    s.receive devices data
  else if 16 < s.queuePosition then
    return s
  else
    match s.CmdQueue[s.queuePosition]? with
    | none => throw (.cmdQueue s.queuePosition)
    | some currentCmd => (s.loadCmd currentCmd).receive devices data

def Read (s : Sio2 Card Pad) : UInt8 × Sio2 Card Pad :=
  match s.bus.fifoOut with
  | [] => (0xff, s)
  | ret :: rest => (ret, { s with bus := { s.bus with fifoOut := rest } })

/-- The start of `psxDma11`, whose bytes come as writes. -/
def startDma11 (s : Sio2 Card Pad) (bcr : UInt32) : Sio2 Card Pad :=
  { s with dmaBlockSize := (bcr &&& 0xffff).toNat * 4 }

end Sio2

inductive Action (Card Pad : Type)
  | setCmd (position : Fin 16) (value : UInt32)
  | write (data : UInt8)
  | read
  | dma11 (bcr : UInt32)
  /-- The host swaps cards and pads or changes the settings. -/
  | host (mcds : Fin 2 → Fin 4 → Mcd Card) (pads : Fin 2 → Fin 4 → PadBase Pad) (multitapEnabled : Fin 2 → Bool)

def Sio2.step (devices : Devices Card Pad) (s : Sio2 Card Pad) : Action Card Pad → Except Fault (Sio2 Card Pad)
  | .setCmd position value => return s.SetCmd position value
  | .write data => s.Write devices data
  | .read => return s.Read.2
  | .dma11 bcr => return s.startDma11 bcr
  | .host mcds pads multitapEnabled => return { s with bus := { s.bus with mcds, pads, multitapEnabled } }

end Pcsx2.Sio
