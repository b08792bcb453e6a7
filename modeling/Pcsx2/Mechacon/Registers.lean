import Mathlib.Data.List.GetD
import Pcsx2.Foundation.Run
import Pcsx2.Mechacon.Buffers
import Pcsx2.Mechacon.Scommands

/-!
# N-commands

The commands for the drive, with the parameters they find in their buffer.
-/

namespace Pcsx2.Mechacon
open Foundation

variable (console : Console)

def clearNCMDParam : Program Cdvd Unit := modify fun s => { s with ncmdParamPos := 0, ncmdParamCnt := 0 }

/-! ## Errors -/

def cdvdParamLength : List Nat := [0, 0, 0, 0, 0, 4, 11, 11, 11, 1, 255, 255, 7, 2, 11, 1]

def N_CD_CHG_SPDL_CTRL : Byte := 0x0F

def Drive.refuse (error : Byte) (d : Drive) : Drive :=
  { d with error, ready := d.ready ||| CDVD_DRIVE_ERROR }.setIrq Irq_CommandComplete

def Drive.noDisc (d : Drive) : Bool := d.status &&& CDVD_STATUS_TRAY_OPEN ≠ 0 ∨ d.discType = 0

def refused (error : Byte) : Program Cdvd Bool := do
  onDrive (·.refuse error)
  pure false

def cdvdCommandErrorHandler : Program Cdvd Bool := do
  let s ← get
  if s.nCommand ≠ 0 ∧ s.drive.noDisc then refused (if s.drive.discType = 0 then 0x12 else 0x11)
  else do
    let length ← entry cdvdParamLength s.nCommand.toNat
    if s.ncmdParamCnt ≠ length ∧ length ≠ 255 then refused 0x22
    else if N_CD_CHG_SPDL_CTRL < s.nCommand then refused 0x10
    else pure true

/-! ## The commands -/

def Drive.bufferNext (d : Drive) : Drive := { d with nextSectorsBuffered := 0 }.sectorReadyInt

def cdNop : Program Cdvd Unit :=
  onDrive fun d => (d.updateReady CDVD_DRIVE_READY).setIrq Irq_CommandComplete

def cdReset : Program Cdvd Unit := do
  modify fun s => { s with scmdParamPos := 0, scmdParamCnt := 0 }
  onDrive fun d =>
    { (d.updateReady CDVD_DRIVE_READY).updateStatus CDVD_STATUS_STOP with spinning := false }
  storeBlock .scmdResult 0 (List.replicate 16 0)
  onDrive (·.setIrq Irq_CommandComplete)

def cdStandby : Program Cdvd Unit :=
  onDrive fun d =>
    { (d.startSeek 0 d.driveMode false false).cdvdInt.updateStatus CDVD_STATUS_SEEK with action := .standby }

def cdStop : Program Cdvd Unit :=
  onDrive fun d =>
    { (((d.updateReady CDVD_DRIVE_BUSY).cancelReadAhead.updateStatus CDVD_STATUS_SPIN).cdvdInt) with action := .stop }

def cdPause : Program Cdvd Unit :=
  onDrive fun d =>
    ((({ d with cdvd := false }.updateReady CDVD_DRIVE_READY).setIrq Irq_CommandComplete).updateStatus
      CDVD_STATUS_PAUSE).bufferNext

def cdSeek : Program Cdvd Unit := do
  let sector ← loadU32 .ncmdParam 0
  onDrive fun d =>
    (({ d with action := .seek }.startSeek sector d.driveMode false false).cdvdInt.updateStatus CDVD_STATUS_SEEK)

def readParams : Program Cdvd ReadParams := do
  let sector ← loadU32 .ncmdParam 0
  let count ← loadU32 .ncmdParam 4
  let retries ← load .ncmdParam 8
  let spindle ← load .ncmdParam 9
  let mode ← load .ncmdParam 10
  pure ⟨sector, count, retries, spindle, mode⟩

def cdRead (speed_change : Bool) : Program Cdvd Unit := do
  let p ← readParams
  onDrive (·.cdRead console.toHost p speed_change)

def cdGetToc : Program Cdvd Unit := do
  -- What is logged of the parameters.
  let _ ← load .ncmdParam 0
  let _ ← load .ncmdParam 1
  onDrive fun d =>
    (((d.setIrq Irq_CommandComplete).updateReady CDVD_DRIVE_READY).updateStatus CDVD_STATUS_PAUSE).bufferNext

def cdReadKey : Program Cdvd Unit := do
  let arg0 ← load .ncmdParam 0
  let arg1 ← loadU16 .ncmdParam 1
  let arg2 ← loadU32 .ncmdParam 3
  modify fun s => { s with key := console.readKey arg0 arg1 arg2, keyXor := 0 }
  onDrive fun d =>
    (((d.setIrq Irq_CommandComplete).updateStatus CDVD_STATUS_PAUSE).updateReady CDVD_DRIVE_READY).bufferNext

def cdChgSpdlCtrl : Program Cdvd Unit := do
  let _ ← load .ncmdParam 0
  onDrive (·.setIrq Irq_CommandComplete)

def nCommands (speed_change : Bool) : List (Byte × Program Cdvd Unit) :=
  [(0x00, cdNop), (0x01, cdReset), (0x02, cdStandby), (0x03, cdStop), (0x04, cdPause), (0x05, cdSeek),
    (0x06, cdRead console speed_change), (0x09, cdGetToc), (0x0C, cdReadKey console), (0x0F, cdChgSpdlCtrl)]

def unknownNCommand : Program Cdvd Unit := onDrive (·.setIrq Irq_CommandComplete)

def cdReadCdda (speed_change : Bool) : Program Cdvd Unit := do
  let s ← get
  if s.drive.isDVD then onDrive (·.wrongDisc)
  else do
    let p ← readParams
    onDrive (·.cdReadCdda console.toHost p speed_change)
    clearNCMDParam

def dvdRead (speed_change : Bool) : Program Cdvd Unit := do
  let s ← get
  if !s.drive.isDVD then onDrive (·.wrongDisc)
  else do
    let p ← readParams
    onDrive (·.dvdRead console.toHost p speed_change)
    clearNCMDParam

def nCommand (rt : Byte) (speed_change : Bool) : Program Cdvd Unit :=
  if rt = 0x07 ∨ rt = 0x0E then cdReadCdda console speed_change
  else if rt = 0x08 then dvdRead console speed_change
  else do
    ((nCommands console speed_change).lookup rt).getD unknownNCommand
    clearNCMDParam

/-! ## Registers -/

def cdvdWrite04 (rt : Byte) (speed_change : Bool) : Program Cdvd Unit := do
  let s ← get
  if s.drive.ready &&& CDVD_DRIVE_READY = 0 then do
    onDrive (·.refuse 0x13)
    clearNCMDParam
  else do
    modify fun s => { s with nCommand := rt, drive := { s.drive with abortRequested := false } }
    let accepted ← cdvdCommandErrorHandler
    if accepted then nCommand console rt speed_change else clearNCMDParam

def cdvdWrite05 (rt : Byte) : Program Cdvd Unit := do
  let s ← get
  let pos := if 16 ≤ s.ncmdParamPos then 0 else s.ncmdParamPos
  let cnt := if 16 ≤ s.ncmdParamPos then 0 else s.ncmdParamCnt
  store .ncmdParam pos rt
  modify fun s => { s with ncmdParamPos := pos + 1, ncmdParamCnt := cnt + 1 }

end Pcsx2.Mechacon

/-!
# Registers

What the program on the IOP reads and writes, and what happens once a second.
-/

namespace Pcsx2.Mechacon
open Foundation

variable (console : Console)

/-! ## The clock -/

def monthmap : List Byte := [31, 28, 31, 30, 31, 30, 31, 31, 30, 31, 30, 31]

namespace RTC

def monthLength (rtc : RTC) : Program Cdvd Byte :=
  if rtc.month = 2 ∧ rtc.year % 4 = 0 then pure 29 else entry monthmap ((rtc.month.toNat : Int) - 1)

def nextYear (rtc : RTC) : RTC :=
  let rtc := { rtc with year := rtc.year + 1 }
  if rtc.year < 100 then rtc else { rtc with year := 0 }

def nextMonth (rtc : RTC) : RTC :=
  let rtc := { rtc with month := rtc.month + 1 }
  if rtc.month ≤ 12 then rtc else { rtc with month := 1 }.nextYear

def nextDay (rtc : RTC) : Program Cdvd RTC := do
  let rtc := { rtc with day := rtc.day + 1 }
  let length ← rtc.monthLength
  pure (if rtc.day ≤ length then rtc else { rtc with day := 1 }.nextMonth)

def nextHour (rtc : RTC) : Program Cdvd RTC :=
  let rtc := { rtc with hour := rtc.hour + 1 }
  if rtc.hour < 24 then pure rtc else { rtc with hour := 0 }.nextDay

def nextMinute (rtc : RTC) : Program Cdvd RTC :=
  let rtc := { rtc with minute := rtc.minute + 1 }
  if rtc.minute < 60 then pure rtc else { rtc with minute := 0 }.nextHour

def nextSecond (rtc : RTC) : Program Cdvd RTC :=
  let rtc := { rtc with second := rtc.second + 1 }
  if rtc.second < 60 then pure rtc else { rtc with second := 0 }.nextMinute

end RTC

/-- `second` tells whether the frames since the last one make a second. -/
def cdvdVsync (second : Bool) : Program Cdvd Unit :=
  if second then do
    onDrive (·.updateTrayState console.toHost)
    let s ← get
    let rtc ← s.rtc.nextSecond
    modify fun s => { s with rtc }
  else pure ()

/-! ## Reads -/

def cdvdRead18 : Program Cdvd Byte := do
  let s ← get
  if s.sDataIn &&& 0x40 = 0 ∧ s.scmdResultPos < s.scmdResultCnt then do
    modify fun t => { t with
      scmdResultPos := s.scmdResultPos + 1
      sDataIn := if s.scmdResultCnt ≤ s.scmdResultPos + 1 then t.sDataIn ||| 0x40 else t.sDataIn }
    load .scmdResult s.scmdResultPos
  else pure 0

namespace Drive

variable (d : Drive)

def cdvdTrayStateDetecting (host : Host) : Byte :=
  if d.trayState = .detecting then 0x01
  else if d.isDVD then if 0 < host.dualInfo.1 then 0x04 else 0x03
  else if d.discType ≠ 0 then 0x02
  else 0x01

def typeRegister (host : Host) : Byte :=
  if d.trayState = .engaged then d.discType
  else if d.trayState = .detecting ∨ d.trayState = .seeking then d.cdvdTrayStateDetecting host
  else 0

def speedRegister : Byte :=
  let speedCtrl := d.spindlCtrl &&& 0x3F
  let speedCtrl := if speedCtrl = 0 then (if d.isDVD then 3 else 5) else speedCtrl
  if d.trayState ≠ .engaged ∨ d.spinning = false then 0 else if d.isDVD then speedCtrl + 0xF else speedCtrl - 1

def position : Byte × Byte × Byte :=
  (itob ((d.currentSector / (60 * 75)).setWidth 8), itob ((d.currentSector / 75 % 60).setWidth 8 + 2),
    itob ((d.currentSector % 75).setWidth 8))

end Drive

def keyRegister (s : Cdvd) (key : Byte) : Option Byte :=
  if 0x20 ≤ key ∧ key ≤ 0x24 then s.key[(key - 0x20).toNat]?
  else if 0x28 ≤ key ∧ key ≤ 0x2C then s.key[(key - 0x23).toNat]?
  else if 0x30 ≤ key ∧ key ≤ 0x34 then s.key[(key - 0x26).toNat]?
  else if key = 0x38 then s.key[15]?
  else none

def readRegister (s : Cdvd) (key : Byte) : Byte :=
  let d := s.drive
  let known : List (Byte × Byte) :=
    [(0x04, s.nCommand), (0x05, d.ready), (0x07, 0), (0x08, d.intrStat), (0x0A, d.status), (0x0B, d.statusSticky),
      (0x0C, d.position.1), (0x0D, d.position.2.1), (0x0E, d.position.2.2), (0x0F, d.typeRegister console.toHost),
      (0x13, d.speedRegister), (0x15, 0), (0x16, s.sCommand), (0x17, s.sDataIn), (0x39, s.keyXor), (0x3A, s.decSet)]
  ((known.lookup key).or (keyRegister s key)).getD 0xFF

def cdvdRead (key : Byte) : Program Cdvd Byte :=
  if key = 0x06 then do
    let s ← get
    onDrive fun d => { d with error := 0 }
    pure s.drive.error
  else if key = 0x18 then cdvdRead18
  else do
    let s ← get
    pure (readRegister console s key)

/-! ## Writes -/

def Drive.breakCommand (d : Drive) : Drive :=
  if d.ready &&& CDVD_DRIVE_BUSY = 0 ∨ d.abortRequested then d else { d with abortRequested := true }

def cdvdWrite (key rt : Byte) (speed_change : Bool) : Program Cdvd Unit :=
  if key = 0x04 then cdvdWrite04 console rt speed_change
  else if key = 0x05 then cdvdWrite05 rt
  else if key = 0x06 then modify fun s => { s with howTo := rt }
  else if key = 0x07 then onDrive (·.breakCommand)
  else if key = 0x08 then onDrive fun d => { d with intrStat := d.intrStat &&& ~~~rt }
  else if key = 0x16 then cdvdWrite16 console rt
  else if key = 0x17 then cdvdWrite17 rt
  else if key = 0x3A then modify fun s => { s with decSet := rt }
  else pure ()

/-! ## Runs -/

inductive Action
  | write (key rt : Byte) (speed_change : Bool)
  | read (key : Byte)
  | vsync (second : Bool)
  | interrupt (drive : Drive)

def act : Action → Program Cdvd Unit
  | .write key rt speed_change => cdvdWrite console key rt speed_change
  | .read key => do
      let _ ← cdvdRead console key
      pure ()
  | .vsync second => cdvdVsync console second
  | .interrupt drive => onDrive fun _ => drive

/-- `nvram` is what was loaded, `rtc` the time. -/
def cdvdReset (nvram : Nat → Byte) (rtc : RTC) : Cdvd where
  drive := (({} : Drive).ctrlTrayClose console.toHost).2
  bytes buffer := if buffer = .nvram then nvram else fun _ => 0
  rtc := rtc

def Steps (s t : Cdvd) : Prop := ∃ action, act console action s = some ((), t)

end Pcsx2.Mechacon
