import Mathlib.Algebra.Order.Ring.Int
import Mathlib.Data.List.Basic

/-!
# The disc drive

The state of the drive, seeks and the commands that read. How long something takes is left out: an event is
pending or not, and one that is pending may come at any time.
-/

namespace Pcsx2.Mechacon

abbrev Byte := BitVec 8

/-! ## Registers -/

def CDVD_STATUS_STOP : Byte := 0x00

def CDVD_STATUS_TRAY_OPEN : Byte := 0x01

def CDVD_STATUS_SPIN : Byte := 0x02

def CDVD_STATUS_READ : Byte := 0x06

def CDVD_STATUS_PAUSE : Byte := 0x0A

def CDVD_STATUS_SEEK : Byte := 0x12

def CDVD_DRIVE_ERROR : Byte := 0x01

def CDVD_DRIVE_DEV9CON : Byte := 0x04

def CDVD_DRIVE_MECHA_INIT : Byte := 0x08

def CDVD_DRIVE_READY : Byte := 0x40

def CDVD_DRIVE_BUSY : Byte := 0x80

def CDVD_SPINDLE_CAV : Byte := 0x80

def Irq_CommandComplete : Nat := 0

def Irq_Eject : Nat := 3

inductive CdvdAction
  | none
  | seek
  | standby
  | stop
  | error
  deriving DecidableEq, Repr

inductive TrayState
  | engaged
  | detecting
  | seeking
  | eject
  | opened
  deriving DecidableEq, Repr

inductive SourceType
  | iso
  | disc
  | noDisc
  deriving DecidableEq, Repr

inductive DriveMode
  | cdrom
  | dvdrom
  deriving DecidableEq, Repr

/-- `CDVD_MODE_2352` to `CDVD_MODE_2368`. -/
inductive ReadMode
  | mode2352
  | mode2340
  | mode2328
  | mode2048
  | mode2368
  deriving DecidableEq, Repr

/-- What the disc and its source answer. A track is read in the background; `getBuffer` has the answer once it is
finished. -/
structure Host where
  sourceType : SourceType
  isFastBootInProgress : Bool
  detectDiskType : Byte
  trackEnd : BitVec 32
  dualInfo : Int × BitVec 32
  readTrack : BitVec 32 → ReadMode → Int
  getBuffer : BitVec 32 → ReadMode → Int × List Byte

/-- `cdvd`, `cdvdRead` and `sectorReady` are the pending events, `track` what was asked of the disc last. -/
structure Drive where
  ready : Byte := 0x4C
  error : Byte := 0
  intrStat : Byte := 0
  status : Byte := CDVD_STATUS_TRAY_OPEN
  statusSticky : Byte := CDVD_STATUS_TRAY_OPEN
  discType : Byte := 0
  currentSector : BitVec 32 := 0
  sectorCnt : Int := 0
  seekCompleted : Bool := false
  reading : Bool := false
  waitingDMA : Bool := false
  readMode : ReadMode := .mode2352
  blockSize : Nat := 2064
  speed : Nat := 4
  retryCntMax : Nat := 0
  currentRetryCnt : Nat := 0
  readErr : Int := 0
  spindlCtrl : Byte := 0
  action : CdvdAction := .none
  seekToSector : BitVec 32 := 0
  maxSector : BitVec 32 := 0
  spinning : Bool := false
  trayState : TrayState := .engaged
  actionSeconds : Nat := 0
  nextSectorsBuffered : Nat := 0
  abortRequested : Bool := false
  cdvd : Bool := false
  cdvdRead : Bool := false
  sectorReady : Bool := false
  track : BitVec 32 × ReadMode := (0, .mode2352)

structure ReadParams where
  sector : BitVec 32
  count : BitVec 32
  retries : Byte
  spindle : Byte
  mode : Byte

namespace Drive

variable (d : Drive)

/-! ## Status -/

def updateStatus (newStatus : Byte) : Drive :=
  { d with status := newStatus, statusSticky := d.statusSticky ||| newStatus }

def updateReady (newReadyStatus : Byte) : Drive :=
  { d with ready := newReadyStatus ||| (CDVD_DRIVE_MECHA_INIT ||| CDVD_DRIVE_DEV9CON) }

def setIrq (irq : Nat) : Drive := { d with intrStat := d.intrStat ||| 1 <<< irq, abortRequested := false }

def isDVD : Bool := d.discType = 0x03 ∨ d.discType = 0x04 ∨ d.discType = 0x14 ∨ d.discType = 0xfe

def driveMode : DriveMode := if d.isDVD then .dvdrom else .cdrom

def detectDisk (host : Host) : Drive :=
  let d := { d with discType := host.detectDiskType }
  if d.discType ≠ 0 then { d with maxSector := host.trackEnd } else d

def cancelReadAhead : Drive := { d with nextSectorsBuffered := 0, sectorReady := false }

def sectorReadyInt : Drive := { d with sectorReady := true }

def readInt : Drive := { d with cdvdRead := true }

def cdvdInt : Drive := { d with cdvd := true }

/-! ## The tray -/

def newDiskCB (host : Host) : Drive :=
  let d := d.detectDisk host
  if ¬host.isFastBootInProgress ∧ d.trayState ≠ .eject then
    let d := (d.updateStatus CDVD_STATUS_TRAY_OPEN).updateReady CDVD_DRIVE_BUSY
    let d := { d with trayState := .eject, spinning := false }.setIrq Irq_Eject
    if d.discType ≠ 0 then { d with actionSeconds := 3 } else d
  else if d.discType ≠ 0 then
    { (d.updateReady CDVD_DRIVE_BUSY).updateStatus CDVD_STATUS_SEEK with
      spinning := true, trayState := .detecting, actionSeconds := 3 }
  else d

def ctrlTrayOpen (host : Host) : Byte × Drive :=
  if d.status &&& CDVD_STATUS_TRAY_OPEN ≠ 0 then (0x80, d)
  else if host.sourceType = .disc then (0, d.newDiskCB host)
  else
    let d := ((d.detectDisk host).updateStatus CDVD_STATUS_TRAY_OPEN).updateReady 0
    (0, { d with spinning := false }.setIrq Irq_Eject)

def ctrlTrayClose (host : Host) : Byte × Drive :=
  if d.status &&& CDVD_STATUS_TRAY_OPEN = 0 then (0x80, d)
  else if host.isFastBootInProgress then
    let d := (d.updateReady CDVD_DRIVE_READY).updateStatus CDVD_STATUS_PAUSE
    (0, { d with spinning := true, trayState := .engaged, actionSeconds := 0 }.detectDisk host)
  else
    let d := (d.updateReady CDVD_DRIVE_BUSY).updateStatus CDVD_STATUS_STOP
    (0, { d with spinning := false, trayState := .detecting, actionSeconds := 3 }.detectDisk host)

def trayEngaged : Drive :=
  ({ d with trayState := .engaged }.updateReady CDVD_DRIVE_READY).updateStatus CDVD_STATUS_PAUSE

def updateTrayState (host : Host) : Drive :=
  if d.actionSeconds = 0 then d
  else
    let d := { d with actionSeconds := d.actionSeconds - 1 }
    if d.actionSeconds ≠ 0 then d
    else
      match d.trayState with
      | .opened =>
          let d := (d.ctrlTrayOpen host).2
          if d.discType ≠ 0 ∨ host.sourceType = .noDisc then { d with actionSeconds := 3, trayState := .eject } else d
      | .eject => (d.ctrlTrayClose host).2
      | .detecting => { { d with trayState := .seeking }.updateStatus CDVD_STATUS_SEEK with actionSeconds := 2 }
      | .seeking => { d with spinning := true }.trayEngaged
      | .engaged => d.trayEngaged

/-! ## Seeks -/

def contigiousSeekDelta : DriveMode → Nat
  | .cdrom => 8
  | .dvdrom => 16

/-- The events at the end of `cdvdStartSeek`. -/
def finishSeek (delta : Nat) (isSeeking : Bool) : Drive :=
  if (delta ≠ 0 ∨ d.action = .seek) ∧ ¬isSeeking ∧ d.nextSectorsBuffered = 0 then
    if d.action = .seek then d.cancelReadAhead else d.sectorReadyInt
  else d.sectorReadyInt

/-- The first part of `cdvdStartSeek`. -/
def prepareSeek (newsector : BitVec 32) (transition_to_CLV : Bool) : Drive :=
  let d : Drive :=
    { { d with seekToSector := newsector }.updateReady CDVD_DRIVE_BUSY with reading := true, seekCompleted := false }
  let d := if d.spinning && transition_to_CLV then d.cancelReadAhead else d
  d.updateStatus CDVD_STATUS_SEEK

def contiguous : Drive :=
  { d.updateStatus CDVD_STATUS_READ with seekCompleted := true, reading := true, currentRetryCnt := 0 }

def seekDistance (delta : Nat) (mode : DriveMode) (speed_change : Bool) : Drive :=
  if !d.spinning then ({ d with spinning := true, nextSectorsBuffered := 0 }.sectorReadyInt).finishSeek delta false
  else if contigiousSeekDelta mode ≤ delta then d.cancelReadAhead.finishSeek delta true
  else if speed_change ∨ d.action = .seek then d.finishSeek delta false
  else if delta = 0 then
    if d.nextSectorsBuffered ≠ 0 then d.contiguous
    -- Without sectors and without the event for one the rotation has to be waited for.
    else d.contiguous.finishSeek (if d.sectorReady then 0 else 1) false
  else if d.nextSectorsBuffered ≤ delta then d.cancelReadAhead.finishSeek delta false
  else { d with nextSectorsBuffered := d.nextSectorsBuffered - delta }.finishSeek delta false

/-- `speed_change` tells whether the change of speed takes any time. -/
def startSeek (newsector : BitVec 32) (mode : DriveMode) (transition_to_CLV speed_change : Bool) : Drive :=
  let delta := (newsector - d.currentSector).toInt.natAbs
  (d.prepareSeek newsector transition_to_CLV).seekDistance delta mode (d.spinning && transition_to_CLV && speed_change)

/-! ## Commands that read -/

def seekTo (p : ReadParams) (defaultSpeed : Byte) : Drive :=
  { d with
    seekToSector := p.sector
    sectorCnt := p.count.toInt
    retryCntMax := if p.retries = 0 then 0x100 else p.retries.toNat
    spindlCtrl := if p.spindle &&& 0x3F ≠ 0 then p.spindle else p.spindle &&& 0x80 ||| defaultSpeed }

/-- The speeds of a DVD, and with `fast` those of a CD. -/
def speedOf (fast : Bool) (spindlCtrl : Byte) : Option Nat :=
  let speed := spindlCtrl &&& 0x7
  if speed = 1 then some 1
  else if speed = 2 then some 2
  else if speed = 3 then some 4
  else if speed = 4 ∧ fast then some 12
  else if speed = 5 ∧ fast then some 24
  else none

def setSpeed (speed : Option Nat) : Drive := { d with speed := speed.getD d.speed }

def setBlock (block : Option (ReadMode × Nat)) : Drive :=
  match block with
  | some (readMode, blockSize) => { d with readMode, blockSize }
  | none => d

def fail (error : Byte) : Drive :=
  (({ d with error, action := .error }.updateStatus CDVD_STATUS_SEEK).updateReady CDVD_DRIVE_BUSY).cdvdInt

/-- The error of `cdvdReadErrorHandler`. -/
def readError : Option Byte :=
  if d.sectorCnt ≤ 0 then some 0x21 else if d.maxSector ≤ d.seekToSector then some 0x30 else none

def readTrack (host : Host) (sector : BitVec 32) : Drive :=
  { d with readErr := host.readTrack sector d.readMode, track := (sector, d.readMode) }

def beginRead (host : Host) (mode : DriveMode) (oldSpindleCtrl : Byte) (speed_change : Bool) : Drive :=
  let transition : Bool := d.spindlCtrl &&& CDVD_SPINDLE_CAV = 0 ∧ oldSpindleCtrl &&& CDVD_SPINDLE_CAV ≠ 0
  let d := (d.startSeek d.seekToSector mode transition speed_change).readInt
  { d.readTrack host d.seekToSector with reading := true }

/-- The common part of the three read commands; `handled` tells whether `cdvdReadErrorHandler` is asked. -/
def readCommand (host : Host) (p : ReadParams) (defaultSpeed : Byte) (fast : Bool) (block : Option (ReadMode × Nat))
    (handled : Bool) (mode : DriveMode) (speed_change : Bool) : Drive :=
  let oldSpindleCtrl := d.spindlCtrl
  let d := d.seekTo p defaultSpeed
  let speed := speedOf fast d.spindlCtrl
  let d := (d.setSpeed speed).setBlock block
  if speed = none ∨ block = none then { d with spindlCtrl := oldSpindleCtrl }.fail 0x22
  else
    match if handled then d.readError else none with
    | some error => d.fail error
    | none => d.beginRead host mode oldSpindleCtrl speed_change

def cdBlock (isDVD : Bool) (mode : Byte) : Option (ReadMode × Nat) :=
  if mode = 0 then some (.mode2048, 2048)
  else if isDVD then none
  else if mode = 1 then some (.mode2328, 2328)
  else if mode = 2 then some (.mode2340, 2340)
  else none

def cddaBlock (mode : Byte) : Option (ReadMode × Nat) :=
  if mode = 0 then some (.mode2352, 2352) else if mode = 1 then some (.mode2368, 2368) else none

def dvdBlock (mode : Byte) : Option (ReadMode × Nat) := if mode = 0 then some (.mode2048, 2064) else none

def cdRead (host : Host) (p : ReadParams) (speed_change : Bool) : Drive :=
  d.readCommand host p (if d.isDVD then 3 else 5) (!d.isDVD) (cdBlock d.isDVD p.mode) true d.driveMode speed_change

def wrongDisc : Drive :=
  ({ d with error := 0x14 }.updateReady (CDVD_DRIVE_READY ||| CDVD_DRIVE_ERROR)).setIrq Irq_CommandComplete

def cdReadCdda (host : Host) (p : ReadParams) (speed_change : Bool) : Drive :=
  if d.isDVD then d.wrongDisc
  else d.readCommand host p 5 true (cddaBlock p.mode) false .cdrom speed_change

def dvdRead (host : Host) (p : ReadParams) (speed_change : Bool) : Drive :=
  if !d.isDVD then d.wrongDisc
  else (d.setBlock (some (.mode2048, 2064))).readCommand host p 3 false (dvdBlock p.mode) true .dvdrom speed_change

end Drive

end Pcsx2.Mechacon
