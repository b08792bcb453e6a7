import Mathlib.Data.List.Range
import Mathlib.Tactic.Ring
import Pcsx2.Foundation.Masks
import Pcsx2.Foundation.Memory
import Pcsx2.Mechacon.Drive

/-!
# Sectors

The interrupts of the drive, which write one sector after the other where DMA channel 3 has room for it.
-/

namespace Pcsx2.Mechacon
open Foundation

/-! ## DMA -/

/-- The registers of channel 3; `chcr` is the start bit. -/
structure Dma3 where
  madr : BitVec 32 := 0
  bcrH16 : BitVec 16 := 0
  bcrL16 : BitVec 16 := 0
  chcr : Bool := false

structure Delivered where
  sector : BitVec 32
  address : Nat
  bytes : List Byte
  base : Nat
  size : Nat

/-- A look at the channel while it is on: what remains of its region then, and whether the transfer was completed. -/
structure Look where
  remains : Nat
  blockSize : Nat
  completed : Bool

/-- The region of the last transfer and how much of it is written; what was done since the command. -/
structure History where
  base : Nat := 0
  size : Nat := 0
  used : Nat := 0
  delivered : List Delivered := []
  looks : List Look := []

/-- The drive with the memory it writes to. `transfer` is `cdr.Transfer`. -/
structure Machine where
  drive : Drive := {}
  dma : Dma3 := {}
  transfer : List Byte := []
  ram : Nat → Byte := fun _ => 0
  decSet : Byte := 0
  key4 : Byte := 0
  history : History := {}

/-! ## Sectors -/

def layerOf (dualInfo : Int × BitVec 32) (lsn : BitVec 32) : Byte × BitVec 32 :=
  let (dualType, layer1Start) := dualInfo
  if dualType = 1 ∧ layer1Start ≤ lsn then (1, lsn - layer1Start + 0x30000)
  else if dualType = 2 ∧ layer1Start ≤ lsn then (1, ~~~(layer1Start + 0x30000 - 1))
  else (0, lsn + 0x30000)

def rawSector (dualInfo : Int × BitVec 32) (lsn : BitVec 32) (transfer : List Byte) : List Byte :=
  let (layerNum, lsn) := layerOf dualInfo lsn
  [0x20 ||| layerNum, lsn.extractLsb' 16 8, lsn.extractLsb' 8 8, lsn.extractLsb' 0 8] ++ List.replicate 8 0 ++
    transfer.take 2048 ++ List.replicate 4 0

def mechaDecryptByte (decSet key4 byte : Byte) : Byte :=
  let shiftAmount := (decSet >>> 4 &&& 7).toNat
  let byte := if decSet &&& 1 ≠ 0 then byte ^^^ key4 else byte
  if decSet &&& 2 ≠ 0 then byte >>> shiftAmount ||| byte <<< (8 - shiftAmount) else byte

def sectorBytes (dualInfo : Int × BitVec 32) (blockSize : Nat) (lsn : BitVec 32) (decSet key4 : Byte)
    (transfer : List Byte) : List Byte :=
  let bytes := if blockSize = 2064 then rawSector dualInfo lsn transfer else transfer.take blockSize
  if decSet ≠ 0 then bytes.map (mechaDecryptByte decSet key4) else bytes

namespace Machine

variable (host : Host) (m : Machine)

def complete : Machine := { m with dma := { m.dma with chcr := false } }

def look (completed : Bool) : Machine :=
  { m with history := { m.history with
    looks := m.history.looks ++ [⟨m.history.size - m.history.used, m.drive.blockSize, completed⟩] } }

/-- `HW_DMA3_BCR_H16 * HW_DMA3_BCR_L16 * 4`. -/
def bcr : Nat := m.dma.bcrH16.toNat * m.dma.bcrL16.toNat * 4

def writeSector : Machine :=
  let blockSize := m.drive.blockSize
  let mdest := (m.dma.madr &&& 0x1fffff).toNat
  let bytes := sectorBytes host.dualInfo blockSize m.drive.currentSector m.decSet m.key4 m.transfer
  { m with
    ram := perform m.ram (blockStores mdest bytes)
    dma := { m.dma with
      bcrH16 := m.dma.bcrH16 - BitVec.ofNat 16 (blockSize / (m.dma.bcrL16.toNat * 4))
      madr := m.dma.madr + BitVec.ofNat 32 blockSize }
    history := { m.history with
      used := m.history.used + blockSize
      delivered := m.history.delivered ++
        [⟨m.drive.currentSector, mdest, bytes, m.history.base, m.history.size⟩] } }

def readSector : Bool × Machine :=
  if ¬m.dma.chcr then (false, m)
  else if m.bcr < m.drive.blockSize then (false, m.complete.look true)
  else
    let m := m.writeSector host
    if m.dma.bcrH16 = 0 then (true, m.complete.look true) else (true, m.look false)

end Machine

/-! ## Interrupts -/

namespace Drive

variable (d : Drive)

def finished (status : Byte) : Drive :=
  (((d.setIrq Irq_CommandComplete).updateReady CDVD_DRIVE_READY).updateStatus status)

def stopped (error : Byte) : Drive :=
  { ({ d with error }.updateReady (CDVD_DRIVE_READY ||| CDVD_DRIVE_ERROR)).updateStatus CDVD_STATUS_PAUSE with
    waitingDMA := false }

def arrived : Drive :=
  let d : Drive := { (d.updateReady CDVD_DRIVE_BUSY).updateStatus CDVD_STATUS_READ with
    waitingDMA := false, cdvdRead := false }
  if d.seekCompleted then d
  else
    { d with
      spinning := true
      currentRetryCnt := 0
      reading := true
      seekCompleted := true
      currentSector := d.seekToSector }

def advance : Drive :=
  { { d with nextSectorsBuffered := d.nextSectorsBuffered - 1 }.sectorReadyInt with
    currentSector := d.currentSector + 1
    seekToSector := d.seekToSector + 1
    sectorCnt := d.sectorCnt - 1 }

def sectorDone (host : Host) : Drive :=
  let d := d.advance
  if d.sectorCnt ≤ 0 then
    { d with reading := false }.finished
      (if d.nextSectorsBuffered < 16 then CDVD_STATUS_READ else CDVD_STATUS_PAUSE)
  else
    ({ d with currentRetryCnt := 0, reading := true }.readTrack host d.currentSector).readInt

def retry (host : Host) : Drive :=
  let d := { d with currentRetryCnt := d.currentRetryCnt + 1 }
  if d.currentRetryCnt ≤ d.retryCntMax then (d.readTrack host d.currentSector).readInt else d

/-- `cdvdSectorReady`. -/
def buffered : Drive :=
  let d := { d with sectorReady := false }
  let d := if d.nextSectorsBuffered < 16 then { d with nextSectorsBuffered := d.nextSectorsBuffered + 1 } else d
  if d.nextSectorsBuffered < 16 then d.sectorReadyInt
  else if ¬d.reading then d.updateStatus CDVD_STATUS_PAUSE
  else d

end Drive

namespace Machine

variable (host : Host) (m : Machine)

def withDrive (drive : Drive) : Machine := { m with drive }

def deliver : Machine :=
  let d := m.drive
  if 0 < d.sectorCnt ∧ d.nextSectorsBuffered ≠ 0 then
    let (written, m) := m.readSector host
    if written then m.withDrive (m.drive.sectorDone host)
    else m.withDrive { m.drive.updateStatus CDVD_STATUS_PAUSE with waitingDMA := true }
  else if d.sectorCnt ≤ 0 then m.withDrive (d.finished CDVD_STATUS_PAUSE)
  else m.withDrive d.readInt

def takeTrack : Machine :=
  let d := m.drive
  let (readErr, transfer) := if d.readErr = 0 then host.getBuffer d.track.1 d.track.2 else (d.readErr, m.transfer)
  { m with drive := { d with readErr }, transfer }

def readInterrupt : Machine :=
  let m := m.withDrive m.drive.arrived
  let d := m.drive
  if d.abortRequested then m.withDrive ((d.stopped 0x1).cancelReadAhead.setIrq Irq_CommandComplete)
  else if d.maxSector ≤ d.currentSector then m.withDrive ((d.stopped 0x32).setIrq Irq_CommandComplete)
  else if d.reading then
    let m := m.takeTrack host
    if m.drive.readErr = -1 then m.withDrive (m.drive.retry host)
    else (m.withDrive { m.drive with reading := false }).deliver host
  else m.deliver host

def program (madr : BitVec 32) (bcrH16 bcrL16 : BitVec 16) : Machine :=
  { m with
    dma := ⟨madr, bcrH16, bcrL16, true⟩
    history := { m.history with
      base := (madr &&& 0x1fffff).toNat, size := bcrH16.toNat * bcrL16.toNat * 4, used := 0 } }

/-- `psxDma3` for a transfer from the drive (0x41000200). -/
def psxDma3 (madr : BitVec 32) (bcrH16 bcrL16 : BitVec 16) : Machine :=
  let m := m.program madr bcrH16 bcrL16
  if bcrH16 = 0 then m.complete.look true
  else if m.drive.waitingDMA then m.withDrive m.drive.readInt
  else m

def sectorReady : Machine := m.withDrive m.drive.buffered

end Machine

end Pcsx2.Mechacon

/-!
# What remains of a transfer

The block count goes down by a truncated quotient, so it says what remains of the region only where the blocks of
the transfer divide a sector.
-/

namespace Pcsx2.Mechacon
open Foundation

/-! ## Bytes of a sector -/

def ReadMode.size : ReadMode → Nat
  | .mode2352 => 2352
  | .mode2340 => 2340
  | .mode2328 => 2328
  | .mode2048 => 2048
  | .mode2368 => 2368

/-- The blocks that are read in a mode: the whole sector, or a raw one of a DVD. -/
def ReadMode.Block (mode : ReadMode) (blockSize : Nat) : Prop :=
  blockSize = mode.size ∨ mode = .mode2048 ∧ blockSize = 2064

theorem ReadMode.Block.positive {mode : ReadMode} {blockSize : Nat} (block : mode.Block blockSize) : 0 < blockSize := by
  rcases block with rfl | ⟨rfl, rfl⟩
  · cases mode <;> decide
  · decide

theorem sectorBytes_length {mode : ReadMode} {blockSize : Nat} (block : mode.Block blockSize) {transfer : List Byte}
    (full : mode.size ≤ transfer.length) (dualInfo : Int × BitVec 32) (lsn : BitVec 32) (decSet key4 : Byte) :
    (sectorBytes dualInfo blockSize lsn decSet key4 transfer).length = blockSize := by
  have plain : (if blockSize = 2064 then rawSector dualInfo lsn transfer else transfer.take blockSize).length =
      blockSize := by
    rcases block with rfl | ⟨rfl, rfl⟩
    · have usual : mode.size ≠ 2064 := by cases mode <;> decide
      rw [if_neg usual, List.length_take]
      omega
    · change 2048 ≤ transfer.length at full
      rw [if_pos rfl]
      unfold rawSector
      simp only [List.length_append, List.length_cons, List.length_nil, List.length_replicate, List.length_take]
      omega
  unfold sectorBytes
  dsimp only
  by_cases decrypted : decSet ≠ 0
  · rw [if_pos decrypted, List.length_map]
    exact plain
  · rw [if_neg decrypted]
    exact plain

namespace Machine

variable {host : Host} {m : Machine}

/-! ## Registers -/

structure Programmed (m : Machine) : Prop where
  room : m.history.base + m.history.size ≤ 0x200000
  used : m.history.used ≤ m.history.size
  madr : (m.dma.madr &&& 0x1fffff).toNat = (m.history.base + m.history.used) % 0x200000
  bcr : m.bcr = m.history.size - m.history.used

/-- The blocks of the transfer divide a sector, and what remains is not between one and two of them. -/
def Exact (m : Machine) : Prop :=
  m.dma.bcrL16.toNat * 4 ∣ m.drive.blockSize ∧ (m.bcr = m.drive.blockSize ∨ 2 * m.drive.blockSize ≤ m.bcr)

theorem and_ram (a : BitVec 32) : (a &&& 0x1fffff).toNat = a.toNat % 0x200000 := by
  rw [BitVec.toNat_and]
  exact Nat.and_two_pow_sub_one_eq_mod _ 21

theorem add_ram {a : BitVec 32} {n i : Nat} (here : (a &&& 0x1fffff).toNat = i % 0x200000) :
    ((a + BitVec.ofNat 32 n) &&& 0x1fffff).toNat = (i + n) % 0x200000 := by
  rw [and_ram] at here ⊢
  rw [BitVec.toNat_add, BitVec.toNat_ofNat]
  omega

theorem count_down {h l : BitVec 16} {blockSize : Nat} (divides : l.toNat * 4 ∣ blockSize)
    (fits : blockSize ≤ h.toNat * l.toNat * 4) :
    (h - BitVec.ofNat 16 (blockSize / (l.toNat * 4))).toNat * l.toNat * 4 = h.toNat * l.toNat * 4 - blockSize := by
  obtain ⟨q, rfl⟩ := divides
  have product : h.toNat * l.toNat * 4 = l.toNat * 4 * h.toNat := by ring
  rcases Nat.eq_zero_or_pos l.toNat with none | some
  · rw [none]
    omega
  · have quotient : l.toNat * 4 * q / (l.toNat * 4) = q := Nat.mul_div_cancel_left _ (by omega)
    have le : q ≤ h.toNat := by
      rw [product] at fits
      exact Nat.le_of_mul_le_mul_left fits (by omega)
    have small : q < 2 ^ 16 := Nat.lt_of_le_of_lt le h.isLt
    have count : (BitVec.ofNat 16 q).toNat = q := Nat.mod_eq_of_lt small
    have below : BitVec.ofNat 16 q ≤ h := by
      rw [BitVec.le_def, count]
      exact le
    rw [quotient, BitVec.toNat_sub_of_le below, count, product, ← Nat.mul_sub]
    ring

theorem bcr_writeSector (exact : m.Exact) (fits : m.drive.blockSize ≤ m.bcr) :
    (m.writeSector host).bcr = m.bcr - m.drive.blockSize :=
  count_down exact.1 fits

theorem Programmed.writeSector (programmed : m.Programmed) (exact : m.Exact) (fits : m.drive.blockSize ≤ m.bcr) :
    (m.writeSector host).Programmed where
  room := programmed.room
  used := by
    have := programmed.used
    have := programmed.bcr
    show m.history.used + m.drive.blockSize ≤ m.history.size
    omega
  madr := by
    show ((m.dma.madr + BitVec.ofNat 32 m.drive.blockSize) &&& 0x1fffff).toNat =
      (m.history.base + (m.history.used + m.drive.blockSize)) % 0x200000
    rw [add_ram programmed.madr, Nat.add_assoc]
  bcr := by
    have := programmed.bcr
    rw [bcr_writeSector exact fits]
    show m.bcr - m.drive.blockSize = m.history.size - (m.history.used + m.drive.blockSize)
    omega

theorem Programmed.address (programmed : m.Programmed) (positive : 0 < m.drive.blockSize)
    (fits : m.drive.blockSize ≤ m.bcr) :
    (m.dma.madr &&& 0x1fffff).toNat = m.history.base + m.history.used ∧
      m.history.used + m.drive.blockSize ≤ m.history.size := by
  have := programmed.room
  have := programmed.used
  have := programmed.bcr
  refine ⟨?_, by omega⟩
  rw [programmed.madr]
  apply Nat.mod_eq_of_lt
  omega

theorem programmed_program {madr : BitVec 32} {bcrH16 bcrL16 : BitVec 16}
    (room : (madr &&& 0x1fffff).toNat + bcrH16.toNat * bcrL16.toNat * 4 ≤ 0x200000) :
    (m.program madr bcrH16 bcrL16).Programmed where
  room := room
  used := Nat.zero_le _
  madr := by
    show (madr &&& 0x1fffff).toNat = ((madr &&& 0x1fffff).toNat + 0) % 0x200000
    rw [Nat.add_zero, and_ram, Nat.mod_mod]
  bcr := rfl

end Machine

end Pcsx2.Mechacon
