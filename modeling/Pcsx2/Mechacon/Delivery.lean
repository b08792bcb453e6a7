import Pcsx2.Foundation.Run
import Pcsx2.Mechacon.Sectors

/-!
# Delivery of sectors

Every sector a command asks for is written once and in order, into the region of a transfer. That the region is
not overrun rests on the blocks of the transfer dividing the sector.
-/

namespace Pcsx2.Mechacon
open Foundation

/-! ## Looks at the channel -/

namespace Machine

variable {host : Host} {m : Machine}

def closed (m : Machine) (completed : Bool) : Machine := if completed then m.complete.look true else m.look false

structure Written (host : Host) (m : Machine) (completed : Bool) : Prop where
  fits : m.drive.blockSize ≤ m.bcr
  on : m.dma.chcr = true
  result : m.readSector host = (true, (m.writeSector host).closed completed)
  completed : completed = true ↔ (m.writeSector host).bcr < m.drive.blockSize

theorem readSector_written (positive : 0 < m.drive.blockSize) (on : m.dma.chcr = true)
    (fits : m.drive.blockSize ≤ m.bcr) (exact : m.Exact) : ∃ completed, Written host m completed := by
  have result : m.readSector host = if (m.writeSector host).dma.bcrH16 = 0 then
      (true, (m.writeSector host).complete.look true) else (true, (m.writeSector host).look false) := by
    unfold readSector
    rw [if_neg (not_not.mpr on), if_neg (Nat.not_lt.mpr fits)]
  have rest : (m.writeSector host).bcr = m.bcr - m.drive.blockSize := bcr_writeSector exact fits
  by_cases last : (m.writeSector host).dma.bcrH16 = 0
  · refine ⟨true, fits, on, ?_, ?_⟩
    · rw [result, if_pos last]
      rfl
    · have none : (m.writeSector host).bcr = 0 := by
        unfold bcr
        rw [last]
        simp
      rw [none]
      exact ⟨fun _ => positive, fun _ => rfl⟩
  · refine ⟨false, fits, on, ?_, ?_⟩
    · rw [result, if_neg last]
      rfl
    · have some : (m.writeSector host).bcr ≠ 0 := by
        have left : 0 < (m.writeSector host).dma.bcrH16.toNat := by
          rw [Nat.pos_iff_ne_zero]
          exact fun none => last (BitVec.eq_of_toNat_eq none)
        have wide : 0 < m.dma.bcrL16.toNat := by
          rw [Nat.pos_iff_ne_zero]
          intro none
          unfold bcr at fits
          rw [none] at fits
          omega
        unfold bcr
        exact Nat.mul_ne_zero (Nat.mul_ne_zero left.ne' wide.ne') (by decide)
      have := exact.2
      constructor
      · exact fun no => absurd no Bool.false_ne_true
      · omega

theorem readSector_idle (off : m.dma.chcr = false) : m.readSector host = (false, m) := by
  unfold readSector
  rw [off]
  rfl

theorem readSector_small (on : m.dma.chcr = true) (small : m.bcr < m.drive.blockSize) :
    m.readSector host = (false, m.complete.look true) := by
  unfold readSector
  rw [if_neg (not_not.mpr on), if_pos small]

end Machine

/-! ## What a command asks for -/

structure Request where
  start : BitVec 32
  count : Int
  mode : ReadMode
  blockSize : Nat
  maxSector : BitVec 32

/-- The disc has every sector below the last one, as a whole. -/
structure Host.Reads (host : Host) (maxSector : BitVec 32) : Prop where
  track : ∀ sector mode, sector < maxSector → host.readTrack sector mode = 0
  buffer : ∀ sector mode, sector < maxSector → (host.getBuffer sector mode).1 = 0
  full : ∀ sector mode, sector < maxSector → mode.size ≤ (host.getBuffer sector mode).2.length

namespace Request

def sector (r : Request) (k : Nat) : BitVec 32 := r.start + BitVec.ofNat 32 k

/-- The bytes a sector is written with. -/
def bytes (r : Request) (host : Host) (m : Machine) (sector : BitVec 32) : List Byte :=
  sectorBytes host.dualInfo r.blockSize sector m.decSet m.key4 (host.getBuffer sector r.mode).2

theorem sector_succ (r : Request) (k : Nat) : r.sector k + 1 = r.sector (k + 1) := by
  unfold sector
  rw [BitVec.add_assoc]
  congr 1
  apply BitVec.eq_of_toNat_eq
  simp [BitVec.toNat_add]

variable (host : Host) (r : Request)

/-- What was written since the command was given in `first`: the first `k` of its sectors. -/
structure Delivers (first m : Machine) (k : Nat) : Prop where
  sectors : m.history.delivered.map Delivered.sector = (List.range k).map r.sector
  le : k ≤ r.count.toNat
  bytes : ∀ w ∈ m.history.delivered, w.bytes = r.bytes host first w.sector
  inside : ∀ w ∈ m.history.delivered, w.base ≤ w.address ∧ w.address + w.bytes.length ≤ w.base + w.size
  ram : m.ram = perform first.ram (m.history.delivered.flatMap fun w => blockStores w.address w.bytes)
  completed : ∀ look ∈ m.history.looks, look.completed = true ↔ look.remains < look.blockSize

structure Underway (m : Machine) (k : Nat) : Prop where
  busy : m.drive.ready &&& CDVD_DRIVE_BUSY ≠ 0
  count : m.drive.sectorCnt = r.count - k
  seekTo : m.drive.seekToSector = r.sector k
  arrived : m.drive.seekCompleted = true → m.drive.currentSector = r.sector k
  seeking : m.drive.seekCompleted = false → m.drive.reading = true
  reading : m.drive.reading = true → r.sector k < r.maxSector →
    m.drive.readErr = 0 ∧ m.drive.track = (r.sector k, r.mode)
  taken : m.drive.reading = false → r.sector k < r.maxSector ∧ m.transfer = (host.getBuffer (r.sector k) r.mode).2
  pending : m.drive.cdvdRead = true ∨ m.drive.waitingDMA = true ∧ m.dma.chcr = false

structure Finished (m : Machine) (k : Nat) : Prop where
  all : k = r.count.toNat
  idle : m.drive.ready &&& CDVD_DRIVE_BUSY = 0
  cdvdRead : m.drive.cdvdRead = false
  waitingDMA : m.drive.waitingDMA = false

structure Fixed (first m : Machine) : Prop where
  mode : m.drive.readMode = r.mode
  blockSize : m.drive.blockSize = r.blockSize
  maxSector : m.drive.maxSector = r.maxSector
  abort : m.drive.abortRequested = false
  decSet : m.decSet = first.decSet
  key4 : m.key4 = first.key4
  programmed : m.dma.chcr = true → m.Programmed

structure Runs (first m : Machine) (k : Nat) : Prop where
  fixed : r.Fixed first m
  delivers : r.Delivers host first m k
  stage : r.Underway host m k ∨ r.Finished m k

structure Possible : Prop where
  block : r.mode.Block r.blockSize
  reads : host.Reads r.maxSector
  present : ∀ i < r.count.toNat, r.sector i < r.maxSector

section

variable {host : Host} {r : Request} {first m m' : Machine} {k : Nat}

theorem Delivers.same (delivers : r.Delivers host first m k) (delivered : m'.history.delivered = m.history.delivered)
    (looks : m'.history.looks = m.history.looks) (ram : m'.ram = m.ram) : r.Delivers host first m' k where
  sectors := delivered ▸ delivers.sectors
  le := delivers.le
  bytes := delivered ▸ delivers.bytes
  inside := delivered ▸ delivers.inside
  ram := by
    rw [ram, delivered]
    exact delivers.ram
  completed := looks ▸ delivers.completed

theorem Delivers.look (delivers : r.Delivers host first m k) {completed : Bool}
    (exact : completed = true ↔ m.history.size - m.history.used < m.drive.blockSize) :
    r.Delivers host first (m.look completed) k where
  sectors := delivers.sectors
  le := delivers.le
  bytes := delivers.bytes
  inside := delivers.inside
  ram := delivers.ram
  completed look member := by
    rcases List.mem_append.mp member with before | here
    · exact delivers.completed look before
    · rw [List.mem_singleton.mp here]
      exact exact

end

end Request

/-! ## Sectors that are buffered -/

/-- Two states of the drive that agree in what reading depends on. -/
structure Drive.Same (d d' : Drive) : Prop where
  ready : d'.ready = d.ready
  sectorCnt : d'.sectorCnt = d.sectorCnt
  seekToSector : d'.seekToSector = d.seekToSector
  seekCompleted : d'.seekCompleted = d.seekCompleted
  currentSector : d'.currentSector = d.currentSector
  reading : d'.reading = d.reading
  readErr : d'.readErr = d.readErr
  track : d'.track = d.track
  cdvdRead : d'.cdvdRead = d.cdvdRead
  waitingDMA : d'.waitingDMA = d.waitingDMA
  readMode : d'.readMode = d.readMode
  blockSize : d'.blockSize = d.blockSize
  maxSector : d'.maxSector = d.maxSector
  abortRequested : d'.abortRequested = d.abortRequested

theorem Drive.buffered_same (d : Drive) : d.Same d.buffered := by
  unfold buffered
  dsimp only
  split_ifs <;> exact ⟨rfl, rfl, rfl, rfl, rfl, rfl, rfl, rfl, rfl, rfl, rfl, rfl, rfl, rfl⟩

namespace Request.Runs

variable {host : Host} {r : Request} {first m : Machine} {k : Nat}

theorem withDrive (runs : r.Runs host first m k) {d : Drive} (same : m.drive.Same d) :
    r.Runs host first (m.withDrive d) k := by
  obtain ⟨fixed, delivers, stage⟩ := runs
  refine ⟨⟨?_, ?_, ?_, ?_, fixed.decSet, fixed.key4, ?_⟩, delivers.same rfl rfl rfl, ?_⟩
  · exact same.readMode.trans fixed.mode
  · exact same.blockSize.trans fixed.blockSize
  · exact same.maxSector.trans fixed.maxSector
  · exact same.abortRequested.trans fixed.abort
  · intro on
    have programmed := fixed.programmed on
    exact ⟨programmed.room, programmed.used, programmed.madr, programmed.bcr⟩
  · rcases stage with underway | finished
    · left
      obtain ⟨busy, count, seekTo, arrived, seeking, reading, taken, pending⟩ := underway
      rw [← same.ready] at busy
      rw [← same.sectorCnt] at count
      rw [← same.seekToSector] at seekTo
      rw [← same.seekCompleted, ← same.currentSector] at arrived
      rw [← same.seekCompleted, ← same.reading] at seeking
      rw [← same.reading, ← same.readErr, ← same.track] at reading
      rw [← same.reading] at taken
      rw [← same.cdvdRead, ← same.waitingDMA] at pending
      exact ⟨busy, count, seekTo, arrived, seeking, reading, taken, pending⟩
    · right
      obtain ⟨all, idle, cdvdRead, waitingDMA⟩ := finished
      exact ⟨all, same.ready ▸ idle, same.cdvdRead.trans cdvdRead, same.waitingDMA.trans waitingDMA⟩

theorem sectorReady (runs : r.Runs host first m k) : r.Runs host first m.sectorReady k :=
  runs.withDrive m.drive.buffered_same

/-! ## Transfers that start -/

theorem psxDma3 (runs : r.Runs host first m k) (block : r.mode.Block r.blockSize) {madr : BitVec 32}
    {bcrH16 bcrL16 : BitVec 16} (room : (madr &&& 0x1fffff).toNat + bcrH16.toNat * bcrL16.toNat * 4 ≤ 0x200000) :
    r.Runs host first (m.psxDma3 madr bcrH16 bcrL16) k := by
  obtain ⟨fixed, delivers, stage⟩ := runs
  have programmed := Machine.programmed_program (m := m) room
  have delivers' : r.Delivers host first (m.program madr bcrH16 bcrL16) k := delivers.same rfl rfl rfl
  unfold Machine.psxDma3
  dsimp only
  split_ifs with none waiting
  · have empty : (m.program madr bcrH16 bcrL16).history.size - 0 < m.drive.blockSize := by
      have := block.positive
      rw [fixed.blockSize]
      show bcrH16.toNat * bcrL16.toNat * 4 - 0 < r.blockSize
      rw [none]
      simpa using this
    have looked : r.Delivers host first (m.program madr bcrH16 bcrL16).complete k := delivers'.same rfl rfl rfl
    refine ⟨⟨fixed.mode, fixed.blockSize, fixed.maxSector, fixed.abort, fixed.decSet, fixed.key4,
      fun on => absurd on Bool.false_ne_true⟩, looked.look ⟨fun _ => empty, fun _ => rfl⟩, ?_⟩
    rcases stage with ⟨busy, count, seekTo, arrived, seeking, reading, taken, pending⟩ | finished
    · left
      refine ⟨busy, count, seekTo, arrived, seeking, reading, taken, ?_⟩
      exact pending.imp id fun waits => ⟨waits.1, rfl⟩
    · exact Or.inr ⟨finished.all, finished.idle, finished.cdvdRead, finished.waitingDMA⟩
  · refine ⟨⟨fixed.mode, fixed.blockSize, fixed.maxSector, fixed.abort, fixed.decSet, fixed.key4, fun _ =>
      ⟨programmed.room, programmed.used, programmed.madr, programmed.bcr⟩⟩, delivers'.same rfl rfl rfl, ?_⟩
    rcases stage with ⟨busy, count, seekTo, arrived, seeking, reading, taken, -⟩ | finished
    · exact Or.inl ⟨busy, count, seekTo, arrived, seeking, reading, taken, Or.inl rfl⟩
    · exact absurd (finished.waitingDMA.symm.trans waiting) Bool.false_ne_true
  · refine ⟨⟨fixed.mode, fixed.blockSize, fixed.maxSector, fixed.abort, fixed.decSet, fixed.key4, fun _ =>
      programmed⟩, delivers', ?_⟩
    rcases stage with ⟨busy, count, seekTo, arrived, seeking, reading, taken, pending⟩ | finished
    · refine Or.inl ⟨busy, count, seekTo, arrived, seeking, reading, taken, Or.inl ?_⟩
      rcases pending with soon | ⟨waits, -⟩
      · exact soon
      · exact absurd waits waiting
    · exact Or.inr ⟨finished.all, finished.idle, finished.cdvdRead, finished.waitingDMA⟩

end Request.Runs

/-! ## Sectors that are written -/

namespace Request

variable {host : Host} {r : Request} {first m : Machine} {k : Nat}

structure Taken (host : Host) (r : Request) (m : Machine) (k : Nat) : Prop where
  busy : m.drive.ready &&& CDVD_DRIVE_BUSY ≠ 0
  count : m.drive.sectorCnt = r.count - k
  seekTo : m.drive.seekToSector = r.sector k
  arrived : m.drive.seekCompleted = true
  here : m.drive.currentSector = r.sector k
  reading : m.drive.reading = false
  below : r.sector k < r.maxSector
  transfer : m.transfer = (host.getBuffer (r.sector k) r.mode).2
  cdvdRead : m.drive.cdvdRead = false
  waitingDMA : m.drive.waitingDMA = false

theorem Taken.underway (taken : Taken host r m k) {m' : Machine} (same : m.drive.Same { m'.drive with
    cdvdRead := false, waitingDMA := false }) (transfer : m'.transfer = m.transfer)
    (pending : m'.drive.cdvdRead = true ∨ m'.drive.waitingDMA = true ∧ m'.dma.chcr = false) :
    r.Underway host m' k where
  busy := same.ready ▸ taken.busy
  count := same.sectorCnt.trans taken.count
  seekTo := same.seekToSector.trans taken.seekTo
  arrived _ := same.currentSector.trans taken.here
  seeking no := absurd ((same.seekCompleted.trans taken.arrived).symm.trans no) (by decide)
  reading yes _ := absurd ((same.reading.trans taken.reading).symm.trans yes) (by decide)
  taken _ := ⟨taken.below, transfer.trans taken.transfer⟩
  pending := pending

theorem Delivers.written (delivers : r.Delivers host first m k) (fixed : r.Fixed first m) (taken : Taken host r m k)
    (possible : r.Possible host) (more : 0 < m.drive.sectorCnt) (fits : m.drive.blockSize ≤ m.bcr)
    (on : m.dma.chcr = true) : r.Delivers host first (m.writeSector host) (k + 1) := by
  have programmed := fixed.programmed on
  have positive : 0 < m.drive.blockSize := by
    rw [fixed.blockSize]
    exact possible.block.positive
  have bytes : sectorBytes host.dualInfo m.drive.blockSize m.drive.currentSector m.decSet m.key4 m.transfer =
      r.bytes host first (r.sector k) := by
    unfold Request.bytes
    rw [fixed.blockSize, taken.here, fixed.decSet, fixed.key4, taken.transfer]
  have length : (r.bytes host first (r.sector k)).length = m.drive.blockSize := by
    rw [fixed.blockSize]
    exact sectorBytes_length possible.block (possible.reads.full _ _ taken.below) _ _ _ _
  have place := programmed.address positive fits
  have room := taken.count
  refine ⟨?_, by omega, ?_, ?_, ?_, delivers.completed⟩
  · show (m.history.delivered ++ [_]).map Delivered.sector = _
    rw [List.map_append, delivers.sectors, List.range_succ, List.map_append]
    simp only [List.map_cons, List.map_nil, taken.here]
  · intro w member
    rcases List.mem_append.mp member with before | last
    · exact delivers.bytes w before
    · rw [List.mem_singleton.mp last]
      show sectorBytes _ _ _ _ _ _ = r.bytes host first m.drive.currentSector
      rw [bytes, taken.here]
  · intro w member
    rcases List.mem_append.mp member with before | last
    · exact delivers.inside w before
    · rw [List.mem_singleton.mp last]
      dsimp only
      rw [bytes, length]
      omega
  · show perform m.ram _ = perform first.ram ((m.history.delivered ++ [_]).flatMap _)
    rw [List.flatMap_append, perform_append, ← delivers.ram, List.flatMap_singleton]

theorem Delivers.closed (delivers : r.Delivers host first m k) {completed : Bool}
    (exact : completed = true ↔ m.history.size - m.history.used < m.drive.blockSize) :
    r.Delivers host first (m.closed completed) k := by
  cases completed with
  | true =>
      have closed : r.Delivers host first m.complete k := delivers.same rfl rfl rfl
      exact closed.look exact
  | false => exact delivers.look exact

theorem closed_rest (m : Machine) (completed : Bool) :
    (m.closed completed).drive = m.drive ∧ (m.closed completed).transfer = m.transfer := by
  cases completed <;> exact ⟨rfl, rfl⟩

theorem Fixed.closed (fixed : r.Fixed first m) (completed : Bool) : r.Fixed first (m.closed completed) := by
  cases completed with
  | true =>
      exact ⟨fixed.mode, fixed.blockSize, fixed.maxSector, fixed.abort, fixed.decSet, fixed.key4,
        fun on => absurd on Bool.false_ne_true⟩
  | false =>
      refine ⟨fixed.mode, fixed.blockSize, fixed.maxSector, fixed.abort, fixed.decSet, fixed.key4, fun on => ?_⟩
      have programmed := fixed.programmed on
      exact ⟨programmed.room, programmed.used, programmed.madr, programmed.bcr⟩

theorem Taken.same (taken : Taken host r m k) {m' : Machine} (drive : m'.drive = m.drive)
    (transfer : m'.transfer = m.transfer) : Taken host r m' k := by
  obtain ⟨busy, count, seekTo, arrived, here, reading, below, data, cdvdRead, waitingDMA⟩ := taken
  rw [← drive] at busy count seekTo arrived here reading cdvdRead waitingDMA
  exact ⟨busy, count, seekTo, arrived, here, reading, below, transfer.trans data, cdvdRead, waitingDMA⟩

theorem Fixed.withDrive (fixed : r.Fixed first m) {d : Drive} (mode : d.readMode = m.drive.readMode)
    (blockSize : d.blockSize = m.drive.blockSize) (maxSector : d.maxSector = m.drive.maxSector)
    (abort : d.abortRequested = false) : r.Fixed first (m.withDrive d) where
  mode := mode.trans fixed.mode
  blockSize := blockSize.trans fixed.blockSize
  maxSector := maxSector.trans fixed.maxSector
  abort := abort
  decSet := fixed.decSet
  key4 := fixed.key4
  programmed on :=
    have programmed := fixed.programmed on
    ⟨programmed.room, programmed.used, programmed.madr, programmed.bcr⟩

theorem Taken.sectorDone (taken : Taken host r m k) (fixed : r.Fixed first m) (possible : r.Possible host)
    (delivers : r.Delivers host first m (k + 1)) (more : 0 < m.drive.sectorCnt) :
    r.Runs host first (m.withDrive (m.drive.sectorDone host)) (k + 1) := by
  have count := taken.count
  have le := delivers.le
  have less : m.drive.advance.sectorCnt = m.drive.sectorCnt - 1 := rfl
  unfold Drive.sectorDone
  dsimp only
  by_cases last : m.drive.advance.sectorCnt ≤ 0
  · rw [if_pos last]
    refine ⟨fixed.withDrive rfl rfl rfl rfl, delivers.same rfl rfl rfl, Or.inr ⟨?_, ?_, ?_, ?_⟩⟩
    · omega
    · show (CDVD_DRIVE_READY ||| (CDVD_DRIVE_MECHA_INIT ||| CDVD_DRIVE_DEV9CON)) &&& CDVD_DRIVE_BUSY = 0
      decide
    · exact taken.cdvdRead
    · exact taken.waitingDMA
  · rw [if_neg last]
    have here : m.drive.currentSector + 1 = r.sector (k + 1) := by rw [taken.here, sector_succ]
    have below : r.sector (k + 1) < r.maxSector := possible.present _ (by omega)
    refine ⟨fixed.withDrive rfl rfl rfl fixed.abort, delivers.same rfl rfl rfl,
      Or.inl ⟨taken.busy, ?_, ?_, fun _ => here, ?_, fun _ _ => ⟨?_, ?_⟩, ?_, Or.inl rfl⟩⟩
    · show m.drive.sectorCnt - 1 = r.count - (k + 1 : Nat)
      omega
    · show m.drive.seekToSector + 1 = r.sector (k + 1)
      rw [taken.seekTo, sector_succ]
    · exact fun no => absurd (taken.arrived.symm.trans no) (by decide)
    · show host.readTrack (m.drive.currentSector + 1) m.drive.readMode = 0
      rw [here]
      exact possible.reads.track _ _ below
    · show (m.drive.currentSector + 1, m.drive.readMode) = (r.sector (k + 1), r.mode)
      rw [here, fixed.mode]
    · exact fun no => absurd no.symm Bool.false_ne_true

def Clear (m : Machine) : Prop :=
  m.dma.chcr = true → 0 < m.drive.sectorCnt → m.drive.nextSectorsBuffered ≠ 0 → m.drive.blockSize ≤ m.bcr → m.Exact

theorem Taken.write (taken : Taken host r m k) (fixed : r.Fixed first m) (possible : r.Possible host)
    (delivers : r.Delivers host first m k) (more : 0 < m.drive.sectorCnt) (on : m.dma.chcr = true)
    (fits : m.drive.blockSize ≤ m.bcr) (exact : m.Exact) {completed : Bool}
    (written : Machine.Written host m completed) :
    r.Runs host first ((m.readSector host).2.withDrive ((m.readSector host).2.drive.sectorDone host)) (k + 1) := by
  have programmed : (m.writeSector host).Programmed := (fixed.programmed on).writeSector exact fits
  have rest := closed_rest (m.writeSector host) completed
  have after : r.Fixed first (m.writeSector host) :=
    ⟨fixed.mode, fixed.blockSize, fixed.maxSector, fixed.abort, fixed.decSet, fixed.key4, fun _ => programmed⟩
  have delivers' : r.Delivers host first ((m.writeSector host).closed completed) (k + 1) := by
    apply (delivers.written fixed taken possible more fits on).closed
    rw [written.completed, programmed.bcr]
    rfl
  rw [written.result]
  apply Taken.sectorDone (taken.same rest.1 rest.2) (after.closed completed) possible delivers'
  rw [rest.1]
  exact more

theorem Taken.wait (taken : Taken host r m k) (fixed : r.Fixed first m) (delivers : r.Delivers host first m k)
    (off : m.dma.chcr = false) :
    r.Runs host first (m.withDrive { m.drive.updateStatus CDVD_STATUS_PAUSE with waitingDMA := true }) k := by
  refine ⟨fixed.withDrive rfl rfl rfl fixed.abort, delivers.same rfl rfl rfl, Or.inl ?_⟩
  exact taken.underway ⟨rfl, rfl, rfl, rfl, rfl, rfl, rfl, rfl, taken.cdvdRead.symm, taken.waitingDMA.symm, rfl, rfl,
    rfl, rfl⟩ rfl (Or.inr ⟨rfl, off⟩)

theorem Taken.deliver (taken : Taken host r m k) (fixed : r.Fixed first m) (possible : r.Possible host)
    (delivers : r.Delivers host first m k) (clear : Clear m) : ∃ k', r.Runs host first (m.deliver host) k' := by
  have count := taken.count
  have le := delivers.le
  have positive : 0 < m.drive.blockSize := by
    rw [fixed.blockSize]
    exact possible.block.positive
  unfold Machine.deliver
  dsimp only
  by_cases go : 0 < m.drive.sectorCnt ∧ m.drive.nextSectorsBuffered ≠ 0
  · rw [if_pos go]
    by_cases on : m.dma.chcr = true
    · by_cases fits : m.drive.blockSize ≤ m.bcr
      · have exact := clear on go.1 go.2 fits
        obtain ⟨completed, written⟩ : ∃ completed, Machine.Written host m completed :=
          Machine.readSector_written positive on fits exact
        have yes : (m.readSector host).1 = true := by rw [written.result]
        rw [if_pos yes]
        exact ⟨k + 1, taken.write fixed possible delivers go.1 on fits exact written⟩
      · have small := Nat.not_le.mp fits
        have looked : r.Delivers host first (m.complete.look true) k := by
          have programmed := fixed.programmed on
          have closed : r.Delivers host first m.complete k := delivers.same rfl rfl rfl
          apply closed.look
          show true = true ↔ m.history.size - m.history.used < m.drive.blockSize
          rw [← programmed.bcr]
          exact ⟨fun _ => small, fun _ => rfl⟩
        rw [Machine.readSector_small on small]
        have still : Taken host r (m.complete.look true) k := taken.same rfl rfl
        exact ⟨k, still.wait (fixed.closed true) looked rfl⟩
    · have off := Bool.eq_false_iff.mpr on
      rw [Machine.readSector_idle off]
      exact ⟨k, taken.wait fixed delivers off⟩
  · rw [if_neg go]
    split_ifs with last
    · refine ⟨k, fixed.withDrive rfl rfl rfl rfl, delivers.same rfl rfl rfl, Or.inr ⟨by omega, ?_, ?_, ?_⟩⟩
      · show (CDVD_DRIVE_READY ||| (CDVD_DRIVE_MECHA_INIT ||| CDVD_DRIVE_DEV9CON)) &&& CDVD_DRIVE_BUSY = 0
        decide
      · exact taken.cdvdRead
      · exact taken.waitingDMA
    · refine ⟨k, fixed.withDrive rfl rfl rfl fixed.abort, delivers.same rfl rfl rfl, Or.inl ?_⟩
      exact taken.underway ⟨rfl, rfl, rfl, rfl, rfl, rfl, rfl, rfl, taken.cdvdRead.symm, taken.waitingDMA.symm, rfl, rfl,
        rfl, rfl⟩ rfl (Or.inl rfl)

/-! ## The interrupt of the drive -/

structure Arrived (host : Host) (r : Request) (m : Machine) (k : Nat) : Prop where
  busy : m.drive.ready &&& CDVD_DRIVE_BUSY ≠ 0
  count : m.drive.sectorCnt = r.count - k
  seekTo : m.drive.seekToSector = r.sector k
  arrived : m.drive.seekCompleted = true
  here : m.drive.currentSector = r.sector k
  reading : m.drive.reading = true → r.sector k < r.maxSector →
    m.drive.readErr = 0 ∧ m.drive.track = (r.sector k, r.mode)
  taken : m.drive.reading = false → r.sector k < r.maxSector ∧ m.transfer = (host.getBuffer (r.sector k) r.mode).2
  cdvdRead : m.drive.cdvdRead = false
  waitingDMA : m.drive.waitingDMA = false

theorem Underway.arrive (underway : r.Underway host m k) : Arrived host r (m.withDrive m.drive.arrived) k := by
  have busy : (CDVD_DRIVE_BUSY ||| (CDVD_DRIVE_MECHA_INIT ||| CDVD_DRIVE_DEV9CON)) &&& CDVD_DRIVE_BUSY ≠ 0 := by
    decide
  unfold Drive.arrived
  dsimp only
  split_ifs with completed
  · exact ⟨busy, underway.count, underway.seekTo, completed, underway.arrived completed, underway.reading,
      underway.taken, rfl, rfl⟩
  · have seeking := underway.seeking (Bool.eq_false_iff.mpr completed)
    exact ⟨busy, underway.count, underway.seekTo, rfl, underway.seekTo, fun _ => underway.reading seeking,
      fun no => absurd no.symm Bool.false_ne_true, rfl, rfl⟩

theorem arrived_fixed (fixed : r.Fixed first m) : r.Fixed first (m.withDrive m.drive.arrived) := by
  unfold Drive.arrived
  dsimp only
  split_ifs
  · exact fixed.withDrive rfl rfl rfl fixed.abort
  · exact fixed.withDrive rfl rfl rfl fixed.abort

theorem arrived_clear (clear : Clear m) : Clear (m.withDrive m.drive.arrived) := by
  unfold Drive.arrived
  dsimp only
  split_ifs
  · exact clear
  · exact clear

theorem Arrived.stopped (arrived : Arrived host r m k) (fixed : r.Fixed first m)
    (delivers : r.Delivers host first m k) (possible : r.Possible host)
    (past : m.drive.maxSector ≤ m.drive.currentSector) :
    r.Runs host first (m.withDrive ((m.drive.stopped 0x32).setIrq Irq_CommandComplete)) k := by
  have all : k = r.count.toNat := by
    by_contra some
    have present := possible.present k (by have := delivers.le; omega)
    rw [fixed.maxSector, arrived.here] at past
    exact absurd present (BitVec.not_lt.mpr past)
  refine ⟨fixed.withDrive rfl rfl rfl rfl, delivers.same rfl rfl rfl, Or.inr ⟨all, ?_, arrived.cdvdRead, rfl⟩⟩
  show (CDVD_DRIVE_READY ||| CDVD_DRIVE_ERROR ||| (CDVD_DRIVE_MECHA_INIT ||| CDVD_DRIVE_DEV9CON)) &&&
    CDVD_DRIVE_BUSY = 0
  decide

theorem Arrived.take (arrived : Arrived host r m k) (possible : r.Possible host)
    (below : r.sector k < r.maxSector) (reading : m.drive.reading = true) :
    m.takeTrack host = { m with
      drive := { m.drive with readErr := 0 }, transfer := (host.getBuffer (r.sector k) r.mode).2 } := by
  have asked := arrived.reading reading below
  unfold Machine.takeTrack
  dsimp only
  rw [if_pos asked.1, asked.2, possible.reads.buffer _ _ below]

theorem Arrived.deliver (arrived : Arrived host r m k) (fixed : r.Fixed first m)
    (delivers : r.Delivers host first m k) (possible : r.Possible host) (clear : Clear m)
    (below : r.sector k < r.maxSector) :
    ∃ k', r.Runs host first
      (if m.drive.reading then
        if (m.takeTrack host).drive.readErr = -1 then
          (m.takeTrack host).withDrive ((m.takeTrack host).drive.retry host)
        else ((m.takeTrack host).withDrive { (m.takeTrack host).drive with reading := false }).deliver host
      else m.deliver host) k' := by
  by_cases reading : m.drive.reading = true
  · rw [if_pos reading, arrived.take possible below reading]
    dsimp only
    rw [if_neg (by decide)]
    let taken : Machine := { m with
      drive := { m.drive with readErr := 0, reading := false }
      transfer := (host.getBuffer (r.sector k) r.mode).2 }
    have fixed' : r.Fixed first taken :=
      ⟨fixed.mode, fixed.blockSize, fixed.maxSector, fixed.abort, fixed.decSet, fixed.key4, fun on =>
        have programmed := fixed.programmed on
        ⟨programmed.room, programmed.used, programmed.madr, programmed.bcr⟩⟩
    have delivers' : r.Delivers host first taken k := delivers.same rfl rfl rfl
    have here : Taken host r taken k :=
      ⟨arrived.busy, arrived.count, arrived.seekTo, arrived.arrived, arrived.here, rfl, below, rfl, arrived.cdvdRead,
        arrived.waitingDMA⟩
    exact here.deliver fixed' possible delivers' clear
  · have idle := Bool.eq_false_iff.mpr reading
    have here : Taken host r m k :=
      ⟨arrived.busy, arrived.count, arrived.seekTo, arrived.arrived, arrived.here, idle, below,
        (arrived.taken idle).2, arrived.cdvdRead, arrived.waitingDMA⟩
    rw [if_neg reading]
    exact here.deliver fixed possible delivers clear

theorem Runs.readInterrupt (runs : r.Runs host first m k) (possible : r.Possible host) (clear : Clear m)
    (pending : m.drive.cdvdRead = true) : ∃ k', r.Runs host first (m.readInterrupt host) k' := by
  obtain ⟨fixed, delivers, underway | finished⟩ := runs
  · have arrived := underway.arrive
    have fixed' := arrived_fixed fixed
    have clear' := arrived_clear clear
    have delivers' : r.Delivers host first (m.withDrive m.drive.arrived) k := delivers.same rfl rfl rfl
    unfold Machine.readInterrupt
    dsimp only
    generalize m.withDrive m.drive.arrived = m' at arrived fixed' clear' delivers' ⊢
    rw [if_neg (fixed'.abort ▸ Bool.false_ne_true)]
    by_cases past : m'.drive.maxSector ≤ m'.drive.currentSector
    · rw [if_pos past]
      exact ⟨k, arrived.stopped fixed' delivers' possible past⟩
    · rw [if_neg past]
      have below : r.sector k < r.maxSector := by
        rw [← arrived.here, ← fixed'.maxSector]
        exact BitVec.not_le.mp past
      exact arrived.deliver fixed' delivers' possible clear' below
  · exact absurd (finished.cdvdRead.symm.trans pending) Bool.false_ne_true

end Request

end Pcsx2.Mechacon
