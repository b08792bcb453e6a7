import Pcsx2.Mechacon.Delivery

/-!
# Commands that read

From a read command the drive accepts on, its sectors are delivered, whatever transfers the program starts.
-/

namespace Pcsx2.Mechacon
open Foundation

/-! ## Seeks -/

namespace Drive

variable (d : Drive)

theorem Same.trans {d₁ d₂ d₃ : Drive} (first : d₁.Same d₂) (second : d₂.Same d₃) : d₁.Same d₃ :=
  ⟨second.ready.trans first.ready, second.sectorCnt.trans first.sectorCnt,
    second.seekToSector.trans first.seekToSector, second.seekCompleted.trans first.seekCompleted,
    second.currentSector.trans first.currentSector, second.reading.trans first.reading,
    second.readErr.trans first.readErr, second.track.trans first.track, second.cdvdRead.trans first.cdvdRead,
    second.waitingDMA.trans first.waitingDMA, second.readMode.trans first.readMode,
    second.blockSize.trans first.blockSize, second.maxSector.trans first.maxSector,
    second.abortRequested.trans first.abortRequested⟩

theorem cancelReadAhead_same : d.Same d.cancelReadAhead :=
  ⟨rfl, rfl, rfl, rfl, rfl, rfl, rfl, rfl, rfl, rfl, rfl, rfl, rfl, rfl⟩

theorem finishSeek_same (delta : Nat) (isSeeking : Bool) : d.Same (d.finishSeek delta isSeeking) := by
  unfold finishSeek
  split_ifs <;> exact ⟨rfl, rfl, rfl, rfl, rfl, rfl, rfl, rfl, rfl, rfl, rfl, rfl, rfl, rfl⟩

structure Seeks (d : Drive) (sector : BitVec 32) (d' : Drive) : Prop where
  busy : d'.ready &&& CDVD_DRIVE_BUSY ≠ 0
  sectorCnt : d'.sectorCnt = d.sectorCnt
  seekToSector : d'.seekToSector = sector
  completed : d'.seekCompleted = true → d'.currentSector = sector
  readMode : d'.readMode = d.readMode
  blockSize : d'.blockSize = d.blockSize
  maxSector : d'.maxSector = d.maxSector
  abortRequested : d'.abortRequested = d.abortRequested

theorem Seeks.same {d d' d'' : Drive} {sector : BitVec 32} (seeks : d.Seeks sector d') (same : d'.Same d'') :
    d.Seeks sector d'' where
  busy := same.ready ▸ seeks.busy
  sectorCnt := same.sectorCnt.trans seeks.sectorCnt
  seekToSector := same.seekToSector.trans seeks.seekToSector
  completed yes := same.currentSector.trans (seeks.completed (same.seekCompleted.symm.trans yes))
  readMode := same.readMode.trans seeks.readMode
  blockSize := same.blockSize.trans seeks.blockSize
  maxSector := same.maxSector.trans seeks.maxSector
  abortRequested := same.abortRequested.trans seeks.abortRequested

theorem eq_of_delta {a b : BitVec 32} (none : (a - b).toInt.natAbs = 0) : b = a := by
  have zero : a - b = 0 := by
    apply BitVec.eq_of_toInt_eq
    rw [Int.natAbs_eq_zero.mp none]
    rfl
  have := BitVec.sub_eq_iff_eq_add.mp zero
  rw [this]
  exact (BitVec.zero_add b).symm

theorem prepareSeek_seeks (newsector : BitVec 32) (transition_to_CLV : Bool) :
    d.Seeks newsector (d.prepareSeek newsector transition_to_CLV) ∧
      (d.prepareSeek newsector transition_to_CLV).currentSector = d.currentSector := by
  have busy : (CDVD_DRIVE_BUSY ||| (CDVD_DRIVE_MECHA_INIT ||| CDVD_DRIVE_DEV9CON)) &&& CDVD_DRIVE_BUSY ≠ 0 := by
    decide
  unfold prepareSeek
  dsimp only
  split_ifs
  · exact ⟨⟨busy, rfl, rfl, fun no => absurd no Bool.false_ne_true, rfl, rfl, rfl, rfl⟩, rfl⟩
  · exact ⟨⟨busy, rfl, rfl, fun no => absurd no Bool.false_ne_true, rfl, rfl, rfl, rfl⟩, rfl⟩

theorem Seeks.contiguous {d d' : Drive} {sector : BitVec 32} (seeks : d.Seeks sector d')
    (here : d'.currentSector = sector) : d.Seeks sector d'.contiguous :=
  ⟨seeks.busy, seeks.sectorCnt, seeks.seekToSector, fun _ => here, seeks.readMode, seeks.blockSize, seeks.maxSector,
    seeks.abortRequested⟩

theorem Seeks.distance {d d' : Drive} {sector : BitVec 32} (seeks : d.Seeks sector d') {delta : Nat}
    (here : delta = 0 → d'.currentSector = sector) (mode : DriveMode) (speed_change : Bool) :
    d.Seeks sector (d'.seekDistance delta mode speed_change) := by
  unfold seekDistance
  split_ifs with stopped far changes none buffered pending few
  · refine seeks.same (Same.trans ?_ (finishSeek_same _ _ _))
    exact ⟨rfl, rfl, rfl, rfl, rfl, rfl, rfl, rfl, rfl, rfl, rfl, rfl, rfl, rfl⟩
  · exact seeks.same ((cancelReadAhead_same d').trans (finishSeek_same _ _ _))
  · exact seeks.same (finishSeek_same _ _ _)
  · exact seeks.contiguous (here none)
  · exact (seeks.contiguous (here none)).same (finishSeek_same _ _ _)
  · exact (seeks.contiguous (here none)).same (finishSeek_same _ _ _)
  · exact seeks.same ((cancelReadAhead_same d').trans (finishSeek_same _ _ _))
  · refine seeks.same (Same.trans ?_ (finishSeek_same _ _ _))
    exact ⟨rfl, rfl, rfl, rfl, rfl, rfl, rfl, rfl, rfl, rfl, rfl, rfl, rfl, rfl⟩

theorem startSeek_seeks (newsector : BitVec 32) (mode : DriveMode) (transition_to_CLV speed_change : Bool) :
    d.Seeks newsector (d.startSeek newsector mode transition_to_CLV speed_change) := by
  have prepared := d.prepareSeek_seeks newsector transition_to_CLV
  apply prepared.1.distance
  intro none
  rw [prepared.2]
  exact eq_of_delta none

theorem beginRead_begins (host : Host) (mode : DriveMode) (oldSpindleCtrl : Byte) (speed_change : Bool) :
    ∃ d', d.Seeks d.seekToSector d' ∧ d.beginRead host mode oldSpindleCtrl speed_change =
      { d'.readInt.readTrack host d'.seekToSector with reading := true } :=
  ⟨_, d.startSeek_seeks d.seekToSector mode _ speed_change, rfl⟩

/-! ## Accepted commands -/

def prepared (p : ReadParams) (defaultSpeed : Byte) (fast : Bool) (block : ReadMode × Nat) : Drive :=
  let d := d.seekTo p defaultSpeed
  (d.setSpeed (speedOf fast d.spindlCtrl)).setBlock (some block)

theorem readCommand_accepted (host : Host) {p : ReadParams} {defaultSpeed : Byte} {fast : Bool}
    (block : ReadMode × Nat) (handled : Bool) (mode : DriveMode) (speed_change : Bool)
    (speed : speedOf fast (d.seekTo p defaultSpeed).spindlCtrl ≠ none)
    (inside : handled = true → 0 < p.count.toInt ∧ p.sector < d.maxSector) :
    d.readCommand host p defaultSpeed fast (some block) handled mode speed_change =
      (d.prepared p defaultSpeed fast block).beginRead host mode d.spindlCtrl speed_change := by
  have error : (if handled = true then (d.prepared p defaultSpeed fast block).readError else none) = none := by
    split_ifs with asked
    · obtain ⟨some, below⟩ := inside asked
      have many : ¬(d.prepared p defaultSpeed fast block).sectorCnt ≤ 0 := Int.not_le.mpr some
      have within : ¬(d.prepared p defaultSpeed fast block).maxSector ≤
          (d.prepared p defaultSpeed fast block).seekToSector := BitVec.not_le.mpr below
      unfold readError
      rw [if_neg many, if_neg within]
    · rfl
  unfold readCommand
  dsimp only
  rw [if_neg (by simpa using speed)]
  simp only [prepared] at error ⊢
  rw [error]

end Drive

inductive ReadCommand
  | cdRead
  | cdReadCdda
  | dvdRead
  deriving DecidableEq

namespace ReadCommand

variable (command : ReadCommand)

/-- The command is issued; an abort of the one before is over. -/
def issue (host : Host) (p : ReadParams) (speed_change : Bool) (d : Drive) : Drive :=
  let d := { d with abortRequested := false }
  match command with
  | cdRead => d.cdRead host p speed_change
  | cdReadCdda => d.cdReadCdda host p speed_change
  | dvdRead => d.dvdRead host p speed_change

def defaultSpeed (isDVD : Bool) : Byte :=
  match command with
  | cdRead => if isDVD then 3 else 5
  | cdReadCdda => 5
  | dvdRead => 3

def fast (isDVD : Bool) : Bool :=
  match command with
  | cdRead => !isDVD
  | cdReadCdda => true
  | dvdRead => false

/-- The block of a sector, for a disc the command is for. -/
def block (isDVD : Bool) (mode : Byte) : Option (ReadMode × Nat) :=
  match command with
  | cdRead => Drive.cdBlock isDVD mode
  | cdReadCdda => if isDVD then none else Drive.cddaBlock mode
  | dvdRead => if isDVD then Drive.dvdBlock mode else none

structure Accepts (d : Drive) (p : ReadParams) (block : ReadMode × Nat) : Prop where
  block : command.block d.isDVD p.mode = some block
  speed : Drive.speedOf (command.fast d.isDVD) (d.seekTo p (command.defaultSpeed d.isDVD)).spindlCtrl ≠ none
  inside : command ≠ cdReadCdda → 0 < p.count.toInt ∧ p.sector < d.maxSector

structure Prepared (d : Drive) (p : ReadParams) (block : ReadMode × Nat) (d' : Drive) : Prop where
  sectorCnt : d'.sectorCnt = p.count.toInt
  seekToSector : d'.seekToSector = p.sector
  readMode : d'.readMode = block.1
  blockSize : d'.blockSize = block.2
  maxSector : d'.maxSector = d.maxSector
  abortRequested : d'.abortRequested = false

variable {command} {d : Drive} {p : ReadParams} {block : ReadMode × Nat}

theorem prepared_prepared (defaultSpeed : Byte) (fast : Bool) :
    Prepared d p block ({ d with abortRequested := false }.prepared p defaultSpeed fast block) :=
  ⟨rfl, rfl, rfl, rfl, rfl, rfl⟩

theorem Accepts.issue (accepts : command.Accepts d p block) (host : Host) (speed_change : Bool) :
    ∃ prepared mode oldSpindleCtrl, Prepared d p block prepared ∧
      command.issue host p speed_change d = prepared.beginRead host mode oldSpindleCtrl speed_change := by
  obtain ⟨known, speed, inside⟩ := accepts
  let d' : Drive := { d with abortRequested := false }
  cases command with
  | cdRead =>
      have known : Drive.cdBlock d'.isDVD p.mode = some block := known
      refine ⟨_, d'.driveMode, d'.spindlCtrl, prepared_prepared (if d.isDVD then 3 else 5) (!d.isDVD), ?_⟩
      change d'.cdRead host p speed_change = _
      unfold Drive.cdRead
      rw [known]
      exact d'.readCommand_accepted host block true d'.driveMode speed_change speed fun _ => inside (by decide)
  | cdReadCdda =>
      have known : (if d'.isDVD then none else Drive.cddaBlock p.mode) = some block := known
      refine ⟨_, .cdrom, d'.spindlCtrl, prepared_prepared 5 true, ?_⟩
      change d'.cdReadCdda host p speed_change = _
      unfold Drive.cdReadCdda
      split_ifs at known ⊢
      rw [known]
      exact d'.readCommand_accepted host block false .cdrom speed_change speed fun no => absurd no (by decide)
  | dvdRead =>
      have known : (if d'.isDVD then Drive.dvdBlock p.mode else none) = some block := known
      let wide : Drive := d'.setBlock (some (.mode2048, 2064))
      refine ⟨_, .dvdrom, d'.spindlCtrl, prepared_prepared 3 false, ?_⟩
      change d'.dvdRead host p speed_change = _
      unfold Drive.dvdRead
      split_ifs at known ⊢ with cd dvd
      · exact absurd dvd (by simpa using cd)
      · rw [known]
        exact wide.readCommand_accepted host block true .dvdrom speed_change speed fun _ => inside (by decide)

/-! ## Delivery -/

/-- The request of a command. -/
def request (d : Drive) (p : ReadParams) (block : ReadMode × Nat) : Request :=
  ⟨p.sector, p.count.toInt, block.1, block.2, d.maxSector⟩

theorem block_of_some (dvd : Bool) {mode : Byte} {b : ReadMode × Nat}
    (found : Drive.cdBlock dvd mode = some b ∨ Drive.cddaBlock mode = some b ∨ Drive.dvdBlock mode = some b) :
    b.1.Block b.2 := by
  unfold Drive.cdBlock Drive.cddaBlock Drive.dvdBlock at found
  rcases found with cd | cdda | dvd
  · split_ifs at cd <;> (obtain rfl := Option.some.inj cd; exact Or.inl rfl)
  · split_ifs at cdda <;> (obtain rfl := Option.some.inj cdda; exact Or.inl rfl)
  · split_ifs at dvd
    obtain rfl := Option.some.inj dvd
    exact Or.inr ⟨rfl, rfl⟩

theorem Accepts.block_known (accepts : command.Accepts d p block) : block.1.Block block.2 := by
  have known := accepts.block
  unfold ReadCommand.block at known
  cases command with
  | cdRead => exact block_of_some d.isDVD (Or.inl known)
  | cdReadCdda =>
      dsimp only at known
      split_ifs at known
      exact block_of_some d.isDVD (Or.inr (Or.inl known))
  | dvdRead =>
      dsimp only at known
      split_ifs at known
      exact block_of_some d.isDVD (Or.inr (Or.inr known))

end ReadCommand

namespace Machine

/-- What happens while a command runs: the interrupts of the drive, and the program starts transfers into its
memory. -/
inductive Event
  | readInterrupt
  | sectorReady
  | psxDma3 (madr : BitVec 32) (bcrH16 bcrL16 : BitVec 16)

def Allowed (m : Machine) : Event → Prop
  | .readInterrupt => m.drive.cdvdRead = true
  | .sectorReady => m.drive.sectorReady = true
  | .psxDma3 madr bcrH16 bcrL16 => (madr &&& 0x1fffff).toNat + bcrH16.toNat * bcrL16.toNat * 4 ≤ 0x200000

def step (host : Host) (m : Machine) : Event → Machine
  | .readInterrupt => m.readInterrupt host
  | .sectorReady => m.sectorReady
  | .psxDma3 madr bcrH16 bcrL16 => m.psxDma3 madr bcrH16 bcrL16

def Acts (host : Host) (m t : Machine) : Prop := ∃ event, m.Allowed event ∧ t = m.step host event

/-- The same where every sector is written by a transfer whose blocks are exact. -/
def Step (host : Host) (m t : Machine) : Prop :=
  ∃ event, m.Allowed event ∧ (event = .readInterrupt → Request.Clear m) ∧ t = m.step host event

/-- No command was delivered to, and the channel is off or holds a transfer that has not gone wrong. -/
structure Fresh (m : Machine) : Prop where
  delivered : m.history.delivered = []
  looks : m.history.looks = []
  programmed : m.dma.chcr = true → m.Programmed

end Machine

/-- What the command is to have done: some of its sectors, all of them when it is finished, and until then it goes
on or waits for a transfer. -/
def Request.Served (host : Host) (r : Request) (first t : Machine) : Prop :=
  ∃ k, r.Delivers host first t k ∧
    (t.drive.ready &&& CDVD_DRIVE_BUSY = 0 → k = r.count.toNat) ∧
    (t.drive.ready &&& CDVD_DRIVE_BUSY ≠ 0 → t.drive.cdvdRead = true ∨ t.drive.waitingDMA = true ∧ t.dma.chcr = false)

section

variable {host : Host} {command : ReadCommand} {p : ReadParams} {block : ReadMode × Nat} {m t : Machine}

theorem runs_issue (accepts : command.Accepts m.drive p block)
    (possible : (ReadCommand.request m.drive p block).Possible host) (fresh : m.Fresh) (speed_change : Bool) :
    (ReadCommand.request m.drive p block).Runs host m (m.withDrive (command.issue host p speed_change m.drive)) 0 := by
  obtain ⟨d, mode, oldSpindleCtrl, prepared, issued⟩ := accepts.issue host speed_change
  have first : (ReadCommand.request m.drive p block).sector 0 = p.sector := BitVec.add_zero p.sector
  obtain ⟨d', seeks, begun⟩ := d.beginRead_begins host mode oldSpindleCtrl speed_change
  have seekTo : d'.seekToSector = p.sector := seeks.seekToSector.trans prepared.seekToSector
  have readMode : d'.readMode = block.1 := seeks.readMode.trans prepared.readMode
  rw [issued, begun]
  refine ⟨⟨readMode, ?_, ?_, ?_, rfl, rfl, ?_⟩, ⟨?_, Nat.zero_le _, ?_, ?_, ?_, ?_⟩,
    Or.inl ⟨seeks.busy, ?_, ?_, ?_, fun _ => rfl, ?_, ?_, Or.inl rfl⟩⟩
  · exact seeks.blockSize.trans prepared.blockSize
  · exact seeks.maxSector.trans prepared.maxSector
  · exact seeks.abortRequested.trans prepared.abortRequested
  · intro on
    have programmed := fresh.programmed on
    exact ⟨programmed.room, programmed.used, programmed.madr, programmed.bcr⟩
  · show m.history.delivered.map _ = _
    rw [fresh.delivered]
    rfl
  · intro w member
    exact absurd (fresh.delivered ▸ member) List.not_mem_nil
  · intro w member
    exact absurd (fresh.delivered ▸ member) List.not_mem_nil
  · show m.ram = perform m.ram (m.history.delivered.flatMap _)
    rw [fresh.delivered]
    rfl
  · intro look member
    exact absurd (fresh.looks ▸ member) List.not_mem_nil
  · show d'.sectorCnt = p.count.toInt - (0 : Nat)
    rw [seeks.sectorCnt, prepared.sectorCnt]
    omega
  · exact seekTo.trans first.symm
  · intro completed
    exact (seeks.completed completed).trans (prepared.seekToSector.trans first.symm)
  · intro _ below
    rw [first] at below ⊢
    refine ⟨?_, ?_⟩
    · show host.readTrack d'.seekToSector d'.readMode = 0
      rw [seekTo]
      exact possible.reads.track _ _ below
    · show (d'.seekToSector, d'.readMode) = (p.sector, block.1)
      rw [seekTo, readMode]
  · exact fun no => absurd no.symm Bool.false_ne_true

theorem Request.Runs.served {r : Request} {k : Nat} (runs : r.Runs host m t k) : r.Served host m t := by
  refine ⟨k, runs.delivers, ?_, ?_⟩
  · intro idle
    rcases runs.stage with underway | finished
    · exact absurd idle underway.busy
    · exact finished.all
  · intro busy
    rcases runs.stage with underway | finished
    · exact underway.pending
    · exact absurd finished.idle busy

theorem Request.Runs.step {r : Request} {k : Nat} {u : Machine} (runs : r.Runs host m t k)
    (possible : r.Possible host) (step : t.Step host u) : ∃ k', r.Runs host m u k' := by
  obtain ⟨event, allowed, clear, rfl⟩ := step
  cases event with
  | readInterrupt => exact runs.readInterrupt possible (clear rfl) allowed
  | sectorReady => exact ⟨k, runs.sectorReady⟩
  | psxDma3 madr bcrH16 bcrL16 => exact ⟨k, runs.psxDma3 possible.block allowed⟩

end

/-! ## A transfer with blocks of two sectors -/

def zeros : Host where
  sourceType := .iso
  isFastBootInProgress := false
  detectDiskType := 0x12
  trackEnd := 100
  dualInfo := (0, 0)
  readTrack _ _ := 0
  getBuffer _ mode := (0, List.replicate mode.size 0)

theorem zeros_full (sector : BitVec 32) (mode : ReadMode) : mode.size ≤ (zeros.getBuffer sector mode).2.length :=
  (List.length_replicate ..).ge

theorem zeros_reads (maxSector : BitVec 32) : zeros.Reads maxSector where
  track _ _ _ := rfl
  buffer _ _ _ := rfl
  full sector mode _ := zeros_full sector mode

def loaded : Machine where
  drive := { discType := 0x12, maxSector := 100, spinning := true, nextSectorsBuffered := 16 }

def threeSectors : ReadParams := ⟨0, 3, 0, 0, 0⟩

theorem threeSectors_accepted : ReadCommand.cdRead.Accepts loaded.drive threeSectors (.mode2048, 2048) :=
  ⟨rfl, by decide, fun _ => by decide⟩

theorem loaded_fresh : loaded.Fresh := ⟨rfl, rfl, fun on => absurd on Bool.false_ne_true⟩

def issued : Machine := loaded.withDrive (ReadCommand.cdRead.issue zeros threeSectors false loaded.drive)

def served (bcrH16 bcrL16 : BitVec 16) : Nat → Machine
  | 0 => issued.psxDma3 0 bcrH16 bcrL16
  | n + 1 => (served bcrH16 bcrL16 n).readInterrupt zeros

theorem served_run {step : Machine → Machine → Prop} {bcrH16 bcrL16 : BitVec 16} {n : Nat}
    (start : step issued (served bcrH16 bcrL16 0))
    (next : ∀ i < n, step (served bcrH16 bcrL16 i) (served bcrH16 bcrL16 (i + 1))) :
    Run step issued (served bcrH16 bcrL16 n) := by
  induction n with
  | zero => exact Run.single start
  | succ n ih => exact (ih fun i below => next i (by omega)).tail (next n (by omega))

theorem threeSectors_present : ∀ i < threeSectors.count.toInt.toNat,
    threeSectors.sector + BitVec.ofNat 32 i < loaded.drive.maxSector := by decide

end Pcsx2.Mechacon
