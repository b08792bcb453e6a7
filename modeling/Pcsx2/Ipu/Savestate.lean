import Pcsx2.Ipu.Statics

/-!
# Savestates of the IPU

A savestate has everything but the statics of the decoder.
-/

namespace Pcsx2.Ipu
open Foundation

variable {live : Live} {p q : Process} {α β : Type}

/-! ## IDEC -/

variable {writes : Prop} {kernels : Kernels}

/-- Inside the loop over macroblocks. The flag is not live where the next macroblock is searched, which sets it. -/
def Live.rounds (writes : Prop) : Live where
  held := False
  mba place := place.pos1 = 3
  idec place := writes ∨ place.pos1 ≠ 3
  bdec place := writes ∨ place.CMD = 2

def Live.decoding (writes : Prop) : Live := { Live.rounds writes with idec := fun _ => True }

def Live.searching (writes : Prop) : Live := { Live.rounds writes with mba := fun _ => True, idec := fun _ => False }

def Live.found (writes : Prop) : Live := { Live.searching writes with idec := fun _ => True }

theorem decodeMacroblock_alike :
    Lockstep (decodeMacroblock kernels) (Alike (.decoding writes)) fun _ => Alike (.decoding writes) := by
  unfold decodeMacroblock
  refine modifyCmd_bind (.decoding writes) (fun _ => ⟨id, nofun, id, id⟩) ?_
  refine onCore_bind fun decoder => readCmd_bind fun cmd => ?_
  refine Lockstep.before ?_ fun p q known => known.1
  refine Lockstep.bind (blocksFrom_alike ?_ ?_ _) fun decoded => ?_
  · exact fun _ _ => slice_intra_DCT_alike
  · exact fun _ _ => ⟨id, id, id, id⟩
  · refine .ite (fun _ => ?_) fun _ => .pure fun _ _ alike => alike
    refine onCore_bind fun _ => ?_
    exact modifyCmd_bind _ (fun _ => ⟨id, nofun, id, id⟩) (.pure fun _ _ alike => alike)

theorem sendMacroblock_alike :
    Lockstep sendMacroblock (Alike (.decoding writes)) fun sent =>
      Alike (if sent then .found writes else .decoding writes) := by
  unfold sendMacroblock
  refine (Lockstep.read fun p q alike => alike.idec trivial).bind fun ready => ?_
  refine Lockstep.before ?_ fun p q known => known.1
  refine .ite (fun _ => ?_) fun _ => ?_
  · refine writeIDEC_bind (onCore_bind fun _ => ?_)
    exact modifyCmd_bind (.decoding writes) (fun _ => ⟨id, nofun, id, id⟩) (.pure fun _ _ alike => alike)
  · refine onCore_bind fun read => onCore_bind fun decoder => ?_
    refine .ite (fun _ => onCore_bind fun _ => ?_) fun _ => ?_
    · exact modifyCmd_bind (.decoding writes) (fun _ => ⟨id, nofun, id, id⟩) (.pure fun _ _ alike => alike)
    · refine writeMba_bind ?_
      refine .ite (fun _ => onCore_bind fun _ => ?_) fun _ => .pure fun _ _ alike => alike
      exact modifyCmd_bind (.decoding writes) (fun _ => ⟨id, fun _ => trivial, id, id⟩)
        (.pure fun _ _ alike => alike)

theorem macroblockFound_alike {tab : MBAtab} :
    Lockstep (macroblockFound tab) (Alike (.found writes)) fun _ => Alike (.found writes) := by
  unfold macroblockFound
  refine onCore_bind fun _ => ?_
  refine countMba_bind (fun _ => trivial) ?_
  refine (Lockstep.read fun p q alike => alike.mba trivial).bind fun mbaCount => ?_
  refine Lockstep.before ?_ fun p q known => known.1
  exact .when onCore_alike (.pure fun _ _ alike => alike)

theorem mbaLoop_alike (rounds : Nat) :
    Lockstep (mbaLoop rounds) (Alike (.found writes)) fun _ => Alike (.found writes) := by
  induction rounds with
  | zero => exact .pure fun _ _ alike => alike
  | succ rounds ih =>
    unfold mbaLoop
    refine onCore_bind fun enough => ?_
    refine .ite (fun _ => ?_) fun _ => ?_
    · exact modifyCmd_bind _ (fun _ => ⟨id, id, id, id⟩) (.pure fun _ _ alike => alike)
    · refine onCore_bind fun code => ?_
      refine .ite (fun _ => onCore_bind fun _ => macroblockFound_alike) fun _ => ?_
      refine .ite (fun _ => onCore_bind fun _ => macroblockFound_alike) fun _ => ?_
      refine onCore_bind fun escape => ?_
      refine .ite (fun _ => countMba_bind (fun _ => trivial) (onCore_bind fun _ => ih)) fun _ => ?_
      exact .ite (fun _ => onCore_bind fun _ => ih) fun _ => .pure fun _ _ alike => alike

theorem skipMacroblocks_alike :
    Lockstep skipMacroblocks (Alike (.searching writes)) fun _ => Alike (.found writes) := by
  unfold skipMacroblocks
  exact writeIDEC_bind (onCore_bind fun core => mbaLoop_alike _)

theorem endMacroblock_alike :
    Lockstep endMacroblock (Alike (.decoding writes)) fun _ => Alike (.decoding writes) := by
  unfold endMacroblock
  refine onCore_bind fun enough => ?_
  refine .ite (fun _ => ?_) fun _ => ?_
  · exact modifyCmd_bind _ (fun _ => ⟨id, nofun, id, id⟩) (.pure fun _ _ alike => alike)
  · exact modifyCmd_bind _ (fun _ => ⟨id, nofun, id, id⟩) (.pure fun _ _ alike => alike)

theorem Alike.decoding (alike : Alike (.found writes) p q) : Alike (.decoding writes) p q :=
  alike.weaken ⟨id, fun _ => trivial, id, id⟩

theorem skipAndEnd_alike : Lockstep skipAndEnd (Alike (.searching writes)) fun _ => Alike (.decoding writes) := by
  unfold skipAndEnd
  refine skipMacroblocks_alike.bind fun round => ?_
  split
  · exact endMacroblock_alike.before fun _ _ => Alike.decoding
  · exact .pure fun _ _ => Alike.decoding

theorem sendAndSkip_alike : Lockstep sendAndSkip (Alike (.decoding writes)) fun _ => Alike (.decoding writes) := by
  unfold sendAndSkip
  refine sendMacroblock_alike.bind fun sent => ?_
  refine .ite (fun done => ?_) fun left => ?_
  · rw [if_pos done]
    exact skipAndEnd_alike.before fun p q alike => alike.weaken ⟨id, id, nofun, id⟩
  · rw [if_neg left]
    exact .pure fun _ _ alike => alike

theorem macroblockRound_alike :
    Lockstep (macroblockRound kernels) (Alike (.rounds writes)) fun _ => Alike (.rounds writes) := by
  unfold macroblockRound
  refine readCmd_bind fun cmd => ?_
  have leave : ∀ p q, Alike (.decoding writes) p q → Alike (.rounds writes) p q :=
    fun p q alike => alike.weaken ⟨id, id, fun _ => trivial, id⟩
  by_cases skipping : cmd.pos1 = 3
  · refine known_weaken (.searching writes) ⟨id, fun _ => skipping, nofun, id⟩ (onCore_bind fun core => ?_)
    rw [if_neg (by omega), if_neg (by omega), if_neg (by omega), if_pos skipping]
    exact skipAndEnd_alike.after fun _ => leave
  · refine known_weaken (.decoding writes) ⟨id, id, fun _ => .inr skipping, id⟩ ?_
    refine Lockstep.after ?_ fun _ => leave
    refine onCore_bind fun core => ?_
    refine .ite (fun _ => onCore_bind fun _ => .pure fun _ _ alike => alike) fun _ => ?_
    refine .ite (fun _ => .when onCore_alike ?_) fun _ => .ite (fun _ => sendAndSkip_alike) fun _ => ?_
    · refine decodeMacroblock_alike.bind fun decoded => ?_
      exact .ite (fun _ => sendAndSkip_alike) fun _ => .pure fun _ _ alike => alike
    · rw [if_neg skipping]
      exact endMacroblock_alike

theorem macroblockLoop_alike (rounds : Nat) :
    Lockstep (macroblockLoop kernels rounds) (Alike (.rounds writes)) fun _ => Alike (.rounds writes) := by
  induction rounds with
  | zero => exact .pure fun _ _ alike => alike
  | succ rounds ih =>
    unfold macroblockLoop
    refine macroblockRound_alike.bind fun round => ?_
    split
    · exact ih
    · exact .pure fun _ _ alike => alike

theorem finishDecoding_alike (entry : Nat) {pos0 : Nat} (first : ∀ cmd, live.Covers cmd live { cmd with pos0 })
    (second : ∀ cmd, live.Covers cmd live { cmd with pos0 := pos0 + 1 }) :
    Lockstep (finishDecoding entry pos0) (Alike live) fun _ => Alike live := by
  unfold finishDecoding
  have search : Lockstep (if entry ≤ pos0 then onCore findStartCode else pure true) (Alike live) fun _ => Alike live :=
    .ite (fun _ => onCore_alike) fun _ => .pure fun _ _ alike => alike
  refine .join search fun found => ?_
  refine .ite (fun _ => modifyCmd_bind _ first (.pure fun _ _ alike => alike)) fun _ => ?_
  refine onCore_bind fun read => ?_
  exact .ite (fun _ => modifyCmd_bind _ second (.pure fun _ _ alike => alike)) fun _ => .pure fun _ _ alike => alike

theorem decodeMacroblocks_alike :
    Lockstep (decodeMacroblocks kernels) (Alike (.rounds writes)) fun _ => Alike (.rounds writes) := by
  unfold decodeMacroblocks
  refine modifyCmd_bind _ (fun _ => ⟨id, id, id, id⟩) ?_
  refine (macroblockLoop_alike 3).bind fun round => ?_
  split
  · exact onCore_bind fun _ => finishDecoding_alike _ (fun _ => ⟨id, id, id, id⟩) fun _ => ⟨id, id, id, id⟩
  · exact .pure fun _ _ alike => alike

def Live.IDEC (writes : Prop) : Live where
  held := False
  mba place := place.pos0 ≤ 2 ∧ place.pos1 = 3
  idec place := writes ∨ place.pos0 ≤ 2 ∧ place.pos1 ≠ 3
  bdec place := writes ∨ place.CMD = 2

theorem Alike.inIDEC (alike : Alike (.rounds writes) p q) : Alike (.IDEC writes) p q :=
  alike.weaken ⟨id, And.right, Or.imp id And.right, id⟩

theorem mpeg2sliceIDEC_alike :
    Lockstep (mpeg2sliceIDEC kernels) (Alike (.IDEC writes)) fun _ => Alike (.IDEC writes) := by
  unfold mpeg2sliceIDEC
  refine readCmd_bind fun cmd => ?_
  by_cases decoding : cmd.pos0 ≤ 2
  · refine known_weaken (.rounds writes)
      ⟨id, fun searched => ⟨decoding, searched⟩, Or.imp id fun other => ⟨decoding, other⟩, id⟩ ?_
    refine Lockstep.after ?_ fun _ p q => Alike.inIDEC
    refine .when onCore_alike ?_
    refine .ite (fun _ => ?_) fun later => ?_
    · refine modifyCmd_bind _ (fun _ => ⟨id, id, id, id⟩) (onCore_bind fun enough => ?_)
      exact .ite (fun _ => .pure fun _ _ alike => alike) fun _ => decodeMacroblocks_alike
    · rw [if_pos (by omega)]
      exact decodeMacroblocks_alike
  · refine known_weaken (.IDEC writes) ⟨id, id, id, id⟩ ?_
    refine .when onCore_alike ?_
    rw [if_neg (by omega), if_neg (by omega)]
    have left : ∀ (cmd : IpuCmd) (pos0 : Nat), 2 < pos0 →
        (Live.IDEC writes).Covers cmd (.IDEC writes) { cmd with pos0 } := by
      intro cmd pos0 behind
      have past : ¬ pos0 ≤ 2 := Nat.not_le.mpr behind
      exact ⟨id, fun searched => absurd searched.1 past, Or.imp id fun other => absurd other.1 past, id⟩
    exact finishDecoding_alike _ (fun cmd => left cmd 3 (by decide)) fun cmd => left cmd 4 (by decide)

/-! ## BDEC -/

/-- Between the calls of BDEC, which does not read `mbaCount`. -/
def Live.BDEC (writes : Prop) : Live where
  held := False
  mba place := place.CMD = 1
  idec place := writes ∨ place.CMD = 1
  bdec place := writes ∨ place.pos0 ≤ 3

def Live.sending (writes : Prop) : Live := { Live.BDEC writes with bdec := fun _ => True }

theorem Alike.inBDEC (alike : Alike (.sending writes) p q) : Alike (.BDEC writes) p q :=
  alike.weaken ⟨id, id, id, fun _ => trivial⟩

theorem suspendBlock_covers (number : Nat) (cmd : IpuCmd) :
    (Live.sending writes).Covers cmd (.sending writes) (suspendBlock number cmd) :=
  ⟨id, id, id, id⟩

theorem decodeIntra_alike {entry modes : Nat} :
    Lockstep (decodeIntra kernels entry modes) (Alike (.sending writes)) fun _ => Alike (.sending writes) := by
  unfold decodeIntra
  refine .when onCore_alike ?_
  refine Lockstep.bind (blocksFrom_alike ?_ suspendBlock_covers _) fun decoded => ?_
  · exact fun _ _ => slice_intra_DCT_alike
  · exact .ite (fun _ => onCore_bind fun _ => .pure fun _ _ alike => alike) fun _ => .pure fun _ _ alike => alike

theorem patternBlock_alike (block : Block) (skip : Bool) :
    Lockstep (patternBlock kernels block skip) (Alike live) fun _ => Alike live := by
  unfold patternBlock
  refine onCore_bind fun decoder => ?_
  exact .ite (fun _ => .pure fun _ _ alike => alike) fun _ => slice_non_intra_DCT_alike

theorem decodeNonIntra_alike {entry modes : Nat} :
    Lockstep (decodeNonIntra kernels entry modes) (Alike (.sending writes)) fun _ => Alike (.sending writes) := by
  unfold decodeNonIntra
  exact .when onCore_alike (blocksFrom_alike patternBlock_alike suspendBlock_covers _)

theorem decodeBDEC_alike :
    Lockstep (decodeBDEC kernels) (Alike (.sending writes)) fun _ => Alike (.sending writes) := by
  unfold decodeBDEC
  refine onCore_bind fun decoder => readCmd_bind fun cmd => ?_
  refine Lockstep.before ?_ fun p q known => known.1
  have sent : ∀ decoded, Lockstep
      (if decoded = true then do
        onCore setOutput
        return true
      else
        return false)
      (Alike (.sending writes)) fun _ => Alike (.sending writes) :=
    fun decoded => .ite (fun _ => onCore_bind fun _ => .pure fun _ _ alike => alike) fun _ => .pure fun _ _ alike => alike
  refine .ite (fun _ => decodeIntra_alike.bind sent) fun _ => ?_
  refine .ite (fun _ => decodeNonIntra_alike.bind sent) fun _ => ?_
  exact sent true

theorem sendBDEC_alike :
    Lockstep sendBDEC (Alike (.sending writes)) fun _ => Alike (.sending writes) := by
  unfold sendBDEC
  refine (Lockstep.read fun p q alike => alike.bdec trivial).bind fun ready => ?_
  refine Lockstep.before ?_ fun p q known => known.1
  refine .ite (fun _ => ?_) fun _ => ?_
  · refine writeBDEC_bind (onCore_bind fun _ => ?_)
    exact modifyCmd_bind _ (fun _ => ⟨id, id, id, id⟩) (.pure fun _ _ alike => alike)
  · refine onCore_bind fun read => onCore_bind fun decoder => ?_
    refine .ite (fun _ => onCore_bind fun _ => ?_) fun _ => ?_
    · exact modifyCmd_bind _ (fun _ => ⟨id, id, id, id⟩) (.pure fun _ _ alike => alike)
    · refine writeMba_bind ?_
      have forget : ∀ p q, Alike { Live.sending writes with mba := fun _ => True } p q → Alike (.sending writes) p q :=
        fun p q alike => alike.weaken ⟨id, fun _ => trivial, id, id⟩
      refine Lockstep.before ?_ forget
      refine .ite (fun _ => onCore_bind fun _ => ?_) fun _ => .pure fun _ _ alike => alike
      exact modifyCmd_bind _ (fun _ => ⟨id, id, id, id⟩) (.pure fun _ _ alike => alike)

theorem endBDEC_alike {entry : Nat} :
    Lockstep (endBDEC entry) (Alike (.BDEC writes)) fun _ => Alike (.BDEC writes) := by
  unfold endBDEC
  have left : ∀ (cmd : IpuCmd) (pos0 : Nat), 3 < pos0 →
      (Live.BDEC writes).Covers cmd (.BDEC writes) { cmd with pos0 } := by
    intro cmd pos0 behind
    exact ⟨id, id, id, Or.imp id fun sending => absurd sending (Nat.not_le.mpr behind)⟩
  have finished := finishDecoding_alike entry (fun cmd => left cmd 4 (by decide)) fun cmd => left cmd 5 (by decide)
  refine finished.bind fun done => ?_
  refine .ite (fun _ => writeBDEC_bind ?_) fun _ => .pure fun _ _ alike => alike
  exact .pure fun p q alike => alike.weaken ⟨id, id, id, fun _ => trivial⟩

theorem finishBDEC_alike :
    Lockstep finishBDEC (Alike (.sending writes)) fun _ => Alike (.BDEC writes) := by
  unfold finishBDEC
  refine sendBDEC_alike.bind fun sent => ?_
  refine .ite (fun _ => endBDEC_alike.before fun p q => Alike.inBDEC) fun _ => .pure fun p q => Alike.inBDEC

theorem macroblockBDEC_alike :
    Lockstep (macroblockBDEC kernels) (Alike (.sending writes)) fun _ => Alike (.BDEC writes) := by
  unfold macroblockBDEC
  refine modifyCmd_bind (.sending writes) (fun _ => ⟨id, id, id, id⟩) (onCore_bind fun core => ?_)
  refine .ite (fun _ => onCore_bind fun _ => .pure fun p q => Alike.inBDEC) fun _ => ?_
  refine decodeBDEC_alike.bind fun decoded => ?_
  exact .ite (fun _ => finishBDEC_alike) fun _ => .pure fun p q => Alike.inBDEC

theorem mpeg2_slice_alike :
    Lockstep (mpeg2_slice kernels) (Alike (.BDEC writes)) fun _ => Alike (.BDEC writes) := by
  unfold mpeg2_slice
  refine readCmd_bind fun cmd => ?_
  by_cases sending : cmd.pos0 ≤ 3
  · refine known_weaken (.sending writes) ⟨id, id, id, fun _ => .inr sending⟩ ?_
    refine .when onCore_alike ?_
    refine .ite (fun _ => onCore_bind fun enough => ?_) fun later => ?_
    · refine .ite (fun _ => ?_) fun _ => macroblockBDEC_alike
      exact modifyCmd_bind _ (fun _ => ⟨id, id, id, id⟩) (.pure fun p q => Alike.inBDEC)
    · refine .ite (fun _ => macroblockBDEC_alike) fun _ => ?_
      rw [if_pos (by omega)]
      exact finishBDEC_alike
  · refine known_weaken (.BDEC writes) ⟨id, id, id, id⟩ ?_
    refine .when onCore_alike ?_
    rw [if_neg (by omega), if_neg (by omega), if_neg (by omega)]
    exact endBDEC_alike

/-! ## Runs -/

def Live.resting (writes : Prop) : Live where
  held := False
  mba place := place.CMD = 1 ∧ place.pos0 ≤ 2 ∧ place.pos1 = 3
  idec place := writes ∨ place.CMD = 1 ∧ place.pos0 ≤ 2 ∧ place.pos1 ≠ 3
  bdec place := writes ∨ place.CMD = 2 ∧ place.pos0 ≤ 3

def Live.others (writes : Prop) : Live where
  held := False
  mba place := place.CMD = 1
  idec place := writes ∨ place.CMD = 1
  bdec place := writes ∨ place.CMD = 2

theorem other_alike {cmd : IpuCmd} {m : CommandM Bool} (notIDEC : cmd.CMD ≠ 1) (notBDEC : cmd.CMD ≠ 2) :
    Lockstep (onProgress m) (fun p q => Alike (.resting writes) p q ∧ p.cmd = cmd) fun _ => Alike (.resting writes) := by
  refine known_weaken (.others writes) ?_ ?_
  · exact ⟨id, fun same => absurd same notIDEC, Or.imp id fun same => absurd same notIDEC,
      Or.imp id fun same => absurd same notBDEC⟩
  · refine (onProgress_alike (.others writes) fun _ _ => ⟨id, id, id, id⟩).after fun _ p q alike => ?_
    exact alike.weaken ⟨id, And.left, Or.imp id And.left, Or.imp id And.left⟩

theorem runIDEC_alike {cmd : IpuCmd} (running : cmd.CMD = 1) :
    Lockstep (mpeg2sliceIDEC kernels) (fun p q => Alike (.resting writes) p q ∧ p.cmd = cmd)
      fun _ => Alike (.resting writes) := by
  refine known_weaken (.IDEC writes) ?_ ?_
  · refine ⟨id, And.intro running, Or.imp id (And.intro running), Or.imp id fun same => ?_⟩
    exact absurd (running.symm.trans same) (by decide)
  · refine mpeg2sliceIDEC_alike.after fun _ p q alike => ?_
    exact alike.weaken ⟨id, And.right, Or.imp id And.right, Or.imp id And.left⟩

theorem runBDEC_alike {cmd : IpuCmd} (running : cmd.CMD = 2) :
    Lockstep (mpeg2_slice kernels) (fun p q => Alike (.resting writes) p q ∧ p.cmd = cmd)
      fun _ => Alike (.resting writes) := by
  have other : cmd.CMD ≠ 1 := by omega
  refine known_weaken (.BDEC writes) ?_ ?_
  · exact ⟨id, fun same => absurd same other, Or.imp id fun same => absurd same other, Or.imp id (And.intro running)⟩
  · refine mpeg2_slice_alike.after fun _ p q alike => ?_
    exact alike.weaken ⟨id, And.left, Or.imp id And.left, Or.imp id And.right⟩

theorem runCommand_alike (cmd : IpuCmd) :
    Lockstep (runCommand kernels cmd) (fun p q => Alike (.resting writes) p q ∧ p.cmd = cmd)
      fun _ => Alike (.resting writes) := by
  unfold runCommand
  split
  · exact runIDEC_alike ‹_›
  · exact runBDEC_alike ‹_›
  · exact other_alike (by omega) (by omega)
  · exact other_alike (by omega) (by omega)
  · exact other_alike (by omega) (by omega)
  · exact other_alike (by omega) (by omega)
  · exact other_alike (by omega) (by omega)
  · exact other_alike (by omega) (by omega)
  · exact noDefault_alike

theorem IPUWorker_alike : Lockstep (IPUWorker kernels) (Alike (.resting writes)) fun _ => Alike (.resting writes) := by
  unfold IPUWorker
  refine readCmd_bind fun cmd => (runCommand_alike cmd).bind fun finished => ?_
  exact .ite (fun _ => onCore_alike) fun _ => .pure fun _ _ alike => alike

theorem IPUProcessInterrupt_alike :
    Lockstep (IPUProcessInterrupt kernels) (Alike (.resting writes)) fun _ => Alike (.resting writes) := by
  unfold IPUProcessInterrupt
  refine onCore_bind fun core => ?_
  exact .ite (fun _ => IPUWorker_alike) fun _ => .pure fun _ _ alike => alike

theorem IPUCMD_WRITE_alike (written : writes) (val : UInt32) :
    Lockstep (IPUCMD_WRITE kernels val) (Alike (.resting writes)) fun _ => Alike (.resting writes) := by
  unfold IPUCMD_WRITE
  refine onCore_bind fun _ => ?_
  refine modifyCmd_bind (.resting writes) (fun _ => ?_) ?_
  · exact ⟨nofun, nofun, fun _ => .inl written, fun _ => .inl written⟩
  · split
    · exact onCore_alike
    · exact onCore_alike
    · exact onCore_alike
    · exact onCore_alike
    · exact onCore_bind fun _ => IPUWorker_alike
    · exact onCore_bind fun _ => IPUWorker_alike
    · exact onCore_bind fun _ => IPUWorker_alike
    · exact onCore_bind fun _ => IPUWorker_alike
    · exact onCore_bind fun _ => IPUWorker_alike
    · exact onCore_bind fun _ => IPUWorker_alike
    · exact noDefault_alike

theorem ctrlWrite_alike (value : UInt32) :
    Lockstep (ctrlWrite value) (Alike (.resting writes)) fun _ => Alike (.resting writes) := by
  unfold ctrlWrite
  refine onCore_bind fun _ => .ite (fun _ => ?_) fun _ => .pure fun _ _ alike => alike
  unfold ipuSoftReset
  refine onCore_bind fun _ => modifyCmd_alike fun _ => ?_
  exact ⟨nofun, nofun, Or.imp id fun running => absurd running.1 (by decide),
    Or.imp id fun running => absurd running.1 (by decide)⟩

theorem readCMD_alike : Lockstep readCMD (Alike live) fun _ => Alike live := by
  unfold readCMD
  refine readCmd_bind fun cmd => ?_
  refine Lockstep.before ?_ fun p q known => known.1
  exact .when onCore_alike (onCore_bind fun core => .pure fun _ _ alike => alike)

theorem IPU0dma_alike {pending : Bool} :
    Lockstep (IPU0dma kernels pending) (Alike (.resting writes)) fun _ => Alike (.resting writes) := by
  unfold IPU0dma
  refine onCore_bind fun core => ?_
  refine .ite (fun _ => ?_) fun _ => .ite (fun _ => ?_) fun _ => onCore_alike
  · refine .ite (fun _ => onCore_bind fun _ => ?_) fun _ => .pure fun _ _ alike => alike
    exact IPUProcessInterrupt_alike.bind fun _ => .pure fun _ _ alike => alike
  · exact onCore_bind fun _ => .pure fun _ _ alike => alike

theorem step_alike (event : Event) (allowed : writes ∨ ∀ val, event ≠ .IPUCMD_WRITE val) :
    Lockstep (step kernels event) (Alike (.resting writes)) fun _ => Alike (.resting writes) := by
  cases event with
  | process => exact IPUProcessInterrupt_alike.bind fun _ => .pure fun _ _ alike => alike
  | IPUCMD_WRITE val =>
    have written : writes := allowed.resolve_right fun never => never val rfl
    exact (IPUCMD_WRITE_alike written val).bind fun _ => .pure fun _ _ alike => alike
  | ctrlWrite value => exact (ctrlWrite_alike value).bind fun _ => .pure fun _ _ alike => alike
  | readCMD => exact readCMD_alike
  | IPU0dma pending => exact IPU0dma_alike
  | readCTRL | readBP | readTOP | WriteFIFO_IPUin | IPU1dma | ReadFIFO_IPUout | setIpu0ch =>
    unfold step
    exact onCore_alike

theorem run_alike (events : List Event) (allowed : writes ∨ ∀ val, Event.IPUCMD_WRITE val ∉ events) :
    Lockstep (run kernels events) (Alike (.resting writes)) fun _ => Alike (.resting writes) := by
  induction events with
  | nil => exact .pure fun _ _ alike => alike
  | cons event events ih =>
    have now : writes ∨ ∀ val, event ≠ .IPUCMD_WRITE val :=
      allowed.imp id fun never val same => never val (same ▸ List.mem_cons_self)
    have later : writes ∨ ∀ val, Event.IPUCMD_WRITE val ∉ events :=
      allowed.imp id fun never val member => never val (List.mem_cons_of_mem event member)
    exact (step_alike event now).bind fun _ => (ih later).bind fun _ => .pure fun _ _ alike => alike

/-! ## Savestates -/

/-- What `ipuFreeze` writes, with the registers, which are written with the rest of the hardware's. -/
structure Savestate where
  core : Core
  cmd : IpuCmd

def Statics.fresh : Statics := { tab := none, mbaCount := 0, readyIDEC := true, readyBDEC := true }

def ipuFreeze (p : Process) : Savestate := ⟨p.core, p.cmd⟩

def loadState (state : Savestate) : Process := { Statics.fresh with core := state.core, cmd := state.cmd }

/-- The statics that the command still needs are as in a process that was started anew. -/
structure Resumable (p : Process) : Prop where
  tab : p.cmd.pos5 = 0
  mba : p.cmd.CMD = 1 ∧ p.cmd.pos0 ≤ 2 ∧ p.cmd.pos1 = 3 → p.mbaCount = 0
  idec : p.cmd.CMD = 1 ∧ p.cmd.pos0 ≤ 2 ∧ p.cmd.pos1 ≠ 3 → p.readyIDEC = true
  bdec : p.cmd.CMD = 2 ∧ p.cmd.pos0 ≤ 3 → p.readyBDEC = true

theorem Resumable.alike (resumable : Resumable p) :
    Alike (.resting (p.readyIDEC = true ∧ p.readyBDEC = true)) p (loadState (ipuFreeze p)) where
  core := rfl
  cmd := rfl
  tab := fun live => live.elim False.elim fun between => absurd resumable.tab between
  mba := resumable.mba
  idec := fun live => live.elim And.left resumable.idec
  bdec := fun live => live.elim And.right resumable.bdec

/-- The replies of a run, with the state at its end but for the statics. -/
def observe (kernels : Kernels) (events : List Event) (p : Process) : Option (List Reply × Savestate) :=
  (run kernels events p).map (Prod.map id ipuFreeze)

def Kernels.zero : Kernels where
  idctCopy _ _ _ mb8 := mb8
  idctAdd _ block _ _ mb16 := (mb16, block)
  csc _ _ _ := Vector.replicate 1024 0
  dither _ _ := Vector.replicate 512 0
  vq _ _ := Vector.replicate 128 0

/-- A macroblock whose first block has the DC code `100` and then `110` for every coefficient, of which the last bit is
the sign. -/
def blockQuad : Quad :=
  Vector.ofFn fun i => if i.val = 0 then 0xcd else if i.val % 3 = 1 then 0xb6 else if i.val % 3 = 2 then 0xdb else 0x6d

def untilSuspended : List Event :=
  [.setIpu0ch { STR := true, qwc := 256 }, .WriteFIFO_IPUin blockQuad, .IPUCMD_WRITE 0x10010000, .process]

end Pcsx2.Ipu
