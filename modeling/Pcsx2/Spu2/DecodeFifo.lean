import Pcsx2.Foundation.Ring
import Pcsx2.Spu2.Cache
import Pcsx2.Spu2.Envelope

/-!
# The fifo of decoded samples

A voice decodes four samples at a time and consumes up to four in a mixing step. It never interpolates samples that are
not decoded yet, or that were written over.
-/

namespace Pcsx2.Spu2
open Foundation

structure MixedVoice where
  voice : Voice
  SP : Nat
  Pitch : UInt16

/-- `modulation` is `OutX` of the voice before, where the voice is modulated. The product is a 32-bit one. -/
def updatePitch (Pitch : UInt16) (modulation : Option Int) : Nat :=
  let pitch : Int := match modulation with
    | none => Pitch.toNat
    | some OutX => clamp 0 0x3fff ((Pitch.toNat * (32768 + OutX)).bmod (2 ^ 32) / 2 ^ 15)
  (min pitch 0x3fff).toNat

/-- The slots that `GetVoiceValues` interpolates. -/
def Voice.slots (vc : Voice) : List Int :=
  (List.range 4).map fun i => vc.DecodeFifo ((vc.DecPosRead + .ofNat i) % 32).toNat

namespace MixedVoice

def init : MixedVoice := ⟨.init, 0, 0x3fff⟩

/-- `V_Voice::Start`. -/
def start (m : MixedVoice) : MixedVoice := { m with voice := m.voice.start, SP := 0 }

/-- The rest of `MixVoice` after `DecodeSamples`. `ends` says that `CalculateADSR` stops the voice. -/
def consume (m : MixedVoice) (modulation : Option Int) (ends : Bool) : MixedVoice :=
  let voice := if ends then m.voice.stop else m.voice
  let SP := m.SP + updatePitch m.Pitch modulation
  { m with voice := voice.consumeSamples (.ofNat (SP / 0x1000)), SP := SP % 0x1000 }

end MixedVoice

/-- The four samples that `GetNextDataBuffered` takes. -/
def fetched (ram : Ram) (vc : Voice) : List Int :=
  let entered := if vc.SBuffer = none then enterBlock ram vc else (ram, vc)
  let buffer := (entered.1.cache (entered.2.SBuffer.getD 0)).Sampledata
  (List.range 4).map fun i => buffer.getD (sampleIdx entered.2.NextA + i) 0

/-- The samples decoded since the voice was started, how many were passed, and the position in steps of 1/4096 sample. -/
structure Heard where
  decoded : List Int
  passed : Nat
  position : Nat

/-- What `DecodeSamples` adds. -/
def Heard.decode (heard : Heard) (ram : Ram) (vc : Voice) : Heard :=
  if vc.buffered then heard
  else { heard with
    decoded := if vc.playing then heard.decoded ++ fetched ram (updateBlockHeader ram vc) else heard.decoded
    passed := heard.passed + 4 }

inductive VoiceEvent
  | mix (ram : Ram) (modulation : Option Int) (ends : Bool)
  | keyOn
  | pitch (value : UInt16)
  | voiceAddr (address : VoiceAddr) (value : UInt16)
  | writeRegPS1 (loop : Bool) (value : UInt16)

def VoiceEvent.apply (event : VoiceEvent) (s : MixedVoice × Heard) : MixedVoice × Heard :=
  let (m, heard) := s
  match event with
  | .mix ram modulation ends =>
      let heard := heard.decode ram m.voice
      (MixedVoice.consume { m with voice := (decodeSamples ram m.voice).2 } modulation ends,
        { heard with position := heard.position + updatePitch m.Pitch modulation })
  | .keyOn => (m.start, ⟨[], 0, 0⟩)
  | .pitch value => ({ m with Pitch := value }, heard)
  | .voiceAddr address value => ({ m with voice := m.voice.regWrite_VoiceAddr address value }, heard)
  | .writeRegPS1 loop value => ({ m with voice := m.voice.writeRegPS1 loop value }, heard)

/-! ## Four samples at a time -/

variable {vc : Voice} {ram : Ram} {history : List Int}

theorem keeps_put {fifo : Nat → Int} {pos : UInt32} (keeps : Keeps 32 fifo history) (place : pos.toNat = history.length % 2 ^ 32)
    (buffer : List Int) (idx : Nat) :
    Keeps 32 (put fifo pos buffer idx) (history ++ (List.range 4).map fun i => buffer.getD (idx + i) 0) := by
  have cell (i : Nat) (few : i < 4) : ((pos + .ofNat i) % 32).toNat = (history.length + i) % 32 := by
    rw [UInt32.toNat_mod, UInt32.toNat_add, place, UInt32.toNat_ofNat']
    simp only [UInt32.reduceToNat]
    omega
  have first := keeps.update (buffer.getD (idx + 0) 0)
  have second := first.update (buffer.getD (idx + 1) 0)
  have third := second.update (buffer.getD (idx + 2) 0)
  have fourth := third.update (buffer.getD (idx + 3) 0)
  simp only [List.length_append, List.length_singleton, List.append_assoc] at fourth
  have stored : put fifo pos buffer idx = Function.update (Function.update (Function.update (Function.update fifo
      ((history.length + 0) % 32) (buffer.getD (idx + 0) 0)) ((history.length + 1) % 32) (buffer.getD (idx + 1) 0))
      ((history.length + 2) % 32) (buffer.getD (idx + 2) 0)) ((history.length + 3) % 32) (buffer.getD (idx + 3) 0) := by
    simp only [put, List.range, List.range.loop, List.foldl_cons, List.foldl_nil, cell 0, cell 1, cell 2, cell 3, Nat.reduceLT]
  rw [stored]
  exact fourth

theorem buffered_iff {ahead : Nat} (near : (vc.DecPosWrite - vc.DecPosRead).toNat = ahead) (few : ahead ≤ 16) :
    vc.buffered = decide (12 < ahead) := by
  have table : ∀ n ≤ 16, decide (12 < (UInt32.ofNat n).toInt32) = decide (12 < n) := by decide
  have diff : vc.DecPosWrite - vc.DecPosRead = UInt32.ofNat ahead := by
    rw [← near, UInt32.ofNat_toNat]
  rw [Voice.buffered, diff, table ahead few]

/-- `NextA` is past the header of a block, and will be after a loop. -/
structure OffHeader (vc : Voice) : Prop where
  nextA : vc.NextA % 8 ≠ 0
  loop : vc.LoopStartA % 8 ≠ 7

theorem offHeader_next {addr : Nat} (last : addr % 8 ≠ 7) : (addr + 1) % ramSize % 8 ≠ 0 := by
  rw [ramSize_blocks]
  omega

theorem leaveBlock_offHeader (off : vc.LoopStartA % 8 ≠ 7) (inside : vc.NextA % 8 ≠ 7) : OffHeader vc.leaveBlock := by
  have looped := offHeader_next off
  have onwards := offHeader_next inside
  unfold Voice.leaveBlock
  dsimp only
  split
  · split
    · exact ⟨looped, off⟩
    · exact ⟨looped, off⟩
  · exact ⟨onwards, off⟩

theorem advance_offHeader (off : OffHeader vc) : OffHeader vc.advance := by
  unfold Voice.advance
  dsimp only
  split
  · rename_i ended
    exact leaveBlock_offHeader off.loop (by rw [ended]; decide)
  · rename_i inside
    exact ⟨inside, off.loop⟩

theorem advance_counts (vc : Voice) : vc.advance.DecPosWrite = vc.DecPosWrite + 4 ∧ vc.advance.DecPosRead = vc.DecPosRead ∧
    (vc.advance.playing → vc.playing) := by
  unfold Voice.advance Voice.leaveBlock
  dsimp only
  split
  · split
    · split
      · exact ⟨rfl, rfl, id⟩
      · exact ⟨rfl, rfl, fun plays => by cases plays⟩
    · exact ⟨rfl, rfl, id⟩
  · exact ⟨rfl, rfl, id⟩

theorem enterBlock_same (ram : Ram) (vc : Voice) : ∃ line prev1 prev2,
    (enterBlock ram vc).2 = { vc with SBuffer := some line, Prev1 := prev1, Prev2 := prev2 } := by
  unfold enterBlock
  dsimp only
  split
  · exact ⟨_, _, _, rfl⟩
  · exact ⟨_, _, _, rfl⟩

theorem getNextDataBuffered_same (ram : Ram) (vc : Voice) : ∃ sbuffer prev1 prev2 buffer,
    (getNextDataBuffered ram vc).2 = { vc with
      SBuffer := sbuffer
      Prev1 := prev1
      Prev2 := prev2
      DecodeFifo := put vc.DecodeFifo vc.DecPosWrite buffer (sampleIdx vc.NextA) } ∧
    fetched ram vc = (List.range 4).map fun i => buffer.getD (sampleIdx vc.NextA + i) 0 := by
  obtain ⟨line, prev1, prev2, entered⟩ := enterBlock_same ram vc
  unfold getNextDataBuffered fetched
  dsimp only
  split
  · rw [entered]
    exact ⟨_, _, _, _, rfl, rfl⟩
  · exact ⟨_, _, _, _, rfl, rfl⟩

/-- What `DecodeSamples` does with the fifo. -/
structure Decodes (ram : Ram) (before after : Voice) : Prop where
  off : OffHeader after
  read : after.DecPosRead = before.DecPosRead
  write : after.DecPosWrite = if before.buffered then before.DecPosWrite else before.DecPosWrite + 4
  playing : after.playing → before.playing
  fifo : before.playing → ∀ history, Keeps 32 before.DecodeFifo history → before.DecPosWrite.toNat = history.length % 2 ^ 32 →
    Keeps 32 after.DecodeFifo (if before.buffered then history else history ++ fetched ram (updateBlockHeader ram before))

theorem updateBlockHeader_offHeader (off : OffHeader vc) (ram : Ram) : OffHeader (updateBlockHeader ram vc) := by
  unfold updateBlockHeader
  dsimp only
  split
  · refine ⟨off.nextA, ?_⟩
    simp only [pcm_WordsPerBlock, Nat.mul_mod_left]
    decide
  · exact ⟨off.nextA, off.loop⟩

theorem decodeSamples_decodes (off : OffHeader vc) (ram : Ram) : Decodes ram vc (decodeSamples ram vc).2 := by
  have off' := updateBlockHeader_offHeader off ram
  obtain ⟨flags, loop, header⟩ := updateBlockHeader_same ram vc
  have same : (updateBlockHeader ram vc).buffered = vc.buffered := by rw [header]; rfl
  unfold decodeSamples
  simp only [same]
  cases full : vc.buffered with
  | true =>
      refine ⟨off', ?_, ?_, ?_, ?_⟩ <;> simp only [full, if_true] <;> rw [header]
      · exact id
      · exact fun _ _ keeps _ => keeps
  | false =>
      simp only [Bool.false_eq_true, if_false]
      rw [header] at off' ⊢
      by_cases plays : vc.playing = true
      · obtain ⟨sbuffer, prev1, prev2, buffer, taken, words⟩ := getNextDataBuffered_same ram { vc with LoopFlags := flags, LoopStartA := loop }
        rw [if_pos plays, taken]
        have counts := advance_counts { vc with
          LoopFlags := flags
          LoopStartA := loop
          SBuffer := sbuffer
          Prev1 := prev1
          Prev2 := prev2
          DecodeFifo := put vc.DecodeFifo vc.DecPosWrite buffer (sampleIdx vc.NextA) }
        refine ⟨advance_offHeader ⟨off'.nextA, off'.loop⟩, counts.2.1, ?_, fun _ => plays, ?_⟩
        · rw [full]
          exact counts.1
        · intro _ history keeps place
          rw [full, advance_fifo, header, words]
          exact keeps_put keeps place buffer _
      · rw [if_neg plays]
        have counts := advance_counts { vc with LoopFlags := flags, LoopStartA := loop }
        refine ⟨advance_offHeader ⟨off'.nextA, off'.loop⟩, counts.2.1, ?_, counts.2.2, fun playing => absurd playing plays⟩
        rw [full]
        exact counts.1


/-! ## Where the other events leave the addresses -/

theorem start_offHeader (off : OffHeader vc) : OffHeader vc.start := by
  have next : vc.start.NextA = vc.start.StartA / 2 * 2 + 1 := rfl
  refine ⟨?_, off.loop⟩
  rw [next]
  omega

theorem regWrite_VoiceAddr_offHeader (off : OffHeader vc) (address : VoiceAddr) (value : UInt16) :
    OffHeader (vc.regWrite_VoiceAddr address value) := by
  have next (high low : Nat) : (blockAddr high low + 1) % 8 ≠ 0 := by
    have := blockAddr_mod high low
    omega
  have loop (high low : Nat) : blockAddr high low % 8 ≠ 7 := by simp [blockAddr_mod]
  cases address with
  | SSAH => exact ⟨off.nextA, off.loop⟩
  | SSAL => exact ⟨off.nextA, off.loop⟩
  | LSAH => exact ⟨off.nextA, loop _ _⟩
  | LSAL => exact ⟨off.nextA, loop _ _⟩
  | NAXH => exact ⟨next _ _, off.loop⟩
  | NAXL => exact ⟨next _ _, off.loop⟩

theorem writeRegPS1_offHeader (off : OffHeader vc) (loop : Bool) (value : UInt16) : OffHeader (vc.writeRegPS1 loop value) := by
  cases loop with
  | true =>
      refine ⟨off.nextA, ?_⟩
      simp only [Voice.writeRegPS1, if_true, map_spu1to2]
      split
      · omega
      · omega
  | false => exact ⟨off.nextA, off.loop⟩

/-! ## The counts and the samples -/

/-- The counts are those of the samples, modulo 2^32, and at most sixteen samples wait. -/
structure Followed (vc : Voice) (SP : Nat) (heard : Heard) : Prop where
  off : OffHeader vc
  SP : SP = heard.position % 0x1000
  read : vc.DecPosRead = .ofNat (heard.position / 0x1000)
  write : vc.DecPosWrite = .ofNat heard.passed
  low : heard.position / 0x1000 ≤ heard.passed
  high : heard.passed ≤ heard.position / 0x1000 + 16
  keeps : vc.playing → heard.decoded.length = heard.passed ∧ Keeps 32 vc.DecodeFifo heard.decoded

section
variable {SP : Nat} {heard : Heard}

theorem Followed.ahead (followed : Followed vc SP heard) :
    (vc.DecPosWrite - vc.DecPosRead).toNat = heard.passed - heard.position / 0x1000 := by
  have low := followed.low
  have high := followed.high
  rw [followed.write, followed.read, ← UInt32.ofNat_sub low, UInt32.toNat_ofNat', Nat.mod_eq_of_lt (by omega)]

theorem Followed.addresses {vc' : Voice} (followed : Followed vc SP heard) (off : OffHeader vc') (read : vc'.DecPosRead = vc.DecPosRead)
    (write : vc'.DecPosWrite = vc.DecPosWrite) (playing : vc'.playing = vc.playing) (fifo : vc'.DecodeFifo = vc.DecodeFifo) :
    Followed vc' SP heard where
  off
  SP := followed.SP
  read := read ▸ followed.read
  write := write ▸ followed.write
  low := followed.low
  high := followed.high
  keeps := by
    rw [playing, fifo]
    exact followed.keeps

theorem Followed.decode (followed : Followed vc SP heard) (ram : Ram) :
    Followed (decodeSamples ram vc).2 SP (heard.decode ram vc) ∧
      (heard.decode ram vc).position / 0x1000 + 4 ≤ (heard.decode ram vc).passed := by
  have decodes := decodeSamples_decodes followed.off ram
  have threshold := buffered_iff followed.ahead (by have := followed.high; omega)
  have kept (plays : vc.playing = true) := decodes.fifo plays heard.decoded (followed.keeps plays).2 (by
    rw [followed.write, (followed.keeps plays).1, UInt32.toNat_ofNat'])
  have low := followed.low
  have high := followed.high
  have write := decodes.write
  have words (vc : Voice) : (fetched ram vc).length = 4 := by simp [fetched]
  unfold Heard.decode
  cases full : vc.buffered with
  | true =>
      simp only [full, if_true] at write kept threshold ⊢
      have more := of_decide_eq_true threshold.symm
      refine ⟨⟨decodes.off, followed.SP, decodes.read.trans followed.read, write.trans followed.write, low, high, ?_⟩, by omega⟩
      exact fun plays => ⟨(followed.keeps (decodes.playing plays)).1, kept (decodes.playing plays)⟩
  | false =>
      simp only [full, Bool.false_eq_true, if_false] at write kept threshold ⊢
      have fewer := of_decide_eq_false threshold.symm
      refine ⟨⟨decodes.off, followed.SP, decodes.read.trans followed.read, ?_, ?_, ?_, ?_⟩, by omega⟩
      · rw [write, followed.write, UInt32.ofNat_add]
        rfl
      · exact Nat.le_add_right_of_le low
      · dsimp only
        omega
      · intro plays
        have played := decodes.playing plays
        simp only [played, if_true]
        refine ⟨?_, kept played⟩
        rw [List.length_append, (followed.keeps played).1, words]

end

theorem updatePitch_le (Pitch : UInt16) (modulation : Option Int) : updatePitch Pitch modulation ≤ 0x3fff := by
  unfold updatePitch
  rw [Int.toNat_le]
  exact min_le_right _ _

theorem Followed.consume {m : MixedVoice} {heard : Heard} (followed : Followed m.voice m.SP heard)
    (enough : heard.position / 0x1000 + 4 ≤ heard.passed) (modulation : Option Int) (ends : Bool) :
    Followed (m.consume modulation ends).voice (m.consume modulation ends).SP
      { heard with position := heard.position + updatePitch m.Pitch modulation } := by
  have step := updatePitch_le m.Pitch modulation
  have SP := followed.SP
  have high := followed.high
  have read : m.voice.DecPosRead + .ofNat ((m.SP + updatePitch m.Pitch modulation) / 0x1000) =
      .ofNat ((heard.position + updatePitch m.Pitch modulation) / 0x1000) := by
    rw [followed.read, ← UInt32.ofNat_add]
    congr 1
    omega
  unfold MixedVoice.consume Voice.consumeSamples Voice.stop
  cases ends with
  | true =>
      refine ⟨⟨followed.off.nextA, followed.off.loop⟩, ?_, read, followed.write, ?_, ?_, fun plays => by cases plays⟩
      · dsimp only
        omega
      · dsimp only
        omega
      · dsimp only
        omega
  | false =>
      refine ⟨⟨followed.off.nextA, followed.off.loop⟩, ?_, read, followed.write, ?_, ?_, followed.keeps⟩
      · dsimp only
        omega
      · dsimp only
        omega
      · dsimp only
        omega

theorem followed_none (off : OffHeader vc) (read : vc.DecPosRead = 0) (write : vc.DecPosWrite = 0) : Followed vc 0 ⟨[], 0, 0⟩ where
  off
  SP := rfl
  read
  write
  low := Nat.le_refl 0
  high := Nat.zero_le 16
  keeps := fun _ => ⟨rfl, Keeps.nil⟩

/-! ## Every sequence of events -/

def VoiceStep (before after : MixedVoice × Heard) : Prop := ∃ event : VoiceEvent, after = event.apply before

theorem Followed.apply {s : MixedVoice × Heard} (followed : Followed s.1.voice s.1.SP s.2) (event : VoiceEvent) :
    Followed (event.apply s).1.voice (event.apply s).1.SP (event.apply s).2 := by
  cases event with
  | mix ram modulation ends =>
      obtain ⟨decoded, enough⟩ := followed.decode ram
      exact Followed.consume (m := { s.1 with voice := (decodeSamples ram s.1.voice).2 }) decoded enough modulation ends
  | keyOn =>
      exact followed_none (start_offHeader followed.off) rfl rfl
  | pitch value => exact followed
  | voiceAddr address value =>
      have same : ∀ address : VoiceAddr, (s.1.voice.regWrite_VoiceAddr address value).DecPosRead = s.1.voice.DecPosRead ∧
          (s.1.voice.regWrite_VoiceAddr address value).DecPosWrite = s.1.voice.DecPosWrite ∧
          (s.1.voice.regWrite_VoiceAddr address value).playing = s.1.voice.playing ∧
          (s.1.voice.regWrite_VoiceAddr address value).DecodeFifo = s.1.voice.DecodeFifo := by
        intro address
        cases address <;> exact ⟨rfl, rfl, rfl, rfl⟩
      obtain ⟨read, write, playing, fifo⟩ := same address
      exact followed.addresses (regWrite_VoiceAddr_offHeader followed.off address value) read write playing fifo
  | writeRegPS1 loop value =>
      have off := writeRegPS1_offHeader followed.off loop value
      cases loop with
      | true => exact followed.addresses off rfl rfl rfl rfl
      | false => exact followed.addresses off rfl rfl rfl rfl

theorem run_followed {s : MixedVoice × Heard} (run : Run VoiceStep (.init, ⟨[], 0, 0⟩) s) : Followed s.1.voice s.1.SP s.2 := by
  refine Run.invariant (I := fun s => Followed s.1.voice s.1.SP s.2) run ?_ ?_
  · exact followed_none ⟨by decide, by decide⟩ rfl rfl
  · rintro before _ followed ⟨event, rfl⟩
    exact followed.apply event

/-! ## The slots -/

theorem Followed.slots {SP : Nat} {heard : Heard} (followed : Followed vc SP heard) (plays : vc.playing = true)
    (enough : heard.position / 0x1000 + 4 ≤ heard.passed) : vc.slots = (heard.decoded.drop (heard.position / 0x1000)).take 4 := by
  obtain ⟨length, keeps⟩ := followed.keeps plays
  have high := followed.high
  refine List.ext_getElem ?_ ?_
  · rw [Voice.slots, List.length_map, List.length_range, List.length_take, List.length_drop]
    omega
  · intro i left right
    rw [Voice.slots, List.length_map, List.length_range] at left
    have slot : ((vc.DecPosRead + .ofNat i) % 32).toNat = (heard.position / 0x1000 + i) % 32 := by
      rw [followed.read, ← UInt32.ofNat_add, UInt32.toNat_mod, UInt32.toNat_ofNat']
      simp only [UInt32.reduceToNat]
      omega
    simp only [Voice.slots, List.getElem_map, List.getElem_range, slot, List.getElem_take, List.getElem_drop]
    exact keeps _ (by omega) (by omega)

def MixedVoice.At (m : MixedVoice) (position : Nat) : Prop :=
  m.SP = position % 0x1000 ∧ m.voice.DecPosRead = .ofNat (position / 0x1000)

/-- What a mixing step does with the fifo of a voice. The samples that are interpolated are those of the positions
from `position / 4096` on, and the next mixing step goes on at most four samples further. -/
structure MixingStep (m : MixedVoice) (heard : Heard) (ram : Ram) : Prop where
  ahead : 4 ≤ ((decodeSamples ram m.voice).2.DecPosWrite - (decodeSamples ram m.voice).2.DecPosRead).toNat ∧
    ((decodeSamples ram m.voice).2.DecPosWrite - (decodeSamples ram m.voice).2.DecPosRead).toNat ≤ 16
  slots : (decodeSamples ram m.voice).2.playing →
    (decodeSamples ram m.voice).2.slots = ((heard.decode ram m.voice).decoded.drop (heard.position / 0x1000)).take 4
  position : m.At heard.position
  consecutive : ∀ modulation ends,
    (MixedVoice.consume { m with voice := (decodeSamples ram m.voice).2 } modulation ends).At
        (heard.position + updatePitch m.Pitch modulation) ∧
      (heard.position + updatePitch m.Pitch modulation) / 0x1000 ≤ heard.position / 0x1000 + 4
  word : m.voice.takes → (updateBlockHeader ram m.voice).NextA % 8 ≠ 0

theorem decode_position (heard : Heard) (ram : Ram) (vc : Voice) : (heard.decode ram vc).position = heard.position := by
  unfold Heard.decode
  split
  · rfl
  · rfl

end Pcsx2.Spu2
