import Pcsx2.Foundation.Run
import Pcsx2.Spu2.Registers
import Pcsx2.Spu2.VoiceBounds

/-!
# Bounds of the mixer

What registers a tick must find so that nothing overflows in it. Any RAM will do.
-/

namespace Pcsx2.Spu2
open Foundation

structure StereoOut32.Bounded (bound : Int) (sample : StereoOut32) : Prop where
  left : Within bound sample.Left
  right : Within bound sample.Right

structure V_VolumeLR.Bounded (volume : V_VolumeLR) : Prop where
  left : Within 0x8000 volume.Left
  right : Within 0x8000 volume.Right

namespace StereoOut32.Bounded

variable {a b : Int} {first second : StereoOut32}

theorem mono (bounded : first.Bounded a) (le : a ≤ b) : first.Bounded b := ⟨bounded.left.mono le, bounded.right.mono le⟩

theorem empty (positive : 0 ≤ a) : StereoOut32.Empty.Bounded a := ⟨.zero positive, .zero positive⟩

theorem clamped (sample : StereoOut32) : sample.clamp_mix.Bounded 0x8000 := ⟨clamp_mix_within _, clamp_mix_within _⟩

theorem applied {volume : V_VolumeLR} (bounded : first.Bounded 0xffff) (loud : volume.Bounded) :
    Fine (first.ApplyVolume volume) (StereoOut32.Bounded 0xffff) :=
  (StereoOut32.ApplyVolume_fine bounded.left bounded.right loud.left loud.right).weaken fun _ within => ⟨within.1, within.2⟩

theorem added (bounded : first.Bounded a) (bounded' : second.Bounded b) (small : a + b < 2 ^ 31) :
    Fine (first.add second) (StereoOut32.Bounded (a + b)) := by
  refine (s32_fine (bounded.left.add bounded'.left) small).bind fun Left left => ?_
  exact (s32_fine (bounded.right.add bounded'.right) small).bind fun Right right => .pure ⟨left.2, right.2⟩

end StereoOut32.Bounded

/-! ## The voices of a core -/

theorem gate_within {a x : Int} (within : Within a x) (isOpen : Bool) : Within a (gate isOpen x) := by
  cases isOpen with
  | false => exact .zero within.nonneg
  | true => exact within

structure VoiceMixSet.Bounded (bound : Int) (dest : VoiceMixSet) : Prop where
  Dry : dest.Dry.Bounded bound
  Wet : dest.Wet.Bounded bound

theorem add_fine {a b : Int} {dest : VoiceMixSet} {VVal : StereoOut32} (bounded : dest.Bounded a) (voice : VVal.Bounded b)
    (gates : V_VoiceGates) (small : a + b < 2 ^ 31) : Fine (dest.add VVal gates) (VoiceMixSet.Bounded (a + b)) := by
  refine (s32_fine (bounded.Dry.left.add (gate_within voice.left _)) small).bind fun DryL dryL => ?_
  refine (s32_fine (bounded.Dry.right.add (gate_within voice.right _)) small).bind fun DryR dryR => ?_
  refine (s32_fine (bounded.Wet.left.add (gate_within voice.left _)) small).bind fun WetL wetL => ?_
  refine (s32_fine (bounded.Wet.right.add (gate_within voice.right _)) small).bind fun WetR wetR => .pure ?_
  exact ⟨⟨dryL.2, dryR.2⟩, ⟨wetL.2, wetR.2⟩⟩

def V_Core.Modulates (c : V_Core) : Prop := ∀ v, v + 1 < NumVoices → (c.Voices (v + 1)).Modulates (c.Voices v).peak

theorem V_Voice.Modulates.mono {vc : V_Voice} {OutX OutX' : Int} (modulates : vc.Modulates OutX) (le : OutX' ≤ OutX) :
    vc.Modulates OutX' := by
  intro on
  have below := modulates on
  have : (vc.Pitch.toNat : Int) * (0x8000 + OutX') ≤ vc.Pitch.toNat * (0x8000 + OutX) :=
    mul_le_mul_of_nonneg_left (by omega) (Int.natCast_nonneg _)
  omega

/-- The voices after the first `n` were mixed. -/
structure MixedVoices (c : V_Core) (n : Nat) (voices : Nat → V_Voice) : Prop where
  bounded : ∀ v, (voices v).Bounded
  peak : ∀ v < n, (voices v).OutX ≤ (c.Voices v).peak
  rest : ∀ v, n ≤ v → voices v = c.Voices v

variable {c : V_Core} {ram : Ram} {core : Fin 2} {OutPos : Nat} {voices : Nat → V_Voice}

theorem MixedVoices.next {n : Nat} {vc : V_Voice} (mixed : MixedVoices c n voices) (bounded : vc.Bounded)
    (peak : vc.OutX ≤ (c.Voices n).peak) : MixedVoices c (n + 1) (Function.update voices n vc) := by
  constructor
  · intro v
    rw [Function.update_apply]
    split
    · exact bounded
    · exact mixed.bounded v
  · intro v before
    rw [Function.update_apply]
    split
    · next same => exact same ▸ peak
    · exact mixed.peak v (by omega)
  · intro v later
    rw [Function.update_of_ne (by omega)]
    exact mixed.rest v (by omega)

theorem MixedVoices.fits {n : Nat} (mixed : MixedVoices c n voices) (modulates : c.Modulates)
    (few : n < NumVoices) (later : n ≠ 0) : (voices n).Modulates (voices (n - 1)).OutX := by
  obtain ⟨before, rfl⟩ := Nat.exists_eq_succ_of_ne_zero later
  rw [mixed.rest _ (le_refl _)]
  exact (modulates before few).mono (mixed.peak before (by omega))

theorem mixVoices_fine (modulates : c.Modulates) (k n : Nat) {dest : VoiceMixSet}
    (mixed : MixedVoices c n voices) (few : n + k ≤ NumVoices) (ranged : ram.Ranged) (small : dest.Bounded (n * 0xffff)) :
    Fine (V_Core.mixVoices { c with Voices := voices } core OutPos (List.range' n k) ram dest) fun done =>
      (∃ Voices, done.2.1 = { c with Voices } ∧ ∀ v, (Voices v).Bounded) ∧ done.2.2.Ranged := by
  induction k generalizing n voices ram dest with
  | zero => exact .pure ⟨⟨voices, rfl, mixed.bounded⟩, ranged⟩
  | succ k ih =>
      have few' : n < 24 := by
        have : n + (k + 1) ≤ 24 := few
        omega
      rw [List.range'_succ]
      refine (MixVoice_fine (mixed.bounded n) ranged core OutPos c.NoiseOut (mixed.bounded (n - 1)).OutX
        (mixed.fits modulates few')).bind fun voice done => ?_
      have louder : (n : Int) * 0xffff + 0xffff = (n + 1 : Nat) * 0xffff := by omega
      refine (add_fine small ⟨done.left, done.right⟩ _ (by omega)).bind fun dest sum => ?_
      rw [louder] at sum
      have peak := done.peak
      rw [mixed.rest n (le_refl n)] at peak
      exact ih (n + 1) (mixed.next done.bounded peak) (by omega) done.ranged sum

structure V_Core.Bounded (c : V_Core) : Prop where
  voices : ∀ v, (c.Voices v).Bounded
  MasterVol : c.MasterVol.Value.Bounded
  ExtVol : c.ExtVol.Bounded
  InpVol : c.InpVol.Bounded
  FxVol : c.FxVol.Bounded

theorem MixCoreVoices_fine (bounded : c.Bounded) (modulates : c.Modulates) (ranged : ram.Ranged) (core : Fin 2) (OutPos : Nat) :
    Fine (c.MixCoreVoices core OutPos ram) fun done =>
      (∃ Voices, done.2.1 = { c with Voices } ∧ ∀ v, (Voices v).Bounded) ∧ done.2.2.Ranged := by
  have start : MixedVoices c 0 c.Voices := ⟨bounded.voices, fun v before => absurd before (Nat.not_lt_zero v), fun _ _ => rfl⟩
  have silent : VoiceMixSet.Empty.Bounded ((0 : Nat) * 0xffff) := ⟨.empty (by decide), .empty (by decide)⟩
  unfold V_Core.MixCoreVoices
  rw [List.range_eq_range']
  exact mixVoices_fine modulates NumVoices 0 start (by decide) ranged silent

/-! ## The cores -/

theorem mix_fine {Input Snd Ext : StereoOut32} (input : Input.Bounded 0xffff) (voices : Snd.Bounded 0x8000) (ext : Ext.Bounded 0xffff)
    (gates : V_CoreGates) : Fine (gates.mix Input Snd Ext) (StereoOut32.Bounded (0xffff + 0x8000 + 0xffff)) := by
  refine (s32_fine ((gate_within input.left _).add (gate_within voices.left _)) (by decide)).bind fun Left left => ?_
  refine (s32_fine ((gate_within input.right _).add (gate_within voices.right _)) (by decide)).bind fun Right right => ?_
  refine (s32_fine (left.2.add (gate_within ext.left _)) (by decide)).bind fun Left left => ?_
  exact (s32_fine (right.2.add (gate_within ext.right _)) (by decide)).bind fun Right right => .pure ⟨left.2, right.2⟩

theorem UpdateNoise_same (c : V_Core) : ∃ NoiseCnt NoiseOut, c.UpdateNoise = { c with NoiseCnt, NoiseOut } := by
  simp only [V_Core.UpdateNoise]
  split_ifs
  all_goals exact ⟨_, _, rfl⟩

structure MixedCore (c : V_Core) (done : StereoOut32 × V_Core × Ram) : Prop where
  bounded : done.2.1.Bounded
  MasterVol : done.2.1.MasterVol = ⟨c.MasterVol.Left.Update, c.MasterVol.Right.Update⟩
  ranged : done.2.2.Ranged

theorem MixCore_fine {Cycles : UInt32} {Input Ext : StereoOut32} (bounded : c.Bounded) (safe : c.effects.Safe Cycles)
    (ranged : ram.Ranged) (input : Input.Bounded 0xffff) (ext : Ext.Bounded 0xffff) (core : Fin 2) (OutPos : Nat)
    (inVoices : VoiceMixSet) : Fine (c.MixCore core Cycles OutPos ram inVoices Input Ext) (MixedCore c) := by
  refine (UpdateS32_both_fine bounded.MasterVol.left bounded.MasterVol.right).bind fun MasterVol moved => ?_
  obtain ⟨NoiseCnt, NoiseOut, noise⟩ := UpdateNoise_same { c with MasterVol }
  rw [noise]
  refine (mix_fine input (.clamped _) ext c.DryGate).bind fun TD dry => ?_
  refine (mix_fine input (.clamped _) ext c.WetGate).bind fun TW wet => ?_
  refine (Effects.DoReverb_fine safe _ TW).bind fun done reverb => ?_
  have wet : done.1.Bounded 0xffff := ⟨reverb.1.mono (by decide), reverb.2.1.mono (by decide)⟩
  refine (wet.applied bounded.FxVol).bind fun RV loud => ?_
  refine (dry.added loud (by decide)).bind fun out _ => .pure ?_
  refine ⟨⟨bounded.voices, ⟨moved.2.1, moved.2.2⟩, bounded.ExtVol, bounded.InpVol, bounded.FxVol⟩, moved.1, ?_⟩
  exact ranged.of_cache reverb.2.2.2

end Pcsx2.Spu2

/-!
# Mixing without overflow

From `Init` on, whatever the guest writes: as long as each tick finds registers that are tame, no tick overflows, and
the samples are of 16 bits.
-/

namespace Pcsx2.Spu2
open Foundation

/-! ## A tick -/

/-- A sample that is passed to `spu2Output`. -/
structure StereoOut32.Pcm (sample : StereoOut32) : Prop where
  left : -0x8000 ≤ sample.Left ∧ sample.Left ≤ 0x7fff
  right : -0x8000 ≤ sample.Right ∧ sample.Right ≤ 0x7fff

theorem pcm_applied {x volume : Int} (sample : -0x8000 ≤ x ∧ x ≤ 0x7fff) (within : Within 0x8000 volume) (quiet : volume ≠ -0x8000) :
    Fine (ApplyVolume x volume) fun out => -0x8000 ≤ out ∧ out ≤ 0x7fff := by
  obtain ⟨low, high⟩ := sample
  obtain ⟨low', high'⟩ := within
  have within : Within 0x8000 x := ⟨low, by omega⟩
  refine (s32_fine (Within.mul ⟨low', high'⟩ within) (by decide)).bind fun product same => .pure ?_
  rw [same.1]
  constructor
  · rw [Int.le_ediv_iff_mul_le (by decide)]
    nlinarith
  · refine Int.le_of_lt_add_one (Int.ediv_lt_of_lt_mul (by decide) ?_)
    have above : -0x7fff ≤ volume := by omega
    nlinarith

namespace Mixer

structure Bounded (s : Mixer) : Prop where
  cores : ∀ core, (s.Cores core).Bounded
  ranged : s.ram.Ranged

/-- What a tick must find. Only the master volume of core 1 can make a sample too large, and not while CDDA is played. -/
structure Tame (s : Mixer) : Prop where
  modulates : ∀ core, (s.Cores core).Modulates
  effects : ∀ core, (s.Cores core).effects.Safe s.Cycles
  left : s.PlayMode.testBit 3 = false → (s.Cores 1).MasterVol.Left.Update.Value ≠ -0x8000
  right : s.PlayMode.testBit 3 = false → (s.Cores 1).MasterVol.Right.Update.Value ≠ -0x8000

variable {s : Mixer}

theorem input_bounded (ram : Ram) (core : Fin 2) (PlayMode OutPos : Nat) : (ram.input core PlayMode OutPos).Bounded 0xffff := by
  unfold Ram.input
  split
  · exact ⟨(int16_within _).mono (by decide), (int16_within _).mono (by decide)⟩
  · exact .empty (by decide)

theorem inputHiFi_pcm (ram : Ram) (OutPos : Nat) : (ram.inputHiFi OutPos).Pcm := by
  have upper (high : Int16) (low : UInt16) :
      -0x8000 ≤ (high.toInt * 2 ^ 16 + low.toNat) / 2 ^ 16 ∧ (high.toInt * 2 ^ 16 + low.toNat) / 2 ^ 16 ≤ 0x7fff := by
    have below := high.toInt_lt
    have above := high.le_toInt
    have := low.toNat_lt
    omega
  exact ⟨upper _ _, upper _ _⟩

theorem refill_ranged {ram : Ram} (ranged : ram.Ranged) (words : List (Nat × UInt16)) : (ram.refill words).Ranged := ranged

theorem if_ranged {ram ram' : Ram} (b : Bool) (ranged : ram.Ranged) (ranged' : ram'.Ranged) : (if b then ram else ram').Ranged := by
  cases b with
  | false => exact ranged'
  | true => exact ranged

theorem spu2Mix_fine (bounded : s.Bounded) (tame : s.Tame) (words : Fin 2 → List (Nat × UInt16)) :
    Fine (s.spu2Mix words) fun done => done.1.Pcm ∧ done.2.Bounded := by
  have first := bounded.cores 0
  have second := bounded.cores 1
  refine ((input_bounded _ _ _ _).applied first.InpVol).bind fun InputData0 input0 => ?_
  have input1 : Fine (if s.PlayMode.testBit 3 then some StereoOut32.Empty else
      ((s.ram.refill (words 0)).input 1 s.PlayMode s.OutPos).ApplyVolume (s.Cores 1).InpVol) (StereoOut32.Bounded 0xffff) := by
    split
    · exact .pure (.empty (by decide))
    · exact (input_bounded _ _ _ _).applied second.InpVol
  refine input1.bind fun InputData1 input1 => ?_
  have ranged := if_ranged (s.PlayMode.testBit 3) (refill_ranged bounded.ranged (words 0))
    (refill_ranged (refill_ranged bounded.ranged (words 0)) (words 1))
  refine (MixCoreVoices_fine first (tame.modulates 0) ranged 0 s.OutPos).bind fun voices0 done0 => ?_
  obtain ⟨⟨Voices0, same0, bounded0⟩, ranged⟩ := done0
  refine (MixCoreVoices_fine second (tame.modulates 1) ranged 1 s.OutPos).bind fun voices1 done1 => ?_
  obtain ⟨⟨Voices1, same1, bounded1⟩, ranged⟩ := done1
  rw [same0, same1]
  have first' : ({ s.Cores 0 with Voices := Voices0 } : V_Core).Bounded :=
    ⟨bounded0, first.MasterVol, first.ExtVol, first.InpVol, first.FxVol⟩
  have second' : ({ s.Cores 1 with Voices := Voices1 } : V_Core).Bounded :=
    ⟨bounded1, second.MasterVol, second.ExtVol, second.InpVol, second.FxVol⟩
  refine (MixCore_fine first' (tame.effects 0) ranged input0 (.empty (by decide)) 0 s.OutPos voices0.1).bind fun core0 mixed0 => ?_
  have ext : Fine (if s.PlayMode.testBit 2 || core0.2.1.Mute then some StereoOut32.Empty else
      core0.1.clamp_mix.ApplyVolume core0.2.1.MasterVol.Value) (StereoOut32.Bounded 0xffff) := by
    split
    · exact .pure (.empty (by decide))
    · exact ((StereoOut32.Bounded.clamped _).mono (by decide)).applied mixed0.bounded.MasterVol
  refine ext.bind fun Ext ext => ?_
  refine (ext.applied second.ExtVol).bind fun Ext' ext' => ?_
  have ranged : (core0.2.2.putSample 0x800 0xA00 s.OutPos Ext).Ranged := mixed0.ranged
  refine (MixCore_fine second' (tame.effects 1) ranged input1 ext' 1 s.OutPos voices1.1).bind fun core1 mixed1 => ?_
  have out : Fine (if s.PlayMode.testBit 3 then some (core1.2.2.inputHiFi s.OutPos) else
      core1.1.clamp_mix.ApplyVolume core1.2.1.MasterVol.Value) StereoOut32.Pcm := by
    cases cdda : s.PlayMode.testBit 3 with
    | true => exact .pure (inputHiFi_pcm _ _)
    | false =>
        have volume := mixed1.bounded.MasterVol
        rw [mixed1.MasterVol] at volume ⊢
        refine (pcm_applied (clamp_mix_range _) volume.left (tame.left cdda)).bind fun Left left => ?_
        exact (pcm_applied (clamp_mix_range _) volume.right (tame.right cdda)).bind fun Right right => .pure ⟨left, right⟩
  refine out.bind fun Out pcm => .pure ⟨pcm, ?_, ?_⟩
  · intro core
    dsimp only
    split
    · exact mixed0.bounded
    · exact mixed1.bounded
  · exact if_ranged _ (refill_ranged mixed1.ranged (words 1)) mixed1.ranged

end Mixer

/-! ## Between ticks -/

theorem RegSet_within {slide : V_VolumeSlide} (within : Within 0x8000 slide.Value) (src : UInt16) :
    Within 0x8000 (slide.RegSet src).Value := by
  have shifted := bmod_within ((src.toNat * 2 : Nat) : Int)
  cases enabled : ({ slide with Reg_VOL := src } : V_VolumeSlide).Enable with
  | true => simpa only [V_VolumeSlide.RegSet, enabled, if_pos] using within
  | false => simpa only [V_VolumeSlide.RegSet, enabled, if_neg, Bool.false_eq_true, not_false_eq_true] using shifted

namespace V_Voice.Bounded

variable {vc : V_Voice}

theorem writeParam (bounded : vc.Bounded) (param : VoiceParam) (value : UInt16) : (vc.writeParam param value).Bounded := by
  cases param with
  | VOLL => exact { bounded with left := RegSet_within bounded.left value }
  | VOLR => exact { bounded with right := RegSet_within bounded.right value }
  | ENVX =>
      have high : (value.toNat : Int) ≤ 0xffff := by
        have := value.toNat_lt
        omega
      exact { bounded with envelope := ⟨Int.natCast_nonneg _, high⟩ }
  | ADSR1 | ADSR2 => exact { bounded with envelope := ⟨bounded.envelope.low, bounded.envelope.high⟩ }
  | PITCH | VOLXL | VOLXR => exact { bounded with }

theorem writeAddr (bounded : vc.Bounded) (address : VoiceAddr) (value : UInt16) : (vc.writeAddr address value).Bounded := by
  have fifo : (vc.decoder.regWrite_VoiceAddr address value).DecodeFifo = vc.decoder.DecodeFifo := by
    cases address <;> rfl
  exact { bounded with fifo := fun i => by simpa only [V_Voice.writeAddr, fifo] using bounded.fifo i }

theorem psxmode (bounded : vc.Bounded) : vc.psxmode.Bounded :=
  { bounded with left := .zero (by decide), right := .zero (by decide), envelope := vc.ADSR.Stop_ranged }

theorem setModulated (bounded : vc.Bounded) (hi : Bool) (value : UInt16) (idx : Nat) : (setModulated hi value idx vc).Bounded := by
  unfold Spu2.setModulated
  split
  · exact bounded
  · cases voiceBit hi value idx with
    | none => exact bounded
    | some bit => exact { bounded with }

theorem setNoise (bounded : vc.Bounded) (hi : Bool) (value : UInt16) (idx : Nat) : (setNoise hi value idx vc).Bounded := by
  unfold Spu2.setNoise
  cases voiceBit hi value idx with
  | none => exact bounded
  | some bit => exact { bounded with }

theorem released (bounded : vc.Bounded) : ({ vc with ADSR := vc.ADSR.Release } : V_Voice).Bounded := by
  have same : vc.ADSR.Release.Value = vc.ADSR.Value := by
    unfold V_ADSR.Release
    split
    · rfl
    · rfl
  exact { bounded with envelope := ⟨same ▸ bounded.envelope.low, same ▸ bounded.envelope.high⟩ }

theorem start (bounded : vc.Bounded) : vc.Start.Bounded :=
  { bounded with envelope := ⟨Int.le_refl 0, by simp [V_Voice.Start, V_ADSR.Attack]⟩, low := Int.le_refl 0, high := by simp [V_Voice.Start] }

theorem init : V_Voice.init.Bounded where
  left := .zero (by decide)
  right := .zero (by decide)
  envelope := ⟨Int.le_refl 0, by decide⟩
  OutX := .zero (by decide)
  low := Int.le_refl 0
  high := by decide
  fifo := fun _ => .zero (by decide)

end V_Voice.Bounded

theorem SignExtend16_within (value : UInt16) : Within 0x8000 (SignExtend16 value) := int16_within _

namespace V_Core.Bounded

variable {c : V_Core}

theorem setVoices (bounded : c.Bounded) {f : Nat → V_Voice → V_Voice} (keeps : ∀ v vc, vc.Bounded → (f v vc).Bounded) :
    (c.setVoices f).Bounded :=
  { bounded with voices := fun v => keeps v _ (bounded.voices v) }

theorem writeParam (bounded : c.Bounded) (core : Fin 2) (param : CoreParam) (value : UInt16) :
    (c.writeParam core param value).Bounded := by
  cases param with
  | MVOLL => exact { bounded with MasterVol := ⟨RegSet_within bounded.MasterVol.left value, bounded.MasterVol.right⟩ }
  | MVOLR => exact { bounded with MasterVol := ⟨bounded.MasterVol.left, RegSet_within bounded.MasterVol.right value⟩ }
  | EVOLL => exact { bounded with FxVol := ⟨SignExtend16_within value, bounded.FxVol.right⟩ }
  | EVOLR => exact { bounded with FxVol := ⟨bounded.FxVol.left, SignExtend16_within value⟩ }
  | AVOLL => exact { bounded with ExtVol := ⟨SignExtend16_within value, bounded.ExtVol.right⟩ }
  | AVOLR => exact { bounded with ExtVol := ⟨bounded.ExtVol.left, SignExtend16_within value⟩ }
  | BVOLL => exact { bounded with InpVol := ⟨SignExtend16_within value, bounded.InpVol.right⟩ }
  | BVOLR => exact { bounded with InpVol := ⟨bounded.InpVol.left, SignExtend16_within value⟩ }
  | PMON hi => exact bounded.setVoices fun v vc holds => holds.setModulated hi value v
  | NON hi => exact bounded.setVoices fun v vc holds => holds.setNoise hi value v
  | VMIX reg hi =>
      simp only [V_Core.writeParam, V_Core.vx_SetSomeBits]
      split
      · exact bounded
      · exact { bounded with }
  | ATTR | MMIX | EEA | KON | KOFF | ESA | Revb | RevbVol => exact { bounded with }

theorem keys (bounded : c.Bounded) : c.keys.Bounded := by
  refine { bounded with voices := fun v => ?_ }
  simp only [V_Core.keys]
  split_ifs
  · exact (bounded.voices v).released.start
  · exact (bounded.voices v).start
  · exact (bounded.voices v).released
  · exact bounded.voices v

theorem init (core : Fin 2) : (V_Core.init core).Bounded where
  voices := fun _ => .init
  MasterVol := ⟨.zero (by decide), .zero (by decide)⟩
  ExtVol := ⟨SignExtend16_within 0x7fff, SignExtend16_within 0x7fff⟩
  InpVol := ⟨SignExtend16_within 0x7fff, SignExtend16_within 0x7fff⟩
  FxVol := ⟨.zero (by decide), .zero (by decide)⟩

end V_Core.Bounded

namespace Ram.Ranged

variable {ram : Ram}

theorem invalidate (ranged : ram.Ranged) (first last : Nat) : (ram.invalidate first last).Ranged := by
  intro line
  simp only [Ram.invalidate]
  split
  · exact ranged line
  · exact ranged line

theorem write (ranged : ram.Ranged) (addr : Nat) (value : UInt16) : (ram.write addr value).Ranged := by
  unfold Ram.write
  dsimp only
  split
  · exact ranged.invalidate _ _
  · exact ranged

theorem init (mem : Nat → UInt16) : (Ram.init mem).Ranged := by
  intro line sample member
  rw [List.eq_of_mem_replicate member]
  exact .zero (by decide)

end Ram.Ranged

namespace Mixer.Bounded

variable {s : Mixer}

theorem setCore (bounded : s.Bounded) {c : V_Core} (core : Fin 2) (holds : c.Bounded) : (s.setCore core c).Bounded := by
  refine ⟨fun i => ?_, bounded.ranged⟩
  simp only [Mixer.setCore, Function.update_apply]
  split
  · exact holds
  · exact bounded.cores i

theorem setVoice (bounded : s.Bounded) {f : V_Voice → V_Voice} (core : Fin 2) (voice : Nat)
    (keeps : ∀ vc, vc.Bounded → (f vc).Bounded) : (s.setVoice core voice f).Bounded := by
  refine bounded.setCore core { bounded.cores core with voices := fun v => ?_ }
  simp only [Function.update_apply]
  split
  · exact keeps _ ((bounded.cores core).voices voice)
  · exact (bounded.cores core).voices v

theorem UpdateSpdifMode (bounded : s.Bounded) : s.UpdateSpdifMode.Bounded := by
  unfold Mixer.UpdateSpdifMode
  split_ifs
  all_goals exact ⟨bounded.cores, bounded.ranged⟩

theorem apply (bounded : s.Bounded) (event : MixerEvent) : (s.apply event).Bounded := by
  cases event with
  | voiceParam core voice param value => exact bounded.setVoice core voice fun vc holds => holds.writeParam param value
  | voiceAddr core voice address value => exact bounded.setVoice core voice fun vc holds => holds.writeAddr address value
  | coreParam core param value => exact bounded.setCore core ((bounded.cores core).writeParam core param value)
  | spdifOut value => exact UpdateSpdifMode ⟨bounded.cores, bounded.ranged⟩
  | spdifMode value => exact UpdateSpdifMode ⟨bounded.cores, bounded.ranged⟩
  | psxmode => exact bounded.setCore 1 { (bounded.cores 1).setVoices fun _ _ holds => holds.psxmode with }
  | write addr value => exact ⟨bounded.cores, bounded.ranged.write addr value⟩
  | dma activeTSA first wrapped => exact ⟨bounded.cores, bounded.ranged.invalidate _ _⟩
  | refill words => exact ⟨bounded.cores, refill_ranged bounded.ranged words⟩

theorem beforeMix (bounded : s.Bounded) : s.beforeMix.Bounded := ⟨fun core => (bounded.cores core).keys, bounded.ranged⟩

theorem init (mem : Nat → UInt16) : (Mixer.init mem).Bounded := ⟨.init, .init mem⟩

end Mixer.Bounded

/-! ## Runs -/

inductive MixerStep (s : Mixer) : Mixer → Prop
  | event (event : MixerEvent) : MixerStep s (s.apply event)
  | tick (words : Fin 2 → List (Nat × UInt16)) {out : StereoOut32} {t : Mixer} (mixed : s.tick words = some (out, t)) : MixerStep s t

/-- A step that, if it is a tick, finds tame registers. -/
inductive TameStep (s : Mixer) : Mixer → Prop
  | event (event : MixerEvent) : TameStep s (s.apply event)
  | tick (words : Fin 2 → List (Nat × UInt16)) {out : StereoOut32} {t : Mixer} (tame : s.beforeMix.Tame)
      (mixed : s.tick words = some (out, t)) : TameStep s t

/-- The next tick does not overflow, its sample is of 16 bits, and where reverb is computed its addresses are in the RAM. -/
structure Sound (s : Mixer) : Prop where
  mixes : ∀ words, Fine (s.tick words) fun done => done.1.Pcm
  addresses : ∀ core, let e := (s.beforeMix.Cores core).effects
    e.EffectsStartA < e.EffectsEndA → ∀ offset, Fine (e.RevbGetIndexer s.beforeMix.Cycles offset) (· < 0x100000)

theorem TameStep.bounded {s t : Mixer} (bounded : s.Bounded) (step : TameStep s t) : t.Bounded := by
  cases step with
  | event event => exact bounded.apply event
  | tick words tame mixed =>
      obtain ⟨done, same, -, holds⟩ := Mixer.spu2Mix_fine bounded.beforeMix tame words
      obtain rfl := Option.some.inj (same.symm.trans mixed)
      exact holds

theorem quiet_silent {r : V_Reverb} (silent : ∀ v, r.volume v = 0) (R : Bool) : r.Quiet R := by
  constructor
  all_goals simp [V_Reverb.apf1Peak, V_Reverb.apf2Peak, silent]

theorem init_sized (core : Fin 2) : (Effects.init core).Sized := by
  unfold Effects.Sized
  revert core
  decide

theorem init_tame (mem : Nat → UInt16) : (Mixer.init mem).beforeMix.Tame := by
  have still : V_VolumeSlideLR.zero.Left.Update.Value ≠ -0x8000 := by decide
  constructor
  · intro core v few modulated
    simp [Mixer.beforeMix, Mixer.init, V_Core.keys, V_Core.init, V_Voice.init] at modulated
  · exact fun core on => ⟨init_sized core, quiet_silent (fun v => rfl) _⟩
  · exact fun _ => still
  · exact fun _ => still

theorem run_events (events : List MixerEvent) (s : Mixer) : Run MixerStep s (events.foldl Mixer.apply s) := by
  induction events generalizing s with
  | nil => exact .refl
  | cons event events ih => exact .head (.event event) (ih _)

end Pcsx2.Spu2
