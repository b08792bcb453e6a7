import Mathlib.Tactic.Linarith
import Pcsx2.Spu2.Mixer

/-!
# Bounds of a voice

What a voice gives, however it is set up, as long as pitch modulation does not overflow.
-/

namespace Pcsx2.Spu2
open Foundation

theorem checkAll_fine {ns : List Int} (small : ∀ n ∈ ns, Within 0x7fffffff n) : Fine (checkAll ns) fun _ => True := by
  induction ns with
  | nil => exact .pure trivial
  | cons n ns ih =>
      refine (s32_fine (small n List.mem_cons_self) (by decide)).bind fun _ _ => ?_
      exact ih fun m member => small m (List.mem_cons_of_mem n member)

/-! ## Levels -/

theorem level_within {step : Int} (small : Within 8 step) (n : Nat) : Within 0x4000 (step * 2 ^ (11 - n)) := by
  obtain ⟨low, high⟩ := two_pow_bounds n
  have power : Within 2048 ((2 : Int) ^ (11 - n)) := ⟨by omega, high⟩
  exact small.mul power

theorem step_within (reg32 : UInt32) (phase : Nat) : Within 8 (UpdateCache reg32 phase).Step := by
  have attack : regField reg32 8 2 < 4 := Nat.mod_lt _ (by decide)
  have sustain : regField reg32 22 2 < 4 := Nat.mod_lt _ (by decide)
  unfold UpdateCache Within
  split <;> dsimp only
  · omega
  · decide
  · split <;> omega
  · decide
  · decide

theorem bmod_within (x : Int) : Within 0x8000 (x.bmod (2 ^ 16)) := by
  have low := Int.le_bmod (x := x) (m := 2 ^ 16) (by decide)
  have high := Int.bmod_lt (x := x) (m := 2 ^ 16) (by decide)
  unfold Within
  omega

theorem level_inc_within (reg32 : UInt32) (phase : Nat) (Value : Int) :
    Within 0x8000 ((UpdateCache reg32 phase).level_inc Value) := by
  unfold CachedADSR.level_inc
  dsimp only
  split
  · exact bmod_within _
  · exact (level_within (step_within reg32 phase) _).mono (by decide)

structure V_ADSR.Ranged (a : V_ADSR) : Prop where
  low : 0 ≤ a.Value
  high : a.Value ≤ 0xffff

variable {a : V_ADSR}

theorem V_ADSR.Ranged.within (ranged : a.Ranged) : Within 0xffff a.Value := by
  obtain ⟨low, high⟩ := ranged
  exact ⟨by omega, high⟩

theorem V_ADSR.Stop_ranged (a : V_ADSR) : a.Stop.Ranged := ⟨Int.le_refl 0, by simp [V_ADSR.Stop]⟩

theorem clamp_range (x : Int) : 0 ≤ clamp 0 0x7fff x ∧ clamp 0 0x7fff x ≤ 0x7fff := by
  unfold clamp
  omega

theorem count_range (ranged : a.Ranged) (p : CachedADSR) :
    0 ≤ (a.count p).Value ∧ (a.count p).Value ≤ max a.Value 0x7fff := by
  rcases count_cases a p with ⟨Counter, -, -, counted⟩ | counted <;> rw [counted]
  · exact ⟨ranged.low, le_max_left _ _⟩
  · exact ⟨(clamp_range _).1, le_max_of_le_right (clamp_range _).2⟩

theorem CalculateADSR_range (ranged : a.Ranged) :
    0 ≤ a.CalculateADSR.Value ∧ a.CalculateADSR.Value ≤ max a.Value 0x7fff := by
  have counted := count_range ranged (UpdateCache a.reg32 a.Phase)
  have top : (0 : Int) ≤ max a.Value 0x7fff := le_max_of_le_right (by decide)
  unfold V_ADSR.CalculateADSR V_ADSR.Calculate
  dsimp only
  split
  · exact ⟨Int.le_refl 0, top⟩
  · split_ifs
    all_goals first | exact counted | exact ⟨Int.le_refl 0, top⟩

theorem CalculateS32_fine (ranged : a.Ranged) : Fine a.CalculateS32 fun b =>
    0 ≤ b.Value ∧ b.Value ≤ max a.Value 0x7fff := by
  refine (checkAll_fine ?_).bind fun _ _ => .pure (CalculateADSR_range ranged)
  split
  · exact fun n member => absurd member List.not_mem_nil
  · have level := level_within (step_within a.reg32 a.Phase) (UpdateCache a.reg32 a.Phase).Shift
    simp only [V_ADSR.intermediates, List.forall_mem_cons, List.not_mem_nil, false_imp_iff, implies_true, and_true]
    refine ⟨level.mono (by decide), (level.mul ranged.within).mono (by decide), ?_⟩
    exact (ranged.within.add (level_inc_within a.reg32 a.Phase a.Value)).mono (by decide)

/-! ## Slides -/

theorem slide_step_within (s : V_VolumeSlide) : Within 8 (if s.Decr then -(7 - (s.Step : Int)) - 1 else 7 - s.Step) := by
  have small : s.Step < 4 := Nat.mod_lt _ (by decide)
  split <;> exact ⟨by omega, by omega⟩

theorem slide_level_within (s : V_VolumeSlide) : Within 0x8000 s.level_inc := by
  have level := level_within (slide_step_within s) s.Shift
  unfold V_VolumeSlide.level_inc
  dsimp only
  split
  · exact bmod_within _
  · split
    · exact ⟨by have := level.2; omega, by have := level.1; omega⟩
    · exact level.mono (by decide)

theorem Update_within {s : V_VolumeSlide} (within : Within 0x8000 s.Value) : Within 0x8000 s.Update.Value := by
  have clamped (low high x : Int) (above : -0x8000 ≤ low) (order : low ≤ high) (below : high ≤ 0x8000) :
      Within 0x8000 (clamp low high x) := by
    unfold clamp Within
    omega
  unfold V_VolumeSlide.Update
  dsimp only
  split_ifs
  all_goals first | exact within | exact clamped _ _ _ (by decide) (by decide) (by decide)

theorem UpdateS32_fine {s : V_VolumeSlide} (within : Within 0x8000 s.Value) : Fine s.UpdateS32 fun t =>
    t = s.Update ∧ Within 0x8000 t.Value := by
  refine (checkAll_fine ?_).bind fun _ _ => .pure ⟨rfl, Update_within within⟩
  split
  · have level := level_within (slide_step_within s) s.Shift
    simp only [V_VolumeSlide.intermediates, List.forall_mem_cons, List.not_mem_nil, false_imp_iff, implies_true, and_true]
    refine ⟨level.mono (by decide), (level.mul within).mono (by decide), ?_,
      (within.add (slide_level_within s)).mono (by decide)⟩
    exact ⟨by have := level.2; omega, by have := level.1; omega⟩
  · exact fun n member => absurd member List.not_mem_nil

theorem UpdateS32_both_fine {volume : V_VolumeSlideLR} (left : Within 0x8000 volume.Left.Value) (right : Within 0x8000 volume.Right.Value) :
    Fine volume.UpdateS32 fun updated => updated = ⟨volume.Left.Update, volume.Right.Update⟩ ∧
      Within 0x8000 updated.Left.Value ∧ Within 0x8000 updated.Right.Value := by
  refine (UpdateS32_fine left).bind fun Left done => ?_
  refine (UpdateS32_fine right).bind fun Right done' => .pure ?_
  obtain ⟨rfl, within⟩ := done
  obtain ⟨rfl, within'⟩ := done'
  exact ⟨rfl, within, within'⟩

/-! ## Samples -/

def Ram.Ranged (ram : Ram) : Prop := ∀ line, ∀ sample ∈ (ram.cache line).Sampledata, Within 0x8000 sample

theorem clampS16_within (pcm : Int) : Within 0x8000 (clampS16 pcm) := by
  unfold clampS16 Within
  omega

theorem decodeBytes_within (pred : Int × Int) (shift : Nat) (bytes : List Nat) (prev1 prev2 : Int) :
    ∀ sample ∈ (decodeBytes pred shift bytes prev1 prev2).buffer, Within 0x8000 sample := by
  induction bytes generalizing prev1 prev2 with
  | nil => exact fun sample member => absurd member List.not_mem_nil
  | cons byte bytes ih =>
      simp only [decodeBytes, List.forall_mem_cons]
      exact ⟨clampS16_within _, clampS16_within _, ih _ _⟩

theorem getD_within {samples : List Int} (within : ∀ sample ∈ samples, Within 0x8000 sample) (i : Nat) :
    Within 0x8000 (samples.getD i 0) := by
  rw [List.getD_eq_getElem?_getD]
  cases found : samples[i]? with
  | none => exact .zero (by decide)
  | some sample => exact within sample (List.mem_of_getElem? found)

theorem put_within {fifo : Nat → Int} {buffer : List Int} (before : ∀ i, Within 0x8000 (fifo i))
    (within : ∀ sample ∈ buffer, Within 0x8000 sample) (pos : UInt32) (idx : Nat) :
    ∀ i, Within 0x8000 (put fifo pos buffer idx i) := by
  have update (fifo : Nat → Int) (cell k : Nat) (before : ∀ i, Within 0x8000 (fifo i)) :
      ∀ i, Within 0x8000 (Function.update fifo cell (buffer.getD k 0) i) := by
    intro i
    rw [Function.update_apply]
    split
    · exact getD_within within k
    · exact before i
  simp only [put, List.range, List.range.loop, List.foldl_cons, List.foldl_nil]
  exact update _ _ _ (update _ _ _ (update _ _ _ (update _ _ _ before)))

theorem enterBlock_ranged {ram : Ram} (ranged : ram.Ranged) (vc : Voice) : (enterBlock ram vc).1.Ranged := by
  unfold enterBlock
  dsimp only
  split
  · exact ranged
  · intro line
    dsimp only
    rw [Function.update_apply]
    split
    · exact decodeBytes_within _ _ _ _ _
    · exact ranged line

theorem getNextDataBuffered_within {ram : Ram} {vc : Voice} (ranged : ram.Ranged) (fifo : ∀ i, Within 0x8000 (vc.DecodeFifo i)) :
    (getNextDataBuffered ram vc).1.Ranged ∧ ∀ i, Within 0x8000 ((getNextDataBuffered ram vc).2.DecodeFifo i) := by
  unfold getNextDataBuffered
  dsimp only
  split
  · obtain ⟨line, prev1, prev2, entered⟩ := enterBlock_same ram vc
    have block := enterBlock_ranged ranged vc
    rw [entered]
    exact ⟨block, put_within fifo (block _) _ _⟩
  · exact ⟨ranged, put_within fifo (ranged _) _ _⟩

theorem decodeSamples_within {ram : Ram} {vc : Voice} (ranged : ram.Ranged) (fifo : ∀ i, Within 0x8000 (vc.DecodeFifo i)) :
    (decodeSamples ram vc).1.Ranged ∧ ∀ i, Within 0x8000 ((decodeSamples ram vc).2.DecodeFifo i) := by
  obtain ⟨flags, loop, header⟩ := updateBlockHeader_same ram vc
  unfold decodeSamples
  rw [header]
  dsimp only
  split
  · exact ⟨ranged, fifo⟩
  · simp only [advance_fifo]
    split
    · exact getNextDataBuffered_within ranged fifo
    · exact ⟨ranged, fifo⟩

/-! ## Voices -/

structure V_Voice.Bounded (vc : V_Voice) : Prop where
  left : Within 0x8000 vc.Volume.Left.Value
  right : Within 0x8000 vc.Volume.Right.Value
  envelope : vc.ADSR.Ranged
  OutX : Within 0xffff vc.OutX
  low : 0 ≤ vc.SP
  high : vc.SP < 0x1000
  fifo : ∀ i, Within 0x8000 (vc.decoder.DecodeFifo i)

/-- How high `OutX` can be after a tick. -/
def V_Voice.peak (vc : V_Voice) : Int :=
  if vc.ADSR.Phase = PHASE_STOPPED then vc.OutX else max vc.OutX (max vc.ADSR.Value 0x7fff * 0x7fff / 2 ^ 15)

/-- Pitch modulation by `OutX` does not overflow. -/
def V_Voice.Modulates (vc : V_Voice) (OutX : Int) : Prop := vc.Modulated = true → vc.Pitch.toNat * (0x8000 + OutX) < 2 ^ 31

variable {vc : V_Voice} {ram : Ram}

theorem slots_within (bounded : vc.Bounded) (i : Nat) : Within 0x8000 (vc.decoder.slots.getD i 0) := by
  refine getD_within ?_ i
  simp only [Voice.slots, List.forall_mem_map]
  exact fun k _ => bounded.fifo _

theorem GetVoiceValues_fine (bounded : vc.Bounded) : Fine vc.GetVoiceValues (Within 0x7fff) := by
  have taps := interpTable_taps (vc.SP / 16 % 256).toNat
  unfold V_Voice.GetVoiceValues
  generalize interpTable (vc.SP / 16 % 256).toNat = row at taps ⊢
  have first := abs_nonneg row.1
  have second := abs_nonneg row.2.1
  have third := abs_nonneg row.2.2.1
  have fourth := abs_nonneg row.2.2.2
  refine (MUL_sample (.abs _) (slots_within bounded 0) (by omega)).bind fun a within => ?_
  refine (MUL_sample (.abs _) (slots_within bounded 1) (by omega)).bind fun b within' => ?_
  refine (s32_fine (within.add within') (by omega)).bind fun two sum => ?_
  refine (MUL_sample (.abs _) (slots_within bounded 2) (by omega)).bind fun c within => ?_
  refine (s32_fine (sum.2.add within) (by omega)).bind fun three sum => ?_
  refine (MUL_sample (.abs _) (slots_within bounded 3) (by omega)).bind fun d within => ?_
  exact (s32_fine (sum.2.add within) (by omega)).weaken fun out total => total.1 ▸ total.2.mono taps

theorem ApplyVolume_fine {data volume : Int} (sound : Within 0xffff data) (within : Within 0x8000 volume) :
    Fine (ApplyVolume data volume) (Within 0xffff) := by
  refine (s32_fine (within.mul sound) (by decide)).bind fun product holds => .pure ?_
  exact Within.shift (holds.2.mono (by decide))

theorem StereoOut32.ApplyVolume_fine {data : StereoOut32} {volume : V_VolumeLR} (left : Within 0xffff data.Left)
    (right : Within 0xffff data.Right) (volL : Within 0x8000 volume.Left) (volR : Within 0x8000 volume.Right) :
    Fine (data.ApplyVolume volume) fun out => Within 0xffff out.Left ∧ Within 0xffff out.Right := by
  refine (Spu2.ApplyVolume_fine left volL).bind fun outL within => ?_
  exact (Spu2.ApplyVolume_fine right volR).bind fun outR within' => .pure ⟨within, within'⟩

theorem envelope_fine {sample V M : Int} (sound : Within 0x8000 sample) (top : sample ≤ 0x7fff) (low : 0 ≤ V) (high : V ≤ M)
    (small : M ≤ 0xffff) : Fine (ApplyVolume sample V) fun out => Within 0xffff out ∧ out ≤ M * 0x7fff / 2 ^ 15 := by
  have level : Within 0xffff V := ⟨by omega, by omega⟩
  refine (s32_fine (level.mul sound) (by decide)).bind fun product holds => .pure ⟨?_, ?_⟩
  · exact Within.shift (holds.2.mono (by decide))
  · rw [holds.1]
    apply Int.ediv_le_ediv (by decide)
    nlinarith

structure Sounds (vc : V_Voice) (sounded : StereoOut32 × V_Voice) : Prop where
  left : Within 0xffff sounded.1.Left
  right : Within 0xffff sounded.1.Right
  bounded : sounded.2.Bounded
  peak : sounded.2.OutX ≤ vc.peak
  Modulated : sounded.2.Modulated = vc.Modulated
  Pitch : sounded.2.Pitch = vc.Pitch

theorem sound_fine (bounded : vc.Bounded) (NoiseOut : UInt32) : Fine (vc.sound NoiseOut) fun sounded => Sounds vc sounded.2 := by
  unfold V_Voice.sound
  split
  · next stopped => exact .pure ⟨.zero (by decide), .zero (by decide), bounded, by rw [V_Voice.peak, if_pos stopped], rfl, rfl⟩
  · next plays =>
      have noise : Within 0x8000 NoiseOut.toUInt16.toInt16.toInt ∧ NoiseOut.toUInt16.toInt16.toInt ≤ 0x7fff :=
        ⟨int16_within _, Int.le_of_lt_add_one (Int16.toInt_lt _)⟩
      have source : Fine (if vc.Noise then some NoiseOut.toUInt16.toInt16.toInt else vc.GetVoiceValues) fun sample =>
          Within 0x8000 sample ∧ sample ≤ 0x7fff := by
        split
        · exact .pure noise
        · exact (GetVoiceValues_fine bounded).weaken fun sample within => ⟨within.mono (by decide), within.2⟩
      have top : max vc.ADSR.Value 0x7fff ≤ 0xffff := max_le bounded.envelope.high (by decide)
      refine source.bind fun sample range => ?_
      refine (CalculateS32_fine bounded.envelope).bind fun ADSR level => ?_
      refine (envelope_fine range.1 range.2 level.1 level.2 top).bind fun Value out => ?_
      refine (StereoOut32.ApplyVolume_fine out.1 out.1 bounded.left bounded.right).bind fun voiceOut within => .pure ?_
      refine ⟨within.1, within.2, ?_, ?_, rfl, rfl⟩
      · exact ⟨bounded.left, bounded.right, ⟨level.1, Int.le_trans level.2 top⟩, out.1, bounded.low, bounded.high, bounded.fifo⟩
      · rw [V_Voice.peak, if_neg plays]
        exact le_max_of_le_right out.2

theorem clamp_pitch (x : Int) : 0 ≤ clamp 0 0x3fff x := le_max_left _ _

theorem pitch_fine {voiceidx : Nat} {OutX : Int} (before : Within 0xffff OutX) (fits : voiceidx ≠ 0 → vc.Modulates OutX) :
    Fine (vc.pitch voiceidx OutX) (0 ≤ ·) := by
  have width := vc.Pitch.toNat_lt
  unfold V_Voice.pitch
  split
  · exact .pure (Int.natCast_nonneg _)
  · next modulated =>
      rw [not_or, Bool.not_eq_false] at modulated
      have below := fits modulated.2 modulated.1
      have sum : Within 0x17fff (32768 + OutX) := ⟨by have := before.1; omega, by have := before.2; omega⟩
      have above : -2 ^ 31 ≤ (vc.Pitch.toNat : Int) * (32768 + OutX) := by
        have := before.1
        nlinarith
      refine (s32_fine sum (by decide)).bind fun sum same => ?_
      obtain ⟨rfl, -⟩ := same
      refine Fine.bind ⟨_, if_pos ⟨above, below⟩, trivial⟩ (fun product (_ : True) => .pure (clamp_pitch _))

theorem UpdatePitch_fine (bounded : vc.Bounded) {voiceidx : Nat} {OutX : Int} (before : Within 0xffff OutX)
    (fits : voiceidx ≠ 0 → vc.Modulates OutX) : Fine (vc.UpdatePitch voiceidx OutX) fun pitched =>
      ∃ SP, 0 ≤ SP ∧ SP < 0x5000 ∧ pitched = { vc with SP } := by
  have low := bounded.low
  have high := bounded.high
  refine (pitch_fine before fits).bind fun pitch positive => ?_
  have added : Within 0x5000 (vc.SP + min pitch 0x3fff) := ⟨by omega, by omega⟩
  refine (s32_fine added (by decide)).bind fun SP same => .pure ⟨SP, ?_, ?_, rfl⟩
  · rw [same.1]
    omega
  · rw [same.1]
    omega

theorem DecodeSamples_bounded (bounded : vc.Bounded) (ranged : ram.Ranged) :
    (vc.DecodeSamples ram).1.Ranged ∧ (vc.DecodeSamples ram).2.Bounded := by
  have decoded := @decodeSamples_within ram { vc.decoder with playing := decide (vc.ADSR.Phase ≠ PHASE_STOPPED) } ranged bounded.fifo
  refine ⟨decoded.1, bounded.left, bounded.right, ?_, bounded.OutX, bounded.low, bounded.high, decoded.2⟩
  simp only [V_Voice.DecodeSamples]
  split
  · exact vc.ADSR.Stop_ranged
  · exact bounded.envelope

theorem DecodeSamples_peak (vc : V_Voice) (ram : Ram) : (vc.DecodeSamples ram).2.peak ≤ vc.peak := by
  simp only [V_Voice.DecodeSamples, V_Voice.peak]
  split
  · next stops =>
      have plays : vc.ADSR.Phase ≠ PHASE_STOPPED := by
        rw [Bool.and_eq_true, decide_eq_true_iff] at stops
        exact stops.1
      rw [if_neg plays]
      exact le_max_left _ _
  · exact le_refl _

theorem writeBack_cache (ram : Ram) (core : Fin 2) (OutPos voiceidx : Nat) (Value : Int) :
    (writeBack ram core OutPos voiceidx Value).cache = ram.cache := by
  unfold writeBack
  split
  · rfl
  · split
    · rfl
    · rfl

theorem Ram.Ranged.of_cache {ram' : Ram} (ranged : ram.Ranged) (same : ram'.cache = ram.cache) : ram'.Ranged := by
  intro line
  rw [same]
  exact ranged line

structure Mixed (vc : V_Voice) (mixed : StereoOut32 × V_Voice × Ram) : Prop where
  left : Within 0xffff mixed.1.Left
  right : Within 0xffff mixed.1.Right
  bounded : mixed.2.1.Bounded
  peak : mixed.2.1.OutX ≤ vc.peak
  ranged : mixed.2.2.Ranged

theorem MixVoice_fine (bounded : vc.Bounded) (ranged : ram.Ranged) (core : Fin 2) (OutPos : Nat) (NoiseOut : UInt32)
    {voiceidx : Nat} {OutX : Int} (before : Within 0xffff OutX) (fits : voiceidx ≠ 0 → vc.Modulates OutX) :
    Fine (vc.MixVoice ram core OutPos NoiseOut voiceidx OutX) (Mixed vc) := by
  refine (UpdateS32_both_fine bounded.left bounded.right).bind fun Volume volume => ?_
  have slid : ({ vc with Volume } : V_Voice).Bounded :=
    ⟨volume.2.1, volume.2.2, bounded.envelope, bounded.OutX, bounded.low, bounded.high, bounded.fifo⟩
  obtain ⟨cached, decoded⟩ := DecodeSamples_bounded slid ranged
  refine (sound_fine decoded NoiseOut).bind fun sounded sounds => ?_
  have fits' : voiceidx ≠ 0 → sounded.2.2.Modulates OutX := by
    intro later
    have := fits later
    unfold V_Voice.Modulates at this ⊢
    rw [sounds.Modulated, sounds.Pitch]
    exact this
  refine (UpdatePitch_fine sounds.bounded before fits').bind fun pitched moved => .pure ?_
  obtain ⟨SP, low, high, rfl⟩ := moved
  have := sounds.bounded
  exact {
    left := sounds.left
    right := sounds.right
    bounded := ⟨this.left, this.right, this.envelope, this.OutX, Int.emod_nonneg _ (by decide), Int.emod_lt_of_pos _ (by decide), this.fifo⟩
    peak := Int.le_trans sounds.peak (DecodeSamples_peak _ _)
    ranged := cached.of_cache (writeBack_cache _ _ _ _ _) }

end Pcsx2.Spu2
