import Mathlib.Algebra.Order.Ring.Int
import Mathlib.Data.Fintype.Basic
import Mathlib.Logic.Function.Basic
import Pcsx2.Foundation.Checked
import Pcsx2.Spu2.Envelope
import Pcsx2.Spu2.Voice

/-!
# Reverb

Every other sample is for the left channel. Its words are at addresses that move with the cycles and wrap in the area of
the effects. The products are of 32 bits.
-/

namespace Pcsx2.Spu2
open Foundation

def s32 (n : Int) : Option Int := signed 31 n

structure StereoOut32 where
  Left : Int
  Right : Int

def StereoOut32.Empty : StereoOut32 := ⟨0, 0⟩

def clamp_mix (x : Int) : Int := clamp (-0x8000) 0x7fff x

def StereoOut32.clamp_mix (sample : StereoOut32) : StereoOut32 := ⟨Spu2.clamp_mix sample.Left, Spu2.clamp_mix sample.Right⟩

/-! ## Registers -/

inductive RevbAddr
  | APF1_SIZE | APF2_SIZE
  | SAME_L_SRC | SAME_R_SRC | DIFF_L_SRC | DIFF_R_SRC
  | SAME_L_DST | SAME_R_DST | DIFF_L_DST | DIFF_R_DST
  | COMB1_L_SRC | COMB1_R_SRC | COMB2_L_SRC | COMB2_R_SRC
  | COMB3_L_SRC | COMB3_R_SRC | COMB4_L_SRC | COMB4_R_SRC
  | APF1_L_DST | APF1_R_DST | APF2_L_DST | APF2_R_DST
  deriving DecidableEq

inductive RevbVol
  | IN_COEF_L | IN_COEF_R | APF1_VOL | APF2_VOL | IIR_VOL | WALL_VOL | COMB1_VOL | COMB2_VOL | COMB3_VOL | COMB4_VOL
  deriving DecidableEq

structure V_Reverb where
  addr : RevbAddr → UInt32
  vol : RevbVol → Int16

/-- The part of a core that `DoReverb` uses. The buffers have a channel and a place. -/
structure Effects where
  Revb : V_Reverb
  RevbDownBuf : Bool → Nat → Int16
  RevbUpBuf : Bool → Nat → Int16
  RevbSampleBufPos : Nat
  EffectsStartA : UInt32
  EffectsEndA : UInt32
  FxEnable : Bool

/-! ## Resampling -/

def NUM_TAPS : Nat := 39

def filter_down_coefs : List Int := [
  -1, 0, 2, 0, -10, 0, 35, 0, -103, 0, 266, 0, -616, 0, 1332, 0, -2960, 0, 10246, 16384, 10246, 0, -2960, 0, 1332, 0, -616, 0,
  266, 0, -103, 0, 35, 0, -10, 0, 2, 0, -1, 0, 0, 0, 0, 0, 0, 0, 0, 0]

def filter_up_coefs : List Int := filter_down_coefs.map fun coef => clamp (-0x8000) 0x7fff (coef * 2)

def mulhrs (x y : Int) : Int := ((x * y / 2 ^ 14 + 1) / 2).bmod (2 ^ 16)

def adds (x y : Int) : Int := clamp (-0x8000) 0x7fff (x + y)

def hadds : List Int → List Int
  | x :: y :: rest => adds x y :: hadds rest
  | rest => rest

def resample (coefs : List Int) (buffer : Nat → Int16) (index : Nat) : Int :=
  let lane (k i : Nat) : Int := mulhrs (buffer (index + 8 * k + i)).toInt (coefs.getD (8 * k + i) 0)
  let acc := (List.range 8).map fun i => adds (adds (adds (adds (lane 0 i) (lane 1 i)) (lane 2 i)) (lane 3 i)) (lane 4 i)
  (hadds (hadds (hadds acc))).headD 0

namespace Effects

def index (e : Effects) : Nat := (e.RevbSampleBufPos + 64 - NUM_TAPS) % 64

def ReverbDownsample (e : Effects) (right : Bool) : Int := resample filter_down_coefs (e.RevbDownBuf right) e.index

def ReverbUpsample (e : Effects) : StereoOut32 :=
  ⟨resample filter_up_coefs (e.RevbUpBuf false) e.index, resample filter_up_coefs (e.RevbUpBuf true) e.index⟩

end Effects

def store (buffer : Nat → Int16) (pos : Nat) (sample : Int) : Nat → Int16 :=
  Function.update (Function.update buffer pos (.ofInt sample)) (pos ||| 64) (.ofInt sample)

/-! ## Addresses -/

def Effects.RevbGetIndexer (e : Effects) (Cycles : UInt32) (offset : UInt32) : Option Nat :=
  let start := e.EffectsStartA &&& 0x3fffff
  let stop := (e.EffectsEndA &&& 0x3fffff) ||| 0xffff
  let size := stop - start + 1
  if size = 0 then none
  else some ((((Cycles >>> 1) + offset) % size + start) &&& 0xfffff).toNat

/-! ## The algorithm -/

def MUL (x y : Int) : Option Int := do
  let product ← s32 (x * y)
  return product / 2 ^ 15

namespace V_Reverb

variable (r : V_Reverb)

def volume (v : RevbVol) : Int := (r.vol v).toInt

/-- `same` and `diff`, from the input and the words at the source and before the destination. -/
def reflection (input src prv : Int) : Option Int := do
  let wall ← MUL (r.volume .WALL_VOL) src
  let sum ← s32 (input + wall)
  let change ← s32 (sum - prv)
  let filtered ← MUL (r.volume .IIR_VOL) change
  s32 (filtered + prv)

def combs (src1 src2 src3 src4 : Int) : Option Int := do
  let comb1 ← MUL (r.volume .COMB1_VOL) src1
  let comb2 ← MUL (r.volume .COMB2_VOL) src2
  let comb3 ← MUL (r.volume .COMB3_VOL) src3
  let comb4 ← MUL (r.volume .COMB4_VOL) src4
  let two ← s32 (comb1 + comb2)
  let three ← s32 (two + comb3)
  s32 (three + comb4)

def allPass (vol : RevbVol) (out src : Int) : Option (Int × Int) := do
  let fed ← MUL (r.volume vol) src
  let apf ← s32 (out - fed)
  let back ← MUL (r.volume vol) apf
  let out ← s32 (src + back)
  return (apf, out)

end V_Reverb

/-- `_spu2mem`. -/
def Ram.word (ram : Ram) (addr : Nat) : Int := (ram.mem addr).toInt16.toInt

def Ram.put (ram : Ram) (addr : Nat) (value : Int) : Ram := ram.writeFast addr (UInt16.ofInt value)

namespace Effects

def side (e : Effects) (R : Bool) (right left : RevbAddr) : UInt32 := e.Revb.addr (if R then right else left)

/-- `DoReverb` without the test of the interrupt addresses. -/
def DoReverb (e : Effects) (Cycles : UInt32) (ram : Ram) (Input : StereoOut32) : Option (StereoOut32 × Effects × Ram) :=
  if e.EffectsEndA ≤ e.EffectsStartA then return (.Empty, e, ram)
  else do
    let Input := Input.clamp_mix
    let pos := e.RevbSampleBufPos
    let e := { e with RevbDownBuf := fun R => store (e.RevbDownBuf R) pos (if R then Input.Right else Input.Left) }
    let R := Cycles &&& 1 == 1
    let index := e.RevbGetIndexer Cycles
    let same_src ← index (e.side R .SAME_R_SRC .SAME_L_SRC)
    let same_dst ← index (e.side R .SAME_R_DST .SAME_L_DST)
    let same_prv ← index (e.side R .SAME_R_DST .SAME_L_DST - 1)
    let diff_src ← index (e.side R .DIFF_L_SRC .DIFF_R_SRC)
    let diff_dst ← index (e.side R .DIFF_R_DST .DIFF_L_DST)
    let diff_prv ← index (e.side R .DIFF_R_DST .DIFF_L_DST - 1)
    let comb1_src ← index (e.side R .COMB1_R_SRC .COMB1_L_SRC)
    let comb2_src ← index (e.side R .COMB2_R_SRC .COMB2_L_SRC)
    let comb3_src ← index (e.side R .COMB3_R_SRC .COMB3_L_SRC)
    let comb4_src ← index (e.side R .COMB4_R_SRC .COMB4_L_SRC)
    let apf1_src ← index (e.side R .APF1_R_DST .APF1_L_DST - e.Revb.addr .APF1_SIZE)
    let apf1_dst ← index (e.side R .APF1_R_DST .APF1_L_DST)
    let apf2_src ← index (e.side R .APF2_R_DST .APF2_L_DST - e.Revb.addr .APF2_SIZE)
    let apf2_dst ← index (e.side R .APF2_R_DST .APF2_L_DST)
    let input ← MUL (e.Revb.volume (if R then .IN_COEF_R else .IN_COEF_L)) (e.ReverbDownsample R)
    let same ← e.Revb.reflection input (ram.word same_src) (ram.word same_prv)
    let diff ← e.Revb.reflection input (ram.word diff_src) (ram.word diff_prv)
    let out ← e.Revb.combs (ram.word comb1_src) (ram.word comb2_src) (ram.word comb3_src) (ram.word comb4_src)
    let apf1 ← e.Revb.allPass .APF1_VOL out (ram.word apf1_src)
    let apf2 ← e.Revb.allPass .APF2_VOL apf1.2 (ram.word apf2_src)
    let ram :=
      if e.FxEnable then
        (((ram.put same_dst (Spu2.clamp_mix same)).put diff_dst (Spu2.clamp_mix diff)).put apf1_dst
          (Spu2.clamp_mix apf1.1)).put apf2_dst (Spu2.clamp_mix apf2.1)
      else ram
    let out := Spu2.clamp_mix apf2.2
    let e := { e with RevbUpBuf := fun side => store (e.RevbUpBuf side) pos (if side = R then out else 0) }
    let e := { e with RevbSampleBufPos := (pos + 1) % 64 }
    return (e.ReverbUpsample, e, ram)

end Effects

/-! ## Bounds -/

theorem clamp_mix_range (x : Int) : -0x8000 ≤ clamp_mix x ∧ clamp_mix x ≤ 0x7fff := by
  unfold clamp_mix clamp
  omega

theorem clamp_mix_within (x : Int) : Within 0x8000 (clamp_mix x) := by
  obtain ⟨low, high⟩ := clamp_mix_range x
  exact ⟨low, by omega⟩

theorem adds_within (x y : Int) : Within 0x8000 (adds x y) := clamp_mix_within (x + y)

theorem int16_within (x : Int16) : Within 0x8000 x.toInt := ⟨x.le_toInt, Int.le_of_lt x.toInt_lt⟩

theorem resample_within (coefs : List Int) (buffer : Nat → Int16) (index : Nat) : Within 0x8000 (resample coefs buffer index) := by
  simp only [resample, List.range, List.range.loop, List.map_cons, List.map_nil, hadds, List.headD_cons]
  exact adds_within _ _

section
variable {a b x y : Int}

theorem s32_fine (within : Within a x) (small : a < 2 ^ 31) : Fine (s32 x) fun n => n = x ∧ Within a n := by
  obtain ⟨n, same, rfl, holds⟩ := signed_fine within small
  exact ⟨n, same, rfl, holds⟩

theorem MUL_fine (first : Within a x) (second : Within b y) (small : a * b < 2 ^ 31) :
    Fine (MUL x y) (Within (a * b / 2 ^ 15 + 1)) := by
  refine (s32_fine (first.mul second) small).bind fun product holds => .pure ?_
  apply Within.shift
  refine holds.2.mono ?_
  omega

theorem MUL_sample (first : Within a x) (second : Within 0x8000 y) (small : a ≤ 0xffff) : Fine (MUL x y) (Within a) := by
  refine (s32_fine (first.mul second) (by omega)).bind fun product holds => .pure ?_
  exact Within.shift holds.2

end

namespace V_Reverb

variable (r : V_Reverb)

def inCoef (R : Bool) : RevbVol := if R then .IN_COEF_R else .IN_COEF_L

def combVolume : Int :=
  |r.volume .COMB1_VOL| + |r.volume .COMB2_VOL| + |r.volume .COMB3_VOL| + |r.volume .COMB4_VOL|

def apf1Peak : Int := r.combVolume + |r.volume .APF1_VOL|

def apf2Peak : Int := 0x8000 + (|r.volume .APF1_VOL| * r.apf1Peak / 2 ^ 15 + 1) + |r.volume .APF2_VOL|

structure Quiet (R : Bool) : Prop where
  iir : |r.volume .IIR_VOL| * (|r.volume (inCoef R)| + |r.volume .WALL_VOL| + 0x8000) < 2 ^ 31
  apf1 : |r.volume .APF1_VOL| * r.apf1Peak < 2 ^ 31
  apf2 : |r.volume .APF2_VOL| * r.apf2Peak < 2 ^ 31

variable {r} {R : Bool} {input src prv : Int}

theorem volume_within (v : RevbVol) : Within 0x8000 (r.volume v) := int16_within _

theorem volume_small (v : RevbVol) : |r.volume v| ≤ 0xffff := by
  have := within_iff.mp (r.volume_within v)
  omega

theorem sample_fine (v : RevbVol) (sample : Within 0x8000 src) : Fine (MUL (r.volume v) src) (Within |r.volume v|) :=
  MUL_sample (.abs _) sample (volume_small v)

theorem reflection_fine (quiet : r.Quiet R) (loud : Within |r.volume (inCoef R)| input) (source : Within 0x8000 src)
    (before : Within 0x8000 prv) : Fine (r.reflection input src prv) fun _ => True := by
  have coef := volume_small (r := r) (inCoef R)
  have wallVol := volume_small (r := r) .WALL_VOL
  refine (sample_fine .WALL_VOL source).bind fun wall within => ?_
  refine (s32_fine (loud.add within) (by omega)).bind fun sum added => ?_
  refine (s32_fine (added.2.sub before) (by omega)).bind fun change changed => ?_
  refine (MUL_fine (.abs _) changed.2 quiet.iir).bind fun filtered within => ?_
  refine (s32_fine (within.add before) ?_).weaken fun _ _ => trivial
  have := quiet.iir
  omega

theorem combs_fine {src1 src2 src3 src4 : Int} (first : Within 0x8000 src1) (second : Within 0x8000 src2)
    (third : Within 0x8000 src3) (fourth : Within 0x8000 src4) : Fine (r.combs src1 src2 src3 src4) (Within r.combVolume) := by
  have vol1 := volume_small (r := r) .COMB1_VOL
  have vol2 := volume_small (r := r) .COMB2_VOL
  have vol3 := volume_small (r := r) .COMB3_VOL
  have vol4 := volume_small (r := r) .COMB4_VOL
  refine (sample_fine .COMB1_VOL first).bind fun comb1 within1 => ?_
  refine (sample_fine .COMB2_VOL second).bind fun comb2 within2 => ?_
  refine (sample_fine .COMB3_VOL third).bind fun comb3 within3 => ?_
  refine (sample_fine .COMB4_VOL fourth).bind fun comb4 within4 => ?_
  refine (s32_fine (within1.add within2) (by omega)).bind fun two added => ?_
  refine (s32_fine (added.2.add within3) (by omega)).bind fun three added => ?_
  exact (s32_fine (added.2.add within4) (by omega)).weaken fun _ sum => sum.2

theorem combVolume_small : r.combVolume ≤ 0xfffff := by
  have vol1 := volume_small (r := r) .COMB1_VOL
  have vol2 := volume_small (r := r) .COMB2_VOL
  have vol3 := volume_small (r := r) .COMB3_VOL
  have vol4 := volume_small (r := r) .COMB4_VOL
  unfold combVolume
  omega

theorem Quiet.apf1_small (quiet : r.Quiet R) :
    0x8000 + (|r.volume .APF1_VOL| * (r.combVolume + |r.volume .APF1_VOL|) / 2 ^ 15 + 1) ≤ 0xfffff := by
  have product := quiet.apf1
  unfold apf1Peak at product
  omega

theorem allPass_fine {vol : RevbVol} {out peak : Int} (loud : Within peak out) (source : Within 0x8000 src)
    (quiet : |r.volume vol| * (peak + |r.volume vol|) < 2 ^ 31) (small : peak ≤ 0xfffff) : Fine (r.allPass vol out src) fun filtered =>
      Within (0x8000 + (|r.volume vol| * (peak + |r.volume vol|) / 2 ^ 15 + 1)) filtered.2 := by
  have volSmall := volume_small (r := r) vol
  refine (sample_fine vol source).bind fun fed within => ?_
  refine (s32_fine (loud.sub within) (by omega)).bind fun apf filtered => ?_
  refine (MUL_fine (.abs _) filtered.2 quiet).bind fun back within => ?_
  refine (s32_fine (source.add within) (by omega)).bind fun out added => .pure added.2

end V_Reverb

namespace Effects

variable (e : Effects)

def Sized : Prop := e.EffectsStartA &&& 0x3fffff ≠ ((e.EffectsEndA &&& 0x3fffff) ||| 0xffff) + 1

/-- What a tick must find so that reverb does not overflow. -/
def Safe (Cycles : UInt32) : Prop := e.EffectsStartA < e.EffectsEndA → e.Sized ∧ e.Revb.Quiet (Cycles &&& 1 == 1)

def Kept (e e' : Effects) : Prop := e'.Revb = e.Revb ∧ e'.EffectsStartA = e.EffectsStartA ∧ e'.EffectsEndA = e.EffectsEndA ∧
  e'.FxEnable = e.FxEnable

variable {e} {Cycles : UInt32}

theorem RevbGetIndexer_fine (sized : e.Sized) (offset : UInt32) : Fine (e.RevbGetIndexer Cycles offset) (· < 0x100000) := by
  have size : (e.EffectsEndA &&& 0x3fffff ||| 0xffff) - (e.EffectsStartA &&& 0x3fffff) + 1 ≠ 0 := by
    intro zero
    apply sized
    grind
  refine ⟨_, if_neg size, ?_⟩
  rw [UInt32.toNat_and]
  exact Nat.lt_succ_of_le Nat.and_le_right

theorem word_within (ram : Ram) (addr : Nat) : Within 0x8000 (ram.word addr) := int16_within _

open V_Reverb in
theorem DoReverb_fine (safe : e.Safe Cycles) (ram : Ram) (Input : StereoOut32) : Fine (e.DoReverb Cycles ram Input) fun done =>
    Within 0x8000 done.1.Left ∧ Within 0x8000 done.1.Right ∧ Kept e done.2.1 ∧ done.2.2.cache = ram.cache := by
  unfold DoReverb
  split
  · exact .pure ⟨.zero (by decide), .zero (by decide), ⟨rfl, rfl, rfl, rfl⟩, rfl⟩
  · next on =>
      obtain ⟨sized, quiet⟩ := safe (UInt32.not_le.mp on)
      dsimp only
      iterate 14 refine (RevbGetIndexer_fine sized _).bind fun _ _ => ?_
      refine (sample_fine _ (resample_within ..)).bind fun input loud => ?_
      refine (reflection_fine quiet loud (word_within ..) (word_within ..)).bind fun same _ => ?_
      refine (reflection_fine quiet loud (word_within ..) (word_within ..)).bind fun diff _ => ?_
      refine (combs_fine (word_within ..) (word_within ..) (word_within ..) (word_within ..)).bind fun out sum => ?_
      refine (allPass_fine sum (word_within ..) quiet.apf1 combVolume_small).bind fun apf1 first => ?_
      refine (allPass_fine first (word_within ..) quiet.apf2 quiet.apf1_small).bind fun apf2 _ => ?_
      refine .pure ⟨resample_within .., resample_within .., ⟨rfl, rfl, rfl, rfl⟩, ?_⟩
      split
      · rfl
      · rfl

end Effects

end Pcsx2.Spu2
