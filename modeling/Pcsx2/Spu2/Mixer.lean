import Pcsx2.Foundation.Checked
import Pcsx2.Spu2.DecodeFifo
import Pcsx2.Spu2.Reverb

/-!
# The table of the interpolation

The four taps of a phase between two samples.
-/

namespace Pcsx2.Spu2
open Foundation

/-- The rows of `interpTable`. -/
def interpRows : List (Int × Int × Int × Int) := [
  (0x12C7, 0x59B3, 0x1307, -0x0001), (0x1288, 0x59B2, 0x1347, -0x0001), (0x1249, 0x59B0, 0x1388, -0x0001),
  (0x120B, 0x59AD, 0x13C9, -0x0001), (0x11CD, 0x59A9, 0x140B, -0x0001), (0x118F, 0x59A4, 0x144D, -0x0001),
  (0x1153, 0x599E, 0x1490, -0x0001), (0x1116, 0x5997, 0x14D4, -0x0001), (0x10DB, 0x598F, 0x1517, -0x0001),
  (0x109F, 0x5986, 0x155C, -0x0001), (0x1065, 0x597C, 0x15A0, -0x0001), (0x102A, 0x5971, 0x15E6, -0x0001),
  (0x0FF1, 0x5965, 0x162C, -0x0001), (0x0FB7, 0x5958, 0x1672, -0x0001), (0x0F7F, 0x5949, 0x16B9, -0x0001),
  (0x0F46, 0x593A, 0x1700, -0x0001), (0x0F0F, 0x592A, 0x1747, 0x0000), (0x0ED7, 0x5919, 0x1790, 0x0000),
  (0x0EA1, 0x5907, 0x17D8, 0x0000), (0x0E6B, 0x58F4, 0x1821, 0x0000), (0x0E35, 0x58E0, 0x186B, 0x0000),
  (0x0E00, 0x58CB, 0x18B5, 0x0000), (0x0DCB, 0x58B5, 0x1900, 0x0000), (0x0D97, 0x589E, 0x194B, 0x0001),
  (0x0D63, 0x5886, 0x1996, 0x0001), (0x0D30, 0x586D, 0x19E2, 0x0001), (0x0CFD, 0x5853, 0x1A2E, 0x0001),
  (0x0CCB, 0x5838, 0x1A7B, 0x0002), (0x0C99, 0x581C, 0x1AC8, 0x0002), (0x0C68, 0x57FF, 0x1B16, 0x0002),
  (0x0C38, 0x57E2, 0x1B64, 0x0003), (0x0C07, 0x57C3, 0x1BB3, 0x0003), (0x0BD8, 0x57A3, 0x1C02, 0x0003),
  (0x0BA9, 0x5782, 0x1C51, 0x0004), (0x0B7A, 0x5761, 0x1CA1, 0x0004), (0x0B4C, 0x573E, 0x1CF1, 0x0005),
  (0x0B1E, 0x571B, 0x1D42, 0x0005), (0x0AF1, 0x56F6, 0x1D93, 0x0006), (0x0AC4, 0x56D1, 0x1DE5, 0x0007),
  (0x0A98, 0x56AB, 0x1E37, 0x0007), (0x0A6C, 0x5684, 0x1E89, 0x0008), (0x0A40, 0x565B, 0x1EDC, 0x0009),
  (0x0A16, 0x5632, 0x1F2F, 0x0009), (0x09EB, 0x5609, 0x1F82, 0x000A), (0x09C1, 0x55DE, 0x1FD6, 0x000B),
  (0x0998, 0x55B2, 0x202A, 0x000C), (0x096F, 0x5585, 0x207F, 0x000D), (0x0946, 0x5558, 0x20D4, 0x000E),
  (0x091E, 0x5529, 0x2129, 0x000F), (0x08F7, 0x54FA, 0x217F, 0x0010), (0x08D0, 0x54CA, 0x21D5, 0x0011),
  (0x08A9, 0x5499, 0x222C, 0x0012), (0x0883, 0x5467, 0x2282, 0x0013), (0x085D, 0x5434, 0x22DA, 0x0015),
  (0x0838, 0x5401, 0x2331, 0x0016), (0x0813, 0x53CC, 0x2389, 0x0018), (0x07EF, 0x5397, 0x23E1, 0x0019),
  (0x07CB, 0x5361, 0x2439, 0x001B), (0x07A7, 0x532A, 0x2492, 0x001C), (0x0784, 0x52F3, 0x24EB, 0x001E),
  (0x0762, 0x52BA, 0x2545, 0x0020), (0x0740, 0x5281, 0x259E, 0x0021), (0x071E, 0x5247, 0x25F8, 0x0023),
  (0x06FD, 0x520C, 0x2653, 0x0025), (0x06DC, 0x51D0, 0x26AD, 0x0027), (0x06BB, 0x5194, 0x2708, 0x0029),
  (0x069B, 0x5156, 0x2763, 0x002C), (0x067C, 0x5118, 0x27BE, 0x002E), (0x065C, 0x50DA, 0x281A, 0x0030),
  (0x063E, 0x509A, 0x2876, 0x0033), (0x061F, 0x505A, 0x28D2, 0x0035), (0x0601, 0x5019, 0x292E, 0x0038),
  (0x05E4, 0x4FD7, 0x298B, 0x003A), (0x05C7, 0x4F95, 0x29E7, 0x003D), (0x05AA, 0x4F52, 0x2A44, 0x0040),
  (0x058E, 0x4F0E, 0x2AA1, 0x0043), (0x0572, 0x4EC9, 0x2AFF, 0x0046), (0x0556, 0x4E84, 0x2B5C, 0x0049),
  (0x053B, 0x4E3E, 0x2BBA, 0x004D), (0x0520, 0x4DF7, 0x2C18, 0x0050), (0x0506, 0x4DB0, 0x2C76, 0x0054),
  (0x04EC, 0x4D68, 0x2CD4, 0x0057), (0x04D2, 0x4D20, 0x2D33, 0x005B), (0x04B9, 0x4CD7, 0x2D91, 0x005F),
  (0x04A0, 0x4C8D, 0x2DF0, 0x0063), (0x0488, 0x4C42, 0x2E4F, 0x0067), (0x0470, 0x4BF7, 0x2EAE, 0x006B),
  (0x0458, 0x4BAC, 0x2F0D, 0x006F), (0x0441, 0x4B5F, 0x2F6C, 0x0074), (0x042A, 0x4B13, 0x2FCC, 0x0078),
  (0x0413, 0x4AC5, 0x302B, 0x007D), (0x03FC, 0x4A77, 0x308B, 0x0082), (0x03E7, 0x4A29, 0x30EA, 0x0087),
  (0x03D1, 0x49D9, 0x314A, 0x008C), (0x03BC, 0x498A, 0x31AA, 0x0091), (0x03A7, 0x493A, 0x3209, 0x0096),
  (0x0392, 0x48E9, 0x3269, 0x009C), (0x037E, 0x4898, 0x32C9, 0x00A1), (0x036A, 0x4846, 0x3329, 0x00A7),
  (0x0356, 0x47F4, 0x3389, 0x00AD), (0x0343, 0x47A1, 0x33E9, 0x00B3), (0x0330, 0x474E, 0x3449, 0x00BA),
  (0x031D, 0x46FA, 0x34A9, 0x00C0), (0x030B, 0x46A6, 0x3509, 0x00C7), (0x02F9, 0x4651, 0x3569, 0x00CD),
  (0x02E7, 0x45FC, 0x35C9, 0x00D4), (0x02D6, 0x45A6, 0x3629, 0x00DB), (0x02C4, 0x4550, 0x3689, 0x00E3),
  (0x02B4, 0x44FA, 0x36E8, 0x00EA), (0x02A3, 0x44A3, 0x3748, 0x00F2), (0x0293, 0x444C, 0x37A8, 0x00FA),
  (0x0283, 0x43F4, 0x3807, 0x0101), (0x0273, 0x439C, 0x3867, 0x010A), (0x0264, 0x4344, 0x38C6, 0x0112),
  (0x0255, 0x42EB, 0x3926, 0x011B), (0x0246, 0x4292, 0x3985, 0x0123), (0x0237, 0x4239, 0x39E4, 0x012C),
  (0x0229, 0x41DF, 0x3A43, 0x0135), (0x021B, 0x4185, 0x3AA2, 0x013F), (0x020D, 0x412A, 0x3B00, 0x0148),
  (0x0200, 0x40D0, 0x3B5F, 0x0152), (0x01F2, 0x4074, 0x3BBD, 0x015C), (0x01E5, 0x4019, 0x3C1B, 0x0166),
  (0x01D9, 0x3FBD, 0x3C79, 0x0171), (0x01CC, 0x3F62, 0x3CD7, 0x017B), (0x01C0, 0x3F05, 0x3D35, 0x0186),
  (0x01B4, 0x3EA9, 0x3D92, 0x0191), (0x01A8, 0x3E4C, 0x3DEF, 0x019C), (0x019C, 0x3DEF, 0x3E4C, 0x01A8),
  (0x0191, 0x3D92, 0x3EA9, 0x01B4), (0x0186, 0x3D35, 0x3F05, 0x01C0), (0x017B, 0x3CD7, 0x3F62, 0x01CC),
  (0x0171, 0x3C79, 0x3FBD, 0x01D9), (0x0166, 0x3C1B, 0x4019, 0x01E5), (0x015C, 0x3BBD, 0x4074, 0x01F2),
  (0x0152, 0x3B5F, 0x40D0, 0x0200), (0x0148, 0x3B00, 0x412A, 0x020D), (0x013F, 0x3AA2, 0x4185, 0x021B),
  (0x0135, 0x3A43, 0x41DF, 0x0229), (0x012C, 0x39E4, 0x4239, 0x0237), (0x0123, 0x3985, 0x4292, 0x0246),
  (0x011B, 0x3926, 0x42EB, 0x0255), (0x0112, 0x38C6, 0x4344, 0x0264), (0x010A, 0x3867, 0x439C, 0x0273),
  (0x0101, 0x3807, 0x43F4, 0x0283), (0x00FA, 0x37A8, 0x444C, 0x0293), (0x00F2, 0x3748, 0x44A3, 0x02A3),
  (0x00EA, 0x36E8, 0x44FA, 0x02B4), (0x00E3, 0x3689, 0x4550, 0x02C4), (0x00DB, 0x3629, 0x45A6, 0x02D6),
  (0x00D4, 0x35C9, 0x45FC, 0x02E7), (0x00CD, 0x3569, 0x4651, 0x02F9), (0x00C7, 0x3509, 0x46A6, 0x030B),
  (0x00C0, 0x34A9, 0x46FA, 0x031D), (0x00BA, 0x3449, 0x474E, 0x0330), (0x00B3, 0x33E9, 0x47A1, 0x0343),
  (0x00AD, 0x3389, 0x47F4, 0x0356), (0x00A7, 0x3329, 0x4846, 0x036A), (0x00A1, 0x32C9, 0x4898, 0x037E),
  (0x009C, 0x3269, 0x48E9, 0x0392), (0x0096, 0x3209, 0x493A, 0x03A7), (0x0091, 0x31AA, 0x498A, 0x03BC),
  (0x008C, 0x314A, 0x49D9, 0x03D1), (0x0087, 0x30EA, 0x4A29, 0x03E7), (0x0082, 0x308B, 0x4A77, 0x03FC),
  (0x007D, 0x302B, 0x4AC5, 0x0413), (0x0078, 0x2FCC, 0x4B13, 0x042A), (0x0074, 0x2F6C, 0x4B5F, 0x0441),
  (0x006F, 0x2F0D, 0x4BAC, 0x0458), (0x006B, 0x2EAE, 0x4BF7, 0x0470), (0x0067, 0x2E4F, 0x4C42, 0x0488),
  (0x0063, 0x2DF0, 0x4C8D, 0x04A0), (0x005F, 0x2D91, 0x4CD7, 0x04B9), (0x005B, 0x2D33, 0x4D20, 0x04D2),
  (0x0057, 0x2CD4, 0x4D68, 0x04EC), (0x0054, 0x2C76, 0x4DB0, 0x0506), (0x0050, 0x2C18, 0x4DF7, 0x0520),
  (0x004D, 0x2BBA, 0x4E3E, 0x053B), (0x0049, 0x2B5C, 0x4E84, 0x0556), (0x0046, 0x2AFF, 0x4EC9, 0x0572),
  (0x0043, 0x2AA1, 0x4F0E, 0x058E), (0x0040, 0x2A44, 0x4F52, 0x05AA), (0x003D, 0x29E7, 0x4F95, 0x05C7),
  (0x003A, 0x298B, 0x4FD7, 0x05E4), (0x0038, 0x292E, 0x5019, 0x0601), (0x0035, 0x28D2, 0x505A, 0x061F),
  (0x0033, 0x2876, 0x509A, 0x063E), (0x0030, 0x281A, 0x50DA, 0x065C), (0x002E, 0x27BE, 0x5118, 0x067C),
  (0x002C, 0x2763, 0x5156, 0x069B), (0x0029, 0x2708, 0x5194, 0x06BB), (0x0027, 0x26AD, 0x51D0, 0x06DC),
  (0x0025, 0x2653, 0x520C, 0x06FD), (0x0023, 0x25F8, 0x5247, 0x071E), (0x0021, 0x259E, 0x5281, 0x0740),
  (0x0020, 0x2545, 0x52BA, 0x0762), (0x001E, 0x24EB, 0x52F3, 0x0784), (0x001C, 0x2492, 0x532A, 0x07A7),
  (0x001B, 0x2439, 0x5361, 0x07CB), (0x0019, 0x23E1, 0x5397, 0x07EF), (0x0018, 0x2389, 0x53CC, 0x0813),
  (0x0016, 0x2331, 0x5401, 0x0838), (0x0015, 0x22DA, 0x5434, 0x085D), (0x0013, 0x2282, 0x5467, 0x0883),
  (0x0012, 0x222C, 0x5499, 0x08A9), (0x0011, 0x21D5, 0x54CA, 0x08D0), (0x0010, 0x217F, 0x54FA, 0x08F7),
  (0x000F, 0x2129, 0x5529, 0x091E), (0x000E, 0x20D4, 0x5558, 0x0946), (0x000D, 0x207F, 0x5585, 0x096F),
  (0x000C, 0x202A, 0x55B2, 0x0998), (0x000B, 0x1FD6, 0x55DE, 0x09C1), (0x000A, 0x1F82, 0x5609, 0x09EB),
  (0x0009, 0x1F2F, 0x5632, 0x0A16), (0x0009, 0x1EDC, 0x565B, 0x0A40), (0x0008, 0x1E89, 0x5684, 0x0A6C),
  (0x0007, 0x1E37, 0x56AB, 0x0A98), (0x0007, 0x1DE5, 0x56D1, 0x0AC4), (0x0006, 0x1D93, 0x56F6, 0x0AF1),
  (0x0005, 0x1D42, 0x571B, 0x0B1E), (0x0005, 0x1CF1, 0x573E, 0x0B4C), (0x0004, 0x1CA1, 0x5761, 0x0B7A),
  (0x0004, 0x1C51, 0x5782, 0x0BA9), (0x0003, 0x1C02, 0x57A3, 0x0BD8), (0x0003, 0x1BB3, 0x57C3, 0x0C07),
  (0x0003, 0x1B64, 0x57E2, 0x0C38), (0x0002, 0x1B16, 0x57FF, 0x0C68), (0x0002, 0x1AC8, 0x581C, 0x0C99),
  (0x0002, 0x1A7B, 0x5838, 0x0CCB), (0x0001, 0x1A2E, 0x5853, 0x0CFD), (0x0001, 0x19E2, 0x586D, 0x0D30),
  (0x0001, 0x1996, 0x5886, 0x0D63), (0x0001, 0x194B, 0x589E, 0x0D97), (0x0000, 0x1900, 0x58B5, 0x0DCB),
  (0x0000, 0x18B5, 0x58CB, 0x0E00), (0x0000, 0x186B, 0x58E0, 0x0E35), (0x0000, 0x1821, 0x58F4, 0x0E6B),
  (0x0000, 0x17D8, 0x5907, 0x0EA1), (0x0000, 0x1790, 0x5919, 0x0ED7), (0x0000, 0x1747, 0x592A, 0x0F0F),
  (-0x0001, 0x1700, 0x593A, 0x0F46), (-0x0001, 0x16B9, 0x5949, 0x0F7F), (-0x0001, 0x1672, 0x5958, 0x0FB7),
  (-0x0001, 0x162C, 0x5965, 0x0FF1), (-0x0001, 0x15E6, 0x5971, 0x102A), (-0x0001, 0x15A0, 0x597C, 0x1065),
  (-0x0001, 0x155C, 0x5986, 0x109F), (-0x0001, 0x1517, 0x598F, 0x10DB), (-0x0001, 0x14D4, 0x5997, 0x1116),
  (-0x0001, 0x1490, 0x599E, 0x1153), (-0x0001, 0x144D, 0x59A4, 0x118F), (-0x0001, 0x140B, 0x59A9, 0x11CD),
  (-0x0001, 0x13C9, 0x59AD, 0x120B), (-0x0001, 0x1388, 0x59B0, 0x1249), (-0x0001, 0x1347, 0x59B2, 0x1288),
  (-0x0001, 0x1307, 0x59B3, 0x12C7)]

def interpTable (phase : Nat) : Int × Int × Int × Int := interpRows.getD phase (0, 0, 0, 0)

theorem interpTable_taps (phase : Nat) : |(interpTable phase).1| + |(interpTable phase).2.1| +
    |(interpTable phase).2.2.1| + |(interpTable phase).2.2.2| ≤ 0x7fff := by
  have rows : ∀ row ∈ interpRows, |row.1| + |row.2.1| + |row.2.2.1| + |row.2.2.2| ≤ 0x7fff := by decide +kernel
  rw [interpTable, List.getD_eq_getElem?_getD]
  cases found : interpRows[phase]? with
  | none => decide
  | some row => exact rows row (List.mem_of_getElem? found)

end Pcsx2.Spu2

/-!
# The mixer

A tick mixes the voices of both cores, core 0 into core 1, and gives one sample. Each signed intermediate result has to
fit into 32 bits, or there is no sample.
-/

namespace Pcsx2.Spu2
open Foundation

def checkAll : List Int → Option Unit
  | [] => some ()
  | n :: rest => do
    let _ ← s32 n
    checkAll rest

/-- `(volume * data) >> 15`. -/
def ApplyVolume (data volume : Int) : Option Int := MUL volume data

structure V_VolumeLR where
  Left : Int
  Right : Int

structure V_VolumeSlideLR where
  Left : V_VolumeSlide
  Right : V_VolumeSlide

def StereoOut32.ApplyVolume (data : StereoOut32) (volume : V_VolumeLR) : Option StereoOut32 := do
  let Left ← Spu2.ApplyVolume data.Left volume.Left
  let Right ← Spu2.ApplyVolume data.Right volume.Right
  return ⟨Left, Right⟩

/-! ## Envelopes and slides -/

/-- The signed intermediate results of `Calculate`. -/
def V_ADSR.intermediates (a : V_ADSR) : List Int :=
  let p := UpdateCache a.reg32 a.Phase
  let level_inc := p.Step * 2 ^ (11 - p.Shift)
  [level_inc, level_inc * a.Value, a.Value + p.level_inc a.Value]

def V_ADSR.CalculateS32 (a : V_ADSR) : Option V_ADSR := do
  let _ ← checkAll (if a.Phase = PHASE_STOPPED then [] else a.intermediates)
  return a.CalculateADSR

namespace V_VolumeSlide

def intermediates (s : V_VolumeSlide) : List Int :=
  let step_size : Int := if s.Decr then -(7 - s.Step) - 1 else 7 - s.Step
  let level_inc := step_size * 2 ^ (11 - s.Shift)
  [level_inc, level_inc * s.Value, -level_inc, s.Value + s.level_inc]

def UpdateS32 (s : V_VolumeSlide) : Option V_VolumeSlide := do
  let _ ← checkAll (if s.Enable then s.intermediates else [])
  return s.Update

end V_VolumeSlide

def V_VolumeSlideLR.UpdateS32 (volume : V_VolumeSlideLR) : Option V_VolumeSlideLR := do
  let Left ← volume.Left.UpdateS32
  let Right ← volume.Right.UpdateS32
  return ⟨Left, Right⟩

def V_VolumeSlideLR.Value (volume : V_VolumeSlideLR) : V_VolumeLR := ⟨volume.Left.Value, volume.Right.Value⟩

/-! ## Voices -/

/-- `decoder` is what `DecodeSamples` uses of a voice. -/
structure V_Voice where
  Volume : V_VolumeSlideLR
  ADSR : V_ADSR
  Pitch : UInt16
  Modulated : Bool
  Noise : Bool
  SP : Int
  OutX : Int
  decoder : Voice

namespace V_Voice

def Start (vc : V_Voice) : V_Voice := { vc with ADSR := vc.ADSR.Attack, SP := 0, decoder := vc.decoder.start }

def DecodeSamples (vc : V_Voice) (ram : Ram) : Ram × V_Voice :=
  let playing := decide (vc.ADSR.Phase ≠ PHASE_STOPPED)
  let decoded := decodeSamples ram { vc.decoder with playing }
  (decoded.1, { vc with
    decoder := decoded.2
    ADSR := if playing && !decoded.2.playing then vc.ADSR.Stop else vc.ADSR })

def GetVoiceValues (vc : V_Voice) : Option Int := do
  let taps := interpTable (vc.SP / 16 % 256).toNat
  let out ← MUL taps.1 (vc.decoder.slots.getD 0 0)
  let second ← MUL taps.2.1 (vc.decoder.slots.getD 1 0)
  let out ← s32 (out + second)
  let third ← MUL taps.2.2.1 (vc.decoder.slots.getD 2 0)
  let out ← s32 (out + third)
  let fourth ← MUL taps.2.2.2 (vc.decoder.slots.getD 3 0)
  s32 (out + fourth)

/-- `OutX` is that of the voice before. -/
def pitch (vc : V_Voice) (voiceidx : Nat) (OutX : Int) : Option Int :=
  if vc.Modulated = false ∨ voiceidx = 0 then some vc.Pitch.toNat
  else do
    let sum ← s32 (32768 + OutX)
    let product ← s32 (vc.Pitch.toNat * sum)
    return clamp 0 0x3fff (product / 2 ^ 15)

def UpdatePitch (vc : V_Voice) (voiceidx : Nat) (OutX : Int) : Option V_Voice := do
  let pitch ← vc.pitch voiceidx OutX
  let SP ← s32 (vc.SP + min pitch 0x3fff)
  return { vc with SP }

def ConsumeSamples (vc : V_Voice) : V_Voice :=
  { vc with
    decoder := vc.decoder.consumeSamples (.ofNat (vc.SP / 2 ^ 12).toNat)
    SP := vc.SP % 2 ^ 12 }

/-- The part of `MixVoice` for a voice that plays: its value, and that with its volume. -/
def sound (vc : V_Voice) (NoiseOut : UInt32) : Option (Int × StereoOut32 × V_Voice) :=
  if vc.ADSR.Phase = PHASE_STOPPED then return (0, .Empty, vc)
  else do
    let Value ← (if vc.Noise then some NoiseOut.toUInt16.toInt16.toInt else vc.GetVoiceValues)
    let ADSR ← vc.ADSR.CalculateS32
    let Value ← Spu2.ApplyVolume Value ADSR.Value
    let voiceOut ← (⟨Value, Value⟩ : StereoOut32).ApplyVolume vc.Volume.Value
    return (Value, voiceOut, { vc with ADSR, OutX := Value })

end V_Voice

/-- There are two cores. -/
scoped instance two_cores : NeZero 2 := ⟨by decide⟩

def writeBack (ram : Ram) (core : Fin 2) (OutPos voiceidx : Nat) (Value : Int) : Ram :=
  if voiceidx = 1 then ram.put ((if core = 0 then 0x400 else 0xc00) + OutPos) Value
  else if voiceidx = 3 then ram.put ((if core = 0 then 0x600 else 0xe00) + OutPos) Value
  else ram

def V_Voice.MixVoice (vc : V_Voice) (ram : Ram) (core : Fin 2) (OutPos : Nat) (NoiseOut : UInt32) (voiceidx : Nat) (OutX : Int) :
    Option (StereoOut32 × V_Voice × Ram) := do
  let Volume ← vc.Volume.UpdateS32
  let decoded := { vc with Volume }.DecodeSamples ram
  let sounded ← decoded.2.sound NoiseOut
  let pitched ← sounded.2.2.UpdatePitch voiceidx OutX
  return (sounded.2.1, pitched.ConsumeSamples, writeBack decoded.1 core OutPos voiceidx sounded.1)

/-! ## The voices of a core -/

structure V_VoiceGates where
  DryL : Bool
  DryR : Bool
  WetL : Bool
  WetR : Bool

structure V_CoreGates where
  InpL : Bool
  InpR : Bool
  SndL : Bool
  SndR : Bool
  ExtL : Bool
  ExtR : Bool

/-- A gate is -1 or 0, and its value is combined by `&`. -/
def gate (isOpen : Bool) (x : Int) : Int := if isOpen then x else 0

structure VoiceMixSet where
  Dry : StereoOut32
  Wet : StereoOut32

def VoiceMixSet.Empty : VoiceMixSet := ⟨.Empty, .Empty⟩

def VoiceMixSet.add (dest : VoiceMixSet) (VVal : StereoOut32) (gates : V_VoiceGates) : Option VoiceMixSet := do
  let DryL ← s32 (dest.Dry.Left + gate gates.DryL VVal.Left)
  let DryR ← s32 (dest.Dry.Right + gate gates.DryR VVal.Right)
  let WetL ← s32 (dest.Wet.Left + gate gates.WetL VVal.Left)
  let WetR ← s32 (dest.Wet.Right + gate gates.WetR VVal.Right)
  return ⟨⟨DryL, DryR⟩, ⟨WetL, WetR⟩⟩

/-- The gates of a voice by their register: `VMIXL`, `VMIXR`, `VMIXEL` and `VMIXER`. -/
inductive VoiceGate
  | DryL | DryR | WetL | WetR
  deriving DecidableEq

def V_VoiceGates.set (gates : V_VoiceGates) (value : Bool) : VoiceGate → V_VoiceGates
  | .DryL => { gates with DryL := value }
  | .DryR => { gates with DryR := value }
  | .WetL => { gates with WetL := value }
  | .WetR => { gates with WetR := value }

structure V_Core where
  VoiceGates : Nat → V_VoiceGates
  DryGate : V_CoreGates
  WetGate : V_CoreGates
  MasterVol : V_VolumeSlideLR
  ExtVol : V_VolumeLR
  InpVol : V_VolumeLR
  FxVol : V_VolumeLR
  Voices : Nat → V_Voice
  effects : Effects
  Mute : Bool
  NoiseClk : Nat
  NoiseCnt : UInt32
  NoiseOut : UInt32
  KeyOn : UInt32
  KeyOff : UInt32
  VMIX : VoiceGate → UInt32

def V_Core.mixVoices (c : V_Core) (core : Fin 2) (OutPos : Nat) : List Nat → Ram → VoiceMixSet → Option (VoiceMixSet × V_Core × Ram)
  | [], ram, dest => return (dest, c, ram)
  | voiceidx :: rest, ram, dest => do
    let mixed ← (c.Voices voiceidx).MixVoice ram core OutPos c.NoiseOut voiceidx (c.Voices (voiceidx - 1)).OutX
    let dest ← dest.add mixed.1 (c.VoiceGates voiceidx)
    mixVoices { c with Voices := Function.update c.Voices voiceidx mixed.2.1 } core OutPos rest mixed.2.2 dest

def NumVoices : Nat := 24

def V_Core.MixCoreVoices (c : V_Core) (core : Fin 2) (OutPos : Nat) (ram : Ram) : Option (VoiceMixSet × V_Core × Ram) :=
  c.mixVoices core OutPos (List.range NumVoices) ram .Empty

/-! ## Noise -/

def noise_add : List UInt32 := [
  1, 0, 0, 1, 0, 1, 1, 0, 1, 0, 0, 1, 0, 1, 1, 0, 1, 0, 0, 1, 0, 1, 1, 0, 1, 0, 0, 1, 0, 1, 1, 0,
  0, 1, 1, 0, 1, 0, 0, 1, 0, 1, 1, 0, 1, 0, 0, 1, 0, 1, 1, 0, 1, 0, 0, 1, 0, 1, 1, 0, 1, 0, 0, 1]

def noise_freq_add : List UInt32 := [0, 84, 140, 180, 210]

def V_Core.UpdateNoise (c : V_Core) : V_Core :=
  let level := UInt32.ofNat (0x8000 / 2 ^ (c.NoiseClk / 4)) <<< 16
  let freq := noise_freq_add.getD (c.NoiseClk % 4) 0
  let NoiseCnt := c.NoiseCnt + 0x10000 + freq
  let NoiseCnt := if 210 ≤ NoiseCnt &&& 0xffff then NoiseCnt + 0x10000 - freq else NoiseCnt
  if level ≤ NoiseCnt then
    { c with
      NoiseCnt := NoiseCnt % level
      NoiseOut := (c.NoiseOut <<< 1) ||| noise_add.getD (c.NoiseOut >>> 10 &&& 63).toNat 0 }
  else { c with NoiseCnt }

/-! ## The cores -/

def V_CoreGates.mix (gates : V_CoreGates) (Input Snd Ext : StereoOut32) : Option StereoOut32 := do
  let Left ← s32 (gate gates.InpL Input.Left + gate gates.SndL Snd.Left)
  let Right ← s32 (gate gates.InpR Input.Right + gate gates.SndR Snd.Right)
  let Left ← s32 (Left + gate gates.ExtL Ext.Left)
  let Right ← s32 (Right + gate gates.ExtR Ext.Right)
  return ⟨Left, Right⟩

def StereoOut32.add (first second : StereoOut32) : Option StereoOut32 := do
  let Left ← s32 (first.Left + second.Left)
  let Right ← s32 (first.Right + second.Right)
  return ⟨Left, Right⟩

def Ram.putSample (ram : Ram) (left right OutPos : Nat) (sample : StereoOut32) : Ram :=
  (ram.put (left + OutPos) sample.Left).put (right + OutPos) sample.Right

def V_Core.MixCore (c : V_Core) (core : Fin 2) (Cycles : UInt32) (OutPos : Nat) (ram : Ram) (inVoices : VoiceMixSet)
    (Input Ext : StereoOut32) : Option (StereoOut32 × V_Core × Ram) := do
  let MasterVol ← c.MasterVol.UpdateS32
  let c := { c with MasterVol }.UpdateNoise
  let Dry := inVoices.Dry.clamp_mix
  let Wet := inVoices.Wet.clamp_mix
  let area := if core = 0 then 0x1000 else 0x1800
  let ram := (ram.putSample area (area + 0x200) OutPos Dry).putSample (area + 0x400) (area + 0x600) OutPos Wet
  let TD ← c.DryGate.mix Input Dry Ext
  let TW ← c.WetGate.mix Input Wet Ext
  let done ← c.effects.DoReverb Cycles ram TW
  let RV ← done.1.ApplyVolume c.FxVol
  let out ← TD.add RV
  return (out, { c with effects := done.2.1 }, done.2.2)

/-! ## A tick -/

/-- `Cores` and the other globals that the mixer uses. -/
structure Mixer where
  Cores : Fin 2 → V_Core
  ram : Ram
  PlayMode : Nat
  SpdifOut : UInt16
  SpdifMode : UInt16
  OutPos : Nat
  Cycles : UInt32

/-- What `ReadInput` returns. -/
def Ram.input (ram : Ram) (core : Fin 2) (PlayMode OutPos : Nat) : StereoOut32 :=
  if core = 1 ∨ PlayMode.testBit 1 = false then
    ⟨ram.word (0x2000 + core * 0x400 + OutPos), ram.word (0x2200 + core * 0x400 + OutPos)⟩
  else .Empty

/-- What `ReadInput_HiFi` of core 1 returns: the upper words of two 32-bit samples. -/
def Ram.inputHiFi (ram : Ram) (OutPos : Nat) : StereoOut32 :=
  let ReadIndex := OutPos * 2 % 0x200
  let sample (addr : Nat) : Int := (ram.word (addr + 1) * 2 ^ 16 + (ram.mem addr).toNat) / 2 ^ 16
  ⟨sample (0x2400 + ReadIndex), sample (0x2600 + ReadIndex)⟩

/-- The words that `AutoDMAReadBuffer` stores after the input was read. -/
def Ram.refill (ram : Ram) (words : List (Nat × UInt16)) : Ram := { ram with mem := perform ram.mem words }

namespace Mixer

variable (s : Mixer)

def setCore (core : Fin 2) (c : V_Core) : Mixer := { s with Cores := Function.update s.Cores core c }

/-- `words` are what the AutoDMA of a core stores when its input is read. -/
def spu2Mix (words : Fin 2 → List (Nat × UInt16)) : Option (StereoOut32 × Mixer) := do
  let cdda := s.PlayMode.testBit 3
  let InputData0 ← (s.ram.input 0 s.PlayMode s.OutPos).ApplyVolume (s.Cores 0).InpVol
  let ram := s.ram.refill (words 0)
  let InputData1 ← (if cdda then some .Empty else (ram.input 1 s.PlayMode s.OutPos).ApplyVolume (s.Cores 1).InpVol)
  let ram := if cdda then ram else ram.refill (words 1)
  let voices0 ← (s.Cores 0).MixCoreVoices 0 s.OutPos ram
  let voices1 ← (s.Cores 1).MixCoreVoices 1 s.OutPos voices0.2.2
  let core0 ← voices0.2.1.MixCore 0 s.Cycles s.OutPos voices1.2.2 voices0.1 InputData0 .Empty
  let Ext ← (if s.PlayMode.testBit 2 || core0.2.1.Mute then some .Empty
    else core0.1.clamp_mix.ApplyVolume core0.2.1.MasterVol.Value)
  let ram := core0.2.2.putSample 0x800 0xA00 s.OutPos Ext
  let Ext ← Ext.ApplyVolume voices1.2.1.ExtVol
  let core1 ← voices1.2.1.MixCore 1 s.Cycles s.OutPos ram voices1.1 InputData1 Ext
  let Out ← (if cdda then some (core1.2.2.inputHiFi s.OutPos)
    else core1.1.clamp_mix.ApplyVolume core1.2.1.MasterVol.Value)
  let ram := if cdda then core1.2.2.refill (words 1) else core1.2.2
  return (Out, { s with
    Cores := fun core => if core = 0 then core0.2.1 else core1.2.1
    ram
    OutPos := if 0x200 ≤ s.OutPos + 1 then 0 else s.OutPos + 1 })

end Mixer

/-- `StopVoices` and `StartVoices`. -/
def V_Core.keys (c : V_Core) : V_Core :=
  { c with
    Voices := fun voiceidx =>
      let vc := c.Voices voiceidx
      let vc := if c.KeyOff.toNat.testBit voiceidx then { vc with ADSR := vc.ADSR.Release } else vc
      if c.KeyOn.toNat.testBit voiceidx then vc.Start else vc
    KeyOff := 0
    KeyOn := 0 }

/-- What `TimeUpdate` does before it mixes. -/
def Mixer.beforeMix (s : Mixer) : Mixer := { s with Cycles := s.Cycles + 1, Cores := fun core => (s.Cores core).keys }

def Mixer.tick (s : Mixer) (words : Fin 2 → List (Nat × UInt16)) : Option (StereoOut32 × Mixer) := s.beforeMix.spu2Mix words

end Pcsx2.Spu2
