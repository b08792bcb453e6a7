import Pcsx2.Spu2.Mixer

/-!
# Registers of the mixer

What the guest can write between two ticks, the rest of the machine's stores to the RAM, and the state after `Init`.
-/

namespace Pcsx2.Spu2
open Foundation

def SetLoWord (src : UInt32) (value : UInt16) : UInt32 := (src &&& (0xffff0000 : UInt32)) ||| value.toUInt32

def SetHiWord (src : UInt32) (value : UInt16) : UInt32 := (src &&& (0xffff : UInt32)) ||| (value.toUInt32 <<< (16 : UInt32))

def setWord (hi : Bool) (src : UInt32) (value : UInt16) : UInt32 := if hi then SetHiWord src value else SetLoWord src value

/-! ## Voices -/

inductive VoiceParam
  | VOLL | VOLR | PITCH | ADSR1 | ADSR2 | ENVX | VOLXL | VOLXR

def V_ADSR.setReg (a : V_ADSR) (hi : Bool) (value : UInt16) : V_ADSR := { a with reg32 := setWord hi a.reg32 value }

/-- `RegWrite_VoiceParams`. -/
def V_Voice.writeParam (vc : V_Voice) (param : VoiceParam) (value : UInt16) : V_Voice :=
  match param with
  | .VOLL => { vc with Volume := { vc.Volume with Left := vc.Volume.Left.RegSet value } }
  | .VOLR => { vc with Volume := { vc.Volume with Right := vc.Volume.Right.RegSet value } }
  | .PITCH => { vc with Pitch := value }
  | .ADSR1 => { vc with ADSR := vc.ADSR.setReg false value }
  | .ADSR2 => { vc with ADSR := vc.ADSR.setReg true value }
  | .ENVX => { vc with ADSR := { vc.ADSR with Value := value.toNat } }
  | .VOLXL => vc
  | .VOLXR => vc

/-- `RegWrite_VoiceAddr`. -/
def V_Voice.writeAddr (vc : V_Voice) (address : VoiceAddr) (value : UInt16) : V_Voice :=
  { vc with decoder := vc.decoder.regWrite_VoiceAddr address value }

/-! ## Cores -/

/-- The registers of a core; `hi` is the upper one of two words. -/
inductive CoreParam
  | ATTR | MMIX | EEA
  | PMON (hi : Bool)
  | NON (hi : Bool)
  | VMIX (voiceGate : VoiceGate) (hi : Bool)
  | KON (hi : Bool)
  | KOFF (hi : Bool)
  | ESA (hi : Bool)
  | Revb (reg : RevbAddr) (hi : Bool)
  | MVOLL | MVOLR | EVOLL | EVOLR | AVOLL | AVOLR | BVOLL | BVOLR
  | RevbVol (reg : RevbVol)

def voiceBit (hi : Bool) (value : UInt16) (vc : Nat) : Option Bool :=
  if hi then (if 16 ≤ vc ∧ vc < 24 then some (value.toNat.testBit (vc - 16)) else none)
  else if vc < 16 then some (value.toNat.testBit vc) else none

def V_Core.vx_SetSomeBits (c : V_Core) (reg : VoiceGate) (hi : Bool) (value : UInt16) : V_Core :=
  let result := setWord hi (c.VMIX reg) value
  if result = c.VMIX reg then c
  else { c with
    VMIX := Function.update c.VMIX reg result
    VoiceGates := fun vc => (voiceBit hi value vc).elim (c.VoiceGates vc) fun bit => (c.VoiceGates vc).set bit reg }

def V_Core.setVoices (c : V_Core) (f : Nat → V_Voice → V_Voice) : V_Core := { c with Voices := fun vc => f vc (c.Voices vc) }

def setModulated (hi : Bool) (value : UInt16) (idx : Nat) (vc : V_Voice) : V_Voice :=
  if idx = 0 then vc else (voiceBit hi value idx).elim vc fun bit => { vc with Modulated := bit }

def setNoise (hi : Bool) (value : UInt16) (idx : Nat) (vc : V_Voice) : V_Voice :=
  (voiceBit hi value idx).elim vc fun bit => { vc with Noise := bit }

def V_Core.writeMMIX (c : V_Core) (core : Fin 2) (value : UInt16) : V_Core :=
  let vx := value &&& if core = 0 then 0xff0 else 0xfff
  let bit (i : Nat) : Bool := vx.toNat.testBit i
  { c with
    WetGate := ⟨bit 5, bit 4, bit 9, bit 8, bit 1, bit 0⟩
    DryGate := ⟨bit 7, bit 6, bit 11, bit 10, bit 3, bit 2⟩ }

def SignExtend16 (v : UInt16) : Int := v.toInt16.toInt

/-- `RegWrite_Core` and `RegWrite_CoreExt`. -/
def V_Core.writeParam (c : V_Core) (core : Fin 2) (param : CoreParam) (value : UInt16) : V_Core :=
  match param with
  | .ATTR => { c with
      effects := { c.effects with FxEnable := value.toNat.testBit 7 }
      NoiseClk := value.toNat / 2 ^ 8 % 2 ^ 6
      Mute := false }
  | .MMIX => c.writeMMIX core value
  | .EEA => { c with effects := { c.effects with EffectsEndA := SetHiWord c.effects.EffectsEndA value } }
  | .PMON hi => c.setVoices (setModulated hi value)
  | .NON hi => c.setVoices (setNoise hi value)
  | .VMIX reg hi => c.vx_SetSomeBits reg hi value
  | .KON hi => { c with KeyOn := setWord hi c.KeyOn value }
  | .KOFF hi => { c with KeyOff := setWord hi c.KeyOff value }
  | .ESA hi => { c with effects := { c.effects with EffectsStartA := setWord hi c.effects.EffectsStartA value } }
  | .Revb reg hi =>
      let Revb := c.effects.Revb
      { c with effects := { c.effects with
          Revb := { Revb with addr := Function.update Revb.addr reg (setWord hi (Revb.addr reg) value) } } }
  | .MVOLL => { c with MasterVol := { c.MasterVol with Left := c.MasterVol.Left.RegSet value } }
  | .MVOLR => { c with MasterVol := { c.MasterVol with Right := c.MasterVol.Right.RegSet value } }
  | .EVOLL => { c with FxVol := { c.FxVol with Left := SignExtend16 value } }
  | .EVOLR => { c with FxVol := { c.FxVol with Right := SignExtend16 value } }
  | .AVOLL => { c with ExtVol := { c.ExtVol with Left := SignExtend16 value } }
  | .AVOLR => { c with ExtVol := { c.ExtVol with Right := SignExtend16 value } }
  | .BVOLL => { c with InpVol := { c.InpVol with Left := SignExtend16 value } }
  | .BVOLR => { c with InpVol := { c.InpVol with Right := SignExtend16 value } }
  | .RevbVol reg =>
      let Revb := c.effects.Revb
      { c with effects := { c.effects with Revb := { Revb with vol := Function.update Revb.vol reg value.toInt16 } } }

/-! ## The mixer -/

def SPDIF_OUT_PCM : Nat := 5
def SPDIF_OUT_BYPASS : Nat := 8
def SPDIF_MODE_BYPASS_BITSTREAM : Nat := 1

def Mixer.UpdateSpdifMode (s : Mixer) : Mixer :=
  if s.SpdifOut.toNat.testBit 2 then { s with PlayMode := 8 }
  else if s.SpdifOut.toNat.testBit SPDIF_OUT_BYPASS then
    { s with PlayMode := if s.SpdifMode.toNat.testBit SPDIF_MODE_BYPASS_BITSTREAM then 2 else 4 }
  else { s with PlayMode := if s.SpdifOut.toNat.testBit SPDIF_OUT_PCM then 1 else 0 }

/-- What `RegWrite_Core` does to a voice of core 1 when `psxmode` begins. -/
def V_Voice.psxmode (vc : V_Voice) : V_Voice :=
  { vc with
    Volume := ⟨⟨0, vc.Volume.Left.Counter, 0⟩, ⟨0, vc.Volume.Right.Counter, 0⟩⟩
    ADSR := vc.ADSR.Stop
    Pitch := 0
    decoder := { vc.decoder with NextA := 0x6ffff, StartA := 0x6ffff, LoopStartA := 0x6ffff }
    Modulated := false }

inductive MixerEvent
  | voiceParam (core : Fin 2) (voice : Fin 24) (param : VoiceParam) (value : UInt16)
  | voiceAddr (core : Fin 2) (voice : Fin 24) (address : VoiceAddr) (value : UInt16)
  | coreParam (core : Fin 2) (param : CoreParam) (value : UInt16)
  | spdifOut (value : UInt16)
  | spdifMode (value : UInt16)
  | psxmode
  | write (addr : Nat) (value : UInt16)
  | dma (activeTSA : Nat) (first wrapped : List UInt16)
  | refill (words : List (Nat × UInt16))

def Mixer.setVoice (s : Mixer) (core : Fin 2) (voice : Nat) (f : V_Voice → V_Voice) : Mixer :=
  s.setCore core { s.Cores core with Voices := Function.update (s.Cores core).Voices voice (f ((s.Cores core).Voices voice)) }

def Mixer.apply (s : Mixer) : MixerEvent → Mixer
  | .voiceParam core voice param value => s.setVoice core voice fun vc => vc.writeParam param value
  | .voiceAddr core voice address value => s.setVoice core voice fun vc => vc.writeAddr address value
  | .coreParam core param value => s.setCore core ((s.Cores core).writeParam core param value)
  | .spdifOut value => { s with SpdifOut := value }.UpdateSpdifMode
  | .spdifMode value => { s with SpdifMode := value }.UpdateSpdifMode
  | .psxmode => s.setCore 1
      { (s.Cores 1).setVoices (fun _ vc => vc.psxmode) with
        effects := { (s.Cores 1).effects with FxEnable := false, EffectsStartA := 0x7fff8, EffectsEndA := 0x7ffff } }
  | .write addr value => { s with ram := s.ram.write addr value }
  | .dma activeTSA first wrapped => { s with ram := s.ram.dmaWrite activeTSA first wrapped }
  | .refill words => { s with ram := s.ram.refill words }

/-! ## After `Init` -/

def V_VolumeSlideLR.zero : V_VolumeSlideLR := ⟨⟨0, 0, 0⟩, ⟨0, 0, 0⟩⟩

def V_Voice.init : V_Voice where
  Volume := .zero
  ADSR := ⟨0, 0, 0, PHASE_STOPPED⟩
  Pitch := 0x3fff
  Modulated := false
  Noise := false
  SP := 0
  OutX := 0
  decoder := .init

def Effects.init (core : Fin 2) : Effects where
  Revb := ⟨fun _ => 0, fun _ => 0⟩
  RevbDownBuf := fun _ _ => 0
  RevbUpBuf := fun _ _ => 0
  RevbSampleBufPos := 0
  EffectsStartA := if core = 0 then 0xefff8 else 0xffff8
  EffectsEndA := if core = 0 then 0xeffff else 0xfffff
  FxEnable := false

def V_Core.init (core : Fin 2) : V_Core where
  VoiceGates := fun _ => ⟨true, true, true, true⟩
  DryGate := ⟨true, true, true, true, false, false⟩
  WetGate := ⟨true, true, true, true, core = 1, core = 1⟩
  MasterVol := .zero
  ExtVol := ⟨0x7fff, 0x7fff⟩
  InpVol := ⟨0x7fff, 0x7fff⟩
  FxVol := ⟨0, 0⟩
  Voices := fun _ => .init
  effects := .init core
  Mute := false
  NoiseClk := 0
  NoiseCnt := 0
  NoiseOut := 0
  KeyOn := 0
  KeyOff := 0
  VMIX := fun _ => 0xffffff

def Mixer.init (mem : Nat → UInt16) : Mixer where
  Cores := V_Core.init
  ram := .init mem
  PlayMode := 0
  SpdifOut := 0
  SpdifMode := 0
  OutPos := 0
  Cycles := 0

end Pcsx2.Spu2
