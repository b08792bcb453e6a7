import Pcsx2.Ipu.Decoder

/-!
# The commands of the IPU
-/

namespace Pcsx2.Ipu

/-! ## Output -/

/-- The macroblocks of `decoder_t`, one behind the other. -/
def Decoder.macroblocks (decoder : Decoder) : List UInt8 :=
  decoder.mb8.toList ++ decoder.mb16.toList ++ decoder.rgb32.toList ++ decoder.rgb16.toList

/-- The `index`-th quadword of `bytes`. -/
def quadAt (bytes : List UInt8) (index : Nat) : Quad := Vector.ofFn fun i => bytes.getD (16 * index + i.val) 0

/-- `IPU_Fifo_Output::write` of `size` quadwords from the `index`-th one of `bytes`, and how many there was room for. -/
def writeOutput (bytes : List UInt8) (index size : Nat) : StateM Core Nat := do
  let core ← get
  let transfer_size := min size (8 - core.output.length)
  set { core with output := core.output ++ (List.range transfer_size).map fun i => quadAt bytes (index + i) }
  return transfer_size

def waitOnIPUFrom : StateM Core Unit := modify fun core => { core with WaitingOnIPUFrom := true }

def sendOutput : StateM Core Nat := do
  let decoder ← decoder
  let read ← writeOutput decoder.macroblocks decoder.ipu0_idx decoder.ipu0_data
  modifyDecoder fun decoder =>
    { decoder with ipu0_idx := decoder.ipu0_idx + read, ipu0_data := decoder.ipu0_data - read }
  return read

/-- `IPU0` is not ready for data. -/
def Core.outputBlocked (core : Core) : Bool :=
  !core.ipu0ch.STR || core.output.length != 0 || core.ipu0ch.qwc == 0

/-! ## What ends both decoding commands -/

def startCodeLoop : Nat → StateM Core Bool
  | 0 => return false
  | rounds + 1 => do
    if !(← FillBuffer 24) then
      return false
    else
      let start_check ← UBITS 24
      if start_check = 0 then
        DUMPBITS 8
        startCodeLoop rounds
      else
        modifyCtrl fun ctrl => if start_check = 1 then { ctrl with SCD := true } else { ctrl with ECD := true }
        return true

def findStartCode : StateM Core Bool := do
  match ← peekBits 8 with
  | none => return false
  | some bit8 =>
    if bit8 = 0 then
      modify fun core => { core with input := core.input.Align }
      startCodeLoop ((← get).input.available + 1)
    else
      return true

def readTop : StateM Core Bool := do
  match ← peekBits 32 with
  | none => return false
  | some top => do
    modifyRegs fun regs => { regs with top }
    return true

def resetPrediction : StateM Core Unit :=
  modifyDecoder fun decoder =>
    { decoder with dc_dct_pred := Vector.replicate 3 (s16 (128 * 2 ^ decoder.intra_dc_precision)) }

/-! ## IDEC -/

def fieldIf (present : Bool) (bits unit : Nat) : StateM Core Nat :=
  if present then do return (← GETBITS bits) * unit else return 0

def GetMacroblockModes : StateM Core Nat := do
  let decoder ← decoder
  let frame := decoder.picture_structure == 3
  match decoder.coding_type with
  | 1 => do
    let macroblock_modes ← UBITS 2
    if macroblock_modes = 0 then
      return 0
    else
      let tab := MB_I.getD (macroblock_modes >>> 1) ⟨0, 0⟩
      DUMPBITS tab.len
      let dct ← fieldIf (!decoder.frame_pred_frame_dct && frame) 1 DCT_TYPE_INTERLACED
      return tab.modes ||| dct
  | 2 => do
    let macroblock_modes ← UBITS 6
    if macroblock_modes = 0 then
      return 0
    else
      let tab := MB_P.getD (macroblock_modes >>> 1) ⟨0, 0⟩
      DUMPBITS tab.len
      let forward := tab.modes &&& MACROBLOCK_MOTION_FORWARD != 0
      if !frame then
        let motion ← fieldIf forward 2 MOTION_TYPE_BASE
        return tab.modes ||| motion
      else if decoder.frame_pred_frame_dct then
        return tab.modes ||| (if forward then MC_FRAME else 0)
      else
        let motion ← fieldIf forward 2 MOTION_TYPE_BASE
        let coded := tab.modes &&& (MACROBLOCK_INTRA ||| MACROBLOCK_PATTERN) != 0
        let dct ← fieldIf coded 1 DCT_TYPE_INTERLACED
        return tab.modes ||| motion ||| dct
  | 3 => do
    let macroblock_modes ← UBITS 6
    if macroblock_modes = 0 then
      return 0
    else
      let tab := MB_B.getD macroblock_modes ⟨0, 0⟩
      DUMPBITS tab.len
      let intra := tab.modes &&& MACROBLOCK_INTRA != 0
      if !frame then
        let motion ← fieldIf (!intra) 2 MOTION_TYPE_BASE
        return tab.modes ||| motion ||| (tab.len <<< 16)
      else if decoder.frame_pred_frame_dct then
        return tab.modes ||| MC_FRAME ||| (tab.len <<< 16)
      else
        let motion ← fieldIf (!intra) 2 MOTION_TYPE_BASE
        let coded := tab.modes &&& (MACROBLOCK_INTRA ||| MACROBLOCK_PATTERN) != 0
        let dct ← fieldIf coded 1 DCT_TYPE_INTERLACED
        return tab.modes ||| motion ||| dct ||| (tab.len <<< 16)
  | 4 => do
    let macroblock_modes ← GETBITS 1
    return if macroblock_modes = 0 then 0 else MACROBLOCK_INTRA ||| (1 <<< 16)
  | _ => return 0

def non_linear_quantizer_scale : List Nat := [
  0, 1, 2, 3, 4, 5, 6, 7, 8, 10, 12, 14, 16, 18, 20, 22, 24, 28, 32, 36, 40, 44, 48, 52, 56, 64, 72, 80, 88, 96, 104, 112]

def quantizerScale (q_scale_type : Bool) (code : Nat) : Nat :=
  if q_scale_type then non_linear_quantizer_scale.getD code 0 else code <<< 1

/-- `case 0` of a macroblock of IDEC. -/
def startMacroblock : StateM Core Unit := do
  let macroblock_modes ← GetMacroblockModes
  modifyDecoder fun decoder => { decoder with macroblock_modes }
  if macroblock_modes &&& MACROBLOCK_QUANT ≠ 0 then
    let quantizer_scale_code ← GETBITS 5
    modifyDecoder fun decoder =>
      { decoder with quantizer_scale := quantizerScale decoder.q_scale_type quantizer_scale_code }
  modifyDecoder fun decoder =>
    { decoder with coded_block_pattern := 0x3F, mb8 := Vector.replicate 384 0, rgb32 := Vector.replicate 1024 0 }

def convertMacroblock (kernels : Kernels) : StateM Core Unit :=
  modify fun core =>
    let decoder := core.decoder
    let rgb32 := kernels.csc decoder.mb8 core.thresh decoder.sgn
    let decoder := { decoder with rgb32 }
    { core with decoder :=
        if !decoder.ofm then { decoder with ipu0_idx := 72, ipu0_data := 64 }
        else { decoder with rgb16 := kernels.dither rgb32 decoder.dte, ipu0_idx := 136, ipu0_data := 32 } }

/-- `case 1`. -/
def decodeMacroblock (kernels : Kernels) : IpuM Bool := do
  modifyCmd fun cmd => { cmd with pos1 := 1 }
  let decoder ← onCore decoder
  let cmd ← readCmd
  if ← blocksFrom (slice_intra_DCT kernels) (fun pos2 cmd => { cmd with pos2 }) cmd.pos2
      (blocks decoder.macroblock_modes) then
    onCore (convertMacroblock kernels)
    modifyCmd fun cmd => { cmd with pos1 := 2 }
    return true
  else
    return false

def clearWaiting : StateM Core Unit :=
  modify fun core => { core with WaitingOnIPUFrom := false, input := { core.input with WaitingOnIPUTo := false } }

/-- `case 2`, which is entered a second time by the interrupt it asks for. It goes on only when there was nothing to
send. -/
def sendMacroblock : IpuM Bool := do
  if ← reads (·.readyIDEC) then
    modify fun p => { p with readyIDEC := false }
    onCore clearWaiting
    modifyCmd fun cmd => { cmd with pos1 := 2 }
    return false
  else
    let read ← onCore sendOutput
    if (← onCore decoder).ipu0_data ≠ 0 then
      onCore waitOnIPUFrom
      modifyCmd fun cmd => { cmd with pos1 := 2 }
      return false
    else
      modify fun p => { p with mbaCount := 0 }
      if read ≠ 0 then
        onCore waitOnIPUFrom
        modifyCmd fun cmd => { cmd with pos1 := 3 }
        return false
      else
        return true

inductive Round
  | suspended
  | again
  | finished
  deriving DecidableEq

def macroblockFound (tab : MBAtab) : IpuM Round := do
  onCore (DUMPBITS tab.len)
  modify fun p => { p with mbaCount := p.mbaCount + tab.mba }
  if (← reads (·.mbaCount)) ≠ 0 then
    onCore resetPrediction
  return .again

/-- The loop of `case 3`. Rounds that go on take eleven bits each. -/
def mbaLoop : Nat → IpuM Round
  | 0 => return .suspended
  | rounds + 1 => do
    if !(← onCore GETWORD) then
      modifyCmd fun cmd => { cmd with pos1 := 3 }
      return .suspended
    else
      let code ← onCore (UBITS 16)
      if 0x1000 ≤ code then
        macroblockFound (MBA.mba5.getD ((← onCore (UBITS 5)) - 2) ⟨0, 0⟩)
      else if 0x0300 ≤ code then
        macroblockFound (MBA.mba11.getD ((← onCore (UBITS 11)) - 24) ⟨0, 0⟩)
      else
        let escape ← onCore (UBITS 11)
        if escape = 8 then
          modify fun p => { p with mbaCount := p.mbaCount + 33 }
          onCore (DUMPBITS 11)
          mbaLoop rounds
        else if escape = 15 then
          onCore (DUMPBITS 11)
          mbaLoop rounds
        else
          return .finished

/-- `case 3`. -/
def skipMacroblocks : IpuM Round := do
  modify fun p => { p with readyIDEC := true }
  mbaLoop ((← onCore get).input.available + 1)

/-- `case 4`. -/
def endMacroblock : IpuM Round := do
  if !(← onCore GETWORD) then
    modifyCmd fun cmd => { cmd with pos1 := 4 }
    return .suspended
  else
    modifyCmd fun cmd => { cmd with pos1 := 0, pos2 := 0 }
    return .again

/-- `case 3` and what comes behind it. -/
def skipAndEnd : IpuM Round := do
  match ← skipMacroblocks with
  | .again => endMacroblock
  | round => return round

/-- `case 2` and what comes behind it. -/
def sendAndSkip : IpuM Round := do
  if ← sendMacroblock then skipAndEnd else return .suspended

def macroblockRound (kernels : Kernels) : IpuM Round := do
  let cmd ← readCmd
  if (← onCore get).outputBlocked ∧ cmd.pos1 ≤ 2 then
    onCore waitOnIPUFrom
    return .suspended
  else if cmd.pos1 ≤ 1 then
    if cmd.pos1 = 0 then
      onCore startMacroblock
    if ← decodeMacroblock kernels then sendAndSkip else return .suspended
  else if cmd.pos1 = 2 then
    sendAndSkip
  else if cmd.pos1 = 3 then
    skipAndEnd
  else
    endMacroblock

def macroblockLoop (kernels : Kernels) : Nat → IpuM Round
  | 0 => return .suspended
  | rounds + 1 => do
    match ← macroblockRound kernels with
    | .again => macroblockLoop kernels rounds
    | round => return round

def startIDEC : StateM Core Unit := do
  resetPrediction
  modifyRegs fun regs => { regs with top := 0 }
  modifyCtrl fun ctrl => { ctrl with ECD := false }

def finishmpeg2sliceIDEC : StateM Core Unit := do
  modifyCtrl fun ctrl => { ctrl with SCD := false }
  modify fun core => { core with coded_block_pattern := core.decoder.coded_block_pattern }

/-- The search for a start code and the read of `top`, which are suspended in `pos0` and the next position. -/
def finishDecoding (entry pos0 : Nat) : IpuM Bool := do
  if !(← if entry ≤ pos0 then onCore findStartCode else pure true) then
    modifyCmd fun cmd => { cmd with pos0 }
    return false
  else if !(← onCore readTop) then
    modifyCmd fun cmd => { cmd with pos0 := pos0 + 1 }
    return false
  else
    return true

/-- `case 2` of IDEC and what comes behind it. -/
def decodeMacroblocks (kernels : Kernels) : IpuM Bool := do
  modifyCmd fun cmd => { cmd with pos0 := 2 }
  match ← macroblockLoop kernels 3 with
  | .finished => do
    onCore finishmpeg2sliceIDEC
    finishDecoding 2 3
  | _ => return false

def mpeg2sliceIDEC (kernels : Kernels) : IpuM Bool := do
  let cmd ← readCmd
  if cmd.pos0 = 0 then
    onCore startIDEC
  if cmd.pos0 ≤ 1 then
    modifyCmd fun cmd => { cmd with pos0 := 1 }
    if !(← onCore (FillBuffer 32)) then
      return false
    else
      decodeMacroblocks kernels
  else if cmd.pos0 = 2 then
    decodeMacroblocks kernels
  else
    finishDecoding cmd.pos0 3

/-! ## BDEC -/

def startBDEC : StateM Core Unit := do
  if (← decoder).dcr then
    resetPrediction
  modifyCtrl fun ctrl => { ctrl with ECD := false }
  modifyRegs fun regs => { regs with top := 0 }
  modifyDecoder fun decoder =>
    { decoder with mb8 := Vector.replicate 384 0, mb16 := Vector.replicate 768 0 }

/-- Every sample of a `macroblock_8`, without sign extension, in the two bytes of one of a `macroblock_16`. -/
def widen (mb8 : Bytes 384) : Bytes 768 :=
  Vector.ofFn fun i => if i.val % 2 = 0 then mb8.toList.getD (i.val / 2) 0 else 0

/-- The entry of a table at the next bits, whose first entry is that of the code `first`. -/
def tabAt {α : Type} (table : List α) (bits first : Nat) (other : α) : StateM Core α := do
  return table.getD ((← UBITS bits) - first) other

def readPattern : StateM Core Unit := do
  let code ← UBITS 16
  let tab ← if 0x2000 ≤ code then tabAt CBP_7 7 16 ⟨0, 0⟩ else tabAt CBP_9 9 0 ⟨0, 0⟩
  DUMPBITS tab.len
  modifyDecoder fun decoder => { decoder with coded_block_pattern := tab.cbp }

def suspendBlock (pos1 : Nat) (cmd : IpuCmd) : IpuCmd := { cmd with pos1 }

def decodeIntra (kernels : Kernels) (entry : Nat) (modes : Nat) : IpuM Bool := do
  if entry = 0 then
    onCore (modifyDecoder fun decoder => { decoder with coded_block_pattern := 0x3F })
  if ← blocksFrom (slice_intra_DCT kernels) suspendBlock entry (blocks modes) then
    onCore (modifyDecoder fun decoder => { decoder with mb16 := widen decoder.mb8 })
    return true
  else
    return false

def patternBlock (kernels : Kernels) (block : Block) (skip : Bool) : IpuM Bool := do
  if (← onCore decoder).coded_block_pattern &&& 2 ^ (6 - block.number) = 0 then
    return true
  else
    slice_non_intra_DCT kernels block skip

def decodeNonIntra (kernels : Kernels) (entry : Nat) (modes : Nat) : IpuM Bool := do
  if entry = 0 then
    onCore readPattern
  blocksFrom (patternBlock kernels) suspendBlock entry (blocks modes)

def setOutput : StateM Core Unit :=
  modify fun core => { core with
    regs := { core.regs with ctrl := { core.regs.ctrl with SCD := false } }
    coded_block_pattern := core.decoder.coded_block_pattern
    decoder := { core.decoder with ipu0_idx := 24, ipu0_data := 48 } }

/-- The macroblock of `case 2`. -/
def decodeBDEC (kernels : Kernels) : IpuM Bool := do
  let modes := (← onCore decoder).macroblock_modes
  let cmd ← readCmd
  if ← if modes &&& MACROBLOCK_INTRA ≠ 0 then decodeIntra kernels cmd.pos1 modes
      else if modes &&& MACROBLOCK_PATTERN ≠ 0 then decodeNonIntra kernels cmd.pos1 modes
      else pure true then
    onCore setOutput
    return true
  else
    return false

/-- `case 3`, which goes on only when there was nothing to send. -/
def sendBDEC : IpuM Bool := do
  if ← reads (·.readyBDEC) then
    modify fun p => { p with readyBDEC := false }
    onCore clearWaiting
    modifyCmd fun cmd => { cmd with pos0 := 3 }
    return false
  else
    let read ← onCore sendOutput
    if (← onCore decoder).ipu0_data ≠ 0 then
      onCore waitOnIPUFrom
      modifyCmd fun cmd => { cmd with pos0 := 3 }
      return false
    else
      modify fun p => { p with mbaCount := 0 }
      if read ≠ 0 then
        onCore waitOnIPUFrom
        modifyCmd fun cmd => { cmd with pos0 := 4 }
        return false
      else
        return true

/-- `case 4` and what comes behind it. -/
def endBDEC (entry : Nat) : IpuM Bool := do
  if ← finishDecoding entry 4 then
    modify fun p => { p with readyBDEC := true }
    return true
  else
    return false

/-- `case 3` and what comes behind it. -/
def finishBDEC : IpuM Bool := do
  if ← sendBDEC then endBDEC 3 else return false

/-- `case 2` and what comes behind it. -/
def macroblockBDEC (kernels : Kernels) : IpuM Bool := do
  modifyCmd fun cmd => { cmd with pos0 := 2 }
  if (← onCore get).outputBlocked then
    onCore waitOnIPUFrom
    return false
  else if ← decodeBDEC kernels then
    finishBDEC
  else
    return false

def mpeg2_slice (kernels : Kernels) : IpuM Bool := do
  let cmd ← readCmd
  if cmd.pos0 = 0 then
    onCore startBDEC
  if cmd.pos0 ≤ 1 then
    if !(← onCore (FillBuffer 32)) then
      modifyCmd fun cmd => { cmd with pos0 := 1 }
      return false
    else
      macroblockBDEC kernels
  else if cmd.pos0 = 2 then
    macroblockBDEC kernels
  else if cmd.pos0 = 3 then
    finishBDEC
  else
    endBDEC cmd.pos0

/-! ## Other commands -/

abbrev CommandM := StateM (Core × Progress)

def inCore {α : Type} (m : StateM Core α) : CommandM α := fun (core, progress) =>
  let (a, core) := m core
  (a, core, progress)

def modifyProgress (update : Progress → Progress) : CommandM Unit :=
  modify fun (core, progress) => (core, update progress)

def readProgress : CommandM Progress := do return (← get).2

def field (val : UInt32) (low bits : Nat) : Nat := val.toNat / 2 ^ low % 2 ^ bits

/-- An `int` as it is stored in `DATA`. -/
def u32 (value : Int) : Nat := (value % 2 ^ 32).toNat

def get_macroblock_address_increment : StateM Core Nat := do
  let code ← UBITS 16
  if 768 ≤ code then
    let mba ← if 4096 ≤ code then tabAt MBA.mba5 5 2 ⟨0, 0⟩ else tabAt MBA.mba11 11 24 ⟨0, 0⟩
    DUMPBITS mba.len
    return (mba.mba + 1) ||| (mba.len <<< 16)
  else
    let escape ← UBITS 11
    if escape = 8 then
      DUMPBITS 11
      return 0xb0023
    else if escape = 15 ∧ (← decoder).mpeg1 then
      DUMPBITS 11
      return 0xb0022
    else
      return 0

def motionCode : StateM Core Nat := do
  let code ← UBITS 16
  if 0x8000 ≤ code then
    DUMPBITS 1
    return 0x00010000
  else
    let tab ← if 0x1000 ≤ code ∨ code &&& 0xfc00 = 0x0c00 then tabAt MV_4 4 0 ⟨0, 0⟩ else tabAt MV_10 10 0 ⟨0, 0⟩
    DUMPBITS tab.len
    let sign ← SBITS 1
    DUMPBITS 1
    let delta : Int := if sign = 0 then tab.delta + 1 else -(tab.delta + 1)
    return u32 delta ||| (tab.len <<< 16)

def dmVector : StateM Core Nat := do
  let tab := DMV_2.getD (← UBITS 2) ⟨0, 0⟩
  DUMPBITS tab.len
  return u32 tab.dmv ||| (tab.len <<< 16)

def macroblockType : StateM Core Nat := do
  modify fun core => { core with decoder := { core.decoder with
    frame_pred_frame_dct := true
    coding_type := if 0 < core.regs.ctrl.PCT then core.regs.ctrl.PCT else 1 } }
  GetMacroblockModes

def addressIncrement : StateM Core Nat := do
  modify fun core => { core with decoder := { core.decoder with mpeg1 := core.regs.ctrl.MP1 } }
  get_macroblock_address_increment

def ipuVDEC (val : UInt32) : CommandM Bool := do
  if (← readProgress).pos0 = 0 then
    if !(← inCore (FillBuffer 32)) then
      return false
    let DATA ← inCore (match field val 26 2 with
      | 0 => addressIncrement
      | 1 => macroblockType
      | 2 => motionCode
      | _ => dmVector)
    inCore (modifyRegs fun regs => { regs with DATA, ctrl := { regs.ctrl with ECD := DATA == 0 } })
  if !(← inCore readTop) then
    modifyProgress fun progress => { progress with pos0 := 1 }
    return false
  else
    return true

def ipuFDEC : CommandM Bool := do
  match ← inCore (peekBits 32) with
  | none => return false
  | some DATA => do
    inCore (modifyRegs fun regs => { regs with DATA, top := DATA })
    return true

/-- `bytes` with eight of them written at `offset`. -/
def setBytes {n : Nat} (bytes : Bytes n) (offset : Nat) (values : Bytes 8) : Bytes n :=
  Vector.ofFn fun i =>
    if offset ≤ i.val ∧ i.val < offset + 8 then values.toList.getD (i.val - offset) 0 else bytes.toList.getD i.val 0

/-- The loop that loads `pos[0]` up to `bound` pieces of eight bytes, each by `write`. -/
def loadLoop (write : Nat → Bytes 8 → Core → Core) (bound : Nat) : Nat → CommandM Bool
  | 0 => return true
  | rounds + 1 => do
    let pos0 := (← readProgress).pos0
    if bound ≤ pos0 then
      return true
    else
      match ← inCore getBits64 with
      | none => return false
      | some values => do
        inCore (modify (write pos0 values))
        modifyProgress fun progress => { progress with pos0 := pos0 + 1 }
        loadLoop write bound rounds

def load (write : Nat → Bytes 8 → Core → Core) (bound : Nat) : CommandM Bool := loadLoop write bound (bound + 1)

/-- A write of bytes of `decoder`. -/
def inDecoder (write : Nat → Bytes 8 → Decoder → Decoder) (pos0 : Nat) (values : Bytes 8) (core : Core) : Core :=
  { core with decoder := write pos0 values core.decoder }

def ipuSETIQ (val : UInt32) : CommandM Bool :=
  if field val 27 1 = 1 then
    load (inDecoder fun pos0 values decoder => { decoder with niq := setBytes decoder.niq (8 * pos0) values }) 8
  else
    load (inDecoder fun pos0 values decoder => { decoder with iq := setBytes decoder.iq (8 * pos0) values }) 8

def ipuSETVQ : CommandM Bool :=
  load (fun pos0 values core => { core with vqclut := setBytes core.vqclut (8 * pos0) values }) 4

def transfer (bytes : List UInt8) (size : Nat) : CommandM Bool := do
  let pos1 := (← readProgress).pos1
  let written ← inCore (writeOutput bytes pos1 (size - pos1))
  modifyProgress fun progress => { progress with pos1 := pos1 + written }
  if pos1 + written < size then
    inCore waitOnIPUFrom
    return false
  else
    modifyProgress fun progress => { progress with pos0 := 0, pos1 := 0 }
    return true

def macroblocksLoop (convert : CommandM Bool) (MBC : Nat) : Nat → CommandM Bool
  | 0 => return true
  | rounds + 1 => do
    if MBC ≤ (← readProgress).index then
      return true
    else if ← convert then
      modifyProgress fun progress => { progress with index := progress.index + 1 }
      macroblocksLoop convert MBC rounds
    else
      return false

def convertCSC (kernels : Kernels) (OFM DTE : Bool) : CommandM Bool := do
  if !(← load (inDecoder fun pos0 values decoder =>
      { decoder with mb8 := setBytes decoder.mb8 (8 * pos0) values }) 48) then
    return false
  else
    inCore (modify fun core =>
      let rgb32 := kernels.csc core.decoder.mb8 core.thresh false
      let decoder := { core.decoder with rgb32 }
      { core with decoder := if OFM then { decoder with rgb16 := kernels.dither rgb32 DTE } else decoder })
    let decoder ← inCore decoder
    if OFM then transfer decoder.rgb16.toList 32 else transfer decoder.rgb32.toList 64

def ipuCSC (kernels : Kernels) (val : UInt32) : CommandM Bool :=
  let MBC := field val 0 11
  macroblocksLoop (convertCSC kernels (field val 27 1 == 1) (field val 26 1 == 1)) MBC (MBC + 1)

def convertPACK (kernels : Kernels) (OFM DTE : Bool) : CommandM Bool := do
  if !(← load (inDecoder fun pos0 values decoder =>
      { decoder with rgb32 := setBytes decoder.rgb32 (8 * pos0) values }) 128) then
    return false
  else
    inCore (modifyDecoder fun decoder => { decoder with rgb16 := kernels.dither decoder.rgb32 DTE })
    let core ← inCore get
    if OFM then transfer core.decoder.rgb16.toList 32
    else transfer (kernels.vq core.decoder.rgb16 core.vqclut).toList 8

def ipuPACK (kernels : Kernels) (val : UInt32) : CommandM Bool :=
  let MBC := field val 0 11
  macroblocksLoop (convertPACK kernels (field val 27 1 == 1) (field val 26 1 == 1)) MBC (MBC + 1)

end Pcsx2.Ipu
