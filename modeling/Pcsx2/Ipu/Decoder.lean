import Pcsx2.Ipu.Bits

/-!
# The state of the IPU and the decoding of blocks

Decoding is suspended when bits are missing, and resumed by `ipu_cmd.pos`. Some of the state is in statics of the
decoder, apart from the rest. Functions of their arguments alone, from the inverse DCT to the search in the CLUT,
are parameters.
-/

namespace Pcsx2.Ipu

abbrev Bytes (n : Nat) := Vector UInt8 n

structure Kernels where
  /-- `IDCT_Copy`, to the offset in a `macroblock_8` and with the stride given. -/
  idctCopy : Vector Int 64 → Nat → Nat → Bytes 384 → Bytes 384
  /-- `IDCT_Add`, with what it leaves in the block. -/
  idctAdd : Nat → Vector Int 64 → Nat → Nat → Bytes 768 → Bytes 768 × Vector Int 64
  csc : Bytes 384 → UInt16 × UInt16 → Bool → Bytes 1024
  dither : Bytes 1024 → Bool → Bytes 512
  vq : Bytes 512 → Bytes 32 → Bytes 128

/-- `decoder_t`. -/
structure Decoder where
  DCTblock : Vector Int 64
  niq : Bytes 64
  iq : Bytes 64
  mb8 : Bytes 384
  mb16 : Bytes 768
  rgb32 : Bytes 1024
  rgb16 : Bytes 512
  ipu0_data : Nat
  ipu0_idx : Nat
  quantizer_scale : Nat
  coding_type : Nat
  dc_dct_pred : Vector Int 3
  intra_dc_precision : Nat
  picture_structure : Nat
  frame_pred_frame_dct : Bool
  q_scale_type : Bool
  intra_vlc_format : Bool
  sgn : Bool
  dte : Bool
  ofm : Bool
  macroblock_modes : Nat
  dcr : Bool
  coded_block_pattern : Nat
  scantype : Bool
  mpeg1 : Bool

/-- `tIPU_CTRL` without `IFC` and `OFC`, which are the lengths of the FIFOs. -/
structure Ctrl where
  CBP : Nat
  ECD : Bool
  SCD : Bool
  IDP : Nat
  AS : Bool
  IVF : Bool
  QST : Bool
  MP1 : Bool
  PCT : Nat
  BUSY : Bool

structure IPUregisters where
  DATA : Nat
  cmdBUSY : Bool
  ctrl : Ctrl
  ipubp : Nat
  top : Nat
  topbusy : Bool

structure Ipu0ch where
  STR : Bool
  qwc : Nat

structure Core where
  input : Input
  output : List Quad
  vqclut : Bytes 32
  thresh : UInt16 × UInt16
  coded_block_pattern : Nat
  decoder : Decoder
  WaitingOnIPUFrom : Bool
  regs : IPUregisters
  ipu0ch : Ipu0ch

/-- `index`, `pos[0]` and `pos[1]` of `ipu_cmd`, which every command uses. -/
structure Progress where
  index : Nat
  pos0 : Nat
  pos1 : Nat

/-- `tIPU_cmd`. -/
structure IpuCmd extends Progress where
  pos2 : Nat
  pos3 : Nat
  pos4 : Nat
  pos5 : Nat
  current : UInt32

def IpuCmd.CMD (cmd : IpuCmd) : Nat := (cmd.current >>> 28).toNat

/-- `tab`, `mbaCount` and the `ready_to_decode` of `mpeg2sliceIDEC` and of `mpeg2_slice`. -/
structure Statics where
  tab : Option DCTtab
  mbaCount : Nat
  readyIDEC : Bool
  readyBDEC : Bool

structure Process extends Statics where
  core : Core
  cmd : IpuCmd

abbrev IpuM := StateT Process Option

/-! ## Access to the state -/

def onCore {α : Type} (m : StateM Core α) : IpuM α := fun p =>
  let (a, core) := m p.core
  some (a, { p with core })

def modifyCmd (update : IpuCmd → IpuCmd) : IpuM Unit := modify fun p => { p with cmd := update p.cmd }

def reads {α : Type} (view : Process → α) : IpuM α := do return view (← get)

def readCmd : IpuM IpuCmd := reads (·.cmd)

def decoder : StateM Core Decoder := do return (← get).decoder

def modifyDecoder (update : Decoder → Decoder) : StateM Core Unit :=
  modify fun core => { core with decoder := update core.decoder }

def modifyRegs (update : IPUregisters → IPUregisters) : StateM Core Unit :=
  modify fun core => { core with regs := update core.regs }

def modifyCtrl (update : Ctrl → Ctrl) : StateM Core Unit :=
  modifyRegs fun regs => { regs with ctrl := update regs.ctrl }

def FillBuffer (bits : Nat) : StateM Core Bool := do
  let core ← get
  let (enough, input) := core.input.FillBuffer bits
  set { core with input }
  return enough

def UBITS (bits : Nat) : StateM Core Nat := do return (← get).input.UBITS bits

def SBITS (bits : Nat) : StateM Core Int := do return (← get).input.SBITS bits

def DUMPBITS (bits : Nat) : StateM Core Unit :=
  modify fun core => { core with input := core.input.Advance bits }

def GETWORD : StateM Core Bool := FillBuffer 16

def GETBITS (bits : Nat) : StateM Core Nat := do
  let retVal ← UBITS bits
  DUMPBITS bits
  return retVal

/-- `getBits64` that advances: eight bytes. -/
def getBits64 : StateM Core (Option (Bytes 8)) := do
  if !(← FillBuffer 64) then
    return none
  else
    let input := (← get).input
    DUMPBITS 64
    return some (Vector.ofFn fun i => .ofNat (input.bitsAt (input.BP + 8 * i.val) 8))

/-- `getBits32` and `getBits8` that do not advance, the former with its bytes in the order of the stream. -/
def peekBits (bits : Nat) : StateM Core (Option Nat) := do
  if !(← FillBuffer bits) then
    return none
  else
    return some (← UBITS bits)

def s16 (value : Int) : Int := value.bmod 65536

/-! ## Coefficients -/

def decoder_stride : Nat := 16

def scanNorm : List Nat := [
  0, 1, 8, 16, 9, 2, 3, 10, 17, 24, 32, 25, 18, 11, 4, 5, 12, 19, 26, 33, 40, 48, 41, 34, 27, 20, 13, 6, 7, 14, 21, 28,
  35, 42, 49, 56, 57, 50, 43, 36, 29, 22, 15, 23, 30, 37, 44, 51, 58, 59, 52, 45, 38, 31, 39, 46, 53, 60, 61, 54, 47, 55,
  62, 63]

def scanAlt : List Nat := [
  0, 8, 16, 24, 1, 9, 2, 10, 17, 25, 32, 40, 48, 56, 57, 49, 41, 33, 26, 18, 3, 11, 4, 12, 19, 27, 34, 42, 50, 58, 35, 43,
  51, 59, 20, 28, 5, 13, 6, 14, 21, 29, 36, 44, 52, 60, 37, 45, 53, 61, 22, 30, 7, 15, 23, 31, 38, 46, 54, 62, 39, 47, 55,
  63]

/-- `mpeg2_scan`, whose entries are permuted for the inverse DCT. -/
def scan (alt : Bool) (i : Nat) : Nat :=
  let j := (if alt then scanAlt else scanNorm).getD i 0
  ((j &&& 0x36) >>> 1) ||| ((j &&& 0x09) <<< 2)

def entry (table : List DCTtab) (i : Nat) : Option DCTtab := some (table.getD i ⟨0, 0, 0⟩)

def shortTab (code : Nat) : Option DCTtab :=
  if 256 ≤ code then entry DCT.tab2 ((code >>> 4) - 16)
  else if 128 ≤ code then entry DCT.tab3 ((code >>> 3) - 16)
  else if 64 ≤ code then entry DCT.tab4 ((code >>> 2) - 16)
  else if 32 ≤ code then entry DCT.tab5 ((code >>> 1) - 16)
  else if 16 ≤ code then entry DCT.tab6 (code - 16)
  else none

def intraTab (decoder : Decoder) (code : Nat) : Option DCTtab :=
  let one := decoder.intra_vlc_format && !decoder.mpeg1
  if 16384 ≤ code ∧ !one then entry DCT.next ((code >>> 12) - 4)
  else if 1024 ≤ code then entry (if one then DCT.tab0a else DCT.tab0) ((code >>> 8) - 4)
  else if 512 ≤ code then entry (if one then DCT.tab1a else DCT.tab1) ((code >>> 6) - 8)
  else shortTab code

def nonIntraTab (i code : Nat) : Option DCTtab :=
  if 16384 ≤ code then entry (if i = 0 then DCT.first else DCT.next) ((code >>> 12) - 4)
  else if 1024 ≤ code then entry DCT.tab0 ((code >>> 8) - 4)
  else if 512 ≤ code then entry DCT.tab1 ((code >>> 6) - 8)
  else shortTab code

/-- `SATURATE`. -/
def saturate (val : Int) : Int := max (-2048) (min 2047 val)

/-- `val | 1`. -/
def odd (val : Int) : Int := if val % 2 = 0 then val + 1 else val

def escapeLevel : StateM Core Int := do
  let val ← SBITS 8
  DUMPBITS 8
  if val % 128 = 0 then
    return (← GETBITS 8) + 2 * val
  else
    return val

def intraValue (tab : DCTtab) (i : Nat) : StateM Core Int := do
  let decoder ← decoder
  let scale : Int := decoder.quantizer_scale * (decoder.iq.toList.getD i 0).toNat
  if tab.run = 65 then
    if !decoder.mpeg1 then
      let val := ((← SBITS 12) * scale) >>> (4 : Nat)
      DUMPBITS 12
      return val
    else
      let val := ((← escapeLevel) * scale) >>> (4 : Nat)
      return odd (if val < 0 then val else val - 1)
  else
    let val := ((tab.level : Int) * scale) >>> (4 : Nat)
    let val := if decoder.mpeg1 then odd (val - 1) else val
    let bit1 ← SBITS 1
    DUMPBITS 1
    return if bit1 = 0 then val else -val

def nonIntraValue (tab : DCTtab) (i : Nat) : StateM Core Int := do
  let decoder ← decoder
  let scale : Int := decoder.quantizer_scale * (decoder.niq.toList.getD i 0).toNat
  if tab.run = 65 then
    if !decoder.mpeg1 then
      let val := ((2 * ((← SBITS 12) + (← SBITS 1)) + 1) * scale) >>> (5 : Nat)
      DUMPBITS 12
      return val
    else
      let level ← escapeLevel
      let val := ((2 * (if level < 0 then level - 1 else level) + 1) * scale).tdiv 32
      return odd (if val < 0 then val else val - 1)
  else
    let bit1 ← SBITS 1
    let val := ((2 * (tab.level : Int) + 1) * scale) >>> (5 : Nat)
    DUMPBITS 1
    return if bit1 = 0 then val else -val

/-- What the decoding of a code comes to: bits are missing, the block ends with the coefficient `last`, or it has the
coefficient `i`. -/
inductive Fetched
  | suspended
  | finished (last : Nat)
  | coefficient (i : Nat)

/-- `case 0` of `get_intra_block` and of `get_non_intra_block`, which write `pos4` to `pos[4]` when bits are missing. -/
def fetch (lookup : Decoder → Nat → Option DCTtab) (pos4 i : Nat) : IpuM Fetched := do
  if !(← onCore GETWORD) then
    modifyCmd fun cmd => { cmd with pos4 }
    return .suspended
  else
    match lookup (← onCore decoder) (← onCore (UBITS 16)) with
    | none => return .finished 0
    | some tab => do
      modify fun p => { p with tab := some tab }
      onCore (DUMPBITS tab.len)
      if tab.run = 64 then
        return .finished i
      else
        let i := i + (← if tab.run = 65 then onCore (GETBITS 6) else pure tab.run)
        return if 64 ≤ i then .finished i else .coefficient i

/-- `case 1`: the value of the coefficient `i`, or nothing when bits are missing. -/
def store (value : DCTtab → Nat → StateM Core Int) (pos4 i : Nat) : IpuM Bool := do
  if !(← onCore GETWORD) then
    modifyCmd fun cmd => { cmd with pos4, pos5 := 1 }
    return false
  else
    match ← reads (·.tab) with
    | none => fun _ => none
    | some tab => do
      let val ← onCore (value tab i)
      onCore (modifyDecoder fun decoder =>
        { decoder with DCTblock := decoder.DCTblock.setIfInBounds (scan decoder.scantype i) (saturate val) })
      modifyCmd fun cmd => { cmd with pos5 := 0 }
      return true

/-- The loop over the coefficients, from `i` on, which gives the last one, or nothing when bits are missing. Every
round but the last takes a coefficient below 64. -/
def blockLoop (lookup : Nat → Decoder → Nat → Option DCTtab) (value : DCTtab → Nat → StateM Core Int)
    (suspendAt : Nat → Nat) : Nat → Nat → IpuM (Option Nat)
  | 0, _ => return none
  | rounds + 1, i => do
    match ← if (← readCmd).pos5 = 0 then fetch (lookup i) (suspendAt i) i else pure (.coefficient i) with
    | .suspended => return none
    | .finished last => do
      modifyCmd fun cmd => { cmd with pos4 := 0 }
      return some last
    | .coefficient i =>
      if ← store value (suspendAt i) i then
        blockLoop lookup value suspendAt rounds (i + 1)
      else
        return none

def get_intra_block : IpuM (Option Nat) := do
  blockLoop (fun _ => intraTab) intraValue (· - 1) 65 (1 + (← readCmd).pos4)

def get_non_intra_block : IpuM (Option Nat) := do
  blockLoop (fun i _ => nonIntraTab i) nonIntraValue id 65 (← readCmd).pos4

/-! ## Blocks -/

def dcDiff (tab : DCtab) : StateM Core Int := do
  DUMPBITS tab.len
  if tab.size = 0 then
    return 0
  else
    let dc_diff ← GETBITS tab.size
    return if dc_diff < 2 ^ (tab.size - 1) then dc_diff - (2 ^ tab.size - 1) else dc_diff

def get_luma_dc_dct_diff : StateM Core Int := do
  let code ← UBITS 5
  if code < 31 then
    dcDiff (DCtable.lum0.getD code ⟨0, 0⟩)
  else
    dcDiff (DCtable.lum1.getD ((← UBITS 9) - 0x1f0) ⟨0, 0⟩)

def get_chroma_dc_dct_diff : StateM Core Int := do
  let code ← UBITS 5
  if code < 31 then
    dcDiff (DCtable.chrom0.getD code ⟨0, 0⟩)
  else
    dcDiff (DCtable.chrom1.getD ((← UBITS 10) - 0x3e0) ⟨0, 0⟩)

theorem DCTblock_size : 0 < 64 := by decide

/-- The DC coefficient of a block of the component `cc`. -/
def dcCoefficient (cc : Fin 3) : StateM Core Unit := do
  let diff ← if cc = 0 then get_luma_dc_dct_diff else get_chroma_dc_dct_diff
  modifyDecoder fun decoder =>
    let pred := s16 (decoder.dc_dct_pred[cc] + diff)
    { decoder with
      dc_dct_pred := decoder.dc_dct_pred.set cc pred
      DCTblock := decoder.DCTblock.set 0 (s16 (pred * 2 ^ (3 - decoder.intra_dc_precision))) DCTblock_size }

/-- The part of `slice_intra_DCT` in front of the other coefficients. -/
def intraDC (cc : Fin 3) (skip : Bool) : IpuM Bool := do
  if !skip || (← readCmd).pos3 ≠ 0 then
    modifyCmd fun cmd => { cmd with pos3 := 0 }
    if !(← onCore GETWORD) then
      modifyCmd fun cmd => { cmd with pos3 := 1 }
      return false
    else
      onCore (dcCoefficient cc)
      return true
  else
    return true

/-- A block of a macroblock: its number, its component, and its place with the stride. -/
structure Block where
  number : Nat
  cc : Fin 3
  offset : Nat
  stride : Nat

def blocks (macroblock_modes : Nat) : List Block :=
  let DCT_offset := if macroblock_modes &&& DCT_TYPE_INTERLACED ≠ 0 then decoder_stride else decoder_stride * 8
  let DCT_stride := if macroblock_modes &&& DCT_TYPE_INTERLACED ≠ 0 then decoder_stride * 2 else decoder_stride
  [⟨1, 0, 0, DCT_stride⟩, ⟨2, 0, 8, DCT_stride⟩, ⟨3, 0, DCT_offset, DCT_stride⟩,
    ⟨4, 0, DCT_offset + 8, DCT_stride⟩, ⟨5, 1, 256, decoder_stride / 2⟩, ⟨6, 2, 320, decoder_stride / 2⟩]

def zeroBlock : Vector Int 64 := Vector.replicate 64 0

def slice_intra_DCT (kernels : Kernels) (block : Block) (skip : Bool) : IpuM Bool := do
  if !(← intraDC block.cc skip) then
    return false
  else
    match ← get_intra_block with
    | none => return false
    | some _ => do
      onCore (modifyDecoder fun decoder => { decoder with
        mb8 := kernels.idctCopy decoder.DCTblock block.offset block.stride decoder.mb8
        DCTblock := zeroBlock })
      return true

def slice_non_intra_DCT (kernels : Kernels) (block : Block) (skip : Bool) : IpuM Bool := do
  onCore (modifyDecoder fun decoder => if skip then decoder else { decoder with DCTblock := zeroBlock })
  match ← get_non_intra_block with
  | none => return false
  | some last => do
    onCore (modifyDecoder fun decoder =>
      let (mb16, DCTblock) := kernels.idctAdd last decoder.DCTblock block.offset block.stride decoder.mb16
      { decoder with mb16, DCTblock })
    return true

/-- The blocks from the one on in which decoding was suspended, which `entry` has. -/
def blocksFrom (slice : Block → Bool → IpuM Bool) (suspend : Nat → IpuCmd → IpuCmd) (entry : Nat) :
    List Block → IpuM Bool
  | [] => return true
  | block :: rest => do
    if block.number < entry then
      blocksFrom slice suspend entry rest
    else if ← slice block (entry == block.number) then
      blocksFrom slice suspend entry rest
    else
      modifyCmd (suspend block.number)
      return false

end Pcsx2.Ipu
