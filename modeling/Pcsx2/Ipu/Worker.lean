import Pcsx2.Ipu.Commands

/-!
# The registers of the IPU and its runs

A command is started by a write to its register, and the worker is entered again by the interrupts that data, room
for data and time bring about. A run is a list of such events, in any order.
-/

namespace Pcsx2.Ipu

def onProgress {α : Type} (m : CommandM α) : IpuM α := fun p =>
  let (a, core, progress) := m (p.core, p.cmd.toProgress)
  some (a, { p with core, cmd := { p.cmd with toProgress := progress } })

/-- `jNO_DEFAULT`. -/
def noDefault {α : Type} : IpuM α := fun _ => none

/-! ## The worker -/

def runCommand (kernels : Kernels) (cmd : IpuCmd) : IpuM Bool :=
  match cmd.CMD with
  | 1 => mpeg2sliceIDEC kernels
  | 2 => mpeg2_slice kernels
  | 3 => onProgress (ipuVDEC cmd.current)
  | 4 => onProgress ipuFDEC
  | 5 => onProgress (ipuSETIQ cmd.current)
  | 6 => onProgress ipuSETVQ
  | 7 => onProgress (ipuCSC kernels cmd.current)
  | 8 => onProgress (ipuPACK kernels cmd.current)
  | _ => noDefault

def finishCommand (CMD : Nat) : StateM Core Unit :=
  modifyRegs fun regs => { regs with
    topbusy := regs.topbusy && 4 < CMD
    cmdBUSY := regs.cmdBUSY && 4 < CMD
    ctrl := { regs.ctrl with BUSY := false } }

def IPUWorker (kernels : Kernels) : IpuM Unit := do
  let cmd ← readCmd
  if ← runCommand kernels cmd then
    onCore (finishCommand cmd.CMD)

def IPUProcessInterrupt (kernels : Kernels) : IpuM Unit := do
  if (← onCore get).regs.ctrl.BUSY then
    IPUWorker kernels

/-! ## Writes to the registers -/

def IpuCmd.cleared (current : UInt32) : IpuCmd :=
  { index := 0, pos0 := 0, pos1 := 0, pos2 := 0, pos3 := 0, pos4 := 0, pos5 := 0, current }

def zeroQuad : Quad := Vector.replicate 16 0

/-- `ipu_fifo.in.clear` and the zeroed `g_BP`. -/
def Input.clear (input : Input) (BP : Nat) : Input :=
  { input with fifo := [], internal_qwc := (zeroQuad, zeroQuad), BP, FP := 0, DataRequested := true }

def ipuBCLR (val : UInt32) : StateM Core Unit :=
  modify fun core => { core with
    input := core.input.clear (field val 0 7)
    regs := { core.regs with cmdBUSY := false, ctrl := { core.regs.ctrl with BUSY := false } } }

def ipuSETTH (val : UInt32) : StateM Core Unit :=
  modify fun core => { core with
    thresh := (.ofNat (field val 0 9), .ofNat (field val 16 9))
    regs := { core.regs with ctrl := { core.regs.ctrl with BUSY := false } } }

/-- What both decoding commands take from `IPU_CTRL`. -/
def Decoder.withCtrl (decoder : Decoder) (ctrl : Ctrl) : Decoder :=
  { decoder with
    coding_type := 1
    mpeg1 := ctrl.MP1
    q_scale_type := ctrl.QST
    intra_vlc_format := ctrl.IVF
    scantype := ctrl.AS
    intra_dc_precision := ctrl.IDP }

def ipuIDEC (idec : UInt32) : StateM Core Unit :=
  modify fun core =>
    let ctrl := { core.regs.ctrl with PCT := 1 }
    { core with
      regs := { core.regs with ctrl }
      decoder := { core.decoder.withCtrl ctrl with
        quantizer_scale := field idec 16 5
        frame_pred_frame_dct := field idec 24 1 == 0
        sgn := field idec 25 1 == 1
        dte := field idec 26 1 == 1
        ofm := field idec 27 1 == 1
        dcr := true } }

def ipuBDEC (bdec : UInt32) : StateM Core Unit :=
  modify fun core =>
    let decoder := core.decoder.withCtrl core.regs.ctrl
    { core with
      decoder := { decoder with
        quantizer_scale := quantizerScale decoder.q_scale_type (field bdec 16 5)
        macroblock_modes := (if field bdec 25 1 = 1 then DCT_TYPE_INTERLACED else 0) |||
          (if field bdec 27 1 = 1 then MACROBLOCK_INTRA else MACROBLOCK_PATTERN)
        dcr := field bdec 26 1 == 1
        mb8 := Vector.replicate 384 0
        mb16 := Vector.replicate 768 0 } }

def setTopBusy : StateM Core Unit := modifyRegs fun regs => { regs with topbusy := true }

def setDataBusy : StateM Core Unit := modifyRegs fun regs => { regs with cmdBUSY := true, topbusy := true }

def setBusy : StateM Core Unit := modifyCtrl fun ctrl => { ctrl with BUSY := true }

def IPUCMD_WRITE (kernels : Kernels) (val : UInt32) : IpuM Unit := do
  onCore (modifyCtrl fun ctrl => { ctrl with ECD := false, SCD := false })
  modifyCmd fun _ => .cleared val
  match (IpuCmd.cleared val).CMD with
  | 0 => onCore (ipuBCLR val)
  | 9 => onCore (ipuSETTH val)
  | 1 => onCore do
    DUMPBITS (field val 0 6)
    ipuIDEC val
    setTopBusy
    setBusy
    clearWaiting
  | 2 => onCore do
    DUMPBITS (field val 0 6)
    ipuBDEC val
    setTopBusy
    setBusy
    clearWaiting
  | 3 | 4 => do
    onCore do
      DUMPBITS (field val 0 6)
      setDataBusy
      setBusy
    IPUWorker kernels
  | 5 => do
    onCore do
      DUMPBITS (field val 0 6)
      setBusy
    IPUWorker kernels
  | 6 | 7 | 8 => do
    onCore setBusy
    IPUWorker kernels
  | _ => noDefault

def ipuSoftReset : IpuM Unit := do
  onCore (modify fun core => { core with
    input := core.input.clear 0
    output := []
    coded_block_pattern := 0
    thresh := (0, 0)
    decoder := { core.decoder with
      dc_dct_pred :=
        if core.decoder.intra_dc_precision = 0 then Vector.replicate 3 128 else core.decoder.dc_dct_pred }
    regs := { core.regs with
      ctrl := { core.regs.ctrl with ECD := false, SCD := false, BUSY := false }
      top := 0
      cmdBUSY := false
      DATA := 0 } })
  modifyCmd fun _ => .cleared 0xffffffff

/-- A write to `IPU_CTRL`. -/
def ctrlWrite (value : UInt32) : IpuM Unit := do
  onCore (modifyCtrl fun ctrl => { ctrl with
    IDP := if field value 16 2 = 3 then 1 else field value 16 2
    AS := field value 20 1 == 1
    IVF := field value 21 1 == 1
    QST := field value 22 1 == 1
    MP1 := field value 23 1 == 1
    PCT := field value 24 3 })
  if field value 30 1 = 1 then
    ipuSoftReset

/-! ## Reads of the registers -/

inductive Reply
  | nothing
  | accepted (qwc : Nat)
  | quads (data : List Quad)
  | CMD (DATA : Nat) (BUSY : Bool)
  | CTRL (IFC OFC : Nat) (ctrl : Ctrl)
  | BP (ipubp : Nat)
  | TOP (top : Nat) (busy : Bool)

/-- `DATA` takes the next bits, when they are there. -/
def peekDATA : StateM Core Unit := do
  match ← peekBits 32 with
  | none => return ()
  | some DATA => modifyRegs fun regs => { regs with DATA }

/-- Other commands than VDEC and FDEC leave `DATA` to the stream. -/
def readCMD : IpuM Reply := do
  let cmd ← readCmd
  if cmd.CMD ≠ 4 ∧ cmd.CMD ≠ 3 then
    onCore peekDATA
  let regs := (← onCore get).regs
  return .CMD regs.DATA regs.cmdBUSY

def readCTRL : StateM Core Reply := do
  modify fun core => { core with
    regs := { core.regs with ctrl := { core.regs.ctrl with CBP := core.coded_block_pattern } } }
  let core ← get
  return .CTRL core.input.IFC core.output.length core.regs.ctrl

def readBP : StateM Core Reply := do
  let input := (← get).input
  let ipubp := input.BP % 128 ||| (input.IFC <<< 8) ||| (input.FP <<< 16)
  modifyRegs fun regs => { regs with ipubp }
  return .BP ipubp

def readTOP : StateM Core Reply := do
  let regs := (← get).regs
  return .TOP regs.top regs.topbusy

/-! ## The FIFOs -/

def writeInput (data : List Quad) : StateM Core Nat := do
  let core ← get
  let (qwc, input) := core.input.write data
  set { core with input }
  return qwc

def WriteFIFO_IPUin (value : Quad) : StateM Core Reply := do
  let qwc ← writeInput [value]
  if 0 < qwc ∧ (← get).regs.ctrl.BUSY then
    clearWaiting
  return .accepted qwc

/-- `IPU1dma` once its tag is read, with the quadwords from `madr` on. -/
def IPU1dma (data : List Quad) : StateM Core Reply := do
  if !(← get).input.DataRequested then
    modify fun core => { core with input := { core.input with WaitingOnIPUTo := false } }
    return .accepted 0
  else
    let qwc ← writeInput data
    modify fun core => { core with
      input := { core.input with WaitingOnIPUTo := core.input.WaitingOnIPUTo && core.input.IFC == 0 } }
    return .accepted qwc

/-- `IPU_Fifo_Output::read`. -/
def readOutput (size : Nat) : StateM Core Reply := do
  let core ← get
  set { core with output := core.output.drop size }
  return .quads (core.output.take size)

def drainOutput : StateM Core Reply := do
  let core ← get
  let readsize := min core.ipu0ch.qwc core.output.length
  set { core with
    ipu0ch := { core.ipu0ch with qwc := core.ipu0ch.qwc - readsize }
    WaitingOnIPUFrom := core.WaitingOnIPUFrom && !core.regs.ctrl.BUSY }
  readOutput readsize

/-- `pending` has the interrupt of the channel. -/
def IPU0dma (kernels : Kernels) (pending : Bool) : IpuM Reply := do
  let core ← onCore get
  if core.output.isEmpty then
    if core.WaitingOnIPUFrom then
      onCore (modify fun core => { core with WaitingOnIPUFrom := false })
      IPUProcessInterrupt kernels
    return .nothing
  else if !core.ipu0ch.STR || pending || core.ipu0ch.qwc == 0 then
    onCore (modify fun core => { core with WaitingOnIPUFrom := false })
    return .nothing
  else
    onCore drainOutput

/-! ## Runs -/

def Input.started : Input where
  fifo := []
  internal_qwc := (zeroQuad, zeroQuad)
  BP := 0
  FP := 0
  DataRequested := false
  WaitingOnIPUTo := false

/-- `FRAME_PICTURE`, and zero for the rest. -/
def Decoder.started : Decoder where
  DCTblock := zeroBlock
  niq := Vector.replicate 64 0
  iq := Vector.replicate 64 0
  mb8 := Vector.replicate 384 0
  mb16 := Vector.replicate 768 0
  rgb32 := Vector.replicate 1024 0
  rgb16 := Vector.replicate 512 0
  ipu0_data := 0
  ipu0_idx := 0
  quantizer_scale := 0
  coding_type := 0
  dc_dct_pred := Vector.replicate 3 0
  intra_dc_precision := 0
  picture_structure := 3
  frame_pred_frame_dct := false
  q_scale_type := false
  intra_vlc_format := false
  sgn := false
  dte := false
  ofm := false
  macroblock_modes := 0
  dcr := false
  coded_block_pattern := 0
  scantype := false
  mpeg1 := false

def Ctrl.started : Ctrl where
  CBP := 0
  ECD := false
  SCD := false
  IDP := 0
  AS := false
  IVF := false
  QST := false
  MP1 := false
  PCT := 0
  BUSY := false

def IPUregisters.started : IPUregisters where
  DATA := 0
  cmdBUSY := false
  ctrl := .started
  ipubp := 0
  top := 0
  topbusy := false

/-- `ipuReset` in a process that has just been started. -/
def Process.started : Process where
  tab := none
  mbaCount := 0
  readyIDEC := true
  readyBDEC := true
  cmd := .cleared 0xffffffff
  core := {
    input := .started
    output := []
    vqclut := Vector.replicate 32 0
    thresh := (0, 0)
    coded_block_pattern := 0
    decoder := .started
    WaitingOnIPUFrom := false
    regs := .started
    ipu0ch := { STR := false, qwc := 0 } }

inductive Event
  | process
  | IPUCMD_WRITE (val : UInt32)
  | ctrlWrite (value : UInt32)
  | readCMD
  | readCTRL
  | readBP
  | readTOP
  | WriteFIFO_IPUin (value : Quad)
  | IPU1dma (data : List Quad)
  | ReadFIFO_IPUout
  | IPU0dma (pending : Bool)
  | setIpu0ch (channel : Ipu0ch)

def step (kernels : Kernels) : Event → IpuM Reply
  | .process => do
    IPUProcessInterrupt kernels
    return .nothing
  | .IPUCMD_WRITE val => do
    Ipu.IPUCMD_WRITE kernels val
    return .nothing
  | .ctrlWrite value => do
    Ipu.ctrlWrite value
    return .nothing
  | .readCMD => Ipu.readCMD
  | .readCTRL => onCore Ipu.readCTRL
  | .readBP => onCore Ipu.readBP
  | .readTOP => onCore Ipu.readTOP
  | .WriteFIFO_IPUin value => onCore (Ipu.WriteFIFO_IPUin value)
  | .IPU1dma data => onCore (Ipu.IPU1dma data)
  | .ReadFIFO_IPUout => onCore (readOutput 1)
  | .IPU0dma pending => Ipu.IPU0dma kernels pending
  | .setIpu0ch channel => onCore do
    modify fun core => { core with ipu0ch := channel }
    return .nothing

def run (kernels : Kernels) : List Event → IpuM (List Reply)
  | [] => return []
  | event :: events => do
    let reply ← step kernels event
    let replies ← run kernels events
    return reply :: replies

end Pcsx2.Ipu
