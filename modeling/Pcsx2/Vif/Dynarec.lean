import Pcsx2.Vif.Reference

/-!
# The recompiler's UNPACK

The instructions that `CompileRoutine` emits, and what they do. Displacements from the destination
are in quadwords, those from the source in bytes; that `ShiftDisplacementWindow` moves a part of one
into its address register is left out.
-/

namespace Pcsx2.Vif

/-! ## Instructions -/

/-- `xmm0` to `xmm7` and `xmm15` by what they are used for. -/
inductive Reg
  | destReg
  | workReg
  | colRegs (cycle : Fin 4)
  | rowReg
  | tmpReg
  | zeroReg
  deriving DecidableEq

inductive Instr
  /-- `xMOVAPS` from and to `MaskRow` or `MaskCol`. -/
  | loadMask (reg : Reg) (mask : MaskReg)
  | saveMask (mask : MaskReg) (reg : Reg)
  /-- `xMOVUPS`, `xMOVSSZX` and `xPMOVSX` or `xPMOVZX` from the source. -/
  | movups (reg : Reg) (src : Nat)
  | movsszx (reg : Reg) (src : Nat)
  | pmovxx (usn : Bool) (vl : BitVec 2) (reg : Reg) (src : Nat)
  | movaps (dest src : Reg)
  | movss (dest src : Reg)
  | blendps (dest src : Reg) (imm : BitVec 4)
  | pshufd (dest src : Reg) (imm : BitVec 8)
  | pslld (reg : Reg) (n : Nat)
  | psrld (reg : Reg) (n : Nat)
  | paddd (dest src : Reg)
  | pxor (dest src : Reg)
  /-- `xMOVAPS`, `xMOVL.PS`, `xMOVH.PS`, `xMOVSS` and `xEXTRACTPS` to memory: so many words of the register, from
  one on, go to the words of the quadword from another one on. -/
  | store (quad word : Nat) (reg : Reg) (lane count : Nat)

/-- The registers, the VU's memory, `MaskRow` and `MaskCol`. -/
structure Machine where
  xmm : Reg → Quad
  mem : Nat → Quad
  mask : MaskReg → Quad

namespace Machine

def set (m : Machine) (reg : Reg) (value : Quad) : Machine := { m with xmm := Function.update m.xmm reg value }

variable (start : Nat) (src : Source)

/-- `start` is the quadword the destination register points to. -/
def exec (m : Machine) : Instr → Machine
  | .loadMask reg mask => m.set reg (m.mask mask)
  | .saveMask mask reg => { m with mask := Function.update m.mask mask (m.xmm reg) }
  | .movups reg pos => m.set reg fun i => src.word (pos + 4 * i)
  | .movsszx reg pos => m.set reg fun i => if i.val = 0 then src.word pos else 0
  | .pmovxx usn vl reg pos => m.set reg fun i => src.element usn vl pos i
  | .movaps dest src => m.set dest (m.xmm src)
  | .movss dest src => m.set dest fun i => if i.val = 0 then m.xmm src i else m.xmm dest i
  | .blendps dest src imm => m.set dest fun i => if imm.getLsbD i then m.xmm src i else m.xmm dest i
  | .pshufd dest src imm => m.set dest fun i => m.xmm src (imm.extractLsb' (2 * i) 2).toFin
  | .pslld reg n => m.set reg fun i => m.xmm reg i <<< n
  | .psrld reg n => m.set reg fun i => m.xmm reg i >>> n
  | .paddd dest src => m.set dest fun i => m.xmm dest i + m.xmm src i
  | .pxor dest src => m.set dest fun i => m.xmm dest i ^^^ m.xmm src i
  | .store quad word reg lane count =>
      { m with mem := Function.update m.mem (start + quad) fun i =>
          if word ≤ i.val ∧ i.val < word + count then m.xmm reg (Fin.ofNat 4 (lane + (i.val - word)))
          else m.mem (start + quad) i }

def run (m : Machine) (code : List Instr) : Machine := code.foldl (exec start src) m

end Machine

/-! ## Merging and saving some words -/

/-- `xyzw` has a bit for each word, the highest one for X. -/
def mVUmergeRegs (dest src : Reg) (xyzw : BitVec 4) : List Instr :=
  if dest ≠ src ∧ xyzw ≠ 0 then
    if xyzw = 0x8 then [.movss dest src]
    else if xyzw = 0xf then [.movaps dest src]
    else [.blendps dest src
      (((xyzw &&& 1) <<< 3) ||| ((xyzw &&& 2) <<< 1) ||| ((xyzw &&& 4) >>> 1) ||| ((xyzw &&& 8) >>> 3))]
  else []

def mVUunpack_xyzw (dstreg srcreg : Reg) (xyzw : Nat) : List Instr :=
  match xyzw with
  | 0 => [.pshufd dstreg srcreg 0x00]
  | 1 => [.pshufd dstreg srcreg 0x55]
  | 2 => [.pshufd dstreg srcreg 0xaa]
  | 3 => [.pshufd dstreg srcreg 0xff]
  | _ => []

/-- With `modXYZW` false. It changes the register, too. -/
def mVUsaveReg (reg : Reg) (quad : Nat) (xyzw : BitVec 4) : List Instr :=
  match xyzw.toNat with
  | 5 => [.store quad 1 reg 1 1, .store quad 3 reg 3 1]
  | 6 => [.pshufd reg reg 0xc9, .store quad 1 reg 0 2]
  | 7 => [.store quad 2 reg 2 2, .store quad 1 reg 1 1]
  | 9 => [.store quad 0 reg 0 1, .store quad 3 reg 3 1]
  | 10 => [.store quad 0 reg 0 1, .store quad 2 reg 2 1]
  | 11 => [.store quad 0 reg 0 1, .store quad 2 reg 2 2]
  | 13 => [.store quad 0 reg 0 2, .store quad 3 reg 3 1]
  | 14 => [.store quad 0 reg 0 2, .store quad 2 reg 2 1]
  | 4 => mVUunpack_xyzw reg reg 1 ++ [.store quad 1 reg 0 1]
  | 2 => mVUunpack_xyzw reg reg 2 ++ [.store quad 2 reg 0 1]
  | 1 => mVUunpack_xyzw reg reg 3 ++ [.store quad 3 reg 0 1]
  | 8 => [.store quad 0 reg 0 1]
  | 12 => [.store quad 0 reg 0 2]
  | 3 => [.store quad 2 reg 2 2]
  | _ => [.store quad 0 reg 0 4]

/-! ## The compiler -/

/-- The fields of `nVifBlock` that say what to compile. -/
structure Block where
  num : BitVec 8
  upkType : BitVec 8
  mask : Word
  mode : BitVec 8
  aligned : BitVec 8
  cl : BitVec 8
  wl : BitVec 8
  deriving DecidableEq

namespace Block

variable (b : Block)

def cycle : Cycle := ⟨b.cl, b.wl⟩

def isFill : Bool := b.cycle.isFill

def usn : Bool := b.upkType.getLsbD 5

def doMask : Bool := b.upkType.getLsbD 4

def upkNum : BitVec 4 := b.upkType.extractLsb' 0 4

def doMode : BitVec 2 := if b.upkNum = 0xf then 0 else b.mode.extractLsb' 0 2

def setMasks (cS : Nat) : List Instr :=
  let m0 := b.mask
  let m3 := ((m0 &&& 0xaaaaaaaa) >>> 1) &&& ~~~m0
  let m2 := (m0 &&& 0x55555555) &&& (~~~m0 >>> 1)
  (if (b.doMask ∧ m2 ≠ 0) ∨ b.doMode ≠ 0 then [.loadMask .rowReg .row] else []) ++
  (if b.doMask ∧ m3 ≠ 0 then
    [.loadMask (.colRegs 0) .col] ++
    (if 2 ≤ cS ∧ m3 &&& 0x0000ff00 ≠ 0 then [.pshufd (.colRegs 1) (.colRegs 0) 0x55] else []) ++
    (if 3 ≤ cS ∧ m3 &&& 0x00ff0000 ≠ 0 then [.pshufd (.colRegs 2) (.colRegs 0) 0xaa] else []) ++
    (if 4 ≤ cS ∧ m3 &&& 0xff000000 ≠ 0 then [.pshufd (.colRegs 3) (.colRegs 0) 0xff] else []) ++
    (if 1 ≤ cS ∧ m3 &&& 0x000000ff ≠ 0 then [.pshufd (.colRegs 0) (.colRegs 0) 0x00] else [])
  else [])

end Block

def makeMergeMask (x : Word) : BitVec 4 :=
  (((x &&& 0x40) >>> 6) ||| ((x &&& 0x10) >>> 3) ||| (x &&& 4) ||| ((x &&& 1) <<< 3)).setWidth 4

/-- Where the compiler is: the displacements, `vCL` and `UnpkLoopIteration`. -/
structure Emitter where
  dst : Nat
  src : Nat
  vCL : Nat
  iteration : Nat
  deriving DecidableEq

namespace Emitter

variable (b : Block) (e : Emitter)

/-- `min(vCL, 3)` -/
def cc : Fin 4 := ⟨min e.vCL 3, by omega⟩

def fullMask : Word := (b.mask >>> (8 * e.cc.val)) &&& 0xff

def skipProcessing : Bool := b.doMask && e.fullMask b = 0xff

def inputMasked : Bool := b.doMask && ((e.fullMask b >>> 1) ||| e.fullMask b) &&& 0x55 = 0x55

def mergeMasks : BitVec 4 × BitVec 4 × BitVec 4 :=
  let m0 := e.fullMask b
  let m3 := ((m0 &&& 0xaa) >>> 1) &&& ~~~m0
  let m2 := (m0 &&& 0x55) &&& (~~~m0 >>> 1)
  let m4 := (m0 &&& ~~~((m3 <<< 1) ||| m2)) &&& 0x55
  (makeMergeMask m2, makeMergeMask m3, makeMergeMask m4)

/-- The part of `doMaskWrite` for the words that take data. -/
def doModeWrite (regX : Reg) (m5 : BitVec 4) : List Instr :=
  if m5 < 0xf then
    if b.doMode = 3 then mVUmergeRegs .rowReg regX m5
    else
      [.pxor .tmpReg .tmpReg] ++ mVUmergeRegs .tmpReg .rowReg m5 ++ [.paddd regX .tmpReg] ++
      (if b.doMode = 2 then mVUmergeRegs .rowReg regX m5 else [])
  else
    if b.doMode = 3 then [.movaps .rowReg regX]
    else [.paddd regX .rowReg] ++ (if b.doMode = 2 then [.movaps .rowReg regX] else [])

def doMaskWrite (regX : Reg) : List Instr :=
  let (m2, m3, m4) := e.mergeMasks b
  (if b.doMask ∧ m2 ≠ 0 then mVUmergeRegs regX .rowReg m2 else []) ++
  (if b.doMask ∧ m3 ≠ 0 then mVUmergeRegs regX (.colRegs e.cc) m3 else []) ++
  (if b.doMode ≠ 0 then doModeWrite b regX (if b.doMask then ~~~(m2 ||| m3 ||| m4) else 0xf) else []) ++
  (if b.doMask ∧ m4 ≠ 0 then mVUsaveReg regX e.dst (m4 ^^^ 0xf) else [.store e.dst 0 regX 0 4])

def xMovDest : List Instr :=
  if e.skipProcessing b then []
  else if b.doMode = 0 ∧ b.doMask = false then [.store e.dst 0 .destReg 0 4]
  else e.doMaskWrite b .destReg

/-- Each load of `UPK_S` serves four iterations. -/
def xUPK_S (load : Instr) : List Instr :=
  (if e.iteration = 0 then [load] else []) ++
  (if e.inputMasked b then []
  else match e.iteration with
    | 0 => [.pshufd .destReg .workReg 0x00]
    | 1 => [.pshufd .destReg .workReg 0x55]
    | 2 => [.pshufd .destReg .workReg 0xaa]
    | 3 => [.pshufd .destReg .workReg 0xff]
    | _ => [])

/-- Each load of `UPK_V2` serves two iterations. -/
def xUPK_V2 (load : Instr) (zeroW : Bool) : List Instr :=
  (if e.iteration = 0 then [load] else []) ++
  (if e.inputMasked b then []
  else [.pshufd .destReg .workReg (if e.iteration = 0 then 0x44 else 0xee)] ++
    (if zeroW then [.blendps .destReg .zeroReg 0x8] else []))

def xUPK_V3 (load : Instr) (zeroW : Bool) : List Instr :=
  if e.inputMasked b then [] else [load] ++ (if zeroW then [.blendps .destReg .zeroReg 0x8] else [])

def xUPK_V4 (load : Instr) : List Instr := if e.inputMasked b then [] else [load]

def xUPK_V4_5 : List Instr :=
  if e.inputMasked b then []
  else
    [.movsszx .workReg e.src, .pshufd .workReg .workReg 0x00, .pslld .workReg 3, .movaps .destReg .workReg,
      .psrld .workReg 8, .pslld .workReg 3] ++ mVUmergeRegs .destReg .workReg 0x4 ++
    [.psrld .workReg 8, .pslld .workReg 3] ++ mVUmergeRegs .destReg .workReg 0x2 ++
    [.psrld .workReg 8, .pslld .workReg 7] ++ mVUmergeRegs .destReg .workReg 0x1 ++
    [.pslld .destReg 24, .psrld .destReg 24]

def xUnpack : List Instr :=
  let aligned := b.aligned.toNat
  match b.upkNum.toNat with
  | 0 => e.xUPK_S b (.movups .workReg e.src)
  | 1 => e.xUPK_S b (.pmovxx b.usn 1 .workReg e.src)
  | 2 => e.xUPK_S b (.pmovxx b.usn 2 .workReg e.src)
  | 4 => e.xUPK_V2 b (.movups .workReg e.src) (aligned ≠ 0)
  | 5 => e.xUPK_V2 b (.pmovxx b.usn 1 .workReg e.src) false
  | 6 => e.xUPK_V2 b (.pmovxx b.usn 2 .workReg e.src) false
  | 8 => e.xUPK_V3 b (.movups .destReg e.src) (e.iteration ≠ aligned)
  -- W becomes 0 where the data ends on a quadword boundary of the packet
  | 9 => e.xUPK_V3 b (.pmovxx b.usn 1 .destReg e.src)
      (e.iteration % 2 = 0 && (((e.iteration / 4 : Nat) + 1 + (4 - aligned : Int)) % 4 = 0))
  | 10 => e.xUPK_V3 b (.pmovxx b.usn 2 .destReg e.src) (e.iteration ≠ aligned)
  | 12 => e.xUPK_V4 b (.movups .destReg e.src)
  | 13 => e.xUPK_V4 b (.pmovxx b.usn 1 .destReg e.src)
  | 14 => e.xUPK_V4 b (.pmovxx b.usn 2 .destReg e.src)
  | 15 => e.xUPK_V4_5 b
  | _ => []

def modUnpack (postOp : Bool) : Emitter :=
  match b.upkNum.toNat with
  | 0 | 1 | 2 => if postOp then { e with iteration := (e.iteration + 1) % 4 } else e
  | 4 | 5 | 6 | 8 => if postOp then { e with iteration := (e.iteration + 1) % 2 } else e
  | 9 | 10 => if postOp then e else { e with iteration := e.iteration + 1 }
  | _ => e

def cycleSize : Nat := if b.isFill then b.cl.toNat else b.cycle.writes

def blockSize : Nat := if b.isFill then b.cycle.writes else b.cl.toNat

/-- `++vCL`, back to the first cycle of the block after its last one. -/
def nextCycle : Emitter := { e with vCL := if e.vCL + 1 = blockSize b then 0 else e.vCL + 1 }

def skip : Emitter :=
  if cycleSize b ≤ e.vCL ∧ b.isFill = false then
    { e with dst := e.dst + (blockSize b - cycleSize b), vCL := 0 }
  else e

def write : List Instr × Emitter :=
  if e.vCL < cycleSize b then
    let e := e.modUnpack b false
    let code := e.xUnpack b ++ e.xMovDest b
    let e := e.modUnpack b true
    (code, { e with dst := e.dst + 1, src := e.src + nVifT b.upkNum }.nextCycle b)
  else
    -- filling does not advance the source
    (e.xUnpack b ++ e.xMovDest b, { e with dst := e.dst + 1 }.nextCycle b)

/-- The loop of `CompileRoutine`: a pass that skips comes only before one that writes. -/
def emit (b : Block) : Nat → Emitter → List Instr
  | 0, _ => []
  | vNum + 1, e => ((e.skip b).write b).1 ++ emit b vNum ((e.skip b).write b).2

end Emitter

/-- The code up to the return. -/
def Block.compileRoutine (b : Block) : List Instr :=
  let needXmmZero := (8 ≤ b.upkNum.toNat ∧ b.upkNum.toNat ≤ 10) ∨ b.upkNum.toNat = 4
  b.setMasks (if b.isFill then Emitter.blockSize b else Emitter.cycleSize b) ++
  (if needXmmZero then [.pxor .zeroReg .zeroReg] else []) ++
  Emitter.emit b (vifNum b.num) ⟨0, 0, 0, 0⟩ ++
  (if 2 ≤ b.doMode then [.saveMask .row .rowReg] else [])

end Pcsx2.Vif
