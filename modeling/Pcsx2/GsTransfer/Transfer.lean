import Mathlib.Algebra.Order.Ring.Int
import Mathlib.Data.List.Range
import Mathlib.Logic.Function.Basic

/-!
# The path of a packet

What the GS keeps of a tag while it reads the data behind it.
-/

namespace Pcsx2.GsTransfer

scoped instance neZeroContexts : NeZero 2 := ⟨Nat.succ_ne_zero 1⟩

/-- 16 bytes of a packet. -/
structure Quadword where
  lo : UInt64
  hi : UInt64
  deriving DecidableEq

inductive GIF_FLG
  | PACKED
  | REGLIST
  | IMAGE
  | IMAGE2
  deriving DecidableEq

def GIF_FLG.ofBits : Nat → GIF_FLG
  | 0 => PACKED
  | 1 => REGLIST
  | 2 => IMAGE
  | _ => IMAGE2

structure GIFTag where
  NLOOP : Nat
  EOP : Bool
  PRE : Bool
  PRIM : Nat
  FLG : GIF_FLG
  NREG : Nat
  REGS : Nat
  deriving DecidableEq

def GIFTag.ofQuadword (q : Quadword) : GIFTag where
  NLOOP := q.lo.toNat % 2 ^ 15
  EOP := q.lo.toNat / 2 ^ 15 % 2 == 1
  PRE := q.lo.toNat / 2 ^ 46 % 2 == 1
  PRIM := q.lo.toNat / 2 ^ 47 % 2 ^ 11
  FLG := .ofBits (q.lo.toNat / 2 ^ 58 % 4)
  NREG := q.lo.toNat / 2 ^ 60 % 2 ^ 4
  REGS := q.hi.toNat

inductive PathType
  | UNKNOWN
  | ADONLY
  | STQRGBAXYZF2
  | STQRGBAXYZ2
  deriving DecidableEq

/-- `regs` has 16 bytes, of which those from `nreg` on are zero. -/
structure GIFPath where
  tag : GIFTag
  nloop : Nat
  nreg : Nat
  reg : Nat
  type : PathType
  regs : Nat → Nat

namespace GIFPath

/-- After `Reset`. -/
def reset : GIFPath where
  tag := { NLOOP := 0, EOP := false, PRE := false, PRIM := 0, FLG := .PACKED, NREG := 0, REGS := 0 }
  nloop := 0
  nreg := 0
  reg := 0
  type := .UNKNOWN
  regs _ := 0

/-- `regs.U32`. -/
def U32 (regs : Nat → Nat) (k : Nat) : Nat :=
  regs (4 * k) + 2 ^ 8 * regs (4 * k + 1) + 2 ^ 16 * regs (4 * k + 2) + 2 ^ 24 * regs (4 * k + 3)

/-- `NREG` has 4 bits, and zero stands for 16. -/
def nregOf (NREG : Nat) : Nat := if NREG = 0 then 16 else NREG

/-- The nibbles of `REGS`, a byte each. -/
def regsOf (REGS nreg j : Nat) : Nat := if j < nreg then REGS / 2 ^ (4 * j) % 2 ^ 4 else 0

def adOnly (regs : Nat → Nat) (nreg : Nat) : Bool :=
  (List.range 16).all fun j => (regs j == 0x0E) == decide (j < nreg)

def typeOf (regs : Nat → Nat) (nreg nloop : Nat) : PathType × Nat × Nat :=
  if adOnly regs nreg then (.ADONLY, nreg, nloop)
  else
    match nreg with
    | 3 =>
      if U32 regs 0 = 0x00050102 then (.STQRGBAXYZ2, nreg, nloop)
      else if U32 regs 0 = 0x00040102 then (.STQRGBAXYZF2, nreg, nloop)
      else (.UNKNOWN, nreg, nloop)
    | 9 =>
      if U32 regs 0 = 0x02040102 ∧ U32 regs 1 = 0x01020401 ∧ U32 regs 2 = 0x00000004 then (.STQRGBAXYZF2, 3, nloop * 3)
      else (.UNKNOWN, nreg, nloop)
    | 12 =>
      if U32 regs 0 = 0x02040102 ∧ U32 regs 1 = 0x01020401 ∧ U32 regs 2 = 0x04010204 then (.STQRGBAXYZF2, 3, nloop * 4)
      else (.UNKNOWN, nreg, nloop)
    | _ => (.UNKNOWN, nreg, nloop)

def typedOf (src : GIFTag) : PathType × Nat × Nat :=
  let nreg := nregOf src.NREG
  if src.FLG = .PACKED then typeOf (regsOf src.REGS nreg) nreg src.NLOOP else (.UNKNOWN, nreg, src.NLOOP)

/-- `REGS` is not stored in the tag. -/
def SetTag (path : GIFPath) (src : GIFTag) : GIFPath :=
  let tag := { src with REGS := path.tag.REGS }
  if src.NLOOP = 0 then { path with tag, nloop := 0 }
  else
    { tag
      nloop := (typedOf src).2.2
      nreg := (typedOf src).2.1
      reg := 0
      type := (typedOf src).1
      regs := regsOf src.REGS (nregOf src.NREG) }

def GetReg (path : GIFPath) : Nat := path.regs path.reg

def StepReg (path : GIFPath) : GIFPath × Bool :=
  if path.reg + 1 = path.nreg then
    ({ path with reg := 0, nloop := path.nloop - 1 }, path.nloop - 1 ≠ 0)
  else ({ path with reg := path.reg + 1 }, true)

end GIFPath

/-! ## Effects -/

/-- What the handlers get: the register of a PACKED quadword, the address of a 64-bit register, and a quadword of
image data. `resetQ` and `prim` come from the tag. -/
inductive Effect
  | resetQ
  | prim (PRIM : Nat)
  | packed (reg : Nat) (r : Quadword)
  | register (address : Nat) (r : UInt64)
  | image (r : Quadword)
  deriving DecidableEq

def GIF_REG_A_D : Nat := 0x0E

def GIFPackedRegHandlerA_D (r : Quadword) : Effect := .register (r.hi.toNat % 2 ^ 7) r.lo

/-- `m_fpGIFPackedRegHandlers`. -/
def packedRegHandler (reg : Nat) (r : Quadword) : Effect :=
  if reg = GIF_REG_A_D then GIFPackedRegHandlerA_D r else .packed reg r

end Pcsx2.GsTransfer

/-!
# The transfer of packets

`Transfer` reads tags and their data from one buffer. A result of `none` is that it reads what is not in the buffer,
or does not end.
-/

namespace Pcsx2.GsTransfer

/-! ## Loops over data -/

namespace GIFPath

def emit {α : Type} (effects : List Effect) (result : Option (GIFPath × List Effect × α)) :
    Option (GIFPath × List Effect × α) :=
  result.map fun (path, later, rest) => (path, effects ++ later, rest)

def toStart (path : GIFPath) : List Quadword → Option (GIFPath × List Effect × List Quadword)
  | [] => none
  | r :: rest =>
    let effects := [packedRegHandler path.GetReg r]
    let step := path.StepReg
    if step.2 ∧ rest ≠ [] ∧ step.1.reg ≠ 0 then emit effects (toStart step.1 rest)
    else some (step.1, effects, rest)

/-- `--total` of a `u32`. -/
def decrement (total : Nat) : Nat := if total = 0 then 2 ^ 32 - 1 else total - 1

/-- The loop over all data that is left, which `TYPE_UNKNOWN` and `TYPE_ADONLY` have. -/
def whole (handler : Nat → Quadword → Effect) (nreg : Nat) :
    Nat → Nat → List Quadword → Option (List Effect × List Quadword)
  | _, _, [] => none
  | reg, total, r :: rest =>
    let effect := handler reg r
    let next := if reg + 1 < nreg then reg + 1 else 0
    if decrement total = 0 then some ([effect], rest)
    else (whole handler nreg next (decrement total) rest).map fun (effects, rest) => (effect :: effects, rest)

def threes (XYZ : Nat) : Nat → List Quadword → Option (List Effect × List Quadword)
  | 1, stq :: rgba :: xyz :: rest =>
    some ([packedRegHandler 0x02 stq, packedRegHandler 0x01 rgba, packedRegHandler XYZ xyz], rest)
  | count + 2, stq :: rgba :: xyz :: rest =>
    (threes XYZ (count + 1) rest).map fun (effects, rest) =>
      (packedRegHandler 0x02 stq :: packedRegHandler 0x01 rgba :: packedRegHandler XYZ xyz :: effects, rest)
  | _, _ => none

def bulk (path : GIFPath) (total : Nat) (data : List Quadword) : Option (List Effect × List Quadword) :=
  match path.type with
  | .UNKNOWN => whole (fun reg r => packedRegHandler (path.regs reg) r) path.nreg 0 total data
  | .ADONLY => whole (fun _ r => GIFPackedRegHandlerA_D r) path.nreg 0 total data
  | .STQRGBAXYZF2 => threes 0x04 (total / 3) data
  | .STQRGBAXYZ2 => threes 0x05 (total / 3) data

/-- The loop that goes on to the end of the data or of the packet. -/
def loop {α : Type} (handler : Nat → α → Effect) (path : GIFPath) : List α → Option (GIFPath × List Effect × List α)
  | [] => none
  | r :: rest =>
    let effects := [handler path.GetReg r]
    let step := path.StepReg
    if step.2 ∧ rest ≠ [] then emit effects (loop handler step.1 rest)
    else some (step.1, effects, rest)

def fromStart (path : GIFPath) (data : List Quadword) : Option (GIFPath × List Effect × List Quadword) :=
  let total := path.nloop * path.nreg
  if total ≤ data.length then
    (path.bulk total data).map fun (effects, rest) => ({ path with nloop := 0 }, effects, rest)
  else path.loop packedRegHandler data

def packed (path : GIFPath) (data : List Quadword) : Option (GIFPath × List Effect × List Quadword) :=
  if path.reg ≠ 0 then do
    let (path, effects, rest) ← path.toStart data
    emit effects (path.fromStart rest)
  else path.fromStart data

def halves (data : List Quadword) : List UInt64 := data.flatMap fun r => [r.lo, r.hi]

def reglist (path : GIFPath) (data : List Quadword) : Option (GIFPath × List Effect × List Quadword) := do
  let (path, effects, rest) ← path.loop .register (halves data)
  some (path, effects, data.drop (data.length - rest.length / 2))

/-- The data goes to `Write`, when `TRXDIR` has it so. -/
def image (path : GIFPath) (data : List Quadword) : Option (GIFPath × List Effect × List Quadword) :=
  let len := min data.length path.nloop
  some ({ path with nloop := path.nloop - len }, (data.take len).map .image, data.drop len)

def tagEffects (tag : GIFTag) : List Effect :=
  .resetQ :: if tag.PRE ∧ tag.FLG = .PACKED then [.prim tag.PRIM] else []

def pass (path : GIFPath) : List Quadword → Option (GIFPath × List Effect × List Quadword)
  | [] => none
  | r :: rest =>
    if path.nloop = 0 then
      let path := path.SetTag (.ofQuadword r)
      some (path, if 0 < path.nloop then tagEffects path.tag else [], rest)
    else
      match path.tag.FLG with
      | .PACKED => path.packed (r :: rest)
      | .REGLIST => path.reglist (r :: rest)
      | .IMAGE | .IMAGE2 => path.image (r :: rest)

def passes (index : Nat) : Nat → GIFPath → List Quadword → Option (GIFPath × List Effect × List Quadword)
  | _, path, [] => some (path, [], [])
  | 0, _, _ :: _ => none
  | fuel + 1, path, r :: rest => do
    let (path, effects, data) ← path.pass (r :: rest)
    if index = 0 ∧ path.tag.EOP ∧ path.nloop = 0 then some (path, effects, data)
    else emit effects (passes index fuel path data)

end GIFPath

/-- A buffer, the size of which is counted in half quadwords by a `u32` too. -/
structure Source where
  data : List Quadword
  fits : data.length < 2 ^ 31

def Transfer (index : Nat) (path : GIFPath) (source : Source) : Option (GIFPath × List Effect) := do
  let (path, effects, data) ← path.passes index source.data.length source.data
  -- Of path 0, a packet that the buffer does not end is given up.
  if index = 0 ∧ data = [] ∧ 0 < path.nloop then some ({ path with nloop := 0 }, effects)
  else some (path, effects)

/-- Calls on one path. -/
def transfers (index : Nat) (path : GIFPath) : List Source → Option (GIFPath × List Effect)
  | [] => some (path, [])
  | source :: later => do
    let (path, effects) ← Transfer index path source
    let (path, rest) ← transfers index path later
    some (path, effects ++ rest)

end Pcsx2.GsTransfer
