import Pcsx2.Foundation.Memory
import Pcsx2.GsMemory.ImageX

/-!
# The CLUT buffer

The loads of `GSClut` and the tests that decide whether one is needed. A load only copies, so it is given by its
stores: the entry of `m_clut` that is written and the halfword of local memory it is taken from.
-/

namespace Pcsx2.GsClut
open Foundation GsMemory

/-! ## Registers -/

structure GIFRegTEX0 where
  psm : BitVec 6
  cbp : BitVec 14
  cpsm : BitVec 4
  csm : BitVec 1
  csa : BitVec 5
  cld : BitVec 3
  deriving DecidableEq

structure GIFRegTEXCLUT where
  cbw : BitVec 6
  cou : BitVec 6
  cov : BitVec 10
  pad : BitVec 10
  deriving DecidableEq

/-- `m_psm[psm].pal`. -/
def pal (psm : BitVec 6) : Nat :=
  if psm = 19 ∨ psm = 27 then 256 else if psm = 20 ∨ psm = 36 ∨ psm = 44 then 16 else 0

/-! ## Vectors of eight halfwords -/

abbrev GSVector4i := List Nat

namespace GSVector4i

def load (src i : Nat) : GSVector4i := Foundation.load id (src + 8 * i) 8

def interleave (a b : List Nat) : GSVector4i := (a.zip b).flatMap fun lanes => [lanes.1, lanes.2]

def upl16 (a b : GSVector4i) : GSVector4i := interleave (a.take 4) (b.take 4)

def uph16 (a b : GSVector4i) : GSVector4i := interleave (a.drop 4) (b.drop 4)

def upl32 (a b : GSVector4i) : GSVector4i := a.take 2 ++ b.take 2 ++ (a.drop 2).take 2 ++ (b.drop 2).take 2

def uph32 (a b : GSVector4i) : GSVector4i :=
  (a.drop 4).take 2 ++ (b.drop 4).take 2 ++ a.drop 6 ++ b.drop 6

end GSVector4i

structure Vectors where
  a : GSVector4i
  b : GSVector4i
  c : GSVector4i
  d : GSVector4i

namespace Vectors

def sw16 (v : Vectors) : Vectors := ⟨v.a.upl16 v.b, v.c.upl16 v.d, v.a.uph16 v.b, v.c.uph16 v.d⟩

def sw32 (v : Vectors) : Vectors := ⟨v.a.upl32 v.b, v.c.upl32 v.d, v.a.uph32 v.b, v.c.uph32 v.d⟩

def swapMiddle (v : Vectors) : Vectors := ⟨v.a, v.c, v.b, v.d⟩

def column (v : Vectors) : Vectors := v.sw16.sw32.swapMiddle.sw16.swapMiddle

def load (src i : Nat) : Vectors := ⟨.load src i, .load src (i + 1), .load src (i + 2), .load src (i + 3)⟩

end Vectors

/-! ## Loads -/

/-- Entries of `m_clut` and the halfwords they are loaded from. -/
abbrev Load := List (Nat × Nat)

def clutTableT32I8 : List Nat :=
  [0, 1, 4, 5, 8, 9, 12, 13, 2, 3, 6, 7, 10, 11, 14, 15,
   64, 65, 68, 69, 72, 73, 76, 77, 66, 67, 70, 71, 74, 75, 78, 79,
   16, 17, 20, 21, 24, 25, 28, 29, 18, 19, 22, 23, 26, 27, 30, 31,
   80, 81, 84, 85, 88, 89, 92, 93, 82, 83, 86, 87, 90, 91, 94, 95,
   32, 33, 36, 37, 40, 41, 44, 45, 34, 35, 38, 39, 42, 43, 46, 47,
   96, 97, 100, 101, 104, 105, 108, 109, 98, 99, 102, 103, 106, 107, 110, 111,
   48, 49, 52, 53, 56, 57, 60, 61, 50, 51, 54, 55, 58, 59, 62, 63,
   112, 113, 116, 117, 120, 121, 124, 125, 114, 115, 118, 119, 122, 123, 126, 127]

def clutTableT16I4 : List Nat := [0, 2, 8, 10, 16, 18, 24, 26, 4, 6, 12, 14, 20, 22, 28, 30]

def writeClutT32I4Csm1 (src clut : Nat) : Load :=
  let v := (Vectors.load src 0).column
  blockStores clut v.a ++ blockStores (clut + 8) v.c ++
    blockStores (clut + 8 * 32) v.b ++ blockStores (clut + 8 * 33) v.d

def writeClutT32I8Csm1 (src clut offset : Nat) : Load :=
  (List.range' offset (16 - offset)).flatMap fun i =>
    let off := i * 16
    let s := clutTableT32I8.getD (off &&& 0x70) 0 ||| (off &&& 0x80)
    writeClutT32I4Csm1 (src + 2 * s) (clut + off)

def writeClutT16I8Csm1 (src clut : Nat) : Load :=
  (List.range 8).flatMap fun j =>
    let i := 4 * j
    let v := (Vectors.load src i).column
    blockStores (clut + 8 * i) v.a ++ blockStores (clut + 8 * (i + 1)) v.c ++
      blockStores (clut + 8 * (i + 2)) v.b ++ blockStores (clut + 8 * (i + 3)) v.d

def writeClutT16I4Csm1 (src clut : Nat) : Load :=
  (List.range 16).map fun i => (clut + i, src + clutTableT16I4.getD i 0)

inductive WriteClut
  | write32I8Csm1
  | write32I4Csm1
  | write16I8Csm1
  | write16I4Csm1
  | write16SI8Csm1
  | write16SI4Csm1
  | write32Csm2 (n : Nat)
  | write16Csm2 (n : Nat)
  | write16SCsm2 (n : Nat)
  | writeNull
  deriving DecidableEq

def m_wcCsm1 (psm : BitVec 6) (eightBit fourBit : WriteClut) : WriteClut :=
  if psm &&& 0x7 = 0x3 then eightBit else if psm &&& 0x7 = 0x4 then fourBit else .writeNull

def m_wcCsm2 (psm : BitVec 6) (csm2 : Nat → WriteClut) : WriteClut :=
  if pal psm = 0 then .writeNull else csm2 (pal psm)

def m_wc (csm : BitVec 1) (cpsm : BitVec 4) (psm : BitVec 6) : WriteClut :=
  if csm = 0 then
    if cpsm = 0 ∨ cpsm = 1 then m_wcCsm1 psm .write32I8Csm1 .write32I4Csm1
    else if cpsm = 2 then m_wcCsm1 psm .write16I8Csm1 .write16I4Csm1
    else if cpsm = 10 then m_wcCsm1 psm .write16SI8Csm1 .write16SI4Csm1
    else .writeNull
  else
    if cpsm = 0 ∨ cpsm = 1 then m_wcCsm2 psm .write32Csm2
    else if cpsm = 2 then m_wcCsm2 psm .write16Csm2
    else if cpsm = 10 then m_wcCsm2 psm .write16SCsm2
    else .writeNull

/-- `BlockPtr(0, 0, bp, 1)` as an index of halfwords. -/
def blockPtr (bp : BitVec 14) : Nat := bp.toNat * 128

/-- `paMulti(TEXCLUT.COU << 4, TEXCLUT.COV)` at `i`. -/
def paletteAddress (tex0 : GIFRegTEX0) (texclut : GIFRegTEXCLUT) (psm : Psm) (i : Nat) : Nat :=
  ((getOffset tex0.cbp.toNat texclut.cbw.toNat psm).paMulti (texclut.cou.toNat <<< 4) texclut.cov.toNat).value i

def WriteClut.load (tex0 : GIFRegTEX0) (texclut : GIFRegTEXCLUT) : WriteClut → Load
  | write32I8Csm1 => writeClutT32I8Csm1 (blockPtr tex0.cbp) 0 (tex0.csa.toNat &&& 15)
  | write32I4Csm1 => writeClutT32I4Csm1 (blockPtr tex0.cbp) ((tex0.csa.toNat &&& 15) <<< 4)
  | write16I8Csm1 | write16SI8Csm1 => writeClutT16I8Csm1 (blockPtr tex0.cbp) (tex0.csa.toNat <<< 4)
  | write16I4Csm1 | write16SI4Csm1 => writeClutT16I4Csm1 (blockPtr tex0.cbp) (tex0.csa.toNat <<< 4)
  | write32Csm2 n =>
      let clut := (tex0.csa.toNat &&& 15) <<< 4
      (List.range n).flatMap fun i =>
        let c := paletteAddress tex0 texclut .PSMCT32 i
        [(clut + i, 2 * c), (clut + i + 256, 2 * c + 1)]
  | write16Csm2 n =>
      (List.range n).map fun i => (tex0.csa.toNat <<< 4 + i, paletteAddress tex0 texclut .PSMCT16 i)
  | write16SCsm2 n =>
      (List.range n).map fun i => (tex0.csa.toNat <<< 4 + i, paletteAddress tex0 texclut .PSMCT16S i)
  | writeNull => []

/-- What `Write` loads for these registers. -/
def GIFRegTEX0.load (tex0 : GIFRegTEX0) (texclut : GIFRegTEXCLUT) : Load :=
  (m_wc tex0.csm tex0.cpsm tex0.psm).load tex0 texclut

def Load.perform (load : Load) (vm : Vm) (clut : Nat → BitVec 16) : Nat → BitVec 16 :=
  Foundation.perform clut (load.map fun store => (store.1, vm.get16 store.2))

/-! ## GSClut -/

structure WriteState where
  tex0 : GIFRegTEX0 := ⟨0, 0, 0, 0, 0, 0⟩
  texclut : GIFRegTEXCLUT := ⟨0, 0, 0, 0⟩
  dirty : BitVec 8 := 1
  next_tex0 : GIFRegTEX0 := ⟨0, 0, 0, 0, 0, 0⟩

structure GSClut where
  m_CBP0 : BitVec 14 := 0
  m_CBP1 : BitVec 14 := 0
  m_clut : Nat → BitVec 16 := fun _ => 0
  m_write : WriteState := {}

def GIFRegTEX0.SamePalette (a b : GIFRegTEX0) : Prop :=
  a.cbp = b.cbp ∧ a.cpsm = b.cpsm ∧ a.csm = b.csm ∧ a.csa = b.csa

instance (a b : GIFRegTEX0) : Decidable (a.SamePalette b) := inferInstanceAs (Decidable (_ ∧ _))

def WriteState.isDirty (s : WriteState) (tex0 : GIFRegTEX0) (texclut : GIFRegTEXCLUT) : Bool × WriteState :=
  let isDirty : Bool := s.dirty ≠ 0
  let isDirty :=
    if ¬s.tex0.SamePalette tex0 ∨ pal s.tex0.psm ≠ pal tex0.psm then true
    else if tex0.csm = 1 ∧ texclut ≠ s.texclut then true
    else isDirty
  (isDirty, if isDirty then s else { s with tex0, texclut })

namespace GSClut

variable (c : GSClut)

def setDirty (dirty : BitVec 8) : GSClut := { c with m_write := { c.m_write with dirty } }

def clearDrawInvalidity : GSClut := if c.m_write.dirty &&& 2 ≠ 0 then c.setDirty 1 else c

def setNextClutTex0 (tex0 : GIFRegTEX0) : GSClut := { c with m_write := { c.m_write with next_tex0 := tex0 } }

def invalidateRange (start_block end_block : Nat) (is_draw : Bool) : GSClut :=
  if c.m_write.dirty &&& 2 ≠ 0 then c
  else
    let next_cbp := c.m_write.next_tex0.cbp
    let wraps := end_block &&& 0xFFE0 < start_block &&& 0xFFE0
    -- CBP has fourteen bits, so that the sum is CBP again.
    let next_cbp := if wraps ∧ next_cbp.toNat + 3 ≤ end_block then next_cbp + 0x4000 else next_cbp
    let end_block := if wraps then end_block + 0x4000 else end_block
    if start_block ≤ next_cbp.toNat + 3 ∧ next_cbp.toNat ≤ end_block then
      c.setDirty (c.m_write.dirty ||| if is_draw then 2 else 1)
    else c

def canLoadClut (tex0 : GIFRegTEX0) (update_CBP : Bool) : Bool × GSClut :=
  if tex0.psm &&& 0x7 < 3 then (false, c)
  else if tex0.cld = 0 ∨ tex0.cld = 6 ∨ tex0.cld = 7 then (false, c)
  else if tex0.cld = 1 then (true, c)
  else if tex0.cld = 2 then (true, if update_CBP then { c with m_CBP0 := tex0.cbp } else c)
  else if tex0.cld = 3 then (true, if update_CBP then { c with m_CBP1 := tex0.cbp } else c)
  else if tex0.cld = 4 then
    if c.m_CBP0 = tex0.cbp then (false, c) else (true, if update_CBP then { c with m_CBP0 := tex0.cbp } else c)
  else
    if c.m_CBP1 = tex0.cbp then (false, c) else (true, if update_CBP then { c with m_CBP1 := tex0.cbp } else c)

def writeTest (tex0 : GIFRegTEX0) (texclut : GIFRegTEXCLUT) : Bool × GSClut :=
  if tex0.psm &&& 0x7 < 3 then (false, c)
  else
    let (loads, c) := c.canLoadClut tex0 true
    if !loads then (false, c)
    else
      let (dirty, m_write) := c.m_write.isDirty tex0 texclut
      (dirty, { c with m_write })

def write (vm : Vm) (tex0 : GIFRegTEX0) (texclut : GIFRegTEXCLUT) : GSClut :=
  { c with
    m_write := { c.m_write with tex0, texclut, dirty := 0 }
    m_clut := (tex0.load texclut).perform vm c.m_clut }

end GSClut

/-! ## GSState -/

/-- A queued draw: the blocks `CheckCLUTValidity` finds for it. -/
structure Draw where
  startbp : Nat
  endbp : Nat

def GSClut.checkClutValidity : GSClut → List Draw → GSClut
  | c, [] => c
  | c, draw :: draws =>
      if c.m_write.dirty &&& 2 ≠ 0 then c
      else
        let c := c.invalidateRange draw.startbp draw.endbp true
        if c.m_write.dirty ≠ 0 then c else c.checkClutValidity draws

structure GSState where
  vm : Vm := fun _ => 0
  texclut : GIFRegTEXCLUT := ⟨0, 0, 0, 0⟩
  m_clut : GSClut := {}

def GIFRegTEX0.kept (tex0 : GIFRegTEX0) : GIFRegTEX0 := { tex0 with cpsm := tex0.cpsm &&& 0xa }

namespace GSState

variable (s : GSState)

/-- The clut when `WriteTest` is called. -/
def checkedClut (tex0 : GIFRegTEX0) (draws : List Draw) : GSClut :=
  if ¬tex0.psm &&& 0x7 < 3 ∧ (s.m_clut.canLoadClut tex0 false).1 then
    (s.m_clut.clearDrawInvalidity.setNextClutTex0 tex0).checkClutValidity draws
  else s.m_clut

/-- `flushed` is the local memory once draws and transfers are flushed and targets are read back, which is done
before a load. -/
def applyTex0 (tex0 : GIFRegTEX0) (draws : List Draw) (flushed : Vm) : GSState :=
  let (wt, clut) := (s.checkedClut tex0 draws).writeTest tex0 s.texclut
  if wt then { s with vm := flushed, m_clut := clut.write flushed tex0.kept s.texclut }
  else { s with m_clut := clut }

end GSState

end Pcsx2.GsClut
