import Mathlib.Data.Fin.VecNotation
import Mathlib.Logic.Function.Basic
import Pcsx2.Vif.UnpackLoop

/-!
# The interpreter's UNPACK

A vector is expanded to a quadword, and each of its words is written as `MASK` and `MODE` say. The
memory of a VU is an array of quadwords.
-/

namespace Pcsx2.Vif

abbrev Word := BitVec 32

/-- A quadword by its words, from X to W. -/
abbrev Quad := Fin 4 → Word

/-- The bytes from the data pointer on. -/
abbrev Source := Nat → BitVec 8

/-! ## Reading the data -/

def Source.word (src : Source) (pos : Nat) : Word :=
  (src (pos + 3)) ++ (src (pos + 2)) ++ (src (pos + 1)) ++ (src pos)

def extend (usn : Bool) {n : Nat} (x : BitVec n) : Word := if usn then x.zeroExtend 32 else x.signExtend 32

def Source.half (src : Source) (usn : Bool) (pos : Nat) : Word := extend usn ((src (pos + 1)) ++ (src pos))

def Source.byte (src : Source) (usn : Bool) (pos : Nat) : Word := extend usn (src pos)

/-- `*(src + i)`, where `src` points to elements of 32, 16 or 8 bits. -/
def Source.element (src : Source) (usn : Bool) (vl : BitVec 2) (pos i : Nat) : Word :=
  if vl = 0 then src.word (pos + 4 * i)
  else if vl = 1 then src.half usn (pos + 2 * i)
  else src.byte usn (pos + i)

/-! ## Writing a quadword -/

structure Written where
  dest : Quad
  row : Quad

structure WriteMode where
  doMask : Bool
  mask : Word
  mode : BitVec 2
  cl : Nat
  col : Quad

namespace WriteMode

variable (w : WriteMode)

/-- `min(vif.cl, 3)` -/
def cycle : Fin 4 := ⟨min w.cl 3, by omega⟩

def kind (offnum : Fin 4) : Word :=
  if w.doMask then (w.mask >>> (8 * w.cycle.val + 2 * offnum.val)) &&& 3 else 0

def writeXYZW (offnum : Fin 4) (data : Word) (s : Written) : Written :=
  let n := w.kind offnum
  if n = 0 then
    if w.mode = 1 then { s with dest := Function.update s.dest offnum (data + s.row offnum) }
    else if w.mode = 2 then
      let data := s.row offnum + data
      ⟨Function.update s.dest offnum data, Function.update s.row offnum data⟩
    else if w.mode = 3 then ⟨Function.update s.dest offnum data, Function.update s.row offnum data⟩
    else { s with dest := Function.update s.dest offnum data }
  else if n = 1 then { s with dest := Function.update s.dest offnum (s.row offnum) }
  else if n = 2 then { s with dest := Function.update s.dest offnum (w.col w.cycle) }
  else s

def writeQuad (data : Quad) (s : Written) : Written :=
  w.writeXYZW 3 (data 3) (w.writeXYZW 2 (data 2) (w.writeXYZW 1 (data 1) (w.writeXYZW 0 (data 0) s)))

end WriteMode

section

variable (src : Source) (usn : Bool) (vl : BitVec 2) (pos : Nat)

def unpackS : Quad := fun _ => src.element usn vl pos 0

def unpackV2 : Quad := fun offnum => src.element usn vl pos (offnum.val % 2)

def unpackV4 : Quad := fun offnum => src.element usn vl pos offnum

def unpackV4_5 : Quad :=
  let data := src.word pos
  ![(data &&& 0x001f) <<< 3, (data &&& 0x03e0) >>> 2, (data &&& 0x7c00) >>> 7, (data &&& 0x8000) >>> 8]

def unpackVector (upkNum : BitVec 4) : Option Quad :=
  let vl := upkNum.extractLsb' 0 2
  let vn := upkNum.extractLsb' 2 2
  if upkNum = 0xf then some (unpackV4_5 src pos)
  else if vl = 3 then none
  else if vn = 0 then some (unpackS src usn vl pos)
  else if vn = 1 then some (unpackV2 src usn vl pos)
  else some (unpackV4 src usn vl pos)

end

/-! ## The whole loop -/

/-- What an UNPACK works with besides its data: `usn`, `cmd`, `CYCLE`, `NUM`, `MASK`, `MODE` and `MaskCol`. -/
structure Unpack where
  usn : Bool
  doMask : Bool
  upkNum : BitVec 4
  cycle : Cycle
  num : BitVec 8
  mask : Word
  mode : BitVec 2
  col : Quad

/-- A VU's data memory and `MaskRow`. -/
structure VuState where
  mem : Nat → Quad
  row : Quad

namespace Unpack

variable (u : Unpack)

def writeMode (cl : Nat) : WriteMode :=
  { doMask := u.doMask, mask := u.mask, mode := if u.upkNum = 0xf then 0 else u.mode, cl, col := u.col }

/-- `ft(dest, data)`, with `getVUptr` of a memory of so many quadwords. -/
def ft (size : Nat) (src : Source) (p : Position) (s : VuState) : VuState :=
  let dest := p.addr / 16 % size
  match unpackVector src u.usn p.data u.upkNum with
  | none => s
  | some data =>
      let written := (u.writeMode p.cl).writeQuad data ⟨s.mem dest, s.row⟩
      ⟨Function.update s.mem dest written.dest, written.row⟩

/-- `_nVifUnpack` from a quadword of the memory on. -/
def interpret (size : Nat) (src : Source) (start : Nat) (s : VuState) : VuState :=
  (unpackLoop u.cycle (nVifT u.upkNum) (u.ft size src) (vifNum u.num) (⟨16 * start, 0, 0⟩, s)).2

end Unpack

end Pcsx2.Vif
