import Mathlib.Data.Option.Basic
import Mathlib.Logic.Function.Basic
import Mathlib.Tactic.IntervalCases
import Pcsx2.GsMemory.Swizzle

/-!
# GS local memory

The bytes of the local memory as words of each size, and the accessors of single pixels.
-/

namespace Pcsx2.GsMemory

/-! ## Views -/

def m_vmsize : Nat := 1024 * 1024 * 4

/-- The memory, mapped several times in a row: an address counts modulo its size. -/
abbrev Vm := Nat → BitVec 8

namespace Vm

def get8 (vm : Vm) (i : Nat) : BitVec 8 := vm (i % m_vmsize)

def set8 (vm : Vm) (i : Nat) (c : BitVec 8) : Vm := Function.update vm (i % m_vmsize) c

def get16 (vm : Vm) (i : Nat) : BitVec 16 := vm.get8 (2 * i + 1) ++ vm.get8 (2 * i)

def set16 (vm : Vm) (i : Nat) (c : BitVec 16) : Vm :=
  (vm.set8 (2 * i) (c.extractLsb' 0 8)).set8 (2 * i + 1) (c.extractLsb' 8 8)

def get32 (vm : Vm) (i : Nat) : BitVec 32 := vm.get16 (2 * i + 1) ++ vm.get16 (2 * i)

def set32 (vm : Vm) (i : Nat) (c : BitVec 32) : Vm :=
  (vm.set16 (2 * i) (c.extractLsb' 0 16)).set16 (2 * i + 1) (c.extractLsb' 16 16)

variable {vm : Vm} {i j : Nat}

theorem get8_set8 (same : i % m_vmsize = j % m_vmsize) (c : BitVec 8) : (vm.set8 i c).get8 j = c := by
  unfold get8 set8
  rw [same]
  exact Function.update_self ..

theorem get8_set8_ne (apart : i % m_vmsize ≠ j % m_vmsize) (c : BitVec 8) : (vm.set8 i c).get8 j = vm.get8 j :=
  Function.update_of_ne (Ne.symm apart) ..

theorem append_extract {n : Nat} (c : BitVec (n + n)) :
    c.extractLsb' n n ++ c.extractLsb' 0 n = c := by
  apply BitVec.eq_of_getLsbD_eq
  intro k bound
  rw [BitVec.getLsbD_append, BitVec.getLsbD_extractLsb', BitVec.getLsbD_extractLsb']
  by_cases low : k < n
  · simp [low]
  · have above : k - n < n := by omega
    simp [low, above, Nat.add_sub_cancel' (Nat.not_lt.1 low)]

theorem get16_set16 (same : i % (m_vmsize / 2) = j % (m_vmsize / 2)) (c : BitVec 16) :
    (vm.set16 i c).get16 j = c := by
  unfold m_vmsize at same
  have high : (2 * i + 1) % m_vmsize = (2 * j + 1) % m_vmsize := by unfold m_vmsize; omega
  have cross : (2 * i + 1) % m_vmsize ≠ 2 * j % m_vmsize := by unfold m_vmsize; omega
  have low : 2 * i % m_vmsize = 2 * j % m_vmsize := by unfold m_vmsize; omega
  unfold get16 set16
  rw [get8_set8 high, get8_set8_ne cross, get8_set8 low]
  exact append_extract (n := 8) c

theorem get16_set16_ne (apart : i % (m_vmsize / 2) ≠ j % (m_vmsize / 2)) (c : BitVec 16) :
    (vm.set16 i c).get16 j = vm.get16 j := by
  unfold m_vmsize at apart
  unfold get16 set16
  iterate 4 rw [get8_set8_ne (by unfold m_vmsize; omega)]

theorem get32_set32 (same : i % (m_vmsize / 4) = j % (m_vmsize / 4)) (c : BitVec 32) :
    (vm.set32 i c).get32 j = c := by
  unfold m_vmsize at same
  have high : (2 * i + 1) % (m_vmsize / 2) = (2 * j + 1) % (m_vmsize / 2) := by unfold m_vmsize; omega
  have cross : (2 * i + 1) % (m_vmsize / 2) ≠ 2 * j % (m_vmsize / 2) := by unfold m_vmsize; omega
  have low : 2 * i % (m_vmsize / 2) = 2 * j % (m_vmsize / 2) := by unfold m_vmsize; omega
  unfold get32 set32
  rw [get16_set16 high, get16_set16_ne cross, get16_set16 low]
  exact append_extract (n := 16) c

theorem get32_set32_ne (apart : i % (m_vmsize / 4) ≠ j % (m_vmsize / 4)) (c : BitVec 32) :
    (vm.set32 i c).get32 j = vm.get32 j := by
  unfold m_vmsize at apart
  unfold get32 set32
  iterate 4 rw [get16_set16_ne (by unfold m_vmsize; omega)]

end Vm

/-! ## Pixels -/

def writePixel24 (vm : Vm) (addr : Nat) (c : BitVec 32) : Vm :=
  vm.set32 addr ((vm.get32 addr &&& 0xff000000) ||| (c &&& 0x00ffffff))

def writePixel8H (vm : Vm) (addr : Nat) (c : BitVec 32) : Vm :=
  vm.set32 addr ((vm.get32 addr &&& 0x00ffffff) ||| (c <<< 24))

def writePixel4HL (vm : Vm) (addr : Nat) (c : BitVec 32) : Vm :=
  vm.set32 addr ((vm.get32 addr &&& 0xf0ffffff) ||| ((c &&& 0x0f) <<< 24))

def writePixel4HH (vm : Vm) (addr : Nat) (c : BitVec 32) : Vm :=
  vm.set32 addr ((vm.get32 addr &&& 0x0fffffff) ||| ((c &&& 0x0f) <<< 28))

def writePixel4 (vm : Vm) (addr : Nat) (c : BitVec 32) : Vm :=
  let shift := (addr &&& 1) <<< 2
  let addr := addr >>> 1
  vm.set8 addr ((vm.get8 addr &&& (0xf0 >>> shift)) ||| ((c &&& 0x0f) <<< shift).setWidth 8)

def readPixel4 (vm : Vm) (addr : Nat) : BitVec 32 :=
  ((vm.get8 (addr >>> 1)).setWidth 32 >>> ((addr &&& 1) <<< 2)) &&& 0x0f

section

variable {vm : Vm} {a b : Nat}

theorem readPixel4_writePixel4 (same : a % (2 * m_vmsize) = b % (2 * m_vmsize)) (c : BitVec 32) :
    readPixel4 (writePixel4 vm a c) b = c &&& 0x0f := by
  unfold m_vmsize at same
  have parity : b % 2 = a % 2 := by omega
  have byte : a / 2 % m_vmsize = b / 2 % m_vmsize := by unfold m_vmsize; omega
  unfold readPixel4 writePixel4
  rw [Nat.shiftRight_one, Nat.shiftRight_one, Nat.and_one_is_mod, Nat.and_one_is_mod, parity, Vm.get8_set8 byte]
  obtain even | odd : a % 2 = 0 ∨ a % 2 = 1 := by omega
  · rw [even]
    apply BitVec.eq_of_getLsbD_eq
    intro i bound
    interval_cases i <;> simp
  · rw [odd]
    apply BitVec.eq_of_getLsbD_eq
    intro i bound
    interval_cases i <;> simp

theorem readPixel4_writePixel4_ne (apart : a % (2 * m_vmsize) ≠ b % (2 * m_vmsize)) (c : BitVec 32) :
    readPixel4 (writePixel4 vm a c) b = readPixel4 vm b := by
  unfold m_vmsize at apart
  unfold readPixel4 writePixel4
  rw [Nat.shiftRight_one, Nat.shiftRight_one, Nat.and_one_is_mod, Nat.and_one_is_mod]
  by_cases byte : a / 2 % m_vmsize = b / 2 % m_vmsize
  · have same : vm.get8 (a / 2) = vm.get8 (b / 2) := congrArg vm byte
    rw [Vm.get8_set8 byte, same]
    unfold m_vmsize at byte
    obtain ⟨low, high⟩ | ⟨low, high⟩ : a % 2 = 0 ∧ b % 2 = 1 ∨ a % 2 = 1 ∧ b % 2 = 0 := by omega
    · rw [low, high]
      apply BitVec.eq_of_getLsbD_eq
      intro i bound
      interval_cases i <;> simp
    · rw [low, high]
      apply BitVec.eq_of_getLsbD_eq
      intro i bound
      interval_cases i <;> simp
  · rw [Vm.get8_set8_ne byte]

end

end Pcsx2.GsMemory

/-!
# Image transfers by pixels

`WriteImageX` and `ReadImageX`. A call has no result where the source never returns or stores outside its
destination.
-/

namespace Pcsx2.GsMemory

open GSOffset (PAHelper)

/-! ## Formats and registers -/

inductive Psm
  | PSMCT32
  | PSMCT24
  | PSMCT16
  | PSMCT16S
  | PSMT8
  | PSMT4
  | PSMT8H
  | PSMT4HL
  | PSMT4HH
  | PSMZ32
  | PSMZ24
  | PSMZ16
  | PSMZ16S
  deriving DecidableEq, Repr

/-- `m_psm[psm].info`. -/
def Psm.info : Psm → GSSwizzleInfo
  | PSMCT32 | PSMCT24 | PSMT8H | PSMT4HL | PSMT4HH => swizzle32
  | PSMCT16 => swizzle16
  | PSMCT16S => swizzle16S
  | PSMT8 => swizzle8
  | PSMT4 => swizzle4
  | PSMZ32 | PSMZ24 => swizzle32Z
  | PSMZ16 => swizzle16Z
  | PSMZ16S => swizzle16SZ

/-- `m_psm[psm].trbpp`, the bits of a pixel in a transfer. -/
def Psm.trbpp : Psm → Nat
  | PSMCT32 | PSMZ32 => 32
  | PSMCT24 | PSMZ24 => 24
  | PSMCT16 | PSMCT16S | PSMZ16 | PSMZ16S => 16
  | PSMT8 | PSMT8H => 8
  | PSMT4 | PSMT4HL | PSMT4HH => 4

def getOffset (bp bw : Nat) (psm : Psm) : GSOffset := gsOffset psm.info bp bw

structure BITBLTBUF where
  sbp : Nat
  sbw : Nat
  spsm : Psm
  dbp : Nat
  dbw : Nat
  dpsm : Psm

structure TRXPOS where
  ssax : Nat
  ssay : Nat
  dsax : Nat
  dsay : Nat

structure TRXREG where
  rrw : Nat
  rrh : Nat

/-! ## Rows of pixels -/

section

variable {σ : Type} (fn : PAHelper → Nat → σ → Option σ)

/-- `for (int x = 0; x < stop; x += xinc) fn(pa, x);` -/
def forPixels (pa : PAHelper) (stop xinc : Nat) (s : σ) : Option σ :=
  (List.range ((stop + xinc - 1) / xinc)).foldlM (fun s i => fn pa (i * xinc) s) s

def readWriteLoop (xinc sx w : Nat) (off : GSOffset) : Nat → Nat → Nat → Nat → PAHelper → σ → Option (σ × Nat × Nat)
  | 0, _, _, _, _, _ => none
  | fuel + 1, len, remX, y, pa, s =>
      if len = 0 then some (s, remX, y)
      else
        let stop := min remX len
        (forPixels fn pa stop xinc s).bind fun s =>
          if remX - stop = 0 then
            readWriteLoop xinc sx w off fuel (len - stop) w (y + 1) (off.paMulti sx (y + 1)) s
          else readWriteLoop xinc sx w off fuel (len - stop) (remX - stop) y pa s

/-- Every round takes a pixel, the first one perhaps excepted, unless the rectangle has no width: then the source
loops for ever. -/
def readWriteHelper (tx ty len xinc sx w : Nat) (off : GSOffset) (s : σ) : Option (σ × Nat × Nat) :=
  let ex := sx + w
  (readWriteLoop fn xinc sx w off (len + 2) len (ex - tx) ty (off.paMulti tx ty) s).map
    fun (s, remX, y) => (s, ex - remX, y)

end

/-! ## Writing -/

/-- Host memory from a pointer on. -/
abbrev Bytes := Nat → BitVec 8

def Bytes.load16 (src : Bytes) (p : Nat) : BitVec 16 := src (p + 1) ++ src p

def Bytes.load32 (src : Bytes) (p : Nat) : BitVec 32 := src.load16 (p + 2) ++ src.load16 p

section

variable (src : Bytes) (pa : PAHelper) (x : Nat)

def write32 : Vm × Nat → Option (Vm × Nat) := fun (vm, pd) =>
  some (vm.set32 (pa.value x) (src.load32 pd), pd + 4)

def write24 : Vm × Nat → Option (Vm × Nat) := fun (vm, pb) =>
  some (writePixel24 vm (pa.value x) (src.load32 pb), pb + 3)

def write16 : Vm × Nat → Option (Vm × Nat) := fun (vm, pw) =>
  some (vm.set16 (pa.value x) (src.load16 pw), pw + 2)

def write8 : Vm × Nat → Option (Vm × Nat) := fun (vm, pb) =>
  some (vm.set8 (pa.value x) (src pb), pb + 1)

def writeNibbles (writePixel : Vm → Nat → BitVec 32 → Vm) : Vm × Nat → Option (Vm × Nat) := fun (vm, pb) =>
  let vm := writePixel vm (pa.value x) ((src pb &&& 0xf).setWidth 32)
  let vm := writePixel vm (pa.value (x + 1)) ((src pb >>> 4).setWidth 32)
  some (vm, pb + 1)

def write4 : Vm × Nat → Option (Vm × Nat) := writeNibbles src pa x writePixel4

def write8H : Vm × Nat → Option (Vm × Nat) := fun (vm, pb) =>
  some (writePixel8H vm (pa.value x) ((src pb).setWidth 32), pb + 1)

def write4HL : Vm × Nat → Option (Vm × Nat) := writeNibbles src pa x writePixel4HL

def write4HH : Vm × Nat → Option (Vm × Nat) := writeNibbles src pa x writePixel4HH

end

def writeImageX (vm : Vm) (tx ty : Nat) (src : Bytes) (len : Nat) (BITBLTBUF : BITBLTBUF) (TRXPOS : TRXPOS)
    (TRXREG : TRXREG) : Option (Vm × Nat × Nat) :=
  if len = 0 then some (vm, tx, ty)
  else
    let sx := TRXPOS.dsax
    let w := TRXREG.rrw
    let off := getOffset BITBLTBUF.dbp BITBLTBUF.dbw BITBLTBUF.dpsm
    let helper (len xinc : Nat) (fn : PAHelper → Nat → Vm × Nat → Option (Vm × Nat)) :=
      (readWriteHelper fn tx ty len xinc sx w off (vm, 0)).map fun (s, tx, ty) => (s.1, tx, ty)
    match BITBLTBUF.dpsm with
    | .PSMCT32 | .PSMZ32 => helper (len / 4) 1 (write32 src)
    | .PSMCT24 | .PSMZ24 => helper (len / 3) 1 (write24 src)
    | .PSMCT16 | .PSMCT16S | .PSMZ16 | .PSMZ16S => helper (len / 2) 1 (write16 src)
    | .PSMT8 => helper len 1 (write8 src)
    | .PSMT4 => helper (len * 2) 2 (write4 src)
    | .PSMT8H => helper len 1 (write8H src)
    | .PSMT4HL => helper (len * 2) 2 (write4HL src)
    | .PSMT4HH => helper (len * 2) 2 (write4HH src)

/-! ## Reading -/

def store (dst : List (BitVec 8)) (p : Nat) (bytes : List (BitVec 8)) : Option (List (BitVec 8)) :=
  if p + bytes.length ≤ dst.length then some (dst.take p ++ bytes ++ dst.drop (p + bytes.length)) else none

def bytes16 (c : BitVec 16) : List (BitVec 8) := [c.extractLsb' 0 8, c.extractLsb' 8 8]

def bytes32 (c : BitVec 32) : List (BitVec 8) := bytes16 (c.extractLsb' 0 16) ++ bytes16 (c.extractLsb' 16 16)

abbrev Reading := List (BitVec 8) × Nat

def push (bytes : List (BitVec 8)) : Reading → Option Reading := fun (dst, p) =>
  (store dst p bytes).map fun dst => (dst, p + bytes.length)

section

variable (vm : Vm) (pa : PAHelper) (x : Nat)

def read32 : Reading → Option Reading := push (bytes32 (vm.get32 (pa.value x)))

def read24 : Reading → Option Reading :=
  let c := vm.get32 (pa.value x)
  push [c.setWidth 8, (c >>> 8).setWidth 8, (c >>> 16).setWidth 8]

def read16 : Reading → Option Reading := push (bytes16 (vm.get16 (pa.value x)))

def read8 : Reading → Option Reading := push [vm.get8 (pa.value x)]

def read4 : Reading → Option Reading := fun (dst, pb) =>
  let low := (readPixel4 vm (pa.value x)).setWidth 8
  let high := (readPixel4 vm (pa.value (x + 1))).setWidth 8
  (store dst pb [low ||| (high <<< 4)]).map fun dst => (dst, pb)

def read8H : Reading → Option Reading := push [(vm.get32 (pa.value x) >>> 24).setWidth 8]

def read4HL : Reading → Option Reading :=
  let c0 := (vm.get32 (pa.value x) >>> 24) &&& 0x0f
  let c1 := (vm.get32 (pa.value (x + 1)) >>> 20) &&& 0xf0
  push [(c0 ||| c1).setWidth 8]

def read4HH : Reading → Option Reading :=
  let c0 := (vm.get32 (pa.value x) >>> 28) &&& 0x0f
  let c1 := (vm.get32 (pa.value (x + 1)) >>> 24) &&& 0xf0
  push [(c0 ||| c1).setWidth 8]

end

/-! ### The loops of the 32-bit formats -/

section

variable (vm : Vm)

/-- Pixels one by one while `more` holds of the position. -/
def readPixels (more : Nat → Bool) (pa : PAHelper) : Nat → Nat → Reading → Option (Nat × Nat × Reading)
  | 0, x, s => some (0, x, s)
  | len + 1, x, s =>
      if more x then (read32 vm pa x s).bind (readPixels more pa len (x + 1)) else some (len + 1, x, s)

/-- The eight pixels of a column: two words each from `ps`, `ps + 4`, `ps + 8` and `ps + 12`. -/
def readColumn (pa : PAHelper) (x : Nat) : Reading → Option Reading :=
  let ps := pa.value x
  push (bytes32 (vm.get32 ps) ++ bytes32 (vm.get32 (ps + 1)) ++
    bytes32 (vm.get32 (ps + 4)) ++ bytes32 (vm.get32 (ps + 5)) ++
    bytes32 (vm.get32 (ps + 8)) ++ bytes32 (vm.get32 (ps + 9)) ++
    bytes32 (vm.get32 (ps + 12)) ++ bytes32 (vm.get32 (ps + 13)))

def readColumns (ex : Nat) (pa : PAHelper) : Nat → Nat → Reading → Option (Nat × Nat × Reading)
  | len + 8, x, s =>
      if x + 8 ≤ ex then (readColumn vm pa x s).bind (readColumns ex pa len (x + 8)) else some (len + 8, x, s)
  | len, x, s => some (len, x, s)

def readLoop32 (sx ex : Nat) (off : GSOffset) : Nat → Nat → Nat → Nat → Reading → Option (Reading × Nat × Nat)
  | 0, _, _, _, _ => none
  | fuel + 1, len, x, y, s =>
      if len = 0 then some (s, x, y)
      else
        let pa := off.paMulti 0 y
        (readPixels vm (fun x => x < ex && x &&& 7 != 0) pa len x s).bind fun (len, x, s) =>
        (readColumns vm ex pa len x s).bind fun (len, x, s) =>
        (readPixels vm (fun x => x < ex) pa len x s).bind fun (len, x, s) =>
          if x = ex then readLoop32 sx ex off fuel len sx (y + 1) s else readLoop32 sx ex off fuel len x y s

end

def readImageX (vm : Vm) (tx ty : Nat) (dst : List (BitVec 8)) (len : Nat) (BITBLTBUF : BITBLTBUF) (TRXPOS : TRXPOS)
    (TRXREG : TRXREG) : Option (List (BitVec 8) × Nat × Nat) :=
  if len = 0 then some (dst, tx, ty)
  else
    let sx := TRXPOS.ssax
    let w := TRXREG.rrw
    let off := getOffset BITBLTBUF.sbp BITBLTBUF.sbw BITBLTBUF.spsm
    let helper (len xinc : Nat) (fn : PAHelper → Nat → Reading → Option Reading) :=
      (readWriteHelper fn tx ty len xinc sx w off (dst, 0)).map fun (s, tx, ty) => (s.1, tx, ty)
    match BITBLTBUF.spsm with
    | .PSMCT32 | .PSMZ32 =>
        (readLoop32 vm sx (sx + w) off (len / 4 + 2) (len / 4) tx ty (dst, 0)).map fun (s, tx, ty) => (s.1, tx, ty)
    | .PSMCT24 | .PSMZ24 => helper (len / 3) 1 (read24 vm)
    | .PSMCT16 | .PSMCT16S | .PSMZ16 | .PSMZ16S => helper (len / 2) 1 (read16 vm)
    | .PSMT8 => helper len 1 (read8 vm)
    | .PSMT4 => helper (len * 2) 2 (read4 vm)
    | .PSMT8H => helper len 1 (read8H vm)
    | .PSMT4HL => helper (len * 2) 2 (read4HL vm)
    | .PSMT4HH => helper (len * 2) 2 (read4HH vm)

end Pcsx2.GsMemory
