import Mathlib.Tactic.IntervalCases
import Pcsx2.Foundation.Memory
import Pcsx2.GsMemory.Visits

/-!
# Units of a transfer

One call of a transfer's function moves one pixel, or the two pixels of a byte.
-/

namespace Pcsx2.GsMemory

open GSOffset (PAHelper)
open Foundation (load)

/-! ## Formats -/

namespace Psm

def nibbles (psm : Psm) : Prop := psm.trbpp = 4

instance (psm : Psm) : Decidable psm.nibbles := inferInstanceAs (Decidable (_ = _))

def xinc (psm : Psm) : Nat := if psm.nibbles then 2 else 1

def unitBytes (psm : Psm) : Nat := psm.trbpp * psm.xinc / 8

def places : Psm → Nat
  | PSMCT16 | PSMCT16S | PSMZ16 | PSMZ16S => m_vmsize / 2
  | PSMT8 => m_vmsize
  | PSMT4 => 2 * m_vmsize
  | _ => m_vmsize / 4

theorem xinc_pos (psm : Psm) : 0 < psm.xinc := by cases psm <;> decide

theorem unitBytes_pos (psm : Psm) : 0 < psm.unitBytes := by cases psm <;> decide

theorem unitBytes_eq (psm : Psm) : psm.unitBytes * 8 = psm.trbpp * psm.xinc := by cases psm <;> rfl

end Psm

/-! ## Units in memory -/

section

variable (psm : Psm) (src : Bytes) (vm : Vm) (a b p : Nat)

def putUnit : Vm :=
  match psm with
  | .PSMCT32 | .PSMZ32 => vm.set32 a (src.load32 p)
  | .PSMCT24 | .PSMZ24 => writePixel24 vm a (src.load32 p)
  | .PSMCT16 | .PSMCT16S | .PSMZ16 | .PSMZ16S => vm.set16 a (src.load16 p)
  | .PSMT8 => vm.set8 a (src p)
  | .PSMT4 => writePixel4 (writePixel4 vm a ((src p &&& 0xf).setWidth 32)) b ((src p >>> 4).setWidth 32)
  | .PSMT8H => writePixel8H vm a ((src p).setWidth 32)
  | .PSMT4HL => writePixel4HL (writePixel4HL vm a ((src p &&& 0xf).setWidth 32)) b ((src p >>> 4).setWidth 32)
  | .PSMT4HH => writePixel4HH (writePixel4HH vm a ((src p &&& 0xf).setWidth 32)) b ((src p >>> 4).setWidth 32)

def getUnit : List (BitVec 8) :=
  match psm with
  | .PSMCT32 | .PSMZ32 => bytes32 (vm.get32 a)
  | .PSMCT24 | .PSMZ24 => [(vm.get32 a).setWidth 8, (vm.get32 a >>> 8).setWidth 8, (vm.get32 a >>> 16).setWidth 8]
  | .PSMCT16 | .PSMCT16S | .PSMZ16 | .PSMZ16S => bytes16 (vm.get16 a)
  | .PSMT8 => [vm.get8 a]
  | .PSMT4 => [(readPixel4 vm a).setWidth 8 ||| ((readPixel4 vm b).setWidth 8 <<< 4)]
  | .PSMT8H => [(vm.get32 a >>> 24).setWidth 8]
  | .PSMT4HL => [(((vm.get32 a >>> 24) &&& (0x0f : BitVec 32)) ||| ((vm.get32 b >>> 20) &&& 0xf0)).setWidth 8]
  | .PSMT4HH => [(((vm.get32 a >>> 28) &&& (0x0f : BitVec 32)) ||| ((vm.get32 b >>> 24) &&& 0xf0)).setWidth 8]

end

section

variable {psm : Psm} {src : Bytes} {vm : Vm} {a b p : Nat}

theorem extract_append {n : Nat} (high low : BitVec n) :
    (high ++ low).extractLsb' 0 n = low ∧ (high ++ low).extractLsb' n n = high := by
  constructor
  · apply BitVec.eq_of_getLsbD_eq
    intro i bound
    rw [BitVec.getLsbD_extractLsb', BitVec.getLsbD_append, Nat.zero_add, if_pos bound]
    simp [bound]
  · apply BitVec.eq_of_getLsbD_eq
    intro i bound
    rw [BitVec.getLsbD_extractLsb', BitVec.getLsbD_append, if_neg (by omega), Nat.add_sub_cancel_left]
    simp [bound]

theorem bytes16_load16 : bytes16 (src.load16 p) = load src p 2 := by
  obtain ⟨low, high⟩ := extract_append (src (p + 1)) (src p)
  exact congrArg₂ (fun x y => [x, y]) low high

theorem bytes32_load32 : bytes32 (src.load32 p) = load src p 4 := by
  obtain ⟨low, high⟩ := extract_append (src.load16 (p + 2)) (src.load16 p)
  rw [Foundation.load_add src p 2 2, ← bytes16_load16, ← bytes16_load16]
  exact congrArg₂ (fun x y => bytes16 x ++ bytes16 y) low high

theorem load32_bit {k i : Nat} (byte : k < 4) (bit : i < 8) :
    (src.load32 p).getLsbD (8 * k + i) = (src (p + k)).getLsbD i := by
  unfold Bytes.load32 Bytes.load16
  rw [BitVec.getLsbD_append, BitVec.getLsbD_append, BitVec.getLsbD_append]
  interval_cases k
  · rw [if_pos (by omega), if_pos (by omega), Nat.mul_zero, Nat.zero_add, Nat.add_zero]
  · rw [if_pos (by omega), if_neg (by omega), Nat.mul_one, Nat.add_sub_cancel_left]
  · have rest : 8 * 2 + i - 16 = i := by omega
    rw [if_neg (by omega), rest, if_pos (by omega)]
  · have rest : 8 * 3 + i - 16 - 8 = i := by omega
    rw [if_neg (by omega), if_neg (by omega), rest]

theorem byte_24 (src : Bytes) (p : Nat) (old : BitVec 32) {k : Nat} (byte : k < 3) :
    (((old &&& 0xff000000) ||| (src.load32 p &&& 0x00ffffff)) >>> (8 * k)).setWidth 8 = src (p + k) := by
  have masks : ∀ i < 24, (0xff000000 : BitVec 32).getLsbD i = false ∧ (0x00ffffff : BitVec 32).getLsbD i = true := by
    decide
  apply BitVec.eq_of_getLsbD_eq
  intro i bound
  obtain ⟨high, low⟩ := masks (8 * k + i) (by omega)
  rw [BitVec.getLsbD_setWidth, BitVec.getLsbD_ushiftRight, BitVec.getLsbD_or, BitVec.getLsbD_and, BitVec.getLsbD_and,
    high, low, load32_bit (by omega) bound]
  simp [bound]

theorem byte_8H (old : BitVec 32) (c : BitVec 8) :
    (((old &&& 0x00ffffff) ||| (c.setWidth 32 <<< 24)) >>> 24).setWidth 8 = c := by
  apply BitVec.eq_of_getLsbD_eq
  intro i bound
  interval_cases i <;> simp

theorem byte_4HL (old old' : BitVec 32) (c : BitVec 8) :
    (((((old &&& 0xf0ffffff) ||| (((c &&& 0xf).setWidth 32 &&& 0x0f) <<< 24)) >>> 24) &&& (0x0f : BitVec 32)) |||
      ((((old' &&& 0xf0ffffff) ||| (((c >>> 4).setWidth 32 &&& 0x0f) <<< 24)) >>> 20) &&& 0xf0)).setWidth 8 = c := by
  apply BitVec.eq_of_getLsbD_eq
  intro i bound
  interval_cases i <;> simp

theorem byte_4HH (old old' : BitVec 32) (c : BitVec 8) :
    (((((old &&& 0x0fffffff) ||| (((c &&& 0xf).setWidth 32 &&& 0x0f) <<< 28)) >>> 28) &&& (0x0f : BitVec 32)) |||
      ((((old' &&& 0x0fffffff) ||| (((c >>> 4).setWidth 32 &&& 0x0f) <<< 28)) >>> 24) &&& 0xf0)).setWidth 8 = c := by
  apply BitVec.eq_of_getLsbD_eq
  intro i bound
  interval_cases i <;> simp

theorem byte_4 (c : BitVec 8) :
    ((c &&& 0xf).setWidth 32 &&& 0x0f).setWidth 8 ||| ((((c >>> 4).setWidth 32 &&& 0x0f)).setWidth 8 <<< 4) = c := by
  apply BitVec.eq_of_getLsbD_eq
  intro i bound
  interval_cases i <;> simp

theorem getUnit_putUnit (apart : psm.nibbles → a % psm.places ≠ b % psm.places) :
    getUnit psm (putUnit psm src vm a b p) a b = load src p psm.unitBytes := by
  cases psm with
  | PSMCT32 | PSMZ32 => exact (congrArg bytes32 (Vm.get32_set32 rfl _)).trans bytes32_load32
  | PSMCT24 | PSMZ24 =>
      unfold getUnit putUnit writePixel24
      dsimp only
      rw [Vm.get32_set32 rfl]
      have first := byte_24 src p (vm.get32 a) (by decide : 0 < 3)
      have second := byte_24 src p (vm.get32 a) (by decide : 1 < 3)
      have third := byte_24 src p (vm.get32 a) (by decide : 2 < 3)
      rw [Nat.mul_zero, BitVec.ushiftRight_zero] at first
      rw [first, second, third]
      rfl
  | PSMCT16 | PSMCT16S | PSMZ16 | PSMZ16S => exact (congrArg bytes16 (Vm.get16_set16 rfl _)).trans bytes16_load16
  | PSMT8 => exact congrArg (fun c => [c]) (Vm.get8_set8 rfl _)
  | PSMT4 =>
      have away := (apart rfl).symm
      unfold getUnit putUnit
      dsimp only
      rw [readPixel4_writePixel4_ne away, readPixel4_writePixel4 rfl, readPixel4_writePixel4 rfl, byte_4]
      rfl
  | PSMT8H =>
      unfold getUnit putUnit writePixel8H
      dsimp only
      rw [Vm.get32_set32 rfl, byte_8H]
      rfl
  | PSMT4HL =>
      have away := (apart rfl).symm
      unfold getUnit putUnit writePixel4HL
      dsimp only
      rw [Vm.get32_set32_ne away, Vm.get32_set32 rfl, Vm.get32_set32 rfl, byte_4HL]
      rfl
  | PSMT4HH =>
      have away := (apart rfl).symm
      unfold getUnit putUnit writePixel4HH
      dsimp only
      rw [Vm.get32_set32_ne away, Vm.get32_set32 rfl, Vm.get32_set32 rfl, byte_4HH]
      rfl

theorem getUnit_putUnit_ne {c d : Nat} (ac : a % psm.places ≠ c % psm.places)
    (others : psm.nibbles → a % psm.places ≠ d % psm.places ∧ b % psm.places ≠ c % psm.places ∧
      b % psm.places ≠ d % psm.places) :
    getUnit psm (putUnit psm src vm a b p) c d = getUnit psm vm c d := by
  cases psm with
  | PSMCT32 | PSMZ32 => exact congrArg bytes32 (Vm.get32_set32_ne ac _)
  | PSMCT24 | PSMZ24 =>
      unfold getUnit putUnit writePixel24
      dsimp only
      rw [Vm.get32_set32_ne ac]
  | PSMCT16 | PSMCT16S | PSMZ16 | PSMZ16S => exact congrArg bytes16 (Vm.get16_set16_ne ac _)
  | PSMT8 => exact congrArg (fun c => [c]) (Vm.get8_set8_ne ac _)
  | PSMT4 =>
      obtain ⟨ad, bc, bd⟩ := others rfl
      unfold getUnit putUnit
      dsimp only
      rw [readPixel4_writePixel4_ne bc, readPixel4_writePixel4_ne ac, readPixel4_writePixel4_ne bd,
        readPixel4_writePixel4_ne ad]
  | PSMT8H =>
      unfold getUnit putUnit writePixel8H
      dsimp only
      rw [Vm.get32_set32_ne ac]
  | PSMT4HL =>
      obtain ⟨ad, bc, bd⟩ := others rfl
      unfold getUnit putUnit writePixel4HL
      dsimp only
      rw [Vm.get32_set32_ne bc, Vm.get32_set32_ne ac, Vm.get32_set32_ne bd, Vm.get32_set32_ne ad]
  | PSMT4HH =>
      obtain ⟨ad, bc, bd⟩ := others rfl
      unfold getUnit putUnit writePixel4HH
      dsimp only
      rw [Vm.get32_set32_ne bc, Vm.get32_set32_ne ac, Vm.get32_set32_ne bd, Vm.get32_set32_ne ad]

end

end Pcsx2.GsMemory

/-!
# Calls of a transfer

A transfer is made by consecutive calls. What each of them does in terms of units.
-/

namespace Pcsx2.GsMemory

open GSOffset (PAHelper)
open Foundation (load)

/-! ## The functions of the formats -/

def writeStep (psm : Psm) (src : Bytes) (pa : PAHelper) (x : Nat) : Vm × Nat → Option (Vm × Nat) :=
  match psm with
  | .PSMCT32 | .PSMZ32 => write32 src pa x
  | .PSMCT24 | .PSMZ24 => write24 src pa x
  | .PSMCT16 | .PSMCT16S | .PSMZ16 | .PSMZ16S => write16 src pa x
  | .PSMT8 => write8 src pa x
  | .PSMT4 => write4 src pa x
  | .PSMT8H => write8H src pa x
  | .PSMT4HL => write4HL src pa x
  | .PSMT4HH => write4HH src pa x

def readStep (psm : Psm) (vm : Vm) (pa : PAHelper) (x : Nat) : Reading → Option Reading :=
  match psm with
  | .PSMCT32 | .PSMZ32 => read32 vm pa x
  | .PSMCT24 | .PSMZ24 => read24 vm pa x
  | .PSMCT16 | .PSMCT16S | .PSMZ16 | .PSMZ16S => read16 vm pa x
  | .PSMT8 => read8 vm pa x
  | .PSMT4 => read4 vm pa x
  | .PSMT8H => read8H vm pa x
  | .PSMT4HL => read4HL vm pa x
  | .PSMT4HH => read4HH vm pa x

variable {dst : List (BitVec 8)}

section

variable {psm : Psm} {off : GSOffset} {x y i : Nat}

theorem writeStep_paMulti {src : Bytes} {vm : Vm} {p : Nat} : writeStep psm src (off.paMulti x y) i (vm, p) =
    some (putUnit psm src vm (off.pa (x + i) y) (off.pa (x + i + 1) y) p, p + psm.unitBytes) := by
  cases psm <;>
    simp only [writeStep, write32, write24, write16, write8, write4, write8H, write4HL, write4HH, writeNibbles,
      GSOffset.paMulti_value, putUnit, Nat.add_assoc] <;> rfl

theorem readStep_paMulti {vm : Vm} (usual : psm ≠ .PSMT4) : readStep psm vm (off.paMulti x y) i =
    push (getUnit psm vm (off.pa (x + i) y) (off.pa (x + i + 1) y)) := by
  cases psm <;>
    first
    | exact absurd rfl usual
    | simp only [readStep, read32, read24, read16, read8, read8H, read4HL, read4HH, GSOffset.paMulti_value, getUnit,
        Nat.add_assoc]

theorem read4_paMulti {vm : Vm} {p : Nat} : read4 vm (off.paMulti x y) i (dst, p) =
    (store dst p (getUnit .PSMT4 vm (off.pa (x + i) y) (off.pa (x + i + 1) y))).map fun dst => (dst, p) := by
  simp only [read4, GSOffset.paMulti_value, getUnit, Nat.add_assoc]

end

theorem writeStep_shifts (psm : Psm) (src : Bytes) (off : GSOffset) : Shifts (writeStep psm src) off := by
  intro x y i s
  rw [writeStep_paMulti, writeStep_paMulti, Nat.add_zero (x + i)]

theorem readStep_shifts (psm : Psm) (vm : Vm) (off : GSOffset) : Shifts (readStep psm vm) off := by
  intro x y i s
  by_cases usual : psm = .PSMT4
  · subst usual
    exact read4_paMulti.trans read4_paMulti.symm
  · rw [readStep_paMulti usual, readStep_paMulti usual, Nat.add_zero (x + i)]

/-! ## Single calls -/

section

variable (psm : Psm) (bp bw sx sy w h : Nat)

def buffers : BITBLTBUF := ⟨bp, bw, psm, bp, bw, psm⟩

def positions : TRXPOS := ⟨sx, sy, sx, sy⟩

/-- The address of the pixel with number `k`. -/
def pixelAddr (k : Nat) : Nat := (getOffset bp bw psm).pa (sx + k % w) (sy + k / w)

variable {psm bp bw sx sy w h}

theorem second_addr {j : Nat} (whole : psm.xinc ∣ w) (nibbles : psm.nibbles) (wide : 0 < w) :
    (getOffset bp bw psm).pa (sx + j * psm.xinc % w + 1) (sy + j * psm.xinc / w) =
      pixelAddr psm bp bw sx sy w (j * psm.xinc + 1) := by
  have two : psm.xinc = 2 := if_pos nibbles
  rw [two] at whole ⊢
  obtain ⟨m, rfl⟩ := whole
  have column : j * 2 % (2 * m) = 2 * (j % m) := by rw [Nat.mul_comm j, Nat.mul_mod_mul_left]
  have bound := Nat.mod_lt j (by omega : 0 < m)
  have inside : j * 2 % (2 * m) + 1 < 2 * m := by omega
  have split : j * 2 + 1 = 2 * m * (j * 2 / (2 * m)) + (j * 2 % (2 * m) + 1) := by
    rw [← Nat.add_assoc, Nat.div_add_mod]
  have next : (j * 2 + 1) % (2 * m) = j * 2 % (2 * m) + 1 := by
    rw [split, Nat.mul_add_mod, Nat.mod_eq_of_lt inside]
  have same : (j * 2 + 1) / (2 * m) = j * 2 / (2 * m) := by
    rw [split, Nat.mul_add_div wide, Nat.div_eq_of_lt inside, Nat.add_zero]
  unfold pixelAddr
  rw [next, same, Nat.add_assoc]

theorem single_pixels (n : Nat) {k : Nat} (positive : 0 < k) : n * k / k = n * 1 := by
  rw [Nat.mul_div_cancel n positive, Nat.mul_one]

theorem writeImageX_helper {vm : Vm} {src : Bytes} {tx ty n : Nat} (some_pixels : n ≠ 0) :
    writeImageX vm tx ty src (n * psm.unitBytes) (buffers psm bp bw) (positions sx sy) ⟨w, h⟩ =
      (readWriteHelper (writeStep psm src) tx ty (n * psm.xinc) psm.xinc sx w (getOffset bp bw psm) (vm, 0)).map
        fun s => (s.1.1, s.2.1, s.2.2) := by
  have bytes := Nat.mul_ne_zero some_pixels (Nat.ne_of_gt psm.unitBytes_pos)
  unfold writeImageX
  rw [if_neg bytes]
  dsimp only [buffers, positions]
  cases psm with
  | PSMCT32 | PSMZ32 =>
      exact congrArg (fun len => (readWriteHelper (write32 src) tx ty len 1 sx w _ (vm, 0)).map _)
        (single_pixels n (by decide : 0 < 4))
  | PSMCT24 | PSMZ24 =>
      exact congrArg (fun len => (readWriteHelper (write24 src) tx ty len 1 sx w _ (vm, 0)).map _)
        (single_pixels n (by decide : 0 < 3))
  | PSMCT16 | PSMCT16S | PSMZ16 | PSMZ16S =>
      exact congrArg (fun len => (readWriteHelper (write16 src) tx ty len 1 sx w _ (vm, 0)).map _)
        (single_pixels n (by decide : 0 < 2))
  | PSMT8 | PSMT8H => rfl
  | PSMT4 =>
      exact congrArg (fun len => (readWriteHelper (write4 src) tx ty (len * 2) 2 sx w _ (vm, 0)).map _) (Nat.mul_one n)
  | PSMT4HL =>
      exact congrArg (fun len => (readWriteHelper (write4HL src) tx ty (len * 2) 2 sx w _ (vm, 0)).map _)
        (Nat.mul_one n)
  | PSMT4HH =>
      exact congrArg (fun len => (readWriteHelper (write4HH src) tx ty (len * 2) 2 sx w _ (vm, 0)).map _)
        (Nat.mul_one n)

theorem writeImageX_eq {vm : Vm} {src : Bytes} {j n : Nat} (whole : psm.xinc ∣ w) (wide : 0 < w) :
    writeImageX vm (sx + j * psm.xinc % w) (sy + j * psm.xinc / w) src (n * psm.unitBytes) (buffers psm bp bw)
      (positions sx sy) ⟨w, h⟩ =
      (visit (writeStep psm src) (getOffset bp bw psm) psm.xinc sx sy w j n (vm, 0)).map
        fun s => (s.1, sx + (j + n) * psm.xinc % w, sy + (j + n) * psm.xinc / w) := by
  by_cases none : n = 0
  · subst none
    rw [Nat.zero_mul]
    rfl
  · rw [writeImageX_helper none, readWriteHelper_eq (writeStep_shifts _ _ _) psm.xinc_pos whole wide]
    cases visit (writeStep psm src) (getOffset bp bw psm) psm.xinc sx sy w j n (vm, 0) with
    | none => rfl
    | some s => rfl

/-! ## Reading calls -/

theorem readImageX_helper {vm : Vm} {tx ty n : Nat} (some_pixels : n ≠ 0)
    (narrow : psm.trbpp ≠ 32) :
    readImageX vm tx ty dst (n * psm.unitBytes) (buffers psm bp bw) (positions sx sy) ⟨w, h⟩ =
      (readWriteHelper (readStep psm vm) tx ty (n * psm.xinc) psm.xinc sx w (getOffset bp bw psm) (dst, 0)).map
        fun s => (s.1.1, s.2.1, s.2.2) := by
  have bytes := Nat.mul_ne_zero some_pixels (Nat.ne_of_gt psm.unitBytes_pos)
  unfold readImageX
  rw [if_neg bytes]
  dsimp only [buffers, positions]
  cases psm with
  | PSMCT32 | PSMZ32 => exact absurd rfl narrow
  | PSMCT24 | PSMZ24 =>
      exact congrArg (fun len => (readWriteHelper (read24 vm) tx ty len 1 sx w _ (dst, 0)).map _)
        (single_pixels n (by decide : 0 < 3))
  | PSMCT16 | PSMCT16S | PSMZ16 | PSMZ16S =>
      exact congrArg (fun len => (readWriteHelper (read16 vm) tx ty len 1 sx w _ (dst, 0)).map _)
        (single_pixels n (by decide : 0 < 2))
  | PSMT8 | PSMT8H => rfl
  | PSMT4 =>
      exact congrArg (fun len => (readWriteHelper (read4 vm) tx ty (len * 2) 2 sx w _ (dst, 0)).map _) (Nat.mul_one n)
  | PSMT4HL =>
      exact congrArg (fun len => (readWriteHelper (read4HL vm) tx ty (len * 2) 2 sx w _ (dst, 0)).map _)
        (Nat.mul_one n)
  | PSMT4HH =>
      exact congrArg (fun len => (readWriteHelper (read4HH vm) tx ty (len * 2) 2 sx w _ (dst, 0)).map _)
        (Nat.mul_one n)

theorem readImageX_32 {vm : Vm} {tx ty n : Nat} (some_pixels : n ≠ 0) (wide32 : psm.trbpp = 32) :
    readImageX vm tx ty dst (n * psm.unitBytes) (buffers psm bp bw) (positions sx sy) ⟨w, h⟩ =
      (readLoop32 vm sx (sx + w) (getOffset bp bw psm) (n + 2) n tx ty (dst, 0)).map fun s => (s.1.1, s.2.1, s.2.2) := by
  have bytes := Nat.mul_ne_zero some_pixels (Nat.ne_of_gt psm.unitBytes_pos)
  have pixels := Nat.mul_div_cancel n (by decide : 0 < 4)
  unfold readImageX
  rw [if_neg bytes]
  dsimp only [buffers, positions]
  cases psm <;>
    first
    | exact absurd wide32 (by decide)
    | exact congrArg (fun len => (readLoop32 vm sx (sx + w) _ (len + 2) len tx ty (dst, 0)).map _) pixels

theorem readImageX_eq {vm : Vm} {j n : Nat} (whole : psm.xinc ∣ w) (wide : 0 < w) :
    readImageX vm (sx + j * psm.xinc % w) (sy + j * psm.xinc / w) dst (n * psm.unitBytes) (buffers psm bp bw)
      (positions sx sy) ⟨w, h⟩ =
      (visit (readStep psm vm) (getOffset bp bw psm) psm.xinc sx sy w j n (dst, 0)).map
        fun s => (s.1, sx + (j + n) * psm.xinc % w, sy + (j + n) * psm.xinc / w) := by
  by_cases none : n = 0
  · subst none
    rw [Nat.zero_mul]
    rfl
  · by_cases wide32 : psm.trbpp = 32
    · have loop : ∀ blockXor, readLoop32 vm sx (sx + w) (offset32 bp bw blockXor) (n + 2) n (sx + j % w) (sy + j / w)
          (dst, 0) = (visit (read32 vm) (offset32 bp bw blockXor) 1 sx sy w j n (dst, 0)).map
            fun s => (s, sx + (j + n) % w, sy + (j + n) / w) := fun blockXor =>
        readLoop32_eq vm (Nat.div_add_mod' j w).symm (Nat.mod_lt j wide) (by omega) (dst, 0)
      have single : psm.xinc = 1 := by cases psm <;> first | exact absurd wide32 (by decide) | rfl
      rw [readImageX_32 none wide32, single, Nat.mul_one, Nat.mul_one]
      obtain ⟨blockXor, offset, step⟩ : ∃ blockXor, getOffset bp bw psm = offset32 bp bw blockXor ∧
          readStep psm vm = read32 vm := by
        cases psm with
        | PSMCT32 => exact ⟨0x00, rfl, rfl⟩
        | PSMZ32 => exact ⟨0x18, rfl, rfl⟩
        | _ => exact absurd wide32 (by decide)
      rw [offset, step, loop]
      cases visit (read32 vm) (offset32 bp bw blockXor) 1 sx sy w j n (dst, 0) with
      | none => rfl
      | some s => rfl
    · rw [readImageX_helper none wide32, readWriteHelper_eq (readStep_shifts _ _ _) psm.xinc_pos whole wide]
      cases visit (readStep psm vm) (getOffset bp bw psm) psm.xinc sx sy w j n (dst, 0) with
      | none => rfl
      | some s => rfl

end

end Pcsx2.GsMemory
