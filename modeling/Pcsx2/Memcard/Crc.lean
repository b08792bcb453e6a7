import Pcsx2.Foundation.Masks
import Mathlib.Data.List.Range
import Mathlib.Logic.Function.Basic
import Mathlib.Tactic.IntervalCases

/-!
# The integrity value of file memory cards

A file is its size and its bytes; what `content` is behind the size is never read.
-/

namespace Pcsx2.Memcard
open Foundation

structure CardFile where
  size : Nat
  content : Nat → BitVec 8

namespace FileMemoryCard

/-- `std::size(buffer)`: the elements are `u64`. -/
def bufferLength : Nat := 528 * 8

/-- `sizeof(buffer)` -/
def bufferSize : Nat := bufferLength * 8

/-- The `u64` at an offset. -/
def word (content : Nat → BitVec 8) (offset : Nat) : BitVec 64 :=
  (List.range 8).foldr (fun k high => (content (offset + k)).setWidth 64 <<< (8 * k) ||| high) 0

def fread (file : CardFile) (position : Nat) : Option (Nat → BitVec 64) :=
  if position + bufferSize ≤ file.size then some fun t => word file.content (position + 8 * t) else none

/-- The value and, of each iteration, the offset and the size that it has read. -/
def crcLoop (file : CardFile) : Nat → Nat → BitVec 64 → BitVec 64 × List (Nat × Nat)
  | 0, _, retval => (retval, [])
  | i + 1, position, retval =>
    match fread file position with
    | none => (0, [])
    | some buffer =>
      let (value, chunks) := crcLoop file i (position + bufferSize)
        ((List.range bufferLength).foldl (fun retval t => retval ^^^ buffer t) retval)
      (value, (position, bufferSize) :: chunks)

def iterations (file : CardFile) : Nat := file.size % 2 ^ 32 / bufferSize

def GetCRC (m_file : Option CardFile) (m_ispsx : Bool) (m_chksum : BitVec 64) : BitVec 64 :=
  match m_file with
  | none => 0
  | some mcfp => if m_ispsx then (crcLoop mcfp (iterations mcfp) 0 0).1 else m_chksum

end FileMemoryCard

open FileMemoryCard

/-- The image of a PSX card with these bytes. -/
def psxImage (content : Nat → BitVec 8) : CardFile := ⟨0x20000, content⟩

def psxCRC (content : Nat → BitVec 8) (m_chksum : BitVec 64) : BitVec 64 := GetCRC (some (psxImage content)) true m_chksum

/-- The bytes with one bit changed. -/
def changeBit (content : Nat → BitVec 8) (offset : Nat) (bit : Fin 8) : Nat → BitVec 8 :=
  Function.update content offset (content offset ^^^ 1#8 <<< bit.val)

variable {content content' : Nat → BitVec 8} {file : CardFile} {position offset : Nat}

/-! ## Words -/

theorem word_congr (same : ∀ k < 8, content (offset + k) = content' (offset + k)) : word content offset = word content' offset := by
  have first : content offset = content' offset := same 0 (by decide)
  simp [word, List.range, List.range.loop, same, first]

theorem word_bit {k : Nat} (inside : k < 8) (bit : Fin 8) : (word content offset).getLsbD (8 * k + bit) = (content (offset + k)).getLsbD bit := by
  obtain ⟨bit, small⟩ := bit
  interval_cases k <;>
    simp (disch := omega) [word, List.range, List.range.loop, BitVec.getLsbD_of_ge]
  all_goals
    intro high
    omega

/-! ## The loop -/

def wordsFrom (content : Nat → BitVec 8) (position t : Nat) : BitVec 64 := word content (position + 8 * t)

theorem crcLoop_eq (i : Nat) (retval : BitVec 64) (inside : position + i * bufferSize ≤ file.size) :
    crcLoop file i position retval =
      (retval ^^^ xorAll (wordsFrom file.content position) (List.range (i * bufferLength)),
        (List.range i).map fun j => (position + j * bufferSize, bufferSize)) := by
  induction i generalizing position retval with
  | zero => simp [crcLoop, xorAll]
  | succ i ih =>
      have size : bufferSize = 8 * bufferLength := rfl
      rw [Nat.succ_mul] at inside
      have reads : fread file position = some (wordsFrom file.content position) := if_pos (by omega)
      have rest := ih (retval ^^^ xorAll (wordsFrom file.content position) (List.range bufferLength))
        (by omega : position + bufferSize + i * bufferSize ≤ file.size)
      have behind : wordsFrom file.content (position + bufferSize) =
          fun t => wordsFrom file.content position (bufferLength + t) := by
        funext t
        rw [wordsFrom, wordsFrom, size]
        congr 1
        omega
      have chunks (j : Nat) : position + bufferSize + j * bufferSize = position + (j + 1) * bufferSize := by
        rw [Nat.succ_mul]
        omega
      rw [crcLoop, reads]
      simp only [rest, foldl_xor, behind, chunks]
      rw [Nat.succ_mul, Nat.add_comm (i * bufferLength), List.range_add, xorAll_append, xorAll_map, ← BitVec.xor_assoc,
        List.range_succ_eq_map, List.map_cons, List.map_map]
      simp [Function.comp_def]

theorem psxImage_loop (content : Nat → BitVec 8) : crcLoop (psxImage content) (iterations (psxImage content)) 0 0 =
    (xorAll (wordsFrom content 0) (List.range (3 * bufferLength)), (List.range 3).map fun j => (j * bufferSize, bufferSize)) := by
  have three : iterations (psxImage content) = 3 := by
    change 0x20000 % 2 ^ 32 / bufferSize = 3
    decide
  have inside : 0 + 3 * bufferSize ≤ (psxImage content).size := by
    change 0 + 3 * bufferSize ≤ 0x20000
    decide
  have zero : (0 : BitVec 64) ^^^ xorAll (wordsFrom content 0) (List.range (3 * bufferLength)) =
      xorAll (wordsFrom content 0) (List.range (3 * bufferLength)) := BitVec.zero_xor
  have read := crcLoop_eq 3 0 inside
  simp only [Nat.zero_add] at read
  rw [three, read, ← zero]
  rfl

theorem psxCRC_eq (content : Nat → BitVec 8) (m_chksum : BitVec 64) :
    psxCRC content m_chksum = xorAll (wordsFrom content 0) (List.range (3 * bufferLength)) := by
  simp only [psxCRC, GetCRC, if_true, psxImage_loop]

/-! ## Changes -/

theorem changeBit_other {bit : Fin 8} {place : Nat} (other : place ≠ offset) : changeBit content offset bit place = content place :=
  Function.update_of_ne other _ _

theorem wordsFrom_other {bit : Fin 8} {t : Nat} (other : t ≠ offset / 8) :
    wordsFrom (changeBit content offset bit) 0 t = wordsFrom content 0 t := by
  refine word_congr fun k small => changeBit_other ?_
  omega

theorem wordsFrom_changed (content : Nat → BitVec 8) (offset : Nat) (bit : Fin 8) :
    wordsFrom content 0 (offset / 8) ≠ wordsFrom (changeBit content offset bit) 0 (offset / 8) := by
  intro same
  have place : 0 + 8 * (offset / 8) + offset % 8 = offset := by omega
  have bits := congrArg (fun w : BitVec 64 => w.getLsbD (8 * (offset % 8) + bit)) same
  simp only [wordsFrom, word_bit (Nat.mod_lt offset (by decide : 0 < 8)), place, changeBit, Function.update_self,
    BitVec.getLsbD_xor] at bits
  have one : ∀ bit : Fin 8, (1#8 <<< bit.val).getLsbD bit = true := by decide
  rw [one, Bool.xor_true] at bits
  exact (Bool.eq_not_self _).1 bits

theorem psxCRC_changes (content : Nat → BitVec 8) (m_chksum : BitVec 64) (offset : Nat) (bit : Fin 8) :
    psxCRC (changeBit content offset bit) m_chksum ≠ psxCRC content m_chksum ↔ offset < 3 * bufferSize := by
  have size : bufferSize = 8 * bufferLength := rfl
  rw [psxCRC_eq, psxCRC_eq]
  constructor
  · intro changed
    by_contra behind
    refine changed (xorAll_congr fun t mem => wordsFrom_other ?_)
    have inside := List.mem_range.1 mem
    omega
  · intro inside same
    have mem : offset / 8 ∈ List.range (3 * bufferLength) := List.mem_range.2 (by omega)
    have apart : ∀ t, t ≠ offset / 8 → wordsFrom content 0 t = wordsFrom (changeBit content offset bit) 0 t :=
      fun t other => (wordsFrom_other other).symm
    have change := xorAll_change List.nodup_range mem apart
    rw [← same, BitVec.xor_self] at change
    exact wordsFrom_changed content offset bit (BitVec.xor_eq_zero_iff.1 change.symm)

/-- Every iteration reads the buffer that is its own, but a bit counts exactly where it stands in front of the fourth buffer. -/
theorem getCRC_changes_iff (content : Nat → BitVec 8) (m_chksum : BitVec 64) (offset : Nat) (bit : Fin 8) :
    (psxCRC (changeBit content offset bit) m_chksum ≠ psxCRC content m_chksum ∧
      (crcLoop (psxImage content) (iterations (psxImage content)) 0 0).2 = (List.range 3).map fun j => (j * bufferSize, bufferSize)) ↔
        offset < 101376 := by
  rw [psxCRC_changes, psxImage_loop, and_iff_left rfl]
  exact Iff.rfl

/-- The last byte of the image does not count. -/
theorem last_byte_not_changes : ¬∀ content m_chksum, ∀ offset < 0x20000, ∀ bit,
    psxCRC (changeBit content offset bit) m_chksum ≠ psxCRC content m_chksum := by
  intro law
  have counts := law (fun _ => 0) 0 0x1FFFF (by decide) 0
  rw [psxCRC_changes] at counts
  exact absurd counts (by decide)

end Pcsx2.Memcard
