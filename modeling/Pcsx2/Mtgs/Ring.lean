import Mathlib.Algebra.Order.Ring.Int
import Pcsx2.Foundation.Memory
import Mathlib.Tactic.Ring
import Mathlib.Data.Nat.Bitwise

/-!
# The MTGS ring buffer

`BufferedData` is one flat array of 32-bit words: ring slot `i` is words `4 * i` to `4 * i + 3`,
and `Regs` follows the last slot, as in the source's structure. A function of the EE side is
modelled by the stores it performs, in order, and by the positions it computes.
-/

namespace Pcsx2.Mtgs
open Foundation

def RingBufferSizeFactor : Nat := 19
def RingBufferSize : Nat := 1 <<< RingBufferSizeFactor
def RingBufferMask : Nat := RingBufferSize - 1

theorem RingBufferSize_eq : RingBufferSize = 524288 := rfl

@[simp] theorem and_RingBufferMask (x : Nat) : x &&& RingBufferMask = x % RingBufferSize :=
  Nat.and_two_pow_sub_one_eq_mod x RingBufferSizeFactor

def subU32 (a b : Nat) : Nat := (a + 2 ^ 32 - b) % 2 ^ 32

abbrev Word := UInt32
abbrev Memory := Nat → Word
abbrev Stores := List (Nat × Word)

structure U128 where
  (w0 w1 w2 w3 : Word)
deriving DecidableEq

def U128.words (q : U128) : List Word := [q.w0, q.w1, q.w2, q.w3]

def slot (m : Memory) (p : Nat) : U128 := ⟨m (4 * p), m (4 * p + 1), m (4 * p + 2), m (4 * p + 3)⟩

/-- The address of a word of `Regs`. -/
def regs (i : Nat) : Nat := 4 * RingBufferSize + i

inductive Command where
  | GIFPath1 | GIFPath2 | GIFPath3 | VSync | Freeze | Reset | SoftReset | GSPacket
  | MTVUGSPacket | InitAndReadFIFO | AsyncCall
deriving DecidableEq

def Command.toWord : Command → Word
  | .GIFPath1 => 0 | .GIFPath2 => 1 | .GIFPath3 => 2 | .VSync => 3 | .Freeze => 4 | .Reset => 5
  | .SoftReset => 6 | .GSPacket => 7 | .MTVUGSPacket => 8 | .InitAndReadFIFO => 9 | .AsyncCall => 10

def Command.hasData : Command → Bool
  | .GIFPath1 | .GIFPath2 | .GIFPath3 | .VSync => true
  | _ => false

/-! ## Wrapped copies -/

/-- The stores of a `memcpy` of quadwords to the slots from `start`. -/
def copySlots (start : Nat) (src : List U128) : Stores :=
  blockStores (4 * start) (src.flatMap U128.words)

def memCopyWrappedDest (src : List U128) (destStart destSize len : Nat) : Stores × Nat :=
  let endpos := destStart + len
  if endpos < destSize then (copySlots destStart (src.take len), destStart + len)
  else
    let firstcopylen := destSize - destStart
    let wrapped := endpos % destSize
    (copySlots destStart (src.take firstcopylen) ++
      copySlots 0 ((src.drop firstcopylen).take wrapped), wrapped)

def memCopyWrappedSrc (srcStart srcSize len : Nat) : List Nat × Nat :=
  let endpos := srcStart + len
  if endpos < srcSize then ((List.range len).map (srcStart + ·), srcStart + len)
  else
    let firstcopylen := srcSize - srcStart
    let wrapped := endpos % srcSize
    ((List.range firstcopylen).map (srcStart + ·) ++ List.range wrapped, wrapped)

/-! ## Packets -/

structure DataPacket where
  startpos : Nat
  size : Nat
  writepos : Nat

def genericStallFreeroom (writepos readpos : Nat) : Nat :=
  if writepos < readpos then readpos - writepos else RingBufferSize - (writepos - readpos)

def prepDataPacket (cmd : Command) (size writePos : Nat) : Stores × DataPacket :=
  ([(4 * writePos, cmd.toWord), (4 * writePos + 1, UInt32.ofNat size)],
    { startpos := writePos, size, writepos := (writePos + 1) &&& RingBufferMask })

def sendDataPacket (packet : DataPacket) : Stores × Nat :=
  let actualSize := subU32 (subU32 packet.writepos packet.startpos &&& RingBufferMask) 1
  ([(4 * packet.startpos + 1, UInt32.ofNat actualSize)], packet.writepos)

/-- `_FinishSimplePacket`: the new write position. -/
def finishSimplePacket (writePos : Nat) : Nat := (writePos + 1) &&& RingBufferMask

def sendSimplePacket (type : Command) (data0 data1 data2 : Word) (writePos : Nat) : Stores × Nat :=
  ([(4 * writePos, type.toWord), (4 * writePos + 1, data0), (4 * writePos + 2, data1),
    (4 * writePos + 3, data2)], finishSimplePacket writePos)

def sendPointerPacket (type : Command) (data0 : Word) (data1 : UInt64) (writePos : Nat) :
    Stores × Nat :=
  ([(4 * writePos, type.toWord), (4 * writePos + 1, data0), (4 * writePos + 2, data1.toUInt32),
    (4 * writePos + 3, (data1 >>> 32).toUInt32)], finishSimplePacket writePos)

/-! ## What a wrapped copy leaves in the ring -/

@[simp] theorem flatMap_words_length (qs : List U128) :
    (qs.flatMap U128.words).length = 4 * qs.length := by
  induction qs with
  | nil => rfl
  | cons q qs ih =>
      simp only [List.flatMap_cons, List.length_append, ih, List.length_cons]
      simp [U128.words]
      omega

theorem copySlots_bounds {start : Nat} {src : List U128} {s : Nat × Word}
    (member : s ∈ copySlots start src) : start ≤ s.1 / 4 ∧ s.1 / 4 < start + src.length := by
  have := blockStores_bounds member
  rw [flatMap_words_length] at this
  omega

theorem slot_congr {m m' : Memory} {p : Nat} (agree : ∀ a, a / 4 = p → m a = m' a) :
    slot m p = slot m' p := by
  unfold slot
  rw [agree (4 * p) (by omega), agree (4 * p + 1) (by omega), agree (4 * p + 2) (by omega),
    agree (4 * p + 3) (by omega)]

theorem slot_perform_of_not_mem {m : Memory} {stores : Stores} {p : Nat}
    (untouched : ∀ s ∈ stores, s.1 / 4 ≠ p) : slot (perform m stores) p = slot m p :=
  slot_congr fun a at_p => perform_of_not_mem fun s member equal =>
    untouched s member (by rw [equal, at_p])

theorem perform_copySlots_cons (m : Memory) (start : Nat) (q : U128) (src : List U128) :
    perform m (copySlots start (q :: src)) =
      perform (perform m (blockStores (4 * start) q.words)) (copySlots (start + 1) src) := by
  rw [← perform_append]
  rfl

theorem slot_perform_copySlots (m : Memory) (start : Nat) (src : List U128) (i : Nat)
    (bound : i < src.length) : slot (perform m (copySlots start src)) (start + i) = src[i] := by
  induction src generalizing m start i with
  | nil => simp at bound
  | cons q src ih =>
      rw [perform_copySlots_cons]
      cases i with
      | zero =>
          rw [slot_perform_of_not_mem fun s member => by have := copySlots_bounds member; omega]
          have word (j : Nat) (lt : j < 4) :
              perform m (blockStores (4 * start) q.words) (4 * start + j) = q.words[j] :=
            perform_blockStores m _ _ _ lt
          have first := word 0 (by omega)
          rw [Nat.add_zero] at first
          simp only [slot, Nat.add_zero, List.getElem_cons_zero]
          rw [first, word 1 (by omega), word 2 (by omega), word 3 (by omega)]
          rfl
      | succ i =>
          rw [show start + (i + 1) = start + 1 + i by omega,
            ih _ _ _ (by simpa using bound)]
          rfl

section WrappedCopy

variable {src : List U128} {start size : Nat}

theorem memCopyWrappedDest_snd (src : List U128) (start size : Nat) :
    (memCopyWrappedDest src start size src.length).2 = (start + src.length) % size := by
  unfold memCopyWrappedDest
  dsimp only
  split
  · rename_i lt
    exact (Nat.mod_eq_of_lt lt).symm
  · rfl

theorem wrap_eq {x size : Nat} (past : size ≤ x) (below : x < 2 * size) : x % size = x - size := by
  rw [Nat.mod_eq_sub_mod past, Nat.mod_eq_of_lt (by omega)]

theorem memCopyWrappedDest_bounds (src : List U128) (inside : start < size) (fits : src.length ≤ size)
    {s : Nat × Word} (member : s ∈ (memCopyWrappedDest src start size src.length).1) :
    ∃ i < src.length, s.1 / 4 = (start + i) % size := by
  unfold memCopyWrappedDest at member
  dsimp only at member
  split at member
  · rename_i lt
    have := copySlots_bounds member
    rw [List.length_take, Nat.min_self] at this
    exact ⟨s.1 / 4 - start, by omega, by rw [Nat.mod_eq_of_lt (by omega)]; omega⟩
  · rename_i ge
    rcases List.mem_append.1 member with member | member
    · have := copySlots_bounds member
      rw [List.length_take] at this
      exact ⟨s.1 / 4 - start, by omega, by rw [Nat.mod_eq_of_lt (by omega)]; omega⟩
    · have bounds := copySlots_bounds member
      rw [List.length_take, List.length_drop, wrap_eq (by omega) (by omega)] at bounds
      exact ⟨s.1 / 4 + (size - start), by omega, by rw [wrap_eq (by omega) (by omega)]; omega⟩

theorem slot_memCopyWrappedDest (src : List U128) (inside : start < size) (fits : src.length ≤ size) (m : Memory)
    (i : Nat) (bound : i < src.length) :
    slot (perform m (memCopyWrappedDest src start size src.length).1) ((start + i) % size) =
      src[i] := by
  unfold memCopyWrappedDest
  dsimp only
  split
  · rename_i lt
    rw [Nat.mod_eq_of_lt (by omega), List.take_length, slot_perform_copySlots]
  · rename_i ge
    rw [perform_append, wrap_eq (x := start + src.length) (by omega) (by omega)]
    by_cases first : start + i < size
    · rw [Nat.mod_eq_of_lt first, slot_perform_of_not_mem, slot_perform_copySlots]
      · exact List.getElem_take
      · rw [List.length_take]
        omega
      · intro s member
        have := copySlots_bounds member
        rw [List.length_take, List.length_drop] at this
        omega
    · rw [wrap_eq (by omega) (by omega)]
      have position := slot_perform_copySlots
        (perform m (copySlots start (src.take (size - start)))) 0
        ((src.drop (size - start)).take (start + src.length - size)) (start + i - size)
        (by rw [List.length_take, List.length_drop]; omega)
      rw [Nat.zero_add] at position
      rw [position, List.getElem_take, List.getElem_drop]
      congr 1
      omega

theorem memCopyWrappedSrc_eq (inside : start < size) {len : Nat} (fits : len ≤ size) :
    memCopyWrappedSrc start size len =
      ((List.range len).map fun i => (start + i) % size, (start + len) % size) := by
  unfold memCopyWrappedSrc
  dsimp only
  split
  · rename_i lt
    rw [Nat.mod_eq_of_lt lt]
    congr 1
    exact List.map_congr_left fun i member => by
      have := List.mem_range.1 member
      exact (Nat.mod_eq_of_lt (by omega)).symm
  · rename_i ge
    obtain ⟨d, rfl⟩ : ∃ d, len = (size - start) + d := ⟨len - (size - start), by omega⟩
    congr 1
    rw [wrap_eq (by omega) (by omega), List.range_add, List.map_append,
      show start + (size - start + d) - size = d by omega]
    congr 1
    · exact List.map_congr_left fun i member => by
        have := List.mem_range.1 member
        exact (Nat.mod_eq_of_lt (by omega)).symm
    · rw [List.map_map]
      conv_lhs => rw [← List.map_id (List.range d)]
      exact List.map_congr_left fun i member => by
        have := List.mem_range.1 member
        simp only [id, Function.comp_apply]
        rw [wrap_eq (by omega) (by omega)]
        omega

end WrappedCopy

end Pcsx2.Mtgs
