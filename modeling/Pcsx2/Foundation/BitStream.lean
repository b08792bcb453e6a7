import Mathlib.Algebra.Order.Ring.Nat
import Mathlib.Tactic.Ring

/-!
# Numbers in a stream of bits

The bits of a stream of bytes are numbered from the most significant bit of its first byte.
-/

namespace Pcsx2.Foundation

def bitAt (bytes : Nat → UInt8) (i : Nat) : Nat := (bytes (i / 8)).toNat / 2 ^ (7 - i % 8) % 2

def bitsFrom (bytes : Nat → UInt8) (position : Nat) : Nat → Nat
  | 0 => 0
  | count + 1 => 2 * bitsFrom bytes position count + bitAt bytes (position + count)

variable {bytes bytes' : Nat → UInt8} {position count more : Nat}

theorem bitAt_lt : bitAt bytes position < 2 := Nat.mod_lt _ Nat.two_pos

theorem bitsFrom_lt : bitsFrom bytes position count < 2 ^ count := by
  induction count with
  | zero => exact Nat.one_pos
  | succ count ih =>
      have last : bitAt bytes (position + count) < 2 := bitAt_lt
      rw [bitsFrom, Nat.pow_succ]
      omega

theorem bitsFrom_add : bitsFrom bytes position (count + more) =
    bitsFrom bytes position count * 2 ^ more + bitsFrom bytes (position + count) more := by
  induction more with
  | zero => simp [bitsFrom]
  | succ more ih =>
      rw [← Nat.add_assoc, bitsFrom, ih, bitsFrom, Nat.pow_succ, Nat.add_assoc]
      ring

theorem bitsFrom_congr (shift : Nat)
    (same : ∀ i, 8 * i < position + count → bytes i = bytes' (shift + i)) :
    bitsFrom bytes position count = bitsFrom bytes' (8 * shift + position) count := by
  induction count with
  | zero => rfl
  | succ count ih =>
      have inside : 8 * ((position + count) / 8) < position + (count + 1) := by omega
      have byte : (8 * shift + position + count) / 8 = shift + (position + count) / 8 := by omega
      have bit : (8 * shift + position + count) % 8 = (position + count) % 8 := by omega
      rw [bitsFrom, bitsFrom, ih fun i below => same i (by omega), bitAt, bitAt, byte, bit, same _ inside]

theorem bitsFrom_upper (i : Nat) (inside : count ≤ 8) :
    bitsFrom bytes (8 * i) count = (bytes i).toNat / 2 ^ (8 - count) := by
  induction count with
  | zero => simp [bitsFrom, Nat.div_eq_of_lt (bytes i).toNat_lt]
  | succ count ih =>
      have byte : (8 * i + count) / 8 = i := by omega
      have bit : (8 * i + count) % 8 = count := by omega
      have width : 8 - count = 7 - count + 1 := by omega
      rw [bitsFrom, ih (by omega), bitAt, byte, bit, width, Nat.pow_succ, ← Nat.div_div_eq_div_mul, Nat.div_add_mod,
        Nat.add_comm count 1, Nat.sub_add_eq]

theorem bitsFrom_byte (i : Nat) : bitsFrom bytes (8 * i) 8 = (bytes i).toNat := by
  simp [bitsFrom_upper]

/-! ## A word of the stream -/

def bigEndian (bytes : Nat → UInt8) (place : Nat) : Nat → Nat
  | 0 => 0
  | size + 1 => 256 * bigEndian bytes place size + (bytes (place + size)).toNat

theorem bigEndian_eq (place size : Nat) : bigEndian bytes place size = bitsFrom bytes (8 * place) (8 * size) := by
  induction size with
  | zero => rfl
  | succ size ih =>
      rw [bigEndian, ih, Nat.mul_succ 8 size, bitsFrom_add, ← Nat.mul_add, bitsFrom_byte, Nat.mul_comm 256]
      norm_num

theorem word_shifts (place : Nat) {skip width : Nat} (fits : skip + count ≤ width) (word : 8 * more = width) :
    bigEndian bytes place more * 2 ^ skip % 2 ^ width / 2 ^ (width - count) = bitsFrom bytes (8 * place + skip) count := by
  obtain ⟨rest, rfl⟩ := Nat.exists_eq_add_of_le fits
  have low : bitsFrom bytes (8 * place + skip) (count + rest) * 2 ^ skip < 2 ^ (skip + count + rest) := by
    rw [Nat.add_assoc, Nat.pow_add, Nat.mul_comm (2 ^ skip)]
    exact Nat.mul_lt_mul_of_pos_right bitsFrom_lt (Nat.two_pow_pos _)
  have split : bitsFrom bytes (8 * place) (skip + count + rest) * 2 ^ skip =
      2 ^ (skip + count + rest) * bitsFrom bytes (8 * place) skip +
        bitsFrom bytes (8 * place + skip) (count + rest) * 2 ^ skip := by
    rw [Nat.add_assoc, bitsFrom_add, Nat.pow_add]
    ring
  have after : skip + count + rest - count = rest + skip := by omega
  rw [bigEndian_eq, word, split, Nat.mul_add_mod, Nat.mod_eq_of_lt low, after, Nat.pow_add,
    Nat.mul_div_mul_right _ _ (Nat.two_pow_pos _), bitsFrom_add, Nat.mul_comm, Nat.mul_add_div (Nat.two_pow_pos _),
    Nat.div_eq_of_lt bitsFrom_lt, Nat.add_zero]

end Pcsx2.Foundation
