import Pcsx2.Foundation.OnesComplement
import Pcsx2.PacketReader.NetLib

/-!
# The Internet checksum
-/

namespace Pcsx2.PacketReader

open Foundation

/-- The loop of `InternetChecksum`, where `sum` is below 2 ^ 16 before each word. -/
def internetSum : List Byte → Nat → Nat
  | high :: low :: rest, sum => internetSum rest (OnesComplement.carry 16 (sum + (256 * high.toNat + low.toNat)))
  | [last], sum => OnesComplement.carry 16 (sum + 256 * last.toNat)
  | [], sum => sum

def internetChecksum (buffer : List Byte) : BitVec 16 := ~~~BitVec.ofNat 16 (internetSum buffer 0)

/-- The bytes as 16 bit words, with a zero behind an odd last one. -/
def words : List Byte → List Nat
  | high :: low :: rest => (256 * high.toNat + low.toNat) :: words rest
  | [last] => [256 * last.toNat]
  | [] => []

/-- The complement of the one's complement sum of the words. -/
def rfc1071 (buffer : List Byte) : BitVec 16 := ~~~BitVec.ofNat 16 (OnesComplement.reduce 65535 (words buffer).sum)

/-! ## What TCP and UDP sum up -/

def pseudoHeader (srcIP dstIP : IPAddress) (protocol : Byte) (length : Int) : List Byte :=
  writeIPAddress srcIP ++ (writeIPAddress dstIP ++ ([0, protocol] ++ writeUInt16 (BitVec.ofInt 16 length)))

/-- `pHeaderLen` -/
def segmentSize (length : Int) : Int := if (12 + length) % 2 = 0 then 12 + length else 12 + length + 1

/-- The segment that is summed up: the packet behind its pseudo header, and one alignment byte at
most. There is none where the packet does not fit, or leaves bytes of the segment unwritten. -/
def headerSegment (srcIP dstIP : IPAddress) (protocol : Byte) (length : Int) (packet : List Byte) : Option (List Byte) :=
  let written := pseudoHeader srcIP dstIP protocol length ++ packet
  if written.length = segmentSize length then some written
  else if written.length + 1 = segmentSize length then some (written ++ [0]) else none

variable {buffer front rest : List Byte}

/-! ## The sum -/

theorem carry_eq {sum word : Nat} (small : sum ≤ 65535) (small' : word ≤ 65535) :
    OnesComplement.carry 16 (sum + word) = OnesComplement.reduce 65535 (sum + word) :=
  OnesComplement.carry_eq_reduce (w := 16) small small'

theorem internetSum_eq {sum : Nat} (small : sum ≤ 65535) :
    internetSum buffer sum = OnesComplement.reduce 65535 (sum + (words buffer).sum) := by
  induction buffer, sum using internetSum.induct with
  | case1 high low rest sum ih =>
      have first := high.isLt
      have second := low.isLt
      have carry := @carry_eq _ (256 * high.toNat + low.toNat) small (by omega)
      rw [carry] at ih
      rw [internetSum, carry, ih (OnesComplement.reduce_le (by omega)), words, List.sum_cons, OnesComplement.reduce_reduce_add,
        Nat.add_assoc]
  | case2 last sum =>
      have first := last.isLt
      rw [internetSum, words, List.sum_singleton, carry_eq small (by omega)]
  | case3 sum => rw [internetSum, words, List.sum_nil, Nat.add_zero, OnesComplement.reduce_of_le small]

theorem internetChecksum_eq : internetChecksum buffer = rfc1071 buffer := by
  rw [internetChecksum, rfc1071, internetSum_eq (Nat.zero_le _), Nat.zero_add]

theorem internetChecksum_eq_zero_iff :
    internetChecksum buffer = 0 ↔ (words buffer).sum ≠ 0 ∧ 65535 ∣ (words buffer).sum := by
  have bound := OnesComplement.reduce_le (m := 65535) (x := (words buffer).sum) (by omega)
  have zero : (0 : BitVec 16).toNat = 0 := rfl
  rw [internetChecksum_eq, rfc1071, ← OnesComplement.reduce_eq_max_iff (by omega), ← BitVec.toNat_inj, BitVec.toNat_not,
    BitVec.toNat_ofNat, zero]
  omega

/-! ## Parts of a buffer -/

theorem words_append (even : front.length % 2 = 0) : words (front ++ rest) = words front ++ words rest := by
  induction front using words.induct with
  | case1 high low front ih =>
      rw [List.length_cons, List.length_cons] at even
      rw [List.cons_append, List.cons_append, words, words, ih (by omega), List.cons_append]
  | case2 last => cases even
  | case3 => rfl

def weight (place : Nat) : Nat := if place % 2 = 0 then 256 else 1

theorem sum_words_insert (b : Byte) :
    (words (front ++ b :: rest)).sum = (words (front ++ 0 :: rest)).sum + weight front.length * b.toNat := by
  induction front using words.induct with
  | case1 high low front ih =>
      have same : weight (high :: low :: front).length = weight front.length := by
        rw [weight, weight, List.length_cons, List.length_cons, Nat.add_assoc, Nat.add_mod_right]
      simp only [List.cons_append, words, List.sum_cons, same, ih, Nat.add_assoc]
  | case2 last => simp [words, weight, Nat.add_right_comm]
  | case3 =>
      cases rest with
      | nil => simp [words, weight]
      | cons low rest => simp [words, weight, Nat.add_comm, Nat.add_left_comm, Nat.add_assoc]

/-! ## Errors -/

def Flipped (buffer buffer' : List Byte) : Prop := ∃ front b rest bit, bit < 8 ∧ buffer = front ++ b :: rest ∧
  buffer' = front ++ (b ^^^ BitVec.twoPow 8 bit) :: rest

theorem toNat_flip : ∀ (b : Byte) (bit : Fin 8),
    (b ^^^ BitVec.twoPow 8 bit).toNat = b.toNat + 2 ^ bit.val ∨ b.toNat = (b ^^^ BitVec.twoPow 8 bit).toNat + 2 ^ bit.val := by
  decide

theorem internetChecksum_ne_zero_of_flipped {buffer' : List Byte} (flipped : Flipped buffer buffer')
    (right : internetChecksum buffer = 0) : internetChecksum buffer' ≠ 0 := by
  intro right'
  obtain ⟨front, b, rest, bit, byte, rfl, rfl⟩ := flipped
  have multiple := (internetChecksum_eq_zero_iff.1 right).2
  have multiple' := (internetChecksum_eq_zero_iff.1 right').2
  rw [sum_words_insert] at multiple multiple'
  have power : 0 < 2 ^ bit ∧ 2 ^ bit ≤ 128 := ⟨Nat.two_pow_pos bit, Nat.pow_le_pow_right (n := 2) (by omega) (Nat.le_of_lt_succ byte)⟩
  have small : 0 < weight front.length * 2 ^ bit ∧ weight front.length * 2 ^ bit < 65535 := by
    rw [weight]
    split <;> omega
  have less (multiple : 65535 ∣ weight front.length * 2 ^ bit) := Nat.le_of_dvd small.1 multiple
  rcases toNat_flip b ⟨bit, byte⟩ with more | more
  · rw [more, Nat.mul_add, ← Nat.add_assoc] at multiple'
    have := less ((Nat.dvd_add_right multiple).1 multiple')
    omega
  · rw [more, Nat.mul_add, ← Nat.add_assoc] at multiple
    have := less ((Nat.dvd_add_right multiple').1 multiple)
    omega

theorem words_writeUInt16 (value : BitVec 16) : words (writeUInt16 value) = [value.toNat] := by
  have small := value.isLt
  rw [writeUInt16, words, words, toNat_byte, toNat_byte]
  congr 1
  omega

theorem sum_words_field (even : front.length % 2 = 0) (value : BitVec 16) :
    (words (front ++ (writeUInt16 value ++ rest))).sum = (words front).sum + (words rest).sum + value.toNat := by
  have two : (writeUInt16 value).length % 2 = 0 := by rw [length_writeUInt16]
  rw [words_append even, words_append two, List.sum_append, List.sum_append, words_writeUInt16, List.sum_singleton]
  omega

theorem internetChecksum_field (even : front.length % 2 = 0) :
    internetChecksum (front ++ (writeUInt16 (internetChecksum (front ++ (writeUInt16 0 ++ rest))) ++ rest)) = 0 := by
  have zero : (0 : BitVec 16).toNat = 0 := rfl
  rw [internetChecksum_eq_zero_iff, sum_words_field even, internetChecksum_eq, rfc1071, sum_words_field even, zero, Nat.add_zero,
    BitVec.toNat_not, BitVec.toNat_ofNat]
  generalize (words front).sum + (words rest).sum = sum
  have bound := OnesComplement.reduce_le (m := 65535) (x := sum) (by omega)
  have none := OnesComplement.reduce_eq_zero_iff (m := 65535) (x := sum)
  have same := OnesComplement.reduce_modEq (m := 65535) (x := sum)
  generalize OnesComplement.reduce 65535 sum = rest at *
  rw [Nat.ModEq] at same
  omega

end Pcsx2.PacketReader
