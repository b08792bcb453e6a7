import Mathlib.Algebra.Order.Ring.Nat
import Pcsx2.Foundation.Format

/-!
# Numbers on the wire

Numbers stand with their most significant byte first. An address of IPv4 is copied as it stands and
is written here as the number its bytes make in that order.
-/

namespace Pcsx2.PacketReader

open Foundation Foundation.Reader

abbrev Byte := BitVec 8

def writeUInt16 (value : BitVec 16) : List Byte := [value.extractLsb' 8 8, value.extractLsb' 0 8]

def writeUInt32 (value : BitVec 32) : List Byte :=
  [value.extractLsb' 24 8, value.extractLsb' 16 8, value.extractLsb' 8 8, value.extractLsb' 0 8]

abbrev IPAddress := BitVec 32

def writeIPAddress (value : IPAddress) : List Byte := writeUInt32 value

def readByte08 : Reader Byte Byte := item

def readUInt16 : Reader Byte (BitVec 16) := do
  let high ← item
  let low ← item
  pure (high ++ low)

def readUInt32 : Reader Byte (BitVec 32) := do
  let a ← item
  let b ← item
  let c ← item
  let d ← item
  pure (a ++ b ++ c ++ d)

def readIPAddress : Reader Byte IPAddress := readUInt32

def readByteArray (length : Nat) : Reader Byte (List Byte) := items length

@[simp] theorem length_writeUInt16 (value : BitVec 16) : (writeUInt16 value).length = 2 := rfl

@[simp] theorem length_writeUInt32 (value : BitVec 32) : (writeUInt32 value).length = 4 := rfl

@[simp] theorem length_writeIPAddress (value : IPAddress) : (writeIPAddress value).length = 4 := rfl

theorem sized_readByte08 : Sized readByte08 1 := sized_item

theorem sized_readUInt16 : Sized readUInt16 2 := sized_item.bind fun _ => sized_item.map

theorem sized_readUInt32 : Sized readUInt32 4 :=
  sized_item.bind fun _ => sized_item.bind fun _ => sized_item.bind fun _ => sized_item.map

theorem reads_readByte08 (value : Byte) : Reads readByte08 [value] value := reads_item value

theorem toNat_append_byte {n : Nat} (x : BitVec n) (b : Byte) : (x ++ b).toNat = 256 * x.toNat + b.toNat := by
  have small : b.toNat < 2 ^ 8 := b.isLt
  rw [BitVec.toNat_append, ← Nat.shiftLeft_add_eq_or_of_lt small, Nat.shiftLeft_eq, Nat.mul_comm]

theorem toNat_byte {n : Nat} (x : BitVec n) (start : Nat) : (x.extractLsb' start 8 : Byte).toNat = x.toNat / 2 ^ start % 256 := by
  rw [BitVec.extractLsb'_toNat, Nat.shiftRight_eq_div_pow]

theorem reads_readUInt16 (value : BitVec 16) : Reads readUInt16 (writeUInt16 value) value := by
  have joined : (value.extractLsb' 8 8 ++ value.extractLsb' 0 8 : BitVec 16) = value := by
    apply BitVec.eq_of_toNat_eq
    have small := value.isLt
    rw [toNat_append_byte, toNat_byte, toNat_byte]
    omega
  have reads : Reads readUInt16 (writeUInt16 value) (value.extractLsb' 8 8 ++ value.extractLsb' 0 8 : BitVec 16) :=
    (reads_item _).bind (reads_item _).map
  rw [joined] at reads
  exact reads

theorem reads_readUInt32 (value : BitVec 32) : Reads readUInt32 (writeUInt32 value) value := by
  have joined : (value.extractLsb' 24 8 ++ value.extractLsb' 16 8 ++ value.extractLsb' 8 8 ++ value.extractLsb' 0 8 :
      BitVec 32) = value := by
    apply BitVec.eq_of_toNat_eq
    have small := value.isLt
    rw [toNat_append_byte, toNat_append_byte, toNat_append_byte, toNat_byte, toNat_byte, toNat_byte, toNat_byte]
    omega
  have reads : Reads readUInt32 (writeUInt32 value)
      (value.extractLsb' 24 8 ++ value.extractLsb' 16 8 ++ value.extractLsb' 8 8 ++ value.extractLsb' 0 8 : BitVec 32) :=
    (reads_item _).bind ((reads_item _).bind ((reads_item _).bind (reads_item _).map))
  rw [joined] at reads
  exact reads

theorem writeUInt16_inj {value value' : BitVec 16} (same : writeUInt16 value = writeUInt16 value') : value = value' := by
  have here := reads_readUInt16 value [] []
  rw [same, reads_readUInt16 value' [] []] at here
  exact (congrArg Prod.fst (Option.some.inj here)).symm

end Pcsx2.PacketReader

/-!
# Payloads

Packets know their payload by its virtual functions. A parsed packet points into the buffer it was
parsed from, with a length that may be negative.
-/

namespace Pcsx2.PacketReader

structure PayloadPtr where
  start : Nat
  length : Int
  deriving DecidableEq

namespace PayloadPtr

def Inside (buffer : List Byte) (p : PayloadPtr) : Prop := 0 ≤ p.length ∧ p.start + p.length ≤ buffer.length

instance (buffer : List Byte) (p : PayloadPtr) : Decidable (p.Inside buffer) := inferInstanceAs (Decidable (_ ∧ _))

def data (buffer : List Byte) (p : PayloadPtr) : Option (List Byte) :=
  if p.Inside buffer then some ((buffer.drop p.start).take p.length.toNat) else none

theorem data_end (front rest : List Byte) : data (front ++ rest) ⟨front.length, rest.length⟩ = some rest := by
  have inside : Inside (front ++ rest) ⟨front.length, rest.length⟩ := by
    rw [Inside, List.length_append]
    exact ⟨Int.natCast_nonneg _, Int.le_of_eq (Int.natCast_add _ _).symm⟩
  rw [data, if_pos inside, List.drop_left, Int.toNat_natCast, List.take_length]

theorem length_of_data {buffer bytes : List Byte} {p : PayloadPtr} (data : p.data buffer = some bytes) :
    (bytes.length : Int) = p.length := by
  rw [PayloadPtr.data] at data
  by_cases inside : p.Inside buffer
  · rw [if_pos inside] at data
    obtain ⟨positive, bound⟩ := inside
    rw [← Option.some.inj data, List.length_take, List.length_drop]
    omega
  · rw [if_neg inside] at data
    cases data

end PayloadPtr

/-- `writeBytes` has none where a negative number of bytes is set. -/
class Payload (π : Type) where
  getLength : π → Int
  writeBytes : π → Option (List Byte)
  clone : π → π
  getLength_clone : ∀ p, getLength (clone p) ≤ getLength p

/-- `calculateChecksum` has none where the checksum is one of bytes outside of the packet. -/
class IPPayload (π : Type) where
  getLength : π → Int
  writeBytes : π → Option (List Byte)
  calculateChecksum : IPAddress → IPAddress → π → Option π
  clone : π → π
  getLength_clone : ∀ p, getLength (clone p) ≤ getLength p
  getLength_calculateChecksum : ∀ srcIP dstIP p p', calculateChecksum srcIP dstIP p = some p' → getLength p' = getLength p

structure PayloadData where
  data : List Byte
  deriving DecidableEq

instance : Payload PayloadData where
  getLength p := p.data.length
  writeBytes p := some p.data
  clone p := p
  getLength_clone _ := Int.le_refl _

instance : IPPayload PayloadData where
  getLength p := p.data.length
  writeBytes p := some p.data
  calculateChecksum _ _ p := some p
  clone p := p
  getLength_clone _ := Int.le_refl _
  getLength_calculateChecksum _ _ _ _ same := by rw [Option.some.inj same]

/-- The payload is written in the length that it gives. -/
def Payload.Whole {π : Type} [Payload π] (p : π) : Prop := ∃ bytes, writeBytes p = some bytes ∧ (bytes.length : Int) = getLength p

/-- What an IP packet writes of its payload. -/
def IPPayload.sent {π : Type} [IPPayload π] (srcIP dstIP : IPAddress) (p : π) : Option (List Byte) :=
  calculateChecksum srcIP dstIP p >>= writeBytes

end Pcsx2.PacketReader
