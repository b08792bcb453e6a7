import Pcsx2.PacketReader.Ip
import Pcsx2.PacketReader.Transport

/-!
# Parsing untrusted packets
-/

namespace Pcsx2.PacketReader

open Foundation Foundation.Reader OptionFormat

variable {buffer : List Byte} {P : Type}

/-- A parsing constructor ends without a read behind the buffer, no option goes on behind the header,
and the payload is inside. -/
def ParsesInside (buffer : List Byte) (headerLength : P → Nat) (payload : P → PayloadPtr) (parse : Nat → Option (P × Nat)) : Prop :=
  ∃ fuel packet used, parse fuel = some (packet, used) ∧ used ≤ headerLength packet ∧ (payload packet).Inside buffer

theorem window_inside_iff {headerLength length : Nat} (bound : length ≤ buffer.length) :
    (⟨headerLength, length - headerLength⟩ : PayloadPtr).Inside buffer ↔ headerLength ≤ length := by
  simp only [PayloadPtr.Inside]
  omega

theorem parsesInside_iff {α : Type} {format : OptionFormat α} {headerLength : P → Nat} {payload : P → PayloadPtr}
    {parse : Nat → Option (P × Nat)} {make : List α → P} {header length : Nat}
    (parsed : ∀ fuel, parse fuel = (format.readOptions fuel buffer header).map fun result => (make result.1, result.2))
    (fields : ∀ options, headerLength (make options) = header ∧ payload (make options) = ⟨header, length - header⟩)
    (bound : length ≤ buffer.length) :
    ParsesInside buffer headerLength payload parse ↔
      header ≤ length ∧ (20 < header → ∀ offset, Reached buffer header offset → format.Good buffer header offset) := by
  constructor
  · rintro ⟨fuel, packet, used, parse, short, inside⟩
    rw [parsed, Option.map_eq_some_iff] at parse
    obtain ⟨⟨options, used⟩, read, made⟩ := parse
    cases made
    rw [(fields options).2, window_inside_iff bound] at inside
    rw [(fields options).1] at short
    exact ⟨inside, (readOptions_inside_iff (inside.trans bound)).1 ⟨fuel, options, used, read, short⟩⟩
  · rintro ⟨inside, good⟩
    obtain ⟨fuel, options, used, read, short⟩ := (readOptions_inside_iff (inside.trans bound)).2 good
    refine ⟨fuel, make options, used, by rw [parsed, read]; rfl, ?_, ?_⟩
    · rw [(fields options).1]
      exact short
    · rw [(fields options).2]
      exact (window_inside_iff bound).2 inside

theorem IPPacket.parse_eq (enough : 20 ≤ buffer.length) : ∃ make : List IPOption → IPPacket PayloadPtr,
    (∀ options, (make options).headerLength = headerLengthIn buffer ∧
      (make options).payload = ⟨headerLengthIn buffer, lengthIn buffer - headerLengthIn buffer⟩) ∧
    ∀ fuel, parse fuel buffer = (ipOptions.readOptions fuel buffer (headerLengthIn buffer)).map fun result => (make result.1, result.2) := by
  obtain ⟨⟨fields, field⟩, read⟩ := (sized_readFields buffer 0).1 enough
  obtain ⟨header, length⟩ := of_readFields read
  have within : (if buffer.length < field.toNat then (BitVec.ofNat 16 buffer.length).toNat else field.toNat) = lengthIn buffer := by
    have small := field.isLt
    rw [lengthIn, ← length, BitVec.toNat_ofNat]
    split <;> omega
  refine ⟨fun options => { fields with options, payload := ⟨fields.headerLength, lengthIn buffer - fields.headerLength⟩ },
    fun options => ⟨header, by rw [header]⟩, fun fuel => ?_⟩
  rw [← header]
  simp only [parse, read, Option.bind_eq_bind, Option.bind_some, within]
  cases ipOptions.readOptions fuel buffer fields.headerLength with
  | none => rfl
  | some result => rfl

theorem TCPPacket.parse_eq (enough : 20 ≤ buffer.length) : ∃ make : List TCPOption → TCPPacket PayloadPtr,
    (∀ options, (make options).headerLength = headerLengthIn buffer ∧
      (make options).payload = ⟨headerLengthIn buffer, buffer.length - headerLengthIn buffer⟩) ∧
    ∀ fuel, parse fuel buffer = (tcpOptions.readOptions fuel buffer (headerLengthIn buffer)).map fun result => (make result.1, result.2) := by
  obtain ⟨fields, read⟩ := (sized_readFields buffer 0).1 enough
  have header := of_readFields read
  refine ⟨fun options => { fields with options, payload := ⟨fields.headerLength, buffer.length - fields.headerLength⟩ },
    fun options => ⟨header, by rw [header]⟩, fun fuel => ?_⟩
  rw [← header]
  simp only [parse, read, Option.bind_eq_bind, Option.bind_some]
  cases tcpOptions.readOptions fuel buffer fields.headerLength with
  | none => rfl
  | some result => rfl

theorem IPPacket.parsesInside_iff (enough : 20 ≤ buffer.length) :
    ParsesInside buffer headerLength payload (parse · buffer) ↔ headerLengthIn buffer ≤ lengthIn buffer ∧
      (20 < headerLengthIn buffer → ∀ offset, Reached buffer (headerLengthIn buffer) offset →
        ipOptions.Good buffer (headerLengthIn buffer) offset) := by
  obtain ⟨make, fields, parsed⟩ := parse_eq enough
  exact PacketReader.parsesInside_iff parsed fields (Nat.min_le_right _ _)

theorem TCPPacket.parsesInside_iff (enough : 20 ≤ buffer.length) :
    ParsesInside buffer headerLength payload (parse · buffer) ↔ headerLengthIn buffer ≤ buffer.length ∧
      (20 < headerLengthIn buffer → ∀ offset, Reached buffer (headerLengthIn buffer) offset →
        tcpOptions.Good buffer (headerLengthIn buffer) offset) := by
  obtain ⟨make, fields, parsed⟩ := parse_eq enough
  exact PacketReader.parsesInside_iff parsed fields (Nat.le_refl _)

/-- The options of a packet are read inside its header exactly when each one that is come to begins
there, has a length, and ends there. -/
theorem headers_inside_iff (buffer : List Byte) (enough : 20 ≤ buffer.length) :
    (ParsesInside buffer IPPacket.headerLength IPPacket.payload (IPPacket.parse · buffer) ↔
      IPPacket.headerLengthIn buffer ≤ IPPacket.lengthIn buffer ∧ (20 < IPPacket.headerLengthIn buffer →
        ∀ offset, Reached buffer (IPPacket.headerLengthIn buffer) offset → ipOptions.Good buffer (IPPacket.headerLengthIn buffer) offset)) ∧
    (ParsesInside buffer TCPPacket.headerLength TCPPacket.payload (TCPPacket.parse · buffer) ↔
      TCPPacket.headerLengthIn buffer ≤ buffer.length ∧ (20 < TCPPacket.headerLengthIn buffer →
        ∀ offset, Reached buffer (TCPPacket.headerLengthIn buffer) offset →
          tcpOptions.Good buffer (TCPPacket.headerLengthIn buffer) offset)) :=
  ⟨IPPacket.parsesInside_iff enough, TCPPacket.parsesInside_iff enough⟩

def plainHeader : List Byte := [0x45, 0, 0, 20, 0, 0, 0, 0, 64, 17, 0, 0, 192, 0, 2, 1, 192, 0, 2, 2]

theorem headers_inside_plain :
    20 ≤ plainHeader.length ∧ ParsesInside plainHeader IPPacket.headerLength IPPacket.payload (IPPacket.parse · plainHeader) :=
  ⟨by decide, (headers_inside_iff plainHeader (by decide)).1.2 ⟨by decide, fun long => absurd long (by decide)⟩⟩

def emptyAlert : List Byte := [0x46, 0, 0, 24, 0, 0, 0, 0, 64, 17, 0, 0, 192, 0, 2, 1, 192, 0, 2, 2, 148, 0, 0, 0]

theorem emptyAlert_not_inside : ¬∀ buffer : List Byte, 20 ≤ buffer.length →
    ParsesInside buffer IPPacket.headerLength IPPacket.payload (IPPacket.parse · buffer) ∧
      ParsesInside buffer TCPPacket.headerLength TCPPacket.payload (TCPPacket.parse · buffer) := by
  intro all
  have inside := (IPPacket.parsesInside_iff (by decide)).1 (all emptyAlert (by decide)).1
  obtain ⟨-, opKind, opLen, kind, len, body⟩ := inside.2 (by decide) 20 .first
  cases kind
  cases len
  exact absurd (body (by decide)).1 (by decide)

end Pcsx2.PacketReader
