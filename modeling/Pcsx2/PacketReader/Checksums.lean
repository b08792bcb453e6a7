import Pcsx2.PacketReader.Ip
import Pcsx2.PacketReader.Transport

/-!
# Checksums of packets
-/

namespace Pcsx2.PacketReader

/-! ## Segments with a checksum in them -/

theorem length_pseudoHeader {srcIP dstIP : IPAddress} {protocol : Byte} {length : Int} :
    (pseudoHeader srcIP dstIP protocol length).length = 12 := rfl

theorem headerSegment_eq (srcIP dstIP : IPAddress) (protocol : Byte) (length : Int) : ∃ alignment : List Byte,
    ∀ packet : List Byte, (packet.length : Int) = length →
      headerSegment srcIP dstIP protocol length packet = some (pseudoHeader srcIP dstIP protocol length ++ (packet ++ alignment)) := by
  have size (packet : List Byte) : (pseudoHeader srcIP dstIP protocol length ++ packet).length = 12 + packet.length := by
    rw [List.length_append, length_pseudoHeader]
  by_cases even : (12 + length) % 2 = 0
  · refine ⟨[], fun packet whole => ?_⟩
    have fits : ((12 + packet.length : Nat) : Int) = segmentSize length := by
      rw [segmentSize, if_pos even]
      omega
    simp only [headerSegment, size, fits, if_true, List.append_nil]
  · refine ⟨[0], fun packet whole => ?_⟩
    have short : ((12 + packet.length : Nat) : Int) ≠ segmentSize length := by
      rw [segmentSize, if_neg even]
      omega
    have fits : ((12 + packet.length : Nat) : Int) + 1 = segmentSize length := by
      rw [segmentSize, if_neg even]
      omega
    simp only [headerSegment, size, short, fits, if_true, if_false, List.append_assoc]

/-- Two segments that differ in a bit do not have the same checksum. -/
def Detects {P : Type} (verify : P → Option Bool) (segment : P → Option (List Byte)) : Prop :=
  ∀ p p' s s', segment p = some s → segment p' = some s' → Flipped s s' → verify p = some true → verify p' = some false

theorem detects {P : Type} {verify : P → Option Bool} {segment : P → Option (List Byte)}
    (verified : ∀ p, verify p = (segment p).map fun s => internetChecksum s == 0) : Detects verify segment := by
  intro p p' s s' here there flipped right
  rw [verified, here, Option.map_some, Option.some.injEq, beq_iff_eq] at right
  rw [verified, there, Option.map_some, Option.some.injEq, beq_eq_false_iff_ne]
  exact internetChecksum_ne_zero_of_flipped flipped right

namespace IPPacket

variable {π : Type} [IPPayload π]

/-- What the checksum is verified of. -/
def segment (p : IPPacket π) : List Byte := p.reComputeHeaderLen.headerBytes p.checksum

theorem length_frontBytes (p : IPPacket π) : p.frontBytes.length = 10 := rfl

theorem verifyChecksum_calculateChecksum (p : IPPacket π) : p.calculateChecksum.verifyChecksum = true := by
  rw [verifyChecksum, beq_iff_eq]
  have even : p.reComputeHeaderLen.frontBytes.length % 2 = 0 := by rw [length_frontBytes]
  exact @internetChecksum_field _ p.reComputeHeaderLen.behindBytes even

end IPPacket

namespace TCPPacket

theorem length_frontBytes {π : Type} (p : TCPPacket π) : p.frontBytes.length = 16 := rfl

variable {π : Type} [Payload π]

theorem segment_eq (srcIP dstIP : IPAddress) (p : TCPPacket π) (whole : Payload.Whole p.payload) :
    ∃ front rest : List Byte, front.length % 2 = 0 ∧ ∀ checksum,
      segment srcIP dstIP { p.reComputeHeaderLen with checksum } = some (front ++ (writeUInt16 checksum ++ rest)) := by
  obtain ⟨bytes, write, length⟩ := whole
  obtain ⟨alignment, summed⟩ := headerSegment_eq srcIP dstIP protocol p.getLength
  have even : (pseudoHeader srcIP dstIP protocol p.getLength ++ p.reComputeHeaderLen.frontBytes).length % 2 = 0 := by
    rw [List.length_append, length_pseudoHeader, length_frontBytes]
  refine ⟨_, p.reComputeHeaderLen.behindBytes ++ (bytes ++ alignment), even, fun checksum => ?_⟩
  have fits : 20 + tcpOptions.total p.options ≤ p.reComputeHeaderLen.headerLength := OptionCodec.le_headerLengthOf
  have written : writeBytes { p.reComputeHeaderLen with checksum } = some (headerBytes { p.reComputeHeaderLen with checksum } ++ bytes) :=
    writeBytes_eq_some.2 ⟨bytes, fits, write, rfl⟩
  have size : ((headerBytes { p.reComputeHeaderLen with checksum } ++ bytes).length : Int) = p.getLength := by
    rw [List.length_append, length_headerBytes (p := { p.reComputeHeaderLen with checksum }) fits, Int.natCast_add, length]
    rfl
  simp only [segment, written, Option.bind_eq_bind, Option.bind_some]
  refine (summed _ size).trans ?_
  simp only [headerBytes, List.append_assoc]
  rfl

theorem ns_kept (n : Nat) (flag : Byte) : (BitVec.ofNat 8 (n <<< 4) ||| (flag &&& 1)) &&& 1 = flag &&& 1 := by
  have even : BitVec.ofNat 8 (n <<< 4) &&& 1 = 0#8 := by
    apply BitVec.eq_of_getLsbD_eq
    intro i small
    by_cases zero : i = 0
    · subst zero
      rw [BitVec.getLsbD_and, BitVec.getLsbD_ofNat, Nat.testBit_shiftLeft]
      rfl
    · simp [zero]
  rw [BitVec.and_or_distrib_right, even, BitVec.and_assoc, BitVec.and_self, BitVec.zero_or]

omit [Payload π] in
theorem reComputeHeaderLen_congr (p : TCPPacket π) (headerLength : Nat) {flag : Byte}
    (same : flag &&& 1 = p.dataOffsetAndNS_Flag &&& 1) :
    reComputeHeaderLen { p with headerLength, dataOffsetAndNS_Flag := flag } = p.reComputeHeaderLen := by
  simp only [reComputeHeaderLen, same]

omit [Payload π] in
theorem reComputeHeaderLen_again (p : TCPPacket π) (checksum : BitVec 16) :
    reComputeHeaderLen { p.reComputeHeaderLen with checksum } = { p.reComputeHeaderLen with checksum } := by
  simp only [reComputeHeaderLen, ns_kept]

theorem verifyChecksum_congr (srcIP dstIP : IPAddress) (p : TCPPacket π) (headerLength : Nat) {flag : Byte}
    (same : flag &&& 1 = p.dataOffsetAndNS_Flag &&& 1) :
    verifyChecksum srcIP dstIP { p with headerLength, dataOffsetAndNS_Flag := flag } = p.verifyChecksum srcIP dstIP := by
  rw [verifyChecksum, verifyChecksum, reComputeHeaderLen_congr p headerLength same]

theorem verifyChecksum_calculateChecksum (srcIP dstIP : IPAddress) (p : TCPPacket π) (whole : Payload.Whole p.payload) :
    ∃ p', p.calculateChecksum srcIP dstIP = some p' ∧ p'.verifyChecksum srcIP dstIP = some true := by
  obtain ⟨front, rest, even, segment_eq⟩ := segment_eq srcIP dstIP p whole
  refine ⟨{ p.reComputeHeaderLen with checksum := internetChecksum (front ++ (writeUInt16 0 ++ rest)) }, ?_, ?_⟩
  · simp only [calculateChecksum, segment_eq, Option.bind_eq_bind, Option.bind_some, Option.pure_def]
  · simp only [verifyChecksum, reComputeHeaderLen_again, segment_eq, Option.bind_eq_bind, Option.bind_some, Option.pure_def,
      internetChecksum_field even, beq_self_eq_true]

end TCPPacket

namespace UDPPacket

variable {π : Type} [Payload π]

theorem segment_eq (srcIP dstIP : IPAddress) (p : UDPPacket π) (whole : Payload.Whole p.payload) :
    ∃ front rest : List Byte, front.length % 2 = 0 ∧ ∀ checksum,
      segment srcIP dstIP { p with checksum } = some (front ++ (writeUInt16 checksum ++ rest)) := by
  obtain ⟨bytes, write, length⟩ := whole
  obtain ⟨alignment, summed⟩ := headerSegment_eq srcIP dstIP protocol p.getLength
  have even : (pseudoHeader srcIP dstIP protocol p.getLength ++ (writeUInt16 p.sourcePort ++ (writeUInt16 p.destinationPort ++
      writeUInt16 (BitVec.ofInt 16 p.getLength)))).length % 2 = 0 := by
    simp only [List.length_append, length_pseudoHeader, length_writeUInt16]
  refine ⟨_, bytes ++ alignment, even, fun checksum => ?_⟩
  have written : writeBytes { p with checksum } = some (headerBytes { p with checksum } ++ bytes) := by
    rw [writeBytes, write, Option.map_some]
  have size : ((headerBytes { p with checksum } ++ bytes).length : Int) = p.getLength := by
    rw [List.length_append, Int.natCast_add, length]
    rfl
  simp only [segment, written, Option.bind_eq_bind, Option.bind_some]
  refine (summed _ size).trans ?_
  simp only [headerBytes, List.append_assoc]
  rfl

theorem verifyChecksum_calculateChecksum (srcIP dstIP : IPAddress) (p : UDPPacket π) (whole : Payload.Whole p.payload) :
    ∃ p', p.calculateChecksum srcIP dstIP = some p' ∧ p'.verifyChecksum srcIP dstIP = some true := by
  obtain ⟨front, rest, even, segment_eq⟩ := segment_eq srcIP dstIP p whole
  refine ⟨{ p with checksum := internetChecksum (front ++ (writeUInt16 0 ++ rest)) }, ?_, ?_⟩
  · simp only [calculateChecksum, segment_eq, Option.bind_eq_bind, Option.bind_some, Option.pure_def]
  · simp only [verifyChecksum, segment_eq, Option.bind_eq_bind, Option.bind_some, Option.pure_def, internetChecksum_field even, beq_self_eq_true]

end UDPPacket

/-! ## All of them -/

/-- Checksums are those of RFC 1071, they hold once they are calculated, and they do not hold of a
segment in which a bit is another. What `VerifyChecksum` recomputes makes no difference to it. -/
theorem checksums_detect {π ρ : Type} [IPPayload π] [Payload ρ] (p : IPPacket π) (q : TCPPacket ρ) (u : UDPPacket ρ)
    (srcIP dstIP : IPAddress) (whole : Payload.Whole q.payload) (whole' : Payload.Whole u.payload) :
    (∀ buffer, internetChecksum buffer = rfc1071 buffer) ∧
    p.calculateChecksum.verifyChecksum = true ∧
    (∃ q', q.calculateChecksum srcIP dstIP = some q' ∧ q'.verifyChecksum srcIP dstIP = some true) ∧
    (∃ u', u.calculateChecksum srcIP dstIP = some u' ∧ u'.verifyChecksum srcIP dstIP = some true) ∧
    Detects (fun p : IPPacket π => some p.verifyChecksum) (fun p => some p.segment) ∧
    Detects (fun q : IPAddress × IPAddress × TCPPacket ρ => q.2.2.verifyChecksum q.1 q.2.1)
      (fun q => TCPPacket.segment q.1 q.2.1 q.2.2.reComputeHeaderLen) ∧
    Detects (fun u : IPAddress × IPAddress × UDPPacket ρ => u.2.2.verifyChecksum u.1 u.2.1)
      (fun u => UDPPacket.segment u.1 u.2.1 u.2.2) ∧
    (∀ headerLength, IPPacket.verifyChecksum { p with headerLength } = p.verifyChecksum) ∧
    (∀ headerLength flag, flag &&& 1 = q.dataOffsetAndNS_Flag &&& 1 →
      TCPPacket.verifyChecksum srcIP dstIP { q with headerLength, dataOffsetAndNS_Flag := flag } = q.verifyChecksum srcIP dstIP) := by
  refine ⟨fun buffer => internetChecksum_eq, p.verifyChecksum_calculateChecksum, q.verifyChecksum_calculateChecksum srcIP dstIP whole,
    u.verifyChecksum_calculateChecksum srcIP dstIP whole', detects fun p => rfl, ?_, ?_, fun headerLength => rfl,
    fun headerLength flag same => q.verifyChecksum_congr srcIP dstIP headerLength same⟩
  · exact detects fun q => by rw [TCPPacket.verifyChecksum, Option.map_eq_bind]; rfl
  · exact detects fun u => by rw [UDPPacket.verifyChecksum, Option.map_eq_bind]; rfl

def ackSegment : TCPPacket PayloadData := ⟨1024, 80, 1, 0, 0x50, 20, 16, 8192, 0, 0, [], ⟨[]⟩⟩

def oddDatagram : UDPPacket PayloadData := ⟨1024, 53, 0, ⟨[1, 2, 3]⟩⟩

theorem checksums_detect_odd :
    (∃ u', oddDatagram.calculateChecksum 0xC0000201 0xC0000202 = some u' ∧ u'.verifyChecksum 0xC0000201 0xC0000202 = some true) :=
  (checksums_detect (⟨20, 0, 1, 0, 0, 64, 6, 0, 0xC0000201, 0xC0000202, [], ackSegment⟩ : IPPacket (TCPPacket PayloadData))
    ackSegment oddDatagram 0xC0000201 0xC0000202 ⟨[], rfl, rfl⟩ ⟨[1, 2, 3], rfl, rfl⟩).2.2.2.1

/-- A reserved bit of a TCP header is not covered. -/
theorem reserved_not_detected : ¬∀ (srcIP dstIP : IPAddress) (q : TCPPacket PayloadData) (bit : Fin 8),
    q.verifyChecksum srcIP dstIP = some true →
      TCPPacket.verifyChecksum srcIP dstIP { q with dataOffsetAndNS_Flag := q.dataOffsetAndNS_Flag ^^^ BitVec.twoPow 8 bit } =
        some false := by
  intro all
  obtain ⟨q, _, right⟩ := ackSegment.verifyChecksum_calculateChecksum 0xC0000201 0xC0000202 ⟨[], rfl, rfl⟩
  have reserved : ∀ flag : Byte, (flag ^^^ BitVec.twoPow 8 (1 : Fin 8)) &&& 1 = flag &&& 1 := by decide
  have wrong := all 0xC0000201 0xC0000202 q 1 right
  rw [q.verifyChecksum_congr _ _ q.headerLength (reserved _), right] at wrong
  cases wrong

end Pcsx2.PacketReader
