import Pcsx2.PacketReader.Checksums
import Pcsx2.PacketReader.DhcpPrefix
import Pcsx2.PacketReader.RoundTrip

/-!
# Clones of packets
-/

namespace Pcsx2.PacketReader

open Foundation

def KeepsFormat (length length' : Int) (writes writes' : List Byte → Prop) : Prop :=
  length' = length ∧ ∀ bytes, writes bytes → writes' bytes

namespace IPPacket

variable {π : Type} [IPPayload π] {p : IPPacket π}

def Keeps (p : IPPacket π) : Prop := KeepsFormat p.getLength p.clone.getLength
  (fun bytes => ∃ p', p.writeBytes = some (bytes, p')) (fun bytes => ∃ p', p.clone.writeBytes = some (bytes, p'))

/-- The payload's clone is written by IP in the same way. -/
def PayloadKeeps (srcIP dstIP : IPAddress) (payload : π) : Prop :=
  KeepsFormat (IPPayload.getLength payload) (IPPayload.getLength (IPPayload.clone payload))
    (fun bytes => IPPayload.sent srcIP dstIP payload = some bytes) (fun bytes => IPPayload.sent srcIP dstIP (IPPayload.clone payload) = some bytes)

theorem options_eq_nil_of_length (same : p.clone.getLength = p.getLength) :
    p.options = [] ∧ IPPayload.getLength (IPPayload.clone p.payload) = IPPayload.getLength p.payload := by
  have shorter := IPPayload.getLength_clone p.payload
  have header := @OptionCodec.le_headerLengthOf _ ipOptions p.options
  change (ipOptions.headerLengthOf [] : Int) + IPPayload.getLength (IPPayload.clone p.payload) = p.getLength at same
  rw [getLength, OptionCodec.headerLengthOf_nil] at same
  constructor
  · by_contra some
    have positive := @OptionCodec.total_pos _ ipOptions _ some
    omega
  · omega

theorem header_clone (none : p.options = []) (length : p.clone.getLength = p.getLength) :
    p.clone.calculateChecksum.headerBytes p.clone.calculateChecksum.checksum =
      p.calculateChecksum.headerBytes p.calculateChecksum.checksum := by
  have same := calculateChecksum_congr (p := p) (q := p.clone) (by simp only [fields, clone, none]) (by rw [length])
  have checksum : p.clone.calculateChecksum.checksum = p.calculateChecksum.checksum :=
    (congrArg (fun q : IPPacket Unit => q.checksum) same :)
  rw [checksum]
  exact headerBytes_congr (q := p.clone.calculateChecksum) (p := p.calculateChecksum) (congrArg (fun q : IPPacket Unit => { q with checksum := 0 }) same) (congrArg (BitVec.ofInt 16) length) _

theorem keeps_iff : p.Keeps ↔ p.options = [] ∧ PayloadKeeps p.sourceIP p.destinationIP p.payload := by
  constructor
  · rintro ⟨length, writes⟩
    obtain ⟨none, payload_length⟩ := options_eq_nil_of_length length
    refine ⟨none, payload_length, fun payload sent => ?_⟩
    obtain ⟨payload', sent', same⟩ := writes_iff.1 (writes _ (writes_iff.2 ⟨payload, sent, rfl⟩))
    rw [header_clone none length, List.append_right_inj] at same
    rw [same]
    exact sent'
  · rintro ⟨none, payload_length, sent⟩
    have length : p.clone.getLength = p.getLength := by
      change (ipOptions.headerLengthOf [] : Int) + IPPayload.getLength (IPPayload.clone p.payload) = p.getLength
      rw [getLength, none, payload_length]
    refine ⟨length, fun bytes writes => ?_⟩
    obtain ⟨payload, sent', same⟩ := writes_iff.1 writes
    exact writes_iff.2 ⟨payload, sent payload sent', by rw [header_clone none length, same]⟩

end IPPacket

namespace TCPPacket

variable {π : Type} [Payload π] {p : TCPPacket π}

def Keeps (p : TCPPacket π) : Prop :=
  KeepsFormat p.getLength p.clone.getLength (fun bytes => p.writeBytes = some bytes) (fun bytes => p.clone.writeBytes = some bytes)

theorem keeps_iff : p.Keeps ↔ p.options = [] ∧ Payload.getLength (Payload.clone p.payload) = Payload.getLength p.payload ∧
    (20 ≤ p.headerLength → ∀ bytes, Payload.writeBytes p.payload = some bytes → Payload.writeBytes (Payload.clone p.payload) = some bytes) := by
  have shorter := Payload.getLength_clone p.payload
  have header := @OptionCodec.le_headerLengthOf _ tcpOptions p.options
  have nil : tcpOptions.total [] = 0 := rfl
  have length : p.clone.getLength = p.getLength ↔ p.options = [] ∧
      Payload.getLength (Payload.clone p.payload) = Payload.getLength p.payload := by
    change (tcpOptions.headerLengthOf [] : Int) + Payload.getLength (Payload.clone p.payload) = p.getLength ↔ _
    rw [getLength, OptionCodec.headerLengthOf_nil]
    constructor
    · intro same
      have none : p.options = [] := by
        by_contra some
        have positive := @OptionCodec.total_pos _ tcpOptions _ some
        omega
      exact ⟨none, by omega⟩
    · rintro ⟨none, same⟩
      rw [none, OptionCodec.headerLengthOf_nil, same]
  rw [Keeps, KeepsFormat, length, and_assoc]
  refine and_congr_right fun none => and_congr_right fun same => ?_
  have copy : p.clone.headerBytes = p.headerBytes := by simp only [headerBytes, frontBytes, behindBytes, clone, none]
  simp only [writeBytes_eq_some, copy, none]
  constructor
  · intro writes long bytes write
    obtain ⟨payload, -, write', same⟩ := writes _ ⟨bytes, long, write, rfl⟩
    rw [List.append_right_inj] at same
    rw [same]
    exact write'
  · rintro writes bytes ⟨payload, long, write, rfl⟩
    exact ⟨payload, long, writes long payload write, rfl⟩

end TCPPacket

namespace UDPPacket

variable {π : Type} [Payload π] {p : UDPPacket π}

def Keeps (p : UDPPacket π) : Prop :=
  KeepsFormat p.getLength p.clone.getLength (fun bytes => p.writeBytes = some bytes) (fun bytes => p.clone.writeBytes = some bytes)

theorem keeps_iff : p.Keeps ↔ Payload.getLength (Payload.clone p.payload) = Payload.getLength p.payload ∧
    ∀ bytes, Payload.writeBytes p.payload = some bytes →
      p.checksum = p.destinationPort ∧ Payload.writeBytes (Payload.clone p.payload) = some bytes := by
  have length : p.clone.getLength = p.getLength ↔ Payload.getLength (Payload.clone p.payload) = Payload.getLength p.payload :=
    Int.add_right_inj 8
  rw [Keeps, KeepsFormat, length]
  refine and_congr_right fun same => ?_
  have front (p : UDPPacket π) : p.headerBytes = writeUInt16 p.sourcePort ++ (writeUInt16 p.destinationPort ++
      (writeUInt16 (BitVec.ofInt 16 p.getLength) ++ writeUInt16 p.checksum)) := rfl
  have header : p.clone.headerBytes = p.headerBytes ↔ p.checksum = p.destinationPort := by
    have copy := front p.clone
    rw [length.2 same] at copy
    change p.clone.headerBytes = writeUInt16 p.sourcePort ++ (writeUInt16 p.destinationPort ++
      (writeUInt16 (BitVec.ofInt 16 p.getLength) ++ writeUInt16 p.destinationPort)) at copy
    rw [copy, front, List.append_right_inj, List.append_right_inj, List.append_right_inj]
    exact ⟨fun same => (writeUInt16_inj same).symm, fun same => congrArg writeUInt16 same.symm⟩
  simp only [writeBytes, Option.map_eq_some_iff]
  constructor
  · intro writes bytes write
    obtain ⟨bytes', write', whole⟩ := writes _ ⟨bytes, write, rfl⟩
    obtain ⟨same_header, rfl⟩ := List.append_inj whole rfl
    exact ⟨header.1 same_header, write'⟩
  · rintro writes _ ⟨bytes, write, rfl⟩
    obtain ⟨checksum, write'⟩ := writes bytes write
    exact ⟨bytes, write', by rw [header.2 checksum]⟩

end UDPPacket

namespace DHCPPacket

open DHCPOption

variable {p : DHCPPacket}

def Keeps (p : DHCPPacket) : Prop :=
  KeepsFormat p.getLength p.clone.getLength (fun bytes => p.writeBytes = some bytes) (fun bytes => p.clone.writeBytes = some bytes)

theorem writeBytes_of_narrow (narrow : p.maxLength ≤ 240) : p.writeBytes = none := by
  have length := length_fieldBytes p
  rw [writeBytes]
  cases p.options with
  | nil =>
      rw [writeOptions]
      exact if_neg (by rw [length, getLength]; omega)
  | cons o options =>
      rw [writeOptions, if_neg (by omega)]
      by_cases even : 240 = p.maxLength
      · rw [if_pos even]
        rfl
      · rw [if_neg even]
        exact if_neg (by rw [List.length_append, length, getLength]; omega)

theorem zero_iff (o : DHCPOption) : (∀ b ∈ o.writeBytes, b = 0) ↔ o = nop := by
  constructor
  · intro zeros
    by_contra other
    by_cases last : o = endOption
    · subst last
      exact absurd (zeros 255 (by simp [DHCPOption.writeBytes, getCode])) (by decide)
    · rw [writeBytes_of_other ⟨other, last⟩] at zeros
      exact (getCode_ne ⟨other, last⟩).1 (zeros _ List.mem_cons_self)
  · rintro rfl
    simp [DHCPOption.writeBytes, getCode]

theorem taken_nops_iff (fits : total p.taken + p.added.length ≤ p.maxLength - 268) :
    (∀ o ∈ p.taken, o = nop) ∧ p.added = [] ↔ ∀ o ∈ p.options, o = nop := by
  obtain ⟨left, split, stop⟩ := @accepted_spec p.maxLength 240 p.options
  change p.options = p.taken ++ left at split
  rw [added_eq_nil_iff split]
  constructor
  · rintro ⟨nops, rfl⟩
    rw [split, List.append_nil]
    exact nops
  · intro nops
    refine ⟨fun o mem => nops o (by rw [split]; exact List.mem_append_left _ mem), ?_⟩
    rcases left with _ | ⟨o, rest⟩
    · rfl
    · have first := nops o (by rw [split]; simp)
      have short := stop o rest rfl
      have one : o.size = 1 := by rw [first]; rfl
      change p.maxLength ≤ 240 + total p.taken + o.size at short
      omega

theorem zeros_iff (zeros : Nat) : bytes p.taken ++ (p.added ++ List.replicate zeros 0) =
    List.replicate (total p.taken + p.added.length + zeros) 0 ↔ (∀ o ∈ p.taken, o = nop) ∧ p.added = [] := by
  have added_zero : (∀ b ∈ p.added, b = 0) ↔ p.added = [] := by
    rw [added]
    split
    · simp
    · simp
  have taken_zero : (∀ b ∈ bytes p.taken, b = 0) ↔ ∀ o ∈ p.taken, o = nop :=
    List.forall_mem_flatMap.trans (forall₂_congr fun o _ => zero_iff o)
  have rest_zero : ∀ b ∈ List.replicate zeros (0 : Byte), b = 0 := fun b mem => (List.mem_replicate.1 mem).2
  rw [List.eq_replicate_iff, List.length_append, List.length_append, List.length_replicate, length_bytes, ← added_zero, ← taken_zero,
    List.forall_mem_append, List.forall_mem_append, and_iff_left rest_zero, and_iff_right (Nat.add_assoc _ _ _).symm]

theorem keeps_iff : p.Keeps ↔ (total p.taken + p.added.length ≤ p.maxLength - 268 → ∀ o ∈ p.options, o = nop) := by
  rw [Keeps, KeepsFormat, and_iff_right (show p.clone.getLength = p.getLength from rfl)]
  by_cases wide : 240 < p.maxLength
  · have copy (bytes' : List Byte) : p.clone.writeBytes = some bytes' ↔ ∃ zeros : Nat, (zeros : Int) = p.maxLength - 268 ∧
        bytes' = p.fieldBytes ++ List.replicate zeros 0 := by
      have taken : p.clone.taken = [] := rfl
      have added : p.clone.added = [] := rfl
      have none : total [] = 0 := rfl
      rw [writeBytes_eq_some (p := p.clone) wide, taken, added, none]
      simp only [bytes, List.flatMap_nil, List.append_nil, List.nil_append, List.length_nil, Int.natCast_zero, Int.add_zero, Int.zero_add]
      exact Iff.rfl
    simp only [writeBytes_eq_some wide, copy]
    constructor
    · intro writes fits
      obtain ⟨zeros, room⟩ := Int.eq_ofNat_of_zero_le (Int.sub_nonneg_of_le fits)
      obtain ⟨zeros', room', same⟩ := writes _ ⟨zeros, by omega, rfl⟩
      rw [List.append_assoc, List.append_right_inj, show zeros' = total p.taken + p.added.length + zeros by omega] at same
      exact (taken_nops_iff fits).1 ((zeros_iff zeros).1 same)
    · rintro nops _ ⟨zeros, room, rfl⟩
      have fits : total p.taken + p.added.length ≤ p.maxLength - 268 := by omega
      refine ⟨total p.taken + p.added.length + zeros, by omega, ?_⟩
      rw [List.append_assoc, (zeros_iff zeros).2 ((taken_nops_iff fits).2 (nops fits))]
  · refine iff_of_true (fun bytes' write => ?_) (fun fits => by omega)
    rw [writeBytes_of_narrow (Int.not_lt.1 wide)] at write
    cases write

end DHCPPacket

/-- Which packets have clones that are written as they are: those without options, and for UDP those
whose checksum is their destination port. -/
theorem clones_keep_iff {π ρ : Type} [IPPayload π] [Payload ρ] (p : IPPacket π) (q : TCPPacket ρ) (u : UDPPacket ρ) (d : DHCPPacket) :
    (p.Keeps ↔ p.options = [] ∧ IPPacket.PayloadKeeps p.sourceIP p.destinationIP p.payload) ∧
    (q.Keeps ↔ q.options = [] ∧ Payload.getLength (Payload.clone q.payload) = Payload.getLength q.payload ∧
      (20 ≤ q.headerLength → ∀ bytes, Payload.writeBytes q.payload = some bytes →
        Payload.writeBytes (Payload.clone q.payload) = some bytes)) ∧
    (u.Keeps ↔ Payload.getLength (Payload.clone u.payload) = Payload.getLength u.payload ∧
      ∀ bytes, Payload.writeBytes u.payload = some bytes →
        u.checksum = u.destinationPort ∧ Payload.writeBytes (Payload.clone u.payload) = some bytes) ∧
    (d.Keeps ↔ (DHCPPacket.total d.taken + d.added.length ≤ d.maxLength - 268 → ∀ o ∈ d.options, o = .nop)) :=
  ⟨IPPacket.keeps_iff, TCPPacket.keeps_iff, UDPPacket.keeps_iff, DHCPPacket.keeps_iff⟩

/-- The clone of this segment has no maximal size. -/
theorem sizeSegment_not_kept : ¬∀ (p : IPPacket PayloadData) (q : TCPPacket PayloadData) (u : UDPPacket PayloadData) (d : DHCPPacket),
    p.Keeps ∧ q.Keeps ∧ u.Keeps ∧ d.Keeps := by
  intro all
  obtain ⟨-, keeps, -⟩ := all alertPacket sizeSegment oddDatagram (DHCPPacket.acknowledgement [])
  exact absurd (TCPPacket.keeps_iff.1 keeps).1 (List.cons_ne_nil _ _)

end Pcsx2.PacketReader
