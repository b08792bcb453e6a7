import Pcsx2.PacketReader.Checksum
import Pcsx2.PacketReader.NetLib
import Pcsx2.PacketReader.WrittenOptions

/-!
# TCP packets
-/

namespace Pcsx2.PacketReader

open Foundation Foundation.Reader

/-! ## Options -/

inductive TCPOption
  | nop
  | mss (maxSegmentSize : BitVec 16)
  | ws (windowScale : Byte)
  | ts (senderTimeStamp echoTimeStamp : BitVec 32)
  | unk (o : IPopUnk [0, 1, 2, 3, 8])
  deriving DecidableEq

namespace TCPOption

def getCode : TCPOption → Byte
  | nop => 1
  | mss _ => 2
  | ws _ => 3
  | ts _ _ => 8
  | unk o => o.code

def getLength : TCPOption → Byte
  | nop => 1
  | mss _ => 4
  | ws _ => 3
  | ts _ _ => 10
  | unk o => o.length

def writeBytes : TCPOption → List Byte
  | nop => [getCode nop]
  | mss size => getCode (mss size) :: getLength (mss size) :: writeUInt16 size
  | ws scale => [getCode (ws scale), getLength (ws scale), scale]
  | ts sender echo => getCode (ts sender echo) :: getLength (ts sender echo) :: (writeUInt32 sender ++ writeUInt32 echo)
  | unk o => o.write

def readMSS : Reader Byte TCPOption := do
  skip 2
  let maxSegmentSize ← readUInt16
  pure (mss maxSegmentSize)

def readWS : Reader Byte TCPOption := do
  skip 2
  let windowScale ← readByte08
  pure (ws windowScale)

def readTS : Reader Byte TCPOption := do
  skip 2
  let senderTimeStamp ← readUInt32
  let echoTimeStamp ← readUInt32
  pure (ts senderTimeStamp echoTimeStamp)

def readUnk : Reader Byte TCPOption := do
  let o ← IPopUnk.read [0, 1, 2, 3, 8]
  pure (unk o)

def read (opKind : Byte) : Reader Byte TCPOption :=
  if opKind = 2 then readMSS else if opKind = 3 then readWS else if opKind = 8 then readTS else readUnk

def sizeOf (opKind opLen : Byte) : Option Nat :=
  if opKind = 2 then some 4 else if opKind = 3 then some 3 else if opKind = 8 then some 10
  else IPopUnk.sizeOf [0, 1, 2, 3, 8] opKind opLen

theorem sized_readMSS : Sized readMSS 4 := Sized.skipping (n := 2) sized_readUInt16.map

theorem sized_readWS : Sized readWS 3 := Sized.skipping (n := 2) sized_readByte08.map

theorem sized_readTS : Sized readTS 10 := Sized.skipping (n := 2) (sized_readUInt32.bind fun _ => sized_readUInt32.map)

end TCPOption

def tcpOptions : OptionCodec TCPOption where
  nop := .nop
  read := TCPOption.read
  size := TCPOption.sizeOf
  size_pos opKind opLen n size := by
    rw [TCPOption.sizeOf] at size
    split at size
    · cases size; omega
    split at size
    · cases size; omega
    split at size
    · cases size; omega
    exact IPopUnk.sizeOf_pos size
  sized buffer offset opKind opLen kind len := by
    rw [TCPOption.sizeOf, TCPOption.read]
    by_cases mss : opKind = 2
    · rw [if_pos mss, if_pos mss]
      exact TCPOption.sized_readMSS buffer offset
    by_cases ws : opKind = 3
    · rw [if_neg mss, if_neg mss, if_pos ws, if_pos ws]
      exact TCPOption.sized_readWS buffer offset
    by_cases ts : opKind = 8
    · rw [if_neg mss, if_neg mss, if_neg ws, if_neg ws, if_pos ts, if_pos ts]
      exact TCPOption.sized_readTS buffer offset
    rw [if_neg mss, if_neg mss, if_neg ws, if_neg ws, if_neg ts, if_neg ts]
    exact (IPopUnk.sized_read kind len).map
  getLength := TCPOption.getLength
  write := TCPOption.writeBytes
  write_nop := rfl
  length_write o := by
    cases o with
    | unk o => exact o.length_write
    | _ => rfl
  written o other := by
    cases o with
    | nop => exact absurd rfl other
    | mss size => exact ⟨2, writeUInt16 size, rfl, by decide, Reads.skipping (rfl : ([2, 4] : List Byte).length = 2) (reads_readUInt16 size).map⟩
    | ws scale => exact ⟨3, [scale], rfl, by decide, Reads.skipping (rfl : ([3, 3] : List Byte).length = 2) (reads_readByte08 scale).map⟩
    | ts sender echo =>
        refine ⟨8, writeUInt32 sender ++ writeUInt32 echo, rfl, by decide, ?_⟩
        exact Reads.skipping (rfl : ([8, 10] : List Byte).length = 2) ((reads_readUInt32 sender).bind (reads_readUInt32 echo).map)
    | unk o =>
        have known := o.unknown
        simp only [List.mem_cons, List.not_mem_nil, or_false, not_or] at known
        obtain ⟨zero, one, two, three, eight⟩ := known
        refine ⟨o.code, o.value, rfl, ⟨zero, one⟩, ?_⟩
        rw [TCPOption.read, if_neg two, if_neg three, if_neg eight]
        exact o.reads_read.map

/-! ## Packets -/

structure TCPPacket (π : Type) where
  sourcePort : BitVec 16
  destinationPort : BitVec 16
  sequenceNumber : BitVec 32
  acknowledgementNumber : BitVec 32
  dataOffsetAndNS_Flag : Byte
  headerLength : Nat
  flags : Byte
  windowSize : BitVec 16
  checksum : BitVec 16
  urgentPointer : BitVec 16
  options : List TCPOption
  payload : π
  deriving DecidableEq

namespace TCPPacket

def readFields : Reader Byte (TCPPacket Unit) := do
  let sourcePort ← readUInt16
  let destinationPort ← readUInt16
  let sequenceNumber ← readUInt32
  let acknowledgementNumber ← readUInt32
  let dataOffsetAndNS_Flag ← readByte08
  let flags ← readByte08
  let windowSize ← readUInt16
  let checksum ← readUInt16
  let urgentPointer ← readUInt16
  pure ⟨sourcePort, destinationPort, sequenceNumber, acknowledgementNumber, dataOffsetAndNS_Flag,
    (dataOffsetAndNS_Flag >>> 4).toNat <<< 2, flags, windowSize, checksum, urgentPointer, [], ()⟩

/-- The parsing constructor, with the place behind the last byte of an option. -/
def parse (fuel : Nat) (buffer : List Byte) : Option (TCPPacket PayloadPtr × Nat) := do
  let (fields, _) ← readFields buffer 0
  let (options, used) ← tcpOptions.readOptions fuel buffer fields.headerLength
  pure ({ fields with options, payload := ⟨fields.headerLength, buffer.length - fields.headerLength⟩ }, used)

variable {π : Type} [Payload π]

def getLength (p : TCPPacket π) : Int := tcpOptions.headerLengthOf p.options + Payload.getLength p.payload

def reComputeHeaderLen (p : TCPPacket π) : TCPPacket π :=
  { p with
    headerLength := tcpOptions.headerLengthOf p.options
    dataOffsetAndNS_Flag := BitVec.ofNat 8 (tcpOptions.headerLengthOf p.options >>> 2 <<< 4) ||| (p.dataOffsetAndNS_Flag &&& 1) }

def frontBytes (p : TCPPacket π) : List Byte :=
  writeUInt16 p.sourcePort ++ (writeUInt16 p.destinationPort ++ (writeUInt32 p.sequenceNumber ++
    (writeUInt32 p.acknowledgementNumber ++ ([p.dataOffsetAndNS_Flag, p.flags] ++ writeUInt16 p.windowSize))))

def behindBytes (p : TCPPacket π) : List Byte :=
  writeUInt16 p.urgentPointer ++ (tcpOptions.bytes p.options ++ List.replicate (p.headerLength - (20 + tcpOptions.total p.options)) 0)

def headerBytes (p : TCPPacket π) : List Byte := p.frontBytes ++ (writeUInt16 p.checksum ++ p.behindBytes)

/-- Nothing is recomputed. Where the options are longer than the header, a negative number of
alignment bytes is set. -/
def writeBytes (p : TCPPacket π) : Option (List Byte) :=
  if 20 + tcpOptions.total p.options ≤ p.headerLength then (Payload.writeBytes p.payload).map fun bytes => p.headerBytes ++ bytes
  else none

/-- `IP_Type::TCP` -/
def protocol : Byte := 6

/-- What the checksum is one of. -/
def segment (srcIP dstIP : IPAddress) (p : TCPPacket π) : Option (List Byte) := do
  let bytes ← p.writeBytes
  headerSegment srcIP dstIP protocol p.getLength bytes

def calculateChecksum (srcIP dstIP : IPAddress) (p : TCPPacket π) : Option (TCPPacket π) := do
  let p := p.reComputeHeaderLen
  let headerSegment ← segment srcIP dstIP { p with checksum := 0 }
  pure { p with checksum := internetChecksum headerSegment }

def verifyChecksum (srcIP dstIP : IPAddress) (p : TCPPacket π) : Option Bool := do
  let p := p.reComputeHeaderLen
  let headerSegment ← segment srcIP dstIP p
  pure (internetChecksum headerSegment == 0)

def clone (p : TCPPacket π) : TCPPacket π := { p with options := [], payload := Payload.clone p.payload }

/-- The packet without its payload. -/
def fields {ρ : Type} (p : TCPPacket ρ) : TCPPacket Unit := { p with payload := () }

section HeaderBytes

variable {π : Type} {p : TCPPacket π}

def fieldBytes (p : TCPPacket π) : List Byte := p.frontBytes ++ (writeUInt16 p.checksum ++ writeUInt16 p.urgentPointer)

theorem length_fieldBytes : p.fieldBytes.length = 20 := rfl

theorem headerBytes_eq : p.headerBytes = p.fieldBytes ++ tcpOptions.bytes p.options ++
    List.replicate (p.headerLength - (20 + tcpOptions.total p.options)) 0 := by
  simp only [headerBytes, fieldBytes, behindBytes, List.append_assoc]

theorem length_headerBytes (short : 20 + tcpOptions.total p.options ≤ p.headerLength) : p.headerBytes.length = p.headerLength := by
  rw [headerBytes_eq, List.length_append, List.length_append, length_fieldBytes, OptionCodec.length_bytes, List.length_replicate]
  omega

end HeaderBytes

theorem writeBytes_eq_some {p : TCPPacket π} {bytes : List Byte} : p.writeBytes = some bytes ↔ ∃ payload, 20 + tcpOptions.total p.options ≤ p.headerLength ∧
    Payload.writeBytes p.payload = some payload ∧ bytes = p.headerBytes ++ payload := by
  by_cases fits : 20 + tcpOptions.total p.options ≤ p.headerLength
  · rw [writeBytes, if_pos fits, Option.map_eq_some_iff]
    exact ⟨fun ⟨payload, write, same⟩ => ⟨payload, fits, write, same.symm⟩, fun ⟨payload, _, write, same⟩ => ⟨payload, write, same.symm⟩⟩
  · simp only [writeBytes, fits, if_false, reduceCtorEq, false_and, exists_false]

/-! ## Parsing -/

theorem sized_readFields : Sized readFields 20 :=
  sized_readUInt16.bind fun _ => sized_readUInt16.bind fun _ => sized_readUInt32.bind fun _ => sized_readUInt32.bind fun _ =>
    sized_readByte08.bind fun _ => sized_readByte08.bind fun _ => sized_readUInt16.bind fun _ => sized_readUInt16.bind fun _ =>
      sized_readUInt16.map

def headerLengthIn (buffer : List Byte) : Nat := (buffer.getD 12 0 >>> 4).toNat <<< 2

theorem of_readFields {buffer : List Byte} {fields : TCPPacket Unit} {place : Nat}
    (read : readFields buffer 0 = some (fields, place)) : fields.headerLength = headerLengthIn buffer := by
  obtain ⟨_, _, read0, read⟩ := bind_eq_some read
  obtain rfl := sized_readUInt16.place_eq read0
  obtain ⟨_, _, read1, read⟩ := bind_eq_some read
  obtain rfl := sized_readUInt16.place_eq read1
  obtain ⟨_, _, read2, read⟩ := bind_eq_some read
  obtain rfl := sized_readUInt32.place_eq read2
  obtain ⟨_, _, read3, read⟩ := bind_eq_some read
  obtain rfl := sized_readUInt32.place_eq read3
  obtain ⟨_, _, read4, read⟩ := bind_eq_some read
  obtain ⟨byte12, rfl⟩ := item_eq_some read4
  obtain ⟨_, _, _, read⟩ := bind_eq_some read
  obtain ⟨_, _, _, read⟩ := bind_eq_some read
  obtain ⟨_, _, _, read⟩ := bind_eq_some read
  obtain ⟨_, _, _, read⟩ := bind_eq_some read
  cases read
  simp only [Nat.zero_add, Nat.reduceAdd] at byte12
  simp only [headerLengthIn, List.getD, byte12, Option.getD_some]

end TCPPacket

end Pcsx2.PacketReader

/-!
# UDP packets
-/

namespace Pcsx2.PacketReader

structure UDPPacket (π : Type) where
  sourcePort : BitVec 16
  destinationPort : BitVec 16
  checksum : BitVec 16
  payload : π
  deriving DecidableEq

namespace UDPPacket

variable {π : Type} [Payload π]

def getLength (p : UDPPacket π) : Int := 8 + Payload.getLength p.payload

def headerBytes (p : UDPPacket π) : List Byte :=
  writeUInt16 p.sourcePort ++ (writeUInt16 p.destinationPort ++ (writeUInt16 (BitVec.ofInt 16 p.getLength) ++ writeUInt16 p.checksum))

def writeBytes (p : UDPPacket π) : Option (List Byte) := (Payload.writeBytes p.payload).map fun bytes => p.headerBytes ++ bytes

/-- `IP_Type::UDP` -/
def protocol : Byte := 0x11

/-- What the checksum is one of. -/
def segment (srcIP dstIP : IPAddress) (p : UDPPacket π) : Option (List Byte) := do
  let bytes ← p.writeBytes
  headerSegment srcIP dstIP protocol p.getLength bytes

def calculateChecksum (srcIP dstIP : IPAddress) (p : UDPPacket π) : Option (UDPPacket π) := do
  let headerSegment ← segment srcIP dstIP { p with checksum := 0 }
  pure { p with checksum := internetChecksum headerSegment }

def verifyChecksum (srcIP dstIP : IPAddress) (p : UDPPacket π) : Option Bool := do
  let headerSegment ← segment srcIP dstIP p
  pure (internetChecksum headerSegment == 0)

def clone (p : UDPPacket π) : UDPPacket π :=
  { p with
    checksum := p.destinationPort
    payload := Payload.clone p.payload }

end UDPPacket

/-! ## Payloads of IP -/

variable {π : Type} [Payload π]

theorem TCPPacket.getLength_clone (p : TCPPacket π) : p.clone.getLength ≤ p.getLength := by
  have payload := Payload.getLength_clone p.payload
  have header := @OptionCodec.le_headerLengthOf _ tcpOptions p.options
  change (tcpOptions.headerLengthOf [] : Int) + Payload.getLength (Payload.clone p.payload) ≤ p.getLength
  rw [getLength, OptionCodec.headerLengthOf_nil]
  omega

theorem UDPPacket.getLength_clone (p : UDPPacket π) : p.clone.getLength ≤ p.getLength :=
  Int.add_le_add_left (Payload.getLength_clone p.payload) 8

instance : IPPayload (TCPPacket π) where
  getLength := TCPPacket.getLength
  writeBytes := TCPPacket.writeBytes
  calculateChecksum := TCPPacket.calculateChecksum
  clone := TCPPacket.clone
  getLength_clone := TCPPacket.getLength_clone
  getLength_calculateChecksum srcIP dstIP p p' calculated := by
    obtain ⟨_, _, made⟩ := Option.bind_eq_some_iff.1 calculated
    cases made
    rfl

instance : IPPayload (UDPPacket π) where
  getLength := UDPPacket.getLength
  writeBytes := UDPPacket.writeBytes
  calculateChecksum := UDPPacket.calculateChecksum
  clone := UDPPacket.clone
  getLength_clone := UDPPacket.getLength_clone
  getLength_calculateChecksum srcIP dstIP p p' calculated := by
    obtain ⟨_, _, made⟩ := Option.bind_eq_some_iff.1 calculated
    cases made
    rfl

end Pcsx2.PacketReader
