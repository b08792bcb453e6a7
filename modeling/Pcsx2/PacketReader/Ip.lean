import Pcsx2.PacketReader.Checksum
import Pcsx2.PacketReader.NetLib
import Pcsx2.PacketReader.WrittenOptions

/-!
# IP packets
-/

namespace Pcsx2.PacketReader

open Foundation Foundation.Reader

/-! ## Options -/

inductive IPOption
  | nop
  | routerAlert (value : BitVec 16)
  | unk (o : IPopUnk [0, 1, 148])
  deriving DecidableEq

namespace IPOption

def getCode : IPOption → Byte
  | nop => 1
  | routerAlert _ => 148
  | unk o => o.code

def getLength : IPOption → Byte
  | nop => 1
  | routerAlert _ => 4
  | unk o => o.length

def writeBytes : IPOption → List Byte
  | nop => [getCode nop]
  | routerAlert value => getCode (routerAlert value) :: getLength (routerAlert value) :: writeUInt16 value
  | unk o => o.write

def readRouterAlert : Reader Byte IPOption := do
  skip 2
  let value ← readUInt16
  pure (routerAlert value)

def read (opKind : Byte) : Reader Byte IPOption :=
  if opKind = 148 then readRouterAlert else do
    let o ← IPopUnk.read [0, 1, 148]
    pure (unk o)

def sizeOf (opKind opLen : Byte) : Option Nat := if opKind = 148 then some 4 else IPopUnk.sizeOf [0, 1, 148] opKind opLen

theorem sized_readRouterAlert : Sized readRouterAlert 4 := Sized.skipping (n := 2) sized_readUInt16.map

end IPOption

def ipOptions : OptionCodec IPOption where
  nop := .nop
  read := IPOption.read
  size := IPOption.sizeOf
  size_pos opKind opLen n size := by
    rw [IPOption.sizeOf] at size
    by_cases alert : opKind = 148
    · rw [if_pos alert, Option.some.injEq] at size
      omega
    · rw [if_neg alert] at size
      exact IPopUnk.sizeOf_pos size
  sized buffer offset opKind opLen kind len := by
    rw [IPOption.sizeOf, IPOption.read]
    by_cases alert : opKind = 148
    · rw [if_pos alert, if_pos alert]
      exact IPOption.sized_readRouterAlert buffer offset
    · rw [if_neg alert, if_neg alert]
      exact (IPopUnk.sized_read kind len).map
  getLength := IPOption.getLength
  write := IPOption.writeBytes
  write_nop := rfl
  length_write o := by
    cases o with
    | nop => rfl
    | routerAlert value => rfl
    | unk o => exact o.length_write
  written o other := by
    cases o with
    | nop => exact absurd rfl other
    | routerAlert value =>
        refine ⟨148, writeUInt16 value, rfl, by decide, ?_⟩
        exact Reads.skipping (rfl : ([148, 4] : List Byte).length = 2) (reads_readUInt16 value).map
    | unk o =>
        have known := o.unknown
        simp only [List.mem_cons, List.not_mem_nil, or_false, not_or] at known
        refine ⟨o.code, o.value, rfl, ⟨known.1, known.2.1⟩, ?_⟩
        rw [IPOption.read, if_neg known.2.2]
        exact o.reads_read.map

/-! ## Packets -/

structure IPPacket (π : Type) where
  headerLength : Nat
  dscp : Byte
  id : BitVec 16
  fragmentFlags1 : Byte
  fragmentFlags2 : Byte
  timeToLive : Byte
  protocol : Byte
  checksum : BitVec 16
  sourceIP : IPAddress
  destinationIP : IPAddress
  options : List IPOption
  payload : π
  deriving DecidableEq

namespace IPPacket

def readFields : Reader Byte (IPPacket Unit × BitVec 16) := do
  let v_hl ← readByte08
  let dscp ← readByte08
  let length ← readUInt16
  let id ← readUInt16
  let fragmentFlags1 ← readByte08
  let fragmentFlags2 ← readByte08
  let timeToLive ← readByte08
  let protocol ← readByte08
  let checksum ← readUInt16
  let sourceIP ← readIPAddress
  let destinationIP ← readIPAddress
  pure (⟨(v_hl &&& 0xF).toNat <<< 2, dscp, id, fragmentFlags1, fragmentFlags2, timeToLive, protocol, checksum, sourceIP,
    destinationIP, [], ()⟩, length)

/-- The parsing constructor, with the place behind the last byte of an option. -/
def parse (fuel : Nat) (buffer : List Byte) : Option (IPPacket PayloadPtr × Nat) := do
  let ((fields, field), _) ← readFields buffer 0
  let length := if buffer.length < field.toNat then (BitVec.ofNat 16 buffer.length).toNat else field.toNat
  let (options, used) ← ipOptions.readOptions fuel buffer fields.headerLength
  pure ({ fields with options, payload := ⟨fields.headerLength, length - fields.headerLength⟩ }, used)

variable {π : Type} [IPPayload π]

def reComputeHeaderLen (p : IPPacket π) : IPPacket π := { p with headerLength := ipOptions.headerLengthOf p.options }

def getLength (p : IPPacket π) : Int := ipOptions.headerLengthOf p.options + IPPayload.getLength p.payload

def frontBytes (p : IPPacket π) : List Byte :=
  [BitVec.ofNat 8 (4 <<< 4 + p.headerLength >>> 2), p.dscp] ++ (writeUInt16 (BitVec.ofInt 16 p.getLength) ++ (writeUInt16 p.id ++
    [p.fragmentFlags1, p.fragmentFlags2, p.timeToLive, p.protocol]))

def behindBytes (p : IPPacket π) : List Byte :=
  writeIPAddress p.sourceIP ++ (writeIPAddress p.destinationIP ++ (ipOptions.bytes p.options ++
    List.replicate (p.headerLength - (20 + ipOptions.total p.options)) 0))

def headerBytes (p : IPPacket π) (checksum : BitVec 16) : List Byte := p.frontBytes ++ (writeUInt16 checksum ++ p.behindBytes)

def calculateChecksum (p : IPPacket π) : IPPacket π :=
  let p := p.reComputeHeaderLen
  { p with checksum := internetChecksum (p.headerBytes 0) }

def verifyChecksum (p : IPPacket π) : Bool :=
  let p := p.reComputeHeaderLen
  internetChecksum (p.headerBytes p.checksum) == 0

def writeBytes (p : IPPacket π) : Option (List Byte × IPPacket π) := do
  let p := p.calculateChecksum
  let payload ← IPPayload.calculateChecksum p.sourceIP p.destinationIP p.payload
  let p := { p with payload }
  let bytes ← IPPayload.writeBytes p.payload
  pure (p.headerBytes p.checksum ++ bytes, p)

def clone (p : IPPacket π) : IPPacket π := { p with options := [], payload := IPPayload.clone p.payload }

/-! ## Writing -/

/-- The packet without its payload. -/
def fields {ρ : Type} (p : IPPacket ρ) : IPPacket Unit := { p with payload := () }

variable {p : IPPacket π} {bytes : List Byte}

theorem writeBytes_eq_some {p' : IPPacket π} : p.writeBytes = some (bytes, p') ↔ ∃ payload written,
    IPPayload.calculateChecksum p.sourceIP p.destinationIP p.payload = some payload ∧ IPPayload.writeBytes payload = some written ∧
      p' = { p.calculateChecksum with payload } ∧ bytes = p'.headerBytes p'.checksum ++ written := by
  simp only [writeBytes, calculateChecksum, reComputeHeaderLen, Option.bind_eq_bind, Option.bind_eq_some_iff, Option.pure_def,
    Option.some.injEq, Prod.mk.injEq]
  constructor
  · rintro ⟨payload, calculated, written, write, rfl, rfl⟩
    exact ⟨payload, written, calculated, write, rfl, rfl⟩
  · rintro ⟨payload, written, calculated, write, rfl, rfl⟩
    exact ⟨payload, calculated, written, write, rfl, rfl⟩

theorem headerLength_of_writeBytes {p' : IPPacket π} (write : p.writeBytes = some (bytes, p')) :
    p'.options = p.options ∧ p'.headerLength = ipOptions.headerLengthOf p.options ∧ p'.getLength = p.getLength := by
  obtain ⟨payload, _, calculated, _, rfl, _⟩ := writeBytes_eq_some.1 write
  exact ⟨rfl, rfl, congrArg (fun length => (ipOptions.headerLengthOf p.options : Int) + length)
    (IPPayload.getLength_calculateChecksum _ _ _ _ calculated)⟩

/-! ## Headers that are the same -/

variable {ρ : Type} [IPPayload ρ] {q : IPPacket ρ}

theorem headerBytes_congr (same : { q.fields with checksum := 0 } = { p.fields with checksum := 0 })
    (length : BitVec.ofInt 16 q.getLength = BitVec.ofInt 16 p.getLength) (checksum : BitVec 16) :
    q.headerBytes checksum = p.headerBytes checksum := by
  simp only [fields, mk.injEq, true_and, and_true] at same
  obtain ⟨header, dscp, id, flags1, flags2, live, protocol, source, destination, options⟩ := same
  simp only [headerBytes, frontBytes, behindBytes, length, header, dscp, id, flags1, flags2, live, protocol, source, destination, options]

theorem calculateChecksum_congr (same : { q.fields with checksum := 0, headerLength := 0 } = { p.fields with checksum := 0, headerLength := 0 })
    (length : BitVec.ofInt 16 q.getLength = BitVec.ofInt 16 p.getLength) :
    q.calculateChecksum.fields = p.calculateChecksum.fields := by
  have header : { q.reComputeHeaderLen.fields with checksum := 0 } = { p.reComputeHeaderLen.fields with checksum := 0 } := by
    simp only [fields, mk.injEq, true_and, and_true] at same
    simp only [fields, reComputeHeaderLen, same]
  have checksum := congrArg internetChecksum (headerBytes_congr header length 0)
  simp only [fields, mk.injEq, true_and, and_true] at header
  simp only [calculateChecksum, fields, checksum, header]

theorem writes_iff : (∃ p', p.writeBytes = some (bytes, p')) ↔ ∃ payload, IPPayload.sent p.sourceIP p.destinationIP p.payload = some payload ∧
    bytes = p.calculateChecksum.headerBytes p.calculateChecksum.checksum ++ payload := by
  simp only [writeBytes_eq_some, IPPayload.sent, Option.bind_eq_bind, Option.bind_eq_some_iff]
  have header (calculated : π) (calculation : IPPayload.calculateChecksum p.sourceIP p.destinationIP p.payload = some calculated) :
      headerBytes { p.calculateChecksum with payload := calculated } p.calculateChecksum.checksum =
        p.calculateChecksum.headerBytes p.calculateChecksum.checksum :=
    headerBytes_congr (q := { p.calculateChecksum with payload := calculated }) (p := p.calculateChecksum) rfl (congrArg (fun length => BitVec.ofInt 16 (ipOptions.headerLengthOf p.options + length))
      (IPPayload.getLength_calculateChecksum _ _ _ _ calculation)) _
  constructor
  · rintro ⟨_, calculated, payload, calculation, write, rfl, rfl⟩
    exact ⟨payload, ⟨calculated, calculation, write⟩, by rw [header calculated calculation]⟩
  · rintro ⟨payload, ⟨calculated, calculation, write⟩, rfl⟩
    exact ⟨_, calculated, payload, calculation, write, rfl, by rw [header calculated calculation]⟩

/-! ## Parsing -/

theorem sized_readFields : Sized readFields 20 :=
  sized_readByte08.bind fun _ => sized_readByte08.bind fun _ => sized_readUInt16.bind fun _ => sized_readUInt16.bind fun _ =>
    sized_readByte08.bind fun _ => sized_readByte08.bind fun _ => sized_readByte08.bind fun _ => sized_readByte08.bind fun _ =>
      sized_readUInt16.bind fun _ => sized_readUInt32.bind fun _ => sized_readUInt32.map

/-- What the first byte of a buffer gives as its header length. -/
def headerLengthIn (buffer : List Byte) : Nat := (buffer.getD 0 0 &&& 0xF).toNat <<< 2

/-- What the length field of a buffer gives, within the buffer. -/
def lengthIn (buffer : List Byte) : Nat := min (buffer.getD 2 0 ++ buffer.getD 3 0).toNat buffer.length

variable {buffer : List Byte} {fields : IPPacket Unit} {field : BitVec 16} {place : Nat}

theorem of_readFields (read : readFields buffer 0 = some ((fields, field), place)) :
    fields.headerLength = headerLengthIn buffer ∧ field = buffer.getD 2 0 ++ buffer.getD 3 0 := by
  obtain ⟨v_hl, _, read0, read⟩ := bind_eq_some read
  obtain ⟨byte0, rfl⟩ := item_eq_some read0
  obtain ⟨_, _, read1, read⟩ := bind_eq_some read
  obtain ⟨_, rfl⟩ := item_eq_some read1
  obtain ⟨length, _, read2, read⟩ := bind_eq_some read
  obtain ⟨high, _, read3, read2⟩ := bind_eq_some read2
  obtain ⟨byte2, rfl⟩ := item_eq_some read3
  obtain ⟨low, _, read3, read2⟩ := bind_eq_some read2
  obtain ⟨byte3, rfl⟩ := item_eq_some read3
  cases read2
  obtain ⟨_, _, _, read⟩ := bind_eq_some read
  obtain ⟨_, _, _, read⟩ := bind_eq_some read
  obtain ⟨_, _, _, read⟩ := bind_eq_some read
  obtain ⟨_, _, _, read⟩ := bind_eq_some read
  obtain ⟨_, _, _, read⟩ := bind_eq_some read
  obtain ⟨_, _, _, read⟩ := bind_eq_some read
  obtain ⟨_, _, _, read⟩ := bind_eq_some read
  obtain ⟨_, _, _, read⟩ := bind_eq_some read
  cases read
  simp only [headerLengthIn, List.getD, byte0, byte2, byte3, Option.getD_some, and_self]

end IPPacket

end Pcsx2.PacketReader
