import Pcsx2.PacketReader.Ip
import Pcsx2.PacketReader.Transport

/-!
# Packets that are written and parsed again
-/

namespace Pcsx2.PacketReader

open Foundation Foundation.Reader

/-! ## IP -/

namespace IPPacket

variable {π : Type} [IPPayload π] {p : IPPacket π}

/-- What is parsed from the written bytes has the fields, the options and the payload of the packet
that was written, and is written as the same bytes. -/
def RoundTrips (p : IPPacket π) : Prop := ∀ bytes p', p.writeBytes = some (bytes, p') →
  ∃ fuel q used data, parse fuel bytes = some (q, used) ∧ q.payload.data bytes = some data ∧ q.fields = p'.fields ∧
    IPPayload.writeBytes p'.payload = some data ∧
    ∃ q', writeBytes { q with payload := PayloadData.mk data } = some (bytes, q')

/-- The length that is written is the number of bytes, and the options end well. -/
def Writable (p : IPPacket π) (payload : List Byte) : Prop :=
  p.getLength % 65536 = ipOptions.headerLengthOf p.options + payload.length ∧
    ipOptions.EndsWell p.options (ipOptions.headerLengthOf p.options) payload

theorem headerLength_read : ∀ k : Fin 16, ((BitVec.ofNat 8 (4 <<< 4 + (4 * k.val) >>> 2) : Byte) &&& 0xF).toNat <<< 2 = 4 * k.val := by
  decide

theorem headerLengthOf_read {options : List IPOption} (fits : ipOptions.total options ≤ 40) :
    ((BitVec.ofNat 8 (4 <<< 4 + ipOptions.headerLengthOf options >>> 2) : Byte) &&& 0xF).toNat <<< 2 =
      ipOptions.headerLengthOf options := by
  have small : (20 + ipOptions.total options + 3) / 4 < 16 := by omega
  have read := headerLength_read ⟨_, small⟩
  rw [OptionCodec.headerLengthOf, Nat.mul_comm]
  exact read

def fieldBytes (p : IPPacket π) : List Byte :=
  p.frontBytes ++ (writeUInt16 p.checksum ++ (writeIPAddress p.sourceIP ++ writeIPAddress p.destinationIP))

theorem length_fieldBytes : p.fieldBytes.length = 20 := rfl

theorem headerBytes_eq : p.headerBytes p.checksum = p.fieldBytes ++ ipOptions.bytes p.options ++
    List.replicate (p.headerLength - (20 + ipOptions.total p.options)) 0 := by
  simp only [headerBytes, fieldBytes, behindBytes, List.append_assoc]

theorem reads_readFields (read : ((BitVec.ofNat 8 (4 <<< 4 + p.headerLength >>> 2) : Byte) &&& 0xF).toNat <<< 2 = p.headerLength) :
    Reads readFields p.fieldBytes ({ p with options := [], payload := () }, BitVec.ofInt 16 p.getLength) := by
  have reads : Reads readFields ([BitVec.ofNat 8 (4 <<< 4 + p.headerLength >>> 2)] ++ ([p.dscp] ++
      (writeUInt16 (BitVec.ofInt 16 p.getLength) ++ (writeUInt16 p.id ++ ([p.fragmentFlags1] ++ ([p.fragmentFlags2] ++
        ([p.timeToLive] ++ ([p.protocol] ++ (writeUInt16 p.checksum ++ (writeUInt32 p.sourceIP ++ writeUInt32 p.destinationIP))))))))))
      (⟨((BitVec.ofNat 8 (4 <<< 4 + p.headerLength >>> 2) : Byte) &&& 0xF).toNat <<< 2, p.dscp, p.id, p.fragmentFlags1,
        p.fragmentFlags2, p.timeToLive, p.protocol, p.checksum, p.sourceIP, p.destinationIP, [], ()⟩, BitVec.ofInt 16 p.getLength) := by
    apply Reads.bind (reads_readByte08 _)
    apply Reads.bind (reads_readByte08 _)
    apply Reads.bind (reads_readUInt16 _)
    apply Reads.bind (reads_readUInt16 _)
    apply Reads.bind (reads_readByte08 _)
    apply Reads.bind (reads_readByte08 _)
    apply Reads.bind (reads_readByte08 _)
    apply Reads.bind (reads_readByte08 _)
    apply Reads.bind (reads_readUInt16 _)
    apply Reads.bind (reads_readUInt32 _)
    exact (reads_readUInt32 _).map
  rw [read] at reads
  exact reads

variable {bytes payload : List Byte}

def lengthRead (p : IPPacket π) (bytes : List Byte) : Nat :=
  let field := BitVec.ofInt 16 p.getLength
  if bytes.length < field.toNat then (BitVec.ofNat 16 bytes.length).toNat else field.toNat

theorem lengthRead_lt : p.lengthRead bytes < 65536 := by
  rw [lengthRead]
  split
  · exact (BitVec.ofNat 16 bytes.length).isLt
  · exact (BitVec.ofInt 16 p.getLength).isLt

theorem lengthRead_eq (whole : p.getLength % 65536 = bytes.length) : p.lengthRead bytes = bytes.length := by
  have same : (BitVec.ofInt 16 p.getLength).toNat = bytes.length := by
    rw [BitVec.toNat_ofInt]
    omega
  simp only [lengthRead, same, Nat.lt_irrefl, if_false]

theorem readFields_written (read : ((BitVec.ofNat 8 (4 <<< 4 + p.headerLength >>> 2) : Byte) &&& 0xF).toNat <<< 2 = p.headerLength) :
    readFields (p.headerBytes p.checksum ++ payload) 0 =
      some (({ p with options := [], payload := () }, BitVec.ofInt 16 p.getLength), 20) :=
  (reads_readFields read).at [] (ipOptions.bytes p.options ++
    (List.replicate (p.headerLength - (20 + ipOptions.total p.options)) 0 ++ payload))
    (by simp only [headerBytes_eq, List.append_assoc, List.nil_append]) rfl

theorem parse_written (read : ((BitVec.ofNat 8 (4 <<< 4 + p.headerLength >>> 2) : Byte) &&& 0xF).toNat <<< 2 = p.headerLength)
    (written : bytes = p.headerBytes p.checksum ++ payload) (fuel : Nat) :
    parse fuel bytes = (ipOptions.readOptions fuel bytes p.headerLength).map fun result =>
      ({ p with options := result.1, payload := ⟨p.headerLength, p.lengthRead bytes - p.headerLength⟩ }, result.2) := by
  have first := @readFields_written _ _ p payload read
  rw [← written] at first
  simp only [parse, first, Option.bind_eq_bind, Option.bind_some, lengthRead]
  cases ipOptions.readOptions fuel bytes p.headerLength with
  | none => rfl
  | some result => rfl

theorem length_headerBytes (short : 20 + ipOptions.total p.options ≤ p.headerLength) :
    (p.headerBytes p.checksum).length = p.headerLength := by
  rw [headerBytes_eq, List.length_append, List.length_append, length_fieldBytes, OptionCodec.length_bytes, List.length_replicate]
  omega

theorem readOptions_written (short : 20 + ipOptions.total p.options ≤ p.headerLength)
    (written : bytes = p.headerBytes p.checksum ++ payload) :
    (∃ fuel used, ipOptions.readOptions fuel bytes p.headerLength = some (p.options, used)) ↔
      ipOptions.EndsWell p.options p.headerLength payload := by
  rw [written, headerBytes_eq, List.append_assoc (p.fieldBytes ++ _)]
  exact OptionCodec.readOptions_iff length_fieldBytes short

theorem written_of_sent (sent : IPPayload.sent p.sourceIP p.destinationIP p.payload = some payload) : ∃ p' : IPPacket π,
    p.writeBytes = some (p'.headerBytes p'.checksum ++ payload, p') ∧ IPPayload.writeBytes p'.payload = some payload := by
  obtain ⟨calculated, calculation, wrote⟩ := Option.bind_eq_some_iff.1 sent
  exact ⟨_, writeBytes_eq_some.2 ⟨calculated, payload, calculation, wrote, rfl, rfl⟩, wrote⟩

theorem written_fits (fits : ipOptions.total p.options ≤ 40) {p' : IPPacket π} (write : p.writeBytes = some (bytes, p')) :
    ((BitVec.ofNat 8 (4 <<< 4 + p'.headerLength >>> 2) : Byte) &&& 0xF).toNat <<< 2 = p'.headerLength ∧
      20 + ipOptions.total p'.options ≤ p'.headerLength := by
  obtain ⟨options, header, -⟩ := headerLength_of_writeBytes write
  rw [header, options]
  exact ⟨headerLengthOf_read fits, OptionCodec.le_headerLengthOf⟩

theorem writeBytes_again {p' : IPPacket π} (same : p'.fields = p.calculateChecksum.fields) (length : p'.getLength = p.getLength)
    (field : p.getLength % 65536 = p'.headerLength + payload.length) :
    writeBytes { p' with payload := PayloadData.mk payload } =
      some (p'.headerBytes p'.checksum ++ payload, { calculateChecksum { p' with payload := PayloadData.mk payload } with
        payload := PayloadData.mk payload }) := by
  have options : p'.options = p.options := (congrArg (fun q : IPPacket Unit => q.options) same :)
  have header : p'.headerLength = ipOptions.headerLengthOf p.options := (congrArg (fun q : IPPacket Unit => q.headerLength) same :)
  have size : BitVec.ofInt 16 (getLength { p' with payload := PayloadData.mk payload }) = BitVec.ofInt 16 p.getLength := by
    apply BitVec.eq_of_toNat_eq
    have whole : getLength { p' with payload := PayloadData.mk payload } = p'.headerLength + payload.length := by
      rw [header, ← options]
      rfl
    rw [whole, ← field, BitVec.toNat_ofInt, BitVec.toNat_ofInt, Int.emod_emod_of_dvd _ (by decide)]
  have both : (calculateChecksum { p' with payload := PayloadData.mk payload }).fields = p.calculateChecksum.fields := by
    apply calculateChecksum_congr _ size
    exact congrArg (fun q : IPPacket Unit => { q with checksum := 0, headerLength := 0 }) same
  rw [writeBytes_eq_some]
  refine ⟨_, payload, rfl, rfl, rfl, ?_⟩
  have whole := both.trans same.symm
  have checksum : (calculateChecksum { p' with payload := PayloadData.mk payload }).checksum = p'.checksum :=
    (congrArg (fun q : IPPacket Unit => q.checksum) whole :)
  have again := headerBytes_congr (q := { calculateChecksum { p' with payload := PayloadData.mk payload } with
    payload := PayloadData.mk payload }) (p := p') (congrArg (fun q : IPPacket Unit => { q with checksum := 0 }) whole)
    (by rw [length, ← size]; rfl) p'.checksum
  rw [← again, checksum]

theorem writable_of_roundTrips (fits : ipOptions.total p.options ≤ 40) (trips : p.RoundTrips)
    (sent : IPPayload.sent p.sourceIP p.destinationIP p.payload = some payload) : p.Writable payload := by
  obtain ⟨p', write, wrote⟩ := written_of_sent sent
  obtain ⟨fuel, packet, used, data, parsed, pointed, same, wrote', packet', again⟩ := trips _ _ write
  cases wrote.symm.trans wrote'
  obtain ⟨options, header, length⟩ := headerLength_of_writeBytes write
  obtain ⟨read, short⟩ := written_fits fits write
  rw [parse_written read rfl, Option.map_eq_some_iff] at parsed
  obtain ⟨⟨options', used⟩, readOptions, made⟩ := parsed
  cases made
  obtain rfl : options' = p'.options := congrArg IPPacket.options same
  have endsWell := (readOptions_written short rfl).1 ⟨fuel, used, readOptions⟩
  -- The length field of the bytes is the one of both packets that they are written from.
  have window := PayloadPtr.length_of_data pointed
  obtain ⟨-, -, length'⟩ := headerLength_of_writeBytes again
  obtain ⟨read', -⟩ := written_fits (options ▸ fits) again
  obtain ⟨_, _, same, wrote, rfl, written⟩ := writeBytes_eq_some.1 again
  cases same
  cases wrote
  have field := @readFields_written _ _ p' payload read
  rw [written, readFields_written read', length', length] at field
  have field := congrArg (fun result => result.1.2.toNat) (Option.some.inj field)
  have bound := @lengthRead_lt _ _ p' (p'.headerBytes p'.checksum ++ payload)
  simp only [BitVec.toNat_ofInt] at field
  rw [getLength, options, ← header] at field
  constructor
  · rw [← header]
    change (((p'.headerLength : Int) + payload.length) % ↑(2 ^ 16)).toNat = _ at field
    simp only at window
    omega
  · rw [← header, ← options]
    exact endsWell

theorem comesBack_iff (fits : ipOptions.total p.options ≤ 40) : p.RoundTrips ↔
    ∀ payload, IPPayload.sent p.sourceIP p.destinationIP p.payload = some payload → p.Writable payload := by
  refine ⟨fun trips payload sent => writable_of_roundTrips fits trips sent, fun writable bytes p' write => ?_⟩
  obtain ⟨options, header, length⟩ := headerLength_of_writeBytes write
  obtain ⟨read, short⟩ := written_fits fits write
  obtain ⟨calculated, payload, calculation, wrote, made, written⟩ := writeBytes_eq_some.1 write
  obtain ⟨field, endsWell⟩ := writable payload (Option.bind_eq_some_iff.2 ⟨calculated, calculation, wrote⟩)
  rw [← header, ← options] at endsWell
  rw [← header] at field
  obtain ⟨fuel, used, readOptions⟩ := (readOptions_written short written).2 endsWell
  have size : bytes.length = p'.headerLength + payload.length := by
    rw [written, List.length_append, length_headerBytes short]
  have whole : p'.lengthRead bytes = bytes.length := lengthRead_eq (by rw [length, field, size]; rfl)
  have pointed : (⟨p'.headerLength, p'.lengthRead bytes - p'.headerLength⟩ : PayloadPtr).data bytes = some payload := by
    have data := PayloadPtr.data_end (p'.headerBytes p'.checksum) payload
    rw [← written, length_headerBytes short] at data
    rw [whole, size, show ((p'.headerLength + payload.length : Nat) : Int) - p'.headerLength = payload.length by omega]
    exact data
  refine ⟨fuel, _, used, payload, by rw [parse_written read written, readOptions]; rfl, pointed, rfl, by rw [made]; exact wrote, ?_⟩
  exact ⟨_, (writeBytes_again (by rw [made]; rfl) length field).trans (by rw [written])⟩

end IPPacket

/-! ## TCP -/

namespace TCPPacket

variable {π : Type} {p : TCPPacket π} {bytes payload : List Byte}

def RoundTrips [Payload π] (p : TCPPacket π) : Prop := ∀ bytes, p.writeBytes = some bytes →
  ∃ fuel q used data, parse fuel bytes = some (q, used) ∧ q.payload.data bytes = some data ∧ q.fields = p.fields ∧
    Payload.writeBytes p.payload = some data ∧ writeBytes { q with payload := PayloadData.mk data } = some bytes

/-- The data offset is the one of the header, and the options end well. -/
def Writable (p : TCPPacket π) (payload : List Byte) : Prop :=
  (p.dataOffsetAndNS_Flag >>> 4).toNat <<< 2 = p.headerLength ∧ tcpOptions.EndsWell p.options p.headerLength payload

theorem reads_readFields : Reads readFields p.fieldBytes
    { p with headerLength := (p.dataOffsetAndNS_Flag >>> 4).toNat <<< 2, options := [], payload := () } := by
  have reads : Reads readFields (writeUInt16 p.sourcePort ++ (writeUInt16 p.destinationPort ++ (writeUInt32 p.sequenceNumber ++
      (writeUInt32 p.acknowledgementNumber ++ ([p.dataOffsetAndNS_Flag] ++ ([p.flags] ++ (writeUInt16 p.windowSize ++
        (writeUInt16 p.checksum ++ writeUInt16 p.urgentPointer))))))))
      (⟨p.sourcePort, p.destinationPort, p.sequenceNumber, p.acknowledgementNumber, p.dataOffsetAndNS_Flag,
        (p.dataOffsetAndNS_Flag >>> 4).toNat <<< 2, p.flags, p.windowSize, p.checksum, p.urgentPointer, [], ()⟩) := by
    apply Reads.bind (reads_readUInt16 _)
    apply Reads.bind (reads_readUInt16 _)
    apply Reads.bind (reads_readUInt32 _)
    apply Reads.bind (reads_readUInt32 _)
    apply Reads.bind (reads_readByte08 _)
    apply Reads.bind (reads_readByte08 _)
    apply Reads.bind (reads_readUInt16 _)
    apply Reads.bind (reads_readUInt16 _)
    exact (reads_readUInt16 _).map
  exact reads

theorem parse_written (written : bytes = p.headerBytes ++ payload) (fuel : Nat) :
    parse fuel bytes = (tcpOptions.readOptions fuel bytes ((p.dataOffsetAndNS_Flag >>> 4).toNat <<< 2)).map fun result =>
      ({ p with
          headerLength := (p.dataOffsetAndNS_Flag >>> 4).toNat <<< 2
          options := result.1
          payload := ⟨(p.dataOffsetAndNS_Flag >>> 4).toNat <<< 2, bytes.length - ((p.dataOffsetAndNS_Flag >>> 4).toNat <<< 2 : Nat)⟩ },
        result.2) := by
  have first : readFields bytes 0 = some (_, 20) := (reads_readFields (p := p)).at [] (tcpOptions.bytes p.options ++
    (List.replicate (p.headerLength - (20 + tcpOptions.total p.options)) 0 ++ payload))
    (by simp only [written, headerBytes_eq, List.append_assoc, List.nil_append]) rfl
  simp only [parse, first, Option.bind_eq_bind, Option.bind_some]
  cases tcpOptions.readOptions fuel bytes ((p.dataOffsetAndNS_Flag >>> 4).toNat <<< 2) with
  | none => rfl
  | some result => rfl

theorem readOptions_written (short : 20 + tcpOptions.total p.options ≤ p.headerLength) (written : bytes = p.headerBytes ++ payload) :
    (∃ fuel used, tcpOptions.readOptions fuel bytes p.headerLength = some (p.options, used)) ↔
      tcpOptions.EndsWell p.options p.headerLength payload := by
  rw [written, headerBytes_eq, List.append_assoc (p.fieldBytes ++ _)]
  exact OptionCodec.readOptions_iff length_fieldBytes short

variable [Payload π]

theorem comesBack_iff (fits : 20 + tcpOptions.total p.options ≤ p.headerLength) : p.RoundTrips ↔
    ∀ payload, Payload.writeBytes p.payload = some payload → p.Writable payload := by
  constructor
  · intro trips payload wrote
    obtain ⟨fuel, q, used, data, parsed, pointed, same, wrote', again⟩ := trips _ (writeBytes_eq_some.2 ⟨payload, fits, wrote, rfl⟩)
    rw [parse_written rfl, Option.map_eq_some_iff] at parsed
    obtain ⟨⟨options, used⟩, readOptions, made⟩ := parsed
    cases made
    have offset : (p.dataOffsetAndNS_Flag >>> 4).toNat <<< 2 = p.headerLength :=
      (congrArg (fun q : TCPPacket Unit => q.headerLength) same :)
    obtain rfl : options = p.options := (congrArg (fun q : TCPPacket Unit => q.options) same :)
    rw [offset] at readOptions
    exact ⟨offset, (readOptions_written fits rfl).1 ⟨fuel, used, readOptions⟩⟩
  · intro writable bytes write
    obtain ⟨payload, -, wrote, written⟩ := writeBytes_eq_some.1 write
    obtain ⟨offset, endsWell⟩ := writable payload wrote
    obtain ⟨fuel, used, readOptions⟩ := (readOptions_written fits written).2 endsWell
    have size : bytes.length = p.headerLength + payload.length := by
      rw [written, List.length_append, length_headerBytes fits]
    have pointed : (⟨p.headerLength, bytes.length - p.headerLength⟩ : PayloadPtr).data bytes = some payload := by
      have data := PayloadPtr.data_end p.headerBytes payload
      rw [← written, length_headerBytes fits] at data
      rw [size, show ((p.headerLength + payload.length : Nat) : Int) - p.headerLength = payload.length by omega]
      exact data
    have parsed := parse_written written fuel
    rw [offset, readOptions] at parsed
    exact ⟨fuel, _, used, payload, parsed, pointed, rfl, wrote, writeBytes_eq_some.2 ⟨payload, fits, rfl, written⟩⟩

end TCPPacket

/-- The packets whose options fit their headers and that are parsed as they were written. -/
theorem packets_roundTrip_iff {π ρ : Type} [IPPayload π] [Payload ρ] (p : IPPacket π) (q : TCPPacket ρ)
    (fits : ipOptions.total p.options ≤ 40) (fits' : 20 + tcpOptions.total q.options ≤ q.headerLength) :
    (p.RoundTrips ↔ ∀ payload, IPPayload.sent p.sourceIP p.destinationIP p.payload = some payload → p.Writable payload) ∧
    (q.RoundTrips ↔ ∀ payload, Payload.writeBytes q.payload = some payload → q.Writable payload) :=
  ⟨IPPacket.comesBack_iff fits, TCPPacket.comesBack_iff fits'⟩

def alertPacket : IPPacket PayloadData :=
  ⟨24, 0, 1, 0, 0, 1, 2, 0, 0xC0000201, 0xE0000016, [.routerAlert 0], ⟨[0x11, 0x64]⟩⟩

def sizeSegment : TCPPacket PayloadData := ⟨1024, 80, 1, 0, 0x60, 24, 2, 8192, 0, 0, [.mss 1460], ⟨[]⟩⟩

theorem packets_roundTrip_alert : alertPacket.RoundTrips ∧ sizeSegment.RoundTrips := by
  have both := packets_roundTrip_iff alertPacket sizeSegment (by decide) (by decide)
  refine ⟨both.1.2 ?_, both.2.2 ?_⟩
  · rintro payload sent
    cases sent
    exact ⟨by decide, fun _ last => absurd last (by decide), fun one => absurd one (by decide)⟩
  · rintro payload sent
    cases sent
    exact ⟨by decide, fun _ last => absurd last (by decide), fun one => absurd one (by decide)⟩

def nopPacket : IPPacket PayloadData := { alertPacket with options := [.nop, .nop, .nop, .nop] }

theorem nopPacket_not_roundTrip : ¬∀ (p : IPPacket PayloadData) (q : TCPPacket PayloadData), ipOptions.total p.options ≤ 40 →
    20 + tcpOptions.total q.options ≤ q.headerLength → p.RoundTrips ∧ q.RoundTrips := by
  intro all
  have trips := (all nopPacket sizeSegment (by decide) (by decide)).1
  obtain ⟨-, endsWell, -⟩ := (IPPacket.comesBack_iff (by decide)).1 trips [0x11, 0x64] rfl
  obtain ⟨b, rest, whole⟩ := endsWell (by decide) rfl
  cases whole

end Pcsx2.PacketReader
