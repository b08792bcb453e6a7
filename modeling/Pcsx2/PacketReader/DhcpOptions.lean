import Pcsx2.PacketReader.Options

/-!
# DHCP options

The length byte of a DHCP option counts its body alone, and `GetLength` counts the two bytes in front
of it too, in eight bits.
-/

namespace Pcsx2.PacketReader

open Foundation Foundation.Reader

inductive DHCPOption
  | nop
  | subnet (subnetMask : IPAddress)
  | router (routers : List IPAddress)
  | dns (dnsServers : List IPAddress)
  | hostName (hostName : List Byte)
  | dnsName (domainName : List Byte)
  | bcip (broadcastIP : IPAddress)
  | nbiosType (type : Byte)
  | reqip (requestedIP : IPAddress)
  | iplt (ipLeaseTime : BitVec 32)
  | msg (message : Byte)
  | servip (serverIP : IPAddress)
  | reqlist (requests : List Byte)
  | msgStr (message : List Byte)
  | mmsgs (maxMessageSize : BitVec 16)
  | t1 (ipRenewalTimeT1 : BitVec 32)
  | t2 (ipRebindingTimeT2 : BitVec 32)
  | classID (classID : List Byte)
  | clientID (clientID : List Byte)
  | endOption
  deriving DecidableEq

namespace DHCPOption

def getCode : DHCPOption → Byte
  | nop => 0
  | subnet _ => 1
  | router _ => 3
  | dns _ => 6
  | hostName _ => 12
  | dnsName _ => 15
  | bcip _ => 28
  | nbiosType _ => 46
  | reqip _ => 50
  | iplt _ => 51
  | msg _ => 53
  | servip _ => 54
  | reqlist _ => 55
  | msgStr _ => 56
  | mmsgs _ => 57
  | t1 _ => 58
  | t2 _ => 59
  | classID _ => 60
  | clientID _ => 61
  | endOption => 255

def body : DHCPOption → List Byte
  | nop | endOption => []
  | subnet ip | bcip ip | reqip ip | servip ip => writeIPAddress ip
  | router ips | dns ips => ips.flatMap writeIPAddress
  | hostName bytes | dnsName bytes | reqlist bytes | msgStr bytes | classID bytes | clientID bytes => bytes
  | nbiosType value | msg value => [value]
  | mmsgs value => writeUInt16 value
  | iplt value | t1 value | t2 value => writeUInt32 value

def size (o : DHCPOption) : Nat := if o = nop ∨ o = endOption then 1 else 2 + o.body.length

def getLength (o : DHCPOption) : Byte := BitVec.ofNat 8 o.size

def writeBytes (o : DHCPOption) : List Byte :=
  if o = nop ∨ o = endOption then [o.getCode] else o.getCode :: (o.getLength - 2) :: o.body

/-! ## Reading -/

inductive Layout
  | address (make : IPAddress → DHCPOption)
  | addresses (make : List IPAddress → DHCPOption)
  | text (make : List Byte → DHCPOption)
  | number08 (make : Byte → DHCPOption)
  | number16 (make : BitVec 16 → DHCPOption)
  | number32 (make : BitVec 32 → DHCPOption)

def layout (opKind : Byte) : Option Layout :=
  match opKind.toNat with
  | 1 => some (.address subnet)
  | 3 => some (.addresses router)
  | 6 => some (.addresses dns)
  | 12 => some (.text hostName)
  | 15 => some (.text dnsName)
  | 28 => some (.address bcip)
  | 46 => some (.number08 nbiosType)
  | 50 => some (.address reqip)
  | 51 => some (.number32 iplt)
  | 53 => some (.number08 msg)
  | 54 => some (.address servip)
  | 55 => some (.text reqlist)
  | 56 => some (.text msgStr)
  | 57 => some (.number16 mmsgs)
  | 58 => some (.number32 t1)
  | 59 => some (.number32 t2)
  | 60 => some (.text classID)
  | 61 => some (.text clientID)
  | _ => none

namespace Layout

def read : Layout → Reader Byte DHCPOption
  | address make => do
      skip 2
      let ip ← readIPAddress
      pure (make ip)
  | addresses make => do
      skip 1
      let len ← readByte08
      let ips ← many (len.toNat / 4) readIPAddress
      pure (make ips)
  | text make => do
      skip 1
      let len ← readByte08
      let bytes ← readByteArray len.toNat
      pure (make bytes)
  | number08 make => do
      skip 2
      let value ← readByte08
      pure (make value)
  | number16 make => do
      skip 2
      let value ← readUInt16
      pure (make value)
  | number32 make => do
      skip 2
      let value ← readUInt32
      pure (make value)

def size (opLen : Byte) : Layout → Nat
  | address _ | number32 _ => 6
  | addresses _ => 2 + opLen.toNat / 4 * 4
  | text _ => 2 + opLen.toNat
  | number08 _ => 3
  | number16 _ => 4

variable {buffer : List Byte} {offset : Nat} {opLen : Byte}

theorem takes_read (len : buffer[offset + 1]? = some opLen) (l : Layout) :
    Takes l.read buffer offset (some (l.size opLen)) := by
  have inside : offset + 2 ≤ buffer.length := (List.getElem?_eq_some_iff.1 len).1
  have first : readByte08 buffer (offset + 1) = some (opLen, offset + 2) := by
    rw [readByte08, item, len]
    rfl
  cases l with
  | address make => exact Sized.skipping (n := 2) sized_readUInt32.map buffer offset
  | addresses make =>
      have head : (addresses make).read buffer offset =
          (many (opLen.toNat / 4) readIPAddress >>= fun ips => pure (make ips)) buffer (offset + 2) :=
        bind_some (f := fun len : Byte => many (len.toNat / 4) readIPAddress >>= fun ips => pure (make ips)) first
      obtain ⟨whole, none⟩ := sized_readUInt32.many (n := opLen.toNat / 4) inside
      rw [Takes, head, size, ← Nat.add_assoc]
      constructor
      · intro enough
        obtain ⟨ips, read⟩ := whole enough
        exact ⟨make ips, bind_some read⟩
      · exact fun short => bind_none (none short)
  | text make =>
      have head : (text make).read buffer offset =
          (readByteArray opLen.toNat >>= fun bytes => pure (make bytes)) buffer (offset + 2) :=
        bind_some (f := fun len : Byte => readByteArray len.toNat >>= fun bytes => pure (make bytes)) first
      rw [Takes, head, size, ← Nat.add_assoc]
      exact sized_items.map buffer (offset + 2)
  | number08 make => exact Sized.skipping (n := 2) sized_readByte08.map buffer offset
  | number16 make => exact Sized.skipping (n := 2) sized_readUInt16.map buffer offset
  | number32 make => exact Sized.skipping (n := 2) sized_readUInt32.map buffer offset

def Makes : Layout → DHCPOption → Prop
  | address make, o => ∃ ip, o = make ip
  | addresses make, o => ∃ ips, ips.length ≤ 63 ∧ o = make ips
  | text make, o => ∃ bytes, bytes.length ≤ 255 ∧ o = make bytes
  | number08 make, o => ∃ value, o = make value
  | number16 make, o => ∃ value, o = make value
  | number32 make, o => ∃ value, o = make value

theorem makes_of_read {l : Layout} {o : DHCPOption} {behind : Nat} (read : l.read buffer offset = some (o, behind)) : l.Makes o := by
  cases l with
  | addresses make =>
      obtain ⟨_, _, _, read⟩ := bind_eq_some read
      obtain ⟨len, _, _, read⟩ := bind_eq_some read
      obtain ⟨ips, _, many, read⟩ := bind_eq_some read
      cases read
      have small := len.isLt
      exact ⟨ips, by rw [length_of_many many]; omega, rfl⟩
  | text make =>
      obtain ⟨_, _, _, read⟩ := bind_eq_some read
      obtain ⟨len, _, _, read⟩ := bind_eq_some read
      obtain ⟨bytes, _, items, read⟩ := bind_eq_some read
      cases read
      have small := len.isLt
      refine ⟨bytes, ?_, rfl⟩
      rw [readByteArray, Reader.items] at items
      split at items
      · cases items
        rw [List.length_take]
        omega
      · cases items
  | address make | number08 make | number16 make | number32 make =>
      obtain ⟨_, _, _, read⟩ := bind_eq_some read
      obtain ⟨value, _, _, read⟩ := bind_eq_some read
      cases read
      exact ⟨value, rfl⟩

end Layout

/-! ## Reading what was written -/

theorem length_addresses (ips : List IPAddress) : (ips.flatMap writeIPAddress).length = 4 * ips.length := by
  induction ips with
  | nil => rfl
  | cons ip ips ih => rw [List.flatMap_cons, List.length_append, ih, length_writeIPAddress, List.length_cons, Nat.mul_succ, Nat.add_comm]

variable {o : DHCPOption} {opKind : Byte} {l : Layout}

theorem of_makes (known : layout opKind = some l) (makes : l.Makes o) : o.getCode = opKind ∧ o.body.length ≤ 255 := by
  have code {n : Nat} (same : opKind.toNat = n) : BitVec.ofNat 8 n = opKind := by rw [← same, BitVec.ofNat_toNat, BitVec.setWidth_eq]
  have addresses {ips : List IPAddress} (few : ips.length ≤ 63) : (ips.flatMap writeIPAddress).length ≤ 255 := by
    rw [length_addresses]
    omega
  unfold layout at known
  split at known
  case h_19 => cases known
  all_goals
    next same =>
    cases known
    first
      | obtain ⟨ips, few, rfl⟩ := makes
        exact ⟨code same, addresses few⟩
      | obtain ⟨bytes, small, rfl⟩ := makes
        exact ⟨code same, small⟩
      | obtain ⟨value, rfl⟩ := makes
        exact ⟨code same, Nat.le_of_ble_eq_true rfl⟩

theorem reads_address (make : IPAddress → DHCPOption) (code len : Byte) (ip : IPAddress) :
    Reads (Layout.address make).read (code :: len :: writeIPAddress ip) (make ip) :=
  Reads.skipping (rfl : [code, len].length = 2) (reads_readUInt32 ip).map

theorem reads_addresses (make : List IPAddress → DHCPOption) (code : Byte) {len : Byte} {ips : List IPAddress}
    (length : len.toNat = (ips.flatMap writeIPAddress).length) :
    Reads (Layout.addresses make).read (code :: len :: ips.flatMap writeIPAddress) (make ips) := by
  apply Reads.skipping (rfl : [code].length = 1)
  apply (reads_readByte08 len).bind
  rw [length, length_addresses, Nat.mul_div_cancel_left _ (by omega)]
  exact (reads_many writeIPAddress fun ip _ => reads_readUInt32 ip).map

theorem reads_text (make : List Byte → DHCPOption) (code : Byte) {len : Byte} {bytes : List Byte} (length : len.toNat = bytes.length) :
    Reads (Layout.text make).read (code :: len :: bytes) (make bytes) := by
  apply Reads.skipping (rfl : [code].length = 1)
  apply (reads_readByte08 len).bind
  exact (reads_items bytes length.symm).map

theorem reads_number08 (make : Byte → DHCPOption) (code len value : Byte) :
    Reads (Layout.number08 make).read [code, len, value] (make value) :=
  Reads.skipping (rfl : [code, len].length = 2) (reads_readByte08 value).map

theorem reads_number16 (make : BitVec 16 → DHCPOption) (code len : Byte) (value : BitVec 16) :
    Reads (Layout.number16 make).read (code :: len :: writeUInt16 value) (make value) :=
  Reads.skipping (rfl : [code, len].length = 2) (reads_readUInt16 value).map

theorem reads_number32 (make : BitVec 32 → DHCPOption) (code len : Byte) (value : BitVec 32) :
    Reads (Layout.number32 make).read (code :: len :: writeUInt32 value) (make value) :=
  Reads.skipping (rfl : [code, len].length = 2) (reads_readUInt32 value).map

theorem toNat_length (other : o ≠ nop ∧ o ≠ endOption) : (o.getLength - 2).toNat = o.body.length % 256 := by
  have two : (2 : Byte).toNat = 2 := rfl
  rw [getLength, size, if_neg (not_or.2 other), BitVec.toNat_sub, BitVec.toNat_ofNat, two]
  omega

theorem writeBytes_of_other (other : o ≠ nop ∧ o ≠ endOption) : o.writeBytes = o.getCode :: (o.getLength - 2) :: o.body :=
  if_neg (not_or.2 other)

theorem reads_layout (other : o ≠ nop ∧ o ≠ endOption) :
    ∃ l, layout o.getCode = some l ∧ (o.body.length ≤ 255 → Reads l.read o.writeBytes o) := by
  have length (small : o.body.length ≤ 255) : (o.getLength - 2).toNat = o.body.length := by
    rw [toNat_length other, Nat.mod_eq_of_lt (by omega)]
  rw [writeBytes_of_other other]
  cases o with
  | nop => exact absurd rfl other.1
  | endOption => exact absurd rfl other.2
  | subnet ip | bcip ip | reqip ip | servip ip => exact ⟨_, rfl, fun _ => reads_address _ _ _ ip⟩
  | router ips | dns ips => exact ⟨_, rfl, fun small => reads_addresses _ _ (length small)⟩
  | hostName bytes | dnsName bytes | reqlist bytes | msgStr bytes | classID bytes | clientID bytes =>
      exact ⟨_, rfl, fun small => reads_text _ _ (length small)⟩
  | nbiosType value | msg value => exact ⟨_, rfl, fun _ => reads_number08 _ _ _ value⟩
  | mmsgs value => exact ⟨_, rfl, fun _ => reads_number16 _ _ _ value⟩
  | iplt value | t1 value | t2 value => exact ⟨_, rfl, fun _ => reads_number32 _ _ _ value⟩

theorem getCode_ne (other : o ≠ nop ∧ o ≠ endOption) : o.getCode ≠ 0 ∧ o.getCode ≠ 255 := by
  cases o with
  | nop => exact absurd rfl other.1
  | endOption => exact absurd rfl other.2
  | _ => simp [getCode]

theorem length_writeBytes (o : DHCPOption) : o.writeBytes.length = o.size := by
  by_cases single : o = nop ∨ o = endOption
  · rw [writeBytes, size, if_pos single, if_pos single, List.length_singleton]
  · rw [writeBytes, size, if_neg single, if_neg single, List.length_cons, List.length_cons]
    omega

theorem size_pos (o : DHCPOption) : 0 < o.size := by
  rw [size]
  split <;> omega

end DHCPOption

end Pcsx2.PacketReader
