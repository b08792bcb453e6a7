import Pcsx2.PacketReader.DhcpOptions
import Pcsx2.PacketReader.NetLib

/-!
# DHCP packets
-/

namespace Pcsx2.PacketReader

open Foundation Foundation.Reader DHCPOption

structure DHCPPacket where
  op : Byte
  hardwareType : Byte
  hardwareAddressLength : Byte
  hops : Byte
  transactionID : BitVec 32
  seconds : BitVec 16
  flags : BitVec 16
  clientIP : IPAddress
  yourIP : IPAddress
  serverIP : IPAddress
  gatewayIP : IPAddress
  clientHardwareAddress : { bytes : List Byte // bytes.length = 16 }
  magicCookie : BitVec 32
  options : List DHCPOption
  maxLength : Int
  deriving DecidableEq

namespace DHCPPacket

/-! ## Parsing -/

/-- The fields in front of the options, with `maxLength` as a new packet has it. -/
def readFields : Reader Byte DHCPPacket := do
  let op ← readByte08
  let hardwareType ← readByte08
  let hardwareAddressLength ← readByte08
  let hops ← readByte08
  let transactionID ← readUInt32
  let seconds ← readUInt16
  let flags ← readUInt16
  let clientIP ← readIPAddress
  let yourIP ← readIPAddress
  let serverIP ← readIPAddress
  let gatewayIP ← readIPAddress
  let clientHardwareAddress ← chunk 16
  skip 192
  let magicCookie ← readUInt32
  pure ⟨op, hardwareType, hardwareAddressLength, hops, transactionID, seconds, flags, clientIP, yourIP, serverIP, gatewayIP,
    clientHardwareAddress, magicCookie, [], 576⟩

structure State where
  offset : Nat
  options : List DHCPOption

variable (buffer : List Byte)

def next (offset : Nat) (options : List DHCPOption) : Turn State (List DHCPOption) :=
  if buffer.length ≤ offset then .done (options ++ [nop]) else .again ⟨offset, options⟩

def turn (s : State) : Turn State (List DHCPOption) :=
  match buffer[s.offset]? with
  | none => .fault
  | some opKind =>
    if opKind = 255 then .done (s.options ++ [endOption])
    else if buffer.length ≤ s.offset + 1 then .done (s.options ++ [endOption])
    else match buffer[s.offset + 1]? with
    | none => .fault
    | some opLen =>
      if opKind = 0 then .again ⟨s.offset + 1, s.options ++ [nop]⟩
      else match layout opKind with
      | none => next buffer (s.offset + (opLen.toNat + 2)) s.options
      | some l => match l.read buffer s.offset with
        | none => .fault
        | some (o, _) => next buffer (s.offset + (opLen.toNat + 2)) (s.options ++ [o])

/-- The parsing constructor. -/
def parse (fuel : Nat) (buffer : List Byte) : Option DHCPPacket := do
  let (fields, _) ← readFields buffer 0
  let options ← Loop.run (turn buffer) fuel ⟨240, []⟩
  pure { fields with options }

/-- The places where an option begins. -/
inductive Reached : Nat → Prop
  | first : Reached 240
  | nop {offset : Nat} (reached : Reached offset) (kind : buffer[offset]? = some 0) (more : offset + 1 < buffer.length) :
      Reached (offset + 1)
  | option {offset : Nat} {opKind opLen : Byte} (reached : Reached offset) (kind : buffer[offset]? = some opKind)
      (option : opKind ≠ 0 ∧ opKind ≠ 255) (len : buffer[offset + 1]? = some opLen)
      (more : offset + (opLen.toNat + 2) < buffer.length) : Reached (offset + (opLen.toNat + 2))

/-- What is read of the option is in the buffer. -/
def Inside (offset : Nat) : Prop := ∀ opKind opLen l, buffer[offset]? = some opKind → buffer[offset + 1]? = some opLen →
  layout opKind = some l → offset + l.size opLen ≤ buffer.length

variable {buffer} {s : State} {opKind opLen : Byte} {result : List DHCPOption}

theorem sized_readFields : Sized readFields 240 :=
  sized_readByte08.bind fun _ => sized_readByte08.bind fun _ => sized_readByte08.bind fun _ => sized_readByte08.bind fun _ =>
    sized_readUInt32.bind fun _ => sized_readUInt16.bind fun _ => sized_readUInt16.bind fun _ => sized_readUInt32.bind fun _ =>
      sized_readUInt32.bind fun _ => sized_readUInt32.bind fun _ => sized_readUInt32.bind fun _ => sized_chunk.bind fun _ =>
        Sized.skipping (n := 192) sized_readUInt32.map

/-! ## One turn -/

theorem turn_behind (none : buffer.length ≤ s.offset) : turn buffer s = .fault := by
  simp only [turn, List.getElem?_eq_none none]

theorem turn_end (kind : buffer[s.offset]? = some 255) : turn buffer s = .done (s.options ++ [endOption]) := by
  simp only [turn, kind, if_true]

theorem turn_last (kind : buffer[s.offset]? = some opKind) (last : buffer.length ≤ s.offset + 1) :
    turn buffer s = .done (s.options ++ [endOption]) := by
  simp only [turn, kind, last, if_true, ite_self]

theorem turn_nop (kind : buffer[s.offset]? = some 0) (len : buffer[s.offset + 1]? = some opLen) :
    turn buffer s = .again ⟨s.offset + 1, s.options ++ [nop]⟩ := by
  have other : (0 : Byte) ≠ 255 := by decide
  have more := Nat.not_le_of_lt (List.getElem?_eq_some_iff.1 len).1
  simp only [turn, kind, len, if_neg other, if_neg more, if_true]

theorem turn_option (kind : buffer[s.offset]? = some opKind) (option : opKind ≠ 0 ∧ opKind ≠ 255)
    (len : buffer[s.offset + 1]? = some opLen) : turn buffer s = match layout opKind with
      | none => next buffer (s.offset + (opLen.toNat + 2)) s.options
      | some l => match l.read buffer s.offset with
        | none => .fault
        | some (o, _) => next buffer (s.offset + (opLen.toNat + 2)) (s.options ++ [o]) := by
  have more := Nat.not_le_of_lt (List.getElem?_eq_some_iff.1 len).1
  simp only [turn, kind, len, if_neg option.1, if_neg option.2, if_neg more]

inductive Finds (buffer : List Byte) (s : State) : Prop
  | behind (none : buffer.length ≤ s.offset)
  | stops (turn : turn buffer s = .done (s.options ++ [endOption]))
  | nop {opLen : Byte} (kind : buffer[s.offset]? = some 0) (len : buffer[s.offset + 1]? = some opLen)
  | option {opKind opLen : Byte} (kind : buffer[s.offset]? = some opKind) (option : opKind ≠ 0 ∧ opKind ≠ 255)
      (len : buffer[s.offset + 1]? = some opLen)

theorem finds (buffer : List Byte) (s : State) : Finds buffer s := by
  rcases Nat.lt_or_ge s.offset buffer.length with inside | none
  · have kind := List.getElem?_eq_getElem inside
    generalize buffer[s.offset] = opKind at kind
    by_cases last : opKind = 255
    · exact .stops (turn_end (last ▸ kind))
    rcases Nat.lt_or_ge (s.offset + 1) buffer.length with more | last'
    · have len := List.getElem?_eq_getElem more
      by_cases zero : opKind = 0
      · exact .nop (zero ▸ kind) len
      · exact .option kind ⟨zero, last⟩ len
    · exact .stops (turn_last kind last')
  · exact .behind none

theorem turn_inside (kind : buffer[s.offset]? = some opKind) (option : opKind ≠ 0 ∧ opKind ≠ 255)
    (len : buffer[s.offset + 1]? = some opLen) (inside : Inside buffer s.offset) :
    ∃ passed, turn buffer s = next buffer (s.offset + (opLen.toNat + 2)) (s.options ++ passed) := by
  rw [turn_option kind option len]
  cases known : layout opKind with
  | none => exact ⟨[], by rw [List.append_nil]⟩
  | some l =>
      obtain ⟨o, read⟩ := (Layout.takes_read len l).1 (inside opKind opLen l kind len known)
      exact ⟨[o], by simp only [read]⟩

/-! ## The whole loop -/

theorem inside_of_ends (ends : Loop.Ends (turn buffer) s result) : s.offset < buffer.length ∧ Inside buffer s.offset := by
  constructor
  · by_contra none
    exact Loop.not_ends_fault (turn_behind (Nat.le_of_not_lt none)) ends
  · intro opKind opLen l kind len known
    by_contra outside
    have option : opKind ≠ 0 ∧ opKind ≠ 255 := by
      constructor
      · rintro rfl
        cases known
      · rintro rfl
        cases known
    have fault : turn buffer s = .fault := by
      rw [turn_option kind option len, known]
      simp only [(Layout.takes_read len l).2 (Nat.lt_of_not_le outside)]
    exact Loop.not_ends_fault fault ends

theorem ends_of_reached (ends : Loop.Ends (turn buffer) ⟨240, []⟩ result) {offset : Nat} (reached : Reached buffer offset) :
    ∃ s, s.offset = offset ∧ Loop.Ends (turn buffer) s result := by
  induction reached with
  | first => exact ⟨_, rfl, ends⟩
  | nop _ kind more ih =>
      obtain ⟨s, rfl, ends⟩ := ih
      exact ⟨_, rfl, (Loop.ends_again (turn_nop kind (List.getElem?_eq_getElem more))).1 ends⟩
  | option _ kind option len more ih =>
      obtain ⟨s, rfl, ends⟩ := ih
      obtain ⟨passed, turn⟩ := turn_inside kind option len (inside_of_ends ends).2
      rw [next, if_neg (Nat.not_le_of_lt more)] at turn
      exact ⟨_, rfl, (Loop.ends_again turn).1 ends⟩

theorem turn_safe (reached : Reached buffer s.offset) (before : s.offset < buffer.length) (inside : Inside buffer s.offset) :
    match turn buffer s with
    | .again t => (Reached buffer t.offset ∧ t.offset < buffer.length) ∧ s.offset < t.offset
    | .done _ => True
    | .fault => False := by
  cases finds buffer s with
  | behind none => exact absurd before (Nat.not_lt_of_le none)
  | stops turn => rw [turn]; trivial
  | nop kind len =>
      have more := (List.getElem?_eq_some_iff.1 len).1
      rw [turn_nop kind len]
      exact ⟨⟨.nop reached kind more, more⟩, Nat.lt_succ_self _⟩
  | @option _ opLen kind option len =>
      obtain ⟨passed, turn⟩ := turn_inside kind option len inside
      rw [turn, next]
      by_cases last : buffer.length ≤ s.offset + (opLen.toNat + 2)
      · rw [if_pos last]
        trivial
      · rw [if_neg last]
        have more := Nat.lt_of_not_le last
        exact ⟨⟨.option reached kind option len more, more⟩, Nat.lt_add_of_pos_right (Nat.succ_pos _)⟩

theorem parse_options_iff (enough : 240 ≤ buffer.length) :
    (∃ fuel p, parse fuel buffer = some p ∧ p.options = result) ↔ Loop.Ends (turn buffer) ⟨240, []⟩ result := by
  obtain ⟨fields, read⟩ := (sized_readFields buffer 0).1 enough
  simp only [parse, read, Option.bind_eq_bind, Option.bind_some, Option.pure_def, Option.bind_eq_some_iff, Option.some.injEq,
    Loop.ends_iff]
  constructor
  · rintro ⟨fuel, _, ⟨options, run, rfl⟩, rfl⟩
    exact ⟨fuel, run⟩
  · rintro ⟨fuel, run⟩
    exact ⟨fuel, _, ⟨result, run, rfl⟩, rfl⟩

theorem parse_iff (enough : 240 ≤ buffer.length) : (∃ fuel p, parse fuel buffer = some p) ↔
    240 < buffer.length ∧ ∀ offset, Reached buffer offset → Inside buffer offset := by
  have ends : (∃ fuel p, parse fuel buffer = some p) ↔ ∃ options, Loop.Ends (turn buffer) ⟨240, []⟩ options := by
    simp only [← parse_options_iff enough]
    exact ⟨fun ⟨fuel, p, parsed⟩ => ⟨_, fuel, p, parsed, rfl⟩, fun ⟨_, fuel, p, parsed, _⟩ => ⟨fuel, p, parsed⟩⟩
  rw [ends]
  constructor
  · rintro ⟨options, ends⟩
    refine ⟨(inside_of_ends ends).1, fun offset reached => ?_⟩
    obtain ⟨s, rfl, ends⟩ := ends_of_reached ends reached
    exact (inside_of_ends ends).2
  · rintro ⟨more, inside⟩
    let I (s : State) : Prop := Reached buffer s.offset ∧ s.offset < buffer.length
    have spec (s : State) (holds : I s) := turn_safe holds.1 holds.2 (inside s.offset holds.1)
    refine Loop.exists_ends (fun s => buffer.length - s.offset) (I := I) ?_ ?_ ⟨.first, more⟩
    · intro s holds wrong
      have after := spec s holds
      rw [wrong] at after
      exact after
    · intro s t holds again
      have after := spec s holds
      rw [again] at after
      exact ⟨after.1, Nat.sub_lt_sub_left holds.2 after.2⟩

end DHCPPacket

end Pcsx2.PacketReader

/-!
# Writing DHCP packets
-/

namespace Pcsx2.PacketReader

open Foundation Foundation.Reader DHCPOption

namespace DHCPPacket

def getLength (p : DHCPPacket) : Int := p.maxLength - (8 + 20)

def fieldBytes (p : DHCPPacket) : List Byte :=
  [p.op, p.hardwareType, p.hardwareAddressLength, p.hops] ++ (writeUInt32 p.transactionID ++ (writeUInt16 p.seconds ++
    (writeUInt16 p.flags ++ (writeIPAddress p.clientIP ++ (writeIPAddress p.yourIP ++ (writeIPAddress p.serverIP ++
      (writeIPAddress p.gatewayIP ++ (p.clientHardwareAddress.val ++ (List.replicate 192 0 ++ writeUInt32 p.magicCookie)))))))))

/-- The loop over the options. `past` is the option before, which an END takes the place of when the
length is `maxLength` exactly; there is none in front of the first. -/
def writeOptions (maxLength : Int) : List DHCPOption → Int → Option DHCPOption → List Byte → Option (List Byte)
  | [], _, _, written => some written
  | o :: options, len, past, written =>
    if len + o.getLength.toNat < maxLength then
      writeOptions maxLength options (len + o.getLength.toNat) (some o) (written ++ o.writeBytes)
    else if len = maxLength then past.map fun past => written.take (written.length - past.getLength.toNat) ++ endOption.writeBytes
    else some (written ++ endOption.writeBytes)

def writeBytes (p : DHCPPacket) : Option (List Byte) := do
  let written ← writeOptions p.maxLength p.options 240 none p.fieldBytes
  if written.length ≤ p.getLength then some (written ++ List.replicate (p.getLength - written.length).toNat 0) else none

def clone (p : DHCPPacket) : DHCPPacket := { p with options := [] }

instance : Payload DHCPPacket where
  getLength := getLength
  writeBytes := writeBytes
  clone := clone
  getLength_clone _ := Int.le_refl _

/-! ## The options that are written -/

def accepted (maxLength : Int) : List DHCPOption → Int → List DHCPOption
  | [], _ => []
  | o :: options, len =>
    if len + o.getLength.toNat < maxLength then o :: accepted maxLength options (len + o.getLength.toNat) else []

def total (options : List DHCPOption) : Nat := (options.map size).sum

def bytes (options : List DHCPOption) : List Byte := options.flatMap DHCPOption.writeBytes

variable {maxLength len : Int} {options : List DHCPOption} {o : DHCPOption} {past : Option DHCPOption} {written : List Byte}

theorem length_bytes : (bytes options).length = total options := by
  induction options with
  | nil => rfl
  | cons o options ih =>
      rw [bytes, List.flatMap_cons, List.length_append, length_writeBytes, total, List.map_cons, List.sum_cons]
      exact congrArg _ ih

theorem writeOptions_eq (room : len < maxLength) : writeOptions maxLength options len past written =
    some (written ++ bytes (accepted maxLength options len) ++
      if (accepted maxLength options len).length = options.length then [] else [255]) := by
  induction options generalizing len past written with
  | nil => simp [writeOptions, accepted, bytes]
  | cons o options ih =>
      by_cases fits : len + o.getLength.toNat < maxLength
      · rw [writeOptions, accepted, if_pos fits, if_pos fits, ih fits]
        simp [bytes]
      · rw [writeOptions, accepted, if_neg fits, if_neg fits, if_neg (by omega)]
        simp [bytes, DHCPOption.writeBytes, getCode]

/-! ## Parsing what was written -/

variable {front rest : List Byte} {done result : List DHCPOption}

/-- The option does not end the options, and a length byte tells how long it is. -/
def Good (o : DHCPOption) : Prop := o ≠ endOption ∧ o.body.length ≤ 255

instance (o : DHCPOption) : Decidable (Good o) := inferInstanceAs (Decidable (_ ∧ _))

theorem turn_other (other : o ≠ nop ∧ o ≠ endOption) (small : o.body.length ≤ 255) :
    turn (front ++ (o.writeBytes ++ rest)) ⟨front.length, done⟩ =
      next (front ++ (o.writeBytes ++ rest)) (front.length + o.size) (done ++ [o]) := by
  obtain ⟨l, known, reads⟩ := reads_layout other
  have kind : (front ++ (o.writeBytes ++ rest))[front.length]? = some o.getCode := by
    rw [writeBytes_of_other other]
    exact getElem?_front
  have len : (front ++ (o.writeBytes ++ rest))[front.length + 1]? = some (o.getLength - 2) := by
    rw [writeBytes_of_other other]
    exact getElem?_front_succ
  have size : (o.getLength - 2).toNat + 2 = o.size := by
    rw [toNat_length other, DHCPOption.size, if_neg (not_or.2 other)]
    omega
  rw [turn_option (s := ⟨front.length, done⟩) kind (getCode_ne other) len, known, size]
  simp only [reads small front rest]

theorem turn_good (good : Good o) (more : rest ≠ []) :
    turn (front ++ (o.writeBytes ++ rest)) ⟨front.length, done⟩ = .again ⟨front.length + o.size, done ++ [o]⟩ := by
  obtain ⟨b, rest, rfl⟩ := List.exists_cons_of_ne_nil more
  by_cases single : o = nop
  · subst single
    exact turn_nop (s := ⟨front.length, done⟩) getElem?_front getElem?_front_succ
  · rw [turn_other ⟨single, good.1⟩ good.2, next, if_neg]
    rw [List.length_append, List.length_append, length_writeBytes, List.length_cons]
    omega

theorem bytes_cons : bytes (o :: options) = o.writeBytes ++ bytes options := List.flatMap_cons

theorem ends_good (good : ∀ o ∈ options, Good o) (more : rest ≠ []) :
    Loop.Ends (turn (front ++ bytes options ++ rest)) ⟨front.length, done⟩ result ↔
      Loop.Ends (turn (front ++ bytes options ++ rest)) ⟨(front ++ bytes options).length, done ++ options⟩ result := by
  induction options generalizing front done with
  | nil => simp only [bytes, List.flatMap_nil, List.append_nil]
  | cons o options ih =>
      rw [List.forall_mem_cons] at good
      have more' : bytes options ++ rest ≠ [] := fun nil => more (List.append_eq_nil_iff.1 nil).2
      have whole : front ++ bytes (o :: options) = front ++ o.writeBytes ++ bytes options := by
        rw [bytes_cons, List.append_assoc]
      have turn := @turn_good _ front _ done good.1 more'
      rw [← List.append_assoc, ← List.append_assoc, ← length_writeBytes, ← List.length_append] at turn
      rw [whole, Loop.ends_again turn, ih good.2, List.append_assoc done, List.singleton_append]

theorem ends_end : Loop.Ends (turn (front ++ 255 :: rest)) ⟨front.length, done⟩ result ↔ result = done ++ [endOption] :=
  Loop.ends_done (turn_end (s := ⟨front.length, done⟩) getElem?_front)

theorem ends_zeros (count : Nat) : Loop.Ends (turn (front ++ List.replicate (count + 1) 0)) ⟨front.length, done⟩ result ↔
    result = done ++ List.replicate count nop ++ [endOption] := by
  induction count generalizing front done with
  | zero =>
      have turn := turn_last (s := ⟨front.length, done⟩) (@getElem?_front Byte 0 front [])
        (by rw [List.length_append, List.length_singleton])
      rw [List.replicate_zero, List.append_nil]
      exact Loop.ends_done turn
  | succ count ih =>
      have turn := turn_nop (s := ⟨front.length, done⟩) (@getElem?_front _ _ _ (List.replicate (count + 1) 0)) getElem?_front_succ
      have split : front ++ List.replicate (count + 1 + 1) 0 = front ++ [0] ++ List.replicate (count + 1) 0 := by
        rw [List.replicate_succ, List.append_assoc, List.singleton_append]
      have length : front.length + 1 = (front ++ [0]).length := by rw [List.length_append, List.length_singleton]
      rw [← List.replicate_succ, split, length] at turn
      rw [split, Loop.ends_again turn, ih, List.replicate_succ, List.append_assoc done, List.singleton_append]

theorem ends_last (other : o ≠ nop ∧ o ≠ endOption) (small : o.body.length ≤ 255) :
    Loop.Ends (turn (front ++ o.writeBytes)) ⟨front.length, done⟩ result ↔ result = done ++ [o] ++ [nop] := by
  have turn := @turn_other _ front [] done other small
  rw [List.append_nil, next, if_pos (by rw [List.length_append, length_writeBytes])] at turn
  exact Loop.ends_done turn

def Extends (options : List DHCPOption) : Turn State (List DHCPOption) → Prop
  | .again t => options <+: t.options
  | .done result => options <+: result
  | .fault => True

theorem next_extends (buffer : List Byte) (offset : Nat) {passed : List DHCPOption} (before : options <+: passed) :
    Extends options (next buffer offset passed) := by
  rw [next]
  by_cases last : buffer.length ≤ offset
  · rw [if_pos last]
    exact before.trans (List.prefix_append _ _)
  · rw [if_neg last]
    exact before

theorem turn_extends (buffer : List Byte) (s : State) : Extends s.options (turn buffer s) := by
  cases finds buffer s with
  | behind none => rw [turn_behind none]; trivial
  | stops turn => rw [turn]; exact List.prefix_append _ _
  | nop kind len => rw [turn_nop kind len]; exact List.prefix_append _ _
  | @option opKind opLen kind option len =>
      rw [turn_option kind option len]
      cases layout opKind with
      | none => exact next_extends _ _ (List.prefix_refl _)
      | some l =>
          cases read : l.read buffer s.offset with
          | none => simp only [read, Extends]
          | some pair =>
              simp only [read]
              exact next_extends _ _ (List.prefix_append _ _)

theorem prefix_of_ends {buffer : List Byte} {s : State} (ends : Loop.Ends (turn buffer) s result) : s.options <+: result := by
  induction ends with
  | @done s a now =>
      have grows := turn_extends buffer s
      rw [now] at grows
      exact grows
  | @again s t a again _ ih =>
      have grows := turn_extends buffer s
      rw [again] at grows
      exact grows.trans ih

theorem ends_bad (other : o ≠ nop ∧ o ≠ endOption) (large : 255 < o.body.length)
    (ends : Loop.Ends (turn (front ++ (o.writeBytes ++ rest))) ⟨front.length, done⟩ result) :
    ∃ o', done ++ [o'] <+: result ∧ o' ≠ o ∧ o' ≠ endOption := by
  obtain ⟨l, known, -⟩ := reads_layout other
  have kind : (front ++ (o.writeBytes ++ rest))[front.length]? = some o.getCode := by
    rw [writeBytes_of_other other]
    exact getElem?_front
  have len : (front ++ (o.writeBytes ++ rest))[front.length + 1]? = some (o.getLength - 2) := by
    rw [writeBytes_of_other other]
    exact getElem?_front_succ
  have turn := turn_option (s := ⟨front.length, done⟩) kind (getCode_ne other) len
  rw [known] at turn
  cases read : l.read (front ++ (o.writeBytes ++ rest)) front.length with
  | none =>
      simp only [read] at turn
      exact absurd ends (Loop.not_ends_fault turn)
  | some pair =>
      simp only [read] at turn
      obtain ⟨code, small⟩ := of_makes known (Layout.makes_of_read read)
      refine ⟨pair.1, ?_, ?_, ?_⟩
      · have extended := next_extends (front ++ (o.writeBytes ++ rest)) (front.length + ((o.getLength - 2).toNat + 2))
          (List.prefix_refl (done ++ [pair.1]))
        rw [← turn] at extended
        cases ends with
        | done now =>
            rw [now] at extended
            exact extended
        | again again rest =>
            rw [again] at extended
            exact extended.trans (prefix_of_ends rest)
      · rintro rfl
        exact absurd small (Nat.not_le_of_lt large)
      · intro last
        rw [last] at code
        exact (getCode_ne other).2 code.symm

end DHCPPacket

end Pcsx2.PacketReader
