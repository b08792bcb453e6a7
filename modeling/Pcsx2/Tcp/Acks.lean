import Pcsx2.Tcp.Closing

/-!
# The byte stream from the host to the PS2

Offsets count the sequence numbers of the session from its SYN-ACK on, without wrapping. What the session
sends and what it knows of the PS2's acknowledgements is stated in offsets.
-/

namespace Pcsx2.Tcp
open Foundation

/-! ## What was sent -/

def Entry.size : Entry → Nat
  | .ps2 _ => 0
  | .session packet =>
      (if packet.syn then 1 else 0) + packet.payload.length + if packet.fin then 1 else 0

def sentSize (log : List Entry) : Nat := (log.map Entry.size).sum

def sends (log : List Entry) : Nat := log.countP fun entry => decide (0 < entry.size)

def Entry.data : Entry → List UInt8
  | .ps2 _ => []
  | .session packet => packet.payload

def payloads (log : List Entry) : List UInt8 := log.flatMap Entry.data

def seqNumber (offset : Nat) : UInt32 := 1 + .ofNat offset

/-- `Recv` gets to its call of `recv`. -/
def Connection.asks (s : Connection) : Bool :=
  decide (s.recvBuff.length ≤ s.popped) &&
    (decide (s.phase = .connected) || decide (s.phase = .closingClosedByPS2)) &&
    !s.shouldWaitForAck && decide (0 < s.maxSize)

def Connection.reads (s : Connection) : HostRecv → List UInt8
  | .data bytes => if s.asks then bytes else []
  | _ => []

def Phase.checks : Phase → Bool
  | .sentSynAck | .connected => true
  | phase => phase.closing

/-- What the PS2 acknowledged, and what was read from the host. -/
structure Seen where
  acked : Nat
  read : List UInt8

def Boundary (log : List Entry) (offset : Nat) : Prop :=
  ∃ before after, log = before ++ after ∧ sentSize before = offset

/-- A call of `Recv`, or a segment that acknowledges an offset. Of the offsets with its number that is the
last one. -/
inductive Move : Connection × Seen → Connection × Seen → Prop
  | recv {s seen} (host : HostRecv) (answers : s.Answers host) :
      Move (s, seen) (s.recv host, { seen with read := seen.read ++ s.reads host })
  | ack {s seen} (tcp : Segment) (opening : HostOpen) (host : HostSend) (offset : Nat)
      (plain : tcp.syn = false ∧ tcp.rst = false ∧ tcp.urg = false)
      (sent : Boundary s.log offset) (number : tcp.acknowledgementNumber = seqNumber offset)
      (last : ∀ later, Boundary s.log later → seqNumber later = seqNumber offset → later ≤ offset) :
      Move (s, seen) (s.send tcp opening host,
        { seen with acked := if s.phase.checks then max seen.acked offset else seen.acked })

/-- The session once the host accepted the connection that this SYN asks for. -/
def Connection.accept (syn : Segment) (host : HostSend) : Connection :=
  (Connection.init.send syn .connecting host).recv .connects

/-- Data packets have consecutive sequence numbers from 2 on and carry what was read, and a FIN comes last.
The outstanding length is what was sent and not acknowledged, is never made larger than the window, and
what acknowledges one of the last packets is good. -/
structure Streams (s : Connection) (seen : Seen) : Prop where
  numbered : ∀ before packet after, s.log = before ++ .session packet :: after →
    packet.payload ≠ [] ∨ packet.fin = true →
      packet.sequenceNumber = 2 + .ofNat (payloads before).length
  read : payloads s.log = seen.read
  finLast : ∀ before packet after, s.log = before ++ .session packet :: after → packet.fin = true →
    sends after = 0
  acked : seen.acked ≤ sentSize s.log
  outstanding : (s.mySequenceNumber - s.receivedAckNumber).toNat = sentSize s.log - seen.acked
  window : ∀ host, s.Answers host → (s.recv host).mySequenceNumber ≠ s.mySequenceNumber →
    (s.recv host).outstanding ≤ s.windowSize % 2 ^ 32
  acknowledged : ∀ before packet after, s.log = before ++ .session packet :: after →
    0 < (Entry.session packet).size → sends after < oldMyNumCount → ∀ tcp : TcpPacket,
      tcp.acknowledgementNumber = packet.sequenceNumber + .ofNat (Entry.session packet).size →
      tcp.payload = [] → (s.toSession.checkNumbers tcp false).1 ≠ .bad

/-! ## Marks of the last packets -/

@[simp] theorem sentSize_append (first second : List Entry) :
    sentSize (first ++ second) = sentSize first + sentSize second := by
  rw [sentSize, List.map_append, List.sum_append]
  rfl

@[simp] theorem sentSize_single (entry : Entry) : sentSize [entry] = entry.size := Nat.add_zero _

@[simp] theorem sends_append (first second : List Entry) :
    sends (first ++ second) = sends first + sends second := List.countP_append

theorem sends_single (entry : Entry) : sends [entry] = if 0 < entry.size then 1 else 0 := by
  rw [sends, List.countP_singleton]
  simp

structure Marks (log : List Entry) (offsets : List Nat) : Prop where
  length : offsets.length = oldMyNumCount + 1
  sorted : offsets.Pairwise (· ≤ ·)
  near : ∀ i o, offsets[i]? = some o → sentSize log ≤ o + (oldMyNumCount - i) * 0xFFFF
  boundary : ∀ o ∈ offsets, Boundary log o
  recent : ∀ before after, log = before ++ after → sends after ≤ oldMyNumCount →
    offsets[oldMyNumCount - sends after]? = some (sentSize before)
  older : ∀ before after, log = before ++ after → oldMyNumCount < sends after →
    ∀ o ∈ offsets, sentSize before ≤ o

section

variable {log : List Entry} {offsets : List Nat} {entry : Entry}

theorem Boundary.append {offset : Nat} (boundary : Boundary log offset) (more : List Entry) :
    Boundary (log ++ more) offset := by
  obtain ⟨before, after, rfl, size⟩ := boundary
  exact ⟨before, after ++ more, List.append_assoc _ _ _, size⟩

variable (entry) in
theorem Marks.unsized (marks : Marks log offsets) (none : entry.size = 0) : Marks (log ++ [entry]) offsets := by
  have size : sentSize (log ++ [entry]) = sentSize log := by simp [none]
  have nothing (after : List Entry) : sends (after ++ [entry]) = sends after := by
    simp [sends_single, none]
  refine ⟨marks.length, marks.sorted, fun i o at_i => size ▸ marks.near i o at_i,
    fun o member => (marks.boundary o member).append _, fun before after split few => ?_,
    fun before after split many => ?_⟩
  all_goals rcases List.eq_nil_or_concat after with rfl | ⟨after, last, rfl⟩
  · rw [List.append_nil] at split
    rw [← split, size]
    exact marks.recent log [] (List.append_nil _).symm few
  · rw [List.concat_eq_append, ← List.append_assoc] at split
    obtain ⟨rfl, same⟩ := List.append_inj' split rfl
    obtain rfl := (List.cons.inj same).1
    rw [List.concat_eq_append, nothing] at few ⊢
    exact marks.recent before after rfl few
  · exact absurd many (Nat.not_lt_of_le (Nat.zero_le _))
  · rw [List.concat_eq_append, ← List.append_assoc] at split
    obtain ⟨rfl, same⟩ := List.append_inj' split rfl
    obtain rfl := (List.cons.inj same).1
    rw [List.concat_eq_append, nothing] at many
    exact marks.older before after rfl many

variable (entry) in
theorem Marks.sized (marks : Marks log offsets) (some : 0 < entry.size) (bound : entry.size ≤ 0xFFFF) :
    Marks (log ++ [entry]) (offsets.tail ++ [sentSize log + entry.size]) := by
  have size : sentSize (log ++ [entry]) = sentSize log + entry.size := by simp
  have another (after : List Entry) : sends (after ++ [entry]) = sends after + 1 := by
    simp [sends_single, some]
  have length := marks.length
  have tail : offsets.tail.length = oldMyNumCount := by rw [List.length_tail, length]; rfl
  have below {o : Nat} (member : o ∈ offsets) : o ≤ sentSize log := by
    obtain ⟨before, after, rfl, rfl⟩ := marks.boundary o member
    rw [sentSize_append]
    exact Nat.le_add_right _ _
  have shifted (i : Nat) (inside : i < oldMyNumCount) :
      (offsets.tail ++ [sentSize log + entry.size])[i]? = offsets[i + 1]? := by
    rw [List.getElem?_append_left (by rw [tail]; exact inside), List.getElem?_tail]
  have lastOne : (offsets.tail ++ [sentSize log + entry.size])[oldMyNumCount]? =
      Option.some (sentSize log + entry.size) := by
    rw [List.getElem?_append_right (by rw [tail]), tail, Nat.sub_self]
    rfl
  refine ⟨?_, ?_, fun i o at_i => ?_, fun o member => ?_, fun before after split few => ?_,
    fun before after split many o member => ?_⟩
  · rw [List.length_append, tail]
    rfl
  · rw [List.pairwise_append]
    refine ⟨marks.sorted.sublist (List.tail_sublist _), List.pairwise_singleton _ _, fun o member p last => ?_⟩
    rw [List.mem_singleton.1 last]
    exact Nat.le_trans (below (List.mem_of_mem_tail member)) (Nat.le_add_right _ _)
  · rw [size]
    rcases Nat.lt_or_ge i oldMyNumCount with inside | behind
    · rw [shifted i inside] at at_i
      have near := marks.near (i + 1) o at_i
      have one : oldMyNumCount - i = (oldMyNumCount - (i + 1)) + 1 := by omega
      rw [one, Nat.add_mul]
      omega
    · rcases Nat.eq_or_lt_of_le behind with rfl | outside
      · rw [lastOne] at at_i
        obtain rfl := Option.some_inj.1 at_i
        exact Nat.le_add_right _ _
      · rw [List.getElem?_eq_none (by rw [List.length_append, tail]; exact outside)] at at_i
        exact absurd at_i (Option.some_ne_none o).symm
  · rcases List.mem_append.1 member with member | last
    · exact (marks.boundary o (List.mem_of_mem_tail member)).append _
    · rw [List.mem_singleton.1 last]
      exact ⟨log ++ [entry], [], (List.append_nil _).symm, size⟩
  all_goals rcases List.eq_nil_or_concat after with rfl | ⟨after, last, rfl⟩
  · rw [List.append_nil] at split
    rw [← split, size]
    exact lastOne
  · rw [List.concat_eq_append, ← List.append_assoc] at split
    obtain ⟨rfl, same⟩ := List.append_inj' split rfl
    obtain rfl := (List.cons.inj same).1
    rw [List.concat_eq_append, another] at few ⊢
    rw [shifted _ (by omega), ← marks.recent before after rfl (by omega)]
    congr 1
    omega
  · exact absurd many (Nat.not_lt_of_le (Nat.zero_le _))
  · rw [List.concat_eq_append, ← List.append_assoc] at split
    obtain ⟨rfl, same⟩ := List.append_inj' split rfl
    obtain rfl := (List.cons.inj same).1
    rw [List.concat_eq_append, another] at many
    have whole : sentSize before ≤ sentSize (before ++ after) := by
      rw [sentSize_append]
      exact Nat.le_add_right _ _
    rcases List.mem_append.1 member with member | last
    · rcases Nat.eq_or_lt_of_le (Nat.le_of_lt_succ many) with exactly | more
      · have head := marks.recent before after rfl (Nat.le_of_eq exactly.symm)
        rw [← exactly, Nat.sub_self] at head
        obtain ⟨first, rest, rfl⟩ : ∃ first rest, offsets = first :: rest :=
          List.exists_cons_of_length_eq_add_one length
        obtain rfl := Option.some_inj.1 head
        exact List.rel_of_pairwise_cons marks.sorted member
      · exact marks.older before after rfl more o (List.mem_of_mem_tail member)
    · rw [List.mem_singleton.1 last]
      exact Nat.le_trans whole (Nat.le_add_right _ _)

end

/-! ## Sequence numbers of offsets -/

theorem seqNumber_add (offset n : Nat) : seqNumber (offset + n) = seqNumber offset + .ofNat n := by
  rw [seqNumber, seqNumber, UInt32.ofNat_add, UInt32.add_assoc]

theorem seqNumber_toNat (offset : Nat) : (seqNumber offset).toNat = (1 + offset) % 2 ^ 32 := by
  rw [seqNumber, UInt32.toNat_add, UInt32.toNat_ofNat']
  simp

theorem getDelta_seqNumber {a b : Nat} (near : a < b + 2 ^ 31 ∧ b ≤ a + 2 ^ 31) :
    getDelta (seqNumber a) (seqNumber b) = (a : Int) - b := by
  rw [getDelta_eq, seqNumber_toNat, seqNumber_toNat, Int.bmod]
  push_cast
  split <;> omega

theorem seqNumber_sub_toNat {a b : Nat} (le : a ≤ b) (near : b < a + 2 ^ 32) :
    (seqNumber b - seqNumber a).toNat = b - a := by
  rw [UInt32.toNat_sub, seqNumber_toNat, seqNumber_toNat]
  omega

/-! ## The numbers of the session -/

structure Numbers (s : Connection) (acked : Nat) (offsets : List Nat) : Prop where
  marks : Marks s.log offsets
  known : s.oldMyNumbers ++ [s.mySequenceNumber] = offsets.map seqNumber
  among : acked ∈ offsets
  received : s.receivedAckNumber = seqNumber acked

section

variable {s t : Connection} {acked : Nat} {offsets : List Nat}

theorem Marks.total (marks : Marks s.log offsets) : offsets[oldMyNumCount]? = some (sentSize s.log) :=
  marks.recent s.log [] (List.append_nil _).symm (Nat.zero_le _)

theorem Marks.bounds {log : List Entry} (marks : Marks log offsets) {o : Nat} (member : o ∈ offsets) :
    o ≤ sentSize log ∧ sentSize log ≤ o + oldMyNumCount * 0xFFFF := by
  obtain ⟨i, at_i⟩ := List.mem_iff_getElem?.1 member
  obtain ⟨before, after, split, size⟩ := marks.boundary o member
  constructor
  · rw [split, sentSize_append, size]
    exact Nat.le_add_right _ _
  · refine Nat.le_trans (marks.near i o at_i) (Nat.add_le_add_left ?_ _)
    exact Nat.mul_le_mul_right _ (Nat.sub_le _ _)

theorem Numbers.mine (numbers : Numbers s acked offsets) : s.mySequenceNumber = seqNumber (sentSize s.log) := by
  have length := congrArg List.length numbers.known
  rw [List.length_append, List.length_map, numbers.marks.length] at length
  have old : s.oldMyNumbers.length = oldMyNumCount := Nat.succ.inj length
  have last : (s.oldMyNumbers ++ [s.mySequenceNumber])[oldMyNumCount]? = some s.mySequenceNumber := by
    rw [List.getElem?_append_right (Nat.le_of_eq old), old, Nat.sub_self]
    rfl
  rw [numbers.known, List.getElem?_map, numbers.marks.total] at last
  exact (Option.some_inj.1 last).symm

theorem Numbers.known_iff (numbers : Numbers s acked offsets) (number : UInt32) :
    (number = s.mySequenceNumber ∨ number ∈ s.oldMyNumbers) ↔ ∃ o ∈ offsets, seqNumber o = number := by
  rw [← List.mem_map, ← numbers.known, List.mem_append, List.mem_singleton]
  exact or_comm

theorem Numbers.outstanding (numbers : Numbers s acked offsets) :
    acked ≤ sentSize s.log ∧ sentSize s.log ≤ acked + oldMyNumCount * 0xFFFF ∧
    (s.mySequenceNumber - s.receivedAckNumber).toNat = sentSize s.log - acked ∧
    s.outstanding = (sentSize s.log : Int) - acked := by
  obtain ⟨le, near⟩ := numbers.marks.bounds numbers.among
  have span : oldMyNumCount * 0xFFFF < 2 ^ 31 := by decide
  refine ⟨le, near, ?_, ?_⟩
  · rw [numbers.mine, numbers.received]
    exact seqNumber_sub_toNat le (by omega)
  · rw [Session.outstanding, numbers.mine, numbers.received]
    exact getDelta_seqNumber (a := sentSize s.log) (b := acked) (by omega)

def Session.acks (s : Session) (ack : UInt32) : UInt32 :=
  if ack = s.mySequenceNumber ∨ ack ∈ s.oldMyNumbers then (s.updateReceivedAckNumber ack).receivedAckNumber
  else s.receivedAckNumber

/-- An acknowledged offset with a number that is known is one of the marks, and else was acknowledged
before. -/
theorem Numbers.acks (numbers : Numbers s acked offsets) {offset : Nat} (sent : Boundary s.log offset)
    (last : ∀ later, Boundary s.log later → seqNumber later = seqNumber offset → later ≤ offset) :
    s.acks (seqNumber offset) = seqNumber (max acked offset) ∧ max acked offset ∈ offsets := by
  have span : oldMyNumCount * 0xFFFF < 2 ^ 31 := by decide
  obtain ⟨before, after, split, size⟩ := sent
  have ackedBounds := numbers.marks.bounds numbers.among
  rcases Nat.lt_or_ge oldMyNumCount (sends after) with old | recent
  · have behind : ∀ o ∈ offsets, offset ≤ o := size ▸ numbers.marks.older before after split old
    have unknown : ¬(seqNumber offset = s.mySequenceNumber ∨ seqNumber offset ∈ s.oldMyNumbers) ∨
        offset ∈ offsets := by
      by_contra neither
      obtain ⟨isKnown, missing⟩ := not_or.1 neither
      obtain ⟨o, member, same⟩ := (numbers.known_iff _).1 (not_not.1 isKnown)
      exact missing (Nat.le_antisymm (behind o member) (last o (numbers.marks.boundary o member) same) ▸ member)
    rw [Nat.max_eq_left (behind acked numbers.among)]
    refine ⟨?_, numbers.among⟩
    rcases unknown with unknown | member
    · rw [Session.acks, if_neg unknown, numbers.received]
    · have bounds := numbers.marks.bounds member
      have before := behind acked numbers.among
      rw [Session.acks, if_pos ((numbers.known_iff _).2 ⟨offset, member, rfl⟩), Session.updateReceivedAckNumber,
        numbers.received, getDelta_seqNumber (a := offset) (b := acked) (by omega), if_neg (by omega),
        numbers.received]
  · have member : offset ∈ offsets :=
      size ▸ List.mem_iff_getElem?.2 ⟨_, numbers.marks.recent before after split recent⟩
    have bounds := numbers.marks.bounds member
    rw [Session.acks, if_pos ((numbers.known_iff _).2 ⟨offset, member, rfl⟩), Session.updateReceivedAckNumber,
      numbers.received, getDelta_seqNumber (a := offset) (b := acked) (by omega)]
    rcases Nat.lt_or_ge acked offset with more | less
    · have positive : (0 : Int) < offset - acked := Int.sub_pos_of_lt (Int.ofNat_lt.2 more)
      rw [if_pos positive, Nat.max_eq_right (Nat.le_of_lt more)]
      exact ⟨rfl, member⟩
    · have negative : ¬(0 : Int) < offset - acked :=
        Int.not_lt.2 (Int.sub_nonpos_of_le (Int.ofNat_le.2 less))
      rw [if_neg negative, Nat.max_eq_left less, numbers.received]
      exact ⟨rfl, numbers.among⟩

end

/-! ## What a segment changes -/

def Unsized : Entry → Prop
  | .ps2 _ => True
  | .session packet => packet.payload = [] ∧ packet.syn = false ∧ packet.fin = false

structure Heard (s : Connection) (received : UInt32) (t : Connection) : Prop where
  mine : t.mySequenceNumber = s.mySequenceNumber
  old : t.oldMyNumbers = s.oldMyNumbers
  received : t.receivedAckNumber = received
  log : ∃ news, t.log = s.log ++ news ∧ ∀ entry ∈ news, Unsized entry

section

variable {s c d t : Connection} {tcp : Segment} {number : UInt32}

theorem Heard.push (heard : Heard s number c) (rst : Bool) : Heard s number (c.pushRecvBuff rst) := by
  obtain ⟨mine, old, received, news, log, unsized⟩ := heard
  refine ⟨mine, old, received, news ++ [.session { c.createBasePacket with rst }], ?_,
    fun entry member => ?_⟩
  · change c.log ++ _ = _
    rw [log, List.append_assoc]
  · rcases List.mem_append.1 member with member | member
    · exact unsized entry member
    · exact List.mem_singleton.1 member ▸ ⟨rfl, rfl, rfl⟩

theorem Heard.reset (heard : Heard s number c) : Heard s number c.closeByRemoteRST := by
  obtain ⟨mine, old, received, log⟩ := heard.push true
  exact ⟨mine, old, received, log⟩

theorem heard_logged (s : Connection) (tcp : Segment) :
    Heard s s.receivedAckNumber { s with log := s.log ++ [.ps2 tcp] } :=
  ⟨rfl, rfl, rfl, _, rfl, fun _ member => List.mem_singleton.1 member ▸ trivial⟩

theorem acknowledge_received (s : Session) (ack : UInt32) :
    (s.acknowledge ack).mySequenceNumber = s.mySequenceNumber ∧
    (s.acknowledge ack).oldMyNumbers = s.oldMyNumbers ∧
    (s.acknowledge ack).receivedAckNumber = (s.updateReceivedAckNumber ack).receivedAckNumber := by
  unfold Session.acknowledge Session.updateReceivedAckNumber
  split
  · dsimp only
    split <;> exact ⟨rfl, rfl, rfl⟩
  · dsimp only
    split <;> exact ⟨rfl, rfl, rfl⟩

theorem checkNumbers_received (s : Session) (tcp : TcpPacket) (rejectOldSeq : Bool) :
    (s.checkNumbers tcp rejectOldSeq).2.mySequenceNumber = s.mySequenceNumber ∧
    (s.checkNumbers tcp rejectOldSeq).2.oldMyNumbers = s.oldMyNumbers ∧
    (s.checkNumbers tcp rejectOldSeq).2.receivedAckNumber = s.acks tcp.acknowledgementNumber := by
  obtain ⟨mine, old, received⟩ := acknowledge_received s tcp.acknowledgementNumber
  unfold Session.checkNumbers Session.acks
  by_cases known : tcp.acknowledgementNumber = s.mySequenceNumber ∨
      tcp.acknowledgementNumber ∈ s.oldMyNumbers
  · have valid : ¬(tcp.acknowledgementNumber ≠ s.mySequenceNumber ∧
        tcp.acknowledgementNumber ∉ s.oldMyNumbers) := fun ⟨other, unknown⟩ => known.elim other unknown
    rw [if_neg valid, if_pos known]
    dsimp only
    split
    · split
      · exact ⟨mine, old, received⟩
      · split
        · exact ⟨mine, old, received⟩
        · split <;> exact ⟨mine, old, received⟩
    · exact ⟨mine, old, received⟩
  · rw [if_pos (not_or.1 known), if_neg known]
    exact ⟨rfl, rfl, rfl⟩

theorem heard_checked (s : Connection) (tcp : Segment) (windowSize : Int) (rejectOldSeq : Bool) :
    Heard s (s.acks tcp.acknowledgementNumber)
      (Connection.checkNumbers { s with log := s.log ++ [.ps2 tcp], windowSize } tcp rejectOldSeq).2 := by
  obtain ⟨mine, old, received⟩ := checkNumbers_received s.toSession tcp.toTcpPacket rejectOldSeq
  exact ⟨mine, old, received, _, rfl, fun _ member => List.mem_singleton.1 member ▸ trivial⟩

theorem Heard.congr (heard : Heard s number c) (mine : d.mySequenceNumber = c.mySequenceNumber)
    (old : d.oldMyNumbers = c.oldMyNumbers) (received : d.receivedAckNumber = c.receivedAckNumber)
    (log : d.log = c.log) : Heard s number d :=
  ⟨mine.trans heard.mine, old.trans heard.old, received.trans heard.received, log ▸ heard.log⟩

theorem heard_validate (s : Connection) (tcp : Segment) (ignoreOld : Bool) :
    Heard s (s.acks tcp.acknowledgementNumber)
      (Connection.validateEmptyPacket { s with log := s.log ++ [.ps2 tcp] } tcp ignoreOld).2 := by
  have heard := heard_checked s tcp s.windowSize (!ignoreOld)
  unfold Connection.validateEmptyPacket
  dsimp only
  split
  · exact heard.reset
  · split
    · exact heard.reset
    · exact heard

theorem heard_takeData (heard : Heard s number c) (payload : List UInt8) (delta : Int) (host : HostSend) :
    Heard s number (c.takeData payload delta host) := by
  unfold Connection.takeData
  split
  · cases host with
    | fails sent =>
        apply Heard.reset
        exact heard.congr rfl rfl rfl rfl
    | accepts accept =>
        apply Heard.push
        exact heard.congr rfl rfl rfl rfl
  · exact heard.push false

theorem heard_data (host : HostSend) (plain : tcp.syn = false ∧ tcp.rst = false ∧ tcp.urg = false) :
    Heard s (s.acks tcp.acknowledgementNumber)
      (Connection.sendData { s with log := s.log ++ [.ps2 tcp] } tcp host) := by
  have heard := heard_checked s tcp ((tcp.windowSize.toNat * 2 ^ s.windowScale : Int).bmod (2 ^ 32)) false
  unfold Connection.sendData
  rw [plain.1, plain.2.2, Bool.or_self, if_neg Bool.false_ne_true]
  dsimp only [Connection.storeWindow]
  split
  · exact heard.reset
  · split
    · exact heard
    · exact heard_takeData heard _ _ host

theorem heard_send (plain : tcp.syn = false ∧ tcp.rst = false ∧ tcp.urg = false)
    (opened : s.phase ≠ .none) (opening : HostOpen) (host : HostSend) :
    Heard s (if s.phase.checks then s.acks tcp.acknowledgementNumber else s.receivedAckNumber)
      (s.send tcp opening host) := by
  have checked := heard_checked s tcp s.windowSize false
  generalize result : (if s.phase.checks = true then _ else _) = number
  unfold Connection.send
  dsimp only
  rw [plain.2.1, if_neg Bool.false_ne_true]
  split
  case h_1 phase => exact absurd phase opened
  case h_2 phase =>
    rw [show s.phase = _ from phase] at result
    obtain rfl : number = s.receivedAckNumber := result.symm
    exact heard_logged s tcp
  case h_3 phase =>
    rw [show s.phase = _ from phase] at result
    obtain rfl : number = s.acks tcp.acknowledgementNumber := result.symm
    unfold Connection.sendConnected
    rw [plain.1, if_neg Bool.false_ne_true]
    dsimp only
    split
    · exact checked.reset
    · exact checked.congr rfl rfl rfl rfl
  case h_4 phase =>
    rw [show s.phase = _ from phase] at result
    obtain rfl : number = s.acks tcp.acknowledgementNumber := result.symm
    split
    · have heard := heard_validate s tcp false
      unfold Connection.closeByPS2Stage1_2
      dsimp only
      split
      · exact heard
      · apply Heard.push
        exact heard.congr rfl rfl rfl rfl
    · exact heard_data host plain
  case h_5 phase =>
    rw [show s.phase = _ from phase] at result
    obtain rfl : number = s.acks tcp.acknowledgementNumber := result.symm
    unfold Connection.sendNoData
    rw [plain.1, if_neg Bool.false_ne_true]
    exact heard_validate s tcp true
  case h_6 phase =>
    rw [show s.phase = _ from phase] at result
    obtain rfl : number = s.acks tcp.acknowledgementNumber := result.symm
    have heard := heard_validate s tcp true
    unfold Connection.closeByPS2Stage4
    dsimp only
    split
    · exact heard
    · split
      · exact heard.congr rfl rfl rfl rfl
      · exact heard
  case h_7 phase =>
    rw [show s.phase = _ from phase] at result
    obtain rfl : number = s.acks tcp.acknowledgementNumber := result.symm
    split
    · have heard := heard_validate s tcp false
      unfold Connection.closeByRemoteStage3_4
      dsimp only
      split
      · exact heard
      · have took : Heard s (s.acks tcp.acknowledgementNumber) (Connection.takeFIN _) :=
          heard.congr rfl rfl rfl rfl
        exact (took.push false).congr rfl rfl rfl rfl
    · exact heard_data host plain
  case h_8 phase =>
    rw [show s.phase = _ from phase] at result
    obtain rfl : number = s.acks tcp.acknowledgementNumber := result.symm
    have heard := heard_validate s tcp true
    unfold Connection.closeByRemoteStage2_ButAfter4
    dsimp only
    split
    · exact heard
    · split
      · exact heard.congr rfl rfl rfl rfl
      · exact heard
  case h_9 phase =>
    rw [show s.phase = _ from phase] at result
    obtain rfl : number = s.receivedAckNumber := result.symm
    exact (heard_logged s tcp).reset
  case h_10 phase =>
    rw [show s.phase = _ from phase] at result
    obtain rfl : number = s.receivedAckNumber := result.symm
    exact heard_logged s tcp

end

/-! ## What `Recv` sends -/

def Phase.sending : Phase → Bool
  | .sentSynAck | .connected | .closingClosedByPS2 => true
  | _ => false

structure Emits (s : Connection) (host : HostRecv) (packet : Packet) (t : Connection) : Prop where
  log : t.log = s.log ++ [.session packet]
  number : packet.sequenceNumber = s.mySequenceNumber
  payload : packet.payload = s.reads host
  noSyn : packet.syn = false
  some : 0 < (Entry.session packet).size
  fits : ((Entry.session packet).size : Int) ≤ s.maxSize
  mine : t.mySequenceNumber = s.mySequenceNumber + .ofNat (Entry.session packet).size
  old : t.oldMyNumbers = (s.oldMyNumbers ++ [s.mySequenceNumber]).tail
  received : t.receivedAckNumber = s.receivedAckNumber
  room : s.shouldWaitForAck = false
  sending : s.phase.sending = true
  kind : packet.fin = false ∨ packet.payload = [] ∧ t.phase.sending = false

section

variable {s t : Connection} {tcp : Segment} {host : HostRecv}

theorem heard_same (s : Connection) : Heard s s.receivedAckNumber s :=
  ⟨rfl, rfl, rfl, [], (List.append_nil _).symm, fun _ member => absurd member List.not_mem_nil⟩

theorem reads_of_not_asks (quiet : s.asks = false) (host : HostRecv) : s.reads host = [] := by
  cases host with
  | data bytes => exact if_neg (by rw [quiet]; exact Bool.false_ne_true)
  | _ => rfl

theorem emits_data {bytes : List UInt8} (asks : s.asks = true) (sending : s.phase.sending = true)
    (room : s.shouldWaitForAck = false) (answers : s.Answers (.data bytes)) :
    Emits s (.data bytes) { s.createBasePacket with payload := bytes } (s.recvData bytes) := by
  have size : (Entry.session { s.createBasePacket with payload := bytes }).size = bytes.length :=
    Nat.zero_add _
  obtain ⟨nonempty, fits⟩ := answers
  constructor
  · rfl
  · rfl
  · exact (if_pos asks).symm
  · rfl
  · rw [size]
    exact List.length_pos_of_ne_nil nonempty
  · rw [size]
    exact fits
  · rw [size]
    rfl
  · rfl
  · rfl
  · exact room
  · exact sending
  · exact Or.inl rfl

theorem emits_fin {phase : Phase} (sending : s.phase.sending = true) (room : s.shouldWaitForAck = false)
    (some : 0 < s.maxSize) (closing : phase.sending = false) :
    Emits s .endOfStream { s.createBasePacket with fin := true } (s.emitFIN phase) :=
  ⟨rfl, rfl, rfl, rfl, Nat.one_pos, some, rfl, rfl, rfl, room, sending, Or.inr ⟨rfl, closing⟩⟩

theorem recv_effect (opened : s.phase ≠ .sendingSynAck) (answers : s.Answers host) :
    Heard s s.receivedAckNumber (s.recv host) ∧ s.reads host = [] ∨
      ∃ packet, Emits s host packet (s.recv host) := by
  have same := heard_same s
  by_cases pending : s.popped < s.recvBuff.length
  · refine Or.inl ⟨?_, reads_of_not_asks ?_ host⟩
    · unfold Connection.recv
      rw [if_pos pending]
      exact same.congr rfl rfl rfl rfl
    · simp [Connection.asks, pending]
  by_cases receives : s.phase = .connected ∨ s.phase = .closingClosedByPS2
  swap
  · refine Or.inl ⟨?_, reads_of_not_asks ?_ host⟩
    · unfold Connection.recv
      rw [if_neg pending]
      split
      case h_1 phase => exact absurd phase opened
      case h_2 phase => exact same.congr rfl rfl rfl rfl
      case h_3 phase => exact absurd (Or.inl phase) receives
      case h_4 phase => exact absurd (Or.inr phase) receives
      case h_5 => exact same
    · obtain ⟨other, another⟩ := not_or.1 receives
      simp [Connection.asks, other, another]
  have sending : s.phase.sending = true := by rcases receives with at_phase | at_phase <;> rw [at_phase] <;> rfl
  have calls : s.recv host = s.recvHost host := by
    unfold Connection.recv
    rw [if_neg pending]
    rcases receives with at_phase | at_phase <;> rw [at_phase]
  rw [calls]
  unfold Connection.recvHost
  cases waits : s.shouldWaitForAck with
  | true =>
      rw [if_pos rfl]
      exact Or.inl ⟨same, reads_of_not_asks (by simp [Connection.asks, waits]) host⟩
  | false =>
      rw [if_neg Bool.false_ne_true]
      by_cases some : 0 < s.maxSize
      swap
      · rw [if_neg some]
        exact Or.inl ⟨same, reads_of_not_asks (by simp [Connection.asks, Int.not_lt.1 some]) host⟩
      rw [if_pos some]
      have asks : s.asks = true := by
        simp only [Connection.asks, waits, Nat.le_of_not_lt pending, some]
        rcases receives with at_phase | at_phase <;> rw [at_phase] <;> rfl
      cases host with
      | data bytes => exact Or.inr ⟨_, emits_data asks sending waits answers⟩
      | endOfStream =>
          dsimp only
          split
          · exact Or.inr ⟨_, emits_fin sending waits some rfl⟩
          · exact Or.inr ⟨_, emits_fin sending waits some rfl⟩
      | error => exact Or.inl ⟨same.reset, rfl⟩
      | _ => exact Or.inl ⟨same, rfl⟩

/-! ## Phases -/

def Connection.Opened (s : Connection) : Prop := s.phase ≠ .none ∧ s.phase ≠ .sendingSynAck

theorem phase_send (opened : s.Opened) (sent : Sent s tcp t) :
    t.Opened ∧ (t.phase.sending = true → s.phase.sending = true) := by
  have settled {phase : Phase} (at_phase : t.phase = phase) (late : phase ≠ .none ∧ phase ≠ .sendingSynAck)
      (before : phase.sending = true → s.phase.sending = true) :
      t.Opened ∧ (t.phase.sending = true → s.phase.sending = true) :=
    ⟨⟨at_phase ▸ late.1, at_phase ▸ late.2⟩, at_phase ▸ before⟩
  cases sent with
  | reset _ phase => exact settled phase (by decide) fun no => absurd no (by decide)
  | ended _ phase => exact settled phase (by decide) fun no => absurd no (by decide)
  | notOpened fresh => exact absurd fresh opened.1
  | opened fresh => exact absurd fresh opened.1
  | checked checked => exact settled checked.phase opened id
  | connected before phase => exact settled phase (by decide) fun _ => before ▸ rfl
  | data before phase => exact settled phase opened id
  | stage1_2 before _ phase => exact settled phase (by decide) fun _ => before ▸ rfl
  | stage3_4 before _ phase =>
      refine settled phase ?_ fun no => absurd no ?_
      · split <;> decide
      · split <;> decide
  | stage4 _ _ _ phase => exact settled phase (by decide) fun no => absurd no (by decide)
  | stage2 _ _ _ phase => exact settled phase (by decide) fun no => absurd no (by decide)

theorem phase_recv (opened : s.Opened) (received : Received s t) :
    t.Opened ∧ (t.phase.sending = true → s.phase.sending = true) := by
  have settled {phase : Phase} (at_phase : t.phase = phase) (late : phase ≠ .none ∧ phase ≠ .sendingSynAck)
      (before : phase.sending = true → s.phase.sending = true) :
      t.Opened ∧ (t.phase.sending = true → s.phase.sending = true) :=
    ⟨⟨at_phase ▸ late.1, at_phase ▸ late.2⟩, at_phase ▸ before⟩
  cases received with
  | same phase => exact settled phase opened id
  | accepted before => exact absurd before opened.2
  | refused before => exact absurd before opened.2
  | flushed _ phase => exact settled phase (by decide) fun no => absurd no (by decide)
  | data _ phase => exact settled phase opened id
  | fin before =>
      rcases before with ⟨-, phase⟩ | ⟨-, phase⟩
      · exact settled phase (by decide) fun no => absurd no (by decide)
      · exact settled phase (by decide) fun no => absurd no (by decide)
  | reset _ phase => exact settled phase (by decide) fun no => absurd no (by decide)

end

/-! ## The invariant -/

structure StreamInv (s : Connection) (seen : Seen) : Prop where
  opened : s.Opened
  numbers : ∃ offsets, Numbers s seen.acked offsets
  read : payloads s.log = seen.read
  seqs : ∀ before packet after, s.log = before ++ .session packet :: after →
    0 < (Entry.session packet).size → packet.sequenceNumber = seqNumber (sentSize before)
  sizes : ∀ before packet after, s.log = before ++ .session packet :: after →
    packet.payload ≠ [] ∨ packet.fin = true → sentSize before = 1 + (payloads before).length
  finLast : ∀ before packet after, s.log = before ++ .session packet :: after → packet.fin = true →
    sends after = 0
  free : s.phase.sending = true → (∀ packet, .session packet ∈ s.log → packet.fin = false) ∧
    sentSize s.log = 1 + (payloads s.log).length

section

variable {s t : Connection} {seen : Seen} {log news : List Entry} {entry : Entry} {packet : Packet}
  {offsets : List Nat} {acked : Nat}

theorem Unsized.size (unsized : Unsized entry) : entry.size = 0 := by
  cases entry with
  | ps2 => rfl
  | session packet =>
      obtain ⟨payload, syn, fin⟩ := unsized
      simp [Entry.size, payload, syn, fin]

theorem Unsized.data (unsized : Unsized entry) : entry.data = [] := by
  cases entry with
  | ps2 => rfl
  | session packet => exact unsized.1

theorem unsized_news (unsized : ∀ entry ∈ news, Unsized entry) :
    sentSize news = 0 ∧ sends news = 0 ∧ payloads news = [] := by
  refine ⟨?_, ?_, ?_⟩
  · induction news with
    | nil => rfl
    | cons entry news ih =>
        rw [← List.singleton_append, sentSize_append, sentSize_single, (unsized entry List.mem_cons_self).size,
          ih fun other member => unsized other (List.mem_cons_of_mem _ member)]
  · refine List.countP_eq_zero.2 fun entry among => ?_
    rw [(unsized entry among).size]
    exact Bool.false_ne_true
  · exact List.flatMap_eq_nil_iff.2 fun entry among => (unsized entry among).data

theorem payloads_append (first second : List Entry) :
    payloads (first ++ second) = payloads first ++ payloads second := List.flatMap_append

theorem Marks.append (marks : Marks log offsets) (unsized : ∀ entry ∈ news, Unsized entry) :
    Marks (log ++ news) offsets := by
  induction news generalizing log with
  | nil => rwa [List.append_nil]
  | cons entry news ih =>
      rw [← List.singleton_append, ← List.append_assoc]
      exact ih (marks.unsized _ (unsized entry List.mem_cons_self).size)
        fun other member => unsized other (List.mem_cons_of_mem _ member)

variable (log) in
theorem split_append {before after : List Entry} (split : log ++ news = before ++ entry :: after) :
    (∃ rest, log = before ++ entry :: rest ∧ after = rest ++ news) ∨
      ∃ first, before = log ++ first ∧ news = first ++ entry :: after := by
  rcases List.append_eq_append_iff.1 split with ⟨first, longer, rest⟩ | ⟨first, longer, rest⟩
  · exact Or.inr ⟨first, longer, rest⟩
  · cases first with
    | nil =>
        rw [List.append_nil] at longer
        exact Or.inr ⟨[], by rw [longer, List.append_nil], rest.symm⟩
    | cons head first =>
        obtain ⟨rfl, rfl⟩ := List.cons.inj rest
        exact Or.inl ⟨first, longer, rfl⟩

theorem inv_heard (inv : StreamInv s seen) (numbers : Numbers s seen.acked offsets) (member : acked ∈ offsets)
    (heard : Heard s (seqNumber acked) t) (opened : t.Opened)
    (sending : t.phase.sending = true → s.phase.sending = true) : StreamInv t ⟨acked, seen.read⟩ := by
  obtain ⟨mine, old, received, news, log, unsized⟩ := heard
  obtain ⟨sizes, none, nothing⟩ := unsized_news unsized
  have inside {before after : List Entry} {packet : Packet} (split : t.log = before ++ .session packet :: after)
      (sized : ¬Unsized (.session packet)) :
      ∃ rest, s.log = before ++ .session packet :: rest ∧ after = rest ++ news := by
    rcases split_append _ (log.symm.trans split) with old | ⟨first, -, fresh⟩
    · exact old
    · exact absurd (unsized _ (fresh ▸ List.mem_append_right _ List.mem_cons_self)) sized
  constructor
  · exact opened
  · refine ⟨offsets, log ▸ numbers.marks.append unsized, ?_, member, received⟩
    rw [old, mine, numbers.known]
  · rw [log, payloads_append, nothing, List.append_nil]
    exact inv.read
  · intro before packet after split some
    obtain ⟨rest, before_split, -⟩ := inside split fun unsized => Nat.ne_of_gt some unsized.size
    exact inv.seqs before packet rest before_split some
  · intro before packet after split carries
    obtain ⟨rest, before_split, -⟩ := inside split fun unsized =>
      carries.elim (absurd unsized.1) fun fin => Bool.false_ne_true (unsized.2.2.symm.trans fin)
    exact inv.sizes before packet rest before_split carries
  · intro before packet after split fin
    obtain ⟨rest, before_split, rfl⟩ := inside split fun unsized =>
      Bool.false_ne_true (unsized.2.2.symm.trans fin)
    rw [sends_append, none, Nat.add_zero]
    exact inv.finLast before packet rest before_split fin
  · intro now
    obtain ⟨noFin, size⟩ := inv.free (sending now)
    rw [log, sentSize_append, sizes, payloads_append, nothing, List.append_nil]
    refine ⟨fun packet member => ?_, size⟩
    rcases List.mem_append.1 member with member | member
    · exact noFin packet member
    · exact (unsized _ member).2.2

theorem maxSize_le (s : Connection) : s.maxSize ≤ 0xFFFF := by
  have bound := s.maxSegmentSize.toNat_lt
  refine Int.le_trans (Int.min_le_left _ _) ?_
  split <;> omega

theorem inv_emits {host : HostRecv} (inv : StreamInv s seen) (emits : Emits s host packet t) (opened : t.Opened) :
    StreamInv t ⟨seen.acked, seen.read ++ s.reads host⟩ := by
  obtain ⟨offsets, numbers⟩ := inv.numbers
  obtain ⟨noFin, size⟩ := inv.free emits.sending
  have bound : (Entry.session packet).size ≤ 0xFFFF := by
    have := Int.le_trans emits.fits (maxSize_le s)
    omega
  have data : payloads t.log = payloads s.log ++ packet.payload := by
    rw [emits.log, payloads_append]
    exact congrArg _ (List.append_nil _)
  have newOne {before after : List Entry} {other : Packet} (split : t.log = before ++ .session other :: after) :
      (∃ rest, s.log = before ++ .session other :: rest ∧ after = rest ++ [.session packet]) ∨
        before = s.log ∧ other = packet ∧ after = [] := by
    rcases split_append _ (emits.log.symm.trans split) with old | ⟨first, longer, fresh⟩
    · exact Or.inl old
    · obtain ⟨rfl, same⟩ : first = [] ∧ [Entry.session packet] = .session other :: after := by
        cases first with
        | nil => exact ⟨rfl, fresh⟩
        | cons head first => simp at fresh
      obtain ⟨same, rest⟩ := List.cons.inj same
      exact Or.inr ⟨longer.trans (List.append_nil _), (Entry.session.inj same).symm, rest.symm⟩
  constructor
  · exact opened
  · refine ⟨_, emits.log ▸ numbers.marks.sized _ emits.some bound, ?_, ?_, emits.received.trans numbers.received⟩
    · rw [emits.old, emits.mine, numbers.known, List.map_append, List.map_tail, numbers.mine, ← seqNumber_add]
      rfl
    · obtain ⟨head, rest, rfl⟩ : ∃ head rest, offsets = head :: rest :=
        List.exists_cons_of_length_eq_add_one numbers.marks.length
      refine List.mem_append_left _ ((List.mem_cons.1 numbers.among).resolve_left fun same => ?_)
      have atHead : (s.oldMyNumbers ++ [s.mySequenceNumber]).head? = some (seqNumber seen.acked) := by
        rw [numbers.known, same]
        rfl
      have length := congrArg List.length numbers.known
      rw [List.length_append, List.length_map, numbers.marks.length] at length
      have old : s.oldMyNumbers ≠ [] := List.ne_nil_of_length_pos (by
        rw [Nat.succ.inj length]
        decide)
      rw [List.head?_append_of_ne_nil _ old] at atHead
      have waits : s.shouldWaitForAck = true := decide_eq_true (atHead.trans (congrArg some numbers.received.symm))
      exact Bool.false_ne_true (emits.room.symm.trans waits)
  · rw [data, emits.payload, inv.read]
  · intro before other after split some
    rcases newOne split with ⟨rest, before_split, -⟩ | ⟨rfl, rfl, -⟩
    · exact inv.seqs before other rest before_split some
    · rw [emits.number, numbers.mine]
  · intro before other after split carries
    rcases newOne split with ⟨rest, before_split, -⟩ | ⟨rfl, rfl, -⟩
    · exact inv.sizes before other rest before_split carries
    · exact size
  · intro before other after split fin
    rcases newOne split with ⟨rest, before_split, -⟩ | ⟨rfl, rfl, rfl⟩
    · have none := noFin other (before_split ▸ List.mem_append_right _ List.mem_cons_self)
      exact absurd (none.symm.trans fin) Bool.false_ne_true
    · rfl
  · intro now
    have noNewFin : packet.fin = false :=
      emits.kind.resolve_right fun ⟨_, ended⟩ => Bool.false_ne_true (ended.symm.trans now)
    refine ⟨fun other member => ?_, ?_⟩
    · rw [emits.log] at member
      rcases List.mem_append.1 member with member | member
      · exact noFin other member
      · exact Entry.session.inj (List.mem_singleton.1 member) ▸ noNewFin
    · rw [data, emits.log, sentSize_append, size, List.length_append, sentSize_single, Entry.size,
        emits.noSyn, noNewFin]
      simp
      omega

theorem inv_move {before after : Connection × Seen} (inv : StreamInv before.1 before.2)
    (move : Move before after) : StreamInv after.1 after.2 := by
  obtain ⟨offsets, numbers⟩ := inv.numbers
  cases move with
  | @recv s seen host answers =>
      obtain ⟨opened, sending⟩ := phase_recv inv.opened (recv_cases s host)
      rcases recv_effect inv.opened.2 answers with ⟨heard, nothing⟩ | ⟨packet, emits⟩
      · rw [numbers.received] at heard
        dsimp only
        rw [nothing, List.append_nil]
        exact inv_heard inv numbers numbers.among heard opened sending
      · exact inv_emits inv emits opened
  | @ack s seen tcp opening host offset plain sent number last =>
      obtain ⟨opened, sending⟩ := phase_send inv.opened (send_cases s tcp opening host)
      have heard := heard_send plain inv.opened.1 opening host
      obtain ⟨acks, member⟩ := numbers.acks sent last
      rw [number, acks, numbers.received] at heard
      dsimp only
      cases checks : s.phase.checks with
      | true =>
          rw [checks] at heard
          exact inv_heard inv numbers member heard opened sending
      | false =>
          rw [checks] at heard
          exact inv_heard inv numbers numbers.among heard opened sending

theorem marks_nil : Marks [] (List.replicate (oldMyNumCount + 1) 0) := by
  have nothing {before after : List Entry} (split : [] = before ++ after) : before = [] ∧ after = [] :=
    List.append_eq_nil_iff.1 split.symm
  refine ⟨List.length_replicate, List.pairwise_replicate.2 (Or.inr (Nat.le_refl 0)), fun _ _ _ => Nat.zero_le _, fun o member => ?_,
    fun before after split _ => ?_, fun before after split many => ?_⟩
  · rw [List.eq_of_mem_replicate member]
    exact ⟨[], [], rfl, rfl⟩
  · obtain ⟨rfl, rfl⟩ := nothing split
    rfl
  · obtain ⟨rfl, rfl⟩ := nothing split
    exact absurd many (by decide)

theorem accept_eq {syn : Segment} (isSyn : syn.syn = true) (noRst : syn.rst = false) (host : HostSend) :
    ∃ packet : Packet, (Connection.accept syn host).log = [.ps2 syn, .session packet] ∧
      packet.payload = [] ∧ packet.syn = true ∧ packet.fin = false ∧ packet.sequenceNumber = 1 ∧
      (Connection.accept syn host).phase = .sentSynAck ∧
      (Connection.accept syn host).oldMyNumbers = List.replicate oldMyNumCount 1 ∧
      (Connection.accept syn host).mySequenceNumber = 2 ∧
      (Connection.accept syn host).receivedAckNumber = 1 := by
  obtain ⟨mss, scale, stamps, same⟩ := options_same
    { Connection.init with
      log := [.ps2 syn]
      toSession := { Connection.init.toSession with
        expectedSeqNumber := syn.sequenceNumber + 1
        receivedPS2SeqNumbers := List.replicate receivedPS2SeqNumberCount syn.sequenceNumber
        mySequenceNumber := 1
        oldMyNumbers := List.replicate oldMyNumCount 1 } } syn.options
  have sent : ∃ window : Int, Connection.init.send syn .connecting host =
      { Connection.init with
        log := [.ps2 syn]
        toSession := { Connection.init.toSession with
          expectedSeqNumber := syn.sequenceNumber + 1
          receivedPS2SeqNumbers := List.replicate receivedPS2SeqNumberCount syn.sequenceNumber
          mySequenceNumber := 1
          oldMyNumbers := List.replicate oldMyNumCount 1 }
        maxSegmentSize := mss
        windowScale := scale
        sendTimeStamps := stamps
        windowSize := window
        phase := .sendingSynAck } := by
    unfold Connection.send
    dsimp only
    rw [noRst, if_neg Bool.false_ne_true]
    change ∃ window : Int, Connection.sendConnect _ syn .connecting = _
    unfold Connection.sendConnect
    rw [isSyn, if_neg (by decide)]
    dsimp only
    rw [show Connection.init.log ++ [Entry.ps2 syn] = [.ps2 syn] from rfl, same]
    exact ⟨_, rfl⟩
  obtain ⟨window, sent⟩ := sent
  unfold Connection.accept
  rw [sent]
  exact ⟨_, rfl, rfl, rfl, rfl, rfl, rfl, rfl, rfl, rfl⟩

theorem inv_accept {syn : Segment} (isSyn : syn.syn = true) (noRst : syn.rst = false) (host : HostSend) :
    StreamInv (Connection.accept syn host) ⟨0, []⟩ := by
  obtain ⟨packet, log, payload, isSynAck, noFin, number, phase, old, mine, received⟩ :=
    accept_eq isSyn noRst host
  have size : (Entry.session packet).size = 1 := by simp [Entry.size, payload, isSynAck, noFin]
  have only {before after : List Entry} {other : Packet}
      (split : (Connection.accept syn host).log = before ++ .session other :: after) :
      before = [.ps2 syn] ∧ other = packet := by
    rw [log] at split
    rcases split_append [.ps2 syn] split with ⟨rest, old, -⟩ | ⟨first, longer, fresh⟩
    · rcases List.append_eq_cons_iff.1 old.symm with ⟨-, same⟩ | ⟨more, -, same⟩
      · exact absurd (List.cons.inj same).1 Entry.noConfusion
      · simp at same
    · cases first with
      | nil => exact ⟨longer, (Entry.session.inj (List.cons.inj fresh).1).symm⟩
      | cons head first => simp at fresh
  constructor
  · exact ⟨by rw [phase]; decide, by rw [phase]; decide⟩
  · have marks := (marks_nil.unsized (.ps2 syn) rfl).sized (.session packet)
      (by rw [size]; exact Nat.one_pos) (by rw [size]; decide)
    refine ⟨_, by rw [log]; exact marks, ?_, ?_, received⟩
    · rw [old, mine, size]
      rfl
    · exact List.mem_append_left _ List.mem_cons_self
  · rw [log]
    simp [payloads, Entry.data, payload]
  · intro before other after split _
    obtain ⟨rfl, rfl⟩ := only split
    rw [number]
    rfl
  · intro before other after split carries
    obtain ⟨rfl, rfl⟩ := only split
    exact carries.elim (absurd payload) fun fin => absurd (noFin.symm.trans fin) Bool.false_ne_true
  · intro before other after split fin
    obtain ⟨rfl, rfl⟩ := only split
    exact absurd (noFin.symm.trans fin) Bool.false_ne_true
  · intro _
    rw [log]
    refine ⟨fun other member => ?_, ?_⟩
    · simp only [List.mem_cons, List.not_mem_nil, or_false, reduceCtorEq, false_or] at member
      exact Entry.session.inj member ▸ noFin
    · simp [sentSize, payloads, Entry.data, payload, size, show (Entry.ps2 syn).size = 0 from rfl]

/-! ## What follows -/

theorem outstanding_emits {host : HostRecv} (inv : StreamInv s seen) (emits : Emits s host packet t)
    (next : StreamInv t ⟨seen.acked, seen.read ++ s.reads host⟩) : t.outstanding ≤ s.windowSize % 2 ^ 32 := by
  obtain ⟨offsets, numbers⟩ := inv.numbers
  obtain ⟨offsets', numbers'⟩ := next.numbers
  obtain ⟨le, near, -, before⟩ := numbers.outstanding
  obtain ⟨-, -, -, after⟩ := numbers'.outstanding
  have fits : ((Entry.session packet).size : Int) ≤ (s.windowSize - s.outstanding).bmod (2 ^ 32) :=
    Int.le_trans emits.fits (Int.min_le_right _ _)
  have span : oldMyNumCount * 0xFFFF < 2 ^ 31 := by decide
  have bound := Int.bmod_lt (x := s.windowSize - s.outstanding) (m := 2 ^ 32) (by decide)
  have residue := Int.bmod_emod (x := s.windowSize - s.outstanding) (m := 2 ^ 32)
  rw [after, emits.log, sentSize_append, sentSize_single]
  rw [before] at fits bound residue
  generalize (s.windowSize - ((sentSize s.log : Int) - seen.acked)).bmod (2 ^ 32) = room at *
  push_cast at *
  omega

theorem streams_of_inv (inv : StreamInv s seen) : Streams s seen := by
  obtain ⟨offsets, numbers⟩ := inv.numbers
  obtain ⟨le, -, outstanding, -⟩ := numbers.outstanding
  have sized {packet : Packet} (carries : packet.payload ≠ [] ∨ packet.fin = true) :
      0 < (Entry.session packet).size := by
    rcases carries with data | fin
    · have some := List.length_pos_of_ne_nil data
      simp only [Entry.size]
      omega
    · simp [Entry.size, fin]
  constructor
  · intro before packet after split carries
    rw [inv.seqs before packet after split (sized carries), inv.sizes before packet after split carries,
      seqNumber, UInt32.ofNat_add, ← UInt32.add_assoc]
    rfl
  · exact inv.read
  · exact inv.finLast
  · exact le
  · exact outstanding
  · intro host answers sends
    rcases recv_effect inv.opened.2 answers with ⟨heard, -⟩ | ⟨packet, emits⟩
    · exact absurd heard.mine sends
    · exact outstanding_emits inv emits (inv_emits inv emits (phase_recv inv.opened (recv_cases s host)).1)
  · intro before packet after split some few tcp number empty bad
    have recent := numbers.marks.recent (before ++ [.session packet]) after (by simp [split]) (Nat.le_of_lt few)
    have member := List.mem_iff_getElem?.2 ⟨_, recent⟩
    have known := (numbers.known_iff tcp.acknowledgementNumber).2 ⟨_, member, by
      rw [sentSize_append, sentSize_single, seqNumber_add, ← inv.seqs before packet after split some, number]⟩
    have refused := (checkNumbers_valid (s := s.toSession) tcp known).2.1 bad
    rw [empty] at refused
    exact Nat.lt_irrefl 0 refused.2.1

end

end Pcsx2.Tcp
