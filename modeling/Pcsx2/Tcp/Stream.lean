import Pcsx2.Foundation.Memory
import Pcsx2.Foundation.Run
import Pcsx2.Tcp.Session

/-!
# The byte stream from the PS2 to the host

The PS2 sends slices of one stream, new ones and old ones again. What the host socket accepts is
compared with the stream's prefix up to `expectedSeqNumber`.
-/

namespace Pcsx2.Tcp
open Foundation

section

variable (stream : Nat → UInt8) (isn : UInt32)

def seqOf (offset : Nat) : UInt32 := isn + 1 + .ofNat offset

def segment (offset length : Nat) (ack : UInt32) : TcpPacket :=
  ⟨seqOf isn offset, ack, load stream offset length⟩

inductive Event where
  /-- The PS2 sends a slice of the stream; `accept` is the host socket's part. -/
  | segment (offset length : Nat) (ack : UInt32) (accept : Nat → Nat)
  | connectTCPComplete (success : Bool)
  | recvData (recived : UInt32)
  | closeByRemoteStage1
  | flushed

/-- Steps of the thread that sends and the thread that receives. A slice starts at or before what
the PS2 was last told to send. -/
inductive Step : Event → Session → Session → Prop
  | segment {s offset length ack accept} (sent : offset ≤ s.client.length)
      (valid : ack = s.mySequenceNumber ∨ ack ∈ s.oldMyNumbers) :
      Step (.segment offset length ack accept) s (s.send (segment stream isn offset length ack) accept)
  | connectTCPComplete {s success} (connecting : s.state = .sendingSynAck) :
      Step (.connectTCPComplete success) s (s.connectTCPComplete success)
  | recvData {s recived} (connected : s.state = .connected) (room : s.shouldWaitForAck = false) :
      Step (.recvData recived) s (s.recvData recived)
  | closeByRemoteStage1 {s} (connected : s.state = .connected) (room : s.shouldWaitForAck = false) :
      Step .closeByRemoteStage1 s s.closeByRemoteStage1
  | flushed {s} (closing : s.state = .closeCompletedFlushBuffer) :
      Step .flushed s { s with state := .closeCompleted }

/-- The host has the prefix of the stream up to `expectedSeqNumber`, and no RST was sent. -/
structure Delivered (s : Session) : Prop where
  client : s.client = load stream 0 s.client.length
  expected : s.expectedSeqNumber = seqOf isn s.client.length
  noReset : ∀ r ∈ s.recvBuff, r.rst = false

/-- Packets in these states go to `SendData`. -/
def Session.Receiving (s : Session) : Prop :=
  s.state = .connected ∨ s.state = .closingClosedByRemote

/-- What a data segment must be to be delivered: new from its first byte on, or old up to its last
one, and then not numbered like one of the last five. -/
def Orderly (s : Session) : Event → Prop
  | .segment offset length _ _ => s.Receiving → 0 < length →
      if seqOf isn offset = s.expectedSeqNumber then
        load stream offset length = load stream s.client.length length
      else
        seqOf isn offset ∉ s.receivedPS2SeqNumbers ∧
        (length : Int) ≤ getDelta s.expectedSeqNumber (seqOf isn offset)
  | _ => True

def OrderlyStep (s t : Session) : Prop := ∃ event, Orderly stream isn s event ∧ Step stream isn event s t

end

/-! ## Sequence numbers -/

theorem getDelta_eq (a b : UInt32) : getDelta a b = ((a.toNat : Int) - b.toNat).bmod (2 ^ 32) := by
  have := a.toNat_lt
  have := b.toNat_lt
  have wrapped : (4294967295 - b + a + 1).toNat = (4294967296 - b.toNat + a.toNat) % 4294967296 := by
    simp only [UInt32.toNat_add, UInt32.toNat_sub, UInt32.reduceToNat]
    omega
  simp only [getDelta, wrapped]
  generalize a.toNat = x at *
  generalize b.toNat = y at *
  unfold Int.bmod
  by_cases big : 4294967295 < 2 * ((x : Int) - y)
  · simp only [big, if_true]
    split <;> omega
  · simp only [big, if_false]
    split <;> omega

theorem ofInt_getDelta (a b : UInt32) : UInt32.ofInt (getDelta a b) = a - b := by
  have := a.toNat_lt
  have := b.toNat_lt
  have residue := Int.bmod_emod (x := (a.toNat : Int) - b.toNat) (m := 2 ^ 32)
  rw [getDelta_eq, UInt32.ofInt, ← UInt32.toNat_inj]
  simp only [UInt32.toNat_sub, UInt32.toNat_ofNat']
  omega

@[simp] theorem getDelta_self (a : UInt32) : getDelta a a = 0 := by
  rw [getDelta_eq, Int.sub_self]
  rfl

theorem seqOf_add (isn : UInt32) (offset n : Nat) :
    seqOf isn (offset + n) = seqOf isn offset + .ofNat n := by
  rw [seqOf, UInt32.ofNat_add, ← UInt32.add_assoc]
  rfl

/-! ## Sending -/

theorem sendLoop_eq (payload : List UInt8) (accept : Nat → Nat) (sent : Nat) :
    sendLoop payload accept sent = payload.drop sent := by
  fun_induction sendLoop payload accept sent with
  | case1 sent more ret ih =>
      rw [ih, ← List.drop_drop, List.take_append_drop]
  | case2 sent done => exact (List.drop_eq_nil_of_le (by omega)).symm

/-! ## Checks -/

theorem acknowledge_eq (s : Session) (ack : UInt32) :
    ∃ acked number, s.acknowledge ack =
      { s with myNumberACKed := acked, receivedAckNumber := number } := by
  unfold Session.acknowledge Session.updateReceivedAckNumber
  split <;> dsimp only <;> split <;> exact ⟨_, _, rfl⟩

section

variable {stream : Nat → UInt8} {isn : UInt32} {s : Session} {tcp : TcpPacket}

theorem checkNumbers_valid (tcp : TcpPacket) (valid : tcp.acknowledgementNumber = s.mySequenceNumber ∨
      tcp.acknowledgementNumber ∈ s.oldMyNumbers) :
    (s.checkNumbers tcp false).2 = s.acknowledge tcp.acknowledgementNumber ∧
    ((s.checkNumbers tcp false).1 = .bad ↔ tcp.sequenceNumber ≠ s.expectedSeqNumber ∧
      0 < tcp.payload.length ∧ tcp.sequenceNumber ∈ s.receivedPS2SeqNumbers) := by
  have known : ¬(tcp.acknowledgementNumber ≠ s.mySequenceNumber ∧
      tcp.acknowledgementNumber ∉ s.oldMyNumbers) := by
    rintro ⟨other, unknown⟩
    exact valid.elim other unknown
  obtain ⟨acked, number, same⟩ := acknowledge_eq s tcp.acknowledgementNumber
  rw [Session.checkNumbers, if_neg known, same]
  dsimp only
  split
  · rename_i ne
    rw [if_neg Bool.false_ne_true]
    split
    · rename_i empty
      simp [empty]
    · rename_i nonempty
      split
      · rename_i fresh
        simp [fresh]
      · rename_i old
        simp [ne, Nat.pos_of_ne_zero nonempty, not_not.1 old]
  · rename_i expected
    simp [not_not.1 expected]

theorem not_delivered_closeByRemoteRST : ¬Delivered stream isn s.closeByRemoteRST := fun delivered =>
  Bool.false_ne_true (delivered.noReset ⟨s.mySequenceNumber, s.expectedSeqNumber, true⟩
    (List.mem_append_right _ (List.mem_singleton.2 rfl))).symm

theorem delivered_reply : Delivered stream isn (s.reply false) ↔ Delivered stream isn s := by
  constructor
  · intro delivered
    exact ⟨delivered.client, delivered.expected, fun r member =>
      delivered.noReset r (List.mem_append_left _ member)⟩
  · intro delivered
    refine ⟨delivered.client, delivered.expected, fun r member => ?_⟩
    rcases List.mem_append.1 member with member | member
    · exact delivered.noReset r member
    · rw [List.mem_singleton.1 member]

theorem delivered_acknowledge (delivered : Delivered stream isn s) (ack : UInt32) :
    Delivered stream isn (s.acknowledge ack) := by
  obtain ⟨acked, number, same⟩ := acknowledge_eq s ack
  rw [same]
  exact ⟨delivered.client, delivered.expected, delivered.noReset⟩

/-! ## Data -/

/-- The part of `SendData` that passes the payload to the host. -/
def Session.pass (s : Session) (payload : List UInt8) (delta : Int) : Session :=
  { s with
    receivedPS2SeqNumbers := s.receivedPS2SeqNumbers.tail ++ [s.expectedSeqNumber]
    client := s.client ++ payload
    expectedSeqNumber := s.expectedSeqNumber + .ofInt (payload.length - delta) }

theorem sendData_eq (tcp : TcpPacket) (valid : tcp.acknowledgementNumber = s.mySequenceNumber ∨
      tcp.acknowledgementNumber ∈ s.oldMyNumbers) (accept : Nat → Nat) :
    s.sendData tcp accept =
      let t := s.acknowledge tcp.acknowledgementNumber
      let delta := getDelta s.expectedSeqNumber tcp.sequenceNumber
      if tcp.sequenceNumber ≠ s.expectedSeqNumber ∧ 0 < tcp.payload.length ∧
          tcp.sequenceNumber ∈ s.receivedPS2SeqNumbers then t.closeByRemoteRST
      else if tcp.payload.length = 0 then t
      else if 0 < (tcp.payload.length : Int) - delta then (t.pass tcp.payload delta).reply false
      else t.reply false := by
  obtain ⟨same, refused⟩ := checkNumbers_valid _ valid
  obtain ⟨acked, number, known⟩ := acknowledge_eq s tcp.acknowledgementNumber
  unfold Session.sendData
  obtain ⟨result, t, checked⟩ : ∃ result t, s.checkNumbers tcp false = (result, t) := ⟨_, _, rfl⟩
  rw [checked] at same refused ⊢
  obtain rfl : t = s.acknowledge tcp.acknowledgementNumber := same
  simp only [refused, sendLoop_eq, List.drop_zero]
  rw [known]
  split
  · rfl
  · split
    · rfl
    · split <;> rfl

theorem delivered_pass_iff (delivered : Delivered stream isn s) (offset length : Nat) (delta : Int) :
    Delivered stream isn (s.pass (load stream offset length) delta) ↔
      UInt32.ofInt delta = 0 ∧ load stream offset length = load stream s.client.length length := by
  have next : (s.pass (load stream offset length) delta).client.length =
      s.client.length + length := by
    simp [Session.pass]
  have number : (s.pass (load stream offset length) delta).expectedSeqNumber =
      seqOf isn s.client.length + (.ofNat length - .ofInt delta) := by
    have number : UInt32.ofInt length = .ofNat length := by
      rw [UInt32.ofInt, ← UInt32.toNat_inj, UInt32.toNat_ofNat', UInt32.toNat_ofNat']
      omega
    rw [Session.pass, load_length, delivered.expected, Int.sub_eq_add_neg, UInt32.ofInt_add,
      UInt32.ofInt_neg, number, UInt32.sub_eq_add_neg]
  constructor
  · intro passed
    have client := passed.client
    have expected := passed.expected
    rw [next] at client expected
    rw [number, seqOf_add, UInt32.add_right_inj] at expected
    rw [load_add, Nat.zero_add, ← delivered.client] at client
    have zero : UInt32.ofInt delta = 0 := by grind
    exact ⟨zero, List.append_cancel_left client⟩
  · rintro ⟨zero, continued⟩
    refine ⟨?_, ?_, delivered.noReset⟩
    · rw [next, load_add, Nat.zero_add, ← continued, ← delivered.client]
      rfl
    · rw [next, seqOf_add, number, zero, UInt32.sub_zero]

theorem seqOf_ne_delta {a b : UInt32} (ne : b ≠ a) : UInt32.ofInt (getDelta a b) ≠ 0 := by
  rw [ofInt_getDelta]
  grind

theorem delivered_sendData_iff (delivered : Delivered stream isn s) {offset length : Nat}
    {ack : UInt32} (valid : ack = s.mySequenceNumber ∨ ack ∈ s.oldMyNumbers) (accept : Nat → Nat) :
    Delivered stream isn (s.sendData (segment stream isn offset length ack) accept) ↔
      (0 < length → if seqOf isn offset = s.expectedSeqNumber then
          load stream offset length = load stream s.client.length length
        else
          seqOf isn offset ∉ s.receivedPS2SeqNumbers ∧
          (length : Int) ≤ getDelta s.expectedSeqNumber (seqOf isn offset)) := by
  have acknowledged := delivered_acknowledge delivered ack
  have client : (s.acknowledge ack).client = s.client := by
    obtain ⟨acked, number, same⟩ := acknowledge_eq s ack
    rw [same]
  rw [sendData_eq _ valid]
  simp only [segment, load_length]
  by_cases nonempty : 0 < length
  · by_cases current : seqOf isn offset = s.expectedSeqNumber
    · simp only [nonempty, current, ne_eq, not_true, false_and, if_false, nonempty.ne', if_true,
        getDelta_self, Int.sub_zero, Int.natCast_pos, delivered_reply, forall_const]
      rw [delivered_pass_iff acknowledged, client]
      exact and_iff_right rfl
    · by_cases old : seqOf isn offset ∈ s.receivedPS2SeqNumbers
      · simp [nonempty, current, old, not_delivered_closeByRemoteRST]
      · simp only [nonempty, current, old, ne_eq, not_false_eq_true, and_false, if_false,
          nonempty.ne', forall_const, true_and]
        split
        · rename_i new
          rw [delivered_reply, delivered_pass_iff acknowledged]
          exact iff_of_false (fun ⟨zero, _⟩ => seqOf_ne_delta current zero) (by omega)
        · rename_i covered
          exact iff_of_true (delivered_reply.2 acknowledged) (by omega)
  · obtain rfl : length = 0 := by omega
    simpa using acknowledged

theorem sendData_state {offset length : Nat} {ack : UInt32} {accept : Nat → Nat}
    (valid : ack = s.mySequenceNumber ∨ ack ∈ s.oldMyNumbers)
    (delivered : Delivered stream isn (s.sendData (segment stream isn offset length ack) accept)) :
    (s.sendData (segment stream isn offset length ack) accept).state = s.state := by
  obtain ⟨acked, number, same⟩ := acknowledge_eq s ack
  have equal := sendData_eq (segment stream isn offset length ack) valid accept
  rw [equal] at delivered ⊢
  change (s.acknowledge ack) = _ at same
  dsimp only at delivered ⊢
  split at delivered
  · exact absurd delivered not_delivered_closeByRemoteRST
  · rename_i passed
    rw [if_neg passed]
    simp only [segment, same]
    split
    · rfl
    · split <;> rfl

/-! ## Runs -/

structure Inv (stream : Nat → UInt8) (isn : UInt32) (s : Session) : Prop where
  delivered : Delivered stream isn s
  alive : s.state ≠ .closeCompletedFlushBuffer
  unsent : s.state = .sendingSynAck ∨ s.state = .sentSynAck → s.client = []

theorem inv_sendConnect : Inv stream isn (.sendConnect isn) where
  delivered := ⟨rfl, (UInt32.add_zero _).symm, fun _ member => absurd member List.not_mem_nil⟩
  alive := by simp [Session.sendConnect]
  unsent := fun _ => rfl

theorem inv_sendConnected (inv : Inv stream isn s) (waiting : s.state = .sentSynAck)
    {offset length : Nat} {ack : UInt32} (sent : offset ≤ s.client.length)
    (valid : ack = s.mySequenceNumber ∨ ack ∈ s.oldMyNumbers) :
    Inv stream isn (s.sendConnected (segment stream isn offset length ack)) := by
  have empty := inv.unsent (.inr waiting)
  obtain rfl : offset = 0 := by simpa [empty] using sent
  have current : seqOf isn 0 = s.expectedSeqNumber := by
    rw [inv.delivered.expected, empty]
    rfl
  obtain ⟨same, refused⟩ := checkNumbers_valid (segment stream isn 0 length ack) valid
  unfold Session.sendConnected
  obtain ⟨result, t, checked⟩ : ∃ result t,
    s.checkNumbers (segment stream isn 0 length ack) false = (result, t) := ⟨_, _, rfl⟩
  rw [checked] at same refused ⊢
  obtain rfl : t = s.acknowledge ack := same
  dsimp only at refused ⊢
  rw [if_neg fun bad => (refused.1 bad).1 current]
  have delivered := delivered_acknowledge inv.delivered ack
  exact ⟨⟨delivered.client, delivered.expected, delivered.noReset⟩, by simp, by simp⟩

theorem inv_sendData (inv : Inv stream isn s) (receiving : s.Receiving) {offset length : Nat}
    {ack : UInt32} {accept : Nat → Nat} (valid : ack = s.mySequenceNumber ∨ ack ∈ s.oldMyNumbers)
    (orderly : Orderly stream isn s (.segment offset length ack accept)) :
    Inv stream isn (s.sendData (segment stream isn offset length ack) accept) := by
  have delivered := (delivered_sendData_iff inv.delivered valid accept).2 (orderly receiving)
  refine ⟨delivered, ?_, ?_⟩
  all_goals rw [sendData_state valid delivered]
  · exact inv.alive
  · intro early
    rcases receiving with state | state <;> simp [state] at early

theorem inv_step {t : Session} {event : Event} (inv : Inv stream isn s)
    (orderly : Orderly stream isn s event) (step : Step stream isn event s t) :
    Inv stream isn t := by
  have delivered := inv.delivered
  cases step with
  | segment sent valid =>
      cases state : s.state with
      | sendingSynAck | closeCompleted => simpa only [Session.send, state] using inv
      | sentSynAck =>
          simpa only [Session.send, state] using inv_sendConnected inv state sent valid
      | connected =>
          simpa only [Session.send, state] using inv_sendData inv (.inl state) valid orderly
      | closingClosedByRemote =>
          simpa only [Session.send, state] using inv_sendData inv (.inr state) valid orderly
      | closeCompletedFlushBuffer => exact absurd state inv.alive
  | @connectTCPComplete _ success connecting =>
      have empty := inv.unsent (.inl connecting)
      cases success with
      | false => exact ⟨⟨delivered.client, delivered.expected, delivered.noReset⟩,
          by simp [Session.connectTCPComplete], fun _ => empty⟩
      | true => exact ⟨⟨delivered.client, delivered.expected, delivered.noReset⟩,
          by simp [Session.connectTCPComplete], fun _ => empty⟩
  | recvData connected room =>
      exact ⟨⟨delivered.client, delivered.expected, delivered.noReset⟩, inv.alive, inv.unsent⟩
  | closeByRemoteStage1 connected room =>
      exact ⟨⟨delivered.client, delivered.expected, delivered.noReset⟩,
        by simp [Session.closeByRemoteStage1], by simp [Session.closeByRemoteStage1]⟩
  | flushed closing => exact absurd closing inv.alive

theorem orderly_of_delivered {t : Session} (event : Event) (delivered : Delivered stream isn s)
    (after : Delivered stream isn t) (step : Step stream isn event s t) :
    Orderly stream isn s event := by
  cases step with
  | @segment _ offset length ack accept sent valid =>
      intro receiving
      refine (delivered_sendData_iff delivered valid accept).1 ?_
      rcases receiving with state | state <;> simpa only [Session.send, state] using after
  | connectTCPComplete | recvData | closeByRemoteStage1 | flushed => trivial

end

/-- As long as the data segments are orderly, and no longer, the host gets the stream and the PS2 no
RST. -/
theorem stream_delivered_iff (stream : Nat → UInt8) (isn : UInt32) (s : Session)
    (run : Run (OrderlyStep stream isn) (.sendConnect isn) s) :
    Delivered stream isn s ∧
    ∀ event t, Step stream isn event s t → (Delivered stream isn t ↔ Orderly stream isn s event) := by
  have inv : Inv stream isn s := run.invariant inv_sendConnect fun _ _ inv ⟨_, orderly, step⟩ =>
    inv_step inv orderly step
  exact ⟨inv.delivered, fun event t step =>
    ⟨fun after => orderly_of_delivered _ inv.delivered after step,
      fun orderly => (inv_step inv orderly step).delivered⟩⟩

theorem stream_delivered_iff_connected : ∃ s, s.state = .connected ∧
    Delivered (fun i => .ofNat i) 0 s ∧ ∀ event t, Step (fun i => .ofNat i) 0 event s t →
      (Delivered (fun i => .ofNat i) 0 t ↔ Orderly (fun i => .ofNat i) 0 s event) :=
  ⟨_, rfl, stream_delivered_iff (fun i => .ofNat i) 0 _
    ((Relation.ReflTransGen.single
      ⟨.connectTCPComplete true, trivial, .connectTCPComplete rfl⟩).tail
      ⟨.segment 0 0 2 id, fun _ empty => absurd empty (Nat.lt_irrefl 0),
        .segment (Nat.zero_le _) (.inl rfl)⟩)⟩

/-- Two bytes, sent again because the first acknowledgement was lost: the session is reset. -/
theorem retransmission_reset :
    ¬∀ s, Run (fun s t => ∃ event, Step (fun i => .ofNat i) 0 event s t) (.sendConnect 0) s →
      Delivered (fun i => .ofNat i) 0 s := by
  intro delivered
  have once : Run (fun s t => ∃ event, Step (fun i => .ofNat i) 0 event s t) (.sendConnect 0) _ :=
    ((Relation.ReflTransGen.single
      ⟨.connectTCPComplete true, .connectTCPComplete rfl⟩).tail
      ⟨.segment 0 0 2 id, .segment (Nat.zero_le _) (.inl rfl)⟩).tail
      ⟨.segment 0 2 2 id, .segment (Nat.zero_le _) (.inl rfl)⟩
  have orderly := orderly_of_delivered (.segment 0 2 2 id) (delivered _ once)
    (delivered _ (once.tail ⟨.segment 0 2 2 id, .segment (Nat.zero_le _) (.inl rfl)⟩))
    (.segment (Nat.zero_le _) (.inl rfl))
  have orderly := orderly (.inl rfl) (by decide)
  rw [if_neg (by decide)] at orderly
  exact orderly.1 (by decide)

end Pcsx2.Tcp
