import Pcsx2.Tcp.Connection
import Pcsx2.Tcp.Stream

/-!
# How a session closes

For any order of segments from the PS2 and answers of the host socket.
-/

namespace Pcsx2.Tcp
open Foundation

/-! ## What is promised -/

def Entry.rst : Entry → Bool
  | .ps2 tcp => tcp.rst
  | .session packet => packet.rst

namespace Connection

def NoReset (s : Connection) : Prop := ∀ entry ∈ s.log, entry.rst = false

def Accepted (s : Connection) : Prop := ∃ packet, .session packet ∈ s.log ∧ packet.syn = true

def FinReceived (s : Connection) : Prop :=
  ∃ tcp, .ps2 tcp ∈ s.log ∧ tcp.fin = true ∧ tcp.sequenceNumber + 1 = s.expectedSeqNumber

/-- The last sequence number of the session is that of its FIN, which came before `after`. -/
def FinSent (s : Connection) (after : List Entry) : Prop :=
  ∃ before fin, s.log = before ++ .session fin :: after ∧ fin.fin = true ∧
    fin.sequenceNumber + 1 = s.mySequenceNumber

/-- A segment among `entries` acknowledges all that the session sent. -/
def AckedBy (s : Connection) (entries : List Entry) : Prop :=
  ∃ tcp, .ps2 tcp ∈ entries ∧ tcp.acknowledgementNumber = s.mySequenceNumber

def FinAcknowledged (s : Connection) : Prop := ∃ after, s.FinSent after ∧ s.AckedBy after

end Connection

def Phase.closing : Phase → Bool
  | .closingClosedByPS2 | .closingClosedByPS2ThenRemoteWaitingForAck => true
  | .closingClosedByRemote | .closingClosedByRemoteThenPS2WaitingForAck => true
  | _ => false

def Phase.afterFin : Phase → Bool
  | .closingClosedByPS2 | .closingClosedByPS2ThenRemoteWaitingForAck => true
  | .closingClosedByRemoteThenPS2WaitingForAck => true
  | .closeCompletedFlushBuffer | .closeCompleted => true
  | _ => false

structure EmptySegment (s : Connection) (tcp : Segment) : Prop where
  noSyn : tcp.syn = false
  noRst : tcp.rst = false
  noUrg : tcp.urg = false
  noData : tcp.payload = []
  again : tcp.fin = true → s.phase.afterFin = true
  known : tcp.acknowledgementNumber = s.mySequenceNumber ∨ tcp.acknowledgementNumber ∈ s.oldMyNumbers

structure Closes (s : Connection) : Prop where
  complete : s.phase = .closeCompleted → s.NoReset → s.Accepted → s.FinReceived ∧ s.FinAcknowledged
  finOnce : s.phase.afterFin = true → ∀ t, ConnectionStep s t →
    t.expectedSeqNumber = s.expectedSeqNumber ∧ t.phase.afterFin = true
  empty : s.phase.closing = true → ∀ tcp opening host, EmptySegment s tcp →
    (s.send tcp opening host).expectedSeqNumber = s.expectedSeqNumber ∧
    (s.send tcp opening host).log = s.log ++ [.ps2 tcp]
  atMostOnce : s.raised ≤ 1
  raisedOnce : s.phase = .closeCompleted → s.raised = 1

/-! ## What `Send` can do -/

/-- What comes later keeps the numbers of the session, and `myNumberACKed` is only set by an acknowledgement
of all of them. -/
structure Later (s t : Connection) (news : List Entry) : Prop where
  log : t.log = s.log ++ news
  mine : t.mySequenceNumber = s.mySequenceNumber
  acked : t.myNumberACKed = true → s.myNumberACKed = true ∨ s.AckedBy news

def Silent (s t : Connection) : Prop := t.handlers = s.handlers ∧ t.raised = s.raised

def Raises (s t : Connection) : Prop :=
  t.handlers = false ∧ t.raised = if s.handlers then s.raised + 1 else s.raised

def Checked (s : Connection) (tcp : Segment) (t : Connection) : Prop :=
  ∃ acked number windowSize,
    t = { s with
      log := s.log ++ [.ps2 tcp], windowSize, myNumberACKed := acked, receivedAckNumber := number } ∧
    (acked = true → s.myNumberACKed = true ∨ tcp.acknowledgementNumber = s.mySequenceNumber)

structure TookFIN (s : Connection) (tcp : Segment) (t : Connection) : Prop where
  fin : tcp.fin = true
  expected : tcp.sequenceNumber = s.expectedSeqNumber
  next : t.expectedSeqNumber = s.expectedSeqNumber + 1
  later : ∃ reply : Packet, Later s t [.ps2 tcp, .session reply]
  silent : Silent s t

inductive Sent (s : Connection) (tcp : Segment) (t : Connection) : Prop
  | reset (rst : ¬t.NoReset) (phase : t.phase = .closeCompletedFlushBuffer) (silent : Silent s t)
      (same : t.expectedSeqNumber = s.expectedSeqNumber)
  | ended (rst : ¬t.NoReset) (phase : t.phase = .closeCompleted) (raises : Raises s t)
      (same : t.expectedSeqNumber = s.expectedSeqNumber)
  | notOpened (fresh : s.phase = .none) (phase : t.phase = .none) (log : t.log = s.log ++ [.ps2 tcp])
      (raises : Raises s t)
  | opened (fresh : s.phase = .none) (phase : t.phase = .sendingSynAck)
      (log : t.log = s.log ++ [.ps2 tcp]) (silent : Silent s t)
  | checked (checked : Checked s tcp t)
  | connected (before : s.phase = .sentSynAck) (phase : t.phase = .connected) (silent : Silent s t)
  | data (before : s.phase = .connected ∨ s.phase = .closingClosedByRemote) (phase : t.phase = s.phase)
      (later : ∃ reply : Packet, Later s t [.ps2 tcp, .session reply]) (silent : Silent s t)
  | stage1_2 (before : s.phase = .connected) (took : TookFIN s tcp t) (phase : t.phase = .closingClosedByPS2)
  | stage3_4 (before : s.phase = .closingClosedByRemote) (took : TookFIN s tcp t)
      (phase : t.phase = if t.myNumberACKed then .closeCompletedFlushBuffer
        else .closingClosedByRemoteThenPS2WaitingForAck)
  | stage4 (before : s.phase = .closingClosedByPS2ThenRemoteWaitingForAck) (later : Later s t [.ps2 tcp])
      (acked : t.myNumberACKed = true) (phase : t.phase = .closeCompleted) (raises : Raises s t)
      (same : t.expectedSeqNumber = s.expectedSeqNumber)
  | stage2 (before : s.phase = .closingClosedByRemoteThenPS2WaitingForAck) (later : Later s t [.ps2 tcp])
      (acked : t.myNumberACKed = true) (phase : t.phase = .closeCompletedFlushBuffer) (silent : Silent s t)
      (same : t.expectedSeqNumber = s.expectedSeqNumber)

section

variable {s t : Connection} {tcp : Segment}

theorem not_noReset (entry : Entry) (member : entry ∈ s.log) (rst : entry.rst = true) : ¬s.NoReset :=
  fun none => Bool.false_ne_true ((none entry member).symm.trans rst)

theorem Checked.later (checked : Checked s tcp t) : Later s t [.ps2 tcp] := by
  obtain ⟨acked, number, windowSize, rfl, since⟩ := checked
  refine ⟨rfl, rfl, fun now => ?_⟩
  rcases since now with before | all
  · exact Or.inl before
  · exact Or.inr ⟨tcp, List.mem_singleton.2 rfl, all⟩

theorem Checked.silent (checked : Checked s tcp t) : Silent s t := by
  obtain ⟨acked, number, windowSize, rfl, -⟩ := checked
  exact ⟨rfl, rfl⟩

theorem Checked.expected (checked : Checked s tcp t) : t.expectedSeqNumber = s.expectedSeqNumber := by
  obtain ⟨acked, number, windowSize, rfl, -⟩ := checked
  rfl

theorem Checked.phase (checked : Checked s tcp t) : t.phase = s.phase := by
  obtain ⟨acked, number, windowSize, rfl, -⟩ := checked
  rfl

theorem checked_logged (s : Connection) (tcp : Segment) :
    Checked s tcp { s with log := s.log ++ [.ps2 tcp] } :=
  ⟨_, _, _, rfl, Or.inl⟩

theorem acknowledge_acked (s : Session) (ack : UInt32) : ∃ acked number,
    s.acknowledge ack = { s with myNumberACKed := acked, receivedAckNumber := number } ∧
    (acked = true → s.myNumberACKed = true ∨ ack = s.mySequenceNumber) := by
  unfold Session.acknowledge Session.updateReceivedAckNumber
  by_cases same : ack = s.mySequenceNumber
  · rw [if_pos same]
    dsimp only
    split
    · exact ⟨_, _, rfl, fun _ => Or.inr same⟩
    · exact ⟨_, _, rfl, fun _ => Or.inr same⟩
  · rw [if_neg same]
    dsimp only
    split
    · exact ⟨_, _, rfl, Or.inl⟩
    · exact ⟨_, _, rfl, Or.inl⟩

theorem checked_numbers (s : Connection) (tcp : Segment) (windowSize : Int) (rejectOldSeq : Bool) :
    Checked s tcp (Connection.checkNumbers { s with log := s.log ++ [.ps2 tcp], windowSize } tcp
      rejectOldSeq).2 := by
  obtain ⟨acked, number, next, since⟩ := acknowledge_acked s.toSession tcp.acknowledgementNumber
  unfold Connection.checkNumbers Session.checkNumbers
  rw [next]
  dsimp only
  split
  · exact ⟨s.myNumberACKed, s.receivedAckNumber, windowSize, rfl, Or.inl⟩
  · refine ⟨acked, number, windowSize, ?_, since⟩
    split
    · split
      · rfl
      · split
        · rfl
        · split <;> rfl
    · rfl

theorem checkNumbers_reject {s : Connection} (good : (s.checkNumbers tcp true).1 ≠ .bad) :
    tcp.sequenceNumber = s.expectedSeqNumber := by
  unfold Connection.checkNumbers Session.checkNumbers at good
  obtain ⟨acked, number, next, -⟩ := acknowledge_acked s.toSession tcp.acknowledgementNumber
  rw [next] at good
  dsimp only at good
  split at good
  · exact absurd rfl good
  · split at good
    · exact absurd rfl good
    · rename_i same
      exact not_not.1 same

theorem sent_reset {c : Connection} (silent : Silent s c) (same : c.expectedSeqNumber = s.expectedSeqNumber) :
    Sent s tcp c.closeByRemoteRST := by
  refine .reset ?_ rfl silent same
  exact not_noReset (.session { c.createBasePacket with rst := true })
    (List.mem_append_right _ (List.mem_singleton.2 rfl)) rfl

theorem sent_checked_reset {c : Connection} (checked : Checked s tcp c) : Sent s tcp c.closeByRemoteRST :=
  sent_reset checked.silent checked.expected

theorem validate_cases (s : Connection) (tcp : Segment) (ignoreOld : Bool) : ∃ c, Checked s tcp c ∧
    (Connection.validateEmptyPacket { s with log := s.log ++ [.ps2 tcp] } tcp ignoreOld =
        (true, c.closeByRemoteRST) ∨
      Connection.validateEmptyPacket { s with log := s.log ++ [.ps2 tcp] } tcp ignoreOld = (false, c) ∧
        (ignoreOld = false → tcp.sequenceNumber = s.expectedSeqNumber)) := by
  refine ⟨_, checked_numbers s tcp s.windowSize (!ignoreOld), ?_⟩
  unfold Connection.validateEmptyPacket
  dsimp only
  split
  · exact Or.inl rfl
  · rename_i good
    split
    · exact Or.inl rfl
    · refine Or.inr ⟨rfl, fun strict => ?_⟩
      subst strict
      exact checkNumbers_reject (s := { s with log := s.log ++ [.ps2 tcp] }) good

theorem options_same (s : Connection) (options : List TcpOption) : ∃ mss scale stamps,
    options.foldl Connection.option s =
      { s with maxSegmentSize := mss, windowScale := scale, sendTimeStamps := stamps } := by
  induction options generalizing s with
  | nil => exact ⟨_, _, _, rfl⟩
  | cons option options ih =>
      obtain ⟨mss, scale, stamps, same⟩ := ih (s.option option)
      rw [List.foldl_cons, same]
      cases option <;> exact ⟨_, _, _, rfl⟩

theorem sent_connect (fresh : s.phase = .none) (opening : HostOpen) :
    Sent s tcp (Connection.sendConnect { s with log := s.log ++ [.ps2 tcp] } tcp opening) := by
  unfold Connection.sendConnect
  split
  · exact sent_reset ⟨rfl, rfl⟩ rfl
  · dsimp only
    obtain ⟨mss, scale, stamps, same⟩ := options_same _ tcp.options
    rw [same]
    cases opening with
    | fails => exact .notOpened fresh fresh rfl ⟨rfl, rfl⟩
    | connecting => exact .opened fresh rfl rfl ⟨rfl, rfl⟩

theorem sent_connected (before : s.phase = .sentSynAck) :
    Sent s tcp (Connection.sendConnected { s with log := s.log ++ [.ps2 tcp] } tcp) := by
  unfold Connection.sendConnected
  split
  · split
    · exact sent_reset ⟨rfl, rfl⟩ rfl
    · exact .checked (checked_logged s tcp)
  · have checked := checked_numbers s tcp s.windowSize false
    dsimp only
    split
    · exact sent_checked_reset checked
    · exact .connected before rfl checked.silent

theorem sent_takeData {c : Connection} (before : s.phase = .connected ∨ s.phase = .closingClosedByRemote)
    (checked : Checked s tcp c) (delta : Int) (host : HostSend) :
    Sent s tcp (c.takeData tcp.payload delta host) := by
  have replies (d : Connection) (phase : d.phase = c.phase) (log : d.log = c.log)
      (mine : d.mySequenceNumber = c.mySequenceNumber) (acked : d.myNumberACKed = c.myNumberACKed)
      (silent : Silent c d) : Sent s tcp (d.pushRecvBuff false) := by
    have later := checked.later
    refine .data before (phase.trans checked.phase) ⟨{ d.createBasePacket with rst := false }, ?_, ?_, ?_⟩
      ⟨silent.1.trans checked.silent.1, silent.2.trans checked.silent.2⟩
    · change d.log ++ _ = _
      rw [log, later.log, List.append_assoc]
      rfl
    · exact mine.trans later.mine
    · intro now
      rcases later.acked (acked ▸ now) with before | ⟨seg, member, all⟩
      · exact Or.inl before
      · exact Or.inr ⟨seg, List.mem_cons.2 (Or.inl (List.mem_singleton.1 member)), all⟩
  unfold Connection.takeData
  split
  · cases host with
    | fails sent => exact sent_reset checked.silent checked.expected
    | accepts accept => exact replies _ rfl rfl rfl rfl ⟨rfl, rfl⟩
  · exact replies c rfl rfl rfl rfl ⟨rfl, rfl⟩

theorem sent_data (before : s.phase = .connected ∨ s.phase = .closingClosedByRemote) (host : HostSend) :
    Sent s tcp (Connection.sendData { s with log := s.log ++ [.ps2 tcp] } tcp host) := by
  unfold Connection.sendData
  split
  · exact sent_reset ⟨rfl, rfl⟩ rfl
  · have checked := checked_numbers s tcp ((tcp.windowSize.toNat * 2 ^ s.windowScale : Int).bmod (2 ^ 32)) false
    dsimp only
    split
    · exact sent_checked_reset checked
    · split
      · exact .checked checked
      · exact sent_takeData before checked _ host

theorem took_fin {c d : Connection} (fin : tcp.fin = true) (expected : tcp.sequenceNumber = s.expectedSeqNumber)
    (checked : Checked s tcp c) (log : d.log = c.log) (mine : d.mySequenceNumber = c.mySequenceNumber)
    (acked : d.myNumberACKed = c.myNumberACKed) (silent : Silent c d)
    (next : d.expectedSeqNumber = c.expectedSeqNumber + 1) : TookFIN s tcp (d.pushRecvBuff false) := by
  have later := checked.later
  refine ⟨fin, expected, next.trans (congrArg (· + 1) checked.expected),
    ⟨{ d.createBasePacket with rst := false }, ?_, mine.trans later.mine, fun now => ?_⟩,
    silent.1.trans checked.silent.1, silent.2.trans checked.silent.2⟩
  · change d.log ++ _ = _
    rw [log, later.log, List.append_assoc]
    rfl
  · rcases later.acked (acked ▸ now) with before | ⟨seg, member, all⟩
    · exact Or.inl before
    · exact Or.inr ⟨seg, List.mem_cons.2 (Or.inl (List.mem_singleton.1 member)), all⟩

theorem sent_stage1_2 (before : s.phase = .connected) (fin : tcp.fin = true) :
    Sent s tcp (Connection.closeByPS2Stage1_2 { s with log := s.log ++ [.ps2 tcp] } tcp) := by
  obtain ⟨c, checked, errored | ⟨good, expected⟩⟩ := validate_cases s tcp false
  · unfold Connection.closeByPS2Stage1_2
    rw [errored]
    exact sent_checked_reset checked
  · unfold Connection.closeByPS2Stage1_2
    rw [good]
    exact .stage1_2 before (took_fin fin (expected rfl) checked rfl rfl rfl ⟨rfl, rfl⟩ rfl) rfl

theorem sent_stage3_4 (before : s.phase = .closingClosedByRemote) (fin : tcp.fin = true) :
    Sent s tcp (Connection.closeByRemoteStage3_4 { s with log := s.log ++ [.ps2 tcp] } tcp) := by
  obtain ⟨c, checked, errored | ⟨good, expected⟩⟩ := validate_cases s tcp false
  · unfold Connection.closeByRemoteStage3_4
    rw [errored]
    exact sent_checked_reset checked
  · unfold Connection.closeByRemoteStage3_4
    rw [good]
    have took : TookFIN s tcp (c.takeFIN.pushRecvBuff false) :=
      took_fin fin (expected rfl) checked rfl rfl rfl ⟨rfl, rfl⟩ rfl
    obtain ⟨fin, expected, next, ⟨reply, later⟩, silent⟩ := took
    exact .stage3_4 before ⟨fin, expected, next, ⟨reply, later.log, later.mine, later.acked⟩, silent⟩ rfl

theorem sent_stage4 (before : s.phase = .closingClosedByPS2ThenRemoteWaitingForAck) :
    Sent s tcp (Connection.closeByPS2Stage4 { s with log := s.log ++ [.ps2 tcp] } tcp) := by
  obtain ⟨c, checked, errored | ⟨good, -⟩⟩ := validate_cases s tcp true
  · unfold Connection.closeByPS2Stage4
    rw [errored]
    exact sent_checked_reset checked
  · unfold Connection.closeByPS2Stage4
    rw [good]
    dsimp only
    rw [if_neg Bool.false_ne_true]
    split
    · rename_i acked
      have later := checked.later
      obtain ⟨handlers, raised⟩ := checked.silent
      refine .stage4 before ⟨later.log, later.mine, later.acked⟩ acked rfl ⟨rfl, ?_⟩ checked.expected
      change (if c.handlers then c.raised + 1 else c.raised) = _
      rw [handlers, raised]
    · exact .checked checked

theorem sent_stage2 (before : s.phase = .closingClosedByRemoteThenPS2WaitingForAck) :
    Sent s tcp (Connection.closeByRemoteStage2_ButAfter4 { s with log := s.log ++ [.ps2 tcp] } tcp) := by
  obtain ⟨c, checked, errored | ⟨good, -⟩⟩ := validate_cases s tcp true
  · unfold Connection.closeByRemoteStage2_ButAfter4
    rw [errored]
    exact sent_checked_reset checked
  · unfold Connection.closeByRemoteStage2_ButAfter4
    rw [good]
    dsimp only
    rw [if_neg Bool.false_ne_true]
    split
    · rename_i acked
      have later := checked.later
      exact .stage2 before ⟨later.log, later.mine, later.acked⟩ acked rfl checked.silent checked.expected
    · exact .checked checked

theorem sent_noData : Sent s tcp (Connection.sendNoData { s with log := s.log ++ [.ps2 tcp] } tcp) := by
  unfold Connection.sendNoData
  split
  · exact sent_reset ⟨rfl, rfl⟩ rfl
  · obtain ⟨c, checked, errored | ⟨good, -⟩⟩ := validate_cases s tcp true
    · rw [errored]
      exact sent_checked_reset checked
    · rw [good]
      exact .checked checked

theorem send_cases (s : Connection) (tcp : Segment) (opening : HostOpen) (host : HostSend) :
    Sent s tcp (s.send tcp opening host) := by
  unfold Connection.send
  dsimp only
  split
  · rename_i rst
    exact .ended (not_noReset (.ps2 tcp) (List.mem_append_right _ (List.mem_singleton.2 rfl)) rst)
      rfl ⟨rfl, rfl⟩ rfl
  · split
    case h_1 phase => exact sent_connect phase opening
    case h_2 phase => exact .checked (checked_logged s tcp)
    case h_3 phase => exact sent_connected phase
    case h_4 phase =>
      split
      · rename_i fin
        exact sent_stage1_2 phase fin
      · exact sent_data (Or.inl phase) host
    case h_5 phase => exact sent_noData
    case h_6 phase => exact sent_stage4 phase
    case h_7 phase =>
      split
      · rename_i fin
        exact sent_stage3_4 phase fin
      · exact sent_data (Or.inr phase) host
    case h_8 phase => exact sent_stage2 phase
    case h_9 phase => exact sent_reset ⟨rfl, rfl⟩ rfl
    case h_10 phase => exact .checked (checked_logged s tcp)

end

/-! ## What `Recv` can do -/

inductive Received (s t : Connection) : Prop
  | same (phase : t.phase = s.phase) (later : Later s t []) (silent : Silent s t)
      (same : t.expectedSeqNumber = s.expectedSeqNumber)
  | accepted (before : s.phase = .sendingSynAck) (phase : t.phase = .sentSynAck) (silent : Silent s t)
  | refused (before : s.phase = .sendingSynAck) (phase : t.phase = .closeCompleted) (log : t.log = s.log)
      (raises : Raises s t)
  | flushed (before : s.phase = .closeCompletedFlushBuffer) (phase : t.phase = .closeCompleted)
      (later : Later s t []) (raises : Raises s t) (same : t.expectedSeqNumber = s.expectedSeqNumber)
  | data (before : s.phase = .connected ∨ s.phase = .closingClosedByPS2) (phase : t.phase = s.phase)
      (log : ∃ packet, t.log = s.log ++ [.session packet]) (silent : Silent s t)
      (same : t.expectedSeqNumber = s.expectedSeqNumber)
  | fin (before : s.phase = .connected ∧ t.phase = .closingClosedByRemote ∨
        s.phase = .closingClosedByPS2 ∧ t.phase = .closingClosedByPS2ThenRemoteWaitingForAck)
      (sent : t.FinSent []) (log : ∃ packet, t.log = s.log ++ [.session packet])
      (acked : t.myNumberACKed = false) (silent : Silent s t)
      (same : t.expectedSeqNumber = s.expectedSeqNumber)
  | reset (rst : ¬t.NoReset) (phase : t.phase = .closeCompletedFlushBuffer) (silent : Silent s t)
      (same : t.expectedSeqNumber = s.expectedSeqNumber)

section

variable {s t : Connection}

theorem received_same (s : Connection) : Received s s :=
  .same rfl ⟨(List.append_nil _).symm, rfl, Or.inl⟩ ⟨rfl, rfl⟩ rfl

theorem received_host (before : s.phase = .connected ∨ s.phase = .closingClosedByPS2) (host : HostRecv) :
    Received s (s.recvHost host) := by
  have sent (phase : Phase) : (s.emitFIN phase).FinSent [] := ⟨s.log, _, rfl, rfl, rfl⟩
  unfold Connection.recvHost
  split
  · exact received_same s
  · split
    · cases host with
      | data bytes => exact .data before rfl ⟨_, rfl⟩ ⟨rfl, rfl⟩ rfl
      | endOfStream =>
          dsimp only
          split
          · rename_i connected
            exact .fin (Or.inl ⟨connected, rfl⟩) (sent _) ⟨_, rfl⟩ rfl ⟨rfl, rfl⟩ rfl
          · rename_i closing
            exact .fin (Or.inr ⟨before.resolve_left closing, rfl⟩) (sent _) ⟨_, rfl⟩ rfl ⟨rfl, rfl⟩ rfl
      | error =>
          refine .reset ?_ rfl ⟨rfl, rfl⟩ rfl
          exact not_noReset (.session { s.createBasePacket with rst := true })
            (List.mem_append_right _ (List.mem_singleton.2 rfl)) rfl
      | _ => exact received_same s
    · exact received_same s

theorem recv_cases (s : Connection) (host : HostRecv) : Received s (s.recv host) := by
  unfold Connection.recv
  split
  · exact .same rfl ⟨(List.append_nil _).symm, rfl, Or.inl⟩ ⟨rfl, rfl⟩ rfl
  · split
    case h_1 phase =>
      cases host with
      | connects => exact .accepted phase rfl ⟨rfl, rfl⟩
      | refuses => exact .refused phase rfl rfl ⟨rfl, rfl⟩
      | _ => exact received_same s
    case h_2 phase => exact .flushed phase rfl ⟨(List.append_nil _).symm, rfl, Or.inl⟩ ⟨rfl, rfl⟩ rfl
    case h_3 phase => exact received_host (Or.inl phase) host
    case h_4 phase => exact received_host (Or.inr phase) host
    case h_5 => exact received_same s

end

/-! ## What holds in each state -/

def Connection.Waiting (s : Connection) : Prop :=
  ∃ after, s.FinSent after ∧ (s.myNumberACKed = true → s.AckedBy after)

def Connection.Complete (s : Connection) : Prop := s.FinReceived ∧ s.FinAcknowledged

def Connection.ClosingAt (s : Connection) : Phase → Prop
  | .none | .sendingSynAck => ¬s.Accepted
  | .sentSynAck | .connected => True
  | .closingClosedByPS2 => s.FinReceived
  | .closingClosedByPS2ThenRemoteWaitingForAck => s.FinReceived ∧ s.Waiting
  | .closingClosedByRemote => s.Waiting
  | .closingClosedByRemoteThenPS2WaitingForAck => s.FinReceived ∧ s.Waiting
  | .closeCompletedFlushBuffer => ¬s.NoReset ∨ s.Complete
  | .closeCompleted => ¬s.NoReset ∨ ¬s.Accepted ∨ s.Complete

section

variable {s t : Connection} {tcp : Segment} {news after : List Entry}

theorem FinReceived.later (received : s.FinReceived) (log : t.log = s.log ++ news)
    (same : t.expectedSeqNumber = s.expectedSeqNumber) : t.FinReceived := by
  obtain ⟨fin, member, isFin, next⟩ := received
  exact ⟨fin, log ▸ List.mem_append_left _ member, isFin, next.trans same.symm⟩

theorem FinSent.later (sent : s.FinSent after) (later : Later s t news) : t.FinSent (after ++ news) := by
  obtain ⟨before, fin, log, isFin, last⟩ := sent
  refine ⟨before, fin, ?_, isFin, last.trans later.mine.symm⟩
  rw [later.log, log, List.append_assoc, List.cons_append]

theorem AckedBy.later (acked : s.AckedBy after) (later : Later s t news) : t.AckedBy (after ++ news) := by
  obtain ⟨tcp, member, all⟩ := acked
  exact ⟨tcp, List.mem_append_left _ member, all.trans later.mine.symm⟩

theorem Waiting.later (waiting : s.Waiting) (later : Later s t news) : t.Waiting := by
  obtain ⟨after, sent, acked⟩ := waiting
  refine ⟨after ++ news, FinSent.later sent later, fun now => ?_⟩
  rcases later.acked now with before | ⟨tcp, member, all⟩
  · exact AckedBy.later (acked before) later
  · exact ⟨tcp, List.mem_append_right _ member, all.trans later.mine.symm⟩

theorem Waiting.acknowledged (waiting : s.Waiting) (acked : s.myNumberACKed = true) :
    s.FinAcknowledged := by
  obtain ⟨after, sent, all⟩ := waiting
  exact ⟨after, sent, all acked⟩

theorem Complete.later (complete : s.Complete) (later : Later s t news)
    (same : t.expectedSeqNumber = s.expectedSeqNumber) : t.Complete := by
  obtain ⟨received, after, sent, acked⟩ := complete
  exact ⟨FinReceived.later received later.log same, after ++ news, FinSent.later sent later,
    AckedBy.later acked later⟩

theorem noReset_before (log : t.log = s.log ++ news) (none : t.NoReset) : s.NoReset :=
  fun entry member => none entry (log ▸ List.mem_append_left _ member)

theorem accepted_before (log : t.log = s.log ++ [.ps2 tcp]) (accepted : t.Accepted) : s.Accepted := by
  obtain ⟨packet, member, syn⟩ := accepted
  rw [log] at member
  rcases List.mem_append.1 member with member | member
  · exact ⟨packet, member, syn⟩
  · exact absurd (List.mem_singleton.1 member) Entry.noConfusion

theorem TookFIN.received (took : TookFIN s tcp t) : t.FinReceived := by
  obtain ⟨reply, later⟩ := took.later
  refine ⟨tcp, ?_, took.fin, ?_⟩
  · rw [later.log]
    exact List.mem_append_right _ List.mem_cons_self
  · rw [took.next, took.expected]

theorem closingAt_same (phase : t.phase = s.phase) (later : Later s t news)
    (same : t.expectedSeqNumber = s.expectedSeqNumber) (accepted : t.Accepted → s.Accepted)
    (closing : s.ClosingAt s.phase) : t.ClosingAt t.phase := by
  rw [phase]
  generalize s.phase = phase at closing
  cases phase with
  | none => exact fun now => closing (accepted now)
  | sendingSynAck => exact fun now => closing (accepted now)
  | sentSynAck => trivial
  | connected => trivial
  | closingClosedByPS2 => exact FinReceived.later closing later.log same
  | closingClosedByPS2ThenRemoteWaitingForAck =>
      exact ⟨FinReceived.later closing.1 later.log same, Waiting.later closing.2 later⟩
  | closingClosedByRemote => exact Waiting.later closing later
  | closingClosedByRemoteThenPS2WaitingForAck =>
      exact ⟨FinReceived.later closing.1 later.log same, Waiting.later closing.2 later⟩
  | closeCompletedFlushBuffer =>
      exact closing.imp (fun rst none => rst (noReset_before later.log none))
        fun complete => Complete.later complete later same
  | closeCompleted =>
      exact closing.imp (fun rst none => rst (noReset_before later.log none))
        fun rest => rest.imp (fun none now => none (accepted now))
          fun complete => Complete.later complete later same

theorem closing_send (closing : s.ClosingAt s.phase) (sent : Sent s tcp t) : t.ClosingAt t.phase := by
  cases sent with
  | reset rst phase => exact phase ▸ Or.inl rst
  | ended rst phase => exact phase ▸ Or.inl rst
  | notOpened fresh phase log =>
      rw [fresh] at closing
      exact phase ▸ fun accepted => closing (accepted_before log accepted)
  | opened fresh phase log =>
      rw [fresh] at closing
      exact phase ▸ fun accepted => closing (accepted_before log accepted)
  | checked checked =>
      exact closingAt_same checked.phase checked.later checked.expected
        (accepted_before checked.later.log) closing
  | connected before phase => exact phase ▸ trivial
  | data before phase later =>
      obtain ⟨reply, later⟩ := later
      rw [phase]
      rcases before with before | before
      · exact before ▸ trivial
      · rw [before] at closing ⊢
        exact Waiting.later closing later
  | stage1_2 before took phase => exact phase ▸ took.received
  | stage3_4 before took phase =>
      rw [before] at closing
      obtain ⟨reply, later⟩ := took.later
      have waiting := Waiting.later closing later
      rw [phase]
      split
      · rename_i acked
        exact Or.inr ⟨took.received, Waiting.acknowledged waiting acked⟩
      · exact ⟨took.received, waiting⟩
  | stage4 before later acked phase _ same =>
      rw [before] at closing
      rw [phase]
      exact Or.inr (Or.inr ⟨FinReceived.later closing.1 later.log same,
        Waiting.acknowledged (Waiting.later closing.2 later) acked⟩)
  | stage2 before later acked phase _ same =>
      rw [before] at closing
      rw [phase]
      exact Or.inr ⟨FinReceived.later closing.1 later.log same,
        Waiting.acknowledged (Waiting.later closing.2 later) acked⟩

theorem closing_recv (closing : s.ClosingAt s.phase) (received : Received s t) : t.ClosingAt t.phase := by
  cases received with
  | same phase later _ same =>
      have log : t.log = s.log := later.log.trans (List.append_nil _)
      exact closingAt_same phase later same (fun accepted => by rwa [Connection.Accepted, log] at accepted)
        closing
  | accepted before phase => exact phase ▸ trivial
  | refused before phase log =>
      rw [before] at closing
      refine phase ▸ Or.inr (Or.inl fun accepted => closing ?_)
      rwa [Connection.Accepted, log] at accepted
  | flushed before phase later _ same =>
      rw [before] at closing
      rw [phase]
      exact closing.imp (fun rst none => rst (noReset_before later.log none))
        fun complete => Or.inr (Complete.later complete later same)
  | data before phase log _ same =>
      obtain ⟨packet, log⟩ := log
      rw [phase]
      rcases before with before | before
      · exact before ▸ trivial
      · rw [before] at closing ⊢
        exact FinReceived.later closing log same
  | fin before sent log acked _ same =>
      obtain ⟨packet, log⟩ := log
      have waiting : t.Waiting := ⟨[], sent, fun now => absurd (now.symm.trans acked) (by decide)⟩
      rcases before with ⟨-, phase⟩ | ⟨before, phase⟩
      · exact phase ▸ waiting
      · rw [before] at closing
        exact phase ▸ ⟨FinReceived.later closing log same, waiting⟩
  | reset rst phase => exact phase ▸ Or.inl rst

end

/-! ## The connection-closed event -/

structure Raised (s : Connection) : Prop where
  gone : s.handlers = false → s.raised = 1
  left : s.handlers = true → s.raised = 0
  closed : s.phase = .closeCompleted → s.handlers = false

section

variable {s t : Connection} {tcp : Segment}

theorem Raised.silent (raised : Raised s) (silent : Silent s t)
    (phase : t.phase = .closeCompleted → s.phase = .closeCompleted) : Raised t := by
  obtain ⟨handlers, count⟩ := silent
  refine ⟨fun gone => ?_, fun left => ?_, fun closed => handlers.trans (raised.closed (phase closed))⟩
  · exact count.trans (raised.gone (handlers ▸ gone))
  · exact count.trans (raised.left (handlers ▸ left))

theorem Raised.raises (raised : Raised s) (raises : Raises s t) : Raised t := by
  obtain ⟨handlers, count⟩ := raises
  refine ⟨fun _ => ?_, fun left => absurd (left.symm.trans handlers) (by decide), fun _ => handlers⟩
  rw [count]
  split
  · rename_i left
    rw [raised.left left]
  · rename_i gone
    exact raised.gone (Bool.eq_false_iff.2 gone)

theorem raised_send (raised : Raised s) (sent : Sent s tcp t) : Raised t := by
  have open' {phase : Phase} (at_phase : t.phase = phase) (other : phase ≠ .closeCompleted) :
      t.phase = .closeCompleted → s.phase = .closeCompleted :=
    fun closed => absurd (at_phase.symm.trans closed) other
  cases sent with
  | reset _ phase silent => exact raised.silent silent (open' phase (by decide))
  | ended _ _ raises => exact raised.raises raises
  | notOpened _ _ _ raises => exact raised.raises raises
  | opened _ phase _ silent => exact raised.silent silent (open' phase (by decide))
  | checked checked => exact raised.silent checked.silent checked.phase.symm.trans
  | connected _ phase silent => exact raised.silent silent (open' phase (by decide))
  | data _ phase _ silent => exact raised.silent silent phase.symm.trans
  | stage1_2 _ took phase => exact raised.silent took.silent (open' phase (by decide))
  | stage3_4 _ took phase =>
      refine raised.silent took.silent (open' phase ?_)
      split <;> decide
  | stage4 _ _ _ _ raises => exact raised.raises raises
  | stage2 _ _ _ phase silent => exact raised.silent silent (open' phase (by decide))

theorem raised_recv (raised : Raised s) (received : Received s t) : Raised t := by
  have open' {phase : Phase} (at_phase : t.phase = phase) (other : phase ≠ .closeCompleted) :
      t.phase = .closeCompleted → s.phase = .closeCompleted :=
    fun closed => absurd (at_phase.symm.trans closed) other
  cases received with
  | same phase _ silent => exact raised.silent silent phase.symm.trans
  | accepted _ phase silent => exact raised.silent silent (open' phase (by decide))
  | refused _ _ _ raises => exact raised.raises raises
  | flushed _ _ _ raises => exact raised.raises raises
  | data _ phase _ silent => exact raised.silent silent phase.symm.trans
  | fin before _ _ _ silent =>
      rcases before with ⟨-, phase⟩ | ⟨-, phase⟩
      · exact raised.silent silent (open' phase (by decide))
      · exact raised.silent silent (open' phase (by decide))
  | reset _ phase silent => exact raised.silent silent (open' phase (by decide))

/-! ## Behind the FIN of the PS2 -/

theorem afterFin_send (behind : s.phase.afterFin = true) (sent : Sent s tcp t) :
    t.expectedSeqNumber = s.expectedSeqNumber ∧ t.phase.afterFin = true := by
  have elsewhere {phase : Phase} (at_phase : s.phase = phase) (other : phase.afterFin = false) : False := by
    rw [at_phase, other] at behind
    exact Bool.false_ne_true behind
  cases sent with
  | reset _ phase _ same => exact ⟨same, phase ▸ rfl⟩
  | ended _ phase _ same => exact ⟨same, phase ▸ rfl⟩
  | notOpened fresh => exact (elsewhere fresh rfl).elim
  | opened fresh => exact (elsewhere fresh rfl).elim
  | checked checked => exact ⟨checked.expected, checked.phase ▸ behind⟩
  | connected before => exact (elsewhere before rfl).elim
  | data before => exact (before.elim (elsewhere · rfl) (elsewhere · rfl)).elim
  | stage1_2 before => exact (elsewhere before rfl).elim
  | stage3_4 before => exact (elsewhere before rfl).elim
  | stage4 _ _ _ phase _ same => exact ⟨same, phase ▸ rfl⟩
  | stage2 _ _ _ phase _ same => exact ⟨same, phase ▸ rfl⟩

theorem afterFin_recv (behind : s.phase.afterFin = true) (received : Received s t) :
    t.expectedSeqNumber = s.expectedSeqNumber ∧ t.phase.afterFin = true := by
  have elsewhere {phase : Phase} (at_phase : s.phase = phase) (other : phase.afterFin = false) : False := by
    rw [at_phase, other] at behind
    exact Bool.false_ne_true behind
  cases received with
  | same phase _ _ same => exact ⟨same, phase ▸ behind⟩
  | accepted before => exact (elsewhere before rfl).elim
  | refused before => exact (elsewhere before rfl).elim
  | flushed _ phase _ _ same => exact ⟨same, phase ▸ rfl⟩
  | data _ phase _ _ same => exact ⟨same, phase ▸ behind⟩
  | fin before _ _ _ _ same =>
      rcases before with ⟨before, -⟩ | ⟨-, phase⟩
      · exact (elsewhere before rfl).elim
      · exact ⟨same, phase ▸ rfl⟩
  | reset _ phase _ same => exact ⟨same, phase ▸ rfl⟩

end

/-! ## Segments without data -/

section

variable {s : Connection} {tcp : Segment}

theorem EmptySegment.notBad (empty : EmptySegment s tcp) (windowSize : Int) :
    (Connection.checkNumbers { s with log := s.log ++ [.ps2 tcp], windowSize } tcp false).1 ≠ .bad := by
  intro bad
  have refused := (checkNumbers_valid (s := s.toSession) tcp.toTcpPacket empty.known).2.1 bad
  rw [empty.noData] at refused
  exact Nat.lt_irrefl 0 refused.2.1

theorem EmptySegment.validate (empty : EmptySegment s tcp) : ∃ c, Checked s tcp c ∧
    Connection.validateEmptyPacket { s with log := s.log ++ [.ps2 tcp] } tcp true = (false, c) := by
  refine ⟨_, checked_numbers s tcp s.windowSize false, ?_⟩
  unfold Connection.validateEmptyPacket
  dsimp only
  rw [Bool.not_true, if_neg (empty.notBad s.windowSize), if_neg]
  rw [empty.noData]
  exact fun more => Nat.lt_irrefl 0 more.1

theorem Checked.quiet {c : Connection} (checked : Checked s tcp c) :
    c.expectedSeqNumber = s.expectedSeqNumber ∧ c.log = s.log ++ [.ps2 tcp] :=
  ⟨checked.expected, checked.later.log⟩

theorem EmptySegment.quiet (empty : EmptySegment s tcp) (closing : s.phase.closing = true)
    (opening : HostOpen) (host : HostSend) :
    (s.send tcp opening host).expectedSeqNumber = s.expectedSeqNumber ∧
    (s.send tcp opening host).log = s.log ++ [.ps2 tcp] := by
  obtain ⟨c, checked, valid⟩ := empty.validate
  have quiet := checked.quiet
  unfold Connection.send
  dsimp only
  rw [empty.noRst, if_neg Bool.false_ne_true]
  split
  case h_5 phase =>
    unfold Connection.sendNoData
    rw [empty.noSyn, if_neg Bool.false_ne_true, valid]
    exact quiet
  case h_6 phase =>
    unfold Connection.closeByPS2Stage4
    rw [valid]
    dsimp only
    rw [if_neg Bool.false_ne_true]
    split <;> exact quiet
  case h_7 phase =>
    have pure : tcp.fin = false := by
      have again := empty.again
      rw [show s.phase = _ from phase] at again
      exact Bool.eq_false_iff.2 fun fin => Bool.false_ne_true (again fin)
    rw [pure, if_neg Bool.false_ne_true]
    unfold Connection.sendData
    rw [empty.noSyn, empty.noUrg, Bool.or_self, if_neg Bool.false_ne_true]
    dsimp only [Connection.storeWindow]
    rw [if_neg (empty.notBad _), if_pos (by rw [empty.noData]; rfl)]
    exact (checked_numbers s tcp _ false).quiet
  case h_8 phase =>
    unfold Connection.closeByRemoteStage2_ButAfter4
    rw [valid]
    dsimp only
    rw [if_neg Bool.false_ne_true]
    split <;> exact quiet
  all_goals
    rename_i phase
    rw [show s.phase = _ from phase] at closing
    exact absurd closing Bool.false_ne_true

end

/-! ## Every run -/

theorem closing_step {s t : Connection} (closing : s.ClosingAt s.phase) (step : ConnectionStep s t) :
    t.ClosingAt t.phase := by
  cases step with
  | send tcp opening host => exact closing_send closing (send_cases s tcp opening host)
  | recv host => exact closing_recv closing (recv_cases s host)

theorem raised_step {s t : Connection} (raised : Raised s) (step : ConnectionStep s t) : Raised t := by
  cases step with
  | send tcp opening host => exact raised_send raised (send_cases s tcp opening host)
  | recv host => exact raised_recv raised (recv_cases s host)

theorem afterFin_step {s t : Connection} (behind : s.phase.afterFin = true) (step : ConnectionStep s t) :
    t.expectedSeqNumber = s.expectedSeqNumber ∧ t.phase.afterFin = true := by
  cases step with
  | send tcp opening host => exact afterFin_send behind (send_cases s tcp opening host)
  | recv host => exact afterFin_recv behind (recv_cases s host)

def Segment.bare (sequenceNumber acknowledgementNumber : UInt32) (syn fin : Bool) : Segment where
  sequenceNumber := sequenceNumber
  acknowledgementNumber := acknowledgementNumber
  payload := []
  syn := syn
  fin := fin
  rst := false
  urg := false
  windowSize := 1460
  options := []

def Connection.hears (s : Connection) (tcp : Segment) : Connection := s.send tcp .connecting (.accepts id)

end Pcsx2.Tcp
