import Pcsx2.Foundation.Run
import Pcsx2.Tcp.Session

/-!
# A whole TCP session, from its SYN to its end

What `Send` does with any segment for the session's ports and what `Recv` does with any answer of the host
socket. Each call is one step. `phase` has all the states of `TCP_State`, so `state` is not used here; all
that concerns sequence numbers is done on the `Session`.
-/

namespace Pcsx2.Tcp

inductive Phase where
  | none
  | sendingSynAck
  | sentSynAck
  | connected
  | closingClosedByPS2
  | closingClosedByPS2ThenRemoteWaitingForAck
  | closingClosedByRemote
  | closingClosedByRemoteThenPS2WaitingForAck
  | closeCompletedFlushBuffer
  | closeCompleted
  deriving DecidableEq

inductive TcpOption where
  | mss (maxSegmentSize : UInt16)
  | windowScale (windowScale : UInt8)
  | timeStamp
  | other

structure Segment extends TcpPacket where
  syn : Bool
  fin : Bool
  rst : Bool
  urg : Bool
  windowSize : UInt16
  options : List TcpOption

structure Packet where
  sequenceNumber : UInt32
  acknowledgementNumber : UInt32
  payload : List UInt8
  syn : Bool
  fin : Bool
  rst : Bool
  deriving DecidableEq

inductive Entry where
  | ps2 (tcp : Segment)
  | session (packet : Packet)

/-- `popped` counts what `Recv` took from `_recvBuff`, `handlers` says that there still are handlers of the
connection-closed event and `raised` how often they were called. `log` has the segments of both sides, those
of the session from when they are made. -/
structure Connection extends Session where
  phase : Phase
  maxSegmentSize : UInt16
  windowScale : Nat
  windowSize : Int
  sendTimeStamps : Bool
  popped : Nat
  handlers : Bool
  raised : Nat
  log : List Entry

/-- A new session with a handler of the connection-closed event. -/
def Connection.init : Connection where
  toSession := { Session.sendConnect 0 with oldMyNumbers := [], receivedPS2SeqNumbers := [] }
  phase := .none
  maxSegmentSize := 1460
  windowScale := 0
  windowSize := 1460
  sendTimeStamps := false
  popped := 0
  handlers := true
  raised := 0
  log := []

def Connection.raiseEventConnectionClosed (s : Connection) : Connection :=
  { s with handlers := false, raised := if s.handlers then s.raised + 1 else s.raised }

/-! ## Packets for the PS2 -/

def Session.createBasePacket (s : Session) : Packet where
  sequenceNumber := s.mySequenceNumber
  acknowledgementNumber := s.expectedSeqNumber
  payload := []
  syn := false
  fin := false
  rst := false

/-- `PushRecvBuff` of a packet that carries no data. -/
def Connection.pushRecvBuff (s : Connection) (rst : Bool) : Connection :=
  { s with
    toSession := s.reply rst, log := s.log ++ [.session { s.createBasePacket with rst }] }

/-- A packet that `Recv` returns, and that takes `amount` sequence numbers. -/
def Connection.emit (s : Connection) (packet : Packet) (amount : UInt32) : Connection :=
  { s with toSession := s.incrementMyNumber amount, log := s.log ++ [.session packet] }

def Connection.closeByRemoteRST (s : Connection) : Connection :=
  { s.pushRecvBuff true with phase := .closeCompletedFlushBuffer }

/-! ## `Send` -/

inductive HostSend where
  | accepts (accept : Nat → Nat)
  | fails (sent : Nat)

inductive HostOpen where
  | fails
  | connecting

/-- `windowSize.store`, as an `int`. -/
def Connection.storeWindow (s : Connection) (tcp : Segment) : Connection :=
  { s with windowSize := (tcp.windowSize.toNat * 2 ^ s.windowScale : Int).bmod (2 ^ 32) }

def Connection.option (s : Connection) : TcpOption → Connection
  | .mss maxSegmentSize => { s with maxSegmentSize }
  | .windowScale windowScale => { s with windowScale := windowScale.toNat }
  | .timeStamp => { s with sendTimeStamps := true }
  | .other => s

def Connection.sendConnect (s : Connection) (tcp : Segment) (host : HostOpen) : Connection :=
  if tcp.syn = false then s.closeByRemoteRST
  else
    let session := { s.toSession with
      expectedSeqNumber := tcp.sequenceNumber + 1
      receivedPS2SeqNumbers := List.replicate receivedPS2SeqNumberCount tcp.sequenceNumber
      mySequenceNumber := 1
      oldMyNumbers := List.replicate oldMyNumCount 1 }
    let s := (tcp.options.foldl Connection.option { s with toSession := session }).storeWindow tcp
    match host with
    | .fails => s.raiseEventConnectionClosed
    | .connecting => { s with phase := .sendingSynAck }

def Connection.checkRepeatSYNNumbers (s : Connection) (tcp : Segment) : NumCheckResult :=
  if tcp.sequenceNumber ≠ s.expectedSeqNumber - 1 then .bad else .ok

def Connection.checkNumbers (s : Connection) (tcp : Segment) (rejectOldSeq : Bool) :
    NumCheckResult × Connection :=
  let (result, session) := s.toSession.checkNumbers tcp.toTcpPacket rejectOldSeq
  (result, { s with toSession := session })

def Connection.sendConnected (s : Connection) (tcp : Segment) : Connection :=
  if tcp.syn then
    if s.checkRepeatSYNNumbers tcp = .bad then s.closeByRemoteRST else s
  else
    let (result, s) := s.checkNumbers tcp false
    if result = .bad then s.closeByRemoteRST else { s with phase := .connected }

/-- The part of `SendData` that sends to the host. -/
def Connection.takeData (s : Connection) (payload : List UInt8) (delta : Int) (host : HostSend) :
    Connection :=
  if 0 < (payload.length : Int) - delta then
    let session := { s.toSession with
      receivedPS2SeqNumbers := s.receivedPS2SeqNumbers.tail ++ [s.expectedSeqNumber] }
    match host with
    | .fails sent =>
        let session := { session with client := session.client ++ payload.take sent }
        { s with toSession := session }.closeByRemoteRST
    | .accepts accept =>
        let session := { session with
          client := session.client ++ sendLoop payload accept 0
          expectedSeqNumber := session.expectedSeqNumber + .ofInt (payload.length - delta) }
        { s with toSession := session }.pushRecvBuff false
  else s.pushRecvBuff false

def Connection.sendData (s : Connection) (tcp : Segment) (host : HostSend) : Connection :=
  if tcp.syn || tcp.urg then s.closeByRemoteRST
  else
    let (result, s) := (s.storeWindow tcp).checkNumbers tcp false
    if result = .bad then s.closeByRemoteRST
    else if tcp.payload.length = 0 then s
    else s.takeData tcp.payload (getDelta s.expectedSeqNumber tcp.sequenceNumber) host

def Connection.validateEmptyPacket (s : Connection) (tcp : Segment) (ignoreOld : Bool) :
    Bool × Connection :=
  let (result, s) := s.checkNumbers tcp (!ignoreOld)
  if result = .bad then (true, s.closeByRemoteRST)
  else if 0 < tcp.payload.length ∧
      getDelta s.expectedSeqNumber tcp.sequenceNumber < (tcp.payload.length : Int) then
    (true, s.closeByRemoteRST)
  else (false, s)

def Connection.sendNoData (s : Connection) (tcp : Segment) : Connection :=
  if tcp.syn then s.closeByRemoteRST else (s.validateEmptyPacket tcp true).2

def Connection.takeFIN (s : Connection) : Connection :=
  { s with
    receivedPS2SeqNumbers := s.receivedPS2SeqNumbers.tail ++ [s.expectedSeqNumber]
    expectedSeqNumber := s.expectedSeqNumber + 1 }

def Connection.closeByPS2Stage1_2 (s : Connection) (tcp : Segment) : Connection :=
  let (errored, s) := s.validateEmptyPacket tcp false
  if errored then s else { s.takeFIN with phase := .closingClosedByPS2 }.pushRecvBuff false

def Connection.closeByPS2Stage4 (s : Connection) (tcp : Segment) : Connection :=
  let (errored, s) := s.validateEmptyPacket tcp true
  if errored then s
  else if s.myNumberACKed then { s with phase := .closeCompleted }.raiseEventConnectionClosed
  else s

def Connection.closeByRemoteStage2_ButAfter4 (s : Connection) (tcp : Segment) : Connection :=
  let (errored, s) := s.validateEmptyPacket tcp true
  if errored then s
  else if s.myNumberACKed then { s with phase := .closeCompletedFlushBuffer }
  else s

def Connection.closeByRemoteStage3_4 (s : Connection) (tcp : Segment) : Connection :=
  let (errored, s) := s.validateEmptyPacket tcp false
  if errored then s
  else
    let s := s.takeFIN.pushRecvBuff false
    { s with
      phase := if s.myNumberACKed then .closeCompletedFlushBuffer
        else .closingClosedByRemoteThenPS2WaitingForAck }

def Connection.send (s : Connection) (tcp : Segment) (opening : HostOpen) (host : HostSend) : Connection :=
  let s : Connection := { s with log := s.log ++ [.ps2 tcp] }
  if tcp.rst then { s with phase := .closeCompleted }.raiseEventConnectionClosed
  else
    match s.phase with
    | .none => s.sendConnect tcp opening
    | .sendingSynAck => s
    | .sentSynAck => s.sendConnected tcp
    | .connected => if tcp.fin then s.closeByPS2Stage1_2 tcp else s.sendData tcp host
    | .closingClosedByPS2 => s.sendNoData tcp
    | .closingClosedByPS2ThenRemoteWaitingForAck => s.closeByPS2Stage4 tcp
    | .closingClosedByRemote => if tcp.fin then s.closeByRemoteStage3_4 tcp else s.sendData tcp host
    | .closingClosedByRemoteThenPS2WaitingForAck => s.closeByRemoteStage2_ButAfter4 tcp
    | .closeCompletedFlushBuffer => s.closeByRemoteRST
    | .closeCompleted => s

/-! ## `Recv` -/

/-- What the host socket answers. `nothing` is a connection that is not made yet, a call that would block or
a socket that was shut down. -/
inductive HostRecv where
  | nothing
  | connects
  | refuses
  | data (bytes : List UInt8)
  | endOfStream
  | error

def Connection.connectTCPComplete (s : Connection) (success : Bool) : Connection :=
  if success then
    { s.emit { s.createBasePacket with syn := true } 1 with phase := .sentSynAck }
  else { s with phase := .closeCompleted }.raiseEventConnectionClosed

def Connection.emitFIN (s : Connection) (phase : Phase) : Connection :=
  let s := s.emit { s.createBasePacket with fin := true } 1
  { s with myNumberACKed := false, phase }

def Connection.closeByPS2Stage3 (s : Connection) : Connection :=
  s.emitFIN .closingClosedByPS2ThenRemoteWaitingForAck

def Connection.closeByRemoteStage1 (s : Connection) : Connection := s.emitFIN .closingClosedByRemote

def Connection.recvData (s : Connection) (bytes : List UInt8) : Connection :=
  let s := s.emit { s.createBasePacket with payload := bytes } (.ofNat bytes.length)
  { s with myNumberACKed := false }

/-- `GetOutstandingSequenceLength`, as the difference of an `int` and a `u32` takes it. -/
def Session.outstanding (s : Session) : Int := getDelta s.mySequenceNumber s.receivedAckNumber

def Connection.maxSize (s : Connection) : Int :=
  min (s.maxSegmentSize.toNat - if s.sendTimeStamps then 12 else 0)
    ((s.windowSize - s.outstanding).bmod (2 ^ 32))

/-- The part of `Recv` that asks the host for data. -/
def Connection.recvHost (s : Connection) (host : HostRecv) : Connection :=
  if s.shouldWaitForAck then s
  else if 0 < s.maxSize then
    match host with
    | .data bytes => s.recvData bytes
    | .endOfStream => if s.phase = .connected then s.closeByRemoteStage1 else s.closeByPS2Stage3
    | .error => s.closeByRemoteRST
    | _ => s
  else s

def Connection.recv (s : Connection) (host : HostRecv) : Connection :=
  if s.popped < s.recvBuff.length then { s with popped := s.popped + 1 }
  else
    match s.phase with
    | .sendingSynAck =>
        match host with
        | .connects => s.connectTCPComplete true
        | .refuses => s.connectTCPComplete false
        | _ => s
    | .closeCompletedFlushBuffer => { s with phase := .closeCompleted }.raiseEventConnectionClosed
    | .connected | .closingClosedByPS2 => s.recvHost host
    | _ => s

/-- `recv` returns at least a byte, and no more than it was asked for. -/
def Connection.Answers (s : Connection) : HostRecv → Prop
  | .data bytes => bytes ≠ [] ∧ (bytes.length : Int) ≤ s.maxSize
  | _ => True

inductive ConnectionStep (s : Connection) : Connection → Prop
  | send (tcp : Segment) (opening : HostOpen) (host : HostSend) : ConnectionStep s (s.send tcp opening host)
  | recv (host : HostRecv) (answers : s.Answers host) : ConnectionStep s (s.recv host)

end Pcsx2.Tcp
