import Mathlib.Algebra.Order.Ring.Int
import Mathlib.Data.Int.Basic

/-!
# A TCP session between the PS2 and a host socket

The session from its SYN on, as long as the PS2 neither closes nor resets it: its packets carry no
SYN, FIN, RST or URG flag. Options, ports and the window are left out.
-/

namespace Pcsx2.Tcp

/-- Those of `TCP_State` that such a session reaches. -/
inductive TcpState where
  | sendingSynAck
  | sentSynAck
  | connected
  | closingClosedByRemote
  | closeCompletedFlushBuffer
  | closeCompleted
  deriving DecidableEq

inductive NumCheckResult where
  | ok
  | oldSeq
  | bad
  deriving DecidableEq

structure TcpPacket where
  sequenceNumber : UInt32
  acknowledgementNumber : UInt32
  payload : List UInt8

structure Reply where
  sequenceNumber : UInt32
  acknowledgementNumber : UInt32
  rst : Bool
  deriving DecidableEq

structure Session where
  state : TcpState
  expectedSeqNumber : UInt32
  receivedPS2SeqNumbers : List UInt32
  mySequenceNumber : UInt32
  oldMyNumbers : List UInt32
  receivedAckNumber : UInt32
  myNumberACKed : Bool
  /-- All that was pushed on `_recvBuff`. -/
  recvBuff : List Reply
  /-- The bytes that the host socket accepted. -/
  client : List UInt8

def receivedPS2SeqNumberCount : Nat := 5

def oldMyNumCount : Nat := 64

/-- After `SendConnect` at a SYN with this sequence number. -/
def Session.sendConnect (sequenceNumber : UInt32) : Session where
  state := .sendingSynAck
  expectedSeqNumber := sequenceNumber + 1
  receivedPS2SeqNumbers := List.replicate receivedPS2SeqNumberCount sequenceNumber
  mySequenceNumber := 1
  oldMyNumbers := List.replicate oldMyNumCount 1
  receivedAckNumber := 1
  myNumberACKed := true
  recvBuff := []
  client := []

/-- `GetDelta`: `a - b` taken for a signed difference, first adjusted as an `s64` where its size
exceeds half of `UINT_MAX`, then returned as an `s32`. -/
def getDelta (a b : UInt32) : Int :=
  let delta : Int := a.toNat - b.toNat
  let delta := if 4294967295 < 2 * delta then (-4294967295 : Int) + a.toNat - b.toNat - 1
    else delta
  let delta := if 2 * delta < -4294967295 then ((4294967295 - b + a + 1 : UInt32).toNat : Int)
    else delta
  delta.bmod (2 ^ 32)

def Session.incrementMyNumber (s : Session) (amount : UInt32) : Session :=
  { s with
    oldMyNumbers := (s.oldMyNumbers ++ [s.mySequenceNumber]).tail
    mySequenceNumber := s.mySequenceNumber + amount }

def Session.updateReceivedAckNumber (s : Session) (ack : UInt32) : Session :=
  if 0 < getDelta ack s.receivedAckNumber then { s with receivedAckNumber := ack } else s

def Session.shouldWaitForAck (s : Session) : Bool := s.oldMyNumbers.head? = some s.receivedAckNumber

/-- `CreateBasePacket`, pushed on `_recvBuff`. -/
def Session.reply (s : Session) (rst : Bool) : Session :=
  { s with recvBuff := s.recvBuff ++ [⟨s.mySequenceNumber, s.expectedSeqNumber, rst⟩] }

def Session.closeByRemoteRST (s : Session) : Session :=
  { s.reply true with state := .closeCompletedFlushBuffer }

/-- What `CheckNumbers` does at a valid acknowledgement number. -/
def Session.acknowledge (s : Session) (ack : UInt32) : Session :=
  let s := if ack = s.mySequenceNumber then { s with myNumberACKed := true } else s
  s.updateReceivedAckNumber ack

def Session.checkNumbers (s : Session) (tcp : TcpPacket) (rejectOldSeq : Bool) :
    NumCheckResult × Session :=
  if tcp.acknowledgementNumber ≠ s.mySequenceNumber ∧
      tcp.acknowledgementNumber ∉ s.oldMyNumbers then (.bad, s)
  else
    let s := s.acknowledge tcp.acknowledgementNumber
    if tcp.sequenceNumber ≠ s.expectedSeqNumber then
      if rejectOldSeq then (.bad, s)
      else if tcp.payload.length = 0 then (.oldSeq, s)
      else if tcp.sequenceNumber ∉ s.receivedPS2SeqNumbers then (.oldSeq, s)
      else (.bad, s)
    else (.ok, s)

/-- The loop over `send`, from `sent` on. The socket takes as much as `accept` says, at least a byte;
a call that would block changes nothing. -/
def sendLoop (payload : List UInt8) (accept : Nat → Nat) (sent : Nat) : List UInt8 :=
  if sent < payload.length then
    let ret := max 1 (min (accept sent) (payload.length - sent))
    (payload.drop sent).take ret ++ sendLoop payload accept (sent + ret)
  else []
termination_by payload.length - sent
decreasing_by omega

def Session.sendConnected (s : Session) (tcp : TcpPacket) : Session :=
  let (result, s) := s.checkNumbers tcp false
  if result = .bad then s.closeByRemoteRST else { s with state := .connected }

def Session.sendData (s : Session) (tcp : TcpPacket) (accept : Nat → Nat) : Session :=
  let (result, s) := s.checkNumbers tcp false
  if result = .bad then s.closeByRemoteRST
  else if tcp.payload.length = 0 then s
  else
    let delta := getDelta s.expectedSeqNumber tcp.sequenceNumber
    let s := if 0 < (tcp.payload.length : Int) - delta then
        { s with
          receivedPS2SeqNumbers := s.receivedPS2SeqNumbers.tail ++ [s.expectedSeqNumber]
          client := s.client ++ sendLoop tcp.payload accept 0
          expectedSeqNumber := s.expectedSeqNumber + .ofInt (tcp.payload.length - delta) }
      else s
    s.reply false

/-- `Send`. While the SYN is being answered, packets are ignored. -/
def Session.send (s : Session) (tcp : TcpPacket) (accept : Nat → Nat) : Session :=
  match s.state with
  | .sendingSynAck => s
  | .sentSynAck => s.sendConnected tcp
  | .connected | .closingClosedByRemote => s.sendData tcp accept
  | .closeCompleted => s
  | .closeCompletedFlushBuffer => s.closeByRemoteRST

def Session.connectTCPComplete (s : Session) (success : Bool) : Session :=
  if success then { s.incrementMyNumber 1 with state := .sentSynAck }
  else { s with state := .closeCompleted }

/-- `Recv` of a packet of `recived` bytes. -/
def Session.recvData (s : Session) (recived : UInt32) : Session :=
  { s.incrementMyNumber recived with myNumberACKed := false }

def Session.closeByRemoteStage1 (s : Session) : Session :=
  { s.incrementMyNumber 1 with myNumberACKed := false, state := .closingClosedByRemote }

end Pcsx2.Tcp
