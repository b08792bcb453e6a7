import Pcsx2.Sio.Answers

/-!
# Runs of SIO2 that are safe

A run is safe when no step faults and every command is answered with as many bytes as its entry of the queue
declares. Nothing makes the guest declare the length that the handler of its command is written for, so that
safety is a condition on what the guest sends.
-/

namespace Pcsx2.Sio
open Foundation

variable {Card Pad : Type} {devices : Devices Card Pad} {bus : Bus Card Pad} {s t : Sio2 Card Pad}

/-! ## One command -/

def answer (bus : Bus Card Pad) (port : Fin 2) (commandLength : Nat) : Option Nat :=
  match bus.fifoIn with
  | [] => none
  | sioMode :: bytes =>
    match SioMode.ofByte sioMode with
    | .pad => some (bytes.length + 1)
    | .multitap => multitapAnswer (bus.multitapEnabled port) bytes
    | .infrared => if bytes = [] then none else some (commandLength - bus.fifoOut.length)
    | .memcard =>
      memcardAnswer (bus.mcds port (bus.multitaps port).currentMemcardSlot) commandLength bus.fifoOut.length bytes
    | .unhandled => some 1

/-- The size of `g_Sio2FifoOut` once it is aligned to the blocks of a DMA, if there are any. -/
def aligned (dmaBlockSize size : Nat) : Nat :=
  if 0 < dmaBlockSize ∧ 0 < size % dmaBlockSize then size + (dmaBlockSize - size % dmaBlockSize) else size

theorem align_outcome (dmaBlockSize : Nat) (bus : Bus Card Pad) :
    Outcome (Sio2.align dmaBlockSize) bus True fun _ t =>
      bus.fifoOut <+: t.fifoOut ∧ t.fifoOut.length = aligned dmaBlockSize bus.fifoOut.length := by
  refine Outcome.done rfl ?_
  unfold aligned
  dsimp only
  split
  · exact ⟨List.prefix_append _ _, by simp [Bus.push]⟩
  · exact ⟨List.prefix_rfl, rfl⟩

variable (devices) in
theorem process_outcome (port : Fin 2) (commandLength dmaBlockSize : Nat) (bus : Bus Card Pad) :
    Outcome (Sio2.process devices port commandLength dmaBlockSize) bus (answer bus port commandLength ≠ none)
      fun _ t => bus.fifoOut <+: t.fifoOut ∧ t.fifoOut.length =
        aligned dmaBlockSize (bus.fifoOut.length + (answer bus port commandLength).getD 0) := by
  have aligns : ∀ (device : SioM Card Pad Unit) (given : Bus Card Pad) (answer : Option Nat),
      given.fifoOut = bus.fifoOut → Answers device given answer →
      Outcome (do device; Sio2.align dmaBlockSize) given (answer ≠ none) fun _ t =>
        bus.fifoOut <+: t.fifoOut ∧
          t.fifoOut.length = aligned dmaBlockSize (bus.fifoOut.length + answer.getD 0) := by
    intro device given answer same answers
    refine answers.bindTotal fun _ t _ answered => ?_
    refine (align_outcome dmaBlockSize t).weaken fun _ _ u padded => ?_
    rw [← same, ← answered.2]
    exact ⟨answered.1.trans padded.1, padded.2⟩
  unfold Sio2.process answer
  match bytes : bus.fifoIn with
  | [] => exact Outcome.fail (popIn_nil bytes) (by simp)
  | sioMode :: rest =>
    refine Outcome.step (popIn_cons bytes) ?_
    dsimp only
    cases SioMode.ofByte sioMode with
    | pad => exact aligns _ _ _ rfl (accessPad_answers port _)
    | multitap => exact aligns _ _ _ rfl (accessMultitap_answers port _)
    | infrared => exact aligns _ _ _ rfl (accessInfrared_answers _)
    | memcard => exact aligns _ _ _ rfl (accessMemcard_answers port _)
    | unhandled =>
      refine aligns (do pushOut 0xff; SetCmdStat CmdStat.DISCONNECTED) _ (some 1) rfl ?_
      exact Answers.of_some (Outcome.done rfl (answered_push [0xff] rfl))

/-! ## One step -/

/-- With `data`, if that is its last byte, the current command has the bytes its handler takes, and the length it
declares is that of the answer. -/
def Sio2.Fits (s : Sio2 Card Pad) (data : UInt8) : Prop :=
  s.queueComplete = false → (s.taken data).hasCommand →
    ∃ n, answer (s.taken data).bus s.port s.commandLength = some n ∧
      aligned s.dmaBlockSize (s.bus.fifoOut.length + n) = s.bus.fifoOut.length + s.commandLength

def Allowed (s : Sio2 Card Pad) : Action Card Pad → Prop
  | .write data =>
    if s.queueRead then s.Fits data
    else s.queuePosition ≠ 16 ∧
      ∀ currentCmd, s.CmdQueue[s.queuePosition]? = some currentCmd → (s.loadCmd currentCmd).Fits data
  | _ => True

def AnsweredInFull (s t : Sio2 Card Pad) : Prop :=
  t.queuePosition = s.queuePosition + 1 → Answered t.commandLength s.bus t.bus

theorem answeredInFull_idle (idle : t.queuePosition = s.queuePosition ∨ t.queuePosition = 0) :
    AnsweredInFull s t := by
  intro moved
  omega

theorem receive_complete (data : UInt8) (complete : s.queueComplete = true) :
    s.receive devices data = .ok s := by
  unfold Sio2.receive
  rw [if_pos complete]
  rfl

theorem receive_part (data : UInt8) (unfinished : s.queueComplete = false)
    (part : (s.taken data).hasCommand = false) : s.receive devices data = .ok (s.taken data) := by
  unfold Sio2.receive
  rw [if_neg (by simp [unfinished]), if_neg (by simp [part])]
  rfl

theorem receive_whole (data : UInt8) (unfinished : s.queueComplete = false)
    (whole : (s.taken data).hasCommand = true) :
    s.receive devices data =
      match Sio2.process devices s.port s.commandLength s.dmaBlockSize (s.taken data).bus with
      | .ok (_, bus) => .ok { s with queueRead := false, queuePosition := s.queuePosition + 1, bus }
      | .error fault => .error fault := by
  unfold Sio2.receive
  rw [if_neg (by simp [unfinished]), if_pos whole]
  cases Sio2.process devices s.port s.commandLength s.dmaBlockSize (s.taken data).bus <;> rfl

variable (devices) in
theorem receive_safe_iff (s : Sio2 Card Pad) (data : UInt8) :
    (∃ t, s.receive devices data = .ok t ∧ AnsweredInFull s t) ↔ s.Fits data := by
  cases complete : s.queueComplete with
  | true =>
    refine iff_of_true ⟨s, receive_complete data complete, answeredInFull_idle (.inl rfl)⟩ ?_
    exact fun unfinished => absurd (complete.symm.trans unfinished) (by simp)
  | false =>
    cases whole : (s.taken data).hasCommand with
    | false =>
      refine iff_of_true ⟨_, receive_part data complete whole, answeredInFull_idle (.inl rfl)⟩ ?_
      exact fun _ has => absurd (whole.symm.trans has) (by simp)
    | true =>
      rw [receive_whole data complete whole]
      have outcome := process_outcome devices s.port s.commandLength s.dmaBlockSize (s.taken data).bus
      unfold Outcome at outcome
      unfold Sio2.Fits
      simp only [complete, whole, true_implies]
      split at outcome
      · rename_i u bus ends
        obtain ⟨enough, behind, size⟩ := outcome
        obtain ⟨n, answers⟩ := Option.ne_none_iff_exists'.1 enough
        rw [ends, answers]
        rw [answers, Option.getD_some] at size
        constructor
        · rintro ⟨t, goes, full⟩
          cases goes
          have answered := full rfl
          exact ⟨n, rfl, size.symm.trans answered.2⟩
        · rintro ⟨_, same, total⟩
          cases same
          exact ⟨_, rfl, fun _ => ⟨behind, size.trans total⟩⟩
      · rename_i fault ends
        rw [ends]
        constructor
        · rintro ⟨t, never, _⟩
          cases never
        · rintro ⟨n, answers, _⟩
          exact absurd (answers ▸ Option.some_ne_none n) outcome

/-! ## Runs -/

theorem write_safe_iff (s : Sio2 Card Pad) (data : UInt8) :
    (∃ t, s.Write devices data = .ok t ∧ AnsweredInFull s t) ↔ Allowed s (.write data : Action Card Pad) := by
  unfold Sio2.Write Allowed
  dsimp only
  split
  · exact receive_safe_iff devices s data
  · split
    · rename_i exhausted
      have none : s.CmdQueue[s.queuePosition]? = none := Vector.getElem?_eq_none (by omega)
      refine iff_of_true ⟨s, rfl, answeredInFull_idle (.inl rfl)⟩ ?_
      exact ⟨by omega, fun _ some => absurd (none.symm.trans some) (by simp)⟩
    · rename_i within
      split
      · rename_i none
        have last : s.queuePosition = 16 := by
          have := Vector.getElem?_eq_none_iff.1 none
          omega
        refine iff_of_false ?_ fun allowed => allowed.1 last
        rintro ⟨t, never, _⟩
        cases never
      · rename_i currentCmd some
        have inside : s.queuePosition ≠ 16 := by
          have := (Vector.getElem?_eq_some_iff.1 some).1
          omega
        have loaded := receive_safe_iff devices (s.loadCmd currentCmd) data
        rw [show (∃ t, Sio2.receive devices (s.loadCmd currentCmd) data = .ok t ∧ AnsweredInFull s t) ↔
          (s.loadCmd currentCmd).Fits data from loaded]
        constructor
        · intro fits
          refine ⟨inside, fun _ same => ?_⟩
          cases Option.some.inj (some.symm.trans same)
          exact fits
        · exact fun allowed => allowed.2 currentCmd some

variable (devices) in
theorem step_safe_iff (s : Sio2 Card Pad) (action : Action Card Pad) :
    (∃ t, s.step devices action = .ok t ∧ AnsweredInFull s t) ↔ Allowed s action := by
  cases action with
  | write data => exact write_safe_iff s data
  | setCmd position value =>
    refine iff_of_true ⟨_, rfl, answeredInFull_idle ?_⟩ trivial
    unfold Sio2.SetCmd
    dsimp only
    split
    · exact .inr rfl
    · exact .inl rfl
  | read =>
    refine iff_of_true ⟨_, rfl, answeredInFull_idle (.inl ?_)⟩ trivial
    unfold Sio2.Read
    split <;> rfl
  | dma11 bcr => exact iff_of_true ⟨_, rfl, answeredInFull_idle (.inl rfl)⟩ trivial
  | host mcds pads multitapEnabled => exact iff_of_true ⟨_, rfl, answeredInFull_idle (.inl rfl)⟩ trivial

/-- Every step of the run is without fault, and every command that it processes is answered in full. -/
def Safe (devices : Devices Card Pad) (s : Sio2 Card Pad) : List (Action Card Pad) → Prop
  | [] => True
  | action :: rest => ∃ t, s.step devices action = .ok t ∧ AnsweredInFull s t ∧ Safe devices t rest

instance (s t : Sio2 Card Pad) : Decidable (AnsweredInFull s t) :=
  inferInstanceAs (Decidable (_ → _ ∧ _))

instance decideSafe (devices : Devices Card Pad) :
    (s : Sio2 Card Pad) → (actions : List (Action Card Pad)) → Decidable (Safe devices s actions)
  | _, [] => isTrue trivial
  | s, action :: rest =>
    match goes : s.step devices action with
    | .error _ => isFalse fun ⟨_, also, _⟩ => by cases goes.symm.trans also
    | .ok t =>
      have := decideSafe devices t rest
      decidable_of_iff (AnsweredInFull s t ∧ Safe devices t rest)
        ⟨fun safe => ⟨t, goes, safe⟩, fun ⟨_, also, safe⟩ => by cases goes.symm.trans also; exact safe⟩

/-- Every step of the run is allowed. -/
def Within (devices : Devices Card Pad) (s : Sio2 Card Pad) : List (Action Card Pad) → Prop
  | [] => True
  | action :: rest => Allowed s action ∧ ∀ t, s.step devices action = .ok t → Within devices t rest

/-- A run is safe if and only if every byte in it is allowed where it comes. -/
theorem sio2_safe_iff (devices : Devices Card Pad) (s : Sio2 Card Pad) (actions : List (Action Card Pad)) :
    Safe devices s actions ↔ Within devices s actions := by
  induction actions generalizing s with
  | nil => exact Iff.rfl
  | cons action rest ih =>
    unfold Safe Within
    rw [← step_safe_iff devices s action]
    constructor
    · rintro ⟨t, goes, full, safe⟩
      refine ⟨⟨t, goes, full⟩, fun u also => ?_⟩
      cases Except.ok.inj (goes.symm.trans also)
      exact (ih t).1 safe
    · rintro ⟨⟨t, goes, full⟩, further⟩
      exact ⟨t, goes, full, (ih t).2 (further t goes)⟩

/-! ## Runs that are not safe -/

def erased : Devices Unit Unit where
  getSizeInfo _ := ⟨512, 16, 0x4000, 0x52⟩
  read _ _ size := (Vector.replicate size 0xff, ())
  save _ _ _ := ()
  eraseBlock _ _ := ()
  notConnected _ := true
  softReset _ := ()
  sendCommandByte _ _ := (0xff, ())

def powerOn (present : Bool) : Sio2 Unit Unit :=
  Sio2.Initialize ⟨Vector.replicate 16 0, 0, false, 0, 0, 0, false,
    ⟨0, [], [], fun _ _ => ⟨0, false, 0, 0, 0, 0, present, false, ()⟩, (0, 0),
      ⟨2, 0, 0, 0, 0, Vector.replicate 128 0⟩, fun _ => ⟨0, 0⟩, fun _ => false, fun _ _ => ⟨0, ()⟩⟩⟩

/-- The probe of a card, with the length that its handler is written for. -/
example : Safe erased (powerOn true) [.setCmd 0 0x400, .write 0x81, .write 0x11, .write 0x00, .write 0x00] := by
  decide +kernel

/-- A seventeenth command, a card command of one byte, a PS1 read of 141 bytes, and the probe of an empty slot. -/
theorem sio2_unsafe :
    ¬ Safe erased (powerOn true) ((List.finRange 16).map (Action.setCmd · 0x100) ++
      List.replicate 17 (Action.write 0x01)) ∧
    ¬ Safe erased (powerOn true) [.setCmd 0 0x100, .write 0x81] ∧
    ¬ Safe erased (powerOn true) ([.setCmd 0 0x8d00, .write 0x81, .write 0x52] ++
      List.replicate 139 (Action.write 0x00)) ∧
    ¬ Safe erased (powerOn false) [.setCmd 0 0x400, .write 0x81, .write 0x11, .write 0x00, .write 0x00] := by
  decide +kernel

end Pcsx2.Sio
