import Pcsx2.Sio.Sio2

/-!
# How long the answers of the devices are

`answer` gives the length for which each command is written, out of what is in front of the device: the bytes of
the command, the card, and how much of earlier answers the guest has not taken. It is `none` where the bytes that
the handler takes are not there or the sector buffer ends.
-/

namespace Pcsx2.Sio
open Foundation

variable {Card Pad : Type} {β : Type} {bus t u : Bus Card Pad}

/-! ## Rules -/

/-- The answer of `n` bytes is behind what was in `g_Sio2FifoOut`. -/
def Answered (n : Nat) (bus t : Bus Card Pad) : Prop :=
  bus.fifoOut <+: t.fifoOut ∧ t.fifoOut.length = bus.fifoOut.length + n

def Answers (m : SioM Card Pad Unit) (bus : Bus Card Pad) (answer : Option Nat) : Prop :=
  Outcome m bus (answer ≠ none) fun _ t => Answered (answer.getD 0) bus t

theorem Answered.trans {n k : Nat} (first : Answered n bus t) (second : Answered k t u) :
    Answered (n + k) bus u :=
  ⟨first.1.trans second.1, by rw [second.2, first.2, Nat.add_assoc]⟩

theorem answered_push (bytes : List UInt8) (same : t.fifoOut = bus.fifoOut) :
    Answered bytes.length bus (t.push bytes) := by
  constructor
  · rw [Bus.push, same]
    exact List.prefix_append _ _
  · simp [Bus.push, same]

variable {n : Nat}

theorem Answers.of_some {m : SioM Card Pad Unit}
    (outcome : Outcome m bus True fun _ t => Answered n bus t) : Answers m bus (some n) :=
  outcome.congr (by simp)

variable {byte : UInt8}

theorem popIn_cons {rest : List UInt8} (bytes : bus.fifoIn = byte :: rest) :
    popIn bus = .ok (byte, { bus with fifoIn := rest }) := by
  cases bus
  cases bytes
  rfl

theorem popIn_nil (bytes : bus.fifoIn = []) : popIn bus = .error .emptyFifo := by
  cases bus
  cases bytes
  rfl

/-! ## Loops -/

theorem writeLoop_outcome (n : Nat) (checksum : UInt8) (bus : Bus Card Pad) :
    Outcome (MemoryCardProtocol.writeLoop n checksum) bus (n ≤ bus.fifoIn.length) fun _ t =>
      Answered n bus t ∧ t.fifoIn = bus.fifoIn.drop n := by
  induction n generalizing checksum bus with
  | zero => exact (Outcome.done rfl ⟨⟨List.prefix_rfl, rfl⟩, rfl⟩).congr (by simp)
  | succ n ih =>
    unfold MemoryCardProtocol.writeLoop
    match bytes : bus.fifoIn with
    | [] => exact Outcome.fail (popIn_nil bytes) (by simp)
    | byte :: rest =>
      refine Outcome.step (popIn_cons bytes) (Outcome.step rfl ?_)
      refine ((ih _ _).bind fun _ u _ finished => Outcome.done rfl ?_).congr (by simp [Bus.push])
      obtain ⟨answered, left⟩ := finished
      refine ⟨?_, left⟩
      rw [Nat.add_comm]
      exact Answered.trans (t := ({ bus with fifoIn := rest } : Bus Card Pad).push [0x00])
        ⟨List.prefix_append _ _, by simp [Bus.push]⟩ answered

variable {respond : UInt8 → SioM Card Pad UInt8}

/-- A handler that looks at no FIFO and is called for byte after byte, where `ready` tells how many calls have been
before and `allowed` which calls do not fault. -/
theorem respondToEach_outcome {ready : Nat → Bus Card Pad → Prop}
    {allowed : Nat → Prop}
    (each : ∀ n bus byte, ready n bus → Outcome (respond byte) bus (allowed n) fun _ t =>
      ready (n + 1) t ∧ t.fifoIn = bus.fifoIn ∧ t.fifoOut = bus.fifoOut)
    (kept : ∀ n (bus : Bus Card Pad) fifoIn fifoOut, ready n bus → ready n { bus with fifoIn, fifoOut })
    {bytes : List UInt8} (start : ready n bus) (queued : bus.fifoIn = bytes) :
    Outcome (respondToEach respond bytes) bus (∀ i < bytes.length, allowed (n + i)) fun _ t =>
      Answered bytes.length bus t := by
  induction bytes generalizing n bus with
  | nil => exact (Outcome.done rfl ⟨List.prefix_rfl, rfl⟩).congr (by simp)
  | cons byte rest ih =>
    have both : Outcome (respondToEach respond (byte :: rest)) bus
        (allowed n ∧ ∀ i < rest.length, allowed (n + 1 + i)) fun _ t => Answered (byte :: rest).length bus t := by
      refine (each n bus byte start).bind fun response t _ responded => ?_
      obtain ⟨after, sameIn, sameOut⟩ := responded
      refine Outcome.step (popIn_cons (sameIn.trans queued)) (Outcome.step rfl ?_)
      refine (ih (kept _ _ _ _ after) rfl).weaken fun _ _ u answered => ?_
      rw [List.length_cons, Nat.add_comm]
      exact (answered_push [response] sameOut).trans answered
    apply both.congr
    constructor
    · rintro ⟨first, others⟩ i below
      cases i with
      | zero => exact first
      | succ i =>
        rw [show n + (i + 1) = n + 1 + i from by omega]
        exact others i (by simpa using below)
    · intro all
      refine ⟨all 0 (by simp), fun i below => ?_⟩
      rw [show n + 1 + i = n + (i + 1) from by omega]
      exact all (i + 1) (by simpa using below)

theorem popAndPush_answered (each : ∀ bus byte, Outcome (respond byte) bus True fun _ t =>
      t.fifoIn = bus.fifoIn ∧ t.fifoOut = bus.fifoOut)
    {bytes : List UInt8} (queued : bus.fifoIn = bytes) :
    Outcome (popAndPush respond bytes) bus True fun _ t => Answered bytes.length bus t := by
  induction bytes generalizing bus with
  | nil => exact Outcome.done rfl ⟨List.prefix_rfl, rfl⟩
  | cons byte rest ih =>
    refine Outcome.step (popIn_cons queued) ((each _ byte).andThen fun response t responded => ?_)
    obtain ⟨sameIn, sameOut⟩ := responded
    refine Outcome.step (t := t.push [response]) rfl ?_
    have left : (t.push [response]).fifoIn = rest := sameIn
    refine (ih left).weaken fun _ _ u answered => ?_
    rw [List.length_cons, Nat.add_comm]
    exact (answered_push [response] sameOut).trans answered

/-! ## PS2 commands -/

/-- What `The2bTerminator` pushes behind `queued` bytes. -/
def terminated (length queued : Nat) : Nat := (length - 2 - queued) + 2

namespace MemoryCardProtocol

variable {devices : Devices Card Pad} {commandLength : Nat} {answer : Option Nat}
  {handler : SioM Card Pad Unit}

theorem unlessPS1Fail_answers (handles : Answers handler bus answer) :
    Answers (unlessPS1Fail commandLength handler) bus
      (if bus.card.IsPSX ∧ 0 < commandLength then some (commandLength - bus.fifoOut.length) else answer) := by
  unfold unlessPS1Fail
  refine Outcome.step rfl ?_
  split
  · exact Answers.of_some (Outcome.done rfl ⟨List.prefix_append _ _, by simp [Bus.push]⟩)
  · exact handles

theorem The2bTerminator_answered (length : Nat) (bus : Bus Card Pad) :
    Outcome (The2bTerminator length) bus True fun _ t => Answered (terminated length bus.fifoOut.length) bus t := by
  refine Outcome.done rfl ⟨?_, ?_⟩
  · simp [Bus.push]
  · simp [Bus.push, terminated]

theorem The2bTerminator_answers (length : Nat) (bus : Bus Card Pad) :
    Answers (The2bTerminator length) bus (some (terminated length bus.fifoOut.length)) :=
  Answers.of_some (The2bTerminator_answered length bus)

theorem pushAbsent_answers (bus : Bus Card Pad) : Answers pushAbsent bus (some 4) :=
  Answers.of_some (Outcome.done rfl ⟨by simp [Bus.push], by simp [Bus.push]⟩)

theorem SetSector_answers (bus : Bus Card Pad) :
    Answers (SetSector devices commandLength) bus
      (if bus.card.IsPSX ∧ 0 < commandLength then some (commandLength - bus.fifoOut.length)
        else if 5 ≤ bus.fifoIn.length then some (terminated 9 bus.fifoOut.length) else none) := by
  apply unlessPS1Fail_answers
  match bytes : bus.fifoIn with
  | [] => exact Outcome.fail (popIn_nil bytes) (by simp)
  | [_] => exact Outcome.step (popIn_cons bytes) (Outcome.fail (popIn_nil rfl) (by simp))
  | [_, _] =>
    exact Outcome.step (popIn_cons bytes) (Outcome.step (popIn_cons rfl)
      (Outcome.fail (popIn_nil rfl) (by simp)))
  | [_, _, _] =>
    exact Outcome.step (popIn_cons bytes) (Outcome.step (popIn_cons rfl) (Outcome.step (popIn_cons rfl)
      (Outcome.fail (popIn_nil rfl) (by simp))))
  | [_, _, _, _] =>
    exact Outcome.step (popIn_cons bytes) (Outcome.step (popIn_cons rfl) (Outcome.step (popIn_cons rfl)
      (Outcome.step (popIn_cons rfl) (Outcome.fail (popIn_nil rfl) (by simp)))))
  | _ :: _ :: _ :: _ :: _ :: rest =>
    rw [if_pos (by simp)]
    refine Outcome.step (popIn_cons bytes) (Outcome.step (popIn_cons rfl) (Outcome.step (popIn_cons rfl)
      (Outcome.step (popIn_cons rfl) (Outcome.step (popIn_cons rfl) (Outcome.step rfl ?_)))))
    exact The2bTerminator_answers 9 _

theorem GetSpecs_answers (bus : Bus Card Pad) :
    Answers (GetSpecs devices commandLength) bus
      (if bus.card.IsPSX ∧ 0 < commandLength then some (commandLength - bus.fifoOut.length) else some 11) := by
  apply unlessPS1Fail_answers
  exact Answers.of_some (Outcome.done rfl ⟨by simp [Bus.push], by simp [Bus.push]⟩)

theorem SetTerminator_answers (bus : Bus Card Pad) :
    Answers (SetTerminator commandLength) bus
      (if bus.card.IsPSX ∧ 0 < commandLength then some (commandLength - bus.fifoOut.length)
        else if 1 ≤ bus.fifoIn.length then some 3 else none) := by
  apply unlessPS1Fail_answers
  match bytes : bus.fifoIn with
  | [] => exact Outcome.fail (popIn_nil bytes) (by simp)
  | term :: rest =>
    rw [if_pos (by simp)]
    refine Answers.of_some (Outcome.step (popIn_cons bytes) (Outcome.done rfl ⟨?_, ?_⟩))
    · simp [Bus.push, Bus.setCard]
    · simp [Bus.push, Bus.setCard]

theorem GetTerminator_answers (bus : Bus Card Pad) :
    Answers (GetTerminator commandLength) bus
      (if bus.card.IsPSX ∧ 0 < commandLength then some (commandLength - bus.fifoOut.length) else some 3) := by
  apply unlessPS1Fail_answers
  exact Answers.of_some (Outcome.done rfl ⟨by simp [Bus.push], by simp [Bus.push]⟩)

def carried (bytes : List UInt8) : Option Nat :=
  match bytes with
  | [] => none
  | length :: data => if length.toNat ≤ data.length then some (length.toNat + 4) else none

theorem WriteData_answers (bus : Bus Card Pad) :
    Answers (WriteData devices commandLength) bus
      (if bus.card.IsPSX ∧ 0 < commandLength then some (commandLength - bus.fifoOut.length)
        else carried bus.fifoIn) := by
  apply unlessPS1Fail_answers
  refine Outcome.step rfl (Outcome.step rfl ?_)
  match bytes : bus.fifoIn with
  | [] => exact Outcome.fail (popIn_nil bytes) (by simp [carried])
  | length :: data =>
    refine Outcome.step (popIn_cons bytes) ?_
    refine ((writeLoop_outcome length.toNat 0x00 _).bind fun written u enough finished =>
      Outcome.done rfl ?_).congr (by simp [carried])
    have total : (carried (length :: data)).getD 0 = 2 + (length.toNat + 2) := by
      rw [carried, if_pos enough, Option.getD_some]
      omega
    rw [total]
    refine Answered.trans (t := { bus.push [0x00, 0x2b] with fifoIn := data })
      ⟨List.prefix_append _ _, by simp [Bus.push]⟩ ?_
    refine Answered.trans (t := u) ?_ ⟨?_, ?_⟩
    · simpa [Bus.push] using finished.1
    · simp [Bus.push, Bus.setCard]
    · simp [Bus.push, Bus.setCard]

def asked (bytes : List UInt8) : Option Nat :=
  match bytes with
  | [] => none
  | length :: _ => some (length.toNat + 4)

theorem ReadData_answers (bus : Bus Card Pad) :
    Answers (ReadData devices commandLength) bus
      (if bus.card.IsPSX ∧ 0 < commandLength then some (commandLength - bus.fifoOut.length)
        else asked bus.fifoIn) := by
  apply unlessPS1Fail_answers
  match bytes : bus.fifoIn with
  | [] => exact Outcome.fail (popIn_nil bytes) (by simp [asked])
  | length :: rest =>
    refine Answers.of_some (Outcome.step (popIn_cons bytes) (Outcome.done rfl ⟨?_, ?_⟩))
    · simp [Bus.push, Bus.setCard]
    · simp [Bus.push, Bus.setCard]

theorem EraseBlock_answers (bus : Bus Card Pad) :
    Answers (EraseBlock devices commandLength) bus
      (if bus.card.IsPSX ∧ 0 < commandLength then some (commandLength - bus.fifoOut.length)
        else some (terminated 4 bus.fifoOut.length)) := by
  apply unlessPS1Fail_answers
  exact Outcome.step rfl (The2bTerminator_answers 4 _)

/-- The answers of `AuthXor` by its mode. -/
def authAnswer (queued : Nat) (bytes : List UInt8) : Option Nat :=
  match bytes with
  | [] => none
  | modeByte :: data =>
    match authMode modeByte with
    | .longXor => if 8 ≤ data.length then some 12 else none
    | .shortNoXor => some (terminated 5 queued)
    | .longNoXor => some (terminated 14 queued)
    | .unexpected => some 0

theorem AuthXor_answers (bus : Bus Card Pad) :
    Answers (AuthXor commandLength) bus
      (if bus.card.IsPSX ∧ 0 < commandLength then some (commandLength - bus.fifoOut.length)
        else authAnswer bus.fifoOut.length bus.fifoIn) := by
  apply unlessPS1Fail_answers
  match bytes : bus.fifoIn with
  | [] => exact Outcome.fail (popIn_nil bytes) (by simp [authAnswer])
  | modeByte :: data =>
    refine Outcome.step (popIn_cons bytes) ?_
    unfold authAnswer
    dsimp only
    cases authMode modeByte with
    | longXor =>
      refine Outcome.step rfl (Outcome.step rfl ?_)
      refine ((writeLoop_outcome 8 0x00 _).bind fun written u enough finished =>
        Outcome.done rfl ?_).congr (by simp [Bus.push])
      dsimp only
      rw [if_pos (by exact enough)]
      refine Answered.trans (n := 2) (k := 10) (t := { bus.push [0x00, 0x2b] with fifoIn := data })
        ⟨List.prefix_append _ _, by simp [Bus.push]⟩ ?_
      refine Answered.trans (n := 8) (k := 2) (t := u) ?_ ⟨?_, ?_⟩
      · simpa [Bus.push] using finished.1
      · simp [Bus.push]
      · simp [Bus.push]
    | shortNoXor => exact The2bTerminator_answers 5 _
    | longNoXor => exact The2bTerminator_answers 14 _
    | unexpected => exact Answers.of_some (Outcome.done rfl ⟨List.prefix_rfl, rfl⟩)

theorem Probe_answers (bus : Bus Card Pad) :
    Answers (Probe commandLength) bus
      (if bus.card.IsPSX ∧ 0 < commandLength then some (commandLength - bus.fifoOut.length)
        else some (if bus.card.IsPresent then terminated 4 bus.fifoOut.length else 4)) := by
  apply unlessPS1Fail_answers
  refine Outcome.step rfl ?_
  cases present : bus.card.IsPresent with
  | true => exact The2bTerminator_answers 4 bus
  | false => exact pushAbsent_answers bus

theorem AuthF3_answers (bus : Bus Card Pad) :
    Answers (AuthF3 commandLength) bus
      (if bus.card.IsPSX ∧ 0 < commandLength then some (commandLength - bus.fifoOut.length)
        else some (if bus.card.IsPresent then terminated 5 bus.fifoOut.length else 4)) := by
  apply unlessPS1Fail_answers
  refine Outcome.step rfl ?_
  cases present : bus.card.IsPresent with
  | true => exact Outcome.step rfl (The2bTerminator_answers 5 _)
  | false => exact pushAbsent_answers bus

/-! ## PS1 commands -/

def Advanced (bus t : Bus Card Pad) : Prop :=
  t.fifoIn = bus.fifoIn ∧ t.fifoOut = bus.fifoOut ∧ t.card.IsPresent = bus.card.IsPresent ∧
    t.ps1McState.currentByte = bus.ps1McState.currentByte

theorem sectorByte_outcome (index : Nat) (bus : Bus Card Pad) :
    Outcome (sectorByte index) bus (index < 128) fun _ t => t = bus := by
  unfold sectorByte
  refine Outcome.step rfl ?_
  by_cases inside : index < 128
  · rw [Vector.getElem?_eq_getElem inside]
    refine Outcome.congr (Outcome.done rfl ?_) (iff_of_true trivial inside)
    rfl
  · rw [Vector.getElem?_eq_none (by omega)]
    exact Outcome.error rfl inside

theorem readSectorByte_outcome (currentByte : Nat) (bus : Bus Card Pad) :
    Outcome (readSectorByte currentByte) bus (currentByte - 10 < 128) fun _ t => Advanced bus t := by
  refine (sectorByte_outcome _ bus).bindTotal fun ret t _ same => ?_
  subst same
  exact Outcome.done rfl ⟨rfl, rfl, rfl, rfl⟩

theorem setCard_card (bus : Bus Card Pad) (card : Mcd Card) : (bus.setCard card).card = card := by
  simp [Bus.setCard, Bus.card]

theorem return_advanced {fine : Prop} (ret : UInt8) (allowed : fine) (bus : Bus Card Pad) :
    Outcome (return ret : SioM Card Pad UInt8) bus fine fun _ t => Advanced bus t :=
  (Outcome.done rfl ⟨rfl, rfl, rfl, rfl⟩).congr (iff_of_true trivial allowed)

theorem RecalculatePS1Addr_advanced (bus : Bus Card Pad) :
    Outcome RecalculatePS1Addr bus True fun _ t => Advanced bus t := by
  refine Outcome.done rfl ⟨rfl, rfl, ?_, rfl⟩
  rw [setCard_card]

theorem Advanced.trans {a b c : Bus Card Pad} (first : Advanced a b) (second : Advanced b c) :
    Advanced a c :=
  ⟨second.1.trans first.1, second.2.1.trans first.2.1, second.2.2.1.trans first.2.2.1,
    second.2.2.2.trans first.2.2.2⟩

theorem PS1ReadByte_outcome (data : UInt8) (bus : Bus Card Pad)
    (current : bus.ps1McState.currentByte = n + 2) :
    Outcome (PS1ReadByte devices data) bus (n < 138) fun _ t => Advanced bus t := by
  unfold PS1ReadByte
  refine Outcome.step rfl ?_
  dsimp only
  rw [current]
  iterate 2
    refine Outcome.ite (fun _ => return_advanced _ (by omega) bus) fun _ => ?_
  refine Outcome.ite (fun h => ?_) fun _ => ?_
  · exact Outcome.step rfl ((return_advanced _ (by omega) _).weaken fun _ _ _ advanced => advanced)
  refine Outcome.ite (fun h => ?_) fun _ => ?_
  · refine Outcome.step rfl ((RecalculatePS1Addr_advanced _).andThen fun _ t advanced => ?_)
    exact (return_advanced _ (by omega) t).weaken fun _ _ _ => advanced.trans
  iterate 6
    refine Outcome.ite (fun _ => return_advanced _ (by omega) bus) fun _ => ?_
  refine Outcome.ite (fun h => ?_) fun _ => ?_
  · refine Outcome.step rfl (Outcome.step rfl (Outcome.step rfl ?_))
    refine ((readSectorByte_outcome _ _).congr (by omega)).weaken fun _ _ t advanced => ?_
    obtain ⟨sameIn, sameOut, samePresent, sameByte⟩ := advanced
    refine ⟨sameIn, sameOut, ?_, sameByte⟩
    rw [samePresent]
    simp [Bus.setCard, Bus.card]
  · exact (readSectorByte_outcome _ _).congr (by omega)

/-- `n` bytes have gone through a PS1 handler. -/
def Transferred (present : Bool) (n : Nat) (bus : Bus Card Pad) : Prop :=
  bus.card.IsPresent = present ∧ bus.ps1McState.currentByte = n + 2

theorem ResetPS1State_transferred (bus : Bus Card Pad) :
    Outcome ResetPS1State bus True fun _ t =>
      Transferred bus.card.IsPresent 0 t ∧ t.fifoIn = bus.fifoIn ∧ t.fifoOut = bus.fifoOut :=
  Outcome.done rfl ⟨⟨rfl, rfl⟩, rfl, rfl⟩

theorem advancePS1_transferred {present : Bool} (ret : UInt8) (before : Transferred present n bus)
    (advanced : Advanced bus t) :
    Outcome (advancePS1 ret) t True fun _ u =>
      Transferred present (n + 1) u ∧ u.fifoIn = bus.fifoIn ∧ u.fifoOut = bus.fifoOut := by
  obtain ⟨sameIn, sameOut, samePresent, sameByte⟩ := advanced
  refine Outcome.done rfl ⟨⟨samePresent.trans before.1, ?_⟩, sameIn, sameOut⟩
  show t.ps1McState.currentByte + 1 = _
  rw [sameByte, before.2]

theorem PS1Read_outcome {present : Bool} (inserted : present = true)
    (before : Transferred present n bus) :
    Outcome (PS1Read devices byte) bus (n < 138) fun _ t =>
      Transferred present (n + 1) t ∧ t.fifoIn = bus.fifoIn ∧ t.fifoOut = bus.fifoOut := by
  unfold PS1Read
  refine Outcome.step rfl ?_
  subst inserted
  rw [before.1]
  refine (PS1ReadByte_outcome byte bus before.2).bindTotal fun ret t _ advanced => ?_
  exact advancePS1_transferred ret before advanced

theorem PS1Read_absent (absent : bus.card.IsPresent = false) :
    PS1Read devices byte bus = .ok (0xff, bus) := by
  show (if !bus.card.IsPresent then return 0xff else _ : SioM Card Pad UInt8) bus = _
  rw [absent]
  rfl

theorem setSectorByte_outcome (index : Nat) (data : UInt8) (bus : Bus Card Pad) :
    Outcome (setSectorByte index data) bus (index < 128) fun _ t => Advanced bus t := by
  unfold setSectorByte
  by_cases inside : index < 128
  · rw [if_pos inside]
    exact (Outcome.done rfl ⟨rfl, rfl, rfl, rfl⟩).congr (iff_of_true trivial inside)
  · rw [if_neg inside]
    exact Outcome.error rfl inside

theorem writeSectorByte_outcome (currentByte : Nat) (data : UInt8) (bus : Bus Card Pad) :
    Outcome (writeSectorByte currentByte data) bus (currentByte - 6 < 128) fun _ t => Advanced bus t := by
  refine (setSectorByte_outcome _ data bus).bindTotal fun _ t _ advanced => ?_
  exact Outcome.done rfl advanced

theorem PS1WriteByte_outcome (data : UInt8) (bus : Bus Card Pad)
    (current : bus.ps1McState.currentByte = n + 2) :
    Outcome (PS1WriteByte devices data) bus (n < 136) fun _ t => Advanced bus t := by
  unfold PS1WriteByte
  refine Outcome.step rfl ?_
  dsimp only
  rw [current]
  iterate 2
    refine Outcome.ite (fun _ => return_advanced _ (by omega) bus) fun _ => ?_
  refine Outcome.ite (fun h => ?_) fun _ => ?_
  · exact Outcome.step rfl ((return_advanced _ (by omega) _).weaken fun _ _ _ advanced => advanced)
  refine Outcome.ite (fun h => ?_) fun _ => ?_
  · refine Outcome.step rfl ((RecalculatePS1Addr_advanced _).andThen fun _ t advanced => ?_)
    exact (return_advanced _ (by omega) t).weaken fun _ _ _ => advanced.trans
  refine Outcome.ite (fun h => ?_) fun _ => ?_
  · exact Outcome.step rfl ((return_advanced _ (by omega) _).weaken fun _ _ _ advanced => advanced)
  iterate 2
    refine Outcome.ite (fun _ => return_advanced _ (by omega) bus) fun _ => ?_
  refine Outcome.ite (fun h => ?_) fun _ => ?_
  · refine Outcome.step rfl ?_
    iterate 2
      refine Outcome.ite (fun _ => return_advanced _ (by omega) bus) fun _ => ?_
    refine Outcome.step rfl ((Outcome.done rfl ⟨rfl, rfl, ?_, rfl⟩).congr (iff_of_true trivial (by omega)))
    simp [Bus.setCard, Bus.card]
  refine Outcome.ite (fun h => ?_) fun _ => ?_
  · exact Outcome.step rfl ((writeSectorByte_outcome _ data _).congr (by omega))
  · exact (writeSectorByte_outcome _ data _).congr (by omega)

theorem PS1Write_outcome {present : Bool} (before : Transferred present n bus) :
    Outcome (PS1Write devices byte) bus (n < 136) fun _ t =>
      Transferred present (n + 1) t ∧ t.fifoIn = bus.fifoIn ∧ t.fifoOut = bus.fifoOut := by
  refine (PS1WriteByte_outcome byte bus before.2).bindTotal fun ret t _ advanced => ?_
  exact advancePS1_transferred ret before advanced

end MemoryCardProtocol

/-! ## Devices -/

open MemoryCardProtocol

def ps2Answer (present : Bool) (queued : Nat) (bytes : List UInt8) : MemcardCommand → Option Nat
  | .probe => some (if present then terminated 4 queued else 4)
  | .setEraseSector | .setWriteSector | .setReadSector =>
    if 5 ≤ bytes.length then some (terminated 9 queued) else none
  | .getSpecs => some 11
  | .setTerminator => if 1 ≤ bytes.length then some 3 else none
  | .getTerminator => some 3
  | .writeData => carried bytes
  | .readData => asked bytes
  | .authXor => authAnswer queued bytes
  | .authF3 => some (if present then terminated 5 queued else 4)
  | .unknownBoot | .authF7 => some (terminated 5 queued)
  | .unknownWriteDeleteEnd | .readWriteEnd | .eraseBlock => some (terminated 4 queued)
  | .ps1Read | .ps1State | .ps1Write | .ps1Pocketstation | .unhandled => some 0

def commandAnswer (card : Mcd Card) (commandLength queued : Nat) (bytes : List UInt8)
    (command : MemcardCommand) : Option Nat :=
  match command with
  | .ps1Read => if card.IsPresent ∧ 138 < bytes.length then none else some bytes.length
  | .ps1Write => if 136 < bytes.length then none else some bytes.length
  | .ps1State | .ps1Pocketstation => some bytes.length
  | .unhandled => some 0
  | command =>
    if card.IsPSX ∧ 0 < commandLength then some (commandLength - queued)
    else ps2Answer card.IsPresent queued bytes command

variable {devices : Devices Card Pad} {commandLength : Nat}

theorem ps1Loop_outcome (ready : Nat → Bus Card Pad → Prop)
    (allowed : Nat → Prop)
    (each : ∀ n bus byte, ready n bus → Outcome (respond byte) bus (allowed n) fun _ t =>
      ready (n + 1) t ∧ t.fifoIn = bus.fifoIn ∧ t.fifoOut = bus.fifoOut)
    (kept : ∀ n (bus : Bus Card Pad) fifoIn fifoOut, ready n bus → ready n { bus with fifoIn, fifoOut })
    (start : ∀ t, Transferred bus.card.IsPresent 0 t → ready 0 t) :
    Outcome (do ResetPS1State; respondToEach respond (← get).fifoIn) bus (∀ i < bus.fifoIn.length, allowed i)
      fun _ t => Answered bus.fifoIn.length bus t := by
  refine (ResetPS1State_transferred bus).andThen fun _ t reset => ?_
  obtain ⟨before, sameIn, sameOut⟩ := reset
  refine Outcome.step rfl ?_
  have all := respondToEach_outcome each kept (start t before) rfl
  simp only [Nat.zero_add, sameIn] at all
  rw [sameIn]
  exact all.weaken fun _ _ u answered => ⟨sameOut ▸ answered.1, sameOut ▸ answered.2⟩

theorem ps1Loop_limited {limit : Nat}
    (each : ∀ n (t : Bus Card Pad) byte, Transferred bus.card.IsPresent n t →
      Outcome (respond byte) t (n < limit) fun _ u =>
        Transferred bus.card.IsPresent (n + 1) u ∧ u.fifoIn = t.fifoIn ∧ u.fifoOut = t.fifoOut) :
    Answers (do ResetPS1State; respondToEach respond (← get).fifoIn) bus
      (if limit < bus.fifoIn.length then none else some bus.fifoIn.length) := by
  have loop := ps1Loop_outcome _ (· < limit) each (fun _ _ _ _ ready => ready) fun _ before => before
  split
  case isTrue longer =>
    refine (loop.congr ?_).weaken fun some => absurd rfl some
    exact iff_of_false (fun all => Nat.lt_irrefl _ (all limit longer)) fun some => some rfl
  case isFalse short =>
    exact Answers.of_some (loop.congr (iff_of_true (fun i below => by omega) trivial))

theorem ps1Loop_constant {ret : UInt8}
    (each : ∀ (t : Bus Card Pad) byte, t.card.IsPresent = bus.card.IsPresent →
      respond byte t = .ok (ret, t)) :
    Answers (do ResetPS1State; respondToEach respond (← get).fifoIn) bus (some bus.fifoIn.length) := by
  have loop : Outcome (do ResetPS1State; respondToEach respond (← get).fifoIn) bus
      (∀ i < bus.fifoIn.length, True) fun _ t => Answered bus.fifoIn.length bus t := by
    apply ps1Loop_outcome (fun _ t => t.card.IsPresent = bus.card.IsPresent)
    · exact fun _ t byte same => Outcome.done (each t byte same) ⟨same, rfl, rfl⟩
    · exact fun _ _ _ _ same => same
    · exact fun _ before => before.1
  exact Answers.of_some (loop.congr (by simp))

theorem dispatchMemcard_answers (bus : Bus Card Pad) (commandByte : UInt8) :
    Answers (dispatchMemcard devices commandLength commandByte) bus
      (commandAnswer bus.card commandLength bus.fifoOut.length bus.fifoIn
        (MemcardCommand.ofByte commandByte)) := by
  unfold dispatchMemcard
  cases MemcardCommand.ofByte commandByte with
  | probe => exact Probe_answers bus
  | unknownWriteDeleteEnd => exact unlessPS1Fail_answers (The2bTerminator_answers 4 bus)
  | setEraseSector => exact SetSector_answers bus
  | setWriteSector => exact SetSector_answers bus
  | setReadSector => exact SetSector_answers bus
  | getSpecs => exact GetSpecs_answers bus
  | setTerminator => exact SetTerminator_answers bus
  | getTerminator => exact GetTerminator_answers bus
  | writeData => exact WriteData_answers bus
  | readData => exact ReadData_answers bus
  | ps1Read =>
    unfold commandAnswer
    cases present : bus.card.IsPresent with
    | true =>
      simp only [true_and]
      exact ps1Loop_limited fun n t byte before => PS1Read_outcome present before
    | false => exact ps1Loop_constant fun t byte same => PS1Read_absent (same.trans present)
  | ps1State => exact ps1Loop_constant fun _ _ _ => rfl
  | ps1Write => exact ps1Loop_limited fun n t byte before => PS1Write_outcome before
  | ps1Pocketstation => exact ps1Loop_constant fun _ _ _ => rfl
  | readWriteEnd => exact unlessPS1Fail_answers (The2bTerminator_answers 4 bus)
  | eraseBlock => exact EraseBlock_answers bus
  | unknownBoot => exact unlessPS1Fail_answers (The2bTerminator_answers 5 bus)
  | authXor => exact AuthXor_answers bus
  | authF3 => exact AuthF3_answers bus
  | authF7 => exact unlessPS1Fail_answers (The2bTerminator_answers 5 bus)
  | unhandled => exact Answers.of_some (Outcome.done rfl ⟨List.prefix_rfl, rfl⟩)

def memcardAnswer (card : Mcd Card) (commandLength queued : Nat) (bytes : List UInt8) : Option Nat :=
  if card.autoEjectTicks ≠ 0 then some (bytes.length + 1)
  else
    match bytes with
    | [] => none
    | commandByte :: bytes =>
      (commandAnswer card commandLength (queued + 2) bytes (MemcardCommand.ofByte commandByte)).map (2 + ·)

def multitapAnswer (enabled : Bool) (bytes : List UInt8) : Option Nat :=
  match bytes with
  | [] => none
  | commandByte :: bytes =>
    match MultitapMode.ofByte commandByte with
    | .padSupportCheck | .memcardSupportCheck => some 6
    | .selectPad | .selectMemcard => if enabled ∧ bytes = [] then none else some 7
    | .unhandled => some 0

theorem Answers.after {m : SioM Card Pad Unit} {answer : Option Nat} (begun : Answered n bus t)
    (answers : Answers m t answer) :
    Outcome m t (answer.map (n + ·) ≠ none) fun _ u => Answered ((answer.map (n + ·)).getD 0) bus u := by
  cases answer with
  | none => exact answers.weaken fun some => absurd rfl some
  | some k => exact (answers.congr (by simp)).weaken fun _ _ u answered => begun.trans answered

theorem dispatchMemcard_after {card : Mcd Card} {rest : List UInt8} (begun : Answered 2 bus t)
    (inserted : t.card = card) (left : t.fifoIn = rest) (commandByte : UInt8) :
    let answer := (commandAnswer card commandLength (bus.fifoOut.length + 2) rest
      (MemcardCommand.ofByte commandByte)).map (2 + ·)
    Outcome (dispatchMemcard devices commandLength commandByte) t (answer ≠ none) fun _ u =>
      Answered (answer.getD 0) bus u := by
  subst inserted left
  rw [← begun.2]
  exact (dispatchMemcard_answers t commandByte).after begun

theorem accessMemcard_answers (port : Fin 2) (bus : Bus Card Pad) :
    Answers (accessMemcard devices port commandLength) bus
      (memcardAnswer (bus.mcds port (bus.multitaps port).currentMemcardSlot) commandLength bus.fifoOut.length
        bus.fifoIn) := by
  unfold accessMemcard memcardAnswer
  refine Outcome.step rfl (Outcome.step rfl ?_)
  dsimp only [Bus.card]
  split
  case isTrue ejected =>
    refine Answers.of_some (Outcome.step rfl (Outcome.step rfl (Outcome.step rfl ?_)))
    refine (popAndPush_answered (fun _ _ => Outcome.done rfl ⟨rfl, rfl⟩) rfl).weaken fun _ _ u answered => ?_
    rw [Nat.add_comm]
    exact (answered_push [0xff] rfl).trans answered
  case isFalse inserted =>
    refine Outcome.step rfl ?_
    match bytes : bus.fifoIn with
    | [] => exact Outcome.fail (popIn_nil rfl) (by simp)
    | commandByte :: rest =>
      refine Outcome.step (popIn_cons rfl) (Outcome.step rfl (Outcome.step rfl ?_))
      exact dispatchMemcard_after ⟨by simp [Bus.push], by simp [Bus.push]⟩ rfl rfl commandByte

theorem SupportCheck_answers (port : Fin 2) (bus : Bus Card Pad) :
    Answers (MultitapProtocol.SupportCheck port) bus (some 6) := by
  refine Answers.of_some (Outcome.step rfl (Outcome.ite (fun _ => ?_) fun _ => ?_))
  · exact Outcome.done rfl (answered_push [0xff, 0x80, 0x5a, 0x04, 0x00, 0x5a] rfl)
  · exact Outcome.done rfl (answered_push (List.replicate 6 0xff) rfl)

theorem Select_answers (port : Fin 2) (update : Fin 4 → MultitapProtocol → MultitapProtocol)
    (bus : Bus Card Pad) :
    Answers (MultitapProtocol.Select port update) bus
      (if bus.multitapEnabled port ∧ bus.fifoIn = [] then none else some 7) := by
  unfold MultitapProtocol.Select
  refine Outcome.step rfl ?_
  dsimp only
  cases enabled : bus.multitapEnabled port with
  | false => exact Answers.of_some (Outcome.done rfl (answered_push (List.replicate 7 0xff) rfl))
  | true =>
    match bytes : bus.fifoIn with
    | [] => exact Outcome.fail (popIn_nil bytes) (by simp)
    | newSlot :: rest =>
      refine Outcome.congr (Outcome.step (popIn_cons bytes) ?_) (iff_of_true trivial (by simp))
      rw [if_neg (by simp)]
      split
      · refine Outcome.step rfl (Outcome.done rfl ?_)
        exact answered_push [0xff, 0x80, 0x5a, 0x00, 0x00, newSlot, 0x5a] rfl
      · exact Outcome.done rfl (answered_push [0xff, 0x80, 0x5a, 0x00, 0x00, 0xff, 0x66] rfl)

theorem SendToMultitap_answers (port : Fin 2) (bus : Bus Card Pad) :
    Answers (MultitapProtocol.SendToMultitap port) bus
      (multitapAnswer (bus.multitapEnabled port) bus.fifoIn) := by
  unfold MultitapProtocol.SendToMultitap multitapAnswer
  match bytes : bus.fifoIn with
  | [] => exact Outcome.fail (popIn_nil bytes) (by simp)
  | commandByte :: rest =>
    refine Outcome.step (popIn_cons bytes) ?_
    dsimp only
    cases MultitapMode.ofByte commandByte with
    | padSupportCheck => exact SupportCheck_answers port _
    | memcardSupportCheck => exact SupportCheck_answers port _
    | selectPad => exact Select_answers port _ _
    | selectMemcard => exact Select_answers port _ _
    | unhandled => exact Answers.of_some (Outcome.done rfl ⟨List.prefix_rfl, rfl⟩)

theorem accessMultitap_answers (port : Fin 2) (bus : Bus Card Pad) :
    Answers (accessMultitap port) bus (multitapAnswer (bus.multitapEnabled port) bus.fifoIn) := by
  unfold accessMultitap
  refine Outcome.step rfl (Outcome.step rfl ?_)
  dsimp only
  split
  · exact Outcome.step rfl (SendToMultitap_answers port _)
  · exact SendToMultitap_answers port _

theorem accessInfrared_answers (bus : Bus Card Pad) :
    Answers (accessInfrared commandLength) bus
      (if bus.fifoIn = [] then none else some (commandLength - bus.fifoOut.length)) := by
  unfold accessInfrared
  refine Outcome.step rfl ?_
  match bytes : bus.fifoIn with
  | [] => exact Outcome.fail (popIn_nil bytes) (by simp)
  | byte :: rest =>
    refine Outcome.step (popIn_cons bytes) (Outcome.congr (Outcome.done rfl ?_) (by simp))
    constructor
    · exact List.prefix_append _ _
    · simp [Bus.push]

theorem padResponse_outcome (port : Fin 2) (slot : Fin 4) (bus : Bus Card Pad) (byte : UInt8) :
    Outcome (padResponse devices port slot byte) bus True fun _ t =>
      t.fifoIn = bus.fifoIn ∧ t.fifoOut = bus.fifoOut := by
  unfold padResponse
  refine Outcome.step rfl (Outcome.ite (fun _ => ?_) fun _ => ?_)
  · exact Outcome.done rfl ⟨rfl, rfl⟩
  · exact Outcome.done rfl ⟨rfl, rfl⟩

theorem accessPad_answers (port : Fin 2) (bus : Bus Card Pad) :
    Answers (accessPad devices port) bus (some (bus.fifoIn.length + 1)) := by
  apply Answers.of_some
  unfold accessPad
  refine Outcome.step rfl (Outcome.step rfl (Outcome.step rfl ?_))
  have loop : ∀ t, t.fifoIn = bus.fifoIn → t.fifoOut = bus.fifoOut →
      Outcome (do
        pushOut 0xff
        modifyPad port (bus.multitaps port).currentPadSlot fun pad => { pad with pad := devices.softReset pad.pad }
        popAndPush (padResponse devices port (bus.multitaps port).currentPadSlot) (← get).fifoIn
        modifyPad port (bus.multitaps port).currentPadSlot fun pad => { pad with ejectTicks := pad.ejectTicks - 1 })
      t True fun _ u => Answered (bus.fifoIn.length + 1) bus u := by
    intro t sameIn sameOut
    refine Outcome.step rfl (Outcome.step rfl (Outcome.step rfl ?_))
    refine (popAndPush_answered (padResponse_outcome port _) rfl).andThen fun _ u answered => ?_
    refine Outcome.done rfl ?_
    have begun : Answered 1 bus (t.push [0xff]) := answered_push [0xff] sameOut
    rw [Nat.add_comm, ← sameIn]
    exact begun.trans answered
  dsimp only
  split
  · exact Outcome.step rfl (loop _ rfl rfl)
  · exact loop _ rfl rfl

end Pcsx2.Sio
