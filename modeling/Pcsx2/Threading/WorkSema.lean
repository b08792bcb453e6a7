import Mathlib.Data.Nat.Bitwise
import Pcsx2.Foundation.Run

/-!
# The work semaphore

One 32-bit word tells whether the worker sleeps, spins or runs, whether work was added since it last
looked, and whether a thread waits for the queue to be empty. The worker looks at it between its
passes over the queue; the threads that add work and the one that waits change it concurrently.
-/

namespace Pcsx2.Threading
open Foundation

/-! ## The word -/

def STATE_SPINNING : Int32 := -2
def STATE_SLEEPING : Int32 := -1
def STATE_RUNNING_0 : Int32 := 0
def STATE_FLAG_WAITING_EMPTY : Int32 := (1 : Int32) <<< 30

def IsDead (state : Int32) : Bool := state < STATE_SPINNING

def IsReadyForSleep (state : Int32) : Bool :=
  (state &&& (STATE_FLAG_WAITING_EMPTY - 1)) == STATE_RUNNING_0

def NextStateWaitForWork (current : Int32) : Int32 :=
  (if IsReadyForSleep current then STATE_SLEEPING else STATE_RUNNING_0) |||
    (current &&& STATE_FLAG_WAITING_EMPTY)

def IsWaiting (state : Int32) : Bool := (state &&& STATE_FLAG_WAITING_EMPTY) != 0

/-! ## The threads -/

inductive Call where
  | checkForWork
  | waitForWork
  | waitForWorkWithSpin
  deriving DecidableEq

inductive Quiet where
  /-- `CheckForWork` has returned false. -/
  | checked
  /-- At the `m_sema.Wait()` of `WaitForWork`. -/
  | sleep
  /-- At the second loop of `WaitForWorkWithSpin`. -/
  | spin
  /-- `Kill` has returned. -/
  | dead
  deriving DecidableEq

inductive Worker where
  /-- Between two calls; it has seen the queue empty since it was last told of work. -/
  | idle
  /-- Told of work, and going through the queue. -/
  | draining
  /-- At the first loop of a call, with the value that it read. -/
  | call (call : Call) (value : Int32)
  /-- At `m_empty_sema.Post()`. -/
  | post (quiet : Quiet)
  | spinning (value : Int32)
  /-- At `m_sema.Wait()`. -/
  | sleeping
  /-- At the last `fetch_and` of a call. -/
  | acknowledge
  | dead
  deriving DecidableEq

inductive Waiter where
  | out
  /-- At the loop of `WaitForEmpty` or `WaitForEmptyWithSpin`, with the value that it read. -/
  | loop (value : Int32)
  /-- At `m_empty_sema.Wait()`. -/
  | waiting
  | woken
  | returned (result : Bool)
  deriving DecidableEq

structure State where
  m_state : Int32
  m_sema : Nat
  m_empty_sema : Nat
  /-- The items that are not yet processed. -/
  queue : List Nat
  /-- How many items were queued so far; the next one gets this number. -/
  queued : Nat
  /-- The items whose `NotifyOfWork` is at the `fetch_add`. -/
  adding : List Nat
  /-- The items whose `NotifyOfWork` is at `m_sema.Post()`. -/
  posting : List Nat
  worker : Worker
  waiter : Waiter
  /-- The items that were added to `m_state` since the worker last acknowledged, in that order. -/
  fresh : List Nat
  /-- The items that were notified before the waiter's call. -/
  asked : List Nat

def State.reset : State :=
  { m_state := STATE_RUNNING_0, m_sema := 0, m_empty_sema := 0, queue := [], queued := 0, adding := [],
    posting := [], worker := .idle, waiter := .out, fresh := [], asked := [] }

/-- The `NotifyOfWork` of the item has returned. -/
def State.Notified (s : State) (item : Nat) : Prop :=
  item < s.queued ∧ item ∉ s.adding ∧ item ∉ s.posting

instance (s : State) (item : Nat) : Decidable (s.Notified item) :=
  inferInstanceAs (Decidable (_ ∧ _ ∧ _))

/-! ## The calls -/

def Call.next : Call → Int32 → Int32
  | .checkForWork, value =>
      if IsReadyForSleep value then STATE_RUNNING_0 else value &&& STATE_FLAG_WAITING_EMPTY
  | .waitForWork, value => NextStateWaitForWork value
  | .waitForWorkWithSpin, _ => STATE_SPINNING

/-- `WaitForWorkWithSpin` only exchanges when there is no work. -/
def Call.Tries : Call → Int32 → Prop
  | .waitForWorkWithSpin, value => IsReadyForSleep value
  | _, _ => True

def Call.quiet : Call → Quiet
  | .checkForWork => .checked
  | .waitForWork => .sleep
  | .waitForWorkWithSpin => .spin

def Quiet.worker : Quiet → Worker
  | .checked => .idle
  | .sleep => .sleeping
  | .spin => .spinning STATE_SPINNING
  | .dead => .dead

def Quiet.tell (quiet : Quiet) (value : Int32) : Worker :=
  if IsWaiting value then .post quiet else quiet.worker

inductive Action where
  | queue
  | notify (item : Nat)
  | notifyPost (item : Nat)
  | process (item : Nat)
  | drained
  | call (call : Call)
  | reload
  | exchange
  | skip
  | post
  | spin
  | sleep
  | leave
  | wake
  | acknowledge
  | kill
  | waitForEmpty
  | seeEmpty
  | setWaiting
  | waiterReload
  | waiterWake
  | waiterLoad
  | waiterLeave
  deriving DecidableEq

inductive Step : Action → State → State → Prop
  /-- A thread queues an item and calls `NotifyOfWork`. -/
  | queue {s} :
      Step .queue s { s with
        queue := s.queue ++ [s.queued], queued := s.queued + 1, adding := s.adding ++ [s.queued] }
  | notify {s item} (adds : item ∈ s.adding) :
      Step (.notify item) s { s with
        m_state := s.m_state + 2
        adding := s.adding.erase item
        posting := if s.m_state = STATE_SLEEPING then s.posting ++ [item] else s.posting
        fresh := s.fresh ++ [item] }
  | notifyPost {s item} (posts : item ∈ s.posting) :
      Step (.notifyPost item) s { s with m_sema := s.m_sema + 1, posting := s.posting.erase item }
  | process {s item} (phase : s.worker = .idle ∨ s.worker = .draining) (found : item ∈ s.queue) :
      Step (.process item) s { s with queue := s.queue.erase item }
  | drained {s} (phase : s.worker = .draining) (empty : s.queue = []) :
      Step .drained s { s with worker := .idle }
  | call {s} (call : Call) (phase : s.worker = .idle) :
      Step (.call call) s { s with worker := .call call s.m_state }
  /-- The compare-exchange fails. -/
  | reload {s call value} (phase : s.worker = .call call value) (tries : call.Tries value) :
      Step .reload s { s with worker := .call call s.m_state }
  | exchange {s call value} (phase : s.worker = .call call value) (tries : call.Tries value)
      (same : s.m_state = value) :
      Step .exchange s { s with
        m_state := call.next value
        worker := if IsReadyForSleep value then call.quiet.tell value else .draining
        fresh := [] }
  | skip {s value} (phase : s.worker = .call .waitForWorkWithSpin value)
      (work : ¬ IsReadyForSleep value) :
      Step .skip s { s with worker := .spinning value }
  | post {s quiet} (phase : s.worker = .post quiet) :
      Step .post s { s with m_empty_sema := s.m_empty_sema + 1, worker := quiet.worker }
  /-- One turn of the spinning loop: some time passes or the compare-exchange fails. -/
  | spin {s value} (phase : s.worker = .spinning value) (negative : value < 0) :
      Step .spin s { s with worker := .spinning s.m_state }
  | sleep {s value} (phase : s.worker = .spinning value) (negative : value < 0)
      (same : s.m_state = value) :
      Step .sleep s { s with m_state := STATE_SLEEPING, worker := .sleeping }
  | leave {s value} (phase : s.worker = .spinning value) (positive : ¬ value < 0) :
      Step .leave s { s with worker := .acknowledge }
  | wake {s} (phase : s.worker = .sleeping) (posted : 0 < s.m_sema) :
      Step .wake s { s with m_sema := s.m_sema - 1, worker := .acknowledge }
  | acknowledge {s} (phase : s.worker = .acknowledge) :
      Step .acknowledge s { s with
        m_state := s.m_state &&& STATE_FLAG_WAITING_EMPTY, worker := .draining, fresh := [] }
  | kill {s} (phase : s.worker = .idle ∨ s.worker = .draining) :
      Step .kill s { s with m_state := Int32.minValue, worker := Quiet.dead.tell s.m_state }
  | waitForEmpty {s} (phase : s.waiter = .out) :
      Step .waitForEmpty s { s with
        waiter := .loop s.m_state
        asked := (List.range s.queued).filter (fun item => s.Notified item) }
  | seeEmpty {s value} (phase : s.waiter = .loop value) (negative : value < 0) :
      Step .seeEmpty s { s with waiter := .returned (!IsDead value) }
  | setWaiting {s value} (phase : s.waiter = .loop value) (positive : ¬ value < 0)
      (same : s.m_state = value) :
      Step .setWaiting s { s with
        m_state := value ||| STATE_FLAG_WAITING_EMPTY, waiter := .waiting }
  /-- The compare-exchange fails, or the loop of `WaitForEmptyWithSpin` takes a turn. -/
  | waiterReload {s value} (phase : s.waiter = .loop value) (positive : ¬ value < 0) :
      Step .waiterReload s { s with waiter := .loop s.m_state }
  | waiterWake {s} (phase : s.waiter = .waiting) (posted : 0 < s.m_empty_sema) :
      Step .waiterWake s { s with m_empty_sema := s.m_empty_sema - 1, waiter := .woken }
  | waiterLoad {s} (phase : s.waiter = .woken) :
      Step .waiterLoad s { s with waiter := .returned (!IsDead s.m_state) }
  | waiterLeave {s result} (phase : s.waiter = .returned result) :
      Step .waiterLeave s { s with waiter := .out }

def AnyStep (s t : State) : Prop := ∃ action, Step action s t

end Pcsx2.Threading

/-!
# What the word of the work semaphore says

The states that the word encodes, as long as the notifications do not reach the flag, and what each
operation on the word does to them.
-/

namespace Pcsx2.Threading

inductive View where
  | sleeping
  | spinning
  | running (waiting : Bool) (count : Nat)
  | dead (count : Nat)

def View.word : View → Int32
  | .sleeping => STATE_SLEEPING
  | .spinning => STATE_SPINNING
  | .running waiting count => .ofNat (2 ^ 30 * waiting.toNat + count)
  | .dead count => Int32.minValue + .ofNat (2 * count)

def View.waiting : View → Bool
  | .running waiting _ => waiting
  | _ => false

@[simp] theorem word_sleeping : View.sleeping.word = STATE_SLEEPING := rfl

@[simp] theorem word_spinning : View.spinning.word = STATE_SPINNING := rfl

@[simp] theorem waiting_running (waiting : Bool) (count : Nat) :
    (View.running waiting count).waiting = waiting := rfl

@[simp] theorem waiting_sleeping : View.sleeping.waiting = false := rfl

@[simp] theorem waiting_spinning : View.spinning.waiting = false := rfl

@[simp] theorem waiting_dead (count : Nat) : (View.dead count).waiting = false := rfl

/-! ## Running -/

theorem toNat_flag : STATE_FLAG_WAITING_EMPTY.toBitVec.toNat = 2 ^ 30 := by decide

theorem toNat_low : (STATE_FLAG_WAITING_EMPTY - 1).toBitVec.toNat = 2 ^ 30 - 1 := by decide

theorem running_add {waiting : Bool} {count : Nat} :
    (View.running waiting count).word + 2 = (View.running waiting (count + 2)).word := by
  show Int32.ofNat _ + Int32.ofNat 2 = _
  rw [← Int32.ofNat_add]
  rfl

section

variable {waiting : Bool} {count : Nat} (small : count < 2 ^ 30)
include small

theorem toNat_running :
    (View.running waiting count).word.toBitVec.toNat = 2 ^ 30 * waiting.toNat + count := by
  show (BitVec.ofNat 32 _).toNat = _
  rw [BitVec.toNat_ofNat]
  have := waiting.toNat_lt
  omega

theorem running_and_flag :
    (View.running waiting count).word &&& STATE_FLAG_WAITING_EMPTY = (View.running waiting 0).word := by
  apply Int32.toBitVec_inj.1
  apply BitVec.eq_of_toNat_eq
  rw [Int32.toBitVec_and, BitVec.toNat_and, toNat_flag, toNat_running small, toNat_running (by decide),
    Nat.and_two_pow, Nat.testBit_two_pow_mul_add _ small]
  cases waiting <;> simp

theorem running_or_flag :
    (View.running waiting count).word ||| STATE_FLAG_WAITING_EMPTY = (View.running true count).word := by
  apply Int32.toBitVec_inj.1
  apply BitVec.eq_of_toNat_eq
  rw [Int32.toBitVec_or, BitVec.toNat_or, toNat_flag, toNat_running small, toNat_running small,
    Nat.two_pow_add_eq_or_of_lt small, Nat.two_pow_add_eq_or_of_lt small, Nat.or_assoc, Nat.or_comm count,
    ← Nat.or_assoc]
  cases waiting <;> simp

theorem ready_running :
    IsReadyForSleep (View.running waiting count).word = decide (count = 0) := by
  rw [IsReadyForSleep, Bool.eq_iff_iff, beq_iff_eq, decide_eq_true_iff, ← Int32.toBitVec_inj, ← BitVec.toNat_inj,
    Int32.toBitVec_and, BitVec.toNat_and, toNat_low, toNat_running small, Nat.and_two_pow_sub_one_eq_mod,
    Nat.mul_add_mod, Nat.mod_eq_of_lt small]
  rfl

theorem isWaiting_running : IsWaiting (View.running waiting count).word = waiting := by
  rw [IsWaiting, running_and_flag small]
  cases waiting <;> decide

theorem running_nonneg : ¬ (View.running waiting count).word < 0 := by
  rw [Int32.lt_iff_toInt_lt]
  show ¬ (View.running waiting count).word.toBitVec.toInt < 0
  rw [BitVec.toInt_eq_toNat_cond, toNat_running small]
  have := waiting.toNat_lt
  split <;> omega

theorem running_ne_sleeping : (View.running waiting count).word ≠ STATE_SLEEPING := fun equal =>
  running_nonneg small (equal ▸ (by decide : STATE_SLEEPING < 0))

theorem running_ne_spinning : (View.running waiting count).word ≠ STATE_SPINNING := fun equal =>
  running_nonneg small (equal ▸ (by decide : STATE_SPINNING < 0))

theorem next_running (call : Call) (tries : call.Tries (View.running waiting count).word) (work : 0 < count) :
    call.next (View.running waiting count).word = (View.running waiting 0).word := by
  have busy : IsReadyForSleep (View.running waiting count).word = false := by
    rw [ready_running small, decide_eq_false_iff_not]
    omega
  cases call with
  | checkForWork => rw [Call.next, busy, running_and_flag small]; rfl
  | waitForWork =>
    rw [Call.next, NextStateWaitForWork, busy, running_and_flag small]
    exact Int32.zero_or
  | waitForWorkWithSpin =>
    rw [Call.Tries, busy] at tries
    cases tries

end

def Quiet.view : Quiet → View
  | .checked => .running false 0
  | .sleep => .sleeping
  | .spin => .spinning
  | .dead => .dead 0

theorem next_quiet {waiting : Bool} (call : Call) :
    call.next (View.running waiting 0).word = call.quiet.view.word := by
  cases call <;> cases waiting <;> decide

/-! ## Sleeping, spinning and dead -/

theorem sleeping_add : STATE_SLEEPING + 2 = (View.running false 1).word := by decide

theorem spinning_add : STATE_SPINNING + 2 = (View.running false 0).word := by decide

theorem dead_add {count : Nat} : (View.dead count).word + 2 = (View.dead (count + 1)).word := by
  show Int32.minValue + Int32.ofNat _ + Int32.ofNat 2 = _
  rw [Int32.add_assoc, ← Int32.ofNat_add]
  rfl

theorem dead_word {count : Nat} (small : count < 2 ^ 29) : IsDead (View.dead count).word := by
  have least : Int32.minValue = Int32.ofNat (2 ^ 31) := by decide
  rw [IsDead, decide_eq_true_iff, Int32.lt_iff_toInt_lt, View.word, least, ← Int32.ofNat_add]
  show (BitVec.ofNat 32 (2 ^ 31 + 2 * count)).toInt < -2
  rw [BitVec.toInt_eq_toNat_cond, BitVec.toNat_ofNat]
  split <;> omega

theorem dead_ne_sleeping {count : Nat} (small : count < 2 ^ 29) :
    (View.dead count).word ≠ STATE_SLEEPING := fun equal =>
  absurd (equal ▸ dead_word small) (by decide)

end Pcsx2.Threading
