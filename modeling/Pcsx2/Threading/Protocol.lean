import Pcsx2.Foundation.Run
import Pcsx2.Threading.WorkSema

/-!
# The protocol of the work semaphore

The count in the word is twice the number of notifications since the worker last acknowledged, less
one or two when the worker went to sleep or to spin in between. From this follow who owes which post
to whom, and which items the worker can still miss.
-/

namespace Pcsx2.Threading
open Foundation

/-- The notifications since the worker last acknowledged stay below the flag. -/
def Within (s : State) : Action → Prop
  | .notify _ => s.fresh.length + 1 < 2 ^ 29
  | _ => True

def BoundedStep (s t : State) : Prop := ∃ action, Within s action ∧ Step action s t

/-! ## What the word says about the worker -/

def Counts (n : Nat) (view : View) : Prop := ∃ waiting, view = .running waiting (2 * n)

def Slept (n : Nat) (view : View) : Prop :=
  n = 0 ∧ view = .sleeping ∨ 0 < n ∧ ∃ waiting, view = .running waiting (2 * n - 1)

def Spun (n : Nat) (view : View) : Prop :=
  n = 0 ∧ view = .spinning ∨ 0 < n ∧ ∃ waiting, view = .running waiting (2 * n - 2)

def Roused (n : Nat) (view : View) : Prop :=
  0 < n ∧ ∃ waiting count, count ≤ 2 * n ∧ view = .running waiting count

def Died (n : Nat) (view : View) : Prop := ∃ count, count ≤ n ∧ view = .dead count

def Quiet.Agrees : Quiet → Nat → View → Prop
  | .checked => Counts
  | .sleep => Slept
  | .spin => Spun
  | .dead => Died

/-- A value that was read when the worker had been told of at most `n` items. -/
def Read (n : Nat) (value : Int32) : Prop :=
  ∃ waiting count, count ≤ 2 * n ∧ value = (View.running waiting count).word

def Worker.Agrees : Worker → Nat → View → Prop
  | .idle, n, view | .draining, n, view => Counts n view
  | .call _ value, n, view => Counts n view ∧ Read n value
  | .post quiet, n, view => quiet.Agrees n view
  | .spinning value, n, view =>
      value = STATE_SPINNING ∧ Spun n view ∨ ¬ value < 0 ∧ Roused n view
  | .sleeping, n, view => Slept n view
  | .acknowledge, n, view => Roused n view
  | .dead, n, view => Died n view

def Worker.posts : Worker → Bool
  | .post _ => true
  | _ => false

def Worker.alive : Worker → Bool
  | .dead | .post .dead => false
  | _ => true

/-- In `m_sema.Wait()` or on the way there. -/
def Worker.sleeps : Worker → Bool
  | .sleeping | .post .sleep => true
  | _ => false

structure Told (s : State) (view : View) : Prop where
  word : s.m_state = view.word
  bounded : s.fresh.length < 2 ^ 29
  agrees : s.worker.Agrees s.fresh.length view
  matched : s.m_empty_sema + s.worker.posts.toNat + view.waiting.toNat =
    if s.waiter = .waiting then 1 else 0

def Wakes (s : State) : Prop :=
  match s.worker.sleeps, s.fresh with
  | true, first :: _ => s.m_sema = 1 ∧ s.posting = [] ∨ s.m_sema = 0 ∧ s.posting = [first]
  | _, _ => s.m_sema = 0 ∧ s.posting = []

structure Listed (s : State) : Prop where
  heard : s.worker ≠ .draining → s.worker.alive → ∀ item ∈ s.queue, item ∉ s.adding → item ∈ s.fresh
  queue_lt : ∀ item ∈ s.queue, item < s.queued
  adding_lt : ∀ item ∈ s.adding, item < s.queued
  asked : ∀ item ∈ s.asked, item < s.queued ∧ item ∉ s.adding

/-- What was notified before the waiter's call is processed. -/
def Served (s : State) : Prop := ∀ item ∈ s.asked, item ∉ s.queue

def Answers (s : State) : Prop :=
  match s.waiter with
  | .out => True
  | .loop value => value < 0 → IsDead value = false → Served s
  | .waiting => 0 < s.m_empty_sema ∨ s.worker.posts → s.worker.alive → Served s
  | .woken => s.worker.alive → Served s
  | .returned result => result → Served s

/-! ## The word through the steps -/

variable {worker : Worker} {value : Int32}

section

variable {n : Nat} {view : View}

theorem Counts.add (counts : Counts n view) :
    ∃ next, view.word + 2 = next.word ∧ Counts (n + 1) next ∧ next.waiting = view.waiting := by
  obtain ⟨waiting, rfl⟩ := counts
  exact ⟨.running waiting (2 * (n + 1)), running_add, ⟨waiting, rfl⟩, rfl⟩

theorem Slept.add (slept : Slept n view) :
    ∃ next, view.word + 2 = next.word ∧ Slept (n + 1) next ∧ next.waiting = view.waiting := by
  rcases slept with ⟨rfl, rfl⟩ | ⟨positive, waiting, rfl⟩
  · exact ⟨.running false 1, sleeping_add, .inr ⟨Nat.one_pos, false, rfl⟩, rfl⟩
  · refine ⟨.running waiting (2 * n - 1 + 2), running_add, .inr ⟨n.succ_pos, waiting, ?_⟩, rfl⟩
    congr 1
    omega

theorem Spun.add (spun : Spun n view) :
    ∃ next, view.word + 2 = next.word ∧ Spun (n + 1) next ∧ next.waiting = view.waiting := by
  rcases spun with ⟨rfl, rfl⟩ | ⟨positive, waiting, rfl⟩
  · exact ⟨.running false 0, spinning_add, .inr ⟨Nat.one_pos, false, rfl⟩, rfl⟩
  · refine ⟨.running waiting (2 * n - 2 + 2), running_add, .inr ⟨n.succ_pos, waiting, ?_⟩, rfl⟩
    congr 1
    omega

theorem Roused.add (roused : Roused n view) :
    ∃ next, view.word + 2 = next.word ∧ Roused (n + 1) next ∧ next.waiting = view.waiting := by
  obtain ⟨-, waiting, count, bound, rfl⟩ := roused
  exact ⟨.running waiting (count + 2), running_add,
    ⟨n.succ_pos, waiting, count + 2, Nat.add_le_add_right bound 2, rfl⟩, rfl⟩

theorem Died.add (died : Died n view) :
    ∃ next, view.word + 2 = next.word ∧ Died (n + 1) next ∧ next.waiting = view.waiting := by
  obtain ⟨count, bound, rfl⟩ := died
  exact ⟨.dead (count + 1), dead_add, ⟨count + 1, Nat.succ_le_succ bound, rfl⟩, rfl⟩

theorem Read.add (read : Read n value) : Read (n + 1) value := by
  obtain ⟨waiting, count, bound, rfl⟩ := read
  exact ⟨waiting, count, by omega, rfl⟩

theorem agrees_add (agrees : worker.Agrees n view) :
    ∃ next, view.word + 2 = next.word ∧ worker.Agrees (n + 1) next ∧ next.waiting = view.waiting := by
  cases worker with
  | idle => exact Counts.add agrees
  | draining => exact Counts.add agrees
  | call call value =>
    obtain ⟨next, word, counts, same⟩ := agrees.1.add
    exact ⟨next, word, ⟨counts, agrees.2.add⟩, same⟩
  | post quiet =>
    cases quiet with
    | checked => exact Counts.add agrees
    | sleep => exact Slept.add agrees
    | spin => exact Spun.add agrees
    | dead => exact Died.add agrees
  | spinning value =>
    rcases agrees with ⟨spinning, spun⟩ | ⟨positive, roused⟩
    · obtain ⟨next, word, spun, same⟩ := spun.add
      exact ⟨next, word, .inl ⟨spinning, spun⟩, same⟩
    · obtain ⟨next, word, roused, same⟩ := roused.add
      exact ⟨next, word, .inr ⟨positive, roused⟩, same⟩
  | sleeping => exact Slept.add agrees
  | acknowledge => exact Roused.add agrees
  | dead => exact Died.add agrees

inductive Shape (worker : Worker) (n : Nat) (view : View) : Prop
  | quiet (alive : worker.alive = true) (done : worker ≠ .draining) (none : n = 0)
      (quiet : view = .sleeping ∨ view = .spinning)
  | running {waiting : Bool} {count : Nat} (alive : worker.alive = true) (bound : count ≤ 2 * n)
      (running : view = .running waiting count)
  | dead {count : Nat} (dead : worker.alive = false) (bound : count ≤ n) (died : view = .dead count)

theorem Counts.shape (counts : Counts n view) (alive : worker.alive = true) :
    Shape worker n view := by
  obtain ⟨waiting, rfl⟩ := counts
  exact .running alive le_rfl rfl

theorem Slept.shape (slept : Slept n view) (alive : worker.alive = true)
    (done : worker ≠ .draining) : Shape worker n view := by
  rcases slept with ⟨rfl, rfl⟩ | ⟨-, waiting, rfl⟩
  · exact .quiet alive done rfl (.inl rfl)
  · exact .running alive (Nat.sub_le ..) rfl

theorem Spun.shape (spun : Spun n view) (alive : worker.alive = true)
    (done : worker ≠ .draining) : Shape worker n view := by
  rcases spun with ⟨rfl, rfl⟩ | ⟨-, waiting, rfl⟩
  · exact .quiet alive done rfl (.inr rfl)
  · exact .running alive (Nat.sub_le ..) rfl

theorem Roused.shape (roused : Roused n view) (alive : worker.alive = true) :
    Shape worker n view := by
  obtain ⟨-, waiting, count, bound, rfl⟩ := roused
  exact .running alive bound rfl

theorem Died.shape (died : Died n view) (dead : worker.alive = false) :
    Shape worker n view := by
  obtain ⟨count, bound, rfl⟩ := died
  exact .dead dead bound rfl

theorem agrees_shape (agrees : worker.Agrees n view) : Shape worker n view := by
  cases worker with
  | idle => exact Counts.shape agrees rfl
  | draining => exact Counts.shape agrees rfl
  | call call value => exact agrees.1.shape rfl
  | post quiet =>
    cases quiet with
    | checked => exact Counts.shape agrees rfl
    | sleep => exact Slept.shape agrees rfl nofun
    | spin => exact Spun.shape agrees rfl nofun
    | dead => exact Died.shape agrees rfl
  | spinning value =>
    rcases agrees with ⟨-, spun⟩ | ⟨-, roused⟩
    · exact spun.shape rfl nofun
    · exact roused.shape rfl
  | sleeping => exact Slept.shape agrees rfl nofun
  | acknowledge => exact Roused.shape agrees rfl
  | dead => exact Died.shape agrees rfl

theorem agrees_running (agrees : worker.Agrees n view) (bounded : n < 2 ^ 29)
    (positive : ¬ view.word < 0) :
    ∃ waiting count, count ≤ 2 * n ∧ view = .running waiting count := by
  cases agrees_shape agrees with
  | quiet _ _ _ quiet => rcases quiet with rfl | rfl <;> exact absurd (by decide) positive
  | running _ bound running => exact ⟨_, _, bound, running⟩
  | dead _ bound died =>
    have dead := dead_word (bound.trans_lt bounded)
    rw [← died, IsDead, decide_eq_true_iff] at dead
    exact absurd (Int32.lt_trans dead (by decide)) positive

theorem agrees_quiet (agrees : worker.Agrees n view) (bounded : n < 2 ^ 29)
    (negative : view.word < 0) (lives : IsDead view.word = false) :
    worker.alive = true ∧ worker ≠ .draining ∧ n = 0 := by
  cases agrees_shape agrees with
  | quiet alive done none => exact ⟨alive, done, none⟩
  | running _ bound running => exact absurd (running ▸ negative) (running_nonneg (by omega))
  | dead _ bound died =>
    have dead := dead_word (bound.trans_lt bounded)
    rw [← died, lives] at dead
    cases dead

theorem agrees_alive (agrees : worker.Agrees n view) (bounded : n < 2 ^ 29)
    (lives : IsDead view.word = false) : worker.alive = true := by
  cases agrees_shape agrees with
  | quiet alive | running alive => exact alive
  | dead _ bound died =>
    have dead := dead_word (bound.trans_lt bounded)
    rw [← died, lives] at dead
    cases dead

theorem agrees_flag {waiting : Bool} {count : Nat}
    (agrees : worker.Agrees n (.running waiting count)) :
    worker.Agrees n (.running true count) := by
  have counts (counts : Counts n (.running waiting count)) : Counts n (.running true count) := by
    obtain ⟨_, equal⟩ := counts
    exact ⟨true, by rw [(View.running.inj equal).2]⟩
  have slept (slept : Slept n (.running waiting count)) : Slept n (.running true count) := by
    rcases slept with ⟨-, equal⟩ | ⟨positive, _, equal⟩
    · cases equal
    · exact .inr ⟨positive, true, by rw [(View.running.inj equal).2]⟩
  have spun (spun : Spun n (.running waiting count)) : Spun n (.running true count) := by
    rcases spun with ⟨-, equal⟩ | ⟨positive, _, equal⟩
    · cases equal
    · exact .inr ⟨positive, true, by rw [(View.running.inj equal).2]⟩
  have roused (roused : Roused n (.running waiting count)) : Roused n (.running true count) := by
    obtain ⟨positive, _, _, bound, equal⟩ := roused
    exact ⟨positive, true, _, bound, by rw [(View.running.inj equal).2]⟩
  have died (died : Died n (.running waiting count)) : Died n (.running true count) := by
    obtain ⟨_, _, equal⟩ := died
    cases equal
  cases worker with
  | idle => exact counts agrees
  | draining => exact counts agrees
  | call call value => exact agrees.imp counts id
  | post quiet =>
    cases quiet with
    | checked => exact counts agrees
    | sleep => exact slept agrees
    | spin => exact spun agrees
    | dead => exact died agrees
  | spinning value => exact agrees.imp (And.imp id spun) (And.imp id roused)
  | sleeping => exact slept agrees
  | acknowledge => exact roused agrees
  | dead => exact died agrees

end

theorem Quiet.worker_agrees {quiet : Quiet} {n : Nat} {view : View} (agrees : quiet.Agrees n view) :
    quiet.worker.Agrees n view := by
  cases quiet with
  | checked | sleep | dead => exact agrees
  | spin => exact .inl ⟨rfl, agrees⟩

theorem Quiet.agrees_view (quiet : Quiet) : quiet.Agrees 0 quiet.view := by
  cases quiet with
  | checked => exact ⟨false, rfl⟩
  | sleep => exact .inl ⟨rfl, rfl⟩
  | spin => exact .inl ⟨rfl, rfl⟩
  | dead => exact ⟨0, le_rfl, rfl⟩

theorem Quiet.view_waiting (quiet : Quiet) : quiet.view.waiting = false := by
  cases quiet <;> rfl

theorem Quiet.worker_posts (quiet : Quiet) : quiet.worker.posts = false := by
  cases quiet <;> rfl

theorem Quiet.tell_running (quiet : Quiet) {waiting : Bool} {count : Nat} (small : count < 2 ^ 30) :
    quiet.tell (View.running waiting count).word = if waiting then .post quiet else quiet.worker := by
  rw [Quiet.tell, isWaiting_running small]

theorem Quiet.tell_posts (quiet : Quiet) {waiting : Bool} {count : Nat} (small : count < 2 ^ 30) :
    (quiet.tell (View.running waiting count).word).posts = waiting := by
  rw [quiet.tell_running small]
  cases waiting
  · exact quiet.worker_posts
  · rfl

theorem Quiet.tell_agrees (quiet : Quiet) {n : Nat} {view : View} (agrees : quiet.Agrees n view)
    (value : Int32) : (quiet.tell value).Agrees n view := by
  rw [Quiet.tell]
  split
  · exact agrees
  · exact quiet.worker_agrees agrees

section

variable {s t : State} {view : View} {action : Action}

theorem Told.read (told : Told s view) (counts : Counts s.fresh.length view) :
    Read s.fresh.length s.m_state := by
  obtain ⟨waiting, equal⟩ := counts
  exact ⟨waiting, _, le_rfl, told.word.trans (congrArg View.word equal)⟩

theorem Told.apart (told : Told s view) (out : s.waiter ≠ .waiting) :
    s.m_empty_sema = 0 ∧ s.worker.posts = false ∧ view.waiting = false := by
  have matched := told.matched
  rw [if_neg out] at matched
  have posts := Nat.eq_zero_of_add_eq_zero_right (Nat.eq_zero_of_add_eq_zero_right matched)
  refine ⟨posts, ?_, ?_⟩
  · exact Bool.toNat_eq_zero.1 (Nat.eq_zero_of_add_eq_zero_left (Nat.eq_zero_of_add_eq_zero_right matched))
  · exact Bool.toNat_eq_zero.1 (Nat.eq_zero_of_add_eq_zero_left matched)

theorem Told.same (told : Told s view) (word : t.m_state = s.m_state) (fresh : t.fresh = s.fresh)
    (worker : t.worker.Agrees s.fresh.length view) (posts : t.worker.posts = s.worker.posts)
    (empty : t.m_empty_sema = s.m_empty_sema) (waiter : t.waiter = .waiting ↔ s.waiter = .waiting) :
    Told t view := by
  refine ⟨word.trans told.word, fresh ▸ told.bounded, fresh ▸ worker, ?_⟩
  rw [empty, posts, told.matched]
  simp only [waiter]

theorem told_exchange {call : Call} (told : Told s view)
    (phase : s.worker = .call call value) (tries : call.Tries value) (same : s.m_state = value) :
    ∃ next, Told { s with
      m_state := call.next value
      worker := if IsReadyForSleep value then call.quiet.tell value else .draining
      fresh := [] } next := by
  have agrees := told.agrees
  rw [phase] at agrees
  obtain ⟨⟨waiting, rfl⟩, -⟩ := agrees
  have small : 2 * s.fresh.length < 2 ^ 30 := by
    have := told.bounded
    omega
  have matched := told.matched
  rw [phase] at matched
  obtain rfl : value = (View.running waiting (2 * s.fresh.length)).word := same.symm.trans told.word
  rw [ready_running small]
  by_cases none : s.fresh.length = 0
  · rw [none] at small ⊢
    refine ⟨call.quiet.view, next_quiet call, Nat.two_pow_pos 29, ?_, ?_⟩
    · exact call.quiet.tell_agrees call.quiet.agrees_view _
    · rw [← matched, call.quiet.view_waiting]
      simp only [Nat.mul_zero, decide_true, if_true]
      rw [call.quiet.tell_posts (by decide)]
      rfl
  · rw [decide_eq_false (by omega : ¬ 2 * s.fresh.length = 0)]
    exact ⟨.running waiting 0, next_running small call tries (by omega), Nat.two_pow_pos 29, ⟨waiting, rfl⟩,
      matched⟩

theorem told_spin (told : Told s view) (phase : s.worker = .spinning value)
    (negative : value < 0) : Told { s with worker := .spinning s.m_state } view := by
  have agrees := told.agrees
  rw [phase] at agrees
  refine told.same rfl rfl ?_ (by rw [phase]; rfl) rfl Iff.rfl
  rcases agrees with ⟨-, spun⟩ | ⟨positive, -⟩
  · have word := told.word
    rcases spun with ⟨none, rfl⟩ | ⟨some, waiting, rfl⟩
    · exact .inl ⟨word, .inl ⟨none, rfl⟩⟩
    · have small : 2 * s.fresh.length - 2 < 2 ^ 30 := by
        have := told.bounded
        omega
      exact .inr ⟨word ▸ running_nonneg small, some, waiting, _, Nat.sub_le .., rfl⟩
  · exact absurd negative positive

theorem told_sleep (told : Told s view) (phase : s.worker = .spinning value)
    (negative : value < 0) (same : s.m_state = value) :
    s.fresh = [] ∧ Told { s with m_state := STATE_SLEEPING, worker := .sleeping } .sleeping := by
  have agrees := told.agrees
  rw [phase] at agrees
  have matched := told.matched
  rw [phase] at matched
  rcases agrees with ⟨rfl, spun⟩ | ⟨positive, -⟩
  · rcases spun with ⟨none, rfl⟩ | ⟨some, waiting, rfl⟩
    · exact ⟨List.eq_nil_of_length_eq_zero none, rfl, told.bounded, .inl ⟨none, rfl⟩, matched⟩
    · have small : 2 * s.fresh.length - 2 < 2 ^ 30 := by
        have := told.bounded
        omega
      exact absurd (told.word.symm.trans same) (running_ne_spinning small)
  · exact absurd negative positive

theorem told_setWaiting (told : Told s view) (phase : s.waiter = .loop value)
    (positive : ¬ value < 0) (same : s.m_state = value) :
    ∃ next, Told { s with m_state := value ||| STATE_FLAG_WAITING_EMPTY, waiter := .waiting } next := by
  obtain rfl := same
  obtain ⟨empty, posts, -⟩ := told.apart (phase ▸ nofun)
  have small := told.bounded
  obtain ⟨waiting, count, bound, rfl⟩ := agrees_running told.agrees small (told.word ▸ positive)
  refine ⟨.running true count, ?_, small, agrees_flag told.agrees, ?_⟩
  · rw [told.word, running_or_flag (by omega)]
  · simp only [empty, posts]
    rfl

theorem told_acknowledge (told : Told s view) (phase : s.worker = .acknowledge) :
    ∃ next, Told { s with
      m_state := s.m_state &&& STATE_FLAG_WAITING_EMPTY, worker := .draining, fresh := [] } next := by
  have agrees := told.agrees
  rw [phase] at agrees
  have matched := told.matched
  rw [phase] at matched
  obtain ⟨-, waiting, count, bound, rfl⟩ := agrees
  have small := told.bounded
  refine ⟨.running waiting 0, ?_, Nat.two_pow_pos 29, ⟨waiting, rfl⟩, matched⟩
  rw [told.word, running_and_flag (by omega)]

theorem told_kill (told : Told s view) (phase : s.worker = .idle ∨ s.worker = .draining) :
    ∃ next, Told { s with m_state := Int32.minValue, worker := Quiet.dead.tell s.m_state } next := by
  have counts : Counts s.fresh.length view := by
    have agrees := told.agrees
    rcases phase with phase | phase
    · rw [phase] at agrees
      exact agrees
    · rw [phase] at agrees
      exact agrees
  have silent : s.worker.posts = false := by
    rcases phase with phase | phase <;> rw [phase] <;> rfl
  obtain ⟨waiting, rfl⟩ := counts
  have small : 2 * s.fresh.length < 2 ^ 30 := by
    have := told.bounded
    omega
  refine ⟨.dead 0, rfl, told.bounded, Quiet.dead.tell_agrees ⟨0, Nat.zero_le _, rfl⟩ _, ?_⟩
  have matched := told.matched
  rw [silent] at matched
  simp only [told.word, Quiet.dead.tell_posts small]
  rw [← matched]
  rfl

theorem told_step (told : Told s view) (wakes : Wakes s) (within : Within s action)
    (step : Step action s t) : ∃ next, Told t next := by
  have agrees := told.agrees
  cases step with
  | queue | notifyPost | process => exact ⟨view, told.same rfl rfl agrees rfl rfl Iff.rfl⟩
  | notify =>
    obtain ⟨next, word, agrees, same⟩ := agrees_add agrees
    refine ⟨next, (congrArg (· + 2) told.word).trans word, ?_, ?_, ?_⟩
    · rw [List.length_append]
      exact within
    · rw [List.length_append]
      exact agrees
    · rw [same]
      exact told.matched
  | drained phase =>
    rw [phase] at agrees
    exact ⟨view, told.same rfl rfl agrees (by rw [phase]; rfl) rfl Iff.rfl⟩
  | call call phase =>
    rw [phase] at agrees
    exact ⟨view, told.same rfl rfl ⟨agrees, told.read agrees⟩ (by rw [phase]; rfl) rfl Iff.rfl⟩
  | reload phase =>
    rw [phase] at agrees
    exact ⟨view, told.same rfl rfl ⟨agrees.1, told.read agrees.1⟩ (by rw [phase]; rfl) rfl Iff.rfl⟩
  | exchange phase tries same => exact told_exchange told phase tries same
  | skip phase work =>
    rw [phase] at agrees
    obtain ⟨⟨waiting, rfl⟩, _, count, bound, rfl⟩ := agrees
    have small := told.bounded
    rw [ready_running (by omega), decide_eq_true_iff] at work
    refine ⟨_, told.same rfl rfl (.inr ⟨running_nonneg (by omega), ?_⟩) (by rw [phase]; rfl) rfl Iff.rfl⟩
    exact ⟨by omega, waiting, _, le_rfl, rfl⟩
  | @post _ quiet phase =>
    rw [phase] at agrees
    refine ⟨view, told.word, told.bounded, quiet.worker_agrees agrees, ?_⟩
    rw [← told.matched, phase, quiet.worker_posts]
    rfl
  | spin phase negative => exact ⟨view, told_spin told phase negative⟩
  | sleep phase negative same => exact ⟨.sleeping, (told_sleep told phase negative same).2⟩
  | leave phase positive =>
    rw [phase] at agrees
    rcases agrees with ⟨rfl, -⟩ | ⟨-, roused⟩
    · exact absurd (by decide) positive
    · exact ⟨view, told.same rfl rfl roused (by rw [phase]; rfl) rfl Iff.rfl⟩
  | wake phase posted =>
    rw [phase] at agrees
    rcases agrees with ⟨none, -⟩ | ⟨some, waiting, rfl⟩
    · rw [Wakes, phase, List.eq_nil_of_length_eq_zero none] at wakes
      exact absurd wakes.1 (Nat.ne_of_gt posted)
    · exact ⟨_, told.same rfl rfl ⟨some, waiting, _, Nat.sub_le .., rfl⟩ (by rw [phase]; rfl) rfl Iff.rfl⟩
  | acknowledge phase => exact told_acknowledge told phase
  | kill phase => exact told_kill told phase
  | waitForEmpty phase | seeEmpty phase | waiterReload phase | waiterLoad phase | waiterLeave phase =>
    exact ⟨view, told.same rfl rfl agrees rfl rfl (by rw [phase]; simp only [reduceCtorEq])⟩
  | setWaiting phase positive same => exact told_setWaiting told phase positive same
  | waiterWake phase posted =>
    refine ⟨view, told.word, told.bounded, agrees, ?_⟩
    have matched := told.matched
    rw [if_pos phase] at matched
    simp only [reduceCtorEq, if_false]
    omega

end

/-! ## Who owes the worker a post -/

section

variable {s t : State} {view : View} {action : Action}

theorem Wakes.awake (wakes : Wakes s) (awake : s.worker.sleeps = false) : s.m_sema = 0 ∧ s.posting = [] := by
  rw [Wakes, awake] at wakes
  exact wakes

theorem wakes_awake (awake : t.worker.sleeps = false) (none : t.m_sema = 0 ∧ t.posting = []) : Wakes t := by
  rw [Wakes, awake]
  exact none

theorem Wakes.stay (wakes : Wakes s) (before : s.worker.sleeps = false) (after : t.worker.sleeps = false)
    (sema : t.m_sema = s.m_sema) (posting : t.posting = s.posting) : Wakes t :=
  wakes_awake after (sema ▸ posting ▸ wakes.awake before)

theorem Quiet.worker_sleeps (quiet : Quiet) : quiet.worker.sleeps = (Worker.post quiet).sleeps := by
  cases quiet <;> rfl

theorem slept_sleeps {n : Nat} {view : View} (agrees : worker.Agrees n view)
    (sleeps : worker.sleeps = true) : Slept n view := by
  cases worker with
  | sleeping => exact agrees
  | post quiet =>
    cases quiet with
    | sleep => exact agrees
    | checked | spin | dead => cases sleeps
  | _ => cases sleeps

theorem agrees_sleeping {n : Nat} (agrees : worker.Agrees n .sleeping) :
    worker.sleeps = true ∧ n = 0 := by
  have slept (slept : Slept n .sleeping) : n = 0 := by
    rcases slept with ⟨none, -⟩ | ⟨-, _, equal⟩
    · exact none
    · cases equal
  cases worker with
  | sleeping => exact ⟨rfl, slept agrees⟩
  | idle | draining => cases agrees with | intro _ equal => cases equal
  | call => cases agrees.1 with | intro _ equal => cases equal
  | post quiet =>
    cases quiet with
    | sleep => exact ⟨rfl, slept agrees⟩
    | checked => cases agrees with | intro _ equal => cases equal
    | spin =>
      rcases agrees with ⟨-, equal⟩ | ⟨-, _, equal⟩
      · cases equal
      · cases equal
    | dead =>
      obtain ⟨_, _, equal⟩ := agrees
      cases equal
  | spinning =>
    rcases agrees with ⟨-, ⟨-, equal⟩ | ⟨-, _, equal⟩⟩ | ⟨-, -, _, _, -, equal⟩
    · cases equal
    · cases equal
    · cases equal
  | acknowledge =>
    obtain ⟨-, _, _, -, equal⟩ := agrees
    cases equal
  | dead =>
    obtain ⟨_, _, equal⟩ := agrees
    cases equal

theorem Told.asleep (told : Told s view) :
    s.m_state = STATE_SLEEPING ↔ s.worker.sleeps = true ∧ s.fresh = [] := by
  have small := told.bounded
  constructor
  · intro sleeping
    have word := told.word.symm.trans sleeping
    have agrees := told.agrees
    cases agrees_shape agrees with
    | quiet _ _ _ quiet =>
      rcases quiet with rfl | rfl
      · exact (agrees_sleeping agrees).imp id List.eq_nil_of_length_eq_zero
      · exact absurd word (by decide)
    | running _ bound running =>
      rw [running] at word
      exact absurd word (running_ne_sleeping (by omega))
    | dead _ bound died =>
      rw [died] at word
      exact absurd word (dead_ne_sleeping (bound.trans_lt small))
  · rintro ⟨sleeps, none⟩
    rcases slept_sleeps told.agrees sleeps with ⟨-, rfl⟩ | ⟨some, -⟩
    · exact told.word
    · rw [none] at some
      cases some

theorem wakes_notify {item : Nat} (told : Told s view) (wakes : Wakes s) :
    Wakes { s with
      m_state := s.m_state + 2
      adding := s.adding.erase item
      posting := if s.m_state = STATE_SLEEPING then s.posting ++ [item] else s.posting
      fresh := s.fresh ++ [item] } := by
  have asleep := told.asleep
  cases sleeps : s.worker.sleeps with
  | false =>
    rw [if_neg (fun sleeping => absurd (asleep.1 sleeping).1 (by rw [sleeps]; decide))]
    exact wakes.stay sleeps sleeps rfl rfl
  | true =>
    rw [Wakes, sleeps] at wakes ⊢
    cases fresh : s.fresh with
    | nil =>
      rw [fresh] at wakes
      rw [if_pos (asleep.2 ⟨sleeps, fresh⟩), wakes.2]
      exact .inr ⟨wakes.1, rfl⟩
    | cons first rest =>
      rw [fresh] at wakes
      rw [if_neg (fun sleeping => absurd ((asleep.1 sleeping).2.symm.trans fresh) nofun)]
      exact wakes

theorem wakes_step (told : Told s view) (wakes : Wakes s) (step : Step action s t) : Wakes t := by
  cases step with
  | queue | process => exact wakes
  | notify => exact wakes_notify told wakes
  | @notifyPost _ item posts =>
    rw [Wakes] at wakes ⊢
    split at wakes
    · rename_i sleeps fresh
      rcases wakes with ⟨-, none⟩ | ⟨none, posting⟩
      · rw [none] at posts
        cases posts
      · rw [posting, List.mem_singleton] at posts
        rw [sleeps, fresh, posting, none, posts]
        exact .inl ⟨rfl, List.erase_cons_head ..⟩
    · rw [wakes.2] at posts
      cases posts
  | drained phase | call _ phase | reload phase | skip phase | spin phase | leave phase | acknowledge phase =>
    exact wakes.stay (by rw [phase]; rfl) rfl rfl rfl
  | exchange phase =>
    have none := wakes.awake (by rw [phase]; rfl)
    rw [Wakes]
    split
    · contradiction
    · exact none
  | post phase =>
    rw [Wakes, phase] at wakes
    rw [Wakes, Quiet.worker_sleeps]
    exact wakes
  | sleep phase negative same =>
    have none := wakes.awake (by rw [phase]; rfl)
    rw [Wakes, (told_sleep told phase negative same).1]
    exact none
  | wake phase posted =>
    rw [Wakes, phase] at wakes
    refine wakes_awake rfl ?_
    dsimp only
    split at wakes
    · rcases wakes with ⟨one, none⟩ | ⟨none, -⟩
      · exact ⟨by rw [one], none⟩
      · exact absurd none (Nat.ne_of_gt posted)
    · exact absurd wakes.1 (Nat.ne_of_gt posted)
  | kill phase =>
    refine wakes.stay ?_ ?_ rfl rfl
    · rcases phase with phase | phase <;> rw [phase] <;> rfl
    · show (Quiet.tell _ _).sleeps = false
      rw [Quiet.tell]
      split <;> rfl
  | waitForEmpty | seeEmpty | setWaiting | waiterReload | waiterWake | waiterLoad | waiterLeave => exact wakes

/-! ## Which items are missed -/

theorem Listed.same (listed : Listed s) (queue : t.queue = s.queue) (queued : t.queued = s.queued)
    (adding : t.adding = s.adding) (asked : t.asked = s.asked)
    (heard : t.worker ≠ .draining → t.worker.alive → ∀ item ∈ s.queue, item ∉ s.adding → item ∈ t.fresh) :
    Listed t := by
  refine ⟨?_, ?_, ?_, ?_⟩
  · rw [queue, adding]
    exact heard
  · rw [queue, queued]
    exact listed.queue_lt
  · rw [adding, queued]
    exact listed.adding_lt
  · rw [asked, queued, adding]
    exact listed.asked

theorem Listed.served (listed : Listed s) (done : s.worker ≠ .draining) (alive : s.worker.alive = true)
    (none : s.fresh = []) : Served s := by
  intro item asked queued
  have told := listed.heard done alive item queued (listed.asked item asked).2
  rw [none] at told
  cases told

theorem Quiet.alive_of_worker {quiet : Quiet} (alive : quiet.worker.alive = true) :
    (Worker.post quiet).alive = true := by
  cases quiet with
  | dead => cases alive
  | checked | sleep | spin => rfl

theorem told_ready {call : Call} (told : Told s view) (phase : s.worker = .call call value)
    (same : s.m_state = value) : IsReadyForSleep value ↔ s.fresh = [] := by
  have agrees := told.agrees
  rw [phase] at agrees
  obtain ⟨⟨waiting, rfl⟩, -⟩ := agrees
  have small := told.bounded
  rw [← same, told.word, ready_running (by omega), decide_eq_true_iff, ← List.length_eq_zero_iff]
  omega

theorem listed_step (told : Told s view) (listed : Listed s) (step : Step action s t) : Listed t := by
  cases step with
  | queue =>
    refine ⟨?_, ?_, ?_, ?_⟩
    · intro done alive item queued missing
      rw [List.mem_append, not_or] at missing
      rcases List.mem_append.1 queued with queued | new
      · exact listed.heard done alive item queued missing.1
      · exact absurd new missing.2
    · intro item queued
      rcases List.mem_append.1 queued with queued | new
      · exact (listed.queue_lt item queued).trans (Nat.lt_succ_self _)
      · exact (List.mem_singleton.1 new) ▸ Nat.lt_succ_self _
    · intro item adding
      rcases List.mem_append.1 adding with adding | new
      · exact (listed.adding_lt item adding).trans (Nat.lt_succ_self _)
      · exact (List.mem_singleton.1 new) ▸ Nat.lt_succ_self _
    · intro item asked
      obtain ⟨below, missing⟩ := listed.asked item asked
      refine ⟨below.trans (Nat.lt_succ_self _), ?_⟩
      rw [List.mem_append, List.mem_singleton]
      rintro (adding | rfl)
      · exact missing adding
      · exact Nat.lt_irrefl _ below
  | @notify _ added adds =>
    refine ⟨?_, listed.queue_lt, ?_, ?_⟩
    · intro done alive item queued missing
      rw [List.mem_append, List.mem_singleton]
      by_cases same : item = added
      · exact .inr same
      · exact .inl (listed.heard done alive item queued fun adding =>
          missing ((List.mem_erase_of_ne same).2 adding))
    · intro item adding
      exact listed.adding_lt item (List.mem_of_mem_erase adding)
    · intro item asked
      exact (listed.asked item asked).imp id fun missing adding => missing (List.mem_of_mem_erase adding)
  | process phase =>
    refine ⟨?_, ?_, listed.adding_lt, listed.asked⟩
    · intro done alive item queued
      exact listed.heard done alive item (List.mem_of_mem_erase queued)
    · intro item queued
      exact listed.queue_lt item (List.mem_of_mem_erase queued)
  | drained phase empty =>
    refine listed.same rfl rfl rfl rfl ?_
    intro _ _ item queued
    rw [empty] at queued
    cases queued
  | call _ phase | reload phase | skip phase | spin phase | sleep phase | leave phase | wake phase =>
    exact listed.same rfl rfl rfl rfl fun _ _ => listed.heard (by rw [phase]; nofun) (by rw [phase]; rfl)
  | post phase =>
    exact listed.same rfl rfl rfl rfl fun _ alive =>
      listed.heard (by rw [phase]; nofun) (by rw [phase]; exact Quiet.alive_of_worker alive)
  | @exchange _ _ value phase tries same =>
    refine listed.same rfl rfl rfl rfl ?_
    intro done _ item queued missing
    by_cases ready : IsReadyForSleep value
    · have none := (told_ready told phase same).1 ready
      have told := listed.heard (by rw [phase]; nofun) (by rw [phase]; rfl) item queued missing
      rw [none] at told
      exact told
    · rw [if_neg ready] at done
      exact absurd rfl done
  | acknowledge => exact listed.same rfl rfl rfl rfl fun done => absurd rfl done
  | kill =>
    refine listed.same rfl rfl rfl rfl ?_
    intro _ alive
    dsimp only at alive
    rw [Quiet.tell] at alive
    split at alive <;> cases alive
  | waitForEmpty phase =>
    refine ⟨listed.heard, listed.queue_lt, listed.adding_lt, ?_⟩
    intro item asked
    have notified := of_decide_eq_true (List.mem_filter.1 asked).2
    exact ⟨notified.1, notified.2.1⟩
  | notifyPost | seeEmpty | setWaiting | waiterReload | waiterWake | waiterLoad | waiterLeave =>
    exact listed.same rfl rfl rfl rfl listed.heard

theorem Served.mono (served : Served s) (asked : t.asked = s.asked) (queue : ∀ item ∈ t.queue, item ∈ s.queue) :
    Served t := by
  intro item member queued
  exact served item (asked ▸ member) (queue item queued)

theorem Answers.mono (answers : Answers s) (waiter : t.waiter = s.waiter) (empty : t.m_empty_sema = s.m_empty_sema)
    (posts : t.worker.posts → s.worker.posts) (alive : t.worker.alive → s.worker.alive)
    (served : Served s → Served t) : Answers t := by
  rw [Answers, waiter, empty]
  rw [Answers] at answers
  split at answers
  · trivial
  · exact fun negative lives => served (answers negative lives)
  · exact fun told lives => served (answers (told.imp id posts) (alive lives))
  · exact fun lives => served (answers (alive lives))
  · exact fun result => served (answers result)

theorem answers_exchange {call : Call} (told : Told s view) (listed : Listed s)
    (answers : Answers s) (phase : s.worker = .call call value) (same : s.m_state = value) :
    Answers { s with
      m_state := call.next value
      worker := if IsReadyForSleep value then call.quiet.tell value else .draining
      fresh := [] } := by
  have alive : s.worker.alive = true := by rw [phase]; rfl
  by_cases ready : IsReadyForSleep value
  · have served : Served s :=
      listed.served (by rw [phase]; nofun) alive ((told_ready told phase same).1 ready)
    rw [Answers]
    split
    · trivial
    · exact fun _ _ => served
    · exact fun _ _ => served
    · exact fun _ => served
    · exact fun _ => served
  · refine answers.mono rfl rfl ?_ (fun _ => alive) id
    rw [if_neg ready]
    exact nofun

theorem answers_step (told : Told s view) (listed : Listed s) (answers : Answers s) (step : Step action s t) :
    Answers t := by
  have small := told.bounded
  -- a word that was just read
  have quiet (negative : s.m_state < 0) (lives : IsDead s.m_state = false) :
      s.worker.alive = true ∧ s.worker ≠ .draining ∧ s.fresh = [] := by
    obtain ⟨alive, done, none⟩ := agrees_quiet told.agrees small (told.word ▸ negative) (told.word ▸ lives)
    exact ⟨alive, done, List.eq_nil_of_length_eq_zero none⟩
  cases step with
  | queue =>
    refine answers.mono rfl rfl id id ?_
    intro served item asked queued
    rcases List.mem_append.1 queued with queued | new
    · exact served item asked queued
    · exact Nat.ne_of_lt (listed.asked item asked).1 (List.mem_singleton.1 new)
  | notify | notifyPost => exact answers.mono rfl rfl id id id
  | process phase =>
    exact answers.mono rfl rfl id id fun served => served.mono rfl fun item => List.mem_of_mem_erase
  | drained phase | call _ phase | reload phase | skip phase | spin phase | sleep phase | leave phase | wake phase
  | acknowledge phase =>
    exact answers.mono rfl rfl nofun (fun _ => by rw [phase]; rfl) id
  | exchange phase tries same => exact answers_exchange told listed answers phase same
  | @post _ quiet phase =>
    rw [Answers] at answers ⊢
    dsimp only
    have alive (lives : quiet.worker.alive) : s.worker.alive := by
      rw [phase]
      exact Quiet.alive_of_worker lives
    split at answers
    · trivial
    · exact answers
    · exact fun _ lives => answers (.inr (by rw [phase]; rfl)) (alive lives)
    · exact fun lives => answers (alive lives)
    · exact answers
  | kill phase =>
    have dead : (Quiet.dead.tell s.m_state).alive = false := by
      rw [Quiet.tell]
      split <;> rfl
    rw [Answers] at answers ⊢
    dsimp only
    split at answers
    · trivial
    · exact answers
    · exact fun _ lives => absurd (dead.symm.trans lives) nofun
    · exact fun lives => absurd (dead.symm.trans lives) nofun
    · exact answers
  | waitForEmpty phase =>
    intro negative lives
    obtain ⟨alive, done, none⟩ := quiet negative lives
    exact (listed_step told listed (.waitForEmpty phase)).served done alive none
  | seeEmpty phase negative =>
    rw [Answers, phase] at answers
    intro result
    exact answers negative (by simpa using result)
  | setWaiting phase positive same =>
    obtain ⟨empty, posts, -⟩ := told.apart (phase ▸ nofun)
    rintro (posted | posted)
    · exact absurd empty (Nat.ne_of_gt posted)
    · exact absurd posted (posts ▸ nofun)
  | waiterReload phase =>
    intro negative lives
    obtain ⟨alive, done, none⟩ := quiet negative lives
    exact listed.served done alive none
  | waiterWake phase posted =>
    rw [Answers, phase] at answers
    exact answers (.inl posted)
  | waiterLoad phase =>
    rw [Answers, phase] at answers
    intro lives
    exact answers (agrees_alive told.agrees small (told.word ▸ (by simpa using lives)))
  | waiterLeave => trivial

end

end Pcsx2.Threading
