import Pcsx2.Threading.Protocol

/-!
# What the work semaphore promises

The worker is not left asleep with work to do, a waiter returns only when what it waits for is
done, no post is left over, and a waiter always gets its post.
-/

namespace Pcsx2.Threading
open Foundation

structure Sound (s : State) : Prop where
  told : ∃ view, Told s view
  wakes : Wakes s
  listed : Listed s
  answers : Answers s

theorem sound_reset : Sound .reset where
  told := ⟨.running false 0, rfl, Nat.two_pow_pos 29, ⟨false, rfl⟩, rfl⟩
  wakes := ⟨rfl, rfl⟩
  listed := ⟨nofun, nofun, nofun, nofun⟩
  answers := trivial

theorem sound_step {s t : State} {action : Action} (sound : Sound s) (within : Within s action)
    (step : Step action s t) : Sound t := by
  obtain ⟨view, told⟩ := sound.told
  exact ⟨told_step told sound.wakes within step, wakes_step told sound.wakes step,
    listed_step told sound.listed step, answers_step told sound.listed sound.answers step⟩

theorem sound_run {s : State} (run : Run BoundedStep .reset s) : Sound s := by
  refine run.invariant sound_reset ?_
  rintro s t sound ⟨action, within, step⟩
  exact sound_step sound within step

/-! ## The worker's post -/

/-- The worker cannot leave `m_sema.Wait()`. -/
def State.Blocked (s : State) : Prop := s.worker = .sleeping ∧ s.m_sema = 0

theorem Sound.blocked {s : State} (sound : Sound s) (blocked : s.Blocked) :
    ∀ item ∈ s.queue, s.Notified item → ∃ first rest, s.fresh = first :: rest ∧ s.posting = [first] ∧ item ∈ rest := by
  intro item queued notified
  obtain ⟨sleeping, none⟩ := blocked
  have heard := sound.listed.heard (by rw [sleeping]; nofun) (by rw [sleeping]; rfl) item queued notified.2.1
  have wakes := sound.wakes
  rw [Wakes, sleeping, none] at wakes
  cases fresh : s.fresh with
  | nil =>
    rw [fresh] at heard
    cases heard
  | cons first rest =>
    rw [fresh] at wakes heard
    rcases wakes with ⟨one, -⟩ | ⟨-, posting⟩
    · cases one
    · refine ⟨first, rest, rfl, posting, (List.mem_cons.1 heard).resolve_left ?_⟩
      rintro rfl
      exact notified.2.2 (posting ▸ List.mem_singleton_self _)

/-! ## The waiter's post -/

/-- A waiter has set the flag and the worker has not seen it yet. -/
def State.flagged (s : State) : Bool := decide (0 ≤ s.m_state) && IsWaiting s.m_state

theorem Told.flagged {s : State} {view : View} (told : Told s view) : s.flagged = view.waiting := by
  have small := told.bounded
  rw [State.flagged, told.word]
  cases agrees_shape told.agrees with
  | quiet _ _ _ quiet => rcases quiet with rfl | rfl <;> decide
  | @running waiting count _ bound running =>
    have limit : count < 2 ^ 30 := by omega
    rw [running, decide_eq_true (Int32.not_lt.1 (running_nonneg limit)), isWaiting_running limit]
    rfl
  | dead _ bound died =>
    have dead := dead_word (bound.trans_lt small)
    rw [IsDead, decide_eq_true_iff] at dead
    rw [died, decide_eq_false (Int32.not_le.2 (Int32.lt_trans dead (by decide)))]
    rfl

/-- A step that changes something and queues no new item. -/
def Going (s t : State) : Prop :=
  t ≠ s ∧ ∃ action, action ≠ .queue ∧ Within s action ∧ Step action s t

/-- The waiter has its post. -/
def State.Posted (s : State) : Prop := 0 < s.m_empty_sema

structure Waits (s : State) : Prop where
  sound : Sound s
  waiting : s.waiter = .waiting

def Worker.rank (state : Int32) : Worker → Nat
  | .draining => 9
  | .idle => 8
  | .call _ value => if value = state then 6 else 7
  | .spinning value => if value < 0 then 5 else 4
  | .sleeping => 4
  | .acknowledge => 3
  | .post _ => 1
  | .dead => 0

def State.rank (s : State) : Nat :=
  20 * s.adding.length + s.posting.length + s.queue.length + (if s.fresh = [] then 0 else 10) +
    s.worker.rank s.m_state

section

variable {s t : State} {view : View}

theorem Told.unposted (told : Told s view) (waiting : s.waiter = .waiting) (unposted : ¬ s.Posted)
    (silent : s.worker.posts = false) : view.waiting = true := by
  have matched := told.matched
  rw [if_pos waiting, silent, Nat.eq_zero_of_not_pos unposted] at matched
  cases flag : view.waiting with
  | true => rfl
  | false =>
    rw [flag] at matched
    cases matched

theorem Slept.flagged {n : Nat} (slept : Slept n view) (flag : view.waiting = true) : 0 < n := by
  rcases slept with ⟨-, rfl⟩ | ⟨some, -⟩
  · cases flag
  · exact some

theorem Spun.flagged {n : Nat} (spun : Spun n view) (bounded : n < 2 ^ 29) (flag : view.waiting = true) :
    ¬ view.word < 0 := by
  rcases spun with ⟨-, rfl⟩ | ⟨-, waiting, rfl⟩
  · cases flag
  · exact running_nonneg (by omega)

theorem waits_able (waits : Waits s) (unposted : ¬ s.Posted) : ∃ t, Going s t := by
  obtain ⟨view, told⟩ := waits.sound.told
  have small := told.bounded
  have agrees := told.agrees
  have flag := told.unposted waits.waiting unposted
  have goes {t : State} {action : Action} (step : Step action s t) (other : action ≠ .queue)
      (within : Within s action) (changed : t ≠ s) : ∃ t, Going s t := ⟨t, changed, action, other, within, step⟩
  have moves {t : State} (changed : t.worker ≠ s.worker) : t ≠ s := fun same => changed (congrArg _ same)
  cases phase : s.worker with
  | idle => exact goes (.call .checkForWork phase) (by rintro ⟨⟩) trivial (moves (by rw [phase]; rintro ⟨⟩))
  | draining =>
    cases queue : s.queue with
    | nil => exact goes (.drained phase queue) (by rintro ⟨⟩) trivial (moves (by rw [phase]; rintro ⟨⟩))
    | cons item rest =>
      refine goes (Step.process (.inr phase) (by rw [queue]; exact List.mem_cons_self : item ∈ s.queue)) (by rintro ⟨⟩) trivial ?_
      intro same
      have shorter := congrArg (fun s => s.queue.length) same
      simp only [queue, List.erase_cons_head, List.length_cons] at shorter
      omega
  | call call value =>
    by_cases tries : call.Tries value
    · by_cases same : s.m_state = value
      · refine goes (.exchange phase tries same) (by rintro ⟨⟩) trivial (moves ?_)
        dsimp only
        rw [phase, Quiet.tell]
        split
        · split
          · rintro ⟨⟩
          · cases call <;> rintro ⟨⟩
        · rintro ⟨⟩
      · refine goes (.reload phase tries) (by rintro ⟨⟩) trivial (moves ?_)
        rw [phase]
        intro equal
        exact same (Worker.call.inj equal).2
    · cases call with
      | waitForWorkWithSpin => exact goes (.skip phase tries) (by rintro ⟨⟩) trivial (moves (by rw [phase]; rintro ⟨⟩))
      | checkForWork | waitForWork => exact absurd trivial tries
  | post quiet =>
    refine goes (.post phase) (by rintro ⟨⟩) trivial (moves ?_)
    rw [phase]
    cases quiet <;> rintro ⟨⟩
  | spinning value =>
    rw [phase] at agrees flag
    rcases agrees with ⟨rfl, spun⟩ | ⟨positive, -⟩
    · have positive := spun.flagged small (flag rfl)
      refine goes (.spin phase (by decide)) (by rintro ⟨⟩) trivial (moves ?_)
      rw [phase]
      intro equal
      rw [← told.word, Worker.spinning.inj equal] at positive
      exact positive (by decide)
    · exact goes (.leave phase positive) (by rintro ⟨⟩) trivial (moves (by rw [phase]; rintro ⟨⟩))
  | sleeping =>
    rw [phase] at agrees flag
    have some := Slept.flagged agrees (flag rfl)
    have wakes := waits.sound.wakes
    rw [Wakes, phase] at wakes
    cases fresh : s.fresh with
    | nil =>
      rw [fresh] at some
      cases some
    | cons first rest =>
      rw [fresh] at wakes
      rcases wakes with ⟨one, -⟩ | ⟨-, posting⟩
      · exact goes (.wake phase (one ▸ Nat.one_pos)) (by rintro ⟨⟩) trivial (moves (by rw [phase]; rintro ⟨⟩))
      · refine goes (Step.notifyPost (posting ▸ List.mem_singleton_self first)) (by rintro ⟨⟩) trivial ?_
        intro same
        have more := congrArg (fun s => s.m_sema) same
        dsimp only at more
        omega
  | acknowledge => exact goes (.acknowledge phase) (by rintro ⟨⟩) trivial (moves (by rw [phase]; rintro ⟨⟩))
  | dead =>
    rw [phase] at agrees flag
    obtain ⟨count, -, rfl⟩ := agrees
    cases flag rfl

theorem rank_call (call : Call) (value state : Int32) :
    6 ≤ (Worker.call call value).rank state ∧ (Worker.call call value).rank state ≤ 7 := by
  rw [Worker.rank]
  split <;> decide

theorem rank_state (worker : Worker) (state other : Int32) : worker.rank state ≤ worker.rank other + 1 := by
  cases worker with
  | call call value =>
    have now := rank_call call value state
    have later := rank_call call value other
    omega
  | _ => exact Nat.le_succ _

theorem waits_falls (waits : Waits s) (unposted : ¬ s.Posted) (going : Going s t) :
    t.Posted ∨ (Waits t ∧ t.rank < s.rank) := by
  obtain ⟨changed, action, other, within, step⟩ := going
  have sound := sound_step waits.sound within step
  obtain ⟨view, told⟩ := waits.sound.told
  have small := told.bounded
  have agrees := told.agrees
  have flag := told.unposted waits.waiting unposted
  have waiting := waits.waiting
  cases step with
  | queue => exact absurd rfl other
  | @notify _ item adds =>
    refine .inr ⟨⟨sound, waiting⟩, ?_⟩
    have erased := List.length_erase_of_mem adds
    have some := List.length_pos_of_mem adds
    have worker := rank_state s.worker (s.m_state + 2) s.m_state
    have posts : (if s.m_state = STATE_SLEEPING then s.posting ++ [item] else s.posting).length
        ≤ s.posting.length + 1 := by
      split
      · exact (List.length_append ..).le
      · exact Nat.le_succ _
    have told : (if s.fresh ++ [item] = [] then 0 else 10) ≤ 10 := by
      split <;> decide
    simp only [State.rank, erased]
    omega
  | notifyPost posts =>
    refine .inr ⟨⟨sound, waiting⟩, ?_⟩
    have erased := List.length_erase_of_mem posts
    have some := List.length_pos_of_mem posts
    simp only [State.rank, erased]
    omega
  | process phase found =>
    refine .inr ⟨⟨sound, waiting⟩, ?_⟩
    have erased := List.length_erase_of_mem found
    have some := List.length_pos_of_mem found
    simp only [State.rank, erased]
    omega
  | drained phase =>
    refine .inr ⟨⟨sound, waiting⟩, ?_⟩
    simp only [State.rank, phase, Worker.rank]
    omega
  | call call phase =>
    refine .inr ⟨⟨sound, waiting⟩, ?_⟩
    simp only [State.rank, phase, Worker.rank, if_true]
    omega
  | @reload _ call value phase =>
    refine .inr ⟨⟨sound, waiting⟩, ?_⟩
    have stale : value ≠ s.m_state := by
      rintro rfl
      apply changed
      rw [← phase]
    simp only [State.rank, phase, Worker.rank, if_true, if_neg stale]
    omega
  | @exchange _ call value phase tries same =>
    refine .inr ⟨⟨sound, waiting⟩, ?_⟩
    have ready := told_ready told phase same
    have before := (rank_call call value s.m_state).1
    rw [phase] at agrees flag
    obtain ⟨⟨_, rfl⟩, -⟩ := agrees
    obtain rfl := flag rfl
    obtain rfl : value = _ := same.symm.trans told.word
    by_cases none : s.fresh = []
    · simp only [State.rank, phase, if_pos (ready.2 none), if_pos none, if_true, Quiet.tell,
        isWaiting_running (by omega : 2 * s.fresh.length < 2 ^ 30), Worker.rank] at before ⊢
      omega
    · simp only [State.rank, phase, if_neg (mt ready.1 none), if_neg none, if_true] at before ⊢
      rw [Worker.rank]
      omega
  | @skip _ value phase work =>
    refine .inr ⟨⟨sound, waiting⟩, ?_⟩
    have before := (rank_call .waitForWorkWithSpin value s.m_state).1
    rw [phase] at agrees
    obtain ⟨-, flag, count, bound, rfl⟩ := agrees
    have after : (Worker.spinning (View.running flag count).word).rank s.m_state = 4 :=
      if_neg (running_nonneg (by omega))
    simp only [State.rank, phase, after]
    omega
  | post phase => exact .inl (Nat.succ_pos _)
  | @spin _ value phase negative =>
    refine .inr ⟨⟨sound, waiting⟩, ?_⟩
    rw [phase] at agrees flag
    rcases agrees with ⟨rfl, spun⟩ | ⟨positive, -⟩
    · have positive := spun.flagged small (flag rfl)
      rw [← told.word] at positive
      simp only [State.rank, phase, Worker.rank, if_pos negative, if_neg positive]
      omega
    · exact absurd negative positive
  | @sleep _ value phase negative same =>
    rw [phase] at agrees flag
    rcases agrees with ⟨rfl, spun⟩ | ⟨positive, -⟩
    · have positive := spun.flagged small (flag rfl)
      rw [← told.word, same] at positive
      exact absurd negative positive
    · exact absurd negative positive
  | leave phase positive =>
    refine .inr ⟨⟨sound, waiting⟩, ?_⟩
    simp only [State.rank, phase, Worker.rank, if_neg positive]
    omega
  | wake phase =>
    refine .inr ⟨⟨sound, waiting⟩, ?_⟩
    simp only [State.rank, phase, Worker.rank]
    omega
  | acknowledge phase =>
    refine .inr ⟨⟨sound, waiting⟩, ?_⟩
    rw [phase] at agrees
    have some : s.fresh ≠ [] := List.ne_nil_of_length_pos agrees.1
    simp only [State.rank, phase, Worker.rank, if_neg some, if_true]
    omega
  | kill phase =>
    refine .inr ⟨⟨sound, waiting⟩, ?_⟩
    have before : 8 ≤ s.worker.rank s.m_state := by
      rcases phase with phase | phase
      · rw [phase]
        exact le_rfl
      · rw [phase]
        exact Nat.le_succ 8
    have after : (Quiet.dead.tell s.m_state).rank Int32.minValue ≤ 1 := by
      rw [Quiet.tell]
      split <;> decide
    simp only [State.rank]
    omega
  | waitForEmpty phase | seeEmpty phase | setWaiting phase | waiterReload phase | waiterLoad phase
  | waiterLeave phase => exact absurd (waiting.symm.trans phase) (by rintro ⟨⟩)
  | waiterWake phase posted => exact absurd posted unposted

end

theorem Sound.posted {s : State} (sound : Sound s) (waiting : s.waiter = .waiting) :
    Inevitable Going State.Posted s :=
  Inevitable.of_rank State.rank (fun _ => waits_able) (fun _ _ => waits_falls) ⟨sound, waiting⟩

/-- As long as the notifications between two acknowledgements stay below the flag: a worker that is
blocked with a notified item to process has its post coming, from an earlier notification that is
not over; when `WaitForEmpty` returns true, every item that was notified before the call is
processed; a post, a flag or a worker that is about to post belongs to the one waiter, and there is
none without a waiter; and a waiter gets its post, whatever the threads do that queue no new item. -/
theorem workSema_protocol {s : State} (run : Run BoundedStep .reset s) :
    (s.Blocked → ∀ item ∈ s.queue, s.Notified item →
      ∃ first rest, s.fresh = first :: rest ∧ s.posting = [first] ∧ item ∈ rest) ∧
    (s.waiter = .returned true → ∀ item ∈ s.asked, item ∉ s.queue) ∧
    s.m_empty_sema + s.worker.posts.toNat + s.flagged.toNat = (if s.waiter = .waiting then 1 else 0) ∧
    (s.waiter = .waiting → Inevitable Going State.Posted s) := by
  have sound := sound_run run
  refine ⟨sound.blocked, ?_, ?_, sound.posted⟩
  · intro returned
    have answers := sound.answers
    rw [Answers, returned] at answers
    exact answers rfl
  · obtain ⟨view, told⟩ := sound.told
    rw [told.flagged]
    exact told.matched

def waitingRun : State := { State.reset with m_state := STATE_FLAG_WAITING_EMPTY, waiter := .waiting }

theorem workSema_protocol_waitingRun :
    waitingRun.waiter = .waiting ∧ Inevitable Going State.Posted waitingRun := by
  refine ⟨rfl, (workSema_protocol ?_).2.2.2 rfl⟩
  have called : Run BoundedStep .reset { State.reset with waiter := .loop 0 } :=
    .single ⟨.waitForEmpty, trivial, .waitForEmpty rfl⟩
  exact called.tail ⟨.setWaiting, trivial, .setWaiting rfl (by decide) rfl⟩

/-! ## Notifications that overlap, and too many of them -/

theorem overlapping_run :
    ∃ s, Run BoundedStep .reset s ∧ s.Blocked ∧ ∃ item ∈ s.queue, s.Notified item := by
  have one : Run BoundedStep .reset _ := .single ⟨.queue, trivial, .queue⟩
  have two := one.tail ⟨.queue, trivial, .queue⟩
  have called := two.tail ⟨.call .waitForWork, trivial, .call .waitForWork rfl⟩
  have slept := called.tail ⟨.exchange, trivial, .exchange rfl trivial rfl⟩
  have first := slept.tail ⟨.notify 0, (by decide : 0 + 1 < 2 ^ 29), .notify (by decide)⟩
  have second := first.tail ⟨.notify 1, (by decide : 1 + 1 < 2 ^ 29), .notify (by decide)⟩
  exact ⟨_, second, ⟨by decide, rfl⟩, 1, by decide, by decide⟩

def notifiedTimes (n : Nat) : State :=
  { State.reset with
    m_state := (View.running false (2 * n)).word, queue := List.range n, queued := n, fresh := List.range n }

theorem notifiedTimes_run {n : Nat} (small : n ≤ 2 ^ 29) : Run AnyStep .reset (notifiedTimes n) := by
  induction n with
  | zero => exact .refl
  | succ n ih =>
    have queued := (ih (Nat.le_of_succ_le small)).tail ⟨.queue, .queue⟩
    have notified := queued.tail ⟨.notify n, .notify (List.mem_append_right _ (List.mem_singleton_self n))⟩
    have awake : (notifiedTimes n).m_state ≠ STATE_SLEEPING :=
      running_ne_sleeping (by omega)
    rw [if_neg awake] at notified
    rw [notifiedTimes, List.range_succ, Nat.mul_succ, ← running_add]
    simpa [notifiedTimes, State.reset] using notified

theorem flag_reached : (View.running false (2 * 2 ^ 29)).word = (View.running true 0).word :=
  congrArg Int32.ofNat (by decide)

theorem overflow_run :
    ∃ s, Run AnyStep .reset s ∧ s.waiter = .out ∧ s.Posted ∧ s.Blocked ∧ s.posting = [] ∧
      ∃ item ∈ s.queue, s.Notified item := by
  have notified := notifiedTimes_run le_rfl
  generalize many : 2 ^ 29 = n at notified
  have flag : (notifiedTimes n).m_state = (View.running true 0).word := by
    rw [← many]
    exact flag_reached
  have called := notified.tail ⟨.call .waitForWork, .call .waitForWork rfl⟩
  have slept := called.tail ⟨.exchange, .exchange rfl trivial rfl⟩
  rw [flag] at slept
  have posted := slept.tail ⟨.post, .post (by rfl)⟩
  refine ⟨_, posted, rfl, Nat.one_pos, ⟨rfl, rfl⟩, rfl, 0, ?_, ?_⟩
  · exact List.mem_range.2 (by omega)
  · exact ⟨(by omega : 0 < n), nofun, nofun⟩

/-- Two notifications that overlap leave the worker blocked with a notified item for a while, and
too many of them while the worker is busy set the flag without a waiter. -/
theorem protocol_broken :
    (∃ s, Run BoundedStep .reset s ∧ s.Blocked ∧ ∃ item ∈ s.queue, s.Notified item) ∧
    ∃ s, Run AnyStep .reset s ∧ s.waiter = .out ∧ s.Posted ∧ s.Blocked ∧ s.posting = [] ∧
      ∃ item ∈ s.queue, s.Notified item :=
  ⟨overlapping_run, overflow_run⟩

end Pcsx2.Threading
