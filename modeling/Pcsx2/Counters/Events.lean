import Pcsx2.Counters.Gates

/-!
# Events of the timers

The next event is never after what a counter waits for, nor after the next boundary of a blank.
-/

namespace Pcsx2.Counters
open State

variable {s s' : State} {c : Counter} {i : Fin 4}

/-! ## Deltas -/

def Watched (s : State) (c : Counter) : Prop :=
  s.rcntCanCount c = true ∧ c.OnBus ∧
    (c.mode.TargetInterrupt = true ∨ c.mode.OverflowInterrupt = true ∨ c.mode.ZeroReturn = true)

/-- It has gone past what `rcntSet` would schedule. -/
def Counter.Passed (c : Counter) : Prop := 0x10000 < c.count ∨ c.target < c.count

structure Lowered (s s' : State) : Prop where
  same : s' = { s with nextDeltaCounter := s'.nextDeltaCounter, nextEvent := s'.nextEvent }
  le : s'.nextDeltaCounter ≤ s.nextDeltaCounter
  event : s'.nextDeltaCounter = s.nextDeltaCounter ∧ s'.nextEvent = s.nextEvent ∨
    s'.nextEvent = (s.nextStartCounter, s'.nextDeltaCounter)

namespace Lowered

theorem refl (s : State) : Lowered s s := ⟨rfl, le_rfl, .inl ⟨rfl, rfl⟩⟩

theorem start (lowered : Lowered s s') : s'.nextStartCounter = s.nextStartCounter := by
  rw [lowered.same]

theorem cycle (lowered : Lowered s s') : s'.cycle = s.cycle := by
  rw [lowered.same]

theorem counters (lowered : Lowered s s') : s'.counters = s.counters := by
  rw [lowered.same]

theorem watched (lowered : Lowered s s') (c : Counter) : Watched s' c ↔ Watched s c := by
  rw [lowered.same]
  rfl

theorem trans {s'' : State} (first : Lowered s s') (second : Lowered s' s'') : Lowered s s'' := by
  refine ⟨?_, second.le.trans first.le, ?_⟩
  · have same := second.same
    rw [first.same] at same
    exact same
  · rcases second.event with ⟨delta, event⟩ | event
    · rcases first.event with ⟨delta', event'⟩ | event'
      · exact .inl ⟨delta.trans delta', event.trans event'⟩
      · refine .inr ?_
        rw [event, event', delta]
    · refine .inr ?_
      rw [event, first.start]

end Lowered

theorem lowerDelta_spec (s : State) (c : Counter) (ticks : Int)
    (lower : s.nextStartCounter ≤ c.startCycle + ticks * c.rate + 2 ^ 31)
    (upper : c.startCycle + ticks * c.rate < s.nextStartCounter + 2 ^ 31) :
    Lowered s (s.lowerDelta c ticks) ∧
      (s.lowerDelta c ticks).nextDeltaCounter ≤ c.startCycle + ticks * c.rate - s.nextStartCounter := by
  have delta : s32 (s32 (ticks * c.rate - (s.cycle - c.startCycle)) + (s.cycle - s.nextStartCounter)) =
      c.startCycle + ticks * c.rate - s.nextStartCounter := by
    rw [s32_s32_add, s32_eq (by omega) (by omega)]
    omega
  unfold lowerDelta
  dsimp only
  rw [delta]
  split
  · rename_i less
    exact ⟨⟨rfl, less.le, .inr rfl⟩, le_rfl⟩
  · rename_i more
    exact ⟨.refl s, Int.not_lt.mp more⟩

theorem ticks_bounds {rate n count : Nat} (bus : BusRate rate) (reached : count ≤ n) (most : n ≤ 0x10000) :
    0 ≤ ((n : Int) - count) * rate ∧ ((n : Int) - count) * rate ≤ 2 ^ 25 := by
  have few := bus.bounds.2
  have product : (n - count) * rate ≤ 0x10000 * 512 := Nat.mul_le_mul (by omega) few
  have same : ((n : Int) - count) * rate = ((n - count) * rate : Nat) := by
    push_cast [Nat.cast_sub reached]
    rfl
  rw [same]
  omega

structure Awaited (s : State) (c : Counter) : Prop where
  overflow : s.nextDeltaCounter ≤ c.reaches 0x10000 - s.nextStartCounter
  target : c.target &&& EECNT_FUTURE_TARGET = 0 → s.nextDeltaCounter ≤ c.reaches c.target - s.nextStartCounter

theorem Lowered.awaited (lowered : Lowered s s') (awaited : Awaited s c) : Awaited s' c := by
  have le := lowered.le
  have start := lowered.start
  constructor
  · have := awaited.overflow
    omega
  · intro pending
    have := awaited.target pending
    omega

theorem rcntSet_spec (past : s.nextStartCounter ≤ s.cycle) (recent : s.cycle < s.nextStartCounter + 2 ^ 30)
    (sane : Sane s.cycle (s.counters i)) (fresh : Fresh s.cycle (s.counters i))
    (clear : Watched s (s.counters i) → ¬ (s.counters i).Passed) :
    Lowered s (s.rcntSet i) ∧ (Watched s (s.counters i) → Awaited (s.rcntSet i) (s.counters i)) := by
  unfold rcntSet
  dsimp only
  generalize s.counters i = c at sane fresh clear
  by_cases stopped : (!s.rcntCanCount c || decide (c.mode.ClockSource = 3)) = true
  · rw [if_pos stopped]
    refine ⟨.refl s, fun watched => ?_⟩
    obtain ⟨can, bus, -⟩ := watched
    rw [can, decide_eq_false bus] at stopped
    cases stopped
  rw [if_neg stopped]
  have running : s.rcntCanCount c = true ∧ c.OnBus := by
    rw [Bool.not_eq_true, Bool.or_eq_false_iff, Bool.not_eq_false', decide_eq_false_iff_not] at stopped
    exact stopped
  obtain ⟨can, bus⟩ := running
  by_cases quiet : (!c.mode.TargetInterrupt && !c.mode.OverflowInterrupt && !c.mode.ZeroReturn) = true
  · rw [if_pos quiet]
    refine ⟨.refl s, fun watched => ?_⟩
    simp only [Bool.and_eq_true, Bool.not_eq_true'] at quiet
    obtain ⟨-, -, wants⟩ := watched
    rw [quiet.1.1, quiet.1.2, quiet.2] at wants
    rcases wants with wants | wants | wants <;> cases wants
  rw [if_neg quiet]
  have wants : c.mode.TargetInterrupt = true ∨ c.mode.OverflowInterrupt = true ∨ c.mode.ZeroReturn = true := by
    by_contra nothing
    simp only [not_or, Bool.not_eq_true] at nothing
    exact quiet (by rw [nothing.1, nothing.2.1, nothing.2.2]; rfl)
  have before := clear ⟨can, bus, wants⟩
  rw [if_neg (show ¬ (decide (0x10000 < c.count) || decide (c.target < c.count)) = true by
    rw [Bool.or_eq_true, decide_eq_true_iff, decide_eq_true_iff]
    exact before)]
  obtain ⟨count, target⟩ := not_or.mp before
  rw [Nat.not_lt] at count target
  have started := sane.past
  have recently := fresh bus
  have whole := ticks_bounds (sane.rate bus) count le_rfl
  obtain ⟨first, overflow⟩ := lowerDelta_spec s c ((0x10000 : Nat) - c.count) (by omega) (by omega)
  change Lowered s (s.lowerDelta c (0x10000 - c.count)) at first
  change (s.lowerDelta c (0x10000 - c.count)).nextDeltaCounter ≤ c.reaches 0x10000 - s.nextStartCounter at overflow
  have same := first.start
  have clock := first.cycle
  generalize s.lowerDelta c (0x10000 - c.count) = s₁ at first overflow same clock
  rw [← same] at overflow
  by_cases future : c.target &&& EECNT_FUTURE_TARGET ≠ 0
  · rw [if_pos future]
    exact ⟨first, fun _ => ⟨overflow, fun pending => absurd pending future⟩⟩
  · rw [if_neg future]
    have low := sane.target (not_not.mp future)
    have part := ticks_bounds (sane.rate bus) target (by omega)
    obtain ⟨second, targets⟩ := lowerDelta_spec s₁ c (c.target - c.count) (by omega) (by omega)
    refine ⟨first.trans second, fun _ => ⟨?_, fun _ => ?_⟩⟩
    · have := second.le
      have := second.start
      omega
    · rw [second.start]
      exact targets

/-! ## The next event -/

namespace State

def event (s : State) : Int := s.nextStartCounter + s.nextDeltaCounter

end State

/-- The event that has been passed on comes in time for all that the timers wait for: what is later than now is not
missed, and what is not comes now. -/
structure Scheduled (s : State) : Prop where
  passedOn : s.nextEvent = (s.nextStartCounter, s.nextDeltaCounter)
  line : s.event ≤ max s.cycle s.hsyncCounter.boundary
  frame : s.event ≤ max s.cycle s.vsyncCounter.boundary
  overflow : ∀ i, Watched s (s.counters i) → s.event ≤ max s.cycle ((s.counters i).reaches 0x10000)
  target : ∀ i, Watched s (s.counters i) → (s.counters i).target &&& EECNT_FUTURE_TARGET = 0 →
    s.event ≤ max s.cycle ((s.counters i).reaches (s.counters i).target)

def Clear (s : State) : Prop := ∀ i, Watched s (s.counters i) → ¬ (s.counters i).Passed

theorem rcntSets_spec {l : List (Fin 4)} (past : s.nextStartCounter ≤ s.cycle) (recent : s.cycle < s.nextStartCounter + 2 ^ 30)
    (sane : ∀ i, Sane s.cycle (s.counters i) ∧ Fresh s.cycle (s.counters i)) (clear : Clear s) :
    Lowered s (l.foldl rcntSet s) ∧
      ∀ i ∈ l, Watched s (s.counters i) → Awaited (l.foldl rcntSet s) (s.counters i) := by
  induction l generalizing s with
  | nil => exact ⟨.refl s, nofun⟩
  | cons i later ih =>
    obtain ⟨first, awaited⟩ := rcntSet_spec past recent (sane i).1 (sane i).2 (clear i)
    have clear' : Clear (s.rcntSet i) := by
      intro j watched
      rw [first.counters] at watched ⊢
      exact clear j ((first.watched _).mp watched)
    obtain ⟨rest, others⟩ := ih (s := s.rcntSet i) (by rwa [first.start, first.cycle]) (by rwa [first.start, first.cycle])
      (by rwa [first.cycle, first.counters]) clear'
    rw [List.foldl_cons]
    refine ⟨first.trans rest, fun j member watched => ?_⟩
    rcases List.mem_cons.mp member with rfl | member
    · exact rest.awaited (awaited watched)
    · rw [first.counters] at others
      exact others j member ((first.watched _).mpr watched)

theorem cpuRcntSet_spec (ready : Ready s) (clear : Clear s) :
    Scheduled s.cpuRcntSet ∧ ∃ delta event, s.cpuRcntSet =
      { s with nextStartCounter := s.cycle, nextDeltaCounter := delta, nextEvent := event } := by
  have line := ready.line
  have frame := ready.frame
  have vdelta : s32 (s.vsyncCounter.deltaCycles - (s.cycle - s.vsyncCounter.startCycle)) = s.vsyncCounter.boundary - s.cycle := by
    unfold SyncCounter.boundary at frame ⊢
    rw [s32_eq (by omega) (by omega)]
    omega
  have hdelta : s32 (s.hsyncCounter.deltaCycles - (s.cycle - s.hsyncCounter.startCycle)) = s.hsyncCounter.boundary - s.cycle := by
    unfold SyncCounter.boundary at line ⊢
    rw [s32_eq (by omega) (by omega)]
    omega
  unfold cpuRcntSet
  dsimp only
  rw [vdelta, hdelta]
  have least : (if s.hsyncCounter.boundary - s.cycle < s.vsyncCounter.boundary - s.cycle then
      s.hsyncCounter.boundary - s.cycle else s.vsyncCounter.boundary - s.cycle) ≤ s.hsyncCounter.boundary - s.cycle ∧
    (if s.hsyncCounter.boundary - s.cycle < s.vsyncCounter.boundary - s.cycle then
      s.hsyncCounter.boundary - s.cycle else s.vsyncCounter.boundary - s.cycle) ≤ s.vsyncCounter.boundary - s.cycle := by
    split <;> omega
  generalize (if s.hsyncCounter.boundary - s.cycle < s.vsyncCounter.boundary - s.cycle then
      s.hsyncCounter.boundary - s.cycle else s.vsyncCounter.boundary - s.cycle) = delta at least
  obtain ⟨lowered, awaited⟩ := rcntSets_spec (l := List.finRange 4)
    (s := { s with nextStartCounter := s.cycle, nextDeltaCounter := delta }) le_rfl (by dsimp only; omega) ready.counters clear
  have same := lowered.same
  have less := lowered.le
  generalize (List.finRange 4).foldl rcntSet { s with nextStartCounter := s.cycle, nextDeltaCounter := delta } = s₁
    at lowered awaited same less
  obtain ⟨d, e, rfl⟩ : ∃ d e, s₁ = { s with nextStartCounter := s.cycle, nextDeltaCounter := d, nextEvent := e } :=
    ⟨_, _, same⟩
  dsimp only at less awaited ⊢
  refine ⟨⟨rfl, ?_, ?_, fun i watched => ?_, fun i watched pending => ?_⟩, _, _, rfl⟩
  · show s.cycle + (if d < 0 then 0 else d) ≤ max s.cycle s.hsyncCounter.boundary
    split <;> omega
  · show s.cycle + (if d < 0 then 0 else d) ≤ max s.cycle s.vsyncCounter.boundary
    split <;> omega
  · have bound := (awaited i (List.mem_finRange i) watched).overflow
    dsimp only at bound
    show s.cycle + (if d < 0 then 0 else d) ≤ max s.cycle ((s.counters i).reaches 0x10000)
    split <;> omega
  · have bound := (awaited i (List.mem_finRange i) watched).target pending
    dsimp only at bound
    show s.cycle + (if d < 0 then 0 else d) ≤ max s.cycle ((s.counters i).reaches (s.counters i).target)
    split <;> omega

/-! ## Invariant -/

structure Inv (s : State) : Prop where
  sane : ∀ i, Sane s.cycle (s.counters i)
  paced : Paced s
  past : s.nextStartCounter ≤ s.cycle
  near : ∀ i, Watched s (s.counters i) → s.nextStartCounter ≤ (s.counters i).reaches 0 + 2 ^ 30 + 2 ^ 26
  scheduled : Scheduled s

/-- Ticks and events are close enough for `u32` and `s32`. -/
structure Timely (s : State) : Prop where
  counters : ∀ i, (s.counters i).OnBus → s.cycle < (s.counters i).startCycle + 2 ^ 30
  event : s.cycle < s.nextStartCounter + 2 ^ 30

theorem near_of_fresh (sane : Sane s.cycle c) (fresh : Fresh s.cycle c) (watched : Watched s c) (clear : ¬ c.Passed) :
    s.cycle ≤ c.reaches 0 + 2 ^ 30 + 2 ^ 26 := by
  obtain ⟨-, bus, -⟩ := watched
  have recently := fresh bus
  obtain ⟨count, -⟩ := not_or.mp clear
  have product : c.count * c.rate ≤ 0x10000 * 512 := Nat.mul_le_mul (Nat.not_lt.mp count) (sane.rate bus).bounds.2
  have zero : c.reaches 0 = c.startCycle - (c.count * c.rate : Nat) := by
    unfold Counter.reaches
    push_cast
    ring
  omega

theorem Ready.inv (ready : Ready s) (clear : Clear s) : Inv s.cpuRcntSet := by
  obtain ⟨scheduled, delta, event, same⟩ := cpuRcntSet_spec ready clear
  rw [same] at scheduled ⊢
  exact ⟨fun i => (ready.counters i).1, ⟨ready.paced.line, ready.paced.frame⟩, le_rfl,
    fun i watched => near_of_fresh (ready.counters i).1 (ready.counters i).2 watched (clear i watched), scheduled⟩

/-! ## Steps -/

theorem Inv.advance (inv : Inv s) (n : Nat) : Inv { s with cycle := s.cycle + n } := by
  have later : ∀ due : Int, max s.cycle due ≤ max (s.cycle + n) due := fun due => max_le_max (by omega) le_rfl
  obtain ⟨passedOn, line, frame, overflow, target⟩ := inv.scheduled
  refine ⟨fun i => ?_, ⟨inv.paced.line, inv.paced.frame⟩, inv.past.trans (by dsimp only; omega), inv.near, passedOn, line.trans (later _),
    frame.trans (later _), fun i watched => (overflow i watched).trans (later _),
    fun i watched pending => (target i watched pending).trans (later _)⟩
  obtain ⟨past, rate, tick, low⟩ := inv.sane i
  exact ⟨past.trans (by dsimp only; omega), rate, tick, low⟩

theorem Timely.fresh (timely : Timely s) (i : Fin 4) : Fresh s.cycle (s.counters i) := fun bus => by
  have := timely.counters i bus
  omega

theorem setCounter_self (s : State) (i : Fin 4) (c : Counter) : (s.setCounter i c).counters i = c := Function.update_self ..

theorem setCounter_other (s : State) {i j : Fin 4} (c : Counter) (other : j ≠ i) :
    (s.setCounter i c).counters j = s.counters j := Function.update_of_ne other ..

theorem Inv.replaced (inv : Inv s) {i : Fin 4} (sane : Sane s.cycle c)
    (same : Watched s c → Watched s (s.counters i) ∧ c.target = (s.counters i).target ∧
      ∀ n, c.reaches n = (s.counters i).reaches n) : Inv (s.setCounter i c) := by
  have self := setCounter_self s i c
  obtain ⟨passedOn, line, frame, overflow, target⟩ := inv.scheduled
  refine ⟨fun j => ?_, ⟨inv.paced.line, inv.paced.frame⟩, inv.past, fun j seen => ?_, passedOn, line, frame, fun j seen => ?_,
    fun j seen pending => ?_⟩
  · by_cases here : j = i
    · subst j
      rwa [self]
    · rw [setCounter_other s c here]
      exact inv.sane j
  · by_cases here : j = i
    · subst j
      rw [self] at seen ⊢
      obtain ⟨watched, -, reaches⟩ := same seen
      rw [reaches]
      exact inv.near i watched
    · rw [setCounter_other s c here] at seen ⊢
      exact inv.near j seen
  · by_cases here : j = i
    · subst j
      rw [self] at seen ⊢
      obtain ⟨watched, -, reaches⟩ := same seen
      rw [reaches]
      exact overflow i watched
    · rw [setCounter_other s c here] at seen ⊢
      exact overflow j seen
  · by_cases here : j = i
    · subst j
      rw [self] at seen pending ⊢
      obtain ⟨watched, targets, reaches⟩ := same seen
      rw [targets] at pending ⊢
      rw [reaches]
      exact target i watched pending
    · rw [setCounter_other s c here] at seen pending ⊢
      exact target j seen pending

theorem Inv.synced (inv : Inv s) (timely : Timely s) (i : Fin 4) :
    Inv (s.setCounter i (s.rcntSyncCounter (s.counters i))) := by
  have sane := inv.sane i
  have recent := (timely.fresh i).recent
  refine inv.replaced (sync_sane sane recent) fun seen => ?_
  have watched : Watched s (s.counters i) := by
    unfold Watched Counter.OnBus at seen ⊢
    rwa [sync_canCount, sync_mode] at seen
  have near := inv.near i watched
  have event := timely.event
  exact ⟨watched, sync_target s _, sync_reaches sane recent watched.2.1 watched.1 (by omega)⟩

theorem Inv.written (inv : Inv s) (timely : Timely s) {i : Fin 4} (sane : Sane s.cycle c) (fresh : Fresh s.cycle c)
    (clear : Watched s c → ¬ c.Passed) : Inv ((s.setCounter i c).rcntSet i) := by
  have self := setCounter_self s i c
  obtain ⟨lowered, awaited⟩ := rcntSet_spec (s := s.setCounter i c) (i := i) inv.past timely.event (by rwa [self])
    (by rwa [self]) (by rw [self]; exact clear)
  rw [self] at awaited
  have same := lowered.same
  have less := lowered.le
  have passed := lowered.event
  generalize (s.setCounter i c).rcntSet i = s' at lowered awaited same less passed
  obtain ⟨delta, event, rfl⟩ : ∃ delta event, s' =
      { s.setCounter i c with nextDeltaCounter := delta, nextEvent := event } := ⟨_, _, same⟩
  change delta ≤ s.nextDeltaCounter at less
  have earlier : s.nextStartCounter + delta ≤ s.event := by
    unfold State.event
    omega
  obtain ⟨passedOn, line, frame, overflow, target⟩ := inv.scheduled
  refine ⟨fun j => ?_, ⟨inv.paced.line, inv.paced.frame⟩, inv.past, fun j seen => ?_, ?_, earlier.trans line, earlier.trans frame, fun j seen => ?_,
    fun j seen pending => ?_⟩
  · by_cases same : j = i
    · subst j
      show Sane s.cycle ((s.setCounter i c).counters i)
      rwa [self]
    · show Sane s.cycle ((s.setCounter i c).counters j)
      rw [setCounter_other s c same]
      exact inv.sane j
  · change Watched s ((s.setCounter i c).counters j) at seen
    show s.nextStartCounter ≤ ((s.setCounter i c).counters j).reaches 0 + 2 ^ 30 + 2 ^ 26
    by_cases same : j = i
    · subst j
      rw [self] at seen ⊢
      exact inv.past.trans (near_of_fresh sane fresh seen (clear seen))
    · rw [setCounter_other s c same] at seen ⊢
      exact inv.near j seen
  · rcases passed with ⟨stays, old⟩ | new
    · change delta = s.nextDeltaCounter at stays
      change event = s.nextEvent at old
      show event = (s.nextStartCounter, delta)
      rw [old, passedOn, stays]
    · exact new
  · change Watched s ((s.setCounter i c).counters j) at seen
    show s.nextStartCounter + delta ≤ max s.cycle (((s.setCounter i c).counters j).reaches 0x10000)
    by_cases same : j = i
    · subst j
      rw [self] at seen ⊢
      have bound := (awaited seen).overflow
      change delta ≤ _ - s.nextStartCounter at bound
      omega
    · rw [setCounter_other s c same] at seen ⊢
      exact earlier.trans (overflow j seen)
  · change Watched s ((s.setCounter i c).counters j) at seen
    change ((s.setCounter i c).counters j).target &&& EECNT_FUTURE_TARGET = 0 at pending
    show s.nextStartCounter + delta ≤
      max s.cycle (((s.setCounter i c).counters j).reaches ((s.setCounter i c).counters j).target)
    by_cases same : j = i
    · subst j
      rw [self] at seen pending ⊢
      have bound := (awaited seen).target pending
      change delta ≤ _ - s.nextStartCounter at bound
      omega
    · rw [setCounter_other s c same] at seen pending ⊢
      exact earlier.trans (target j seen pending)

end Pcsx2.Counters
