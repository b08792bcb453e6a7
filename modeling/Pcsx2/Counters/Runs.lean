import Pcsx2.Counters.Events

/-!
# Runs of the timers

Updates, changes of the video mode and accesses of the guest, at any cycles and in any order.
-/

namespace Pcsx2.Counters
open State

variable {s : State} {c : Counter}

/-- `advance` is time that passes. -/
inductive Action
  | advance (n : Nat)
  | rcntUpdate (SINT : Bool)
  | UpdateVSyncRate (info : vSyncTimingInfo)
  | rcntWmode (i : Fin 4) (value : Nat)
  | rcntWcount (i : Fin 4) (value : Nat)
  | rcntWtarget (i : Fin 4) (value : Nat)
  | rcntWhold (i : Fin 4) (value : Nat)
  | rcntRcount (i : Fin 4)

namespace Action

def step (s : State) : Action → State
  | advance n => { s with cycle := s.cycle + n }
  | rcntUpdate SINT => s.rcntUpdate SINT
  | UpdateVSyncRate info => s.UpdateVSyncRate info
  | rcntWmode i value => s.rcntWmode i value
  | rcntWcount i value => s.rcntWcount i value
  | rcntWtarget i value => s.rcntWtarget i value
  | rcntWhold i value => s.rcntWhold i value
  | rcntRcount i => (s.rcntRcount i).2

/-- The counter that `rcntSet` is called for has not gone past what it waits for. -/
def ClearAt (s : State) (i : Fin 4) : Prop := Watched s (s.counters i) → ¬ (s.counters i).Passed

/-- No call of `rcntSet` finds a counter that has gone past what it waits for, and no clock is too far from the others. -/
def Regular (s : State) : Action → Prop
  | advance _ => True
  | rcntUpdate SINT => Timely s ∧ OnTime s ∧ Clear (s.rcntTest SINT)
  | UpdateVSyncRate info => Timely s ∧ OnTime s ∧ Clear (s.setVSyncInfo info)
  | rcntWmode i value => Timely s ∧ ClearAt (s.setMode i value) i
  | rcntWcount i value => Timely s ∧ ClearAt (s.setCount i value) i
  | rcntWtarget i value => Timely s ∧ ClearAt (s.setTarget i value) i
  | rcntWhold _ _ => True
  | rcntRcount _ => Timely s

end Action

open Action

def run (s : State) (actions : List Action) : State := actions.foldl Action.step s

/-- Every step of the run is regular where it is taken. -/
def AlwaysRegular (s : State) : List Action → Prop
  | [] => True
  | action :: later => action.Regular s ∧ AlwaysRegular (action.step s) later

/-! ## Writes -/

theorem setMode_sane (inv : Inv s) (timely : Timely s) (i : Fin 4) (value : Nat) :
    ∃ c, s.setMode i value = s.setCounter i c ∧ Sane s.cycle c ∧ Fresh s.cycle c := by
  refine ⟨_, rfl, ?_⟩
  have sane := sync_sane (inv.sane i) (timely.fresh i).recent
  generalize s.rcntSyncCounter (s.counters i) = c at sane
  generalize c.mode.write value = mode
  have bus : mode.ClockSource ≠ 3 → BusRate (s.vSyncInfo.rate mode.ClockSource) := by
    intro other
    match mode.ClockSource, other with
    | 0, _ => exact .inl rfl
    | 1, _ => exact .inr (.inl rfl)
    | 2, _ => exact .inr (.inr rfl)
    | 3, other => exact absurd rfl other
  generalize s.vSyncInfo.rate mode.ClockSource = rate at bus
  have tick : mode.ClockSource ≠ 3 →
      previousTick s.cycle rate % rate = 0 ∧ s.cycle < previousTick s.cycle rate + 2 ^ 10 := by
    intro other
    have bounds := (bus other).bounds
    have positive : (0 : Int) < rate := by omega
    have small := Int.emod_lt_of_pos s.cycle positive
    rw [previousTick_bus (bus other)]
    exact ⟨Int.emod_eq_zero_of_dvd (Int.dvd_self_sub_emod ..), by omega⟩
  refine ⟨⟨previousTick_le .., bus, fun other _ => (tick other).1, sane.target⟩, fun other => ?_⟩
  have := (tick other).2
  show s.cycle < previousTick s.cycle rate + _ + _
  omega

theorem setCount_sane (inv : Inv s) (timely : Timely s) (i : Fin 4) (value : Nat) :
    ∃ c, s.setCount i value = s.setCounter i c ∧ Sane s.cycle c ∧ Fresh s.cycle c := by
  refine ⟨_, rfl, ?_⟩
  have sane := sync_sane (inv.sane i) (timely.fresh i).recent
  have fresh := sync_fresh (inv.sane i) (timely.fresh i)
  refine ⟨sane.congr rfl rfl rfl rfl ?_, fresh⟩
  dsimp only
  split
  · exact fun none => absurd none (future_target _)
  · exact fun _ => low_target _

theorem setTarget_sane (inv : Inv s) (timely : Timely s) (i : Fin 4) (value : Nat) :
    ∃ c, s.setTarget i value = s.setCounter i c ∧ Sane s.cycle c ∧ Fresh s.cycle c := by
  refine ⟨_, rfl, ?_⟩
  have before : Sane s.cycle { s.counters i with target := value % 2 ^ 16 } :=
    (inv.sane i).congr rfl rfl rfl rfl fun _ => low_target _
  have recently : Fresh s.cycle { s.counters i with target := value % 2 ^ 16 } := timely.fresh i
  have sane := sync_sane before recently.recent
  have fresh := sync_fresh before recently
  refine ⟨sane.congr rfl rfl rfl rfl ?_, fresh⟩
  dsimp only
  split
  · exact fun none => absurd none (future_target _)
  · exact fun _ => low_target _

theorem Inv.rcntWhold (inv : Inv s) (i : Fin 4) (value : Nat) : Inv (s.rcntWhold i value) :=
  inv.replaced ((inv.sane i).congr rfl rfl rfl rfl (inv.sane i).target) fun watched => ⟨watched, rfl, fun _ => rfl⟩

theorem Inv.step (inv : Inv s) (action : Action) (regular : action.Regular s) : Inv (action.step s) := by
  cases action with
  | advance n => exact inv.advance n
  | rcntUpdate SINT =>
    obtain ⟨timely, onTime, clear⟩ := regular
    exact (rcntTest_ready SINT (fun i => ⟨inv.sane i, timely.fresh i⟩) inv.paced onTime).1.inv clear
  | UpdateVSyncRate info =>
    obtain ⟨timely, onTime, clear⟩ := regular
    exact (setVSyncInfo_ready info (fun i => ⟨inv.sane i, timely.fresh i⟩) inv.paced onTime).inv clear
  | rcntWmode i value =>
    obtain ⟨timely, clear⟩ := regular
    obtain ⟨c, same, sane, fresh⟩ := setMode_sane inv timely i value
    show Inv ((s.setMode i value).rcntSet i)
    unfold ClearAt at clear
    rw [same] at clear ⊢
    rw [setCounter_self] at clear
    exact inv.written timely sane fresh clear
  | rcntWcount i value =>
    obtain ⟨timely, clear⟩ := regular
    obtain ⟨c, same, sane, fresh⟩ := setCount_sane inv timely i value
    show Inv ((s.setCount i value).rcntSet i)
    unfold ClearAt at clear
    rw [same] at clear ⊢
    rw [setCounter_self] at clear
    exact inv.written timely sane fresh clear
  | rcntWtarget i value =>
    obtain ⟨timely, clear⟩ := regular
    obtain ⟨c, same, sane, fresh⟩ := setTarget_sane inv timely i value
    show Inv ((s.setTarget i value).rcntSet i)
    unfold ClearAt at clear
    rw [same] at clear ⊢
    rw [setCounter_self] at clear
    exact inv.written timely sane fresh clear
  | rcntWhold i value => exact inv.rcntWhold i value
  | rcntRcount i => exact inv.synced regular i

/-! ## Runs -/

theorem rcntInit_inv (cycle : Int) : Inv (rcntInit cycle) := by
  apply Ready.inv
  · refine ⟨fun i => ⟨⟨le_rfl, fun _ => .inl rfl, fun _ counting => Bool.noConfusion counting, fun _ => show 0xffff < 2 ^ 16 by decide⟩, fun _ => ?_⟩,
      ⟨le_rfl, rfl⟩, ?_, ?_⟩
    · show cycle < cycle + _ + _
      omega
    · unfold SyncCounter.boundary
      dsimp only
      omega
    · unfold SyncCounter.boundary
      dsimp only
      omega
  · rintro i ⟨can, -⟩
    cases can

theorem run_inv (inv : Inv s) {actions : List Action} (regular : AlwaysRegular s actions) : Inv (run s actions) := by
  induction actions generalizing s with
  | nil => exact inv
  | cons action later ih => exact ih (inv.step action regular.1) regular.2

/-- In every run of regular steps, the next event is in time for all that the timers wait for. -/
theorem run_scheduled (cycle : Int) (actions : List Action) (regular : AlwaysRegular (rcntInit cycle) actions) :
    Scheduled (run (rcntInit cycle) actions) :=
  (run_inv (rcntInit_inv cycle) regular).scheduled

/-! ### A target of one tick -/

def ntsc : vSyncTimingInfo where
  Render := 4498402
  Blank := 421717
  GSBlank := 65600
  hSyncError := 262
  hRender := 7842
  hBlank := 1529
  small := by decide

def started (target : Nat) : List Action :=
  [.UpdateVSyncRate ntsc, .rcntUpdate false, .advance 262, .rcntUpdate false, .advance 1258, .rcntWtarget 0 target,
    .rcntWmode 0 0x1c0]

def late : List Action := started 1 ++ [.advance 6, .rcntUpdate false]

instance : Decidable (Watched s c) := inferInstanceAs (Decidable (_ ∧ c.mode.ClockSource ≠ 3 ∧ _))

instance : Decidable c.Passed := inferInstanceAs (Decidable (_ ∨ _))

instance : Decidable (Clear s) := inferInstanceAs (Decidable (∀ i, Watched s (s.counters i) → ¬ (s.counters i).Passed))

instance (i : Fin 4) : Decidable (ClearAt s i) :=
  inferInstanceAs (Decidable (Watched s (s.counters i) → ¬ (s.counters i).Passed))

instance : Decidable (Timely s) :=
  decidable_of_iff ((∀ i, (s.counters i).mode.ClockSource ≠ 3 → s.cycle < (s.counters i).startCycle + 2 ^ 30) ∧
    s.cycle < s.nextStartCounter + 2 ^ 30) ⟨fun both => ⟨both.1, both.2⟩, fun timely => ⟨timely.counters, timely.event⟩⟩

instance : Decidable (OnTime s) :=
  decidable_of_iff (_ ∧ _ ∧ _) ⟨fun all => ⟨all.1, all.2.1, all.2.2⟩, fun onTime => ⟨onTime.line, onTime.error, onTime.frame⟩⟩

theorem run_scheduled_started : Scheduled (run (rcntInit 0) (started 100 ++ [.advance 6, .rcntUpdate false])) :=
  run_scheduled 0 _ (by
    refine ⟨?_, ?_, trivial, ?_, trivial, ?_, ?_, trivial, ?_, trivial⟩
    · exact show Timely _ ∧ OnTime _ ∧ Clear _ by decide
    · exact show Timely _ ∧ OnTime _ ∧ Clear _ by decide
    · exact show Timely _ ∧ OnTime _ ∧ Clear _ by decide
    · exact show Timely _ ∧ ClearAt _ _ by decide
    · exact show Timely _ ∧ ClearAt _ _ by decide
    · exact show Timely _ ∧ OnTime _ ∧ Clear _ by decide)

theorem late_misses_line : ¬ Scheduled (run (rcntInit 0) late) := by
  intro scheduled
  have after : ¬ (run (rcntInit 0) late).event ≤
      max (run (rcntInit 0) late).cycle (run (rcntInit 0) late).hsyncCounter.boundary := by decide +kernel
  exact after scheduled.line

end Pcsx2.Counters
