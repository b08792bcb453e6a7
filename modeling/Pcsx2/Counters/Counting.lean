import Mathlib.Tactic.Ring
import Pcsx2.Counters.Timers

/-!
# What counters count

When the cycle numbers are not too far from one another, nothing wraps.
-/

namespace Pcsx2.Counters

/-! ## Cycle numbers -/

theorem s32_eq {x : Int} (lower : -2 ^ 31 ≤ x) (upper : x < 2 ^ 31) : s32 x = x := by
  unfold s32
  apply Int.bmod_eq_of_le <;> omega

theorem s32_s32_add (x y : Int) : s32 (s32 x + y) = s32 (x + y) := Int.bmod_add_bmod

theorem since_eq {cycle startCycle : Int} (past : startCycle ≤ cycle) (recent : cycle < startCycle + 2 ^ 31) :
    (since cycle startCycle : Int) = cycle - startCycle := by
  unfold since
  omega

theorem without_le (cycle : Int) (mask : Nat) : without cycle mask ≤ cycle := by
  unfold without
  omega

def BusRate (rate : Nat) : Prop := rate = 2 ∨ rate = 32 ∨ rate = 512

theorem without_bus {rate : Nat} (bus : BusRate rate) (cycle : Int) :
    without cycle (rate - 1) = cycle - cycle % rate := by
  have mod : ∀ k ≤ 9, (cycle % 2 ^ 64).toNat &&& 2 ^ k - 1 = (cycle % (2 ^ k : Nat)).toNat := by
    intro k few
    rw [Nat.and_two_pow_sub_one_eq_mod]
    have divides : (2 ^ k : Nat) ∣ 2 ^ 64 := Nat.pow_dvd_pow 2 (few.trans (by decide))
    have power := Int.emod_emod_of_dvd cycle (Int.natCast_dvd_natCast.mpr divides)
    have positive : (2 ^ k : Nat) ≠ 0 := (Nat.two_pow_pos k).ne'
    have bound := Int.emod_nonneg cycle (show ((2 ^ 64 : Nat) : Int) ≠ 0 by decide)
    generalize 2 ^ k = m at power positive ⊢
    change ((cycle % (2 ^ 64 : Nat)).toNat) % m = _
    rw [← power, Int.toNat_emod bound (Int.natCast_nonneg m), Int.toNat_natCast]
  unfold without
  rcases bus with rfl | rfl | rfl
  · have one := mod 1 (by decide)
    have bound := Int.emod_nonneg cycle (show ((2 : Nat) : Int) ≠ 0 by decide)
    rw [show 2 - 1 = 2 ^ 1 - 1 from rfl, one]
    omega
  · have five := mod 5 (by decide)
    have bound := Int.emod_nonneg cycle (show ((32 : Nat) : Int) ≠ 0 by decide)
    rw [show 32 - 1 = 2 ^ 5 - 1 from rfl, five]
    omega
  · have nine := mod 9 (by decide)
    have bound := Int.emod_nonneg cycle (show ((512 : Nat) : Int) ≠ 0 by decide)
    rw [show 512 - 1 = 2 ^ 9 - 1 from rfl, nine]
    omega

theorem previousTick_bus {rate : Nat} (bus : BusRate rate) (cycle : Int) :
    previousTick cycle rate = cycle - cycle % rate := by
  rw [← without_bus bus]
  unfold previousTick
  rcases bus with rfl | rfl | rfl <;> rfl

theorem previousTick_le (cycle : Int) (rate : Nat) : previousTick cycle rate ≤ cycle := without_le ..

/-! ## One counter -/

def Counter.OnBus (c : Counter) : Prop := c.mode.ClockSource ≠ 3

/-- The cycle at which the count is `n`. -/
def Counter.reaches (c : Counter) (n : Nat) : Int := c.startCycle + (n - c.count) * c.rate

structure Sane (cycle : Int) (c : Counter) : Prop where
  past : c.startCycle ≤ cycle
  rate : c.OnBus → BusRate c.rate
  tick : c.OnBus → c.mode.IsCounting = true → c.startCycle % c.rate = 0
  target : c.target &&& EECNT_FUTURE_TARGET = 0 → c.target < 2 ^ 16

/-- Its ticks are not older than its `u32` numbers allow. -/
def Recent (cycle : Int) (c : Counter) : Prop := c.OnBus → cycle < c.startCycle + 2 ^ 31

variable {s : State} {c : Counter}

theorem BusRate.bounds {rate : Nat} (bus : BusRate rate) : 2 ≤ rate ∧ rate ≤ 512 := by
  rcases bus with rfl | rfl | rfl <;> decide

theorem counting_of_canCount (can : s.rcntCanCount c = true) : c.mode.IsCounting = true := by
  unfold State.rcntCanCount at can
  exact (Bool.and_eq_true_iff.mp can).1

theorem sync_spec (sane : Sane s.cycle c) (recent : Recent s.cycle c) (bus : c.OnBus) :
    ∃ change : Nat, c.startCycle + change * c.rate ≤ s.cycle ∧ s.cycle < c.startCycle + change * c.rate + c.rate ∧
      s.rcntSyncCounter c = { c with
        startCycle := previousTick (c.startCycle + change * c.rate) c.rate
        count := if s.rcntCanCount c then (c.count + change) % 2 ^ 32 else c.count } := by
  have elapsed := since_eq sane.past (recent bus)
  obtain ⟨two, most⟩ := (sane.rate bus).bounds
  have whole := Nat.div_add_mod (since s.cycle c.startCycle) c.rate
  have part := Nat.mod_lt (since s.cycle c.startCycle) (show 0 < c.rate by omega)
  have few : since s.cycle c.startCycle < 2 ^ 31 := by
    have := recent bus
    omega
  have less := Nat.div_le_self (since s.cycle c.startCycle) c.rate
  rw [Nat.mul_comm] at whole
  refine ⟨since s.cycle c.startCycle / c.rate, ?_, ?_, ?_⟩
  · have product : (since s.cycle c.startCycle / c.rate * c.rate : Nat) ≤ since s.cycle c.startCycle := by omega
    have := Int.ofNat_le.mpr product
    push_cast at this
    omega
  · have product : since s.cycle c.startCycle < since s.cycle c.startCycle / c.rate * c.rate + c.rate := by omega
    have := Int.ofNat_lt.mpr product
    push_cast at this
    omega
  · unfold State.rcntSyncCounter
    rw [if_pos (show c.mode.ClockSource ≠ 3 from bus)]
    have small : since s.cycle c.startCycle / c.rate % 2 ^ 32 = since s.cycle c.startCycle / c.rate :=
      Nat.mod_eq_of_lt (by omega)
    have product : since s.cycle c.startCycle / c.rate * c.rate % 2 ^ 32 = since s.cycle c.startCycle / c.rate * c.rate :=
      Nat.mod_eq_of_lt (by omega)
    dsimp only
    rw [small, product]
    push_cast
    rfl

theorem sync_mode (s : State) (c : Counter) : (s.rcntSyncCounter c).mode = c.mode := by
  unfold State.rcntSyncCounter
  split <;> rfl

theorem sync_target (s : State) (c : Counter) : (s.rcntSyncCounter c).target = c.target := by
  unfold State.rcntSyncCounter
  split <;> rfl

theorem sync_rate (s : State) (c : Counter) : (s.rcntSyncCounter c).rate = c.rate := by
  unfold State.rcntSyncCounter
  split <;> rfl

theorem canCount_congr {c' : Counter} (same : c'.mode = c.mode) : s.rcntCanCount c' = s.rcntCanCount c := by
  unfold State.rcntCanCount
  rw [same]

theorem sync_canCount (s : State) (c : Counter) : s.rcntCanCount (s.rcntSyncCounter c) = s.rcntCanCount c :=
  canCount_congr (sync_mode s c)

theorem sync_external (s : State) (external : ¬ c.OnBus) : (s.rcntSyncCounter c).startCycle = s.cycle := by
  unfold State.rcntSyncCounter
  rw [if_neg (show ¬ c.mode.ClockSource ≠ 3 from external)]

theorem sync_start (sane : Sane s.cycle c) (recent : Recent s.cycle c) (bus : c.OnBus) :
    (s.rcntSyncCounter c).startCycle ≤ s.cycle ∧ s.cycle < (s.rcntSyncCounter c).startCycle + 2 ^ 10 ∧
      (s.rcntSyncCounter c).startCycle % c.rate = 0 := by
  obtain ⟨change, past, last, same⟩ := sync_spec sane recent bus
  have rate := (sane.rate bus).bounds
  rw [same]
  dsimp only
  rw [previousTick_bus (sane.rate bus)]
  have positive : (0 : Int) < c.rate := by omega
  have nonneg := Int.emod_nonneg (c.startCycle + change * c.rate) positive.ne'
  have small := Int.emod_lt_of_pos (c.startCycle + change * c.rate) positive
  refine ⟨by omega, by omega, ?_⟩
  exact Int.emod_eq_zero_of_dvd (Int.dvd_self_sub_emod ..)

theorem sync_sane (sane : Sane s.cycle c) (recent : Recent s.cycle c) : Sane s.cycle (s.rcntSyncCounter c) := by
  have onBus : (s.rcntSyncCounter c).OnBus ↔ c.OnBus := by
    unfold Counter.OnBus
    rw [sync_mode]
  constructor
  · by_cases bus : c.OnBus
    · exact (sync_start sane recent bus).1
    · exact (sync_external s bus).le
  · rw [onBus, sync_rate]
    exact sane.rate
  · rw [onBus, sync_mode, sync_rate]
    exact fun bus _ => (sync_start sane recent bus).2.2
  · rw [sync_target]
    exact sane.target

theorem sync_reaches (sane : Sane s.cycle c) (recent : Recent s.cycle c) (bus : c.OnBus) (can : s.rcntCanCount c = true)
    (near : s.cycle < c.reaches 0 + 2 ^ 32) (n : Nat) : (s.rcntSyncCounter c).reaches n = c.reaches n := by
  obtain ⟨change, past, last, same⟩ := sync_spec sane recent bus
  have rate := (sane.rate bus).bounds
  have tick : previousTick (c.startCycle + change * c.rate) c.rate = c.startCycle + change * c.rate := by
    rw [previousTick_bus (sane.rate bus), Int.add_mul_emod_self_right, sane.tick bus (counting_of_canCount can), Int.sub_zero]
  have few : c.count + change < 2 ^ 32 := by
    have zero : c.reaches 0 = c.startCycle - c.count * c.rate := by
      unfold Counter.reaches
      ring
    have total : ((c.count + change : Nat) : Int) * c.rate < 2 ^ 32 := by
      push_cast
      rw [Int.add_mul]
      omega
    have least : ((c.count + change : Nat) : Int) * 1 ≤ ((c.count + change : Nat) : Int) * c.rate :=
      Int.mul_le_mul_of_nonneg_left (by omega) (Int.natCast_nonneg _)
    omega
  rw [same, if_pos can, Nat.mod_eq_of_lt few, tick]
  unfold Counter.reaches
  push_cast
  ring

/-! ## Tests -/

theorem future_target (target : Nat) : (target ||| EECNT_FUTURE_TARGET) &&& EECNT_FUTURE_TARGET ≠ 0 := by
  rw [Nat.and_or_distrib_right, Nat.and_self]
  intro none
  have bit := congrArg (Nat.testBit · 28) none
  simp only [Nat.testBit_or, Nat.zero_testBit] at bit
  rw [show EECNT_FUTURE_TARGET.testBit 28 = true by decide, Bool.or_true] at bit
  cases bit

theorem low_target (target : Nat) : target % 2 ^ 16 < 2 ^ 16 := Nat.mod_lt _ (Nat.two_pow_pos 16)

variable {cycle : Int}

theorem Sane.congr {c' : Counter} (sane : Sane cycle c) (start : c'.startCycle = c.startCycle) (rate : c'.rate = c.rate)
    (source : c'.mode.ClockSource = c.mode.ClockSource) (counting : c'.mode.IsCounting = c.mode.IsCounting)
    (target : c'.target &&& EECNT_FUTURE_TARGET = 0 → c'.target < 2 ^ 16) : Sane cycle c' := by
  have onBus : c'.OnBus → c.OnBus := fun bus => by
    unfold Counter.OnBus
    rwa [← source]
  constructor
  · rw [start]
    exact sane.past
  · rw [rate]
    exact fun bus => sane.rate (onBus bus)
  · rw [counting, start, rate]
    exact fun bus => sane.tick (onBus bus)
  · exact target

structure Tested (c c' : Counter) : Prop where
  start : c'.startCycle = c.startCycle
  rate : c'.rate = c.rate
  source : c'.mode.ClockSource = c.mode.ClockSource
  counting : c'.mode.IsCounting = c.mode.IsCounting
  target : (c.target &&& EECNT_FUTURE_TARGET = 0 → c.target < 2 ^ 16) →
    (c'.target &&& EECNT_FUTURE_TARGET = 0 → c'.target < 2 ^ 16)

theorem Tested.trans {c' c'' : Counter} (first : Tested c c') (second : Tested c' c'') : Tested c c'' :=
  ⟨second.start.trans first.start, second.rate.trans first.rate, second.source.trans first.source,
    second.counting.trans first.counting, fun target => second.target (first.target target)⟩

theorem Tested.sane {c' : Counter} (tested : Tested c c') (sane : Sane cycle c) : Sane cycle c' :=
  sane.congr tested.start tested.rate tested.source tested.counting (tested.target sane.target)

theorem cpuTestTarget_tested (c : Counter) : Tested c c.cpuTestTarget := by
  unfold Counter.cpuTestTarget
  dsimp only
  split
  · exact ⟨rfl, rfl, rfl, rfl, id⟩
  · split <;> split
    · exact ⟨rfl, rfl, rfl, rfl, id⟩
    · exact ⟨rfl, rfl, rfl, rfl, fun _ none => absurd none (future_target _)⟩
    · exact ⟨rfl, rfl, rfl, rfl, id⟩
    · exact ⟨rfl, rfl, rfl, rfl, fun _ none => absurd none (future_target _)⟩

theorem cpuTestOverflow_tested (c : Counter) : Tested c c.cpuTestOverflow := by
  unfold Counter.cpuTestOverflow
  dsimp only
  split
  · exact ⟨rfl, rfl, rfl, rfl, id⟩
  · split
    · exact ⟨rfl, rfl, rfl, rfl, fun _ _ => low_target _⟩
    · exact ⟨rfl, rfl, rfl, rfl, fun _ _ => low_target _⟩

end Pcsx2.Counters
