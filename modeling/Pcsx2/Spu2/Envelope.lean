import Mathlib.Algebra.Order.Ring.Int
import Mathlib.Tactic.Linarith
import Pcsx2.Foundation.Run

/-!
# Envelopes and volume slides

Both count up to 0x8000 at a rate, and then change their value by a level. The counter of an envelope always moves,
so that each phase but sustain comes to its end. That of a slide may stand still.
-/

namespace Pcsx2.Spu2
open Foundation

def clamp (low high value : Int) : Int := max low (min value high)

/-! ## Envelopes -/

structure V_ADSR where
  reg32 : UInt32
  Counter : Nat
  Value : Int
  Phase : Nat

structure CachedADSR where
  Decr : Bool
  Exp : Bool
  Shift : Nat
  Step : Int
  Target : Int

def ADSR_MAX_VOL : Int := 0x7fff

def PHASE_STOPPED : Nat := 0
def PHASE_ATTACK : Nat := 1
def PHASE_DECAY : Nat := 2
def PHASE_SUSTAIN : Nat := 3
def PHASE_RELEASE : Nat := 4

def regField (reg32 : UInt32) (low bits : Nat) : Nat := reg32.toNat / 2 ^ low % 2 ^ bits

/-- The entries of `CachedPhases` by their phase. -/
def UpdateCache (reg32 : UInt32) : Nat → CachedADSR
  | 1 => ⟨false, reg32.toNat.testBit 15, regField reg32 10 5, 7 - regField reg32 8 2, ADSR_MAX_VOL⟩
  | 2 => ⟨true, true, regField reg32 4 4, -8, (regField reg32 0 4 + 1) * 2 ^ 11⟩
  | 3 =>
    let step : Int := 7 - regField reg32 22 2
    ⟨reg32.toNat.testBit 30, reg32.toNat.testBit 31, regField reg32 24 5,
      if reg32.toNat.testBit 30 then -step - 1 else step, 0⟩
  | 4 => ⟨true, reg32.toNat.testBit 21, regField reg32 16 5, -8, 0⟩
  | _ => ⟨false, false, 0, 0, 0⟩

namespace CachedADSR

def counter_inc (p : CachedADSR) (Value : Int) : Nat :=
  let counter_inc := 0x8000 / 2 ^ (p.Shift - 11)
  max 1 (if p.Exp ∧ ¬p.Decr ∧ 0x6000 < Value then counter_inc / 4 else counter_inc)

def level_inc (p : CachedADSR) (Value : Int) : Int :=
  let level_inc := p.Step * 2 ^ (11 - p.Shift)
  if p.Exp ∧ p.Decr then (level_inc * Value / 2 ^ 15).bmod (2 ^ 16) else level_inc

def Reached (p : CachedADSR) (Value : Int) : Prop := if p.Decr then Value ≤ p.Target else p.Target ≤ Value

instance (p : CachedADSR) (Value : Int) : Decidable (p.Reached Value) :=
  inferInstanceAs (Decidable (if p.Decr = true then Value ≤ p.Target else p.Target ≤ Value))

end CachedADSR

namespace V_ADSR

def count (a : V_ADSR) (p : CachedADSR) : V_ADSR :=
  let Counter := a.Counter + p.counter_inc a.Value
  if 0x8000 ≤ Counter then { a with Counter := 0, Value := clamp 0 0x7fff (a.Value + p.level_inc a.Value) }
  else { a with Counter }

def Calculate (a : V_ADSR) : Bool × V_ADSR :=
  let p := UpdateCache a.reg32 a.Phase
  let a := a.count p
  if a.Phase = PHASE_SUSTAIN then (a.Value != 0, a)
  else
    let a := if p.Reached a.Value then { a with Phase := a.Phase + 1 } else a
    (decide (a.Phase ≤ PHASE_RELEASE), a)

def Attack (a : V_ADSR) : V_ADSR := { a with Phase := PHASE_ATTACK, Counter := 0, Value := 0 }

def Release (a : V_ADSR) : V_ADSR :=
  if a.Phase = PHASE_STOPPED then a else { a with Phase := PHASE_RELEASE, Counter := 0 }

/-- `V_Voice::Stop`. -/
def Stop (a : V_ADSR) : V_ADSR := { a with Value := 0, Phase := PHASE_STOPPED }

def CalculateADSR (a : V_ADSR) : V_ADSR :=
  if a.Phase = PHASE_STOPPED then { a with Value := 0 }
  else if a.Calculate.1 then a.Calculate.2
  else a.Calculate.2.Stop

end V_ADSR

/-! ## Slides -/

structure V_VolumeSlide where
  Reg_VOL : UInt16
  Counter : Nat
  Value : Int

namespace V_VolumeSlide

def Step (s : V_VolumeSlide) : Nat := s.Reg_VOL.toNat % 4
def Shift (s : V_VolumeSlide) : Nat := s.Reg_VOL.toNat / 4 % 32
def Phase (s : V_VolumeSlide) : Bool := s.Reg_VOL.toNat.testBit 12
def Decr (s : V_VolumeSlide) : Bool := s.Reg_VOL.toNat.testBit 13
def Exp (s : V_VolumeSlide) : Bool := s.Reg_VOL.toNat.testBit 14
def Enable (s : V_VolumeSlide) : Bool := s.Reg_VOL.toNat.testBit 15

def RegSet (s : V_VolumeSlide) (src : UInt16) : V_VolumeSlide :=
  let s := { s with Reg_VOL := src }
  if s.Enable then s else { s with Value := ((src.toNat * 2 : Nat) : Int).bmod (2 ^ 16) }

def counter_inc (s : V_VolumeSlide) : Nat :=
  let counter_inc := 0x8000 / 2 ^ (s.Shift - 11)
  let counter_inc := if s.Exp ∧ ¬s.Decr ∧ 0x6000 < s.Value then counter_inc / 4 else counter_inc
  if s.Step ≠ 3 ∧ s.Shift ≠ 0x1f then max 1 counter_inc else counter_inc

def level_inc (s : V_VolumeSlide) : Int :=
  let step_size : Int := if s.Decr then -(7 - s.Step) - 1 else 7 - s.Step
  let level_inc := step_size * 2 ^ (11 - s.Shift)
  if s.Exp ∧ s.Decr then (level_inc * s.Value / 2 ^ 15).bmod (2 ^ 16)
  else if s.Phase then -level_inc else level_inc

def Update (s : V_VolumeSlide) : V_VolumeSlide :=
  if s.Enable then
    let Counter := s.Counter + s.counter_inc
    if 0x8000 ≤ Counter then
      if s.Decr then
        let low : Int := if s.Phase then -0x8000 else 0
        let high : Int := if s.Phase then 0 else 0x7fff
        let low := if s.Exp then 0 else low
        let high := if s.Exp then 0x7fff else high
        { s with Counter := 0, Value := clamp low high (s.Value + s.level_inc) }
      else
        { s with Counter := 0, Value := clamp (-0x8000) 0x7fff (s.Value + s.level_inc) }
    else
      { s with Counter }
  else
    s

end V_VolumeSlide

/-! ## Rates and levels -/

theorem two_pow_bounds (n : Nat) : (1 : Int) ≤ 2 ^ (11 - n) ∧ (2 : Int) ^ (11 - n) ≤ 2048 :=
  ⟨one_le_pow₀ (by decide), by simpa using pow_le_pow_right₀ (by decide : (1 : Int) ≤ 2) (Nat.sub_le 11 n)⟩

theorem proportion_falls {level Value : Int} (fast : -16384 ≤ level) (falls : level < 0) (positive : 0 < Value)
    (inside : Value ≤ 0x8000) : (level * Value / 2 ^ 15).bmod (2 ^ 16) < 0 := by
  have below : level * Value ≤ -1 := by nlinarith
  have above : -16384 * 0x8000 ≤ level * Value := by nlinarith
  rw [Int.bmod_eq_of_le (by omega) (by omega)]
  omega

theorem proportion_rises {level Value : Int} (fast : -16384 ≤ level) (falls : level < 0) (negative : Value ≤ 0)
    (inside : -0x8000 ≤ Value) : Value + (level * Value / 2 ^ 15).bmod (2 ^ 16) ≤ 0 := by
  have above : 0 ≤ level * Value := by nlinarith
  have half : level * Value ≤ -16384 * Value := by nlinarith
  rw [Int.bmod_eq_of_le (by omega) (by omega)]
  omega

/-! ## What a tick does -/

variable {a b : V_ADSR} {p : CachedADSR} {reg32 : UInt32}

structure V_ADSR.Inv (reg32 : UInt32) (a : V_ADSR) : Prop where
  reg32 : a.reg32 = reg32
  low : 0 ≤ a.Value
  high : a.Value ≤ 0x7fff
  Counter : a.Counter < 0x8000
  Phase : a.Phase ≤ PHASE_RELEASE

theorem counter_inc_pos (p : CachedADSR) (Value : Int) : 0 < p.counter_inc Value := Nat.lt_of_lt_of_le Nat.one_pos (Nat.le_max_left _ _)

theorem count_cases (a : V_ADSR) (p : CachedADSR) :
    (∃ Counter, a.Counter < Counter ∧ Counter < 0x8000 ∧ a.count p = { a with Counter }) ∨
      a.count p = { a with Counter := 0, Value := clamp 0 0x7fff (a.Value + p.level_inc a.Value) } := by
  have moves := counter_inc_pos p a.Value
  simp only [V_ADSR.count]
  split_ifs with turns
  · exact .inr rfl
  · exact .inl ⟨_, by omega, Nat.not_le.1 turns, rfl⟩

@[simp] theorem count_Phase : (a.count p).Phase = a.Phase := by
  rcases count_cases a p with ⟨Counter, -, -, counted⟩ | counted <;> rw [counted]

theorem V_ADSR.Inv.count (inv : a.Inv reg32) (p : CachedADSR) : (a.count p).Inv reg32 := by
  obtain ⟨same, low, high, -, Phase⟩ := inv
  rcases count_cases a p with ⟨Counter, -, below, counted⟩ | counted <;> rw [counted]
  · exact ⟨same, low, high, below, Phase⟩
  · exact ⟨same, by simp [clamp], by simp [clamp], by simp, Phase⟩

def V_ADSR.above (a : V_ADSR) : Nat := (0x7fff - a.Value).toNat * 0x8000 + (0x8000 - a.Counter)

def V_ADSR.below (a : V_ADSR) : Nat := a.Value.toNat * 0x8000 + (0x8000 - a.Counter)

theorem count_rises (inv : a.Inv reg32) (rises : 0 < p.level_inc a.Value) :
    a.Value ≤ (a.count p).Value ∧ ((a.count p).Value < 0x7fff → (a.count p).above < a.above) := by
  obtain ⟨-, low, high, Counter, -⟩ := inv
  rcases count_cases a p with ⟨Counter', later, below, counted⟩ | counted <;> rw [counted]
  · refine ⟨Int.le_refl _, fun _ => ?_⟩
    simp only [V_ADSR.above]
    omega
  · simp only [V_ADSR.above, clamp]
    omega

theorem count_falls (inv : a.Inv reg32) (falls : 0 < a.Value → p.level_inc a.Value < 0) (rests : a.Value = 0 → p.level_inc a.Value ≤ 0) :
    (a.count p).Value ≤ a.Value ∧ (0 < (a.count p).Value → (a.count p).below < a.below) := by
  obtain ⟨-, low, high, Counter, -⟩ := inv
  rcases count_cases a p with ⟨Counter', later, below, counted⟩ | counted <;> rw [counted]
  · refine ⟨Int.le_refl _, fun _ => ?_⟩
    simp only [V_ADSR.below]
    omega
  · simp only [V_ADSR.below, clamp]
    omega

theorem attack_level (reg32 : UInt32) (Value : Int) : 0 < (UpdateCache reg32 1).level_inc Value := by
  obtain ⟨slow, -⟩ := two_pow_bounds (regField reg32 10 5)
  have step : regField reg32 8 2 < 4 := Nat.mod_lt _ (by decide)
  simp only [CachedADSR.level_inc, UpdateCache, Bool.false_eq_true, and_false, if_false]
  nlinarith

theorem falling_level (Decr : p.Decr) (Step : p.Step = -8) {Value : Int} (low : 0 ≤ Value) (high : Value ≤ 0x7fff) :
    (0 < Value → p.level_inc Value < 0) ∧ (Value = 0 → p.level_inc Value ≤ 0) := by
  obtain ⟨slow, fast⟩ := two_pow_bounds p.Shift
  unfold CachedADSR.level_inc
  rw [Step]
  by_cases Exp : p.Exp
  · rw [if_pos ⟨Exp, Decr⟩]
    refine ⟨fun positive => proportion_falls (by omega) (by omega) positive (by omega), ?_⟩
    rintro rfl
    simp
  · rw [if_neg fun both => Exp both.1]
    omega

theorem tick_stopped (Phase : a.Phase = PHASE_STOPPED) : a.CalculateADSR = { a with Value := 0 } := if_pos Phase

theorem tick_sustain (Phase : a.Phase = PHASE_SUSTAIN) :
    a.CalculateADSR = a.count (UpdateCache a.reg32 3) ∨ a.CalculateADSR = (a.count (UpdateCache a.reg32 3)).Stop := by
  have calculated : a.Calculate = ((a.count (UpdateCache a.reg32 3)).Value != 0, a.count (UpdateCache a.reg32 3)) := by
    rw [V_ADSR.Calculate, Phase]
    exact if_pos (count_Phase.trans Phase)
  have plays : ¬a.Phase = PHASE_STOPPED := by rw [Phase]; decide
  rw [V_ADSR.CalculateADSR, if_neg plays, calculated]
  by_cases silent : (a.count (UpdateCache a.reg32 3)).Value = 0 <;> simp [silent]

theorem tick_moves (plays : a.Phase ≠ PHASE_STOPPED) (moves : a.Phase ≠ PHASE_SUSTAIN) (inside : a.Phase ≤ PHASE_RELEASE) :
    a.CalculateADSR = a.count (UpdateCache a.reg32 a.Phase) ∧ ¬(UpdateCache a.reg32 a.Phase).Reached a.CalculateADSR.Value ∨
      a.Phase < PHASE_RELEASE ∧ a.CalculateADSR = { a.count (UpdateCache a.reg32 a.Phase) with Phase := a.Phase + 1 } ∨
      a.Phase = PHASE_RELEASE ∧ a.CalculateADSR = (a.count (UpdateCache a.reg32 a.Phase)).Stop := by
  have Phase : (a.count (UpdateCache a.reg32 a.Phase)).Phase = a.Phase := count_Phase
  rw [V_ADSR.CalculateADSR, if_neg plays, V_ADSR.Calculate]
  generalize a.count (UpdateCache a.reg32 a.Phase) = counted at Phase ⊢
  rw [← Phase] at moves inside ⊢
  simp only [if_neg moves]
  by_cases reached : (UpdateCache a.reg32 counted.Phase).Reached counted.Value
  · rcases Nat.lt_or_eq_of_le inside with before | last
    · have goes : counted.Phase + 1 ≤ PHASE_RELEASE := before
      simp [reached, goes, before]
    · have ends : ¬counted.Phase + 1 ≤ PHASE_RELEASE := by omega
      refine .inr (.inr ⟨last, ?_⟩)
      simp [reached, ends, V_ADSR.Stop]
  · simp [reached, inside]

/-! ## The envelope of a note -/

/-- A tick, or the key's release. -/
def EnvelopeStep (a b : V_ADSR) : Prop := b = a.CalculateADSR ∨ b = a.Release

def phaseOrder : List (Nat × Nat) :=
  [(PHASE_ATTACK, PHASE_DECAY), (PHASE_DECAY, PHASE_SUSTAIN), (PHASE_SUSTAIN, PHASE_STOPPED), (PHASE_RELEASE, PHASE_STOPPED)]

def Follows (before after : Nat) : Prop := after = before ∨ (before, after) ∈ phaseOrder

structure EnvelopeLaw (a : V_ADSR) : Prop where
  low : 0 ≤ a.Value
  high : a.Value ≤ 0x7fff
  rises : a.Phase = PHASE_ATTACK → a.Value ≤ a.CalculateADSR.Value
  falls : a.Phase = PHASE_DECAY ∨ a.Phase = PHASE_RELEASE → a.CalculateADSR.Value ≤ a.Value
  order : Follows a.Phase a.CalculateADSR.Phase
  ends : a.Phase = PHASE_ATTACK ∨ a.Phase = PHASE_DECAY ∨ a.Phase = PHASE_RELEASE →
    ∃ n, (V_ADSR.CalculateADSR^[n] a).Phase ≠ a.Phase

theorem V_ADSR.Inv.tick (inv : a.Inv reg32) : a.CalculateADSR.Inv reg32 := by
  have counted := inv.count (UpdateCache a.reg32 a.Phase)
  by_cases stopped : a.Phase = PHASE_STOPPED
  · rw [tick_stopped stopped]
    exact { inv with low := Int.le_refl 0, high := (by decide : (0 : Int) ≤ 0x7fff) }
  by_cases sustains : a.Phase = PHASE_SUSTAIN
  · have counted' := inv.count (UpdateCache a.reg32 3)
    rcases tick_sustain sustains with goes | stops
    · rwa [goes]
    · rw [stops]
      exact { counted' with low := Int.le_refl 0, high := (by decide : (0 : Int) ≤ 0x7fff), Phase := Nat.zero_le _ }
  rcases tick_moves stopped sustains inv.Phase with ⟨goes, -⟩ | ⟨before, next⟩ | ⟨-, stops⟩
  · rwa [goes]
  · rw [next]
    exact { counted with Phase := before }
  · rw [stops]
    exact { counted with low := Int.le_refl 0, high := (by decide : (0 : Int) ≤ 0x7fff), Phase := Nat.zero_le _ }

theorem V_ADSR.Inv.release (inv : a.Inv reg32) : a.Release.Inv reg32 := by
  unfold V_ADSR.Release
  split_ifs
  · exact inv
  · exact { inv with Counter := (by decide : 0 < 0x8000), Phase := Nat.le_refl _ }

theorem tick_order (inv : a.Inv reg32) : Follows a.Phase a.CalculateADSR.Phase := by
  by_cases stopped : a.Phase = PHASE_STOPPED
  · rw [tick_stopped stopped]
    exact .inl rfl
  by_cases sustains : a.Phase = PHASE_SUSTAIN
  · rcases tick_sustain sustains with goes | stops
    · rw [goes, count_Phase]
      exact .inl rfl
    · rw [stops, sustains]
      exact .inr (by decide : (PHASE_SUSTAIN, PHASE_STOPPED) ∈ phaseOrder)
  rcases tick_moves stopped sustains inv.Phase with ⟨goes, -⟩ | ⟨before, next⟩ | ⟨last, stops⟩
  · rw [goes, count_Phase]
    exact .inl rfl
  · rw [next]
    simp only [PHASE_STOPPED, PHASE_SUSTAIN, PHASE_RELEASE] at stopped sustains before
    rcases (by omega : a.Phase = 1 ∨ a.Phase = 2) with one | two
    · rw [one]
      exact .inr (by decide : (PHASE_ATTACK, PHASE_DECAY) ∈ phaseOrder)
    · rw [two]
      exact .inr (by decide : (PHASE_DECAY, PHASE_SUSTAIN) ∈ phaseOrder)
  · rw [stops, last]
    exact .inr (by decide : (PHASE_RELEASE, PHASE_STOPPED) ∈ phaseOrder)

theorem tick_rises (inv : a.Inv reg32) (attack : a.Phase = PHASE_ATTACK) :
    a.Value ≤ a.CalculateADSR.Value ∧
      (a.CalculateADSR.Phase = PHASE_ATTACK → a.CalculateADSR.above < a.above) := by
  obtain ⟨rises, counts⟩ := count_rises inv (attack_level a.reg32 a.Value)
  rcases tick_moves (by rw [attack]; decide) (by rw [attack]; decide) inv.Phase with ⟨goes, more⟩ | ⟨-, next⟩ | ⟨last, -⟩
  · rw [attack] at goes more
    rw [goes] at more ⊢
    exact ⟨rises, fun _ => counts (Int.not_le.1 more)⟩
  · rw [attack] at next
    rw [next]
    exact ⟨rises, fun same => absurd same (Nat.succ_ne_self _)⟩
  · rw [attack] at last
    exact absurd last (by decide)

theorem tick_falls (inv : a.Inv reg32) (phase : a.Phase = PHASE_DECAY ∨ a.Phase = PHASE_RELEASE) :
    a.CalculateADSR.Value ≤ a.Value ∧ (a.CalculateADSR.Phase = a.Phase → a.CalculateADSR.below < a.below) := by
  obtain ⟨Decr, Step, Target⟩ : (UpdateCache a.reg32 a.Phase).Decr = true ∧ (UpdateCache a.reg32 a.Phase).Step = -8 ∧
      0 ≤ (UpdateCache a.reg32 a.Phase).Target := by
    rcases phase with decay | release
    · rw [decay]
      exact ⟨rfl, rfl, by simp only [UpdateCache, PHASE_DECAY]; omega⟩
    · rw [release]
      exact ⟨rfl, rfl, Int.le_refl 0⟩
  obtain ⟨strict, rests⟩ := falling_level Decr Step inv.low inv.high
  obtain ⟨falls, counts⟩ := count_falls inv strict rests
  have plays : a.Phase ≠ PHASE_STOPPED := by rcases phase with h | h <;> rw [h] <;> decide
  have moves : a.Phase ≠ PHASE_SUSTAIN := by rcases phase with h | h <;> rw [h] <;> decide
  rcases tick_moves plays moves inv.Phase with ⟨goes, more⟩ | ⟨-, next⟩ | ⟨last, stops⟩
  · rw [CachedADSR.Reached, if_pos Decr, goes, Int.not_le] at more
    rw [goes]
    exact ⟨falls, fun _ => counts (Int.lt_of_le_of_lt Target more)⟩
  · rw [next]
    exact ⟨falls, fun same => absurd same (Nat.succ_ne_self _)⟩
  · rw [stops]
    exact ⟨inv.low, fun same => absurd (same.trans last) (by decide : PHASE_STOPPED ≠ PHASE_RELEASE)⟩

theorem V_ADSR.Inv.law (inv : a.Inv reg32) : EnvelopeLaw a where
  low := inv.low
  high := inv.high
  rises attack := (tick_rises inv attack).1
  falls phase := (tick_falls inv phase).1
  order := tick_order inv
  ends phase := by
    rcases phase with attack | falls
    · rw [attack]
      refine exists_iterate_not (P := fun s => s.Phase = PHASE_ATTACK) V_ADSR.above (fun _ => V_ADSR.Inv.tick) ?_ inv
      intro s inv' before after
      exact (tick_rises inv' before).2 after
    · refine exists_iterate_not (P := fun s => s.Phase = a.Phase) V_ADSR.below (fun _ => V_ADSR.Inv.tick) ?_ inv
      intro s inv' before after
      exact (tick_falls inv' (before ▸ falls)).2 (after.trans before.symm)

theorem attack_law (start a : V_ADSR) (run : Run EnvelopeStep start.Attack a) : EnvelopeLaw a := by
  have initial : start.Attack.Inv start.reg32 := ⟨rfl, Int.le_refl 0, by simp [V_ADSR.Attack], by simp [V_ADSR.Attack],
    (by decide : PHASE_ATTACK ≤ PHASE_RELEASE)⟩
  refine (run.invariant initial ?_).law
  rintro before after inv (rfl | rfl)
  · exact inv.tick
  · exact inv.release

/-! ## The slide of a volume -/

namespace V_VolumeSlide

variable {s t : V_VolumeSlide}

/-- A register write, or a tick. -/
def Changes (s t : V_VolumeSlide) : Prop := (∃ src, t = s.RegSet src) ∨ t = s.Update

def reset : V_VolumeSlide := ⟨0, 0, 0⟩

def limit (s : V_VolumeSlide) : Int := if s.Decr then 0 else if s.Phase then -0x8000 else 0x7fff

def Counts (s : V_VolumeSlide) : Prop := s.Counter + s.counter_inc ≠ s.Counter

def Slides (s : V_VolumeSlide) : Prop := (∀ n, (Update^[n] s).Counts) ∧ ∃ n, (Update^[n] s).Value = s.limit

/-- A rate that is not shifted away. Where the value grows exponentially, it gets slower above 0x6000. -/
def Moves (s : V_VolumeSlide) : Prop :=
  s.Step ≠ 3 ∧ s.Shift ≠ 0x1f ∨
    s.Step = 3 ∧ (s.Shift ≤ 24 ∨ s.Shift ≤ 26 ∧ (¬s.Exp ∨ s.Decr ∨ s.Phase ∧ s.Value ≤ 0x6000))

structure Inv (s : V_VolumeSlide) : Prop where
  low : -0x8000 ≤ s.Value
  high : s.Value ≤ 0x7fff
  Counter : s.Counter < 0x8000

theorem rate_pos : ∀ shift < 32, (0x8000 / 2 ^ (shift - 11) ≠ 0 ↔ shift ≤ 26) ∧ (0x8000 / 2 ^ (shift - 11) / 4 ≠ 0 ↔ shift ≤ 24) := by
  decide

theorem counts_iff : s.Counts ↔ s.Step ≠ 3 ∧ s.Shift ≠ 0x1f ∨
    (if s.Exp ∧ ¬s.Decr ∧ 0x6000 < s.Value then s.Shift ≤ 24 else s.Shift ≤ 26) := by
  obtain ⟨fast, slow⟩ := rate_pos s.Shift (Nat.mod_lt _ (by decide))
  have counts : s.Counts ↔ s.counter_inc ≠ 0 := by
    unfold Counts
    omega
  rw [counts, ← fast, ← slow]
  simp only [counter_inc]
  by_cases some_rate : s.Step ≠ 3 ∧ s.Shift ≠ 0x1f
  · rw [if_pos some_rate]
    exact ⟨fun _ => .inl some_rate, fun _ => by omega⟩
  · rw [if_neg some_rate]
    split_ifs <;> simp [some_rate]

theorem update_cases (Enable : s.Enable) :
    (s.Counter + s.counter_inc < 0x8000 ∧ s.Update = { s with Counter := s.Counter + s.counter_inc }) ∨
      ∃ low high, s.Update = { s with Counter := 0, Value := clamp low high (s.Value + s.level_inc) } ∧
        low = (if s.Decr ∧ (s.Exp ∨ ¬s.Phase) then 0 else -0x8000) ∧
        high = (if s.Decr ∧ ¬s.Exp ∧ s.Phase then 0 else 0x7fff) := by
  simp only [Update, if_pos Enable]
  by_cases turns : 0x8000 ≤ s.Counter + s.counter_inc
  · refine .inr ?_
    rw [if_pos turns]
    cases s.Decr <;> cases s.Exp <;> cases s.Phase <;> exact ⟨_, _, rfl, rfl, rfl⟩
  · rw [if_neg turns]
    exact .inl ⟨Nat.not_le.1 turns, rfl⟩

theorem level_grows (Decr : s.Decr = false) : if s.Phase then s.level_inc < 0 else 0 < s.level_inc := by
  obtain ⟨slow, -⟩ := two_pow_bounds s.Shift
  have step : s.Step < 4 := Nat.mod_lt _ (by decide)
  have level : 0 < (7 - (s.Step : Int)) * 2 ^ (11 - s.Shift) := by nlinarith
  unfold level_inc
  cases s.Phase <;> simpa [Decr] using level

theorem level_shrinks (Decr : s.Decr = true) :
    ∃ level : Int, -16384 ≤ level ∧ level < 0 ∧
      s.level_inc = if s.Exp then (level * s.Value / 2 ^ 15).bmod (2 ^ 16) else if s.Phase then -level else level := by
  obtain ⟨slow, fast⟩ := two_pow_bounds s.Shift
  have step : s.Step < 4 := Nat.mod_lt _ (by decide)
  refine ⟨(-(7 - (s.Step : Int)) - 1) * 2 ^ (11 - s.Shift), by nlinarith, by nlinarith, ?_⟩
  unfold level_inc
  cases s.Exp <;> simp [Decr]

def remaining (goal : Int) (s : V_VolumeSlide) : Nat := (s.Value - goal).natAbs * 0x8000 + (0x8000 - s.Counter)

theorem update_nearer (inv : s.Inv) (Enable : s.Enable) :
    s.Update.Inv ∧ (s.Counts → s.Value ≠ s.limit → remaining s.limit s.Update < remaining s.limit s) := by
  unfold remaining
  obtain ⟨low, high, Counter⟩ := inv
  rcases update_cases Enable with ⟨below, updated⟩ | ⟨least, most, updated, least_eq, most_eq⟩ <;> rw [updated]
  · refine ⟨⟨low, high, below⟩, fun counts _ => ?_⟩
    unfold Counts at counts
    simp only
    omega
  · have inside : -0x8000 ≤ least ∧ least ≤ 0 ∧ 0 ≤ most ∧ most ≤ 0x7fff := by
      rw [least_eq, most_eq]
      split_ifs <;> decide
    refine ⟨⟨?_, ?_, by simp⟩, fun _ away => ?_⟩
    · simp only [clamp]
      omega
    · simp only [clamp]
      omega
    · suffices nearer : (clamp least most (s.Value + s.level_inc) - s.limit).natAbs < (s.Value - s.limit).natAbs by
        simp only
        omega
      unfold limit at away ⊢
      cases Decr : s.Decr with
      | false =>
          have grows := level_grows Decr
          rw [Decr] at least_eq most_eq away
          cases Phase : s.Phase <;> simp [Phase] at grows away least_eq most_eq <;> simp [clamp, least_eq, most_eq] <;> omega
      | true =>
          obtain ⟨level, fast, falls, level_eq⟩ := level_shrinks Decr
          rw [Decr] at least_eq most_eq away
          cases Exp : s.Exp with
          | true =>
              simp only [Exp, if_true] at level_eq
              simp [Exp] at least_eq most_eq away
              rcases Int.lt_or_le 0 s.Value with positive | negative
              · have lower := proportion_falls fast falls positive (by omega)
                rw [← level_eq] at lower
                simp [clamp, least_eq, most_eq]
                omega
              · have upper := proportion_rises fast falls negative low
                rw [← level_eq] at upper
                simp [clamp, least_eq, most_eq]
                omega
          | false =>
              simp [Exp] at level_eq
              cases Phase : s.Phase <;> simp [Phase, Exp] at level_eq least_eq most_eq away <;> simp [clamp, least_eq, most_eq, level_eq] <;> omega

theorem update_reg (s : V_VolumeSlide) : s.Update.Reg_VOL = s.Reg_VOL := by
  cases Enable : s.Enable with
  | false => simp [Update, Enable]
  | true => rcases update_cases Enable with ⟨-, updated⟩ | ⟨_, _, updated, -⟩ <;> rw [updated]

theorem iterate_reg (s : V_VolumeSlide) (n : Nat) : (Update^[n] s).Reg_VOL = s.Reg_VOL := by
  induction n generalizing s with
  | zero => rfl
  | succ n ih => rw [Function.iterate_succ_apply, ih, update_reg]

theorem limit_congr (same : t.Reg_VOL = s.Reg_VOL) : t.limit = s.limit := by
  unfold limit Decr Phase
  rw [same]

theorem counts_of_moves (moves : s.Moves) : s.Counts := by
  rw [counts_iff]
  rcases moves with some_rate | ⟨-, fast | ⟨slow, linear⟩⟩
  · exact .inl some_rate
  · right
    split_ifs
    · exact fast
    · omega
  · right
    rw [if_neg ?_]
    · exact slow
    · rintro ⟨Exp, Decr, high⟩
      rcases linear with linear | shrinks | ⟨-, below⟩
      · exact linear Exp
      · exact Decr shrinks
      · omega

theorem update_moves (inv : s.Inv) (Enable : s.Enable) (moves : s.Moves) : s.Update.Moves := by
  have same := update_reg s
  have Step_eq : s.Update.Step = s.Step := by simp only [Step, same]
  have Shift_eq : s.Update.Shift = s.Shift := by simp only [Shift, same]
  have Exp_eq : s.Update.Exp = s.Exp := by simp only [Exp, same]
  have Decr_eq : s.Update.Decr = s.Decr := by simp only [Decr, same]
  have Phase_eq : s.Update.Phase = s.Phase := by simp only [Phase, same]
  unfold Moves at moves ⊢
  rw [Step_eq, Shift_eq, Exp_eq, Decr_eq, Phase_eq]
  refine moves.imp_right (And.imp_right (Or.imp_right (And.imp_right ?_)))
  rintro (linear | shrinks | ⟨negative, below⟩)
  · exact .inl linear
  · exact .inr (.inl shrinks)
  · cases Decr : s.Decr with
    | true => exact .inr (.inl rfl)
    | false =>
        have grows := level_grows Decr
        rw [if_pos negative] at grows
        refine .inr (.inr ⟨negative, ?_⟩)
        have low := inv.low
        rcases update_cases Enable with ⟨-, updated⟩ | ⟨least, most, updated, least_eq, -⟩ <;> rw [updated]
        · exact below
        · have least_le : least ≤ 0 := by
            rw [least_eq]
            split_ifs <;> decide
          simp only [clamp]
          omega

theorem slides_of_moves (inv : s.Inv) (Enable : s.Enable) (moves : s.Moves) : s.Slides := by
  have keeps (t : V_VolumeSlide) (now : t.Inv ∧ t.Reg_VOL = s.Reg_VOL ∧ t.Moves) :
      t.Update.Inv ∧ t.Update.Reg_VOL = s.Reg_VOL ∧ t.Update.Moves := by
    obtain ⟨inv', same, moves'⟩ := now
    have enabled : t.Enable := by
      unfold V_VolumeSlide.Enable at Enable ⊢
      rwa [same]
    exact ⟨(update_nearer inv' enabled).1, (update_reg t).trans same, update_moves inv' enabled moves'⟩
  constructor
  · intro n
    have after : (Update^[n] s).Inv ∧ (Update^[n] s).Reg_VOL = s.Reg_VOL ∧ (Update^[n] s).Moves := by
      induction n with
      | zero => exact ⟨inv, rfl, moves⟩
      | succ n ih =>
          rw [Function.iterate_succ_apply']
          exact keeps _ ih
    exact counts_of_moves after.2.2
  · have falls (t : V_VolumeSlide) (now : t.Inv ∧ t.Reg_VOL = s.Reg_VOL ∧ t.Moves) (away : t.Value ≠ s.limit) :
        remaining s.limit t.Update < remaining s.limit t := by
      obtain ⟨inv', same, moves'⟩ := now
      have enabled : t.Enable := by
        unfold V_VolumeSlide.Enable at Enable ⊢
        rwa [same]
      rw [← limit_congr same] at away ⊢
      exact (update_nearer inv' enabled).2 (counts_of_moves moves') away
    obtain ⟨n, ends⟩ := exists_iterate_not (P := fun t => t.Value ≠ s.limit) (remaining s.limit) keeps
      (fun t now away _ => falls t now away) ⟨inv, rfl, moves⟩
    exact ⟨n, Decidable.not_not.1 ends⟩

theorem moves_of_slides (slides : s.Slides) : s.Moves := by
  obtain ⟨counts, n, arrives⟩ := slides
  have counts_now : s.Counts := counts 0
  have first := counts_iff.1 counts_now
  by_cases some_rate : s.Step ≠ 3 ∧ s.Shift ≠ 0x1f
  · exact .inl some_rate
  have slow := first.resolve_left some_rate
  have medium : s.Shift ≤ 26 := by
    split_ifs at slow <;> omega
  have Step_eq : s.Step = 3 := by omega
  refine .inr ⟨Step_eq, ?_⟩
  by_cases fast : s.Shift ≤ 24
  · exact .inl fast
  refine .inr ⟨medium, ?_⟩
  by_contra stuck
  obtain ⟨Exp_eq, Decr_eq, towards⟩ := by simpa only [not_or, not_not] using stuck
  have below : s.Value ≤ 0x6000 := by
    by_contra high
    exact fast (by rwa [if_pos ⟨Exp_eq, Decr_eq, Int.not_le.1 high⟩] at slow)
  have Phase_eq : ¬s.Phase := fun negative => towards ⟨negative, below⟩
  -- At its top the value is above 0x6000, and the rate there is nothing.
  have same := iterate_reg s n
  have last := counts_iff.1 (counts n)
  have top : (Update^[n] s).Value = 0x7fff := by rw [arrives, limit, if_neg Decr_eq, if_neg Phase_eq]
  have fields : (Update^[n] s).Step = 3 ∧ (Update^[n] s).Shift = s.Shift ∧ (Update^[n] s).Exp = s.Exp ∧ (Update^[n] s).Decr = s.Decr := by
    unfold Step Shift Exp Decr at *
    rw [same]
    exact ⟨Step_eq, rfl, rfl, rfl⟩
  rw [fields.1, fields.2.1, fields.2.2.1, fields.2.2.2, top, if_pos ⟨Exp_eq, Decr_eq, by decide⟩] at last
  exact last.elim (fun other => other.1 rfl) fast

theorem Inv.changes (inv : s.Inv) (changed : Changes s t) : t.Inv := by
  rcases changed with ⟨src, rfl⟩ | rfl
  · have sign := Int.bmod_lt (x := ((src.toNat * 2 : Nat) : Int)) (by decide : 0 < 2 ^ 16)
    have sign' := Int.le_bmod (x := ((src.toNat * 2 : Nat) : Int)) (by decide : 0 < 2 ^ 16)
    simp only [RegSet]
    split_ifs
    · exact ⟨inv.low, inv.high, inv.Counter⟩
    · exact ⟨by simp only; omega, by simp only; omega, inv.Counter⟩
  · cases Enable : s.Enable with
    | false => simpa [Update, Enable] using inv
    | true => exact (update_nearer inv Enable).1

end V_VolumeSlide

/-- Envelopes always end their phases. The slides that were ever set up come to their limit if and only if their rate is not shifted away. -/
theorem slides_iff (start : V_ADSR) (s : V_VolumeSlide) (reached : Run V_VolumeSlide.Changes V_VolumeSlide.reset s)
    (Enable : s.Enable) :
    (∀ a, Run EnvelopeStep start.Attack a → EnvelopeLaw a) ∧ s.Slides ↔ s.Moves := by
  have inv : s.Inv := reached.invariant ⟨by decide, by decide, by decide⟩ fun _ _ => V_VolumeSlide.Inv.changes
  constructor
  · rintro ⟨-, slides⟩
    exact V_VolumeSlide.moves_of_slides slides
  · intro moves
    exact ⟨fun a => attack_law start a, V_VolumeSlide.slides_of_moves inv Enable moves⟩

theorem slides_from_reset : (V_VolumeSlide.reset.RegSet 0x8030).Slides :=
  ((slides_iff ⟨0, 0, 0, 0⟩ _ (Run.single (.inl ⟨0x8030, rfl⟩)) (by decide)).2 (.inl (by decide))).2

/-- The step 3 with the shift 27 never counts. -/
theorem shifted_away : ¬∀ s, Run V_VolumeSlide.Changes V_VolumeSlide.reset s → s.Enable → ¬(s.Step = 3 ∧ s.Shift = 0x1f) → s.Slides := by
  intro law
  have slides := law (V_VolumeSlide.reset.RegSet 0x806f) (Run.single (.inl ⟨0x806f, rfl⟩)) (by decide) (by decide)
  have moves := V_VolumeSlide.moves_of_slides slides
  have still : ¬(V_VolumeSlide.reset.RegSet 0x806f).Moves := by
    unfold V_VolumeSlide.Moves
    decide
  exact still moves

end Pcsx2.Spu2
