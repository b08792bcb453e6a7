import Pcsx2.Counters.Counting

/-!
# What an update does before it schedules

Gates move the starts of counters to the boundaries of blanks, which are past.
-/

namespace Pcsx2.Counters
open State

variable {s : State} {c : Counter} {cycle sCycle : Int}

/-! ## Gates -/

/-- As old as ticks are when an update begins, or when a gate has moved them. -/
def Fresh (cycle : Int) (c : Counter) : Prop := c.OnBus → cycle < c.startCycle + 2 ^ 30 + 2 ^ 10

theorem Fresh.recent (fresh : Fresh cycle c) : Recent cycle c := fun bus => by
  have := fresh bus
  omega

theorem sync_fresh (sane : Sane s.cycle c) (fresh : Fresh s.cycle c) : Fresh s.cycle (s.rcntSyncCounter c) := by
  intro bus
  have before : c.OnBus := by
    unfold Counter.OnBus at bus ⊢
    rwa [sync_mode] at bus
  have := (sync_start sane fresh.recent before).2.1
  omega

theorem moved {start : Int} {count target : Nat} (sane : Sane cycle c) (past : sCycle ≤ cycle) (late : cycle < sCycle + 2 ^ 30)
    (before : start ≤ sCycle) (tick : BusRate c.rate → start = sCycle - sCycle % c.rate)
    (low : target &&& EECNT_FUTURE_TARGET = 0 → target < 2 ^ 16) :
    Sane cycle { c with startCycle := start, count, target } ∧ Fresh cycle { c with startCycle := start, count, target } := by
  have close : c.OnBus → start % c.rate = 0 ∧ sCycle < start + 2 ^ 10 := by
    intro bus
    have rate := (sane.rate bus).bounds
    have positive : (0 : Int) < c.rate := by omega
    have small := Int.emod_lt_of_pos sCycle positive
    have same := tick (sane.rate bus)
    refine ⟨?_, by omega⟩
    rw [same]
    exact Int.emod_eq_zero_of_dvd (Int.dvd_self_sub_emod ..)
  refine ⟨⟨before.trans past, sane.rate, fun bus _ => (close bus).1, low⟩, fun bus => ?_⟩
  have := (close bus).2
  show cycle < start + _ + _
  omega

theorem startGate_sane {isVblank : Bool} (past : sCycle ≤ s.cycle) (late : s.cycle < sCycle + 2 ^ 30)
    (sane : ∀ i, Sane s.cycle (s.counters i) ∧ Fresh s.cycle (s.counters i)) (i : Fin 4) :
    Sane s.cycle ((s.rcntStartGate isVblank sCycle).counters i) ∧
      Fresh s.cycle ((s.rcntStartGate isVblank sCycle).counters i) := by
  unfold rcntStartGate
  dsimp only
  have counted : ∀ c, Sane s.cycle c ∧ Fresh s.cycle c →
      Sane s.cycle { c with count := (c.count + 1) % 2 ^ 32 }.cpuTestOverflow.cpuTestTarget ∧
        Fresh s.cycle { c with count := (c.count + 1) % 2 ^ 32 }.cpuTestOverflow.cpuTestTarget := by
    intro c ⟨sane, fresh⟩
    have tested := (cpuTestOverflow_tested { c with count := (c.count + 1) % 2 ^ 32 }).trans (cpuTestTarget_tested _)
    refine ⟨tested.sane (sane.congr rfl rfl rfl rfl sane.target), fun bus => ?_⟩
    rw [tested.start]
    unfold Counter.OnBus at bus
    rw [tested.source] at bus
    exact fresh bus
  have first : ∀ b : Bool, Sane s.cycle (if b then { s.counters i with
        count := ((s.counters i).count + 1) % 2 ^ 32 }.cpuTestOverflow.cpuTestTarget else s.counters i) ∧
      Fresh s.cycle (if b then { s.counters i with
        count := ((s.counters i).count + 1) % 2 ^ 32 }.cpuTestOverflow.cpuTestTarget else s.counters i) := by
    intro b
    cases b
    · exact sane i
    · exact counted _ (sane i)
  have both := first (!isVblank && (s.counters i).mode.ClockSource = 3 && s.rcntCanCount (s.counters i))
  generalize (if (!isVblank && (s.counters i).mode.ClockSource = 3 && s.rcntCanCount (s.counters i)) = true then
    { s.counters i with count := ((s.counters i).count + 1) % 2 ^ 32 }.cpuTestOverflow.cpuTestTarget
    else s.counters i) = c at both
  obtain ⟨sane, fresh⟩ := both
  have synced := sync_sane sane fresh.recent
  split
  · exact ⟨sane, fresh⟩
  · split
    · rw [← sync_rate s c]
      exact moved synced past late (previousTick_le ..) (fun bus => previousTick_bus bus _) synced.target
    · exact ⟨sane, fresh⟩
    · exact moved synced past late (previousTick_le ..) (fun bus => previousTick_bus bus _) fun _ => low_target _

theorem endGate_sane {isVblank : Bool} (past : sCycle ≤ s.cycle) (late : s.cycle < sCycle + 2 ^ 30)
    (sane : ∀ i, Sane s.cycle (s.counters i) ∧ Fresh s.cycle (s.counters i)) (i : Fin 4) :
    Sane s.cycle ((s.rcntEndGate isVblank sCycle).counters i) ∧
      Fresh s.cycle ((s.rcntEndGate isVblank sCycle).counters i) := by
  unfold rcntEndGate
  dsimp only
  obtain ⟨sane, fresh⟩ := sane i
  have synced := sync_sane sane fresh.recent
  split
  · exact ⟨sane, fresh⟩
  · split
    · exact moved sane past late (previousTick_le ..) (fun bus => previousTick_bus bus _) sane.target
    · exact ⟨sane, fresh⟩
    · refine moved synced past late (without_le ..) (fun bus => ?_) fun _ => low_target _
      rw [← without_bus bus]
      rcases bus with rate | rate | rate <;> rw [rate] <;> rfl

/-! ## Blanks -/

def vSyncTimingInfo.hDuration (info : vSyncTimingInfo) : HMode → Nat
  | .MODE_HBLANK => info.hBlank
  | .MODE_HRENDER => info.hRender

def vSyncTimingInfo.vDuration (info : vSyncTimingInfo) : VMode → Nat
  | .MODE_GSBLANK => info.GSBlank
  | .MODE_VBLANK => info.Blank
  | .MODE_VRENDER => info.Render

theorem hDuration_small (info : vSyncTimingInfo) (mode : HMode) : info.hDuration mode < 2 ^ 29 := by
  obtain ⟨-, -, -, -, render, blank⟩ := info.small
  cases mode
  · exact render
  · exact blank

theorem vDuration_small (info : vSyncTimingInfo) (mode : VMode) : info.vDuration mode < 2 ^ 29 := by
  obtain ⟨render, blank, gsBlank, -⟩ := info.small
  cases mode
  · exact render
  · exact blank
  · exact gsBlank

structure Paced (s : State) : Prop where
  line : (s.vSyncInfo.hDuration s.hsyncCounter.Mode : Int) ≤ s.hsyncCounter.deltaCycles
  frame : s.vsyncCounter.deltaCycles = s.vSyncInfo.vDuration s.vsyncCounter.Mode

/-- The boundaries are close enough for `s32`. -/
structure OnTime (s : State) : Prop where
  line : s.cycle < s.hsyncCounter.startCycle + 2 ^ 30 ∧ s.hsyncCounter.startCycle < s.cycle + 2 ^ 29
  error : s.hsyncCounter.deltaCycles < 2 ^ 29
  frame : s.cycle < s.vsyncCounter.startCycle + 2 ^ 30 ∧ s.vsyncCounter.startCycle < s.cycle + 2 ^ 29

theorem passed_of_test {startCycle delta : Int} (late : s.cycle < startCycle + 2 ^ 30) (early : startCycle < s.cycle + 2 ^ 29)
    (test : s.cpuTestCycle startCycle delta = true) : startCycle + delta ≤ s.cycle := by
  unfold cpuTestCycle at test
  have order := of_decide_eq_true test
  rw [s32_eq (by omega) (by omega)] at order
  omega

structure Blanked (s s' : State) : Prop where
  cycle : s'.cycle = s.cycle
  counters : ∀ i, Sane s.cycle (s'.counters i) ∧ Fresh s.cycle (s'.counters i)
  paced : Paced s'

theorem vSync_blanked (SINT : Bool) (sane : ∀ i, Sane s.cycle (s.counters i) ∧ Fresh s.cycle (s.counters i))
    (paced : Paced s) (onTime : OnTime s) :
    Blanked s (s.rcntUpdate_vSync SINT) ∧
      (s.rcntUpdate_vSync SINT).hsyncCounter.startCycle = s.hsyncCounter.startCycle ∧
      (s.rcntUpdate_vSync SINT).hsyncCounter.deltaCycles < 2 ^ 30 ∧
      s.cycle < (s.rcntUpdate_vSync SINT).vsyncCounter.startCycle + 2 ^ 30 ∧
      (s.rcntUpdate_vSync SINT).vsyncCounter.startCycle < s.cycle + 2 ^ 29 := by
  obtain ⟨late, early⟩ := onTime.frame
  have error := onTime.error
  have line := paced.line
  have frame := paced.frame
  unfold rcntUpdate_vSync
  split
  · exact ⟨⟨rfl, sane, paced⟩, rfl, by omega, late, early⟩
  · rename_i test
    rw [Bool.not_eq_true', Bool.not_eq_false] at test
    have passed := passed_of_test late early test
    have few : s.hsyncCounter.deltaCycles < 2 ^ 30 := by omega
    rw [frame] at passed
    have nonneg := Int.natCast_nonneg (s.vSyncInfo.vDuration s.vsyncCounter.Mode)
    split
    · rename_i mode
      rw [mode] at passed nonneg
      have start : s.vsyncCounter.startCycle + s.vSyncInfo.Blank ≤ s.cycle := passed
      have after : s.cycle < s.vsyncCounter.startCycle + s.vSyncInfo.Blank + 2 ^ 30 := by omega
      have before : s.vsyncCounter.startCycle + s.vSyncInfo.Blank < s.cycle + 2 ^ 29 := by omega
      cases SINT
      · exact ⟨⟨rfl, endGate_sane start after sane, line, rfl⟩, rfl, few, after, before⟩
      · exact ⟨⟨rfl, sane, line, rfl⟩, rfl, few, after, before⟩
    · exact ⟨⟨rfl, sane, line, rfl⟩, rfl, few, late, early⟩
    · rename_i mode
      rw [mode] at passed nonneg
      have start : s.vsyncCounter.startCycle + s.vSyncInfo.Render ≤ s.cycle := passed
      have after : s.cycle < s.vsyncCounter.startCycle + s.vSyncInfo.Render + 2 ^ 30 := by omega
      have before : s.vsyncCounter.startCycle + s.vSyncInfo.Render < s.cycle + 2 ^ 29 := by omega
      have small := s.vSyncInfo.small
      have delta : s32 (s.hsyncCounter.deltaCycles + s.vSyncInfo.hSyncError) =
          s.hsyncCounter.deltaCycles + s.vSyncInfo.hSyncError := by
        have lines := Int.natCast_nonneg (s.vSyncInfo.hDuration s.hsyncCounter.Mode)
        exact s32_eq (by omega) (by omega)
      have longer : (s.vSyncInfo.hDuration s.hsyncCounter.Mode : Int) ≤
          s32 (s.hsyncCounter.deltaCycles + s.vSyncInfo.hSyncError) := by omega
      have less : s32 (s.hsyncCounter.deltaCycles + s.vSyncInfo.hSyncError) < 2 ^ 30 := by omega
      cases SINT
      · exact ⟨⟨rfl, startGate_sane start after sane, longer, rfl⟩, rfl, less, after, before⟩
      · exact ⟨⟨rfl, sane, longer, rfl⟩, rfl, less, after, before⟩

theorem hScanline_blanked (SINT : Bool) (sane : ∀ i, Sane s.cycle (s.counters i) ∧ Fresh s.cycle (s.counters i))
    (paced : Paced s) (late : s.cycle < s.hsyncCounter.startCycle + 2 ^ 30)
    (early : s.hsyncCounter.startCycle < s.cycle + 2 ^ 29) (error : s.hsyncCounter.deltaCycles < 2 ^ 30) :
    Blanked s (s.rcntUpdate_hScanline SINT) ∧
      (s.rcntUpdate_hScanline SINT).vsyncCounter = s.vsyncCounter ∧
      (s.rcntUpdate_hScanline SINT).hsyncCounter.deltaCycles < 2 ^ 30 ∧
      s.cycle < (s.rcntUpdate_hScanline SINT).hsyncCounter.startCycle + 2 ^ 30 ∧
      (s.rcntUpdate_hScanline SINT).hsyncCounter.startCycle < s.cycle + 2 ^ 29 := by
  have line := paced.line
  unfold rcntUpdate_hScanline
  split
  · exact ⟨⟨rfl, sane, paced⟩, rfl, error, late, early⟩
  · rename_i test
    rw [Bool.not_eq_true', Bool.not_eq_false] at test
    have passed := passed_of_test late early test
    have nonneg := Int.natCast_nonneg (s.vSyncInfo.hDuration s.hsyncCounter.Mode)
    obtain ⟨-, -, -, -, render, blank⟩ := s.vSyncInfo.small
    split
    · rename_i mode
      rw [mode] at line nonneg
      have duration : (s.vSyncInfo.hBlank : Int) ≤ s.hsyncCounter.deltaCycles := line
      have start : s.hsyncCounter.startCycle + s.vSyncInfo.hBlank ≤ s.cycle := by omega
      have after : s.cycle < s.hsyncCounter.startCycle + s.vSyncInfo.hBlank + 2 ^ 30 := by omega
      have before : s.hsyncCounter.startCycle + s.vSyncInfo.hBlank < s.cycle + 2 ^ 29 := by omega
      have few : (s.vSyncInfo.hRender : Int) < 2 ^ 30 := by omega
      cases SINT
      · exact ⟨⟨rfl, endGate_sane start after sane, le_rfl, paced.frame⟩, rfl, few, after, before⟩
      · exact ⟨⟨rfl, sane, le_rfl, paced.frame⟩, rfl, few, after, before⟩
    · rename_i mode
      rw [mode] at line nonneg
      have duration : (s.vSyncInfo.hRender : Int) ≤ s.hsyncCounter.deltaCycles := line
      have start : s.hsyncCounter.startCycle + s.vSyncInfo.hRender ≤ s.cycle := by omega
      have after : s.cycle < s.hsyncCounter.startCycle + s.vSyncInfo.hRender + 2 ^ 30 := by omega
      have before : s.hsyncCounter.startCycle + s.vSyncInfo.hRender < s.cycle + 2 ^ 29 := by omega
      have few : (s.vSyncInfo.hBlank : Int) < 2 ^ 30 := by omega
      cases SINT
      · exact ⟨⟨rfl, startGate_sane start after sane, le_rfl, paced.frame⟩, rfl, few, after, before⟩
      · exact ⟨⟨rfl, sane, le_rfl, paced.frame⟩, rfl, few, after, before⟩

/-! ## Updates -/

def SyncCounter.boundary {Mode : Type} (sync : SyncCounter Mode) : Int := sync.startCycle + sync.deltaCycles

/-- What `cpuRcntSet` relies on. -/
structure Ready (s : State) : Prop where
  counters : ∀ i, Sane s.cycle (s.counters i) ∧ Fresh s.cycle (s.counters i)
  paced : Paced s
  line : s.cycle ≤ s.hsyncCounter.boundary + 2 ^ 31 ∧ s.hsyncCounter.boundary < s.cycle + 2 ^ 31
  frame : s.cycle ≤ s.vsyncCounter.boundary + 2 ^ 31 ∧ s.vsyncCounter.boundary < s.cycle + 2 ^ 31

theorem Paced.nonneg (paced : Paced s) : 0 ≤ s.hsyncCounter.deltaCycles ∧ 0 ≤ s.vsyncCounter.deltaCycles ∧
    s.vsyncCounter.deltaCycles < 2 ^ 29 := by
  have line := paced.line
  have frame := paced.frame
  have small := vDuration_small s.vSyncInfo s.vsyncCounter.Mode
  omega

theorem testCounter_sane (sane : Sane s.cycle c) (fresh : Fresh s.cycle c) :
    Sane s.cycle (s.testCounter c) ∧ Fresh s.cycle (s.testCounter c) := by
  have synced := sync_sane sane fresh.recent
  have stays := sync_fresh sane fresh
  unfold testCounter
  dsimp only
  split
  · exact ⟨synced, stays⟩
  · have tested := (cpuTestOverflow_tested (s.rcntSyncCounter c)).trans (cpuTestTarget_tested _)
    refine ⟨tested.sane synced, fun bus => ?_⟩
    rw [tested.start]
    unfold Counter.OnBus at bus
    rw [tested.source] at bus
    exact stays bus

theorem rcntTest_ready (SINT : Bool) (sane : ∀ i, Sane s.cycle (s.counters i) ∧ Fresh s.cycle (s.counters i))
    (paced : Paced s) (onTime : OnTime s) : Ready (s.rcntTest SINT) ∧ (s.rcntTest SINT).cycle = s.cycle := by
  obtain ⟨⟨cycle, counters, frames⟩, start, error, late, early⟩ := vSync_blanked SINT sane paced onTime
  unfold rcntTest
  generalize s.rcntUpdate_vSync SINT = s₁ at cycle counters frames start error late early
  have lines : s₁.cycle < s₁.hsyncCounter.startCycle + 2 ^ 30 ∧ s₁.hsyncCounter.startCycle < s₁.cycle + 2 ^ 29 := by
    rw [cycle, start]
    exact onTime.line
  rw [← cycle] at counters late early
  obtain ⟨⟨cycle', counters', lines'⟩, frame, error', late', early'⟩ :=
    hScanline_blanked SINT counters frames lines.1 lines.2 error
  dsimp only
  generalize s₁.rcntUpdate_hScanline SINT = s₂ at cycle' counters' lines' frame error' late' early'
  rw [← cycle'] at counters' late' early' late early
  rw [← frame] at late early
  have positive := lines'.nonneg
  refine ⟨⟨fun i => testCounter_sane (counters' i).1 (counters' i).2, ⟨lines'.line, lines'.frame⟩, ?_, ?_⟩, cycle'.trans cycle⟩
  · show s₂.cycle ≤ s₂.hsyncCounter.boundary + 2 ^ 31 ∧ s₂.hsyncCounter.boundary < s₂.cycle + 2 ^ 31
    unfold SyncCounter.boundary
    omega
  · show s₂.cycle ≤ s₂.vsyncCounter.boundary + 2 ^ 31 ∧ s₂.vsyncCounter.boundary < s₂.cycle + 2 ^ 31
    unfold SyncCounter.boundary
    omega

theorem setVSyncInfo_ready (info : vSyncTimingInfo)
    (sane : ∀ i, Sane s.cycle (s.counters i) ∧ Fresh s.cycle (s.counters i)) (paced : Paced s) (onTime : OnTime s) :
    Ready (s.setVSyncInfo info) := by
  have nonneg := paced.nonneg
  have line := onTime.line
  have frame := onTime.frame
  have error := onTime.error
  have hsmall := hDuration_small info s.hsyncCounter.Mode
  have vsmall := vDuration_small info s.vsyncCounter.Mode
  have hsync : (s.setVSyncInfo info).hsyncCounter = { s.hsyncCounter with
      startCycle := s.hsyncCounter.startCycle + s32 (s.hsyncCounter.deltaCycles - info.hDuration s.hsyncCounter.Mode)
      deltaCycles := info.hDuration s.hsyncCounter.Mode } := by
    unfold setVSyncInfo
    cases s.hsyncCounter.Mode <;> rfl
  have vsync : (s.setVSyncInfo info).vsyncCounter = { s.vsyncCounter with
      startCycle := s.vsyncCounter.startCycle + s32 (s.vsyncCounter.deltaCycles - info.vDuration s.vsyncCounter.Mode)
      deltaCycles := info.vDuration s.vsyncCounter.Mode } := by
    unfold setVSyncInfo
    cases s.vsyncCounter.Mode <;> rfl
  rw [s32_eq (by omega) (by omega)] at hsync vsync
  have cycle : (s.setVSyncInfo info).cycle = s.cycle := rfl
  have infos : (s.setVSyncInfo info).vSyncInfo = info := rfl
  refine ⟨sane, ⟨?_, ?_⟩, ?_, ?_⟩
  · rw [hsync, infos]
  · rw [vsync, infos]
  · rw [hsync, cycle]
    unfold SyncCounter.boundary
    dsimp only
    omega
  · rw [vsync, cycle]
    unfold SyncCounter.boundary
    dsimp only
    omega

end Pcsx2.Counters
