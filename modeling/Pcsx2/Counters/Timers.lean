import Mathlib.Data.Int.Bitwise
import Mathlib.Data.Nat.Bitwise
import Mathlib.Logic.Function.Basic

/-!
# Timers of the EE

Cycle numbers are not wrapped; the source's `u64` numbers are their remainders.
-/

namespace Pcsx2.Counters

scoped instance neZeroCounters : NeZero 4 := ⟨Nat.succ_ne_zero 3⟩

def EECNT_FUTURE_TARGET : Nat := 0x10000000

/-- A conversion to `s32`. -/
def s32 (x : Int) : Int := x.bmod (2 ^ 32)

/-- A difference of two `u64` numbers. -/
def since (cycle startCycle : Int) : Nat := ((cycle - startCycle) % 2 ^ 64).toNat

/-- `cycle & ~mask`. -/
def without (cycle : Int) (mask : Nat) : Int := cycle - (((cycle % 2 ^ 64).toNat &&& mask : Nat) : Int)

/-- `cycle & ~((u64)rate - 1)`. -/
def previousTick (cycle : Int) (rate : Nat) : Int := without cycle ((rate + (2 ^ 64 - 1)) % 2 ^ 64)

/-! ## State -/

structure EECNT_MODE where
  ClockSource : Fin 4
  EnableGate : Bool
  GateSource : Bool
  GateMode : Fin 4
  ZeroReturn : Bool
  IsCounting : Bool
  TargetInterrupt : Bool
  OverflowInterrupt : Bool
  TargetReached : Bool
  OverflowReached : Bool

def EECNT_MODE.write (mode : EECNT_MODE) (value : Nat) : EECNT_MODE where
  ClockSource := Fin.ofNat 4 value
  EnableGate := value.testBit 2
  GateSource := value.testBit 3
  GateMode := Fin.ofNat 4 (value >>> 4)
  ZeroReturn := value.testBit 6
  IsCounting := value.testBit 7
  TargetInterrupt := value.testBit 8
  OverflowInterrupt := value.testBit 9
  TargetReached := mode.TargetReached && !value.testBit 10
  OverflowReached := mode.OverflowReached && !value.testBit 11

/-- `irqs` counts the calls of `hwIntcIrq`. -/
structure Counter where
  count : Nat
  mode : EECNT_MODE
  target : Nat
  hold : Nat
  rate : Nat
  startCycle : Int
  irqs : Nat

inductive HMode
  | MODE_HRENDER
  | MODE_HBLANK
  deriving DecidableEq

inductive VMode
  | MODE_VRENDER
  | MODE_VBLANK
  | MODE_GSBLANK
  deriving DecidableEq

structure SyncCounter (Mode : Type) where
  Mode : Mode
  startCycle : Int
  deltaCycles : Int

structure vSyncTimingInfo where
  Render : Nat
  Blank : Nat
  GSBlank : Nat
  hSyncError : Nat
  hRender : Nat
  hBlank : Nat
  small : Render < 2 ^ 29 ∧ Blank < 2 ^ 29 ∧ GSBlank < 2 ^ 29 ∧ hSyncError < 2 ^ 29 ∧ hRender < 2 ^ 29 ∧ hBlank < 2 ^ 29

/-- Of a clock source, in cycles of the CPU. -/
def vSyncTimingInfo.rate (info : vSyncTimingInfo) : Fin 4 → Nat
  | 0 => 2
  | 1 => 32
  | 2 => 512
  | 3 => info.hBlank + info.hRender

/-- `nextEvent` has the arguments of the last call of `cpuSetNextEvent`. -/
structure State where
  cycle : Int
  counters : Fin 4 → Counter
  hsyncCounter : SyncCounter HMode
  vsyncCounter : SyncCounter VMode
  vSyncInfo : vSyncTimingInfo
  nextStartCounter : Int
  nextDeltaCounter : Int
  nextEvent : Int × Int

namespace State

def cpuSetNextEvent (s : State) (startCycle delta : Int) : State := { s with nextEvent := (startCycle, delta) }

def cpuTestCycle (s : State) (startCycle delta : Int) : Bool := delta ≤ s32 (s.cycle - startCycle)

def setCounter (s : State) (i : Fin 4) (c : Counter) : State := { s with counters := Function.update s.counters i c }

/-! ## Counting -/

def rcntCanCount (s : State) (c : Counter) : Bool :=
  c.mode.IsCounting && (!c.mode.EnableGate ||
    (!c.mode.GateSource && c.mode.ClockSource ≠ 3 &&
        (s.hsyncCounter.Mode = .MODE_HRENDER || c.mode.GateMode ≠ 0)) ||
      (c.mode.GateSource && (s.vsyncCounter.Mode = .MODE_VRENDER || c.mode.GateMode ≠ 0)))

def rcntSyncCounter (s : State) (c : Counter) : Counter :=
  if c.mode.ClockSource ≠ 3 then
    let change := since s.cycle c.startCycle / c.rate % 2 ^ 32
    { c with
      startCycle := previousTick (c.startCycle + (change * c.rate % 2 ^ 32 : Nat)) c.rate
      count := if s.rcntCanCount c then (c.count + change) % 2 ^ 32 else c.count }
  else { c with startCycle := s.cycle }

end State

namespace Counter

def cpuTestTarget (c : Counter) : Counter :=
  if c.count < c.target then c
  else
    let c := if c.mode.TargetInterrupt && !c.mode.TargetReached then
        { c with mode := { c.mode with TargetReached := true }, irqs := c.irqs + 1 }
      else c
    if c.mode.ZeroReturn then { c with count := c.count - c.target }
    else { c with target := c.target ||| EECNT_FUTURE_TARGET }

def cpuTestOverflow (c : Counter) : Counter :=
  if c.count ≤ 0xffff then c
  else
    let c := if c.mode.OverflowInterrupt && !c.mode.OverflowReached then
        { c with mode := { c.mode with OverflowReached := true }, irqs := c.irqs + 1 }
      else c
    { c with count := c.count - 0x10000, target := c.target % 2 ^ 16 }

end Counter

namespace State

/-! ## Scheduling -/

def lowerDelta (s : State) (c : Counter) (ticks : Int) : State :=
  let delta := s32 (s32 (ticks * c.rate - (s.cycle - c.startCycle)) + (s.cycle - s.nextStartCounter))
  if delta < s.nextDeltaCounter then { s with nextDeltaCounter := delta }.cpuSetNextEvent s.nextStartCounter delta else s

def rcntSet (s : State) (i : Fin 4) : State :=
  let c := s.counters i
  if !s.rcntCanCount c || c.mode.ClockSource = 3 then s
  else if !c.mode.TargetInterrupt && !c.mode.OverflowInterrupt && !c.mode.ZeroReturn then s
  else if 0x10000 < c.count || c.target < c.count then { s with nextDeltaCounter := 4 }
  else
    let s := s.lowerDelta c (0x10000 - c.count)
    if c.target &&& EECNT_FUTURE_TARGET ≠ 0 then s else s.lowerDelta c (c.target - c.count)

def cpuRcntSet (s : State) : State :=
  let nextDeltaCounter := s32 (s.vsyncCounter.deltaCycles - (s.cycle - s.vsyncCounter.startCycle))
  let nextHsync := s32 (s.hsyncCounter.deltaCycles - (s.cycle - s.hsyncCounter.startCycle))
  let nextDeltaCounter := if nextHsync < nextDeltaCounter then nextHsync else nextDeltaCounter
  let s := (List.finRange 4).foldl rcntSet { s with nextStartCounter := s.cycle, nextDeltaCounter }
  let nextDeltaCounter := if s.nextDeltaCounter < 0 then 0 else s.nextDeltaCounter
  { s with nextDeltaCounter }.cpuSetNextEvent s.nextStartCounter nextDeltaCounter

/-! ## Gates -/

def rcntStartGate (s : State) (isVblank : Bool) (sCycle : Int) : State :=
  { s with counters := fun i =>
      let c := s.counters i
      let c := if !isVblank && c.mode.ClockSource = 3 && s.rcntCanCount c then
          { c with count := (c.count + 1) % 2 ^ 32 }.cpuTestOverflow.cpuTestTarget
        else c
      if !c.mode.EnableGate || c.mode.GateSource ≠ isVblank then c
      else match c.mode.GateMode with
        | 0 => { s.rcntSyncCounter c with startCycle := previousTick sCycle c.rate }
        | 2 => c
        | _ =>
          let c := s.rcntSyncCounter c
          { c with count := 0, target := c.target % 2 ^ 16, startCycle := previousTick sCycle c.rate } }

def rcntEndGate (s : State) (isVblank : Bool) (sCycle : Int) : State :=
  { s with counters := fun i =>
      let c := s.counters i
      if !c.mode.EnableGate || c.mode.GateSource ≠ isVblank then c
      else match c.mode.GateMode with
        | 0 => { c with startCycle := previousTick sCycle c.rate }
        | 1 => c
        | _ =>
          let c := s.rcntSyncCounter c
          -- Here the subtraction has 32 bits.
          let startCycle := without sCycle ((c.rate + (2 ^ 32 - 1)) % 2 ^ 32)
          { c with count := 0, target := c.target % 2 ^ 16, startCycle } }

/-! ## Updates -/

variable (SINT : Bool)

def rcntUpdate_vSync (s : State) : State :=
  if !s.cpuTestCycle s.vsyncCounter.startCycle s.vsyncCounter.deltaCycles then s
  else match s.vsyncCounter.Mode with
    | .MODE_VBLANK =>
      let startCycle := s.vsyncCounter.startCycle + s.vSyncInfo.Blank
      let s := { s with vsyncCounter := { s.vsyncCounter with startCycle, deltaCycles := s.vSyncInfo.Render } }
      let s := if SINT then s else s.rcntEndGate true startCycle
      { s with vsyncCounter := { s.vsyncCounter with Mode := .MODE_VRENDER } }
    | .MODE_GSBLANK =>
      { s with vsyncCounter := { s.vsyncCounter with Mode := .MODE_VBLANK, deltaCycles := s.vSyncInfo.Blank } }
    | .MODE_VRENDER =>
      let startCycle := s.vsyncCounter.startCycle + s.vSyncInfo.Render
      let s := { s with vsyncCounter := { s.vsyncCounter with startCycle, deltaCycles := s.vSyncInfo.GSBlank } }
      let s := if SINT then s else s.rcntStartGate true startCycle
      { s with
        vsyncCounter := { s.vsyncCounter with Mode := .MODE_GSBLANK }
        hsyncCounter :=
          { s.hsyncCounter with deltaCycles := s32 (s.hsyncCounter.deltaCycles + s.vSyncInfo.hSyncError) } }

def rcntUpdate_hScanline (s : State) : State :=
  if !s.cpuTestCycle s.hsyncCounter.startCycle s.hsyncCounter.deltaCycles then s
  else match s.hsyncCounter.Mode with
    | .MODE_HBLANK =>
      let startCycle := s.hsyncCounter.startCycle + s.vSyncInfo.hBlank
      let s := { s with hsyncCounter := { s.hsyncCounter with startCycle, deltaCycles := s.vSyncInfo.hRender } }
      let s := if SINT then s else s.rcntEndGate false startCycle
      { s with hsyncCounter := { s.hsyncCounter with Mode := .MODE_HRENDER } }
    | .MODE_HRENDER =>
      let startCycle := s.hsyncCounter.startCycle + s.vSyncInfo.hRender
      let s := { s with hsyncCounter := { s.hsyncCounter with startCycle, deltaCycles := s.vSyncInfo.hBlank } }
      let s := if SINT then s else s.rcntStartGate false startCycle
      { s with hsyncCounter := { s.hsyncCounter with Mode := .MODE_HBLANK } }

def testCounter (s : State) (c : Counter) : Counter :=
  let c := s.rcntSyncCounter c
  if c.mode.ClockSource = 3 || !s.rcntCanCount c then c else c.cpuTestOverflow.cpuTestTarget

/-- `rcntUpdate` up to its last call. -/
def rcntTest (s : State) : State :=
  let s := (s.rcntUpdate_vSync SINT).rcntUpdate_hScanline SINT
  { s with counters := fun i => s.testCounter (s.counters i) }

def rcntUpdate (s : State) : State := (s.rcntTest SINT).cpuRcntSet

/-- `UpdateVSyncRate` up to the call of `cpuRcntSet`. -/
def setVSyncInfo (s : State) (vSyncInfo : vSyncTimingInfo) : State :=
  let hdelta : Int := match s.hsyncCounter.Mode with
    | .MODE_HBLANK => vSyncInfo.hBlank
    | .MODE_HRENDER => vSyncInfo.hRender
  let vdelta : Int := match s.vsyncCounter.Mode with
    | .MODE_GSBLANK => vSyncInfo.GSBlank
    | .MODE_VBLANK => vSyncInfo.Blank
    | .MODE_VRENDER => vSyncInfo.Render
  { s with
    vSyncInfo
    hsyncCounter := { s.hsyncCounter with
      startCycle := s.hsyncCounter.startCycle + s32 (s.hsyncCounter.deltaCycles - hdelta), deltaCycles := hdelta }
    vsyncCounter := { s.vsyncCounter with
      startCycle := s.vsyncCounter.startCycle + s32 (s.vsyncCounter.deltaCycles - vdelta), deltaCycles := vdelta } }

def UpdateVSyncRate (s : State) (vSyncInfo : vSyncTimingInfo) : State := (s.setVSyncInfo vSyncInfo).cpuRcntSet

/-! ## Accesses of the guest -/

/-- `rcntWmode` up to the call of `rcntSet`, and so on. -/
def setMode (s : State) (i : Fin 4) (value : Nat) : State :=
  let c := s.rcntSyncCounter (s.counters i)
  let mode := c.mode.write value
  let rate := s.vSyncInfo.rate mode.ClockSource
  s.setCounter i { c with mode, rate, startCycle := previousTick s.cycle rate }

def rcntWmode (s : State) (i : Fin 4) (value : Nat) : State := (s.setMode i value).rcntSet i

def setCount (s : State) (i : Fin 4) (value : Nat) : State :=
  let c := s.rcntSyncCounter (s.counters i)
  let count := value % 2 ^ 16
  let target := c.target % 2 ^ 16
  s.setCounter i { c with count, target := if target ≤ count then target ||| EECNT_FUTURE_TARGET else target }

def rcntWcount (s : State) (i : Fin 4) (value : Nat) : State := (s.setCount i value).rcntSet i

def setTarget (s : State) (i : Fin 4) (value : Nat) : State :=
  let target := value % 2 ^ 16
  let c := s.rcntSyncCounter { s.counters i with target }
  s.setCounter i { c with target := if target ≤ c.count then target ||| EECNT_FUTURE_TARGET else target }

def rcntWtarget (s : State) (i : Fin 4) (value : Nat) : State := (s.setTarget i value).rcntSet i

def rcntWhold (s : State) (i : Fin 4) (value : Nat) : State := s.setCounter i { s.counters i with hold := value }

def rcntRcount (s : State) (i : Fin 4) : Nat × State :=
  let c := s.rcntSyncCounter (s.counters i)
  (c.count % 2 ^ 16, s.setCounter i c)

def rcntInit (cycle : Int) : State :=
  let mode : EECNT_MODE :=
    { ClockSource := 0, EnableGate := false, GateSource := false, GateMode := 0, ZeroReturn := false, IsCounting := false,
      TargetInterrupt := false, OverflowInterrupt := false, TargetReached := false, OverflowReached := false }
  cpuRcntSet
    { cycle
      counters := fun _ => { count := 0, mode, target := 0xffff, hold := 0, rate := 2, startCycle := cycle, irqs := 0 }
      hsyncCounter := { Mode := .MODE_HRENDER, startCycle := cycle, deltaCycles := 0 }
      vsyncCounter := { Mode := .MODE_VRENDER, startCycle := cycle, deltaCycles := 0 }
      vSyncInfo :=
        { Render := 0, Blank := 0, GSBlank := 0, hSyncError := 0, hRender := 0, hBlank := 0, small := by decide }
      nextStartCounter := 0
      nextDeltaCounter := 0
      nextEvent := (0, 0) }

end State

end Pcsx2.Counters
