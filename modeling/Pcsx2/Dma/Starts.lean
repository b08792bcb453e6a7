import Mathlib
import Mathlib.Data.Fin.Basic
import Mathlib.Data.List.Count
import Mathlib.Logic.Function.Basic

/-!
# The queue of DMA starts

The writes to `CHCR`, `DMAC_CTRL` and `DMAC_ENABLEW`, with the start functions they call.
-/

namespace Pcsx2.Dma

abbrev Channel := Fin 10

structure DMACh where
  chcr : BitVec 32
  qwc : BitVec 32

namespace DMACh

def STR (reg : DMACh) : Bool := reg.chcr.getLsbD 8

def MOD (reg : DMACh) : BitVec 2 := reg.chcr.extractLsb' 2 2

end DMACh

structure Dmac where
  channels : Channel → DMACh
  ctrl : BitVec 32
  enabler : BitVec 32
  enablew : BitVec 32
  /-- `QueuedDMA._u16`. -/
  queued : BitVec 16

namespace Dmac

variable (d : Dmac)

def DMAE : Bool := d.ctrl.getLsbD 0

/-- `psHu8(DMAC_ENABLER+2)` -/
def suspend : BitVec 8 := d.enabler.extractLsb' 16 8

def enabled : Bool := d.DMAE && d.suspend == 0

def setChannel (c : Channel) (reg : DMACh) : Dmac :=
  { d with channels := Function.update d.channels c reg }

/-- Assigns one of the bits of `QueuedDMA`. -/
def setQueued (bit : Nat) (value : Bool) : Dmac :=
  { d with queued := if value then d.queued ||| 1#16 <<< bit else d.queued &&& ~~~(1#16 <<< bit) }

def quickDmaExec (c : Channel) : Bool := (d.channels c).STR && d.enabled

/-- The channels that are called, in the order of the source, and the state after. -/
def startQueued : List Channel → Dmac → List Channel × Dmac
  | [], d => ([], d)
  | c :: rest, d =>
      if d.queued.getLsbD c then
        let ret := d.quickDmaExec c
        let (calls, after) := startQueued rest (d.setQueued c !ret)
        (if ret then c :: calls else calls, after)
      else startQueued rest d

def startQueuedDMA : List Channel × Dmac := startQueued [0, 1, 2, 3, 4, 5, 6, 7, 8, 9] d

/-- `cpuClearInt` is left out. -/
def forceStop (c : Channel) : Dmac :=
  let reg := d.channels c
  let d := d.setChannel c { reg with chcr := reg.chcr &&& ~~~0x100 }
  let d := if c = 1 then d.setQueued 10 false else if c = 2 then d.setQueued 11 false else d
  d.setQueued c false

/-- The registers a channel is left with by a write to its `CHCR` while it is stopped. -/
def written (reg : DMACh) (value : BitVec 32) : DMACh :=
  let reg : DMACh := { reg with chcr := value }
  -- a mode that does not exist counts as chain mode
  let reg : DMACh := if reg.MOD = 3 then { reg with chcr := reg.chcr &&& ~~~0x8 } else reg
  -- normal mode with nothing to transfer wraps around
  if reg.STR && reg.MOD == 0 && reg.qwc == 0 then { reg with qwc := 0x10000 } else reg

def dmaExec (c : Channel) (value : BitVec 32) : List Channel × Dmac :=
  if (d.channels c).STR then
    -- while the channel is active only STR can be written
    if value.getLsbD 8 then ([], d) else ([], d.forceStop c)
  else
    let reg := written (d.channels c) value
    let d := d.setChannel c reg
    if reg.STR && d.enabled then ([c], d)
    else if reg.STR then ([], d.setQueued c true)
    else ([], d)

end Dmac

inductive Write
  | chcr (c : Channel) (value : BitVec 32)
  | ctrl (value : BitVec 32)
  | enablew (value : BitVec 32)

def dmacWrite32 (d : Dmac) : Write → List Channel × Dmac
  | .chcr c value => d.dmaExec c value
  | .ctrl value =>
      let oldvalue := d.ctrl
      let d := { d with ctrl := value }
      if !oldvalue.getLsbD 0 && value.getLsbD 0 then
        if d.queued != 0 then d.startQueuedDMA else ([], d)
      else ([], d)
  | .enablew value =>
      let oldvalue : BitVec 8 := d.enablew.extractLsb' 16 8
      let d := { d with enablew := value, enabler := value }
      if oldvalue.getLsbD 0 && !value.getLsbD 16 then
        if d.queued != 0 then d.startQueuedDMA else ([], d)
      else ([], d)

/-- The state `hwReset` leaves. -/
def reset : Dmac := ⟨fun _ => ⟨0, 0⟩, 0, 0x1201, 0x1201, 0⟩

/-! ## Runs -/

/-- A channel that has been started goes on by itself: it changes its registers, and stops at the end. -/
inductive Event
  | write (w : Write)
  | progress (c : Channel) (reg : DMACh)

/-- The state, with the channels whose start was written while the DMAC was disabled and has not been called since. -/
structure System where
  dmac : Dmac
  waiting : Channel → Bool

namespace System

variable (s : System)

/-- The write sets `STR` of a stopped channel. -/
def starts (c : Channel) : Write → Bool
  | .chcr c' value => c' == c && !(s.dmac.channels c).STR && value.getLsbD 8
  | _ => false

/-- The write clears `STR` of an active channel. -/
def stops (c : Channel) : Write → Bool
  | .chcr c' value => c' == c && (s.dmac.channels c).STR && !value.getLsbD 8
  | _ => false

def due (w : Write) (c : Channel) : Bool := s.starts c w || (s.waiting c && !s.stops c w)

def calls (w : Write) : List Channel := (dmacWrite32 s.dmac w).1

def step : Event → System
  | .write w =>
      let dmac := (dmacWrite32 s.dmac w).2
      ⟨dmac, fun c => s.due w c && !dmac.enabled⟩
  | .progress c reg =>
      if (s.dmac.channels c).STR && !s.waiting c then ⟨s.dmac.setChannel c reg, s.waiting⟩ else s

end System

def System.init : System := ⟨reset, fun _ => false⟩

def run (events : List Event) : System := events.foldl System.step System.init

end Pcsx2.Dma

/-!
# When starts are called

A waiting channel is called by the first write that leaves the DMAC enabled, unless the write misses the edge.
-/

namespace Pcsx2.Dma

/-! ## The queue -/

namespace Dmac

variable {d : Dmac}

@[simp] theorem setQueued_channels (bit : Nat) (value : Bool) : (d.setQueued bit value).channels = d.channels := rfl

@[simp] theorem setQueued_enabled (bit : Nat) (value : Bool) : (d.setQueued bit value).enabled = d.enabled := rfl

@[simp] theorem setChannel_enabled (c : Channel) (reg : DMACh) : (d.setChannel c reg).enabled = d.enabled := rfl

@[simp] theorem setChannel_queued (c : Channel) (reg : DMACh) : (d.setChannel c reg).queued = d.queued := rfl

theorem getLsbD_setQueued {bit other : Nat} (bound : bit < 16) (value : Bool) :
    (d.setQueued bit value).queued.getLsbD other = if other = bit then value else d.queued.getLsbD other := by
  by_cases inside : other < 16
  · by_cases same : other = bit
    · subst same
      cases value <;> simp [setQueued, inside]
    · have shifted : (1#16 <<< bit).getLsbD other = false := by
        by_cases above : bit ≤ other
        · have gap : other - bit ≠ 0 := by omega
          simp [inside, gap]
        · simp [Nat.lt_of_not_le above]
      rw [if_neg same]
      cases value
      · simp only [setQueued, Bool.false_eq_true, if_false, BitVec.getLsbD_and, BitVec.getLsbD_not, shifted]
        simp [inside]
      · simp only [setQueued, if_true, BitVec.getLsbD_or, shifted, Bool.or_false]
  · have outside := Nat.not_lt.1 inside
    have different : other ≠ bit := by omega
    rw [if_neg different, BitVec.getLsbD_of_ge _ _ outside, BitVec.getLsbD_of_ge _ _ outside]

theorem getLsbD_setQueued_channel (c other : Channel) (value : Bool) :
    (d.setQueued c value).queued.getLsbD other = if other = c then value else d.queued.getLsbD other := by
  rw [getLsbD_setQueued (by omega)]
  simp only [Fin.ext_iff]

theorem startQueued_spec {list : List Channel} (distinct : list.Nodup) (d : Dmac) :
    (startQueued list d).1 = list.filter (fun c : Channel => d.queued.getLsbD c && d.quickDmaExec c) ∧
    (startQueued list d).2.channels = d.channels ∧ (startQueued list d).2.ctrl = d.ctrl ∧
    (startQueued list d).2.enabler = d.enabler ∧ (startQueued list d).2.enablew = d.enablew ∧
    ∀ c : Channel, (startQueued list d).2.queued.getLsbD c =
      (d.queued.getLsbD c && !(decide (c ∈ list) && d.quickDmaExec c)) := by
  induction list generalizing d with
  | nil => simp [startQueued]
  | cons head rest ih =>
      obtain ⟨fresh, distinct⟩ := List.nodup_cons.1 distinct
      unfold startQueued
      cases queued : d.queued.getLsbD head with
      | false =>
          obtain ⟨calls, channels, ctrl, enabler, enablew, bits⟩ := ih distinct d
          rw [if_neg (by decide)]
          refine ⟨?_, channels, ctrl, enabler, enablew, ?_⟩
          · rw [calls, List.filter_cons_of_neg (by simp [queued])]
          · intro c
            rw [bits c]
            by_cases same : c = head
            · subst same
              rw [queued]
              rfl
            · simp [same]
      | true =>
          obtain ⟨calls, channels, ctrl, enabler, enablew, bits⟩ := ih distinct (d.setQueued head !d.quickDmaExec head)
          rw [if_pos rfl]
          refine ⟨?_, channels, ctrl, enabler, enablew, ?_⟩
          · have others : rest.filter (fun c : Channel => (d.setQueued head !d.quickDmaExec head).queued.getLsbD c &&
                (d.setQueued head !d.quickDmaExec head).quickDmaExec c) =
                rest.filter (fun c : Channel => d.queued.getLsbD c && d.quickDmaExec c) := by
              apply List.filter_congr
              intro c member
              have different : c ≠ head := fun same => fresh (same ▸ member)
              rw [getLsbD_setQueued_channel, if_neg different]
              rfl
            dsimp only
            rw [calls, others]
            cases called : d.quickDmaExec head <;> simp [queued, called]
          · intro c
            rw [bits c, getLsbD_setQueued_channel]
            have same_exec : (d.setQueued head !d.quickDmaExec head).quickDmaExec c = d.quickDmaExec c := rfl
            rw [same_exec]
            by_cases same : c = head
            · subst same
              simp [queued, fresh]
            · simp [same]

theorem startQueuedDMA_spec (d : Dmac) :
    (∀ c, d.startQueuedDMA.1.count c = if d.queued.getLsbD c && d.quickDmaExec c then 1 else 0) ∧
    d.startQueuedDMA.2.channels = d.channels ∧ d.startQueuedDMA.2.ctrl = d.ctrl ∧
    d.startQueuedDMA.2.enabler = d.enabler ∧ d.startQueuedDMA.2.enablew = d.enablew ∧
    ∀ c : Channel, d.startQueuedDMA.2.queued.getLsbD c = (d.queued.getLsbD c && !d.quickDmaExec c) := by
  have all : ∀ c : Channel, c ∈ ([0, 1, 2, 3, 4, 5, 6, 7, 8, 9] : List Channel) := by decide
  have distinct : ([0, 1, 2, 3, 4, 5, 6, 7, 8, 9] : List Channel).Nodup := by decide
  obtain ⟨calls, channels, ctrl, enabler, enablew, bits⟩ := startQueued_spec distinct d
  refine ⟨?_, channels, ctrl, enabler, enablew, ?_⟩
  · intro c
    have once := List.count_eq_one_of_mem distinct (all c)
    rw [startQueuedDMA, calls]
    cases called : d.queued.getLsbD c && d.quickDmaExec c with
    | false =>
        apply List.count_eq_zero_of_not_mem
        intro member
        simp [called] at member
    | true =>
        rw [List.count_filter (p := fun c : Channel => d.queued.getLsbD c && d.quickDmaExec c) called, once]
        rfl
  · intro c
    rw [startQueuedDMA, bits c, decide_eq_true (all c), Bool.true_and]

/-! ## Single channels -/

theorem written_STR (reg : DMACh) (value : BitVec 32) : (written reg value).STR = value.getLsbD 8 := by
  unfold written
  dsimp only
  split
  · split <;> simp [DMACh.STR]
  · split <;> rfl

theorem forceStop_queued (c other : Channel) :
    (d.forceStop c).queued.getLsbD other = (d.queued.getLsbD other && decide (other ≠ c)) := by
  have low : (other : Nat) ≠ 10 ∧ (other : Nat) ≠ 11 := by omega
  unfold forceStop
  dsimp only
  rw [getLsbD_setQueued_channel]
  by_cases same : other = c
  · rw [if_pos same]
    simp [same]
  · have kept : (decide (other ≠ c)) = true := decide_eq_true same
    rw [if_neg same, kept, Bool.and_true]
    split
    · rw [getLsbD_setQueued (by decide), if_neg low.1]
      rfl
    · split
      · rw [getLsbD_setQueued (by decide), if_neg low.2]
        rfl
      · rfl

theorem forceStop_enabled (c : Channel) : (d.forceStop c).enabled = d.enabled := by
  unfold forceStop
  dsimp only
  split
  · rfl
  · split <;> rfl

theorem forceStop_STR (c other : Channel) :
    ((d.forceStop c).channels other).STR = ((d.channels other).STR && decide (other ≠ c)) := by
  have channels : (d.forceStop c).channels = Function.update d.channels c
      { d.channels c with chcr := (d.channels c).chcr &&& ~~~0x100 } := by
    unfold forceStop
    dsimp only
    split
    · rfl
    · split <;> rfl
  rw [channels]
  by_cases same : other = c
  · subst same
    rw [Function.update_self]
    simp [DMACh.STR]
  · rw [Function.update_of_ne same]
    simp [same]

theorem forceStop_registers (c : Channel) :
    (d.forceStop c).enabler = d.enabler ∧ (d.forceStop c).enablew = d.enablew := by
  unfold forceStop
  dsimp only
  split
  · exact ⟨rfl, rfl⟩
  · split <;> exact ⟨rfl, rfl⟩

end Dmac

/-! ## What holds in every state -/

structure Queues (s : System) : Prop where
  queued : ∀ c : Channel, s.dmac.queued.getLsbD c = s.waiting c
  active : ∀ c, s.waiting c → (s.dmac.channels c).STR
  disabled : ∀ c, s.waiting c → s.dmac.enabled = false
  shadow : s.dmac.enabler = s.dmac.enablew

/-- Each start that is due at a write that leaves the DMAC enabled is called once, and nothing else is. -/
def Prompt (s : System) (w : Write) : Prop :=
  ∀ c, (s.calls w).count c = if s.due w c && (dmacWrite32 s.dmac w).2.enabled then 1 else 0

/-- A write to `DMAC_ENABLEW` lifts the suspension, which did not have its first bit set, while a channel waits. -/
def Missed (s : System) : Write → Prop
  | .enablew value => value.extractLsb' 16 8 = 0 ∧ s.dmac.DMAE ∧ s.dmac.suspend.getLsbD 0 = false ∧ ∃ c, s.waiting c
  | _ => False

section

variable {s : System}

theorem due_self (c : Channel) (value : BitVec 32) : s.due (.chcr c value) c =
    ((!(s.dmac.channels c).STR && value.getLsbD 8) ||
      (s.waiting c && !((s.dmac.channels c).STR && !value.getLsbD 8))) := by
  unfold System.due System.starts System.stops
  dsimp only
  rw [beq_self_eq_true, Bool.true_and, Bool.true_and]

theorem due_other {c other : Channel} (different : c ≠ other) (value : BitVec 32) :
    s.due (.chcr c value) other = s.waiting other := by
  have differ : (c == other) = false := beq_eq_false_iff_ne.2 different
  unfold System.due System.starts System.stops
  dsimp only
  rw [differ, Bool.false_and, Bool.false_and, Bool.false_and, Bool.false_and, Bool.false_or, Bool.not_false, Bool.and_true]

theorem Queues.step_of {w : Write} (active : ∀ c, s.due w c → ((dmacWrite32 s.dmac w).2.channels c).STR)
    (queued : ∀ c : Channel, (dmacWrite32 s.dmac w).2.queued.getLsbD c =
      (s.due w c && !(dmacWrite32 s.dmac w).2.enabled))
    (shadow : (dmacWrite32 s.dmac w).2.enabler = (dmacWrite32 s.dmac w).2.enablew) : Queues (s.step (.write w)) where
  queued := queued
  active c waits := active c (Bool.and_eq_true_iff.1 waits).1
  disabled c waits := by
    have off := (Bool.and_eq_true_iff.1 waits).2
    rw [Bool.not_eq_true'] at off
    exact off
  shadow := shadow

variable (queues : Queues s)
include queues

theorem Queues.progress (c : Channel) (reg : DMACh) : Queues (s.step (.progress c reg)) := by
  unfold System.step
  dsimp only
  split
  · next running =>
      refine ⟨queues.queued, ?_, queues.disabled, queues.shadow⟩
      intro other waits
      have different : other ≠ c := by
        rintro rfl
        rw [waits] at running
        simp at running
      change (Function.update s.dmac.channels c reg other).STR
      rw [Function.update_of_ne different]
      exact queues.active other waits
  · exact queues

/-! ## Writes to CHCR -/

theorem Queues.not_waiting (c : Channel) (stopped : (s.dmac.channels c).STR = false) : s.waiting c = false := by
  cases waits : s.waiting c with
  | false => rfl
  | true => exact absurd (queues.active c waits) (by rw [stopped]; decide)

theorem Queues.again {c : Channel} {value : BitVec 32} (running : (s.dmac.channels c).STR) (set : value.getLsbD 8) :
    Prompt s (.chcr c value) ∧ Queues (s.step (.write (.chcr c value))) := by
  have result : dmacWrite32 s.dmac (.chcr c value) = ([], s.dmac) := by
    rw [dmacWrite32, Dmac.dmaExec, if_pos running, if_pos set]
  have due : ∀ other, s.due (.chcr c value) other = s.waiting other := by
    intro other
    by_cases same : c = other
    · subst same
      rw [due_self, running, set]
      simp
    · exact due_other same value
  constructor
  · intro other
    rw [System.calls, result, due]
    cases waits : s.waiting other with
    | false => rfl
    | true =>
        rw [queues.disabled other waits]
        rfl
  · apply Queues.step_of
    · intro other waits
      rw [due] at waits
      rw [result]
      exact queues.active other waits
    · intro other
      rw [result, due, queues.queued]
      cases waits : s.waiting other with
      | false => rfl
      | true =>
          rw [queues.disabled other waits]
          rfl
    · rw [result]
      exact queues.shadow

theorem Queues.stop {c : Channel} {value : BitVec 32} (running : (s.dmac.channels c).STR)
    (clear : value.getLsbD 8 = false) : Prompt s (.chcr c value) ∧ Queues (s.step (.write (.chcr c value))) := by
  have result : dmacWrite32 s.dmac (.chcr c value) = ([], s.dmac.forceStop c) := by
    rw [dmacWrite32, Dmac.dmaExec, if_pos running, clear]
    rfl
  have due : ∀ other, s.due (.chcr c value) other = (s.waiting other && decide (other ≠ c)) := by
    intro other
    by_cases same : c = other
    · subst same
      rw [due_self, running, clear]
      simp
    · rw [due_other same, decide_eq_true (Ne.symm same), Bool.and_true]
  have off : ∀ other, s.waiting other && decide (other ≠ c) → s.dmac.enabled = false :=
    fun other waits => queues.disabled other (Bool.and_eq_true_iff.1 waits).1
  constructor
  · intro other
    rw [System.calls, result, due, Dmac.forceStop_enabled]
    cases waits : s.waiting other && decide (other ≠ c) with
    | false => rfl
    | true =>
        rw [off other waits]
        rfl
  · apply Queues.step_of
    · intro other waits
      rw [due] at waits
      obtain ⟨waits, different⟩ := Bool.and_eq_true_iff.1 waits
      rw [result, Dmac.forceStop_STR, queues.active other waits, different]
      rfl
    · intro other
      rw [result, due, Dmac.forceStop_queued, Dmac.forceStop_enabled, queues.queued]
      cases waits : s.waiting other && decide (other ≠ c) with
      | false => rfl
      | true =>
          rw [off other waits]
          rfl
    · rw [result]
      obtain ⟨enabler, enablew⟩ := s.dmac.forceStop_registers c
      rw [enabler, enablew, queues.shadow]

theorem Queues.write {c : Channel} {value : BitVec 32} (stopped : (s.dmac.channels c).STR = false) :
    Prompt s (.chcr c value) ∧ Queues (s.step (.write (.chcr c value))) := by
  have idle := queues.not_waiting c stopped
  have due : s.due (.chcr c value) c = value.getLsbD 8 := by
    rw [due_self, stopped, idle]
    simp
  set d := s.dmac.setChannel c (Dmac.written (s.dmac.channels c) value) with written
  have starting : (Dmac.written (s.dmac.channels c) value).STR = value.getLsbD 8 := Dmac.written_STR ..
  have on : d.enabled = s.dmac.enabled := rfl
  have result : dmacWrite32 s.dmac (.chcr c value) =
      if value.getLsbD 8 && s.dmac.enabled then ([c], d) else if value.getLsbD 8 then ([], d.setQueued c true)
        else ([], d) := by
    rw [dmacWrite32, Dmac.dmaExec, stopped, if_neg (by decide)]
    dsimp only
    rw [starting, ← written, on]
  have after_enabled : (dmacWrite32 s.dmac (.chcr c value)).2.enabled = s.dmac.enabled := by
    rw [result]
    split
    · rfl
    · split <;> rfl
  have after_channels : (dmacWrite32 s.dmac (.chcr c value)).2.channels = d.channels := by
    rw [result]
    split
    · rfl
    · split <;> rfl
  constructor
  · intro other
    rw [after_enabled, System.calls, result]
    by_cases same : c = other
    · subst same
      rw [due]
      cases value.getLsbD 8 <;> cases s.dmac.enabled <;> simp
    · have none : (s.waiting other && s.dmac.enabled) = false := by
        cases waits : s.waiting other with
        | false => rfl
        | true => exact queues.disabled other waits
      rw [due_other same, none]
      have apart : List.count other [c] = 0 := List.count_eq_zero_of_not_mem (by simpa using Ne.symm same)
      split
      · rw [apart]
        rfl
      · split <;> rfl
  · apply Queues.step_of
    · intro other waits
      rw [after_channels, written]
      change (Function.update s.dmac.channels c _ other).STR
      by_cases same : c = other
      · subst same
        rw [Function.update_self, starting, ← due]
        exact waits
      · rw [due_other same] at waits
        rw [Function.update_of_ne (Ne.symm same)]
        exact queues.active other waits
    · intro other
      rw [after_enabled, result]
      have bit : d.queued.getLsbD other = s.waiting other := queues.queued other
      by_cases same : c = other
      · subst same
        rw [due]
        cases value.getLsbD 8 <;> cases s.dmac.enabled <;>
          simp [Dmac.getLsbD_setQueued_channel, bit, idle]
      · have kept : (s.waiting other && !s.dmac.enabled) = s.waiting other := by
          cases waits : s.waiting other with
          | false => rfl
          | true =>
              rw [queues.disabled other waits]
              rfl
        rw [due_other same, kept]
        split
        · exact bit
        · split
          · rw [Dmac.getLsbD_setQueued_channel, if_neg (Ne.symm same)]
            exact bit
          · exact bit
    · rw [result]
      split
      · exact queues.shadow
      · split <;> exact queues.shadow

/-! ## Writes that enable -/

theorem Queues.resume {w : Write} {d : Dmac} (due : ∀ c, s.due w c = s.waiting c) (channels : d.channels = s.dmac.channels)
    (queued : d.queued = s.dmac.queued) (shadow : d.enabler = d.enablew) (edge : Bool)
    (result : dmacWrite32 s.dmac w =
      if edge then if d.queued != 0 then d.startQueuedDMA else ([], d) else ([], d))
    (caught : edge = false → ∀ c, s.waiting c → d.enabled = false) :
    Prompt s w ∧ Queues (s.step (.write w)) := by
  obtain ⟨calls, started_channels, ctrl, enabler, enablew, bits⟩ := Dmac.startQueuedDMA_spec d
  have bit : ∀ c : Channel, d.queued.getLsbD c = s.waiting c := fun c => (congrArg (BitVec.getLsbD · c) queued).trans (queues.queued c)
  have called : ∀ c : Channel, (d.queued.getLsbD c && d.quickDmaExec c) = (s.waiting c && d.enabled) := by
    intro c
    rw [bit, Dmac.quickDmaExec, channels]
    cases waits : s.waiting c with
    | false => rfl
    | true =>
        rw [queues.active c waits]
        rfl
  have kept : ∀ c : Channel, (d.queued.getLsbD c && !d.quickDmaExec c) = (s.waiting c && !d.enabled) := by
    intro c
    rw [bit, Dmac.quickDmaExec, channels]
    cases waits : s.waiting c with
    | false => rfl
    | true =>
        rw [queues.active c waits]
        rfl
  -- the two ways out: the queue is gone through, or nothing can be called
  obtain after | ⟨after, none⟩ : dmacWrite32 s.dmac w = d.startQueuedDMA ∨
      dmacWrite32 s.dmac w = ([], d) ∧ ∀ c, s.waiting c → d.enabled = false := by
    rw [result]
    cases edge with
    | false => exact .inr ⟨rfl, caught rfl⟩
    | true =>
        by_cases empty : d.queued = 0
        · right
          refine ⟨by simp [empty], ?_⟩
          intro c waits
          rw [← bit c, empty] at waits
          simp at waits
        · have several : (d.queued != 0) = true := bne_iff_ne.2 empty
          left
          rw [if_pos rfl, if_pos several]
  · have enabled : (dmacWrite32 s.dmac w).2.enabled = d.enabled := by
      rw [after]
      unfold Dmac.enabled Dmac.DMAE Dmac.suspend
      rw [ctrl, enabler]
    constructor
    · intro c
      rw [enabled, System.calls, after, calls, called, due]
    · apply Queues.step_of
      · intro c waits
        rw [due] at waits
        rw [after, started_channels, channels]
        exact queues.active c waits
      · intro c
        rw [enabled, after, bits, kept, due]
      · rw [after, enabler, enablew, shadow]
  · constructor
    · intro c
      rw [System.calls, after, due]
      cases waits : s.waiting c with
      | false => rfl
      | true =>
          rw [none c waits]
          rfl
    · apply Queues.step_of
      · intro c waits
        rw [due] at waits
        rw [after, channels]
        exact queues.active c waits
      · intro c
        rw [after, due, bit]
        cases waits : s.waiting c with
        | false => rfl
        | true =>
            rw [none c waits]
            rfl
      · rw [after, shadow]

theorem Queues.writeCtrl (value : BitVec 32) : Prompt s (.ctrl value) ∧ Queues (s.step (.write (.ctrl value))) := by
  have due : ∀ c, s.due (.ctrl value) c = s.waiting c := fun c => Bool.and_true _
  apply queues.resume (d := { s.dmac with ctrl := value }) due rfl rfl queues.shadow
    (!s.dmac.ctrl.getLsbD 0 && value.getLsbD 0) rfl
  intro edge c waits
  have off := queues.disabled c waits
  unfold Dmac.enabled Dmac.DMAE Dmac.suspend at off ⊢
  dsimp only
  cases new : value.getLsbD 0 with
  | false => rfl
  | true =>
      -- DMAE was set before, so it is the suspension that holds the channel back
      rw [new, Bool.and_true, Bool.not_eq_false'] at edge
      rw [edge] at off
      exact off

theorem Queues.writeEnablew (value : BitVec 32) (caught : ¬ Missed s (.enablew value)) :
    Prompt s (.enablew value) ∧ Queues (s.step (.write (.enablew value))) := by
  have due : ∀ c, s.due (.enablew value) c = s.waiting c := fun c => Bool.and_true _
  apply queues.resume (d := { s.dmac with enablew := value, enabler := value }) due rfl rfl rfl
    ((s.dmac.enablew.extractLsb' 16 8).getLsbD 0 && !value.getLsbD 16) rfl
  intro edge c waits
  by_contra on
  rw [Bool.not_eq_false] at on
  obtain ⟨DMAE, lifted⟩ := Bool.and_eq_true_iff.1 on
  have zero : value.extractLsb' 16 8 = 0 := beq_iff_eq.1 lifted
  have bit : value.getLsbD 16 = false := by
    have same := congrArg (BitVec.getLsbD · 0) zero
    simpa using same
  rw [bit, Bool.not_false, Bool.and_true, ← queues.shadow] at edge
  exact caught ⟨zero, DMAE, edge, c, waits⟩

theorem Queues.prompt {w : Write} (caught : ¬ Missed s w) : Prompt s w ∧ Queues (s.step (.write w)) := by
  cases w with
  | chcr c value =>
      cases running : (s.dmac.channels c).STR with
      | false => exact queues.write running
      | true =>
          cases set : value.getLsbD 8 with
          | false => exact queues.stop running set
          | true => exact queues.again running set
  | ctrl value => exact queues.writeCtrl value
  | enablew value => exact queues.writeEnablew value caught

theorem Queues.late {w : Write} (missed : Missed s w) : ¬ Prompt s w := by
  cases w with
  | chcr c value => exact missed.elim
  | ctrl value => exact missed.elim
  | enablew value =>
      obtain ⟨zero, DMAE, old, c, waits⟩ := missed
      have edge : (s.dmac.enablew.extractLsb' 16 8).getLsbD 0 = false := queues.shadow ▸ old
      have result : dmacWrite32 s.dmac (.enablew value) = ([], { s.dmac with enablew := value, enabler := value }) := by
        unfold dmacWrite32
        dsimp only
        rw [edge]
        rfl
      have due : s.due (.enablew value) c = true := by
        unfold System.due System.starts System.stops
        rw [waits]
        rfl
      have on : (dmacWrite32 s.dmac (.enablew value)).2.enabled = true := by
        rw [result]
        exact Bool.and_eq_true_iff.2 ⟨DMAE, beq_iff_eq.2 zero⟩
      intro prompt
      have once := prompt c
      rw [System.calls, due, on, result] at once
      exact Nat.zero_ne_one once

end

/-! ## Whole runs -/

theorem Queues.init : Queues System.init where
  queued _ := by simp [System.init, reset]
  active _ waits := absurd waits Bool.false_ne_true
  disabled _ waits := absurd waits Bool.false_ne_true
  shadow := rfl

theorem run_concat (events : List Event) (event : Event) : run (events ++ [event]) = (run events).step event :=
  List.foldl_concat ..

theorem run_queues {events : List Event}
    (caught : ∀ before w after, events = before ++ .write w :: after → ¬ Missed (run before) w) : Queues (run events) := by
  induction events using List.reverseRecOn with
  | nil => exact Queues.init
  | append_singleton events event ih =>
      have queues := ih fun before w after split => caught before w (after ++ [event]) (by rw [split, List.append_assoc]; rfl)
      rw [run_concat]
      cases event with
      | write w => exact (queues.prompt (caught events w [] rfl)).2
      | progress c reg => exact queues.progress c reg

/-- In a run every start is called once, at the first write that leaves the DMAC enabled, if and only if no write to
`DMAC_ENABLEW` misses the edge. -/
theorem starts_prompt_iff (events : List Event) :
    (∀ before w after, events = before ++ .write w :: after → Prompt (run before) w) ↔
      ∀ before w after, events = before ++ .write w :: after → ¬ Missed (run before) w := by
  constructor
  · intro prompt before
    -- by induction on the length of what comes before: nothing earlier is missed, so the queue is right here
    induction length : before.length using Nat.strongRecOn generalizing before with
    | ind n ih =>
        intro w after split missed
        subst length
        have queues : Queues (run before) := by
          apply run_queues
          intro first w' middle earlier
          apply ih first.length _ first rfl w' (middle ++ .write w :: after)
          · rw [split, earlier, List.append_assoc, List.cons_append]
          · rw [earlier, List.length_append, List.length_cons]
            omega
        exact queues.late missed (prompt before w after split)
  · intro caught before w after split
    have queues : Queues (run before) := by
      apply run_queues
      intro first w' middle earlier
      apply caught first w' (middle ++ .write w :: after)
      rw [split, earlier, List.append_assoc, List.cons_append]
    exact (queues.prompt (caught before w after split)).1

/-- A channel is started while a bit next to the suspension is set; the write that clears it starts nothing. -/
theorem start_missed : ¬ ∀ events before w after, events = before ++ .write w :: after → Prompt (run before) w := by
  intro claim
  have once := claim [.write (.ctrl 1), .write (.enablew 0x21201), .write (.chcr 8 0x100), .write (.enablew 0x1201)]
    [.write (.ctrl 1), .write (.enablew 0x21201), .write (.chcr 8 0x100)] (.enablew 0x1201) [] rfl 8
  exact absurd once (by decide)

end Pcsx2.Dma
