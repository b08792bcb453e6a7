import Mathlib.Algebra.Order.Ring.Nat
import Mathlib.Logic.Function.Basic
import Pcsx2.Foundation.Run

/-!
# The row and column registers of a VIF unit

`STROW` and `STCOL`, which load them from the stream, and the EE's writes to them.
-/

namespace Pcsx2.Vif

scoped instance neZeroLanes : NeZero 4 := ⟨Nat.succ_ne_zero 3⟩

/-- The template parameter `idx`. -/
inductive Idx where
  | vif0
  | vif1
  deriving DecidableEq

/-- `MaskRow` or `MaskCol`. -/
inductive MaskReg where
  | row
  | col
  deriving DecidableEq

/-- A `u128` by its `_u32` elements. -/
abbrev Mask := Fin 4 → UInt32

abbrev Data := Nat → UInt32

/-- The `addr` and `size` of a `vifCode` tag. -/
structure Tag where
  addr : Nat
  size : Nat
  deriving DecidableEq

structure VifStruct where
  mask : MaskReg → Mask
  tag : Tag
  cmd : Nat
  pass : Nat
  vifpacketsize : Nat

/-- A packet for the MTVU thread: `WriteRow` and `WriteCol` send the whole register. -/
structure MaskWrite where
  reg : MaskReg
  value : Mask

def VifStruct.writeRow (vif : VifStruct) : MaskWrite := ⟨.row, vif.mask .row⟩

def VifStruct.writeCol (vif : VifStruct) : MaskWrite := ⟨.col, vif.mask .col⟩

/-- `vu1Thread.WriteRow` or `vu1Thread.WriteCol`. -/
def VifStruct.write (vif : VifStruct) : MaskReg → MaskWrite
  | .row => vif.writeRow
  | .col => vif.writeCol

@[simp] theorem write_reg (vif : VifStruct) (reg : MaskReg) : (vif.write reg).reg = reg := by
  cases reg <;> rfl

@[simp] theorem write_value (vif : VifStruct) (reg : MaskReg) :
    (vif.write reg).value = vif.mask reg := by
  cases reg <;> rfl

/-- The start of an iteration of `vifTransferLoop`: a new code is taken if none is in progress. -/
def VifStruct.fetch (vif : VifStruct) (data : Data) : VifStruct :=
  if vif.cmd = 0 then { vif with cmd := (data 0).toNat >>> 24 } else vif

/-- `_vifCode_STColRow`: its `ret` and the words stored from `pmem2` on. -/
def vifCodeSTColRow (vif : VifStruct) (reg : MaskReg) (data : Data) : VifStruct × Nat :=
  let ret := min (4 - vif.tag.addr) vif.vifpacketsize
  let mask : Mask := fun i =>
    if vif.tag.addr ≤ i ∧ i < vif.tag.addr + ret then data (i - vif.tag.addr) else vif.mask reg i
  let vif := { vif with
    mask := Function.update vif.mask reg mask
    tag := ⟨vif.tag.addr + ret, vif.tag.size - ret⟩ }
  if vif.tag.size = 0 then ({ vif with pass := 0, cmd := 0 }, ret) else (vif, ret)

structure Handled where
  vif : VifStruct
  ret : Nat
  sent : Option MaskWrite

/-- `vifCode_STRow` and `vifCode_STCol`; their last pass only logs. -/
def vifCodeSTMaskReg (reg : MaskReg) (idx : Idx) (vif : VifStruct) (data : Data) : Handled :=
  match vif.pass with
  | 0 => ⟨{ vif with tag := ⟨0, 4⟩, pass := 1 }, 1, none⟩
  | _ =>
    let (vif, ret) := vifCodeSTColRow vif reg data
    ⟨vif, ret, if idx = .vif1 ∧ vif.tag.size = 0 then some (vif.write reg) else none⟩

def vifCodeSTRow : Idx → VifStruct → Data → Handled := vifCodeSTMaskReg .row

def vifCodeSTCol : Idx → VifStruct → Data → Handled := vifCodeSTMaskReg .col

/-- `vifWrite32` at `ROW0` to `ROW3` and at `COL0` to `COL3`, for either unit. -/
def vifWrite32 (vif : VifStruct) (reg : MaskReg) (n : Fin 4) (value : UInt32) :
    VifStruct × MaskWrite :=
  let vif := { vif with mask := Function.update vif.mask reg (Function.update (vif.mask reg) n value) }
  (vif, vif.write reg)

end Pcsx2.Vif

/-!
# Who owns the row and column registers of the MTVU thread

Both units and the EE's register writes share the queue to the MTVU thread. Only VIF1's unpacks use
the registers at its other end.
-/

namespace Pcsx2.Vif
open Foundation

/-! ## The units, the queue and the MTVU thread -/

structure System where
  unit : Idx → VifStruct
  queue : List MaskWrite
  /-- `MaskRow` and `MaskCol` of `vu1Thread.vif`. -/
  mtvu : MaskReg → Mask

def VifStruct.reset : VifStruct :=
  { mask := fun _ _ => 0, tag := ⟨0, 0⟩, cmd := 0, pass := 0, vifpacketsize := 0 }

def System.initial : System :=
  { unit := fun _ => .reset, queue := [], mtvu := fun _ _ => 0 }

def MaskReg.code : MaskReg → Nat
  | .row => 0x30
  | .col => 0x31

inductive Event where
  | code (idx : Idx) (reg : MaskReg) (data : Data) (size : Nat)
  | write (idx : Idx) (reg : MaskReg) (n : Fin 4) (value : UInt32)
  /-- The MTVU thread takes a packet. -/
  | execute

/-- An iteration of `vifTransferLoop` at `STROW` or `STCOL`, with `size` words at `data`. -/
def VifStruct.iterate (vif : VifStruct) (idx : Idx) (reg : MaskReg) (data : Data) (size : Nat) :
    Handled :=
  vifCodeSTMaskReg reg idx { vif.fetch data with vifpacketsize := size } data

inductive Step : Event → System → System → Prop
  | code {s idx reg data size} (more : 0 < size)
      (selected : ((s.unit idx).fetch data).cmd &&& 0x7f = reg.code) :
      Step (.code idx reg data size) s { s with
        unit := Function.update s.unit idx ((s.unit idx).iterate idx reg data size).vif
        queue := s.queue ++ ((s.unit idx).iterate idx reg data size).sent.toList }
  | write {s idx reg n value} :
      Step (.write idx reg n value) s { s with
        unit := Function.update s.unit idx (vifWrite32 (s.unit idx) reg n value).1
        queue := s.queue ++ [(vifWrite32 (s.unit idx) reg n value).2] }
  | execute {s packet rest} (pending : s.queue = packet :: rest) :
      Step .execute s { s with
        queue := rest
        mtvu := Function.update s.mtvu packet.reg packet.value }

def VifStruct.Loading (vif : VifStruct) (reg : MaskReg) : Prop :=
  vif.pass = 1 ∧ vif.cmd &&& 0x7f = reg.code

/-- Once the queue is drained, the MTVU thread has VIF1's registers, those apart that VIF1 has not
finished to load. -/
def Owned (s : System) : Prop :=
  ∀ t, Run (Step .execute) s t → t.queue = [] →
    ∀ reg, ¬(t.unit .vif1).Loading reg → t.mtvu reg = (t.unit .vif1).mask reg

/-- A VIF0 register write is harmless when it sends what VIF1 has, or what VIF1 will send over. -/
def Harmless (s : System) : Event → Prop
  | .write .vif0 reg n value =>
      (s.unit .vif1).Loading reg ∨
      Function.update ((s.unit .vif0).mask reg) n value = (s.unit .vif1).mask reg
  | _ => True

def HarmlessStep (s t : System) : Prop := ∃ event, Harmless s event ∧ Step event s t

/-! ## Draining the queue -/

def System.drained (s : System) : MaskReg → Mask :=
  s.queue.foldl (fun mtvu packet => Function.update mtvu packet.reg packet.value) s.mtvu

theorem drained_snoc (s : System) (unit : Idx → VifStruct) (packet : MaskWrite) :
    System.drained { s with unit, queue := s.queue ++ [packet] } =
      Function.update s.drained packet.reg packet.value := by
  simp [System.drained]

variable {s t : System}

theorem execute_drained (step : Step .execute s t) :
    t.drained = s.drained ∧ t.unit = s.unit := by
  cases step with
  | execute pending => simp [System.drained, pending]

theorem drain_run (s : System) :
    Run (Step .execute) s { s with queue := [], mtvu := s.drained } := by
  obtain ⟨unit, queue, mtvu⟩ := s
  induction queue generalizing mtvu with
  | nil => exact .refl
  | cons packet rest ih => exact .head (.execute rfl) (ih _)

theorem owned_iff {s : System} :
    Owned s ↔ ∀ reg, ¬(s.unit .vif1).Loading reg → s.drained reg = (s.unit .vif1).mask reg := by
  constructor
  · exact fun owned => owned _ (drain_run s) rfl
  · intro settled t run empty
    obtain ⟨drained, unit⟩ := run.invariant (I := fun t => t.drained = s.drained ∧ t.unit = s.unit)
      ⟨rfl, rfl⟩ fun _ _ same step =>
        ⟨(execute_drained step).1.trans same.1, (execute_drained step).2.trans same.2⟩
    rw [unit]
    rw [← drained, System.drained, empty] at settled
    exact settled

/-! ## The handlers -/

theorem code_injective {first second : MaskReg} (same : first.code = second.code) :
    first = second := by
  cases first <;> cases second <;> first | rfl | cases same

def VifStruct.Ready (vif : VifStruct) : Prop :=
  vif.pass = 0 ∧ vif.cmd = 0 ∨ vif.pass = 1 ∧ vif.cmd ≠ 0

section

variable {vif : VifStruct} {idx : Idx} {reg : MaskReg} {data : Data} {size : Nat}

theorem loading_unique {other : MaskReg} (loading : vif.Loading other)
    (selected : vif.cmd &&& 0x7f = reg.code) : other = reg :=
  code_injective (loading.2.symm.trans selected)

theorem selected_ne_zero {cmd : Nat} (selected : cmd &&& 0x7f = reg.code) : cmd ≠ 0 := by
  rintro rfl
  cases reg <;> cases selected

/-- The iteration's effect: only the selected register is stored to, and it is sent to the MTVU
thread by VIF1, at the end of its code. -/
theorem iterate_spec (idx : Idx) (size : Nat) (ready : vif.Ready) (selected : (vif.fetch data).cmd &&& 0x7f = reg.code) :
    (vif.iterate idx reg data size).vif.Ready ∧
    (∀ other, other ≠ reg → ¬vif.Loading other ∧
      (vif.iterate idx reg data size).vif.mask other = vif.mask other) ∧
    ((vif.iterate idx reg data size).sent = none ∧
        (idx = .vif1 → (vif.iterate idx reg data size).vif.Loading reg) ∨
      idx = .vif1 ∧ (vif.iterate idx reg data size).sent =
        some ((vif.iterate idx reg data size).vif.write reg)) := by
  have nonzero := selected_ne_zero selected
  rcases ready with ⟨pass, cmd⟩ | ⟨pass, cmd⟩
  · -- A new code: the register is not touched yet.
    have started : vif.iterate idx reg data size =
        ⟨{ vif.fetch data with vifpacketsize := size, tag := ⟨0, 4⟩, pass := 1 }, 1, none⟩ := by
      simp [VifStruct.iterate, vifCodeSTMaskReg, VifStruct.fetch, cmd, pass]
    rw [started]
    refine ⟨.inr ⟨rfl, nonzero⟩, fun other _ => ⟨fun loading => ?_, ?_⟩, .inl ⟨rfl, fun _ => ⟨rfl, selected⟩⟩⟩
    · exact absurd (pass.symm.trans loading.1) (by decide)
    · simp [VifStruct.fetch, cmd]
  · have fetched : vif.fetch data = vif := if_neg cmd
    rw [fetched] at selected
    have unique (other : MaskReg) (ne : other ≠ reg) : ¬vif.Loading other := fun loading =>
      ne (loading_unique loading selected)
    simp only [VifStruct.iterate, fetched, vifCodeSTMaskReg, pass, vifCodeSTColRow]
    split
    · rename_i complete
      refine ⟨.inl ⟨rfl, rfl⟩, fun other ne => ⟨unique other ne, Function.update_of_ne ne _ _⟩, ?_⟩
      cases idx with
      | vif0 => exact .inl ⟨rfl, fun absurd => nomatch absurd⟩
      | vif1 => exact .inr ⟨rfl, if_pos ⟨rfl, complete⟩⟩
    · rename_i incomplete
      exact ⟨.inr ⟨rfl, cmd⟩, fun other ne => ⟨unique other ne, Function.update_of_ne ne _ _⟩,
        .inl ⟨if_neg fun both => incomplete both.2, fun _ => ⟨rfl, selected⟩⟩⟩

end

/-! ## Steps -/

def Settled (vif : VifStruct) (drained : MaskReg → Mask) : Prop :=
  ∀ reg, vif.Loading reg ∨ drained reg = vif.mask reg

structure Inv (s : System) : Prop where
  ready : ∀ idx, (s.unit idx).Ready
  settled : Settled (s.unit .vif1) s.drained

theorem inv_initial : Inv .initial where
  ready := fun _ => .inl ⟨rfl, rfl⟩
  settled := fun _ => .inr rfl

theorem Inv.owned {s : System} (inv : Inv s) : Owned s :=
  owned_iff.2 fun reg idle => (inv.settled reg).resolve_left idle

theorem ready_update {unit : Idx → VifStruct} (ready : ∀ idx, (unit idx).Ready) {idx : Idx}
    {vif : VifStruct} (own : vif.Ready) (other : Idx) :
    (Function.update unit idx vif other).Ready := by
  by_cases same : other = idx
  · rw [same, Function.update_self]
    exact own
  · rw [Function.update_of_ne same]
    exact ready other

theorem settled_sent {vif : VifStruct} {drained : MaskReg → Mask} {reg : MaskReg} {value : Mask}
    (sent : vif.Loading reg ∨ value = vif.mask reg)
    (settled : ∀ other, other ≠ reg → vif.Loading other ∨ drained other = vif.mask other) :
    Settled vif (Function.update drained reg value) := by
  intro other
  by_cases same : other = reg
  · rw [same, Function.update_self]
    exact sent
  · rw [Function.update_of_ne same]
    exact settled other same

theorem inv_code {s : System} {idx : Idx} {reg : MaskReg} {data : Data} {size : Nat} (inv : Inv s)
    (selected : ((s.unit idx).fetch data).cmd &&& 0x7f = reg.code) :
    Inv { s with
      unit := Function.update s.unit idx ((s.unit idx).iterate idx reg data size).vif
      queue := s.queue ++ ((s.unit idx).iterate idx reg data size).sent.toList } := by
  obtain ⟨ready, others, sent⟩ := iterate_spec idx size (inv.ready idx) selected
  refine ⟨ready_update inv.ready ready, ?_⟩
  cases idx with
  | vif0 =>
      obtain ⟨none, -⟩ | ⟨absurd, -⟩ := sent
      · simp only [none, Option.toList_none, List.append_nil]
        rw [Function.update_of_ne (by decide)]
        exact inv.settled
      · cases absurd
  | vif1 =>
      have apart (other : MaskReg) (ne : other ≠ reg) : s.drained other =
          ((s.unit .vif1).iterate .vif1 reg data size).vif.mask other :=
        ((inv.settled other).resolve_left (others other ne).1).trans (others other ne).2.symm
      simp only [Function.update_self]
      obtain ⟨none, loading⟩ | ⟨-, sent⟩ := sent
      · intro other
        rw [none, Option.toList_none, List.append_nil]
        by_cases same : other = reg
        · exact .inl (same ▸ loading rfl)
        · exact .inr (apart other same)
      · rw [sent, Option.toList_some, drained_snoc, write_reg, write_value]
        exact settled_sent (.inr rfl) fun other ne => .inr (apart other ne)

theorem write_drained {idx : Idx} {reg : MaskReg} {n : Fin 4} {value : UInt32}
    (step : Step (.write idx reg n value) s t) :
    t.unit = Function.update s.unit idx (vifWrite32 (s.unit idx) reg n value).1 ∧
    t.drained = Function.update s.drained reg
      (Function.update ((s.unit idx).mask reg) n value) := by
  cases step with
  | write =>
      refine ⟨rfl, ?_⟩
      rw [drained_snoc]
      simp [vifWrite32]

theorem inv_write {idx : Idx} {reg : MaskReg} {n : Fin 4} {value : UInt32}
    (inv : Inv s) (harmless : Harmless s (.write idx reg n value))
    (step : Step (.write idx reg n value) s t) : Inv t := by
  obtain ⟨unit, drained⟩ := write_drained step
  constructor
  · rw [unit]
    exact ready_update inv.ready (inv.ready idx)
  · rw [unit, drained]
    cases idx with
    | vif0 => exact settled_sent harmless fun other _ => inv.settled other
    | vif1 =>
        rw [Function.update_self]
        refine settled_sent (.inr (by simp [vifWrite32])) fun other ne => ?_
        exact (inv.settled other).imp_right fun settled =>
          settled.trans (Function.update_of_ne ne _ _).symm

theorem inv_step {event : Event} (inv : Inv s) (harmless : Harmless s event)
    (step : Step event s t) : Inv t := by
  cases event with
  | code idx reg data size =>
      cases step with
      | code more selected => exact inv_code inv selected
  | write idx reg n value => exact inv_write inv harmless step
  | execute =>
      obtain ⟨drained, unit⟩ := execute_drained step
      exact ⟨unit ▸ inv.ready, unit ▸ drained ▸ inv.settled⟩

theorem harmless_of_owned {event : Event} (owned : Owned t)
    (step : Step event s t) : Harmless s event := by
  cases event with
  | code | execute => trivial
  | write idx reg n value =>
      cases idx with
      | vif1 => trivial
      | vif0 =>
          obtain ⟨unit, drained⟩ := write_drained step
          have settled := owned_iff.1 owned reg
          rw [unit, drained, Function.update_of_ne (by decide), Function.update_self] at settled
          exact or_iff_not_imp_left.2 settled

/-- The MTVU thread has VIF1's registers as long as VIF0's register writes are harmless, and no
longer. -/
theorem ownership_iff (s : System) (run : Run HarmlessStep .initial s) :
    Owned s ∧ ∀ event t, Step event s t → (Owned t ↔ Harmless s event) := by
  have inv : Inv s := run.invariant inv_initial fun _ _ inv ⟨_, harmless, step⟩ =>
    inv_step inv harmless step
  exact ⟨inv.owned, fun event t step =>
    ⟨fun owned => harmless_of_owned owned step, fun harmless => (inv_step inv harmless step).owned⟩⟩

theorem ownership_iff_after_write : ∃ s, s.queue ≠ [] ∧ Owned s ∧
    ∀ event t, Step event s t → (Owned t ↔ Harmless s event) :=
  ⟨_, by simp, ownership_iff _ (.single ⟨.write .vif1 .row 0 1, trivial, .write⟩)⟩

/-- A write to VIF0's `ROW0` changes the row that VIF1's unpacks use. -/
theorem ownership_lost : ¬∀ s, Run (fun s t => ∃ event, Step event s t) .initial s → Owned s := by
  intro owned
  have settled := owned_iff.1 (owned _ (.single ⟨.write .vif0 .row 0 1, .write⟩)) .row
    fun loading => absurd loading.1 (by decide)
  exact absurd (congrFun settled 0) (by decide)

end Pcsx2.Vif
