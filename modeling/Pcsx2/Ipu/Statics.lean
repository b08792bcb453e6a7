import Pcsx2.Foundation.Triple
import Pcsx2.Ipu.Worker

/-!
# Statics of the decoder

Two processes that differ in statics that are not live, because they are written before they are read, go on in the
same way.
-/

namespace Pcsx2.Ipu
open Foundation

/-! ## Statics that are live -/

structure Place where
  CMD : Nat
  pos0 : Nat
  pos1 : Nat

def IpuCmd.place (cmd : IpuCmd) : Place := ⟨cmd.CMD, cmd.pos0, cmd.pos1⟩

/-- Where each of the statics is live. The entry of the table is live between a code and its value, and elsewhere when
it is `held`. -/
structure Live where
  held : Prop
  mba : Place → Prop
  idec : Place → Prop
  bdec : Place → Prop

structure Alike (live : Live) (p q : Process) : Prop where
  core : p.core = q.core
  cmd : p.cmd = q.cmd
  tab : live.held ∨ p.cmd.pos5 ≠ 0 → p.tab = q.tab
  mba : live.mba p.cmd.place → p.mbaCount = q.mbaCount
  idec : live.idec p.cmd.place → p.readyIDEC = q.readyIDEC
  bdec : live.bdec p.cmd.place → p.readyBDEC = q.readyBDEC

def Live.holding (live : Live) : Live := { live with held := True }

/-- What is live behind an update from `cmd` to `cmd'` is live in front of it. -/
structure Live.Covers (live : Live) (cmd : IpuCmd) (live' : Live) (cmd' : IpuCmd) : Prop where
  tab : live'.held ∨ cmd'.pos5 ≠ 0 → live.held ∨ cmd.pos5 ≠ 0
  mba : live'.mba cmd'.place → live.mba cmd.place
  idec : live'.idec cmd'.place → live.idec cmd.place
  bdec : live'.bdec cmd'.place → live.bdec cmd.place

variable {live live' : Live} {p q : Process} {α β : Type}

theorem Alike.weaken (alike : Alike live p q) (covers : live.Covers p.cmd live' p.cmd) : Alike live' p q where
  core := alike.core
  cmd := alike.cmd
  tab := alike.tab ∘ covers.tab
  mba := alike.mba ∘ covers.mba
  idec := alike.idec ∘ covers.idec
  bdec := alike.bdec ∘ covers.bdec

section Rules

variable {f : α → IpuM β} {T : β → Process → Process → Prop}

theorem onCore_alike {m : StateM Core α} : Lockstep (onCore m) (Alike live) fun _ => Alike live := by
  intro p q alike
  simp only [onCore, ← alike.core]
  exact .some ⟨rfl, rfl, alike.cmd, alike.tab, alike.mba, alike.idec, alike.bdec⟩

theorem modifyCmd_alike {update : IpuCmd → IpuCmd} (covers : ∀ cmd, live.Covers cmd live' (update cmd)) :
    Lockstep (modifyCmd update) (Alike live) fun _ => Alike live' := by
  intro p q alike
  obtain ⟨tab, mba, idec, bdec⟩ := covers p.cmd
  exact .some ⟨rfl, alike.core, congrArg update alike.cmd, alike.tab ∘ tab, alike.mba ∘ mba, alike.idec ∘ idec,
    alike.bdec ∘ bdec⟩

variable (live') in
theorem onProgress_alike {m : CommandM α}
    (covers : ∀ cmd progress, live.Covers cmd live' { cmd with toProgress := progress }) :
    Lockstep (onProgress m) (Alike live) fun _ => Alike live' := by
  intro p q alike
  simp only [onProgress, ← alike.core, ← alike.cmd]
  obtain ⟨tab, mba, idec, bdec⟩ := covers p.cmd (m (p.core, p.cmd.toProgress)).2.2
  exact .some ⟨rfl, rfl, rfl, alike.tab ∘ tab, alike.mba ∘ mba, alike.idec ∘ idec, alike.bdec ∘ bdec⟩

theorem noDefault_alike {R : Process → Process → Prop} {Q : α → Process → Process → Prop} :
    Lockstep noDefault R Q :=
  fun _ _ _ => .none

theorem onCore_bind {m : StateM Core α} (rest : ∀ a, Lockstep (f a) (Alike live) T) :
    Lockstep (onCore m >>= f) (Alike live) T :=
  onCore_alike.bind rest

variable (live') in
theorem modifyCmd_bind {g : PUnit → IpuM β} {update : IpuCmd → IpuCmd}
    (covers : ∀ cmd, live.Covers cmd live' (update cmd)) (rest : Lockstep (g ⟨⟩) (Alike live') T) :
    Lockstep (modifyCmd update >>= g) (Alike live) T :=
  (modifyCmd_alike covers).bind fun _ => rest

theorem readCmd_bind {g : IpuCmd → IpuM β}
    (rest : ∀ cmd, Lockstep (g cmd) (fun p q => Alike live p q ∧ p.cmd = cmd) T) :
    Lockstep (readCmd >>= g) (Alike live) T := by
  have read : Lockstep readCmd (Alike live) fun cmd p q => Alike live p q ∧ p.cmd = cmd :=
    fun _ _ alike => .some ⟨alike.cmd, alike, rfl⟩
  exact read.bind rest

variable (live') in
theorem known_weaken {m : IpuM α} {cmd : IpuCmd} {Q : α → Process → Process → Prop}
    (covers : live.Covers cmd live' cmd) (lockstep : Lockstep m (Alike live') Q) :
    Lockstep m (fun p q => Alike live p q ∧ p.cmd = cmd) Q := by
  apply lockstep.before
  rintro p q ⟨alike, rfl⟩
  exact alike.weaken covers

theorem writeIDEC_bind {ready : Bool} {g : PUnit → IpuM β}
    (rest : Lockstep (g ⟨⟩) (Alike { live with idec := fun _ => True }) T) :
    Lockstep (modify (fun p => { p with readyIDEC := ready }) >>= g) (Alike live) T :=
  (Lockstep.modify fun _ _ alike =>
    ⟨alike.core, alike.cmd, alike.tab, alike.mba, fun _ => rfl, alike.bdec⟩).bind fun _ => rest

theorem writeBDEC_bind {ready : Bool} {g : PUnit → IpuM β}
    (rest : Lockstep (g ⟨⟩) (Alike { live with bdec := fun _ => True }) T) :
    Lockstep (modify (fun p => { p with readyBDEC := ready }) >>= g) (Alike live) T :=
  (Lockstep.modify fun _ _ alike =>
    ⟨alike.core, alike.cmd, alike.tab, alike.mba, alike.idec, fun _ => rfl⟩).bind fun _ => rest

theorem writeMba_bind {g : PUnit → IpuM β} (rest : Lockstep (g ⟨⟩) (Alike { live with mba := fun _ => True }) T) :
    Lockstep (modify (fun p => { p with mbaCount := 0 }) >>= g) (Alike live) T :=
  (Lockstep.modify fun _ _ alike =>
    ⟨alike.core, alike.cmd, alike.tab, fun _ => rfl, alike.idec, alike.bdec⟩).bind fun _ => rest

theorem countMba_bind {count : Nat} {g : PUnit → IpuM β} (always : ∀ place, live.mba place)
    (rest : Lockstep (g ⟨⟩) (Alike live) T) :
    Lockstep (modify (fun p => { p with mbaCount := p.mbaCount + count }) >>= g) (Alike live) T :=
  (Lockstep.modify fun _ _ alike =>
    ⟨alike.core, alike.cmd, alike.tab, fun _ => congrArg (· + count) (alike.mba (always _)), alike.idec,
      alike.bdec⟩).bind fun _ => rest

end Rules

/-! ## Blocks -/

/-- What is live behind `fetch`. -/
def Live.after (live : Live) : Fetched → Live
  | .coefficient _ => live.holding
  | _ => live

theorem fetch_alike {lookup : Decoder → Nat → Option DCTtab} {pos4 i : Nat} :
    Lockstep (fetch lookup pos4 i) (Alike live) fun fetched => Alike (live.after fetched) := by
  unfold fetch
  refine onCore_bind fun enough => ?_
  refine .ite (fun _ => ?_) fun _ => ?_
  · exact modifyCmd_bind _ (fun _ => ⟨id, id, id, id⟩) (.pure fun _ _ alike => alike)
  · refine onCore_bind fun decoder => ?_
    refine onCore_bind fun code => ?_
    split
    · exact .pure fun _ _ alike => alike
    · rename_i tab _
      have write : Lockstep (modify fun p => { p with tab := some tab } : IpuM Unit) (Alike live)
          fun _ => Alike live.holding :=
        .modify fun p q alike => ⟨alike.core, alike.cmd, fun _ => rfl, alike.mba, alike.idec, alike.bdec⟩
      have drop : ∀ p q, Alike live.holding p q → Alike live p q :=
        fun p q alike => alike.weaken ⟨fun _ => .inl trivial, id, id, id⟩
      refine write.bind fun _ => onCore_bind fun _ => ?_
      refine .ite (fun _ => .pure drop) fun _ => ?_
      have done : ∀ run, Lockstep
          (pure (if 64 ≤ i + run then Fetched.finished (i + run) else .coefficient (i + run)) : IpuM Fetched)
          (Alike live.holding) fun fetched => Alike (live.after fetched) := by
        intro run
        refine .pure fun p q alike => ?_
        split
        · exact drop p q alike
        · exact alike
      refine .ite (fun _ => onCore_bind done) fun _ => done tab.run

theorem store_alike {value : DCTtab → Nat → StateM Core Int} {pos4 i : Nat} :
    Lockstep (store value pos4 i) (Alike live.holding) fun _ => Alike live := by
  unfold store
  refine onCore_bind fun enough => ?_
  refine .ite (fun _ => ?_) fun _ => ?_
  · exact modifyCmd_bind live (fun _ => ⟨fun _ => .inl trivial, id, id, id⟩) (.pure fun _ _ alike => alike)
  · refine (Lockstep.read fun p q alike => alike.tab (.inl trivial)).bind fun tab => ?_
    cases tab with
    | none => exact noDefault_alike
    | some tab =>
      refine Lockstep.before ?_ fun p q known => known.1
      refine onCore_bind fun val => onCore_bind fun _ => ?_
      exact modifyCmd_bind live (fun _ => ⟨fun _ => .inl trivial, id, id, id⟩)
        (.pure fun _ _ alike => alike)

theorem blockLoop_alike {lookup : Nat → Decoder → Nat → Option DCTtab} {value : DCTtab → Nat → StateM Core Int}
    {suspendAt : Nat → Nat} (rounds i : Nat) :
    Lockstep (blockLoop lookup value suspendAt rounds i) (Alike live) fun _ => Alike live := by
  induction rounds generalizing i with
  | zero => exact .pure fun _ _ alike => alike
  | succ rounds ih =>
    unfold blockLoop
    refine readCmd_bind fun cmd => ?_
    have next : Lockstep (if cmd.pos5 = 0 then fetch (lookup i) (suspendAt i) i else pure (.coefficient i))
        (fun p q => Alike live p q ∧ p.cmd = cmd) fun fetched => Alike (live.after fetched) := by
      refine .ite (fun _ => fetch_alike.before fun p q known => known.1) fun between => ?_
      exact known_weaken live.holding ⟨fun _ => .inr between, id, id, id⟩ (.pure fun _ _ alike => alike)
    refine .join next fun fetched => ?_
    cases fetched with
    | suspended => exact .pure fun _ _ alike => alike
    | finished last => exact modifyCmd_bind _ (fun _ => ⟨id, id, id, id⟩) (.pure fun _ _ alike => alike)
    | coefficient i =>
      refine store_alike.bind fun stored => ?_
      exact .ite (fun _ => ih (i + 1)) fun _ => .pure fun _ _ alike => alike

theorem get_intra_block_alike : Lockstep get_intra_block (Alike live) fun _ => Alike live := by
  unfold get_intra_block
  exact readCmd_bind fun cmd => (blockLoop_alike _ _).before fun _ _ known => known.1

theorem get_non_intra_block_alike : Lockstep get_non_intra_block (Alike live) fun _ => Alike live := by
  unfold get_non_intra_block
  exact readCmd_bind fun cmd => (blockLoop_alike _ _).before fun _ _ known => known.1

theorem intraDC_alike {cc : Fin 3} {skip : Bool} : Lockstep (intraDC cc skip) (Alike live) fun _ => Alike live := by
  unfold intraDC
  refine readCmd_bind fun cmd => ?_
  refine Lockstep.before ?_ fun p q known => known.1
  refine .ite (fun _ => ?_) fun _ => .pure fun _ _ alike => alike
  refine modifyCmd_bind live (fun _ => ⟨id, id, id, id⟩) (onCore_bind fun enough => ?_)
  refine .ite (fun _ => ?_) fun _ => onCore_bind fun _ => .pure fun _ _ alike => alike
  exact modifyCmd_bind _ (fun _ => ⟨id, id, id, id⟩) (.pure fun _ _ alike => alike)

theorem slice_intra_DCT_alike {kernels : Kernels} {block : Block} {skip : Bool} :
    Lockstep (slice_intra_DCT kernels block skip) (Alike live) fun _ => Alike live := by
  unfold slice_intra_DCT
  refine intraDC_alike.bind fun ready => ?_
  refine .ite (fun _ => .pure fun _ _ alike => alike) fun _ => ?_
  refine get_intra_block_alike.bind fun last => ?_
  cases last with
  | none => exact .pure fun _ _ alike => alike
  | some last => exact onCore_bind fun _ => .pure fun _ _ alike => alike

theorem slice_non_intra_DCT_alike {kernels : Kernels} {block : Block} {skip : Bool} :
    Lockstep (slice_non_intra_DCT kernels block skip) (Alike live) fun _ => Alike live := by
  unfold slice_non_intra_DCT
  refine onCore_bind fun _ => get_non_intra_block_alike.bind fun last => ?_
  cases last with
  | none => exact .pure fun _ _ alike => alike
  | some last => exact onCore_bind fun _ => .pure fun _ _ alike => alike

theorem blocksFrom_alike {slice : Block → Bool → IpuM Bool} {suspend : Nat → IpuCmd → IpuCmd} {entry : Nat}
    (sliced : ∀ block skip, Lockstep (slice block skip) (Alike live) fun _ => Alike live)
    (suspended : ∀ number cmd, live.Covers cmd live (suspend number cmd)) (blocks : List Block) :
    Lockstep (blocksFrom slice suspend entry blocks) (Alike live) fun _ => Alike live := by
  induction blocks with
  | nil => exact .pure fun _ _ alike => alike
  | cons block rest ih =>
    unfold blocksFrom
    refine .ite (fun _ => ih) fun _ => ?_
    refine (sliced block _).bind fun decoded => ?_
    refine .ite (fun _ => ih) fun _ => ?_
    exact modifyCmd_bind _ (suspended block.number) (.pure fun _ _ alike => alike)

end Pcsx2.Ipu
