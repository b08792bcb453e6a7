import Mathlib
import Pcsx2.GsTransfer.Saving

/-!
# Savestates of the GS

What `Freeze` writes and `Defrost` reads, one value after the other.
-/

namespace Pcsx2.GsTransfer
open GIFPath

/-! ## The state -/

inductive EnvReg
  | PRIM | PRMODECONT | TEXCLUT | SCANMSK | TEXA | FOGCOL | DIMX | DTHE | COLCLAMP | PABE | BITBLTBUF | TRXDIR | TRXPOS
  | TRXREG
  deriving DecidableEq

inductive CtxtReg
  | XYOFFSET | TEX0 | TEX1 | CLAMP | MIPTBP1 | MIPTBP2 | SCISSOR | ALPHA | TEST | FBA | FRAME | ZBUF
  deriving DecidableEq

inductive VertexReg
  | RGBAQ | ST | UV | FOG | XYZ
  deriving DecidableEq

def XYOFFSET_REG_MASK : UInt64 := 0x0000FFFF0000FFFF

/-- The bits of `TEX0` but two of `CPSM`. -/
def TEX0_REG_MASK : UInt64 := ~~~0x0028000000000000

structure GSDrawingContext where
  reg : CtxtReg → UInt64
  xyoffset : reg .XYOFFSET &&& XYOFFSET_REG_MASK = reg .XYOFFSET
  tex0 : reg .TEX0 &&& TEX0_REG_MASK = reg .TEX0

structure GSTransferBuffer where
  x : Nat
  y : Nat
  w : Nat
  h : Nat
  start : Nat
  end_ : Nat
  total : Nat
  buff : Nat → UInt8
  rect : Nat × Nat × Nat × Nat
  m_blit : UInt64
  m_pos : UInt64
  m_reg : UInt64
  write : Bool

/-- `m_q` has the bits of a float. -/
structure GSState where
  m_env : EnvReg → UInt64
  CTXT : Fin 2 → GSDrawingContext
  m_v : VertexReg → UInt64
  m_tr : GSTransferBuffer
  m_vm8 : Nat → UInt8
  m_path : Nat → GIFPath
  m_q : UInt32

/-- The image function of the format that a `BITBLTBUF` has, and what drawing what is queued makes of the memory. -/
structure Renderer where
  wi : UInt64 → (Nat → UInt8) → Nat → Nat → List UInt8 → UInt64 → UInt64 → UInt64 → (Nat → UInt8) × Nat × Nat
  FlushBuffers : GSState → Nat → UInt8

variable (renderer : Renderer)

namespace GSState

def setXDIR (TRXDIR XDIR : UInt64) : UInt64 := (TRXDIR &&& ~~~3) ||| XDIR

def FlushWrite (s : GSState) : GSState :=
  let len := s.m_tr.end_ - s.m_tr.start
  if !s.m_tr.write ∨ len = 0 then s
  else
    let src := (List.range len).map fun k => s.m_tr.buff (s.m_tr.start + k)
    let wi := renderer.wi (s.m_env .BITBLTBUF) s.m_vm8 s.m_tr.x s.m_tr.y src s.m_tr.m_blit s.m_tr.m_pos s.m_tr.m_reg
    let start := s.m_tr.start + len
    { s with
      m_vm8 := wi.1
      m_tr := { s.m_tr with x := wi.2.1, y := wi.2.2, start }
      m_env := if s.m_tr.total ≤ start then Function.update s.m_env .TRXDIR (setXDIR (s.m_env .TRXDIR) 3) else s.m_env }

def Flush (s : GSState) : GSState :=
  let s := s.FlushWrite renderer
  { s with m_vm8 := renderer.FlushBuffers s }

/-! ## Saving -/

inductive Item
  | version (n : Nat)
  | reg (r : UInt64)
  | int (n : Nat)
  | rect (r : Nat × Nat × Nat × Nat)
  | flag (b : Bool)
  | memory (m : Nat → UInt8)
  | tag (t : GIFTag)
  | float (f : UInt32)

def STATE_VERSION : Nat := 9

/-- `TRXREG` is there twice. -/
def envOrder : List EnvReg :=
  [.PRIM, .PRMODECONT, .TEXCLUT, .SCANMSK, .TEXA, .FOGCOL, .DIMX, .DTHE, .COLCLAMP, .PABE, .BITBLTBUF, .TRXDIR, .TRXPOS,
    .TRXREG, .TRXREG]

def ctxtOrder : List CtxtReg :=
  [.XYOFFSET, .TEX0, .TEX1, .CLAMP, .MIPTBP1, .MIPTBP2, .SCISSOR, .ALPHA, .TEST, .FBA, .FRAME, .ZBUF]

def vertexOrder : List VertexReg := [.RGBAQ, .ST, .UV, .FOG, .XYZ]

def transferItems (tr : GSTransferBuffer) : List Item :=
  [.int tr.x, .int tr.y, .int tr.w, .int tr.h, .reg tr.m_blit, .reg tr.m_pos, .reg tr.m_reg, .rect tr.rect, .int tr.total,
    .int tr.start, .int tr.end_, .flag tr.write]

def pathItems (path : GIFPath) : List Item := [.tag path.tag, .int path.reg]

def items (s : GSState) : List Item :=
  [.version STATE_VERSION] ++ envOrder.map (fun r => .reg (s.m_env r)) ++
    (ctxtOrder.map (fun r => .reg ((s.CTXT 0).reg r)) ++ ctxtOrder.map (fun r => .reg ((s.CTXT 1).reg r))) ++
    vertexOrder.map (fun r => .reg (s.m_v r)) ++ [.reg 0] ++ transferItems s.m_tr ++ [.memory s.m_vm8] ++
    (List.range 4).flatMap (fun index => pathItems (s.m_path index)) ++ [.float s.m_q]

def Freeze (s : GSState) : List Item × GSState :=
  let s := s.Flush renderer
  let s := { s with m_path := fun index => (s.m_path index).freeze }
  (s.items, s)

/-! ## Loading -/

def readRegs {ι : Type} [DecidableEq ι] : List ι → (ι → UInt64) → StateT (List Item) Option (ι → UInt64)
  | [], regs => pure regs
  | r :: later, regs => fun
    | .reg value :: data => readRegs later (Function.update regs r value) data
    | _ => none

def readInt : StateT (List Item) Option Nat
  | .int n :: data => some (n, data)
  | _ => none

def readReg : StateT (List Item) Option UInt64
  | .reg r :: data => some (r, data)
  | _ => none

/-- `XYOFFSET` of each context is masked, and `TEX0` as when it is applied. -/
def readContext (ctxt : GSDrawingContext) : StateT (List Item) Option GSDrawingContext := do
  let regs ← readRegs ctxtOrder ctxt.reg
  return {
    reg := fun
      | .XYOFFSET => regs .XYOFFSET &&& XYOFFSET_REG_MASK
      | .TEX0 => regs .TEX0 &&& TEX0_REG_MASK
      | r => regs r
    xyoffset := by rw [UInt64.and_assoc, UInt64.and_self]
    tex0 := by rw [UInt64.and_assoc, UInt64.and_self] }

def readTransfer (buff : Nat → UInt8) : StateT (List Item) Option GSTransferBuffer
  | .int x :: .int y :: .int w :: .int h :: .reg m_blit :: .reg m_pos :: .reg m_reg :: .rect rect :: .int total ::
      .int start :: .int end_ :: .flag write :: data =>
    some ({ x, y, w, h, start, end_, total, buff, rect, m_blit, m_pos, m_reg, write }, data)
  | _ => none

def readMemory : StateT (List Item) Option (Nat → UInt8)
  | .memory m :: data => some (m, data)
  | _ => none

def readPath (path : GIFPath) : StateT (List Item) Option GIFPath
  | .tag tag :: .int reg :: data => some (path.defrost tag reg, data)
  | _ => none

def readFloat : StateT (List Item) Option UInt32
  | .float f :: data => some (f, data)
  | _ => none

def readVersion : StateT (List Item) Option Nat
  | .version n :: data => some (n, data)
  | _ => none

def Reset (s : GSState) : GSState :=
  { s.Flush renderer with
    m_path := fun _ => GIFPath.reset
    m_v := fun _ => 0
    m_env := fun _ => 0
    CTXT := fun _ => { reg := fun _ => 0, xyoffset := by decide, tex0 := by decide } }

/-- Behind the values, of the version that `Freeze` writes, nothing but what follows from them is set. -/
def Defrost (s : GSState) (data : List Item) : Option GSState :=
  let s := (s.Flush renderer).Reset renderer
  (·.1) <$> (show StateT (List Item) Option GSState from do
    let version ← readVersion
    if version ≠ STATE_VERSION then failure
    let m_env ← readRegs envOrder s.m_env
    let first ← readContext (s.CTXT 0)
    let second ← readContext (s.CTXT 1)
    let m_v ← readRegs vertexOrder s.m_v
    let _ ← readReg
    let m_tr ← readTransfer s.m_tr.buff
    let m_vm8 ← readMemory
    let path0 ← readPath (s.m_path 0)
    let path1 ← readPath (s.m_path 1)
    let path2 ← readPath (s.m_path 2)
    let path3 ← readPath (s.m_path 3)
    let m_q ← readFloat
    return {
      m_env, m_v, m_tr, m_vm8, m_q
      CTXT := fun i => if i = 0 then first else second
      m_path := fun index => match index with
        | 0 => path0
        | 1 => path1
        | 2 => path2
        | 3 => path3
        | _ => s.m_path index }) data

/-! ## What is read is what was written -/

section Reading
variable {ι : Type} [DecidableEq ι]

theorem readRegs_map (order : List ι) (regs values : ι → UInt64) (data : List Item) :
    readRegs order regs (order.map (fun r => .reg (values r)) ++ data) =
      some (fun r => if r ∈ order then values r else regs r, data) := by
  induction order generalizing regs with
  | nil => rfl
  | cons r later ih =>
    show readRegs later (Function.update regs r (values r)) (later.map (fun r => .reg (values r)) ++ data) = _
    rw [ih]
    congr 2
    funext r'
    by_cases same : r' = r
    · subst same
      rw [Function.update_self, if_pos List.mem_cons_self, ite_self]
    · rw [Function.update_of_ne same]
      simp only [List.mem_cons, same, false_or]

theorem readRegs_all {order : List ι} (all : ∀ r, r ∈ order) (regs values : ι → UInt64) (data : List Item) :
    readRegs order regs (order.map (fun r => .reg (values r)) ++ data) = some (values, data) := by
  rw [readRegs_map]
  congr 2
  funext r
  exact if_pos (all r)

end Reading

theorem mem_envOrder (r : EnvReg) : r ∈ envOrder := by
  cases r <;> decide

theorem mem_ctxtOrder (r : CtxtReg) : r ∈ ctxtOrder := by
  cases r <;> decide

theorem mem_vertexOrder (r : VertexReg) : r ∈ vertexOrder := by
  cases r <;> decide

theorem readContext_spec (base ctxt : GSDrawingContext) (data : List Item) :
    readContext base (ctxtOrder.map (fun r => .reg (ctxt.reg r)) ++ data) = some (ctxt, data) := by
  have masked : (fun r => match r with
      | .XYOFFSET => ctxt.reg .XYOFFSET &&& XYOFFSET_REG_MASK
      | .TEX0 => ctxt.reg .TEX0 &&& TEX0_REG_MASK
      | r => ctxt.reg r) = ctxt.reg := by
    funext r
    cases r with
    | XYOFFSET => exact ctxt.xyoffset
    | TEX0 => exact ctxt.tex0
    | _ => rfl
  obtain ⟨reg, xyoffset, tex0⟩ := ctxt
  unfold readContext
  simp only [bind, StateT.bind, readRegs_all mem_ctxtOrder base.reg reg data, Option.bind_some, pure, StateT.pure]
  congr 2
  exact GSDrawingContext.mk.injEq .. ▸ masked

theorem FlushWrite_buff (s : GSState) : (s.FlushWrite renderer).m_tr.buff = s.m_tr.buff := by
  unfold FlushWrite
  dsimp only
  split <;> rfl

/-- What `Defrost` has in the end. -/
def restored (buff : Nat → UInt8) (s : GSState) : GSState :=
  { s with
    m_tr := { s.m_tr with buff }
    m_path := fun index =>
      if index < 4 then GIFPath.reset.defrost (s.m_path index).tag (s.m_path index).reg else GIFPath.reset }

theorem Defrost_items (fresh s : GSState) : Defrost renderer fresh s.items = some (restored fresh.m_tr.buff s) := by
  have buff : ((fresh.Flush renderer).Reset renderer).m_tr.buff = fresh.m_tr.buff := by
    show (((fresh.Flush renderer).FlushWrite renderer).m_tr.buff) = _
    rw [FlushWrite_buff]
    exact FlushWrite_buff renderer fresh
  have paths : ∀ index, ((fresh.Flush renderer).Reset renderer).m_path index = GIFPath.reset := fun _ => rfl
  unfold Defrost
  dsimp only
  generalize (fresh.Flush renderer).Reset renderer = base at buff paths
  unfold items
  simp only [List.append_assoc]
  have reads : ∀ {α β : Type} {x : StateT (List Item) Option α} (f : α → StateT (List Item) Option β) {a : α}
      {data rest : List Item}, x data = some (a, rest) → (x >>= f) data = f a rest := by
    intro α β x f a data rest first
    show (x data).bind _ = _
    rw [first]
    rfl
  rw [List.singleton_append, reads _ (show readVersion _ = some (STATE_VERSION, _) from rfl), if_neg (not_not_intro rfl),
    reads _ (readRegs_all mem_envOrder ..), reads _ (readContext_spec ..), reads _ (readContext_spec ..),
    reads _ (readRegs_all mem_vertexOrder ..), reads _ (show readReg _ = some (0, _) from rfl),
    reads _ (show readTransfer _ _ = some ({ s.m_tr with buff := base.m_tr.buff }, _) from rfl),
    reads _ (show readMemory _ = some (s.m_vm8, _) from rfl)]
  have read : ∀ index (rest : List Item), readPath (base.m_path index) (pathItems (s.m_path index) ++ rest) =
      some (GIFPath.reset.defrost (s.m_path index).tag (s.m_path index).reg, rest) := by
    intro index rest
    rw [paths index]
    rfl
  have four : (List.range 4).flatMap (fun index => pathItems (s.m_path index)) = pathItems (s.m_path 0) ++
      (pathItems (s.m_path 1) ++ (pathItems (s.m_path 2) ++ (pathItems (s.m_path 3) ++ []))) := rfl
  simp only [four, List.append_assoc, List.append_eq, List.nil_append]
  rw [reads _ (read 0 _), reads _ (read 1 _), reads _ (read 2 _), reads _ (read 3 _),
    reads _ (show readFloat _ = some (s.m_q, _) from rfl)]
  have contexts : (fun i : Fin 2 => if i = 0 then s.CTXT 0 else s.CTXT 1) = s.CTXT := by
    funext i
    match i with
    | 0 => rfl
    | 1 => rfl
  have rest : (fun index => match index with
      | 0 => GIFPath.reset.defrost (s.m_path 0).tag (s.m_path 0).reg
      | 1 => GIFPath.reset.defrost (s.m_path 1).tag (s.m_path 1).reg
      | 2 => GIFPath.reset.defrost (s.m_path 2).tag (s.m_path 2).reg
      | 3 => GIFPath.reset.defrost (s.m_path 3).tag (s.m_path 3).reg
      | _ => base.m_path index) = (restored fresh.m_tr.buff s).m_path := by
    funext index
    match index with
    | 0 => rfl
    | 1 => rfl
    | 2 => rfl
    | 3 => rfl
    | index + 4 =>
      unfold restored
      dsimp only
      rw [if_neg (Nat.not_lt.mpr (Nat.le_add_left 4 index))]
      exact paths _
  rw [contexts, buff]
  show some { s with
    m_tr := { s.m_tr with buff := fresh.m_tr.buff }
    CTXT := s.CTXT
    m_path := _ } = _
  rw [rest]
  rfl

/-! ## The stream goes on -/

def continuation (s : GSState) (index : Nat) (sources : List Source) : Option (List Effect) :=
  (transfers index (s.m_path index) sources).map Prod.snd

/-- Beside the drawing that is flushed, and the image data, of which the next flush begins where this one ends, nothing
changes. -/
structure Undisturbed (before after : GSState) : Prop where
  paths : ∀ index < 4, ∀ sources, after.continuation index sources = before.continuation index sources
  env : ∀ r, r ≠ .TRXDIR → after.m_env r = before.m_env r
  direction : before.m_tr.end_ < before.m_tr.total → after.m_env .TRXDIR = before.m_env .TRXDIR
  contexts : after.CTXT = before.CTXT
  vertex : after.m_v = before.m_v ∧ after.m_q = before.m_q
  transfer : ∃ x y, after.m_tr = { before.m_tr with
    x, y, start := if before.m_tr.write then max before.m_tr.start before.m_tr.end_ else before.m_tr.start }

structure Restores (before after : GSState) : Prop where
  paths : ∀ index < 4, ∀ sources, after.continuation index sources = before.continuation index sources
  env : after.m_env = before.m_env
  contexts : after.CTXT = before.CTXT
  vertex : after.m_v = before.m_v ∧ after.m_q = before.m_q
  memory : after.m_vm8 = before.m_vm8
  transfer : after.m_tr = { before.m_tr with buff := after.m_tr.buff }

/-- Neither saving nor loading what was saved, in any other state, is noticed. -/
def Survives (s fresh : GSState) : Prop :=
  Undisturbed s (s.Freeze renderer).2 ∧
    ∃ loaded, fresh.Defrost renderer (s.Freeze renderer).1 = some loaded ∧ Restores (s.Freeze renderer).2 loaded

/-- From a reset, by whole calls. -/
def Reached (s : GSState) : Prop :=
  ∀ index < 4, ∃ sources effects, transfers index GIFPath.reset sources = some (s.m_path index, effects)

theorem FlushWrite_path (s : GSState) : (s.FlushWrite renderer).m_path = s.m_path := by
  unfold FlushWrite
  dsimp only
  split <;> rfl

theorem Freeze_path (s : GSState) (index : Nat) :
    (s.Freeze renderer).2.m_path index = (s.m_path index).freeze := by
  show ((s.FlushWrite renderer).m_path index).freeze = _
  rw [FlushWrite_path]

theorem freeze_alike {path : GIFPath} (sound : path.Sound) : Alike path.freeze path :=
  ⟨rfl, rfl, rfl, fun unfinished => ⟨rfl, rfl, rfl, sound.reg unfinished, fun _ _ => rfl⟩⟩

theorem freeze_sound {path : GIFPath} (sound : path.Sound) : path.freeze.Sound :=
  ⟨sound.reg, sound.adOnly, sound.xyzf2, sound.xyz2⟩

theorem FlushWrite_spec (s : GSState) :
    ∃ x y TRXDIR, (s.FlushWrite renderer).m_tr = { s.m_tr with
        x, y, start := if s.m_tr.write then max s.m_tr.start s.m_tr.end_ else s.m_tr.start } ∧
      (s.FlushWrite renderer).m_env = Function.update s.m_env .TRXDIR TRXDIR ∧
      (s.m_tr.end_ < s.m_tr.total → TRXDIR = s.m_env .TRXDIR) ∧
      (s.FlushWrite renderer).CTXT = s.CTXT ∧ (s.FlushWrite renderer).m_v = s.m_v ∧
      (s.FlushWrite renderer).m_q = s.m_q := by
  unfold FlushWrite
  dsimp only
  by_cases nothing : (!s.m_tr.write) = true ∨ s.m_tr.end_ - s.m_tr.start = 0
  · have stays : (if s.m_tr.write then max s.m_tr.start s.m_tr.end_ else s.m_tr.start) = s.m_tr.start := by
      rcases nothing with reads | empty
      · rw [Bool.not_eq_true'] at reads
        rw [reads]
        rfl
      · rw [max_eq_left (Nat.sub_eq_zero_iff_le.mp empty), ite_self]
    rw [if_pos nothing, stays]
    exact ⟨_, _, _, rfl, (Function.update_eq_self _ _).symm, fun _ => rfl, rfl, rfl, rfl⟩
  · obtain ⟨writes, some⟩ := not_or.mp nothing
    rw [Bool.not_eq_true', Bool.not_eq_false] at writes
    have moves : (if s.m_tr.write then max s.m_tr.start s.m_tr.end_ else s.m_tr.start) =
        s.m_tr.start + (s.m_tr.end_ - s.m_tr.start) := by
      rw [if_pos writes]
      omega
    rw [if_neg nothing, moves]
    by_cases ends : s.m_tr.total ≤ s.m_tr.start + (s.m_tr.end_ - s.m_tr.start)
    · refine ⟨_, _, _, rfl, if_pos ends, fun goesOn => ?_, rfl, rfl, rfl⟩
      omega
    · exact ⟨_, _, _, rfl, (if_neg ends).trans (Function.update_eq_self _ _).symm, fun _ => rfl, rfl, rfl, rfl⟩

theorem Freeze_undisturbed (s : GSState) (sound : ∀ index < 4, (s.m_path index).Sound) :
    Undisturbed s (s.Freeze renderer).2 := by
  obtain ⟨x, y, TRXDIR, transfer, env, direction, contexts, vertex, q⟩ := FlushWrite_spec renderer s
  have env' : (s.Freeze renderer).2.m_env = Function.update s.m_env .TRXDIR TRXDIR := env
  refine ⟨fun index inside sources => ?_, fun r other => ?_, fun goesOn => ?_, contexts, ⟨vertex, q⟩, x, y, transfer⟩
  · unfold continuation
    rw [Freeze_path]
    exact ((freeze_alike (sound index inside)).transfers (freeze_sound (sound index inside)) index sources).effects
  · rw [env', Function.update_of_ne other]
  · rw [env', Function.update_self, direction goesOn]

theorem transfers_one (index : Nat) (path : GIFPath) (source : Source) :
    (transfers index path [source]).map Prod.snd = (Transfer index path source).map Prod.snd := by
  unfold transfers transfers
  cases Transfer index path source with
  | none => rfl
  | some result => exact congrArg some (List.append_nil _)

theorem Reached.sound {s : GSState} (reached : s.Reached) : ∀ index < 4, (s.m_path index).Sound := by
  intro index inside
  obtain ⟨sources, effects, result⟩ := reached index inside
  exact sound_of_transfers reset_sound result

theorem Reached.kept {s : GSState} (reached : s.Reached) : ∀ index < 4, (s.m_path index).Kept := by
  intro index inside
  obtain ⟨sources, effects, result⟩ := reached index inside
  exact transfers_kept reset_kept result

theorem restored_path (buff : Nat → UInt8) (s : GSState) {index : Nat} (inside : index < 4) :
    (restored buff (s.Freeze renderer).2).m_path index =
      GIFPath.reset.defrost (s.m_path index).frozenTag (s.m_path index).reg := by
  unfold restored
  dsimp only
  rw [if_pos inside, Freeze_path]
  rfl

theorem saves_of_survives {s fresh : GSState} (reached : s.Reached) (survives : s.Survives renderer fresh) :
    ∀ index < 4, (s.m_path index).Saves := by
  obtain ⟨undisturbed, loaded, result, restores⟩ := survives
  intro index inside
  by_contra fails
  have loads : fresh.Defrost renderer (s.Freeze renderer).1 =
      some (restored fresh.m_tr.buff (s.Freeze renderer).2) := Defrost_items renderer fresh _
  rw [loads] at result
  cases result
  have base : Sound { GIFPath.reset with tag := (s.m_path index).frozenTag, reg := (s.m_path index).reg } :=
    ⟨fun loops => absurd rfl loops, nofun, nofun, nofun⟩
  obtain ⟨source, differs⟩ :=
    defrost_differs index (reached.kept index inside) (reached.sound index inside) fails base
  have same := (restores.paths index inside [source]).trans (undisturbed.paths index inside [source])
  unfold continuation at same
  rw [transfers_one, transfers_one, restored_path renderer _ _ inside] at same
  exact differs same.symm

theorem survives_of_saves {s : GSState} (fresh : GSState) (reached : s.Reached)
    (saves : ∀ index < 4, (s.m_path index).Saves) : s.Survives renderer fresh := by
  have undisturbed := Freeze_undisturbed renderer s reached.sound
  refine ⟨undisturbed, _, Defrost_items renderer fresh _, fun index inside sources => ?_, rfl, rfl, ⟨rfl, rfl⟩, rfl, rfl⟩
  rw [undisturbed.paths index inside]
  show (transfers index ((restored fresh.m_tr.buff (s.Freeze renderer).2).m_path index) sources).map Prod.snd = _
  rw [restored_path renderer _ _ inside]
  have alike := defrost_alike (reached.kept index inside) (reached.sound index inside) (saves index inside) GIFPath.reset
  exact (alike.transfers (reached.sound index inside) index sources).effects.symm

def blank : Renderer where
  wi _ memory x y _ _ _ _ := (memory, x, y)
  FlushBuffers s := s.m_vm8

def called (sources : List Source) : GSState where
  m_env _ := 0
  CTXT _ := { reg := fun _ => 0, xyoffset := by decide, tex0 := by decide }
  m_v _ := 0
  m_tr :=
    { x := 0, y := 0, w := 0, h := 0, start := 0, end_ := 0, total := 0, buff := fun _ => 0, rect := (0, 0, 0, 0), m_blit := 0,
      m_pos := 0, m_reg := 0, write := false }
  m_vm8 _ := 0
  m_path index := if index = 3 then ((transfers 3 GIFPath.reset sources).map Prod.fst).getD GIFPath.reset else GIFPath.reset
  m_q := 0

theorem called_reached {sources : List Source} (ends : (transfers 3 GIFPath.reset sources).isSome = true) :
    (called sources).Reached := by
  intro index inside
  unfold called
  dsimp only
  split
  · obtain ⟨⟨path, effects⟩, result⟩ := Option.isSome_iff_exists.mp ends
    subst index
    refine ⟨sources, effects, ?_⟩
    rw [result]
    rfl
  · exact ⟨[], [], rfl⟩

def pairTag : Quadword := ⟨0x2000000000000002, 0x51⟩

def tagOnly : List Source := [⟨[pairTag], by decide⟩]

def oneRegister : List Source := [⟨[pairTag, ⟨0x80, 0⟩], by decide⟩]

end GSState

end Pcsx2.GsTransfer
