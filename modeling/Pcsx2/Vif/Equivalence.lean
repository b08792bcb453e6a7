import Pcsx2.Vif.BlockCache
import Pcsx2.Vif.Unpacking

/-!
# The routine does what the interpreter does

Both go through the writes in step. The machine's row register is the interpreter's `MaskRow` where the
routine uses it, and is stored at the end if the mode changes it.
-/

namespace Pcsx2.Vif

structure Alike (u : Unpack) (b : Block) : Prop where
  usn : u.usn = b.usn
  doMask : u.doMask = b.doMask
  upkNum : u.upkNum = b.upkNum
  cycle : u.cycle = b.cycle
  num : u.num = b.num
  mask : b.doMask = true → u.mask = b.mask
  mode : (if u.upkNum = 0xf then 0 else u.mode) = b.doMode

structure Follows (u : Unpack) (b : Block) (e : Emitter) (src : Source) (row : Quad) (m : Machine) (s : VuState) :
    Prop where
  mem : m.mem = s.mem
  kept : m.mask .row = row
  unchanged : ¬ 2 ≤ b.doMode → s.row = row
  row : b.HasRow → m.xmm .rowReg = s.row
  col : ∀ c, b.HasCol c → m.xmm (.colRegs c) = fun _ => u.col c
  few : e.iteration < 4
  window : b.upkNum.toNat < 3 → e.iteration ≠ 0 → Window b e src m

section

variable {u : Unpack} {b : Block} (alike : Alike u b)

include alike

theorem Alike.matches (e : Emitter) : (u.writeMode e.vCL).Matches b e :=
  ⟨alike.doMask, alike.mask, alike.mode, rfl⟩

end

/-! ## A pass of the compiler -/

namespace Emitter

variable {b : Block} (covered : Covered b.upkNum) (e : Emitter)

include covered

theorem modUnpack_eq (postOp : Bool) :
    e.modUnpack b postOp =
      { e with iteration := if postOp ∧ b.upkNum.toNat < 3 then (e.iteration + 1) % 4 else e.iteration } := by
  unfold modUnpack
  rcases covered.cases with format | format | format | format | format | format | format <;>
    rw [format] <;> cases postOp <;> rfl

theorem write_code : (e.write b).1 = e.xUnpack b ++ e.xMovDest b := by
  unfold write
  split
  · rw [modUnpack_eq covered, if_neg fun both => Bool.noConfusion both.1]
  · rfl

theorem next_iteration :
    ((e.write b).2.skip b).iteration =
      if e.vCL < cycleSize b ∧ b.upkNum.toNat < 3 then (e.iteration + 1) % 4 else e.iteration := by
  have skip (e : Emitter) : (e.skip b).iteration = e.iteration := by
    unfold Emitter.skip
    split <;> rfl
  rw [skip]
  unfold write
  split
  · rename_i takes
    show ((e.modUnpack b false).modUnpack b true).iteration = _
    rw [modUnpack_eq covered, modUnpack_eq covered, if_neg fun both => Bool.noConfusion both.1]
    show (if true = true ∧ b.upkNum.toNat < 3 then _ else _) = _
    by_cases small : b.upkNum.toNat < 3
    · rw [if_pos ⟨rfl, small⟩, if_pos ⟨takes, small⟩]
    · rw [if_neg fun both => small both.2, if_neg fun both => small both.2]
  · rename_i fills
    rw [if_neg fun both => fills both.1]
    rfl

end Emitter

/-! ## In step -/

theorem rowWord_same (w : WriteMode) (data : Quad) (s : Written) (same : ¬ 2 ≤ w.mode) : w.rowWord data s = s.row := by
  have modes : w.mode = 0 ∨ w.mode = 1 := by
    revert same
    generalize w.mode = mode
    revert mode
    decide
  funext j
  unfold WriteMode.rowWord WriteMode.keeps
  rcases modes with mode | mode <;> rw [mode] <;> split <;> rfl

section

variable {u : Unpack} {b : Block} (alike : Alike u b) (covered : Covered b.upkNum) {e : Emitter} {src : Source}
  {row : Quad} {m : Machine} {s : VuState} {k : Nat} (places : e.Places b k)
  (follows : Follows u b e src row m s)

include alike covered places follows

theorem Follows.unpack (start : Nat) :
    ∃ data, unpackVector src u.usn e.src u.upkNum = some data ∧
      Ready (u.writeMode e.vCL) b e data ⟨s.mem (start + e.dst), s.row⟩ start (m.run start src (e.xUnpack b)) ∧
      Unpacked b e data m (m.run start src (e.xUnpack b)) ∧
      (b.upkNum.toNat < 3 → Window b e src (m.run start src (e.xUnpack b))) := by
  obtain ⟨data, vector, unpacked, window⟩ := run_xUnpack b e start src m covered follows.few follows.window
  have is := alike.matches e
  refine ⟨data, by rw [alike.usn, alike.upkNum]; exact vector, ⟨?_, ?_, ?_, ?_⟩, unpacked, window⟩
  · intro uses
    rw [unpacked.others _ (by decide) (by decide)]
    exact follows.row (hasRow_of_kind is uses)
  · intro uses
    rw [unpacked.others _ (by rintro ⟨⟩) (by rintro ⟨⟩)]
    refine follows.col e.cc (hasCol_of_kind is ?_ uses)
    have below := Nat.mod_lt k b.cycle.writes_pos
    show min e.vCL 3 + 1 ≤ b.cycle.writes
    rw [places.vCL]
    omega
  · intro j kind
    rw [unpacked.dest]
    cases masked : e.inputMasked b with
    | false => rfl
    | true =>
      have doMask : b.doMask = true := by
        unfold Emitter.inputMasked at masked
        exact Bool.and_elim_left masked
      exact absurd kind ((is.inputMasked_iff doMask).mp masked j)
  · rw [unpacked.mem, follows.mem]

theorem Follows.next {size start : Nat} (inside : start + b.cycle.place k < size) :
    Follows u b ((e.write b).2.skip b) src row (m.run start src (e.write b).1)
      (u.ft size src ⟨16 * start + 16 * b.cycle.place k, nVifT u.upkNum * b.cycle.taken k, k % b.cycle.writes⟩ s) := by
  obtain ⟨data, vector, ready, unpacked, window⟩ := follows.unpack alike covered places start
  have wrote := run_xMovDest (alike.matches e) ready src
  have ft : u.ft size src
      ⟨16 * start + 16 * b.cycle.place k, nVifT u.upkNum * b.cycle.taken k, k % b.cycle.writes⟩ s =
      ⟨Function.update s.mem (start + e.dst)
        ((u.writeMode e.vCL).writeQuad data ⟨s.mem (start + e.dst), s.row⟩).dest,
        ((u.writeMode e.vCL).writeQuad data ⟨s.mem (start + e.dst), s.row⟩).row⟩ := by
    have dest : (16 * start + 16 * b.cycle.place k) / 16 % size = start + e.dst := by
      rw [places.dst, ← Nat.mul_add, Nat.mul_div_cancel_left _ (by decide), Nat.mod_eq_of_lt inside]
    unfold Unpack.ft
    simp only
    rw [dest, alike.upkNum, ← places.src, ← alike.upkNum, vector, ← places.vCL]
  rw [ft, Emitter.write_code covered, Machine.run_append]
  have same (unchanging : ¬ 2 ≤ b.doMode) :
      ((u.writeMode e.vCL).writeQuad data ⟨s.mem (start + e.dst), s.row⟩).row = s.row := by
    rw [WriteMode.writeQuad_eq]
    exact rowWord_same _ _ _ (by rw [(alike.matches e).mode]; exact unchanging)
  refine ⟨?_, ?_, ?_, ?_, ?_, ?_, ?_⟩
  · rw [wrote.mem, unpacked.mem, follows.mem]
  · rw [wrote.mask, unpacked.mask, follows.kept]
  · intro unchanging
    exact (same unchanging).trans (follows.unchanged unchanging)
  · intro uses
    by_cases plain : b.doMode = 0
    · rw [wrote.unused plain, unpacked.others _ (by decide) (by decide), follows.row uses]
      exact (same (by rw [plain]; decide)).symm
    · exact wrote.row plain
  · intro c uses
    rw [wrote.others _ (by rintro ⟨⟩) (by rintro ⟨⟩) (by rintro ⟨⟩), unpacked.others _ (by rintro ⟨⟩) (by rintro ⟨⟩)]
    exact follows.col c uses
  · rw [Emitter.next_iteration covered]
    have few := follows.few
    split <;> omega
  · intro small later
    obtain ⟨pos, at_pos, work⟩ := window small
    refine ⟨pos, ?_, fun l => ?_⟩
    · rw [Emitter.next_iteration covered] at later ⊢
      rw [Emitter.skip_src, Emitter.write_src, at_pos]
      by_cases takes : e.vCL < Emitter.cycleSize b
      · have few := follows.few
        rw [if_pos ⟨takes, small⟩] at later ⊢
        rw [decide_eq_true takes, Bool.toNat_true, Nat.mod_eq_of_lt (by omega), Nat.mul_add, Nat.add_assoc]
      · rw [if_neg fun both => takes both.1, decide_eq_false takes]
        rfl
    · rw [wrote.others _ (by decide) (by decide) (by decide)]
      exact work l

end

section

variable {u : Unpack} {b : Block} (alike : Alike u b) (covered : Covered b.upkNum) {src : Source} {row : Quad}
  {m : Machine} {s : VuState} {size start : Nat}

include alike covered

theorem Follows.run (begins : Follows u b ((⟨0, 0, 0, 0⟩ : Emitter).skip b) src row m s) (num : Nat)
    (few : num ≤ 256) (inside : ∀ k < num, start + b.cycle.place k < size) :
    Follows u b ((Emitter.after b ⟨0, 0, 0, 0⟩ num).skip b) src row
      (m.run start src (Emitter.emit b num ⟨0, 0, 0, 0⟩))
      (unpackLoop u.cycle (nVifT u.upkNum) (u.ft size src) num (⟨16 * start, 0, 0⟩, s)).2 := by
  induction num with
  | zero => exact begins
  | succ num ih =>
    have before := ih (by omega) fun k below => inside k (by omega)
    rw [Emitter.emit_succ, Machine.run_append, unpackLoop_succ,
      Position.after_spec ⟨16 * start, 0, 0⟩ rfl num (by omega),
      alike.cycle, Nat.zero_add]
    rw [alike.cycle] at before
    exact before.next alike covered (Emitter.places b num) (inside num (by omega))

theorem run_compileRoutine (inside : start + b.cycle.place (vifNum b.num - 1) < size) (col : u.col = m.mask .col) :
    (m.run start src b.compileRoutine).mem = (u.interpret size src start ⟨m.mem, m.mask .row⟩).mem ∧
      (m.run start src b.compileRoutine).mask .row = (u.interpret size src start ⟨m.mem, m.mask .row⟩).row := by
  have cycles : (if b.isFill then Emitter.blockSize b else Emitter.cycleSize b) = b.cycle.writes := by
    unfold Emitter.blockSize Emitter.cycleSize
    split <;> rfl
  have unzeroed : ¬ ((8 ≤ b.upkNum.toNat ∧ b.upkNum.toNat ≤ 10) ∨ b.upkNum.toNat = 4) := by
    revert covered
    generalize b.upkNum = upkNum
    revert upkNum
    decide
  unfold Block.compileRoutine
  simp only
  rw [cycles, if_neg unzeroed, List.append_nil, Machine.run_append, Machine.run_append]
  have set := run_setMasks b start src m
  revert set
  generalize m.run start src (b.setMasks b.cycle.writes) = ready
  intro set
  have begins : Follows u b ((⟨0, 0, 0, 0⟩ : Emitter).skip b) src (m.mask .row) ready ⟨m.mem, m.mask .row⟩ := by
    have iteration : ((⟨0, 0, 0, 0⟩ : Emitter).skip b).iteration = 0 := by
      unfold Emitter.skip
      split <;> rfl
    refine ⟨set.mem, by rw [set.mask], fun _ => rfl, set.row, fun c uses => ?_, by rw [iteration]; decide,
      fun _ later => absurd iteration later⟩
    rw [set.col c uses, col]
  obtain ⟨positive, few⟩ := vifNum_le b.num
  have ends := begins.run alike covered (vifNum b.num) few fun k below =>
    (Nat.add_le_add_left (b.cycle.place_mono (show k ≤ vifNum b.num - 1 by omega)) start).trans_lt inside
  unfold Unpack.interpret
  rw [alike.num]
  revert ends
  generalize ready.run start src (Emitter.emit b (vifNum b.num) ⟨0, 0, 0, 0⟩) = last
  intro ends
  split
  · rename_i changing
    refine ⟨ends.mem, ?_⟩
    have row := ends.row (.inr fun plain => absurd changing (by rw [plain]; decide))
    show Function.update last.mask .row (last.xmm .rowReg) .row = _
    rw [Function.update_self, row]
  · rename_i unchanging
    exact ⟨ends.mem, ends.kept.trans (ends.unchanged unchanging).symm⟩

end

/-! ## From the registers -/

namespace VifRegisters

variable (regs : VifRegisters)

/-- The UNPACK as the interpreter reads it from the unit; `MODE` has two bits. -/
def unpack (col : Quad) : Unpack :=
  { usn := regs.usn
    doMask := regs.cmd.getLsbD 4
    upkNum := regs.cmd.extractLsb' 0 4
    cycle := regs.cycle
    num := regs.num
    mask := regs.mask
    mode := regs.mode.extractLsb' 0 2
    col }

theorem low_byte (high low : BitVec 8) :
    ((high.setWidth 16 <<< 8) ||| low.setWidth 16 : BitVec 16).extractLsb' 0 8 = low := by
  ext i below
  simp [below]
  omega

theorem high_byte (high low : BitVec 8) :
    ((high.setWidth 16 <<< 8) ||| low.setWidth 16 : BitVec 16).extractLsb' 8 8 = high := by
  ext i below
  rw [BitVec.getElem_extractLsb']
  simp
  interval_cases i <;> rfl

theorem num_eq : regs.block.fields.num = regs.num := low_byte _ _

theorem upkType_eq : regs.block.fields.upkType = regs.upkType := high_byte _ _

theorem upkNum_eq : regs.block.fields.upkNum = regs.cmd.extractLsb' 0 4 := by
  unfold Block.upkNum
  rw [upkType_eq]
  unfold upkType
  cases regs.usn <;> ext i below <;> interval_cases i <;> simp

theorem usn_eq : regs.block.fields.usn = regs.usn := by
  unfold Block.usn
  rw [upkType_eq]
  unfold upkType
  cases regs.usn <;> simp

theorem doMask_eq : regs.block.fields.doMask = regs.cmd.getLsbD 4 := by
  unfold Block.doMask
  rw [upkType_eq]
  unfold upkType
  cases regs.usn <;> simp

theorem wl_eq : regs.block.fields.wl = regs.cycle.wl := by
  show regs.key1.extractLsb' 24 8 = regs.cycle.wl
  unfold key1
  simp only
  split <;> ext i below <;> simp <;> interval_cases i <;> simp

theorem cl_eq : regs.block.fields.cl = regs.cycle.cl := by
  show regs.key1.extractLsb' 16 8 = regs.cycle.cl
  unfold key1
  simp only
  split <;> ext i below <;> simp <;> interval_cases i <;> simp

theorem mode_eq : regs.block.fields.mode.extractLsb' 0 2 = regs.mode.extractLsb' 0 2 := by
  show (regs.key1.extractLsb' 0 8).extractLsb' 0 2 = regs.mode.extractLsb' 0 2
  unfold key1
  simp only
  split <;> ext i below <;> simp <;> interval_cases i <;> simp

theorem mask_eq (masked : regs.cmd.getLsbD 4 = true) : regs.block.fields.mask = regs.mask := by
  have doMask : regs.doMask = true := by
    unfold doMask
    split
    · rfl
    · apply decide_eq_true
      intro none
      have bit := congrArg (fun bits => bits.getLsbD 4) none
      simp only [BitVec.getLsbD_and, masked] at bit
      exact absurd bit (by decide)
  exact if_pos doMask

theorem alike (col : Quad) : Alike (regs.unpack col) regs.block.fields where
  usn := regs.usn_eq.symm
  doMask := regs.doMask_eq.symm
  upkNum := regs.upkNum_eq.symm
  cycle := by
    show regs.cycle = ⟨regs.block.fields.cl, regs.block.fields.wl⟩
    rw [cl_eq, wl_eq]
  num := regs.num_eq.symm
  mask masked := (regs.mask_eq (by rw [← doMask_eq]; exact masked)).symm
  mode := by
    unfold Block.doMode
    rw [upkNum_eq, mode_eq]
    rfl

end VifRegisters

/-- Whatever the registers, the data and the masks are, the compiled routine leaves the destination and
`MaskRow` as the interpreter does, where the destination does not wrap. -/
theorem unpack_equivalent (regs : VifRegisters) (covered : Covered (regs.cmd.extractLsb' 0 4)) (size start : Nat)
    (inside : start + regs.cycle.place (vifNum regs.num - 1) < size) (src : Source) (m : Machine) :
    (m.run start src regs.block.fields.compileRoutine).mem =
        ((regs.unpack (m.mask .col)).interpret size src start ⟨m.mem, m.mask .row⟩).mem ∧
      (m.run start src regs.block.fields.compileRoutine).mask .row =
        ((regs.unpack (m.mask .col)).interpret size src start ⟨m.mem, m.mask .row⟩).row := by
  have alike := regs.alike (m.mask .col)
  refine run_compileRoutine alike (by rw [regs.upkNum_eq]; exact covered) ?_ rfl
  rw [← alike.cycle, ← alike.num]
  exact inside

/-- A masked V4-16 UNPACK of three quadwords in mode 2, into the start of a VU's memory. -/
theorem unpack_equivalent_v4_16 :
    let regs : VifRegisters := ⟨0x7d, false, 3, ⟨2, 1⟩, 1, 2, 0xe4e4e4e4⟩
    let src : Source := fun pos => BitVec.ofNat 8 pos
    let m : Machine := ⟨fun _ _ => 0, fun _ _ => 0, fun _ _ => 1⟩
    Covered (regs.cmd.extractLsb' 0 4) ∧ 0 + regs.cycle.place (vifNum regs.num - 1) < 1024 ∧
    (m.run 0 src regs.block.fields.compileRoutine).mem =
        ((regs.unpack (m.mask .col)).interpret 1024 src 0 ⟨m.mem, m.mask .row⟩).mem ∧
      (m.run 0 src regs.block.fields.compileRoutine).mask .row =
        ((regs.unpack (m.mask .col)).interpret 1024 src 0 ⟨m.mem, m.mask .row⟩).row :=
  ⟨by decide, by decide, unpack_equivalent ⟨0x7d, false, 3, ⟨2, 1⟩, 1, 2, 0xe4e4e4e4⟩ (by decide) 1024 0 (by decide)
    (fun pos => BitVec.ofNat 8 pos) ⟨fun _ _ => 0, fun _ _ => 0, fun _ _ => 1⟩⟩

end Pcsx2.Vif
