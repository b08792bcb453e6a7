import Pcsx2.Vif.Dynarec

/-!
# Where the compiler is

The displacements of each quadword that `CompileRoutine` writes, and the quadwords that its code
stores to.
-/

namespace Pcsx2.Vif

/-! ## Running a routine -/

namespace Machine

variable (start : Nat) (src : Source) (m : Machine)

@[simp] theorem run_nil : m.run start src [] = m := rfl

@[simp] theorem run_cons (instr : Instr) (code : List Instr) :
    m.run start src (instr :: code) = (m.exec start src instr).run start src code := rfl

theorem run_append (code rest : List Instr) :
    m.run start src (code ++ rest) = (m.run start src code).run start src rest := List.foldl_append ..

end Machine

def Instr.quad : Instr → Option Nat
  | .store quad .. => some quad
  | _ => none

def stored (code : List Instr) : List Nat := code.filterMap Instr.quad

@[simp] theorem stored_nil : stored [] = [] := rfl

@[simp] theorem stored_append (code rest : List Instr) : stored (code ++ rest) = stored code ++ stored rest :=
  List.filterMap_append

/-! ## The passes of the loop -/

namespace Emitter

variable (b : Block) (e : Emitter)

def pass : List Instr × Emitter := (e.skip b).write b

def after : Nat → Emitter
  | 0 => e
  | k + 1 => ((after k).pass b).2

theorem after_next (k : Nat) : (e.pass b).2.after b k = e.after b (k + 1) := by
  induction k with
  | zero => rfl
  | succ k ih => rw [after, ih, ← after]

theorem emit_succ (vNum : Nat) : emit b (vNum + 1) e = emit b vNum e ++ ((e.after b vNum).pass b).1 := by
  induction vNum generalizing e with
  | zero => exact List.append_nil _
  | succ vNum ih =>
    rw [emit, ← pass, ih, after_next, ← List.append_assoc]
    rfl

/-! ## The displacements -/

@[simp] theorem modUnpack_dst (postOp : Bool) : (e.modUnpack b postOp).dst = e.dst := by
  unfold modUnpack
  split <;> first | rfl | (split <;> rfl)

@[simp] theorem modUnpack_src (postOp : Bool) : (e.modUnpack b postOp).src = e.src := by
  unfold modUnpack
  split <;> first | rfl | (split <;> rfl)

@[simp] theorem modUnpack_vCL (postOp : Bool) : (e.modUnpack b postOp).vCL = e.vCL := by
  unfold modUnpack
  split <;> first | rfl | (split <;> rfl)

structure Places (k : Nat) : Prop where
  dst : e.dst = b.cycle.place k
  src : e.src = nVifT b.upkNum * b.cycle.taken k
  vCL : e.vCL = k % b.cycle.writes

theorem write_dst : (e.write b).2.dst = e.dst + 1 := by
  unfold write nextCycle
  split
  · simp only [modUnpack_dst]
  · rfl

theorem write_src : (e.write b).2.src = e.src + nVifT b.upkNum * (decide (e.vCL < cycleSize b)).toNat := by
  unfold write nextCycle
  split
  · rename_i takes
    simp only [modUnpack_src]
    rw [decide_eq_true takes, Bool.toNat_true, Nat.mul_one]
  · rename_i fills
    rw [decide_eq_false fills, Bool.toNat_false, Nat.mul_zero]
    rfl

theorem write_vCL : (e.write b).2.vCL = if e.vCL + 1 = blockSize b then 0 else e.vCL + 1 := by
  unfold write nextCycle
  split
  · simp only [modUnpack_vCL]
  · rfl

theorem skip_src : (e.skip b).src = e.src := by
  unfold skip
  split <;> rfl

variable {b e}

theorem Places.takes {k : Nat} (places : e.Places b k) : decide (e.vCL < cycleSize b) = b.cycle.takes k := by
  have below := Nat.mod_lt k b.cycle.writes_pos
  unfold cycleSize Cycle.takes Block.isFill
  rw [places.vCL]
  cases b.cycle.isFill with
  | true => rfl
  | false => exact decide_eq_true below

theorem Places.next {k : Nat} (places : e.Places b k) : ((e.write b).2.skip b).Places b (k + 1) := by
  have src : ((e.write b).2.skip b).src = nVifT b.upkNum * b.cycle.taken (k + 1) := by
    rw [skip_src, write_src, places.src, places.takes, Cycle.taken_succ, Nat.mul_add]
  have dst := write_dst b e
  have vCL := write_vCL b e
  rw [places.dst] at dst
  rw [places.vCL] at vCL
  revert dst vCL src
  generalize (e.write b).2 = after
  intro src dst vCL
  unfold Cycle.place at dst
  cases fills : b.cycle.isFill with
  | true =>
    rw [show blockSize b = b.cycle.writes from if_pos fills] at vCL
    have stays : after.skip b = after := if_neg fun both => Bool.noConfusion (fills.symm.trans both.2)
    rw [stays] at src ⊢
    refine ⟨?_, src, ?_⟩
    · rw [dst, if_pos fills]
      exact (if_pos fills).symm
    · rw [vCL]
      rcases b.cycle.next_cases k with ⟨-, next, inside⟩ | ⟨-, next, last⟩
      · rw [if_neg (by omega), next]
      · rw [if_pos last, next]
  | false =>
    obtain ⟨-, above⟩ := b.cycle.writes_eq_of_skipping fills
    have cycleSize : cycleSize b = b.cycle.writes := if_neg (by rw [Block.isFill, fills]; exact Bool.false_ne_true)
    have blockSize : blockSize b = b.cl.toNat := if_neg (by rw [Block.isFill, fills]; exact Bool.false_ne_true)
    have cl : b.cycle.cl = b.cl := rfl
    rw [cl] at above dst
    rw [if_neg (by rw [fills]; exact Bool.false_ne_true)] at dst
    rw [blockSize] at vCL
    have place : b.cycle.place (k + 1) =
        (k + 1) / b.cycle.writes * b.cl.toNat + (k + 1) % b.cycle.writes :=
      if_neg (by rw [fills]; exact Bool.false_ne_true)
    have positive := b.cycle.writes_pos
    rcases b.cycle.next_cases k with ⟨same, next, inside⟩ | ⟨quotient, next, last⟩
    · rw [if_neg (by omega)] at vCL
      have stays : after.skip b = after := if_neg fun both => by
        have := both.1
        omega
      rw [stays] at src ⊢
      refine ⟨?_, src, by rw [vCL, next]⟩
      rw [place, same, next, dst]
      rfl
    · rw [next, quotient, Nat.add_mul] at place
      by_cases whole : b.cycle.writes = b.cl.toNat
      · rw [if_pos (by omega)] at vCL
        have stays : after.skip b = after := if_neg fun both => by
          have := both.1
          omega
        rw [stays] at src ⊢
        exact ⟨by omega, src, by rw [vCL, next]⟩
      · rw [if_neg (by omega)] at vCL
        have skips : after.skip b = { after with dst := after.dst + (b.cl.toNat - b.cycle.writes), vCL := 0 } := by
          rw [← cycleSize, ← blockSize]
          exact if_pos ⟨by omega, fills⟩
        rw [skips] at src ⊢
        refine ⟨?_, src, by rw [next]⟩
        rw [place]
        show after.dst + (b.cl.toNat - b.cycle.writes) = _
        omega

variable (b) in
theorem places (k : Nat) : ((after b ⟨0, 0, 0, 0⟩ k).skip b).Places b k := by
  induction k with
  | zero =>
    have stays : skip b ⟨0, 0, 0, 0⟩ = ⟨0, 0, 0, 0⟩ := if_neg fun both => by
      have size : cycleSize b ≤ 0 := both.1
      unfold cycleSize at size
      rw [both.2, if_neg Bool.false_ne_true] at size
      exact absurd b.cycle.writes_pos (Nat.not_lt.mpr size)
    rw [after, stays]
    exact ⟨b.cycle.place_zero.symm, by rw [Cycle.taken_zero, Nat.mul_zero], (Nat.zero_mod _).symm⟩
  | succ k ih => exact ih.next

/-! ## What is stored -/

variable (b e)

@[simp] theorem stored_mVUmergeRegs (target source : Reg) (xyzw : BitVec 4) :
    stored (mVUmergeRegs target source xyzw) = [] := by
  unfold mVUmergeRegs
  split
  · split
    · rfl
    · split <;> rfl
  · rfl

theorem stored_mVUsaveReg (reg : Reg) (quad : Nat) (xyzw : BitVec 4) :
    ∀ q ∈ stored (mVUsaveReg reg quad xyzw), q = quad := by
  intro q member
  unfold mVUsaveReg at member
  split at member <;> simpa [mVUunpack_xyzw, stored, Instr.quad, eq_comm] using member

theorem stored_eq_nil {code : List Instr} (none : ∀ instr ∈ code, instr.quad = none) : stored code = [] := by
  exact List.filterMap_eq_nil_iff.mpr none

theorem stored_ite (condition : Prop) [Decidable condition] (instr : Instr) (none : instr.quad = none) :
    stored (if condition then [instr] else []) = [] := by
  split
  · exact stored_eq_nil (List.forall_mem_singleton.mpr none)
  · rfl

theorem stored_xUPK_S (load : Instr) (none : load.quad = none) : stored (e.xUPK_S b load) = [] := by
  unfold xUPK_S
  rw [stored_append, stored_ite _ _ none, List.nil_append]
  split
  · rfl
  · split <;> rfl

theorem stored_xUPK_V2 (load : Instr) (none : load.quad = none) (zeroW : Bool) :
    stored (e.xUPK_V2 b load zeroW) = [] := by
  unfold xUPK_V2
  rw [stored_append, stored_ite _ _ none, List.nil_append]
  split
  · rfl
  · exact stored_ite _ _ rfl

theorem stored_xUPK_V3 (load : Instr) (none : load.quad = none) (zeroW : Bool) :
    stored (e.xUPK_V3 b load zeroW) = [] := by
  unfold xUPK_V3
  split
  · rfl
  · rw [stored_append, stored_eq_nil (List.forall_mem_singleton.mpr none), List.nil_append, stored_ite _ _ rfl]

theorem stored_xUPK_V4 (load : Instr) (none : load.quad = none) : stored (e.xUPK_V4 b load) = [] := by
  unfold xUPK_V4
  split
  · rfl
  · exact stored_eq_nil (List.forall_mem_singleton.mpr none)

theorem stored_xUPK_V4_5 : stored (e.xUPK_V4_5 b) = [] := by
  unfold xUPK_V4_5
  split
  · rfl
  · simp only [stored_append, stored_mVUmergeRegs, List.append_nil]
    rfl

theorem stored_xUnpack : stored (e.xUnpack b) = [] := by
  unfold xUnpack
  simp only
  split
  · exact e.stored_xUPK_S b _ rfl
  · exact e.stored_xUPK_S b _ rfl
  · exact e.stored_xUPK_S b _ rfl
  · exact e.stored_xUPK_V2 b _ rfl _
  · exact e.stored_xUPK_V2 b _ rfl _
  · exact e.stored_xUPK_V2 b _ rfl _
  · exact e.stored_xUPK_V3 b _ rfl _
  · exact e.stored_xUPK_V3 b _ rfl _
  · exact e.stored_xUPK_V3 b _ rfl _
  · exact e.stored_xUPK_V4 b _ rfl
  · exact e.stored_xUPK_V4 b _ rfl
  · exact e.stored_xUPK_V4 b _ rfl
  · exact e.stored_xUPK_V4_5 b
  · rfl

theorem stored_doModeWrite (reg : Reg) (m5 : BitVec 4) : stored (doModeWrite b reg m5) = [] := by
  unfold doModeWrite
  split
  · split
    · exact stored_mVUmergeRegs _ _ _
    · simp only [stored_append, stored_mVUmergeRegs, List.append_nil]
      split
      · rw [stored_mVUmergeRegs]
        rfl
      · rfl
  · split
    · rfl
    · rw [stored_append, stored_ite _ _ rfl]
      rfl

theorem stored_doMaskWrite (reg : Reg) : ∀ q ∈ stored (e.doMaskWrite b reg), q = e.dst := by
  have none (condition : Prop) [Decidable condition] (code : List Instr) (quiet : stored code = []) :
      stored (if condition then code else []) = [] := by
    split
    · exact quiet
    · rfl
  unfold doMaskWrite
  simp only
  rw [stored_append, stored_append, stored_append, none _ _ (stored_mVUmergeRegs _ _ _),
    none _ _ (stored_mVUmergeRegs _ _ _), none _ _ (stored_doModeWrite b _ _), List.nil_append, List.nil_append,
    List.nil_append]
  split
  · exact stored_mVUsaveReg reg e.dst _
  · exact fun q => List.mem_singleton.mp

theorem stored_write : ∀ q ∈ stored (e.write b).1, q = e.dst := by
  have stored_xMovDest (e : Emitter) : ∀ q ∈ stored (e.xMovDest b), q = e.dst := by
    intro q member
    unfold xMovDest at member
    split at member
    · simp at member
    · split at member
      · simpa [stored, Instr.quad] using member
      · exact e.stored_doMaskWrite b _ q member
  intro q member
  unfold write at member
  split at member
  · rw [stored_append, stored_xUnpack, List.nil_append] at member
    rw [stored_xMovDest _ q member, modUnpack_dst]
  · rw [stored_append, stored_xUnpack, List.nil_append] at member
    exact stored_xMovDest e q member

theorem stored_emit (vNum : Nat) :
    ∀ q ∈ stored (emit b vNum ⟨0, 0, 0, 0⟩), ∃ k < vNum, q = b.cycle.place k := by
  induction vNum with
  | zero => exact fun q member => absurd member List.not_mem_nil
  | succ vNum ih =>
    intro q member
    rw [emit_succ, stored_append, List.mem_append] at member
    rcases member with before | last
    · obtain ⟨k, below, place⟩ := ih q before
      exact ⟨k, Nat.lt_succ_of_lt below, place⟩
    · exact ⟨vNum, Nat.lt_succ_self _, by rw [stored_write b _ q last, (places b vNum).dst]⟩

end Emitter

theorem stored_compileRoutine (b : Block) :
    stored b.compileRoutine = stored (Emitter.emit b (vifNum b.num) ⟨0, 0, 0, 0⟩) := by
  have setMasks (cS : Nat) : stored (b.setMasks cS) = [] := by
    unfold Block.setMasks
    rw [stored_append, Emitter.stored_ite _ _ rfl, List.nil_append]
    split
    · rw [stored_append, stored_append, stored_append, stored_append, Emitter.stored_ite _ _ rfl,
        Emitter.stored_ite _ _ rfl, Emitter.stored_ite _ _ rfl, Emitter.stored_ite _ _ rfl]
      rfl
    · rfl
  unfold Block.compileRoutine
  simp only [stored_append, setMasks, List.nil_append]
  rw [Emitter.stored_ite _ _ rfl, Emitter.stored_ite _ _ rfl, List.nil_append, List.append_nil]

theorem stored_place (b : Block) : ∀ q ∈ stored b.compileRoutine, ∃ k < vifNum b.num, q = b.cycle.place k := by
  rw [stored_compileRoutine]
  exact Emitter.stored_emit b _

theorem place_stored (b : Block) (unmasked : b.doMask = false) (plain : b.doMode = 0) (k : Nat)
    (few : k < vifNum b.num) : b.cycle.place k ∈ stored b.compileRoutine := by
  have stores (e : Emitter) : e.xMovDest b = [.store e.dst 0 .destReg 0 4] := by
    unfold Emitter.xMovDest Emitter.skipProcessing
    rw [unmasked, Bool.false_and, if_neg Bool.false_ne_true, if_pos ⟨plain, rfl⟩]
  have written (e : Emitter) : e.dst ∈ stored (e.write b).1 := by
    unfold Emitter.write
    split <;> simp [stores, stored, Instr.quad]
  rw [stored_compileRoutine]
  revert few
  induction vifNum b.num with
  | zero => exact fun few => absurd few (Nat.not_lt_zero k)
  | succ vNum ih =>
    intro few
    rw [Emitter.emit_succ, stored_append, List.mem_append]
    rcases Nat.lt_succ_iff_lt_or_eq.mp few with below | rfl
    · exact .inl (ih below)
    · right
      rw [← (Emitter.places b k).dst]
      exact written _

end Pcsx2.Vif
