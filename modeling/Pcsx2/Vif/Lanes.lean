import Mathlib.Data.Fintype.Basic
import Mathlib.Tactic.FinCases
import Mathlib.Tactic.IntervalCases
import Pcsx2.Vif.Emission

/-!
# Words of a quadword

What the merging, the adding and the saving of some words do to the registers and to the memory, word
by word.
-/

namespace Pcsx2.Vif

/-- `xyzw` names this word. -/
def named (xyzw : BitVec 4) (j : Fin 4) : Bool := xyzw.getLsbD (3 - j.val)

def merged (xyzw : BitVec 4) (old new : Quad) : Quad := fun j => if named xyzw j then new j else old j

theorem named_zero (j : Fin 4) : named 0 j = false := by
  revert j
  decide

theorem named_all (j : Fin 4) : named 0xf j = true := by
  revert j
  decide

theorem named_complement (xyzw : BitVec 4) (j : Fin 4) : named (xyzw ^^^ 0xf) j = !named xyzw j := by
  revert xyzw j
  decide

theorem merged_zero (old new : Quad) : merged 0 old new = old := by
  funext j
  exact if_neg (by rw [named_zero]; exact Bool.false_ne_true)

theorem merged_all (old new : Quad) : merged 0xf old new = new := by
  funext j
  exact if_pos (named_all j)

theorem merged_merged (xyzw : BitVec 4) (old other new : Quad) :
    merged xyzw old (merged xyzw other new) = merged xyzw old new := by
  funext j
  unfold merged
  split <;> rfl

theorem merged_same (xyzw : BitVec 4) (old : Quad) : merged xyzw old old = old := by
  funext j
  unfold merged
  split <;> rfl

namespace Machine

variable (m : Machine) (reg other : Reg) (value : Quad)

@[simp] theorem set_mem : (m.set reg value).mem = m.mem := rfl

@[simp] theorem set_mask : (m.set reg value).mask = m.mask := rfl

@[simp] theorem set_xmm : (m.set reg value).xmm reg = value := Function.update_self ..

variable {reg other} in
theorem set_xmm_of_ne (ne : other ≠ reg) : (m.set reg value).xmm other = m.xmm other := Function.update_of_ne ne ..

theorem set_set (again : Quad) : (m.set reg value).set reg again = m.set reg again := by
  unfold set
  rw [Function.update_idem]

theorem set_same : m.set reg (m.xmm reg) = m := by
  unfold set
  rw [Function.update_eq_self]

end Machine

/-! ## Merging -/

variable (start : Nat) (src : Source) (m : Machine)

theorem run_mVUmergeRegs {target source : Reg} (ne : target ≠ source) (xyzw : BitVec 4) :
    m.run start src (mVUmergeRegs target source xyzw) = m.set target (merged xyzw (m.xmm target) (m.xmm source)) := by
  unfold mVUmergeRegs
  by_cases none : xyzw = 0
  · rw [none, if_neg fun both => both.2 rfl, merged_zero, Machine.set_same]
    rfl
  · rw [if_pos ⟨ne, none⟩]
    split
    · rename_i first
      rw [first]
      show m.set target _ = _
      congr 1
      funext j
      fin_cases j <;> rfl
    · split
      · rename_i all
        rw [all, merged_all]
        rfl
      · show m.set target _ = _
        congr 1
        funext j
        have lane : (((xyzw &&& 1) <<< 3) ||| ((xyzw &&& 2) <<< 1) ||| ((xyzw &&& 4) >>> 1) |||
            ((xyzw &&& 8) >>> 3)).getLsbD j = named xyzw j := by
          revert xyzw j
          decide
        exact if_congr (by rw [lane]) rfl rfl

/-! ## Saving -/

theorem run_mVUsaveReg (reg : Reg) (quad : Nat) {xyzw : BitVec 4} (some : xyzw ≠ 0) :
    (m.run start src (mVUsaveReg reg quad xyzw)).mem =
      Function.update m.mem (start + quad) (merged xyzw (m.mem (start + quad)) (m.xmm reg)) ∧
    (m.run start src (mVUsaveReg reg quad xyzw)).mask = m.mask ∧
    ∀ other, other ≠ reg → (m.run start src (mVUsaveReg reg quad xyzw)).xmm other = m.xmm other := by
  obtain ⟨⟨n, few⟩⟩ := xyzw
  interval_cases n
  · exact absurd rfl some
  all_goals
    refine ⟨?_, rfl, fun other ne => ?_⟩
    · funext q
      by_cases here : q = start + quad
      · subst here
        funext j
        fin_cases j <;> simp [mVUsaveReg, mVUunpack_xyzw, Machine.exec, merged, named, BitVec.getLsbD, Nat.testBit, Machine.set]
        all_goals rfl
      · simp [mVUsaveReg, mVUunpack_xyzw, Machine.exec, Machine.set, here]
    · simp [mVUsaveReg, mVUunpack_xyzw, Machine.exec, Machine.set, ne]

/-! ## The modes -/

def sum (mode : BitVec 2) (data row : Word) : Word := if mode = 3 then data else data + row

def kept (mode : BitVec 2) (data row : Word) : Word := if mode = 1 then row else sum mode data row

theorem run_add (m5 : BitVec 4) :
    ∃ tmp, m.run start src ([.pxor .tmpReg .tmpReg] ++ mVUmergeRegs .tmpReg .rowReg m5 ++ [.paddd .destReg .tmpReg]) =
      (m.set .tmpReg tmp).set .destReg
        (merged m5 (m.xmm .destReg) fun j => m.xmm .destReg j + m.xmm .rowReg j) := by
  have clear : m.run start src [.pxor .tmpReg .tmpReg] = m.set .tmpReg fun _ => 0 := by
    show m.set .tmpReg _ = _
    congr 1
    funext j
    exact BitVec.xor_self
  refine ⟨merged m5 (fun _ => 0) (m.xmm .rowReg), ?_⟩
  rw [Machine.run_append, Machine.run_append, clear, run_mVUmergeRegs start src _ (by decide), Machine.set_xmm,
    Machine.set_xmm_of_ne _ _ (by decide), Machine.set_set]
  show (Machine.set _ _ _).set .destReg _ = _
  congr 1
  funext j
  rw [Machine.set_xmm, Machine.set_xmm_of_ne _ _ (by decide)]
  unfold merged
  split
  · rfl
  · exact BitVec.add_zero _

theorem run_doModeWrite (b : Block) (moded : b.doMode ≠ 0) (m5 : BitVec 4) :
    ∃ tmp, m.run start src (Emitter.doModeWrite b .destReg m5) =
      ((m.set .tmpReg tmp).set .destReg
        (merged m5 (m.xmm .destReg) fun j => sum b.doMode (m.xmm .destReg j) (m.xmm .rowReg j))).set .rowReg
        (merged m5 (m.xmm .rowReg) fun j => kept b.doMode (m.xmm .destReg j) (m.xmm .rowReg j)) := by
  have modes : b.doMode = 1 ∨ b.doMode = 2 ∨ b.doMode = 3 := by
    revert moded
    generalize b.doMode = mode
    revert mode
    decide
  -- nothing is written to the row in mode 1
  have unkept (m : Machine) (dest : Quad) (data : Quad) :
      m.set .destReg dest = (m.set .destReg dest).set .rowReg
        (merged m5 (m.xmm .rowReg) fun j => kept 1 (data j) (m.xmm .rowReg j)) := by
    have same : (fun j => kept 1 (data j) (m.xmm .rowReg j)) = m.xmm .rowReg := rfl
    rw [same, merged_same, ← Machine.set_xmm_of_ne m dest (show Reg.rowReg ≠ .destReg by decide), Machine.set_same]
  unfold Emitter.doModeWrite
  split
  · obtain ⟨tmp, add⟩ := run_add start src m m5
    rcases modes with mode | mode | mode
    · refine ⟨tmp, ?_⟩
      rw [mode, if_neg (by decide), if_neg (by decide), List.append_nil, add]
      exact unkept (m.set .tmpReg tmp) _ _
    · refine ⟨tmp, ?_⟩
      rw [mode, if_neg (by decide), if_pos rfl, Machine.run_append, add, run_mVUmergeRegs start src _ (by decide),
        Machine.set_xmm, merged_merged]
      rfl
    · refine ⟨m.xmm .tmpReg, ?_⟩
      rw [mode, if_pos rfl, run_mVUmergeRegs start src _ (by decide), Machine.set_same]
      have same : (fun j => sum 3 (m.xmm .destReg j) (m.xmm .rowReg j)) = m.xmm .destReg := rfl
      rw [same, merged_same, Machine.set_same]
      rfl
  · rename_i all
    have all : m5 = 0xf := by
      clear unkept
      revert all
      revert m5
      decide
    refine ⟨m.xmm .tmpReg, ?_⟩
    rw [all, Machine.set_same, merged_all, merged_all]
    rcases modes with mode | mode | mode
    · rw [mode, if_neg (by decide), if_neg (by decide), List.append_nil]
      have added := unkept m (fun j => m.xmm .destReg j + m.xmm .rowReg j) (m.xmm .destReg)
      rw [all, merged_all] at added
      exact added
    · rw [mode, if_neg (by decide), if_pos rfl]
      show (m.set .destReg _).set .rowReg ((m.set .destReg _).xmm .destReg) = _
      rw [Machine.set_xmm]
      rfl
    · rw [mode, if_pos rfl]
      have same : (fun j => sum 3 (m.xmm .destReg j) (m.xmm .rowReg j)) = m.xmm .destReg := rfl
      rw [same, Machine.set_same]
      rfl

end Pcsx2.Vif
