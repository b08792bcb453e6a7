import Pcsx2.GsTransfer.Format

/-!
# What the loops take

Each loop takes the registers that are left of a packet, as far as there is data for them.
-/

namespace Pcsx2.GsTransfer
open GIFPath

variable {path : GIFPath} {α : Type} {handler : Nat → α → Effect}

/-! ## The registers that are left -/

namespace GIFPath

def loopRegs (path : GIFPath) : List Nat := (List.range path.nreg).map path.regs

def left (path : GIFPath) : List Nat := (List.replicate path.nloop path.loopRegs).flatten.drop path.reg

def pending (path : GIFPath) : Pending :=
  match path.tag.FLG with
  | .PACKED => .packedLeft path.left
  | .REGLIST => .reglistLeft path.left
  | .IMAGE | .IMAGE2 => .imageLeft path.nloop

structure Sound (path : GIFPath) : Prop where
  reg : path.nloop ≠ 0 → path.reg < path.nreg
  adOnly : path.type = .ADONLY → ∀ j < path.nreg, path.regs j = GIF_REG_A_D
  xyzf2 : path.type = .STQRGBAXYZF2 → path.loopRegs = [0x02, 0x01, 0x04]
  xyz2 : path.type = .STQRGBAXYZ2 → path.loopRegs = [0x02, 0x01, 0x05]

theorem loopRegs_length (path : GIFPath) : path.loopRegs.length = path.nreg := by
  unfold loopRegs
  rw [List.length_map, List.length_range]

theorem left_length (path : GIFPath) : path.left.length = path.nloop * path.nreg - path.reg := by
  unfold left
  rw [List.length_drop, List.length_flatten, List.map_replicate, List.sum_replicate_nat, loopRegs_length]

theorem step_left (unfinished : path.nloop ≠ 0) (inside : path.reg < path.nreg) :
    path.left = path.GetReg :: path.StepReg.1.left ∧
      (path.StepReg.2 = true ↔ path.StepReg.1.left ≠ []) := by
  obtain ⟨nloop, count⟩ := Nat.exists_eq_succ_of_ne_zero unfinished
  have length := path.loopRegs_length
  have first : path.left = path.GetReg :: (path.loopRegs.drop (path.reg + 1) ++
      (List.replicate nloop path.loopRegs).flatten) := by
    unfold left
    rw [count, List.replicate_succ, List.flatten_cons, List.drop_append_of_le_length (by omega),
      List.drop_eq_getElem_cons (by omega), List.cons_append]
    congr 1
    simp [loopRegs, GetReg]
  unfold StepReg
  by_cases last : path.reg + 1 = path.nreg
  · rw [if_pos last]
    have rest : GIFPath.left { path with reg := 0, nloop := path.nloop - 1 } =
        (List.replicate nloop path.loopRegs).flatten := by
      unfold left
      rw [count]
      rfl
    dsimp only
    rw [first, rest, List.drop_eq_nil_of_le (by omega), List.nil_append]
    refine ⟨rfl, ?_⟩
    rw [decide_eq_true_iff, count, Nat.succ_sub_one, ne_eq, ne_eq, not_iff_not, ← List.length_eq_zero_iff, List.length_flatten,
      List.map_replicate, List.sum_replicate_nat, length, Nat.mul_eq_zero]
    exact (or_iff_left (by omega)).symm
  · rw [if_neg last]
    have rest : GIFPath.left { path with reg := path.reg + 1 } =
        path.loopRegs.drop (path.reg + 1) ++ (List.replicate nloop path.loopRegs).flatten := by
      unfold left
      dsimp only
      rw [count, List.replicate_succ, List.flatten_cons]
      exact List.drop_append_of_le_length (length.symm ▸ inside)
    dsimp only
    rw [first, rest]
    refine ⟨rfl, iff_of_true rfl fun none => ?_⟩
    have empty := congrArg List.length none
    rw [List.length_append, List.length_drop, List.length_nil] at empty
    omega

theorem step_last (last : path.reg + 1 = path.nreg) :
    path.StepReg = ({ path with reg := 0, nloop := path.nloop - 1 }, decide (path.nloop - 1 ≠ 0)) := if_pos last

theorem step_next (more : path.reg + 1 ≠ path.nreg) : path.StepReg = ({ path with reg := path.reg + 1 }, true) :=
  if_neg more

theorem step_fields (path : GIFPath) : path.StepReg.1.tag = path.tag ∧ path.StepReg.1.nreg = path.nreg ∧
    path.StepReg.1.type = path.type ∧ path.StepReg.1.regs = path.regs := by
  unfold StepReg
  split <;> exact ⟨rfl, rfl, rfl, rfl⟩

theorem step_reg (inside : path.reg < path.nreg) : path.StepReg.1.reg < path.StepReg.1.nreg := by
  unfold StepReg
  split <;> dsimp only <;> omega

theorem step_sound (sound : path.Sound) (unfinished : path.nloop ≠ 0) : path.StepReg.1.Sound := by
  obtain ⟨-, nreg, type, regs⟩ := path.step_fields
  have loop : path.StepReg.1.loopRegs = path.loopRegs := by
    unfold loopRegs
    rw [nreg, regs]
  refine ⟨fun _ => step_reg (sound.reg unfinished), ?_, ?_, ?_⟩
  · rw [type, nreg, regs]
    exact sound.adOnly
  · rw [type, loop]
    exact sound.xyzf2
  · rw [type, loop]
    exact sound.xyz2

theorem left_ne_nil (sound : path.Sound) : path.left ≠ [] ↔ path.nloop ≠ 0 := by
  rw [ne_eq, ← List.length_eq_zero_iff, left_length]
  by_cases none : path.nloop = 0
  · rw [none, Nat.zero_mul, Nat.zero_sub]
  · have inside := sound.reg none
    have positive := Nat.mul_le_mul_right path.nreg (Nat.one_le_iff_ne_zero.mpr none)
    refine iff_of_true (fun empty => ?_) none
    omega

theorem loop_spec (sound : path.Sound) (unfinished : path.nloop ≠ 0) {data : List α} (given : data ≠ []) :
    ∃ next, path.loop handler data = some (next, List.zipWith handler path.left data, data.drop path.left.length) ∧
      next.Sound ∧ next.tag = path.tag ∧ next.left = path.left.drop data.length := by
  induction data generalizing path with
  | nil => exact absurd rfl given
  | cons r rest ih =>
    obtain ⟨first, goesOn⟩ := step_left unfinished (sound.reg unfinished)
    have stepSound := step_sound sound unfinished
    rw [loop, first]
    by_cases more : path.StepReg.2 = true ∧ rest ≠ []
    · rw [if_pos more]
      have loops := (left_ne_nil stepSound).mp (goesOn.mp more.1)
      obtain ⟨next, result, nextSound, tag, left⟩ := ih stepSound loops more.2
      refine ⟨next, ?_, nextSound, tag.trans path.step_fields.1, left⟩
      rw [result]
      rfl
    · rw [if_neg more]
      refine ⟨path.StepReg.1, ?_, stepSound, path.step_fields.1, ?_⟩
      · have nothing : path.StepReg.1.left = [] ∨ rest = [] := by
          by_contra both
          rw [not_or] at both
          exact more ⟨goesOn.mpr both.1, both.2⟩
        rcases nothing with empty | empty
        · rw [empty]
          simp
        · rw [empty]
          simp
      · by_cases empty : rest = []
        · rw [empty]
          rfl
        · have ended : path.StepReg.1.left = [] := by
            by_contra left
            exact more ⟨goesOn.mpr left, empty⟩
          rw [List.length_cons, List.drop_succ_cons, ended, List.drop_nil]

/-! ## To the start of the list -/

variable {data : List Quadword}

theorem toStart_spec (sound : path.Sound) (unfinished : path.nloop ≠ 0)
    (more : path.nreg - path.reg < data.length) :
    path.toStart data = some ({ path with reg := 0, nloop := path.nloop - 1 },
      List.zipWith packedRegHandler path.left (data.take (path.nreg - path.reg)), data.drop (path.nreg - path.reg)) := by
  have inside := sound.reg unfinished
  induction data generalizing path with
  | nil => cases more
  | cons r rest ih =>
    obtain ⟨first, -⟩ := step_left unfinished inside
    have stepSound := step_sound sound unfinished
    rw [List.length_cons] at more
    have given : rest ≠ [] := by
      rintro rfl
      rw [List.length_nil] at more
      omega
    rw [toStart, first]
    by_cases last : path.reg + 1 = path.nreg
    · have one : path.nreg - path.reg = 1 := by omega
      rw [one, step_last last, if_neg fun goesOn => goesOn.2.2 rfl, List.take_succ_cons, List.take_zero,
        List.zipWith_cons_cons, List.zipWith_nil_right]
      rfl
    · obtain ⟨n, count⟩ := Nat.exists_eq_succ_of_ne_zero (show path.nreg - path.reg ≠ 0 by omega)
      have fewer : path.nreg - (path.reg + 1) = n := by omega
      rw [step_next last] at stepSound first ⊢
      have tail := ih stepSound unfinished (by dsimp only; omega) (by dsimp only; omega)
      dsimp only at tail
      rw [if_pos ⟨rfl, given, Nat.succ_ne_zero _⟩, tail, count, fewer]
      rfl

theorem toStart_short (sound : path.Sound) (unfinished : path.nloop ≠ 0) (given : data ≠ [])
    (less : data.length ≤ path.nreg - path.reg) : ∃ next effects, path.toStart data = some (next, effects, []) := by
  have inside := sound.reg unfinished
  induction data generalizing path with
  | nil => exact absurd rfl given
  | cons r rest ih =>
    rw [List.length_cons] at less
    rw [toStart]
    by_cases goesOn : path.StepReg.2 = true ∧ rest ≠ [] ∧ path.StepReg.1.reg ≠ 0
    · rw [if_pos goesOn]
      have last : path.reg + 1 ≠ path.nreg := by
        intro last
        rw [step_last last] at goesOn
        exact goesOn.2.2 rfl
      have stepSound := step_sound sound unfinished
      rw [step_next last] at stepSound ⊢
      obtain ⟨next, effects, result⟩ := ih stepSound unfinished goesOn.2.1 (by dsimp only; omega) (by dsimp only; omega)
      rw [result]
      exact ⟨next, _, rfl⟩
    · rw [if_neg goesOn]
      have taken : rest = [] := by
        by_contra rest
        have last : path.reg + 1 = path.nreg := by
          by_contra last
          rw [step_next last] at goesOn
          exact goesOn ⟨rfl, rest, Nat.succ_ne_zero _⟩
        have some := List.length_pos_iff.mpr rest
        omega
      rw [taken]
      exact ⟨_, _, rfl⟩

/-! ## All data at once -/

theorem whole_spec {handler : Nat → Quadword → Effect} (sound : path.Sound)
    (same : ∀ j < path.nreg, handler j = packedRegHandler (path.regs j)) (unfinished : path.nloop ≠ 0)
    (fits : path.left.length ≤ data.length) :
    whole handler path.nreg path.reg path.left.length data =
      some (List.zipWith packedRegHandler path.left data, data.drop path.left.length) := by
  have inside := sound.reg unfinished
  induction data generalizing path with
  | nil =>
    have none := (left_ne_nil sound).mpr unfinished
    exact absurd (List.eq_nil_of_length_eq_zero (Nat.le_zero.mp fits)) none
  | cons r rest ih =>
    obtain ⟨first, goesOn⟩ := step_left unfinished inside
    obtain ⟨-, nreg, -, regs⟩ := path.step_fields
    have stepSound := step_sound sound unfinished
    have next : (if path.reg + 1 < path.nreg then path.reg + 1 else 0) = path.StepReg.1.reg := by
      unfold StepReg
      by_cases last : path.reg + 1 = path.nreg
      · rw [if_neg (by omega), if_pos last]
      · rw [if_pos (by omega), if_neg last]
    rw [first, List.length_cons] at fits ⊢
    rw [whole, next, same path.reg inside]
    unfold decrement
    rw [if_neg (Nat.succ_ne_zero _), Nat.succ_sub_one]
    by_cases ended : path.StepReg.1.left = []
    · rw [ended, if_pos List.length_nil]
      simp [GetReg]
    · have loops := (left_ne_nil stepSound).mp ended
      have rest := ih stepSound (by rw [nreg, regs]; exact same) loops (Nat.le_of_succ_le_succ fits)
        (step_reg inside)
      rw [nreg] at rest
      rw [if_neg fun none => ended (List.eq_nil_of_length_eq_zero none), rest]
      rfl

theorem whole_none (handler : Nat → Quadword → Effect) (nreg reg : Nat) {total : Nat}
    (short : data.length < total) : whole handler nreg reg total data = none := by
  induction data generalizing reg total with
  | nil => rfl
  | cons r rest ih =>
    rw [List.length_cons] at short
    have less : decrement total = total - 1 := if_neg (by omega)
    rw [whole, less, if_neg (by omega), ih _ (by omega)]
    rfl

theorem whole_zero (handler : Nat → Quadword → Effect) (nreg reg : Nat)
    (fits : data.length < 2 ^ 31) : whole handler nreg reg 0 data = none := by
  cases data with
  | nil => rfl
  | cons r rest =>
    rw [List.length_cons] at fits
    have wrapped : decrement 0 = 2 ^ 32 - 1 := rfl
    rw [whole, wrapped, if_neg (by omega), whole_none handler nreg _ (by omega)]
    rfl

theorem threes_spec (XYZ : Nat) {count : Nat} (positive : count ≠ 0) (fits : 3 * count ≤ data.length) :
    threes XYZ count data =
      some (List.zipWith packedRegHandler (List.replicate count [0x02, 0x01, XYZ]).flatten data, data.drop (3 * count)) := by
  induction count generalizing data with
  | zero => exact absurd rfl positive
  | succ count ih =>
    obtain ⟨stq, rgba, xyz, rest, rfl⟩ : ∃ stq rgba xyz rest, data = stq :: rgba :: xyz :: rest := by
      match data with
      | stq :: rgba :: xyz :: rest => exact ⟨stq, rgba, xyz, rest, rfl⟩
      | [] => cases fits
      | [_] => rw [List.length_singleton] at fits; omega
      | [_, _] => rw [List.length_cons, List.length_singleton] at fits; omega
    have drops : 3 * (count + 1) = 3 * count + 1 + 1 + 1 := by omega
    rw [drops, List.drop_succ_cons, List.drop_succ_cons, List.drop_succ_cons, List.replicate_succ, List.flatten_cons]
    cases count with
    | zero => simp [threes]
    | succ count =>
      rw [List.length_cons, List.length_cons, List.length_cons] at fits
      rw [threes, ih (Nat.succ_ne_zero _) (by omega)]
      rfl

theorem bulk_spec (sound : path.Sound) (start : path.reg = 0) (unfinished : path.nloop ≠ 0)
    (fits : path.nloop * path.nreg ≤ data.length) :
    path.bulk (path.nloop * path.nreg) data =
      some (List.zipWith packedRegHandler path.left data, data.drop (path.nloop * path.nreg)) := by
  have total := path.left_length
  rw [start, Nat.sub_zero] at total
  have three : ∀ {XYZ}, path.loopRegs = [0x02, 0x01, XYZ] → path.nreg = 3 ∧
      path.left = (List.replicate path.nloop [0x02, 0x01, XYZ]).flatten := by
    intro XYZ regs
    refine ⟨?_, ?_⟩
    · rw [← path.loopRegs_length, regs]
      rfl
    · unfold left
      rw [start, regs, List.drop_zero]
  have threes : ∀ {XYZ}, path.loopRegs = [0x02, 0x01, XYZ] → threes XYZ (path.nloop * path.nreg / 3) data =
      some (List.zipWith packedRegHandler path.left data, data.drop (path.nloop * path.nreg)) := by
    intro XYZ regs
    obtain ⟨nreg, left⟩ := three regs
    rw [nreg] at fits ⊢
    rw [left, Nat.mul_div_cancel _ (by decide), threes_spec XYZ unfinished (by omega), Nat.mul_comm 3]
  unfold bulk
  cases type : path.type with
  | UNKNOWN =>
    have result := whole_spec sound (fun _ _ => rfl) unfinished (total.trans_le fits)
    rwa [start, total] at result
  | ADONLY =>
    have same : ∀ j < path.nreg, (fun r => GIFPackedRegHandlerA_D r) = packedRegHandler (path.regs j) := by
      intro j inside
      rw [sound.adOnly type j inside]
      rfl
    have result := whole_spec sound same unfinished (total.trans_le fits)
    rwa [start, total] at result
  | STQRGBAXYZF2 => exact threes (sound.xyzf2 type)
  | STQRGBAXYZ2 => exact threes (sound.xyz2 type)

theorem bulk_zero (path : GIFPath) (fits : data.length < 2 ^ 31) : path.bulk 0 data = none := by
  unfold bulk
  cases path.type with
  | UNKNOWN => exact whole_zero _ _ _ fits
  | ADONLY => exact whole_zero _ _ _ fits
  | STQRGBAXYZF2 => rfl
  | STQRGBAXYZ2 => rfl

end GIFPath

end Pcsx2.GsTransfer
