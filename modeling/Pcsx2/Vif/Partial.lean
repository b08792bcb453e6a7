import Mathlib.Data.Nat.ModEq
import Mathlib.Tactic.Linarith
import Mathlib.Tactic.Ring
import Pcsx2.Vif.UnpackLoop

/-!
# NUM while an UNPACK is under way

An UNPACK whose data arrives in several fragments is collected first. Until it is complete only
`NUM` tells how far it is, and each fragment lowers it on its own.
-/

namespace Pcsx2.Vif

/-- What the fragments of an UNPACK move: `NUM`, `vif.tag.size` and the bytes that are buffered. -/
structure Collected where
  num : Int
  size : Nat
  bSize : Nat

namespace UnpackCode

variable (unpack : UnpackCode)

/-- `vif.tag.size` after the setup, in words. -/
def words (idx : Idx) : Nat := (vifUnpackSetup idx unpack).size

def vSize : Nat := nVifT unpack.upkNum

/-- What a partial transfer of `size` bytes takes from `NUM`, `none` where it divides by zero. -/
def decrement (size : Nat) : Option Int :=
  if unpack.vSize = 0 then none
  else if !unpack.cycle.isFill then some (size / unpack.vSize : Nat)
  else
    let dataSize := size / unpack.vSize
    let cl := unpack.cycle.cl.toNat
    if cl = 0 then none
    else some ((dataSize / cl : Nat) * ((unpack.cycle.wl.toNat : Int) - cl) + dataSize)

/-- `nVifUnpack`, without the data. `NUM` has 32 bits. -/
def nVifUnpack (vifpacketsize : Nat) (vif : Collected) : Option Collected :=
  let ret := min vifpacketsize vif.size
  let size := ret <<< 2
  if ret = vif.size then some ⟨0, 0, 0⟩
  else do
    let decrement ← unpack.decrement size
    return ⟨(vif.num - decrement) % 2 ^ 32, vif.size - ret, vif.bSize + size⟩

def collect (idx : Idx) (fragments : List Nat) : Option Collected :=
  let setup := vifUnpackSetup idx unpack
  fragments.foldlM (fun vif vifpacketsize => unpack.nVifUnpack vifpacketsize vif) ⟨setup.num, setup.size, 0⟩

/-! ## What NUM should be -/

def vectors (received : Nat) : Nat := 4 * received / unpack.vSize

def writable (data : Nat) : Nat :=
  let cl := unpack.cycle.cl.toNat
  if unpack.cycle.isFill then data + data / cl * (unpack.cycle.writes - cl) else data

/-- After each fragment of a payload that is not complete, `NUM` is what has not become writable. -/
def NumRight (idx : Idx) (fragments : List Nat) : Prop :=
  ∀ received, received <+: fragments → received.sum < unpack.words idx →
    ∃ vif, unpack.collect idx received = some vif ∧
      vif.num = vifNum unpack.num - unpack.writable (unpack.vectors received.sum) ∧ 0 ≤ vif.num ∧ vif.num ≤ vifNum unpack.num

/-- A fragment completes the vectors it has by itself and no further one, and the groups of `CL`
vectors likewise; with a `WL` of 0 it completes no group. -/
def Separate (before fragment : Nat) : Prop :=
  let cl := unpack.cycle.cl.toNat
  unpack.vectors (before + fragment) = unpack.vectors before + unpack.vectors fragment ∧
    (unpack.cycle.isFill = true → unpack.vectors (before + fragment) / cl = unpack.vectors before / cl +
      if unpack.cycle.wl = 0 then 0 else unpack.vectors fragment / cl)

def AllSeparate (idx : Idx) (fragments : List Nat) : Prop :=
  ∀ received fragment, received ++ [fragment] <+: fragments → received.sum + fragment < unpack.words idx →
    unpack.Separate received.sum fragment

/-! ## The payload -/

variable {unpack} {idx : Idx} {data words before fragment : Nat} {fragments received : List Nat}

theorem taken_writable (loops : unpack.cycle.isFill = true → unpack.cycle.cl ≠ 0) :
    unpack.cycle.taken (unpack.writable data) = data ∧ unpack.cycle.takes (unpack.writable data) = true := by
  unfold writable Cycle.taken Cycle.takes
  cases fills : unpack.cycle.isFill with
  | false => exact ⟨rfl, rfl⟩
  | true =>
      have below : unpack.cycle.cl.toNat < unpack.cycle.writes := of_decide_eq_true fills
      have positive : 0 < unpack.cycle.cl.toNat := Nat.pos_of_ne_zero fun zero => loops fills (BitVec.eq_of_toNat_eq zero)
      generalize unpack.cycle.cl.toNat = cl at *
      generalize unpack.cycle.writes = wl at *
      have part := Nat.mod_lt data positive
      have whole := Nat.div_add_mod data cl
      have same : data + data / cl * (wl - cl) = wl * (data / cl) + data % cl := by
        obtain ⟨more, rfl⟩ := Nat.exists_eq_add_of_lt below
        rw [show cl + more + 1 - cl = more + 1 by omega]
        nlinarith
      have inside : data % cl < wl := by omega
      simp only [if_true, Bool.not_true, Bool.false_or, decide_eq_true_eq]
      rw [same, Nat.mul_add_div (by omega), Nat.mul_add_mod, Nat.div_eq_of_lt inside, Nat.mod_eq_of_lt inside,
        Nat.add_zero, Nat.min_eq_left part.le]
      exact ⟨whole, part⟩

theorem incomplete (short : words < unpack.words idx) :
    0 < unpack.vSize ∧ (unpack.cycle.isFill = true → unpack.cycle.cl ≠ 0) ∧
      unpack.writable (unpack.vectors words) < vifNum unpack.num := by
  rw [UnpackCode.words, vifUnpackSetup_size] at short
  change words < (unpack.vSize * _ + 3) / 4 at short
  have vSize : 0 < unpack.vSize := by
    apply Nat.pos_of_ne_zero
    intro zero
    rw [zero, Nat.zero_mul] at short
    omega
  have loops : unpack.cycle.isFill = true → unpack.cycle.cl ≠ 0 := by
    intro fills zero
    rw [Cycle.taken, if_pos fills, zero] at short
    simp at short
  have fewer : unpack.vectors words < unpack.cycle.taken (vifNum unpack.num) := by
    rw [vectors, Nat.div_lt_iff_lt_mul vSize, Nat.mul_comm]
    rw [Nat.mul_comm] at short ⊢
    omega
  refine ⟨vSize, loops, ?_⟩
  by_contra past
  have enough := unpack.cycle.taken_mono (Nat.le_of_not_lt past)
  rw [(taken_writable loops).1] at enough
  omega

/-! ## One fragment -/

/-- What a fragment takes from `NUM`, where nothing is divided by zero. -/
def taking (unpack : UnpackCode) (fragment : Nat) : Int :=
  let cl := unpack.cycle.cl.toNat
  if unpack.cycle.isFill then
    (unpack.vectors fragment / cl : Nat) * ((unpack.cycle.wl.toNat : Int) - cl) + unpack.vectors fragment
  else unpack.vectors fragment

theorem decrement_eq (vSize : 0 < unpack.vSize) (loops : unpack.cycle.isFill = true → unpack.cycle.cl ≠ 0) :
    unpack.decrement (4 * fragment) = some (unpack.taking fragment) := by
  unfold decrement taking vectors
  rw [if_neg vSize.ne']
  cases fills : unpack.cycle.isFill with
  | false => rfl
  | true =>
      have positive : unpack.cycle.cl.toNat ≠ 0 := fun zero => loops fills (BitVec.eq_of_toNat_eq zero)
      simp only [Bool.not_true, if_neg positive]
      rfl

theorem nVifUnpack_partial {vif : Collected} (part : fragment < vif.size) : unpack.nVifUnpack fragment vif =
    (unpack.decrement (4 * fragment)).map fun decrement =>
      ⟨(vif.num - decrement) % 2 ^ 32, vif.size - fragment, vif.bSize + 4 * fragment⟩ := by
  have ret : min fragment vif.size = fragment := Nat.min_eq_left part.le
  have bytes : fragment <<< 2 = 4 * fragment := by rw [Nat.shiftLeft_eq, Nat.mul_comm]
  unfold nVifUnpack
  simp only [ret, bytes, if_neg part.ne]
  cases unpack.decrement (4 * fragment) <;> rfl

theorem writable_add_iff (loops : unpack.cycle.isFill = true → unpack.cycle.cl ≠ 0) :
    (unpack.writable (unpack.vectors (before + fragment)) : Int) - unpack.writable (unpack.vectors before) =
      unpack.taking fragment ↔ unpack.Separate before fragment := by
  have vectors : unpack.vectors before + unpack.vectors fragment ≤ unpack.vectors (before + fragment) := by
    unfold UnpackCode.vectors
    rw [Nat.mul_add]
    exact Nat.div_add_div_le_add_div
  unfold writable taking Separate
  generalize unpack.vectors before = a at *
  generalize unpack.vectors fragment = b at *
  generalize unpack.vectors (before + fragment) = c at *
  cases fills : unpack.cycle.isFill with
  | false => simp; omega
  | true =>
      have below : unpack.cycle.cl.toNat < unpack.cycle.writes := of_decide_eq_true fills
      have positive : 0 < unpack.cycle.cl.toNat := Nat.pos_of_ne_zero fun zero => loops fills (BitVec.eq_of_toNat_eq zero)
      have groups : a / unpack.cycle.cl.toNat + b / unpack.cycle.cl.toNat ≤ c / unpack.cycle.cl.toNat :=
        Nat.div_add_div_le_add_div.trans (Nat.div_le_div_right vectors)
      have raw : unpack.cycle.wl = 0 ↔ unpack.cycle.wl.toNat = 0 := BitVec.toNat_inj.symm
      have zero_or := unpack.cycle.writes_cases
      simp only [if_true, true_imp_iff, raw]
      generalize unpack.cycle.wl.toNat = wl at *
      generalize unpack.cycle.cl.toNat = cl at *
      generalize unpack.cycle.writes = writes at *
      obtain ⟨more, rfl⟩ := Nat.exists_eq_add_of_lt below
      rw [show cl + more + 1 - cl = more + 1 by omega]
      generalize a / cl = groups_a at *
      generalize b / cl = groups_b at *
      generalize c / cl = groups_c at *
      obtain ⟨x, rfl⟩ := Nat.exists_eq_add_of_le vectors
      obtain ⟨y, rfl⟩ := Nat.exists_eq_add_of_le groups
      rcases zero_or with ⟨rfl, -⟩ | ⟨positive', rfl⟩
      · have missed : ((a + b + x + (groups_a + groups_b + y) * (more + 1) : Nat) : Int) -
            (a + groups_a * (more + 1) : Nat) = groups_b * (((0 : Nat) : Int) - cl) + b ↔
            x + (groups_b + y) * (more + 1) + groups_b * cl = 0 := by
          zify
          constructor <;> intro eq <;> linarith
        rw [missed, if_pos rfl, Nat.add_eq_zero_iff, Nat.add_eq_zero_iff, Nat.mul_eq_zero]
        constructor
        · rintro ⟨⟨none, groups | no⟩, -⟩ <;> omega
        · rintro ⟨none, groups⟩
          obtain rfl : groups_b = 0 := by omega
          exact ⟨⟨by omega, .inl (by omega)⟩, Nat.zero_mul _⟩
      · have missed : ((a + b + x + (groups_a + groups_b + y) * (more + 1) : Nat) : Int) -
            (a + groups_a * (more + 1) : Nat) = groups_b * (((cl + more + 1 : Nat) : Int) - cl) + b ↔
            x + y * (more + 1) = 0 := by
          zify
          constructor <;> intro eq <;> linarith
        rw [missed, if_neg (by omega), Nat.add_eq_zero_iff, Nat.mul_eq_zero]
        omega

theorem taking_bound (incomplete : unpack.vectors fragment < 256) :
    -100000 < unpack.taking fragment ∧ unpack.taking fragment < 100000 := by
  have wl := unpack.cycle.wl.isLt
  have cl := unpack.cycle.cl.isLt
  have groups : unpack.vectors fragment / unpack.cycle.cl.toNat < 256 := (Nat.div_le_self _ _).trans_lt incomplete
  unfold taking
  cases unpack.cycle.isFill with
  | false => simp; omega
  | true =>
      simp only [if_true]
      generalize unpack.vectors fragment / unpack.cycle.cl.toNat = groups at *
      constructor <;> nlinarith

/-! ## All fragments -/

theorem data_le_writable : data ≤ unpack.writable data := by
  unfold writable
  split
  · exact Nat.le_add_right _ _
  · exact Nat.le_refl _

theorem collect_append : unpack.collect idx (received ++ [fragment]) =
    (unpack.collect idx received).bind (unpack.nVifUnpack fragment) := by
  unfold collect
  simp only [List.foldlM_append, List.foldlM_cons, List.foldlM_nil, bind_pure]
  rfl

theorem sum_append : (received ++ [fragment]).sum = received.sum + fragment := by simp

theorem collect_next {vif : Collected} (short : received.sum + fragment < unpack.words idx)
    (collected : unpack.collect idx received = some vif) (size : vif.size + received.sum = unpack.words idx) :
    unpack.collect idx (received ++ [fragment]) =
      some ⟨(vif.num - unpack.taking fragment) % 2 ^ 32, vif.size - fragment, vif.bSize + 4 * fragment⟩ := by
  obtain ⟨vSize, loops, -⟩ := incomplete short
  rw [collect_append, collected, Option.bind_some, nVifUnpack_partial (by omega), decrement_eq vSize loops]
  rfl

theorem collect_incomplete (short : received.sum < unpack.words idx) :
    ∃ vif, unpack.collect idx received = some vif ∧ vif.size + received.sum = unpack.words idx := by
  induction received using List.reverseRecOn with
  | nil => exact ⟨_, rfl, rfl⟩
  | append_singleton received fragment ih =>
      rw [sum_append] at short ⊢
      obtain ⟨vif, collected, size⟩ := ih (by omega)
      exact ⟨_, collect_next short collected size, by dsimp only; omega⟩

theorem num_step_iff {num : Int} (short : received.sum + fragment < unpack.words idx)
    (right : num = vifNum unpack.num - unpack.writable (unpack.vectors received.sum)) :
    (num - unpack.taking fragment) % 2 ^ 32 =
        vifNum unpack.num - unpack.writable (unpack.vectors (received.sum + fragment)) ↔
      unpack.Separate received.sum fragment := by
  obtain ⟨-, loops, fewer⟩ := incomplete short
  have before_short : received.sum < unpack.words idx := by omega
  have own_short : fragment < unpack.words idx := by omega
  have fewer' := (incomplete before_short).2.2
  have own := (incomplete own_short).2.2
  have few := (vifNum_le unpack.num).2
  have bound : -100000 < unpack.taking fragment ∧ unpack.taking fragment < 100000 :=
    taking_bound (data_le_writable.trans_lt (own.trans_le few))
  rw [← writable_add_iff loops, right]
  omega

theorem num_right (separate : unpack.AllSeparate idx fragments) (prior : received <+: fragments)
    (short : received.sum < unpack.words idx) :
    ∃ vif, unpack.collect idx received = some vif ∧ vif.size + received.sum = unpack.words idx ∧
      vif.num = vifNum unpack.num - unpack.writable (unpack.vectors received.sum) := by
  induction received using List.reverseRecOn with
  | nil => exact ⟨_, rfl, rfl, by simp [UnpackCode.vectors, writable, vifUnpackSetup]⟩
  | append_singleton received fragment ih =>
      rw [sum_append] at short ⊢
      obtain ⟨vif, collected, size, right⟩ := ih ((List.prefix_append _ _).trans prior) (by omega)
      exact ⟨_, collect_next short collected size, by dsimp only; omega,
        (num_step_iff short right).2 (separate received fragment prior short)⟩

end UnpackCode

open UnpackCode

theorem num_right_iff (idx : Idx) (unpack : UnpackCode) (fragments : List Nat) :
    unpack.NumRight idx fragments ↔ unpack.AllSeparate idx fragments := by
  constructor
  · intro right received fragment prior short
    have before_short : received.sum < unpack.words idx := by omega
    obtain ⟨vif, collected, size⟩ := collect_incomplete before_short
    obtain ⟨vif', collected', num, -⟩ := right received ((List.prefix_append _ _).trans prior) before_short
    obtain rfl : vif = vif' := Option.some.inj (collected.symm.trans collected')
    obtain ⟨after, next, num', -⟩ := right (received ++ [fragment]) prior (by rwa [sum_append])
    rw [collect_next short collected size] at next
    cases next
    rw [sum_append] at num'
    exact (num_step_iff short num).1 num'
  · intro separate received prior short
    obtain ⟨vif, collected, -, right⟩ := num_right separate prior short
    have fewer := (incomplete short).2.2
    exact ⟨vif, collected, right, by omega, by omega⟩

/-- Two vectors of V3-32 in fragments of a word: one is complete, and `NUM` is still 2. -/
theorem num_stays : ¬UnpackCode.NumRight ⟨0x68020000, 0x68, ⟨1, 1⟩, 0, 1⟩ .vif0 [1, 1, 1] := by
  intro right
  obtain ⟨vif, collected, num, -⟩ := right [1, 1, 1] List.prefix_rfl (by decide)
  have stays : UnpackCode.collect ⟨0x68020000, 0x68, ⟨1, 1⟩, 0, 1⟩ .vif0 [1, 1, 1] = some ⟨2, 3, 12⟩ := rfl
  obtain rfl := Option.some.inj (stays.symm.trans collected)
  revert num
  decide

end Pcsx2.Vif
