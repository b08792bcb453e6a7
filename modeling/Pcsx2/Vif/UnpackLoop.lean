import Mathlib.Algebra.Order.Ring.Int
import Mathlib.Data.List.Count
import Mathlib.Data.List.Range
import Pcsx2.Vif.Ownership

/-!
# The cycles of an UNPACK

How long an UNPACK is set up to be, and which addresses the interpreter's loop writes from which
data.
-/

namespace Pcsx2.Vif

/-- The bytes of a vector, by its format. -/
def nVifT (upkNum : BitVec 4) : Nat := [4, 2, 1, 0, 8, 4, 2, 0, 12, 6, 3, 0, 16, 8, 4, 2].getD upkNum.toNat 0

/-- The `CYCLE` register. -/
structure Cycle where
  cl : BitVec 8
  wl : BitVec 8
  deriving DecidableEq

namespace Cycle

variable (cycle : Cycle)

/-- 0 is taken as 256. -/
def writes : Nat := if cycle.wl = 0 then 256 else cycle.wl.toNat

def isFill : Bool := cycle.cl.toNat < cycle.writes

end Cycle

/-- `NUM`, 0 taken as 256. -/
def vifNum (num : BitVec 8) : Nat := if num = 0 then 256 else num.toNat

/-! ## Setup -/

/-- What `vifUnpackSetup` reads. -/
structure UnpackCode where
  code : BitVec 32
  cmd : BitVec 8
  cycle : Cycle
  tops : BitVec 32
  vifpacketsize : Nat

/-- What `vifUnpackSetup` leaves in the unit. -/
structure UnpackSetup where
  usn : Bool
  num : Nat
  size : Nat
  addr : BitVec 32
  cl : Nat
  start_aligned : Nat
  deriving DecidableEq

def limit (a max : Nat) : Nat := if max < a then max else a

def UnpackCode.num (unpack : UnpackCode) : BitVec 8 := unpack.code.extractLsb' 16 8

def UnpackCode.upkNum (unpack : UnpackCode) : BitVec 4 := unpack.cmd.extractLsb' 0 4

def vifUnpackSetup (idx : Idx) (unpack : UnpackCode) : UnpackSetup :=
  let cycle := unpack.cycle
  let num := vifNum unpack.num
  let gsize := nVifT unpack.upkNum
  let wl := cycle.writes
  let size :=
    if wl ≤ cycle.cl.toNat then (num * gsize + 3) / 4
    else
      let n := cycle.cl.toNat * (num / wl) + limit (num % wl) cycle.cl.toNat
      (n * gsize + 3) >>> 2
  let addr : BitVec 32 := match idx with
    | .vif0 => unpack.code
    | .vif1 => if unpack.code.getLsbD 15 then unpack.code + unpack.tops else unpack.code
  { usn := unpack.code.getLsbD 14
    num
    size
    addr := (addr <<< 4) &&& (match idx with | .vif0 => 0xff0 | .vif1 => 0x3ff0)
    cl := 0
    start_aligned := 4 - (unpack.vifpacketsize - 1) % 4 }

/-! ## The interpreter's loop -/

/-- The variables of `_nVifUnpackLoop` that move: `vif.tag.addr`, the data pointer and `vif.cl`. -/
structure Position where
  addr : Nat
  data : Nat
  cl : Nat
  deriving DecidableEq

section

variable (cycle : Cycle) (vSize : Nat)

def Position.next (p : Position) : Position :=
  let skipSize := (cycle.cl.toNat - cycle.wl.toNat) * 16
  let p := { p with addr := p.addr + 16, cl := p.cl + 1 }
  if cycle.isFill then
    if p.cl ≤ cycle.cl.toNat then { p with data := p.data + vSize }
    else if p.cl = cycle.wl.toNat then { p with cl := 0 }
    else p
  else
    let p := { p with data := p.data + vSize }
    if cycle.wl.toNat ≤ p.cl then { p with addr := p.addr + skipSize, cl := 0 } else p

def Position.after (p : Position) : Nat → Position
  | 0 => p
  | k + 1 => (p.after k).next cycle vSize

/-- `_nVifUnpackLoop`, where `ft` writes a quadword. -/
def unpackLoop {σ : Type*} (ft : Position → σ → σ) : Nat → Position × σ → Position × σ
  | 0, s => s
  | num + 1, (p, s) => unpackLoop ft num (p.next cycle vSize, ft p s)

end

/-! ## Which cycle, address and data a write has -/

namespace Cycle

variable (cycle : Cycle)

/-- The cycles that take data take the next vector. -/
def takes (k : Nat) : Bool := !cycle.isFill || k % cycle.writes < cycle.cl.toNat

/-- How many vectors the first writes take. -/
def taken (k : Nat) : Nat :=
  if cycle.isFill then cycle.cl.toNat * (k / cycle.writes) + min (k % cycle.writes) cycle.cl.toNat else k

/-- The quadword of a write, from the start. -/
def place (k : Nat) : Nat :=
  if cycle.isFill then k else k / cycle.writes * cycle.cl.toNat + k % cycle.writes

theorem writes_cases : (cycle.wl.toNat = 0 ∧ cycle.writes = 256) ∨ (0 < cycle.wl.toNat ∧ cycle.writes = cycle.wl.toNat) := by
  unfold writes
  split
  · rename_i zero
    exact .inl ⟨by rw [zero]; rfl, rfl⟩
  · rename_i nonzero
    exact .inr ⟨Nat.pos_of_ne_zero fun zero => nonzero (BitVec.eq_of_toNat_eq zero), rfl⟩

theorem writes_pos : 0 < cycle.writes := by
  rcases cycle.writes_cases with ⟨-, writes⟩ | ⟨positive, writes⟩ <;> omega

theorem writes_le : cycle.writes ≤ 256 := by
  have := cycle.wl.isLt
  rcases cycle.writes_cases with ⟨-, writes⟩ | ⟨-, writes⟩ <;> omega

theorem writes_eq_of_skipping (skips : cycle.isFill = false) :
    cycle.writes = cycle.wl.toNat ∧ cycle.writes ≤ cycle.cl.toNat := by
  have above : ¬ cycle.cl.toNat < cycle.writes := of_decide_eq_false skips
  have := cycle.cl.isLt
  rcases cycle.writes_cases with ⟨-, writes⟩ | ⟨-, writes⟩ <;> omega

theorem next_cases (k : Nat) :
    ((k + 1) / cycle.writes = k / cycle.writes ∧ (k + 1) % cycle.writes = k % cycle.writes + 1 ∧
      k % cycle.writes + 1 < cycle.writes) ∨
    ((k + 1) / cycle.writes = k / cycle.writes + 1 ∧ (k + 1) % cycle.writes = 0 ∧
      k % cycle.writes + 1 = cycle.writes) := by
  have positive := cycle.writes_pos
  have below := Nat.mod_lt k positive
  have whole := Nat.div_add_mod k cycle.writes
  rcases Nat.lt_or_ge (k % cycle.writes + 1) cycle.writes with inside | past
  · left
    have split : k + 1 = cycle.writes * (k / cycle.writes) + (k % cycle.writes + 1) := by omega
    refine ⟨?_, ?_, inside⟩
    · rw [split, Nat.mul_add_div positive, Nat.div_eq_of_lt inside, Nat.add_zero]
    · rw [split, Nat.mul_add_mod, Nat.mod_eq_of_lt inside]
  · right
    have split : k + 1 = cycle.writes * (k / cycle.writes + 1) := by
      rw [Nat.mul_add, Nat.mul_one]
      omega
    refine ⟨?_, ?_, by omega⟩
    · rw [split, Nat.mul_div_cancel_left _ positive]
    · rw [split, Nat.mul_mod_right]

theorem taken_zero : cycle.taken 0 = 0 := by
  unfold taken
  split
  · rw [Nat.zero_div, Nat.mul_zero, Nat.zero_mod, Nat.zero_min]
  · rfl

theorem taken_succ (k : Nat) : cycle.taken (k + 1) = cycle.taken k + (cycle.takes k).toNat := by
  unfold taken takes
  cases fills : cycle.isFill with
  | false => rfl
  | true =>
    have below : cycle.cl.toNat < cycle.writes := of_decide_eq_true fills
    rw [if_pos rfl, if_pos rfl, Bool.not_true, Bool.false_or]
    rcases cycle.next_cases k with ⟨same, next, inside⟩ | ⟨quotient, next, last⟩
    · rw [same, next]
      by_cases takes : k % cycle.writes < cycle.cl.toNat
      · rw [decide_eq_true takes, Bool.toNat_true]
        omega
      · rw [decide_eq_false takes, Bool.toNat_false]
        omega
    · rw [quotient, next, Nat.mul_add, decide_eq_false (by omega), Bool.toNat_false]
      omega

theorem taken_eq_count (k : Nat) : cycle.taken k = (List.range k).countP cycle.takes := by
  induction k with
  | zero => exact cycle.taken_zero
  | succ k ih =>
    rw [taken_succ, List.range_succ, List.countP_append, ih, List.countP_singleton]
    cases cycle.takes k <;> rfl

theorem taken_mono {j k : Nat} (le : j ≤ k) : cycle.taken j ≤ cycle.taken k := by
  rw [taken_eq_count, taken_eq_count]
  exact (List.range_sublist.2 le).countP_le

theorem taken_le (k : Nat) : cycle.taken k ≤ k := by
  rw [taken_eq_count]
  exact List.countP_le_length.trans_eq List.length_range

theorem place_zero : cycle.place 0 = 0 := by
  unfold place
  split
  · rfl
  · rw [Nat.zero_div, Nat.zero_mul, Nat.zero_mod]

end Cycle

namespace Position

variable {cycle : Cycle} {vSize : Nat} (p : Position) (start : p.cl = 0)

include start

theorem after_spec (k : Nat) (few : k < 256) :
    p.after cycle vSize k =
      ⟨p.addr + 16 * cycle.place k, p.data + vSize * cycle.taken k, k % cycle.writes⟩ := by
  induction k with
  | zero =>
    rw [after, Cycle.place_zero, Cycle.taken_zero, Nat.zero_mod, Nat.mul_zero, Nat.mul_zero, Nat.add_zero,
      Nat.add_zero, ← start]
  | succ k ih =>
    have here := ih (by omega)
    have taken := cycle.taken_succ k
    rw [after, here, taken, Nat.mul_add]
    unfold next Cycle.place Cycle.takes
    cases fills : cycle.isFill with
    | true =>
      have below : cycle.cl.toNat < cycle.writes := of_decide_eq_true fills
      have large := cycle.writes_le
      simp only [if_true, Bool.not_true, Bool.false_or]
      rcases cycle.next_cases k with ⟨-, next, inside⟩ | ⟨-, next, last⟩
      · by_cases takes : k % cycle.writes < cycle.cl.toNat
        · rw [if_pos (by omega), next, decide_eq_true takes, Bool.toNat_true, Nat.mul_one, Nat.mul_add, Nat.add_assoc,
            Nat.add_assoc]
        · have short : ¬ k % cycle.writes + 1 = cycle.wl.toNat := by
            rcases cycle.writes_cases with ⟨zero, -⟩ | ⟨-, writes⟩ <;> omega
          rw [if_neg (by omega), if_neg short, next, decide_eq_false takes, Bool.toNat_false, Nat.mul_zero, Nat.mul_add,
            Nat.add_assoc]
          rfl
      · have full : k % cycle.writes + 1 = cycle.wl.toNat := by
          have := Nat.mod_le k cycle.writes
          rcases cycle.writes_cases with ⟨-, writes⟩ | ⟨-, writes⟩ <;> omega
        rw [if_neg (by omega), if_pos full, next, decide_eq_false (by omega), Bool.toNat_false, Nat.mul_zero, Nat.mul_add,
          Nat.add_assoc]
        rfl
    | false =>
      obtain ⟨writes, above⟩ := cycle.writes_eq_of_skipping fills
      simp only [Bool.false_eq_true, if_false, Bool.not_false, Bool.true_or, Bool.toNat_true]
      rcases cycle.next_cases k with ⟨same, next, inside⟩ | ⟨quotient, next, last⟩
      · rw [if_neg (by omega), same, next, Nat.mul_one, Position.mk.injEq]
        exact ⟨by omega, by omega, rfl⟩
      · rw [if_pos (by omega), quotient, next, ← writes, Nat.mul_one, Nat.add_mul, Position.mk.injEq]
        exact ⟨by omega, by omega, rfl⟩

theorem after_data (k : Nat) (few : k ≤ 256) : (p.after cycle vSize k).data = p.data + vSize * cycle.taken k := by
  cases k with
  | zero => rw [after, Cycle.taken_zero, Nat.mul_zero, Nat.add_zero]
  | succ k =>
    have below := Nat.mod_lt k cycle.writes_pos
    rw [after, after_spec p start k few, Cycle.taken_succ, Nat.mul_add]
    unfold next Cycle.takes
    cases fills : cycle.isFill with
    | true =>
      simp only [if_true, Bool.not_true, Bool.false_or]
      by_cases takes : k % cycle.writes < cycle.cl.toNat
      · rw [if_pos (by omega), decide_eq_true takes, Bool.toNat_true, Nat.mul_one]
        exact Nat.add_assoc _ _ _
      · rw [if_neg (by omega), decide_eq_false takes, Bool.toNat_false, Nat.mul_zero, Nat.add_zero]
        split <;> rfl
    | false =>
      simp only [Bool.false_eq_true, if_false, Bool.not_false, Bool.true_or, Bool.toNat_true, Nat.mul_one]
      split <;> exact Nat.add_assoc _ _ _

end Position

section

variable (cycle : Cycle) (vSize : Nat) {σ : Type*} (ft : Position → σ → σ)

theorem after_next (k : Nat) (p : Position) :
    (p.next cycle vSize).after cycle vSize k = p.after cycle vSize (k + 1) := by
  induction k with
  | zero => rfl
  | succ k ih => rw [Position.after, ih, ← Position.after]

theorem unpackLoop_fst (num : Nat) (p : Position) (s : σ) :
    (unpackLoop cycle vSize ft num (p, s)).1 = p.after cycle vSize num := by
  induction num generalizing p s with
  | zero => rfl
  | succ num ih => rw [unpackLoop, ih, after_next]

theorem unpackLoop_succ (num : Nat) (p : Position) (s : σ) :
    (unpackLoop cycle vSize ft (num + 1) (p, s)).2 =
      ft (p.after cycle vSize num) (unpackLoop cycle vSize ft num (p, s)).2 := by
  induction num generalizing p s with
  | zero => rfl
  | succ num ih => rw [unpackLoop, ih, unpackLoop, after_next]

end

/-! ## The size of the payload -/

theorem vifNum_le (num : BitVec 8) : 0 < vifNum num ∧ vifNum num ≤ 256 := by
  have := num.isLt
  unfold vifNum
  split
  · decide
  · rename_i nonzero
    exact ⟨Nat.pos_of_ne_zero fun zero => nonzero (BitVec.eq_of_toNat_eq zero), by omega⟩

theorem nVifT_le (upkNum : BitVec 4) : nVifT upkNum ≤ 16 := by
  revert upkNum
  decide

theorem vifUnpackSetup_size (idx : Idx) (unpack : UnpackCode) : (vifUnpackSetup idx unpack).size =
    (nVifT unpack.upkNum * unpack.cycle.taken (vifNum unpack.num) + 3) / 4 := by
  unfold vifUnpackSetup Cycle.taken
  dsimp only
  cases fills : unpack.cycle.isFill with
  | false =>
    have above : ¬ unpack.cycle.cl.toNat < unpack.cycle.writes := of_decide_eq_false fills
    rw [if_pos (by omega), if_neg Bool.false_ne_true, Nat.mul_comm]
  | true =>
    have below : unpack.cycle.cl.toNat < unpack.cycle.writes := of_decide_eq_true fills
    have clamp : limit (vifNum unpack.num % unpack.cycle.writes) unpack.cycle.cl.toNat =
        min (vifNum unpack.num % unpack.cycle.writes) unpack.cycle.cl.toNat := by
      unfold limit
      split <;> omega
    rw [if_neg (by omega), if_pos rfl, clamp, Nat.shiftRight_eq_div_pow, Nat.mul_comm (nVifT unpack.upkNum)]

end Pcsx2.Vif
