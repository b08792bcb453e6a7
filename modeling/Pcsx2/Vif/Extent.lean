import Pcsx2.Vif.Emission

/-!
# How far a routine writes

The length that a routine is recorded with decides whether it may run without wrapping around the
VU's data memory.
-/

namespace Pcsx2.Vif

def dVifComputeLength (cl wl : BitVec 32) (num : BitVec 8) (isFill : Bool) : BitVec 16 :=
  let length : BitVec 32 := if 0 < num then num.setWidth 32 * 16 else 4096
  let length :=
    if isFill then length
    else
      let skipSize := (cl - wl) * 16
      let blocks := (num.setWidth 32 + (wl - 1)) / wl
      length + (blocks - 1) * skipSize
  (if length < 0xffff then length else 0xffff).setWidth 16

/-- The `length` of the block. -/
def Block.length (b : Block) : BitVec 16 := dVifComputeLength (b.cl.setWidth 32) (b.wl.setWidth 32) b.num b.isFill

def vuMemLimit : Idx → BitVec 32
  | .vif0 => 0x1000
  | .vif1 => 0x4000

/-- `startmem`, from the start of the memory. -/
def startmem (idx : Idx) (addr : BitVec 32) : Nat := (addr &&& (vuMemLimit idx - 0x10)).toNat

/-- Whether `dVifUnpack` runs the routine rather than the interpreter. -/
def noWrapping (idx : Idx) (addr : BitVec 32) (length : BitVec 16) : Bool :=
  startmem idx addr + length.toNat ≤ (vuMemLimit idx).toNat

/-! ## The extent of the loop -/

namespace Cycle

variable (cycle : Cycle)

def extent (num : BitVec 8) : Nat := 16 * (cycle.place (vifNum num - 1) + 1)

/-- The loop skips after every group of writes, and `NUM` is 0. -/
def Miscounted (num : BitVec 8) : Prop := num = 0 ∧ cycle.isFill = false ∧ cycle.wl.toNat < cycle.cl.toNat

theorem place_eq (skips : cycle.isFill = false) (k : Nat) :
    cycle.place k = k + k / cycle.writes * (cycle.cl.toNat - cycle.wl.toNat) := by
  obtain ⟨writes, above⟩ := cycle.writes_eq_of_skipping skips
  have whole := Nat.div_add_mod k cycle.writes
  unfold place
  rw [skips, if_neg Bool.false_ne_true, Nat.mul_sub, ← writes, Nat.mul_comm _ cycle.writes]
  have scaled : cycle.writes * (k / cycle.writes) ≤ k / cycle.writes * cycle.cl.toNat := by
    rw [Nat.mul_comm]
    exact Nat.mul_le_mul_left _ above
  omega

theorem place_mono {j k : Nat} (le : j ≤ k) : cycle.place j ≤ cycle.place k := by
  cases fills : cycle.isFill with
  | true =>
    unfold place
    rwa [fills, if_pos rfl, if_pos rfl]
  | false =>
    rw [cycle.place_eq fills, cycle.place_eq fills]
    exact Nat.add_le_add le (Nat.mul_le_mul_right _ (Nat.div_le_div_right le))

end Cycle

/-! ## The length -/

theorem toNat_min (length : BitVec 32) :
    ((if length < 0xffff then length else 0xffff).setWidth 16 : BitVec 16).toNat = min length.toNat 0xffff := by
  rw [BitVec.toNat_setWidth]
  split
  · rename_i below
    have small : length.toNat < 0xffff := below
    omega
  · rename_i above
    have large : ¬ length.toNat < 0xffff := above
    show 0xffff % 2 ^ 16 = _
    omega

variable (cycle : Cycle) (num : BitVec 8)

/-- `dVifComputeLength` on the block's own fields. -/
def Cycle.length : BitVec 16 :=
  dVifComputeLength (cycle.cl.setWidth 32) (cycle.wl.setWidth 32) num cycle.isFill

theorem toNat_num_mul : (num.setWidth 32 * 16 : BitVec 32).toNat = 16 * num.toNat := by
  have := num.isLt
  rw [BitVec.toNat_mul, BitVec.toNat_setWidth]
  show num.toNat % 2 ^ 32 * 16 % 2 ^ 32 = _
  omega

theorem toNat_skipSize (above : cycle.wl.toNat ≤ cycle.cl.toNat) :
    ((cycle.cl.setWidth 32 - cycle.wl.setWidth 32) * 16 : BitVec 32).toNat =
      16 * (cycle.cl.toNat - cycle.wl.toNat) := by
  have cl := cycle.cl.isLt
  have wl := cycle.wl.isLt
  rw [BitVec.toNat_mul, BitVec.toNat_sub, BitVec.toNat_setWidth, BitVec.toNat_setWidth]
  show (2 ^ 32 - cycle.wl.toNat % 2 ^ 32 + cycle.cl.toNat % 2 ^ 32) % 2 ^ 32 * 16 % 2 ^ 32 = _
  omega

theorem toNat_blocks (positive : 0 < cycle.wl.toNat) :
    ((num.setWidth 32 + (cycle.wl.setWidth 32 - 1)) / cycle.wl.setWidth 32 : BitVec 32).toNat =
      (num.toNat + (cycle.wl.toNat - 1)) / cycle.wl.toNat := by
  have wl := cycle.wl.isLt
  have num := num.isLt
  rw [BitVec.toNat_udiv, BitVec.toNat_add, BitVec.toNat_sub, BitVec.toNat_setWidth, BitVec.toNat_setWidth]
  show (_ % 2 ^ 32 + (2 ^ 32 - 1 + cycle.wl.toNat % 2 ^ 32) % 2 ^ 32) % 2 ^ 32 / (cycle.wl.toNat % 2 ^ 32) = _
  congr 1 <;> omega

theorem toNat_whole :
    (if 0 < num then num.setWidth 32 * 16 else 4096 : BitVec 32).toNat = 16 * vifNum num := by
  unfold vifNum
  by_cases zero : num = 0
  · rw [zero]
    rfl
  · have positive : 0 < num := by
      rw [BitVec.lt_def]
      exact Nat.pos_of_ne_zero fun none => zero (BitVec.eq_of_toNat_eq none)
    rw [if_pos positive, if_neg zero, toNat_num_mul]

theorem length_counted (counted : ¬ cycle.Miscounted num) :
    (cycle.length num).toNat = min (cycle.extent num) 0xffff := by
  obtain ⟨positive, large⟩ := vifNum_le num
  unfold Cycle.length dVifComputeLength
  simp only
  rw [toNat_min]
  congr 1
  cases fills : cycle.isFill with
  | true =>
    rw [if_pos rfl, toNat_whole]
    unfold Cycle.extent Cycle.place
    rw [fills, if_pos rfl]
    omega
  | false =>
    obtain ⟨writes, above⟩ := cycle.writes_eq_of_skipping fills
    have some := cycle.writes_pos
    rw [writes] at above some
    rw [if_neg Bool.false_ne_true, BitVec.toNat_add, BitVec.toNat_mul, BitVec.toNat_sub, toNat_whole,
      toNat_skipSize cycle above, toNat_blocks cycle num some]
    unfold Cycle.extent
    rw [cycle.place_eq fills, writes]
    have cl := cycle.cl.isLt
    by_cases zero : num = 0
    · -- no block is counted, but then none of them skips
      have whole : cycle.wl.toNat = cycle.cl.toNat :=
        Nat.le_antisymm above (Nat.not_lt.mp fun below => counted ⟨zero, fills, below⟩)
      rw [whole, Nat.sub_self, Nat.mul_zero, Nat.mul_zero]
      omega
    · have num_eq : vifNum num = num.toNat := if_neg zero
      have num_lt := num.isLt
      rw [num_eq] at positive ⊢
      have blocks : (num.toNat + (cycle.wl.toNat - 1)) / cycle.wl.toNat = (num.toNat - 1) / cycle.wl.toNat + 1 := by
        rw [show num.toNat + (cycle.wl.toNat - 1) = num.toNat - 1 + cycle.wl.toNat by omega,
          Nat.add_div_right _ some]
      have few : (num.toNat - 1) / cycle.wl.toNat ≤ 254 := (Nat.div_le_self _ _).trans (by omega)
      have skipped : (num.toNat - 1) / cycle.wl.toNat * (cycle.cl.toNat - cycle.wl.toNat) ≤ 254 * 254 :=
        Nat.mul_le_mul few (by omega)
      rw [blocks]
      revert few skipped
      generalize (num.toNat - 1) / cycle.wl.toNat = groups
      intro few skipped
      have less_one : (2 ^ 32 - BitVec.toNat (1 : BitVec 32) + (groups + 1)) % 2 ^ 32 = groups := by
        show (2 ^ 32 - 1 + (groups + 1)) % 2 ^ 32 = groups
        omega
      rw [less_one, Nat.mul_left_comm]
      omega

theorem less_skip {skip : Nat} (some : 0 < skip) (few : skip < 256) :
    min ((4096 + 4294967295 * (16 * skip) % 2 ^ 32) % 2 ^ 32) 65535 = 4096 - 16 * skip := by
  have wraps : 4294967295 * (16 * skip) % 2 ^ 32 = 2 ^ 32 - 16 * skip := by
    rw [show 4294967295 * (16 * skip) = 2 ^ 32 * (16 * skip - 1) + (2 ^ 32 - 16 * skip) by omega, Nat.mul_add_mod]
    exact Nat.mod_eq_of_lt (by omega)
  rw [wraps]
  omega

theorem length_miscounted (miscounted : cycle.Miscounted num) :
    (cycle.length num).toNat = 4096 - 16 * (cycle.cl.toNat - cycle.wl.toNat) := by
  obtain ⟨rfl, fills, below⟩ := miscounted
  obtain ⟨writes, above⟩ := cycle.writes_eq_of_skipping fills
  have some := cycle.writes_pos
  have cl := cycle.cl.isLt
  rw [writes] at some above
  unfold Cycle.length dVifComputeLength
  simp only
  rw [toNat_min, fills, if_neg Bool.false_ne_true, BitVec.toNat_add, BitVec.toNat_mul, BitVec.toNat_sub, toNat_whole,
      toNat_skipSize cycle above, toNat_blocks cycle 0 some]
  have none : (BitVec.toNat (0 : BitVec 8) + (cycle.wl.toNat - 1)) / cycle.wl.toNat = 0 :=
    Nat.div_eq_of_lt (by show 0 + _ < _; omega)
  have one_fewer : (2 ^ 32 - BitVec.toNat (1 : BitVec 32) + 0) % 2 ^ 32 = 4294967295 := by decide
  have whole : 16 * vifNum 0 = 4096 := by decide
  rw [none, one_fewer, whole]
  exact less_skip (by omega) (by omega)

/-! ## What the length covers -/

/-- The length bounds the end of every quadword written, up to 0xffff. -/
def LengthCovers : Prop :=
  ∀ b : Block, b.cycle = cycle → b.num = num →
    ∀ quad ∈ stored b.compileRoutine, min (16 * (quad + 1)) 0xffff ≤ b.length.toNat

/-- A routine that is run only writes inside the VU's data memory. -/
def StaysInside : Prop :=
  ∀ (b : Block) (idx : Idx) (addr : BitVec 32), b.cycle = cycle → b.num = num → noWrapping idx addr b.length →
    ∀ quad ∈ stored b.compileRoutine, startmem idx addr + 16 * (quad + 1) ≤ (vuMemLimit idx).toNat

variable {cycle num}

theorem stored_le_extent {b : Block} (cycles : b.cycle = cycle) (nums : b.num = num) {quad : Nat}
    (member : quad ∈ stored b.compileRoutine) : 16 * (quad + 1) ≤ cycle.extent num := by
  obtain ⟨k, few, rfl⟩ := stored_place b quad member
  rw [nums] at few
  rw [cycles]
  have last := cycle.place_mono (show k ≤ vifNum num - 1 by omega)
  unfold Cycle.extent
  omega

theorem length_eq {b : Block} (cycles : b.cycle = cycle) (nums : b.num = num) : b.length = cycle.length num := by
  subst cycles nums
  rfl

theorem covers_of_counted (counted : ¬ cycle.Miscounted num) : LengthCovers cycle num := by
  intro b cycles nums quad member
  have bound := stored_le_extent cycles nums member
  rw [length_eq cycles nums, length_counted cycle num counted]
  omega

theorem stays_of_counted (counted : ¬ cycle.Miscounted num) : StaysInside cycle num := by
  intro b idx addr cycles nums fits quad member
  have bound := stored_le_extent cycles nums member
  have fits := of_decide_eq_true fits
  rw [length_eq cycles nums, length_counted cycle num counted] at fits
  have limit : (vuMemLimit idx).toNat ≤ 0x4000 := by cases idx <;> decide
  omega

def plainBlock (cycle : Cycle) (num : BitVec 8) : Block :=
  { num, upkType := 0x0c, mask := 0, mode := 0, aligned := 0, cl := cycle.cl, wl := cycle.wl }

theorem length_plainBlock : (plainBlock cycle num).length = cycle.length num := rfl

theorem extent_of_miscounted (miscounted : cycle.Miscounted num) : 4096 < cycle.extent num := by
  obtain ⟨rfl, fills, below⟩ := miscounted
  obtain ⟨writes, above⟩ := cycle.writes_eq_of_skipping fills
  have some := cycle.writes_pos
  have cl := cycle.cl.isLt
  rw [writes] at some above
  have group : 1 ≤ 255 / cycle.wl.toNat := (Nat.one_le_div_iff some).mpr (by omega)
  have skipped : 1 * 1 ≤ 255 / cycle.wl.toNat * (cycle.cl.toNat - cycle.wl.toNat) :=
    Nat.mul_le_mul group (by omega)
  show 4096 < 16 * (cycle.place 255 + 1)
  rw [cycle.place_eq fills, writes]
  omega

theorem last_stored (cycle : Cycle) (num : BitVec 8) :
    cycle.place (vifNum num - 1) ∈ stored (plainBlock cycle num).compileRoutine :=
  place_stored (plainBlock cycle num) (show (0x0c : BitVec 8).getLsbD 4 = false by decide) rfl _ (Nat.sub_lt (vifNum_le num).1 Nat.one_pos)

theorem not_covers_of_miscounted (miscounted : cycle.Miscounted num) : ¬ LengthCovers cycle num := by
  intro covers
  have bound := covers (plainBlock cycle num) rfl rfl _ (last_stored cycle num)
  have extent := extent_of_miscounted miscounted
  have below := miscounted.2.2
  unfold Cycle.extent at extent
  rw [length_plainBlock, length_miscounted cycle num miscounted] at bound
  omega

theorem not_stays_of_miscounted (miscounted : cycle.Miscounted num) : ¬ StaysInside cycle num := by
  intro stays
  have fits : noWrapping .vif0 0 (plainBlock cycle num).length := by
    apply decide_eq_true
    rw [length_plainBlock, length_miscounted cycle num miscounted]
    show 0 + _ ≤ 4096
    omega
  have bound : 0 + 16 * (cycle.place (vifNum num - 1) + 1) ≤ 4096 :=
    stays (plainBlock cycle num) .vif0 0 rfl rfl fits _ (last_stored cycle num)
  have extent := extent_of_miscounted miscounted
  unfold Cycle.extent at extent
  omega

/-- The length covers what is written, and the routine stays inside the memory, unless the rounding of
the number of blocks takes `NUM` to be 0. -/
theorem length_covers_iff (cycle : Cycle) (num : BitVec 8) :
    (LengthCovers cycle num ↔ ¬ cycle.Miscounted num) ∧ (StaysInside cycle num ↔ ¬ cycle.Miscounted num) :=
  ⟨⟨fun covers miscounted => not_covers_of_miscounted miscounted covers, covers_of_counted⟩,
    ⟨fun stays miscounted => not_stays_of_miscounted miscounted stays, stays_of_counted⟩⟩

/-- With `CL` 2, `WL` 1 and `NUM` 0 the length is 4080, and the last quadword ends at 8176. -/
theorem length_short :
    ¬ LengthCovers ⟨2, 1⟩ 0 ∧ ¬ StaysInside ⟨2, 1⟩ 0 ∧ (plainBlock ⟨2, 1⟩ 0).length = 4080 ∧
      510 ∈ stored (plainBlock ⟨2, 1⟩ 0).compileRoutine :=
  have miscounted : Cycle.Miscounted ⟨2, 1⟩ 0 := ⟨rfl, rfl, by decide⟩
  ⟨not_covers_of_miscounted miscounted, not_stays_of_miscounted miscounted, rfl, last_stored ⟨2, 1⟩ 0⟩

end Pcsx2.Vif
