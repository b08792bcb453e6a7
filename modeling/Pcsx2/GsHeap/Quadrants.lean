import Mathlib.Tactic.IntervalCases
import Mathlib.Tactic.Ring
import Pcsx2.Foundation.Masks
import Pcsx2.GsHeap.RingHeap

/-!
# Quadrants and their counters

A block of at most two quadrants touches the quadrants from its first byte to its last one; the
masks of `alloc` and of `free` both have one for each of them.
-/

namespace Pcsx2.GsHeap
open Foundation

theorem toNat_add_of_lt {a b : UInt64} (room : a.toNat + b.toNat < 2 ^ 64) : (a + b).toNat = a.toNat + b.toNat := by
  rw [UInt64.toNat_add, Nat.mod_eq_of_lt room]

theorem toNat_sub_of_le {a b : UInt64} (below : b.toNat ≤ a.toNat) : (a - b).toNat = a.toNat - b.toNat :=
  UInt64.toNat_sub_of_le _ _ (UInt64.le_iff_toNat_le.2 below)

/-! ## Alignment -/

def Honoured (align : UInt64) : Prop := ∃ k ≤ 5, align.toNat = 2 ^ k

theorem getAlignMask_toNat {align : UInt64} (honoured : Honoured align) :
    ∃ k, align.toNat ∣ 2 ^ k ∧ k ≤ 5 ∧ (getAlignMask align).toNat = 2 ^ k - 1 := by
  obtain ⟨k, small, power⟩ := honoured
  have divides : align.toNat ∣ 2 ^ max 3 k := power ▸ Nat.pow_dvd_pow 2 (Nat.le_max_right ..)
  refine ⟨max 3 k, divides, by omega, ?_⟩
  obtain rfl : align = UInt64.ofNat (2 ^ k) := by
    rw [← power, UInt64.ofNat_toNat]
  clear power divides
  revert k
  decide

theorem alignUsingMask_toNat {align value : UInt64} (honoured : Honoured align) (room : value.toNat + 31 < 2 ^ 64) :
    value.toNat ≤ (alignUsingMask (getAlignMask align) value).toNat ∧
    (alignUsingMask (getAlignMask align) value).toNat ≤ value.toNat + 31 ∧
    align.toNat ∣ (alignUsingMask (getAlignMask align) value).toNat := by
  obtain ⟨k, divides, small, mask⟩ := getAlignMask_toNat honoured
  have power : 2 ^ k ≤ 2 ^ 5 := Nat.pow_le_pow_right Nat.two_pos small
  have positive := Nat.two_pow_pos k
  have sum : (value + getAlignMask align).toNat = value.toNat + (2 ^ k - 1) := by
    rw [UInt64.toNat_add, mask, Nat.mod_eq_of_lt (by omega)]
  have aligned : (alignUsingMask (getAlignMask align) value).toNat = (value.toNat + (2 ^ k - 1)) / 2 ^ k * 2 ^ k := by
    rw [← sum]
    exact bits_and_not_low (by omega) mask (value + getAlignMask align).toBitVec
  rw [aligned]
  have division := Nat.div_add_mod (value.toNat + (2 ^ k - 1)) (2 ^ k)
  have rest := Nat.mod_lt (value.toNat + (2 ^ k - 1)) positive
  rw [Nat.mul_comm] at division
  exact ⟨by omega, by omega, divides.mul_left _⟩

/-! ## The counters -/

def lanes (count : Nat → Nat) : Nat :=
  count 0 + 2 ^ 16 * count 1 + 2 ^ 32 * count 2 + 2 ^ 48 * count 3

def rangeMask (first last : Nat) : UInt64 :=
  .ofNat (lanes fun q => if first ≤ q ∧ q ≤ last then 1 else 0)

theorem rangeMask_toNat (first last : Nat) :
    (rangeMask first last).toNat = lanes fun q => if first ≤ q ∧ q ≤ last then 1 else 0 := by
  rw [rangeMask, UInt64.toNat_ofNat']
  apply Nat.mod_eq_of_lt
  rw [lanes]
  split <;> split <;> split <;> split <;> decide

theorem lanes_add (first second : Nat → Nat) : lanes (fun q => first q + second q) = lanes first + lanes second := by
  simp only [lanes]
  ring

variable {count : Nat → Nat}

theorem lanes_lt (small : ∀ q < 4, count q < 2 ^ 16) : lanes count < 2 ^ 64 := by
  have := small 0 (by decide)
  have := small 1 (by decide)
  have := small 2 (by decide)
  have := small 3 (by decide)
  rw [lanes]
  omega

theorem lanes_congr {first second : Nat → Nat} (same : ∀ q < 4, first q = second q) : lanes first = lanes second := by
  rw [lanes, lanes, same 0 (by decide), same 1 (by decide), same 2 (by decide), same 3 (by decide)]

theorem lanes_digit (small : ∀ q < 4, count q < 2 ^ 16) {q : Nat} (inside : q < 4) :
    lanes count / 2 ^ (q * 16) % 2 ^ 16 = count q := by
  have := small 0 (by decide)
  have := small 1 (by decide)
  have := small 2 (by decide)
  have := small 3 (by decide)
  rw [lanes]
  interval_cases q <;> omega

def Buffer.Counts (b : Buffer) (count : Nat → Nat) : Prop :=
  (∀ q < 4, count q < 2 ^ 16) ∧ b.m_usage.toNat = lanes count

theorem isStillInUse_iff {b : Buffer} (counts : b.Counts count) {quadrant : UInt32}
    (inside : quadrant.toNat < 4) : b.isStillInUse quadrant ↔ count quadrant.toNat ≠ 0 := by
  obtain ⟨small, word⟩ := counts
  have shift : (quadrant % 4 * 16).toUInt64.toNat = quadrant.toNat * 16 := by
    rw [UInt32.toNat_toUInt64, UInt32.toNat_mul, UInt32.toNat_mod]
    show quadrant.toNat % 4 * 16 % 2 ^ 32 = _
    omega
  rw [Buffer.isStillInUse, bne_iff_ne, ne_eq, ne_eq, not_iff_not, ← UInt64.toNat_inj, UInt64.toNat_and,
    UInt64.toNat_shiftRight, shift, word, Nat.mod_eq_of_lt (by omega : quadrant.toNat * 16 < 64),
    Nat.shiftRight_eq_div_pow]
  show _ &&& (2 ^ 16 - 1) = 0 ↔ _
  rw [Nat.and_two_pow_sub_one_eq_mod, lanes_digit small inside]

/-! ## The quadrants of a block -/

structure Buffer.Shaped (b : Buffer) : Prop where
  shift_ge : 14 ≤ b.m_quadrant_shift
  shift_le : b.m_quadrant_shift ≤ 61
  size : b.m_size.toNat = 4 * 2 ^ b.m_quadrant_shift
  write_ge : 64 ≤ b.m_write_loc.toNat
  write_le : b.m_write_loc.toNat ≤ 4 * 2 ^ b.m_quadrant_shift

def Buffer.quarter (b : Buffer) : Nat := 2 ^ b.m_quadrant_shift

def Buffer.firstQuadrant (b : Buffer) (begin_off : UInt64) : Nat := begin_off.toNat / b.quarter

def Buffer.lastQuadrant (b : Buffer) (begin_off size : UInt64) : Nat :=
  (begin_off.toNat + size.toNat - 1) / b.quarter

section

variable {b : Buffer} (shaped : b.Shaped)
include shaped

theorem quarter_ge : 16384 ≤ b.quarter := Nat.pow_le_pow_right Nat.two_pos shaped.shift_ge

theorem quarter_le : b.quarter ≤ 2 ^ 61 := Nat.pow_le_pow_right Nat.two_pos shaped.shift_le

theorem quadrant_toNat {off : UInt64} (inside : off.toNat < 8 * b.quarter) :
    (b.quadrant off).toNat = off.toNat / b.quarter := by
  have shift : (UInt64.ofNat b.m_quadrant_shift).toNat % 64 = b.m_quadrant_shift := by
    have small := shaped.shift_le
    rw [UInt64.toNat_ofNat', Nat.mod_eq_of_lt (by omega : b.m_quadrant_shift < 2 ^ 64)]
    omega
  rw [Buffer.quadrant, UInt64.toNat_toUInt32, UInt64.toNat_shiftRight, shift, Nat.shiftRight_eq_div_pow]
  have small : off.toNat / b.quarter < 8 := Nat.div_lt_of_lt_mul (by rwa [Nat.mul_comm])
  exact Nat.mod_eq_of_lt (Nat.lt_trans small (by decide))

theorem quadrant_eq {off : UInt64} (inside : off.toNat < 8 * b.quarter) :
    b.quadrant off = .ofNat (off.toNat / b.quarter) := by
  rw [← quadrant_toNat shaped inside, UInt32.ofNat_toNat]

end

theorem bits_range : ∀ first mid last : Fin 4, first ≤ mid → mid ≤ last → last.val ≤ first + 2 →
    (last.val = first + 2 → mid.val = first + 1) →
    usageBit (.ofNat first) ||| usageBit (.ofNat mid) ||| usageBit (.ofNat last) = rangeMask first last := by
  decide

/-- A block of at most two quadrants: its first byte, its middle and its last byte are in each of the
quadrants that it touches. -/
theorem usageMask_eq {b : Buffer} (shaped : b.Shaped) {begin_off size : UInt64} (some : 0 < size.toNat)
    (half : size.toNat ≤ 2 * b.quarter) (inside : begin_off.toNat + size.toNat ≤ 4 * b.quarter) :
    b.usageMask begin_off size = rangeMask (b.firstQuadrant begin_off) (b.lastQuadrant begin_off size) := by
  have large := quarter_ge shaped
  have limit := quarter_le shaped
  have mid : (begin_off + size / 2).toNat = begin_off.toNat + size.toNat / 2 := by
    rw [UInt64.toNat_add, UInt64.toNat_div]
    show (_ + _ / 2) % 2 ^ 64 = _
    omega
  have last : (begin_off + size - 1).toNat = begin_off.toNat + size.toNat - 1 := by
    have sum : (begin_off + size).toNat = begin_off.toNat + size.toNat := toNat_add_of_lt (by omega)
    rw [toNat_sub_of_le (sum ▸ (show 1 ≤ _ by omega)), sum]
    rfl
  rw [Buffer.usageMask, quadrant_eq shaped (by omega), quadrant_eq shaped (by rw [mid]; omega),
    quadrant_eq shaped (by rw [last]; omega), mid, last]
  generalize first_eq : begin_off.toNat / b.quarter = f
  generalize mid_eq : (begin_off.toNat + size.toNat / 2) / b.quarter = m
  generalize last_eq : (begin_off.toNat + size.toNat - 1) / b.quarter = l
  have positive : 0 < b.quarter := by omega
  -- the middle is at most one quadrant after the first byte, the last byte at most two
  have first_mid : f ≤ m := first_eq ▸ mid_eq ▸ Nat.div_le_div_right (Nat.le_add_right ..)
  have mid_last : m ≤ l := mid_eq ▸ last_eq ▸ Nat.div_le_div_right (by omega)
  have mid_le : m ≤ f + 1 := by
    rw [← mid_eq, ← first_eq, ← Nat.add_div_right _ positive]
    exact Nat.div_le_div_right (by omega)
  have last_le : l ≤ f + 2 := by
    rw [← last_eq, ← first_eq, ← Nat.add_mul_div_right _ _ positive]
    exact Nat.div_le_div_right (by omega)
  have last_lt : l < 4 := by
    rw [← last_eq]
    exact Nat.div_lt_of_lt_mul (by omega)
  have middle (far : l = f + 2) : m = f + 1 := by
    have reach := Nat.div_mul_le_self (begin_off.toNat + size.toNat - 1) b.quarter
    rw [last_eq, far, Nat.add_mul] at reach
    have covered : f + 1 ≤ m := by
      rw [← mid_eq, Nat.le_div_iff_mul_le positive, Nat.add_mul]
      omega
    omega
  rw [Buffer.firstQuadrant, Buffer.lastQuadrant, first_eq, last_eq]
  exact bits_range ⟨f, by omega⟩ ⟨m, by omega⟩ ⟨l, by omega⟩ first_mid mid_last last_le middle

/-! ## Entering quadrants -/

def entered : Nat → Nat → UInt64 → UInt64
  | 0, cur, mask => mask ||| usageBit (.ofNat cur)
  | turns + 1, cur, mask => entered turns (cur + 1) (mask ||| usageBit (.ofNat cur))

theorem enter_iff {b : Buffer} (counts : b.Counts count) (turns cur : Nat) (mask usage : UInt64)
    (inside : cur + turns < 4) :
    b.enter turns (.ofNat cur) mask = some usage ↔
      (∀ q, cur ≤ q → q ≤ cur + turns → count q = 0) ∧ entered turns cur mask = usage := by
  have used (cur : Nat) (inside : cur < 4) : b.isStillInUse (.ofNat cur) ↔ count cur ≠ 0 := by
    have same : (UInt32.ofNat cur).toNat = cur := by
      rw [UInt32.toNat_ofNat']
      omega
    rw [isStillInUse_iff counts (by omega), same]
  induction turns generalizing cur mask with
  | zero =>
    rw [Buffer.enter, entered]
    by_cases free : count cur = 0
    · rw [if_neg (mt (used cur inside).1 (not_not.2 free)), Option.some_inj]
      refine ⟨fun same => ⟨fun q lower upper => ?_, same⟩, fun both => both.2⟩
      rwa [Nat.le_antisymm upper lower]
    · rw [if_pos ((used cur inside).2 free)]
      exact ⟨nofun, fun both => absurd (both.1 cur le_rfl le_rfl) free⟩
  | succ turns ih =>
    rw [Buffer.enter, entered]
    by_cases free : count cur = 0
    · have next : UInt32.ofNat cur + 1 = .ofNat (cur + 1) := (UInt32.ofNat_add cur 1).symm
      rw [if_neg (mt (used cur (by omega)).1 (not_not.2 free))]
      simp only [next]
      refine (ih (cur + 1) _ (by omega)).trans ?_
      refine and_congr_left fun _ => ⟨fun rest q lower upper => ?_, fun all q lower upper => all q (by omega) (by omega)⟩
      rcases Nat.eq_or_lt_of_le lower with rfl | above
      · exact free
      · exact rest q above (by omega)
    · rw [if_pos ((used cur (by omega)).2 free)]
      exact ⟨nofun, fun both => absurd (both.1 cur le_rfl (Nat.le_add_right ..)) free⟩

theorem entered_range : ∀ before first last : Fin 4, before < last → before ≤ first → first.val ≤ before + 1 →
    entered (last - (before + 1)) (before + 1) (usageBit (.ofNat first)) = rangeMask first last := by
  decide

theorem bit_range : ∀ only : Fin 4, usageBit (.ofNat only) = rangeMask only only := by
  decide

theorem entered_start : ∀ last : Fin 4, entered last 0 0 = rangeMask 0 last := by
  decide

end Pcsx2.GsHeap
