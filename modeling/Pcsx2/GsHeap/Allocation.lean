import Pcsx2.GsHeap.Quadrants

/-!
# What a buffer hands out

A block lies in its buffer and after the header, at the alignment that was asked for, in quadrants
that were entered without an allocation in them; a fresh buffer can always hand it out.
-/

namespace Pcsx2.GsHeap
open Foundation

structure Buffer.Serves (b : Buffer) (size align prefix_size : UInt64) : Prop where
  honoured : Honoured align
  header : 8 ≤ prefix_size.toNat
  half : size.toNat + prefix_size.toNat ≤ 2 * b.quarter

def Buffer.front (b : Buffer) : Nat := (b.m_write_loc.toNat - 1) / b.quarter

structure HandsOut (b : Buffer) (count : Nat → Nat) (size align prefix_size : UInt64)
    (next : Buffer) (begin_off usage : UInt64) : Prop where
  above : 64 ≤ begin_off.toNat
  fits : begin_off.toNat + (size + prefix_size).toNat ≤ 4 * b.quarter
  aligned : align.toNat ∣ begin_off.toNat + prefix_size.toNat
  mask : usage = rangeMask (b.firstQuadrant begin_off) (b.lastQuadrant begin_off (size + prefix_size))
  next : next = { b with
    m_write_loc := begin_off + (size + prefix_size)
    m_usage := b.m_usage + usage
    m_amt_allocated := b.m_amt_allocated + (size + prefix_size) }
  /-- A quadrant in use is after the block, or the block is after all that was written in it. -/
  free : ∀ q < 4, count q ≠ 0 → b.lastQuadrant begin_off (size + prefix_size) < q ∨
    (q ≤ b.front ∧ b.m_write_loc.toNat ≤ begin_off.toNat)

section

variable {b : Buffer} {count : Nat → Nat} {size align prefix_size start : UInt64}
  (shaped : b.Shaped) (serves : b.Serves size align prefix_size)
include shaped serves

theorem total_toNat : (size + prefix_size).toNat = size.toNat + prefix_size.toNat := by
  have limit := quarter_le shaped
  have half := serves.half
  exact toNat_add_of_lt (by omega)

theorem base_spec (low : start.toNat ≤ 4 * b.quarter) :
    ∃ base, alignUsingMask (getAlignMask align) (start + prefix_size) = base ∧
      align.toNat ∣ base.toNat ∧ start.toNat + prefix_size.toNat ≤ base.toNat ∧
      base.toNat ≤ start.toNat + prefix_size.toNat + 31 ∧
      (base - prefix_size).toNat = base.toNat - prefix_size.toNat ∧
      (base + size - 1).toNat = base.toNat + size.toNat - 1 ∧
      base + size = base - prefix_size + (size + prefix_size) := by
  have limit := quarter_le shaped
  have half := serves.half
  have header := serves.header
  have sum : (start + prefix_size).toNat = start.toNat + prefix_size.toNat := toNat_add_of_lt (by omega)
  obtain ⟨lower, upper, divides⟩ := alignUsingMask_toNat serves.honoured (by omega : (start + prefix_size).toNat + 31 < _)
  refine ⟨_, rfl, divides, by omega, by omega, ?_, ?_, ?_⟩
  · exact toNat_sub_of_le (by omega)
  · have last : (alignUsingMask (getAlignMask align) (start + prefix_size) + size).toNat = _ :=
      toNat_add_of_lt (by omega)
    rw [toNat_sub_of_le (last ▸ (show 1 ≤ _ by omega)), last]
    rfl
  · rw [UInt64.add_comm size, ← UInt64.add_assoc, UInt64.sub_add_cancel]

theorem handsOut_finish {base usage : UInt64} (first : (base - prefix_size).toNat = base.toNat - prefix_size.toNat)
    (after : prefix_size.toNat ≤ base.toNat) (end_ : base + size = base - prefix_size + (size + prefix_size))
    (divides : align.toNat ∣ base.toNat) (above : 64 + prefix_size.toNat ≤ base.toNat)
    (fits : base.toNat + size.toNat ≤ 4 * b.quarter)
    (mask : usage = rangeMask ((base.toNat - prefix_size.toNat) / b.quarter) ((base.toNat + size.toNat - 1) / b.quarter))
    (free : ∀ q < 4, count q ≠ 0 → (base.toNat + size.toNat - 1) / b.quarter < q ∨
      (q ≤ b.front ∧ b.m_write_loc.toNat + prefix_size.toNat ≤ base.toNat)) :
    HandsOut b count size align prefix_size (b.finish base size prefix_size usage).1 (base - prefix_size) usage := by
  have total := total_toNat shaped serves
  have last : b.lastQuadrant (base - prefix_size) (size + prefix_size) = (base.toNat + size.toNat - 1) / b.quarter := by
    rw [Buffer.lastQuadrant, first, total]
    congr 1
    omega
  refine ⟨by omega, by omega, ?_, ?_, ?_, ?_⟩
  · rw [first, Nat.sub_add_cancel after]
    exact divides
  · rw [last, Buffer.firstQuadrant, first]
    exact mask
  · rw [← end_]
    rfl
  · intro q inside used
    rw [last]
    exact (free q inside used).imp id (And.imp id fun _ => by omega)

theorem alloc_eq {base again : UInt64}
    (base_eq : alignUsingMask (getAlignMask align) (b.m_write_loc + prefix_size) = base)
    (again_eq : alignUsingMask (getAlignMask align) (BEGINNING_OFFSET + prefix_size) = again)
    (first : (base - prefix_size).toNat = base.toNat - prefix_size.toNat)
    (last : (base + size - 1).toNat = base.toNat + size.toNat - 1)
    (last_again : (again + size - 1).toNat = again.toNat + size.toNat - 1)
    (room : base.toNat + size.toNat ≤ 8 * b.quarter) (room_again : again.toNat + size.toNat ≤ 8 * b.quarter) :
    b.alloc size (getAlignMask align) prefix_size =
      let usage_mask := usageBit (.ofNat ((base.toNat - prefix_size.toNat) / b.quarter))
      let new_quadrant := (base.toNat + size.toNat - 1) / b.quarter
      if b.front = new_quadrant then some (b.finish base size prefix_size usage_mask)
      else if 4 ≤ new_quadrant then
        (b.enter ((again.toNat + size.toNat - 1) / b.quarter) 0 0).map (b.finish again size prefix_size)
      else (b.enter (new_quadrant - (b.front + 1)) (.ofNat (b.front + 1)) usage_mask).map
        (b.finish base size prefix_size) := by
  have large := quarter_ge shaped
  have header := serves.header
  have low : b.m_write_loc.toNat ≤ 4 * b.quarter := shaped.write_le
  have written := shaped.write_ge
  have before : (b.m_write_loc - 1).toNat = b.m_write_loc.toNat - 1 := toNat_sub_of_le (show 1 ≤ _ by omega)
  have front_eq : b.quadrant (b.m_write_loc - 1) = .ofNat b.front := by
    rw [quadrant_eq shaped (by omega), before, Buffer.front]
  have front_lt : b.front < 4 := Nat.div_lt_of_lt_mul (by omega)
  have new_lt : (base.toNat + size.toNat - 1) / b.quarter < 8 := Nat.div_lt_of_lt_mul (by omega)
  have new_eq : b.quadrant (base + size - 1) = .ofNat ((base.toNat + size.toNat - 1) / b.quarter) := by
    rw [quadrant_eq shaped (by omega), last]
  have again_lt : (again.toNat + size.toNat - 1) / b.quarter < 8 := Nat.div_lt_of_lt_mul (by omega)
  have turns_eq : (b.quadrant (again + size - 1)).toNat = (again.toNat + size.toNat - 1) / b.quarter := by
    rw [quadrant_toNat shaped (by omega), last_again]
  have small {n : Nat} (bound : n < 8) : (UInt32.ofNat n).toNat = n := by
    rw [UInt32.toNat_ofNat']
    omega
  rw [Buffer.alloc, base_eq, again_eq, front_eq, new_eq]
  dsimp only
  rw [turns_eq, quadrant_eq shaped (by omega), first]
  generalize (base.toNat + size.toNat - 1) / b.quarter = new at new_lt
  have same : UInt32.ofNat b.front = .ofNat new ↔ b.front = new := by
    rw [← UInt32.toNat_inj, small (by omega), small new_lt]
  have wraps : 4 ≤ UInt32.ofNat new ↔ 4 ≤ new := by
    rw [UInt32.le_iff_toNat_le, small new_lt]
    rfl
  have next : UInt32.ofNat b.front + 1 = .ofNat (b.front + 1) := (UInt32.ofNat_add b.front 1).symm
  rw [small new_lt, next, small (by omega)]
  simp only [same, wraps]

variable (counts : b.Counts count)
include counts

theorem alloc_spec {next : Buffer} {begin_off usage : UInt64}
    (result : b.alloc size (getAlignMask align) prefix_size = some (next, begin_off, usage)) :
    HandsOut b count size align prefix_size next begin_off usage := by
  have large := quarter_ge shaped
  have limit := quarter_le shaped
  have half := serves.half
  have header := serves.header
  have low : b.m_write_loc.toNat ≤ 4 * b.quarter := shaped.write_le
  have written := shaped.write_ge
  obtain ⟨base, base_eq, divides, lower, upper, first, last, end_⟩ := base_spec shaped serves low
  obtain ⟨again, again_eq, divides', lower', upper', first', last', end'⟩ :=
    base_spec shaped serves (show BEGINNING_OFFSET.toNat ≤ _ by show 64 ≤ _; omega)
  have start : BEGINNING_OFFSET.toNat = 64 := rfl
  rw [start] at lower' upper'
  rw [alloc_eq shaped serves base_eq again_eq first last last' (by omega) (by omega)] at result
  dsimp only at result
  have positive : 0 < b.quarter := by omega
  -- the first byte is in the quadrant that was written last or in the next one
  have first_ge : b.front ≤ (base.toNat - prefix_size.toNat) / b.quarter := Nat.div_le_div_right (by omega)
  have first_le : (base.toNat - prefix_size.toNat) / b.quarter ≤ b.front + 1 := by
    rw [Buffer.front, ← Nat.add_div_right _ positive]
    exact Nat.div_le_div_right (by omega)
  have first_last : (base.toNat - prefix_size.toNat) / b.quarter ≤ (base.toNat + size.toNat - 1) / b.quarter :=
    Nat.div_le_div_right (by omega)
  have fits {top : Nat} (inside : (top - 1) / b.quarter < 4) : top ≤ 4 * b.quarter := by
    have below := (Nat.div_lt_iff_lt_mul positive).1 inside
    omega
  have front_lt : b.front < 4 := Nat.div_lt_of_lt_mul (by omega)
  split at result
  next same =>
    obtain ⟨rfl, rfl, rfl⟩ := result
    refine handsOut_finish shaped serves first (by omega) end_ divides (by omega) (fits (by omega)) ?_ ?_
    · have first_eq := Nat.le_antisymm first_last (same ▸ first_ge)
      rw [← first_eq]
      exact bit_range ⟨_, by omega⟩
    · intro q inside used
      rcases Nat.lt_or_ge b.front q with above | below
      · exact .inl (same ▸ above)
      · exact .inr ⟨below, lower⟩
  next differ =>
    have front_le : b.front ≤ (base.toNat + size.toNat - 1) / b.quarter := Nat.le_trans first_ge first_last
    split at result
    next wraps =>
      have low_first : (again.toNat - prefix_size.toNat) / b.quarter = 0 := Nat.div_eq_of_lt (by omega)
      have low_last : (again.toNat + size.toNat - 1) / b.quarter < 3 := Nat.div_lt_of_lt_mul (by omega)
      obtain ⟨_, enters, equal⟩ := Option.map_eq_some_iff.1 result
      obtain ⟨rfl, rfl, rfl⟩ := equal
      obtain ⟨free, rfl⟩ := (enter_iff counts ((again.toNat + size.toNat - 1) / b.quarter) 0 0 usage (by omega)).1 enters
      refine handsOut_finish shaped serves first' (by omega) end' divides' (by omega) (by omega) ?_ ?_
      · rw [low_first]
        exact entered_start ⟨_, Nat.lt_trans low_last (by decide)⟩
      · intro q inside used
        refine .inl (Nat.lt_of_not_le fun below => used (free q (Nat.zero_le _) ?_))
        rwa [Nat.zero_add]
    next stays =>
      obtain ⟨_, enters, equal⟩ := Option.map_eq_some_iff.1 result
      obtain ⟨rfl, rfl, rfl⟩ := equal
      obtain ⟨free, rfl⟩ := (enter_iff counts ((base.toNat + size.toNat - 1) / b.quarter - (b.front + 1)) (b.front + 1)
        (usageBit (.ofNat ((base.toNat - prefix_size.toNat) / b.quarter))) usage (by omega)).1 enters
      refine handsOut_finish shaped serves first (by omega) end_ divides (by omega) (fits (by omega)) ?_ ?_
      · exact entered_range ⟨_, front_lt⟩ ⟨_, by omega⟩ ⟨_, by omega⟩ (Nat.lt_of_le_of_ne front_le differ) first_ge first_le
      · intro q inside used
        rcases Nat.lt_or_ge b.front q with above | below
        · exact .inl (Nat.lt_of_not_le fun reached => used (free q above (by omega)))
        · exact .inr ⟨below, lower⟩

theorem alloc_unused (unused : ∀ q < 4, count q = 0) :
    ∃ result, b.alloc size (getAlignMask align) prefix_size = some result := by
  have large := quarter_ge shaped
  have half := serves.half
  have low : b.m_write_loc.toNat ≤ 4 * b.quarter := shaped.write_le
  have start : BEGINNING_OFFSET.toNat = 64 := rfl
  obtain ⟨base, base_eq, -, lower, upper, first, last, -⟩ := base_spec shaped serves low
  obtain ⟨again, again_eq, -, -, upper', -, last', -⟩ :=
    base_spec shaped serves (show BEGINNING_OFFSET.toNat ≤ _ by omega)
  rw [start] at upper'
  rw [alloc_eq shaped serves base_eq again_eq first last last' (by omega) (by omega)]
  have low_last : (again.toNat + size.toNat - 1) / b.quarter < 4 := Nat.div_lt_of_lt_mul (by omega)
  have enters (turns cur : Nat) (mask : UInt64) (inside : cur + turns < 4) :
      b.enter turns (.ofNat cur) mask = some (entered turns cur mask) :=
    (enter_iff counts turns cur mask _ inside).2 ⟨fun q _ upper => unused q (by omega), rfl⟩
  have front_le : b.front ≤ (base.toNat + size.toNat - 1) / b.quarter := Nat.div_le_div_right (by
    have header := serves.header
    omega)
  dsimp only
  split
  next => exact ⟨_, rfl⟩
  next differ =>
    split
    next => exact ⟨_, congrArg (Option.map _) (enters _ 0 0 (by omega))⟩
    next stays => exact ⟨_, congrArg (Option.map _) (enters _ _ _ (by omega))⟩

end

end Pcsx2.GsHeap
