import Mathlib.Data.Nat.ModEq

/-!
# One's complement sums

A sum of words of `w` bits whose carries go round is a number modulo `2 ^ w - 1`. It is 0 only when
nothing is added, and `2 ^ w - 1` stands for any other multiple.
-/

namespace Pcsx2.Foundation.OnesComplement

variable {m w x y : Nat}

def reduce (m x : Nat) : Nat := if x = 0 then 0 else (x - 1) % m + 1

def carry (w x : Nat) : Nat := if 0 < x / 2 ^ w then x % 2 ^ w + 1 else x

theorem reduce_zero : reduce m 0 = 0 := if_pos rfl

theorem reduce_of_ne_zero (some : x ≠ 0) : reduce m x = (x - 1) % m + 1 := if_neg some

theorem reduce_le (positive : 0 < m) : reduce m x ≤ m := by
  by_cases zero : x = 0
  · rw [zero, reduce_zero]
    exact Nat.zero_le m
  · rw [reduce_of_ne_zero zero]
    exact Nat.mod_lt _ positive

theorem reduce_of_le (small : x ≤ m) : reduce m x = x := by
  by_cases zero : x = 0
  · rw [zero, reduce_zero]
  · rw [reduce_of_ne_zero zero, Nat.mod_eq_of_lt (by omega)]
    omega

theorem reduce_eq_zero_iff : reduce m x = 0 ↔ x = 0 := by
  constructor
  · intro none
    by_contra zero
    rw [reduce_of_ne_zero zero] at none
    exact Nat.succ_ne_zero _ none
  · rintro rfl
    exact reduce_zero

theorem reduce_modEq : reduce m x ≡ x [MOD m] := by
  by_cases zero : x = 0
  · rw [zero, reduce_zero]
  · have step := (Nat.mod_modEq (x - 1) m).add_right 1
    rw [Nat.sub_add_cancel (Nat.one_le_iff_ne_zero.2 zero)] at step
    rwa [reduce_of_ne_zero zero]

theorem reduce_congr (same : x ≡ y [MOD m]) (zero : x = 0 ↔ y = 0) : reduce m x = reduce m y := by
  by_cases none : x = 0
  · rw [none, zero.1 none]
  · have none' := mt zero.2 none
    have here := Nat.sub_add_cancel (Nat.one_le_iff_ne_zero.2 none)
    have there := Nat.sub_add_cancel (Nat.one_le_iff_ne_zero.2 none')
    rw [← here, ← there] at same
    rw [reduce_of_ne_zero none, reduce_of_ne_zero none', Nat.ModEq.add_right_cancel' 1 same]

theorem reduce_reduce_add : reduce m (reduce m x + y) = reduce m (x + y) := by
  apply reduce_congr (reduce_modEq.add_right y)
  rw [Nat.add_eq_zero_iff, Nat.add_eq_zero_iff, reduce_eq_zero_iff]

theorem reduce_eq_max_iff (positive : 0 < m) : reduce m x = m ↔ x ≠ 0 ∧ m ∣ x := by
  rw [← Nat.modEq_zero_iff_dvd]
  constructor
  · intro max
    refine ⟨fun zero => positive.ne' (max.symm.trans (reduce_eq_zero_iff.2 zero)), ?_⟩
    have same := reduce_modEq (m := m) (x := x)
    rw [max] at same
    exact same.symm.trans (Nat.modEq_zero_iff_dvd.2 (dvd_refl m))
  · rintro ⟨some, multiple⟩
    have same : x ≡ m [MOD m] := multiple.trans (Nat.modEq_zero_iff_dvd.2 (dvd_refl m)).symm
    rw [reduce_congr same (by omega), reduce_of_le (Nat.le_refl m)]

theorem carry_eq_reduce (here : x ≤ 2 ^ w - 1) (there : y ≤ 2 ^ w - 1) : carry w (x + y) = reduce (2 ^ w - 1) (x + y) := by
  have positive := Nat.two_pow_pos w
  rw [carry]
  rcases Nat.lt_or_ge (x + y) (2 ^ w) with small | large
  · rw [Nat.div_eq_of_lt small, if_neg (Nat.lt_irrefl 0), reduce_of_le (by omega)]
  · have rest : (x + y) % 2 ^ w = x + y - 2 ^ w := by
      rw [Nat.mod_eq_sub_mod large, Nat.mod_eq_of_lt (by omega)]
    rw [if_pos (Nat.div_pos large positive), rest, reduce_of_ne_zero (by omega)]
    rcases Nat.eq_or_lt_of_le (Nat.succ_le_of_lt positive) with one | more
    · omega
    · rw [Nat.mod_eq_sub_mod (by omega), Nat.mod_eq_of_lt (by omega)]
      omega

end Pcsx2.Foundation.OnesComplement
