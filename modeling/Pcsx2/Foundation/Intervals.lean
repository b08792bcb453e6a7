import Mathlib.Algebra.Order.Ring.Int
import Mathlib.Data.Finset.Card
import Mathlib.Data.List.Nodup
import Mathlib.Logic.Function.Basic
import Mathlib.Order.Interval.Finset.Nat
import Mathlib.Order.Lattice

/-!
# Intervals that do not overlap
-/

namespace Pcsx2.Foundation

variable {α : Type*} {first length : α → Nat} {low high : Nat} {items : List α}

/-- The intervals `[first, first + length)` of the two do not overlap. -/
def Apart (first length : α → Nat) (x y : α) : Prop :=
  first x + length x ≤ first y ∨ first y + length y ≤ first x

theorem Apart.symm {x y : α} (apart : Apart first length x y) : Apart first length y x := Or.symm apart

theorem exists_points (apart : items.Pairwise (Apart first length)) :
    ∃ points : Finset Nat, points.card = (items.map length).sum ∧
      ∀ n, n ∈ points ↔ ∃ x ∈ items, first x ≤ n ∧ n < first x + length x := by
  induction items with
  | nil => exact ⟨∅, rfl, by simp⟩
  | cons x rest ih =>
    obtain ⟨head, tail⟩ := List.pairwise_cons.1 apart
    obtain ⟨points, card, covered⟩ := ih tail
    have new : Disjoint (Finset.Ico (first x) (first x + length x)) points := by
      rw [Finset.disjoint_left]
      intro n inside member
      obtain ⟨y, listed, bounds⟩ := (covered n).1 member
      rw [Finset.mem_Ico] at inside
      rcases head y listed with before | after
      · omega
      · omega
    refine ⟨Finset.Ico (first x) (first x + length x) ∪ points, ?_, fun n => ?_⟩
    · rw [Finset.card_union_of_disjoint new, card, Nat.card_Ico, Nat.add_sub_cancel_left, List.map_cons,
        List.sum_cons]
    · rw [Finset.mem_union, Finset.mem_Ico, covered, List.exists_mem_cons_iff]

theorem sum_le_of_apart (apart : items.Pairwise (Apart first length))
    (inside : ∀ x ∈ items, low ≤ first x ∧ first x + length x ≤ high) :
    (items.map length).sum ≤ high - low := by
  obtain ⟨points, card, covered⟩ := exists_points apart
  rw [← card, ← Nat.card_Ico]
  apply Finset.card_le_card
  intro n member
  obtain ⟨x, listed, bounds⟩ := (covered n).1 member
  have space := inside x listed
  rw [Finset.mem_Ico]
  omega

end Pcsx2.Foundation

/-!
# Visiting each number once

Two ways to go through stretches of numbers that overlap: to start each stretch where the one before ended, which asks
for stretches in order, and to mark what was visited.
-/

namespace Pcsx2.Foundation

/-! ## Stretches in order -/

section
variable {A B : Nat → Nat}

/-- `count` stretches from the one numbered `j` on, without what lies below `nextMin`. -/
def sweep (A B : Nat → Nat) : Nat → Nat → Nat → List Nat
  | 0, _, _ => []
  | count + 1, j, nextMin => List.range' (max nextMin (A j)) (B j - max nextMin (A j)) ++ sweep A B count (j + 1) (B j)

structure InOrder (A B : Nat → Nat) (count j : Nat) : Prop where
  starts : ∀ i k, j ≤ i → i ≤ k → k < j + count → A i ≤ A k
  ends : ∀ i, j ≤ i → i + 2 < j + count → B i ≤ B (i + 1)

theorem InOrder.tail {count j : Nat} (order : InOrder A B (count + 1) j) : InOrder A B count (j + 1) :=
  ⟨fun i k first le last => order.starts i k (by omega) le (by omega), fun i first last => order.ends i (by omega) (by omega)⟩

theorem inside_of_mem_sweep {count j nextMin p : Nat} (member : p ∈ sweep A B count j nextMin) :
    ∃ i, j ≤ i ∧ i < j + count ∧ A i ≤ p ∧ p < B i := by
  induction count generalizing j nextMin with
  | zero => cases member
  | succ count ih =>
      rcases List.mem_append.mp member with here | later
      · rw [List.mem_range'_1] at here
        exact ⟨j, Nat.le_refl j, by omega, by omega, by omega⟩
      · obtain ⟨i, first, last, inside⟩ := ih later
        exact ⟨i, by omega, by omega, inside⟩

theorem above_of_mem_sweep {count j nextMin p low : Nat} (start : low ≤ max nextMin (A j))
    (stops : ∀ i, j ≤ i → i < j + count → low ≤ B i) (member : p ∈ sweep A B count j nextMin) : low ≤ p := by
  induction count generalizing j nextMin with
  | zero => cases member
  | succ count ih =>
      rcases List.mem_append.mp member with here | later
      · exact Nat.le_trans start (List.mem_range'_1.mp here).1
      · have stop := stops j (Nat.le_refl j) (by omega)
        exact ih (Nat.le_trans stop (le_max_left _ _)) (fun i first last => stops i (by omega) (by omega)) later

theorem mem_sweep {count j nextMin : Nat} (order : InOrder A B count j) (low : 2 ≤ count → nextMin ≤ B j) (p : Nat) :
    p ∈ sweep A B count j nextMin ↔ nextMin ≤ p ∧ ∃ i, j ≤ i ∧ i < j + count ∧ A i ≤ p ∧ p < B i := by
  induction count generalizing j nextMin with
  | zero =>
      simp only [sweep, List.not_mem_nil, Nat.add_zero, false_iff]
      rintro ⟨-, i, first, last, -⟩
      omega
  | succ count ih =>
      have rest := ih order.tail fun two => order.ends j (Nat.le_refl j) (by omega)
      rw [sweep, List.mem_append, List.mem_range'_1, rest]
      constructor
      · rintro (⟨above, below⟩ | ⟨above, i, first, last, inside⟩)
        · exact ⟨by omega, j, Nat.le_refl j, by omega, by omega, by omega⟩
        · exact ⟨Nat.le_trans (low (by omega)) above, i, by omega, by omega, inside⟩
      · rintro ⟨above, i, first, last, inside, below⟩
        rcases Nat.lt_or_ge p (B j) with here | later
        · have start := order.starts j i (Nat.le_refl j) first last
          exact Or.inl ⟨by omega, by omega⟩
        · have other : i ≠ j := by
            rintro rfl
            omega
          exact Or.inr ⟨later, i, by omega, by omega, inside, below⟩

theorem sweep_nodup {count j nextMin : Nat} (order : InOrder A B count j) : (sweep A B count j nextMin).Nodup := by
  induction count generalizing j nextMin with
  | zero => exact List.nodup_nil
  | succ count ih =>
      refine List.nodup_append.mpr ⟨List.nodup_range', ih order.tail, ?_⟩
      intro p here q later
      rw [List.mem_range'_1] at here
      have above := ((mem_sweep order.tail (fun two => order.ends j (Nat.le_refl j) (by omega)) q).mp later).1
      omega

end

/-! ## Marks -/

def visit : List Nat → (Nat → Bool) → List Nat × (Nat → Bool)
  | [], touched => ([], touched)
  | p :: rest, touched =>
      if touched p then visit rest touched
      else
        let later := visit rest (Function.update touched p true)
        (p :: later.1, later.2)

variable {touched : Nat → Bool}

theorem mem_visit (ps : List Nat) (p : Nat) : p ∈ (visit ps touched).1 ↔ p ∈ ps ∧ touched p = false := by
  induction ps generalizing touched with
  | nil => simp [visit]
  | cons q ps ih =>
      unfold visit
      cases marked : touched q with
      | true =>
          simp only [if_true, ih, List.mem_cons]
          by_cases same : p = q
          · simp [same, marked]
          · simp [same]
      | false =>
          simp only [Bool.false_eq_true, if_false, List.mem_cons, ih]
          by_cases same : p = q
          · simp [same, marked]
          · simp [same]

theorem visit_nodup (ps : List Nat) : (visit ps touched).1.Nodup := by
  induction ps generalizing touched with
  | nil => exact List.nodup_nil
  | cons q ps ih =>
      unfold visit
      split
      · exact ih
      · refine List.nodup_cons.mpr ⟨?_, ih⟩
        rw [mem_visit, Function.update_self]
        exact fun both => Bool.noConfusion both.2

theorem visit_append (ps qs : List Nat) (touched : Nat → Bool) : visit (ps ++ qs) touched =
    ((visit ps touched).1 ++ (visit qs (visit ps touched).2).1, (visit qs (visit ps touched).2).2) := by
  induction ps generalizing touched with
  | nil => rfl
  | cons p ps ih =>
      cases marked : touched p with
      | true => simp only [List.cons_append, visit, marked, if_true, ih]
      | false => simp only [List.cons_append, visit, marked, Bool.false_eq_true, if_false, ih]

end Pcsx2.Foundation
