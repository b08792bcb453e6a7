import Mathlib.Algebra.Order.Ring.Int
import Mathlib.Data.List.Basic
import Mathlib.Data.List.Nodup
import Mathlib.Data.List.Perm.Subperm
import Mathlib.Data.Nat.Bitwise
import Mathlib.Logic.Function.Basic
import Mathlib.Order.Basic

/-!
# Ranks in a strictly sorted list

The elements up to a bound are a prefix, and `rank` is its length. A binary search for the bound
computes the rank.
-/

namespace Pcsx2.Foundation

variable {α β : Type*} [LinearOrder β] {key : α → β} {l : List α}

def Ascending (key : α → β) (l : List α) : Prop := l.Pairwise fun a b => key a < key b

/-- How many keys are at most `x`. -/
def rank (key : α → β) (l : List α) (x : β) : Nat := l.countP fun a => decide (key a ≤ x)

theorem rank_le_length (key : α → β) (l : List α) (x : β) : rank key l x ≤ l.length := List.countP_le_length

theorem lt_rank_iff (ascending : Ascending key l) (x : β) {i : Nat} (bound : i < l.length) :
    i < rank key l x ↔ key l[i] ≤ x := by
  induction l generalizing i with
  | nil => simp at bound
  | cons a rest ih =>
      obtain ⟨above, ascending⟩ := List.pairwise_cons.1 ascending
      have none_below (lt : x < key a) : rank key rest x = 0 := by
        rw [rank, List.countP_eq_zero]
        intro b member
        simpa using lt.trans (above b member)
      rw [rank, List.countP_cons]
      change i < rank key rest x + _ ↔ _
      rcases le_or_gt (key a) x with le | lt
      · simp only [le, decide_true, if_true]
        cases i with
        | zero => simpa using le
        | succ i => simpa using ih ascending (by simpa using bound)
      · simp only [not_le.2 lt, decide_false, none_below lt]
        cases i with
        | zero => simpa using lt
        | succ i => simpa using lt.trans (above _ (List.getElem_mem (by simpa using bound)))

theorem take_rank (ascending : Ascending key l) {x : β} {a : α} (member : a ∈ l.take (rank key l x)) :
    key a ≤ x := by
  obtain ⟨i, bound, rfl⟩ := List.mem_iff_getElem.1 member
  rw [List.length_take] at bound
  rw [List.getElem_take]
  exact (lt_rank_iff ascending x (by omega)).1 (by omega)

theorem drop_rank (ascending : Ascending key l) {x : β} {a : α} (member : a ∈ l.drop (rank key l x)) :
    x < key a := by
  obtain ⟨i, bound, rfl⟩ := List.mem_iff_getElem.1 member
  rw [List.length_drop] at bound
  rw [List.getElem_drop]
  exact not_le.1 fun le => absurd ((lt_rank_iff ascending x (by omega)).2 le) (by omega)

theorem rank_of_mem (ascending : Ascending key l) {a : α} (member : a ∈ l) :
    ∃ bound : rank key l (key a) - 1 < l.length, 0 < rank key l (key a) ∧
      l[rank key l (key a) - 1] = a := by
  obtain ⟨i, bound, rfl⟩ := List.mem_iff_getElem.1 member
  have below : i < rank key l (key l[i]) := (lt_rank_iff ascending _ bound).2 le_rfl
  have last : rank key l (key l[i]) - 1 < l.length := by
    have := rank_le_length key l (key l[i])
    omega
  refine ⟨last, by omega, ?_⟩
  congr 1
  by_contra ne
  have above := List.pairwise_iff_getElem.1 ascending i _ bound last (by omega)
  exact absurd ((lt_rank_iff ascending _ last).1 (by omega)) (not_le.2 above)

end Pcsx2.Foundation

/-!
# First occurrences

The elements of a list in the order in which they occur first, and lists that follow that order.
-/

namespace Pcsx2.Foundation

variable {α : Type*} [DecidableEq α] {l m : List α} {a b : α}

def firsts : List α → List α
  | [] => []
  | a :: l => a :: (firsts l).filter (· ≠ a)

@[simp] theorem mem_firsts : a ∈ firsts l ↔ a ∈ l := by
  induction l with
  | nil => rfl
  | cons b l ih =>
      by_cases same : a = b
      · simp [firsts, same]
      · simp [firsts, same, ih]

theorem nodup_firsts (l : List α) : (firsts l).Nodup := by
  induction l with
  | nil => exact List.nodup_nil
  | cons a l ih =>
      rw [firsts, List.nodup_cons]
      exact ⟨by simp, ih.filter _⟩

theorem firsts_concat (l : List α) (a : α) : firsts (l ++ [a]) = if a ∈ l then firsts l else firsts l ++ [a] := by
  induction l with
  | nil => rfl
  | cons b l ih =>
      rw [List.cons_append, firsts, ih, firsts]
      by_cases same : a = b
      · subst same
        by_cases member : a ∈ l
        · simp [member]
        · simp [member]
      · by_cases member : a ∈ l
        · simp [member]
        · simp [same, member]

theorem idxOf_cons_of_ne (other : a ≠ b) (l : List α) : (b :: l).idxOf a = l.idxOf a + 1 :=
  List.idxOf_cons_ne l other.symm

theorem sublist_iff_pairwise (nodup : l.Nodup) :
    m.Sublist l ↔ m ⊆ l ∧ m.Pairwise fun a b => l.idxOf a < l.idxOf b := by
  constructor
  · intro sublist
    refine ⟨sublist.subset, List.Pairwise.sublist sublist ?_⟩
    rw [List.pairwise_iff_getElem]
    intro i j inside inside' before
    rwa [nodup.idxOf_getElem, nodup.idxOf_getElem]
  · rintro ⟨subset, ordered⟩
    induction l generalizing m with
    | nil => rw [List.subset_nil.1 subset]
    | cons b l ih =>
        obtain ⟨absent, nodup⟩ := List.nodup_cons.1 nodup
        -- apart from a first `b` the list follows the rest
        have rest {m : List α} (without : b ∉ m) (subset : m ⊆ b :: l)
            (ordered : m.Pairwise fun a c => (b :: l).idxOf a < (b :: l).idxOf c) : m.Sublist l := by
          have other {a : α} (member : a ∈ m) : a ≠ b := fun same => without (same ▸ member)
          refine ih nodup (fun a member => ?_) (ordered.imp_of_mem fun {a c} member member' less => ?_)
          · exact (List.mem_cons.1 (subset member)).resolve_left (other member)
          · rw [idxOf_cons_of_ne (other member), idxOf_cons_of_ne (other member')] at less
            exact Nat.lt_of_succ_lt_succ less
        cases m with
        | nil => exact List.nil_sublist _
        | cons a m =>
            obtain ⟨behind, ordered'⟩ := List.pairwise_cons.1 ordered
            have later : b ∉ m := by
              intro member
              have less := behind b member
              rw [List.idxOf_cons_self] at less
              exact Nat.not_lt_zero _ less
            by_cases same : a = b
            · subst same
              exact (rest later (List.cons_subset.1 subset).2 ordered').cons_cons a
            · refine (rest ?_ subset ordered).cons b
              simp [later, Ne.symm same]

end Pcsx2.Foundation

/-!
# A map and its inverse as a list of pairs

The list has the pair of an index and a key once when the map takes the key to the index, and no other pair.
-/

namespace Pcsx2.Foundation

variable {ι κ : Type*} [DecidableEq ι] [DecidableEq κ] {forward : κ → Option ι} {pairs : List (ι × κ)} {index : ι}
  {key : κ}

def Inverse (forward : κ → Option ι) (pairs : List (ι × κ)) : Prop :=
  ∀ index key, pairs.count (index, key) = if forward key = some index then 1 else 0

namespace Inverse

theorem mem_iff (inverse : Inverse forward pairs) : (index, key) ∈ pairs ↔ forward key = some index := by
  rw [← List.count_pos_iff, inverse]
  split
  · exact iff_of_true Nat.one_pos ‹_›
  · exact iff_of_false (Nat.lt_irrefl 0) ‹_›

theorem empty (none : ∀ key, forward key = none) : Inverse forward [] := by
  intro index key
  rw [none, if_neg (Option.some_ne_none index).symm, List.count_nil]

theorem insert (inverse : Inverse forward pairs) (free : forward key = none) (index : ι) :
    Inverse (Function.update forward key (some index)) (pairs ++ [(index, key)]) := by
  intro other place
  rw [List.count_append, inverse, List.count_singleton]
  by_cases here : place = key
  · subst here
    rw [Function.update_self, free, if_neg (Option.some_ne_none other).symm]
    by_cases same : index = other
    · rw [same, if_pos rfl, if_pos (beq_self_eq_true _)]
    · rw [if_neg (fun equal => same (Option.some.inj equal)), if_neg]
      rw [beq_iff_eq, Prod.mk.injEq, not_and_or]
      exact .inl same
  · rw [Function.update_of_ne here, if_neg (show ¬ ((index, key) == (other, place)) = true from ?_), Nat.add_zero]
    rw [beq_iff_eq, Prod.mk.injEq, not_and_or]
    exact .inr (Ne.symm here)

theorem erase (inverse : Inverse forward pairs) (old : forward key = some index) :
    Inverse (Function.update forward key none) (pairs.filter fun pair => pair.1 != index || pair.2 != key) := by
  intro other place
  by_cases here : place = key
  · subst here
    rw [Function.update_self, if_neg (Option.some_ne_none other).symm, List.count_eq_zero, List.mem_filter]
    rintro ⟨member, kept⟩
    obtain rfl := Option.some.inj (old.symm.trans (inverse.mem_iff.mp member))
    simp at kept
  · rw [Function.update_of_ne here, ← inverse, List.count_filter]
    simp [here]

end Inverse

end Pcsx2.Foundation

/-!
# Tables of numbers

A table that has each of the numbers below its size has each of them once. To see this, the numbers are collected in
a mask.
-/

namespace Pcsx2.Foundation

def seen (values : List Nat) : Nat := values.foldl (fun mask v => mask ||| 1 <<< v) 0

theorem testBit_foldl_seen (values : List Nat) (mask i : Nat) :
    (values.foldl (fun mask v => mask ||| 1 <<< v) mask).testBit i = (mask.testBit i || decide (i ∈ values)) := by
  induction values generalizing mask with
  | nil => simp
  | cons v values ih =>
      rw [List.foldl_cons, ih, Nat.testBit_or, Nat.one_shiftLeft, Nat.testBit_two_pow]
      simp only [List.mem_cons, Bool.decide_or, eq_comm (a := v), Bool.or_assoc]

theorem testBit_seen (values : List Nat) (i : Nat) : (seen values).testBit i = decide (i ∈ values) := by
  rw [seen, testBit_foldl_seen, Nat.zero_testBit, Bool.false_or]

variable {values : List Nat} {n : Nat}

theorem lt_of_seen (all : seen values = 2 ^ n - 1) {v : Nat} (member : v ∈ values) : v < n := by
  have bit := testBit_seen values v
  rw [all, Nat.testBit_two_pow_sub_one, decide_eq_true member] at bit
  exact of_decide_eq_true bit

theorem nodup_of_seen (all : seen values = 2 ^ n - 1) (length : values.length = n) : values.Nodup := by
  have included : List.range n ⊆ values := by
    intro v below
    have bit := testBit_seen values v
    rw [all, Nat.testBit_two_pow_sub_one, decide_eq_true (List.mem_range.mp below)] at bit
    exact of_decide_eq_true bit.symm
  have part := List.subperm_of_subset List.nodup_range included
  have all := part.perm_of_length_le (by rw [length, List.length_range])
  exact all.nodup_iff.mp List.nodup_range

/-! ## Rows and columns -/

def grid (rows cols : Nat) (f : Nat → Nat → Nat) : List Nat := (List.range (rows * cols)).map fun k => f (k / cols) (k % cols)

variable {rows cols : Nat} {f : Nat → Nat → Nat}

theorem grid_cell {i j : Nat} (row : i < rows) (col : j < cols) :
    i * cols + j < rows * cols ∧ (i * cols + j) / cols = i ∧ (i * cols + j) % cols = j := by
  have positive : 0 < cols := Nat.zero_lt_of_lt col
  refine ⟨?_, ?_, ?_⟩
  · calc i * cols + j < (i + 1) * cols := by rw [Nat.succ_mul]; omega
      _ ≤ rows * cols := Nat.mul_le_mul_right cols row
  · rw [Nat.mul_comm, Nat.mul_add_div positive, Nat.div_eq_of_lt col, Nat.add_zero]
  · rw [Nat.mul_comm, Nat.mul_add_mod, Nat.mod_eq_of_lt col]

def Fills (rows cols : Nat) (f : Nat → Nat → Nat) : Prop := seen (grid rows cols f) = 2 ^ (rows * cols) - 1

instance : Decidable (Fills rows cols f) := inferInstanceAs (Decidable (_ = _))

theorem Fills.lt (fills : Fills rows cols f) {i j : Nat} (row : i < rows) (col : j < cols) : f i j < rows * cols := by
  obtain ⟨inside, div, mod⟩ := grid_cell row col
  refine lt_of_seen fills (List.mem_map.mpr ⟨i * cols + j, List.mem_range.mpr inside, ?_⟩)
  rw [div, mod]

theorem Fills.injective (fills : Fills rows cols f) {i j i' j' : Nat} (row : i < rows) (col : j < cols) (row' : i' < rows)
    (col' : j' < cols) (same : f i j = f i' j') : i = i' ∧ j = j' := by
  obtain ⟨inside, div, mod⟩ := grid_cell row col
  obtain ⟨inside', div', mod'⟩ := grid_cell row' col'
  have nodup : (grid rows cols f).Nodup := nodup_of_seen fills (by rw [grid, List.length_map, List.length_range])
  have cells := List.inj_on_of_nodup_map nodup (List.mem_range.mpr inside) (List.mem_range.mpr inside') (by
    rw [div, mod, div', mod', same])
  constructor
  · rw [← div, cells, div']
  · rw [← mod, cells, mod']

end Pcsx2.Foundation
