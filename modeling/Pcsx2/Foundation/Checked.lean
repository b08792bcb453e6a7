import Mathlib.Algebra.Order.Ring.Int
import Mathlib.Algebra.Order.Ring.Abs
import Mathlib.Data.List.Forall2
import Mathlib.Data.List.GetD
import Mathlib.Tactic.Linarith

/-!
# Arithmetic that must not overflow

A signed number of some width is asked for, and there is no result if a number does not fit. Bounds on the numbers
that go in show that there is one.
-/

namespace Pcsx2.Foundation

universe u v

/-! ## Numbers that fit -/

/-- A signed number of `w + 1` bits. -/
def signed (w : Nat) (n : Int) : Option Int := if -2 ^ w ≤ n ∧ n < 2 ^ w then some n else none

/-- The numbers up to a bound, of either sign. -/
def Within (bound n : Int) : Prop := -bound ≤ n ∧ n ≤ bound

section
variable {a b x y : Int}

theorem Within.nonneg (within : Within a x) : 0 ≤ a := by
  obtain ⟨low, high⟩ := within
  omega

theorem Within.mono (within : Within a x) (le : a ≤ b) : Within b x := by
  obtain ⟨low, high⟩ := within
  exact ⟨by omega, by omega⟩

theorem Within.zero (positive : 0 ≤ a) : Within a 0 := ⟨by omega, positive⟩

theorem Within.add (first : Within a x) (second : Within b y) : Within (a + b) (x + y) := by
  obtain ⟨low, high⟩ := first
  obtain ⟨low', high'⟩ := second
  exact ⟨by omega, by omega⟩

theorem Within.sub (first : Within a x) (second : Within b y) : Within (a + b) (x - y) := by
  obtain ⟨low, high⟩ := first
  obtain ⟨low', high'⟩ := second
  exact ⟨by omega, by omega⟩

theorem within_iff : Within a x ↔ |x| ≤ a := abs_le.symm

theorem Within.mul (first : Within a x) (second : Within b y) : Within (a * b) (x * y) := by
  have positive := first.nonneg
  rw [within_iff] at first second ⊢
  rw [abs_mul]
  exact mul_le_mul first second (abs_nonneg y) positive

theorem Within.shift {k : Nat} (within : Within (a * 2 ^ k) x) : Within a (x / 2 ^ k) := by
  obtain ⟨low, high⟩ := within
  have positive : (0 : Int) < 2 ^ k := Int.pow_pos (by decide)
  constructor
  · rw [Int.le_ediv_iff_mul_le positive]
    linarith
  · exact Int.ediv_le_of_le_mul positive high

theorem Within.abs (x : Int) : Within |x| x := within_iff.mpr (le_refl _)

end

/-! ## Computations with a result -/

/-- The computation has a result, and that is as `P` says. -/
def Fine {α : Type u} (m : Option α) (P : α → Prop) : Prop := ∃ a, m = some a ∧ P a

namespace Fine

variable {α : Type u} {β : Type v} {m : Option α} {P Q : α → Prop} {R : β → Prop} {next : α → Option β}

theorem pure {a : α} (holds : P a) : Fine (some a) P := ⟨a, rfl, holds⟩

theorem bind (first : Fine m P) (rest : ∀ a, P a → Fine (next a) R) : Fine (m.bind next) R := by
  obtain ⟨a, rfl, holds⟩ := first
  exact rest a holds

theorem weaken (fine : Fine m P) (weaker : ∀ a, P a → Q a) : Fine m Q := by
  obtain ⟨a, same, holds⟩ := fine
  exact ⟨a, same, weaker a holds⟩

end Fine

theorem signed_fine {w : Nat} {a n : Int} (within : Within a n) (small : a < 2 ^ w) :
    Fine (signed w n) fun m => m = n ∧ Within a n := by
  obtain ⟨low, high⟩ := within
  exact ⟨n, if_pos ⟨by omega, by omega⟩, rfl, low, high⟩

/-! ## Lists of computations -/

section
variable {α : Type u} {β : Type v} {f : α → Option β} {l : List α} {bs : List β}

theorem mapM_cons_some {a : α} (done : (a :: l).mapM f = some bs) :
    ∃ b rest, f a = some b ∧ l.mapM f = some rest ∧ bs = b :: rest := by
  rw [List.mapM_cons] at done
  obtain ⟨b, first, done⟩ := Option.bind_eq_some_iff.mp done
  obtain ⟨rest, others, done⟩ := Option.bind_eq_some_iff.mp done
  exact ⟨b, rest, first, others, (Option.some.inj done).symm⟩

theorem mapM_each (done : l.mapM f = some bs) : ∀ a ∈ l, ∃ b, f a = some b := by
  induction l generalizing bs with
  | nil => exact fun a member => absurd member List.not_mem_nil
  | cons a l ih =>
      obtain ⟨b, rest, first, others, rfl⟩ := mapM_cons_some done
      exact List.forall_mem_cons.mpr ⟨⟨b, first⟩, ih others⟩

theorem Fine.mapM {P : α → β → Prop} (each : ∀ a ∈ l, Fine (f a) (P a)) : Fine (l.mapM f) (List.Forall₂ P l) := by
  induction l with
  | nil => exact .pure .nil
  | cons a l ih =>
      obtain ⟨b, first, holds⟩ := each a List.mem_cons_self
      obtain ⟨rest, others, holds'⟩ := ih fun a member => each a (List.mem_cons_of_mem _ member)
      refine ⟨b :: rest, ?_, .cons holds holds'⟩
      rw [List.mapM_cons, first, others]
      rfl

theorem Fine.range {n : Nat} {f : Nat → Option β} {P : Nat → β → Prop} (each : ∀ i < n, Fine (f i) (P i)) (b : β) :
    Fine ((List.range n).mapM f) fun bs => (∀ i < n, P i (bs.getD i b)) ∧ ∀ i, n ≤ i → bs.getD i b = b := by
  refine (Fine.mapM fun i member => each i (List.mem_range.mp member)).weaken fun bs all => ?_
  rw [List.forall₂_iff_get] at all
  obtain ⟨length, holds⟩ := all
  rw [List.length_range] at length
  constructor
  · intro i inside
    have := holds i (by rwa [List.length_range]) (by omega)
    rwa [List.get_eq_getElem, List.getElem_range, List.get_eq_getElem, ← List.getD_eq_getElem _ b] at this
  · exact fun i outside => List.getD_eq_default _ _ (by omega)

end

end Pcsx2.Foundation
