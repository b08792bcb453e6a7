import Mathlib.Data.List.Infix
import Mathlib.Logic.Function.Iterate
import Mathlib.Logic.Relation

namespace Pcsx2.Foundation
open Relation

variable {σ : Type*} {step guard : σ → σ → Prop} {s t u : σ}

/-- Finitely many steps of a transition relation. -/
abbrev Run (step : σ → σ → Prop) : σ → σ → Prop := ReflTransGen step

theorem Run.invariant {I : σ → Prop} (run : Run step s t) (initial : I s)
    (preserve : ∀ s t, I s → step s t → I t) : I t := by
  induction run with
  | refl => exact initial
  | tail _ last ih => exact preserve _ _ ih last

theorem Run.mono {step' : σ → σ → Prop} (run : Run step s t)
    (included : ∀ s t, step s t → step' s t) : Run step' s t :=
  ReflTransGen.mono included _ _ run

theorem Run.single (only : step s t) : Run step s t := ReflTransGen.single only

theorem Run.of_actions {ε : Type*} {next : σ → ε → Option σ} (sound : ∀ s action t, next s action = some t → step s t)
    {actions : List ε} (runs : actions.foldlM next s = some t) : Run step s t := by
  induction actions generalizing s with
  | nil =>
    obtain rfl := Option.some.inj runs
    exact ReflTransGen.refl
  | cons action actions ih =>
    obtain ⟨u, first, rest⟩ := Option.bind_eq_some_iff.mp runs
    exact ReflTransGen.head (sound s action u first) (ih rest)

inductive Trace {ε : Type*} (step : ε → σ → σ → Prop) (s : σ) : List ε → σ → Prop
  | nil : Trace step s [] s
  | snoc {events t event u} (before : Trace step s events t) (last : step event t u) :
      Trace step s (events ++ [event]) u

theorem Trace.invariant {ε : Type*} {step : ε → σ → σ → Prop} {events : List ε}
    {I : List ε → σ → Prop} (run : Trace step s events t) (initial : I [] s)
    (preserve : ∀ events t event u, I events t → step event t u → I (events ++ [event]) u) :
    I events t := by
  induction run with
  | nil => exact initial
  | snoc _ last ih => exact preserve _ _ _ _ ih last

end Pcsx2.Foundation

/-!
# What a system cannot avoid

A goal is inevitable when the system can go on until it is reached, and every way to go on reaches
it.
-/

namespace Pcsx2.Foundation

variable {σ : Type*} {step : σ → σ → Prop} {goal : σ → Prop} {s : σ}

inductive Inevitable (step : σ → σ → Prop) (goal : σ → Prop) : σ → Prop
  | reached {s : σ} (now : goal s) : Inevitable step goal s
  | later {s : σ} (able : ∃ t, step s t) (all : ∀ t, step s t → Inevitable step goal t) :
      Inevitable step goal s

theorem Inevitable.of_rank {I : σ → Prop} (rank : σ → Nat)
    (able : ∀ s, I s → ¬ goal s → ∃ t, step s t)
    (falls : ∀ s t, I s → ¬ goal s → step s t → goal t ∨ (I t ∧ rank t < rank s))
    (initial : I s) : Inevitable step goal s := by
  induction bound : rank s using Nat.strongRecOn generalizing s with
  | _ n ih =>
    by_cases now : goal s
    · exact .reached now
    · apply Inevitable.later (able s initial now)
      intro t next
      rcases falls s t initial now next with reached | ⟨holds, less⟩
      · exact .reached reached
      · exact ih (rank t) (bound ▸ less) holds rfl

theorem exists_iterate_not {f : σ → σ} {I P : σ → Prop} (rank : σ → Nat) (preserve : ∀ s, I s → I (f s))
    (falls : ∀ s, I s → P s → P (f s) → rank (f s) < rank s) (initial : I s) : ∃ n, ¬P (f^[n] s) := by
  induction bound : rank s using Nat.strongRecOn generalizing s with
  | _ n ih =>
    by_cases now : P s
    · by_cases next : P (f s)
      · obtain ⟨count, ends⟩ := ih _ (bound ▸ falls s initial now next) (preserve s initial) rfl
        exact ⟨count + 1, ends⟩
      · exact ⟨1, next⟩
    · exact ⟨0, now⟩

end Pcsx2.Foundation

/-!
# Deterministic machines that emit
-/

namespace Pcsx2.Foundation

variable {σ β : Type*} {unit : σ → Option (List β × σ)}

inductive Emits (unit : σ → Option (List β × σ)) : σ → List β → σ → Prop
  | nil (s : σ) : Emits unit s [] s
  | cons {s middle t : σ} {out rest : List β} :
      unit s = some (out, middle) → Emits unit middle rest t → Emits unit s (out ++ rest) t

theorem Emits.of_stopped {s t : σ} {xs : List β} (emits : Emits unit s xs t) (stopped : unit s = none) : xs = [] ∧ t = s := by
  cases emits with
  | nil => exact ⟨rfl, rfl⟩
  | cons step => rw [stopped] at step; cases step

end Pcsx2.Foundation
