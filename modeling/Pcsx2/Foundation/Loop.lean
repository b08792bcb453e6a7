import Mathlib.Data.Finite.Defs
import Mathlib.Data.Set.Finite.Basic
import Mathlib.Logic.Function.Iterate
import Mathlib.Logic.Relation
import Mathlib.Order.WellFounded

/-!
# Loops that may fault

A loop is given by what one turn of it comes to. It ends when its turns come to a result; a loop
that faults and one that goes on for ever have none.
-/

namespace Pcsx2.Foundation

inductive Turn (σ α : Type*)
  | again (s : σ)
  | done (a : α)
  | fault

namespace Loop

variable {σ α : Type*} (turn : σ → Turn σ α)

def run : Nat → σ → Option α
  | 0, _ => none
  | fuel + 1, s => match turn s with
    | .again t => run fuel t
    | .done a => some a
    | .fault => none

inductive Ends : σ → α → Prop
  | done {s : σ} {a : α} (now : turn s = .done a) : Ends s a
  | again {s t : σ} {a : α} (next : turn s = .again t) (rest : Ends t a) : Ends s a

variable {turn} {s t : σ} {a b : α}

theorem Ends.run (ends : Ends turn s a) : ∃ fuel, run turn fuel s = some a := by
  induction ends with
  | done now => exact ⟨1, by simp only [Loop.run, now]⟩
  | again next _ ih =>
      obtain ⟨fuel, ran⟩ := ih
      exact ⟨fuel + 1, by simp only [Loop.run, next, ran]⟩

theorem Ends.of_run {fuel : Nat} (ran : Loop.run turn fuel s = some a) : Ends turn s a := by
  induction fuel generalizing s with
  | zero => cases ran
  | succ fuel ih =>
      cases next : turn s with
      | again t => exact .again next (ih (by simpa only [Loop.run, next] using ran))
      | done b =>
          simp only [Loop.run, next, Option.some.injEq] at ran
          exact .done (ran ▸ next)
      | fault => simp only [Loop.run, next, reduceCtorEq] at ran

theorem Ends.run_of_rank (ends : Ends turn s a) (rank : σ → Nat) (falls : ∀ s t, turn s = .again t → rank t < rank s)
    {fuel : Nat} (enough : rank s < fuel) : Loop.run turn fuel s = some a := by
  induction ends generalizing fuel with
  | done now =>
      obtain ⟨fuel, rfl⟩ := Nat.exists_eq_succ_of_ne_zero (Nat.ne_zero_of_lt enough)
      simp only [Loop.run, now]
  | again next _ ih =>
      obtain ⟨fuel, rfl⟩ := Nat.exists_eq_succ_of_ne_zero (Nat.ne_zero_of_lt enough)
      simp only [Loop.run, next]
      exact ih (Nat.lt_of_lt_of_le (falls _ _ next) (Nat.le_of_lt_succ enough))

theorem Ends.of_steps (steps : Relation.ReflTransGen (fun s t => turn s = .again t) s t) (ends : Ends turn t a) :
    Ends turn s a := by
  induction steps using Relation.ReflTransGen.head_induction_on with
  | refl => exact ends
  | head next _ ih => exact .again next ih

theorem ends_iff : Ends turn s a ↔ ∃ fuel, run turn fuel s = some a :=
  ⟨Ends.run, fun ⟨_, ran⟩ => .of_run ran⟩

theorem ends_done (now : turn s = .done b) : Ends turn s a ↔ a = b := by
  constructor
  · intro ends
    cases ends with
    | done now' => simpa only [now, Turn.done.injEq, eq_comm] using now'
    | again next => simp only [now, reduceCtorEq] at next
  · rintro rfl
    exact .done now

theorem ends_again (next : turn s = .again t) : Ends turn s a ↔ Ends turn t a := by
  constructor
  · intro ends
    cases ends with
    | done now => simp only [next, reduceCtorEq] at now
    | again next' rest =>
        simp only [next, Turn.again.injEq] at next'
        exact next' ▸ rest
  · exact .again next

theorem not_ends_fault (wrong : turn s = .fault) : ¬Ends turn s a := by
  intro ends
  cases ends with
  | done now => simp only [wrong, reduceCtorEq] at now
  | again next => simp only [wrong, reduceCtorEq] at next

theorem Ends.unique (ends : Ends turn s a) (ends' : Ends turn s b) : a = b := by
  induction ends with
  | done now => exact ((ends_done now).1 ends').symm
  | again next _ ih => exact ih ((ends_again next).1 ends')

theorem Ends.invariant {I : σ → Prop} {Q : α → Prop} (ends : Ends turn s a)
    (keeps : ∀ s t, I s → turn s = .again t → I t) (last : ∀ s a, I s → turn s = .done a → Q a) (first : I s) : Q a := by
  induction ends with
  | done now => exact last _ _ first now
  | again next _ ih => exact ih (keeps _ _ first next)

theorem exists_ends {β : Type*} [LT β] [WellFoundedLT β] {I : σ → Prop} (rank : σ → β)
    (safe : ∀ s, I s → turn s ≠ .fault) (falls : ∀ s t, I s → turn s = .again t → I t ∧ rank t < rank s)
    (first : I s) : ∃ a, Ends turn s a := by
  induction bound : rank s using WellFoundedLT.induction generalizing s with
  | ind r ih =>
      cases next : turn s with
      | again t =>
          obtain ⟨holds, less⟩ := falls s t first next
          obtain ⟨a, rest⟩ := ih (rank t) (bound ▸ less) holds rfl
          exact ⟨a, .again next rest⟩
      | done a => exact ⟨a, .done next⟩
      | fault => exact absurd next (safe s first)

theorem exists_run {I : σ → Prop} (rank : σ → Nat) (safe : ∀ s, I s → turn s ≠ .fault)
    (falls : ∀ s t, I s → turn s = .again t → I t ∧ rank t < rank s) {fuel : Nat} (enough : rank s < fuel) (first : I s) :
    ∃ a, Loop.run turn fuel s = some a := by
  induction fuel generalizing s with
  | zero => exact absurd enough (Nat.not_lt_zero _)
  | succ fuel ih =>
      rw [Loop.run]
      cases next : turn s with
      | again t =>
          obtain ⟨holds, less⟩ := falls s t first next
          exact ih (Nat.lt_of_lt_of_le less (Nat.le_of_lt_succ enough)) holds
      | done a => exact ⟨a, rfl⟩
      | fault => exact absurd next (safe s first)

end Loop

end Pcsx2.Foundation

/-!
# Steps that lead back

Whoever follows the steps of a relation comes to an end when finitely many places are reached and
none of them leads back to itself.
-/

namespace Pcsx2.Foundation

open Relation

variable {α : Type*} {r : α → α → Prop} {a b : α}

theorem exists_lower_of_transGen {rank : α → Nat → Prop} (step : ∀ a b n, r a b → rank a n → ∃ m < n, rank b m) {n : Nat}
    (ranked : rank a n) (path : TransGen r a b) : ∃ m < n, rank b m := by
  induction path with
  | single first => exact step _ _ _ first ranked
  | tail _ last ih =>
      obtain ⟨m, lower, ranked⟩ := ih
      obtain ⟨k, least, ranked⟩ := step _ _ _ last ranked
      exact ⟨k, Nat.lt_trans least lower, ranked⟩

theorem not_transGen_self {rank : α → Nat → Prop} (step : ∀ a b n, r a b → rank a n → ∃ m < n, rank b m) {n : Nat}
    (ranked : rank a n) : ¬TransGen r a a := by
  intro round
  induction n using Nat.strongRecOn with
  | ind n ih =>
      obtain ⟨m, lower, ranked⟩ := exists_lower_of_transGen step ranked round
      exact ih m lower ranked

theorem induction_of_acyclic {motive : α → Prop} (finite : Set.Finite {b | ReflTransGen r a b})
    (acyclic : ∀ b, ReflTransGen r a b → ¬TransGen r b b)
    (step : ∀ b, ReflTransGen r a b → (∀ c, r b c → motive c) → motive b) : motive a := by
  have : Finite {b | ReflTransGen r a b} := finite
  let behind (x y : {b | ReflTransGen r a b}) : Prop := TransGen r y.1 x.1
  have : IsTrans _ behind := ⟨fun _ _ _ first second => second.trans first⟩
  have : Std.Irrefl behind := ⟨fun x => acyclic x.1 x.2⟩
  have founded : WellFounded behind := Finite.wellFounded_of_trans_of_irrefl behind
  have all (x : {b | ReflTransGen r a b}) : motive x.1 := by
    induction x using founded.induction with
    | h x ih => exact step x.1 x.2 fun c next => ih ⟨c, x.2.tail next⟩ (.single next)
  exact all ⟨a, .refl⟩

end Pcsx2.Foundation

/-!
# Loops that go on while a pass counts as busy

Such a loop returns where every busy pass that it makes lowers something, and not from a state that busy passes do not
lead out of.
-/

namespace Pcsx2.Foundation

variable {σ : Type*} (busy : σ → Bool) (pass : σ → σ)

def busyLoop : Nat → σ → σ
  | 0, s => s
  | passes + 1, s => if busy s then busyLoop passes (pass s) else s

def Leaves (s : σ) : Prop := ∃ passes, busy (busyLoop busy pass passes s) = false

variable {busy pass} {s : σ}

@[simp] theorem busyLoop_busy (now : busy s = true) (passes : Nat) :
    busyLoop busy pass (passes + 1) s = busyLoop busy pass passes (pass s) := if_pos now

@[simp] theorem busyLoop_idle (now : busy s = false) (passes : Nat) : busyLoop busy pass passes s = s := by
  cases passes with
  | zero => rfl
  | succ passes => simp [busyLoop, now]

theorem busyLoop_invariant {holds : σ → Prop} (keeps : ∀ s, holds s → busy s = true → holds (pass s))
    (initial : holds s) (passes : Nat) : holds (busyLoop busy pass passes s) := by
  induction passes generalizing s with
  | zero => exact initial
  | succ passes ih =>
    cases now : busy s with
    | true => exact busyLoop_busy now passes ▸ ih (keeps s initial now)
    | false => exact (busyLoop_idle now (passes + 1)).symm ▸ initial

theorem Leaves.of_idle (now : busy s = false) : Leaves busy pass s := ⟨0, now⟩

theorem leaves_pass (now : busy s = true) : Leaves busy pass (pass s) ↔ Leaves busy pass s := by
  constructor
  · rintro ⟨passes, idle⟩
    exact ⟨passes + 1, by simpa [now] using idle⟩
  · rintro ⟨passes, idle⟩
    cases passes with
    | zero => simp [busyLoop, now] at idle
    | succ passes => exact ⟨passes, by simpa [now] using idle⟩

theorem leaves_loop (passes : Nat) : Leaves busy pass (busyLoop busy pass passes s) ↔ Leaves busy pass s := by
  induction passes generalizing s with
  | zero => rfl
  | succ passes ih =>
    cases now : busy s with
    | true => rw [busyLoop_busy now, ih, leaves_pass now]
    | false => rw [busyLoop_idle now]

theorem not_leaves_of_stuck {stuck : σ → Prop} (now : ∀ s, stuck s → busy s = true)
    (keeps : ∀ s, stuck s → stuck (pass s)) (initial : stuck s) : ¬Leaves busy pass s := by
  rintro ⟨passes, idle⟩
  have later : stuck (busyLoop busy pass passes s) := busyLoop_invariant (fun s is _ => keeps s is) initial passes
  rw [now _ later] at idle
  cases idle

theorem leaves_of_rank (Within : Nat → σ → Prop) (rank : σ → Nat) (bad : σ → Prop)
    (step : ∀ n s, Within n s → busy s = true → ¬bad s →
      (∃ m < n, Within m (pass s)) ∨ Within n (pass s) ∧ rank (pass s) < rank s)
    {n : Nat} (bounded : Within n s) (never : ∀ passes, ¬bad (busyLoop busy pass passes s)) :
    Leaves busy pass s := by
  induction n using Nat.strongRecOn generalizing s with
  | ind n outer =>
    generalize ranked : rank s = r
    induction r using Nat.strongRecOn generalizing s with
    | ind r inner =>
      cases now : busy s with
      | false => exact .of_idle now
      | true =>
        have later : ∀ passes, ¬bad (busyLoop busy pass passes (pass s)) := fun passes => by
          rw [← busyLoop_busy now]
          exact never _
        rw [← leaves_pass now]
        rcases step n s bounded now (never 0) with ⟨m, lower, bounded⟩ | ⟨bounded, lower⟩
        · exact outer m lower bounded later
        · exact inner _ (ranked ▸ lower) bounded later rfl

end Pcsx2.Foundation
