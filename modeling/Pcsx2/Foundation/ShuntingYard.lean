import Mathlib.Data.List.Basic

/-!
# Operators on a stack

An expression with brackets and with operators of different priorities is brought into postfix form from left to right:
operators wait on a stack until one that binds no more strongly comes.
-/

namespace Pcsx2.Foundation.ShuntingYard

inductive Token (Atom Op : Type*)
  | atom (a : Atom)
  | opening (o : Op)
  | unary (o : Op)
  | binary (o : Op)
  /-- What closes `o`, and the operators that stand for the brackets. -/
  | closing (o : Op) (after : List Op)

inductive Tree (Atom Op : Type*)
  | atom (a : Atom)
  | group (o : Op) (inside : Tree Atom Op) (after : List Op)
  | unary (o : Op) (operand : Tree Atom Op)
  | binary (left : Tree Atom Op) (o : Op) (right : Tree Atom Op)

structure Yard (Op Out : Type*) where
  output : List Out
  stack : List Op

variable {Atom Op Out : Type*}

namespace Token

def behindOperand : Token Atom Op → Bool
  | atom _ | opening _ | unary _ => false
  | binary _ | closing _ _ => true

def endsOperand : Token Atom Op → Bool
  | atom _ | closing _ _ => true
  | opening _ | unary _ | binary _ => false

end Token

def Alternate : Bool → List (Token Atom Op) → Bool → Prop
  | before, [], after => before = after
  | before, x :: xs, after => x.behindOperand = before ∧ Alternate x.endsOperand xs after

theorem Alternate.append {before middle after : Bool} {xs ys : List (Token Atom Op)} (first : Alternate before xs middle)
    (second : Alternate middle ys after) : Alternate before (xs ++ ys) after := by
  induction xs generalizing before with
  | nil =>
    obtain rfl : before = middle := first
    exact second
  | cons x xs ih => exact ⟨first.1, ih first.2⟩

namespace Tree

def tokens : Tree Atom Op → List (Token Atom Op)
  | atom a => [.atom a]
  | group o inside after => .opening o :: (inside.tokens ++ [.closing o after])
  | unary o operand => .unary o :: operand.tokens
  | binary left o right => left.tokens ++ .binary o :: right.tokens

def program (value : Atom → Out) (emit : Op → Out) : Tree Atom Op → List Out
  | atom a => [value a]
  | group _ inside after => inside.program value emit ++ after.map emit
  | unary o operand => operand.program value emit ++ [emit o]
  | binary left o right => left.program value emit ++ right.program value emit ++ [emit o]

theorem alternate_tokens (t : Tree Atom Op) : Alternate false t.tokens true := by
  induction t with
  | atom a => exact ⟨rfl, rfl⟩
  | group o inside after ih => exact ⟨rfl, ih.append ⟨rfl, rfl⟩⟩
  | unary o operand ih => exact ⟨rfl, ih⟩
  | binary left o right ihl ihr => exact ihl.append ⟨rfl, ihr⟩

end Tree

section
variable (priority : Op → Nat) (opens : Op → Prop)

/-- All operators outside of brackets bind at least as strongly as `p`. -/
def Tree.Above (p : Nat) : Tree Atom Op → Prop
  | .atom _ | .group _ _ _ => True
  | .unary o _ | .binary _ o _ => p ≤ priority o

/-- No brackets are missing: operators of one priority are to be applied from left to right, and there is none of the same
priority behind a unary one. -/
def Tree.Ordered : Tree Atom Op → Prop
  | .atom _ => True
  | .group o inside _ => opens o ∧ inside.Ordered
  | .unary o operand => ¬opens o ∧ operand.Above priority (priority o + 1) ∧ operand.Ordered
  | .binary left o right =>
    ¬opens o ∧ left.Above priority (priority o) ∧ right.Above priority (priority o + 1) ∧ left.Ordered ∧ right.Ordered

variable [DecidablePred opens]

/-- An operator on the stack that one of priority `p` makes leave. -/
def leaves (p : Nat) (o : Op) : Bool := !opens o && p ≤ priority o

end

section
variable (value : Atom → Out) (emit : Op → Out) (priority : Op → Nat) (opens : Op → Prop) [DecidablePred opens]
  [DecidableEq Op]

def push (o : Op) (y : Yard Op Out) : Yard Op Out where
  output := y.output ++ (y.stack.takeWhile (leaves priority opens (priority o))).map emit
  stack := o :: y.stack.dropWhile (leaves priority opens (priority o))

def feed (y : Yard Op Out) : Token Atom Op → Option (Yard Op Out)
  | .atom a => some { y with output := y.output ++ [value a] }
  | .opening o => some { y with stack := o :: y.stack }
  | .unary o | .binary o => some (push emit priority opens o y)
  | .closing o after =>
    match y.stack.dropWhile (· ≠ o) with
    | [] => none
    | _ :: stack => some ⟨y.output ++ (y.stack.takeWhile (· ≠ o)).map emit ++ after.map emit, stack⟩

def Waits (stack : List Op) (t : Tree Atom Op) : Prop := ∀ o ∈ stack.head?, opens o ∨ t.Above priority (priority o + 1)

/-- What a yard has come to behind the tokens of a tree: the operators that still wait are those of the tree, and with them
its postfix form is complete. -/
structure Shunts (y y' : Yard Op Out) (t : Tree Atom Op) (pending : List Op) : Prop where
  stack : y'.stack = pending ++ y.stack
  output : y'.output ++ pending.map emit = y.output ++ t.program value emit
  closed : ∀ o ∈ pending, ¬opens o
  above : ∀ p, t.Above priority p → ∀ o ∈ pending, p ≤ priority o

end

section
variable (value : Atom → Out) (emit : Op → Out) {priority : Op → Nat} {opens : Op → Prop} [DecidablePred opens]
  {y : Yard Op Out} {pending stack : List Op} {o : Op} {p q : Nat} {t : Tree Atom Op}

omit [DecidablePred opens] in
theorem Tree.Above.mono (above : t.Above priority q) (le : p ≤ q) : t.Above priority p := by
  cases t with
  | atom a => trivial
  | group o inside after => trivial
  | unary o operand => exact Nat.le_trans le above
  | binary left o right => exact Nat.le_trans le above

theorem leaves_iff : leaves priority opens p o = true ↔ ¬opens o ∧ p ≤ priority o := by
  simp [leaves]

theorem push_append (closed : ∀ x ∈ pending, ¬opens x) (above : ∀ x ∈ pending, priority o ≤ priority x)
    (stays : ∀ x ∈ stack.head?, opens x ∨ priority x < priority o) (output : List Out) :
    push emit priority opens o ⟨output, pending ++ stack⟩ = ⟨output ++ pending.map emit, o :: stack⟩ := by
  have all : ∀ x ∈ pending, leaves priority opens (priority o) x = true := fun x member =>
    leaves_iff.2 ⟨closed x member, above x member⟩
  have first : ∀ x ∈ stack.head?, leaves priority opens (priority o) x = false := by
    intro x top
    rw [← Bool.not_eq_true, leaves_iff]
    rintro ⟨shut, higher⟩
    rcases stays x top with opened | lower
    · exact shut opened
    · exact Nat.not_lt_of_le higher lower
  have taken : stack.takeWhile (leaves priority opens (priority o)) = [] ∧
      stack.dropWhile (leaves priority opens (priority o)) = stack := by
    cases stack with
    | nil => exact ⟨rfl, rfl⟩
    | cons x stack =>
      have stay := first x rfl
      exact ⟨List.takeWhile_cons_of_neg (by simp [stay]), List.dropWhile_cons_of_neg (by simp [stay])⟩
  simp only [push, List.takeWhile_append_of_pos all, List.dropWhile_append_of_pos all, taken, List.append_nil]

theorem push_stays (stays : ∀ x ∈ stack.head?, opens x ∨ priority x < priority o) (output : List Out) :
    push emit priority opens o ⟨output, stack⟩ = ⟨output, o :: stack⟩ := by
  have pushed : push emit priority opens o ⟨output, [] ++ stack⟩ = ⟨output ++ [].map emit, o :: stack⟩ :=
    push_append emit (List.forall_mem_nil _) (List.forall_mem_nil _) stays output
  rwa [List.map_nil, List.append_nil, List.nil_append] at pushed

variable [DecidableEq Op]

theorem feed_closing (different : ∀ x ∈ pending, x ≠ o) (output : List Out) (after : List Op) :
    feed value emit priority opens ⟨output, pending ++ o :: stack⟩ (.closing o after) =
      some ⟨output ++ pending.map emit ++ after.map emit, stack⟩ := by
  have all : ∀ x ∈ pending, decide (x ≠ o) = true := fun x member => decide_eq_true (different x member)
  simp only [feed, List.takeWhile_append_of_pos all, List.dropWhile_append_of_pos all]
  simp

theorem feed_tokens (ordered : t.Ordered priority opens) (waits : Waits priority opens y.stack t) :
    ∃ y' pending, t.tokens.foldlM (feed value emit priority opens) y = some y' ∧
      Shunts value emit priority opens y y' t pending := by
  induction t generalizing y with
  | atom a => exact ⟨_, [], rfl, rfl, List.append_nil _, nofun, nofun⟩
  | group o inside after ih =>
    obtain ⟨opened, ordered⟩ := ordered
    obtain ⟨y', pending, fed, shunts⟩ := ih (y := ⟨y.output, o :: y.stack⟩) ordered (by simp [Waits, opened])
    have different : ∀ x ∈ pending, x ≠ o := by
      rintro x member rfl
      exact shunts.closed x member opened
    obtain ⟨output, stack⟩ := y'
    obtain rfl : stack = pending ++ o :: y.stack := shunts.stack
    have closes : feed value emit priority opens ⟨output, pending ++ o :: y.stack⟩ (.closing o after) =
      some ⟨output ++ pending.map emit ++ after.map emit, y.stack⟩ := feed_closing value emit different output after
    refine ⟨⟨output ++ pending.map emit ++ after.map emit, y.stack⟩, [], ?_, rfl, ?_, nofun, nofun⟩
    · rw [Tree.tokens, List.foldlM_cons, feed, Option.bind_eq_bind, Option.bind_some, List.foldlM_append, fed,
        Option.bind_eq_bind, Option.bind_some, List.foldlM_cons, closes]
      rfl
    · rw [List.map_nil, List.append_nil, shunts.output, Tree.program, List.append_assoc]
  | unary o operand ih =>
    obtain ⟨shut, above, ordered⟩ := ordered
    obtain ⟨y', pending, fed, shunts⟩ := ih (y := ⟨y.output, o :: y.stack⟩) ordered (by simpa [Waits] using .inr above)
    refine ⟨y', pending ++ [o], ?_, ?_, ?_, ?_, ?_⟩
    · rw [Tree.tokens, List.foldlM_cons, feed, push_stays emit waits]
      exact fed
    · rw [shunts.stack, List.append_assoc]
      rfl
    · rw [List.map_append, ← List.append_assoc, shunts.output, Tree.program, List.append_assoc]
      rfl
    · simpa [or_imp, forall_and] using ⟨shunts.closed, shut⟩
    · intro p higher x member
      rcases List.mem_append.1 member with member | last
      · exact shunts.above p (above.mono (Nat.le_succ_of_le higher)) x member
      · rwa [List.mem_singleton.1 last]
  | binary left o right ihl ihr =>
    obtain ⟨shut, above, above', ordered, ordered'⟩ := ordered
    have waits' : Waits priority opens y.stack left := fun x top => (waits x top).imp_right above.mono
    obtain ⟨⟨output, stack⟩, pending, fed, shunts⟩ := ihl ordered waits'
    obtain rfl : stack = pending ++ y.stack := shunts.stack
    have pushed : push emit priority opens o ⟨output, pending ++ y.stack⟩ = ⟨output ++ pending.map emit, o :: y.stack⟩ :=
      push_append emit shunts.closed (shunts.above _ above) waits output
    obtain ⟨y', pending', fed', shunts'⟩ := ihr (y := ⟨output ++ pending.map emit, o :: y.stack⟩) ordered'
      (by simpa [Waits] using .inr above')
    refine ⟨y', pending' ++ [o], ?_, ?_, ?_, ?_, ?_⟩
    · rw [Tree.tokens, List.foldlM_append, fed, Option.bind_eq_bind, Option.bind_some, List.foldlM_cons, feed, pushed]
      exact fed'
    · rw [shunts'.stack, List.append_assoc]
      rfl
    · have complete : output ++ pending.map emit = y.output ++ left.program value emit := shunts.output
      rw [List.map_append, ← List.append_assoc, shunts'.output, complete, Tree.program]
      simp only [List.append_assoc, List.map_cons, List.map_nil]
    · simpa [or_imp, forall_and] using ⟨shunts'.closed, shut⟩
    · intro p higher x member
      rcases List.mem_append.1 member with member | last
      · exact shunts'.above p (above'.mono (Nat.le_succ_of_le higher)) x member
      · rwa [List.mem_singleton.1 last]

end

end Pcsx2.Foundation.ShuntingYard
