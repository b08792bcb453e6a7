import Pcsx2.DebugTools.Lexing

/-!
# The conversion is a shunting yard

The stacks of the conversion are those of a yard whose priorities are those of the table, as long as every operand is a
number or a name that is known.
-/

namespace Pcsx2.DebugTools
open Foundation Foundation.ShuntingYard

def priority (o : ExpressionOpcodeType) : Nat := o.opcode.Priority

def opens (o : ExpressionOpcodeType) : Prop := o = .bracketL ∨ o = .memL

instance (o : ExpressionOpcodeType) : Decidable (opens o) := inferInstanceAs (Decidable (_ ∨ _))

def Conversion.yard (s : Conversion) : Yard ExpressionOpcodeType ExpressionPair := ⟨s.dest, s.opcodeStack⟩

def pairOf (floats : FloatArithmetic) (funcs : IExpressionFunctions) (token : Text) : ExpressionPair :=
  match operandPair floats funcs token with
  | .ok pair => pair
  | .error _ => .const 0

def Resolves (floats : FloatArithmetic) (funcs : IExpressionFunctions) (token : Text) : Prop :=
  ∃ pair, operandPair floats funcs token = .ok pair

variable {floats : FloatArithmetic} {funcs : IExpressionFunctions} {dest : PostfixExpression}
  {opcodeStack : List ExpressionOpcodeType}

theorem Resolves.operandPair {token : Text} (resolves : Resolves floats funcs token) :
    operandPair floats funcs token = .ok (pairOf floats funcs token) := by
  obtain ⟨pair, same⟩ := resolves
  rw [pairOf, same]

/-! ## The loops -/

theorem popOperators_eq (p : Nat) : popOperators p dest opcodeStack =
    (dest ++ (opcodeStack.takeWhile (leaves priority opens p)).map .op, opcodeStack.dropWhile (leaves priority opens p)) := by
  fun_induction popOperators p dest opcodeStack with
  | case1 dest => rw [List.takeWhile_nil, List.map_nil, List.append_nil, List.dropWhile_nil]
  | case2 dest t opcodeStack opened =>
    have stays : ¬leaves priority opens p t = true := fun left => (leaves_iff.1 left).1 opened
    rw [List.takeWhile_cons_of_neg stays, List.dropWhile_cons_of_neg stays, List.map_nil, List.append_nil]
  | case3 dest t opcodeStack shut higher ih =>
    have left : leaves priority opens p t = true := leaves_iff.2 ⟨shut, higher⟩
    rw [ih, List.takeWhile_cons_of_pos left, List.dropWhile_cons_of_pos left, List.map_cons, List.append_assoc,
      List.singleton_append]
  | case4 dest t opcodeStack shut lower =>
    have stays : ¬leaves priority opens p t = true := fun left => lower (leaves_iff.1 left).2
    rw [List.takeWhile_cons_of_neg stays, List.dropWhile_cons_of_neg stays, List.map_nil, List.append_nil]

theorem closeParenthesis_eq {stack : List ExpressionOpcodeType} (found : opcodeStack.dropWhile (· ≠ .bracketL) = .bracketL :: stack) :
    closeParenthesis dest opcodeStack = .ok (dest ++ (opcodeStack.takeWhile (· ≠ .bracketL)).map .op, stack) := by
  fun_induction closeParenthesis dest opcodeStack with
  | case1 dest => cases found
  | case2 dest opcodeStack =>
    simp at found
    simp [found]
  | case3 dest t opcodeStack other ih =>
    have dropped : (t :: opcodeStack).dropWhile (· ≠ .bracketL) = opcodeStack.dropWhile (· ≠ .bracketL) := by simp [other]
    have taken : (t :: opcodeStack).takeWhile (· ≠ .bracketL) = t :: opcodeStack.takeWhile (· ≠ .bracketL) := by simp [other]
    rw [ih (dropped ▸ found), taken, List.map_cons, List.append_assoc, List.singleton_append]

theorem closeBracket_eq {stack : List ExpressionOpcodeType} (found : opcodeStack.dropWhile (· ≠ .memL) = .memL :: stack) :
    closeBracket dest opcodeStack = .ok (dest ++ (opcodeStack.takeWhile (· ≠ .memL)).map .op ++ [.op .mem], stack) := by
  fun_induction closeBracket dest opcodeStack with
  | case1 dest => cases found
  | case2 dest opcodeStack =>
    simp at found
    simp [found]
  | case3 dest t opcodeStack other ih =>
    have dropped : (t :: opcodeStack).dropWhile (· ≠ .memL) = opcodeStack.dropWhile (· ≠ .memL) := by simp [other]
    have taken : (t :: opcodeStack).takeWhile (· ≠ .memL) = t :: opcodeStack.takeWhile (· ≠ .memL) := by simp [other]
    rw [ih (dropped ▸ found), taken, List.map_cons]
    simp only [List.append_assoc, List.cons_append, List.nil_append]

theorem popRest_eq (closed : ∀ o ∈ opcodeStack, ¬opens o) : popRest dest opcodeStack = .ok (dest ++ opcodeStack.map .op) := by
  induction opcodeStack generalizing dest with
  | nil => rw [popRest, List.map_nil, List.append_nil]
  | cons t opcodeStack ih =>
    obtain ⟨shut, closed⟩ := List.forall_mem_cons.1 closed
    rw [popRest, if_neg fun same => shut (.inl same), ih closed, List.map_cons, List.append_assoc, List.singleton_append]

/-! ## Tokens -/

theorem operator_push {s : Conversion} {o : ExpressionOpcodeType} (member : o ∈ unaryOpcodes ∨ o ∈ binaryOpcodes) :
    ∃ t, s.operator o = .ok t ∧ t.yard = push .op priority opens o s.yard := by
  have pushed : s.operator o = .ok ⟨o, o :: (popOperators o.opcode.Priority s.dest s.opcodeStack).2,
      (popOperators o.opcode.Priority s.dest s.opcodeStack).1⟩ := by
    revert member
    cases o with
    | bracketL | bracketR | memL | memR => exact fun member => absurd member (by decide)
    | _ => exact fun _ => rfl
  refine ⟨_, pushed, ?_⟩
  rw [popOperators_eq]
  rfl

theorem feed_yard {s : Conversion} {x : Lexeme} {y : Yard ExpressionOpcodeType ExpressionPair} (proper : x.Proper)
    (resolves : ∀ token, x = .atom token → Resolves floats funcs token)
    (fed : ShuntingYard.feed (pairOf floats funcs) .op priority opens s.yard x = some y) :
    ∃ t, s.feed floats funcs x = .ok t ∧ t.yard = y := by
  cases x with
  | atom token =>
    obtain rfl := Option.some.inj fed
    exact ⟨_, by rw [Conversion.feed, (resolves token rfl).operandPair]; rfl, rfl⟩
  | opening o =>
    obtain rfl := Option.some.inj fed
    rcases proper with rfl | rfl <;> exact ⟨_, rfl, rfl⟩
  | unary o =>
    obtain rfl := Option.some.inj fed
    exact operator_push (.inl proper)
  | binary o =>
    obtain rfl := Option.some.inj fed
    exact operator_push (.inr proper)
  | closing o after =>
    rw [ShuntingYard.feed] at fed
    split at fed
    · cases fed
    · rename_i p stack found
      obtain rfl := Option.some.inj fed
      have found : s.opcodeStack.dropWhile (· ≠ o) = p :: stack := found
      obtain rfl : p = o := by
        have first := List.head?_dropWhile_not (fun x => decide (x ≠ o)) s.opcodeStack
        rw [found] at first
        simpa using first
      rcases proper with ⟨rfl, rfl⟩ | ⟨rfl, rfl⟩
      · have closed : s.feed floats funcs (.closing .bracketL []) = (closeParenthesis s.dest s.opcodeStack).map _ := rfl
        refine ⟨_, by rw [closed, closeParenthesis_eq found]; rfl, ?_⟩
        simp [Conversion.yard]
      · have closed : s.feed floats funcs (.closing .memL [.mem]) = (closeBracket s.dest s.opcodeStack).map _ := rfl
        refine ⟨_, by rw [closed, closeBracket_eq found]; rfl, ?_⟩
        simp [Conversion.yard]

/-! ## Trees -/

theorem convert_tokens {t : Tree Text ExpressionOpcodeType} (ordered : t.Ordered priority opens) (proper : ∀ x ∈ t.tokens, Lexeme.Proper x)
    (resolves : ∀ token, .atom token ∈ t.tokens → Resolves floats funcs token) :
    convert floats funcs t.tokens {} = .ok (t.program (pairOf floats funcs) .op) := by
  have fold {xs : List Lexeme} {s : Conversion} {y : Yard ExpressionOpcodeType ExpressionPair} (proper : ∀ x ∈ xs, x.Proper)
      (resolves : ∀ token, .atom token ∈ xs → Resolves floats funcs token)
      (fed : xs.foldlM (ShuntingYard.feed (pairOf floats funcs) .op priority opens) s.yard = some y) :
      ∃ t, xs.foldlM (Conversion.feed floats funcs) s = .ok t ∧ t.yard = y := by
    induction xs generalizing s with
    | nil => exact ⟨s, rfl, Option.some.inj fed⟩
    | cons x xs ih =>
      obtain ⟨here, others⟩ := List.forall_mem_cons.1 proper
      rw [List.foldlM_cons] at fed
      obtain ⟨next, first, rest⟩ := Option.bind_eq_some_iff.1 fed
      obtain ⟨t, converted, rfl⟩ := feed_yard here (fun token same => resolves token (same ▸ List.mem_cons_self)) first
      rw [List.foldlM_cons, converted]
      exact ih others (fun token member => resolves token (List.mem_cons_of_mem _ member)) rest
  have waits : Waits priority opens (Conversion.yard {}).stack t := nofun
  obtain ⟨y, pending, fed, shunts⟩ := feed_tokens (pairOf floats funcs) .op ordered waits
  obtain ⟨s, converted, rfl⟩ := fold proper resolves fed
  have stack : s.opcodeStack = pending := shunts.stack.trans (List.append_nil pending)
  have output : s.dest ++ pending.map .op = t.program (pairOf floats funcs) .op := shunts.output
  rw [convert, converted]
  show popRest s.dest s.opcodeStack = _
  rw [stack, popRest_eq shunts.closed, output]

theorem convert_error {xs : List Lexeme} {token : Text} {error : String} (s : Conversion) (member : .atom token ∈ xs)
    (unknown : operandPair floats funcs token = .error error) : ∃ error, convert floats funcs xs s = .error error := by
  induction xs generalizing s with
  | nil => exact absurd member List.not_mem_nil
  | cons x xs ih =>
    rw [convert, List.foldlM_cons]
    cases fed : s.feed floats funcs x with
    | error error => exact ⟨error, rfl⟩
    | ok t =>
      rcases List.mem_cons.1 member with rfl | member
      · rw [Conversion.feed, unknown] at fed
        cases fed
      · exact ih t member

end Pcsx2.DebugTools
