import Pcsx2.DebugTools.Expressions

/-!
# The value that is computed

The program of an expression leaves its value on the stack, or comes to an error where a part has none.
-/

namespace Pcsx2.DebugTools
open Foundation Foundation.ShuntingYard

variable {floats : FloatArithmetic} {funcs : IExpressionFunctions} {e : Expression}

/-! ## Operands -/

theorem IsName.isOperand {name : Text} (isName : IsName name) (short : name.length < 255) : IsOperand name where
  first := by
    obtain ⟨c, rest, same, letter⟩ := isName.first
    exact ⟨c, rest, same, .inr letter⟩
  alphaNum := isName.alphaNum
  short := short

theorem operandPair_name {name : Text} (isName : IsName name) : operandPair floats funcs name = namePair funcs name := by
  obtain ⟨c, rest, rfl, letter⟩ := isName.first
  have no_digit : ¬('0' ≤ c.toLower ∧ c.toLower ≤ '9') := by
    rintro ⟨-, high⟩
    rcases letter with ⟨low, -⟩ | same | same
    · exact absurd (char_le.1 high) (Nat.not_le.2 (Nat.lt_of_lt_of_le (by decide) (char_le.1 low)))
    · exact absurd high (by rw [same]; decide)
    · exact absurd high (by rw [same]; decide)
  rw [operandPair, if_neg no_digit]

theorem proper_tokens (grammatical : e.Grammatical) (supported : e.Supported funcs) : ∀ x ∈ e.tokens, Lexeme.Proper x := by
  induction e with
  | literal l => exact List.forall_mem_singleton.2 (isOperand_literal grammatical supported)
  | symbol name => exact List.forall_mem_singleton.2 (IsName.isOperand grammatical supported.1)
  | parenthesized inside ih =>
    exact List.forall_mem_cons.2 ⟨.inl rfl, List.forall_mem_append.2
      ⟨ih grammatical supported, List.forall_mem_singleton.2 (.inl ⟨rfl, rfl⟩)⟩⟩
  | memory address ih =>
    exact List.forall_mem_cons.2 ⟨.inr rfl, List.forall_mem_append.2
      ⟨ih grammatical supported, List.forall_mem_singleton.2 (.inr ⟨rfl, rfl⟩)⟩⟩
  | memorySized address size iha ihs =>
    have comma : ExpressionOpcodeType.memSize ∈ binaryOpcodes := by decide
    exact List.forall_mem_cons.2 ⟨.inr rfl, List.forall_mem_append.2 ⟨List.forall_mem_append.2
      ⟨iha grammatical.1 supported.1, List.forall_mem_cons.2 ⟨comma, ihs grammatical.2 supported.2⟩⟩,
      List.forall_mem_singleton.2 (.inr ⟨rfl, rfl⟩)⟩⟩
  | unary o operand ih =>
    exact List.forall_mem_cons.2 ⟨(Expression.opcode_proper' o).1, ih grammatical.2 supported.2.2⟩
  | binary left o right ihl ihr =>
    obtain ⟨-, -, grammatical, grammatical'⟩ := grammatical
    obtain ⟨-, supported, supported'⟩ := supported
    exact List.forall_mem_append.2 ⟨ihl grammatical supported,
      List.forall_mem_cons.2 ⟨(Expression.opcode_proper o).1, ihr grammatical' supported'⟩⟩
  | conditional condition whenTrue whenFalse ihc iht ihf =>
    obtain ⟨-, grammatical, grammatical', grammatical''⟩ := grammatical
    obtain ⟨-, -, supported, supported', supported''⟩ := supported
    have operators : ExpressionOpcodeType.tertIf ∈ binaryOpcodes ∧ ExpressionOpcodeType.tertElse ∈ binaryOpcodes := by decide
    exact List.forall_mem_append.2 ⟨ihc grammatical supported, List.forall_mem_cons.2 ⟨operators.1,
      List.forall_mem_append.2 ⟨iht grammatical' supported', List.forall_mem_cons.2 ⟨operators.2,
        ihf grammatical'' supported''⟩⟩⟩⟩

theorem value_none {token : Text} {error : String} (grammatical : e.Grammatical) (member : .atom token ∈ e.tokens)
    (unknown : operandPair floats funcs token = .error error) : e.value funcs = none := by
  induction e with
  | literal l =>
    obtain rfl : token = l.text := by simpa [Expression.tokens] using member
    rw [operandPair_literal floats funcs grammatical] at unknown
    cases unknown
  | symbol name =>
    obtain rfl : token = name := by simpa [Expression.tokens] using member
    rw [operandPair_name grammatical, namePair] at unknown
    rw [Expression.value, symbolValue]
    cases reference : funcs.parseReference token with
    | some index => rw [reference] at unknown; cases unknown
    | none =>
      cases symbol : funcs.parseSymbol token with
      | some value => rw [reference, symbol] at unknown; cases unknown
      | none =>
        cases number : parseNumber token 16 with
        | some value => rw [reference, symbol, number] at unknown; cases unknown
        | none => rfl
  | parenthesized inside ih => exact ih grammatical (by simpa [Expression.tokens] using member)
  | memory address ih =>
    rw [Expression.value, ih grammatical (by simpa [Expression.tokens] using member), Option.bind_none]
  | memorySized address size iha ihs =>
    rw [Expression.value]
    rcases (by simpa [Expression.tokens] using member : .atom token ∈ address.tokens ∨ .atom token ∈ size.tokens) with here | here
    · rw [iha grammatical.1 here, Option.bind_none]
    · simp only [ihs grammatical.2 here, Option.bind_none, Option.bind_fun_none]
  | unary o operand ih =>
    rw [Expression.value, ih grammatical.2 (by simpa [Expression.tokens] using member), Option.bind_none]
  | binary left o right ihl ihr =>
    obtain ⟨-, -, grammatical, grammatical'⟩ := grammatical
    rw [Expression.value]
    rcases (by simpa [Expression.tokens] using member : .atom token ∈ left.tokens ∨ .atom token ∈ right.tokens) with here | here
    · rw [ihl grammatical here, Option.bind_none]
    · simp only [ihr grammatical' here, Option.bind_none, Option.bind_fun_none]
  | conditional condition whenTrue whenFalse ihc iht ihf =>
    obtain ⟨-, grammatical, grammatical', grammatical''⟩ := grammatical
    rw [Expression.value]
    rcases (by simpa [Expression.tokens] using member :
      .atom token ∈ condition.tokens ∨ .atom token ∈ whenTrue.tokens ∨ .atom token ∈ whenFalse.tokens) with here | here | here
    · rw [ihc grammatical here, Option.bind_none]
    · simp only [iht grammatical' here, Option.bind_none, Option.bind_fun_none]
    · simp only [ihf grammatical'' here, Option.bind_none, Option.bind_fun_none]

/-! ## Steps -/

def Comes (floats : FloatArithmetic) (funcs : IExpressionFunctions) (m : Machine) (rest : PostfixExpression)
    (valueStack : List UInt64) : Option UInt64 → Prop
  | some value => Run (Machine.Step floats funcs) m ⟨rest, false, value :: valueStack⟩
  | none => ∃ m' error, Run (Machine.Step floats funcs) m m' ∧ m'.turn floats funcs = .done (.error error)

variable {m m' : Machine} {rest rest' : PostfixExpression} {valueStack valueStack' : List UInt64} {v : Option UInt64}

theorem Comes.bind {f : UInt64 → Option UInt64} (first : Comes floats funcs m rest valueStack v)
    (next : ∀ value, v = some value → Comes floats funcs ⟨rest, false, value :: valueStack⟩ rest' valueStack' (f value)) :
    Comes floats funcs m rest' valueStack' (v.bind f) := by
  cases v with
  | none => exact first
  | some value =>
    rw [Option.bind_some]
    have next := next value rfl
    cases computed : f value with
    | some value' =>
      rw [computed] at next
      exact Relation.ReflTransGen.trans first next
    | none =>
      rw [computed] at next
      obtain ⟨m', error, run, stops⟩ := next
      exact ⟨m', error, Relation.ReflTransGen.trans first run, stops⟩

theorem Comes.step {computed value : UInt64} (same : computed = value)
    (turn : m.turn floats funcs = .again ⟨rest, false, computed :: valueStack⟩) :
    Comes floats funcs m rest valueStack (some value) := by
  subst same
  exact Relation.ReflTransGen.single turn

theorem Comes.error {error : Option String} (turn : m.turn floats funcs = .done (.error error)) :
    Comes floats funcs m rest valueStack none := ⟨m, error, .refl, turn⟩

theorem truth_eq (p : Prop) [Decidable p] : (decide p).toUInt64 = truth p := by
  rw [truth]
  by_cases holds : p <;> simp [holds] <;> rfl

theorem comes_unary (o : UnaryOperator) (some_sign : o ≠ .plus) (a : UInt64) :
    Comes floats funcs ⟨.op o.opcode :: rest, false, a :: valueStack⟩ rest valueStack (some (o.apply a)) := by
  cases o with
  | plus => exact absurd rfl some_sign
  | minus => exact .step (UInt64.zero_sub a) rfl
  | complement => exact .step rfl rfl
  | not => exact .step (truth_eq _) rfl

theorem shiftLeft_small {a b : UInt64} (fits : b < 64) : a <<< b = .ofNat (a.toNat * 2 ^ b.toNat) := by
  have small : b.toNat < 64 := UInt64.lt_iff_toNat_lt.1 fits
  rw [← UInt64.toNat_inj, UInt64.toNat_shiftLeft, Nat.mod_eq_of_lt small, Nat.shiftLeft_eq, UInt64.toNat_ofNat']

theorem shiftRight_small {a b : UInt64} (fits : b < 64) : a >>> b = .ofNat (a.toNat / 2 ^ b.toNat) := by
  have small : b.toNat < 64 := UInt64.lt_iff_toNat_lt.1 fits
  have less : a.toNat / 2 ^ b.toNat < 2 ^ 64 := Nat.lt_of_le_of_lt (Nat.div_le_self _ _) a.toNat_lt
  rw [← UInt64.toNat_inj, UInt64.toNat_shiftRight, Nat.mod_eq_of_lt small, Nat.shiftRight_eq_div_pow, UInt64.toNat_ofNat',
    Nat.mod_eq_of_lt less]

theorem comes_binary (o : BinaryOperator) (a b : UInt64) (fits : o = .shl ∨ o = .shr → b < 64) :
    Comes floats funcs ⟨.op o.opcode :: rest, false, b :: a :: valueStack⟩ rest valueStack (o.apply a b) := by
  cases o with
  | div =>
    by_cases zero : b = 0
    · rw [BinaryOperator.apply, if_pos zero]
      exact .error (if_pos zero)
    · rw [BinaryOperator.apply, if_neg zero]
      exact .step rfl (if_neg zero)
  | mod =>
    by_cases zero : b = 0
    · rw [BinaryOperator.apply, if_pos zero]
      exact .error (if_pos zero)
    · rw [BinaryOperator.apply, if_neg zero]
      exact .step rfl (if_neg zero)
  | shl =>
    have fits := fits (.inl rfl)
    exact .step (shiftLeft_small fits) (if_pos fits)
  | shr =>
    have fits := fits (.inr rfl)
    exact .step (shiftRight_small fits) (if_pos fits)
  | greaterEqual | greater | lowerEqual | lower | equal | notEqual | logAnd | logOr => exact .step (truth_eq _) rfl
  | mul | add | sub | bitAnd | xor | bitOr => exact .step rfl rfl

theorem comes_memory_turn {address size : UInt64}
    (turn : m.turn floats funcs = Machine.memory funcs ⟨rest, false, valueStack⟩ address size) :
    Comes floats funcs m rest valueStack (memoryValue funcs address size) := by
  rw [Machine.memory] at turn
  rw [memoryValue]
  cases read : funcs.getMemoryValue address.toUInt32 size.toUInt32.toInt32 with
  | error error =>
    rw [read] at turn
    exact .error turn
  | ok value =>
    rw [read] at turn
    exact .step rfl turn

theorem comes_memory (a : UInt64) :
    Comes floats funcs ⟨.op .mem :: rest, false, a :: valueStack⟩ rest valueStack (memoryValue funcs a 4) :=
  comes_memory_turn rfl

theorem comes_memorySized (a size : UInt64) : Comes floats funcs ⟨.op .memSize :: .op .mem :: rest, false, size :: a :: valueStack⟩
    rest valueStack (memoryValue funcs a size) :=
  comes_memory_turn rfl

theorem comes_conditional (c a b : UInt64) :
    Comes floats funcs ⟨.op .tertElse :: .op .tertIf :: rest, false, b :: a :: c :: valueStack⟩ rest valueStack
      (some (if c ≠ 0 then a else b)) := .step rfl rfl

/-! ## Expressions -/

theorem comes_program (grammatical : e.Grammatical) (supported : e.Supported funcs)
    (resolves : ∀ token, .atom token ∈ e.tokens → Resolves floats funcs token) :
    Comes floats funcs ⟨e.tree.program (pairOf floats funcs) .op ++ rest, false, valueStack⟩ rest valueStack (e.value funcs) := by
  induction e generalizing rest valueStack with
  | literal l =>
    have pair : pairOf floats funcs l.text = .const l.value := by rw [pairOf, operandPair_literal floats funcs grammatical]
    refine .step rfl ?_
    rw [Expression.tree, Tree.program, pair]
    rfl
  | symbol name =>
    obtain ⟨pair, same⟩ := resolves name (List.mem_singleton_self _)
    have found : pairOf floats funcs name = pair := by rw [pairOf, same]
    rw [operandPair_name grammatical, namePair] at same
    rw [Expression.tree, Tree.program, found, Expression.value, symbolValue]
    cases reference : funcs.parseReference name with
    | some index =>
      obtain rfl : .ref index = pair := by simpa [reference] using same
      have uint : (funcs.getReferenceType index == .float) = false := by simpa using supported.2 index reference
      refine .step rfl ?_
      show Machine.push _ _ = _
      rw [uint]
      rfl
    | none =>
      rw [reference] at same
      cases symbol : funcs.parseSymbol name with
      | some value =>
        obtain rfl : .const value = pair := by simpa [symbol] using same
        exact .step rfl rfl
      | none =>
        rw [symbol] at same
        cases number : parseNumber name 16 with
        | some value =>
          obtain rfl : .const value = pair := by simpa [number] using same
          exact .step rfl rfl
        | none =>
          rw [number] at same
          cases same
  | parenthesized inside ih =>
    rw [Expression.tree, Tree.program, List.map_nil, List.append_nil]
    exact ih grammatical supported fun token member => resolves token (by simpa [Expression.tokens] using member)
  | memory address ih =>
    rw [Expression.tree, Tree.program, List.append_assoc]
    exact (ih grammatical supported fun token member => resolves token (by simpa [Expression.tokens] using member)).bind
      fun a _ => comes_memory a
  | memorySized address size iha ihs =>
    rw [Expression.tree, Tree.program, Tree.program, List.append_assoc, List.append_assoc, List.append_assoc]
    refine (iha grammatical.1 supported.1 fun token member => resolves token (by simp [Expression.tokens, member])).bind
      fun a _ => ?_
    refine (ihs grammatical.2 supported.2 fun token member => resolves token (by simp [Expression.tokens, member])).bind
      fun b _ => ?_
    exact comes_memorySized a b
  | unary o operand ih =>
    obtain ⟨-, grammatical⟩ := grammatical
    obtain ⟨some_sign, -, supported⟩ := supported
    rw [Expression.tree, Tree.program, List.append_assoc]
    exact (ih grammatical supported fun token member => resolves token (by simp [Expression.tokens, member])).bind
      fun a _ => comes_unary o some_sign a
  | binary left o right ihl ihr =>
    obtain ⟨-, -, grammatical, grammatical'⟩ := grammatical
    obtain ⟨fits, supported, supported'⟩ := supported
    rw [Expression.tree, Tree.program, List.append_assoc, List.append_assoc]
    refine (ihl grammatical supported fun token member => resolves token (by simp [Expression.tokens, member])).bind
      fun a _ => ?_
    refine (ihr grammatical' supported' fun token member => resolves token (by simp [Expression.tokens, member])).bind
      fun b here => ?_
    exact comes_binary o a b fun shift => fits shift b here
  | conditional condition whenTrue whenFalse ihc iht ihf =>
    obtain ⟨-, grammatical, grammatical', grammatical''⟩ := grammatical
    obtain ⟨-, -, supported, supported', supported''⟩ := supported
    rw [Expression.tree, Tree.program, Tree.program]
    simp only [List.append_assoc]
    refine (ihc grammatical supported fun token member => resolves token (by simp [Expression.tokens, member])).bind
      fun c _ => ?_
    refine (iht grammatical' supported' fun token member => resolves token (by simp [Expression.tokens, member])).bind
      fun a _ => ?_
    refine (ihf grammatical'' supported'' fun token member => resolves token (by simp [Expression.tokens, member])).bind
      fun b _ => ?_
    exact comes_conditional c a b

/-! ## Texts -/

/-- The parser returns the value, or reports a failure if there is none. -/
def Reports (result : Option Result) : Option UInt64 → Prop
  | some value => result = some (.ok value)
  | none => ∃ error, result = some (.error error)

theorem reports_of_comes {exp : PostfixExpression} (comes : Comes floats funcs { exp } [] [] v) :
    Reports (parsePostfixExpression floats funcs exp) v := by
  have run {result : Result} (ends : Loop.Ends (Machine.turn floats funcs) { exp } result) :
      parsePostfixExpression floats funcs exp = some result :=
    ends.run_of_rank (fun m => m.exp.length) (fun _ _ step => Machine.turn_shorter step) (Nat.lt_succ_self _)
  cases v with
  | some value => exact run (.of_steps comes (.done rfl))
  | none =>
    obtain ⟨m', error, steps, stops⟩ := comes
    exact ⟨error, run (.of_steps steps (.done stops))⟩

def digit (c : Char) : Expression := .literal ⟨.none, [c]⟩

theorem digit_grammatical {c : Char} (decimal : '0' ≤ c ∧ c ≤ '9') : (digit c).Grammatical where
  mark := trivial
  some_digit := List.cons_ne_nil c []
  digits := List.forall_mem_singleton.2 (.inl decimal)
  first := by
    rintro d here
    obtain rfl := Option.some.inj here
    exact decimal

end Pcsx2.DebugTools
