import Pcsx2.DebugTools.ExpressionParser
import Pcsx2.Foundation.Run

/-!
# Programs that compute one value

Both loops come to an end as each turn takes something of their input. The second one is safe as long as it does not come
to an instruction that the first one should not have left there.
-/

namespace Pcsx2.DebugTools
open Foundation

/-! ## Conversions end -/

theorem isAlphaNum_of_first {c : Char} (first : ('0' ≤ c.toLower ∧ c.toLower ≤ '9') ∨
    ('a' ≤ c.toLower ∧ c.toLower ≤ 'z') ∨ c.toLower = '@' ∨ c.toLower = '_') : isAlphaNum c := by
  rw [isAlphaNum, decide_eq_true_iff]
  by_cases upper : 'A' ≤ c ∧ c ≤ 'Z'
  · exact .inr (.inl upper)
  · have same : c.toLower = c := by
      delta Char.toLower
      exact dif_neg fun between => upper ⟨between.1, between.2⟩
    rw [same] at first
    tauto

theorem getExpressionOpcode_len (str : Text) (last : ExpressionOpcodeType) :
    (getExpressionOpcode str last).1 ≠ .none → 0 < (getExpressionOpcode str last).2 := by
  have kept (l : List ExpressionOpcodeType) (found : ExpressionOpcodeType × Nat) (positive : found.1 ≠ .none → 0 < found.2) :
      (l.foldl (compareOpcode str last) found).1 ≠ .none → 0 < (l.foldl (compareOpcode str last) found).2 := by
    induction l generalizing found with
    | nil => exact positive
    | cons i l ih =>
      refine ih _ ?_
      rw [compareOpcode]
      split_ifs with _ longer
      · exact positive
      · exact fun _ => Nat.lt_of_le_of_lt (Nat.zero_le _) longer.1
      · exact positive
  exact kept _ _ fun different => absurd rfl different

theorem length_subStr {s : Scan} {c : Char} {rest : Text} (front : s.rest = c :: rest) (alphaNum : isAlphaNum c) :
    0 < s.subStr.length := by
  rw [Scan.subStr, front, List.takeWhile_cons_of_pos alphaNum]
  exact Nat.succ_pos _

theorem length_drop_lt {l : List Char} {n : Nat} (positive : 0 < n) (some_char : l ≠ []) : (l.drop n).length < l.length := by
  have := List.length_pos_iff.2 some_char
  rw [List.length_drop]
  omega

variable {floats : FloatArithmetic} {funcs : IExpressionFunctions}

theorem advance_shorter {s t : Scan} {next : Except String Conversion} {len : Nat} (positive : 0 < len)
    (some_char : s.rest ≠ []) (advances : s.advance next len = .again t) : t.rest.length < s.rest.length := by
  cases next with
  | error error => cases advances
  | ok next =>
    cases advances
    exact length_drop_lt positive some_char

theorem turn_shorter {s t : Scan} (next : s.turn floats funcs = .again t) : t.rest.length < s.rest.length := by
  rw [Scan.turn] at next
  split at next
  · cases next
  · rename_i c rest front
    have some_char : s.rest ≠ [] := by
      rw [front]
      exact List.cons_ne_nil c rest
    have token {pair : Except String ExpressionPair} (alphaNum : isAlphaNum c) (next : s.token pair = .again t) :
        t.rest.length < s.rest.length := by
      rw [Scan.token] at next
      split_ifs at next
      exact advance_shorter (length_subStr front alphaNum) some_char next
    dsimp only at next
    split_ifs at next with blank digit letter nothing
    · cases next
      rw [front]
      exact Nat.lt_succ_self _
    · exact token (isAlphaNum_of_first (.inl digit)) next
    · exact token (isAlphaNum_of_first (.inr letter)) next
    · exact advance_shorter (getExpressionOpcode_len _ _ nothing) some_char next

theorem advance_ne_fault (s : Scan) (next : Except String Conversion) (len : Nat) : s.advance next len ≠ .fault := by
  cases next <;> nofun

theorem turn_ne_fault (s : Scan) : s.turn floats funcs ≠ .fault := by
  have token (pair : Except String ExpressionPair) : s.token pair ≠ .fault := by
    rw [Scan.token]
    split_ifs
    · nofun
    · exact advance_ne_fault _ _ _
  rw [Scan.turn]
  split
  · nofun
  · dsimp only
    split_ifs
    · nofun
    · exact token _
    · exact token _
    · nofun
    · exact advance_ne_fault _ _ _

theorem initPostfixExpression_ends (text : Text) : ∃ result, initPostfixExpression floats funcs text = some result :=
  Loop.exists_run (fun s : Scan => s.rest.length) (I := fun _ => True) (fun s _ => turn_ne_fault s)
    (fun _ _ _ next => ⟨trivial, turn_shorter next⟩) (Nat.lt_succ_self _) trivial

/-! ## Programs -/

def ExpressionOpcodeType.ending : ExpressionOpcodeType → Option PostfixExpression
  | .memSize => some [.op .memSize, .op .mem]
  | .tertElse => some [.op .tertElse, .op .tertIf]
  | .bracketL | .bracketR | .memL | .memR | .tertIf | .number | .none => .none
  | opcode => some [.op opcode]

def ExpressionPair.IsOp : ExpressionPair → Prop
  | op _ => True
  | _ => False

inductive Computes : PostfixExpression → Prop
  | operand {pair : ExpressionPair} (value : ¬pair.IsOp) : Computes [pair]
  | apply {opcode : ExpressionOpcodeType} {ending : PostfixExpression} {arguments : List PostfixExpression}
      (ends : opcode.ending = some ending) (count : arguments.length = opcode.opcode.args)
      (each : ∀ argument ∈ arguments, Computes argument) : Computes (arguments.flatten ++ ending)

inductive ComputesEach : PostfixExpression → Nat → Prop
  | nil : ComputesEach [] 0
  | push {before exp : PostfixExpression} {n : Nat} (each : ComputesEach before n) (last : Computes exp) :
      ComputesEach (before ++ exp) (n + 1)

theorem ComputesEach.one {exp : PostfixExpression} (each : ComputesEach exp 1) : Computes exp := by
  cases each with
  | push none last =>
    cases none
    exact last

theorem ComputesEach.pop {exp : PostfixExpression} {n args : Nat} (each : ComputesEach exp (n + args)) :
    ∃ (before : PostfixExpression) (arguments : List PostfixExpression), exp = before ++ arguments.flatten ∧ ComputesEach before n ∧
      arguments.length = args ∧ ∀ argument ∈ arguments, Computes argument := by
  induction args generalizing exp with
  | zero => exact ⟨exp, [], (List.append_nil exp).symm, each, rfl, fun _ member => absurd member List.not_mem_nil⟩
  | succ args ih =>
    cases each with
    | @push former last _ each computes =>
      obtain ⟨before, arguments, rfl, others, rfl, all⟩ := ih each
      refine ⟨before, arguments ++ [last], by simp, others, by simp, ?_⟩
      simpa [or_imp, forall_and] using ⟨all, computes⟩

theorem popValues_some {args : Nat} {valueStack : List UInt64} (enough : args ≤ valueStack.length) :
    popValues args valueStack = some (valueStack.take args, valueStack.drop args) := by
  induction args generalizing valueStack with
  | zero => rfl
  | succ args ih =>
    cases valueStack with
    | nil => cases enough
    | cons value valueStack =>
      rw [popValues, ih (Nat.le_of_succ_le_succ enough)]
      rfl

/-! ## Safe steps -/

/-- An opcode may be computed in front of a program, with an argument on top of the stack: one that reads the next pair has
it, and it is no constant that is taken for an opcode; a shift is by less than 64; and it is no bracket and no unary `+`,
which takes a value and computes none. -/
def ExpressionOpcodeType.Allowed (opcode : ExpressionOpcodeType) (exp : PostfixExpression) (top : UInt64) : Prop :=
  match opcode with
  | .memSize => ∃ pair rest, exp = pair :: rest ∧ (pair.second = mem.toUInt64 → pair = .op .mem)
  | .tertElse => ∃ pair rest, exp = pair :: rest ∧ (pair.second = tertIf.toUInt64 → pair = .op .tertIf)
  | .shl | .shr => top < 64
  | .signPlus | .bracketL | .bracketR | .memL | .memR | .number | .none => False
  | _ => True

namespace Machine

/-- The next step does not run into a gap of the checks. -/
def Regular (m : Machine) : Prop :=
  ∀ opcode exp, m.exp = .op opcode :: exp → opcode.opcode.args ≤ m.valueStack.length →
    opcode.Allowed exp (m.valueStack.headD 0)

/-- One step of the computation. -/
def Step (floats : FloatArithmetic) (funcs : IExpressionFunctions) (m m' : Machine) : Prop :=
  m.turn floats funcs = .again m'

variable {m m' : Machine} {opcode : ExpressionOpcodeType} {arg : Nat → UInt64}

theorem memory_again {address size : UInt64} (next : m.memory funcs address size = .again m') :
    m'.exp = m.exp ∧ ∃ value, m'.valueStack = value :: m.valueStack := by
  rw [memory] at next
  split at next
  · cases next
  · cases next
    exact ⟨rfl, _, rfl⟩

theorem memory_ne_fault (address size : UInt64) : m.memory funcs address size ≠ .fault := by
  rw [memory]
  split <;> nofun

theorem execute_again (allowed : opcode.Allowed m.exp (arg 0)) (next : m.execute floats funcs opcode arg = .again m') :
    ∃ ending, opcode.ending = some ending ∧ .op opcode :: m.exp = ending ++ m'.exp ∧
      ∃ value, m'.valueStack = value :: m.valueStack := by
  have computed {value : UInt64} {ending : PostfixExpression} (ends : opcode.ending = some ending) (alone : ending = [.op opcode])
      (next : m.push value = .again m') : ∃ ending, opcode.ending = some ending ∧ .op opcode :: m.exp = ending ++ m'.exp ∧
        ∃ value, m'.valueStack = value :: m.valueStack := by
    cases next
    exact ⟨ending, ends, by rw [alone]; rfl, _, rfl⟩
  cases opcode with
  | memSize =>
    obtain ⟨pair, rest, front, taken⟩ := allowed
    simp only [execute, follow, front] at next
    split_ifs at next with different
    · cases next
    · obtain ⟨rest, value, same⟩ := memory_again next
      obtain rfl := taken (not_not.1 different)
      exact ⟨_, rfl, by rw [front, rest]; rfl, value, same⟩
  | tertElse =>
    obtain ⟨pair, rest, front, taken⟩ := allowed
    simp only [execute, follow, front] at next
    split at next
    · cases next
    · rename_i same
      obtain rfl := taken (not_not.1 same)
      cases next
      exact ⟨_, rfl, by rw [front]; rfl, _, rfl⟩
  | mem =>
    obtain ⟨rest, value, same⟩ := memory_again next
    exact ⟨_, rfl, by rw [rest]; rfl, value, same⟩
  | div | mod | shl | shr =>
    simp only [execute] at next
    split_ifs at next
    all_goals first | exact computed rfl rfl next | cases next
  | signPlus | bracketL | bracketR | memL | memR | number | none => exact allowed.elim
  | tertIf => cases next
  | _ => exact computed rfl rfl next

theorem memory_ne_ok {address size : UInt64} (dest : UInt64) : m.memory funcs address size ≠ .done (.ok dest) := by
  rw [memory]
  split <;> nofun

theorem execute_ne_ok (dest : UInt64) : m.execute floats funcs opcode arg ≠ .done (.ok dest) := by
  cases opcode with
  | memSize =>
    simp only [execute, follow]
    split
    · nofun
    · split_ifs
      · nofun
      · exact memory_ne_ok dest
  | tertElse =>
    simp only [execute, follow]
    split
    · nofun
    · split_ifs <;> nofun
  | mem => exact memory_ne_ok dest
  | div | mod | shl | shr =>
    simp only [execute]
    split_ifs <;> nofun
  | _ => nofun

theorem execute_ne_fault (allowed : opcode.Allowed m.exp (arg 0)) : m.execute floats funcs opcode arg ≠ .fault := by
  cases opcode with
  | memSize =>
    obtain ⟨pair, rest, front, -⟩ := allowed
    simp only [execute, follow, front]
    split_ifs
    · nofun
    · exact memory_ne_fault _ _
  | tertElse =>
    obtain ⟨pair, rest, front, -⟩ := allowed
    simp only [execute, follow, front]
    split_ifs <;> nofun
  | mem => exact memory_ne_fault _ _
  | div | mod =>
    simp only [execute]
    split_ifs <;> nofun
  | shl | shr =>
    simp only [execute, if_pos (show arg 0 < 64 from allowed)]
    nofun
  | _ => nofun

/-! ## Runs -/

theorem allowed_arg {exp : PostfixExpression} {valueStack : List UInt64} (allowed : opcode.Allowed exp (valueStack.headD 0)) :
    opcode.Allowed exp ((valueStack.take opcode.opcode.args).getD 0 0) := by
  cases opcode with
  | shl | shr => cases valueStack <;> exact allowed
  | _ => exact allowed

theorem turn_ne_fault (regular : m.Regular) : m.turn floats funcs ≠ .fault := by
  rw [turn]
  split
  · split <;> nofun
  · nofun
  · nofun
  · nofun
  · rename_i opcode exp front
    split
    · nofun
    · rename_i enough
      rw [popValues_some (Nat.le_of_not_lt enough)]
      exact execute_ne_fault (allowed_arg (regular opcode exp front (Nat.le_of_not_lt enough)))

/-- What is done of a program computes the values on the stack, one by one. -/
def Covers (done : PostfixExpression) (m : Machine) : Prop := ComputesEach done m.valueStack.length

theorem step_covers {done : PostfixExpression} (regular : m.Regular) (covers : Covers done m) (step : Step floats funcs m m') :
    ∃ taken, m.exp = taken ++ m'.exp ∧ Covers (done ++ taken) m' := by
  rw [Step, turn] at step
  split at step
  · split at step <;> cases step
  · rename_i value exp front
    cases step
    exact ⟨[.const value], front, covers.push (.operand id)⟩
  · rename_i value exp front
    cases step
    exact ⟨[.constFloat value], front, covers.push (.operand id)⟩
  · rename_i index exp front
    cases step
    exact ⟨[.ref index], front, covers.push (.operand id)⟩
  · rename_i opcode exp front
    split at step
    · cases step
    · rename_i enough
      have enough := Nat.le_of_not_lt enough
      rw [popValues_some enough] at step
      obtain ⟨ending, ends, same, value, pushed⟩ := execute_again (allowed_arg (regular opcode exp front enough)) step
      have split_stack : m.valueStack.length = (m.valueStack.drop opcode.opcode.args).length + opcode.opcode.args := by
        rw [List.length_drop, Nat.sub_add_cancel enough]
      rw [Covers, split_stack] at covers
      obtain ⟨before, arguments, rfl, others, count, each⟩ := covers.pop
      refine ⟨ending, front.trans same, ?_⟩
      rw [Covers, pushed, List.length_cons, List.append_assoc]
      exact others.push (.apply ends count each)

variable {exp : PostfixExpression}

theorem run_covers (regular : ∀ m, Run (Step floats funcs) { exp } m → m.Regular) (run : Run (Step floats funcs) { exp } m) :
    ∃ done, exp = done ++ m.exp ∧ Covers done m := by
  induction run with
  | refl => exact ⟨[], rfl, .nil⟩
  | tail before step ih =>
    obtain ⟨done, rfl, covers⟩ := ih
    obtain ⟨taken, same, covers⟩ := step_covers (regular _ before) covers step
    exact ⟨done ++ taken, by rw [same, List.append_assoc], covers⟩

theorem turn_done_ok {dest : UInt64} (done : m.turn floats funcs = .done (.ok dest)) : m.exp = [] ∧ m.valueStack.length = 1 := by
  rw [turn] at done
  split at done
  · rename_i nothing
    split at done
    · rename_i single
      exact ⟨nothing, by rw [single]; rfl⟩
    · cases done
  · cases done
  · cases done
  · cases done
  · split at done
    · cases done
    · split at done
      · cases done
      · exact absurd done (execute_ne_ok _)

theorem turn_shorter (step : m.turn floats funcs = .again m') : m'.exp.length < m.exp.length := by
  have executed {m m' : Machine} {opcode : ExpressionOpcodeType} {arg : Nat → UInt64}
      (next : m.execute floats funcs opcode arg = .again m') : m'.exp.length ≤ m.exp.length := by
    cases opcode with
    | memSize =>
      simp only [execute, follow] at next
      split at next
      · cases next
      · rename_i pair exp front
        split at next
        · cases next
        · rw [(memory_again next).1, front]
          exact Nat.le_succ _
    | tertElse =>
      simp only [execute, follow] at next
      split at next
      · cases next
      · rename_i pair exp front
        split at next
        · cases next
        · cases next
          rw [front]
          exact Nat.le_succ _
    | mem => rw [(memory_again next).1]
    | div | mod | shl | shr =>
      simp only [execute] at next
      split_ifs at next
      all_goals cases next
      exact Nat.le_refl _
    | tertIf => cases next
    | _ =>
      cases next
      exact Nat.le_refl _
  rw [turn] at step
  split at step
  · split at step <;> cases step
  · rename_i front
    cases step
    rw [front]
    exact Nat.lt_succ_self _
  · rename_i front
    cases step
    rw [front]
    exact Nat.lt_succ_self _
  · rename_i front
    cases step
    rw [front]
    exact Nat.lt_succ_self _
  · rename_i front
    rw [front]
    split at step
    · cases step
    · split at step
      · cases step
      · exact Nat.lt_succ_of_le (executed step)

end Machine

/-- A text is converted or refused, and its program is computed to an end, which is an error where it is not well formed. -/
structure Safe (floats : FloatArithmetic) (funcs : IExpressionFunctions) (text : Text) : Prop where
  converted : ∃ result, initPostfixExpression floats funcs text = some result
  computed : ∀ exp, initPostfixExpression floats funcs text = some (.ok exp) →
    ∃ result, parsePostfixExpression floats funcs exp = some result ∧ (¬Computes exp → ∃ error, result = .error error)

def wholeNumbers : FloatArithmetic where
  atof _ := 0
  neg a := 0 - a
  mul a b := a * b
  div a b := a / b
  add a b := a + b
  sub a b := a - b
  greaterEqual a b := decide (a ≥ b)
  greater a b := decide (a > b)
  lowerEqual a b := decide (a ≤ b)
  lower a b := decide (a < b)
  equal a b := decide (a = b)
  notEqual a b := decide (a ≠ b)

def noSymbols : IExpressionFunctions where
  parseReference _ := none
  parseSymbol _ := none
  getReferenceValue _ := 0
  getReferenceType _ := .uint
  getMemoryValue _ _ := .ok 0

end Pcsx2.DebugTools
