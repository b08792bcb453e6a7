import Pcsx2.DebugTools.Literals

/-!
# The value of an expression

Expressions as the grammar of C gives them, with the parentheses that are written, have the values that C gives them in
unsigned arithmetic of 64 bits, but that all operands are computed. The parser finds these values unless operators meet whose
order it does not get right.
-/

namespace Pcsx2.DebugTools
open Foundation Foundation.ShuntingYard

inductive UnaryOperator
  | plus | minus | complement | not
  deriving DecidableEq

inductive BinaryOperator
  | mul | div | mod | add | sub | shl | shr | greaterEqual | greater | lowerEqual | lower | equal | notEqual
  | bitAnd | xor | bitOr | logAnd | logOr
  deriving DecidableEq

inductive Expression
  | literal (l : Literal)
  | symbol (name : Text)
  | parenthesized (inside : Expression)
  /-- `[address]` -/
  | memory (address : Expression)
  /-- `[address, size]` -/
  | memorySized (address size : Expression)
  | unary (o : UnaryOperator) (operand : Expression)
  | binary (left : Expression) (o : BinaryOperator) (right : Expression)
  | conditional (condition whenTrue whenFalse : Expression)

/-! ## Grammar -/

namespace BinaryOperator

def level : BinaryOperator → Nat
  | mul | div | mod => 10
  | add | sub => 9
  | shl | shr => 8
  | greaterEqual | greater | lowerEqual | lower => 7
  | equal | notEqual => 6
  | bitAnd => 5
  | xor => 4
  | bitOr => 3
  | logAnd => 2
  | logOr => 1

def opcode : BinaryOperator → ExpressionOpcodeType
  | mul => .mul
  | div => .div
  | mod => .mod
  | add => .add
  | sub => .sub
  | shl => .shl
  | shr => .shr
  | greaterEqual => .greaterEqual
  | greater => .greater
  | lowerEqual => .lowerEqual
  | lower => .lower
  | equal => .equal
  | notEqual => .notEqual
  | bitAnd => .bitAnd
  | xor => .xor
  | bitOr => .bitOr
  | logAnd => .logAnd
  | logOr => .logOr

end BinaryOperator

def UnaryOperator.opcode : UnaryOperator → ExpressionOpcodeType
  | plus => .signPlus
  | minus => .signMinus
  | complement => .bitNot
  | not => .logNot

structure IsName (name : Text) : Prop where
  first : ∃ c rest, name = c :: rest ∧ (('a' ≤ c.toLower ∧ c.toLower ≤ 'z') ∨ c.toLower = '@' ∨ c.toLower = '_')
  alphaNum : ∀ c ∈ name, isAlphaNum c

namespace Expression

def level : Expression → Nat
  | conditional _ _ _ => 0
  | binary _ o _ => o.level
  | unary _ _ => 11
  | _ => 12

/-- The grammar of C: an operand that binds less strongly is in parentheses, but for what stands in the middle of a
conditional expression and the one at its end, which may be conditional expressions. -/
def Grammatical : Expression → Prop
  | literal l => l.Valid
  | symbol name => IsName name
  | parenthesized inside => inside.Grammatical
  | memory address => address.Grammatical
  | memorySized address size => address.Grammatical ∧ size.Grammatical
  | unary _ operand => 11 ≤ operand.level ∧ operand.Grammatical
  | binary left o right => o.level ≤ left.level ∧ o.level < right.level ∧ left.Grammatical ∧ right.Grammatical
  | conditional condition whenTrue whenFalse =>
    0 < condition.level ∧ condition.Grammatical ∧ whenTrue.Grammatical ∧ whenFalse.Grammatical

/-- The expression as it is written. -/
def tokens : Expression → List Lexeme
  | literal l => [.atom l.text]
  | symbol name => [.atom name]
  | parenthesized inside => .opening .bracketL :: (inside.tokens ++ [.closing .bracketL []])
  | memory address => .opening .memL :: (address.tokens ++ [.closing .memL [.mem]])
  | memorySized address size =>
    .opening .memL :: (address.tokens ++ .binary .memSize :: size.tokens ++ [.closing .memL [.mem]])
  | unary o operand => .unary o.opcode :: operand.tokens
  | binary left o right => left.tokens ++ .binary o.opcode :: right.tokens
  | conditional condition whenTrue whenFalse =>
    condition.tokens ++ .binary .tertIf :: (whenTrue.tokens ++ .binary .tertElse :: whenFalse.tokens)

end Expression

/-! ## Values -/

def truth (p : Prop) [Decidable p] : UInt64 := if p then 1 else 0

def UnaryOperator.apply (a : UInt64) : UnaryOperator → UInt64
  | plus => a
  | minus => -a
  | complement => ~~~a
  | not => truth (a = 0)

def BinaryOperator.apply (a b : UInt64) : BinaryOperator → Option UInt64
  | mul => some (a * b)
  | div => if b = 0 then none else some (a / b)
  | mod => if b = 0 then none else some (a % b)
  | add => some (a + b)
  | sub => some (a - b)
  | shl => some (.ofNat (a.toNat * 2 ^ b.toNat))
  | shr => some (.ofNat (a.toNat / 2 ^ b.toNat))
  | greaterEqual => some (truth (b ≤ a))
  | greater => some (truth (b < a))
  | lowerEqual => some (truth (a ≤ b))
  | lower => some (truth (a < b))
  | equal => some (truth (a = b))
  | notEqual => some (truth (a ≠ b))
  | bitAnd => some (a &&& b)
  | xor => some (a ^^^ b)
  | bitOr => some (a ||| b)
  | logAnd => some (truth (a ≠ 0 ∧ b ≠ 0))
  | logOr => some (truth (a ≠ 0 ∨ b ≠ 0))

def symbolValue (funcs : IExpressionFunctions) (name : Text) : Option UInt64 :=
  match funcs.parseReference name with
  | some index => some (funcs.getReferenceValue index)
  | none => match funcs.parseSymbol name with
    | some value => some value
    | none => parseNumber name 16

def memoryValue (funcs : IExpressionFunctions) (address size : UInt64) : Option UInt64 :=
  (funcs.getMemoryValue address.toUInt32 size.toUInt32.toInt32).toOption

namespace Expression

/-- The value, if that of every part is there. -/
def value (funcs : IExpressionFunctions) : Expression → Option UInt64
  | literal l => some l.value
  | symbol name => symbolValue funcs name
  | parenthesized inside => inside.value funcs
  | memory address => (address.value funcs).bind fun address => memoryValue funcs address 4
  | memorySized address size =>
    (address.value funcs).bind fun address => (size.value funcs).bind fun size => memoryValue funcs address size
  | unary o operand => (operand.value funcs).bind fun a => some (o.apply a)
  | binary left o right => (left.value funcs).bind fun a => (right.value funcs).bind fun b => o.apply a b
  | conditional condition whenTrue whenFalse =>
    (condition.value funcs).bind fun c => (whenTrue.value funcs).bind fun a => (whenFalse.value funcs).bind fun b =>
      some (if c ≠ 0 then a else b)

/-- What the parser gets right: no unary `+`; no unary operator with another one as its operand; no conditional expression as
a branch of another one; no shift by 64 or more; no token of more than 254 characters; and no reference to a `float`. -/
def Supported (funcs : IExpressionFunctions) : Expression → Prop
  | literal l => l.text.length < 255
  | symbol name => name.length < 255 ∧ ∀ index, funcs.parseReference name = some index → funcs.getReferenceType index ≠ .float
  | parenthesized inside => inside.Supported funcs
  | memory address => address.Supported funcs
  | memorySized address size => address.Supported funcs ∧ size.Supported funcs
  | unary o operand => o ≠ .plus ∧ operand.level ≠ 11 ∧ operand.Supported funcs
  | binary left o right =>
    (o = .shl ∨ o = .shr → ∀ b, right.value funcs = some b → b < 64) ∧ left.Supported funcs ∧ right.Supported funcs
  | conditional condition whenTrue whenFalse =>
    whenTrue.level ≠ 0 ∧ whenFalse.level ≠ 0 ∧
      condition.Supported funcs ∧ whenTrue.Supported funcs ∧ whenFalse.Supported funcs

/-! ## Trees -/

def tree : Expression → Tree Text ExpressionOpcodeType
  | literal l => .atom l.text
  | symbol name => .atom name
  | parenthesized inside => .group .bracketL inside.tree []
  | memory address => .group .memL address.tree [.mem]
  | memorySized address size => .group .memL (.binary address.tree .memSize size.tree) [.mem]
  | unary o operand => .unary o.opcode operand.tree
  | binary left o right => .binary left.tree o.opcode right.tree
  | conditional condition whenTrue whenFalse =>
    .binary condition.tree .tertIf (.binary whenTrue.tree .tertElse whenFalse.tree)

variable {e : Expression} {funcs : IExpressionFunctions}

theorem tokens_tree (e : Expression) : e.tree.tokens = e.tokens := by
  induction e with
  | literal l => rfl
  | symbol name => rfl
  | parenthesized inside ih => rw [tree, Tree.tokens, ih, tokens]
  | memory address ih => rw [tree, Tree.tokens, ih, tokens]
  | memorySized address size iha ihs => rw [tree, Tree.tokens, Tree.tokens, iha, ihs, tokens]
  | unary o operand ih => rw [tree, Tree.tokens, ih, tokens]
  | binary left o right ihl ihr => rw [tree, Tree.tokens, ihl, ihr, tokens]
  | conditional condition whenTrue whenFalse ihc iht ihf => rw [tree, Tree.tokens, Tree.tokens, ihc, iht, ihf, tokens]

theorem priority_binary (o : BinaryOperator) : priority o.opcode = o.level + 11 := by cases o <;> rfl

theorem priority_unary (o : UnaryOperator) : priority o.opcode = 22 := by cases o <;> rfl

theorem above_tree {p : Nat} (some_level : e.level ≠ 0) (le : p ≤ e.level + 11) : e.tree.Above priority p := by
  cases e with
  | unary o operand => exact le_of_le_of_eq le (priority_unary o).symm
  | binary left o right => exact le_of_le_of_eq le (priority_binary o).symm
  | conditional => exact absurd rfl some_level
  | _ => trivial

theorem above_comma (e : Expression) : e.tree.Above priority 10 := by
  by_cases conditional : e.level = 0
  · cases e with
    | conditional => exact Nat.le_refl 10
    | binary left o right => cases o <;> cases conditional
    | _ => cases conditional
  · exact above_tree conditional (by omega)

theorem opcode_proper (o : BinaryOperator) : o.opcode ∈ binaryOpcodes ∧ ¬opens o.opcode := by cases o <;> decide

theorem opcode_proper' (o : UnaryOperator) : o.opcode ∈ unaryOpcodes ∧ ¬opens o.opcode := by cases o <;> decide

theorem ordered_tree (grammatical : e.Grammatical) (supported : e.Supported funcs) : e.tree.Ordered priority opens := by
  induction e with
  | literal l => trivial
  | symbol name => trivial
  | parenthesized inside ih => exact ⟨.inl rfl, ih grammatical supported⟩
  | memory address ih => exact ⟨.inr rfl, ih grammatical supported⟩
  | memorySized address size iha ihs =>
    refine ⟨.inr rfl, by decide, ?_, ?_, iha grammatical.1 supported.1, ihs grammatical.2 supported.2⟩
    · exact (above_comma address).mono (by decide)
    · exact (above_comma size).mono (by decide)
  | unary o operand ih =>
    obtain ⟨le, grammatical⟩ := grammatical
    obtain ⟨-, different, supported⟩ := supported
    refine ⟨(opcode_proper' o).2, ?_, ih grammatical supported⟩
    rw [priority_unary]
    exact above_tree (by omega) (by omega)
  | binary left o right ihl ihr =>
    obtain ⟨le, less, grammatical, grammatical'⟩ := grammatical
    obtain ⟨-, supported, supported'⟩ := supported
    have positive : 0 < o.level := by cases o <;> decide
    refine ⟨(opcode_proper o).2, ?_, ?_, ihl grammatical supported, ihr grammatical' supported'⟩
    · rw [priority_binary]
      exact above_tree (by omega) (by omega)
    · rw [priority_binary]
      exact above_tree (by omega) (by omega)
  | conditional condition whenTrue whenFalse ihc iht ihf =>
    obtain ⟨positive, grammatical, grammatical', grammatical''⟩ := grammatical
    obtain ⟨some_level, some_level', supported, supported', supported''⟩ := supported
    refine ⟨by decide, ?_, Nat.le_refl 11, ihc grammatical supported, by decide, ?_, ?_, iht grammatical' supported',
      ihf grammatical'' supported''⟩
    · exact above_comma condition
    · exact above_tree some_level (Nat.le_add_left 11 _)
    · refine above_tree some_level' ?_
      show 12 ≤ _
      omega

end Expression

end Pcsx2.DebugTools
