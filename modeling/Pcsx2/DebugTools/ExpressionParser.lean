import Pcsx2.Foundation.Loop

/-!
# Expressions of the debugger

A text is brought into postfix form and that is computed on a stack of values. Both are loops over what is left of their
input; an access outside of it, a value taken from an empty stack and a shift by 64 bits or more are faults.
-/

namespace Pcsx2.DebugTools
open Foundation

/-- The bytes of a string in front of its NUL. -/
abbrev Text := List Char

/-! ## Opcodes -/

inductive ExpressionOpcodeType
  | bracketL | bracketR | memL | memR | memSize | signPlus | signMinus
  | bitNot | logNot | mul | div | mod | add | sub
  | shl | shr | greaterEqual | greater | lowerEqual | lower
  | equal | notEqual | bitAnd | xor | bitOr | logAnd
  | logOr | tertIf | tertElse | number | mem | none
  deriving DecidableEq

structure ExpressionOpcode where
  Name : Text
  Priority : Nat
  len : Nat
  args : Nat
  sign : Bool

namespace ExpressionOpcodeType

/-- The table `ExpressionOpcodes`. -/
def opcode : ExpressionOpcodeType → ExpressionOpcode
  | bracketL => ⟨['('], 25, 1, 0, false⟩
  | bracketR => ⟨[')'], 25, 1, 0, false⟩
  | memL => ⟨['['], 4, 1, 0, false⟩
  | memR => ⟨[']'], 4, 1, 0, false⟩
  | memSize => ⟨[','], 5, 1, 2, false⟩
  | signPlus => ⟨['+'], 22, 1, 1, true⟩
  | signMinus => ⟨['-'], 22, 1, 1, true⟩
  | bitNot => ⟨['~'], 22, 1, 1, false⟩
  | logNot => ⟨['!'], 22, 1, 1, false⟩
  | mul => ⟨['*'], 21, 1, 2, false⟩
  | div => ⟨['/'], 21, 1, 2, false⟩
  | mod => ⟨['%'], 21, 1, 2, false⟩
  | add => ⟨['+'], 20, 1, 2, false⟩
  | sub => ⟨['-'], 20, 1, 2, false⟩
  | shl => ⟨['<', '<'], 19, 2, 2, false⟩
  | shr => ⟨['>', '>'], 19, 2, 2, false⟩
  | greaterEqual => ⟨['>', '='], 18, 2, 2, false⟩
  | greater => ⟨['>'], 18, 1, 2, false⟩
  | lowerEqual => ⟨['<', '='], 18, 2, 2, false⟩
  | lower => ⟨['<'], 18, 1, 2, false⟩
  | equal => ⟨['=', '='], 17, 2, 2, false⟩
  | notEqual => ⟨['!', '='], 17, 2, 2, false⟩
  | bitAnd => ⟨['&'], 16, 1, 2, false⟩
  | xor => ⟨['^'], 15, 1, 2, false⟩
  | bitOr => ⟨['|'], 14, 1, 2, false⟩
  | logAnd => ⟨['&', '&'], 13, 2, 2, false⟩
  | logOr => ⟨['|', '|'], 12, 2, 2, false⟩
  | tertIf => ⟨['?'], 10, 1, 0, false⟩
  | tertElse => ⟨[':'], 11, 1, 3, false⟩
  | number => ⟨[], 0, 0, 0, false⟩
  | mem => ⟨['[', ']'], 0, 0, 1, false⟩
  | none => ⟨[], 0, 0, 0, false⟩

/-- The opcodes in front of `EXOP_NUMBER`. -/
def operators : List ExpressionOpcodeType :=
  [bracketL, bracketR, memL, memR, memSize, signPlus, signMinus, bitNot, logNot, mul, div, mod, add, sub, shl, shr,
    greaterEqual, greater, lowerEqual, lower, equal, notEqual, bitAnd, xor, bitOr, logAnd, logOr, tertIf, tertElse]

def toUInt64 : ExpressionOpcodeType → UInt64
  | number => 29
  | mem => 30
  | none => 31
  | type => .ofNat (operators.idxOf type)

end ExpressionOpcodeType

inductive ExpressionPair
  | const (value : UInt64)
  | constFloat (value : UInt64)
  | ref (index : UInt64)
  | op (type : ExpressionOpcodeType)
  deriving DecidableEq

def ExpressionPair.second : ExpressionPair → UInt64
  | const value => value
  | constFloat value => value
  | ref index => index
  | op type => type.toUInt64

abbrev PostfixExpression := List ExpressionPair

inductive ExpressionType
  | uint | float
  deriving DecidableEq

structure IExpressionFunctions where
  parseReference : Text → Option UInt64
  parseSymbol : Text → Option UInt64
  getReferenceValue : UInt64 → UInt64
  getReferenceType : UInt64 → ExpressionType
  getMemoryValue : (address : UInt32) → (size : Int32) → Except String UInt64

/-- The computations with `float`, on values that are converted to it and back. -/
structure FloatArithmetic where
  /-- The bits of the number a text starts with. -/
  atof : Text → UInt64
  neg : UInt64 → UInt64
  mul : UInt64 → UInt64 → UInt64
  div : UInt64 → UInt64 → UInt64
  add : UInt64 → UInt64 → UInt64
  sub : UInt64 → UInt64 → UInt64
  greaterEqual : UInt64 → UInt64 → Bool
  greater : UInt64 → UInt64 → Bool
  lowerEqual : UInt64 → UInt64 → Bool
  lower : UInt64 → UInt64 → Bool
  equal : UInt64 → UInt64 → Bool
  notEqual : UInt64 → UInt64 → Bool

/-! ## Tokens -/

/-- One of the loops over digits: `shift` makes room for the next one. -/
def parseDigits (digit : Char → Option UInt64) (shift : UInt64 → UInt64) (str : Text) : Option UInt64 :=
  str.foldlM (fun val c => (digit c).map (shift val + ·)) 0

/-- The digits from `'0'` to `last`. -/
def digitUpTo (last c : Char) : Option UInt64 := if c < '0' ∨ last < c then none else some (.ofNat (c.toNat - '0'.toNat))

def hexDigit (c : Char) : Option UInt64 :=
  let c := c.toLower
  if (c < '0' ∨ '9' < c) ∧ (c < 'a' ∨ 'f' < c) then none
  else if 'a' ≤ c then some (.ofNat (c.toNat - 'a'.toNat + 10))
  else some (.ofNat (c.toNat - '0'.toNat))

def splitRadix (str : Text) (defaultrad : Nat) : Nat × Text :=
  if str[0]? = some '0' ∧ str[1]?.map Char.toLower = some 'x' then (16, str.drop 2)
  else if str[0]? = some '$' then (16, str.drop 1)
  else if str[0]? = some '0' ∧ str[1]?.map Char.toLower = some 'o' then (8, str.drop 2)
  else if str.getLast?.map Char.toLower = some 'b' ∧ defaultrad ≠ 16 then (2, str.dropLast)
  else if str.getLast?.map Char.toLower = some 'o' then (8, str.dropLast)
  else if str.getLast?.map Char.toLower = some 'h' then (16, str.dropLast)
  else (defaultrad, str)

def parseNumber (str : Text) (defaultrad : Nat) : Option UInt64 :=
  let (r, digits) := splitRadix str defaultrad
  match r with
  | 2 => parseDigits (digitUpTo '1') (· <<< 1) digits
  | 8 => parseDigits (digitUpTo '7') (· <<< 3) digits
  | 10 => parseDigits (digitUpTo '9') (· * 10) digits
  | 16 => parseDigits hexDigit (· <<< 4) digits
  | _ => none

/-- The loop of `parseFloat`: whether there was a decimal point, if nothing else than digits was there. -/
def findDecimal (foundDecimal : Bool) : Text → Option Bool
  | [] => some foundDecimal
  | c :: str =>
    if c = '.' then if foundDecimal then none else findDecimal true str
    else if c < '0' ∨ '9' < c then none
    else findDecimal foundDecimal str

def parseFloat (floats : FloatArithmetic) (str : Text) : Option UInt64 :=
  if findDecimal false str = some true then some (floats.atof str) else none

def compareOpcode (str : Text) (LastOpcode : ExpressionOpcodeType) (found : ExpressionOpcodeType × Nat)
    (i : ExpressionOpcodeType) : ExpressionOpcodeType × Nat :=
  if i.opcode.sign ∧ (LastOpcode = .number ∨ LastOpcode = .bracketR) then found
  else if found.2 < i.opcode.len ∧ str.take i.opcode.len = i.opcode.Name then (i, i.opcode.len)
  else found

def getExpressionOpcode (str : Text) (LastOpcode : ExpressionOpcodeType) : ExpressionOpcodeType × Nat :=
  ExpressionOpcodeType.operators.foldl (compareOpcode str LastOpcode) (.none, 0)

def isAlphaNum (c : Char) : Bool :=
  ('0' ≤ c ∧ c ≤ '9') ∨ ('A' ≤ c ∧ c ≤ 'Z') ∨ ('a' ≤ c ∧ c ≤ 'z') ∨ c = '@' ∨ c = '_' ∨ c = '$' ∨ c = '.'

def numberPair (floats : FloatArithmetic) (subStr : Text) : Except String ExpressionPair :=
  match parseFloat floats subStr with
  | some value => .ok (.constFloat value)
  | none => match parseNumber subStr 16 with
    | some value => .ok (.const value)
    | none => .error ("Invalid number \"" ++ String.ofList subStr ++ "\".")

def namePair (funcs : IExpressionFunctions) (subStr : Text) : Except String ExpressionPair :=
  match funcs.parseReference subStr with
  | some value => .ok (.ref value)
  | none => match funcs.parseSymbol subStr with
    | some value => .ok (.const value)
    | none => match parseNumber subStr 16 with
      | some value => .ok (.const value)
      | none => .error ("Invalid symbol \"" ++ String.ofList subStr ++ "\".")

/-! ## The postfix form -/

structure Conversion where
  lastOpcode : ExpressionOpcodeType := .none
  opcodeStack : List ExpressionOpcodeType := []
  dest : PostfixExpression := []

/-- The variables of the loop; `rest` is what is left of the text. -/
structure Scan extends Conversion where
  rest : Text

def closeParenthesis (dest : PostfixExpression) :
    List ExpressionOpcodeType → Except String (PostfixExpression × List ExpressionOpcodeType)
  | [] => .error "Closing parenthesis without opening one."
  | t :: opcodeStack => if t = .bracketL then .ok (dest, opcodeStack) else closeParenthesis (dest ++ [.op t]) opcodeStack

def closeBracket (dest : PostfixExpression) :
    List ExpressionOpcodeType → Except String (PostfixExpression × List ExpressionOpcodeType)
  | [] => .error "Closing bracket without opening one."
  | t :: opcodeStack =>
    if t = .memL then .ok (dest ++ [.op .mem], opcodeStack) else closeBracket (dest ++ [.op t]) opcodeStack

def popOperators (CurrentPriority : Nat) (dest : PostfixExpression) :
    List ExpressionOpcodeType → PostfixExpression × List ExpressionOpcodeType
  | [] => (dest, [])
  | t :: opcodeStack =>
    if t = .bracketL ∨ t = .memL then (dest, t :: opcodeStack)
    else if CurrentPriority ≤ t.opcode.Priority then popOperators CurrentPriority (dest ++ [.op t]) opcodeStack
    else (dest, t :: opcodeStack)

def popRest (dest : PostfixExpression) : List ExpressionOpcodeType → Except String PostfixExpression
  | [] => .ok dest
  | t :: opcodeStack =>
    if t = .bracketL then .error "Parenthesis not closed." else popRest (dest ++ [.op t]) opcodeStack

namespace Conversion
variable (s : Conversion)

def operand (pair : ExpressionPair) : Conversion := { s with dest := s.dest ++ [pair], lastOpcode := .number }

/-- The `switch` over the opcodes. -/
def operator (type : ExpressionOpcodeType) : Except String Conversion :=
  match type with
  | .bracketL | .memL => .ok { s with opcodeStack := type :: s.opcodeStack, lastOpcode := type }
  | .bracketR => (closeParenthesis s.dest s.opcodeStack).map fun (dest, opcodeStack) =>
      { s with dest, opcodeStack, lastOpcode := type }
  | .memR => (closeBracket s.dest s.opcodeStack).map fun (dest, opcodeStack) =>
      { s with dest, opcodeStack, lastOpcode := .number }
  | _ =>
      let (dest, opcodeStack) := popOperators type.opcode.Priority s.dest s.opcodeStack
      .ok { s with dest, opcodeStack := type :: opcodeStack, lastOpcode := type }

end Conversion

namespace Scan
variable (floats : FloatArithmetic) (funcs : IExpressionFunctions) (s : Scan)

def subStr : Text := (s.rest.takeWhile isAlphaNum).take 255

def advance (next : Except String Conversion) (len : Nat) : Turn Scan (Except String PostfixExpression) :=
  match next with
  | .error error => .done (.error error)
  | .ok next => .again { next with rest := s.rest.drop len }

def token (pair : Except String ExpressionPair) : Turn Scan (Except String PostfixExpression) :=
  if s.subStr.length = 255 then .done (.error "Token too long.")
  else s.advance (pair.map s.operand) s.subStr.length

def turn : Turn Scan (Except String PostfixExpression) :=
  match s.rest with
  | [] => .done (popRest s.dest s.opcodeStack)
  | c :: rest =>
    let first := c.toLower
    if first = ' ' ∨ first = '\t' then .again { s with rest }
    else if '0' ≤ first ∧ first ≤ '9' then s.token (numberPair floats s.subStr)
    else if ('a' ≤ first ∧ first ≤ 'z') ∨ first = '@' ∨ first = '_' then s.token (namePair funcs s.subStr)
    else
      let (type, len) := getExpressionOpcode s.rest s.lastOpcode
      if type = .none then .done (.error ("Invalid operator at \"" ++ String.ofList s.rest ++ "\"."))
      else s.advance (s.operator type) len

end Scan

/-- Each turn takes something of the text, so that there are enough of them. -/
def initPostfixExpression (floats : FloatArithmetic) (funcs : IExpressionFunctions) (text : Text) :
    Option (Except String PostfixExpression) :=
  Loop.run (Scan.turn floats funcs) (text.length + 1) { rest := text }

/-! ## The value -/

/-- The variables of the loop; `exp` is what is left of the program. -/
structure Machine where
  exp : PostfixExpression
  useFloat : Bool := false
  valueStack : List UInt64 := []
  deriving DecidableEq

abbrev Result := Except (Option String) UInt64

def popValues : Nat → List UInt64 → Option (List UInt64 × List UInt64)
  | 0, valueStack => some ([], valueStack)
  | _ + 1, [] => none
  | args + 1, value :: valueStack => (popValues args valueStack).map fun (arg, valueStack) => (value :: arg, valueStack)

namespace Machine
variable (floats : FloatArithmetic) (funcs : IExpressionFunctions) (m : Machine)

def push (value : UInt64) : Turn Machine Result := .again { m with valueStack := value :: m.valueStack }

def fail (error : String) : Turn Machine Result := .done (.error (some error))

def follow (type : ExpressionOpcodeType) (error : String) (next : Machine → Turn Machine Result) : Turn Machine Result :=
  match m.exp with
  | [] => .fault
  | pair :: exp => if pair.second ≠ type.toUInt64 then fail error else next { m with exp }

def memory (address size : UInt64) : Turn Machine Result :=
  match funcs.getMemoryValue address.toUInt32 size.toUInt32.toInt32 with
  | .error error => fail error
  | .ok val => m.push val

def compute (float uint : UInt64) : Turn Machine Result := m.push (if m.useFloat then float else uint)

/-- The `switch` over the opcodes, after the arguments have been taken. -/
def execute (opcode : ExpressionOpcodeType) (arg : Nat → UInt64) : Turn Machine Result :=
  match opcode with
  | .memSize => m.follow .mem "Invalid memsize operator." fun m => m.memory funcs (arg 1) (arg 0)
  | .mem => m.memory funcs (arg 0) 4
  | .signPlus => .again m
  | .signMinus => m.compute (floats.neg (arg 0)) (0 - arg 0)
  | .bitNot => m.push (~~~arg 0)
  | .logNot => m.push (decide (arg 0 = 0)).toUInt64
  | .mul => m.compute (floats.mul (arg 1) (arg 0)) (arg 1 * arg 0)
  | .div => if arg 0 = 0 then fail "Division by zero." else m.compute (floats.div (arg 1) (arg 0)) (arg 1 / arg 0)
  | .mod => if arg 0 = 0 then fail "Modulo by zero." else m.push (arg 1 % arg 0)
  | .add => m.compute (floats.add (arg 1) (arg 0)) (arg 1 + arg 0)
  | .sub => m.compute (floats.sub (arg 1) (arg 0)) (arg 1 - arg 0)
  | .shl => if arg 0 < 64 then m.push (arg 1 <<< arg 0) else .fault
  | .shr => if arg 0 < 64 then m.push (arg 1 >>> arg 0) else .fault
  | .greaterEqual => m.compute (floats.greaterEqual (arg 1) (arg 0)).toUInt64 (decide (arg 1 ≥ arg 0)).toUInt64
  | .greater => m.compute (floats.greater (arg 1) (arg 0)).toUInt64 (decide (arg 1 > arg 0)).toUInt64
  | .lowerEqual => m.compute (floats.lowerEqual (arg 1) (arg 0)).toUInt64 (decide (arg 1 ≤ arg 0)).toUInt64
  | .lower => m.compute (floats.lower (arg 1) (arg 0)).toUInt64 (decide (arg 1 < arg 0)).toUInt64
  | .equal => m.compute (floats.equal (arg 1) (arg 0)).toUInt64 (decide (arg 1 = arg 0)).toUInt64
  | .notEqual => m.compute (floats.notEqual (arg 1) (arg 0)).toUInt64 (decide (arg 1 ≠ arg 0)).toUInt64
  | .bitAnd => m.push (arg 1 &&& arg 0)
  | .xor => m.push (arg 1 ^^^ arg 0)
  | .bitOr => m.push (arg 1 ||| arg 0)
  | .logAnd => m.push (decide (arg 1 ≠ 0 ∧ arg 0 ≠ 0)).toUInt64
  | .logOr => m.push (decide (arg 1 ≠ 0 ∨ arg 0 ≠ 0)).toUInt64
  | .tertIf => .done (.error none)
  | .tertElse => m.follow .tertIf "Invalid tertiary operator." fun m => m.push (if arg 2 ≠ 0 then arg 1 else arg 0)
  | .bracketL | .bracketR | .memL | .memR | .number | .none => .again m

def turn : Turn Machine Result :=
  match m.exp with
  | [] => match m.valueStack with
    | [dest] => .done (.ok dest)
    | _ => fail "Invalid expression (Too many constants?)"
  | .const value :: exp => push { m with exp } value
  | .constFloat value :: exp => push { m with exp, useFloat := true } value
  | .ref index :: exp =>
    push { m with exp, useFloat := m.useFloat || funcs.getReferenceType index == .float } (funcs.getReferenceValue index)
  | .op opcode :: exp =>
    if m.valueStack.length < opcode.opcode.args then fail "Not enough arguments."
    else match popValues opcode.opcode.args m.valueStack with
      | none => .fault
      | some (arg, valueStack) => execute floats funcs { m with exp, valueStack } opcode fun l => arg.getD l 0

end Machine

def parsePostfixExpression (floats : FloatArithmetic) (funcs : IExpressionFunctions) (exp : PostfixExpression) : Option Result :=
  Loop.run (Machine.turn floats funcs) (exp.length + 1) { exp }

def parseExpression (floats : FloatArithmetic) (funcs : IExpressionFunctions) (text : Text) : Option Result :=
  match initPostfixExpression floats funcs text with
  | none => none
  | some (.error error) => some (.error (some error))
  | some (.ok exp) => parsePostfixExpression floats funcs exp

end Pcsx2.DebugTools
