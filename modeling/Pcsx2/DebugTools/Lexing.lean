import Pcsx2.DebugTools.Programs
import Pcsx2.Foundation.ShuntingYard

/-!
# Texts as tokens

A text that spells tokens, operands and what comes behind them taking turns, is converted token by token, whatever blanks
there are.
-/

namespace Pcsx2.DebugTools
open Foundation Foundation.ShuntingYard

abbrev Lexeme := Token Text ExpressionOpcodeType

def IsBlank (c : Char) : Prop := c = ' ' ∨ c = '\t'

def IsFirst (c : Char) : Prop :=
  ('0' ≤ c.toLower ∧ c.toLower ≤ '9') ∨ ('a' ≤ c.toLower ∧ c.toLower ≤ 'z') ∨ c.toLower = '@' ∨ c.toLower = '_'

structure IsOperand (token : Text) : Prop where
  first : ∃ c rest, token = c :: rest ∧ IsFirst c
  alphaNum : ∀ c ∈ token, isAlphaNum c
  short : token.length < 255

def unaryOpcodes : List ExpressionOpcodeType := [.signPlus, .signMinus, .bitNot, .logNot]

def binaryOpcodes : List ExpressionOpcodeType :=
  [.memSize, .mul, .div, .mod, .add, .sub, .shl, .shr, .greaterEqual, .greater, .lowerEqual, .lower, .equal, .notEqual,
    .bitAnd, .xor, .bitOr, .logAnd, .logOr, .tertIf, .tertElse]

def closer : ExpressionOpcodeType → ExpressionOpcodeType
  | .bracketL => .bracketR
  | _ => .memR

namespace Lexeme

def Proper : Lexeme → Prop
  | .atom token => IsOperand token
  | .opening o => o = .bracketL ∨ o = .memL
  | .unary o => o ∈ unaryOpcodes
  | .binary o => o ∈ binaryOpcodes
  | .closing o after => o = .bracketL ∧ after = [] ∨ o = .memL ∧ after = [.mem]

def opcode? : Lexeme → Option ExpressionOpcodeType
  | .atom _ => none
  | .opening o | .unary o | .binary o => some o
  | .closing o _ => some (closer o)

def spelling (x : Lexeme) : Text :=
  match x with
  | .atom token => token
  | .opening o | .unary o | .binary o => o.opcode.Name
  | .closing o _ => (closer o).opcode.Name

end Lexeme

inductive Spells : List Lexeme → Text → Prop
  | nil {blanks : Text} (blank : ∀ c ∈ blanks, IsBlank c) : Spells [] blanks
  | cons {x : Lexeme} {xs : List Lexeme} {blanks more : Text} (blank : ∀ c ∈ blanks, IsBlank c) (others : Spells xs more) :
      Spells (x :: xs) (blanks ++ (x.spelling ++ more))

theorem spells_flatMap (xs : List Lexeme) : Spells xs (xs.flatMap Lexeme.spelling) := by
  induction xs with
  | nil => exact .nil (List.forall_mem_nil _)
  | cons x xs ih => exact .cons (List.forall_mem_nil _) ih

def operandPair (floats : FloatArithmetic) (funcs : IExpressionFunctions) (token : Text) : Except String ExpressionPair :=
  match token with
  | [] => .error ""
  | c :: _ => if '0' ≤ c.toLower ∧ c.toLower ≤ '9' then numberPair floats token else namePair funcs token

variable (floats : FloatArithmetic) (funcs : IExpressionFunctions)

/-- The conversion of one token. -/
def Conversion.feed (s : Conversion) (x : Lexeme) : Except String Conversion :=
  match x with
  | .atom token => (operandPair floats funcs token).map s.operand
  | .opening o | .unary o | .binary o => s.operator o
  | .closing o _ => s.operator (closer o)

/-! ## Opcodes -/

def isOperandEnd (last : ExpressionOpcodeType) : Bool := last = .number ∨ last = .bracketR

def extensions : List Char := ['<', '>', '=', '&', '|']

variable {floats funcs}

theorem getExpressionOpcode_congr {str str' : Text} {last last' : ExpressionOpcodeType}
    (same : ∀ i ∈ ExpressionOpcodeType.operators, str.take i.opcode.len = i.opcode.Name ↔ str'.take i.opcode.len = i.opcode.Name)
    (ends : isOperandEnd last = isOperandEnd last') : getExpressionOpcode str last = getExpressionOpcode str' last' := by
  have alike : (last = .number ∨ last = .bracketR) ↔ (last' = .number ∨ last' = .bracketR) := by
    simpa only [isOperandEnd, decide_eq_decide] using ends
  refine List.foldl_ext _ _ _ fun found i member => ?_
  simp only [compareOpcode, alike, same i member]

theorem opcode_len : ∀ i ∈ ExpressionOpcodeType.operators, i.opcode.Name.length = i.opcode.len ∧ 0 < i.opcode.len := by
  decide

theorem extension_mem : ∀ o ∈ ExpressionOpcodeType.operators, ∀ i ∈ ExpressionOpcodeType.operators,
    o.opcode.Name <+: i.opcode.Name → o.opcode.len < i.opcode.len → ∃ c ∈ extensions, i.opcode.Name = o.opcode.Name ++ [c] := by
  have all : ∀ o ∈ ExpressionOpcodeType.operators, ∀ i ∈ ExpressionOpcodeType.operators, o.opcode.Name <+: i.opcode.Name →
      o.opcode.len < i.opcode.len → extensions.any fun c => i.opcode.Name = o.opcode.Name ++ [c] := by decide
  simpa only [List.any_eq_true, decide_eq_true_eq] using all

theorem closer_longest : ∀ o ∈ [ExpressionOpcodeType.bracketR, .memR], ∀ i ∈ ExpressionOpcodeType.operators,
    o.opcode.Name <+: i.opcode.Name → i.opcode.len ≤ o.opcode.len := by decide

set_option maxRecDepth 1024 in
theorem opcode_self : ∀ o ∈ ExpressionOpcodeType.operators, o ∈ unaryOpcodes ∨ o = .bracketL ∨ o = .memL →
    getExpressionOpcode o.opcode.Name .none = (o, o.opcode.len) := by decide

set_option maxRecDepth 1024 in
theorem opcode_self' : ∀ o ∈ ExpressionOpcodeType.operators, o ∈ binaryOpcodes ∨ o = .bracketR ∨ o = .memR →
    getExpressionOpcode o.opcode.Name .number = (o, o.opcode.len) := by decide

def Unextended (o : ExpressionOpcodeType) (more : Text) : Prop :=
  ∀ i ∈ ExpressionOpcodeType.operators, o.opcode.Name <+: i.opcode.Name → o.opcode.len < i.opcode.len →
    ∀ c ∈ more.head?, c ∉ extensions

variable {more : Text}

theorem take_append_iff {o i : ExpressionOpcodeType} (operator : o ∈ ExpressionOpcodeType.operators)
    (member : i ∈ ExpressionOpcodeType.operators) (unextended : Unextended o more) :
    (o.opcode.Name ++ more).take i.opcode.len = i.opcode.Name ↔ o.opcode.Name.take i.opcode.len = i.opcode.Name := by
  have length := (opcode_len i member).1
  have length' := (opcode_len o operator).1
  by_cases longer : o.opcode.len < i.opcode.len
  · have short : o.opcode.Name.take i.opcode.len ≠ i.opcode.Name := by
      intro same
      have := congrArg List.length same
      rw [List.length_take] at this
      omega
    refine iff_of_false (fun same => ?_) short
    have begins : o.opcode.Name <+: i.opcode.Name := by
      rw [← same, List.take_append, List.take_of_length_le (by omega)]
      exact List.prefix_append _ _
    obtain ⟨c, extension, name⟩ := extension_mem o operator i member begins longer
    refine unextended i member begins longer c ?_ extension
    rw [name, List.take_append, List.take_of_length_le (by omega), List.append_cancel_left_eq] at same
    cases more with
    | nil => simp at same
    | cons d more =>
      have := congrArg List.head? same
      rw [List.head?_take, if_neg (by omega)] at this
      exact this
  · rw [List.take_append_of_le_length (by omega)]

theorem getExpressionOpcode_append {o last : ExpressionOpcodeType} (operator : o ∈ ExpressionOpcodeType.operators)
    (unextended : Unextended o more)
    (place : if isOperandEnd last then o ∈ binaryOpcodes ∨ o = .bracketR ∨ o = .memR
      else o ∈ unaryOpcodes ∨ o = .bracketL ∨ o = .memL) :
    getExpressionOpcode (o.opcode.Name ++ more) last = (o, o.opcode.len) := by
  have all i member := take_append_iff operator (i := i) member unextended
  cases ends : isOperandEnd last with
  | true =>
    have same : getExpressionOpcode _ last = getExpressionOpcode o.opcode.Name .number := getExpressionOpcode_congr all ends
    rw [same]
    exact opcode_self' o operator (by simpa [ends] using place)
  | false =>
    have same : getExpressionOpcode _ last = getExpressionOpcode o.opcode.Name .none := getExpressionOpcode_congr all ends
    rw [same]
    exact opcode_self o operator (by simpa [ends] using place)

/-! ## First characters -/

variable {c : Char}

theorem not_extension_of_first (first : IsFirst c) : c ∉ extensions := by
  intro member
  simp only [extensions, List.mem_cons, List.not_mem_nil, or_false] at member
  obtain rfl | rfl | rfl | rfl | rfl := member <;> revert first <;> simp only [IsFirst] <;> decide

theorem not_extension_opening : ∀ o ∈ ExpressionOpcodeType.operators, o ∈ unaryOpcodes ∨ o = .bracketL ∨ o = .memL →
    ∀ c ∈ o.opcode.Name.head?, c ∉ extensions := by
  have all : ∀ o ∈ ExpressionOpcodeType.operators, o ∈ unaryOpcodes ∨ o = .bracketL ∨ o = .memL →
      o.opcode.Name.head?.all fun c => c ∉ extensions := by decide
  simpa only [Option.all_eq_true, Option.mem_def, decide_eq_true_eq] using all

theorem not_alphaNum : ∀ o ∈ ExpressionOpcodeType.operators, ∀ c ∈ o.opcode.Name.head?, isAlphaNum c = false := by
  have all : ∀ o ∈ ExpressionOpcodeType.operators, o.opcode.Name.head?.all fun c => !isAlphaNum c := by decide
  simpa only [Option.all_eq_true, Option.mem_def, Bool.not_eq_true'] using all

theorem opcode_first : ∀ o ∈ ExpressionOpcodeType.operators, ∀ c ∈ o.opcode.Name.head?,
    ¬(c.toLower = ' ' ∨ c.toLower = '\t') ∧ ¬('0' ≤ c.toLower ∧ c.toLower ≤ '9') ∧
      ¬(('a' ≤ c.toLower ∧ c.toLower ≤ 'z') ∨ c.toLower = '@' ∨ c.toLower = '_') := by
  have all : ∀ o ∈ ExpressionOpcodeType.operators, o.opcode.Name.head?.all fun c =>
      ¬(c.toLower = ' ' ∨ c.toLower = '\t') ∧ ¬('0' ≤ c.toLower ∧ c.toLower ≤ '9') ∧
        ¬(('a' ≤ c.toLower ∧ c.toLower ≤ 'z') ∨ c.toLower = '@' ∨ c.toLower = '_') := by decide
  simpa only [Option.all_eq_true, Option.mem_def, decide_eq_true_eq] using all

theorem IsBlank.toLower (blank : IsBlank c) : c.toLower = ' ' ∨ c.toLower = '\t' := by
  rcases blank with rfl | rfl <;> decide

theorem IsBlank.not_alphaNum (blank : IsBlank c) : isAlphaNum c = false := by
  rcases blank with rfl | rfl <;> decide

theorem IsBlank.not_extension (blank : IsBlank c) : c ∉ extensions := by
  rcases blank with rfl | rfl <;> decide

/-! ## One token -/

theorem unary_operator : ∀ o ∈ unaryOpcodes, o ∈ ExpressionOpcodeType.operators := by decide

theorem binary_operator : ∀ o ∈ binaryOpcodes, o ∈ ExpressionOpcodeType.operators := by decide

variable {o : ExpressionOpcodeType}

theorem opcode_ne_nil (operator : o ∈ ExpressionOpcodeType.operators) : o.opcode.Name ≠ [] := by
  have := opcode_len o operator
  rw [← List.length_pos_iff]
  omega

def Stops (x : Lexeme) (more : Text) : Prop :=
  match x with
  | .atom _ => ∀ c ∈ more.head?, isAlphaNum c = false
  | .opening _ | .unary _ | .binary _ => ∀ c ∈ more.head?, c ∉ extensions
  | .closing _ _ => True

variable {x : Lexeme}

theorem Lexeme.Proper.operator (proper : x.Proper) (opcode : x.opcode? = some o) :
    o ∈ ExpressionOpcodeType.operators ∧ x.spelling = o.opcode.Name ∧
      if x.behindOperand then o ∈ binaryOpcodes ∨ o = .bracketR ∨ o = .memR else o ∈ unaryOpcodes ∨ o = .bracketL ∨ o = .memL := by
  cases x with
  | atom token => cases opcode
  | opening p =>
    obtain rfl := Option.some.inj opcode
    rcases proper with rfl | rfl
    · exact ⟨by decide, rfl, .inr (.inl rfl)⟩
    · exact ⟨by decide, rfl, .inr (.inr rfl)⟩
  | unary p =>
    obtain rfl := Option.some.inj opcode
    exact ⟨unary_operator _ proper, rfl, .inl proper⟩
  | binary p =>
    obtain rfl := Option.some.inj opcode
    exact ⟨binary_operator _ proper, rfl, .inl proper⟩
  | closing p after =>
    obtain rfl := Option.some.inj opcode
    rcases proper with ⟨rfl, -⟩ | ⟨rfl, -⟩
    · exact ⟨by decide, rfl, .inr (.inl rfl)⟩
    · exact ⟨by decide, rfl, .inr (.inr rfl)⟩

theorem Stops.unextended (stops : Stops x more) (proper : x.Proper)
    (opcode : x.opcode? = some o) : Unextended o more := by
  cases x with
  | atom token => cases opcode
  | opening p => exact fun _ _ _ _ => stops
  | unary p => exact fun _ _ _ _ => stops
  | binary p => exact fun _ _ _ _ => stops
  | closing p after =>
    obtain rfl := Option.some.inj opcode
    have closes : closer p ∈ [ExpressionOpcodeType.bracketR, .memR] := by rcases proper with ⟨rfl, -⟩ | ⟨rfl, -⟩ <;> decide
    exact fun i member begins longer => absurd longer (Nat.not_lt.2 (closer_longest _ closes i member begins))

variable {s : Scan}

theorem turn_blank {rest : Text} (front : s.rest = c :: rest) (blank : IsBlank c) :
    s.turn floats funcs = .again { s with rest } := by
  simp only [Scan.turn, front, if_pos blank.toLower]

theorem subStr_eq {token more : Text} (operand : IsOperand token) (front : s.rest = token ++ more)
    (stops : ∀ c ∈ more.head?, isAlphaNum c = false) : s.subStr = token := by
  have nothing : more.takeWhile isAlphaNum = [] := by
    cases more with
    | nil => rfl
    | cons c more => exact List.takeWhile_cons_of_neg (by simp [stops c rfl])
  rw [Scan.subStr, front, List.takeWhile_append_of_pos operand.alphaNum, nothing, List.append_nil,
    List.take_of_length_le (Nat.le_of_lt operand.short)]

theorem turn_operand {token more : Text} (operand : IsOperand token) (front : s.rest = token ++ more)
    (stops : ∀ c ∈ more.head?, isAlphaNum c = false) :
    s.turn floats funcs = s.advance ((operandPair floats funcs token).map s.operand) token.length := by
  have whole := subStr_eq operand front stops
  obtain ⟨c, rest, rfl, first⟩ := operand.first
  have no_blank : ¬(c.toLower = ' ' ∨ c.toLower = '\t') := by
    rintro (blank | blank) <;> rw [IsFirst, blank] at first <;> revert first <;> decide
  have short := Nat.ne_of_lt operand.short
  rw [List.cons_append] at front
  simp only [Scan.turn, front, if_neg no_blank, operandPair]
  by_cases digit : '0' ≤ c.toLower ∧ c.toLower ≤ '9'
  · rw [if_pos digit, if_pos digit, Scan.token, whole, if_neg short]
  · rw [if_neg digit, if_neg digit, if_pos (first.resolve_left digit), Scan.token, whole, if_neg short]

theorem turn_opcode (operator : o ∈ ExpressionOpcodeType.operators)
    (front : s.rest = o.opcode.Name ++ more) (found : getExpressionOpcode s.rest s.lastOpcode = (o, o.opcode.len)) :
    s.turn floats funcs = s.advance (s.operator o) o.opcode.Name.length := by
  obtain ⟨c, name, spelled⟩ := List.exists_cons_of_ne_nil (opcode_ne_nil operator)
  obtain ⟨no_blank, no_digit, no_letter⟩ := opcode_first o operator c (by rw [spelled]; rfl)
  have some_opcode : o ≠ .none := by
    rintro rfl
    exact absurd operator (by decide)
  have front' : s.rest = c :: (name ++ more) := by rw [front, spelled, List.cons_append]
  rw [Scan.turn]
  split
  · rename_i nothing
    rw [nothing] at front'
    cases front'
  · rename_i c' rest' front''
    obtain ⟨rfl, -⟩ := List.cons.inj (front''.symm.trans front')
    simp only [if_neg no_blank, if_neg no_digit, if_neg no_letter, found, if_neg some_opcode, (opcode_len o operator).1]

theorem turn_lexeme (proper : x.Proper) (front : s.rest = x.spelling ++ more)
    (place : x.behindOperand = isOperandEnd s.lastOpcode) (stops : Stops x more) :
    s.turn floats funcs = s.advance (s.toConversion.feed floats funcs x) x.spelling.length := by
  cases opcode : x.opcode? with
  | none =>
    cases x with
    | atom token => exact turn_operand proper front stops
    | _ => cases opcode
  | some o =>
    obtain ⟨operator, spelled, belongs⟩ := Lexeme.Proper.operator proper opcode
    have same : s.toConversion.feed floats funcs x = s.operator o := by
      cases x with
      | atom token => cases opcode
      | _ => obtain rfl := Option.some.inj opcode; rfl
    rw [spelled] at front
    rw [place] at belongs
    rw [same, spelled]
    exact turn_opcode operator front (by
      rw [front]
      exact getExpressionOpcode_append operator (stops.unextended proper opcode) belongs)

/-! ## Texts -/

theorem operator_lastOpcode {s t : Conversion} (converted : s.operator o = .ok t) :
    t.lastOpcode = if o = .memR then .number else o := by
  unfold Conversion.operator at converted
  split at converted
  · cases converted
    rfl
  · cases converted
    rfl
  · cases closed : closeParenthesis s.dest s.opcodeStack with
    | error error => rw [closed] at converted; cases converted
    | ok popped => rw [closed] at converted; cases converted; rfl
  · cases closed : closeBracket s.dest s.opcodeStack with
    | error error => rw [closed] at converted; cases converted
    | ok popped => rw [closed] at converted; cases converted; rfl
  · rename_i other
    cases converted
    rw [if_neg other]

theorem feed_isOperandEnd {s t : Conversion} (proper : x.Proper) (fed : s.feed floats funcs x = .ok t) :
    isOperandEnd t.lastOpcode = x.endsOperand := by
  cases x with
  | atom token =>
    rw [Conversion.feed] at fed
    cases pair : operandPair floats funcs token with
    | error error => rw [pair] at fed; cases fed
    | ok pair' => rw [pair] at fed; cases fed; rfl
  | opening o =>
    rw [operator_lastOpcode fed]
    rcases proper with rfl | rfl <;> rfl
  | unary o =>
    rw [operator_lastOpcode fed]
    revert proper
    exact (by decide : ∀ o ∈ unaryOpcodes, isOperandEnd (if o = .memR then .number else o) = false) o
  | binary o =>
    rw [operator_lastOpcode fed]
    revert proper
    exact (by decide : ∀ o ∈ binaryOpcodes, isOperandEnd (if o = .memR then .number else o) = false) o
  | closing o after =>
    rw [operator_lastOpcode fed]
    rcases proper with ⟨rfl, -⟩ | ⟨rfl, -⟩ <;> rfl

theorem spells_head {xs : List Lexeme} {text : Text} (spells : Spells xs text) (proper : ∀ x ∈ xs, x.Proper)
    (front : text.head? = some c) : IsBlank c ∨ ∃ x ∈ xs.head?, x.spelling.head? = some c := by
  cases spells with
  | nil blank => exact .inl (blank c (List.mem_of_head? front))
  | @cons x xs blanks more blank others =>
    cases blanks with
    | cons d blanks =>
      obtain rfl := Option.some.inj front
      exact .inl (blank _ List.mem_cons_self)
    | nil =>
      refine .inr ⟨x, rfl, ?_⟩
      have some_char : x.spelling ≠ [] := by
        have proper := proper x List.mem_cons_self
        cases opcode : x.opcode? with
        | none =>
          cases x with
          | atom token =>
            obtain ⟨c, rest, same, -⟩ := (proper : IsOperand token).first
            exact same ▸ List.cons_ne_nil c rest
          | _ => cases opcode
        | some o =>
          obtain ⟨operator, spelled, -⟩ := Lexeme.Proper.operator proper opcode
          exact spelled ▸ opcode_ne_nil operator
      rwa [List.nil_append, List.head?_append_of_ne_nil _ some_char] at front

theorem stops_of_spells {xs : List Lexeme} (spells : Spells xs more) (proper : ∀ x ∈ xs, x.Proper)
    (alternate : Alternate x.endsOperand xs true) : Stops x more := by
  have behind (c : Char) (front : c ∈ more.head?) : IsBlank c ∨ ∃ y ∈ xs.head?, y.Proper ∧ y.behindOperand = x.endsOperand ∧
      y.spelling.head? = some c := by
    refine (spells_head spells proper front).imp_right fun ⟨y, first, here⟩ => ?_
    cases xs with
    | nil => cases first
    | cons y' xs =>
      obtain rfl := Option.some.inj first
      exact ⟨y', rfl, proper _ List.mem_cons_self, alternate.1, here⟩
  have begins (ends : x.endsOperand = false) (c : Char) (front : c ∈ more.head?) : c ∉ extensions := by
    rcases behind c front with blank | ⟨y, -, proper, place, here⟩
    · exact blank.not_extension
    · rw [ends] at place
      cases opcode : y.opcode? with
      | none =>
        cases y with
        | atom token =>
          obtain ⟨d, rest, rfl, first⟩ := (proper : IsOperand token).first
          obtain rfl := Option.some.inj here
          exact not_extension_of_first first
        | _ => cases opcode
      | some o =>
        obtain ⟨operator, spelled, belongs⟩ := Lexeme.Proper.operator proper opcode
        rw [place] at belongs
        exact not_extension_opening o operator belongs c (spelled ▸ here)
  cases x with
  | atom token =>
    intro c front
    rcases behind c front with blank | ⟨y, -, proper, place, here⟩
    · exact blank.not_alphaNum
    · cases opcode : y.opcode? with
      | none =>
        cases y with
        | atom token => cases place
        | _ => cases opcode
      | some o =>
        obtain ⟨operator, spelled, -⟩ := Lexeme.Proper.operator proper opcode
        exact not_alphaNum o operator c (spelled ▸ here)
  | opening o => exact begins rfl
  | unary o => exact begins rfl
  | binary o => exact begins rfl
  | closing o after => trivial

theorem ends_blanks {s : Conversion} {blanks more : Text} {result : Except String PostfixExpression}
    (blank : ∀ c ∈ blanks, IsBlank c) (ends : Loop.Ends (Scan.turn floats funcs) { s with rest := more } result) :
    Loop.Ends (Scan.turn floats funcs) { s with rest := blanks ++ more } result := by
  induction blanks with
  | nil => exact ends
  | cons c blanks ih =>
    obtain ⟨here, others⟩ := List.forall_mem_cons.1 blank
    exact .again (turn_blank rfl here) (ih others)

def convert (floats : FloatArithmetic) (funcs : IExpressionFunctions) (xs : List Lexeme) (s : Conversion) :
    Except String PostfixExpression :=
  (xs.foldlM (Conversion.feed floats funcs) s).bind fun s => popRest s.dest s.opcodeStack

theorem ends_spells {xs : List Lexeme} {text : Text} {s : Conversion} (spells : Spells xs text) (proper : ∀ x ∈ xs, x.Proper)
    (alternate : Alternate (isOperandEnd s.lastOpcode) xs true) :
    Loop.Ends (Scan.turn floats funcs) { s with rest := text } (convert floats funcs xs s) := by
  induction spells generalizing s with
  | @nil blanks blank =>
    rw [← List.append_nil blanks]
    exact ends_blanks blank (.done rfl)
  | @cons x xs blanks more blank others ih =>
    obtain ⟨proper, others_proper⟩ := List.forall_mem_cons.1 proper
    refine ends_blanks blank ?_
    have turned : Scan.turn floats funcs { s with rest := x.spelling ++ more } =
        Scan.advance { s with rest := x.spelling ++ more } (s.feed floats funcs x) x.spelling.length :=
      turn_lexeme proper rfl alternate.1 (stops_of_spells others others_proper alternate.2)
    cases fed : s.feed floats funcs x with
    | error error =>
      have stopped : convert floats funcs (x :: xs) s = .error error := by
        rw [convert, List.foldlM_cons, fed]
        rfl
      rw [fed] at turned
      rw [stopped]
      exact .done turned
    | ok t =>
      have goes_on : convert floats funcs (x :: xs) s = convert floats funcs xs t := by
        rw [convert, List.foldlM_cons, fed]
        rfl
      rw [fed, Scan.advance] at turned
      simp only [List.drop_left] at turned
      rw [goes_on]
      exact .again turned (ih others_proper (by rw [feed_isOperandEnd proper fed]; exact alternate.2))

end Pcsx2.DebugTools
