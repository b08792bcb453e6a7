import Mathlib.Data.Nat.Digits.Defs
import Pcsx2.DebugTools.Conversions

/-!
# Numbers

A number is hexadecimal unless it says otherwise, in front of its digits or behind them.
-/

namespace Pcsx2.DebugTools
open Foundation

inductive RadixMark
  | none
  | hexFront (x : Char)
  | octFront (o : Char)
  | hexBehind (h : Char)
  | octBehind (o : Char)

namespace RadixMark

def radix : RadixMark → Nat
  | none | hexFront _ | hexBehind _ => 16
  | octFront _ | octBehind _ => 8

def front : RadixMark → Text
  | hexFront x => ['0', x]
  | octFront o => ['0', o]
  | _ => []

def behind : RadixMark → Text
  | hexBehind h => [h]
  | octBehind o => [o]
  | _ => []

/-- The letter is the one it should be, of either case. -/
def Valid : RadixMark → Prop
  | none => True
  | hexFront x => x.toLower = 'x'
  | octFront o | octBehind o => o.toLower = 'o'
  | hexBehind h => h.toLower = 'h'

end RadixMark

def IsDigit (radix : Nat) (c : Char) : Prop :=
  if radix = 8 then '0' ≤ c ∧ c ≤ '7' else ('0' ≤ c ∧ c ≤ '9') ∨ ('a' ≤ c.toLower ∧ c.toLower ≤ 'f')

def digitOf (c : Char) : Nat := if c ≤ '9' then c.toNat - '0'.toNat else c.toLower.toNat - 'a'.toNat + 10

structure Literal where
  mark : RadixMark
  digits : Text

namespace Literal

def text (l : Literal) : Text := l.mark.front ++ l.digits ++ l.mark.behind

/-- The number that is written, in 64 bits. -/
def value (l : Literal) : UInt64 := .ofNat (Nat.ofDigits l.mark.radix (l.digits.map digitOf).reverse)

structure Valid (l : Literal) : Prop where
  mark : l.mark.Valid
  some_digit : l.digits ≠ []
  digits : ∀ c ∈ l.digits, IsDigit l.mark.radix c
  /-- A number starts with a digit from 0 to 9. -/
  first : ∀ c ∈ l.text.head?, '0' ≤ c ∧ c ≤ '9'

end Literal

/-! ## Digits -/

theorem char_le {c d : Char} : c ≤ d ↔ c.toNat ≤ d.toNat := Iff.rfl

theorem char_lt {c d : Char} : c < d ↔ c.toNat < d.toNat := Iff.rfl

theorem toNat_toLower (c : Char) : c.toLower.toNat = if 65 ≤ c.toNat ∧ c.toNat ≤ 90 then c.toNat + 32 else c.toNat := by
  delta Char.toLower
  split
  · rename_i upper
    have bounds : 65 ≤ c.toNat ∧ c.toNat ≤ 90 := ⟨upper.1, upper.2⟩
    rw [if_pos bounds]
    show (c.val + 32).toNat = c.val.toNat + 32
    have : c.val.toNat ≤ 90 := bounds.2
    rw [UInt32.toNat_add]
    exact Nat.mod_eq_of_lt (by simp; omega)
  · rename_i other
    rw [if_neg fun bounds => other ⟨bounds.1, bounds.2⟩]

theorem toNat_bounds : 'a'.toNat = 97 ∧ 'f'.toNat = 102 ∧ '0'.toNat = 48 ∧ '7'.toNat = 55 ∧ '9'.toNat = 57 := by decide

variable {c : Char}

theorem isDigit_iff : IsDigit 16 c ↔ (48 ≤ c.toNat ∧ c.toNat ≤ 57) ∨ (65 ≤ c.toNat ∧ c.toNat ≤ 70) ∨
    (97 ≤ c.toNat ∧ c.toNat ≤ 102) := by
  obtain ⟨a, f, zero, -, nine⟩ := toNat_bounds
  have hexadecimal : ¬(16 = 8) := by decide
  simp only [IsDigit, if_neg hexadecimal, char_le, toNat_toLower, a, f, zero, nine]
  split_ifs <;> omega

theorem isDigit_of_octal (digit : IsDigit 8 c) : IsDigit 16 c := by
  obtain ⟨-, -, zero, seven, -⟩ := toNat_bounds
  simp only [IsDigit, if_true, char_le, zero, seven] at digit
  exact isDigit_iff.2 (by omega)

theorem hexDigit_eq (digit : IsDigit 16 c) : hexDigit c = some (.ofNat (digitOf c)) := by
  obtain ⟨a, f, zero, -, nine⟩ := toNat_bounds
  rw [isDigit_iff] at digit
  have lower := toNat_toLower c
  simp only [hexDigit, digitOf, char_le, char_lt, a, f, zero, nine]
  split_ifs at lower ⊢ <;> first | omega | (congr 2; omega) | rfl

theorem digitUpTo_eq (digit : IsDigit 8 c) : digitUpTo '7' c = some (.ofNat (digitOf c)) := by
  obtain ⟨-, -, zero, seven, nine⟩ := toNat_bounds
  simp only [IsDigit, if_true, char_le, zero, seven] at digit
  simp only [digitUpTo, digitOf, char_le, char_lt, zero, seven, nine]
  rw [if_neg (by omega), if_pos (by omega)]

theorem ofDigits_concat (radix n : Nat) (digits : List Nat) : (UInt64.ofNat (Nat.ofDigits radix (n :: digits))) =
    UInt64.ofNat (Nat.ofDigits radix digits) * .ofNat radix + .ofNat n := by
  rw [Nat.ofDigits_cons, Nat.add_comm, Nat.mul_comm, UInt64.ofNat_add, UInt64.ofNat_mul]

theorem parseDigits_eq {digit : Char → Option UInt64} {shift : UInt64 → UInt64} {radix : Nat} {digits : Text}
    (read : ∀ c ∈ digits, digit c = some (.ofNat (digitOf c))) (shifts : ∀ val, shift val = val * .ofNat radix) :
    parseDigits digit shift digits = some (.ofNat (Nat.ofDigits radix (digits.map digitOf).reverse)) := by
  induction digits using List.reverseRecOn with
  | nil => rfl
  | append_singleton digits c ih =>
    obtain ⟨before, last⟩ := List.forall_mem_append.1 read
    rw [parseDigits] at ih
    rw [parseDigits, List.foldlM_append, ih before, Option.bind_eq_bind, Option.bind_some, List.foldlM_cons,
      last c (List.mem_singleton_self c), Option.map_some, shifts, List.map_append, List.reverse_append, List.map_singleton,
      List.reverse_singleton, List.singleton_append, ofDigits_concat]
    rfl

theorem shiftLeft_eq (val : UInt64) : val <<< 3 = val * .ofNat 8 ∧ val <<< 4 = val * .ofNat 16 := by
  constructor <;> rw [← UInt64.toNat_inj, UInt64.toNat_shiftLeft, UInt64.toNat_mul, Nat.shiftLeft_eq] <;> rfl

/-! ## The whole number -/

theorem digit_letters (digit : IsDigit 16 c) : c.toLower ≠ 'x' ∧ c.toLower ≠ 'o' ∧ c.toLower ≠ 'h' ∧ c ≠ '$' ∧
    c ≠ '.' ∧ isAlphaNum c := by
  have range := isDigit_iff.1 digit
  have low : c.toLower.toNat ≤ 102 := by
    rw [toNat_toLower]
    split_ifs <;> omega
  have other (d : Char) (high : 102 < d.toNat) : c.toLower ≠ d := by
    rintro rfl
    exact Nat.not_lt_of_le low high
  have here (d : Char) (outside : ¬((48 ≤ d.toNat ∧ d.toNat ≤ 57) ∨ (65 ≤ d.toNat ∧ d.toNat ≤ 70) ∨
      (97 ≤ d.toNat ∧ d.toNat ≤ 102))) : c ≠ d := by
    rintro rfl
    exact outside range
  refine ⟨other _ (by decide), other _ (by decide), other _ (by decide), here _ (by decide), here _ (by decide), ?_⟩
  simp only [isAlphaNum, char_le, decide_eq_true_iff]
  have bounds : '0'.toNat = 48 ∧ '9'.toNat = 57 ∧ 'A'.toNat = 65 ∧ 'Z'.toNat = 90 ∧ 'a'.toNat = 97 ∧ 'z'.toNat = 122 := by decide
  omega

section
variable {l : Literal}

theorem Literal.Valid.hexadecimal (valid : l.Valid) : ∀ c ∈ l.digits, IsDigit 16 c := by
  intro c member
  have digit := valid.digits c member
  cases mark : l.mark with
  | none | hexFront | hexBehind => rwa [mark] at digit
  | octFront | octBehind =>
    rw [mark] at digit
    exact isDigit_of_octal digit

theorem splitRadix_behind {digits tail : Text} (some_digit : digits ≠ []) (digit : ∀ c ∈ digits, IsDigit 16 c)
    (letter : ∀ c ∈ tail, c.toLower ≠ 'x') : splitRadix (digits ++ tail) 16 =
      if (digits ++ tail)[0]? = some '0' ∧ (digits ++ tail)[1]?.map Char.toLower = some 'o' then (8, (digits ++ tail).drop 2)
      else if (digits ++ tail).getLast?.map Char.toLower = some 'o' then (8, (digits ++ tail).dropLast)
      else if (digits ++ tail).getLast?.map Char.toLower = some 'h' then (16, (digits ++ tail).dropLast)
      else (16, digits ++ tail) := by
  have no_x : ∀ c ∈ digits ++ tail, c.toLower ≠ 'x' :=
    List.forall_mem_append.2 ⟨fun c member => (digit_letters (digit c member)).1, letter⟩
  obtain ⟨d, rest, rfl⟩ := List.exists_cons_of_ne_nil some_digit
  have no_hex : ¬((d :: rest ++ tail)[0]? = some '0' ∧ (d :: rest ++ tail)[1]?.map Char.toLower = some 'x') := by
    rintro ⟨-, second⟩
    obtain ⟨c, here, lower⟩ := Option.map_eq_some_iff.1 second
    exact no_x c (List.mem_of_getElem? here) lower
  have no_dollar : ¬(d :: rest ++ tail)[0]? = some '$' := by
    intro first
    obtain rfl : d = '$' := Option.some.inj first
    exact (digit_letters (digit _ List.mem_cons_self)).2.2.2.1 rfl
  have no_binary : ¬((d :: rest ++ tail).getLast?.map Char.toLower = some 'b' ∧ 16 ≠ 16) := fun binary => binary.2 rfl
  rw [splitRadix, if_neg no_hex, if_neg no_dollar, if_neg no_binary]

theorem splitRadix_literal (valid : l.Valid) : splitRadix l.text 16 = (l.mark.radix, l.digits) ∨
    splitRadix l.text 16 = (8, []) ∧ l.value = 0 := by
  have digit := valid.hexadecimal
  obtain ⟨letter, some_digit, -, -⟩ := valid
  obtain ⟨mark, digits⟩ := l
  have last (c : Char) : (digits ++ [c]).getLast? = some c ∧ (digits ++ [c]).dropLast = digits :=
    ⟨List.getLast?_concat, List.dropLast_concat⟩
  cases mark with
  | none =>
    left
    have text : Literal.text ⟨.none, digits⟩ = digits ++ [] := rfl
    have no_letter (c : Char) (member : c ∈ digits ++ []) : c.toLower ≠ 'o' ∧ c.toLower ≠ 'h' := by
      rw [List.append_nil] at member
      exact ⟨(digit_letters (digit c member)).2.1, (digit_letters (digit c member)).2.2.1⟩
    rw [text, splitRadix_behind some_digit digit (List.forall_mem_nil _), if_neg, if_neg, if_neg, List.append_nil]
    · rfl
    · intro behind
      obtain ⟨c, here, lower⟩ := Option.map_eq_some_iff.1 behind
      exact (no_letter c (List.mem_of_getLast? here)).2 lower
    · intro behind
      obtain ⟨c, here, lower⟩ := Option.map_eq_some_iff.1 behind
      exact (no_letter c (List.mem_of_getLast? here)).1 lower
    · rintro ⟨-, second⟩
      obtain ⟨c, here, lower⟩ := Option.map_eq_some_iff.1 second
      exact (no_letter c (List.mem_of_getElem? here)).1 lower
  | hexFront x =>
    left
    have lower : x.toLower = 'x' := letter
    have text : Literal.text ⟨.hexFront x, digits⟩ = '0' :: x :: digits := List.append_nil _
    rw [text, splitRadix, if_pos ⟨rfl, congrArg some lower⟩]
    rfl
  | octFront o =>
    left
    have lower : o.toLower = 'o' := letter
    have text : Literal.text ⟨.octFront o, digits⟩ = '0' :: o :: digits := List.append_nil _
    have no_hex : ¬(('0' :: o :: digits)[0]? = some '0' ∧ ('0' :: o :: digits)[1]?.map Char.toLower = some 'x') := by
      rintro ⟨-, second⟩
      have same : o.toLower = 'x' := Option.some.inj second
      exact absurd (lower.symm.trans same) (by decide)
    have no_dollar : ¬('0' :: o :: digits)[0]? = some '$' := by simp
    rw [text, splitRadix, if_neg no_hex, if_neg no_dollar, if_pos ⟨rfl, congrArg some lower⟩]
    rfl
  | hexBehind h =>
    left
    have lower : h.toLower = 'h' := letter
    have text : Literal.text ⟨.hexBehind h, digits⟩ = digits ++ [h] := rfl
    have no_x : ∀ c ∈ [h], c.toLower ≠ 'x' := by simp [lower]
    rw [text, splitRadix_behind some_digit digit no_x, (last h).1, (last h).2, if_neg, if_neg, if_pos]
    · rfl
    · exact congrArg some lower
    · simp [lower]
    · rintro ⟨-, second⟩
      obtain ⟨c, here, lower'⟩ := Option.map_eq_some_iff.1 second
      rcases List.mem_append.1 (List.mem_of_getElem? here) with member | member
      · exact (digit_letters (digit c member)).2.1 lower'
      · obtain rfl := List.mem_singleton.1 member
        exact absurd (lower.symm.trans lower') (by decide)
  | octBehind o =>
    have lower : o.toLower = 'o' := letter
    have text : Literal.text ⟨.octBehind o, digits⟩ = digits ++ [o] := rfl
    have no_x : ∀ c ∈ [o], c.toLower ≠ 'x' := by simp [lower]
    rw [text, splitRadix_behind some_digit digit no_x, (last o).1, (last o).2]
    by_cases front : (digits ++ [o])[0]? = some '0' ∧ (digits ++ [o])[1]?.map Char.toLower = some 'o'
    · -- Only a single digit has the letter right behind it.
      right
      obtain ⟨d, rest, rfl⟩ := List.exists_cons_of_ne_nil some_digit
      obtain ⟨first, second⟩ := front
      obtain rfl : d = '0' := Option.some.inj first
      obtain rfl : rest = [] := by
        cases rest with
        | nil => rfl
        | cons c rest =>
          have lower' : c.toLower = 'o' := Option.some.inj second
          exact absurd lower' (digit_letters (digit c (List.mem_cons_of_mem _ List.mem_cons_self))).2.1
      exact ⟨if_pos ⟨first, second⟩, rfl⟩
    · left
      rw [if_neg front, Option.map_some, lower, if_pos rfl]
      rfl

theorem parseNumber_literal (valid : l.Valid) : parseNumber l.text 16 = some l.value := by
  have octal (digits : Text) (octal : ∀ c ∈ digits, IsDigit 8 c) : parseDigits (digitUpTo '7') (· <<< 3) digits =
      some (.ofNat (Nat.ofDigits 8 (digits.map digitOf).reverse)) :=
    parseDigits_eq (fun c member => digitUpTo_eq (octal c member)) fun val => (shiftLeft_eq val).1
  have hexadecimal : parseDigits hexDigit (· <<< 4) l.digits =
      some (.ofNat (Nat.ofDigits 16 (l.digits.map digitOf).reverse)) :=
    parseDigits_eq (fun c member => hexDigit_eq (valid.hexadecimal c member)) fun val => (shiftLeft_eq val).2
  rcases splitRadix_literal valid with whole | ⟨nothing, zero⟩
  · have digits := valid.digits
    rw [parseNumber, whole, Literal.value]
    cases mark : l.mark with
    | none | hexFront | hexBehind => exact hexadecimal
    | octFront | octBehind =>
      rw [mark] at digits
      exact octal _ digits
  · rw [parseNumber, nothing, zero]
    rfl

theorem letter_char {c d : Char} (lower : c.toLower = d) (letter : 97 ≤ d.toNat ∧ d.toNat ≤ 122) : c ≠ '.' ∧ isAlphaNum c := by
  have same := congrArg Char.toNat lower
  rw [toNat_toLower] at same
  have range : (65 ≤ c.toNat ∧ c.toNat ≤ 90) ∨ (97 ≤ c.toNat ∧ c.toNat ≤ 122) := by
    split_ifs at same <;> omega
  constructor
  · rintro rfl
    exact absurd range (by decide)
  · have bounds : 'A'.toNat = 65 ∧ 'Z'.toNat = 90 ∧ 'a'.toNat = 97 ∧ 'z'.toNat = 122 := by decide
    simp only [isAlphaNum, char_le, decide_eq_true_iff]
    omega

theorem mark_chars {mark : RadixMark} (valid : mark.Valid) : ∀ c ∈ mark.front ++ mark.behind, c ≠ '.' ∧ isAlphaNum c := by
  have zero : '0' ≠ '.' ∧ isAlphaNum '0' := by decide
  cases mark with
  | none => exact List.forall_mem_nil _
  | hexFront x => exact List.forall_mem_cons.2 ⟨zero, List.forall_mem_singleton.2 (letter_char valid (by decide))⟩
  | octFront o => exact List.forall_mem_cons.2 ⟨zero, List.forall_mem_singleton.2 (letter_char valid (by decide))⟩
  | hexBehind h => exact List.forall_mem_singleton.2 (letter_char valid (by decide))
  | octBehind o => exact List.forall_mem_singleton.2 (letter_char valid (by decide))

theorem literal_chars (valid : l.Valid) : ∀ c ∈ l.text, c ≠ '.' ∧ isAlphaNum c := by
  obtain ⟨front, behind⟩ := List.forall_mem_append.1 (mark_chars valid.mark)
  have digits : ∀ c ∈ l.digits, c ≠ '.' ∧ isAlphaNum c := fun c member =>
    (digit_letters (valid.hexadecimal c member)).2.2.2.2
  exact List.forall_mem_append.2 ⟨List.forall_mem_append.2 ⟨front, digits⟩, behind⟩

theorem findDecimal_ne {str : Text} (no_point : ∀ c ∈ str, c ≠ '.') : findDecimal false str ≠ some true := by
  induction str with
  | nil => nofun
  | cons c str ih =>
    obtain ⟨here, others⟩ := List.forall_mem_cons.1 no_point
    rw [findDecimal, if_neg here]
    split_ifs
    · nofun
    · exact ih others

theorem literal_first (valid : l.Valid) : ∃ c rest, l.text = c :: rest ∧ '0' ≤ c ∧ c ≤ '9' := by
  have some_char : l.text ≠ [] := by
    simp [Literal.text, valid.some_digit]
  obtain ⟨c, rest, text⟩ := List.exists_cons_of_ne_nil some_char
  exact ⟨c, rest, text, valid.first c (by rw [text]; rfl)⟩

theorem decimal_toLower (digit : '0' ≤ c ∧ c ≤ '9') : '0' ≤ c.toLower ∧ c.toLower ≤ '9' := by
  have bounds : '0'.toNat = 48 ∧ '9'.toNat = 57 := by decide
  simp only [char_le, toNat_toLower] at digit ⊢
  split_ifs <;> omega

theorem isOperand_literal (valid : l.Valid) (short : l.text.length < 255) : IsOperand l.text where
  first := by
    obtain ⟨c, rest, text, digit⟩ := literal_first valid
    exact ⟨c, rest, text, .inl (decimal_toLower digit)⟩
  alphaNum c member := (literal_chars valid c member).2
  short := short

theorem operandPair_literal (floats : FloatArithmetic) (funcs : IExpressionFunctions) (valid : l.Valid) :
    operandPair floats funcs l.text = .ok (.const l.value) := by
  have no_float : parseFloat floats l.text = none :=
    if_neg (findDecimal_ne fun c member => (literal_chars valid c member).1)
  have number : numberPair floats l.text = .ok (.const l.value) := by
    rw [numberPair, no_float, parseNumber_literal valid]
  obtain ⟨c, rest, text, digit⟩ := literal_first valid
  rw [text] at number ⊢
  rw [operandPair, if_pos (decimal_toLower digit), number]

end

end Pcsx2.DebugTools
