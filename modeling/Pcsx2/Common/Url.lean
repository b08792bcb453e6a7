import Pcsx2.Common.Utf8

/-!
# URL coding

A read outside the string has no result, nor has a loop that does not end.
-/

namespace Pcsx2.Common

/-- The characters that are not escaped. -/
def unreserved (c : Byte) : Bool :=
  (0x30 ≤ c ∧ c ≤ 0x39) ∨ (0x61 ≤ c ∧ c ≤ 0x7A) ∨ (0x41 ≤ c ∧ c ≤ 0x5A) ∨ c = 0x2D ∨ c = 0x5F ∨
    c = 0x2E ∨ c = 0x21 ∨ c = 0x7E ∨ c = 0x2A ∨ c = 0x27 ∨ c = 0x28 ∨ c = 0x29

def hexDigit (n : Byte) : Byte := if n ≥ 10 then 0x61 + (n - 10) else 0x30 + n

/-- What `URLEncode` appends for a character. -/
def encodeCharacter (c : Byte) : List Byte :=
  if unreserved c then [c]
  else [0x25, hexDigit (c >>> 4), hexDigit (c &&& 0x0F)]

def urlEncode (str : List Byte) : List Byte := str.flatMap encodeCharacter

/-- The value that `URLDecode` takes a hexadecimal digit for. -/
def digitValue (digit : Byte) : Byte :=
  if 0x30 ≤ digit ∧ digit ≤ 0x39 then digit - 0x30
  else if 0x61 ≤ digit ∧ digit ≤ 0x66 then digit - 0x61
  else if 0x41 ≤ digit ∧ digit ≤ 0x46 then digit - 0x41
  else 0

/-- The loop of `URLDecode` from `i` on. It goes through the digits of an escape, too. -/
def urlDecodeLoop (str : List Byte) : Nat → Nat → List Byte → Option (List Byte)
  | 0, _, _ => none
  | fuel + 1, i, ret =>
    if i < str.length then do
      let c ← str[i]?
      if c = 0x2B then
        urlDecodeLoop str fuel (i + 1) (ret ++ [c])
      else if c = 0x25 then
        if i + 2 ≥ str.length then
          return ret
        else
          let clower ← str[i + 1]?
          let cupper ← str[i + 2]?
          urlDecodeLoop str fuel (i + 1) (ret ++ [digitValue clower ||| digitValue cupper <<< 4])
      else
        urlDecodeLoop str fuel (i + 1) (ret ++ [c])
    else some ret

def urlDecode (str : List Byte) : Option (List Byte) :=
  (urlDecodeLoop str (str.length + 1) 0 []).map fun _ => str

/-- The digits that `URLEncode` writes. -/
def IsHexDigit (c : Byte) : Prop := 0x30 ≤ c ∧ c ≤ 0x39 ∨ 0x61 ≤ c ∧ c ≤ 0x66

/-- Unreserved characters and `%XX` triples. -/
inductive Encoded : List Byte → Prop
  | nil : Encoded []
  | character {c : Byte} {rest : List Byte} (plain : unreserved c = true) (behind : Encoded rest) : Encoded (c :: rest)
  | triple {high low : Byte} {rest : List Byte} (first : IsHexDigit high) (second : IsHexDigit low) (behind : Encoded rest) :
      Encoded (0x25 :: high :: low :: rest)

structure UrlCoding (s : List Byte) : Prop where
  roundTrip : urlDecode (urlEncode s) = some s
  encoded : Encoded (urlEncode s)
  inside : ∀ str, urlDecode str ≠ none

variable {str ret : List Byte} {c : Byte} {fuel i : Nat}

theorem hexDigit_isHexDigit (n : Byte) (nibble : n < 16) : IsHexDigit (hexDigit n) := by
  revert n
  simp only [IsHexDigit, hexDigit]
  decide

theorem encodeCharacter_encoded (c : Byte) {rest : List Byte} (behind : Encoded rest) : Encoded (encodeCharacter c ++ rest) := by
  by_cases plain : unreserved c = true
  · simpa [encodeCharacter, plain] using .character plain behind
  · have high : c >>> 4 < 16 := by
      rw [BitVec.lt_def, BitVec.toNat_ushiftRight, Nat.shiftRight_eq_div_pow]
      exact Nat.div_lt_of_lt_mul c.isLt
    have low : c &&& 0x0F < 16 := by
      rw [BitVec.lt_def, BitVec.toNat_and]
      exact Nat.lt_succ_of_le Nat.and_le_right
    simpa [encodeCharacter, plain] using .triple (hexDigit_isHexDigit _ high) (hexDigit_isHexDigit _ low) behind

theorem urlEncode_encoded (s : List Byte) : Encoded (urlEncode s) := by
  induction s with
  | nil => exact .nil
  | cons c s ih => exact encodeCharacter_encoded c ih

theorem urlDecodeLoop_inside (inside : i ≤ str.length) (enough : str.length < i + fuel) : urlDecodeLoop str fuel i ret ≠ none := by
  induction fuel generalizing i ret with
  | zero => omega
  | succ fuel ih =>
      rcases Nat.lt_or_eq_of_le inside with more | last
      · have next (ret : List Byte) : urlDecodeLoop str fuel (i + 1) ret ≠ none := ih more (by omega)
        rw [urlDecodeLoop, if_pos more, List.getElem?_eq_getElem more]
        by_cases plus : str[i] = 0x2B
        · simpa [plus] using next _
        by_cases percent : str[i] = 0x25
        · by_cases cut : i + 2 ≥ str.length
          · simp [percent, cut]
          · have second : i + 1 < str.length := by omega
            have third : i + 2 < str.length := by omega
            simpa [percent, cut, second, third] using next _
        · rw [Option.bind_eq_bind, Option.bind_some, if_neg plus, if_neg percent]
          exact next _
      · simp [urlDecodeLoop, last]

theorem urlDecode_eq (str : List Byte) : urlDecode str = some str := by
  have inside : urlDecodeLoop str (str.length + 1) 0 [] ≠ none := urlDecodeLoop_inside (Nat.zero_le _) (by omega)
  obtain ⟨ret, decoded⟩ := Option.ne_none_iff_exists'.1 inside
  rw [urlDecode, decoded, Option.map_some]

theorem length_le_urlEncode (s : List Byte) : s.length ≤ (urlEncode s).length := by
  induction s with
  | nil => exact Nat.le_refl 0
  | cons c s ih =>
      have some_bytes : 1 ≤ (encodeCharacter c).length := by
        simp only [encodeCharacter]
        split_ifs <;> simp
      simp only [urlEncode, List.flatMap_cons, List.length_append, List.length_cons] at ih ⊢
      omega

theorem urlEncode_eq_self_iff (s : List Byte) : urlEncode s = s ↔ ∀ c ∈ s, unreserved c = true := by
  induction s with
  | nil => simp [urlEncode]
  | cons c s ih =>
      have split : urlEncode (c :: s) = encodeCharacter c ++ urlEncode s := rfl
      by_cases plain : unreserved c = true
      · simp [split, encodeCharacter, plain, ih]
      · have longer := length_le_urlEncode s
        have different : urlEncode (c :: s) ≠ c :: s := by
          intro same
          have length := congrArg List.length same
          simp only [split, encodeCharacter, plain, Bool.false_eq_true, if_false, List.length_append, List.length_cons,
            List.length_nil] at length
          omega
        simp [different, plain]

/-- The law holds exactly for the strings in which nothing is escaped. -/
theorem urlCoding_iff (s : List Byte) : UrlCoding s ↔ ∀ c ∈ s, unreserved c = true := by
  rw [← urlEncode_eq_self_iff]
  constructor
  · intro law
    exact Option.some_inj.1 ((urlDecode_eq _).symm.trans law.roundTrip)
  · intro same
    refine ⟨?_, urlEncode_encoded s, fun str => ?_⟩
    · rw [urlDecode_eq, same]
    · rw [urlDecode_eq]
      exact Option.some_ne_none str

/-- A space comes back as it was escaped. -/
theorem space_not_urlCoding : urlDecode (urlEncode [0x20]) = some [0x25, 0x32, 0x30] ∧ ¬UrlCoding [0x20] := by
  have escaped : urlDecode (urlEncode [0x20]) = some [0x25, 0x32, 0x30] := by decide
  refine ⟨escaped, fun law => ?_⟩
  have same := law.roundTrip
  rw [escaped] at same
  cases same

end Pcsx2.Common
