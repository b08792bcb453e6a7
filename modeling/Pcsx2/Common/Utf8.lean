import Mathlib.Data.Nat.Bitwise
import Mathlib.Tactic.IntervalCases

/-!
# UTF-8

Where a read leaves the memory it is given, there is no result.
-/

namespace Pcsx2.Common

abbrev Byte := BitVec 8

abbrev CodePoint := BitVec 32

/-- What `DecodeUTF8` gives for bytes that are no sequence. -/
def invalid : CodePoint := 0xFFFFFFFF

/-- The bytes that `EncodeAndAppendUTF8` appends. -/
def encodeUTF8 (ch : CodePoint) : List Byte :=
  if ch ≤ 0x7F then [ch.setWidth 8]
  else if ch ≤ 0x07FF then
    [0xc0#8 ||| ((ch >>> 6) &&& 0x1f).setWidth 8, 0x80#8 ||| (ch &&& 0x3f).setWidth 8]
  else if ch ≤ 0xFFFF then
    [0xe0#8 ||| ((ch >>> 12) &&& 0x0f).setWidth 8, 0x80#8 ||| ((ch >>> 6) &&& 0x3f).setWidth 8,
      0x80#8 ||| (ch &&& 0x3f).setWidth 8]
  else if ch ≤ 0x10FFFF then
    [0xf0#8 ||| ((ch >>> 18) &&& 0x07).setWidth 8, 0x80#8 ||| ((ch >>> 12) &&& 0x3f).setWidth 8,
      0x80#8 ||| ((ch >>> 6) &&& 0x3f).setWidth 8, 0x80#8 ||| (ch &&& 0x3f).setWidth 8]
  else [0xef, 0xbf, 0xbd]

def encodeAndAppendUTF8 (s : List Byte) (ch : CodePoint) : List Byte := s ++ encodeUTF8 ch

/-- The character that the bytes begin with and how many of them it takes. -/
def decodeUTF8 (s : List Byte) (length : Nat) : Option (CodePoint × Nat) := do
  let s0 ← s[0]?
  if s0 < 0x80 then
    return (s0.setWidth 32, 1)
  else if s0 &&& 0xe0 = 0xc0 then
    if length < 2 then
      return (invalid, 1)
    else
      let s1 ← s[1]?
      return ((s0 &&& 0x1f).setWidth 32 <<< 6 ||| (s1 &&& 0x3f).setWidth 32 <<< 0, 2)
  else if s0 &&& 0xf0 = 0xe0 then
    if length < 3 then
      return (invalid, 1)
    else
      let s1 ← s[1]?
      let s2 ← s[2]?
      return ((s0 &&& 0x0f).setWidth 32 <<< 12 ||| (s1 &&& 0x3f).setWidth 32 <<< 6 |||
        (s2 &&& 0x3f).setWidth 32 <<< 0, 3)
  else if s0 &&& 0xf8 = 0xf0 ∧ s0 ≤ 0xf4 then
    if length < 4 then
      return (invalid, 1)
    else
      let s1 ← s[1]?
      let s2 ← s[2]?
      let s3 ← s[3]?
      return ((s0 &&& 0x07).setWidth 32 <<< 18 ||| (s1 &&& 0x3f).setWidth 32 <<< 12 |||
        (s2 &&& 0x3f).setWidth 32 <<< 6 ||| (s3 &&& 0x3f).setWidth 32 <<< 0, 4)
  else
    return (invalid, 1)

/-- Characters are decoded from `pos` on until `len` or a character to stop at. Every one of them moves `pos`, so
that `len + 1` is fuel enough. -/
def decodeFrom (memory : List Byte) (len : Nat) (left : Nat → Nat) (stop : CodePoint → Bool) :
    Nat → Nat → Option (List CodePoint × Nat)
  | 0, _ => none
  | fuel + 1, pos =>
    if pos < len then do
      let (ch, advance) ← decodeUTF8 (memory.drop pos) (left pos)
      if stop ch then
        return ([ch], pos + advance)
      else
        let (rest, behind) ← decodeFrom memory len left stop fuel (pos + advance)
        return (ch :: rest, behind)
    else some ([], pos)

/-- The overloads for strings tell how many bytes are left. -/
def decodeAll (str : List Byte) : Option (List CodePoint × Nat) :=
  decodeFrom str str.length (fun pos => str.length - pos) (fun _ => false) (str.length + 1) 0

/-! ## Sequences -/

def sequenceLength (lead : Byte) : Nat :=
  if lead < 0x80 then 1
  else if lead &&& 0xe0 = 0xc0 then 2
  else if lead &&& 0xf0 = 0xe0 then 3
  else if lead &&& 0xf8 = 0xf0 ∧ lead ≤ 0xf4 then 4
  else 1

theorem sequenceLength_pos (lead : Byte) : 0 < sequenceLength lead := by
  simp only [sequenceLength]
  split_ifs <;> decide

variable {s rest memory : List Byte} {b : Byte} {ch : CodePoint} {length n pos fuel len : Nat} {left : Nat → Nat}
  {stop : CodePoint → Bool}

inductive Lead (b : Byte) : Nat → Prop
  | one (ascii : b < 0x80) : Lead b 1
  | two (high : ¬b < 0x80) (lead : b &&& 0xe0 = 0xc0) : Lead b 2
  | three (high : ¬b < 0x80) (two : b &&& 0xe0 ≠ 0xc0) (lead : b &&& 0xf0 = 0xe0) : Lead b 3
  | four (high : ¬b < 0x80) (two : b &&& 0xe0 ≠ 0xc0) (three : b &&& 0xf0 ≠ 0xe0)
      (lead : b &&& 0xf8 = 0xf0 ∧ b ≤ 0xf4) : Lead b 4
  | none (high : ¬b < 0x80) (two : b &&& 0xe0 ≠ 0xc0) (three : b &&& 0xf0 ≠ 0xe0)
      (four : ¬(b &&& 0xf8 = 0xf0 ∧ b ≤ 0xf4)) : Lead b 1

theorem lead_sequenceLength (b : Byte) : Lead b (sequenceLength b) := by
  simp only [sequenceLength]
  split_ifs with one two three four
  · exact .one one
  · exact .two one two
  · exact .three one two three
  · exact .four one two three four
  · exact .none one two three four

variable {s1 s2 s3 : Byte}

theorem decodeUTF8_one (ascii : b < 0x80) : decodeUTF8 (b :: rest) length = some (b.setWidth 32, 1) := if_pos ascii

theorem decodeUTF8_two (high : ¬b < 0x80) (lead : b &&& 0xe0 = 0xc0) : decodeUTF8 (b :: rest) length =
    if length < 2 then some (invalid, 1)
    else rest[0]?.bind fun s1 => some ((b &&& 0x1f).setWidth 32 <<< 6 ||| (s1 &&& 0x3f).setWidth 32 <<< 0, 2) :=
  (if_neg high).trans (if_pos lead)

theorem decodeUTF8_three (high : ¬b < 0x80) (two : b &&& 0xe0 ≠ 0xc0) (lead : b &&& 0xf0 = 0xe0) :
    decodeUTF8 (b :: rest) length =
      if length < 3 then some (invalid, 1)
      else rest[0]?.bind fun s1 => rest[1]?.bind fun s2 => some ((b &&& 0x0f).setWidth 32 <<< 12 |||
        (s1 &&& 0x3f).setWidth 32 <<< 6 ||| (s2 &&& 0x3f).setWidth 32 <<< 0, 3) :=
  (if_neg high).trans ((if_neg two).trans (if_pos lead))

theorem decodeUTF8_four (high : ¬b < 0x80) (two : b &&& 0xe0 ≠ 0xc0) (three : b &&& 0xf0 ≠ 0xe0)
    (lead : b &&& 0xf8 = 0xf0 ∧ b ≤ 0xf4) : decodeUTF8 (b :: rest) length =
      if length < 4 then some (invalid, 1)
      else rest[0]?.bind fun s1 => rest[1]?.bind fun s2 => rest[2]?.bind fun s3 => some
        ((b &&& 0x07).setWidth 32 <<< 18 ||| (s1 &&& 0x3f).setWidth 32 <<< 12 ||| (s2 &&& 0x3f).setWidth 32 <<< 6 |||
          (s3 &&& 0x3f).setWidth 32 <<< 0, 4) :=
  (if_neg high).trans ((if_neg two).trans ((if_neg three).trans (if_pos lead)))

theorem decodeUTF8_invalid (high : ¬b < 0x80) (two : b &&& 0xe0 ≠ 0xc0) (three : b &&& 0xf0 ≠ 0xe0)
    (four : ¬(b &&& 0xf8 = 0xf0 ∧ b ≤ 0xf4)) : decodeUTF8 (b :: rest) length = some (invalid, 1) :=
  (if_neg high).trans ((if_neg two).trans ((if_neg three).trans (if_neg four)))

theorem decodeUTF8_enough (inside : sequenceLength b ≤ (b :: rest).length) :
    ∃ ch, ∀ length, sequenceLength b ≤ length → decodeUTF8 (b :: rest) length = some (ch, sequenceLength b) := by
  have lead := lead_sequenceLength b
  revert inside lead
  generalize sequenceLength b = size
  intro inside lead
  cases lead with
  | one ascii => exact ⟨_, fun length _ => decodeUTF8_one ascii⟩
  | two high lead =>
      rcases rest with _ | ⟨s1, rest⟩
      · simp at inside
      · exact ⟨_, fun length enough => (decodeUTF8_two high lead).trans (if_neg (Nat.not_lt_of_le enough))⟩
  | three high two lead =>
      rcases rest with _ | ⟨s1, _ | ⟨s2, rest⟩⟩
      · simp at inside
      · simp at inside
      · exact ⟨_, fun length enough => (decodeUTF8_three high two lead).trans (if_neg (Nat.not_lt_of_le enough))⟩
  | four high two three lead =>
      rcases rest with _ | ⟨s1, _ | ⟨s2, _ | ⟨s3, rest⟩⟩⟩
      · simp at inside
      · simp at inside
      · simp at inside
      · exact ⟨_, fun length enough => (decodeUTF8_four high two three lead).trans (if_neg (Nat.not_lt_of_le enough))⟩
  | none high two three four => exact ⟨_, fun length _ => decodeUTF8_invalid high two three four⟩

theorem decodeUTF8_short (some : 0 < length) (short : length < sequenceLength b) :
    decodeUTF8 (b :: rest) length = Option.some (invalid, 1) := by
  have lead := lead_sequenceLength b
  revert short lead
  generalize sequenceLength b = size
  intro short lead
  cases lead with
  | one ascii => omega
  | two high lead => exact (decodeUTF8_two high lead).trans (if_pos short)
  | three high two lead => exact (decodeUTF8_three high two lead).trans (if_pos short)
  | four high two three lead => exact (decodeUTF8_four high two three lead).trans (if_pos short)
  | none high two three four => omega

theorem decodeUTF8_cut (cut : (b :: rest).length < sequenceLength b) (long : 4 ≤ length) : decodeUTF8 (b :: rest) length = none := by
  have lead := lead_sequenceLength b
  revert cut lead
  generalize sequenceLength b = size
  intro cut lead
  cases lead with
  | one ascii => simp at cut
  | two high lead =>
      rcases rest with _ | ⟨s1, rest⟩
      · exact (decodeUTF8_two high lead).trans (if_neg (by omega))
      · exact absurd cut (by simp)
  | three high two lead =>
      rcases rest with _ | ⟨s1, _ | ⟨s2, rest⟩⟩
      · exact (decodeUTF8_three high two lead).trans (if_neg (by omega))
      · exact (decodeUTF8_three high two lead).trans (if_neg (by omega))
      · exact absurd cut (by simp)
  | four high two three lead =>
      rcases rest with _ | ⟨s1, _ | ⟨s2, _ | ⟨s3, rest⟩⟩⟩
      · exact (decodeUTF8_four high two three lead).trans (if_neg (by omega))
      · exact (decodeUTF8_four high two three lead).trans (if_neg (by omega))
      · exact (decodeUTF8_four high two three lead).trans (if_neg (by omega))
      · exact absurd cut (by simp)
  | none high two three four => simp at cut

theorem decodeUTF8_inside (some : s ≠ []) : ∃ ch advance, decodeUTF8 s s.length = Option.some (ch, advance) ∧
    0 < advance ∧ advance ≤ s.length := by
  obtain ⟨b, rest, rfl⟩ := List.exists_cons_of_ne_nil some
  rcases Nat.lt_or_ge (b :: rest).length (sequenceLength b) with short | inside
  · exact ⟨invalid, 1, decodeUTF8_short (Nat.succ_pos _) short, Nat.one_pos, Nat.succ_pos _⟩
  · obtain ⟨ch, decoded⟩ := decodeUTF8_enough inside
    exact ⟨ch, _, decoded _ inside, sequenceLength_pos b, inside⟩

/-! ## Characters that were encoded -/

theorem field_eq (x : CodePoint) (wide : CodePoint) {marker mask : Byte} (apart : marker &&& mask = 0) (same : mask.setWidth 32 = wide) :
    ((marker ||| (x &&& wide).setWidth 8) &&& mask).setWidth 32 = x &&& wide := by
  subst same
  apply BitVec.eq_of_getLsbD_eq
  intro i hi
  have none := congrArg (fun y => y.getLsbD i) apart
  by_cases byte : i < 8
  · simp [byte, hi] at none ⊢
    cases here : mask[i] with
    | false => simp
    | true =>
        cases there : marker[i] with
        | false => simp
        | true => simp [none there] at here
  · simp [BitVec.getLsbD_of_ge mask i (Nat.le_of_not_lt byte)]

variable {x : CodePoint}

theorem bit_of_small {bits i : Nat} (small : x.toNat < 2 ^ bits) (high : bits ≤ i) : x.getLsbD i = false :=
  Nat.testBit_lt_two_pow (small.trans_le (Nat.pow_le_pow_right Nat.two_pos high))

theorem two_fields (small : x.toNat < 2 ^ 11) : (x >>> 6 &&& 0x1f) <<< 6 ||| (x &&& 0x3f) <<< 0 = x := by
  apply BitVec.eq_of_getLsbD_eq
  intro i hi
  have zero (high : 11 ≤ i) : x.getLsbD i = false := bit_of_small small high
  interval_cases i <;> simp at zero ⊢ <;> exact zero

theorem three_fields (small : x.toNat < 2 ^ 16) :
    (x >>> 12 &&& 0x0f) <<< 12 ||| (x >>> 6 &&& 0x3f) <<< 6 ||| (x &&& 0x3f) <<< 0 = x := by
  apply BitVec.eq_of_getLsbD_eq
  intro i hi
  have zero (high : 16 ≤ i) : x.getLsbD i = false := bit_of_small small high
  interval_cases i <;> simp at zero ⊢ <;> exact zero

theorem four_fields (small : x.toNat < 2 ^ 21) :
    (x >>> 18 &&& 0x07) <<< 18 ||| (x >>> 12 &&& 0x3f) <<< 12 ||| (x >>> 6 &&& 0x3f) <<< 6 ||| (x &&& 0x3f) <<< 0 = x := by
  apply BitVec.eq_of_getLsbD_eq
  intro i hi
  have zero (high : 21 ≤ i) : x.getLsbD i = false := bit_of_small small high
  interval_cases i <;> simp at zero ⊢ <;> exact zero

theorem leads (y : Byte) : (¬(0xc0#8 ||| (y &&& 0x1f)) < 0x80 ∧ (0xc0#8 ||| (y &&& 0x1f)) &&& 0xe0 = 0xc0) ∧
    (¬(0xe0#8 ||| (y &&& 0x0f)) < 0x80 ∧ (0xe0#8 ||| (y &&& 0x0f)) &&& 0xe0 ≠ 0xc0 ∧ (0xe0#8 ||| (y &&& 0x0f)) &&& 0xf0 = 0xe0) ∧
    (y &&& 0x07 ≤ 4 → ¬(0xf0#8 ||| (y &&& 0x07)) < 0x80 ∧ (0xf0#8 ||| (y &&& 0x07)) &&& 0xe0 ≠ 0xc0 ∧
      (0xf0#8 ||| (y &&& 0x07)) &&& 0xf0 ≠ 0xe0 ∧ (0xf0#8 ||| (y &&& 0x07)) &&& 0xf8 = 0xf0 ∧ (0xf0#8 ||| (y &&& 0x07)) ≤ 0xf4) := by
  revert y
  decide

def replaced (ch : CodePoint) : CodePoint := if ch ≤ 0x10FFFF then ch else 0xFFFD

theorem encodeUTF8_pos (ch : CodePoint) : 0 < (encodeUTF8 ch).length := by
  simp only [encodeUTF8]
  split_ifs <;> exact Nat.succ_pos _

theorem setWidth_field (x wide : CodePoint) {mask : Byte} (same : wide.setWidth 8 = mask) :
    (x &&& wide).setWidth 8 = x.setWidth 8 &&& mask := by
  rw [BitVec.setWidth_and, same]

theorem toNat_lt {bound : CodePoint} {size : Nat} (le : ch ≤ bound) (size_eq : bound.toNat < size) : ch.toNat < size :=
  (BitVec.le_def.1 le).trans_lt size_eq

theorem decodes_one (one : ch ≤ 0x7F) : decodeUTF8 (ch.setWidth 8 :: rest) length = some (ch, 1) := by
  have small : ch.toNat < 128 := toNat_lt one (by decide)
  have byte : (ch.setWidth 8).toNat = ch.toNat := by
    rw [BitVec.toNat_setWidth, Nat.mod_eq_of_lt (small.trans (by decide))]
  have ascii : ch.setWidth 8 < (0x80 : Byte) := BitVec.lt_def.2 (byte.trans_lt small)
  have back : (ch.setWidth 8).setWidth 32 = ch := by
    apply BitVec.eq_of_toNat_eq
    rw [BitVec.toNat_setWidth, byte, Nat.mod_eq_of_lt ch.isLt]
  rw [decodeUTF8_one ascii, back]

theorem decodes_two (two : ch ≤ 0x07FF) (enough : 2 ≤ length) :
    decodeUTF8 ((0xc0#8 ||| (ch >>> 6 &&& 0x1f).setWidth 8) :: (0x80#8 ||| (ch &&& 0x3f).setWidth 8) :: rest) length = some (ch, 2) := by
  have byte : (ch >>> 6 &&& 0x1f).setWidth 8 = (ch >>> 6).setWidth 8 &&& (0x1f : Byte) := setWidth_field _ _ (by decide)
  obtain ⟨high, lead⟩ := (leads ((ch >>> 6).setWidth 8)).1
  rw [← byte] at high lead
  have first : ((0xc0#8 ||| (ch >>> 6 &&& 0x1f).setWidth 8) &&& 0x1f).setWidth 32 = ch >>> 6 &&& 0x1f := field_eq _ _ (by decide) (by decide)
  have second : ((0x80#8 ||| (ch &&& 0x3f).setWidth 8) &&& 0x3f).setWidth 32 = ch &&& 0x3f := field_eq _ _ (by decide) (by decide)
  rw [decodeUTF8_two high lead, if_neg (Nat.not_lt_of_le enough)]
  simp only [List.getElem?_cons_zero, Option.bind_some, first, second, two_fields (toNat_lt two (by decide))]

theorem decodes_three (three : ch ≤ 0xFFFF) (enough : 3 ≤ length) :
    decodeUTF8 ((0xe0#8 ||| (ch >>> 12 &&& 0x0f).setWidth 8) :: (0x80#8 ||| (ch >>> 6 &&& 0x3f).setWidth 8) ::
      (0x80#8 ||| (ch &&& 0x3f).setWidth 8) :: rest) length = some (ch, 3) := by
  have byte : (ch >>> 12 &&& 0x0f).setWidth 8 = (ch >>> 12).setWidth 8 &&& (0x0f : Byte) := setWidth_field _ _ (by decide)
  obtain ⟨high, two, lead⟩ := (leads ((ch >>> 12).setWidth 8)).2.1
  rw [← byte] at high two lead
  have first : ((0xe0#8 ||| (ch >>> 12 &&& 0x0f).setWidth 8) &&& 0x0f).setWidth 32 = ch >>> 12 &&& 0x0f := field_eq _ _ (by decide) (by decide)
  have second : ((0x80#8 ||| (ch >>> 6 &&& 0x3f).setWidth 8) &&& 0x3f).setWidth 32 = ch >>> 6 &&& 0x3f := field_eq _ _ (by decide) (by decide)
  have third : ((0x80#8 ||| (ch &&& 0x3f).setWidth 8) &&& 0x3f).setWidth 32 = ch &&& 0x3f := field_eq _ _ (by decide) (by decide)
  rw [decodeUTF8_three high two lead, if_neg (Nat.not_lt_of_le enough)]
  simp only [List.getElem?_cons_zero, List.getElem?_cons_succ, Option.bind_some, first, second, third,
    three_fields (toNat_lt three (by decide))]

theorem decodes_four (four : ch ≤ 0x10FFFF) (enough : 4 ≤ length) :
    decodeUTF8 ((0xf0#8 ||| (ch >>> 18 &&& 0x07).setWidth 8) :: (0x80#8 ||| (ch >>> 12 &&& 0x3f).setWidth 8) ::
      (0x80#8 ||| (ch >>> 6 &&& 0x3f).setWidth 8) :: (0x80#8 ||| (ch &&& 0x3f).setWidth 8) :: rest) length = some (ch, 4) := by
  have small : ch.toNat < 0x110000 := toNat_lt four (by decide)
  have byte : (ch >>> 18 &&& 0x07).setWidth 8 = (ch >>> 18).setWidth 8 &&& (0x07 : Byte) := setWidth_field _ _ (by decide)
  have low : (ch >>> 18).setWidth 8 &&& (0x07 : Byte) ≤ 4 := by
    have shifted : ((ch >>> 18).setWidth 8).toNat ≤ 4 := by
      rw [BitVec.toNat_setWidth, BitVec.toNat_ushiftRight, Nat.shiftRight_eq_div_pow]
      omega
    exact BitVec.le_def.2 (Nat.le_trans (by rw [BitVec.toNat_and]; exact Nat.and_le_left) shifted)
  obtain ⟨high, two, three, lead⟩ := (leads ((ch >>> 18).setWidth 8)).2.2 low
  rw [← byte] at high two three lead
  have first : ((0xf0#8 ||| (ch >>> 18 &&& 0x07).setWidth 8) &&& 0x07).setWidth 32 = ch >>> 18 &&& 0x07 := field_eq _ _ (by decide) (by decide)
  have second : ((0x80#8 ||| (ch >>> 12 &&& 0x3f).setWidth 8) &&& 0x3f).setWidth 32 = ch >>> 12 &&& 0x3f := field_eq _ _ (by decide) (by decide)
  have third : ((0x80#8 ||| (ch >>> 6 &&& 0x3f).setWidth 8) &&& 0x3f).setWidth 32 = ch >>> 6 &&& 0x3f := field_eq _ _ (by decide) (by decide)
  have fourth : ((0x80#8 ||| (ch &&& 0x3f).setWidth 8) &&& 0x3f).setWidth 32 = ch &&& 0x3f := field_eq _ _ (by decide) (by decide)
  rw [decodeUTF8_four high two three lead, if_neg (Nat.not_lt_of_le enough)]
  simp only [List.getElem?_cons_zero, List.getElem?_cons_succ, Option.bind_some, first, second, third, fourth,
    four_fields (small.trans (by decide))]

theorem decodeUTF8_encodeUTF8 (ch : CodePoint) (enough : (encodeUTF8 ch).length ≤ length) :
    decodeUTF8 (encodeUTF8 ch ++ rest) length = some (replaced ch, (encodeUTF8 ch).length) := by
  by_cases one : ch ≤ 0x7F
  · have bytes : encodeUTF8 ch = _ := if_pos one
    have kept : replaced ch = ch := if_pos (BitVec.le_trans one (by decide))
    rw [bytes, kept]
    exact decodes_one one
  by_cases two : ch ≤ 0x07FF
  · have bytes : encodeUTF8 ch = _ := (if_neg one).trans (if_pos two)
    have kept : replaced ch = ch := if_pos (BitVec.le_trans two (by decide))
    rw [bytes] at enough ⊢
    rw [kept]
    exact decodes_two two enough
  by_cases three : ch ≤ 0xFFFF
  · have bytes : encodeUTF8 ch = _ := (if_neg one).trans ((if_neg two).trans (if_pos three))
    have kept : replaced ch = ch := if_pos (BitVec.le_trans three (by decide))
    rw [bytes] at enough ⊢
    rw [kept]
    exact decodes_three three enough
  by_cases four : ch ≤ 0x10FFFF
  · have bytes : encodeUTF8 ch = _ := (if_neg one).trans ((if_neg two).trans ((if_neg three).trans (if_pos four)))
    have kept : replaced ch = ch := if_pos four
    rw [bytes] at enough ⊢
    rw [kept]
    exact decodes_four four enough
  · have bytes : encodeUTF8 ch = _ := (if_neg one).trans ((if_neg two).trans ((if_neg three).trans (if_neg four)))
    have kept : replaced ch = 0xFFFD := if_neg four
    rw [bytes] at enough ⊢
    rw [kept]
    exact (decodeUTF8_three (by decide) (by decide) (by decide)).trans (if_neg (Nat.not_lt_of_le enough))

/-! ## Strings -/

theorem decodeFrom_end (stopped : len ≤ pos) : decodeFrom memory len left stop (fuel + 1) pos = some ([], pos) :=
  if_neg (Nat.not_lt_of_le stopped)

theorem decodeFrom_next {advance : Nat} (more : pos < len) (decoded : decodeUTF8 (memory.drop pos) (left pos) = some (ch, advance))
    (goes : stop ch = false) : decodeFrom memory len left stop (fuel + 1) pos =
      (decodeFrom memory len left stop fuel (pos + advance)).map fun r => (ch :: r.1, r.2) := by
  rw [decodeFrom, if_pos more, decoded]
  cases behind : decodeFrom memory len left stop fuel (pos + advance) <;> simp [goes, behind]

theorem decodeFrom_encoded {before : List Byte} {chars : List CodePoint} (goes : ∀ ch ∈ chars, stop (replaced ch) = false)
    (reach : ∀ pos < len, len - pos ≤ left pos) (whole : memory = before ++ chars.flatMap encodeUTF8) (all : len = memory.length)
    (enough : chars.length < fuel) :
    decodeFrom memory len left stop fuel before.length = some (chars.map replaced, len) := by
  induction chars generalizing before fuel with
  | nil =>
      cases fuel with
      | zero => cases enough
      | succ fuel =>
          have same : before.length = len := by simp [all, whole]
          rw [same, decodeFrom_end (Nat.le_refl len), List.map_nil]
  | cons ch chars ih =>
      cases fuel with
      | zero => cases enough
      | succ fuel =>
          have positive := encodeUTF8_pos ch
          have length : len = before.length + (encodeUTF8 ch).length + (chars.flatMap encodeUTF8).length := by
            simp [all, whole, Nat.add_assoc]
          have fits : (encodeUTF8 ch).length ≤ left before.length := by
            have := reach before.length (by omega)
            omega
          have dropped : memory.drop before.length = encodeUTF8 ch ++ chars.flatMap encodeUTF8 := by
            rw [whole, List.drop_left, List.flatMap_cons]
          have decoded : decodeUTF8 (memory.drop before.length) (left before.length) = some (replaced ch, (encodeUTF8 ch).length) := by
            rw [dropped, decodeUTF8_encodeUTF8 ch fits]
          have split : memory = (before ++ encodeUTF8 ch) ++ chars.flatMap encodeUTF8 := by
            rw [whole, List.flatMap_cons, List.append_assoc]
          have behind := ih (fun ch mem => goes ch (List.mem_cons_of_mem _ mem)) split (Nat.lt_of_succ_lt_succ enough)
          rw [List.length_append] at behind
          rw [decodeFrom_next (by omega) decoded (goes ch List.mem_cons_self), behind]
          rfl

theorem length_le_flatMap (chars : List CodePoint) : chars.length ≤ (chars.flatMap encodeUTF8).length := by
  induction chars with
  | nil => exact Nat.le_refl 0
  | cons ch chars ih =>
      have positive := encodeUTF8_pos ch
      simp only [List.flatMap_cons, List.length_append, List.length_cons]
      omega

theorem foldl_encodeAndAppendUTF8 (chars : List CodePoint) : chars.foldl encodeAndAppendUTF8 s = s ++ chars.flatMap encodeUTF8 := by
  induction chars generalizing s with
  | nil => simp
  | cons ch chars ih => simp [ih, encodeAndAppendUTF8]

theorem decodeAll_encoded (chars : List CodePoint) :
    decodeAll (chars.flatMap encodeUTF8) = some (chars.map replaced, (chars.flatMap encodeUTF8).length) := by
  have whole := length_le_flatMap chars
  exact @decodeFrom_encoded _ _ _ _ _ [] chars (fun _ _ => rfl) (fun _ _ => Nat.le_refl _) rfl rfl (Nat.lt_succ_of_le whole)

theorem decodeFrom_inside (inside : pos ≤ s.length) (never : ∀ ch, stop ch = false) (enough : s.length < pos + fuel) :
    ∃ chars, decodeFrom s s.length (fun pos => s.length - pos) stop fuel pos = some (chars, s.length) := by
  induction fuel generalizing pos with
  | zero => omega
  | succ fuel ih =>
      rcases Nat.lt_or_eq_of_le inside with more | last
      · have left_some : s.drop pos ≠ [] := by simpa using more
        obtain ⟨ch, advance, decoded, positive, bound⟩ := decodeUTF8_inside left_some
        rw [List.length_drop] at decoded bound
        have further : pos + advance ≤ s.length := by omega
        obtain ⟨chars, behind⟩ := ih further (by omega)
        exact ⟨ch :: chars, by rw [decodeFrom_next more decoded (never ch), behind]; rfl⟩
      · exact ⟨[], by rw [decodeFrom_end (Nat.le_of_eq last.symm), last]⟩

/-- Code points are read back from the string that they are encoded to, which is then at its end. Every string is
decoded to its end, and at each of its places a byte at least is taken and none behind the end. -/
theorem utf8_roundTrips (chars : List CodePoint) (valid : ∀ ch ∈ chars, ch ≤ 0x10FFFF ∧ ¬(0xD800 ≤ ch ∧ ch ≤ 0xDFFF)) :
    decodeAll (chars.foldl encodeAndAppendUTF8 []) = some (chars, (chars.foldl encodeAndAppendUTF8 []).length) ∧
      ∀ str : List Byte, (∃ chars, decodeAll str = some (chars, str.length)) ∧ ∀ offset < str.length, ∃ ch advance,
        decodeUTF8 (str.drop offset) (str.length - offset) = some (ch, advance) ∧ 0 < advance ∧ offset + advance ≤ str.length := by
  constructor
  · have kept : chars.map replaced = chars :=
      (List.map_congr_left fun ch mem => (if_pos (valid ch mem).1 : replaced ch = ch)).trans (List.map_id' chars)
    rw [foldl_encodeAndAppendUTF8, List.nil_append, decodeAll_encoded, kept]
  · intro str
    refine ⟨decodeFrom_inside (Nat.zero_le _) (fun _ => rfl) (by omega), fun offset inside => ?_⟩
    have left_some : str.drop offset ≠ [] := by simpa using inside
    obtain ⟨ch, advance, decoded, positive, bound⟩ := decodeUTF8_inside left_some
    rw [List.length_drop] at decoded bound
    exact ⟨ch, advance, decoded, positive, by omega⟩

theorem utf8_roundTrips_four : decodeAll (([0x41, 0xE9, 0x20AC, 0x1F3AE] : List CodePoint).foldl encodeAndAppendUTF8 []) =
    some ([0x41, 0xE9, 0x20AC, 0x1F3AE],
      (([0x41, 0xE9, 0x20AC, 0x1F3AE] : List CodePoint).foldl encodeAndAppendUTF8 []).length) := by
  refine (utf8_roundTrips [0x41, 0xE9, 0x20AC, 0x1F3AE] ?_).1
  simp only [List.forall_mem_cons, List.not_mem_nil]
  exact ⟨by decide, by decide, by decide, by decide, nofun⟩

end Pcsx2.Common
