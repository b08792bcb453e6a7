import Pcsx2.Common.Utf8

/-!
# File names

The overload for views tells the decoder how many bytes are left. The overload in place and `IsValidFileName` tell it
`pos - len`, which wraps around.
-/

namespace Pcsx2.Common

/-- `FileSystemCharacterIsSane`, where neither Windows nor macOS is built for. -/
def fileSystemCharacterIsSane (c : CodePoint) (strip_slashes : Bool) : Bool :=
  if c = 0x2F ∧ strip_slashes then false
  else if c = 0x2A then false
  else true

/-- The character that is appended: `_` for one that is not sane. -/
def sanitize (strip_slashes : Bool) (ch : CodePoint) : CodePoint :=
  if fileSystemCharacterIsSane ch strip_slashes then ch else 0x5F

def appendSanitized (strip_slashes : Bool) (chars : List CodePoint) : List Byte :=
  (chars.map (sanitize strip_slashes)).foldl encodeAndAppendUTF8 []

/-- `SanitizeFileName` for views. -/
def sanitizeFileName (str : List Byte) (strip_slashes : Bool) : Option (List Byte) :=
  (decodeAll str).map fun decoded => appendSanitized strip_slashes decoded.1

/-- `pos - len` as a `size_t`. -/
def wrappedLeft (len pos : Nat) : Nat := (BitVec.ofNat 64 pos - BitVec.ofNat 64 len).toNat

/-- The loop of `SanitizeFileName` in place, over the copy it makes. -/
def sanitizeCopy (str_copy : List Byte) (len : Nat) (strip_slashes : Bool) : Option (List Byte) :=
  (decodeFrom str_copy len (wrappedLeft len) (fun _ => false) (len + 1) 0).map fun decoded =>
    appendSanitized strip_slashes decoded.1

/-- `SanitizeFileName` in place: the terminator is copied with the string. -/
def sanitizeFileNameInPlace (str : List Byte) (strip_slashes : Bool) : Option (List Byte) :=
  sanitizeCopy (str ++ [0]) str.length strip_slashes

def isValidFileName (str : List Byte) (allow_slashes : Bool) : Option Bool :=
  (decodeFrom str str.length (wrappedLeft str.length) (fun ch => !fileSystemCharacterIsSane ch !allow_slashes)
    (str.length + 1) 0).map fun decoded => decoded.1.all fun ch => fileSystemCharacterIsSane ch !allow_slashes

/-- `std::string::max_size`. -/
def maxSize : Nat := 2 ^ 63 - 1

structure Sanitizes (str : List Byte) (strip_slashes : Bool) : Prop where
  same : sanitizeFileNameInPlace str strip_slashes = sanitizeFileName str strip_slashes
  valid : ∀ name, sanitizeFileName str strip_slashes = some name → isValidFileName name (!strip_slashes) = some true
  again : ∀ name, sanitizeFileName str strip_slashes = some name →
    sanitizeFileName name strip_slashes = some name ∧ sanitizeFileNameInPlace name strip_slashes = some name
  inside : sanitizeFileName str strip_slashes ≠ none ∧ sanitizeCopy str str.length strip_slashes ≠ none ∧
    ∀ allow_slashes, isValidFileName str allow_slashes ≠ none

/-- The lead bytes lead to the end of the string: the last sequence is not cut off. -/
inductive Whole : List Byte → Prop
  | nil : Whole []
  | sequence {lead : Byte} {rest : List Byte} (inside : sequenceLength lead ≤ (lead :: rest).length)
      (behind : Whole ((lead :: rest).drop (sequenceLength lead))) : Whole (lead :: rest)

variable {s memory tail str name : List Byte} {lead : Byte} {ch : CodePoint} {length len pos fuel : Nat} {left : Nat → Nat}
  {stop : CodePoint → Bool} {strip_slashes : Bool}

/-! ## Reads -/

theorem getElem?_append_of_some {α : Type} {xs ys : List α} {i : Nat} {a : α} (here : xs[i]? = some a) :
    (xs ++ ys)[i]? = some a := by
  obtain ⟨inside, -⟩ := List.getElem?_eq_some_iff.1 here
  rw [List.getElem?_append_left inside, here]

theorem decodeUTF8_append {result : CodePoint × Nat} (decoded : decodeUTF8 s length = some result) :
    decodeUTF8 (s ++ tail) length = some result := by
  cases s with
  | nil => simp [decodeUTF8] at decoded
  | cons b rest =>
      have kinds := lead_sequenceLength b
      revert kinds
      generalize sequenceLength b = size
      intro kinds
      rw [List.cons_append]
      cases kinds with
      | one ascii => rwa [decodeUTF8_one ascii] at decoded ⊢
      | two high lead =>
          rw [decodeUTF8_two high lead] at decoded ⊢
          split_ifs at decoded ⊢ with short
          · exact decoded
          · obtain ⟨s1, first, decoded⟩ := Option.bind_eq_some_iff.1 decoded
            simpa [getElem?_append_of_some first] using decoded
      | three high two lead =>
          rw [decodeUTF8_three high two lead] at decoded ⊢
          split_ifs at decoded ⊢ with short
          · exact decoded
          · obtain ⟨s1, first, decoded⟩ := Option.bind_eq_some_iff.1 decoded
            obtain ⟨s2, second, decoded⟩ := Option.bind_eq_some_iff.1 decoded
            simpa [getElem?_append_of_some first, getElem?_append_of_some second] using decoded
      | four high two three lead =>
          rw [decodeUTF8_four high two three lead] at decoded ⊢
          split_ifs at decoded ⊢ with short
          · exact decoded
          · obtain ⟨s1, first, decoded⟩ := Option.bind_eq_some_iff.1 decoded
            obtain ⟨s2, second, decoded⟩ := Option.bind_eq_some_iff.1 decoded
            obtain ⟨s3, third, decoded⟩ := Option.bind_eq_some_iff.1 decoded
            simpa [getElem?_append_of_some first, getElem?_append_of_some second, getElem?_append_of_some third] using decoded
      | none high two three four => rwa [decodeUTF8_invalid high two three four] at decoded ⊢

theorem decodeFrom_append {result : List CodePoint × Nat} (inside : len ≤ memory.length)
    (decoded : decodeFrom memory len left stop fuel pos = some result) :
    decodeFrom (memory ++ tail) len left stop fuel pos = some result := by
  induction fuel generalizing pos result with
  | zero => cases decoded
  | succ fuel ih =>
      rw [decodeFrom] at decoded ⊢
      split_ifs at decoded ⊢ with more
      · obtain ⟨⟨ch, advance⟩, first, decoded⟩ := Option.bind_eq_some_iff.1 decoded
        rw [List.drop_append_of_le_length (Nat.le_trans (Nat.le_of_lt more) inside), decodeUTF8_append first]
        simp only [Option.bind_eq_bind, Option.bind_some] at decoded ⊢
        split_ifs at decoded ⊢ with stops
        · exact decoded
        · obtain ⟨⟨rest, behind⟩, further, decoded⟩ := Option.bind_eq_some_iff.1 decoded
          rw [ih further]
          exact decoded
      · exact decoded

theorem decodeFrom_stop (decoded : decodeFrom memory len left (fun _ => false) fuel pos ≠ none) :
    decodeFrom memory len left stop fuel pos ≠ none := by
  induction fuel generalizing pos with
  | zero => exact decoded
  | succ fuel ih =>
      rcases Nat.lt_or_ge pos len with more | stopped
      · cases first : decodeUTF8 (memory.drop pos) (left pos) with
        | none => simp [decodeFrom, more, first] at decoded
        | some step =>
            have further : decodeFrom memory len left (fun _ => false) fuel (pos + step.2) ≠ none := by
              intro out
              rw [decodeFrom_next more first rfl, out] at decoded
              exact decoded rfl
            obtain ⟨result, behind⟩ := Option.ne_none_iff_exists'.1 (ih further)
            by_cases stops : stop step.1 <;> simp [decodeFrom, more, first, stops, behind]
      · simp [decodeFrom_end stopped]

theorem wrappedLeft_eq (more : pos < len) (small : len ≤ maxSize) : wrappedLeft len pos = 2 ^ 64 - (len - pos) := by
  simp only [wrappedLeft, maxSize, BitVec.toNat_sub, BitVec.toNat_ofNat] at *
  rw [Nat.mod_eq_of_lt (by omega : len < 2 ^ 64), Nat.mod_eq_of_lt (by omega : pos < 2 ^ 64)]
  omega

theorem wrappedLeft_reaches (small : len ≤ maxSize) (pos : Nat) (more : pos < len) :
    len - pos ≤ wrappedLeft len pos ∧ 4 ≤ wrappedLeft len pos := by
  rw [wrappedLeft_eq more small]
  simp only [maxSize] at small
  omega

theorem Whole.decodeFrom_eq (whole : Whole (str.drop pos)) (inside : pos ≤ str.length) :
    ∃ chars, ∀ left fuel, (∀ pos < str.length, str.length - pos ≤ left pos) → str.length < pos + fuel →
      decodeFrom str str.length left (fun _ => false) fuel pos = some (chars, str.length) := by
  generalize rest_eq : str.drop pos = rest at whole
  induction whole generalizing pos with
  | nil =>
      have last : pos = str.length := Nat.le_antisymm inside (List.drop_eq_nil_iff.1 rest_eq)
      refine ⟨[], fun left fuel reach enough => ?_⟩
      obtain ⟨fuel, rfl⟩ := Nat.exists_eq_succ_of_ne_zero (by omega : fuel ≠ 0)
      rw [decodeFrom_end (Nat.le_of_eq last.symm), last]
  | @sequence lead rest fits behind ih =>
      have length := congrArg List.length rest_eq
      rw [List.length_drop] at length
      have positive := sequenceLength_pos lead
      obtain ⟨ch, decoded⟩ := decodeUTF8_enough fits
      have rest_drop : str.drop (pos + sequenceLength lead) = (lead :: rest).drop (sequenceLength lead) := by
        rw [← rest_eq, List.drop_drop]
      obtain ⟨chars, further⟩ := ih (by omega) rest_drop
      refine ⟨ch :: chars, fun left fuel reach enough => ?_⟩
      obtain ⟨fuel, rfl⟩ := Nat.exists_eq_succ_of_ne_zero (by omega : fuel ≠ 0)
      have more : pos < str.length := by omega
      have told := reach pos more
      have first : decodeUTF8 (str.drop pos) (left pos) = some (ch, sequenceLength lead) := by
        rw [rest_eq]
        exact decoded _ (by omega)
      rw [decodeFrom_next more first rfl, further left fuel reach (by omega)]
      rfl

theorem Whole.of_inside (long : ∀ pos < str.length, 4 ≤ left pos) (inside : pos ≤ str.length)
    (decoded : decodeFrom str str.length left (fun _ => false) fuel pos ≠ none) : Whole (str.drop pos) := by
  induction fuel generalizing pos with
  | zero => exact absurd rfl decoded
  | succ fuel ih =>
      rcases Nat.lt_or_eq_of_le inside with more | last
      · obtain ⟨lead, rest, rest_eq⟩ := List.exists_cons_of_ne_nil (by simpa using more : str.drop pos ≠ [])
        have length := congrArg List.length rest_eq
        rw [List.length_drop] at length
        rw [rest_eq]
        rcases Nat.lt_or_ge (lead :: rest).length (sequenceLength lead) with cut | fits
        · have out : decodeUTF8 (str.drop pos) (left pos) = none := by
            rw [rest_eq]
            exact decodeUTF8_cut cut (long pos more)
          simp [decodeFrom, more, out] at decoded
        · obtain ⟨ch, first⟩ := decodeUTF8_enough fits
          have small : sequenceLength lead ≤ 4 := by
            simp only [sequenceLength]
            split_ifs <;> decide
          have first : decodeUTF8 (str.drop pos) (left pos) = some (ch, sequenceLength lead) := by
            rw [rest_eq]
            exact first _ (Nat.le_trans small (long pos more))
          have further : decodeFrom str str.length left (fun _ => false) fuel (pos + sequenceLength lead) ≠ none := by
            intro out
            rw [decodeFrom_next more first rfl, out] at decoded
            exact decoded rfl
          have behind := ih (by omega) further
          rw [← List.drop_drop, rest_eq] at behind
          exact .sequence fits behind
      · rw [last, List.drop_length]
        exact .nil

/-! ## Names -/

theorem sanitize_sane (ch : CodePoint) : fileSystemCharacterIsSane (sanitize strip_slashes ch) strip_slashes = true := by
  by_cases sane : fileSystemCharacterIsSane ch strip_slashes = true
  · rwa [sanitize, if_pos sane]
  · rw [sanitize, if_neg sane]
    simp [fileSystemCharacterIsSane]

theorem replaced_sane (sane : fileSystemCharacterIsSane ch strip_slashes = true) :
    fileSystemCharacterIsSane (replaced ch) strip_slashes = true := by
  by_cases last : ch ≤ 0x10FFFF
  · rwa [replaced, if_pos last]
  · rw [replaced, if_neg last]
    simp [fileSystemCharacterIsSane]

theorem encodeUTF8_replaced (ch : CodePoint) : encodeUTF8 (replaced ch) = encodeUTF8 ch := by
  by_cases last : ch ≤ 0x10FFFF
  · rw [replaced, if_pos last]
  · have beyond (bound : CodePoint) (le : bound ≤ 0x10FFFF) : ¬ch ≤ bound := fun small => last (BitVec.le_trans small le)
    rw [replaced, if_neg last]
    simp only [encodeUTF8, if_neg last, if_neg (beyond 0x7F (by decide)), if_neg (beyond 0x07FF (by decide)),
      if_neg (beyond 0xFFFF (by decide))]
    decide

theorem appendSanitized_eq (chars : List CodePoint) :
    appendSanitized strip_slashes chars = (chars.map (sanitize strip_slashes)).flatMap encodeUTF8 := by
  rw [appendSanitized, foldl_encodeAndAppendUTF8, List.nil_append]

theorem decodeFrom_appendSanitized {chars : List CodePoint} (named : appendSanitized strip_slashes chars = name)
    (goes : ∀ ch, fileSystemCharacterIsSane ch strip_slashes = true → stop ch = false)
    (reach : ∀ pos < name.length, name.length - pos ≤ left pos) :
    decodeFrom name name.length left stop (name.length + 1) 0 =
      some ((chars.map (sanitize strip_slashes)).map replaced, name.length) := by
  rw [appendSanitized_eq] at named
  have longer := length_le_flatMap (chars.map (sanitize strip_slashes))
  rw [named] at longer
  have all : name = [] ++ (chars.map (sanitize strip_slashes)).flatMap encodeUTF8 := named.symm
  refine decodeFrom_encoded ?_ reach all rfl (Nat.lt_succ_of_le longer)
  intro ch mem
  obtain ⟨first, -, rfl⟩ := List.mem_map.1 mem
  exact goes _ (replaced_sane (sanitize_sane first))

theorem appendSanitized_again (chars : List CodePoint) :
    appendSanitized strip_slashes ((chars.map (sanitize strip_slashes)).map replaced) = appendSanitized strip_slashes chars := by
  have kept (ch : CodePoint) :
      encodeUTF8 (sanitize strip_slashes (replaced (sanitize strip_slashes ch))) = encodeUTF8 (sanitize strip_slashes ch) := by
    rw [sanitize, if_pos (replaced_sane (sanitize_sane ch)), encodeUTF8_replaced]
  simp only [appendSanitized_eq, List.map_map, List.flatMap_map, Function.comp_apply, kept]

theorem sanitizeFileNameInPlace_eq (inside : sanitizeCopy str str.length strip_slashes = some name) :
    sanitizeFileNameInPlace str strip_slashes = some name := by
  obtain ⟨decoded, scanned, named⟩ := Option.map_eq_some_iff.1 inside
  exact Option.map_eq_some_iff.2 ⟨decoded, decodeFrom_append (Nat.le_refl _) scanned, named⟩

/-- Sanitising is safe and consistent exactly for the strings whose last sequence is not cut off. -/
theorem sanitizes_iff (fits : str.length ≤ maxSize)
    (name_fits : ∀ name, sanitizeFileName str strip_slashes = some name → name.length ≤ maxSize) :
    Sanitizes str strip_slashes ↔ Whole str := by
  constructor
  · intro sanitizes
    have decoded : decodeFrom str str.length (wrappedLeft str.length) (fun _ => false) (str.length + 1) 0 ≠ none := by
      intro out
      exact sanitizes.inside.2.1 (by rw [sanitizeCopy, out]; rfl)
    exact Whole.of_inside (fun pos more => (wrappedLeft_reaches fits pos more).2) (Nat.zero_le _) decoded
  · intro whole
    have whole : Whole (str.drop 0) := whole
    obtain ⟨chars, decoded⟩ := whole.decodeFrom_eq (Nat.zero_le _)
    have all : decodeAll str = some (chars, str.length) := decoded _ _ (fun _ _ => Nat.le_refl _) (by omega)
    have wrapped := decoded (wrappedLeft str.length) (str.length + 1)
      (fun pos more => (wrappedLeft_reaches fits pos more).1) (by omega)
    have view : sanitizeFileName str strip_slashes = some (appendSanitized strip_slashes chars) := by
      rw [sanitizeFileName, all, Option.map_some]
    have copy : sanitizeCopy str str.length strip_slashes = some (appendSanitized strip_slashes chars) := by
      rw [sanitizeCopy, wrapped, Option.map_some]
    generalize named : appendSanitized strip_slashes chars = name at view copy
    have reaches := wrappedLeft_reaches (name_fits name view)
    have reads (stop : CodePoint → Bool) : decodeFrom str str.length (wrappedLeft str.length) stop (str.length + 1) 0 ≠ none :=
      decodeFrom_stop (by rw [wrapped]; nofun)
    constructor
    · rw [view, sanitizeFileNameInPlace_eq copy]
    · intro result same
      obtain rfl : name = result := Option.some_inj.1 (view.symm.trans same)
      rw [isValidFileName, decodeFrom_appendSanitized named (by simp) fun pos more => (reaches pos more).1]
      simp [replaced_sane, sanitize_sane]
    · intro result same
      obtain rfl : name = result := Option.some_inj.1 (view.symm.trans same)
      have scanned (left : Nat → Nat) (reach : ∀ pos < name.length, name.length - pos ≤ left pos) :
          decodeFrom name name.length left (fun _ => false) (name.length + 1) 0 =
            some ((chars.map (sanitize strip_slashes)).map replaced, name.length) :=
        decodeFrom_appendSanitized named (fun _ _ => rfl) reach
      have again : sanitizeCopy name name.length strip_slashes = some name := by
        rw [sanitizeCopy, scanned _ fun pos more => (reaches pos more).1, Option.map_some, appendSanitized_again, named]
      refine ⟨?_, sanitizeFileNameInPlace_eq again⟩
      rw [sanitizeFileName, decodeAll, scanned _ fun _ _ => Nat.le_refl _, Option.map_some, appendSanitized_again, named]
    · refine ⟨by rw [view]; nofun, by rw [copy]; nofun, fun allow_slashes valid => ?_⟩
      exact reads _ (Option.map_eq_none_iff.1 valid)

theorem sanitizes_asterisk : Sanitizes [0x61, 0x2A, 0xC3, 0xA9] true := by
  have whole : Whole [0x61, 0x2A, 0xC3, 0xA9] := .sequence (by decide) (.sequence (by decide) (.sequence (by decide) .nil))
  refine (sanitizes_iff (by decide) ?_).2 whole
  intro name view
  obtain rfl : name = [0x61, 0x5F, 0xC3, 0xA9] := Option.some_inj.1 (view.symm.trans (by decide))
  decide

/-- The terminator is taken for the end of the sequence. -/
theorem truncated_not_sanitizes : sanitizeFileName [0xC3] true = some [0xEF, 0xBF, 0xBD] ∧
    sanitizeFileNameInPlace [0xC3] true = some [0xC3, 0x80] ∧ isValidFileName [0xC3] false = none ∧
    ¬Sanitizes [0xC3] true := by
  have view : sanitizeFileName [0xC3] true = some [0xEF, 0xBF, 0xBD] := by decide
  have copy : sanitizeFileNameInPlace [0xC3] true = some [0xC3, 0x80] := by decide
  refine ⟨view, copy, by decide, fun sanitizes => ?_⟩
  have same := sanitizes.same
  rw [view, copy] at same
  cases same

end Pcsx2.Common
