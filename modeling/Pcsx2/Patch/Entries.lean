import Pcsx2.Patch.Text

/-!
# What the lines of a patch file say

A line without its comment and the blanks around it is a header, a command or neither. Blanks in front of a comment are
not trimmed, so a header that has them is not read as one.
-/

namespace Pcsx2.Patch

inductive Entry
  | header (name : String)
  | patch (command : PatchCommand)
  | dpatch (patch : DynamicPatch)
  | other
  deriving DecidableEq

def content (line : Text) : Text := stripWhitespace (cutComment line)

/-- `[name]` -/
def IsHeader (line : Text) : Prop := 2 ≤ line.length ∧ line.head? = some '[' ∧ line.getLast? = some ']'

instance (line : Text) : Decidable (IsHeader line) := inferInstanceAs (Decidable (_ ∧ _ ∧ _))

def commandEntry (line : Text) : Entry :=
  let (key, value) := parseAssignmentString line
  if key = "patch".toList then (parsePatch value).elim .other .patch
  else if key = "dpatch".toList then (parseDpatch value).join.elim .other .dpatch
  else .other

def entry (line : Text) : Entry :=
  if IsHeader (content line) then .header (String.ofList (insideBrackets (content line))) else commandEntry (content line)

def Line.entry : Line → Entry
  | .header name => .header name
  | .patch (some command) => .patch command
  | .dpatch (some entries) => .dpatch entries
  | _ => .other

def HasFields (line : Text) : Prop :=
  (parseAssignmentString (content line)).1 = "dpatch".toList → parseDpatch (parseAssignmentString (content line)).2 ≠ none

instance (line : Text) : Decidable (HasFields line) := inferInstanceAs (Decidable (_ → _))

/-- A header is not followed by blanks and a comment. -/
def Clean (line : Text) : Prop := IsHeader (content line) → trimPatchLine line = content line

instance (line : Text) : Decidable (Clean line) := inferInstanceAs (Decidable (_ → _))

variable {l blanks line : Text} {c : Char}

/-! ## Blanks -/

theorem rdropWhile_cons (p : Char → Bool) (c : Char) (l : Text) :
    (c :: l).rdropWhile p = if l.rdropWhile p = [] then (if p c then [] else [c]) else c :: l.rdropWhile p := by
  induction l using List.reverseRecOn with
  | nil => cases here : p c <;> simp [List.rdropWhile, here]
  | append_singleton l d ih =>
      rw [← List.cons_append, List.rdropWhile_concat, List.rdropWhile_concat]
      cases p d
      · simp
      · simpa using ih

theorem rdropWhile_append (space : ∀ c ∈ blanks, isspace c = true) (l : Text) :
    (l ++ blanks).rdropWhile isspace = l.rdropWhile isspace := by
  induction blanks using List.reverseRecOn with
  | nil => rw [List.append_nil]
  | append_singleton blanks c ih =>
      rw [← List.append_assoc, List.rdropWhile_concat, if_pos (space c (by simp))]
      exact ih fun c member => space c (List.mem_append_left _ member)

theorem exists_blanks (l : Text) : ∃ blanks, (∀ c ∈ blanks, isspace c = true) ∧ l = l.rdropWhile isspace ++ blanks := by
  induction l using List.reverseRecOn with
  | nil => exact ⟨[], by simp, rfl⟩
  | append_singleton l c ih =>
      rw [List.rdropWhile_concat]
      cases space : isspace c with
      | false => exact ⟨[], by simp, by simp⟩
      | true =>
          obtain ⟨blanks, all, split⟩ := ih
          refine ⟨blanks ++ [c], ?_, ?_⟩
          · simp only [List.mem_append, List.mem_singleton]
            rintro d (member | rfl)
            · exact all d member
            · exact space
          · rw [if_pos rfl, ← List.append_assoc, ← split]

theorem stripWhitespace_append (space : ∀ c ∈ blanks, isspace c = true) (l : Text) :
    stripWhitespace (l ++ blanks) = stripWhitespace l := by
  rw [stripWhitespace, stripWhitespace, List.dropWhile_append]
  split
  · rename_i empty
    rw [List.isEmpty_iff] at empty
    rw [empty, List.dropWhile_eq_nil_iff.2 space]
  · exact rdropWhile_append space _

/-! ## Comments -/

theorem not_mark (space : isspace c = true) (l : Text) : commentMark.isPrefixOf (c :: l) = false := by
  have other : '/' ≠ c := by
    rintro rfl
    exact absurd space (by decide)
  simp [commentMark, List.isPrefixOf, other]

theorem cutComment_dropWhile (l : Text) : cutComment (l.dropWhile isspace) = (cutComment l).dropWhile isspace := by
  induction l with
  | nil => rfl
  | cons c l ih =>
      cases space : isspace c with
      | true => rw [List.dropWhile_cons_of_pos space, ih, cutComment, not_mark space, if_neg Bool.false_ne_true,
          List.dropWhile_cons_of_pos space]
      | false =>
          rw [List.dropWhile_cons_of_neg (by simp [space]), cutComment]
          split
          · rfl
          · rw [List.dropWhile_cons_of_neg (by simp [space])]

theorem mark_append (space : ∀ c ∈ blanks, isspace c = true) (c : Char) (l : Text) :
    commentMark.isPrefixOf (c :: (l ++ blanks)) = commentMark.isPrefixOf (c :: l) := by
  cases l with
  | nil =>
      cases blanks with
      | nil => rfl
      | cons d blanks =>
          have other : '/' ≠ d := by
            rintro rfl
            exact absurd (space '/' List.mem_cons_self) (by decide)
          simp [commentMark, List.isPrefixOf, other]
  | cons d l => rfl

theorem cutComment_append (space : ∀ c ∈ blanks, isspace c = true) (l : Text) :
    (cutComment (l ++ blanks)).rdropWhile isspace = (cutComment l).rdropWhile isspace := by
  induction l with
  | nil =>
      have same : cutComment blanks = blanks := by
        induction blanks with
        | nil => rfl
        | cons c blanks ih =>
            rw [cutComment, not_mark (space c List.mem_cons_self), if_neg Bool.false_ne_true,
              ih fun c member => space c (List.mem_cons_of_mem _ member)]
      rw [List.nil_append, same]
      exact rdropWhile_append space []
  | cons c l ih =>
      rw [List.cons_append, cutComment, mark_append space, cutComment]
      split
      · rfl
      · rw [rdropWhile_cons, rdropWhile_cons, ih]

theorem trimPatchLine_eq (line : Text) : trimPatchLine line = cutComment (stripWhitespace line) := by
  simp only [trimPatchLine]
  split
  · cases stripped : stripWhitespace line with
    | nil => rfl
    | cons c l =>
        rename_i mark
        rw [stripped] at mark
        rw [cutComment, cutComment, if_pos mark]
  · rfl

theorem content_eq (line : Text) : content line = (trimPatchLine line).rdropWhile isspace := by
  obtain ⟨blanks, space, split⟩ := exists_blanks (line.dropWhile isspace)
  rw [content, trimPatchLine_eq, stripWhitespace, stripWhitespace, ← cutComment_dropWhile]
  conv_lhs => rw [split]
  exact cutComment_append space _

/-! ## Lines that are read -/

theorem parseAssignmentString_append (space : ∀ c ∈ blanks, isspace c = true) (l : Text) :
    parseAssignmentString (l ++ blanks) = parseAssignmentString l := by
  have absent : '=' ∉ blanks := fun member => absurd (space '=' member) (by decide)
  rw [parseAssignmentString, parseAssignmentString]
  by_cases member : '=' ∈ l
  · have stops : ¬l.takeWhile (· ≠ '=') = l := by
      intro all
      have := List.mem_takeWhile_imp (all ▸ member)
      simp at this
    have goes_on : l.dropWhile (· ≠ '=') ≠ [] := by
      intro none
      rw [List.dropWhile_eq_nil_iff] at none
      simpa using none '=' member
    rw [if_pos (List.mem_append_left _ member), if_pos member, List.dropWhile_append,
      if_neg (by simpa using goes_on), List.tail_append_of_ne_nil goes_on, stripWhitespace_append space]
    congr 2
    rw [List.takeWhile_append, if_neg]
    intro length
    exact stops ((List.takeWhile_prefix _).eq_of_length length)
  · rw [if_neg (by simp [member, absent]), if_neg member]

theorem parseAssignmentString_trim (line : Text) :
    parseAssignmentString (trimPatchLine line) = parseAssignmentString (content line) := by
  obtain ⟨blanks, space, split⟩ := exists_blanks (trimPatchLine line)
  rw [content_eq]
  conv_lhs => rw [split]
  exact parseAssignmentString_append space _

theorem commandEntry_trim (line : Text) : commandEntry (trimPatchLine line) = commandEntry (content line) := by
  rw [commandEntry, commandEntry, parseAssignmentString_trim]

theorem content_of_header (header : IsHeader (trimPatchLine line)) : content line = trimPatchLine line := by
  obtain ⟨-, -, last⟩ := header
  rw [content_eq, List.rdropWhile_eq_self_iff]
  intro some_line
  rw [List.getLast?_eq_getLast_of_ne_nil some_line, Option.some.injEq] at last
  rw [last]
  decide

theorem isHeader_trim (clean : Clean line) : IsHeader (trimPatchLine line) ↔ IsHeader (content line) :=
  ⟨fun header => (content_of_header header).symm ▸ header, fun header => (clean header).symm ▸ header⟩

theorem key_of_bracket (bracket : l.head? = some '[') : (parseAssignmentString l).1 = [] ∨
    (parseAssignmentString l).1.head? = some '[' := by
  cases l with
  | nil => cases bracket
  | cons c l =>
      obtain rfl : c = '[' := Option.some.inj bracket
      rw [parseAssignmentString]
      split
      · right
        have first : ('[' :: l).takeWhile (· ≠ '=') = '[' :: l.takeWhile (· ≠ '=') :=
          List.takeWhile_cons_of_pos (by decide)
        have kept : ('[' :: l.takeWhile (· ≠ '=')).dropWhile isspace = '[' :: l.takeWhile (· ≠ '=') :=
          List.dropWhile_cons_of_neg (by decide)
        show (stripWhitespace _).head? = _
        rw [first, stripWhitespace, kept, rdropWhile_cons]
        split <;> rfl
      · exact .inl rfl

theorem commandEntry_of_bracket (bracket : l.head? = some '[') : commandEntry l = .other := by
  rw [commandEntry]
  rcases key_of_bracket bracket with key | key
  · simp only [key]
    rfl
  · have not_patch : (parseAssignmentString l).1 ≠ "patch".toList := by
      intro same
      rw [same] at key
      exact absurd key (by decide)
    have not_dpatch : (parseAssignmentString l).1 ≠ "dpatch".toList := by
      intro same
      rw [same] at key
      exact absurd key (by decide)
    simp only [not_patch, not_dpatch, if_false]

theorem readCommand_eq_none : readCommand l = none ↔
    (parseAssignmentString l).1 = "dpatch".toList ∧ parseDpatch (parseAssignmentString l).2 = none := by
  simp only [readCommand]
  generalize parseAssignmentString l = assignment
  obtain ⟨key, value⟩ := assignment
  dsimp only
  split_ifs with patch ratio mode dpatch
  · exact ⟨nofun, fun missing => absurd (patch.symm.trans missing.1) (by decide)⟩
  · exact ⟨nofun, fun missing => absurd (ratio.symm.trans missing.1) (by decide)⟩
  · exact ⟨nofun, fun missing => absurd (mode.symm.trans missing.1) (by decide)⟩
  · rw [Option.map_eq_none_iff]
    exact ⟨fun missing => ⟨dpatch, missing⟩, And.right⟩
  · exact ⟨nofun, fun missing => absurd missing.1 dpatch⟩

theorem entry_of_readCommand {read : Line} (reads : readCommand l = some read) : read.entry = commandEntry l := by
  revert reads
  simp only [readCommand, commandEntry]
  generalize parseAssignmentString l = assignment
  obtain ⟨key, value⟩ := assignment
  dsimp only
  by_cases patch : key = "patch".toList
  · rw [if_pos patch, if_pos patch]
    rintro ⟨⟩
    cases parsePatch value <;> rfl
  rw [if_neg patch, if_neg patch]
  by_cases dpatch : key = "dpatch".toList
  · have not_ratio : key ≠ "gsaspectratio".toList := fun ratio => absurd (dpatch.symm.trans ratio) (by decide)
    have not_mode : key ≠ "gsinterlacemode".toList := fun mode => absurd (dpatch.symm.trans mode) (by decide)
    rw [if_neg not_ratio, if_neg not_mode, if_pos dpatch, if_pos dpatch]
    cases parseDpatch value with
    | none => rintro ⟨⟩
    | some parsed =>
        rintro ⟨⟩
        cases parsed <;> rfl
  · rw [if_neg dpatch, if_neg dpatch]
    split_ifs with ratio mode
    · rintro ⟨⟩
      rfl
    · rintro ⟨⟩
      rfl
    · rintro ⟨⟩
      rfl

/-! ## Lines -/

theorem readLine_eq_none : readLine (trimPatchLine line) = none ↔ ¬HasFields line := by
  rw [HasFields, Classical.not_imp, not_not, ← parseAssignmentString_trim, ← readCommand_eq_none, readLine]
  by_cases bracket : (trimPatchLine line).head? = some '['
  · rw [if_pos bracket]
    have not_none : readCommand (trimPatchLine line) ≠ none := by
      intro none
      obtain ⟨key, -⟩ := readCommand_eq_none.1 none
      rcases key_of_bracket bracket with empty | first
      · exact absurd (empty.symm.trans key) (by decide)
      · rw [key] at first
        exact absurd first (by decide)
    simp only [not_none, iff_false]
    split <;> exact Option.some_ne_none _
  · rw [if_neg bracket]

theorem entry_of_readLine (clean : Clean line) {read : Line} (reads : readLine (trimPatchLine line) = some read) :
    read.entry = entry line := by
  rw [readLine] at reads
  by_cases bracket : (trimPatchLine line).head? = some '['
  · rw [if_pos bracket] at reads
    have same := isHeader_trim clean
    by_cases header : IsHeader (content line)
    · obtain ⟨long, -, last⟩ := same.2 header
      rw [if_neg (by rw [not_or, not_not]; exact ⟨Nat.not_lt.2 long, last⟩)] at reads
      rw [entry, if_pos header, ← clean header, ← Option.some.inj reads]
      rfl
    · have malformed : (trimPatchLine line).length < 2 ∨ (trimPatchLine line).getLast? ≠ some ']' := by
        by_contra none
        rw [not_or, not_not] at none
        exact header (same.1 ⟨Nat.le_of_not_lt none.1, bracket, none.2⟩)
      rw [if_pos malformed] at reads
      rw [entry, if_neg header, ← commandEntry_trim, commandEntry_of_bracket bracket, ← Option.some.inj reads]
      rfl
  · rw [if_neg bracket] at reads
    have no_header : ¬IsHeader (content line) := fun header => bracket ((isHeader_trim clean).2 header).2.1
    rw [entry, if_neg no_header, ← commandEntry_trim, entry_of_readCommand reads]

theorem entry_of_empty (empty : trimPatchLine line = []) : entry line = .other := by
  have nothing : content line = [] := by rw [content_eq, empty]; rfl
  rw [entry, nothing]
  rfl

end Pcsx2.Patch
