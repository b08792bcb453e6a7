import Pcsx2.Common.Utf8
import Pcsx2.Foundation.Pieces

/-!
# Paths

Unix paths and what stands behind the scheme of a URI, as bytes.
-/

namespace Pcsx2.Common
open Foundation

/-- `FS_OSPATH_SEPARATOR_CHARACTER` -/
def separator : Byte := 0x2F

def dot : List Byte := [0x2E]

def dotDot : List Byte := [0x2E, 0x2E]

/-- `str.find(pattern)` -/
def find (pattern : List Byte) : List Byte → Option Nat
  | [] => if pattern.isPrefixOf [] then some 0 else none
  | ch :: str => if pattern.isPrefixOf (ch :: str) then some 0 else (find pattern str).map (· + 1)

/-- `://` -/
def schemeMark : List Byte := [0x3A, 0x2F, 0x2F]

def letter (ch : Byte) : Bool := (0x61 ≤ ch ∧ ch ≤ 0x7A) ∨ (0x41 ≤ ch ∧ ch ≤ 0x5A)

def digitOrSign (ch : Byte) : Bool := (0x30 ≤ ch ∧ ch ≤ 0x39) ∨ ch = 0x2B ∨ ch = 0x2D ∨ ch = 0x2E

def schemeCharacters (scheme : List Byte) : Bool :=
  scheme.zipIdx.all fun (ch, i) => letter ch || (0 < i && digitOrSign ch)

def getURISchemeLength (str : List Byte) : Nat :=
  match find schemeMark str with
  | none => 0
  | some pos =>
    if pos < 2 then 0
    else if schemeCharacters (str.take pos) then pos + 3
    else 0

def isAbsolute (path : List Byte) : Bool := path.length ≥ 1 ∧ path[0]? = some separator

/-- The loop of `SplitNativePath`: `part` is what stands between `start` and `pos`, and `first` is `pos == 0`. -/
def splitFrom : List Byte → Bool → List Byte → List (List Byte)
  | [], _, part => if part ≠ [] then [part] else []
  | ch :: path, first, part =>
    if ch ≠ separator then splitFrom path false (part ++ [ch])
    else if part ≠ [] ∨ first then part :: splitFrom path false []
    else splitFrom path false []

def splitNativePath (path : List Byte) : List (List Byte) := splitFrom path true []

def joinNativePath (components : List (List Byte)) : List Byte := [separator].intercalate components

/-- What a component does to `new_components`; `single` where it is the only one. -/
def canonicalizeComponent (single : Bool) (new_components : List (List Byte)) (component : List Byte) : List (List Byte) :=
  if component = dot then
    if single then new_components ++ [component] else new_components
  else if component = dotDot then
    if new_components ≠ [] then new_components.dropLast else new_components ++ [component]
  else new_components ++ [component]

def canonicalizeComponents (components : List (List Byte)) : List (List Byte) :=
  components.foldl (canonicalizeComponent (components.length = 1)) []

def canonicalize (path : List Byte) : List Byte :=
  let scheme_length := getURISchemeLength path
  path.take scheme_length ++ joinNativePath (canonicalizeComponents (splitNativePath (path.drop scheme_length)))

def numSame : List (List Byte) → List (List Byte) → Nat
  | component :: path_components, component' :: relative_components =>
    if component = component' then numSame path_components relative_components + 1 else 0
  | _, _ => 0

def makeRelative (path relative_to : List Byte) : List Byte :=
  let path_components := splitNativePath path
  let relative_components := splitNativePath relative_to
  if isAbsolute path ∧ isAbsolute relative_to then
    let num_same := numSame path_components relative_components
    if num_same > 0 then
      joinNativePath (List.replicate (relative_components.length - num_same) dotDot ++ path_components.drop num_same)
    else joinNativePath path_components
  else joinNativePath path_components

def appendCharacter (state : Bool × List Byte) (ch : Byte) : Bool × List Byte :=
  if ch = separator then
    if state.1 then state else (true, state.2 ++ [separator])
  else (false, state.2 ++ [ch])

def pathAppendString (dst src : List Byte) : List Byte :=
  let scheme_length := if dst = [] then getURISchemeLength src else 0
  let last_separator := if scheme_length > 0 then true else dst.getLast? = some separator
  ((src.drop scheme_length).foldl appendCharacter (last_separator, dst ++ src.take scheme_length)).2

def combine (base next : List Byte) : List Byte :=
  let ret := trim separator (pathAppendString [] base)
  trim separator (pathAppendString (ret ++ [separator]) next)

variable {path rest part str name : List Byte} {names components : List (List Byte)} {first last : Bool} {ch : Byte}

/-! ## Components -/

theorem splitFrom_eq (absent : separator ∉ part) :
    splitFrom rest false part = pieces separator (part ++ rest) := by
  induction rest generalizing part with
  | nil => by_cases empty : part = [] <;> simp [splitFrom, pieces_of_not_mem absent, pieces_nil, empty]
  | cons ch rest ih =>
      by_cases separates : ch = separator
      · subst separates
        have next : splitFrom rest false [] = pieces separator ([] ++ rest) := ih (by simp)
        by_cases empty : part = []
        · subst empty
          simpa [splitFrom, pieces_cons_sep] using next
        · have is : IsPiece separator part := ⟨empty, absent⟩
          simpa [splitFrom, empty, pieces_append, is.pieces] using next
      · have longer : separator ∉ part ++ [ch] := by simp [absent, Ne.symm separates]
        rw [splitFrom, if_pos separates, ih longer, List.append_assoc]
        rfl

theorem splitNativePath_eq (path : List Byte) :
    splitNativePath path = (if isAbsolute path then [[]] else []) ++ pieces separator path := by
  cases path with
  | nil => simp [splitNativePath, splitFrom, isAbsolute, pieces_nil]
  | cons ch path =>
      by_cases separates : ch = separator
      · subst separates
        have behind : splitFrom path false [] = pieces separator ([] ++ path) := splitFrom_eq (by simp)
        simp [splitNativePath, splitFrom, isAbsolute, behind, pieces_cons_sep]
      · have behind : splitFrom path false [ch] = pieces separator ([ch] ++ path) := splitFrom_eq (by simp [Ne.symm separates])
        simp [splitNativePath, splitFrom, isAbsolute, separates, behind]

theorem isAbsolute_slashed (some_names : names ≠ []) : isAbsolute (slashed separator names) = true := by
  rw [slashed_eq names some_names]
  simp [isAbsolute]

theorem pieces_slashed (are : ∀ name ∈ names, IsPiece separator name) : pieces separator (slashed separator names) = names := by
  cases names with
  | nil => exact pieces_nil
  | cons name names => rw [slashed_eq _ (List.cons_ne_nil _ _), pieces_cons_sep, pieces_intercalate are]

theorem isAbsolute_join (are : ∀ name ∈ names, IsPiece separator name) : isAbsolute (joinNativePath names) = false := by
  cases names with
  | nil => rfl
  | cons name names =>
      obtain ⟨some_name, absent⟩ := are name List.mem_cons_self
      obtain ⟨ch, name, rfl⟩ := List.exists_cons_of_ne_nil some_name
      have other : ch ≠ separator := fun same => absent (same ▸ List.mem_cons_self)
      cases names <;> simp [joinNativePath, isAbsolute, other]

/-! ## Schemes -/

theorem find_cons (pattern : List Byte) (ch : Byte) (str : List Byte) :
    find pattern (ch :: str) = if pattern <+: ch :: str then some 0 else (find pattern str).map (· + 1) := by
  simp [find]

theorem find_spec {pattern : List Byte} {pos : Nat} (some_pattern : pattern ≠ []) (found : find pattern str = some pos) :
    pattern <+: str.drop pos ∧ ∀ rest, find pattern (str.take (pos + pattern.length) ++ rest) = some pos := by
  induction str generalizing pos with
  | nil => simp [find, some_pattern] at found
  | cons ch str ih =>
      rw [find_cons] at found
      by_cases here : pattern <+: ch :: str
      · obtain rfl : 0 = pos := by simpa [here] using found
        refine ⟨here, fun rest => ?_⟩
        obtain ⟨first, others, rfl⟩ := List.exists_cons_of_ne_nil some_pattern
        rw [Nat.zero_add, ← List.prefix_iff_eq_take.1 here, List.cons_append, find_cons, ← List.cons_append, if_pos (List.prefix_append _ rest)]
      · rw [if_neg here, Option.map_eq_some_iff] at found
        obtain ⟨pos, further, rfl⟩ := found
        obtain ⟨stands, again⟩ := ih further
        refine ⟨stands, fun rest => ?_⟩
        have length := stands.length_le
        rw [List.length_drop] at length
        have some_length := List.length_pos_iff.2 some_pattern
        have not_here : ¬pattern <+: ch :: (str.take (pos + pattern.length) ++ rest) := by
          intro meets
          have short : pattern <+: ch :: str.take (pos + pattern.length) := by
            refine List.prefix_of_prefix_length_le meets (List.prefix_append (ch :: str.take (pos + pattern.length)) rest) ?_
            rw [List.length_cons, List.length_take]
            omega
          exact here (short.trans (List.cons_prefix_cons.2 ⟨rfl, List.take_prefix _ _⟩))
        have shape : (ch :: str).take (pos + 1 + pattern.length) ++ rest = ch :: (str.take (pos + pattern.length) ++ rest) := by
          rw [Nat.add_right_comm, List.take_succ_cons, List.cons_append]
        rw [shape, find_cons, if_neg not_here, again, Option.map_some]

theorem getURISchemeLength_pos (scheme : 0 < getURISchemeLength str) : ∃ pos, find schemeMark str = some pos ∧ 2 ≤ pos ∧
    schemeCharacters (str.take pos) = true ∧ getURISchemeLength str = pos + 3 := by
  rw [getURISchemeLength] at scheme ⊢
  cases found : find schemeMark str with
  | none => simp [found] at scheme
  | some pos =>
      simp only [found] at scheme
      split_ifs at scheme with short characters
      · exact absurd scheme (Nat.lt_irrefl 0)
      · exact ⟨pos, rfl, Nat.le_of_not_lt short, characters, by simp [short, characters]⟩
      · exact absurd scheme (Nat.lt_irrefl 0)

theorem getURISchemeLength_append (scheme : 0 < getURISchemeLength str) (rest : List Byte) :
    getURISchemeLength (str.take (getURISchemeLength str) ++ rest) = getURISchemeLength str := by
  obtain ⟨pos, found, long, characters, length⟩ := getURISchemeLength_pos scheme
  obtain ⟨stands, again⟩ := find_spec (by decide) found
  have inside := stands.length_le
  have three : schemeMark.length = 3 := rfl
  rw [List.length_drop] at inside
  have same : (str.take (pos + 3) ++ rest).take pos = str.take pos := by
    rw [List.take_append_of_le_length (by rw [List.length_take]; omega), List.take_take, Nat.min_eq_left (by omega)]
  rw [length, getURISchemeLength, ← three, again rest]
  simp [three, same, characters, Nat.not_lt_of_le long]

theorem getURISchemeLength_le (str : List Byte) : getURISchemeLength str ≤ str.length := by
  rcases Nat.eq_zero_or_pos (getURISchemeLength str) with none | scheme
  · rw [none]
    exact Nat.zero_le _
  · obtain ⟨pos, found, -, -, length⟩ := getURISchemeLength_pos scheme
    have inside := (find_spec (by decide) found).1.length_le
    have three : schemeMark.length = 3 := rfl
    rw [List.length_drop] at inside
    omega

theorem getURISchemeLength_of_not_infix (absent : ¬[separator, separator] <:+: str) : getURISchemeLength str = 0 := by
  by_contra scheme
  obtain ⟨pos, found, -⟩ := getURISchemeLength_pos (Nat.pos_of_ne_zero scheme)
  obtain ⟨⟨behind, stands⟩, -⟩ := find_spec (by decide) found
  refine absent ⟨str.take pos ++ [0x3A], behind, ?_⟩
  calc str.take pos ++ [0x3A] ++ [separator, separator] ++ behind
      = str.take pos ++ (schemeMark ++ behind) := by simp [schemeMark, separator]
    _ = str := by rw [stands, List.take_append_drop]

theorem getURISchemeLength_of_isAbsolute (absolute : isAbsolute str = true) : getURISchemeLength str = 0 := by
  by_contra scheme
  obtain ⟨pos, -, long, characters, -⟩ := getURISchemeLength_pos (Nat.pos_of_ne_zero scheme)
  obtain ⟨pos, rfl⟩ := Nat.exists_eq_add_of_le' (Nat.le_trans (Nat.le_succ 1) long)
  cases str with
  | nil => simp [isAbsolute] at absolute
  | cons ch str =>
      obtain rfl : ch = separator := by simpa [isAbsolute] using absolute
      simp [schemeCharacters, letter, separator] at characters

/-! ## Appending -/

theorem foldl_appendCharacter (src : List Byte) (last : Bool) (dst : List Byte) :
    (src.foldl appendCharacter (last, dst)).2 = dst ++ collapse separator last src := by
  induction src generalizing last dst with
  | nil => simp [collapse]
  | cons ch src ih =>
      by_cases separates : ch = separator
      · cases last <;> simp [appendCharacter, collapse, separates, ih]
      · simp [appendCharacter, collapse, separates, ih]

theorem combine_eq (base next : List Byte) :
    combine base next = trim separator (pathAppendString [] base) ++ slashed separator (pieces separator next) := by
  have trimmed : trim separator (trim separator (pathAppendString [] base)) = trim separator (pathAppendString [] base) :=
    List.rdropWhile_idempotent _ _
  rw [combine]
  generalize trim separator (pathAppendString [] base) = ret at trimmed ⊢
  rw [← trim_collapse trimmed next]
  simp [pathAppendString, foldl_appendCharacter]

theorem trim_pathAppendString_of_isAbsolute {base : List Byte} (absolute : isAbsolute base = true) :
    trim separator (pathAppendString [] base) = slashed separator (pieces separator base) := by
  rw [pathAppendString, getURISchemeLength_of_isAbsolute absolute]
  cases base with
  | nil => simp [isAbsolute] at absolute
  | cons ch base =>
      obtain rfl : ch = separator := by simpa [isAbsolute] using absolute
      have appended : trim separator ([] ++ separator :: collapse separator true base) = [] ++ slashed separator (pieces separator base) :=
        trim_collapse (by simp [trim]) base
      simp only [List.nil_append] at appended
      simp only [Nat.not_lt_zero, if_true, if_false, List.drop_zero, foldl_appendCharacter, List.take_zero, List.append_nil,
        List.nil_append]
      simpa [collapse, pieces_cons_sep] using appended

theorem combine_of_isAbsolute {base : List Byte} (absolute : isAbsolute base = true) (next : List Byte) :
    combine base next = slashed separator (pieces separator base ++ pieces separator next) := by
  rw [combine_eq, trim_pathAppendString_of_isAbsolute absolute, slashed, slashed, slashed, List.flatMap_append]

end Pcsx2.Common
