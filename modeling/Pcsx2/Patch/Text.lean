import Mathlib.Algebra.Group.Nat.Defs
import Mathlib.Data.List.DropRight
import Pcsx2.Patch.Lists

/-!
# The text of a patch file

Lines and their fields as `LoadPatchesFromString` reads them. A text is a list of characters; where a field is read that
is not there, there is no result.
-/

namespace Pcsx2.Patch

abbrev Text := List Char

/-! ## Strings -/

def isspace (c : Char) : Bool := c = ' ' ∨ '\t' ≤ c ∧ c ≤ '\r'

def stripWhitespace (str : Text) : Text := (str.dropWhile isspace).rdropWhile isspace

/-- The lines that `std::getline` reads: there is none behind the last line break. -/
def getLines (text : Text) : List Text := (text.splitOn '\n').rdropWhile (· = [])

def commentMark : Text := ['/', '/']

def cutComment : Text → Text
  | [] => []
  | c :: buffer => if commentMark.isPrefixOf (c :: buffer) then [] else c :: cutComment buffer

def trimPatchLine (buffer : Text) : Text :=
  let buffer := stripWhitespace buffer
  let buffer := if commentMark.isPrefixOf buffer then [] else buffer
  cutComment buffer

def parseAssignmentString (str : Text) : Text × Text :=
  if '=' ∈ str then
    (stripWhitespace (str.takeWhile (· ≠ '=')), stripWhitespace (str.dropWhile (· ≠ '=')).tail)
  else ([], [])

def splitString (str : Text) (delimiter : Char) (skip_empty : Bool) : List Text :=
  let parts := str.splitOn delimiter
  let parts := if parts.getLast? = some [] then parts.dropLast else parts
  (parts.map stripWhitespace).filter fun part => !skip_empty || part ≠ []

/-! ## Numbers -/

def digitValue (c : Char) : Option Nat :=
  if '0' ≤ c ∧ c ≤ '9' then some (c.toNat - '0'.toNat)
  else if 'a' ≤ c ∧ c ≤ 'z' then some (c.toNat - 'a'.toNat + 10)
  else if 'A' ≤ c ∧ c ≤ 'Z' then some (c.toNat - 'A'.toNat + 10)
  else none

def digits (base : Nat) : Text → List Nat × Text
  | [] => ([], [])
  | c :: str =>
    match (digitValue c).filter (· < base) with
    | some digit => (digit :: (digits base str).1, (digits base str).2)
    | none => ([], c :: str)

def number (base : Nat) (digits : List Nat) : Nat := digits.foldl (fun n digit => n * base + digit) 0

/-- `FromChars` of an unsigned number of some width, with what stands behind it. -/
def fromChars (width base : Nat) (str : Text) : Option (Nat × Text) :=
  let (digits, rest) := digits base str
  if digits = [] ∨ 2 ^ width ≤ number base digits then none else some (number base digits, rest)

/-- `FromChars<int>` -/
def fromCharsInt (str : Text) : Option Int :=
  match str with
  | '-' :: str =>
    let digits := (digits 10 str).1
    if digits = [] ∨ 2 ^ 31 < number 10 digits then none else some (-(number 10 digits : Int))
  | str => (fromChars 31 10 str).map fun read => (read.1 : Int)

/-- `ss >> n` for an unsigned number of 32 bits; a minus sign negates it. -/
def extractUInt (str : Text) : Option (Nat × Text) :=
  match str.dropWhile isspace with
  | '-' :: str => (fromChars 32 10 str).map fun read => ((2 ^ 32 - read.1) % 2 ^ 32, read.2)
  | '+' :: str => fromChars 32 10 str
  | str => fromChars 32 10 str

/-- `FromChars<u8>` of two characters at a time. An odd one at the end is left out. -/
def decodeHex : Text → Option (List Nat)
  | high :: low :: rest => do
    let byte ← fromChars 8 16 [high, low]
    let data ← decodeHex rest
    return byte.1 :: data
  | _ => some []

/-! ## Commands -/

def s_place_to_string : List (Text × PatchPlaceType) :=
  [("0".toList, .onceOnLoad), ("1".toList, .continuously), ("2".toList, .combined01), ("3".toList, .onLoadOrWhenEnabled)]

def s_cpu_to_string : List (Text × PatchCpuType) := [("EE".toList, .ee), ("IOP".toList, .iop)]

def s_type_to_string : List (Text × PatchDataType) :=
  [("byte".toList, .byte), ("short".toList, .short), ("word".toList, .word), ("double".toList, .double),
    ("extended".toList, .extended), ("beshort".toList, .shortBe), ("beword".toList, .wordBe), ("bedouble".toList, .doubleBe),
    ("bytes".toList, .bytes)]

/-- `LookupEnumName` -/
def lookupEnumName {α : Type} (val : Text) (arr : List (Text × α)) : Option α := arr.lookup val

/-- The data of a command: a number and, for `bytes`, the bytes it counts. -/
def parseData (type : PatchDataType) (piece : Text) : Option (Nat × List Nat) :=
  if type ≠ .bytes then
    match fromChars 64 16 piece with
    | some (data, []) => some (data, [])
    | _ => none
  else
    match decodeHex piece with
    | some [] => none
    | some bytes => some (bytes.length, bytes)
    | none => none

/-- `PatchFunc::patch` -/
def parsePatch (param : Text) : Option PatchCommand :=
  match splitString param ',' false with
  | [place, cpu, addr, type, data] => do
    let placetopatch ← lookupEnumName place s_place_to_string
    let (addr, addr_end) ← fromChars 32 16 addr
    if addr_end ≠ [] then none
    let cpu ← lookupEnumName cpu s_cpu_to_string
    let type ← lookupEnumName type s_type_to_string
    let (data, data_ptr) ← parseData type data
    return { placetopatch, cpu, type, addr, data, data_ptr }
  | _ => none

/-- The loops over the fields of a dynamic patch, with how many entries are left. Fields that are not there are read out
of bounds; a malformed one ends the loop. -/
def parseEntries (pieces : List Text) : Nat → Nat → Option (Option (List DynamicPatchEntry))
  | 0, _ => some (some [])
  | left + 1, i => do
    let offset ← pieces[i]?
    let value ← pieces[i + 1]?
    match fromChars 32 16 offset, fromChars 32 16 value with
    | some (offset, _), some (value, _) => do
      let rest ← parseEntries pieces left (i + 2)
      return rest.map (⟨offset, value⟩ :: ·)
    | _, _ => some none

/-- `PatchFunc::dpatch`. The number of fields is computed in 32 bits. -/
def parseDpatch (param : Text) : Option (Option DynamicPatch) :=
  let pieces := splitString param ',' false
  match pieces with
  | dpatch_type :: num_patterns :: num_replacements :: _ =>
    match fromChars 32 10 dpatch_type, fromChars 32 16 num_patterns, fromChars 32 16 num_replacements with
    | some (0, _), some (num_patterns, _), some (num_replacements, _) =>
      if pieces.length ≠ (num_patterns * 2 + num_replacements * 2 + 3) % 2 ^ 32 then some none
      else do
        let pattern ← parseEntries pieces num_patterns 3
        match pattern with
        | none => some none
        | some pattern => do
          let replacement ← parseEntries pieces num_replacements (3 + num_patterns * 2)
          return replacement.map fun replacement => { pattern, replacement }
    | _, _, _ => some none
  | _ => some none

/-- `PatchFunc::gsaspectratio`: the dividend and the divisor. -/
def parseAspectRatio (param : Text) : Option (Nat × Nat) := do
  let (dividend, rest) ← extractUInt param
  match rest.dropWhile isspace with
  | delimiter :: rest =>
    let (divisor, _) ← extractUInt rest
    if delimiter = ':' ∧ divisor ≠ 0 ∧ 0 < dividend then some (dividend, divisor) else none
  | [] => none

/-- `GSInterlaceMode::Count` -/
def interlaceModes : Nat := 10

/-- `PatchFunc::gsinterlacemode` -/
def parseInterlaceMode (param : Text) : Option Nat :=
  match fromCharsInt param with
  | some mode => if mode < 0 ∨ (interlaceModes : Int) ≤ mode then none else some mode.toNat
  | none => none

/-! ## Lines -/

/-- `LoadPatchLine` with `s_patch_commands` -/
def readCommand (line : Text) : Option Line :=
  let (key, value) := parseAssignmentString line
  if key = "patch".toList then some (.patch (parsePatch value))
  else if key = "gsaspectratio".toList then some (.gsaspectratio (parseAspectRatio value))
  else if key = "gsinterlacemode".toList then some (.gsinterlacemode (parseInterlaceMode value))
  else if key = "dpatch".toList then (parseDpatch value).map .dpatch
  else some .other

/-- `line.substr(1, line.length() - 2)` -/
def insideBrackets (line : Text) : Text := (line.drop 1).take (line.length - 2)

def readLine (line : Text) : Option Line :=
  if line.head? = some '[' then
    if line.length < 2 ∨ line.getLast? ≠ some ']' then some .malformedHeader
    else some (.header (String.ofList (insideBrackets line)))
  else readCommand line

def trimmedLines (text : Text) : List Text := ((getLines text).map trimPatchLine).filter (· ≠ [])

def readFile (text : Text) : Option (List Line) := (trimmedLines text).mapM readLine

/-- `LoadPatchesFromString` on a text. -/
def loadPatchesFromText (patch_list : List PatchGroup) (text : Text) : Option (List PatchGroup) :=
  (readFile text).map (loadPatchesFromString patch_list)

/-! ## What is shown of a file -/

structure PatchInfo where
  name : String := ""
  description : String := ""
  author : String := ""
  place : Option PatchPlaceType := none
  deriving DecidableEq, Repr

/-- The variables of the loop of `ExtractPatchInfo`. -/
structure Extraction where
  dst : List PatchInfo
  num_unlabelled_patches : Nat := 0
  current_patch : PatchInfo := {}
  last_place : Option PatchPlaceType := none
  unknown_place : Bool := false

namespace Extraction

variable (e : Extraction)

def addCurrent : List PatchInfo :=
  if e.current_patch.name ≠ "" ∧ ¬e.dst.any (fun pi => pi.name = e.current_patch.name) then e.dst ++ [e.current_patch] else e.dst

/-- The place of a `patch` line is shown if it is that of the ones before. -/
def readPlace (value : Text) : Extraction :=
  if e.unknown_place then e
  else
    let padded_place := if ',' ∈ value then value.takeWhile (· ≠ ',') else []
    let place := lookupEnumName (stripWhitespace padded_place) s_place_to_string
    if place = none ∨ e.last_place ≠ none ∧ place ≠ e.last_place then
      { e with current_patch.place := none, unknown_place := true }
    else { e with current_patch.place := place, last_place := place }

def extractLine (line : Text) : Extraction :=
  if 2 < line.length ∧ line.head? = some '[' ∧ line.getLast? = some ']' then
    { e with
      dst := e.addCurrent
      current_patch :=
        { (if e.current_patch.name ≠ "" then {} else e.current_patch : PatchInfo) with name := String.ofList (insideBrackets line) }
      last_place := none
      unknown_place := false }
  else
    let (key, value) := parseAssignmentString line
    if key = "author".toList then { e with current_patch.author := String.ofList value }
    else if key = "description".toList then { e with current_patch.description := String.ofList value }
    else if key = "comment".toList ∧ e.current_patch.description = "" then
      { e with current_patch.description := String.ofList value }
    else if key = "patch".toList then
      { e with
        num_unlabelled_patches := e.num_unlabelled_patches + if e.current_patch.name = "" then 1 else 0 }.readPlace value
    else if key = "dpatch".toList then { e with current_patch.place := none, unknown_place := true }
    else e

end Extraction

def extractPatchInfo (dst : List PatchInfo) (pnach_data : Text) : List PatchInfo × Nat :=
  let e := (trimmedLines pnach_data).foldl Extraction.extractLine { dst }
  (e.addCurrent, e.num_unlabelled_patches)

end Pcsx2.Patch
