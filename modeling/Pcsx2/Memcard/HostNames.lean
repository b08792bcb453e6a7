import Mathlib.Data.List.Forall2
import Pcsx2.Common.Canonical
import Pcsx2.Foundation.Pieces

/-!
# Host names of the folder memory card

How the names on a card become paths below the card's folder. Names are the 32 bytes of the entries. There is no result
where a name has no terminator.
-/

namespace Pcsx2.Memcard
open Foundation Common

def nul : Byte := 0

def underscore : Byte := 0x5F

def illegalChars : List Byte := [0x5C, 0x25, 0x3A, 0x7C, 0x22, 0x3C, 0x3E]

def strlen : List Byte → Option Nat
  | [] => none
  | ch :: name => if ch = nul then some 0 else (strlen name).map (· + 1)

def dotOrSpace (ch : Byte) : Bool := ch = 0x20 ∨ ch = 0x2E

def CleanMemcardFilenameEndDotOrSpace (name : List Byte) (cleaned : Bool) : Nat → List Byte × Bool
  | 0 => (name, cleaned)
  | j + 1 =>
    if name[j]?.any dotOrSpace then CleanMemcardFilenameEndDotOrSpace (name.set j underscore) true j else (name, cleaned)

def cleanIllegal (state : List Byte × Bool) (illegal : Byte) : List Byte × Bool :=
  (state.1.map fun ch => if ch = illegal then underscore else ch, state.2 || state.1.contains illegal)

def CleanMemcardFilename (name : List Byte) : Option (List Byte × Bool) := do
  let filenameLength ← strlen name
  let (front, cleaned) := illegalChars.foldl cleanIllegal (name.take filenameLength, false)
  let (front, endCleaned) := CleanMemcardFilenameEndDotOrSpace front false filenameLength
  some (front ++ name.drop filenameLength, cleaned || endCleaned)

def Mode_File : BitVec 32 := 0x0010
def Mode_Directory : BitVec 32 := 0x0020

structure MemoryCardFileEntry where
  mode : BitVec 32
  name : Vector Byte 32

namespace MemoryCardFileEntry

def IsFile (entry : MemoryCardFileEntry) : Bool := entry.mode &&& Mode_File ≠ 0

def IsDir (entry : MemoryCardFileEntry) : Bool := entry.mode &&& Mode_Directory ≠ 0

end MemoryCardFileEntry

def text (name : List Byte) : List Byte := name.takeWhile (· ≠ nul)

/-- `GetPath` of an entry in a directory, with the directories from the inside out. -/
def GetPath : List MemoryCardFileEntry → List Byte → Option (List Byte × Bool)
  | [], fileName => some (fileName, false)
  | entry :: parents, fileName => do
    let (fileName, parentCleaned) ← GetPath parents fileName
    let (cleanName, localCleaned) ← CleanMemcardFilename entry.name.toList
    some (if entry.IsDir ∨ entry.IsFile then combine fileName (text cleanName) else fileName, parentCleaned || localCleaned)

/-! ## Apart on the host -/

/-- `_pcsx2_` -/
def reservedPrefix : List Byte := [0x5F, 0x70, 0x63, 0x73, 0x78, 0x32, 0x5F]

/-- An entry's host path leads to a place below the card's folder that is none of the bookkeeping's, and never goes above the folder. -/
def LeadsTo (folder : CanonicalPath) (entries : List MemoryCardFileEntry) (spot : List (List Byte)) : Prop :=
  ∃ path, (GetPath entries folder.path).map Prod.fst = some path ∧
    ∃ names, pieces separator path = folder.names ++ names ∧ descend dot dotDot [] names = some spot ∧
      ∀ name ∈ spot, ¬reservedPrefix <+: name

/-- Two entries of a directory have host paths of their own. -/
def HostPaths (folder : CanonicalPath) (parents : List MemoryCardFileEntry) (entry entry' : MemoryCardFileEntry) : Prop :=
  ∃ spot spot', LeadsTo folder (entry :: parents) spot ∧ LeadsTo folder (entry' :: parents) spot' ∧ spot ≠ spot'

/-! ## Alike names -/

structure Mark where
  ch : Byte
  final : Bool
  deriving DecidableEq

def slash : Mark := ⟨separator, false⟩

def marks (name : List Byte) : List Mark :=
  ((text name).rdropWhile dotOrSpace).map (⟨·, false⟩) ++ ((text name).rtakeWhile dotOrSpace).map (⟨·, true⟩)

/-- The characters that no host name can tell from `_`. -/
def Blank (mark : Mark) : Prop := mark.final = true ∨ mark.ch ∈ illegalChars ∨ mark.ch = underscore

instance (mark : Mark) : Decidable (Blank mark) := inferInstanceAs (Decidable (_ ∨ _ ∨ _))

def Alike (mark mark' : Mark) : Prop := mark = mark' ∨ Blank mark ∧ Blank mark'

instance (mark mark' : Mark) : Decidable (Alike mark mark') := inferInstanceAs (Decidable (_ ∨ _ ∧ _))

def plainMarks (chars : List Byte) : List Mark := chars.map (⟨·, false⟩)

def spelled (entries : List MemoryCardFileEntry) : List (List Mark) :=
  (entries.reverse.filter fun entry => entry.IsDir || entry.IsFile).flatMap fun entry => pieces slash (marks entry.name.toList)

/-- The names are terminated, and lead to a place below the card's folder that has no name alike a name of the bookkeeping. -/
def Reaches (entries : List MemoryCardFileEntry) (spot : List (List Mark)) : Prop :=
  (∀ entry ∈ entries, nul ∈ entry.name.toList) ∧ descend (plainMarks dot) (plainMarks dotDot) [] (spelled entries) = some spot ∧
    ∀ name ∈ spot, ¬(name.take reservedPrefix.length).Forall₂ Alike (plainMarks reservedPrefix)

/-- Two entries of a directory lead to places that are not alike. -/
def Separate (parents : List MemoryCardFileEntry) (entry entry' : MemoryCardFileEntry) : Prop :=
  ∃ spot spot', Reaches (entry :: parents) spot ∧ Reaches (entry' :: parents) spot' ∧ ¬spot.Forall₂ (List.Forall₂ Alike) spot'

variable {folder : CanonicalPath} {parents entries : List MemoryCardFileEntry} {entry entry' : MemoryCardFileEntry}
  {name front rest path base next : List Byte} {names : List (List Byte)} {spot spot' : List (List Mark)} {mark mark' : Mark}
  {cleaned : Bool}

/-! ## Cleaned names -/

def clean (mark : Mark) : Byte := if Blank mark then underscore else mark.ch

theorem clean_eq_iff : clean mark = clean mark' ↔ Alike mark mark' := by
  by_cases blank : Blank mark <;> by_cases blank' : Blank mark'
  · simp [clean, Alike, blank, blank']
  · have other : mark ≠ mark' := fun same => blank' (same ▸ blank)
    have not_underscore : underscore ≠ mark'.ch := fun same => blank' (.inr (.inr same.symm))
    simp [clean, Alike, blank, blank', other, not_underscore]
  · have other : mark ≠ mark' := fun same => blank (same ▸ blank')
    have not_underscore : mark.ch ≠ underscore := fun same => blank (.inr (.inr same))
    simp [clean, Alike, blank, blank', other, not_underscore]
  · obtain ⟨ch, final⟩ := mark
    obtain ⟨ch', final'⟩ := mark'
    have not_final : final = false := by simpa using fun is_final => blank (.inl is_final)
    have not_final' : final' = false := by simpa using fun is_final => blank' (.inl is_final)
    subst not_final not_final'
    simp [clean, Alike, blank, blank']

theorem clean_eq_self_iff {ch : Byte} (kept : ¬Blank ⟨ch, false⟩) : clean mark = ch ↔ mark = ⟨ch, false⟩ := by
  have same : clean ⟨ch, false⟩ = ch := if_neg kept
  rw [← same, clean_eq_iff, same]
  exact or_iff_left fun blank => kept blank.2

theorem clean_slash : clean mark = separator ↔ mark = slash := clean_eq_self_iff (by decide)

theorem map_clean_eq_iff {xs ys : List Mark} : xs.map clean = ys.map clean ↔ xs.Forall₂ Alike ys := by
  rw [← List.forall₂_eq_eq_eq, List.forall₂_map_left_iff, List.forall₂_map_right_iff]
  simp only [clean_eq_iff]

theorem map_map_clean_eq_iff : spot.map (List.map clean) = spot'.map (List.map clean) ↔ spot.Forall₂ (List.Forall₂ Alike) spot' := by
  rw [← List.forall₂_eq_eq_eq, List.forall₂_map_left_iff, List.forall₂_map_right_iff]
  simp only [map_clean_eq_iff]

theorem text_of_not_mem (absent : nul ∉ front) (rest : List Byte) : text (front ++ nul :: rest) = front := by
  have goes : ∀ ch ∈ front, decide (ch ≠ nul) = true := fun ch mem => by simpa using fun zero : ch = nul => absent (zero ▸ mem)
  rw [text, List.takeWhile_append_of_pos goes]
  simp

theorem strlen_of_not_mem (absent : nul ∉ front) (rest : List Byte) : strlen (front ++ nul :: rest) = some front.length := by
  induction front with
  | nil => simp [strlen]
  | cons ch front ih =>
      obtain ⟨other, behind⟩ := List.ne_and_not_mem_of_not_mem_cons absent
      simp [strlen, Ne.symm other, ih behind]

theorem strlen_none (absent : nul ∉ name) : strlen name = none := by
  induction name with
  | nil => rfl
  | cons ch name ih =>
      obtain ⟨other, behind⟩ := List.ne_and_not_mem_of_not_mem_cons absent
      simp [strlen, Ne.symm other, ih behind]

theorem foldl_cleanIllegal (illegals : List Byte) (absent : underscore ∉ illegals) (front : List Byte) (cleaned : Bool) :
    (illegals.foldl cleanIllegal (front, cleaned)).1 = front.map fun ch => if ch ∈ illegals then underscore else ch := by
  induction illegals generalizing front cleaned with
  | nil => simp
  | cons illegal illegals ih =>
      obtain ⟨other, behind⟩ := List.ne_and_not_mem_of_not_mem_cons absent
      rw [List.foldl_cons, cleanIllegal, ih behind, List.map_map]
      refine List.map_congr_left fun ch _ => ?_
      by_cases here : ch = illegal <;> simp [here, behind]

theorem cleanMemcardFilenameEndDotOrSpace_eq (front rest : List Byte) (cleaned : Bool) :
    (CleanMemcardFilenameEndDotOrSpace (front ++ rest) cleaned front.length).1 =
      front.rdropWhile dotOrSpace ++ (front.rtakeWhile dotOrSpace).map (fun _ => underscore) ++ rest := by
  induction front using List.reverseRecOn generalizing rest cleaned with
  | nil => rfl
  | append_singleton front ch ih =>
      rw [List.length_append, List.length_singleton, CleanMemcardFilenameEndDotOrSpace]
      by_cases ends : dotOrSpace ch = true
      · have set_eq : (front ++ [ch] ++ rest).set front.length underscore = front ++ underscore :: rest := by simp
        rw [if_pos (by simp [ends]), set_eq, ih]
        simp [ends]
      · simp [ends]

def replaced (ch : Byte) : Byte := if ch ∈ illegalChars then underscore else ch

theorem dotOrSpace_replaced (ch : Byte) : dotOrSpace (replaced ch) = dotOrSpace ch := by
  by_cases illegal : ch ∈ illegalChars
  · rw [replaced, if_pos illegal]
    simp only [illegalChars, List.mem_cons, List.not_mem_nil, or_false] at illegal
    rcases illegal with rfl | rfl | rfl | rfl | rfl | rfl | rfl <;> rfl
  · rw [replaced, if_neg illegal]

theorem clean_final (ch : Byte) : clean ⟨ch, true⟩ = underscore := if_pos (.inl rfl)

theorem clean_not_final (ch : Byte) : clean ⟨ch, false⟩ = replaced ch := by
  by_cases illegal : ch ∈ illegalChars
  · simp [clean, Blank, replaced, illegal]
  · by_cases same : ch = underscore <;> simp [clean, Blank, replaced, illegal, same]

theorem mem_text_of_mem_marks (mem : mark ∈ marks name) : mark.ch ∈ text name := by
  rw [marks, List.mem_append, List.mem_map, List.mem_map] at mem
  obtain ⟨ch, mem, rfl⟩ | ⟨ch, mem, rfl⟩ := mem
  · exact (List.rdropWhile_prefix _ _).subset mem
  · exact (List.rtakeWhile_suffix _ _).subset mem

theorem nul_not_mem_text (name : List Byte) : nul ∉ text name := by
  intro mem
  simpa using List.mem_takeWhile_imp mem

theorem map_clean_marks (name : List Byte) : (marks name).map clean =
    ((text name).map replaced).rdropWhile dotOrSpace ++ (((text name).map replaced).rtakeWhile dotOrSpace).map fun _ => underscore := by
  have same : dotOrSpace ∘ replaced = dotOrSpace := funext dotOrSpace_replaced
  have not_final : (clean ∘ fun ch => (⟨ch, false⟩ : Mark)) = replaced := funext clean_not_final
  have final : (clean ∘ fun ch => (⟨ch, true⟩ : Mark)) = (fun _ => underscore) ∘ replaced := funext clean_final
  simp only [marks, List.rdropWhile, List.rtakeWhile, List.map_append, List.map_map, ← List.map_reverse, List.dropWhile_map,
    List.takeWhile_map, same, not_final, final]

theorem cleanMemcardFilename_eq (terminated : nul ∈ name) : ∃ cleanName cleaned,
    CleanMemcardFilename name = some (cleanName, cleaned) ∧ text cleanName = (marks name).map clean := by
  obtain ⟨front, rest, rfl, absent⟩ := List.eq_append_cons_of_mem terminated
  have text_eq := text_of_not_mem absent rest
  have replacing := foldl_cleanIllegal illegalChars (by decide) front false
  have ending := cleanMemcardFilenameEndDotOrSpace_eq (front.map replaced) [] false
  have cleaned_eq := map_clean_marks (front ++ nul :: rest)
  rw [text_eq] at cleaned_eq
  rw [List.append_nil, List.append_nil, List.length_map, ← cleaned_eq] at ending
  have no_nul : nul ∉ (marks (front ++ nul :: rest)).map clean := by
    intro mem
    obtain ⟨mark, mem, is_nul⟩ := List.mem_map.1 mem
    obtain rfl := (clean_eq_self_iff (by decide)).1 is_nul
    exact nul_not_mem_text _ (mem_text_of_mem_marks mem)
  rw [CleanMemcardFilename, strlen_of_not_mem absent rest]
  simp only [Option.bind_eq_bind, Option.bind_some, List.take_left', List.drop_left']
  refine ⟨_, _, rfl, ?_⟩
  rw [replacing]
  exact (congrArg (fun front => text (front ++ nul :: rest)) ending).trans (text_of_not_mem no_nul rest)

theorem cleanMemcardFilename_none (endless : nul ∉ name) : CleanMemcardFilename name = none := by
  rw [CleanMemcardFilename, strlen_none endless]
  rfl

/-! ## Host paths -/

def Rooted (path : List Byte) : Prop := isAbsolute path = true ∨ path = []

theorem rooted_slashed (names : List (List Byte)) : Rooted (slashed separator names) := by
  cases names with
  | nil => exact .inr rfl
  | cons name names => exact .inl (isAbsolute_slashed (List.cons_ne_nil name names))

theorem Rooted.combine (rooted : Rooted base) (next : List Byte) :
    combine base next = slashed separator (pieces separator base ++ pieces separator next) := by
  rcases rooted with absolute | rfl
  · exact combine_of_isAbsolute absolute next
  · rw [combine_eq, pieces_nil]
    rfl

theorem Rooted.pieces_combine (rooted : Rooted base) (next : List Byte) :
    pieces separator (Common.combine base next) = pieces separator base ++ pieces separator next := by
  rw [rooted.combine]
  refine pieces_slashed fun name mem => ?_
  rcases List.mem_append.1 mem with mem | mem
  · exact isPiece_of_mem mem
  · exact isPiece_of_mem mem

theorem spelled_cons (entry : MemoryCardFileEntry) (parents : List MemoryCardFileEntry) : spelled (entry :: parents) =
    spelled parents ++ if entry.IsDir ∨ entry.IsFile then pieces slash (marks entry.name.toList) else [] := by
  by_cases named : entry.IsDir ∨ entry.IsFile <;> simp [spelled, named]

theorem getPath_eq (rooted : Rooted base) (terminated : ∀ entry ∈ entries, nul ∈ entry.name.toList) :
    ∃ path cleaned, GetPath entries base = some (path, cleaned) ∧ Rooted path ∧
      pieces separator path = pieces separator base ++ (spelled entries).map (List.map clean) := by
  induction entries with
  | nil => exact ⟨base, false, rfl, rooted, (List.append_nil _).symm⟩
  | cons entry parents ih =>
      obtain ⟨here, above⟩ := List.forall_mem_cons.1 terminated
      obtain ⟨path, parentCleaned, path_eq, path_rooted, pieces_eq⟩ := ih above
      obtain ⟨cleanName, localCleaned, name_eq, text_eq⟩ := cleanMemcardFilename_eq here
      rw [GetPath, path_eq, spelled_cons]
      simp only [Option.bind_eq_bind, Option.bind_some, name_eq]
      by_cases named : entry.IsDir ∨ entry.IsFile
      · refine ⟨_, _, rfl, ?_, ?_⟩
        · rw [if_pos named, path_rooted.combine]
          exact rooted_slashed _
        · rw [if_pos named, if_pos named, path_rooted.pieces_combine, pieces_eq, text_eq, pieces_map fun _ => clean_slash, List.map_append,
            List.append_assoc]
      · refine ⟨_, _, rfl, ?_, ?_⟩
        · rwa [if_neg named]
        · rw [if_neg named, if_neg named, List.append_nil, pieces_eq]

theorem terminated_of_getPath {result : List Byte × Bool} (path_eq : GetPath entries base = some result) :
    ∀ entry ∈ entries, nul ∈ entry.name.toList := by
  induction entries generalizing result with
  | nil => simp
  | cons entry parents ih =>
      rw [GetPath] at path_eq
      obtain ⟨above, above_eq, path_eq⟩ := Option.bind_eq_some_iff.1 path_eq
      obtain ⟨name, name_eq, -⟩ := Option.bind_eq_some_iff.1 path_eq
      refine List.forall_mem_cons.2 ⟨?_, ih above_eq⟩
      by_contra endless
      rw [cleanMemcardFilename_none endless] at name_eq
      cases name_eq

/-! ## Places -/

theorem map_clean_eq_plain {chars : List Byte} (kept : ∀ ch ∈ chars, ¬Blank ⟨ch, false⟩) (name : List Mark) :
    name.map clean = chars ↔ name = plainMarks chars := by
  induction chars generalizing name with
  | nil => simp [plainMarks]
  | cons ch chars ih =>
      obtain ⟨here, behind⟩ := List.forall_mem_cons.1 kept
      cases name with
      | nil => simp [plainMarks]
      | cons mark name =>
          have rest := ih behind name
          simp only [plainMarks] at rest
          simp [plainMarks, clean_eq_self_iff here, rest]

theorem reservedPrefix_iff (name : List Mark) :
    reservedPrefix <+: name.map clean ↔ (name.take reservedPrefix.length).Forall₂ Alike (plainMarks reservedPrefix) := by
  have kept : (plainMarks reservedPrefix).map clean = reservedPrefix := by decide
  rw [List.prefix_iff_eq_take, ← List.map_take, ← map_clean_eq_iff, kept, eq_comm]

theorem descend_clean (names : List (List Mark)) : descend dot dotDot [] (names.map (List.map clean)) =
    (descend (plainMarks dot) (plainMarks dotDot) [] names).map (List.map (List.map clean)) := by
  have dot_kept : ∀ ch ∈ dot, ¬Blank ⟨ch, false⟩ := by decide
  have dotDot_kept : ∀ ch ∈ dotDot, ¬Blank ⟨ch, false⟩ := by decide
  exact descend_map (map_clean_eq_plain dot_kept) (map_clean_eq_plain dotDot_kept) [] names

theorem leadsTo_iff {place : List (List Byte)} : LeadsTo folder entries place ↔
    ∃ spot, Reaches entries spot ∧ place = spot.map (List.map clean) := by
  have rooted : Rooted folder.path := .inl folder.isAbsolute_path
  constructor
  · rintro ⟨path, found, names, pieces_path, leads, free⟩
    obtain ⟨result, result_eq, rfl⟩ := Option.map_eq_some_iff.1 found
    have terminated := terminated_of_getPath result_eq
    obtain ⟨path, cleaned, path_eq, -, pieces_eq⟩ := getPath_eq rooted terminated
    obtain rfl := Option.some_inj.1 (result_eq.symm.trans path_eq)
    rw [folder.pieces_path, pieces_path] at pieces_eq
    obtain rfl := List.append_cancel_left pieces_eq
    rw [descend_clean] at leads
    obtain ⟨spot, reached, rfl⟩ := Option.map_eq_some_iff.1 leads
    refine ⟨spot, ⟨terminated, reached, fun name mem => ?_⟩, rfl⟩
    rw [← reservedPrefix_iff]
    exact free _ (List.mem_map_of_mem mem)
  · rintro ⟨spot, ⟨terminated, reached, free⟩, rfl⟩
    obtain ⟨path, cleaned, path_eq, -, pieces_eq⟩ := getPath_eq rooted terminated
    rw [folder.pieces_path] at pieces_eq
    refine ⟨path, by rw [path_eq, Option.map_some], _, pieces_eq, by rw [descend_clean, reached, Option.map_some], ?_⟩
    intro name mem
    obtain ⟨marked, mem_spot, rfl⟩ := List.mem_map.1 mem
    rw [reservedPrefix_iff]
    exact free marked mem_spot

/-- Two entries of a directory have host paths of their own exactly where their names lead to places that are not alike. -/
theorem hostPaths_iff : HostPaths folder parents entry entry' ↔ Separate parents entry entry' := by
  constructor
  · rintro ⟨place, place', leads, leads', other⟩
    obtain ⟨spot, reaches, rfl⟩ := leadsTo_iff.1 leads
    obtain ⟨spot', reaches', rfl⟩ := leadsTo_iff.1 leads'
    exact ⟨spot, spot', reaches, reaches', fun alike => other (map_map_clean_eq_iff.2 alike)⟩
  · rintro ⟨spot, spot', reaches, reaches', other⟩
    exact ⟨_, _, leadsTo_iff.2 ⟨spot, reaches, rfl⟩, leadsTo_iff.2 ⟨spot', reaches', rfl⟩, fun same => other (map_map_clean_eq_iff.1 same)⟩

def fileNamed (name : Vector Byte 32) : MemoryCardFileEntry := ⟨Mode_File, name⟩

/-- `a:` -/
def colonName : Vector Byte 32 := ⟨(0x61 : Byte) :: 0x3A :: List.replicate 30 nul |>.toArray, by decide⟩

/-- `a_` -/
def underscoreName : Vector Byte 32 := ⟨(0x61 : Byte) :: underscore :: List.replicate 30 nul |>.toArray, by decide⟩

/-- `/mc` -/
def exampleFolder : CanonicalPath := ⟨[[0x6D, 0x63]], by
  intro name mem
  rw [List.mem_singleton.1 mem]
  exact ⟨by decide, by decide, by decide⟩⟩

/-- Two names that are cleaned to the same one. -/
theorem same_hostPaths : colonName ≠ underscoreName ∧
    (GetPath [fileNamed colonName] exampleFolder.path).map Prod.fst = (GetPath [fileNamed underscoreName] exampleFolder.path).map Prod.fst ∧
    ¬HostPaths exampleFolder [] (fileNamed colonName) (fileNamed underscoreName) := by
  refine ⟨by decide, by decide, ?_⟩
  rintro ⟨place, place', ⟨path, found, names, pieces_path, leads, -⟩, ⟨path', found', names', pieces_path', leads', -⟩, other⟩
  have same : (GetPath [fileNamed colonName] exampleFolder.path).map Prod.fst =
      (GetPath [fileNamed underscoreName] exampleFolder.path).map Prod.fst := by decide
  obtain rfl := Option.some_inj.1 (found.symm.trans (same.trans found'))
  obtain rfl := List.append_cancel_left (pieces_path.symm.trans pieces_path')
  exact other (Option.some_inj.1 (leads.symm.trans leads'))

end Pcsx2.Memcard
