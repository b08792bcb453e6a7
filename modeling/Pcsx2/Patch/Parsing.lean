import Pcsx2.Foundation.Checked
import Pcsx2.Foundation.Lists
import Pcsx2.Patch.Entries

/-!
# The groups a text prescribes

Each command belongs to the section of the header in front of it. The sections without a name are one group; of the
sections of a name the first with a command is the group.
-/

namespace Pcsx2.Patch
open Foundation

/-! ## Sections -/

structure Section where
  name : String
  patches : List PatchCommand := []
  dpatches : List DynamicPatch := []
  deriving DecidableEq

namespace Section

def Filled (s : Section) : Prop := s.patches ≠ [] ∨ s.dpatches ≠ []

instance (s : Section) : Decidable s.Filled := inferInstanceAs (Decidable (_ ∨ _))

def split (current : Section) : List Entry → List Section
  | [] => [current]
  | .header name :: entries => current :: split { name } entries
  | .patch command :: entries => split { current with patches := current.patches ++ [command] } entries
  | .dpatch patch :: entries => split { current with dpatches := current.dpatches ++ [patch] } entries
  | .other :: entries => split current entries

def named (sections : List Section) (name : String) : List Section := sections.filter fun s => s.name = name

def gather (sections : List Section) (name : String) : Section :=
  if name = "" then
    { name, patches := (named sections name).flatMap patches, dpatches := (named sections name).flatMap dpatches }
  else (named sections name).headD { name }

def names (sections : List Section) : List String := firsts (sections.map name)

end Section

open Section

def entries (text : Text) : List Entry := (getLines text).map entry

def filledSections (text : Text) : List Section := (split { name := "" } (entries text)).filter Filled

def prescribed (text : Text) : List Section := (names (filledSections text)).map (gather (filledSections text))

def Entry.headerName? : Entry → Option String
  | .header name => if name = "" then none else some name
  | _ => none

def headerNames (text : Text) : List String := firsts ((entries text).filterMap Entry.headerName?)

def PatchGroup.section (group : PatchGroup) : Section where
  name := group.name
  patches := group.patches
  dpatches := group.dpatches

/-- What the parsers should make of a text: the groups it prescribes, and a list in which their names are, once and in
that order. -/
structure Parses (text : Text) : Prop where
  loaded : ∃ patch_list, loadPatchesFromText [] text = some patch_list ∧
    patch_list.map PatchGroup.section = prescribed text ∧
    ((patch_list.map PatchGroup.name).filter (· ≠ "")).Sublist ((extractPatchInfo [] text).1.map PatchInfo.name)
  once : ((extractPatchInfo [] text).1.map PatchInfo.name).Nodup

/-- A text that is parsed as it should be. -/
structure Orderly (text : Text) : Prop where
  /-- No dynamic patch is read out of bounds. -/
  fields : ∀ line ∈ getLines text, HasFields line
  /-- Of the sections without a name with a command, only the first has dynamic patches. -/
  merged : ∀ s ∈ (named (filledSections text) "").tail, s.dpatches = []
  /-- The first commands of two names are in the order of their first headers. -/
  ordered : ((names (filledSections text)).filter (· ≠ "")).Pairwise fun a b =>
    (headerNames text).idxOf a < (headerNames text).idxOf b

variable {text : Text} {current : PatchGroup} {patch_list groups : List PatchGroup} {sections : List Section} {name : String}

/-! ## The sections that are read -/

theorem section_loadPatchLine (line : Line) (no_header : ∀ name, line ≠ .header name) (later : List Entry) :
    split current.section (line.entry :: later) = split (current.loadPatchLine line).section later := by
  cases line with
  | header name => exact absurd rfl (no_header name)
  | malformedHeader => rfl
  | patch command => cases command <;> rfl
  | gsaspectratio ratio => cases ratio <;> rfl
  | gsinterlacemode mode => cases mode <;> rfl
  | dpatch patch => cases patch <;> rfl
  | other => rfl

theorem not_filled (idle : ¬current.Started) : ¬current.section.Filled := by
  rw [PatchGroup.Started, not_or] at idle
  exact idle.2

theorem sections_filled (current : PatchGroup) (lines : List Line) :
    ((Patch.sections current lines).map PatchGroup.section).filter Filled =
      (split current.section (lines.map Line.entry)).filter Filled := by
  fun_induction Patch.sections current lines with
  | case1 current started => rfl
  | case2 current idle =>
    symm
    rw [List.map_nil, List.map_nil, List.filter_nil, split, List.filter_cons_of_neg (by simpa using not_filled idle)]
    rfl
  | case3 current name lines started ih =>
    have next : split current.section ((Line.header name :: lines).map Line.entry) =
      current.section :: split (PatchGroup.section { name }) (lines.map Line.entry) := rfl
    rw [next, List.map_cons, List.filter_cons, List.filter_cons, ih]
  | case4 current name lines idle ih =>
    have next : split current.section ((Line.header name :: lines).map Line.entry) =
      current.section :: split (PatchGroup.section { name }) (lines.map Line.entry) := rfl
    have same : ({ current with name } : PatchGroup).section = PatchGroup.section { name } := by
      simp only [PatchGroup.Started, not_or, ne_eq, not_not] at idle
      simp only [PatchGroup.section, idle.2.1, idle.2.2]
    rw [next, List.filter_cons_of_neg (by simpa using not_filled idle), ih, same]
  | case5 current line lines no_header ih => rw [ih, List.map_cons, section_loadPatchLine line no_header]

/-! ## The groups that are loaded -/

def loadedGroup (sections : List Section) (name : String) : Section :=
  if name = "" then
    { name, patches := (named sections name).flatMap patches, dpatches := ((named sections name).headD { name }).dpatches }
  else (named sections name).headD { name }

theorem named_concat (sections : List Section) (s : Section) (name : String) :
    named (sections ++ [s]) name = named sections name ++ if s.name = name then [s] else [] := by
  rw [named, List.filter_append, List.filter_singleton]
  by_cases same : s.name = name <;> simp [named, same]

theorem named_ne_nil (member : name ∈ sections.map Section.name) : named sections name ≠ [] := by
  obtain ⟨s, member, same⟩ := List.mem_map.1 member
  exact List.ne_nil_of_mem (List.mem_filter.2 ⟨member, by simpa using same⟩)

theorem named_eq_nil (absent : name ∉ sections.map Section.name) : named sections name = [] := by
  rw [named, List.filter_eq_nil_iff]
  intro s member same
  exact absent (List.mem_map.2 ⟨s, member, by simpa using same⟩)

theorem loadedGroup_name (sections : List Section) (name : String) : (loadedGroup sections name).name = name := by
  rw [loadedGroup]
  split
  · rfl
  · cases found : named sections name with
    | nil => rfl
    | cons s others =>
        have member : s ∈ named sections name := found ▸ List.mem_cons_self
        simpa using (List.mem_filter.1 member).2

variable {s : Section}

theorem loadedGroup_other (other : s.name ≠ name) : loadedGroup (sections ++ [s]) name = loadedGroup sections name := by
  rw [loadedGroup, loadedGroup, named_concat, if_neg other, List.append_nil]

theorem loadedGroup_new (absent : s.name ∉ sections.map Section.name) : loadedGroup (sections ++ [s]) s.name = s := by
  rw [loadedGroup, named_concat, named_eq_nil absent, if_pos rfl]
  split
  · simp
  · rfl

theorem loadedGroup_again (member : s.name ∈ sections.map Section.name) :
    loadedGroup (sections ++ [s]) s.name =
      if s.name = "" then { loadedGroup sections s.name with patches := (loadedGroup sections s.name).patches ++ s.patches }
      else loadedGroup sections s.name := by
  obtain ⟨first, others, found⟩ := List.exists_cons_of_ne_nil (named_ne_nil member)
  rw [loadedGroup, loadedGroup, named_concat, if_pos rfl, found]
  split
  · simp
  · rfl

theorem map_section_names (loaded : patch_list.map PatchGroup.section = (names sections).map (loadedGroup sections)) :
    patch_list.map PatchGroup.name = names sections := by
  have same := congrArg (List.map Section.name) loaded
  simp only [List.map_map, Function.comp_def, loadedGroup_name, List.map_id'] at same
  exact same

theorem containsPatchName_iff : containsPatchName patch_list name ↔ name ∈ patch_list.map PatchGroup.name := by
  simp only [containsPatchName, List.any_eq_true, beq_iff_eq, List.mem_map]

theorem mergeUngrouped_section (commands : List PatchCommand) {names : List String} {f : String → Section}
    (nodup : names.Nodup) (keeps : ∀ name, (f name).name = name) (loaded : patch_list.map PatchGroup.section = names.map f) :
    (mergeUngrouped commands patch_list).map PatchGroup.section =
      names.map fun name => if name = "" then { f name with patches := (f name).patches ++ commands } else f name := by
  induction patch_list generalizing names with
  | nil =>
    rw [List.map_nil, eq_comm, List.map_eq_nil_iff] at loaded
    rw [loaded]
    rfl
  | cons group patch_list ih =>
    cases names with
    | nil => cases loaded
    | cons name names =>
      rw [List.map_cons, List.map_cons, List.cons.injEq] at loaded
      obtain ⟨first, rest⟩ := loaded
      obtain ⟨absent, nodup'⟩ := List.nodup_cons.1 nodup
      obtain rfl : group.name = name := (congrArg Section.name first).trans (keeps name)
      rw [mergeUngrouped]
      by_cases unnamed : group.name = ""
      · have others : ∀ other ∈ names, other ≠ "" := by
          rintro other member rfl
          exact absent (unnamed ▸ member)
        rw [if_pos unnamed, List.map_cons, List.map_cons, if_pos unnamed, rest, ← first]
        exact congrArg₂ List.cons rfl (List.map_congr_left fun other member => (if_neg (others other member)).symm)
      · rw [if_neg unnamed, List.map_cons, List.map_cons, if_neg unnamed, first, ih nodup' rest]

theorem names_concat (sections : List Section) (s : Section) :
    names (sections ++ [s]) = if s.name ∈ sections.map Section.name then names sections else names sections ++ [s.name] := by
  rw [names, List.map_append, List.map_singleton, firsts_concat]
  rfl

theorem addCurrentPatch_section (loaded : patch_list.map PatchGroup.section = (names sections).map (loadedGroup sections))
    (filled : current.section.Filled) : (addCurrentPatch patch_list current).map PatchGroup.section =
      (names (sections ++ [current.section])).map (loadedGroup (sections ++ [current.section])) := by
  have here : current.section.name = current.name := rfl
  have contains : containsPatchName patch_list current.name ↔ current.name ∈ sections.map Section.name := by
    rw [containsPatchName_iff, map_section_names loaded, names, mem_firsts]
  have some_command : ¬(current.patches = [] ∧ current.dpatches = []) := fun empty =>
    filled.elim (fun some_patch => some_patch empty.1) fun some_patch => some_patch empty.2
  have others (member : current.name ∉ sections.map Section.name) :
      (names sections).map (loadedGroup (sections ++ [current.section])) = (names sections).map (loadedGroup sections) := by
    refine List.map_congr_left fun name named => loadedGroup_other ?_
    rintro rfl
    exact member (mem_firsts.1 named)
  rw [names_concat, here, addCurrentPatch, if_neg some_command]
  by_cases member : current.name ∈ sections.map Section.name
  · rw [if_pos member, if_pos (contains.2 member)]
    have again := loadedGroup_again (s := current.section) member
    rw [here] at again
    split
    · rename_i ungrouped
      obtain ⟨-, unnamed⟩ := ungrouped
      rw [← unnamed, if_pos (contains.2 member), mergeUngrouped_section _ (nodup_firsts _) (loadedGroup_name sections) loaded]
      refine List.map_congr_left fun name _ => ?_
      split
      · rename_i same
        rw [same, ← unnamed, again, if_pos unnamed]
        rfl
      · rename_i other
        exact (loadedGroup_other fun same => other (same.symm.trans unnamed)).symm
    · rename_i grouped
      rw [loaded]
      refine List.map_congr_left fun name _ => ?_
      by_cases same : current.name = name
      · subst same
        rw [again]
        split
        · rename_i unnamed
          have no_patches : current.section.patches = [] := by
            by_contra some_patch
            exact grouped ⟨some_patch, unnamed⟩
          rw [no_patches, List.append_nil]
        · rfl
      · exact (loadedGroup_other same).symm
  · have added : (patch_list ++ [current]).map PatchGroup.section =
        (names sections ++ [current.name]).map (loadedGroup (sections ++ [current.section])) := by
      rw [List.map_append, List.map_append, loaded, others member, List.map_singleton, List.map_singleton, ← here,
        loadedGroup_new member]
    rw [if_neg member, if_neg (mt contains.1 member), added.symm]
    split
    · rename_i ungrouped
      rw [← ungrouped.2, if_neg (mt contains.1 member)]
    · rfl

theorem load_sections (groups : List PatchGroup) : (groups.foldl addCurrentPatch []).map PatchGroup.section =
    (names ((groups.map PatchGroup.section).filter Filled)).map (loadedGroup ((groups.map PatchGroup.section).filter Filled)) := by
  induction groups using List.reverseRecOn with
  | nil => rfl
  | append_singleton groups current ih =>
    rw [List.foldl_append, List.foldl_cons, List.foldl_nil, List.map_append, List.map_singleton, List.filter_append]
    by_cases filled : current.section.Filled
    · rw [List.filter_cons_of_pos (by simpa using filled), List.filter_nil]
      exact addCurrentPatch_section ih filled
    · have empty : current.patches = [] ∧ current.dpatches = [] := by
        rwa [Filled, not_or, not_not, not_not] at filled
      rw [List.filter_cons_of_neg (by simpa using filled), List.filter_nil, List.append_nil, ← ih, addCurrentPatch,
        if_neg fun ungrouped => ungrouped.1 empty.1, if_pos empty]

theorem loadedGroup_eq_iff (sections : List Section) (name : String) :
    loadedGroup sections name = gather sections name ↔ (name = "" → ∀ s ∈ (named sections name).tail, s.dpatches = []) := by
  rw [loadedGroup, gather]
  by_cases unnamed : name = ""
  · simp only [unnamed, if_true, true_imp_iff, Section.mk.injEq, true_and]
    cases named sections "" with
    | nil => simp
    | cons first others => simp [List.flatMap_eq_nil_iff]
  · simp only [unnamed, if_false, false_imp_iff]

/-! ## What is shown -/

def shownName? (line : Text) : Option String :=
  if 2 < line.length ∧ line.head? = some '[' ∧ line.getLast? = some ']' then some (String.ofList (insideBrackets line)) else none

variable {line : Text}

theorem insideBrackets_ne_nil : insideBrackets line ≠ [] ↔ 2 < line.length := by
  rw [← List.length_pos_iff, insideBrackets, List.length_take, List.length_drop]
  omega

theorem ofList_eq_empty {l : Text} : String.ofList l = "" ↔ l = [] := by
  rw [← String.toList_inj, String.toList_ofList]
  rfl

theorem readPlace_names (e : Extraction) (value : Text) :
    (e.readPlace value).dst = e.dst ∧ (e.readPlace value).current_patch.name = e.current_patch.name := by
  simp only [Extraction.readPlace]
  split_ifs <;> exact ⟨rfl, rfl⟩

theorem addCurrent_names (e : Extraction) : e.addCurrent.map PatchInfo.name =
    if e.current_patch.name ≠ "" ∧ e.current_patch.name ∉ e.dst.map PatchInfo.name then
      e.dst.map PatchInfo.name ++ [e.current_patch.name]
    else e.dst.map PatchInfo.name := by
  have listed : e.dst.any (fun pi => pi.name = e.current_patch.name) = true ↔ e.current_patch.name ∈ e.dst.map PatchInfo.name := by
    simp only [List.any_eq_true, decide_eq_true_iff, List.mem_map]
  rw [Extraction.addCurrent, apply_ite (List.map PatchInfo.name), List.map_append, List.map_singleton]
  exact if_congr (and_congr_right' (not_congr listed)) rfl rfl

theorem addCurrent_congr {e e' : Extraction} (same : e'.dst = e.dst) (name : e'.current_patch.name = e.current_patch.name) :
    e'.addCurrent.map PatchInfo.name = e.addCurrent.map PatchInfo.name := by
  rw [addCurrent_names, addCurrent_names, same, name]

theorem extractLine_names (e : Extraction) (line : Text) : (e.extractLine line).addCurrent.map PatchInfo.name =
    match shownName? line with
    | none => e.addCurrent.map PatchInfo.name
    | some name => if name ∈ e.addCurrent.map PatchInfo.name then e.addCurrent.map PatchInfo.name
        else e.addCurrent.map PatchInfo.name ++ [name] := by
  rw [shownName?]
  by_cases header : 2 < line.length ∧ line.head? = some '[' ∧ line.getLast? = some ']'
  · have some_name : String.ofList (insideBrackets line) ≠ "" := mt ofList_eq_empty.1 (insideBrackets_ne_nil.2 header.1)
    rw [if_pos header, Extraction.extractLine, if_pos header, addCurrent_names]
    dsimp only
    by_cases member : String.ofList (insideBrackets line) ∈ e.addCurrent.map PatchInfo.name
    · rw [if_neg fun new => new.2 member, if_pos member]
    · rw [if_pos ⟨some_name, member⟩, if_neg member]
  · rw [if_neg header, Extraction.extractLine, if_neg header]
    generalize e.num_unlabelled_patches + (if e.current_patch.name = "" then 1 else 0) = more
    dsimp only
    split_ifs
    · exact addCurrent_congr rfl rfl
    · exact addCurrent_congr rfl rfl
    · exact addCurrent_congr rfl rfl
    · exact addCurrent_congr (readPlace_names _ _).1 (readPlace_names _ _).2
    · exact addCurrent_congr rfl rfl
    · rfl

theorem extract_names (lines : List Text) :
    (lines.foldl Extraction.extractLine { dst := [] }).addCurrent.map PatchInfo.name = firsts (lines.filterMap shownName?) := by
  induction lines using List.reverseRecOn with
  | nil => rfl
  | append_singleton lines line ih =>
    rw [List.foldl_append, List.foldl_cons, List.foldl_nil, extractLine_names, ih, List.filterMap_append, List.filterMap_cons, List.filterMap_nil]
    cases shownName? line with
    | none => rw [List.append_nil]
    | some name => simp only [firsts_concat, mem_firsts]

theorem shownName_eq (clean : Clean line) : shownName? (trimPatchLine line) = (entry line).headerName? := by
  have long : IsHeader (trimPatchLine line) ↔ IsHeader (content line) := isHeader_trim clean
  rw [shownName?, entry]
  by_cases header : IsHeader (content line)
  · have here := long.2 header
    rw [if_pos header, ← clean header, Entry.headerName?]
    by_cases some_name : 2 < (trimPatchLine line).length
    · rw [if_pos ⟨some_name, here.2⟩, if_neg (mt ofList_eq_empty.1 (insideBrackets_ne_nil.2 some_name))]
    · rw [if_neg fun shown => some_name shown.1, if_pos (ofList_eq_empty.2 (not_not.1 (mt insideBrackets_ne_nil.1 some_name)))]
  · rw [if_neg header, if_neg fun shown => header (long.1 ⟨Nat.le_of_lt shown.1, shown.2⟩), commandEntry]
    generalize parseAssignmentString (content line) = assignment
    dsimp only
    split_ifs
    · cases parsePatch assignment.2 <;> rfl
    · cases (parseDpatch assignment.2).join <;> rfl
    · rfl

/-! ## Texts -/

variable {lines : List Text}

theorem readFile_cons_empty (empty : trimPatchLine line = []) :
    ((line :: lines).map trimPatchLine).filter (· ≠ []) = (lines.map trimPatchLine).filter (· ≠ []) := by
  rw [List.map_cons, List.filter_cons_of_neg (by simp [empty])]

theorem readFile_cons (some_line : trimPatchLine line ≠ []) :
    ((line :: lines).map trimPatchLine).filter (· ≠ []) = trimPatchLine line :: (lines.map trimPatchLine).filter (· ≠ []) := by
  rw [List.map_cons, List.filter_cons_of_pos (by simp [some_line])]

theorem split_read (clean : ∀ line ∈ lines, Clean line) {read : List Line}
    (reads : ((lines.map trimPatchLine).filter (· ≠ [])).mapM readLine = some read) (current : Section) :
    split current (read.map Line.entry) = split current (lines.map entry) := by
  induction lines generalizing read current with
  | nil =>
    obtain rfl := Option.some.inj reads
    rfl
  | cons line lines ih =>
    obtain ⟨clean, others⟩ := List.forall_mem_cons.1 clean
    by_cases empty : trimPatchLine line = []
    · rw [readFile_cons_empty empty] at reads
      rw [List.map_cons, entry_of_empty empty, split]
      exact ih others reads current
    · rw [readFile_cons empty] at reads
      obtain ⟨first, rest, here, behind, rfl⟩ := mapM_cons_some reads
      rw [List.map_cons, List.map_cons, entry_of_readLine clean here]
      cases entry line with
      | header name => exact congrArg (current :: ·) (ih others behind { name })
      | patch command => exact ih others behind _
      | dpatch patch => exact ih others behind _
      | other => exact ih others behind _

theorem readFile_some (fields : ∀ line ∈ getLines text, HasFields line) : ∃ read, readFile text = some read := by
  have each : ∀ line ∈ trimmedLines text, Fine (readLine line) fun _ => True := by
    intro line member
    obtain ⟨raw, rawMember, rfl⟩ := List.mem_map.1 (List.mem_filter.1 member).1
    obtain ⟨read, reads⟩ := Option.ne_none_iff_exists'.1 (mt readLine_eq_none.1 (not_not.2 (fields raw rawMember)))
    exact ⟨read, reads, trivial⟩
  obtain ⟨read, reads, -⟩ := Fine.mapM each
  exact ⟨read, reads⟩

theorem fields_of_readFile {read : List Line} (reads : readFile text = some read) : ∀ line ∈ getLines text, HasFields line := by
  intro line member
  by_contra missing
  have nothing := readLine_eq_none.2 missing
  have some_line : trimPatchLine line ≠ [] := by
    intro empty
    rw [empty] at nothing
    cases nothing
  have kept : trimPatchLine line ∈ trimmedLines text :=
    List.mem_filter.2 ⟨List.mem_map_of_mem member, by simpa using some_line⟩
  obtain ⟨read, reads⟩ := mapM_each reads _ kept
  rw [nothing] at reads
  cases reads

theorem name_of_split {current : Section} {entries : List Entry} (member : s ∈ split current entries)
    (some_name : s.name ≠ "") : s.name = current.name ∨ s.name ∈ entries.filterMap Entry.headerName? := by
  fun_induction split current entries with
  | case1 current => exact .inl (List.mem_singleton.1 member ▸ rfl)
  | case2 current name entries ih =>
    rcases List.mem_cons.1 member with rfl | member
    · exact .inl rfl
    · right
      rcases ih member with same | behind
      · have same : s.name = name := same
        have shown : (Entry.header name).headerName? = some name := if_neg (by rwa [← same])
        rw [List.filterMap_cons_some shown, same]
        exact List.mem_cons_self
      · rw [List.filterMap_cons]
        split
        · exact behind
        · exact List.mem_cons_of_mem _ behind
  | case3 current command entries ih => exact ih member
  | case4 current patch entries ih => exact ih member
  | case5 current entries ih => exact ih member

theorem extractPatchInfo_names (clean : ∀ line ∈ getLines text, Clean line) :
    (extractPatchInfo [] text).1.map PatchInfo.name = headerNames text := by
  have empty : shownName? [] = none := rfl
  have all : (trimmedLines text).filterMap shownName? = ((getLines text).map trimPatchLine).filterMap shownName? := by
    rw [trimmedLines, List.filterMap_filter]
    refine List.filterMap_congr fun line _ => ?_
    by_cases same : line = []
    · simp [same, empty]
    · simp [same]
  show ((trimmedLines text).foldl Extraction.extractLine { dst := [] }).addCurrent.map PatchInfo.name = _
  rw [extract_names, all, headerNames, entries, List.filterMap_map, List.filterMap_map]
  exact congrArg firsts (List.filterMap_congr fun line member => shownName_eq (clean line member))

end Pcsx2.Patch
