import Mathlib.Data.List.Basic

/-!
# The groups of a patch file

`LoadPatchesFromString` reads a file line by line, collects the commands under one header in a group and
adds the group to a list when the next header comes. Commands under no header are merged into the list's
group without a name; of the groups of one name the first loaded is kept.
-/

namespace Pcsx2.Patch

/-! ## Commands -/

inductive PatchPlaceType
  | onceOnLoad | continuously | combined01 | onLoadOrWhenEnabled
  deriving DecidableEq, Repr

inductive PatchCpuType
  | ee | iop
  deriving DecidableEq, Repr

inductive PatchDataType
  | byte | short | word | double | extended | shortBe | wordBe | doubleBe | bytes
  deriving DecidableEq, Repr

structure PatchCommand where
  placetopatch : PatchPlaceType
  cpu : PatchCpuType
  type : PatchDataType
  addr : Nat
  data : Nat
  data_ptr : List Nat
  deriving DecidableEq, Repr

structure DynamicPatchEntry where
  offset : Nat
  value : Nat
  deriving DecidableEq, Repr

structure DynamicPatch where
  pattern : List DynamicPatchEntry
  replacement : List DynamicPatchEntry
  deriving DecidableEq, Repr

structure PatchGroup where
  name : String := ""
  override_aspect_ratio : Option (Nat × Nat) := none
  override_interlace_mode : Option Nat := none
  patches : List PatchCommand := []
  dpatches : List DynamicPatch := []
  deriving DecidableEq, Repr

/-- A line of a file that is not empty once it is trimmed. What follows the key of a `patch` or of another
command may be malformed. -/
inductive Line
  | header (name : String)
  | malformedHeader
  | patch (command : Option PatchCommand)
  | gsaspectratio (ratio : Option (Nat × Nat))
  | gsinterlacemode (mode : Option Nat)
  | dpatch (patch : Option DynamicPatch)
  | other
  deriving DecidableEq, Repr

/-! ## Loading -/

def containsPatchName (patch_list : List PatchGroup) (patch_name : String) : Bool :=
  patch_list.any fun patch => patch.name == patch_name

/-- `LoadPatchLine`: the commands of the table. -/
def PatchGroup.loadPatchLine (group : PatchGroup) : Line → PatchGroup
  | .patch (some command) => { group with patches := group.patches ++ [command] }
  | .gsaspectratio (some ratio) => { group with override_aspect_ratio := some ratio }
  | .gsinterlacemode (some mode) => { group with override_interlace_mode := some mode }
  | .dpatch (some patch) => { group with dpatches := group.dpatches ++ [patch] }
  | _ => group

def mergeUngrouped (commands : List PatchCommand) : List PatchGroup → List PatchGroup
  | [] => []
  | group :: patch_list =>
      if group.name = "" then { group with patches := group.patches ++ commands } :: patch_list
      else group :: mergeUngrouped commands patch_list

/-- `add_current_patch` -/
def addCurrentPatch (patch_list : List PatchGroup) (current : PatchGroup) : List PatchGroup :=
  if current.patches ≠ [] ∧ current.name = "" then
    if containsPatchName patch_list "" then mergeUngrouped current.patches patch_list
    else patch_list ++ [current]
  else if current.patches = [] ∧ current.dpatches = [] then patch_list
  else if containsPatchName patch_list current.name then patch_list
  else patch_list ++ [current]

def PatchGroup.Started (group : PatchGroup) : Prop :=
  group.name ≠ "" ∨ group.patches ≠ [] ∨ group.dpatches ≠ []

instance (group : PatchGroup) : Decidable group.Started :=
  inferInstanceAs (Decidable (_ ∨ _))

/-- The loop of `LoadPatchesFromString` over the lines, with the group being read. -/
def loadLines (patch_list : List PatchGroup) (current : PatchGroup) : List Line → List PatchGroup
  | [] => if current.Started then addCurrentPatch patch_list current else patch_list
  | .header name :: lines =>
      if current.Started then loadLines (addCurrentPatch patch_list current) { name } lines
      else loadLines patch_list { current with name } lines
  | line :: lines => loadLines patch_list (current.loadPatchLine line) lines

def loadPatchesFromString (patch_list : List PatchGroup) (patch_file : List Line) : List PatchGroup :=
  loadLines patch_list {} patch_file

/-- The loop of `PatchStringHasUnlabelledPatch` -/
def unlabelledLoop (foundPatch foundLabel : Bool) : List Line → Bool
  | [] => false
  | .header name :: lines =>
      if name = "" then unlabelledLoop foundPatch foundLabel lines
      else if !foundPatch then false
      else unlabelledLoop foundPatch true lines
  | .patch _ :: lines => if !foundLabel then true else unlabelledLoop true foundLabel lines
  | _ :: lines => unlabelledLoop foundPatch foundLabel lines

def patchStringHasUnlabelledPatch (pnach_data : List Line) : Bool :=
  unlabelledLoop false false pnach_data

/-! ## The sections of a file -/

def sections (current : PatchGroup) : List Line → List PatchGroup
  | [] => if current.Started then [current] else []
  | .header name :: lines =>
      if current.Started then current :: sections { name } lines else sections { current with name } lines
  | line :: lines => sections (current.loadPatchLine line) lines

theorem loadLines_eq (patch_list : List PatchGroup) (current : PatchGroup) (lines : List Line) :
    loadLines patch_list current lines = (sections current lines).foldl addCurrentPatch patch_list := by
  fun_induction sections current lines generalizing patch_list with
  | case1 current started => simp only [loadLines, if_pos started, List.foldl_cons, List.foldl_nil]
  | case2 current started => simp only [loadLines, if_neg started, List.foldl_nil]
  | case3 current name lines started ih => simp only [loadLines, if_pos started, List.foldl_cons, ih]
  | case4 current name lines started ih => simp only [loadLines, if_neg started, ih]
  | case5 current line lines no_header ih =>
    cases line with
    | header name => exact absurd rfl (no_header name)
    | _ => exact ih patch_list

theorem loadPatchesFromString_eq (patch_list : List PatchGroup) (patch_file : List Line) :
    loadPatchesFromString patch_list patch_file = (sections {} patch_file).foldl addCurrentPatch patch_list :=
  loadLines_eq patch_list {} patch_file

/-! ## Loading a file again -/

def PatchGroup.Merged (group : PatchGroup) : Prop := group.patches ≠ [] ∧ group.name = ""

instance (group : PatchGroup) : Decidable group.Merged :=
  inferInstanceAs (Decidable (_ ∧ _))

def HasUngrouped (patch_file : List Line) : Prop := ∃ group ∈ sections {} patch_file, group.Merged

instance (patch_file : List Line) : Decidable (HasUngrouped patch_file) :=
  inferInstanceAs (Decidable (∃ group ∈ _, _))

theorem containsPatchName_merge (commands : List PatchCommand) (patch_list : List PatchGroup) (name : String) :
    containsPatchName (mergeUngrouped commands patch_list) name = containsPatchName patch_list name := by
  induction patch_list with
  | nil => rfl
  | cons group patch_list ih =>
    simp only [containsPatchName] at ih
    simp only [mergeUngrouped, containsPatchName]
    split
    · rfl
    · simp only [List.any_cons, ih]

variable {patch_list : List PatchGroup}

theorem containsPatchName_add {name : String}
    (contains : containsPatchName patch_list name) (current : PatchGroup) :
    containsPatchName (addCurrentPatch patch_list current) name := by
  have longer : containsPatchName (patch_list ++ [current]) name := by
    simp only [containsPatchName] at contains
    simp only [containsPatchName, List.any_append, contains, Bool.true_or]
  unfold addCurrentPatch
  split
  · split
    · rwa [containsPatchName_merge]
    · exact longer
  · split
    · exact contains
    · split
      · exact contains
      · exact longer

def Absorbed (patch_list : List PatchGroup) (group : PatchGroup) : Prop :=
  (group.patches = [] ∧ group.dpatches = []) ∨ containsPatchName patch_list group.name

variable {group : PatchGroup}

theorem Absorbed.add (absorbed : Absorbed patch_list group)
    (current : PatchGroup) : Absorbed (addCurrentPatch patch_list current) group :=
  absorbed.imp_right fun contains => containsPatchName_add contains current

theorem Absorbed.load (groups : List PatchGroup)
    (absorbed : Absorbed patch_list group) : Absorbed (groups.foldl addCurrentPatch patch_list) group := by
  induction groups generalizing patch_list with
  | nil => exact absorbed
  | cons current groups ih => exact ih (absorbed.add current)

theorem addCurrentPatch_once (once : ¬ group.Merged) (patch_list : List PatchGroup) :
    addCurrentPatch patch_list group =
      if group.patches = [] ∧ group.dpatches = [] then patch_list
      else if containsPatchName patch_list group.name then patch_list
      else patch_list ++ [group] :=
  if_neg once

theorem absorbed_added (patch_list : List PatchGroup) (once : ¬ group.Merged) :
    Absorbed (addCurrentPatch patch_list group) group := by
  rw [addCurrentPatch_once once]
  split
  · exact .inl ‹_›
  · right
    split
    · assumption
    · simp only [containsPatchName, List.any_append, List.any_cons, beq_self_eq_true, Bool.true_or, Bool.or_true]

theorem add_absorbed (once : ¬ group.Merged)
    (absorbed : Absorbed patch_list group) : addCurrentPatch patch_list group = patch_list := by
  rw [addCurrentPatch_once once]
  rcases absorbed with empty | contains
  · rw [if_pos empty]
  · rw [if_pos contains, ite_self]

theorem absorbed_loaded {groups : List PatchGroup} (once : ∀ group ∈ groups, ¬ group.Merged)
    (patch_list : List PatchGroup) :
    ∀ group ∈ groups, Absorbed (groups.foldl addCurrentPatch patch_list) group := by
  induction groups generalizing patch_list with
  | nil => exact fun group mem => absurd mem List.not_mem_nil
  | cons current groups ih =>
    intro group mem
    obtain ⟨first, rest⟩ := List.forall_mem_cons.mp once
    rcases List.mem_cons.mp mem with rfl | mem
    · exact (absorbed_added patch_list first).load groups
    · exact ih rest _ group mem

theorem load_absorbed {groups : List PatchGroup} (once : ∀ group ∈ groups, ¬ group.Merged)
    (absorbed : ∀ group ∈ groups, Absorbed patch_list group) :
    groups.foldl addCurrentPatch patch_list = patch_list := by
  induction groups with
  | nil => rfl
  | cons current groups ih =>
    obtain ⟨first, rest⟩ := List.forall_mem_cons.mp once
    obtain ⟨now, later⟩ := List.forall_mem_cons.mp absorbed
    rw [List.foldl_cons, add_absorbed first now]
    exact ih rest later

end Pcsx2.Patch

/-!
# The patch lists

`ReloadPatches` fills the three lists of groups from the game database, the patch files and the cheat files;
`UpdateActivePatches` enables groups of them: pointers to their commands go to `s_active_patches`.
-/

namespace Pcsx2.Patch

/-! ## Where patches come from -/

structure GameEntry where
  patches : Nat → Option (List Line)
  dynaPatches : List DynamicPatch

def GameEntry.findPatch (entry : GameEntry) (crc : Nat) : Option (List Line) :=
  if crc = 0 then none
  else match entry.patches crc with
    | some patch => some patch
    | none => entry.patches 0

/-- The settings, the game database and the files at the time of a call. -/
structure Host where
  EnablePatches : Bool
  EnableCheats : Bool
  EnableWideScreenPatches : Bool
  EnableNoInterlacingPatches : Bool
  hardcoreMode : Bool
  enableCheats : List String
  enablePatches : List String
  disablePatches : List String
  findGame : String → Option GameEntry
  /-- The cheat files or the patch files that match. -/
  findFiles : Bool → String → List String
  readFileToString : String → Option (List Line)
  /-- `patches.zip`, where it can be opened -/
  patchesZip : Option (String → Option (List Line))

/-- `{:08X}` -/
def hex8 (n : Nat) : String :=
  let digits := (Nat.toDigits 16 n).map Char.toUpper
  String.ofList (List.replicate (8 - digits.length) '0' ++ digits)

def getPnachTemplate (serial : String) (crc : Nat) (include_serial add_wildcard all_crcs : Bool) : String :=
  if serial ≠ "" ∧ all_crcs then serial ++ "_*.pnach"
  else if serial ≠ "" ∧ include_serial then
    serial ++ "_" ++ hex8 crc ++ (if add_wildcard then "*" else "") ++ ".pnach"
  else hex8 crc ++ (if add_wildcard then "*" else "") ++ ".pnach"

section

variable (host : Host) (serial : String) (crc : Nat) (cheats : Bool)

def findPatchFilesOnDisk (all_crcs : Bool) : List String :=
  host.findFiles cheats (getPnachTemplate serial crc true true all_crcs) ++
    host.findFiles cheats (getPnachTemplate serial crc false true false)

/-- The files are read, and `patches.zip` where none of them has an unlabelled patch. -/
def readPnachFiles (disk_patch_files : List String) : List (List Line) :=
  let contents := disk_patch_files.filterMap host.readFileToString
  if cheats || contents.any patchStringHasUnlabelledPatch then contents
  else match host.patchesZip with
    | none => contents
    | some readFileInZip =>
        contents ++ ((readFileInZip (getPnachTemplate serial crc true false false)).or
          (readFileInZip (getPnachTemplate serial crc false false false))).toList

/-- What `EnumeratePnachFiles` passes on, in order. -/
def enumeratePnachFiles (for_ui : Bool) : List (List Line) :=
  readPnachFiles host serial crc cheats
    (if for_ui || !host.hardcoreMode then findPatchFilesOnDisk host serial crc cheats for_ui else [])

end

/-! ## The state -/

inductive ListName
  | gamedb | game | cheat
  deriving DecidableEq, Repr

structure PatchList where
  groups : List PatchGroup := []
  allocation : Nat := 0
  deriving DecidableEq, Repr

def PatchList.reload (patch_list : PatchList) (texts : List (List Line)) : PatchList :=
  { groups := texts.foldl loadPatchesFromString [], allocation := patch_list.allocation + 1 }

def PatchList.free (patch_list : PatchList) : PatchList :=
  { groups := [], allocation := patch_list.allocation + 1 }

structure CommandPointer where
  list : ListName
  allocation : Nat
  group : Nat
  command : Nat
  deriving DecidableEq, Repr

structure Patches where
  s_gamedb_patches : PatchList := {}
  s_game_patches : PatchList := {}
  s_cheat_patches : PatchList := {}
  s_gamedb_counts : Nat := 0
  s_patches_counts : Nat := 0
  s_cheats_counts : Nat := 0
  /-- A null pointer starts a group. -/
  s_active_patches : List (Option CommandPointer) := []
  s_active_gamedb_dynamic_patches : List DynamicPatch := []
  s_active_pnach_dynamic_patches : List DynamicPatch := []
  s_enabled_cheats : List String := []
  s_enabled_patches : List String := []
  s_just_enabled_cheats : List String := []
  s_just_enabled_patches : List String := []
  s_patches_crc : Nat := 0
  s_override_aspect_ratio : Option (Nat × Nat) := none
  s_override_interlace_mode : Option Nat := none

namespace Patches

def list (s : Patches) : ListName → PatchList
  | .gamedb => s.s_gamedb_patches
  | .game => s.s_game_patches
  | .cheat => s.s_cheat_patches

def command? (s : Patches) (pointer : CommandPointer) : Option PatchCommand :=
  if pointer.allocation = (s.list pointer.list).allocation then
    (s.list pointer.list).groups[pointer.group]?.bind fun group => group.patches[pointer.command]?
  else none

/-! ## Enabling -/

/-- `auto enable anything that's not labelled` -/
def Enabled (enable_list : List String) (p : PatchGroup) : Prop := p.name = "" ∨ p.name ∈ enable_list

instance (enable_list : List String) (p : PatchGroup) : Decidable (Enabled enable_list p) :=
  inferInstanceAs (Decidable (_ ∨ _))

/-- The body of the loop of `EnablePatches` -/
def enableGroup (name : ListName) (allocation index : Nat) (p : PatchGroup) (s : Patches) : Patches :=
  { s with
    s_active_patches := s.s_active_patches ++
      none :: (List.range p.patches.length).map fun command => some ⟨name, allocation, index, command⟩
    s_active_pnach_dynamic_patches := s.s_active_pnach_dynamic_patches ++ p.dpatches
    s_override_aspect_ratio := p.override_aspect_ratio.or s.s_override_aspect_ratio
    s_override_interlace_mode := p.override_interlace_mode.or s.s_override_interlace_mode }

def enableLoop (name : ListName) (allocation : Nat) (enable_list : List String) (index : Nat) :
    List PatchGroup → Patches → Nat → Patches × Nat
  | [], s, count => (s, count)
  | p :: patches, s, count =>
      if Enabled enable_list p then
        enableLoop name allocation enable_list (index + 1) patches (s.enableGroup name allocation index p)
          (count + if p.name = "" then p.patches.length + p.dpatches.length else 1)
      else enableLoop name allocation enable_list (index + 1) patches s count

def enablePatches (s : Patches) (name : ListName) (enable_list : List String) : Patches × Nat :=
  enableLoop name (s.list name).allocation enable_list 0 (s.list name).groups s 0

def WS_PATCH_NAME : String := "Widescreen 16:9"
def NI_PATCH_NAME : String := "No-Interlacing"

def enableByName (enable : Bool) (name : String) (enabled : List String) : List String :=
  if enable && !enabled.contains name then enabled ++ [name] else enabled

def reloadEnabledLists (host : Host) (s : Patches) : Patches :=
  let s_enabled_cheats := if host.EnableCheats && !host.hardcoreMode then host.enableCheats else []
  let s_enabled_patches :=
    (enableByName host.EnableNoInterlacingPatches NI_PATCH_NAME
      (enableByName host.EnableWideScreenPatches WS_PATCH_NAME host.enablePatches)).filter
      fun it => !host.disablePatches.contains it
  { s with
    s_enabled_cheats, s_enabled_patches
    s_just_enabled_cheats := s_enabled_cheats.filter fun p => !s.s_enabled_cheats.contains p
    s_just_enabled_patches := s_enabled_patches.filter fun p => !s.s_enabled_patches.contains p }

/-! ## The calls -/

/-- What `UpdateActivePatches` clears. -/
def clearActive (s : Patches) : Patches :=
  { s with
    s_active_patches := []
    s_override_aspect_ratio := none
    s_override_interlace_mode := none
    s_active_pnach_dynamic_patches := [] }

def enableGamedb (host : Host) (s : Patches) : Patches :=
  if host.EnablePatches then
    let (s, gp_count) := s.enablePatches .gamedb []
    { s with s_gamedb_counts := gp_count }
  else s

def enableGame (s : Patches) : Patches :=
  let (s, p_count) := s.enablePatches .game s.s_enabled_patches
  { s with s_patches_counts := p_count }

def enableCheat (host : Host) (s : Patches) : Patches :=
  if host.EnableCheats then
    let (s, c_count) := s.enablePatches .cheat s.s_enabled_cheats
    { s with s_cheats_counts := c_count }
  else { s with s_cheats_counts := 0 }

def updateActivePatches (host : Host) (reload_enabled_list : Bool) (s : Patches) : Patches :=
  let s := if reload_enabled_list then s.reloadEnabledLists host else s
  (((s.clearActive).enableGamedb host).enableGame).enableCheat host

def loadDynamicPatches (patches : List DynamicPatch) (s : Patches) : Patches :=
  { s with s_active_gamedb_dynamic_patches := s.s_active_gamedb_dynamic_patches ++ patches }

def reloadGamedb (host : Host) (serial : String) (crc : Nat) (s : Patches) : Patches :=
  match host.findGame serial with
  | none => { s with s_gamedb_patches := s.s_gamedb_patches.reload [] }
  | some game =>
      loadDynamicPatches game.dynaPatches
        { s with s_gamedb_patches := s.s_gamedb_patches.reload (game.findPatch crc).toList }

/-- The branch of `ReloadPatches` that loads the files. -/
def reloadFiles (host : Host) (serial : String) (crc : Nat) (s : Patches) : Patches :=
  let s := s.reloadGamedb host serial crc
  { s with
    s_game_patches := s.s_game_patches.reload (enumeratePnachFiles host serial crc false false)
    s_cheat_patches := s.s_cheat_patches.reload (enumeratePnachFiles host serial crc true false) }

def reloadPatches (host : Host) (serial : String) (crc : Nat) (reload_files reload_enabled_list : Bool)
    (s : Patches) : Patches :=
  let reload_files := reload_files || s.s_patches_crc != crc
  let s := { s with s_patches_crc := crc }
  let s := if reload_files then s.reloadFiles host serial crc else s
  s.updateActivePatches host reload_enabled_list

def unloadPatches (s : Patches) : Patches :=
  { s with
    s_override_interlace_mode := none
    s_override_aspect_ratio := none
    s_patches_crc := 0
    s_active_patches := []
    s_active_pnach_dynamic_patches := []
    s_active_gamedb_dynamic_patches := []
    s_enabled_patches := []
    s_enabled_cheats := []
    s_cheat_patches := s.s_cheat_patches.free
    s_game_patches := s.s_game_patches.free
    s_gamedb_patches := s.s_gamedb_patches.free }

end Patches

end Pcsx2.Patch
