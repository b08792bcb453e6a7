import Mathlib.Data.List.Nodup
import Pcsx2.Foundation.Run
import Pcsx2.Patch.Lists

/-!
# Active patches are those of the current game

`ReloadPatches` does not clear the dynamic patches of the game database, so those of the game before stay
active, and those of the same game are there twice. A game without a serial has its files found under both
names, and their unlabelled commands are loaded twice. Elsewhere the active patches are exactly those of the
files and the lists of enabled names.
-/

namespace Pcsx2.Patch
open Foundation

/-! ## Runs -/

inductive Call
  | reloadPatches (host : Host) (serial : String) (crc : Nat) (reload_files reload_enabled_list : Bool)
  | updateActivePatches (host : Host) (reload_enabled_list : Bool)
  | unloadPatches

/-- A game whose files were loaded. -/
structure Game where
  host : Host
  serial : String
  crc : Nat

structure Session where
  patches : Patches := {}
  reloaded : Option Game := none

def Patches.Reloads (s : Patches) (crc : Nat) (reload_files : Bool) : Prop :=
  reload_files = true ∨ s.s_patches_crc ≠ crc

instance (s : Patches) (crc : Nat) (reload_files : Bool) : Decidable (s.Reloads crc reload_files) :=
  inferInstanceAs (Decidable (_ ∨ _))

def Session.call (s : Session) : Call → Session
  | .reloadPatches host serial crc reload_files reload_enabled_list =>
      { patches := s.patches.reloadPatches host serial crc reload_files reload_enabled_list
        reloaded := if s.patches.Reloads crc reload_files then some ⟨host, serial, crc⟩ else none }
  | .updateActivePatches host reload_enabled_list =>
      { patches := s.patches.updateActivePatches host reload_enabled_list, reloaded := none }
  | .unloadPatches => { patches := s.patches.unloadPatches, reloaded := none }

/-! ## What is wanted -/

def wantedCommands (enable_list : List String) (groups : List PatchGroup) : List (Option PatchCommand) :=
  (groups.filter (Patches.Enabled enable_list)).flatMap fun group => none :: group.patches.map some

def wantedDynamics (enable_list : List String) (groups : List PatchGroup) : List DynamicPatch :=
  (groups.filter (Patches.Enabled enable_list)).flatMap (·.dpatches)

def Host.enabled {α : Type} (host : Host) (taken : ListName → List String → List α)
    (enabled_patches enabled_cheats : List String) : List α :=
  (if host.EnablePatches then taken .gamedb [] else []) ++ taken .game enabled_patches ++
    if host.EnableCheats then taken .cheat enabled_cheats else []

namespace Game

variable (game : Game)

def diskFiles (cheats : Bool) : List String :=
  let withSerial := game.host.findFiles cheats (getPnachTemplate game.serial game.crc true true false)
  withSerial ++ (game.host.findFiles cheats (getPnachTemplate game.serial game.crc false true false)).filter
    fun file => file ∉ withSerial

def texts : ListName → List (List Line)
  | .gamedb => ((game.host.findGame game.serial).bind (·.findPatch game.crc)).toList
  | .game => readPnachFiles game.host game.serial game.crc false
      (if game.host.hardcoreMode then [] else game.diskFiles false)
  | .cheat => readPnachFiles game.host game.serial game.crc true
      (if game.host.hardcoreMode then [] else game.diskFiles true)

def groups (name : ListName) : List PatchGroup := (game.texts name).foldl loadPatchesFromString []

def dynaPatches : List DynamicPatch :=
  match game.host.findGame game.serial with
  | none => []
  | some entry => entry.dynaPatches

end Game

namespace Patches

inductive Active (s : Patches) : Option CommandPointer → Option PatchCommand → Prop
  | start : Active s none none
  | command {pointer command} (points : s.command? pointer = some command) : Active s (some pointer) (some command)

/-- Every pointer points into the list it was taken from. -/
def Valid (s : Patches) : Prop := ∃ commands, List.Forall₂ s.Active s.s_active_patches commands

structure Current (s : Patches) (game : Game) : Prop where
  commands : List.Forall₂ s.Active s.s_active_patches
    (game.host.enabled (fun name enable_list => wantedCommands enable_list (game.groups name))
      s.s_enabled_patches s.s_enabled_cheats)
  once : (s.s_active_patches.filterMap id).Nodup
  pnach : s.s_active_pnach_dynamic_patches =
    game.host.enabled (fun name enable_list => wantedDynamics enable_list (game.groups name))
      s.s_enabled_patches s.s_enabled_cheats
  gamedb : s.s_active_gamedb_dynamic_patches = game.dynaPatches

/-- No dynamic patches of the game database are left from before, and no file with unlabelled commands is
found twice. -/
structure Clear (s : Patches) (game : Game) : Prop where
  gamedb : s.s_active_gamedb_dynamic_patches = []
  files : ∀ cheats, (cheats = true → game.host.EnableCheats = true) → game.host.hardcoreMode = false →
    ∀ file ∈ game.host.findFiles cheats (getPnachTemplate game.serial game.crc true true false),
      file ∈ game.host.findFiles cheats (getPnachTemplate game.serial game.crc false true false) →
        ∀ contents, game.host.readFileToString file = some contents → ¬ HasUngrouped contents

end Patches

def Session.Clear (s : Session) : Call → Prop
  | .reloadPatches host serial crc reload_files _ =>
      s.patches.Reloads crc reload_files → s.patches.Clear ⟨host, serial, crc⟩
  | _ => True

def Calls (s t : Session) : Prop := ∃ call, s.call call = t

def ClearCalls (s t : Session) : Prop := ∃ call, s.Clear call ∧ s.call call = t

/-- After a call that reloads files the active patches are those of its game. -/
def Session.Safe (s : Session) : Prop :=
  s.patches.Valid ∧ ∀ game, s.reloaded = some game → s.patches.Current game

/-! ## What is enabled -/

variable {s t : Patches}

namespace Patches

section

variable (name : ListName) (allocation : Nat) (enable_list : List String)

/-- The pointers to the enabled groups, of which the first is number `index`. -/
def pointers (index : Nat) : List PatchGroup → List (Option CommandPointer)
  | [] => []
  | p :: patches =>
      if Enabled enable_list p then
        (none :: (List.range p.patches.length).map fun command => some ⟨name, allocation, index, command⟩) ++
          pointers (index + 1) patches
      else pointers (index + 1) patches

theorem wantedCommands_cons (p : PatchGroup) (patches : List PatchGroup) :
    wantedCommands enable_list (p :: patches) =
      if Enabled enable_list p then (none :: p.patches.map some) ++ wantedCommands enable_list patches
      else wantedCommands enable_list patches := by
  unfold wantedCommands
  by_cases enabled : Enabled enable_list p
  · rw [List.filter_cons_of_pos (by simpa using enabled), List.flatMap_cons, if_pos enabled]
  · rw [List.filter_cons_of_neg (by simpa using enabled), if_neg enabled]

theorem wantedDynamics_cons (p : PatchGroup) (patches : List PatchGroup) :
    wantedDynamics enable_list (p :: patches) =
      if Enabled enable_list p then p.dpatches ++ wantedDynamics enable_list patches
      else wantedDynamics enable_list patches := by
  unfold wantedDynamics
  by_cases enabled : Enabled enable_list p
  · rw [List.filter_cons_of_pos (by simpa using enabled), List.flatMap_cons, if_pos enabled]
  · rw [List.filter_cons_of_neg (by simpa using enabled), if_neg enabled]

theorem enableLoop_eq (index : Nat) (patches : List PatchGroup) (s : Patches) (count : Nat) :
    ∃ ratio mode, (enableLoop name allocation enable_list index patches s count).1 =
      { s with
        s_active_patches := s.s_active_patches ++ pointers name allocation enable_list index patches
        s_active_pnach_dynamic_patches := s.s_active_pnach_dynamic_patches ++ wantedDynamics enable_list patches
        s_override_aspect_ratio := ratio
        s_override_interlace_mode := mode } := by
  induction patches generalizing index s count with
  | nil =>
    refine ⟨s.s_override_aspect_ratio, s.s_override_interlace_mode, ?_⟩
    simp only [enableLoop, pointers, wantedDynamics, List.filter_nil, List.flatMap_nil, List.append_nil]
  | cons p patches ih =>
    unfold enableLoop
    rw [wantedDynamics_cons]
    unfold pointers
    by_cases enabled : Enabled enable_list p
    · simp only [if_pos enabled]
      obtain ⟨ratio, mode, loop⟩ := ih (index + 1) (s.enableGroup name allocation index p)
        (count + if p.name = "" then p.patches.length + p.dpatches.length else 1)
      refine ⟨ratio, mode, ?_⟩
      rw [loop]
      simp only [enableGroup, List.append_assoc]
    · simp only [if_neg enabled]
      exact ih (index + 1) s count

theorem active_group {s : Patches} {p : PatchGroup} {index : Nat}
    (allocated : (s.list name).allocation = allocation) (found : (s.list name).groups[index]? = some p) :
    List.Forall₂ s.Active
      (none :: (List.range p.patches.length).map fun command => some ⟨name, allocation, index, command⟩)
      (none :: p.patches.map some) := by
  refine .cons .start ?_
  rw [List.forall₂_map_left_iff, List.forall₂_map_right_iff, List.forall₂_iff_get]
  refine ⟨List.length_range, fun i _ bound => .command ?_⟩
  simp only [command?, allocated, if_pos, found, Option.bind_some, List.get_eq_getElem, List.getElem_range]
  exact List.getElem?_eq_getElem bound

theorem active_pointers {s : Patches} (allocated : (s.list name).allocation = allocation)
    (before patches : List PatchGroup) (groups : (s.list name).groups = before ++ patches) :
    List.Forall₂ s.Active (pointers name allocation enable_list before.length patches)
      (wantedCommands enable_list patches) := by
  induction patches generalizing before with
  | nil => exact .nil
  | cons p patches ih =>
    have rest := ih (before ++ [p]) (by rw [groups, List.append_assoc, List.singleton_append])
    rw [List.length_append, List.length_singleton] at rest
    rw [wantedCommands_cons]
    unfold pointers
    by_cases enabled : Enabled enable_list p
    · rw [if_pos enabled, if_pos enabled]
      refine List.rel_append (active_group name allocation allocated ?_) rest
      rw [groups, List.getElem?_append_right (Nat.le_refl _), Nat.sub_self, List.getElem?_cons_zero]
    · rw [if_neg enabled, if_neg enabled]
      exact rest

theorem mem_pointers {index : Nat} {patches : List PatchGroup} {pointer : CommandPointer}
    (mem : some pointer ∈ pointers name allocation enable_list index patches) :
    pointer.list = name ∧ index ≤ pointer.group := by
  induction patches generalizing index with
  | nil => exact absurd mem List.not_mem_nil
  | cons p patches ih =>
    have later : some pointer ∈ pointers name allocation enable_list (index + 1) patches →
        pointer.list = name ∧ index ≤ pointer.group := fun mem => (ih mem).imp_right (by omega)
    unfold pointers at mem
    split at mem
    · rcases List.mem_append.mp mem with here | mem
      · rcases List.mem_cons.mp here with start | here
        · cases start
        · obtain ⟨command, -, eq⟩ := List.mem_map.mp here
          obtain rfl := Option.some.inj eq
          exact ⟨rfl, Nat.le_refl _⟩
      · exact later mem
    · exact later mem

theorem nodup_pointers (index : Nat) (patches : List PatchGroup) :
    ((pointers name allocation enable_list index patches).filterMap id).Nodup := by
  induction patches generalizing index with
  | nil => exact List.nodup_nil
  | cons p patches ih =>
    unfold pointers
    split
    · rw [List.filterMap_append, List.filterMap_cons_none rfl, List.filterMap_map]
      refine List.Nodup.append ?_ (ih (index + 1)) ?_
      · rw [show (id ∘ fun command => some (⟨name, allocation, index, command⟩ : CommandPointer)) =
          some ∘ fun command => ⟨name, allocation, index, command⟩ from rfl, List.filterMap_eq_map]
        exact List.nodup_range.map fun i j eq => (CommandPointer.mk.inj eq).2.2.2
      · intro pointer here there
        obtain ⟨command, -, eq⟩ := List.mem_filterMap.mp here
        obtain rfl := Option.some.inj eq
        obtain ⟨_, mem, rfl⟩ := List.mem_filterMap.mp there
        exact absurd (mem_pointers name allocation enable_list mem).2 (by simp)
    · exact ih (index + 1)

end

/-- What `UpdateActivePatches` makes of lists that stay as they are. -/
structure Updated (host : Host) (s t : Patches) : Prop where
  list : t.list = s.list
  gamedb : t.s_active_gamedb_dynamic_patches = s.s_active_gamedb_dynamic_patches
  active : t.s_active_patches = host.enabled
    (fun name enable_list => pointers name (s.list name).allocation enable_list 0 (s.list name).groups)
    t.s_enabled_patches t.s_enabled_cheats
  pnach : t.s_active_pnach_dynamic_patches = host.enabled
    (fun name enable_list => wantedDynamics enable_list (s.list name).groups) t.s_enabled_patches t.s_enabled_cheats

structure Appended (enable : Bool) (name : ListName) (enable_list : List String) (s t : Patches) : Prop where
  list : t.list = s.list
  gamedb : t.s_active_gamedb_dynamic_patches = s.s_active_gamedb_dynamic_patches
  enabled_patches : t.s_enabled_patches = s.s_enabled_patches
  enabled_cheats : t.s_enabled_cheats = s.s_enabled_cheats
  active : t.s_active_patches = s.s_active_patches ++
    if enable then pointers name (s.list name).allocation enable_list 0 (s.list name).groups else []
  pnach : t.s_active_pnach_dynamic_patches = s.s_active_pnach_dynamic_patches ++
    if enable then wantedDynamics enable_list (s.list name).groups else []

theorem list_congr (gamedb : t.s_gamedb_patches = s.s_gamedb_patches)
    (game : t.s_game_patches = s.s_game_patches) (cheat : t.s_cheat_patches = s.s_cheat_patches) :
    t.list = s.list := by
  funext name
  cases name with
  | gamedb => exact gamedb
  | game => exact game
  | cheat => exact cheat

theorem enablePatches_eq (s : Patches) (name : ListName) (enable_list : List String) :
    ∃ ratio mode, (s.enablePatches name enable_list).1 =
      { s with
        s_active_patches := s.s_active_patches ++
          pointers name (s.list name).allocation enable_list 0 (s.list name).groups
        s_active_pnach_dynamic_patches := s.s_active_pnach_dynamic_patches ++
          wantedDynamics enable_list (s.list name).groups
        s_override_aspect_ratio := ratio
        s_override_interlace_mode := mode } :=
  enableLoop_eq name (s.list name).allocation enable_list 0 (s.list name).groups s 0

theorem enableGamedb_appended (host : Host) (s : Patches) :
    Appended host.EnablePatches .gamedb [] s (s.enableGamedb host) := by
  obtain ⟨ratio, mode, enabled⟩ := enablePatches_eq s .gamedb []
  unfold enableGamedb
  cases enable : host.EnablePatches with
  | true =>
    simp only [↓reduceIte, enabled]
    exact ⟨list_congr rfl rfl rfl, rfl, rfl, rfl, rfl, rfl⟩
  | false => exact ⟨rfl, rfl, rfl, rfl, (List.append_nil _).symm, (List.append_nil _).symm⟩

theorem enableGame_appended (s : Patches) : Appended true .game s.s_enabled_patches s s.enableGame := by
  obtain ⟨ratio, mode, enabled⟩ := enablePatches_eq s .game s.s_enabled_patches
  unfold enableGame
  simp only [enabled]
  exact ⟨list_congr rfl rfl rfl, rfl, rfl, rfl, rfl, rfl⟩

theorem enableCheat_appended (host : Host) (s : Patches) :
    Appended host.EnableCheats .cheat s.s_enabled_cheats s (s.enableCheat host) := by
  obtain ⟨ratio, mode, enabled⟩ := enablePatches_eq s .cheat s.s_enabled_cheats
  unfold enableCheat
  cases enable : host.EnableCheats with
  | true =>
    simp only [↓reduceIte, enabled]
    exact ⟨list_congr rfl rfl rfl, rfl, rfl, rfl, rfl, rfl⟩
  | false => exact ⟨list_congr rfl rfl rfl, rfl, rfl, rfl, (List.append_nil _).symm, (List.append_nil _).symm⟩

theorem updateActivePatches_updated (host : Host) (reload_enabled_list : Bool) (s : Patches) :
    Updated host s (s.updateActivePatches host reload_enabled_list) := by
  unfold updateActivePatches
  generalize listed : (if reload_enabled_list then s.reloadEnabledLists host else s) = u
  have same : u.list = s.list ∧ u.s_active_gamedb_dynamic_patches = s.s_active_gamedb_dynamic_patches := by
    rw [← listed]
    split
    · exact ⟨list_congr rfl rfl rfl, rfl⟩
    · exact ⟨rfl, rfl⟩
  have cleared : u.clearActive.list = s.list := (list_congr rfl rfl rfl).trans same.1
  have gamedb := enableGamedb_appended host u.clearActive
  have game := enableGame_appended (u.clearActive.enableGamedb host)
  have cheat := enableCheat_appended host (u.clearActive.enableGamedb host).enableGame
  have list₁ := gamedb.list.trans cleared
  have list₂ := game.list.trans list₁
  have patches := cheat.enabled_patches.trans game.enabled_patches
  constructor
  case list => exact cheat.list.trans list₂
  case gamedb => rw [cheat.gamedb, game.gamedb, gamedb.gamedb]; exact same.2
  case active =>
    rw [cheat.active, game.active, gamedb.active, list₂, list₁, cleared, patches, cheat.enabled_cheats]
    rfl
  case pnach =>
    rw [cheat.pnach, game.pnach, gamedb.pnach, list₂, list₁, cleared, patches, cheat.enabled_cheats]
    rfl

/-! ## Loading -/

theorem reloadGamedb_gamedb (host : Host) (serial : String) (crc : Nat) (s : Patches) :
    (s.reloadGamedb host serial crc).s_gamedb_patches.groups = Game.groups ⟨host, serial, crc⟩ .gamedb ∧
      (s.reloadGamedb host serial crc).s_active_gamedb_dynamic_patches =
        s.s_active_gamedb_dynamic_patches ++ Game.dynaPatches ⟨host, serial, crc⟩ := by
  unfold reloadGamedb Game.groups Game.texts Game.dynaPatches
  cases host.findGame serial with
  | none => exact ⟨rfl, (List.append_nil _).symm⟩
  | some entry => exact ⟨rfl, rfl⟩

end Patches

/-! ## Files that are found twice -/

variable {patch_list : List PatchGroup}

theorem load_again {contents : List Line} (labelled : ¬ HasUngrouped contents)
    (absorbed : ∀ group ∈ sections {} contents, Absorbed patch_list group) :
    loadPatchesFromString patch_list contents = patch_list := by
  rw [loadPatchesFromString_eq]
  exact load_absorbed (fun group mem merged => labelled ⟨group, mem, merged⟩) absorbed

theorem Absorbed.texts {group : PatchGroup} (texts : List (List Line))
    (absorbed : Absorbed patch_list group) : Absorbed (texts.foldl loadPatchesFromString patch_list) group := by
  induction texts generalizing patch_list with
  | nil => exact absorbed
  | cons text texts ih =>
    refine ih ?_
    rw [loadPatchesFromString_eq]
    exact absorbed.load _

theorem absorbed_texts {texts : List (List Line)} {contents : List Line} (mem : contents ∈ texts)
    (labelled : ¬ HasUngrouped contents) (patch_list : List PatchGroup) :
    ∀ group ∈ sections {} contents, Absorbed (texts.foldl loadPatchesFromString patch_list) group := by
  induction texts generalizing patch_list with
  | nil => exact absurd mem List.not_mem_nil
  | cons text texts ih =>
    rcases List.mem_cons.mp mem with rfl | mem
    · intro group group_mem
      refine Absorbed.texts texts ?_
      rw [loadPatchesFromString_eq]
      exact absorbed_loaded (fun group mem merged => labelled ⟨group, mem, merged⟩) patch_list group group_mem
    · exact ih mem _

theorem load_rest (read : String → Option (List Line)) (first second : List String)
    (again : ∀ file ∈ second, file ∈ first → ∀ contents, read file = some contents →
      ¬ HasUngrouped contents ∧ ∀ group ∈ sections {} contents, Absorbed patch_list group) :
    (second.filterMap read).foldl loadPatchesFromString patch_list =
      ((second.filter fun file => file ∉ first).filterMap read).foldl loadPatchesFromString patch_list := by
  induction second generalizing patch_list with
  | nil => rfl
  | cons file second ih =>
    obtain ⟨now, later⟩ := List.forall_mem_cons.mp again
    cases readable : read file with
    | none =>
      rw [List.filterMap_cons_none readable, ih later, List.filter_cons]
      split
      · rw [List.filterMap_cons_none readable]
      · rfl
    | some contents =>
      rw [List.filterMap_cons_some readable, List.foldl_cons]
      by_cases found : file ∈ first
      · obtain ⟨labelled, absorbed⟩ := now found contents readable
        rw [load_again labelled absorbed, ih later, List.filter_cons_of_neg (by simpa using found)]
      · rw [List.filter_cons_of_pos (by simpa using found), List.filterMap_cons_some readable, List.foldl_cons]
        exact ih fun file mem twice text read => (later file mem twice text read).imp_right
          fun absorbed group group_mem => (absorbed group group_mem).texts [contents]

theorem load_once (read : String → Option (List Line)) (first second : List String)
    (labelled : ∀ file ∈ first, file ∈ second → ∀ contents, read file = some contents → ¬ HasUngrouped contents) :
    ((first ++ second).filterMap read).foldl loadPatchesFromString [] =
      ((first ++ second.filter fun file => file ∉ first).filterMap read).foldl loadPatchesFromString [] := by
  rw [List.filterMap_append, List.filterMap_append, List.foldl_append, List.foldl_append]
  refine load_rest read first second fun file mem found contents readable => ?_
  have once := labelled file found mem contents readable
  exact ⟨once, absorbed_texts (List.mem_filterMap.mpr ⟨file, found, readable⟩) once []⟩

theorem mem_once {first second : List String} {file : String} :
    file ∈ first ++ second.filter (fun file => file ∉ first) ↔ file ∈ first ++ second := by
  simp only [List.mem_append, List.mem_filter, decide_eq_true_eq]
  by_cases found : file ∈ first <;> simp [found]

theorem load_readPnachFiles (host : Host) (serial : String) (crc : Nat) (cheats : Bool) {files files' : List String}
    (same : ∀ file, file ∈ files ↔ file ∈ files')
    (loaded : (files.filterMap host.readFileToString).foldl loadPatchesFromString [] =
      (files'.filterMap host.readFileToString).foldl loadPatchesFromString []) :
    (readPnachFiles host serial crc cheats files).foldl loadPatchesFromString [] =
      (readPnachFiles host serial crc cheats files').foldl loadPatchesFromString [] := by
  have unlabelled : (files.filterMap host.readFileToString).any patchStringHasUnlabelledPatch =
      (files'.filterMap host.readFileToString).any patchStringHasUnlabelledPatch := by
    rw [Bool.eq_iff_iff]
    simp only [List.any_eq_true, List.mem_filterMap, same]
  unfold readPnachFiles
  simp only [unlabelled]
  split
  · exact loaded
  · split
    · exact loaded
    · rw [List.foldl_append, List.foldl_append, loaded]

theorem load_enumerated (game : Game) (cheats : Bool)
    (labelled : game.host.hardcoreMode = false →
      ∀ file ∈ game.host.findFiles cheats (getPnachTemplate game.serial game.crc true true false),
        file ∈ game.host.findFiles cheats (getPnachTemplate game.serial game.crc false true false) →
          ∀ contents, game.host.readFileToString file = some contents → ¬ HasUngrouped contents) :
    (enumeratePnachFiles game.host game.serial game.crc cheats false).foldl loadPatchesFromString [] =
      (readPnachFiles game.host game.serial game.crc cheats
        (if game.host.hardcoreMode then [] else game.diskFiles cheats)).foldl loadPatchesFromString [] := by
  unfold enumeratePnachFiles
  cases hardcore : game.host.hardcoreMode with
  | true => rfl
  | false =>
    refine load_readPnachFiles game.host game.serial game.crc cheats ?_ ?_
    · exact fun file => mem_once.symm
    · exact load_once game.host.readFileToString _ _ (labelled hardcore)

/-! ## What is taken of the lists -/

theorem Host.enabled_congr {α : Type} (host : Host) {taken taken' : ListName → List String → List α}
    (same : ∀ name enable_list, (name = .cheat → host.EnableCheats = true) →
      taken name enable_list = taken' name enable_list)
    (enabled_patches enabled_cheats : List String) :
    host.enabled taken enabled_patches enabled_cheats = host.enabled taken' enabled_patches enabled_cheats := by
  unfold Host.enabled
  rw [same .gamedb [] nofun, same .game _ nofun]
  cases cheats : host.EnableCheats with
  | true => rw [same .cheat enabled_cheats fun _ => cheats]
  | false => rfl

theorem Host.forall₂_enabled {α β : Type} {R : α → β → Prop} (host : Host)
    {taken : ListName → List String → List α} {taken' : ListName → List String → List β}
    (related : ∀ name enable_list, List.Forall₂ R (taken name enable_list) (taken' name enable_list))
    (enabled_patches enabled_cheats : List String) :
    List.Forall₂ R (host.enabled taken enabled_patches enabled_cheats)
      (host.enabled taken' enabled_patches enabled_cheats) := by
  unfold Host.enabled
  refine List.rel_append (List.rel_append ?_ (related _ _)) ?_
  · split
    · exact related _ _
    · exact .nil
  · split
    · exact related _ _
    · exact .nil

/-! ## Calls -/

namespace Patches

theorem reloaded_groups {s : Patches} {game : Game} (clear : s.Clear game) {name : ListName}
    (enabled : name = .cheat → game.host.EnableCheats = true) :
    ((s.reloadFiles game.host game.serial game.crc).list name).groups = game.groups name := by
  cases name with
  | gamedb => exact (reloadGamedb_gamedb game.host game.serial game.crc s).1
  | game => exact load_enumerated game false (clear.files false nofun)
  | cheat => exact load_enumerated game true (clear.files true fun _ => enabled rfl)

theorem Updated.points {host : Host} (updated : Updated host s t) :
    List.Forall₂ t.Active t.s_active_patches
      (host.enabled (fun name enable_list => wantedCommands enable_list (s.list name).groups)
        t.s_enabled_patches t.s_enabled_cheats) := by
  rw [updated.active]
  refine host.forall₂_enabled (fun name enable_list => ?_) _ _
  refine active_pointers name _ enable_list ?_ [] _ ?_
  · rw [updated.list]
  · rw [updated.list, List.nil_append]

theorem disjoint_pointers {name name' : ListName} (differ : name ≠ name') {allocation allocation' : Nat}
    {enable_list enable_list' : List String} {index index' : Nat} {patches patches' : List PatchGroup} :
    List.Disjoint ((pointers name allocation enable_list index patches).filterMap id)
      ((pointers name' allocation' enable_list' index' patches').filterMap id) := by
  intro pointer here there
  obtain ⟨_, here, rfl⟩ := List.mem_filterMap.mp here
  obtain ⟨_, there, rfl⟩ := List.mem_filterMap.mp there
  exact differ ((mem_pointers _ _ _ here).1.symm.trans (mem_pointers _ _ _ there).1)

theorem Updated.once {host : Host} (updated : Updated host s t) :
    (t.s_active_patches.filterMap id).Nodup := by
  have disjoint : ∀ name name' : ListName, name ≠ name' → ∀ enable_list enable_list',
      List.Disjoint ((pointers name (s.list name).allocation enable_list 0 (s.list name).groups).filterMap id)
        ((pointers name' (s.list name').allocation enable_list' 0 (s.list name').groups).filterMap id) :=
    fun name name' differ _ _ => disjoint_pointers differ
  have nodup : ∀ name enable_list,
      ((pointers name (s.list name).allocation enable_list 0 (s.list name).groups).filterMap id).Nodup :=
    fun name enable_list => nodup_pointers _ _ _ _ _
  rw [updated.active]
  unfold Host.enabled
  rw [List.filterMap_append, List.filterMap_append]
  cases host.EnablePatches <;> cases host.EnableCheats <;>
    simp only [Bool.false_eq_true, ↓reduceIte, List.filterMap_nil, List.nil_append, List.append_nil]
  case false.false => exact nodup _ _
  case false.true => exact (nodup _ _).append (nodup _ _) (disjoint _ _ (by decide) _ _)
  case true.false => exact (nodup _ _).append (nodup _ _) (disjoint _ _ (by decide) _ _)
  case true.true =>
    refine ((nodup _ _).append (nodup _ _) (disjoint _ _ (by decide) _ _)).append (nodup _ _) ?_
    exact List.disjoint_append_left.mpr ⟨disjoint _ _ (by decide) _ _, disjoint _ _ (by decide) _ _⟩

theorem reloadPatches_current {s : Patches} {game : Game} {reload_files reload_enabled_list : Bool}
    (reloads : s.Reloads game.crc reload_files) (clear : s.Clear game) :
    (s.reloadPatches game.host game.serial game.crc reload_files reload_enabled_list).Current game := by
  have both : (reload_files || s.s_patches_crc != game.crc) = true := by
    rcases reloads with files | crc
    · rw [files, Bool.true_or]
    · rw [bne_iff_ne.mpr crc, Bool.or_true]
  unfold reloadPatches
  simp only [both, ↓reduceIte]
  generalize start : ({ s with s_patches_crc := game.crc } : Patches) = u
  have clear : u.Clear game := by
    rw [← start]
    exact ⟨clear.gamedb, clear.files⟩
  have updated := updateActivePatches_updated game.host reload_enabled_list (u.reloadFiles game.host game.serial game.crc)
  constructor
  case commands =>
    rw [game.host.enabled_congr fun name enable_list enabled =>
      congrArg (wantedCommands enable_list) (reloaded_groups clear enabled).symm]
    exact updated.points
  case once => exact updated.once
  case pnach =>
    rw [updated.pnach]
    exact game.host.enabled_congr (fun name enable_list enabled =>
      congrArg (wantedDynamics enable_list) (reloaded_groups clear enabled)) _ _
  case gamedb =>
    rw [updated.gamedb]
    refine (reloadGamedb_gamedb game.host game.serial game.crc u).2.trans ?_
    rw [clear.gamedb, List.nil_append]

theorem Updated.valid {host : Host} (updated : Updated host s t) : t.Valid :=
  ⟨_, updated.points⟩

end Patches

/-- In every run whose reloads meet the condition, the active patches after a reload of files are exactly
those of the game's files under the enabled names, each once and in order. -/
theorem active_patches_current {s : Session} (run : Run ClearCalls {} s) : s.Safe := by
  refine Run.invariant (I := Session.Safe) run ⟨⟨[], .nil⟩, nofun⟩ fun s t safe step => ?_
  obtain ⟨call, clear, rfl⟩ := step
  cases call with
  | reloadPatches host serial crc reload_files reload_enabled_list =>
    refine ⟨(Patches.updateActivePatches_updated _ _ _).valid, fun game reloaded => ?_⟩
    obtain ⟨reloads, eq⟩ := Option.ite_none_right_eq_some.mp reloaded
    obtain rfl := Option.some.inj eq
    exact Patches.reloadPatches_current reloads (clear reloads)
  | updateActivePatches host reload_enabled_list =>
    exact ⟨(Patches.updateActivePatches_updated _ _ _).valid, nofun⟩
  | unloadPatches => exact ⟨⟨[], .nil⟩, nofun⟩

def fileHost : Host where
  EnablePatches := true
  EnableCheats := false
  EnableWideScreenPatches := false
  EnableNoInterlacingPatches := false
  hardcoreMode := false
  enableCheats := []
  enablePatches := []
  disablePatches := []
  findGame _ := some ⟨fun _ => none, [⟨[⟨0, 1⟩], [⟨0, 2⟩]⟩]⟩
  findFiles cheats template :=
    if !cheats ∧ template = "SLUS-20000_00000001*.pnach" then ["SLUS-20000_00000001.pnach"] else []
  readFileToString _ := some [.patch (some ⟨.continuously, .ee, .word, 0, 1, []⟩)]
  patchesZip := none

theorem active_patches_current_file :
    ∃ s, Run ClearCalls {} s ∧ s.patches.s_active_patches = [none, some ⟨.game, 1, 0, 0⟩] ∧ s.Safe := by
  have run : Run ClearCalls {} (Session.call {} (.reloadPatches fileHost "SLUS-20000" 1 true true)) := by
    refine Run.single ⟨.reloadPatches fileHost "SLUS-20000" 1 true true, ?_, rfl⟩
    refine fun _ => ⟨rfl, fun cheats enabled _ file _ found => ?_⟩
    cases cheats with
    | false => exact absurd found (by
        rw [show fileHost.findFiles false (getPnachTemplate "SLUS-20000" 1 false true false) = [] by decide]
        exact List.not_mem_nil)
    | true => exact absurd (enabled rfl) (by decide)
  exact ⟨_, run, by decide, active_patches_current run⟩

/-- The second reload, for the executable of the same disc, leaves the dynamic patch of the first. -/
theorem dynamic_patches_left : ∃ s, Run Calls {} s ∧ ¬ s.Safe := by
  refine ⟨Session.call (Session.call {} (.reloadPatches fileHost "SLUS-20000" 0 true true))
    (.reloadPatches fileHost "SLUS-20000" 1 false false), ?_, fun safe => ?_⟩
  · exact .tail (Run.single ⟨_, rfl⟩) ⟨_, rfl⟩
  · have current := safe.2 ⟨fileHost, "SLUS-20000", 1⟩ rfl
    exact absurd (congrArg List.length current.gamedb) (by decide)

end Pcsx2.Patch
