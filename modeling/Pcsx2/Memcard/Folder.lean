import Mathlib
import Mathlib.Algebra.Order.Ring.Int
import Mathlib.Data.List.Range
import Pcsx2.Foundation.Linked

/-!
# The FAT of a folder memory card

The files of a folder of the host are given clusters of a memory card when it is loaded. The FAT has for each data
cluster whether it is in use and which one follows it.
-/

namespace Pcsx2.Memcard

/-- The fields of `superblock` that loading reads, on a formatted card: its clusters have `ClusterSize` bytes, the FAT
has room for all of them, and the root directory is in the first. -/
structure Superblock where
  page_len : Nat
  pages_per_cluster : Nat
  alloc_end : Nat
  rootdir_cluster : Nat
  cluster_size : pages_per_cluster * page_len = 1024
  large : 1000 ≤ alloc_end
  small : alloc_end ≤ 65536
  root : rootdir_cluster = 0

/-- The entries of `m_fat`. -/
def fatEntries : Nat := 65536

def LastDataCluster : Nat := 0x7FFFFFFF
def NextDataClusterMask : Nat := 0x7FFFFFFF
def DataClusterInUseMask : Nat := 0x80000000
def EmptyFileCluster : Nat := 0xFFFFFFFF
def noCluster : Nat := 0xFFFFFFFF

/-- The address of a `MemoryCardFileEntry`: the cluster and which of its two entries. -/
abbrev Slot := Nat × Nat

/-- The fields of `MemoryCardFileEntryData` that loading reads. -/
structure FileEntry where
  length : Nat
  cluster : Nat

inductive Content
  | directory
  | file (size : Nat)
  deriving DecidableEq

/-- `loaded` remembers the entries that have been made, in their order. -/
structure Card where
  fat : Nat → Nat
  fileEntryDict : Slot → FileEntry
  loaded : List (Slot × Content)

inductive Fault
  | outOfBounds
  | nullPointer
  | endless
  deriving DecidableEq

abbrev CardM := StateT Card (Except Fault)

variable (superblock : Superblock)

/-! ## Access to the state -/

def fault {α : Type} (fault : Fault) : CardM α := fun _ => .error fault

def dereference (entry : Option Slot) : CardM Slot :=
  match entry with
  | none => fault .nullPointer
  | some slot => return slot

def readEntry (slot : Slot) : CardM FileEntry := do return (← get).fileEntryDict slot

def writeEntry (slot : Slot) (entry : FileEntry) : CardM Unit :=
  modify fun card => { card with fileEntryDict := Function.update card.fileEntryDict slot entry }

/-- `length++`. -/
def growDirectory (dirEntry : Slot) : CardM Unit := do
  let entry ← readEntry dirEntry
  writeEntry dirEntry { entry with length := entry.length + 1 }

def readFat (cluster : Nat) : CardM Nat := do
  if cluster < fatEntries then
    return (← get).fat cluster
  else
    fault .outOfBounds

def writeFat (cluster value : Nat) : CardM Unit := do
  if cluster < fatEntries then
    modify fun card => { card with fat := Function.update card.fat cluster value }
  else
    fault .outOfBounds

def record (slot : Slot) (content : Content) : CardM Unit :=
  modify fun card => { card with loaded := card.loaded ++ [(slot, content)] }

/-! ## Clusters -/

def GetAmountDataClusters : Nat := superblock.alloc_end / 1000 * 1000 - 1

def inUse (entry : Nat) : Bool := entry &&& DataClusterInUseMask != 0

def GetFreeDataCluster (fat : Nat → Nat) : Nat :=
  ((List.range (GetAmountDataClusters superblock)).find? fun i => !inUse (fat i)).getD noCluster

def GetAmountFreeDataClusters (fat : Nat → Nat) : Nat :=
  (List.range (GetAmountDataClusters superblock)).countP fun i => !inUse (fat i)

/-- The loop of `GetLastClusterOfData`. One that visits more clusters than the card has does not end. -/
def lastClusterLoop : Nat → Nat → CardM Nat
  | 0, _ => fault .endless
  | rounds + 1, entryCluster => do
    let nextCluster := (← readFat entryCluster) &&& NextDataClusterMask
    if nextCluster ≠ LastDataCluster then
      lastClusterLoop rounds nextCluster
    else
      return entryCluster

def GetLastClusterOfData (cluster : Nat) : CardM Nat := lastClusterLoop (superblock.alloc_end + 1) cluster

def AppendFileEntryToDir (dirEntry : Slot) : CardM (Option Slot) := do
  let dir ← readEntry dirEntry
  let entryCluster ← GetLastClusterOfData superblock dir.cluster
  if dir.length % 2 = 0 then
    let newCluster := GetFreeDataCluster superblock (← get).fat
    if newCluster = noCluster then
      return none
    else
      writeFat entryCluster (newCluster ||| DataClusterInUseMask)
      writeFat newCluster (LastDataCluster ||| DataClusterInUseMask)
      return some (newCluster, 0)
  else
    return some (entryCluster, 1)

/-! ## A card before the folder is added -/

/-- `CreateFat`, and `CreateRootDir` with the entries `.` and `..`. -/
def emptyCard : Card where
  fat cluster :=
    if cluster = superblock.rootdir_cluster then LastDataCluster ||| DataClusterInUseMask
    else if cluster < superblock.alloc_end then 0x7FFFFFFF
    else 0xFFFFFFFF
  fileEntryDict slot := if slot = (superblock.rootdir_cluster, 0) then { length := 2, cluster := 0 } else { length := 0, cluster := 0 }
  loaded := [((superblock.rootdir_cluster, 0), .directory)]

end Pcsx2.Memcard

/-!
# Adding folders of the host to a card

Space is checked for each file, and for each folder with all it has, and clusters are then taken one at a time.
-/

namespace Pcsx2.Memcard

abbrev Name := List Char

/-- A file with its size, its order in the index when it has one, and whether it can be opened; or a folder with what
`FindFiles` lists. -/
inductive HostEntry
  | file (name : Name) (size : Nat) (order : Option Int) (opens : Bool)
  | folder (name : Name) (contents : List HostEntry)

def HostEntry.name : HostEntry → Name
  | file name _ _ _ => name
  | folder name _ => name

def HostEntry.isFolder : HostEntry → Bool
  | file .. => false
  | folder .. => true

/-- What starts with `_pcsx2_` is not part of the card. -/
def HostEntry.hidden (entry : HostEntry) : Bool := "_pcsx2_".toList.isPrefixOf entry.name

/-! ## The order of the entries -/

/-- `try_emplace` in a sorted map: an entry whose key is there already is left out. -/
def tryEmplace (key : Int) (entry : HostEntry) : List (Int × HostEntry) → List (Int × HostEntry)
  | [] => [(key, entry)]
  | (other, value) :: rest =>
    if key < other then (key, entry) :: (other, value) :: rest
    else if key = other then (other, value) :: rest
    else (other, value) :: tryEmplace key entry rest

def orderFiles : Int → List HostEntry → List (Int × HostEntry) → List (Int × HostEntry)
  | _, [], sorted => sorted
  | legacy, .file name size order opens :: rest, sorted =>
    orderFiles (legacy - 1) rest (tryEmplace (order.getD legacy) (.file name size order opens) sorted)
  | legacy, .folder .. :: rest, sorted => orderFiles legacy rest sorted

/-- Folders come first. -/
def GetOrderedFiles (contents : List HostEntry) : List HostEntry :=
  let shown := contents.filter fun entry => !entry.hidden
  shown.filter HostEntry.isFolder ++ (orderFiles (-1) shown []).map Prod.snd

def FilterMatches (fileName filter : Name) : Bool :=
  let parts := filter.splitOn '/'
  (if parts.getLast? = some [] then parts.dropLast else parts).any fun part => part <:+: fileName

def localFilter (filter : Name) : Name :=
  if filter.isEmpty then "DATA-SYSTEM/BWNETCNF".toList else "DATA-SYSTEM/BWNETCNF/".toList ++ filter

/-- Files of the root directory are not loaded, and its folders only when they match. -/
def loadsFromRoot (filter : Option Name) : HostEntry → Bool
  | .file .. => false
  | .folder name _ =>
    match filter with
    | none => true
    | some filter => FilterMatches name (localFilter filter)

/-! ## Space -/

variable (superblock : Superblock)

def clusterSize : Nat := superblock.pages_per_cluster * superblock.page_len

def u32max : Nat := 2 ^ 32 - 1

def countClusters (filesize : Nat) : Nat :=
  if filesize % clusterSize superblock ≠ 0 then filesize / clusterSize superblock + 1
  else filesize / clusterSize superblock

/-- The loop of `CalculateRequiredClustersOfDirectory`, whose counts have 32 bits. -/
def requiredLoop (requiredFileEntryPages requiredClusters : Nat) : List HostEntry → Nat
  | [] =>
    (requiredClusters + requiredFileEntryPages / 2 + if requiredFileEntryPages % 2 = 0 then 0 else 1) % 2 ^ 32
  | .file name size order opens :: rest =>
    if (HostEntry.file name size order opens).hidden then
      requiredLoop requiredFileEntryPages requiredClusters rest
    else
      requiredLoop ((requiredFileEntryPages + 1) % 2 ^ 32)
        ((requiredClusters + countClusters superblock (min size u32max)) % 2 ^ 32) rest
  | .folder name contents :: rest =>
    if (HostEntry.folder name contents).hidden then
      requiredLoop requiredFileEntryPages requiredClusters rest
    else
      requiredLoop ((requiredFileEntryPages + 1) % 2 ^ 32) ((requiredClusters + requiredLoop 2 0 contents) % 2 ^ 32) rest

def CalculateRequiredClustersOfDirectory (contents : List HostEntry) : Nat := requiredLoop superblock 2 0 contents

def entryCluster (length : Nat) : Nat := if length % 2 = 0 then 1 else 0

/-! ## Loading -/

/-- The clusters of a file behind `dataCluster`. -/
def extendFile : Nat → Nat → CardM Unit
  | 0, _ => return ()
  | count + 1, dataCluster => do
    let newCluster := GetFreeDataCluster superblock (← get).fat
    writeFat dataCluster (newCluster ||| DataClusterInUseMask)
    writeFat newCluster (LastDataCluster ||| DataClusterInUseMask)
    extendFile count newCluster

def allocateFile (filesize : Nat) : CardM Nat := do
  if filesize ≠ 0 then
    let fileDataStartingCluster := GetFreeDataCluster superblock (← get).fat
    writeFat fileDataStartingCluster (LastDataCluster ||| DataClusterInUseMask)
    extendFile superblock (countClusters superblock filesize - 1) fileDataStartingCluster
    return fileDataStartingCluster
  else
    return EmptyFileCluster

def AddFile (dirEntry : Slot) (size : Nat) (opens : Bool) : CardM Bool := do
  if opens then
    let filesize := min size u32max
    let newNeededClusters := countClusters superblock filesize + entryCluster (← readEntry dirEntry).length
    if GetAmountFreeDataClusters superblock (← get).fat < newNeededClusters then
      return false
    else
      let newFileEntry ← dereference (← AppendFileEntryToDir superblock dirEntry)
      let cluster ← allocateFile superblock filesize
      writeEntry newFileEntry { length := filesize, cluster }
      growDirectory dirEntry
      record newFileEntry (.file size)
      return true
  else
    return false

/-- The entry of a folder, with a cluster for its entries `.` and `..`. -/
def addDirectory (dirEntry : Slot) : CardM Slot := do
  let newDirEntry ← dereference (← AppendFileEntryToDir superblock dirEntry)
  growDirectory dirEntry
  let newCluster := GetFreeDataCluster superblock (← get).fat
  writeFat newCluster (LastDataCluster ||| DataClusterInUseMask)
  writeEntry newDirEntry { length := 2, cluster := newCluster }
  writeEntry (newCluster, 0) { length := 0, cluster := 0 }
  writeEntry (newCluster, 1) { length := 0, cluster := 0 }
  record newDirEntry .directory
  return newDirEntry

def neededForFolder (length : Nat) (contents : List HostEntry) : Nat :=
  (CalculateRequiredClustersOfDirectory superblock contents + entryCluster length) % 2 ^ 32

def folderFits (dirEntry : Slot) (contents : List HostEntry) : CardM Bool := do
  let dir ← readEntry dirEntry
  return neededForFolder superblock dir.length contents ≤ GetAmountFreeDataClusters superblock (← get).fat

/-! ### Termination -/

theorem sizeOf_filter_le (keep : HostEntry → Bool) (entries : List HostEntry) :
    sizeOf (entries.filter keep) ≤ sizeOf entries := by
  induction entries with
  | nil => exact le_rfl
  | cons entry rest ih =>
    rw [List.filter_cons]
    split
    · simpa using ih
    · rw [List.cons.sizeOf_spec]
      omega

theorem sizeOf_tryEmplace_le (key : Int) (entry : HostEntry) (sorted : List (Int × HostEntry)) :
    sizeOf ((tryEmplace key entry sorted).map Prod.snd) ≤ 1 + sizeOf entry + sizeOf (sorted.map Prod.snd) := by
  induction sorted with
  | nil => simp [tryEmplace]
  | cons other rest ih =>
    obtain ⟨order, value⟩ := other
    unfold tryEmplace
    split
    · simp
    · split
      · simp
      · simp only [List.map_cons, List.cons.sizeOf_spec] at ih ⊢
        omega

theorem sizeOf_orderFiles_le (legacy : Int) (entries : List HostEntry) (sorted : List (Int × HostEntry)) :
    sizeOf ((orderFiles legacy entries sorted).map Prod.snd) + 1 ≤
      sizeOf (entries.filter fun entry => !entry.isFolder) + sizeOf (sorted.map Prod.snd) := by
  induction entries generalizing legacy sorted with
  | nil =>
    rw [orderFiles, List.filter_nil, List.nil.sizeOf_spec]
    omega
  | cons entry rest ih =>
    cases entry with
    | file name size order opens =>
      have emplaced := sizeOf_tryEmplace_le (order.getD legacy) (.file name size order opens) sorted
      have others := ih (legacy - 1) (tryEmplace (order.getD legacy) (.file name size order opens) sorted)
      rw [orderFiles, List.filter_cons_of_pos rfl, List.cons.sizeOf_spec]
      omega
    | folder name contents => exact ih legacy sorted

theorem sizeOf_append (first second : List HostEntry) :
    sizeOf (first ++ second) + 1 = sizeOf first + sizeOf second := by
  induction first with
  | nil => simp; omega
  | cons entry rest ih =>
    simp only [List.cons_append, List.cons.sizeOf_spec]
    omega

theorem sizeOf_partition (keep : HostEntry → Bool) (entries : List HostEntry) :
    sizeOf (entries.filter keep) + sizeOf (entries.filter fun entry => !keep entry) = sizeOf entries + 1 := by
  induction entries with
  | nil => rfl
  | cons entry rest ih =>
    simp only [List.filter_cons, List.cons.sizeOf_spec]
    cases keep entry <;> simp <;> omega

theorem sizeOf_GetOrderedFiles_le (contents : List HostEntry) : sizeOf (GetOrderedFiles contents) ≤ sizeOf contents := by
  have shown := sizeOf_filter_le (fun entry => !entry.hidden) contents
  have parts := sizeOf_partition HostEntry.isFolder (contents.filter fun entry => !entry.hidden)
  have files := sizeOf_orderFiles_le (-1) (contents.filter fun entry => !entry.hidden) []
  have both := sizeOf_append ((contents.filter fun entry => !entry.hidden).filter HostEntry.isFolder)
    ((orderFiles (-1) (contents.filter fun entry => !entry.hidden) []).map Prod.snd)
  have none : sizeOf (([] : List (Int × HostEntry)).map Prod.snd) = 1 := rfl
  unfold GetOrderedFiles
  dsimp only
  omega

/-! ### Folders -/

/-- The loop of `AddFolder`. -/
def addFiles : List HostEntry → Slot → CardM Unit
  | [], _ => return ()
  | .file _ size _ opens :: rest, dirEntry => do
    let _ ← AddFile superblock dirEntry size opens
    addFiles rest dirEntry
  | .folder _ contents :: rest, dirEntry => do
    if ← folderFits superblock dirEntry contents then
      let newDirEntry ← addDirectory superblock dirEntry
      addFiles (GetOrderedFiles contents) newDirEntry
      addFiles rest dirEntry
    else
      addFiles rest dirEntry
termination_by entries => sizeOf entries
decreasing_by
  · decreasing_tactic
  · have ordered := sizeOf_GetOrderedFiles_le contents
    rw [List.cons.sizeOf_spec, HostEntry.folder.sizeOf_spec]
    omega
  · decreasing_tactic
  · decreasing_tactic

/-- `AddFolder` with the root directory and the folder of the card. -/
def AddFolder (filter : Option Name) (contents : List HostEntry) : CardM Unit :=
  addFiles superblock ((GetOrderedFiles contents).filter (loadsFromRoot filter)) (superblock.rootdir_cluster, 0)

end Pcsx2.Memcard
