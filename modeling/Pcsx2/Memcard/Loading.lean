import Pcsx2.Memcard.Entries

/-!
# Loading a folder

Whatever the folder of the host has, its entries get chains of their own as long as no check of the space of a folder
passes that should not. The counts of 32 bits can make one pass.
-/

namespace Pcsx2.Memcard
open Foundation

variable {superblock : Superblock} {card card' : Card} {chain chain' : Slot → List Nat} {slot dir : Slot}

/-! ## One more entry -/

theorem Appended.other {fat : Nat → Nat} {other : Slot} (appended : Appended superblock card chain dir fat chain' slot)
    (old : other ∈ card.slots) : other ≠ slot := by
  rintro rfl
  exact appended.new old

theorem Appended.distinct {fat : Nat → Nat} (appended : Appended superblock card chain dir fat chain' slot)
    (old : card.slots.Nodup) : (card.slots ++ [slot]).Nodup := by
  apply List.nodup_append.mpr ⟨old, List.nodup_singleton slot, fun other inside new member => ?_⟩
  rw [List.mem_singleton.mp member]
  exact appended.other inside

theorem Sound.add (sound : Sound superblock card chain) (directory : (dir, Content.directory) ∈ card.loaded)
    {fat : Nat → Nat} (content : Content) {clusters : List Nat}
    (appended : Appended superblock card chain dir fat chain' slot)
    (layout : Layout superblock card'.fat (card.slots ++ [slot]) (Function.update chain' slot clusters))
    (loaded : card'.loaded = card.loaded ++ [(slot, content)])
    (grown : card'.fileEntryDict dir =
      { card.fileEntryDict dir with length := (card.fileEntryDict dir).length + 1 })
    (others : ∀ other ∈ card.slots, other ≠ dir → card'.fileEntryDict other = card.fileEntryDict other)
    (first : ∀ cluster ∈ clusters.head?, (card'.fileEntryDict slot).cluster = cluster)
    (length : clusters.length = clustersFor content (card'.fileEntryDict slot).length)
    (dots : content = .directory → 2 ≤ (card'.fileEntryDict slot).length) :
    Sound superblock card' (Function.update chain' slot clusters) := by
  have slots : card'.slots = card.slots ++ [slot] := by
    rw [Card.slots, loaded, List.map_append]
    rfl
  have old : ∀ {other}, other ∈ card.slots → other ≠ slot := appended.other
  have dirInside := mem_slots directory
  have dirLength : (chain dir).length = ((card.fileEntryDict dir).length + 1) / 2 :=
    sound.length dir .directory directory
  have dirDots := sound.dots dir directory
  obtain ⟨more, grows⟩ := appended.grows
  refine ⟨slots ▸ layout, ?_, ?_, ?_, ?_, ?_⟩
  · rw [slots]
    exact List.nodup_append.mpr ⟨sound.slots, List.nodup_singleton slot, fun other inside new member same =>
      old inside (same.trans (List.mem_singleton.mp member))⟩
  · intro other inside cluster head
    rw [slots] at inside
    rcases List.mem_append.mp inside with inside | new
    · rw [Function.update_of_ne (old inside)] at head
      by_cases here : other = dir
      · subst here
        rw [grown]
        refine sound.head other inside cluster ?_
        rw [← grows] at head
        obtain ⟨start, rest, same⟩ := List.exists_cons_of_length_pos (show 0 < (chain other).length by omega)
        rw [same] at head ⊢
        exact head
      · rw [appended.others other here] at head
        rw [others other inside here]
        exact sound.head other inside cluster head
    · obtain rfl := List.mem_singleton.mp new
      rw [Function.update_self] at head
      exact first cluster head
  · intro other kind member
    rw [loaded] at member
    rcases List.mem_append.mp member with member | new
    · have inside := mem_slots member
      rw [Function.update_of_ne (old inside)]
      by_cases here : other = dir
      · subst here
        obtain rfl : kind = .directory := by
          have unique := List.inj_on_of_nodup_map sound.slots member directory rfl
          exact congrArg Prod.snd unique
        rw [appended.length, grown]
        rfl
      · rw [appended.others other here, others other inside here]
        exact sound.length other kind member
    · cases List.mem_singleton.mp new
      rw [Function.update_self]
      exact length
  · intro other member
    rw [loaded] at member
    rcases List.mem_append.mp member with member | new
    · by_cases here : other = dir
      · subst here
        rw [grown]
        exact Nat.le_succ_of_le dirDots
      · rw [others other (mem_slots member) here]
        exact sound.dots other member
    · cases List.mem_singleton.mp new
      exact dots rfl
  · intro other inside
    rw [slots] at inside
    rcases List.mem_append.mp inside with inside | new
    · obtain ⟨owner, ownerDirectory, place, at', before, half⟩ := sound.placed other inside
      refine ⟨owner, loaded ▸ List.mem_append_left _ ownerDirectory, place, ?_, ?_, half⟩
      · rw [Function.update_of_ne (old (mem_slots ownerDirectory))]
        by_cases here : owner = dir
        · subst here
          rw [← grows, List.getElem?_append_left (List.getElem?_eq_some_iff.mp at').1]
          exact at'
        · rwa [appended.others owner here]
      · by_cases here : owner = dir
        · subst here
          rw [grown]
          exact Nat.lt_succ_of_lt before
        · rwa [others owner (mem_slots ownerDirectory) here]
    · obtain rfl := List.mem_singleton.mp new
      refine ⟨dir, loaded ▸ List.mem_append_left _ directory, (card.fileEntryDict dir).length / 2, ?_, ?_, ?_⟩
      · rw [Function.update_of_ne (old dirInside)]
        exact appended.place
      · rw [grown, appended.half]
        dsimp only
        omega
      · rw [appended.half]
        omega

/-! ## The account of the space -/

/-- The clusters that are free, and the length of the directory that is being filled. -/
structure Room where
  free : Nat
  length : Nat
  deriving DecidableEq

def Room.neededForFile (superblock : Superblock) (room : Room) (size : Nat) : Nat :=
  countClusters superblock (min size u32max) + entryCluster room.length

def Room.afterFile (superblock : Superblock) (size : Nat) (opens : Bool) (room : Room) : Room :=
  if opens ∧ room.neededForFile superblock size ≤ room.free then
    { free := room.free - room.neededForFile superblock size, length := room.length + 1 }
  else
    room

def Room.fits (superblock : Superblock) (contents : List HostEntry) (room : Room) : Bool :=
  neededForFolder superblock room.length contents ≤ room.free

/-- What a folder takes at once, for its entry and for its own directory. -/
def Room.taken (room : Room) : Nat := 1 + entryCluster room.length

/-- How the space changes, where there is no result when the check of a folder passes with fewer clusters free than
the folder takes at once. -/
def account (superblock : Superblock) : List HostEntry → Room → Option Room
  | [], room => some room
  | .file _ size _ opens :: rest, room => account superblock rest (room.afterFile superblock size opens)
  | .folder _ contents :: rest, room =>
    if room.fits superblock contents then
      if decide (room.taken ≤ room.free) then
        match account superblock (GetOrderedFiles contents) { free := room.free - room.taken, length := 2 } with
        | none => none
        | some inner => account superblock rest { free := inner.free, length := room.length + 1 }
      else
        none
    else
      account superblock rest room
termination_by entries => sizeOf entries
decreasing_by
  · decreasing_tactic
  · have ordered := sizeOf_GetOrderedFiles_le contents
    rw [List.cons.sizeOf_spec, HostEntry.folder.sizeOf_spec]
    omega
  · decreasing_tactic
  · decreasing_tactic

def Card.room (superblock : Superblock) (card : Card) (dir : Slot) : Room :=
  { free := freeClusters superblock card, length := (card.fileEntryDict dir).length }

structure Kept (card : Card) (dir : Slot) (card' : Card) : Prop where
  loaded : card.loaded <+: card'.loaded
  others : ∀ other ∈ card.slots, other ≠ dir → card'.fileEntryDict other = card.fileEntryDict other

theorem Kept.refl : Kept card dir card := ⟨List.prefix_rfl, fun _ _ _ => rfl⟩

theorem Kept.slots (kept : Kept card dir card') (inside : slot ∈ card.slots) : slot ∈ card'.slots := by
  obtain ⟨more, grows⟩ := kept.loaded
  rw [Card.slots, ← grows, List.map_append]
  exact List.mem_append_left _ inside

theorem Kept.trans {card'' : Card} (first : Kept card dir card') (second : Kept card' dir card'') :
    Kept card dir card'' := by
  refine ⟨first.loaded.trans second.loaded, fun other inside different => ?_⟩
  exact (second.others other (first.slots inside) different).trans (first.others other inside different)

theorem Kept.directory (kept : Kept card dir card') (directory : (slot, Content.directory) ∈ card.loaded) :
    (slot, Content.directory) ∈ card'.loaded :=
  kept.loaded.subset directory

/-! ## Files -/

theorem countClusters_eq (superblock : Superblock) (filesize : Nat) :
    countClusters superblock filesize = (filesize + 1023) / 1024 := by
  have size : clusterSize superblock = 1024 := superblock.cluster_size
  unfold countClusters
  rw [size]
  split <;> omega

theorem growDirectory_ok {entry : FileEntry} (read : card.fileEntryDict dir = entry) :
    growDirectory dir card = .ok ((), { card with
      fileEntryDict := Function.update card.fileEntryDict dir { entry with length := entry.length + 1 } }) := by
  subst read
  rfl

theorem AddFile_outcome (sound : Sound superblock card chain) (directory : (dir, Content.directory) ∈ card.loaded)
    (size : Nat) (opens : Bool) :
    Outcome (AddFile superblock dir size opens) card True fun _ card' =>
      (∃ chain', Sound superblock card' chain') ∧ Kept card dir card' ∧
        card'.room superblock dir = (card.room superblock dir).afterFile superblock size opens := by
  have unchanged : ∀ (fails : ¬ (opens ∧
      (card.room superblock dir).neededForFile superblock size ≤ freeClusters superblock card)),
      (∃ chain', Sound superblock card chain') ∧ Kept card dir card ∧
        card.room superblock dir = (card.room superblock dir).afterFile superblock size opens := by
    intro fails
    rw [Room.afterFile, if_neg (by exact fails)]
    exact ⟨⟨chain, sound⟩, .refl, rfl⟩
  unfold AddFile
  refine .ite (fun opened => ?_) fun closed => .done rfl (unchanged fun both => closed both.1)
  refine .step (show readEntry dir card = .ok (card.fileEntryDict dir, card) from rfl) ?_
  refine .step (show (get : CardM Card) card = .ok (card, card) from rfl) ?_
  refine .ite (fun full => .done rfl (unchanged fun both => ?_)) fun room => ?_
  · exact absurd both.2 (Nat.not_le.mpr full)
  have enough : (card.room superblock dir).neededForFile superblock size ≤ freeClusters superblock card :=
    Nat.not_lt.mp room
  have parts : (card.room superblock dir).neededForFile superblock size =
      countClusters superblock (min size u32max) + entryCluster (card.fileEntryDict dir).length := rfl
  obtain ⟨fat, chain', new, appends, appended⟩ := sound.append_ok directory (by omega)
  have dirOld := appended.other (mem_slots directory)
  have distinct := appended.distinct sound.slots
  have started := appended.layout.start appended.new
  have left := appended.free
  refine .step appends (.step (show dereference (some new) _ = .ok (new, _) from rfl) ?_)
  refine Outcome.andThen (allocateFile_outcome started (List.mem_append_right _ (List.mem_singleton_self new)) distinct
    (Function.update_self ..) ?_) ?_
  · show _ ≤ GetAmountFreeDataClusters superblock fat
    omega
  · rintro first ⟨fat', dict, loaded⟩ ⟨clusters, length, head, taken⟩
    obtain ⟨rfl, rfl⟩ : dict = card.fileEntryDict ∧ loaded = card.loaded :=
      ⟨congrArg Card.fileEntryDict taken.fatOnly, congrArg Card.loaded taken.fatOnly⟩
    have small : size ≤ u32max := by
      have counted := sound.layout.free_count
      have bounds := amount_bounds superblock
      have most := superblock.small
      rw [countClusters_eq] at parts
      unfold freeClusters at enough
      unfold u32max at parts ⊢
      omega
    rw [Nat.min_eq_left small] at length parts
    have free' : GetAmountFreeDataClusters superblock fat' + clusters.length =
        GetAmountFreeDataClusters superblock fat := taken.free
    refine .step (show writeEntry new _ _ =
      .ok ((), ⟨fat', Function.update card.fileEntryDict new ⟨min size u32max, first⟩, card.loaded⟩) from rfl) ?_
    refine .step (growDirectory_ok (Function.update_of_ne dirOld _ _)) ?_
    refine .step (show record new (.file size) _ = .ok ((), ⟨fat', _, _⟩) from rfl) ?_
    dsimp only
    refine .done rfl ⟨⟨Function.update chain' new clusters, ?_⟩, ⟨List.prefix_append _ _, ?_⟩, ?_⟩
    · have layout := taken.layout
      rw [Function.update_self, List.nil_append, Function.update_idem] at layout
      refine sound.add directory (.file size) appended layout rfl ?_ ?_ ?_ ?_ nofun
      · dsimp only
        rw [Function.update_self]
      · intro other inside different
        dsimp only
        rw [Function.update_of_ne different, Function.update_of_ne (appended.other inside)]
      · dsimp only
        rw [Function.update_of_ne dirOld.symm, Function.update_self]
        exact head
      · exact length.trans (countClusters_eq superblock size)
    · intro other inside different
      dsimp only
      rw [Function.update_of_ne different, Function.update_of_ne (appended.other inside)]
    · rw [Room.afterFile, if_pos ⟨opened, enough⟩, parts]
      unfold Card.room
      dsimp only
      rw [Function.update_self]
      congr 1
      show GetAmountFreeDataClusters superblock fat' = freeClusters superblock card - _
      omega

/-! ## Folders -/

theorem Room.taken_eq (superblock : Superblock) (card : Card) (dir : Slot) :
    (card.room superblock dir).taken = 1 + entryCluster (card.fileEntryDict dir).length := rfl

/-- The entry `new` of `dir`, of a directory that has only its first cluster. -/
structure Opened (superblock : Superblock) (card : Card) (dir new : Slot) (card' : Card) : Prop where
  sound : ∃ chain', Sound superblock card' chain'
  kept : Kept card dir card'
  directory : (new, Content.directory) ∈ card'.loaded
  fresh : new ∉ card.slots
  inner : card'.room superblock new =
    { free := (card.room superblock dir).free - (card.room superblock dir).taken, length := 2 }
  grown : (card'.fileEntryDict dir).length = (card.fileEntryDict dir).length + 1

/-- The card with the entry `new` of `dir`, for a directory in `newCluster`. -/
def openedCard (card : Card) (dir new : Slot) (fat : Nat → Nat) (newCluster : Nat) : Card where
  fat := Function.update fat newCluster (LastDataCluster ||| DataClusterInUseMask)
  fileEntryDict :=
    let grown := Function.update card.fileEntryDict dir
      { card.fileEntryDict dir with length := (card.fileEntryDict dir).length + 1 }
    let made := Function.update grown new { length := 2, cluster := newCluster }
    Function.update (Function.update made (newCluster, 0) { length := 0, cluster := 0 }) (newCluster, 1)
      { length := 0, cluster := 0 }
  loaded := card.loaded ++ [(new, .directory)]

theorem addDirectory_ok (sound : Sound superblock card chain) (directory : (dir, Content.directory) ∈ card.loaded)
    (room : (card.room superblock dir).taken ≤ freeClusters superblock card) :
    ∃ new card', addDirectory superblock dir card = .ok (new, card') ∧ Opened superblock card dir new card' := by
  rw [Room.taken_eq] at room
  obtain ⟨fat, chain', new, appends, appended⟩ := sound.append_ok directory (by omega)
  have dirOld := appended.other (mem_slots directory)
  have distinct := appended.distinct sound.slots
  have left := appended.free
  obtain ⟨below, free⟩ := appended.layout.free_cluster (by omega)
  generalize atCluster : GetFreeDataCluster superblock fat = newCluster at below free
  have inside : newCluster < fatEntries := by
    have bounds := amount_bounds superblock
    have small := superblock.small
    unfold fatEntries
    omega
  -- No entry is in the new cluster yet.
  have elsewhere : ∀ other ∈ card.slots ++ [new], other.1 ≠ newCluster := by
    rintro other member rfl
    rcases List.mem_append.mp member with old | last
    · obtain ⟨owner, ownerDirectory, place, at', _⟩ := sound.placed other old
      refine free (Layout.mem_clustersOf (mem_slots ownerDirectory) ?_)
      by_cases here : owner = dir
      · subst here
        exact appended.grows.subset (List.mem_of_getElem? at')
      · rw [appended.others owner here]
        exact List.mem_of_getElem? at'
    · obtain rfl := List.mem_singleton.mp last
      exact free (Layout.mem_clustersOf (mem_slots directory) (List.mem_of_getElem? appended.place))
  have apart : ∀ other ∈ card.slots ++ [new], ∀ half, other ≠ (newCluster, half) := by
    rintro other member half rfl
    exact elsewhere _ member rfl
  have dirApart := apart dir (List.mem_append_left _ (mem_slots directory))
  have newApart := apart new (List.mem_append_right _ (List.mem_singleton_self new))
  have start := appended.layout.start appended.new
  have started := start.first (List.mem_append_right _ (List.mem_singleton_self new)) distinct
    (Function.update_self ..) below (Layout.clustersOf_start appended.new ▸ free)
  rw [Function.update_idem] at started
  have clusters : (clustersOf (card.slots ++ [new]) (Function.update chain' new [newCluster])).length =
      (clustersOf card.slots chain').length + 1 := by
    rw [clustersOf, List.flatMap_append, flatMap_update_of_not_mem appended.new, List.flatMap_singleton,
      Function.update_self, List.length_append]
    rfl
  have before := appended.layout.free_count
  have after := started.free_count
  have made : (openedCard card dir new fat newCluster).fileEntryDict new = { length := 2, cluster := newCluster } := by
    unfold openedCard
    dsimp only
    rw [Function.update_of_ne (newApart 1), Function.update_of_ne (newApart 0), Function.update_self]
  have grown : (openedCard card dir new fat newCluster).fileEntryDict dir =
      { card.fileEntryDict dir with length := (card.fileEntryDict dir).length + 1 } := by
    unfold openedCard
    dsimp only
    rw [Function.update_of_ne (dirApart 1), Function.update_of_ne (dirApart 0),
      Function.update_of_ne dirOld, Function.update_self]
  have others : ∀ other ∈ card.slots, other ≠ dir →
      (openedCard card dir new fat newCluster).fileEntryDict other = card.fileEntryDict other := by
    intro other old different
    have otherApart := apart other (List.mem_append_left _ old)
    unfold openedCard
    dsimp only
    rw [Function.update_of_ne (otherApart 1), Function.update_of_ne (otherApart 0),
      Function.update_of_ne (appended.other old), Function.update_of_ne different]
  refine ⟨new, openedCard card dir new fat newCluster, ?_, ⟨Function.update chain' new [newCluster], ?_⟩,
    ⟨List.prefix_append _ _, others⟩, List.mem_append_right _ (List.mem_singleton_self _), appended.new, ?_, ?_⟩
  · unfold addDirectory
    rw [bind_ok appends, bind_ok (show dereference (some new) _ = .ok (new, _) from rfl), bind_ok (growDirectory_ok rfl),
      bind_ok (show (get : CardM Card) _ = .ok (_, _) from rfl)]
    dsimp only
    rw [atCluster, bind_ok (writeFat_ok inside _)]
    rfl
  · refine sound.add directory .directory appended started rfl grown others ?_ ?_ ?_
    all_goals rw [made]
    · intro cluster head
      exact Option.some.inj head
    · exact show 1 = (2 + 1) / 2 by decide
    · exact fun _ => le_rfl
  · rw [Card.room, made, Room.taken_eq]
    congr 1
    show GetAmountFreeDataClusters superblock (Function.update fat newCluster _) = freeClusters superblock card - _
    omega
  · rw [grown]

theorem addDirectory_full (sound : Sound superblock card chain) (directory : (dir, Content.directory) ∈ card.loaded)
    (full : freeClusters superblock card < (card.room superblock dir).taken) :
    ∃ fault, addDirectory superblock dir card = .error fault := by
  rw [Room.taken_eq] at full
  by_cases room : entryCluster (card.fileEntryDict dir).length ≤ freeClusters superblock card
  · obtain ⟨fat, chain', new, appends, appended⟩ := sound.append_ok directory room
    have left := appended.free
    have missing : GetFreeDataCluster superblock fat = noCluster := Layout.no_free_cluster superblock (by omega)
    refine ⟨.outOfBounds, ?_⟩
    unfold addDirectory
    rw [bind_ok appends, bind_ok (show dereference (some new) _ = .ok (new, _) from rfl), bind_ok (growDirectory_ok rfl),
      bind_ok (show (get : CardM Card) _ = .ok (_, _) from rfl)]
    dsimp only
    rw [missing]
    rfl
  · refine ⟨.nullPointer, ?_⟩
    unfold addDirectory
    rw [bind_ok (sound.append_full directory (Nat.not_le.mp room))]
    rfl

theorem Opened.other {other new : Slot} (opened : Opened superblock card dir new card') (old : other ∈ card.slots) :
    other ≠ new := by
  rintro rfl
  exact opened.fresh old

theorem Kept.inside {card'' : Card} (opened : Opened superblock card dir slot card') (inner : Kept card' slot card'') :
    Kept card dir card'' := by
  refine ⟨opened.kept.loaded.trans inner.loaded, fun other old different => ?_⟩
  rw [inner.others other (opened.kept.slots old) (opened.other old), opened.kept.others other old different]

theorem addFiles_outcome (entries : List HostEntry) (sound : Sound superblock card chain)
    (directory : (dir, Content.directory) ∈ card.loaded) :
    Outcome (addFiles superblock entries dir) card (account superblock entries (card.room superblock dir) ≠ none)
      fun _ card' => (∃ chain', Sound superblock card' chain') ∧ Kept card dir card' ∧
        account superblock entries (card.room superblock dir) = some (card'.room superblock dir) := by
  induction entries, dir using addFiles.induct generalizing card chain with
  | case1 dir =>
    rw [addFiles, account]
    exact ⟨Option.some_ne_none _, ⟨chain, sound⟩, .refl, rfl⟩
  | case2 name size order opens rest dir ih =>
    rw [addFiles, account]
    refine Outcome.andThen (AddFile_outcome sound directory size opens) ?_
    rintro _ card' ⟨⟨chain', sound'⟩, kept, room⟩
    rw [← room]
    refine (ih sound' (kept.directory directory)).weaken fun _ _ _ after => ?_
    exact ⟨after.1, kept.trans after.2.1, after.2.2⟩
  | case3 name contents rest dir inner ih =>
    rw [addFiles, account]
    have checks : folderFits superblock dir contents card =
        .ok ((card.room superblock dir).fits superblock contents, card) := rfl
    refine .step checks ?_
    cases fits : (card.room superblock dir).fits superblock contents with
    | false =>
      rw [if_neg Bool.false_ne_true, if_neg Bool.false_ne_true]
      exact ih sound directory
    | true =>
      rw [if_pos rfl, if_pos rfl]
      by_cases room : (card.room superblock dir).taken ≤ (card.room superblock dir).free
      · rw [if_pos (decide_eq_true room)]
        obtain ⟨new, card', makes, opened⟩ := addDirectory_ok sound directory room
        obtain ⟨chain', sound'⟩ := opened.sound
        refine .step makes ?_
        rw [← opened.inner]
        have fills := inner new sound' opened.directory
        cases filled : account superblock (GetOrderedFiles contents) (card'.room superblock new) with
        | none =>
          rw [filled] at fills
          exact fills.faulty (not_not_intro rfl) (not_not_intro rfl)
        | some left =>
          rw [filled] at fills
          refine (fills.congr (iff_true_intro (Option.some_ne_none left))).andThen ?_
          rintro _ card'' ⟨⟨chain'', sound''⟩, kept, room''⟩
          have keeps := Kept.inside opened kept
          have dirRoom : card''.room superblock dir =
              { free := left.free, length := (card.room superblock dir).length + 1 } := by
            have sameLength := kept.others dir (opened.kept.slots (mem_slots directory)) (opened.other (mem_slots directory))
            rw [Card.room, sameLength, opened.grown, Option.some.inj room'']
            rfl
          dsimp only
          rw [← dirRoom]
          refine (ih sound'' (keeps.directory directory)).weaken fun _ _ _ after => ?_
          exact ⟨after.1, keeps.trans after.2.1, after.2.2⟩
      · rw [if_neg (by rwa [decide_eq_true_iff])]
        obtain ⟨fault, faults⟩ := addDirectory_full sound directory (Nat.not_le.mp room)
        exact .fail faults (not_not_intro rfl)

/-! ## A formatted card -/

theorem emptyCard_sound (superblock : Superblock) :
    Sound superblock (emptyCard superblock) fun slot => if slot = (0, 0) then [0] else [] := by
  have root := superblock.root
  have slots : (emptyCard superblock).slots = [(0, 0)] := by
    rw [Card.slots, emptyCard, root]
    rfl
  have rootEntry : (emptyCard superblock).fileEntryDict (0, 0) = { length := 2, cluster := 0 } := by
    unfold emptyCard
    dsimp only
    rw [root, if_pos rfl]
  have first : (emptyCard superblock).fat 0 = LastDataCluster ||| DataClusterInUseMask := by
    unfold emptyCard
    dsimp only
    rw [root, if_pos rfl]
  have member : ((0, 0), Content.directory) ∈ (emptyCard superblock).loaded := by
    rw [emptyCard, root]
    exact List.mem_singleton_self _
  have only : ∀ {slot content}, (slot, content) ∈ (emptyCard superblock).loaded → slot = (0, 0) ∧ content = .directory := by
    intro slot content inside
    rw [emptyCard, root] at inside
    cases List.mem_singleton.mp inside
    exact ⟨rfl, rfl⟩
  refine ⟨?_, slots ▸ List.nodup_singleton _, ?_, ?_, ?_, ?_⟩
  · rw [slots]
    refine ⟨?_, List.nodup_singleton 0, ?_, ?_, ?_⟩
    · intro slot inside
      rw [List.mem_singleton.mp inside, if_pos rfl]
      exact .single (nextCluster_last first)
    · intro cluster inside
      rw [List.mem_singleton.mp inside, first]
      rfl
    · intro cluster inside
      rw [List.mem_singleton.mp inside]
      exact (amount_bounds superblock).1
    · intro cluster outside
      have other : cluster ≠ superblock.rootdir_cluster := fun same =>
        outside (List.mem_singleton.mpr (same.trans root))
      unfold emptyCard
      dsimp only
      rw [if_neg other]
      rfl
  · intro slot inside cluster head
    rw [slots] at inside
    rw [List.mem_singleton.mp inside] at head ⊢
    rw [rootEntry]
    exact Option.some.inj head
  · intro slot content inside
    obtain ⟨rfl, rfl⟩ := only inside
    rw [rootEntry]
    exact show 1 = (2 + 1) / 2 by decide
  · intro slot inside
    obtain ⟨rfl, -⟩ := only inside
    rw [rootEntry]
  · intro slot inside
    rw [slots] at inside
    rw [List.mem_singleton.mp inside]
    refine ⟨(0, 0), member, 0, rfl, ?_, Nat.two_pos⟩
    rw [rootEntry]
    exact Nat.two_pos

/-- A formatted card has its root directory only. -/
def emptyRoom (superblock : Superblock) : Room := { free := GetAmountDataClusters superblock - 1, length := 2 }

theorem emptyCard_room (superblock : Superblock) :
    (emptyCard superblock).room superblock (superblock.rootdir_cluster, 0) = emptyRoom superblock := by
  have sound := emptyCard_sound superblock
  have count := sound.layout.free_count
  have clusters : (clustersOf (emptyCard superblock).slots fun slot => if slot = (0, 0) then [0] else []) = [0] := by
    rw [Card.slots, emptyCard, superblock.root]
    rfl
  rw [clusters] at count
  have length : ((emptyCard superblock).fileEntryDict (superblock.rootdir_cluster, 0)).length = 2 := by
    unfold emptyCard
    dsimp only
    rw [if_pos rfl]
  rw [Card.room, length, emptyRoom]
  congr 1
  exact Nat.eq_sub_of_add_eq count

theorem AddFolder_outcome (superblock : Superblock) (filter : Option Name) (contents : List HostEntry) :
    Outcome (AddFolder superblock filter contents) (emptyCard superblock)
      (account superblock ((GetOrderedFiles contents).filter (loadsFromRoot filter)) (emptyRoom superblock) ≠ none)
      fun _ card => ∃ chain, Sound superblock card chain := by
  rw [← emptyCard_room]
  refine (addFiles_outcome _ (emptyCard_sound superblock) ?_).weaken fun _ _ _ loaded => loaded.1
  exact List.mem_singleton_self _

/-- Loading comes to an end with every entry's chain as it should be just when no folder takes clusters that the card
does not have, after its check has passed. -/
theorem loading_sound_iff (superblock : Superblock) (filter : Option Name) (contents : List HostEntry) :
    (∃ card chain, AddFolder superblock filter contents (emptyCard superblock) = .ok ((), card) ∧
      Sound superblock card chain) ↔
      account superblock ((GetOrderedFiles contents).filter (loadsFromRoot filter)) (emptyRoom superblock) ≠ none := by
  have outcome := AddFolder_outcome superblock filter contents
  unfold Outcome at outcome
  split at outcome
  · rename_i card ends
    obtain ⟨fine, chain, sound⟩ := outcome
    exact iff_of_true ⟨card, chain, ends, sound⟩ fine
  · rename_i fault ends
    refine iff_of_false ?_ outcome
    rintro ⟨card, chain, loads, -⟩
    cases ends.symm.trans loads

/-! ### A folder whose count of clusters is 2^32 -/

def standardCard : Superblock where
  page_len := 512
  pages_per_cluster := 2
  alloc_end := 8135
  rootdir_cluster := 0
  cluster_size := rfl
  large := by decide
  small := by decide
  root := rfl

def filling : List HostEntry := [.file ['F'] (7995 * 1024) none true]

def largest : HostEntry := .file ['L'] u32max none true

def uncounted : List HostEntry := List.replicate 1023 largest ++ [.file ['R'] ((2 ^ 22 - 513) * 1024) none true]

def crowded : List HostEntry := [.folder ['A'] filling, .folder ['B'] uncounted]

theorem requiredLoop_largest (pages clusters count : Nat) (rest : List HostEntry) :
    requiredLoop standardCard (pages % 2 ^ 32) (clusters % 2 ^ 32) (List.replicate count largest ++ rest) =
      requiredLoop standardCard ((pages + count) % 2 ^ 32) ((clusters + count * 2 ^ 22) % 2 ^ 32) rest := by
  induction count generalizing pages clusters with
  | zero => rw [Nat.zero_mul, Nat.add_zero, Nat.add_zero, List.replicate_zero, List.nil_append]
  | succ count ih =>
    have counted : countClusters standardCard (min u32max u32max) = 2 ^ 22 := by decide
    rw [List.replicate_succ, List.cons_append, largest, requiredLoop, if_neg (by decide), counted, Nat.mod_add_mod,
      Nat.mod_add_mod, ← largest, ih]
    congr 2
    · rw [Nat.add_assoc, Nat.add_comm 1]
    · rw [Nat.add_assoc, Nat.succ_mul, Nat.add_comm (2 ^ 22)]

theorem uncounted_required : CalculateRequiredClustersOfDirectory standardCard uncounted = 0 := by
  have step := requiredLoop_largest 2 0 1023 [.file ['R'] ((2 ^ 22 - 513) * 1024) none true]
  have start : requiredLoop standardCard (2 % 2 ^ 32) (0 % 2 ^ 32) uncounted =
      CalculateRequiredClustersOfDirectory standardCard uncounted := rfl
  rw [← start, uncounted, step, requiredLoop, if_neg (by decide), requiredLoop]
  decide

theorem filling_required : CalculateRequiredClustersOfDirectory standardCard filling = 7997 := by
  rw [CalculateRequiredClustersOfDirectory, filling, requiredLoop, if_neg (by decide), requiredLoop]
  decide

theorem crowded_account : account standardCard crowded (emptyRoom standardCard) = none := by
  have first : (emptyRoom standardCard).fits standardCard filling = true := by
    rw [Room.fits, neededForFolder, filling_required]
    decide
  have file : account standardCard (GetOrderedFiles filling) { free := 7996, length := 2 } =
      some { free := 0, length := 3 } := by
    rw [show GetOrderedFiles filling = filling from rfl, filling, account, account]
    decide
  have second : Room.fits standardCard uncounted { free := 0, length := 3 } = true := by
    rw [Room.fits, neededForFolder, uncounted_required]
    decide
  rw [crowded, account, if_pos first, if_pos (by decide)]
  rw [show (emptyRoom standardCard).free - (emptyRoom standardCard).taken = 7996 from by decide, file]
  dsimp only
  rw [account]
  rw [show Room.mk 0 ((emptyRoom standardCard).length + 1) = { free := 0, length := 3 } from rfl, if_pos second,
    if_neg (by decide)]

theorem crowded_unsound : ¬ ∃ card chain,
    AddFolder standardCard none crowded (emptyCard standardCard) = .ok ((), card) ∧ Sound standardCard card chain := by
  rintro ⟨card, chain, loads, -⟩
  have outcome := AddFolder_outcome standardCard none crowded
  unfold Outcome at outcome
  rw [loads] at outcome
  exact outcome.1 crowded_account

end Pcsx2.Memcard
