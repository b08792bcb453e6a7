import Pcsx2.Foundation.Triple
import Pcsx2.Memcard.Layout

/-!
# Entries of a card

What the operations on directories and files do to the chains of clusters.
-/

namespace Pcsx2.Memcard
open Foundation

variable {superblock : Superblock} {card : Card} {chain : Slot → List Nat} {slot dir : Slot}

def Card.slots (card : Card) : List Slot := card.loaded.map Prod.fst

def clustersFor : Content → Nat → Nat
  | .directory, length => (length + 1) / 2
  | .file size, _ => (size + 1023) / 1024

/-- Every entry has a chain of its own, from its first cluster on, which is as long as its length asks for. An entry is
in a cluster of a directory, in front of the end of the directory. -/
structure Sound (superblock : Superblock) (card : Card) (chain : Slot → List Nat) : Prop where
  layout : Layout superblock card.fat card.slots chain
  slots : card.slots.Nodup
  head : ∀ slot ∈ card.slots, ∀ first ∈ (chain slot).head?, (card.fileEntryDict slot).cluster = first
  length : ∀ slot content, (slot, content) ∈ card.loaded →
    (chain slot).length = clustersFor content (card.fileEntryDict slot).length
  dots : ∀ slot, (slot, Content.directory) ∈ card.loaded → 2 ≤ (card.fileEntryDict slot).length
  placed : ∀ slot ∈ card.slots, ∃ dir, (dir, Content.directory) ∈ card.loaded ∧ ∃ place,
    (chain dir)[place]? = some slot.1 ∧ 2 * place + slot.2 < (card.fileEntryDict dir).length ∧ slot.2 < 2

theorem mem_slots {content : Content} (member : (slot, content) ∈ card.loaded) : slot ∈ card.slots :=
  List.mem_map.mpr ⟨(slot, content), member, rfl⟩

/-! ## The end of a chain -/

theorem readFat_ok {cluster : Nat} (inside : cluster < fatEntries) :
    readFat cluster card = .ok (card.fat cluster, card) := by
  unfold readFat
  rw [if_pos inside]
  rfl

theorem writeFat_ok {cluster : Nat} (inside : cluster < fatEntries) (value : Nat) :
    writeFat cluster value card = .ok ((), { card with fat := Function.update card.fat cluster value }) := by
  unfold writeFat
  rw [if_pos inside]
  rfl

theorem lastClusterLoop_step {cluster : Nat} (inside : cluster < fatEntries) (rounds : Nat) :
    lastClusterLoop (rounds + 1) cluster card =
      match nextCluster card.fat cluster with
      | some next => lastClusterLoop rounds next card
      | none => .ok (cluster, card) := by
  have unfolded : lastClusterLoop (rounds + 1) cluster card =
      (if card.fat cluster &&& NextDataClusterMask ≠ LastDataCluster then
        lastClusterLoop rounds (card.fat cluster &&& NextDataClusterMask)
      else
        pure cluster) card := by
    show Except.bind (readFat cluster card) _ = _
    rw [readFat_ok inside]
    rfl
  rw [unfolded, nextCluster]
  by_cases ends : card.fat cluster &&& NextDataClusterMask = LastDataCluster
  · rw [if_neg (not_not_intro ends), if_pos ends]
    rfl
  · rw [if_pos ends, if_neg ends]

theorem lastClusterLoop_ok {first last : Nat} {rest : List Nat} (rounds : Nat)
    (linked : Linked (nextCluster card.fat) (first :: rest)) (inside : ∀ cluster ∈ first :: rest, cluster < fatEntries)
    (enough : rest.length < rounds) (ends : (first :: rest).getLast? = some last) :
    lastClusterLoop rounds first card = .ok (last, card) := by
  obtain ⟨rounds, rfl⟩ : ∃ less, rounds = less + 1 := ⟨rounds - 1, by omega⟩
  rw [lastClusterLoop_step (inside first List.mem_cons_self)]
  induction rest generalizing first rounds with
  | nil =>
    obtain rfl : first = last := by simpa using ends
    rw [show nextCluster card.fat first = none from linked.1]
  | cons second rest ih =>
    rw [show nextCluster card.fat first = some second from linked.1]
    rw [List.length_cons] at enough
    obtain ⟨rounds, rfl⟩ : ∃ less, rounds = less + 1 := ⟨rounds - 1, by omega⟩
    have behind : ∀ cluster ∈ second :: rest, cluster < fatEntries :=
      fun cluster member => inside cluster (List.mem_cons_of_mem first member)
    show lastClusterLoop (rounds + 1) second card = _
    rw [lastClusterLoop_step (behind second List.mem_cons_self)]
    exact ih linked.2 behind (by simpa using ends) rounds (by omega)

/-! ## A new entry of a directory -/

def freeClusters (superblock : Superblock) (card : Card) : Nat := GetAmountFreeDataClusters superblock card.fat

/-- The directory has room for one more entry at `slot`, and nothing else has changed. -/
structure Appended (superblock : Superblock) (card : Card) (chain : Slot → List Nat) (dir : Slot) (fat : Nat → Nat)
    (chain' : Slot → List Nat) (slot : Slot) : Prop where
  layout : Layout superblock fat card.slots chain'
  others : ∀ other, other ≠ dir → chain' other = chain other
  grows : chain dir <+: chain' dir
  length : (chain' dir).length = ((card.fileEntryDict dir).length + 2) / 2
  place : (chain' dir)[(card.fileEntryDict dir).length / 2]? = some slot.1
  half : slot.2 = (card.fileEntryDict dir).length % 2
  new : slot ∉ card.slots
  free : GetAmountFreeDataClusters superblock fat + entryCluster (card.fileEntryDict dir).length =
    freeClusters superblock card

namespace Sound

theorem directory_last (sound : Sound superblock card chain) (directory : (dir, Content.directory) ∈ card.loaded) :
    ∃ last, (chain dir).getLast? = some last ∧
      GetLastClusterOfData superblock (card.fileEntryDict dir).cluster card = .ok (last, card) := by
  have inside := mem_slots directory
  have length : (chain dir).length = ((card.fileEntryDict dir).length + 1) / 2 := sound.length dir .directory directory
  have dots := sound.dots dir directory
  obtain ⟨first, rest, same⟩ : ∃ first rest, chain dir = first :: rest :=
    List.exists_cons_of_length_pos (by omega)
  have ends : (chain dir).getLast? = some ((first :: rest).getLast (List.cons_ne_nil first rest)) := by
    rw [same]
    exact List.getLast?_eq_some_getLast _
  have bounds := amount_bounds superblock
  have small := superblock.small
  have below : ∀ cluster ∈ chain dir, cluster < GetAmountDataClusters superblock :=
    fun cluster member => sound.layout.below cluster (Layout.mem_clustersOf inside member)
  have named := sound.head dir inside first (by rw [same]; rfl)
  have short : (chain dir).length ≤ GetAmountDataClusters superblock := by
    have subset : chain dir ⊆ List.range (GetAmountDataClusters superblock) :=
      fun cluster member => List.mem_range.mpr (below cluster member)
    have := (List.subperm_of_subset (sound.layout.distinct inside) subset).length_le
    rwa [List.length_range] at this
  refine ⟨_, ends, ?_⟩
  rw [GetLastClusterOfData, named]
  rw [same] at ends short below
  have linked := sound.layout.linked dir inside
  rw [same] at linked
  rw [List.length_cons] at short
  refine lastClusterLoop_ok _ linked (fun cluster member => ?_) (by omega) ends
  have := below cluster member
  unfold fatEntries
  omega

theorem append_last (sound : Sound superblock card chain) (directory : (dir, Content.directory) ∈ card.loaded)
    {last : Nat} (ends : (chain dir).getLast? = some last) :
    AppendFileEntryToDir superblock dir card =
      (if (card.fileEntryDict dir).length % 2 = 0 then do
        let newCluster := GetFreeDataCluster superblock (← get).fat
        if newCluster = noCluster then
          return none
        else
          writeFat last (newCluster ||| DataClusterInUseMask)
          writeFat newCluster (LastDataCluster ||| DataClusterInUseMask)
          return some (newCluster, 0)
      else
        return some (last, 1) : CardM (Option Slot)) card := by
  obtain ⟨found, ends', finds⟩ := sound.directory_last directory
  obtain rfl : found = last := Option.some.inj (ends'.symm.trans ends)
  unfold AppendFileEntryToDir
  rw [bind_ok (show readEntry dir card = .ok (card.fileEntryDict dir, card) from rfl), bind_ok finds]

theorem append_half (sound : Sound superblock card chain) (directory : (dir, Content.directory) ∈ card.loaded)
    {last : Nat} (ends : (chain dir).getLast? = some last) (odd : (card.fileEntryDict dir).length % 2 = 1) :
    Appended superblock card chain dir card.fat chain (last, 1) := by
  have length : (chain dir).length = ((card.fileEntryDict dir).length + 1) / 2 := sound.length dir .directory directory
  have inside := mem_slots directory
  have place : (chain dir)[(card.fileEntryDict dir).length / 2]? = some last := by
    rw [← ends, List.getLast?_eq_getElem?]
    congr 1
    omega
  refine ⟨sound.layout, fun _ _ => rfl, List.prefix_rfl, by omega, place, odd.symm, fun member => ?_, ?_⟩
  · -- An entry at the same place would be at the end of the directory, and not in front of it.
    obtain ⟨other, otherDirectory, index, at', before, _⟩ := sound.placed _ member
    have same : other = dir := by
      by_contra different
      exact sound.layout.apart inside (mem_slots otherDirectory) different (List.mem_of_getElem? at')
        (List.mem_of_getLast? ends)
    subst same
    have indices : index = (card.fileEntryDict other).length / 2 := by
      have bound := (List.getElem?_eq_some_iff.mp at').1
      exact (List.getElem?_inj bound (sound.layout.distinct inside)).mp (at'.trans place.symm)
    dsimp only at before
    omega
  · rw [entryCluster, if_neg (by omega), Nat.add_zero, freeClusters]

theorem append_cluster (sound : Sound superblock card chain) (directory : (dir, Content.directory) ∈ card.loaded)
    {last : Nat} (ends : (chain dir).getLast? = some last) (even : (card.fileEntryDict dir).length % 2 = 0)
    (room : 0 < freeClusters superblock card) :
    Appended superblock card chain dir
      (Function.update (Function.update card.fat last (GetFreeDataCluster superblock card.fat ||| DataClusterInUseMask))
        (GetFreeDataCluster superblock card.fat) (LastDataCluster ||| DataClusterInUseMask))
      (Function.update chain dir (chain dir ++ [GetFreeDataCluster superblock card.fat]))
      (GetFreeDataCluster superblock card.fat, 0) := by
  have length : (chain dir).length = ((card.fileEntryDict dir).length + 1) / 2 := sound.length dir .directory directory
  have inside := mem_slots directory
  obtain ⟨below, free⟩ := sound.layout.free_cluster room
  have extended := sound.layout.extend inside sound.slots ends below free
  refine ⟨extended, fun other different => Function.update_of_ne different _ _, ?_, ?_, ?_, even.symm, fun member => ?_,
    ?_⟩
  · rw [Function.update_self]
    exact List.prefix_append _ _
  · rw [Function.update_self, List.length_append, List.length_singleton]
    omega
  · rw [Function.update_self, List.getElem?_append_right (by omega)]
    rw [show (card.fileEntryDict dir).length / 2 - (chain dir).length = 0 by omega]
    rfl
  · obtain ⟨other, otherDirectory, index, at', _⟩ := sound.placed _ member
    exact free (Layout.mem_clustersOf (mem_slots otherDirectory) (List.mem_of_getElem? at'))
  · have before := sound.layout.free_count
    have after := extended.free_count
    have clusters := (flatMap_update_snoc chain inside sound.slots
      (GetFreeDataCluster superblock card.fat)).length_eq
    rw [List.length_cons] at clusters
    rw [entryCluster, if_pos even, freeClusters]
    unfold clustersOf at before after
    omega

theorem append_ok (sound : Sound superblock card chain) (directory : (dir, Content.directory) ∈ card.loaded)
    (room : entryCluster (card.fileEntryDict dir).length ≤ freeClusters superblock card) :
    ∃ fat chain' slot, AppendFileEntryToDir superblock dir card = .ok (some slot, { card with fat }) ∧
      Appended superblock card chain dir fat chain' slot := by
  obtain ⟨last, ends, _⟩ := sound.directory_last directory
  have inside : last < fatEntries := by
    have := sound.layout.below last (Layout.mem_clustersOf (mem_slots directory) (List.mem_of_getLast? ends))
    have := amount_bounds superblock
    have := superblock.small
    unfold fatEntries
    omega
  rw [sound.append_last directory ends]
  by_cases even : (card.fileEntryDict dir).length % 2 = 0
  · rw [entryCluster, if_pos even] at room
    have below := (sound.layout.free_cluster room).1
    have newInside : GetFreeDataCluster superblock card.fat < fatEntries := by
      have := amount_bounds superblock
      have := superblock.small
      unfold fatEntries
      omega
    have some : GetFreeDataCluster superblock card.fat ≠ noCluster := by
      unfold noCluster
      unfold fatEntries at newInside
      omega
    refine ⟨_, _, _, ?_, sound.append_cluster directory ends even room⟩
    rw [if_pos even, bind_ok (show (get : CardM Card) card = .ok (card, card) from rfl), if_neg some]
    rw [bind_ok (writeFat_ok inside _), bind_ok (writeFat_ok newInside _)]
    rfl
  · refine ⟨card.fat, chain, _, ?_, sound.append_half directory ends (by omega)⟩
    rw [if_neg even]
    rfl

theorem append_full (sound : Sound superblock card chain) (directory : (dir, Content.directory) ∈ card.loaded)
    (full : freeClusters superblock card < entryCluster (card.fileEntryDict dir).length) :
    AppendFileEntryToDir superblock dir card = .ok (none, card) := by
  obtain ⟨last, ends, _⟩ := sound.directory_last directory
  have even : (card.fileEntryDict dir).length % 2 = 0 := by
    by_contra odd
    rw [entryCluster, if_neg odd] at full
    omega
  rw [entryCluster, if_pos even] at full
  have missing : GetFreeDataCluster superblock card.fat = noCluster :=
    Layout.no_free_cluster superblock (Nat.lt_one_iff.mp full)
  rw [sound.append_last directory ends, if_pos even, bind_ok (show (get : CardM Card) card = .ok (card, card) from rfl),
    if_pos missing]
  rfl

end Sound

/-! ## The clusters of a file -/

section Files

variable {slots : List Slot}

/-- The chain of `slot` has `more` clusters more, and as many are taken. -/
structure Taken (superblock : Superblock) (card : Card) (slots : List Slot) (chain : Slot → List Nat) (slot : Slot)
    (more : List Nat) (card' : Card) : Prop where
  layout : Layout superblock card'.fat slots (Function.update chain slot (chain slot ++ more))
  fatOnly : card' = { card with fat := card'.fat }
  free : freeClusters superblock card' + more.length = freeClusters superblock card

theorem free_after {fat' : Nat → Nat} {chain' : Slot → List Nat} (layout : Layout superblock card.fat slots chain)
    (layout' : Layout superblock fat' slots chain') (count : Nat)
    (clusters : (clustersOf slots chain').length = (clustersOf slots chain).length + count) :
    GetAmountFreeDataClusters superblock fat' + count = freeClusters superblock card := by
  have before := layout.free_count
  have after := layout'.free_count
  unfold freeClusters
  omega

theorem extendFile_outcome (layout : Layout superblock card.fat slots chain) (inside : slot ∈ slots)
    (distinct : slots.Nodup) {last count : Nat} (ends : (chain slot).getLast? = some last)
    (room : count ≤ freeClusters superblock card) :
    Outcome (extendFile superblock count last) card True fun _ card' =>
      ∃ more, more.length = count ∧ Taken superblock card slots chain slot more card' := by
  induction count generalizing card chain last with
  | zero =>
    refine .done rfl ⟨[], rfl, ?_, rfl, rfl⟩
    rwa [List.append_nil, Function.update_eq_self]
  | succ count ih =>
    obtain ⟨below, free⟩ := layout.free_cluster (by unfold freeClusters at room; omega)
    have bounds := amount_bounds superblock
    have small := superblock.small
    have lastBelow := layout.below last (Layout.mem_clustersOf inside (List.mem_of_getLast? ends))
    have extended := layout.extend inside distinct ends below free
    have clusters := (flatMap_update_snoc chain inside distinct
      (GetFreeDataCluster superblock card.fat)).length_eq
    have left := free_after layout extended 1 clusters
    refine .step (show (get : CardM Card) card = .ok (card, card) from rfl) ?_
    refine .step (writeFat_ok (by unfold fatEntries; omega) _) ?_
    refine .step (writeFat_ok (by unfold fatEntries; omega) _) ?_
    refine (ih extended (?_ : _ = some (GetFreeDataCluster superblock card.fat)) ?_).weaken ?_
    · rw [Function.update_self, List.getLast?_concat]
    · exact Nat.le_of_succ_le_succ (room.trans_eq left.symm)
    · rintro _ _ card' ⟨more, length, taken⟩
      refine ⟨GetFreeDataCluster superblock card.fat :: more, by rw [List.length_cons, length], ?_, taken.fatOnly, ?_⟩
      · have layout' := taken.layout
        rwa [Function.update_self, Function.update_idem, List.append_assoc, List.singleton_append] at layout'
      · rw [List.length_cons, ← Nat.add_assoc, taken.free]
        exact left

theorem allocateFile_outcome (layout : Layout superblock card.fat slots chain) (inside : slot ∈ slots)
    (distinct : slots.Nodup) (empty : chain slot = []) {filesize : Nat}
    (room : countClusters superblock filesize ≤ freeClusters superblock card) :
    Outcome (allocateFile superblock filesize) card True fun first card' =>
      ∃ clusters, clusters.length = countClusters superblock filesize ∧
        (∀ cluster ∈ clusters.head?, first = cluster) ∧ Taken superblock card slots chain slot clusters card' := by
  have size : clusterSize superblock = 1024 := superblock.cluster_size
  unfold allocateFile
  refine .ite (fun filled => ?_) fun nothing => ?_
  · have positive : 0 < countClusters superblock filesize := by
      unfold countClusters
      rw [size]
      split <;> omega
    obtain ⟨below, free⟩ := layout.free_cluster (by unfold freeClusters at room; omega)
    have bounds := amount_bounds superblock
    have small := superblock.small
    have started := layout.first inside distinct empty below free
    have single : chain slot ++ [GetFreeDataCluster superblock card.fat] = [GetFreeDataCluster superblock card.fat] := by
      rw [empty, List.nil_append]
    have clusters := (flatMap_update_snoc chain inside distinct
      (GetFreeDataCluster superblock card.fat)).length_eq
    rw [single] at clusters
    have left := free_after layout started 1 clusters
    refine .step (show (get : CardM Card) card = .ok (card, card) from rfl) ?_
    refine .step (writeFat_ok (by unfold fatEntries; omega) _) ?_
    have behind : countClusters superblock filesize - 1 + 1 ≤ freeClusters superblock card := by omega
    have ends : (Function.update chain slot [GetFreeDataCluster superblock card.fat] slot).getLast? =
        some (GetFreeDataCluster superblock card.fat) := by
      rw [Function.update_self]
      rfl
    refine Outcome.andThen (extendFile_outcome started inside distinct ends
      (Nat.le_of_succ_le_succ (behind.trans_eq left.symm))) fun _ card' extended => .done rfl ?_
    obtain ⟨more, length, taken⟩ := extended
    refine ⟨GetFreeDataCluster superblock card.fat :: more, by rw [List.length_cons, length]; omega, ?_, ?_,
      taken.fatOnly, ?_⟩
    · intro cluster first
      exact Option.some.inj first
    · have layout' := taken.layout
      rw [Function.update_self, Function.update_idem, List.singleton_append] at layout'
      rwa [empty, List.nil_append]
    · rw [List.length_cons, ← Nat.add_assoc, taken.free]
      exact left
  · obtain rfl : filesize = 0 := not_not.mp nothing
    refine .done rfl ⟨[], ?_, nofun, ?_, rfl, rfl⟩
    · unfold countClusters
      rw [size]
      rfl
    · rwa [List.append_nil, Function.update_eq_self]

end Files

end Pcsx2.Memcard
