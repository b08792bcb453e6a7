import Pcsx2.Memcard.Folder

/-!
# Chains of clusters

The entries that are loaded own chains of clusters. No cluster is on two of them, and those that are on none are as
they were on the formatted card.
-/

namespace Pcsx2.Memcard
open Foundation

/-! ## Entries of the FAT -/

variable {cluster : Nat}

theorem link_next (small : cluster < 2 ^ 31) :
    (cluster ||| DataClusterInUseMask) &&& NextDataClusterMask = cluster := by
  have inUseMask : DataClusterInUseMask = 2 ^ 31 := rfl
  have nextMask : NextDataClusterMask = 2 ^ 31 - 1 := rfl
  rw [inUseMask, nextMask, Nat.and_two_pow_sub_one_eq_mod, Nat.or_two_pow_eq_add_of_lt small, Nat.add_mod_right]
  exact Nat.mod_eq_of_lt small

theorem link_inUse (cluster : Nat) : inUse (cluster ||| DataClusterInUseMask) = true := by
  have bit : ((cluster ||| DataClusterInUseMask) &&& DataClusterInUseMask).testBit 31 = true := by
    have inUseMask : DataClusterInUseMask = 2 ^ 31 := rfl
    rw [inUseMask, Nat.testBit_and, Nat.testBit_or, Nat.testBit_two_pow_self, Bool.or_true, Bool.and_true]
  unfold inUse
  rw [bne_iff_ne]
  intro zero
  rw [zero] at bit
  cases bit

/-- The cluster behind `cluster`. -/
def nextCluster (fat : Nat → Nat) (cluster : Nat) : Option Nat :=
  if fat cluster &&& NextDataClusterMask = LastDataCluster then none else some (fat cluster &&& NextDataClusterMask)

theorem nextCluster_last {fat : Nat → Nat} (ends : fat cluster = LastDataCluster ||| DataClusterInUseMask) :
    nextCluster fat cluster = none := by
  unfold nextCluster
  rw [ends]
  rfl

theorem nextCluster_link {fat : Nat → Nat} {cluster next : Nat} (links : fat cluster = next ||| DataClusterInUseMask)
    (small : next < 65536) : nextCluster fat cluster = some next := by
  unfold nextCluster
  rw [links, link_next (by omega), if_neg (by unfold LastDataCluster; omega)]

/-! ## The layout of a card -/

variable {superblock : Superblock} {fat : Nat → Nat} {slots : List Slot} {chain : Slot → List Nat}

/-- What `CreateFat` writes, and the entries it leaves. -/
def createdFat (superblock : Superblock) (cluster : Nat) : Nat :=
  if cluster < superblock.alloc_end then 0x7FFFFFFF else 0xFFFFFFFF

abbrev clustersOf (slots : List Slot) (chain : Slot → List Nat) : List Nat := slots.flatMap chain

structure Layout (superblock : Superblock) (fat : Nat → Nat) (slots : List Slot) (chain : Slot → List Nat) : Prop where
  linked : ∀ slot ∈ slots, Linked (nextCluster fat) (chain slot)
  disjoint : (clustersOf slots chain).Nodup
  used : ∀ cluster ∈ clustersOf slots chain, inUse (fat cluster) = true
  below : ∀ cluster ∈ clustersOf slots chain, cluster < GetAmountDataClusters superblock
  untouched : ∀ cluster ∉ clustersOf slots chain, fat cluster = createdFat superblock cluster

theorem amount_bounds (superblock : Superblock) :
    0 < GetAmountDataClusters superblock ∧
      GetAmountDataClusters superblock < superblock.alloc_end := by
  have := superblock.large
  unfold GetAmountDataClusters
  omega

namespace Layout

variable {slot : Slot}

theorem mem_clustersOf (inside : slot ∈ slots) (member : cluster ∈ chain slot) :
    cluster ∈ clustersOf slots chain :=
  List.mem_flatMap.mpr ⟨slot, inside, member⟩

theorem distinct (layout : Layout superblock fat slots chain) (inside : slot ∈ slots) :
    (chain slot).Nodup :=
  (List.nodup_flatMap.mp layout.disjoint).1 slot inside

theorem inUse_iff (layout : Layout superblock fat slots chain)
    (below : cluster < GetAmountDataClusters superblock) :
    inUse (fat cluster) = true ↔ cluster ∈ clustersOf slots chain := by
  constructor
  · intro used
    by_contra outside
    rw [layout.untouched cluster outside, createdFat, if_pos (below.trans (amount_bounds superblock).2)] at used
    exact absurd used (by decide)
  · exact layout.used cluster

theorem free_count (layout : Layout superblock fat slots chain) :
    GetAmountFreeDataClusters superblock fat + (clustersOf slots chain).length =
      GetAmountDataClusters superblock := by
  have split := List.length_eq_countP_add_countP (fun cluster => inUse (fat cluster))
    (l := List.range (GetAmountDataClusters superblock))
  have taken : ((List.range (GetAmountDataClusters superblock)).filter fun cluster => inUse (fat cluster)).Perm
      (clustersOf slots chain) := by
    apply (List.perm_ext_iff_of_nodup (List.nodup_range.filter _) layout.disjoint).mpr
    intro cluster
    rw [List.mem_filter, List.mem_range]
    constructor
    · rintro ⟨below, used⟩
      exact (layout.inUse_iff below).mp used
    · intro member
      exact ⟨layout.below cluster member, layout.used cluster member⟩
  rw [List.length_range, List.countP_eq_length_filter, taken.length_eq] at split
  have same : GetAmountFreeDataClusters superblock fat =
      (List.range (GetAmountDataClusters superblock)).countP fun cluster => !inUse (fat cluster) := rfl
  have unused : (fun cluster => !inUse (fat cluster)) = fun cluster => decide ¬ inUse (fat cluster) = true := by
    funext cluster
    cases inUse (fat cluster) <;> rfl
  rw [same, unused, Nat.add_comm]
  exact split.symm

theorem free_cluster (layout : Layout superblock fat slots chain)
    (room : 0 < GetAmountFreeDataClusters superblock fat) :
    GetFreeDataCluster superblock fat < GetAmountDataClusters superblock ∧
      GetFreeDataCluster superblock fat ∉ clustersOf slots chain := by
  obtain ⟨free, member, unused⟩ := List.countP_pos_iff.mp room
  have found : ((List.range (GetAmountDataClusters superblock)).find? fun i => !inUse (fat i)).isSome :=
    List.find?_isSome.mpr ⟨free, member, unused⟩
  obtain ⟨cluster, found⟩ := Option.isSome_iff_exists.mp found
  have below := List.mem_range.mp (List.mem_of_find?_eq_some found)
  have unused := List.find?_some found
  rw [GetFreeDataCluster, found, Option.getD_some]
  refine ⟨below, fun member => ?_⟩
  rw [layout.used cluster member] at unused
  cases unused

variable (superblock) in
theorem no_free_cluster (full : GetAmountFreeDataClusters superblock fat = 0) :
    GetFreeDataCluster superblock fat = noCluster := by
  have missing : ((List.range (GetAmountDataClusters superblock)).find? fun i => !inUse (fat i)) = none :=
    List.find?_eq_none.mpr (List.countP_eq_zero.mp full)
  rw [GetFreeDataCluster, missing, Option.getD_none]

theorem clustersOf_start (new : slot ∉ slots) :
    clustersOf (slots ++ [slot]) (Function.update chain slot []) = clustersOf slots chain := by
  rw [clustersOf, List.flatMap_append, flatMap_update_of_not_mem new, List.flatMap_singleton, Function.update_self,
    List.append_nil]

theorem start (layout : Layout superblock fat slots chain) (new : slot ∉ slots) :
    Layout superblock fat (slots ++ [slot]) (Function.update chain slot []) := by
  have same : clustersOf (slots ++ [slot]) (Function.update chain slot []) = clustersOf slots chain := clustersOf_start new
  refine ⟨fun other inside => ?_, ?_, ?_, ?_, ?_⟩
  · by_cases here : other = slot
    · rw [here, Function.update_self]
      trivial
    · rw [Function.update_of_ne here]
      refine layout.linked other ((List.mem_append.mp inside).resolve_right ?_)
      rwa [List.mem_singleton]
  all_goals rw [same]
  · exact layout.disjoint
  · exact layout.used
  · exact layout.below
  · exact layout.untouched

theorem apart (layout : Layout superblock fat slots chain) {slot other : Slot} (inside : slot ∈ slots)
    (otherInside : other ∈ slots) (different : other ≠ slot) (member : cluster ∈ chain other) : cluster ∉ chain slot := by
  have pairwise := (List.nodup_flatMap.mp layout.disjoint).2
  have : Std.Symm (Function.onFun List.Disjoint chain) := ⟨fun _ _ disjoint => List.disjoint_symm disjoint⟩
  exact pairwise.forall otherInside inside different member

theorem grow (layout : Layout superblock fat slots chain) {fat' : Nat → Nat}
    (inside : slot ∈ slots) (distinct : slots.Nodup) (below : cluster < GetAmountDataClusters superblock)
    (free : cluster ∉ clustersOf slots chain) (linked : Linked (nextCluster fat') (chain slot ++ [cluster]))
    (used : ∀ other ∈ chain slot ++ [cluster], inUse (fat' other) = true)
    (same : ∀ other ∉ chain slot ++ [cluster], fat' other = fat other) :
    Layout superblock fat' slots (Function.update chain slot (chain slot ++ [cluster])) := by
  have clusters := flatMap_update_snoc chain inside distinct cluster
  have outside : ∀ other ∈ slots, other ≠ slot → ∀ member ∈ chain other, member ∉ chain slot ++ [cluster] := by
    intro other otherInside different member ofOther
    rw [List.mem_append, List.mem_singleton, not_or]
    refine ⟨layout.apart inside otherInside different ofOther, ?_⟩
    rintro rfl
    exact free (mem_clustersOf otherInside ofOther)
  refine ⟨fun other otherInside => ?_, ?_, fun other member => ?_, fun other member => ?_, fun other untouched => ?_⟩
  · by_cases here : other = slot
    · rwa [here, Function.update_self]
    · rw [Function.update_of_ne here]
      refine (layout.linked other otherInside).congr fun member ofOther => ?_
      unfold nextCluster
      rw [same member (outside other otherInside here member ofOther)]
  · exact clusters.nodup_iff.mpr (List.nodup_cons.mpr ⟨free, layout.disjoint⟩)
  · by_cases changed : other ∈ chain slot ++ [cluster]
    · exact used other changed
    · rw [same other changed]
      rcases List.mem_cons.mp (clusters.mem_iff.mp member) with rfl | member
      · exact absurd (List.mem_append_right _ (List.mem_singleton_self _)) changed
      · exact layout.used other member
  · rcases List.mem_cons.mp (clusters.mem_iff.mp member) with rfl | member
    · exact below
    · exact layout.below other member
  · have outsideOld : other ≠ cluster ∧ other ∉ clustersOf slots chain := by
      rwa [clusters.mem_iff, List.mem_cons, not_or] at untouched
    rw [same other ?_, layout.untouched other outsideOld.2]
    rw [List.mem_append, List.mem_singleton, not_or]
    exact ⟨fun member => outsideOld.2 (mem_clustersOf inside member), outsideOld.1⟩

theorem first (layout : Layout superblock fat slots chain) (inside : slot ∈ slots)
    (distinct : slots.Nodup) (empty : chain slot = []) (below : cluster < GetAmountDataClusters superblock)
    (free : cluster ∉ clustersOf slots chain) :
    Layout superblock (Function.update fat cluster (LastDataCluster ||| DataClusterInUseMask)) slots
      (Function.update chain slot [cluster]) := by
  have single : [cluster] = chain slot ++ [cluster] := by rw [empty, List.nil_append]
  rw [single]
  refine layout.grow inside distinct below free ?_ ?_ ?_
  · rw [← single]
    exact .single (nextCluster_last (Function.update_self ..))
  · rw [← single]
    intro other member
    rw [List.mem_singleton.mp member, Function.update_self]
    rfl
  · rw [← single]
    intro other outside
    exact Function.update_of_ne (fun same => outside (List.mem_singleton.mpr same)) _ _

theorem extend (layout : Layout superblock fat slots chain) {last cluster : Nat} (inside : slot ∈ slots)
    (distinct : slots.Nodup) (ends : (chain slot).getLast? = some last)
    (below : cluster < GetAmountDataClusters superblock) (free : cluster ∉ clustersOf slots chain) :
    Layout superblock
      (Function.update (Function.update fat last (cluster ||| DataClusterInUseMask)) cluster
        (LastDataCluster ||| DataClusterInUseMask))
      slots (Function.update chain slot (chain slot ++ [cluster])) := by
  have bounds := amount_bounds superblock
  have small := superblock.small
  have lastInside : last ∈ chain slot := List.mem_of_getLast? ends
  have other : last ≠ cluster := by
    rintro rfl
    exact free (mem_clustersOf inside lastInside)
  have fresh : cluster ∉ chain slot := fun member => free (mem_clustersOf inside member)
  refine layout.grow inside distinct below free ?_ ?_ ?_
  · refine (layout.linked slot inside).snoc (layout.distinct inside) ends fresh ?_ ?_ ?_
    · apply nextCluster_link _ (by omega)
      rw [Function.update_of_ne other, Function.update_self]
    · exact nextCluster_last (Function.update_self ..)
    · intro cell member different
      unfold nextCluster
      rw [Function.update_of_ne, Function.update_of_ne different]
      rintro rfl
      exact fresh member
  · intro cell member
    by_cases new : cell = cluster
    · rw [new, Function.update_self]
      rfl
    · rw [Function.update_of_ne new]
      by_cases atEnd : cell = last
      · rw [atEnd, Function.update_self]
        exact link_inUse cluster
      · rw [Function.update_of_ne atEnd]
        have old : cell ∈ chain slot := (List.mem_append.mp member).resolve_right (by rwa [List.mem_singleton])
        exact layout.used cell (mem_clustersOf inside old)
  · intro cell outside
    rw [List.mem_append, List.mem_singleton, not_or] at outside
    rw [Function.update_of_ne outside.2, Function.update_of_ne]
    rintro rfl
    exact outside.1 lastInside

end Layout

end Pcsx2.Memcard
