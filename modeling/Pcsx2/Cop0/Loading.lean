import Pcsx2.Cop0.Translation

/-!
# Loading a savestate

A savestate has the TLB and `cachedTlbs`, but not the virtual map. What the entries before have mapped is undone when
both are those of the savestate already.
-/

namespace Pcsx2.Cop0
open Vtlb Foundation

variable {host : Host} {t : Tlbs} {base vtlb : MapData} {page : Nat}

/-! ## The load -/

def unmapChanged (host : Host) (s_tlb_backup : Nat → Tlbs) (s : State) (i : Nat) : State :=
  if s_tlb_backup i = s.tlb i then s else UnmapTLB host (s_tlb_backup i) s

def mapAgain (host : Host) (s : State) (i : Nat) : State := { s with vtlb := MapTLB host (s.tlb i) s.vtlb }

def PostLoadPrep (host : Host) (s_tlb_backup : Nat → Tlbs) (s : State) : State :=
  (List.range 48).foldl (mapAgain host) ((List.range 48).foldl (unmapChanged host s_tlb_backup) s)

/-- `PreLoadPrep`, the part of `FreezeInternals` that reads the TLB, and `PostLoadPrep`. -/
def load (host : Host) (running saved : State) : State :=
  PostLoadPrep host running.tlb { running with tlb := saved.tlb, cachedTlbs := saved.cachedTlbs }

/-! ## The pages that an entry writes -/

namespace Tlbs

def pageNumber (addr : UInt32) : Nat := (addr <<< 12).toNat / VTLB_PAGE_SIZE

/-- The pages of the map that `MapTLB` and `UnmapTLB` write, for any mask. -/
def lowerPages (t : Tlbs) : List Nat := if EntryLo_V t.EntryLo0 then (t.pages t.saddr0).map pageNumber else []
def upperPages (t : Tlbs) : List Nat := if EntryLo_V t.EntryLo1 then (t.pages t.saddr1).map pageNumber else []
def scratchPages (t : Tlbs) : List Nat := (List.range 4).map fun i => (t.VPN2.toNat / VTLB_PAGE_SIZE + i) % VTLB_VMAP_ITEMS

def mapped (t : Tlbs) : List Nat := if t.isSPR then t.scratchPages else t.lowerPages ++ t.upperPages

/-- What `MapTLB` writes. -/
def target (host : Host) (vtlb : MapData) (t : Tlbs) (page : Nat) : VTLBVirtual :=
  if t.isSPR then
    .pointer (host.eeScratch +
      (page + VTLB_VMAP_ITEMS - t.VPN2.toNat / VTLB_PAGE_SIZE) % VTLB_VMAP_ITEMS * VTLB_PAGE_SIZE)
  else if page ∈ t.upperPages then
    vtlb.virtualOf host (t.PFN1 + ((UInt32.ofNat page - t.saddr1) <<< 12)).toNat
  else vtlb.virtualOf host (t.PFN0 + ((UInt32.ofNat page - t.saddr0) <<< 12)).toNat

end Tlbs

/-! ## Changes of the map -/

/-- With the physical map of `base`, the change gives the written pages their entries and leaves the others. -/
structure Sets (base : MapData) (change : MapData → MapData) (written : List Nat) (entry : Nat → VTLBVirtual) : Prop where
  pmap : ∀ vtlb, vtlb.pmap = base.pmap → (change vtlb).pmap = base.pmap
  vmap : ∀ vtlb, vtlb.pmap = base.pmap → ∀ page,
    (change vtlb).vmap page = if page ∈ written then entry page else vtlb.vmap page

namespace Sets

variable {change first second : MapData → MapData} {written earlier later : List Nat} {entry old new : Nat → VTLBVirtual}

theorem none (entry : Nat → VTLBVirtual) : Sets base id [] entry :=
  ⟨fun _ same => same, fun _ _ _ => (if_neg List.not_mem_nil).symm⟩

theorem congr (sets : Sets base change written old) (same : ∀ page ∈ written, old page = new page) :
    Sets base change written new := by
  refine ⟨sets.pmap, fun vtlb given page => ?_⟩
  rw [sets.vmap vtlb given page]
  by_cases member : page ∈ written
  · rw [if_pos member, if_pos member, same page member]
  · rw [if_neg member, if_neg member]

theorem after (before : Sets base first earlier old) (next : Sets base second later new) :
    Sets base (fun vtlb => second (first vtlb)) (earlier ++ later) fun page =>
      if page ∈ later then new page else old page := by
  refine ⟨fun vtlb same => next.pmap _ (before.pmap vtlb same), fun vtlb same page => ?_⟩
  rw [next.vmap _ (before.pmap vtlb same), before.vmap vtlb same]
  by_cases last : page ∈ later
  · rw [if_pos last, if_pos (List.mem_append_right _ last), if_pos last]
  · rw [if_neg last, if_neg last]
    exact if_congr (by rw [List.mem_append, or_iff_left last]) rfl rfl

theorem onlyIf (sets : Sets base change written entry) (condition : Bool) :
    Sets base (fun vtlb => if condition then change vtlb else vtlb) (if condition then written else []) entry := by
  cases condition with
  | true => exact sets
  | false => exact none entry

theorem foldl {ι : Type} {changes : MapData → ι → MapData} {pages : ι → List Nat} (items : List ι)
    (each : ∀ item ∈ items, Sets base (fun vtlb => changes vtlb item) (pages item) entry) :
    Sets base (fun vtlb => items.foldl changes vtlb) (items.flatMap pages) entry := by
  induction items with
  | nil => exact none entry
  | cons item rest ih =>
    have both := (each item List.mem_cons_self).after (ih fun other member => each other (List.mem_cons_of_mem _ member))
    rw [List.flatMap_cons]
    apply both.congr
    intro page _
    exact ite_self _

end Sets

/-! ## One entry -/

theorem pageNumber_lt (addr : UInt32) : Tlbs.pageNumber addr < VTLB_VMAP_ITEMS := by
  have small := (addr <<< 12).toNat_lt
  unfold Tlbs.pageNumber VTLB_PAGE_SIZE VTLB_VMAP_ITEMS
  omega

theorem shiftPage_toNat (addr : UInt32) : (addr <<< 12).toNat = Tlbs.pageNumber addr * VTLB_PAGE_SIZE := by
  have shifted : (addr <<< 12).toNat = addr.toNat <<< 12 % 2 ^ 32 := UInt32.toNat_shiftLeft addr 12
  unfold Tlbs.pageNumber VTLB_PAGE_SIZE
  rw [shifted, Nat.shiftLeft_eq]
  omega

theorem pageNumber_offset (addr saddr : UInt32) :
    (UInt32.ofNat (Tlbs.pageNumber addr) - saddr) <<< 12 = (addr - saddr) <<< 12 := by
  have page := pageNumber_lt addr
  have small := saddr.toNat_lt
  have place := shiftPage_toNat addr
  have shifted : ∀ word : UInt32, (word <<< 12).toNat = word.toNat <<< 12 % 2 ^ 32 := fun word => UInt32.toNat_shiftLeft word 12
  rw [shifted, Nat.shiftLeft_eq] at place
  unfold VTLB_VMAP_ITEMS at page
  unfold VTLB_PAGE_SIZE at place
  have number : (UInt32.ofNat (Tlbs.pageNumber addr)).toNat = Tlbs.pageNumber addr := by
    rw [UInt32.toNat_ofNat']
    omega
  have paged := shifted (UInt32.ofNat (Tlbs.pageNumber addr) - saddr)
  have whole := shifted (addr - saddr)
  rw [UInt32.toNat_sub, Nat.shiftLeft_eq] at paged whole
  rw [number] at paged
  apply UInt32.toNat_inj.mp
  omega

theorem physical_bound (PFN offset : UInt32) :
    ((PFN <<< 12) + (offset <<< 12)).toNat + 1 * VTLB_PAGE_SIZE ≤ 2 ^ 32 := by
  have sum := UInt32.toNat_add (PFN <<< 12) (offset <<< 12)
  rw [shiftPage_toNat, shiftPage_toNat] at sum
  unfold VTLB_PAGE_SIZE at *
  omega

theorem fill_single (vmap : Nat → VTLBVirtual) (first : Nat) (entry : Nat → VTLBVirtual) (page : Nat) :
    fill vmap first 1 (fun i => entry (first + i)) page = if page ∈ [first] then entry page else vmap page := by
  rw [fill_page]
  apply if_congr _ rfl rfl
  rw [List.mem_singleton]
  omega

theorem memSetPageAddr_sets (host : Host) (base : MapData) (addr PFN offset : UInt32) :
    Sets base (fun vtlb => memSetPageAddr host vtlb (addr <<< 12) ((PFN <<< 12) + (offset <<< 12))) [Tlbs.pageNumber addr]
      fun _ => base.virtualOf host ((PFN <<< 12) + (offset <<< 12)).toNat := by
  have mapped := fun vtlb => VMap_vmap host 1 vtlb (Nat.succ_le_of_lt (pageNumber_lt addr)) (physical_bound PFN offset)
  rw [← shiftPage_toNat] at mapped
  refine ⟨fun vtlb same => (mapped vtlb).1.trans same, fun vtlb same page => ?_⟩
  refine (congrFun ((mapped vtlb).2.trans (fill_one _ _ _)) page).trans ?_
  rw [Nat.zero_mul, Nat.add_zero, virtualOf_congr same]
  exact fill_single _ _ (fun _ => base.virtualOf host _) page

theorem memClearPageAddr_sets (host : Host) (base : MapData) (addr : UInt32) :
    Sets base (fun vtlb => memClearPageAddr host vtlb (addr <<< 12)) [Tlbs.pageNumber addr]
      fun page => .handler host.UnmappedVirtHandler (page * VTLB_PAGE_SIZE) := by
  have unmapped := fun vtlb => VMapUnmap_vmap host 1 vtlb (Nat.succ_le_of_lt (pageNumber_lt addr))
  rw [← shiftPage_toNat] at unmapped
  refine ⟨fun vtlb same => (unmapped vtlb).1.trans same, fun vtlb _ page => ?_⟩
  refine (congrFun (unmapped vtlb).2 page).trans ?_
  exact fill_single _ _ (fun page => .handler host.UnmappedVirtHandler (page * VTLB_PAGE_SIZE)) page

theorem mapHalf_sets (host : Host) (base : MapData) (t : Tlbs) (saddr PFN : UInt32) :
    Sets base (t.mapHalf host saddr (PFN <<< 12)) ((t.pages saddr).map Tlbs.pageNumber) fun page =>
      base.virtualOf host ((PFN <<< 12) + ((UInt32.ofNat page - saddr) <<< 12)).toNat := by
  rw [List.map_eq_flatMap]
  apply Sets.foldl
  intro addr _
  apply (memSetPageAddr_sets host base addr PFN (addr - saddr)).congr
  intro page member
  rw [List.mem_singleton.mp member, pageNumber_offset]

theorem unmapHalf_sets (host : Host) (base : MapData) (t : Tlbs) (saddr : UInt32) :
    Sets base (t.unmapHalf host saddr) ((t.pages saddr).map Tlbs.pageNumber) fun page =>
      .handler host.UnmappedVirtHandler (page * VTLB_PAGE_SIZE) := by
  rw [List.map_eq_flatMap]
  exact Sets.foldl _ fun addr _ => memClearPageAddr_sets host base addr

theorem scratch_sets (base : MapData) (t : Tlbs) {changes : MapData → Nat → MapData} {entry : Nat → VTLBVirtual}
    (pmap : ∀ vtlb i, (changes vtlb i).pmap = vtlb.pmap)
    (vmap : ∀ vtlb i, i < 4 → (changes vtlb i).vmap =
      Function.update vtlb.vmap ((t.VPN2.toNat / VTLB_PAGE_SIZE + i) % VTLB_VMAP_ITEMS)
        (entry ((t.VPN2.toNat / VTLB_PAGE_SIZE + i) % VTLB_VMAP_ITEMS))) :
    Sets base (fun vtlb => (List.range 4).foldl changes vtlb) t.scratchPages entry := by
  unfold Tlbs.scratchPages
  rw [List.map_eq_flatMap]
  apply Sets.foldl
  intro i member
  refine ⟨fun vtlb same => (pmap vtlb i).trans same, fun vtlb _ page => ?_⟩
  rw [vmap vtlb i (List.mem_range.mp member), Function.update_apply]
  by_cases here : page = (t.VPN2.toNat / VTLB_PAGE_SIZE + i) % VTLB_VMAP_ITEMS
  · rw [if_pos here, if_pos (List.mem_singleton.mpr here), here]
  · rw [if_neg here, if_neg fun other => here (List.mem_singleton.mp other)]

theorem scratch_address (t : Tlbs) (i : Nat) :
    add32 t.VPN2.toNat (i * VTLB_PAGE_SIZE) =
      (t.VPN2.toNat / VTLB_PAGE_SIZE + i) % VTLB_VMAP_ITEMS * VTLB_PAGE_SIZE := by
  have aligned : t.VPN2.toNat = (((t.EntryHi >>> 13) &&& ~~~t.Mask) <<< 1 <<< 12).toNat := by
    unfold Tlbs.VPN2
    rw [← UInt32.shiftLeft_add (by decide) (by decide) (by decide)]
    rfl
  rw [shiftPage_toNat] at aligned
  unfold add32 VTLB_VMAP_ITEMS VTLB_PAGE_SIZE at *
  omega

theorem bufferPages_foldl (vtlb : MapData) (num_pages vaddr buffer : Nat) :
    MapData.bufferPages num_pages (add32 vaddr 0) buffer vtlb = (List.range num_pages).foldl
      (fun vtlb i => vtlb.setVmap (add32 vaddr (i * VTLB_PAGE_SIZE)) (.pointer (buffer + i * VTLB_PAGE_SIZE))) vtlb := by
  induction num_pages generalizing vtlb vaddr buffer with
  | zero => rfl
  | succ num_pages ih =>
    have start : add32 (add32 vaddr 0) VTLB_PAGE_SIZE = add32 (vaddr + VTLB_PAGE_SIZE) 0 := by
      unfold add32
      omega
    have later : ∀ i, (i + 1) * VTLB_PAGE_SIZE = VTLB_PAGE_SIZE + i * VTLB_PAGE_SIZE := fun i => by
      rw [Nat.succ_mul, Nat.add_comm]
    rw [MapData.bufferPages, start, ih, List.range_succ_eq_map, List.foldl_cons, List.foldl_map, Nat.zero_mul, Nat.add_zero]
    simp only [Nat.succ_eq_add_one, later, Nat.add_assoc, add32]

theorem unmapPages_foldl (host : Host) (vtlb : MapData) (num_pages vaddr : Nat) :
    MapData.unmapPages host num_pages (add32 vaddr 0) vtlb = (List.range num_pages).foldl
      (fun vtlb i => vtlb.setVmap (add32 vaddr (i * VTLB_PAGE_SIZE))
        (.handler host.UnmappedVirtHandler (add32 vaddr (i * VTLB_PAGE_SIZE)))) vtlb := by
  induction num_pages generalizing vtlb vaddr with
  | zero => rfl
  | succ num_pages ih =>
    have start : add32 (add32 vaddr 0) VTLB_PAGE_SIZE = add32 (vaddr + VTLB_PAGE_SIZE) 0 := by
      unfold add32
      omega
    have later : ∀ i, (i + 1) * VTLB_PAGE_SIZE = VTLB_PAGE_SIZE + i * VTLB_PAGE_SIZE := fun i => by
      rw [Nat.succ_mul, Nat.add_comm]
    rw [MapData.unmapPages, start, ih, List.range_succ_eq_map, List.foldl_cons, List.foldl_map, Nat.zero_mul]
    simp only [Nat.succ_eq_add_one, later, Nat.add_assoc, add32]

theorem add32_VPN2 (t : Tlbs) : add32 t.VPN2.toNat 0 = t.VPN2.toNat := by
  have small := t.VPN2.toNat_lt
  unfold add32
  omega

theorem VMapBuffer_scratch (host : Host) (vaddr : Nat) (vtlb : MapData) :
    vtlb.vtlb_VMapBuffer host vaddr host.eeScratch Scratch = MapData.bufferPages 4 vaddr host.eeScratch
      (if vtlb.CHECK_FASTMEM then MapData.mapScratch 4 vaddr (EEmemOffset + scratchOffset) vtlb else vtlb) := by
  have four : Scratch / VTLB_PAGE_SIZE = 4 := by decide
  have whole : host.eeScratch = host.eeScratch ∧ Scratch = Scratch := ⟨rfl, rfl⟩
  unfold MapData.vtlb_VMapBuffer
  dsimp only
  rw [if_pos whole, four]

theorem Sets.sameMaps {change : MapData → MapData} {written : List Nat} {entry : Nat → VTLBVirtual}
    {prepare : MapData → MapData} (sets : Sets base change written entry) (same : ∀ vtlb, SameMaps vtlb (prepare vtlb)) :
    Sets base (fun vtlb => change (prepare vtlb)) written entry := by
  refine ⟨fun vtlb given => sets.pmap _ ((same vtlb).2.trans given), fun vtlb given page => ?_⟩
  rw [sets.vmap _ ((same vtlb).2.trans given), (same vtlb).1]

theorem mapScratch_sets (host : Host) (base : MapData) (t : Tlbs) :
    Sets base (fun vtlb => vtlb.vtlb_VMapBuffer host t.VPN2.toNat host.eeScratch Scratch) t.scratchPages fun page =>
      .pointer (host.eeScratch +
        (page + VTLB_VMAP_ITEMS - t.VPN2.toNat / VTLB_PAGE_SIZE) % VTLB_VMAP_ITEMS * VTLB_PAGE_SIZE) := by
  have pages : Sets base (MapData.bufferPages 4 t.VPN2.toNat host.eeScratch) t.scratchPages fun page =>
      .pointer (host.eeScratch +
        (page + VTLB_VMAP_ITEMS - t.VPN2.toNat / VTLB_PAGE_SIZE) % VTLB_VMAP_ITEMS * VTLB_PAGE_SIZE) := by
    have loop := fun vtlb => bufferPages_foldl vtlb 4 t.VPN2.toNat host.eeScratch
    rw [add32_VPN2] at loop
    rw [show MapData.bufferPages 4 t.VPN2.toNat host.eeScratch = _ from funext loop]
    refine scratch_sets base t (fun _ _ => rfl) fun vtlb i few => ?_
    rw [scratch_address, setVmap_page]
    have place : ((t.VPN2.toNat / VTLB_PAGE_SIZE + i) % VTLB_VMAP_ITEMS + VTLB_VMAP_ITEMS - t.VPN2.toNat / VTLB_PAGE_SIZE) %
        VTLB_VMAP_ITEMS = i := by
      have small := t.VPN2.toNat_lt
      unfold VTLB_VMAP_ITEMS VTLB_PAGE_SIZE
      omega
    rw [place]
  simp only [VMapBuffer_scratch]
  apply pages.sameMaps
  intro vtlb
  split
  · exact scratch_sameMaps vtlb _ _ _
  · exact ⟨rfl, rfl⟩

theorem unmapScratch_sets (host : Host) (base : MapData) (t : Tlbs) :
    Sets base (fun vtlb => vtlb.vtlb_VMapUnmap host t.VPN2.toNat 0x4000) t.scratchPages fun page =>
      .handler host.UnmappedVirtHandler (page * VTLB_PAGE_SIZE) := by
  have pages : Sets base (MapData.unmapPages host 4 t.VPN2.toNat) t.scratchPages fun page =>
      .handler host.UnmappedVirtHandler (page * VTLB_PAGE_SIZE) := by
    have loop := fun vtlb => unmapPages_foldl host vtlb 4 t.VPN2.toNat
    rw [add32_VPN2] at loop
    rw [show MapData.unmapPages host 4 t.VPN2.toNat = _ from funext loop]
    refine scratch_sets base t (fun _ _ => rfl) fun vtlb i _ => ?_
    rw [scratch_address, setVmap_page]
  have four : 0x4000 / VTLB_PAGE_SIZE = 4 := by decide
  unfold MapData.vtlb_VMapUnmap
  rw [four]
  exact pages.sameMaps fun vtlb => removes_sameMaps vtlb 4 t.VPN2.toNat

theorem MapTLB_sets (host : Host) (base : MapData) (t : Tlbs) :
    Sets base (MapTLB host t) t.mapped (t.target host base) := by
  unfold Tlbs.mapped
  cases spr : t.isSPR with
  | true =>
    have same : MapTLB host t = fun vtlb => vtlb.vtlb_VMapBuffer host t.VPN2.toNat host.eeScratch Scratch := by
      funext vtlb
      exact if_pos spr
    rw [if_pos rfl, same]
    apply (mapScratch_sets host base t).congr
    intro page _
    exact (if_pos spr).symm
  | false =>
    have lower := (mapHalf_sets host base t t.saddr0 (EntryLo_PFN t.EntryLo0 &&& ~~~t.Mask)).onlyIf (EntryLo_V t.EntryLo0)
    have upper := (mapHalf_sets host base t t.saddr1 (EntryLo_PFN t.EntryLo1 &&& ~~~t.Mask)).onlyIf (EntryLo_V t.EntryLo1)
    have same : MapTLB host t = fun vtlb => _ := funext fun vtlb => if_neg (Bool.eq_false_iff.mp spr)
    rw [if_neg Bool.false_ne_true, same]
    apply (lower.after upper).congr
    intro page _
    unfold Tlbs.target
    rw [spr, if_neg Bool.false_ne_true]
    rfl

theorem unmapPages_sets (host : Host) (base : MapData) (t : Tlbs) :
    Sets base (unmapPages host t) t.mapped fun page => .handler host.UnmappedVirtHandler (page * VTLB_PAGE_SIZE) := by
  unfold Tlbs.mapped
  cases spr : t.isSPR with
  | true =>
    have same : unmapPages host t = fun vtlb => vtlb.vtlb_VMapUnmap host t.VPN2.toNat 0x4000 := by
      funext vtlb
      exact if_pos spr
    rw [if_pos rfl, same]
    exact unmapScratch_sets host base t
  | false =>
    have lower := (unmapHalf_sets host base t t.saddr0).onlyIf (EntryLo_V t.EntryLo0)
    have upper := (unmapHalf_sets host base t t.saddr1).onlyIf (EntryLo_V t.EntryLo1)
    have same : unmapPages host t = fun vtlb => _ := funext fun vtlb => if_neg (Bool.eq_false_iff.mp spr)
    rw [if_neg Bool.false_ne_true, same]
    apply (lower.after upper).congr
    intro page _
    exact ite_self _

/-! ## All entries -/

/-- No two entries have a page in common. -/
def Apart (tlb : Nat → Tlbs) : Prop := ∀ i < 48, ∀ j < 48, i ≠ j → ∀ page ∈ (tlb i).mapped, page ∉ (tlb j).mapped

/-- Each page of an entry is mapped as the entry has it. -/
def MappedAsEntries (host : Host) (s : State) : Prop :=
  ∀ i < 48, ∀ page ∈ (s.tlb i).mapped, s.vtlb.vmap page = (s.tlb i).target host s.vtlb page

theorem target_congr (same : vtlb.pmap = base.pmap) (t : Tlbs) (page : Nat) :
    t.target host vtlb page = t.target host base page := by
  unfold Tlbs.target
  rw [virtualOf_congr same, virtualOf_congr same]

def entryOf (host : Host) (base : MapData) (tlb : Nat → Tlbs) (page : Nat) : VTLBVirtual :=
  match (List.range 48).find? fun i => page ∈ (tlb i).mapped with
  | some i => (tlb i).target host base page
  | none => base.vmap page

theorem entryOf_eq {tlb : Nat → Tlbs} (apart : Apart tlb) {i : Nat} (inside : i < 48) (member : page ∈ (tlb i).mapped) :
    entryOf host base tlb page = (tlb i).target host base page := by
  unfold entryOf
  cases found : (List.range 48).find? fun i => page ∈ (tlb i).mapped with
  | none =>
    have missing := List.find?_eq_none.mp found i (List.mem_range.mpr inside)
    exact absurd (decide_eq_true member) missing
  | some j =>
    have chosen := List.find?_some found
    have has : page ∈ (tlb j).mapped := of_decide_eq_true chosen
    have below : j < 48 := List.mem_range.mp (List.mem_of_find?_eq_some found)
    by_cases same : j = i
    · rw [same]
    · exact absurd member (apart j below i inside same page has)

theorem mapAgain_vtlb (s : State) (indices : List Nat) :
    (indices.foldl (mapAgain host) s).tlb = s.tlb ∧ (indices.foldl (mapAgain host) s).cachedTlbs = s.cachedTlbs ∧
      (indices.foldl (mapAgain host) s).vtlb = indices.foldl (fun vtlb i => MapTLB host (s.tlb i) vtlb) s.vtlb := by
  induction indices generalizing s with
  | nil => exact ⟨rfl, rfl, rfl⟩
  | cons i rest ih => exact ih (mapAgain host s i)

theorem mapAgain_sets {tlb : Nat → Tlbs} (apart : Apart tlb) :
    Sets base (fun vtlb => (List.range 48).foldl (fun vtlb i => MapTLB host (tlb i) vtlb) vtlb)
      ((List.range 48).flatMap fun i => (tlb i).mapped) (entryOf host base tlb) := by
  apply Sets.foldl
  intro i member
  apply (MapTLB_sets host base (tlb i)).congr
  intro page has
  exact (entryOf_eq apart (List.mem_range.mp member) has).symm

def eraseEach (cachedTlbs : List CachedTlb) (entries : List Tlbs) : List CachedTlb :=
  entries.foldl (fun cachedTlbs t => cachedTlbs.eraseP t.sameAddresses) cachedTlbs

/-- The entries that are unmapped, of which those of the scratchpad leave `cachedTlbs` alone. -/
def changedEntries (before after : Nat → Tlbs) (indices : List Nat) : List Tlbs :=
  (indices.filter fun i => before i ≠ after i).map before

theorem unmapChanged_eq (s_tlb_backup : Nat → Tlbs) (s : State) (indices : List Nat) :
    indices.foldl (unmapChanged host s_tlb_backup) s =
      { tlb := s.tlb
        cachedTlbs := eraseEach s.cachedTlbs
          ((changedEntries s_tlb_backup s.tlb indices).filter fun t => !t.isSPR)
        vtlb := (changedEntries s_tlb_backup s.tlb indices).foldl (fun vtlb t => unmapPages host t vtlb) s.vtlb } := by
  induction indices generalizing s with
  | nil => rfl
  | cons i rest ih =>
    rw [List.foldl_cons, ih]
    unfold unmapChanged changedEntries
    by_cases same : s_tlb_backup i = s.tlb i
    · rw [if_pos same, List.filter_cons_of_neg (by simp [same])]
    · rw [if_neg same, List.filter_cons_of_pos (by simp [same]), List.map_cons, List.foldl_cons]
      unfold UnmapTLB
      cases spr : (s_tlb_backup i).isSPR with
      | true =>
        rw [List.filter_cons_of_neg (by simp [spr])]
        rfl
      | false =>
        rw [List.filter_cons_of_pos (by simp [spr])]
        rfl

theorem eraseEach_eq_iff {cachedTlbs : List CachedTlb} (entries : List Tlbs) :
    eraseEach cachedTlbs entries = cachedTlbs ↔ ∀ t ∈ entries, ∀ cached ∈ cachedTlbs, t.sameAddresses cached = false := by
  have shrinks : ∀ entries cachedTlbs, (eraseEach cachedTlbs entries).length ≤ cachedTlbs.length := by
    intro entries
    induction entries with
    | nil => exact fun _ => le_rfl
    | cons t rest ih => exact fun cachedTlbs => (ih _).trans List.length_eraseP_le
  induction entries with
  | nil => exact iff_of_true rfl nofun
  | cons t rest ih =>
    rw [List.forall_mem_cons]
    refine Iff.trans ?_ (and_congr_right fun _ => ih)
    show eraseEach (cachedTlbs.eraseP t.sameAddresses) rest = cachedTlbs ↔ _
    constructor
    · intro kept
      have whole : ∀ cached ∈ cachedTlbs, t.sameAddresses cached = false := by
        intro cached member
        by_contra matched
        have shorter := List.length_eraseP_of_mem member (Bool.eq_true_of_not_eq_false matched)
        have fewer := shrinks rest (cachedTlbs.eraseP t.sameAddresses)
        have some := List.length_pos_of_mem member
        rw [kept] at fewer
        omega
      refine ⟨whole, ?_⟩
      rwa [List.eraseP_of_forall_not (by simpa using whole)] at kept
    · rintro ⟨whole, kept⟩
      rw [List.eraseP_of_forall_not (by simpa using whole), kept]

/-! ## What is restored -/

theorem load_vtlb {running saved : State} (apart : Apart saved.tlb) (page : Nat) :
    (load host running saved).vtlb.vmap page =
      if page ∈ (List.range 48).flatMap fun i => (saved.tlb i).mapped then entryOf host running.vtlb saved.tlb page
      else if page ∈ (changedEntries running.tlb saved.tlb (List.range 48)).flatMap Tlbs.mapped then
        .handler host.UnmappedVirtHandler (page * VTLB_PAGE_SIZE)
      else running.vtlb.vmap page := by
  unfold load PostLoadPrep
  rw [(mapAgain_vtlb _ _).2.2, unmapChanged_eq]
  dsimp only
  have unmaps : Sets running.vtlb (fun vtlb => (changedEntries running.tlb saved.tlb (List.range 48)).foldl
      (fun vtlb t => unmapPages host t vtlb) vtlb) _ fun page => .handler host.UnmappedVirtHandler (page * VTLB_PAGE_SIZE) :=
    Sets.foldl _ fun t _ => unmapPages_sets host running.vtlb t
  rw [(mapAgain_sets apart).vmap _ (unmaps.pmap running.vtlb rfl), unmaps.vmap running.vtlb rfl]

theorem load_entries (host : Host) (running saved : State) :
    (load host running saved).tlb = saved.tlb ∧ (load host running saved).cachedTlbs = eraseEach saved.cachedTlbs
      ((changedEntries running.tlb saved.tlb (List.range 48)).filter fun t => !t.isSPR) := by
  unfold load PostLoadPrep
  rw [(mapAgain_vtlb _ _).1, (mapAgain_vtlb _ _).2.1, unmapChanged_eq]
  exact ⟨rfl, rfl⟩

/-- Pages of the entries of the savestate are mapped as they were there, those that only the entries before had are
unmapped, and `cachedTlbs` is that of the savestate. -/
structure Restored (host : Host) (running saved loaded : State) : Prop where
  tlb : loaded.tlb = saved.tlb
  cachedTlbs : loaded.cachedTlbs = saved.cachedTlbs
  mapped : ∀ i < 48, ∀ page ∈ (saved.tlb i).mapped, loaded.vtlb.vmap page = saved.vtlb.vmap page
  unmapped : ∀ page, (∃ i < 48, page ∈ (running.tlb i).mapped) → (∀ i < 48, page ∉ (saved.tlb i).mapped) →
    loaded.vtlb.vmap page = .handler host.UnmappedVirtHandler (page * VTLB_PAGE_SIZE)

/-- No entry before the load that another one replaces has the addresses and the mask of a place in the savestate. -/
def NoPlaceTaken (running saved : State) : Prop :=
  ∀ i < 48, running.tlb i ≠ saved.tlb i → (running.tlb i).isSPR = false →
    ∀ cached ∈ saved.cachedTlbs, (running.tlb i).sameAddresses cached = false

theorem noPlaceTaken_iff (host : Host) (running saved : State) :
    (load host running saved).cachedTlbs = saved.cachedTlbs ↔ NoPlaceTaken running saved := by
  rw [(load_entries host running saved).2, eraseEach_eq_iff]
  unfold NoPlaceTaken changedEntries
  simp only [List.mem_filter, List.mem_map, List.mem_range, decide_eq_true_eq, Bool.not_eq_true', and_imp,
    forall_exists_index]
  constructor
  · exact fun whole i inside changed plain => whole _ i inside changed rfl plain
  · rintro whole _ i inside changed rfl plain
    exact whole i inside changed plain

inductive Reachable (host : Host) (vtlb : MapData) : State → Prop
  | reset : Reachable host vtlb (reset vtlb)
  | write {s : State} (before : Reachable host vtlb s) (write : Write) : Reachable host vtlb (s.write host write)
  | load {running saved : State} (before : Reachable host vtlb running) (from_ : Reachable host vtlb saved) :
    Reachable host vtlb (load host running saved)

theorem write_pmap (s : State) (write : Write) : (s.write host write).vtlb.pmap = s.vtlb.pmap := by
  rw [write_eq]
  split
  · rfl
  · have unmapped : ∀ t, (UnmapTLB host t s).vtlb = unmapPages host t s.vtlb := by
      intro t
      unfold UnmapTLB
      dsimp only
      split <;> rfl
    have first := (unmapPages_sets host s.vtlb (s.tlb write.index)).pmap s.vtlb rfl
    rw [← unmapped] at first
    exact (MapTLB_sets host s.vtlb (writtenTLB write.regs)).pmap _ first

theorem foldl_pmap {ι : Type} {changes : MapData → ι → MapData} (keeps : ∀ vtlb item, (changes vtlb item).pmap = vtlb.pmap)
    (items : List ι) (vtlb : MapData) : (items.foldl changes vtlb).pmap = vtlb.pmap := by
  induction items generalizing vtlb with
  | nil => rfl
  | cons item rest ih => exact (ih _).trans (keeps vtlb item)

theorem load_pmap (host : Host) (running saved : State) : (load host running saved).vtlb.pmap = running.vtlb.pmap := by
  unfold load PostLoadPrep
  rw [(mapAgain_vtlb _ _).2.2, unmapChanged_eq]
  dsimp only
  rw [foldl_pmap fun vtlb i => (MapTLB_sets host vtlb (saved.tlb i)).pmap vtlb rfl]
  exact foldl_pmap (fun vtlb t => (unmapPages_sets host vtlb t).pmap vtlb rfl) _ _

theorem Reachable.pmap {s : State} (reachable : Reachable host vtlb s) : s.vtlb.pmap = vtlb.pmap := by
  induction reachable with
  | reset => rfl
  | write _ write ih => exact (write_pmap _ write).trans ih
  | load _ _ ih _ => exact (load_pmap host _ _).trans ih

/-- A load restores the TLB just when the savestate had mapped its entries, and no place of its `cachedTlbs` is taken
for one of an entry before. -/
theorem load_restores_iff (host : Host) (vtlb : MapData) {running saved : State} (before : Reachable host vtlb running)
    (from_ : Reachable host vtlb saved) (apart : Apart saved.tlb) :
    Restored host running saved (load host running saved) ↔
      MappedAsEntries host saved ∧ NoPlaceTaken running saved := by
  have pmap : running.vtlb.pmap = saved.vtlb.pmap := before.pmap.trans from_.pmap.symm
  have mapped : ∀ i < 48, ∀ page ∈ (saved.tlb i).mapped,
      (load host running saved).vtlb.vmap page = (saved.tlb i).target host saved.vtlb page := by
    intro i inside page member
    have listed : page ∈ (List.range 48).flatMap fun i => (saved.tlb i).mapped :=
      List.mem_flatMap.mpr ⟨i, List.mem_range.mpr inside, member⟩
    rw [load_vtlb apart, if_pos listed, entryOf_eq apart inside member, target_congr pmap]
  constructor
  · intro restored
    refine ⟨fun i inside page member => ?_, (noPlaceTaken_iff host running saved).mp restored.cachedTlbs⟩
    rw [← restored.mapped i inside page member, mapped i inside page member]
  · rintro ⟨asEntries, untaken⟩
    refine ⟨(load_entries host running saved).1, (noPlaceTaken_iff host running saved).mpr untaken, ?_, ?_⟩
    · intro i inside page member
      rw [mapped i inside page member, asEntries i inside page member]
    · rintro page ⟨i, inside, member⟩ elsewhere
      have unlisted : page ∉ (List.range 48).flatMap fun i => (saved.tlb i).mapped := by
        intro listed
        obtain ⟨j, below, has⟩ := List.mem_flatMap.mp listed
        exact elsewhere j (List.mem_range.mp below) has
      have changed : running.tlb i ≠ saved.tlb i := by
        intro same
        exact elsewhere i inside (same ▸ member)
      have gone : page ∈ (changedEntries running.tlb saved.tlb (List.range 48)).flatMap Tlbs.mapped := by
        refine List.mem_flatMap.mpr ⟨running.tlb i, List.mem_map.mpr ⟨i, ?_, rfl⟩, member⟩
        exact List.mem_filter.mpr ⟨List.mem_range.mpr inside, decide_eq_true changed⟩
      rw [load_vtlb apart, if_neg unlisted, if_pos gone]

/-! ## Entries that are kept apart -/

/-! ### An entry that is restored -/

theorem zero_mapped : (Tlbs.mk 0 0 0 0).mapped = [] := by decide

theorem cachedWrite_tlb (vtlb : MapData) :
    ((reset vtlb).write smallHost cachedWrite).tlb = Function.update (reset vtlb).tlb 1 oneEntry := by
  have written : writtenTLB cachedWrite.regs = oneEntry := by decide
  have index : cachedWrite.index = 1 := by decide
  rw [write_eq, index, if_neg (by decide), ← written]
  unfold UnmapTLB
  dsimp only
  split <;> rfl

theorem cachedWrite_apart (vtlb : MapData) : Apart ((reset vtlb).write smallHost cachedWrite).tlb := by
  rw [cachedWrite_tlb]
  have only : ∀ i page, page ∈ (Function.update (reset vtlb).tlb 1 oneEntry i).mapped → i = 1 := by
    intro i page member
    by_contra other
    rw [Function.update_of_ne other] at member
    change page ∈ (Tlbs.mk 0 0 0 0).mapped at member
    rw [zero_mapped] at member
    exact List.not_mem_nil member
  exact fun i _ j _ different page member also => different ((only i page member).trans (only j page also).symm)

theorem load_restores_iff_oneEntry :
    Restored smallHost (reset blank) ((reset blank).write smallHost cachedWrite)
      (load smallHost (reset blank) ((reset blank).write smallHost cachedWrite)) ↔
    MappedAsEntries smallHost ((reset blank).write smallHost cachedWrite) ∧
      NoPlaceTaken (reset blank) ((reset blank).write smallHost cachedWrite) :=
  load_restores_iff smallHost blank .reset (.write .reset cachedWrite) (cachedWrite_apart blank)

/-- What the running state has in an entry that it never wrote takes the restored place out of `cachedTlbs`. -/
theorem restored_taken : ¬ ∀ running saved, Reachable smallHost blank running → Reachable smallHost blank saved →
    Apart running.tlb → Apart saved.tlb → Restored smallHost running saved (load smallHost running saved) := by
  intro always
  have nothing : Apart (reset blank).tlb := fun i _ j _ _ page member => by
    change page ∈ (Tlbs.mk 0 0 0 0).mapped at member
    rw [zero_mapped] at member
    exact absurd member List.not_mem_nil
  have restored := (always (reset blank) _ .reset (.write .reset cachedWrite) nothing (cachedWrite_apart blank)).cachedTlbs
  have untaken := (noPlaceTaken_iff smallHost _ _).mp restored 1 (by decide) (by decide) (by decide)
  have matched := untaken oneEntry.cachedTlb (by decide)
  exact absurd matched (by decide)

end Pcsx2.Cop0
