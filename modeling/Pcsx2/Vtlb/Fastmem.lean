import Pcsx2.Foundation.Run
import Pcsx2.Vtlb.Memory

/-!
# The aliases of a page of main memory

The reverse map has the addresses that the fastmem area maps to a page, as long as no page is mapped to another one
while it still is mapped. The pair of the page it was mapped to is left then.
-/

namespace Pcsx2.Vtlb
open Foundation

variable {host : Host} {s s' : MapData} {vaddr paddr mainmem_offset : Nat} {mode : PageProtectionMode}

/-! ## Consistent maps -/

def aliasIn (s_fastmem_virtual_mapping : Nat → Nat) (vaddr : Nat) : Option Nat :=
  if vaddr % VTLB_PAGE_SIZE = 0 ∧ vaddr < 2 ^ 32 ∧
      s_fastmem_virtual_mapping (vaddr / VTLB_PAGE_SIZE) ≠ NO_FASTMEM_MAPPING then
    some (s_fastmem_virtual_mapping (vaddr / VTLB_PAGE_SIZE))
  else none

abbrev MapData.aliasOf (s : MapData) : Nat → Option Nat := aliasIn s.s_fastmem_virtual_mapping

structure Consistent (s : MapData) : Prop where
  inverse : Inverse s.aliasOf s.s_fastmem_physical_mapping
  area : ∀ vaddr, vaddr % VTLB_PAGE_SIZE = 0 → vaddr < 2 ^ 32 →
    (s.s_fastmem_area (vaddr / VTLB_PAGE_SIZE)).map Prod.fst = s.aliasOf vaddr

structure PageAddr (vaddr : Nat) : Prop where
  aligned : vaddr % VTLB_PAGE_SIZE = 0
  inside : vaddr < 2 ^ 32

theorem PageAddr.page_ne (address : PageAddr vaddr) {other : Nat} (otherAddress : PageAddr other)
    (different : other ≠ vaddr) : other / VTLB_PAGE_SIZE ≠ vaddr / VTLB_PAGE_SIZE := by
  have := address.aligned
  have := otherAddress.aligned
  unfold VTLB_PAGE_SIZE at *
  omega

theorem alias_update (address : PageAddr vaddr) (virtual : Nat → Nat) (offset : Nat) :
    aliasIn (Function.update virtual (vaddr / VTLB_PAGE_SIZE) offset) =
      Function.update (aliasIn virtual) vaddr (if offset = NO_FASTMEM_MAPPING then none else some offset) := by
  funext other
  by_cases here : other = vaddr
  · subst here
    rw [Function.update_self, aliasIn, Function.update_self]
    by_cases none : offset = NO_FASTMEM_MAPPING
    · rw [if_pos none, if_neg (fun valid => valid.2.2 none)]
    · rw [if_neg none, if_pos ⟨address.aligned, address.inside, none⟩]
  · rw [Function.update_of_ne here]
    by_cases valid : PageAddr other
    · unfold aliasIn
      rw [Function.update_of_ne (address.page_ne valid here)]
    · have outside : ∀ virtual, aliasIn virtual other = none := fun _ =>
        if_neg fun all => valid ⟨all.1, all.2.1⟩
      rw [outside, outside]

/-! ## One page -/

/-- What is done to the pages of some addresses keeps the maps consistent and changes nothing else. -/
structure Steps (s : MapData) (touched : Nat → Prop) (s' : MapData) : Prop where
  consistent : Consistent s → Consistent s'
  others : ∀ other, ¬ touched other → s'.aliasOf other = s.aliasOf other
  fastmemOnly : s' = { s with
    s_fastmem_virtual_mapping := s'.s_fastmem_virtual_mapping
    s_fastmem_physical_mapping := s'.s_fastmem_physical_mapping
    s_fastmem_area := s'.s_fastmem_area }

theorem Steps.refl {touched : Nat → Prop} : Steps s touched s := ⟨id, fun _ _ => rfl, rfl⟩

theorem area_update (address : PageAddr vaddr) {area : Nat → Option (Nat × PageProtectionMode)} {offsets : Nat → Option Nat}
    (before : ∀ vaddr, vaddr % VTLB_PAGE_SIZE = 0 → vaddr < 2 ^ 32 →
      (area (vaddr / VTLB_PAGE_SIZE)).map Prod.fst = offsets vaddr) (mapped : Option (Nat × PageProtectionMode)) :
    ∀ other, other % VTLB_PAGE_SIZE = 0 → other < 2 ^ 32 →
      (Function.update area (vaddr / VTLB_PAGE_SIZE) mapped (other / VTLB_PAGE_SIZE)).map Prod.fst =
        Function.update offsets vaddr (mapped.map Prod.fst) other := by
  intro other aligned inside
  by_cases here : other = vaddr
  · subst here
    rw [Function.update_self, Function.update_self]
  · rw [Function.update_of_ne here, Function.update_of_ne (address.page_ne ⟨aligned, inside⟩ here)]
    exact before other aligned inside

theorem remove_step (address : PageAddr vaddr) : Steps s (· = vaddr) (s.vtlb_RemoveFastmemMapping vaddr) := by
  unfold MapData.vtlb_RemoveFastmemMapping
  dsimp only
  split
  · exact .refl
  · rename_i mapped
    have gone := alias_update address s.s_fastmem_virtual_mapping NO_FASTMEM_MAPPING
    rw [if_pos rfl] at gone
    refine ⟨fun consistent => ⟨?_, ?_⟩, fun other different => ?_, rfl⟩
    · show Inverse (aliasIn (Function.update _ _ _)) (List.filter _ _)
      rw [gone]
      exact consistent.inverse.erase (if_pos ⟨address.aligned, address.inside, mapped⟩)
    · show ∀ vaddr, _ → _ → _ = aliasIn (Function.update _ _ _) vaddr
      rw [gone]
      exact area_update address consistent.area none
    · show aliasIn (Function.update _ _ _) other = _
      rw [gone, Function.update_of_ne different]

theorem create_step (address : PageAddr vaddr) (valid : mainmem_offset ≠ NO_FASTMEM_MAPPING)
    (fresh : s.aliasOf vaddr = none ∨ s.aliasOf vaddr = some mainmem_offset) (mode : PageProtectionMode) :
    Steps s (· = vaddr) (s.vtlb_CreateFastmemMapping vaddr mainmem_offset mode) := by
  unfold MapData.vtlb_CreateFastmemMapping
  dsimp only
  split
  · exact .refl
  · rename_i different
    have free : s.s_fastmem_virtual_mapping (vaddr / VTLB_PAGE_SIZE) = NO_FASTMEM_MAPPING := by
      by_contra mapped
      have here : s.aliasOf vaddr = some (s.s_fastmem_virtual_mapping (vaddr / VTLB_PAGE_SIZE)) :=
        if_pos ⟨address.aligned, address.inside, mapped⟩
      rw [here] at fresh
      rcases fresh with none | same
      · cases none
      · exact different (Option.some.inj same)
    rw [if_neg (not_not_intro free)]
    have new := alias_update address s.s_fastmem_virtual_mapping mainmem_offset
    rw [if_neg valid] at new
    refine ⟨fun consistent => ⟨?_, ?_⟩, fun other different => ?_, rfl⟩
    · show Inverse (aliasIn (Function.update _ _ _)) (_ ++ _)
      rw [new]
      refine consistent.inverse.insert (if_neg ?_) mainmem_offset
      exact fun all => all.2.2 free
    · show ∀ vaddr, _ → _ → _ = aliasIn (Function.update _ _ _) vaddr
      rw [new]
      exact area_update address consistent.area (some (mainmem_offset, mode))
    · show aliasIn (Function.update _ _ _) other = _
      rw [new, Function.update_of_ne different]

/-! ## Many pages -/

/-- The address of a page behind `vaddr`, in 32 bits. -/
def pageAt (vaddr i : Nat) : Nat := (vaddr + i * VTLB_PAGE_SIZE) % 2 ^ 32

theorem pageAt_zero (inside : vaddr < 2 ^ 32) : pageAt vaddr 0 = vaddr := by
  rw [pageAt, Nat.zero_mul, Nat.add_zero, Nat.mod_eq_of_lt inside]

theorem pageAt_succ (vaddr i : Nat) : pageAt (add32 vaddr VTLB_PAGE_SIZE) i = pageAt vaddr (i + 1) := by
  rw [pageAt, pageAt, add32, Nat.mod_add_mod, Nat.add_assoc, Nat.succ_mul, Nat.add_comm VTLB_PAGE_SIZE]

theorem PageAddr.next (address : PageAddr vaddr) : PageAddr (add32 vaddr VTLB_PAGE_SIZE) := by
  have := address.aligned
  unfold add32 VTLB_PAGE_SIZE at *
  exact ⟨by unfold VTLB_PAGE_SIZE; omega, by omega⟩

theorem PageAddr.later_ne (address : PageAddr vaddr) {i : Nat} (some : 0 < i) (few : i < VTLB_VMAP_ITEMS) :
    pageAt vaddr i ≠ vaddr := by
  have := address.inside
  unfold pageAt VTLB_PAGE_SIZE
  unfold VTLB_VMAP_ITEMS at few
  omega

/-- The pages of `count` addresses from `vaddr` on. -/
def among (vaddr count other : Nat) : Prop := ∃ i < count, other = pageAt vaddr i

theorem Steps.cons {s'' : MapData} {count : Nat} (address : PageAddr vaddr) (first : Steps s (· = vaddr) s')
    (rest : Steps s' (among (add32 vaddr VTLB_PAGE_SIZE) count) s'') : Steps s (among vaddr (count + 1)) s'' := by
  refine ⟨rest.consistent ∘ first.consistent, fun other outside => ?_, ?_⟩
  · rw [rest.others other, first.others other]
    · rintro rfl
      exact outside ⟨0, Nat.succ_pos _, (pageAt_zero address.inside).symm⟩
    · rintro ⟨i, few, rfl⟩
      exact outside ⟨i + 1, Nat.succ_lt_succ few, pageAt_succ vaddr i⟩
  · rw [rest.fastmemOnly, first.fastmemOnly]

theorem removes_steps (address : PageAddr vaddr) (num_pages : Nat) :
    Steps s (among vaddr num_pages) (MapData.vtlb_RemoveFastmemMappings num_pages vaddr s) := by
  induction num_pages generalizing s vaddr with
  | zero => exact .refl
  | succ num_pages ih => exact (remove_step address).cons address (ih address.next)

/-- The page is not mapped to another place. -/
def Fresh (s : MapData) (vaddr mainmem_offset : Nat) : Prop :=
  s.aliasOf vaddr = none ∨ s.aliasOf vaddr = some mainmem_offset

theorem Steps.fresh (step : Steps s (· = vaddr) s') {other : Nat} (different : other ≠ vaddr)
    (fresh : Fresh s other mainmem_offset) : Fresh s' other mainmem_offset := by
  unfold Fresh
  rw [step.others other different]
  exact fresh

theorem offset_valid {protects : Nat → Bool} {ptr size : Nat}
    (found : host.GetMainMemoryOffsetFromPtr protects ptr = some (mainmem_offset, size, mode)) :
    mainmem_offset ≠ NO_FASTMEM_MAPPING := by
  unfold Host.GetMainMemoryOffsetFromPtr at found
  dsimp only at found
  unfold zeroReadOffset TotalRam Scratch VUmemSize VTLB_PAGE_SIZE EEmemOffset IOPmemOffset VUmemOffset IOPmemOffset at found
  unfold NO_FASTMEM_MAPPING
  split at found
  · have offset := (Prod.mk.inj (Option.some.inj found)).1
    omega
  split at found
  · have offset := (Prod.mk.inj (Option.some.inj found)).1
    omega
  split at found
  · have offset := (Prod.mk.inj (Option.some.inj found)).1
    omega
  · cases found

/-- The places of main memory that a page of `vtlb_VMap` is mapped to. -/
def FreshPage (host : Host) (s : MapData) (vaddr paddr : Nat) : Prop :=
  ∀ mainmem_offset size mode, s.GetMainMemoryOffset host paddr = some (mainmem_offset, size, mode) →
    Fresh s vaddr mainmem_offset

theorem mapFastmem_step (address : PageAddr vaddr) (fresh : FreshPage host s vaddr paddr) :
    Steps s (· = vaddr) (s.mapFastmem host vaddr paddr) := by
  unfold MapData.mapFastmem
  split
  · rename_i hoffset size mode found
    refine create_step address ?_ (fresh _ _ _ found) mode
    unfold MapData.GetMainMemoryOffset at found
    split at found
    · cases found
    split at found
    · cases found
    · exact offset_valid found
  · exact remove_step address

theorem Steps.freshPage (step : Steps s (· = vaddr) s') {other : Nat} (different : other ≠ vaddr)
    (fresh : FreshPage host s other paddr) : FreshPage host s' other paddr := by
  intro mainmem_offset size mode found
  refine step.fresh different (fresh mainmem_offset size mode ?_)
  rw [step.fastmemOnly] at found
  exact found

theorem maps_steps {num_pages : Nat} (address : PageAddr vaddr) (few : num_pages ≤ VTLB_VMAP_ITEMS)
    (fresh : ∀ i < num_pages, FreshPage host s (pageAt vaddr i) (pageAt paddr i)) (small : paddr < 2 ^ 32) :
    Steps s (among vaddr num_pages) (MapData.mapFastmemPages host num_pages vaddr paddr s) := by
  induction num_pages generalizing s vaddr paddr with
  | zero => exact .refl
  | succ num_pages ih =>
    have first := fresh 0 (Nat.succ_pos _)
    rw [pageAt_zero address.inside, pageAt_zero small] at first
    have step := mapFastmem_step address first
    refine step.cons address (ih address.next (Nat.le_of_succ_le few) (fun i inside => ?_) (Nat.mod_lt _ (by decide)))
    rw [pageAt_succ, pageAt_succ]
    exact step.freshPage (address.later_ne (Nat.succ_pos i) (by omega)) (fresh (i + 1) (Nat.succ_lt_succ inside))

theorem scratch_steps {num_pages offset : Nat} (address : PageAddr vaddr) (few : num_pages ≤ VTLB_VMAP_ITEMS)
    (fresh : ∀ i < num_pages, Fresh s (pageAt vaddr i) (offset + i * VTLB_PAGE_SIZE))
    (valid : offset + num_pages * VTLB_PAGE_SIZE ≤ NO_FASTMEM_MAPPING) :
    Steps s (among vaddr num_pages) (MapData.mapScratch num_pages vaddr offset s) := by
  induction num_pages generalizing s vaddr offset with
  | zero => exact .refl
  | succ num_pages ih =>
    rw [Nat.succ_mul] at valid
    have first := fresh 0 (Nat.succ_pos _)
    rw [pageAt_zero address.inside, Nat.zero_mul, Nat.add_zero] at first
    have size : 0 < VTLB_PAGE_SIZE := by decide
    have step := create_step address (by omega) first .readWrite
    refine step.cons address (ih address.next (Nat.le_of_succ_le few) (fun i inside => ?_) (by omega))
    have later := fresh (i + 1) (Nat.succ_lt_succ inside)
    rw [Nat.succ_mul, Nat.add_comm (i * _), ← Nat.add_assoc] at later
    rw [pageAt_succ]
    exact step.fresh (address.later_ne (Nat.succ_pos i) (by omega)) later

/-! ### What `vmap` gets -/

theorem Consistent.congr (consistent : Consistent s)
    (virtual : s'.s_fastmem_virtual_mapping = s.s_fastmem_virtual_mapping)
    (physical : s'.s_fastmem_physical_mapping = s.s_fastmem_physical_mapping)
    (area : s'.s_fastmem_area = s.s_fastmem_area) : Consistent s' := by
  refine ⟨?_, ?_⟩
  · rw [MapData.aliasOf, virtual, physical]
    exact consistent.inverse
  · rw [MapData.aliasOf, virtual, area]
    exact consistent.area

/-- Only `vmap` changes. -/
def VmapOnly (s s' : MapData) : Prop := s' = { s with vmap := s'.vmap }

theorem VmapOnly.trans {s'' : MapData} (first : VmapOnly s s') (second : VmapOnly s' s'') : VmapOnly s s'' := by
  unfold VmapOnly at *
  rw [second, first]

theorem VmapOnly.consistent (only : VmapOnly s s') (consistent : Consistent s) : Consistent s' := by
  rw [only]
  exact consistent.congr rfl rfl rfl

theorem mapPages_only (num_pages vaddr paddr : Nat) (s : MapData) :
    VmapOnly s (MapData.mapPages host num_pages vaddr paddr s) := by
  induction num_pages generalizing s vaddr paddr with
  | zero => rfl
  | succ num_pages ih => exact .trans (show VmapOnly s (s.setVmap vaddr _) from rfl) (ih _ _ _)

theorem bufferPages_only (num_pages vaddr buffer : Nat) (s : MapData) :
    VmapOnly s (MapData.bufferPages num_pages vaddr buffer s) := by
  induction num_pages generalizing s vaddr buffer with
  | zero => rfl
  | succ num_pages ih => exact .trans (show VmapOnly s (s.setVmap vaddr _) from rfl) (ih _ _ _)

theorem unmapPages_only (num_pages vaddr : Nat) (s : MapData) :
    VmapOnly s (MapData.unmapPages host num_pages vaddr s) := by
  induction num_pages generalizing s vaddr with
  | zero => rfl
  | succ num_pages ih => exact .trans (show VmapOnly s (s.setVmap vaddr _) from rfl) (ih _ _)

/-! ### `vtlb_ResetFastmem` -/

theorem page_inside (address : PageAddr vaddr) : vaddr / VTLB_PAGE_SIZE < FASTMEM_PAGE_COUNT := by
  have := address.inside
  unfold VTLB_PAGE_SIZE FASTMEM_PAGE_COUNT
  omega

theorem removeAll_alias (s : MapData) : s.removeAllFastmem.aliasOf vaddr = none := by
  unfold MapData.aliasOf aliasIn
  refine if_neg fun all => all.2.2 ?_
  unfold MapData.removeAllFastmem
  dsimp only
  rw [if_pos (page_inside ⟨all.1, all.2.1⟩)]

theorem removeAll_consistent (consistent : Consistent s) : Consistent s.removeAllFastmem := by
  refine ⟨.empty fun _ => removeAll_alias s, fun vaddr aligned inside => ?_⟩
  rw [removeAll_alias]
  unfold MapData.removeAllFastmem
  dsimp only
  have before := consistent.area vaddr aligned inside
  split
  · rfl
  · rename_i unmapped
    rw [before]
    exact if_neg fun all => unmapped ⟨page_inside ⟨aligned, inside⟩, all.2.2⟩

variable (host) in
theorem restore_step {page : Nat} (inside : page < VTLB_VMAP_ITEMS)
    (free : s.aliasOf (page * VTLB_PAGE_SIZE) = none) :
    Steps s (· = page * VTLB_PAGE_SIZE) (s.restoreFastmem host page) := by
  have address : PageAddr (page * VTLB_PAGE_SIZE) := by
    refine ⟨Nat.mul_mod_left _ _, ?_⟩
    unfold VTLB_VMAP_ITEMS at inside
    unfold VTLB_PAGE_SIZE
    omega
  unfold MapData.restoreFastmem
  split
  · exact .refl
  split
  · rename_i found
    exact create_step address (offset_valid found) (.inl free) _
  · exact .refl

theorem restores_consistent {pages : List Nat} (inside : ∀ page ∈ pages, page < VTLB_VMAP_ITEMS) (once : pages.Nodup)
    (free : ∀ page ∈ pages, s.aliasOf (page * VTLB_PAGE_SIZE) = none) (consistent : Consistent s) :
    Consistent (pages.foldl (MapData.restoreFastmem host) s) := by
  induction pages generalizing s with
  | nil => exact consistent
  | cons page rest ih =>
    obtain ⟨fresh, once⟩ := List.nodup_cons.mp once
    have step := restore_step host (inside page List.mem_cons_self) (free page List.mem_cons_self)
    refine ih (fun other member => inside other (List.mem_cons_of_mem _ member)) once (fun other member => ?_)
      (step.consistent consistent)
    rw [step.others]
    · exact free other (List.mem_cons_of_mem _ member)
    · intro same
      obtain rfl := Nat.eq_of_mul_eq_mul_right (by decide) same
      exact fresh member

theorem reset_consistent (consistent : Consistent s) : Consistent (s.vtlb_ResetFastmem host) := by
  unfold MapData.vtlb_ResetFastmem
  dsimp only
  split
  · exact removeAll_consistent consistent
  · exact restores_consistent (fun page => List.mem_range.mp) List.nodup_range (fun _ _ => removeAll_alias s)
      (removeAll_consistent consistent)

/-! ## Protection -/

def AreaOnly (s s' : MapData) : Prop := s' = { s with s_fastmem_area := s'.s_fastmem_area }

theorem AreaOnly.trans {s'' : MapData} (first : AreaOnly s s') (second : AreaOnly s' s'') : AreaOnly s s'' := by
  unfold AreaOnly at *
  rw [second, first]

def protectWith (prot : PageProtectionMode) (mapped : Option (Nat × PageProtectionMode)) :
    Option (Nat × PageProtectionMode) :=
  mapped.map fun page => (page.1, prot)

/-- The host's page of `vaddr`. -/
def MapData.hostPage (s : MapData) (vaddr : Nat) : Option (Nat × PageProtectionMode) :=
  s.s_fastmem_area (vaddr / VTLB_PAGE_SIZE)

theorem protectWith_twice (prot : PageProtectionMode) (mapped : Option (Nat × PageProtectionMode)) :
    protectWith prot (protectWith prot mapped) = protectWith prot mapped := by
  cases mapped <;> rfl

theorem protect_list (prot : PageProtectionMode) {addresses : List Nat} (pages : ∀ other ∈ addresses, PageAddr other)
    (address : PageAddr vaddr) :
    AreaOnly s (addresses.foldl (MapData.MemProtect prot) s) ∧
      (addresses.foldl (MapData.MemProtect prot) s).hostPage vaddr =
        if vaddr ∈ addresses then protectWith prot (s.hostPage vaddr) else s.hostPage vaddr := by
  induction addresses generalizing s with
  | nil => exact ⟨rfl, (if_neg List.not_mem_nil).symm⟩
  | cons other rest ih =>
    rw [List.foldl_cons]
    obtain ⟨only, changed⟩ := ih (s := s.MemProtect prot other) fun page member => pages page (List.mem_cons_of_mem _ member)
    refine ⟨.trans (show AreaOnly s (s.MemProtect prot other) from rfl) only, ?_⟩
    rw [changed]
    by_cases here : vaddr = other
    · subst here
      have once : (s.MemProtect prot vaddr).hostPage vaddr = protectWith prot (s.hostPage vaddr) :=
        Function.update_self ..
      rw [once, protectWith_twice, if_pos List.mem_cons_self, ite_self]
    · have still : (s.MemProtect prot other).hostPage vaddr = s.hostPage vaddr :=
        Function.update_of_ne ((pages other List.mem_cons_self).page_ne address here) _ _
      have same : vaddr ∈ other :: rest ↔ vaddr ∈ rest :=
        ⟨fun member => (List.mem_cons.mp member).resolve_left here, List.mem_cons_of_mem _⟩
      rw [still]
      simp only [same]

theorem aliases_mem (consistent : Consistent s) (current : Nat) :
    vaddr ∈ (s.s_fastmem_physical_mapping.filter fun pair => pair.1 == current).map Prod.snd ↔
      s.aliasOf vaddr = some current := by
  rw [← consistent.inverse.mem_iff, List.mem_map]
  constructor
  · rintro ⟨⟨offset, other⟩, member, rfl⟩
    obtain ⟨member, same⟩ := List.mem_filter.mp member
    rw [beq_iff_eq] at same
    rw [← same]
    exact member
  · exact fun member => ⟨(current, vaddr), List.mem_filter.mpr ⟨member, beq_self_eq_true _⟩, rfl⟩

theorem aliasOf_page {offset : Nat} (mapped : s.aliasOf vaddr = some offset) : PageAddr vaddr := by
  unfold MapData.aliasOf aliasIn at mapped
  split at mapped
  · rename_i all
    exact ⟨all.1, all.2.1⟩
  · cases mapped

theorem protectAliases_area (prot : PageProtectionMode) (consistent : Consistent s) (current : Nat)
    (address : PageAddr vaddr) :
    AreaOnly s (s.protectAliases prot current) ∧ (s.protectAliases prot current).hostPage vaddr =
      if s.aliasOf vaddr = some current then protectWith prot (s.hostPage vaddr) else s.hostPage vaddr := by
  have pages : ∀ other ∈ (s.s_fastmem_physical_mapping.filter fun pair => pair.1 == current).map Prod.snd,
      PageAddr other := fun other member => aliasOf_page ((aliases_mem consistent current).mp member)
  obtain ⟨only, changed⟩ := protect_list prot pages address
  refine ⟨only, changed.trans ?_⟩
  simp only [aliases_mem consistent current]

theorem protectAliases_consistent (prot : PageProtectionMode) (consistent : Consistent s) (current : Nat) :
    Consistent (s.protectAliases prot current) := by
  have zero : PageAddr 0 := ⟨rfl, by decide⟩
  have only := (protectAliases_area prot consistent current zero).1
  refine ⟨?_, fun vaddr aligned inside => ?_⟩
  · rw [only]
    exact consistent.inverse
  · have changed := (protectAliases_area prot consistent current ⟨aligned, inside⟩).2
    have before := consistent.area vaddr aligned inside
    unfold MapData.hostPage at changed
    rw [changed, show (s.protectAliases prot current).aliasOf vaddr = s.aliasOf vaddr from by rw [only], ← before]
    split
    · cases s.s_fastmem_area (vaddr / VTLB_PAGE_SIZE) <;> rfl
    · rfl

theorem protectPages_area (prot : PageProtectionMode) (num_pages : Nat) (consistent : Consistent s) (start : Nat)
    (address : PageAddr vaddr) :
    Consistent (MapData.protectPages prot num_pages start s) ∧ AreaOnly s (MapData.protectPages prot num_pages start s) ∧
      (MapData.protectPages prot num_pages start s).hostPage vaddr =
        if ∃ i < num_pages, s.aliasOf vaddr = some (start + i * VTLB_PAGE_SIZE) then protectWith prot (s.hostPage vaddr)
        else s.hostPage vaddr := by
  induction num_pages generalizing s start with
  | zero =>
    refine ⟨consistent, rfl, (if_neg ?_).symm⟩
    rintro ⟨i, none, -⟩
    exact Nat.not_lt_zero i none
  | succ num_pages ih =>
    obtain ⟨only, changed⟩ := protectAliases_area prot consistent start address
    obtain ⟨consistent', only', changed'⟩ := ih (protectAliases_consistent prot consistent start) (start + VTLB_PAGE_SIZE)
    have sameAlias : (s.protectAliases prot start).aliasOf vaddr = s.aliasOf vaddr := by rw [only]
    refine ⟨consistent', only.trans only', changed'.trans ?_⟩
    rw [sameAlias, changed]
    have split : (∃ i < num_pages + 1, s.aliasOf vaddr = some (start + i * VTLB_PAGE_SIZE)) ↔
        s.aliasOf vaddr = some start ∨
          ∃ i < num_pages, s.aliasOf vaddr = some (start + VTLB_PAGE_SIZE + i * VTLB_PAGE_SIZE) := by
      constructor
      · rintro ⟨_ | i, inside, there⟩
        · rw [Nat.zero_mul, Nat.add_zero] at there
          exact .inl there
        · rw [Nat.succ_mul, Nat.add_comm (i * _), ← Nat.add_assoc] at there
          exact .inr ⟨i, Nat.lt_of_succ_lt_succ inside, there⟩
      · rintro (there | ⟨i, inside, there⟩)
        · exact ⟨0, Nat.succ_pos _, by rw [Nat.zero_mul, Nat.add_zero, there]⟩
        · exact ⟨i + 1, Nat.succ_lt_succ inside, by
            rw [Nat.succ_mul, Nat.add_comm (i * _), ← Nat.add_assoc, there]⟩
    rw [if_congr split rfl rfl]
    by_cases first : s.aliasOf vaddr = some start
    · rw [if_pos first, protectWith_twice, ite_self, if_pos (.inl first)]
    · rw [if_neg first]
      simp only [first, false_or]

/-- The pages of RAM that `vtlb_UpdateFastmemProtection` is given. -/
def Given (host : Host) (s : MapData) (paddr size offset : Nat) : Prop :=
  s.CHECK_FASTMEM = true ∧ ∃ mainmem_start mainmem_size mode,
    s.GetMainMemoryOffset host paddr = some (mainmem_start, mainmem_size, mode) ∧
      ∃ i < min size mainmem_size / VTLB_PAGE_SIZE, offset = mainmem_start + i * VTLB_PAGE_SIZE

/-- Of the pages of the host just those that now are aliases of the given pages of RAM are protected. -/
def ProtectsAliases (host : Host) (s : MapData) : Prop :=
  ∀ (paddr size : Nat) (prot : PageProtectionMode) (vaddr : Nat), PageAddr vaddr →
    ((∃ offset, Given host s paddr size offset ∧ s.aliasOf vaddr = some offset) →
      (s.vtlb_UpdateFastmemProtection host paddr size prot).hostPage vaddr = protectWith prot (s.hostPage vaddr)) ∧
    ((¬ ∃ offset, Given host s paddr size offset ∧ s.aliasOf vaddr = some offset) →
      (s.vtlb_UpdateFastmemProtection host paddr size prot).hostPage vaddr = s.hostPage vaddr)

theorem consistent_protects (host : Host) (consistent : Consistent s) : ProtectsAliases host s := by
  intro paddr size prot vaddr address
  unfold MapData.vtlb_UpdateFastmemProtection
  cases enabled : s.CHECK_FASTMEM with
  | false =>
    refine ⟨?_, fun _ => rfl⟩
    rintro ⟨offset, ⟨fastmem, -⟩, -⟩
    exact absurd (fastmem.symm.trans enabled) (by decide)
  | true =>
    cases found : s.GetMainMemoryOffset host paddr with
    | none =>
      refine ⟨?_, fun _ => rfl⟩
      rintro ⟨offset, ⟨-, start, rest, mode, some, -⟩, -⟩
      cases found.symm.trans some
    | some place =>
      obtain ⟨mainmem_start, mainmem_size, mode⟩ := place
      have changed := (protectPages_area prot (min size mainmem_size / VTLB_PAGE_SIZE) consistent mainmem_start address).2.2
      rw [if_neg (by decide)]
      dsimp only
      have same : (∃ offset, Given host s paddr size offset ∧ s.aliasOf vaddr = some offset) ↔
          ∃ i < min size mainmem_size / VTLB_PAGE_SIZE,
            s.aliasOf vaddr = some (mainmem_start + i * VTLB_PAGE_SIZE) := by
        constructor
        · rintro ⟨offset, ⟨-, start, rest, mode', also, i, inside, rfl⟩, there⟩
          cases found.symm.trans also
          exact ⟨i, inside, there⟩
        · rintro ⟨i, inside, there⟩
          exact ⟨_, ⟨enabled, _, _, _, found, i, inside, rfl⟩, there⟩
      rw [same, changed]
      exact ⟨fun aliases => if_pos aliases, fun none => if_neg none⟩

/-! ## Runs -/

inductive Action
  | VMap (vaddr paddr size : Nat)
  | VMapBuffer (vaddr buffer size : Nat)
  | VMapUnmap (vaddr size : Nat)
  | ResetFastmem
  | UpdateFastmemProtection (paddr size : Nat) (prot : PageProtectionMode)
  /-- Physical memory is mapped, RAM is protected, or settings change. -/
  | environment (pmap : Nat → VTLBPhysical) (protects : Nat → Bool) (CHECK_FASTMEM CHECK_EEREC : Bool)

def MapData.act (host : Host) (s : MapData) : Action → MapData
  | .VMap vaddr paddr size => s.vtlb_VMap host vaddr paddr size
  | .VMapBuffer vaddr buffer size => s.vtlb_VMapBuffer host vaddr buffer size
  | .VMapUnmap vaddr size => s.vtlb_VMapUnmap host vaddr size
  | .ResetFastmem => s.vtlb_ResetFastmem host
  | .UpdateFastmemProtection paddr size prot => s.vtlb_UpdateFastmemProtection host paddr size prot
  | .environment pmap protects CHECK_FASTMEM CHECK_EEREC => { s with pmap, protects, CHECK_FASTMEM, CHECK_EEREC }

def Action.Verified : Action → Prop
  | .VMap vaddr paddr size => PageAddr vaddr ∧ PageAddr paddr ∧ PageAddr size ∧ 0 < size
  | .VMapBuffer vaddr _ size => PageAddr vaddr ∧ PageAddr size ∧ 0 < size
  | .VMapUnmap vaddr size => PageAddr vaddr ∧ PageAddr size ∧ 0 < size
  | .ResetFastmem => True
  | .UpdateFastmemProtection paddr size _ => PageAddr paddr ∧ PageAddr size ∧ 0 < size
  | .environment .. => True

/-- No page that is mapped to main memory is mapped to another place of it. -/
def Action.Fresh (host : Host) (s : MapData) : Action → Prop
  | .VMap vaddr paddr size => s.CHECK_FASTMEM = true →
    ∀ i < size / VTLB_PAGE_SIZE, FreshPage host s (pageAt vaddr i) (pageAt paddr i)
  | .VMapBuffer vaddr buffer size => s.CHECK_FASTMEM = true → buffer = host.eeScratch → size = Scratch →
    ∀ i < Scratch / VTLB_PAGE_SIZE, Vtlb.Fresh s (pageAt vaddr i) (EEmemOffset + scratchOffset + i * VTLB_PAGE_SIZE)
  | _ => True

/-- One call. -/
def Step (host : Host) (s s' : MapData) : Prop := ∃ action : Action, action.Verified ∧ s' = s.act host action

def FreshStep (host : Host) (s s' : MapData) : Prop :=
  ∃ action : Action, action.Verified ∧ action.Fresh host s ∧ s' = s.act host action

structure Initial (s : MapData) : Prop where
  virtual : ∀ page, s.s_fastmem_virtual_mapping page = NO_FASTMEM_MAPPING
  physical : s.s_fastmem_physical_mapping = []
  area : ∀ page, s.s_fastmem_area page = none

theorem initial_consistent (initial : Initial s) : Consistent s := by
  have none : ∀ vaddr, s.aliasOf vaddr = none := fun vaddr => if_neg fun all => all.2.2 (initial.virtual _)
  refine ⟨?_, fun vaddr _ _ => ?_⟩
  · rw [initial.physical]
    exact .empty none
  · rw [initial.area, none]
    rfl

theorem few_pages (size : PageAddr vaddr) : vaddr / VTLB_PAGE_SIZE ≤ VTLB_VMAP_ITEMS := (page_inside size).le

theorem step_consistent (step : FreshStep host s s') (consistent : Consistent s) : Consistent s' := by
  obtain ⟨action, verified, fresh, rfl⟩ := step
  cases action with
  | VMap vaddr paddr size =>
    obtain ⟨address, physical, sized, -⟩ := verified
    refine (mapPages_only _ _ _ _).consistent ?_
    split
    · exact (maps_steps address (few_pages sized) (fresh ‹_›) physical.inside).consistent consistent
    · exact consistent
  | VMapBuffer vaddr buffer size =>
    obtain ⟨address, sized, -⟩ := verified
    refine (bufferPages_only _ _ _ _).consistent ?_
    split
    · rename_i enabled
      split
      · rename_i scratch
        refine (scratch_steps address (by decide) (fresh enabled scratch.1 scratch.2) (by decide)).consistent consistent
      · exact (removes_steps address _).consistent consistent
    · exact consistent
  | VMapUnmap vaddr size => exact (unmapPages_only _ _ _).consistent ((removes_steps verified.1 _).consistent consistent)
  | ResetFastmem => exact reset_consistent consistent
  | UpdateFastmemProtection paddr size prot =>
    show Consistent (MapData.vtlb_UpdateFastmemProtection host s paddr size prot)
    unfold MapData.vtlb_UpdateFastmemProtection
    split
    · exact consistent
    · split
      · exact consistent
      · exact (protectPages_area prot _ consistent _ verified.1).1
  | environment pmap protects fastmem rec => exact consistent.congr rfl rfl rfl

/-- In a run in which no page is mapped to another place while it is mapped, the reverse map is the inverse of the
forward one, and the protection of just the aliases of a page changes. -/
theorem fastmem_inverse (initial : Initial s) (run : Run (FreshStep host) s s') :
    Inverse s'.aliasOf s'.s_fastmem_physical_mapping ∧ ProtectsAliases host s' := by
  have consistent := run.invariant (initial_consistent initial) fun _ _ before step => step_consistent step before
  exact ⟨consistent.inverse, consistent_protects host consistent⟩

/-! ### A page that is mapped to another place -/

def smallHost : Host where
  data := 0x10000
  ExposedRam := 32 * 2 ^ 20
  UnmappedVirtHandler := 0
  UnmappedPhyHandler := 1

def blank : MapData where
  pmap page := .pointer (smallHost.eeMain + page * VTLB_PAGE_SIZE)
  vmap page := .handler smallHost.UnmappedVirtHandler (page * VTLB_PAGE_SIZE)
  s_fastmem_virtual_mapping _ := NO_FASTMEM_MAPPING
  s_fastmem_physical_mapping := []
  s_fastmem_area _ := none
  protects _ := false
  CHECK_FASTMEM := true
  CHECK_EEREC := true

theorem blank_initial : Initial blank := ⟨fun _ => rfl, rfl, fun _ => rfl⟩

def onePage : MapData := blank.vtlb_VMap smallHost 0x1000 0 0x1000

theorem onePage_verified : (Action.VMap 0x1000 0 0x1000).Verified :=
  ⟨⟨rfl, by decide⟩, ⟨rfl, by decide⟩, ⟨rfl, by decide⟩, by decide⟩

theorem fastmem_inverse_onePage :
    Inverse onePage.aliasOf onePage.s_fastmem_physical_mapping ∧ ProtectsAliases smallHost onePage := by
  refine fastmem_inverse blank_initial (.single ⟨.VMap 0x1000 0 0x1000, onePage_verified, ?_, rfl⟩)
  intro _ i inside mainmem_offset size mode found
  left
  unfold MapData.aliasOf aliasIn
  exact if_neg fun all => all.2.2 rfl

/-- It is then mapped to the second page, and the pair of the first one stays. -/
theorem remapped_stale : ¬ ∀ s, Run (Step smallHost) blank s → Inverse s.aliasOf s.s_fastmem_physical_mapping := by
  intro inverse
  have run : Run (Step smallHost) blank (onePage.vtlb_VMap smallHost 0x1000 0x1000 0x1000) := by
    refine .tail (.single ⟨.VMap 0x1000 0 0x1000, onePage_verified, rfl⟩) ⟨.VMap 0x1000 0x1000 0x1000, ?_, rfl⟩
    exact ⟨⟨rfl, by decide⟩, ⟨rfl, by decide⟩, ⟨rfl, by decide⟩, by decide⟩
  have stale : ((0, 0x1000) : Nat × Nat) ∈
      (onePage.vtlb_VMap smallHost 0x1000 0x1000 0x1000).s_fastmem_physical_mapping := by decide
  have there := (inverse _ run).mem_iff.mp stale
  have now : (onePage.vtlb_VMap smallHost 0x1000 0x1000 0x1000).aliasOf 0x1000 = some 0x1000 := by decide
  cases there.symm.trans now

end Pcsx2.Vtlb
