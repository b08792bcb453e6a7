import Pcsx2.Vtlb.Memory

/-!
# The entries of the virtual map

What the calls put into `vmap`. None of them changes `pmap`.
-/

namespace Pcsx2.Vtlb

variable {host : Host} {s s' : MapData} {first num_pages page : Nat}

def SameMaps (s s' : MapData) : Prop := s'.vmap = s.vmap ∧ s'.pmap = s.pmap

theorem SameMaps.trans {s'' : MapData} (before : SameMaps s s') (after : SameMaps s' s'') : SameMaps s s'' :=
  ⟨after.1.trans before.1, after.2.trans before.2⟩

theorem create_sameMaps (s : MapData) (vaddr mainmem_offset : Nat) (mode : PageProtectionMode) :
    SameMaps s (s.vtlb_CreateFastmemMapping vaddr mainmem_offset mode) := by
  unfold MapData.vtlb_CreateFastmemMapping
  dsimp only
  split
  · exact ⟨rfl, rfl⟩
  · split <;> exact ⟨rfl, rfl⟩

theorem remove_sameMaps (s : MapData) (vaddr : Nat) : SameMaps s (s.vtlb_RemoveFastmemMapping vaddr) := by
  unfold MapData.vtlb_RemoveFastmemMapping
  dsimp only
  split <;> exact ⟨rfl, rfl⟩

theorem removes_sameMaps (s : MapData) (num_pages vaddr : Nat) :
    SameMaps s (MapData.vtlb_RemoveFastmemMappings num_pages vaddr s) := by
  induction num_pages generalizing s vaddr with
  | zero => exact ⟨rfl, rfl⟩
  | succ num_pages ih => exact (remove_sameMaps s vaddr).trans (ih _ _)

theorem scratch_sameMaps (s : MapData) (num_pages vaddr offset : Nat) :
    SameMaps s (MapData.mapScratch num_pages vaddr offset s) := by
  induction num_pages generalizing s vaddr offset with
  | zero => exact ⟨rfl, rfl⟩
  | succ num_pages ih => exact (create_sameMaps s vaddr offset _).trans (ih _ _ _)

theorem mapFastmem_sameMaps (s : MapData) (num_pages vaddr paddr : Nat) :
    SameMaps s (MapData.mapFastmemPages host num_pages vaddr paddr s) := by
  induction num_pages generalizing s vaddr paddr with
  | zero => exact ⟨rfl, rfl⟩
  | succ num_pages ih =>
    have one : SameMaps s (s.mapFastmem host vaddr paddr) := by
      unfold MapData.mapFastmem
      split
      · exact create_sameMaps s _ _ _
      · exact remove_sameMaps s _
    exact one.trans (ih _ _ _)

theorem virtualOf_congr (same : s'.pmap = s.pmap) (paddr : Nat) : s'.virtualOf host paddr = s.virtualOf host paddr := by
  unfold MapData.virtualOf
  rw [same]

/-! ## Loops over pages -/

/-- Pages from `first` on get entries. -/
def fill (vmap : Nat → VTLBVirtual) (first num_pages : Nat) (entry : Nat → VTLBVirtual) (page : Nat) : VTLBVirtual :=
  if first ≤ page ∧ page < first + num_pages then entry (page - first) else vmap page

theorem fill_zero (vmap : Nat → VTLBVirtual) (first : Nat) (entry : Nat → VTLBVirtual) : fill vmap first 0 entry = vmap := by
  funext page
  exact if_neg (by omega)

theorem fill_succ (vmap : Nat → VTLBVirtual) (first num_pages : Nat) (entry : Nat → VTLBVirtual) :
    fill (Function.update vmap first (entry 0)) (first + 1) num_pages (fun i => entry (i + 1)) =
      fill vmap first (num_pages + 1) entry := by
  funext page
  unfold fill
  by_cases here : page = first
  · subst here
    rw [if_neg (by omega), if_pos (by omega), Function.update_self, Nat.sub_self]
  · rw [Function.update_of_ne here]
    by_cases later : first + 1 ≤ page ∧ page < first + 1 + num_pages
    · rw [if_pos later, if_pos (by omega)]
      exact congrArg entry (by omega)
    · rw [if_neg later, if_neg (by omega)]

theorem fill_page (vmap : Nat → VTLBVirtual) (first num_pages : Nat) (entry : Nat → VTLBVirtual) (page : Nat) :
    fill vmap first num_pages (fun i => entry (first + i)) page =
      if first ≤ page ∧ page < first + num_pages then entry page else vmap page := by
  unfold fill
  split
  · exact congrArg entry (by omega)
  · rfl

theorem fill_one (vmap : Nat → VTLBVirtual) (first : Nat) (entry : Nat → VTLBVirtual) :
    fill vmap first 1 entry = fill vmap first 1 fun _ => entry 0 := by
  funext page
  unfold fill
  split
  · exact congrArg entry (by omega)
  · rfl

theorem fill_snoc (vmap : Nat → VTLBVirtual) (first num_pages : Nat) (entry : Nat → VTLBVirtual) :
    fill (fill vmap first num_pages entry) (first + num_pages) 1 (fun _ => entry num_pages) =
      fill vmap first (num_pages + 1) entry := by
  funext page
  unfold fill
  by_cases last : page = first + num_pages
  · rw [if_pos (by omega), if_pos (by omega)]
    exact congrArg entry (by omega)
  · rw [if_neg (by omega)]
    by_cases before : first ≤ page ∧ page < first + num_pages
    · rw [if_pos before, if_pos (by omega)]
    · rw [if_neg before, if_neg (by omega)]

theorem page_next (inside : first + (num_pages + 1) ≤ VTLB_VMAP_ITEMS) :
    num_pages = 0 ∨ add32 (first * VTLB_PAGE_SIZE) VTLB_PAGE_SIZE = (first + 1) * VTLB_PAGE_SIZE := by
  unfold VTLB_VMAP_ITEMS at inside
  unfold add32 VTLB_PAGE_SIZE
  omega

theorem setVmap_page (s : MapData) (first : Nat) (entry : VTLBVirtual) :
    s.setVmap (first * VTLB_PAGE_SIZE) entry = { s with vmap := Function.update s.vmap first entry } := by
  unfold MapData.setVmap
  rw [Nat.mul_div_cancel _ (by decide)]

theorem mapPages_fill (s : MapData) (inside : first + num_pages ≤ VTLB_VMAP_ITEMS) {paddr : Nat}
    (physical : paddr + num_pages * VTLB_PAGE_SIZE ≤ 2 ^ 32) :
    MapData.mapPages host num_pages (first * VTLB_PAGE_SIZE) paddr s =
      { s with vmap := fill s.vmap first num_pages fun i => s.virtualOf host (paddr + i * VTLB_PAGE_SIZE) } := by
  induction num_pages generalizing s first paddr with
  | zero => rw [MapData.mapPages, fill_zero]
  | succ num_pages ih =>
    rw [Nat.succ_mul] at physical
    rw [MapData.mapPages, setVmap_page, ← fill_succ, Nat.zero_mul, Nat.add_zero]
    rcases page_next inside with rfl | next
    · rw [MapData.mapPages, fill_zero]
    rcases Nat.eq_zero_or_pos num_pages with rfl | some
    · rw [MapData.mapPages, fill_zero]
    have step : add32 paddr VTLB_PAGE_SIZE = paddr + VTLB_PAGE_SIZE := by
      have more := Nat.mul_le_mul_right VTLB_PAGE_SIZE some
      apply Nat.mod_eq_of_lt
      unfold VTLB_PAGE_SIZE at *
      omega
    rw [next, step, ih _ (by omega) (by omega)]
    simp only [Nat.succ_mul, Nat.add_assoc, Nat.add_comm VTLB_PAGE_SIZE]
    rfl

theorem bufferPages_fill (s : MapData) (inside : first + num_pages ≤ VTLB_VMAP_ITEMS) (buffer : Nat) :
    MapData.bufferPages num_pages (first * VTLB_PAGE_SIZE) buffer s =
      { s with vmap := fill s.vmap first num_pages fun i => .pointer (buffer + i * VTLB_PAGE_SIZE) } := by
  induction num_pages generalizing s first buffer with
  | zero => rw [MapData.bufferPages, fill_zero]
  | succ num_pages ih =>
    rw [MapData.bufferPages, setVmap_page, ← fill_succ, Nat.zero_mul, Nat.add_zero]
    rcases page_next inside with rfl | next
    · rw [MapData.bufferPages, fill_zero]
    rw [next, ih _ (by omega)]
    simp only [Nat.succ_mul, Nat.add_assoc, Nat.add_comm VTLB_PAGE_SIZE]

theorem unmapPages_fill (s : MapData) (inside : first + num_pages ≤ VTLB_VMAP_ITEMS) :
    MapData.unmapPages host num_pages (first * VTLB_PAGE_SIZE) s =
      { s with vmap := fill s.vmap first num_pages fun i =>
          .handler host.UnmappedVirtHandler ((first + i) * VTLB_PAGE_SIZE) } := by
  induction num_pages generalizing s first with
  | zero => rw [MapData.unmapPages, fill_zero]
  | succ num_pages ih =>
    rw [MapData.unmapPages, setVmap_page, ← fill_succ, Nat.add_zero]
    rcases page_next inside with rfl | next
    · rw [MapData.unmapPages, fill_zero]
    rw [next, ih _ (by omega)]
    simp only [Nat.add_assoc, Nat.add_comm 1]

/-! ## Calls -/

theorem vmap_of_fill {s'' : MapData} {vmap : Nat → VTLBVirtual} (same : SameMaps s s')
    (filled : s'' = { s' with vmap := fill s'.vmap first num_pages fun i => vmap i }) :
    s''.pmap = s.pmap ∧ s''.vmap = fill s.vmap first num_pages vmap := by
  rw [filled]
  refine ⟨same.2, ?_⟩
  dsimp only
  rw [same.1]

theorem VMap_vmap (host : Host) (num_pages : Nat) (s : MapData) (inside : first + num_pages ≤ VTLB_VMAP_ITEMS) {paddr : Nat}
    (physical : paddr + num_pages * VTLB_PAGE_SIZE ≤ 2 ^ 32) :
    (s.vtlb_VMap host (first * VTLB_PAGE_SIZE) paddr (num_pages * VTLB_PAGE_SIZE)).pmap = s.pmap ∧
      (s.vtlb_VMap host (first * VTLB_PAGE_SIZE) paddr (num_pages * VTLB_PAGE_SIZE)).vmap =
        fill s.vmap first num_pages fun i => s.virtualOf host (paddr + i * VTLB_PAGE_SIZE) := by
  unfold MapData.vtlb_VMap
  dsimp only
  rw [Nat.mul_div_cancel _ (by decide)]
  generalize fastmem : (if s.CHECK_FASTMEM = true then
    MapData.mapFastmemPages host num_pages (first * VTLB_PAGE_SIZE) paddr s else s) = s'
  have same : SameMaps s s' := by
    rw [← fastmem]
    split
    · exact mapFastmem_sameMaps s _ _ _
    · exact ⟨rfl, rfl⟩
  refine vmap_of_fill same (mapPages_fill s' inside physical |>.trans ?_)
  simp only [virtualOf_congr same.2]

theorem VMapBuffer_vmap (host : Host) (num_pages : Nat) (s : MapData) (inside : first + num_pages ≤ VTLB_VMAP_ITEMS) (buffer : Nat) :
    (s.vtlb_VMapBuffer host (first * VTLB_PAGE_SIZE) buffer (num_pages * VTLB_PAGE_SIZE)).pmap = s.pmap ∧
      (s.vtlb_VMapBuffer host (first * VTLB_PAGE_SIZE) buffer (num_pages * VTLB_PAGE_SIZE)).vmap =
        fill s.vmap first num_pages fun i => .pointer (buffer + i * VTLB_PAGE_SIZE) := by
  unfold MapData.vtlb_VMapBuffer
  dsimp only
  rw [Nat.mul_div_cancel _ (by decide)]
  refine vmap_of_fill ?_ (bufferPages_fill _ inside buffer)
  split
  · split
    · exact scratch_sameMaps s _ _ _
    · exact removes_sameMaps s _ _
  · exact ⟨rfl, rfl⟩

theorem VMapUnmap_vmap (host : Host) (num_pages : Nat) (s : MapData) (inside : first + num_pages ≤ VTLB_VMAP_ITEMS) :
    (s.vtlb_VMapUnmap host (first * VTLB_PAGE_SIZE) (num_pages * VTLB_PAGE_SIZE)).pmap = s.pmap ∧
      (s.vtlb_VMapUnmap host (first * VTLB_PAGE_SIZE) (num_pages * VTLB_PAGE_SIZE)).vmap =
        fill s.vmap first num_pages fun i => .handler host.UnmappedVirtHandler ((first + i) * VTLB_PAGE_SIZE) := by
  unfold MapData.vtlb_VMapUnmap
  rw [Nat.mul_div_cancel _ (by decide)]
  exact vmap_of_fill (removes_sameMaps s _ _) (unmapPages_fill _ inside)

end Pcsx2.Vtlb
