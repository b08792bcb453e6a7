import Pcsx2.Cop0.CachedTlbs
import Pcsx2.Foundation.Masks
import Pcsx2.Vtlb.Vmap

/-!
# The pages of an entry

The pages of 4 kilobytes that an entry maps are those whose number without the bits of the mask is the entry's, where
the highest of the bits left out chooses the half.
-/

namespace Pcsx2.Cop0
open Vtlb Foundation

variable {host : Host} {s : State} {t : Tlbs} {vtlb : MapData} {k page : Nat}

/-! ## What an entry says -/

namespace Tlbs

def ValidMask (t : Tlbs) : Prop := ∃ k ≤ 6, t.Mask.toNat = 2 ^ (2 * k) - 1

def size (t : Tlbs) : Nat := t.Mask.toNat + 1

def virtualPage (t : Tlbs) : Nat := (t.EntryHi >>> 13).toNat

def Matches (t : Tlbs) (page : Nat) : Prop := page / (2 * t.size) = t.virtualPage / t.size

instance : Decidable (t.Matches page) := inferInstanceAs (Decidable (_ = _))

def half (t : Tlbs) (page : Nat) : UInt32 := if page / t.size % 2 = 1 then t.EntryLo1 else t.EntryLo0

def physical (t : Tlbs) (page : Nat) : Nat :=
  ((EntryLo_PFN (t.half page)).toNat / t.size * t.size + page % t.size) * VTLB_PAGE_SIZE

def scratchPage (t : Tlbs) : Nat := t.virtualPage / t.size * t.size * 2

/-- The entry has the page. -/
def Covers (t : Tlbs) (page : Nat) : Prop :=
  if t.isSPR then t.scratchPage ≤ page ∧ page < t.scratchPage + 4
  else t.Matches page ∧ EntryLo_V (t.half page) = true

instance : Decidable (t.Covers page) := by
  unfold Covers
  infer_instance

/-- What an entry maps its page to. -/
def mapping (host : Host) (vtlb : MapData) (t : Tlbs) (page : Nat) : VTLBVirtual :=
  if t.isSPR then .pointer (host.eeScratch + (page - t.scratchPage) * VTLB_PAGE_SIZE)
  else vtlb.virtualOf host (t.physical page)

end Tlbs

/-! ## Addresses -/

/-- The mask has `k` bits. -/
def MaskBits (t : Tlbs) (k : Nat) : Prop := k ≤ 12 ∧ t.Mask.toNat = 2 ^ k - 1

theorem MaskBits.size (bits : MaskBits t k) : t.size = 2 ^ k := by
  unfold Tlbs.size
  rw [bits.2, Nat.sub_add_cancel Nat.one_le_two_pow]

theorem ValidMask.bits (valid : t.ValidMask) : ∃ k, MaskBits t k := by
  obtain ⟨k, small, mask⟩ := valid
  exact ⟨2 * k, by omega, mask⟩

theorem virtualPage_lt (t : Tlbs) : t.virtualPage < 2 ^ 19 := by
  have small := t.EntryHi.toNat_lt
  unfold Tlbs.virtualPage
  rw [UInt32.toNat_shiftRight]
  show t.EntryHi.toNat >>> 13 < 2 ^ 19
  rw [Nat.shiftRight_eq_div_pow]
  omega

theorem shl_toNat {word : UInt32} {count : UInt32} (few : count.toNat < 32)
    (small : word.toNat * 2 ^ count.toNat < 2 ^ 32) : (word <<< count).toNat = word.toNat * 2 ^ count.toNat := by
  rw [UInt32.toNat_shiftLeft, Nat.mod_eq_of_lt few, Nat.shiftLeft_eq, Nat.mod_eq_of_lt small]

theorem VPN2_toNat (bits : MaskBits t k) : t.VPN2.toNat = t.scratchPage * VTLB_PAGE_SIZE := by
  have small := virtualPage_lt t
  have masked := and_not_low (t.EntryHi >>> 13) (show k ≤ 32 by have := bits.1; omega) bits.2
  have below := Nat.div_mul_le_self t.virtualPage (2 ^ k)
  unfold Tlbs.VPN2
  rw [shl_toNat (by decide), masked, Tlbs.scratchPage, bits.size]
  · show t.virtualPage / 2 ^ k * 2 ^ k * 2 ^ 13 = _
    rw [Nat.mul_assoc _ 2]
    rfl
  · rw [masked]
    show t.virtualPage / 2 ^ k * 2 ^ k * 2 ^ 13 < 2 ^ 32
    omega

theorem saddr0_toNat (bits : MaskBits t k) : t.saddr0.toNat = t.scratchPage := by
  unfold Tlbs.saddr0
  rw [UInt32.toNat_shiftRight, VPN2_toNat bits]
  show (t.scratchPage * 2 ^ 12) >>> 12 = t.scratchPage
  rw [Nat.shiftRight_eq_div_pow, Nat.mul_div_cancel _ (Nat.two_pow_pos 12)]

theorem scratchPage_bound (bits : MaskBits t k) : t.scratchPage + 2 * 2 ^ k ≤ 2 ^ 20 := by
  have small := virtualPage_lt t
  have divides : 2 ^ 19 = 2 ^ (19 - k) * 2 ^ k := by
    rw [← Nat.pow_add, Nat.sub_add_cancel (by have := bits.1; omega)]
  have quotient : t.virtualPage / 2 ^ k < 2 ^ (19 - k) := by
    apply Nat.div_lt_of_lt_mul
    rw [Nat.mul_comm, ← divides]
    exact small
  have most := Nat.mul_le_mul_right (2 ^ k) (Nat.succ_le_of_lt quotient)
  rw [← divides, Nat.succ_mul] at most
  unfold Tlbs.scratchPage
  rw [bits.size]
  omega

theorem saddr1_toNat (bits : MaskBits t k) : t.saddr1.toNat = t.scratchPage + 2 ^ k := by
  have bound := scratchPage_bound bits
  have positive := Nat.two_pow_pos k
  have first := saddr0_toNat bits
  unfold Tlbs.saddr0 at first
  unfold Tlbs.saddr1
  rw [UInt32.toNat_add, UInt32.toNat_add, first, bits.2]
  show ((t.scratchPage + (2 ^ k - 1)) % 2 ^ 32 + 1) % 2 ^ 32 = _
  omega

theorem EntryLo_PFN_lt (EntryLo : UInt32) : (EntryLo_PFN EntryLo).toNat < 2 ^ 20 := by
  unfold EntryLo_PFN
  rw [UInt32.toNat_and]
  exact Nat.and_lt_two_pow _ (by decide)

theorem PFN_toNat (bits : MaskBits t k) (EntryLo : UInt32) :
    ((EntryLo_PFN EntryLo &&& ~~~t.Mask) <<< 12).toNat =
      (EntryLo_PFN EntryLo).toNat / 2 ^ k * 2 ^ k * VTLB_PAGE_SIZE := by
  have small := EntryLo_PFN_lt EntryLo
  have masked := and_not_low (EntryLo_PFN EntryLo) (show k ≤ 32 by have := bits.1; omega) bits.2
  have below := Nat.div_mul_le_self (EntryLo_PFN EntryLo).toNat (2 ^ k)
  rw [shl_toNat (by decide), masked]
  · rfl
  · rw [masked]
    show (EntryLo_PFN EntryLo).toNat / 2 ^ k * 2 ^ k * 2 ^ 12 < 2 ^ 32
    omega

theorem compared_toNat (bits : MaskBits t k) : ((~~~t.Mask <<< 1) &&& 0xFFFFF).toNat = (2 ^ (19 - k) - 1) <<< (k + 1) := by
  have small := bits.1
  rw [UInt32.toNat_and, UInt32.toNat_shiftLeft, not_low (by omega) bits.2]
  show ((2 ^ (32 - k) - 1) <<< k) <<< 1 % 2 ^ 32 &&& (2 ^ 20 - 1) = _
  rw [Nat.and_two_pow_sub_one_eq_mod, Nat.mod_mod_of_dvd _ (by decide), ← Nat.shiftLeft_add, Nat.shiftLeft_eq,
    Nat.shiftLeft_eq, Nat.sub_mul, Nat.sub_mul, ← Nat.pow_add, ← Nat.pow_add]
  have high : 32 - k + (k + 1) = 33 := by omega
  have low : 19 - k + (k + 1) = 20 := by omega
  have bound : 2 ^ (k + 1) ≤ 2 ^ 13 := Nat.pow_le_pow_right Nat.two_pos (by omega)
  have positive := Nat.two_pow_pos (k + 1)
  rw [high, low, Nat.one_mul]
  omega

theorem pages_eq (bits : MaskBits t k) {saddr : UInt32} {half : Nat} (within : half < 2)
    (starts : saddr.toNat = t.scratchPage + half * 2 ^ k) :
    t.pages saddr = (List.range (2 ^ k)).map fun i => saddr + UInt32.ofNat i := by
  have bound := scratchPage_bound bits
  unfold Tlbs.pages
  dsimp only
  rw [show t.Mask.toNat + 1 = 2 ^ k from bits.size, List.filter_eq_self]
  intro addr member
  obtain ⟨i, inside, rfl⟩ := List.mem_map.mp member
  rw [List.mem_range] at inside
  have place : (saddr + UInt32.ofNat i).toNat = t.scratchPage + (half * 2 ^ k + i) := by
    have later : half * 2 ^ k ≤ 1 * 2 ^ k := Nat.mul_le_mul_right _ (Nat.le_of_lt_succ within)
    rw [UInt32.toNat_add, starts, UInt32.toNat_ofNat']
    omega
  have base : t.scratchPage = t.virtualPage / 2 ^ k * 2 ^ (k + 1) := by
    rw [Tlbs.scratchPage, bits.size, Nat.pow_succ, Nat.mul_assoc]
  have offset : half * 2 ^ k + i < 2 ^ (k + 1) := by
    have later : half * 2 ^ k ≤ 1 * 2 ^ k := Nat.mul_le_mul_right _ (Nat.le_of_lt_succ within)
    rw [Nat.pow_succ]
    omega
  have compared := compared_toNat bits
  generalize ~~~t.Mask <<< 1 &&& 0xFFFFF = mask at compared ⊢
  rw [beq_iff_eq, ← UInt32.toNat_inj, UInt32.toNat_and, UInt32.toNat_and, compared, and_high, and_high, place,
    show (t.VPN2 >>> 12).toNat = t.scratchPage from saddr0_toNat bits, base]
  congr 2
  rw [Nat.mul_comm, Nat.mul_add_div (Nat.two_pow_pos _), Nat.div_eq_of_lt offset, Nat.add_zero,
    Nat.mul_div_cancel_left _ (Nat.two_pow_pos _)]

/-! ## What is mapped -/

theorem half_fill {change : MapData → UInt32 → MapData} {first count : Nat} {saddr : UInt32} {entry : Nat → VTLBVirtual}
    (each : ∀ vtlb' : MapData, vtlb'.pmap = vtlb.pmap → ∀ i < count,
      (change vtlb' (saddr + UInt32.ofNat i)).pmap = vtlb'.pmap ∧
        (change vtlb' (saddr + UInt32.ofNat i)).vmap = fill vtlb'.vmap (first + i) 1 fun _ => entry i) :
    ((((List.range count).map fun i => saddr + UInt32.ofNat i).foldl change vtlb).pmap = vtlb.pmap) ∧
      (((List.range count).map fun i => saddr + UInt32.ofNat i).foldl change vtlb).vmap =
        fill vtlb.vmap first count entry := by
  induction count with
  | zero => exact ⟨rfl, (fill_zero _ _ _).symm⟩
  | succ count ih =>
    obtain ⟨samePmap, filled⟩ := ih fun vtlb' same i inside => each vtlb' same i (Nat.lt_succ_of_lt inside)
    rw [List.range_succ, List.map_append, List.foldl_append, List.map_singleton, List.foldl_cons, List.foldl_nil]
    obtain ⟨last, lastFilled⟩ := each _ samePmap count (Nat.lt_succ_self count)
    refine ⟨last.trans samePmap, lastFilled.trans ?_⟩
    rw [filled, fill_snoc]

theorem page_toNat {saddr : UInt32} {first i : Nat} (starts : saddr.toNat = first) (inside : first + i < 2 ^ 20) :
    ((saddr + UInt32.ofNat i) <<< 12).toNat = (first + i) * VTLB_PAGE_SIZE := by
  have place : (saddr + UInt32.ofNat i).toNat = first + i := by
    rw [UInt32.toNat_add, starts, UInt32.toNat_ofNat']
    omega
  rw [shl_toNat (by decide), place]
  · rfl
  · rw [place]
    show (first + i) * 2 ^ 12 < 2 ^ 32
    omega

theorem unmapHalf_fill (host : Host) (vtlb : MapData) (bits : MaskBits t k) {saddr : UInt32} {half : Nat} (within : half < 2)
    (starts : saddr.toNat = t.scratchPage + half * 2 ^ k) :
    (t.unmapHalf host saddr vtlb).pmap = vtlb.pmap ∧
      (t.unmapHalf host saddr vtlb).vmap = fill vtlb.vmap (t.scratchPage + half * 2 ^ k) (2 ^ k) fun i =>
        .handler host.UnmappedVirtHandler ((t.scratchPage + half * 2 ^ k + i) * VTLB_PAGE_SIZE) := by
  have bound := scratchPage_bound bits
  have later : half * 2 ^ k ≤ 1 * 2 ^ k := Nat.mul_le_mul_right _ (Nat.le_of_lt_succ within)
  unfold Tlbs.unmapHalf
  rw [pages_eq bits within starts]
  apply half_fill
  intro vtlb' _ i inside
  have unmapped := VMapUnmap_vmap host 1 vtlb'
    (show t.scratchPage + half * 2 ^ k + i + 1 ≤ VTLB_VMAP_ITEMS by unfold VTLB_VMAP_ITEMS; omega)
  unfold memClearPageAddr
  rw [page_toNat starts (by omega)]
  exact ⟨unmapped.1, unmapped.2.trans (fill_one _ _ _)⟩

theorem physical_toNat (bits : MaskBits t k) (EntryLo saddr : UInt32) {i : Nat} (inside : i < 2 ^ k) :
    (((EntryLo_PFN EntryLo &&& ~~~t.Mask) <<< 12) + ((saddr + UInt32.ofNat i - saddr) <<< 12)).toNat =
      ((EntryLo_PFN EntryLo).toNat / 2 ^ k * 2 ^ k + i) * VTLB_PAGE_SIZE := by
  have small := EntryLo_PFN_lt EntryLo
  have few : 2 ^ k ≤ 2 ^ 12 := Nat.pow_le_pow_right Nat.two_pos bits.1
  have divides : 2 ^ 20 = 2 ^ (20 - k) * 2 ^ k := by
    rw [← Nat.pow_add, Nat.sub_add_cancel (by have := bits.1; omega)]
  have quotient : (EntryLo_PFN EntryLo).toNat / 2 ^ k < 2 ^ (20 - k) := by
    apply Nat.div_lt_of_lt_mul
    rw [Nat.mul_comm, ← divides]
    exact small
  have most := Nat.mul_le_mul_right (2 ^ k) (Nat.succ_le_of_lt quotient)
  rw [← divides, Nat.succ_mul] at most
  have offset : (saddr + UInt32.ofNat i - saddr) = UInt32.ofNat i := by
    rw [UInt32.add_comm, UInt32.add_sub_cancel]
  have index : (UInt32.ofNat i).toNat = i := by
    rw [UInt32.toNat_ofNat']
    omega
  have shifted : (UInt32.ofNat i <<< 12).toNat = i * VTLB_PAGE_SIZE := by
    rw [shl_toNat (by decide), index]
    · rfl
    · rw [index]
      show i * 2 ^ 12 < 2 ^ 32
      omega
  rw [offset, UInt32.toNat_add, PFN_toNat bits, shifted, Nat.add_mul]
  apply Nat.mod_eq_of_lt
  unfold VTLB_PAGE_SIZE
  omega

theorem mapHalf_fill (host : Host) (vtlb : MapData) (bits : MaskBits t k) {saddr : UInt32} {half : Nat} (within : half < 2)
    (starts : saddr.toNat = t.scratchPage + half * 2 ^ k) (EntryLo : UInt32) :
    (t.mapHalf host saddr ((EntryLo_PFN EntryLo &&& ~~~t.Mask) <<< 12) vtlb).pmap = vtlb.pmap ∧
      (t.mapHalf host saddr ((EntryLo_PFN EntryLo &&& ~~~t.Mask) <<< 12) vtlb).vmap =
        fill vtlb.vmap (t.scratchPage + half * 2 ^ k) (2 ^ k) fun i =>
          vtlb.virtualOf host (((EntryLo_PFN EntryLo).toNat / 2 ^ k * 2 ^ k + i) * VTLB_PAGE_SIZE) := by
  have bound := scratchPage_bound bits
  have later : half * 2 ^ k ≤ 1 * 2 ^ k := Nat.mul_le_mul_right _ (Nat.le_of_lt_succ within)
  unfold Tlbs.mapHalf
  rw [pages_eq bits within starts]
  apply half_fill
  intro vtlb' same i inside
  have physical := physical_toNat bits EntryLo saddr inside
  have small := ((((EntryLo_PFN EntryLo &&& ~~~t.Mask) <<< 12) + ((saddr + UInt32.ofNat i - saddr) <<< 12))).toNat_lt
  rw [physical] at small
  have mapped := VMap_vmap host 1 vtlb'
    (show t.scratchPage + half * 2 ^ k + i + 1 ≤ VTLB_VMAP_ITEMS by unfold VTLB_VMAP_ITEMS; omega)
    (show ((EntryLo_PFN EntryLo).toNat / 2 ^ k * 2 ^ k + i) * VTLB_PAGE_SIZE + 1 * VTLB_PAGE_SIZE ≤ 2 ^ 32 by
      unfold VTLB_PAGE_SIZE at *; omega)
  unfold memSetPageAddr
  rw [page_toNat starts (by omega), physical]
  refine ⟨mapped.1, (mapped.2.trans (fill_one _ _ _)).trans ?_⟩
  simp only [Nat.zero_mul, Nat.add_zero, virtualOf_congr same]

/-! ## The pages of an entry -/

theorem matches_half_iff (page : Nat) (bits : MaskBits t k) {half : Nat} (within : half < 2) :
    t.Matches page ∧ page / 2 ^ k % 2 = half ↔
      t.scratchPage + half * 2 ^ k ≤ page ∧ page < t.scratchPage + half * 2 ^ k + 2 ^ k := by
  have positive := Nat.two_pow_pos k
  unfold Tlbs.Matches Tlbs.scratchPage
  rw [bits.size, Nat.mul_comm 2, ← Nat.div_div_eq_div_mul, Nat.mul_right_comm]
  generalize 2 ^ k = size at *
  generalize t.virtualPage / size = number
  rw [Nat.mul_comm number, ← Nat.add_mul, ← Nat.succ_mul, ← Nat.le_div_iff_mul_le positive,
    ← Nat.div_lt_iff_lt_mul positive]
  generalize page / size = quotient
  omega

theorem page_offset (bits : MaskBits t k) {half : Nat} (first : t.scratchPage + half * 2 ^ k ≤ page)
    (last : page < t.scratchPage + half * 2 ^ k + 2 ^ k) : page - (t.scratchPage + half * 2 ^ k) = page % 2 ^ k := by
  obtain ⟨i, rfl⟩ := Nat.exists_eq_add_of_le first
  rw [Nat.add_sub_cancel_left]
  unfold Tlbs.scratchPage
  rw [bits.size, Nat.mul_right_comm, ← Nat.add_mul, Nat.add_comm, Nat.add_mul_mod_self_right, Nat.mod_eq_of_lt (by omega)]

structure WellMasked (t : Tlbs) : Prop where
  bits : t.isSPR = true ∨ EntryLo_V t.EntryLo0 = true ∨ EntryLo_V t.EntryLo1 = true → ∃ k, MaskBits t k
  inside : ∀ page, t.Covers page → page < VTLB_VMAP_ITEMS

theorem scratch_inside (good : WellMasked t) (spr : t.isSPR = true) : t.scratchPage + 4 ≤ VTLB_VMAP_ITEMS := by
  have last := good.inside (t.scratchPage + 3) (by
    unfold Tlbs.Covers
    rw [if_pos spr]
    omega)
  omega

theorem halves_fill (bits : MaskBits t k) (plain : t.isSPR = false) {first second : MapData → MapData}
    (entry : Nat → VTLBVirtual)
    (low : ∀ vtlb' : MapData, vtlb'.pmap = vtlb.pmap → (first vtlb').pmap = vtlb'.pmap ∧
      (first vtlb').vmap = fill vtlb'.vmap t.scratchPage (2 ^ k) fun i => entry (t.scratchPage + i))
    (high : ∀ vtlb' : MapData, vtlb'.pmap = vtlb.pmap → (second vtlb').pmap = vtlb'.pmap ∧
      (second vtlb').vmap = fill vtlb'.vmap (t.scratchPage + 2 ^ k) (2 ^ k) fun i => entry (t.scratchPage + 2 ^ k + i)) :
    let lower := if EntryLo_V t.EntryLo0 then first vtlb else vtlb
    let both := if EntryLo_V t.EntryLo1 then second lower else lower
    both.pmap = vtlb.pmap ∧ ∀ page, both.vmap page = if t.Covers page then entry page else vtlb.vmap page := by
  have positive := Nat.two_pow_pos k
  have even := fun page => matches_half_iff page bits (show 0 < 2 by decide)
  have odd := fun page => matches_half_iff page bits (show 1 < 2 by decide)
  simp only [Nat.zero_mul, Nat.add_zero, Nat.one_mul] at even odd
  intro lower both
  have lowerMaps : lower.pmap = vtlb.pmap ∧ ∀ page, lower.vmap page =
      if EntryLo_V t.EntryLo0 = true ∧ t.scratchPage ≤ page ∧ page < t.scratchPage + 2 ^ k then entry page
      else vtlb.vmap page := by
    unfold lower
    cases EntryLo_V t.EntryLo0 with
    | true =>
      obtain ⟨same, filled⟩ := low vtlb rfl
      refine ⟨same, fun page => ?_⟩
      rw [if_pos rfl, filled, fill_page]
      simp only [true_and]
    | false => exact ⟨rfl, fun page => (if_neg fun both => Bool.false_ne_true both.1).symm⟩
  have bothMaps : both.pmap = vtlb.pmap ∧ ∀ page, both.vmap page =
      if EntryLo_V t.EntryLo1 = true ∧ t.scratchPage + 2 ^ k ≤ page ∧ page < t.scratchPage + 2 ^ k + 2 ^ k then entry page
      else lower.vmap page := by
    unfold both
    cases EntryLo_V t.EntryLo1 with
    | true =>
      obtain ⟨same, filled⟩ := high lower lowerMaps.1
      refine ⟨same.trans lowerMaps.1, fun page => ?_⟩
      rw [if_pos rfl, filled, fill_page]
      simp only [true_and]
    | false => exact ⟨lowerMaps.1, fun page => (if_neg fun both => Bool.false_ne_true both.1).symm⟩
  refine ⟨bothMaps.1, fun page => ?_⟩
  have covers : t.Covers page ↔ (EntryLo_V t.EntryLo0 = true ∧ t.scratchPage ≤ page ∧ page < t.scratchPage + 2 ^ k) ∨
      (EntryLo_V t.EntryLo1 = true ∧ t.scratchPage + 2 ^ k ≤ page ∧ page < t.scratchPage + 2 ^ k + 2 ^ k) := by
    unfold Tlbs.Covers Tlbs.half
    rw [plain, if_neg Bool.false_ne_true, bits.size, ← even page, ← odd page]
    rcases Nat.mod_two_eq_zero_or_one (page / 2 ^ k) with bit | bit
    · rw [bit]
      simp [and_comm]
    · rw [bit]
      simp [and_comm]
  rw [bothMaps.2, lowerMaps.2]
  by_cases upper : EntryLo_V t.EntryLo1 = true ∧ t.scratchPage + 2 ^ k ≤ page ∧ page < t.scratchPage + 2 ^ k + 2 ^ k
  · rw [if_pos upper, if_pos (covers.mpr (.inr upper))]
  · rw [if_neg upper]
    by_cases inLower : EntryLo_V t.EntryLo0 = true ∧ t.scratchPage ≤ page ∧ page < t.scratchPage + 2 ^ k
    · rw [if_pos inLower, if_pos (covers.mpr (.inl inLower))]
    · rw [if_neg inLower, if_neg]
      exact fun covered => (covers.mp covered).elim inLower upper

theorem covers_nothing (plain : t.isSPR = false) (first : EntryLo_V t.EntryLo0 = false)
    (second : EntryLo_V t.EntryLo1 = false) (page : Nat) : ¬ t.Covers page := by
  unfold Tlbs.Covers Tlbs.half
  rw [plain, if_neg Bool.false_ne_true]
  rintro ⟨-, valid⟩
  split at valid
  · exact Bool.false_ne_true (second.symm.trans valid)
  · exact Bool.false_ne_true (first.symm.trans valid)

theorem unmapPages_vmap (host : Host) (vtlb : MapData) (good : WellMasked t) :
    (unmapPages host t vtlb).pmap = vtlb.pmap ∧ ∀ page, (unmapPages host t vtlb).vmap page =
      if t.Covers page then .handler host.UnmappedVirtHandler (page * VTLB_PAGE_SIZE) else vtlb.vmap page := by
  unfold unmapPages
  cases spr : t.isSPR with
  | true =>
    obtain ⟨k, bits⟩ := good.bits (.inl spr)
    obtain ⟨same, filled⟩ := VMapUnmap_vmap host 4 vtlb (scratch_inside good spr)
    rw [if_pos rfl, VPN2_toNat bits]
    refine ⟨same, fun page => ?_⟩
    show (MapData.vtlb_VMapUnmap host vtlb _ (4 * VTLB_PAGE_SIZE)).vmap page = _
    rw [filled, fill_page _ _ _ fun page => .handler host.UnmappedVirtHandler (page * VTLB_PAGE_SIZE)]
    unfold Tlbs.Covers
    simp only [spr, if_true]
  | false =>
    rw [if_neg Bool.false_ne_true]
    by_cases valid : EntryLo_V t.EntryLo0 = true ∨ EntryLo_V t.EntryLo1 = true
    · obtain ⟨k, bits⟩ := good.bits (.inr valid)
      refine halves_fill bits spr (fun page => .handler host.UnmappedVirtHandler (page * VTLB_PAGE_SIZE)) ?_ ?_
      · intro vtlb' _
        have lower : t.saddr0.toNat = t.scratchPage + 0 * 2 ^ k := by rw [saddr0_toNat bits, Nat.zero_mul, Nat.add_zero]
        have half := unmapHalf_fill host vtlb' bits (by decide) lower
        rwa [Nat.zero_mul, Nat.add_zero] at half
      · intro vtlb' _
        have upper : t.saddr1.toNat = t.scratchPage + 1 * 2 ^ k := by rw [saddr1_toNat bits, Nat.one_mul]
        have half := unmapHalf_fill host vtlb' bits (by decide) upper
        rwa [Nat.one_mul] at half
    · have first : EntryLo_V t.EntryLo0 = false := Bool.eq_false_iff.mpr fun yes => valid (.inl yes)
      have second : EntryLo_V t.EntryLo1 = false := Bool.eq_false_iff.mpr fun yes => valid (.inr yes)
      rw [first, second]
      exact ⟨rfl, fun page => (if_neg (covers_nothing spr first second page)).symm⟩

theorem virtualOf_physical (host : Host) (vtlb : MapData) (bits : MaskBits t k) {half : Nat} (within : half < 2)
    {EntryLo : UInt32} (own : ∀ page, page / 2 ^ k % 2 = half → t.half page = EntryLo) (vmap : Nat → VTLBVirtual) :
    fill vmap (t.scratchPage + half * 2 ^ k) (2 ^ k) (fun i =>
      vtlb.virtualOf host (((EntryLo_PFN EntryLo).toNat / 2 ^ k * 2 ^ k + i) * VTLB_PAGE_SIZE)) =
    fill vmap (t.scratchPage + half * 2 ^ k) (2 ^ k) fun i =>
      vtlb.virtualOf host (t.physical (t.scratchPage + half * 2 ^ k + i)) := by
  funext page
  unfold fill
  split
  · rename_i inside
    have bit := ((matches_half_iff page bits within).mpr inside).2
    dsimp only
    rw [Nat.add_sub_cancel' inside.1, Tlbs.physical, bits.size, own page bit, page_offset bits inside.1 inside.2]
  · rfl

theorem MapTLB_vmap (host : Host) (vtlb : MapData) (good : WellMasked t) :
    (MapTLB host t vtlb).pmap = vtlb.pmap ∧ ∀ page, (MapTLB host t vtlb).vmap page =
      if t.Covers page then t.mapping host vtlb page else vtlb.vmap page := by
  unfold MapTLB
  cases spr : t.isSPR with
  | true =>
    obtain ⟨k, bits⟩ := good.bits (.inl spr)
    obtain ⟨same, filled⟩ := VMapBuffer_vmap host 4 vtlb (scratch_inside good spr) host.eeScratch
    rw [if_pos rfl, VPN2_toNat bits]
    refine ⟨same, fun page => ?_⟩
    show (MapData.vtlb_VMapBuffer host vtlb _ _ (4 * VTLB_PAGE_SIZE)).vmap page = _
    rw [filled]
    unfold Tlbs.Covers Tlbs.mapping fill
    simp only [spr, if_true]
  | false =>
    have plain : t.mapping host vtlb = fun page => vtlb.virtualOf host (t.physical page) := by
      funext page
      unfold Tlbs.mapping
      rw [spr, if_neg Bool.false_ne_true]
    rw [if_neg Bool.false_ne_true, plain]
    by_cases valid : EntryLo_V t.EntryLo0 = true ∨ EntryLo_V t.EntryLo1 = true
    · obtain ⟨k, bits⟩ := good.bits (.inr valid)
      refine halves_fill bits spr (fun page => vtlb.virtualOf host (t.physical page)) ?_ ?_
      · intro vtlb' samePmap
        have lower : t.saddr0.toNat = t.scratchPage + 0 * 2 ^ k := by rw [saddr0_toNat bits, Nat.zero_mul, Nat.add_zero]
        obtain ⟨same, half⟩ := mapHalf_fill host vtlb' bits (by decide) lower t.EntryLo0
        rw [virtualOf_physical host vtlb' bits (by decide) ?_ vtlb'.vmap, Nat.zero_mul, Nat.add_zero] at half
        · simp only [virtualOf_congr samePmap] at half
          exact ⟨same, half⟩
        · intro page bit
          unfold Tlbs.half
          rw [bits.size, bit, if_neg (by decide)]
      · intro vtlb' samePmap
        have upper : t.saddr1.toNat = t.scratchPage + 1 * 2 ^ k := by rw [saddr1_toNat bits, Nat.one_mul]
        obtain ⟨same, half⟩ := mapHalf_fill host vtlb' bits (by decide) upper t.EntryLo1
        rw [virtualOf_physical host vtlb' bits (by decide) ?_ vtlb'.vmap, Nat.one_mul] at half
        · simp only [virtualOf_congr samePmap] at half
          exact ⟨same, half⟩
        · intro page bit
          unfold Tlbs.half
          rw [bits.size, bit, if_pos rfl]
    · have first : EntryLo_V t.EntryLo0 = false := Bool.eq_false_iff.mpr fun yes => valid (.inl yes)
      have second : EntryLo_V t.EntryLo1 = false := Bool.eq_false_iff.mpr fun yes => valid (.inr yes)
      rw [first, second]
      exact ⟨rfl, fun page => (if_neg (covers_nothing spr first second page)).symm⟩

/-! ## Runs -/

def SegmentPage (page : Nat) : Prop := page < 0x80000 ∨ (0xC0000 ≤ page ∧ page < 0x100000)

structure Arranged (tlb : Nat → Tlbs) : Prop where
  masks : ∀ i < 48, (tlb i).isSPR = true ∨ EntryLo_V (tlb i).EntryLo0 = true ∨ EntryLo_V (tlb i).EntryLo1 = true →
    (tlb i).ValidMask
  inside : ∀ i < 48, ∀ page, (tlb i).Covers page → SegmentPage page
  apart : ∀ i < 48, ∀ j < 48, i ≠ j → ∀ page, (tlb i).Covers page → ¬ (tlb j).Covers page

theorem Arranged.wellMasked {tlb : Nat → Tlbs} (arranged : Arranged tlb) {i : Nat} (inside : i < 48) :
    WellMasked (tlb i) := by
  refine ⟨fun valid => ValidMask.bits (arranged.masks i inside valid), fun page covers => ?_⟩
  have segment := arranged.inside i inside page covers
  unfold SegmentPage at segment
  unfold VTLB_VMAP_ITEMS
  omega

/-- The writes leave the TLB arranged. -/
def AlwaysArranged (host : Host) (s : State) : List Write → Prop
  | [] => Arranged s.tlb
  | write :: rest => Arranged s.tlb ∧ AlwaysArranged host (s.write host write) rest

def Matched (tlb : Nat → Tlbs) (page : Nat) : Prop := ∃ i < 48, (tlb i).Covers page

/-- Some entry has had the page, in one of the states of the writes. -/
def EverMatched (host : Host) (s : State) (page : Nat) : List Write → Prop
  | [] => Matched s.tlb page
  | write :: rest => Matched s.tlb page ∨ EverMatched host (s.write host write) page rest

def State.writes (host : Host) (s : State) (writes : List Write) : State := writes.foldl (State.write host) s

structure Translates (host : Host) (initial : MapData) (before : Nat → Prop) (s : State) : Prop where
  pmap : s.vtlb.pmap = initial.pmap
  matched : ∀ i < 48, ∀ page, (s.tlb i).Covers page → s.vtlb.vmap page = (s.tlb i).mapping host initial page
  lost : ∀ page, ¬ Matched s.tlb page → before page →
    s.vtlb.vmap page = .handler host.UnmappedVirtHandler (page * VTLB_PAGE_SIZE)
  never : ∀ page, ¬ Matched s.tlb page → ¬ before page → s.vtlb.vmap page = initial.vmap page

theorem mapping_congr {vtlb' : MapData} (same : vtlb'.pmap = vtlb.pmap) (page : Nat) :
    t.mapping host vtlb' page = t.mapping host vtlb page := by
  unfold Tlbs.mapping
  rw [virtualOf_congr same]

theorem write_effect (host : Host) (arranged : Arranged s.tlb) (write : Write)
    (next : Arranged (s.write host write).tlb) :
    s.write host write = s ∨ ∃ j < 48, ∃ t, (s.write host write).tlb = Function.update s.tlb j t ∧
      (s.write host write).vtlb.pmap = s.vtlb.pmap ∧ ∀ page, (s.write host write).vtlb.vmap page =
        if t.Covers page then t.mapping host s.vtlb page
        else if (s.tlb j).Covers page then .handler host.UnmappedVirtHandler (page * VTLB_PAGE_SIZE)
        else s.vtlb.vmap page := by
  rw [write_eq] at next ⊢
  by_cases outside : 47 < write.index
  · exact .inl (if_pos outside)
  right
  rw [if_neg outside] at next ⊢
  have inside : write.index < 48 := by omega
  have tlb : (WriteTLB host write.regs write.index (UnmapTLB host (s.tlb write.index) s)).tlb =
      Function.update s.tlb write.index (writtenTLB write.regs) := by
    unfold UnmapTLB
    dsimp only
    split <;> rfl
  have unmapped : (UnmapTLB host (s.tlb write.index) s).vtlb = unmapPages host (s.tlb write.index) s.vtlb := by
    unfold UnmapTLB
    dsimp only
    split <;> rfl
  have vtlb : (WriteTLB host write.regs write.index (UnmapTLB host (s.tlb write.index) s)).vtlb =
      MapTLB host (writtenTLB write.regs) (unmapPages host (s.tlb write.index) s.vtlb) := by
    rw [← unmapped]
    rfl
  rw [tlb] at next ⊢
  have written := next.wellMasked inside
  rw [Function.update_self] at written
  obtain ⟨unmapPmap, unmaps⟩ := unmapPages_vmap host s.vtlb (arranged.wellMasked inside)
  obtain ⟨mapPmap, maps⟩ := MapTLB_vmap host (unmapPages host (s.tlb write.index) s.vtlb) written
  refine ⟨write.index, inside, writtenTLB write.regs, rfl, ?_, fun page => ?_⟩
  · rw [vtlb, mapPmap, unmapPmap]
  · rw [vtlb, maps, unmaps, mapping_congr unmapPmap]

theorem write_translates {initial : MapData} {before : Nat → Prop} (arranged : Arranged s.tlb) (write : Write)
    (next : Arranged (s.write host write).tlb) (translates : Translates host initial before s) :
    Translates host initial (fun page => before page ∨ Matched s.tlb page) (s.write host write) := by
  rcases write_effect host arranged write next with same | ⟨j, inside, t, tlb, pmap, vmap⟩
  · rw [same]
    refine ⟨translates.pmap, translates.matched, fun page none earlier => ?_, fun page none never => ?_⟩
    · exact translates.lost page none (earlier.resolve_right none)
    · exact translates.never page none fun earlier => never (.inl earlier)
  rw [tlb] at next
  have old : ∀ i, i ≠ j → Function.update s.tlb j t i = s.tlb i := fun i other => Function.update_of_ne other _ _
  have matchedNow : ∀ page, Matched (Function.update s.tlb j t) page ↔
      t.Covers page ∨ ∃ i < 48, i ≠ j ∧ (s.tlb i).Covers page := by
    intro page
    constructor
    · rintro ⟨i, below, covers⟩
      by_cases here : i = j
      · rw [here, Function.update_self] at covers
        exact .inl covers
      · rw [old i here] at covers
        exact .inr ⟨i, below, here, covers⟩
    · rintro (covers | ⟨i, below, other, covers⟩)
      · exact ⟨j, inside, by rwa [Function.update_self]⟩
      · exact ⟨i, below, by rwa [old i other]⟩
  refine ⟨pmap.trans translates.pmap, fun i below page covers => ?_, fun page none earlier => ?_, fun page none never => ?_⟩
  · rw [tlb] at covers ⊢
    rw [vmap]
    by_cases here : i = j
    · rw [here, Function.update_self] at covers ⊢
      rw [if_pos covers, mapping_congr translates.pmap]
    · have mine := next.apart i below j inside here page covers
      rw [Function.update_self] at mine
      rw [old i here] at covers ⊢
      rw [if_neg mine, if_neg (arranged.apart i below j inside here page covers)]
      exact translates.matched i below page covers
  · rw [tlb, matchedNow, not_or] at none
    rw [vmap, if_neg none.1]
    by_cases mine : (s.tlb j).Covers page
    · rw [if_pos mine]
    · rw [if_neg mine]
      have unmatched : ¬ Matched s.tlb page := by
        rintro ⟨i, below, covers⟩
        by_cases here : i = j
        · exact mine (here ▸ covers)
        · exact none.2 ⟨i, below, here, covers⟩
      exact translates.lost page unmatched (earlier.resolve_right unmatched)
  · rw [not_or] at never
    rw [tlb, matchedNow, not_or] at none
    rw [vmap, if_neg none.1, if_neg fun covers => never.2 ⟨j, inside, covers⟩]
    exact translates.never page never.2 never.1

theorem writes_translate {initial : MapData} {before : Nat → Prop} (writes : List Write)
    (arranged : AlwaysArranged host s writes) (translates : Translates host initial before s) :
    ∃ earlier : Nat → Prop, Translates host initial earlier (s.writes host writes) ∧
      ∀ page, ¬ Matched (s.writes host writes).tlb page → (earlier page ↔ before page ∨ EverMatched host s page writes) := by
  induction writes generalizing s before with
  | nil => exact ⟨before, translates, fun page none => (or_iff_left none).symm⟩
  | cons write rest ih =>
    obtain ⟨now, arranged⟩ := arranged
    have next : Arranged (s.write host write).tlb := by
      cases rest with
      | nil => exact arranged
      | cons => exact arranged.1
    obtain ⟨earlier, ends, same⟩ := ih arranged (write_translates now write next translates)
    exact ⟨earlier, ends, fun page none => (same page none).trans or_assoc⟩

theorem zero_covers (page : Nat) : ¬ (Tlbs.mk 0 0 0 0).Covers page :=
  covers_nothing (by decide) (by decide) (by decide) page

theorem reset_translates (host : Host) (vtlb : MapData) : Translates host vtlb (fun _ => False) (reset vtlb) :=
  ⟨rfl, fun _ _ page covers => absurd covers (zero_covers page), fun _ _ => False.elim, fun _ _ _ => rfl⟩

/-- The page of an entry is where the entry has it. That of no entry is unmapped, when it was some entry's since the
reset, and otherwise as the reset has left it. -/
theorem tlb_translation (host : Host) (vtlb : MapData) (writes : List Write)
    (arranged : AlwaysArranged host (reset vtlb) writes) (page : Nat) :
    (∀ i < 48, (((reset vtlb).writes host writes).tlb i).Covers page →
      ((reset vtlb).writes host writes).vtlb.vmap page =
        (((reset vtlb).writes host writes).tlb i).mapping host vtlb page) ∧
    (¬ Matched ((reset vtlb).writes host writes).tlb page →
      (EverMatched host (reset vtlb) page writes → ((reset vtlb).writes host writes).vtlb.vmap page =
        .handler host.UnmappedVirtHandler (page * VTLB_PAGE_SIZE)) ∧
      (¬ EverMatched host (reset vtlb) page writes → ((reset vtlb).writes host writes).vtlb.vmap page =
        vtlb.vmap page)) := by
  obtain ⟨earlier, translates, same⟩ := writes_translate writes arranged (reset_translates host vtlb)
  refine ⟨fun i inside covers => translates.matched i inside page covers, fun none => ?_⟩
  have known := same page none
  rw [false_or] at known
  exact ⟨fun ever => translates.lost page none (known.mpr ever),
    fun never => translates.never page none fun before => never (known.mp before)⟩

/-! ### One entry -/

/-- What `cachedWrite` writes. -/
def oneEntry : Tlbs := { PageMask := 0, EntryHi := 0x2000, EntryLo0 := 0x1A, EntryLo1 := 0x10 }

theorem oneEntry_covers {page : Nat} (covers : oneEntry.Covers page) : page < 4 := by
  have plain : oneEntry.isSPR = false := by decide
  have size : oneEntry.size = 1 := by decide
  have virtualPage : oneEntry.virtualPage = 1 := by decide
  unfold Tlbs.Covers Tlbs.Matches at covers
  rw [plain, if_neg Bool.false_ne_true, size, virtualPage] at covers
  omega

theorem reset_arranged (vtlb : MapData) : Arranged (reset vtlb).tlb := by
  refine ⟨fun _ _ valid => ?_, fun _ _ page covers => absurd covers (zero_covers page),
    fun _ _ _ _ _ page covers _ => zero_covers page covers⟩
  have none : ¬ (Tlbs.isSPR ⟨0, 0, 0, 0⟩ = true ∨ EntryLo_V 0 = true ∨ EntryLo_V 0 = true) := by decide
  exact absurd valid none

theorem oneEntry_arranged (vtlb : MapData) : Arranged (Function.update (reset vtlb).tlb 1 oneEntry) := by
  have others : ∀ i, i ≠ 1 → Function.update (reset vtlb).tlb 1 oneEntry i = ⟨0, 0, 0, 0⟩ :=
    fun i other => Function.update_of_ne other _ _
  have only : ∀ i page, (Function.update (reset vtlb).tlb 1 oneEntry i).Covers page → i = 1 := by
    intro i page covers
    by_contra other
    rw [others i other] at covers
    exact zero_covers page covers
  refine ⟨fun i inside valid => ?_, fun i _ page covers => ?_, fun i _ j _ different page covers also => ?_⟩
  · by_cases here : i = 1
    · rw [here, Function.update_self]
      exact ⟨0, Nat.zero_le 6, by decide⟩
    · rw [others i here] at valid ⊢
      exact absurd valid (by decide)
  · have covered := covers
    rw [only i page covers, Function.update_self] at covered
    exact .inl (Nat.lt_trans (oneEntry_covers covered) (by decide))
  · exact different ((only i page covers).trans (only j page also).symm)

theorem tlb_translation_oneEntry :
    (∀ i < 48, (((reset blank).writes smallHost [cachedWrite]).tlb i).Covers 2 →
      ((reset blank).writes smallHost [cachedWrite]).vtlb.vmap 2 =
        (((reset blank).writes smallHost [cachedWrite]).tlb i).mapping smallHost blank 2) ∧
    (¬ Matched ((reset blank).writes smallHost [cachedWrite]).tlb 2 →
      (EverMatched smallHost (reset blank) 2 [cachedWrite] →
        ((reset blank).writes smallHost [cachedWrite]).vtlb.vmap 2 =
          .handler smallHost.UnmappedVirtHandler (2 * VTLB_PAGE_SIZE)) ∧
      (¬ EverMatched smallHost (reset blank) 2 [cachedWrite] →
        ((reset blank).writes smallHost [cachedWrite]).vtlb.vmap 2 = blank.vmap 2)) := by
  refine tlb_translation smallHost blank [cachedWrite] ⟨reset_arranged blank, ?_⟩ 2
  have written : writtenTLB cachedWrite.regs = oneEntry := by decide
  have index : cachedWrite.index = 1 := by decide
  show Arranged ((reset blank).write smallHost cachedWrite).tlb
  have tlb : ((reset blank).write smallHost cachedWrite).tlb = Function.update (reset blank).tlb 1 oneEntry := by
    rw [write_eq, index, if_neg (by decide), ← written]
    unfold UnmapTLB
    dsimp only
    split <;> rfl
  rw [tlb]
  exact oneEntry_arranged blank

/-! ### The pages that a reset maps -/

/-- The end of `memReset`, after `vtlb_Init` has unmapped all pages. -/
def memReset (host : Host) (vtlb : MapData) : MapData :=
  let kernel := (vtlb.vtlb_VMap host 0x80000000 0 0x20000000).vtlb_VMap host 0xA0000000 0 0x20000000
  (kernel.vtlb_VMap host 0 0 0x20000000).vtlb_VMapUnmap host 0x20000000 0x60000000

theorem mapped_zero (host : Host) (vtlb : MapData) {a b n m kseg0 kseg1 segment upper : Nat}
    (kseg0_eq : a = kseg0 * VTLB_PAGE_SIZE) (kseg1_eq : b = kseg1 * VTLB_PAGE_SIZE)
    (segment_eq : n = segment * VTLB_PAGE_SIZE) (upper_eq : m = upper * VTLB_PAGE_SIZE) (some : 0 < segment)
    (first : kseg0 + segment ≤ VTLB_VMAP_ITEMS) (second : kseg1 + segment ≤ VTLB_VMAP_ITEMS)
    (rest : segment + upper ≤ VTLB_VMAP_ITEMS) (physical : 0 + segment * VTLB_PAGE_SIZE ≤ 2 ^ 32) :
    ((((vtlb.vtlb_VMap host a 0 n).vtlb_VMap host b 0 n).vtlb_VMap host 0 0 n).vtlb_VMapUnmap host n m).vmap 0 =
      vtlb.virtualOf host 0 := by
  subst kseg0_eq kseg1_eq segment_eq upper_eq
  have lower : 0 + segment ≤ VTLB_VMAP_ITEMS := by omega
  have first := VMap_vmap host segment vtlb first physical
  generalize vtlb.vtlb_VMap host (kseg0 * VTLB_PAGE_SIZE) 0 (segment * VTLB_PAGE_SIZE) = one at first ⊢
  have second := VMap_vmap host segment one second physical
  generalize one.vtlb_VMap host (kseg1 * VTLB_PAGE_SIZE) 0 (segment * VTLB_PAGE_SIZE) = two at second ⊢
  have third := VMap_vmap host segment two lower physical
  rw [Nat.zero_mul] at third
  rw [(VMapUnmap_vmap host upper _ rest).2, third.2]
  unfold fill
  rw [if_neg (by omega), if_pos (by omega), Nat.sub_zero]
  dsimp only
  rw [Nat.zero_mul, Nat.add_zero, virtualOf_congr second.1, virtualOf_congr first.1]

theorem memReset_zero (host : Host) (vtlb : MapData) : (memReset host vtlb).vmap 0 = vtlb.virtualOf host 0 := by
  have kseg0 : 0x80000000 = 0x80000 * VTLB_PAGE_SIZE := by decide
  have kseg1 : 0xA0000000 = 0xA0000 * VTLB_PAGE_SIZE := by decide
  have segment : 0x20000000 = 0x20000 * VTLB_PAGE_SIZE := by decide
  have upper : 0x60000000 = 0x60000 * VTLB_PAGE_SIZE := by decide
  have physical : 0 + 0x20000 * VTLB_PAGE_SIZE ≤ 2 ^ 32 := by decide
  have mapped := @mapped_zero host vtlb _ _ _ _ 0x80000 0xA0000 0x20000 0x60000 kseg0 kseg1 segment upper (by decide)
    (by decide) (by decide) (by decide) physical
  have calls : memReset host vtlb = (((vtlb.vtlb_VMap host 0x80000000 0 0x20000000).vtlb_VMap host 0xA0000000 0
    0x20000000).vtlb_VMap host 0 0 0x20000000).vtlb_VMapUnmap host 0x20000000 0x60000000 := rfl
  rw [calls]
  exact mapped

def upperWrite : Write := .TLBWI
  { Index := 5, Random := 47, PageMask := 0, EntryHi := 0x70000000, EntryLo0 := 0x17, EntryLo1 := 0x17 }

/-- Page 0 has no entry after a reset, and is RAM. Besides, `TLBP` does not find an entry that is there. -/
theorem reset_identity :
    (SegmentPage 0 ∧ AlwaysArranged smallHost (reset (memReset smallHost blank)) [] ∧
      ¬ Matched (reset (memReset smallHost blank)).tlb 0 ∧
      (reset (memReset smallHost blank)).vtlb.vmap 0 ≠ .handler smallHost.UnmappedVirtHandler 0) ∧
    (((reset blank).write smallHost upperWrite).tlb 5).EntryHi = 0x70000000 ∧
      TLBP 0x70000000 ((reset blank).write smallHost upperWrite) ≠ 5 := by
  refine ⟨⟨.inl (by decide), reset_arranged _, fun ⟨_, _, covers⟩ => zero_covers 0 covers, ?_⟩, by decide,
    by decide⟩
  rw [reset_vtlb, memReset_zero]
  decide

end Pcsx2.Cop0
