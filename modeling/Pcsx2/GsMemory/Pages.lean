import Mathlib.Tactic.ByContra
import Pcsx2.GsMemory.PageLooper

/-!
# Which pages the loop visits

The offsets of a row are those of the pages of its blocks, and the rows together have the pages of the rectangle, unless
all of them are at one address and the first one leaves out a page.
-/

namespace Pcsx2.GsMemory
open Foundation

/-! ## Pages of blocks -/

def Offset.up (o : Offset) (x y : Nat) : Nat := if o.lookup x y < o.invBlockOff then 0 else 1

theorem blockOff (n : Nat) : n &&& 0x1f = n % 32 := by
  rw [show 0x1f = 2 ^ 5 - 1 from rfl, Nat.and_two_pow_sub_one_eq_mod]

theorem Offset.invBlockOff_eq (o : Offset) : o.invBlockOff = 32 - o.bp % 32 := by
  rw [Offset.invBlockOff, blockOff]

theorem Offset.rectUsesPage_iff (o : Offset) (x1 x2 y1 y2 : Nat) (lowPage : Bool) : o.rectUsesPage x1 x2 y1 y2 lowPage = true ↔
    ∃ x, x1 ≤ x ∧ x < x2 ∧ ∃ y, y1 ≤ y ∧ y < y2 ∧ o.up x y = if lowPage then 0 else 1 := by
  have range (low high b : Nat) : b ∈ List.range' low (high - low) ↔ low ≤ b ∧ b < high := by
    rw [List.mem_range'_1]
    omega
  have which (x y : Nat) : (decide (o.lookup x y < o.invBlockOff) == lowPage) = true ↔ o.up x y = if lowPage then 0 else 1 := by
    unfold Offset.up
    cases lowPage <;> by_cases below : o.lookup x y < o.invBlockOff <;> simp [below]
  simp only [Offset.rectUsesPage, List.any_eq_true, range, which]
  constructor
  · rintro ⟨y, ⟨top, bottom⟩, x, ⟨left, right⟩, up⟩
    exact ⟨x, left, right, y, top, bottom, up⟩
  · rintro ⟨x, left, right, y, top, bottom, up⟩
    exact ⟨y, ⟨top, bottom⟩, x, ⟨left, right⟩, up⟩

namespace Rect

variable (rect : Rect) (w h : Nat)

def blkLeft : Nat := rect.left / 2 ^ w

def blkRight : Nat := (rect.right + (2 ^ w - 1)) / 2 ^ w

def blkTop : Nat := rect.top / 2 ^ h

def blkBottom : Nat := (rect.bottom + (2 ^ h - 1)) / 2 ^ h

variable {rect w h}

theorem blkLeft_lt (wide : rect.left < rect.right) : rect.blkLeft w < rect.blkRight w := by
  have here := (touched_iff (b := rect.left / 2 ^ w) wide (Nat.two_pow_pos w)).mpr ⟨rect.left, Nat.le_refl _, wide, rfl⟩
  exact Nat.lt_of_le_of_lt here.1 here.2

theorem blkTop_lt (high : rect.top < rect.bottom) : rect.blkTop h < rect.blkBottom h := by
  have here := (touched_iff (b := rect.top / 2 ^ h) high (Nat.two_pow_pos h)).mpr ⟨rect.top, Nat.le_refl _, high, rfl⟩
  exact Nat.lt_of_le_of_lt here.1 here.2

end Rect

namespace Formed

variable {o : Offset} {w h cw ch : Nat} (formed : Formed o w h cw ch)
include formed

theorem widths : 2 ^ cw = 4 ∨ 2 ^ cw = 8 := by
  have page := formed.page
  have wide := formed.wide
  have high := formed.high
  have cases : cw = 2 ∨ cw = 3 := by omega
  rcases cases with rfl | rfl
  · exact Or.inl rfl
  · exact Or.inr rfl

theorem heights : 2 ^ ch = 4 ∨ 2 ^ ch = 8 := by
  have page := formed.page
  have wide := formed.wide
  have high := formed.high
  have cases : ch = 2 ∨ ch = 3 := by omega
  rcases cases with rfl | rfl
  · exact Or.inl rfl
  · exact Or.inr rfl

theorem up_mod_left (x y : Nat) : o.up (x % 2 ^ cw) y = o.up x y := by
  rw [Offset.up, Offset.up, formed.lookup, formed.lookup, Nat.mod_mod]

theorem up_mod_right (x y : Nat) : o.up x (y % 2 ^ ch) = o.up x y := by
  rw [Offset.up, Offset.up, formed.lookup, formed.lookup, Nat.mod_mod]

theorem lookup_lt (x y : Nat) : o.lookup x y < 32 := by
  have size : o.list.blocksHigh * o.list.blocksWide = 32 := by
    rw [formed.blocksHigh, formed.blocksWide, ← Nat.pow_add, Nat.add_comm, formed.page]
  rw [formed.lookup, ← size]
  apply formed.blocks.lt
  · rw [formed.blocksHigh]
    exact Nat.mod_lt _ (Nat.two_pow_pos ch)
  · rw [formed.blocksWide]
    exact Nat.mod_lt _ (Nat.two_pow_pos cw)

theorem up_row {x y : Nat} (last : (x + 1) % 2 ^ cw = 0) : o.up (x + 1) y ≤ o.up x y := by
  have row : y % 2 ^ ch < o.list.blocksHigh := by
    rw [formed.blocksHigh]
    exact Nat.mod_lt y (Nat.two_pow_pos ch)
  have sum := formed.blockSum (y % 2 ^ ch) row (x % 2 ^ cw) (by
    rw [formed.blocksWide]
    exact Nat.mod_lt x (Nat.two_pow_pos cw))
  have first : o.lookup (x + 1) y ≤ o.lookup x y := by
    rw [formed.lookup, formed.lookup, last, sum]
    exact Nat.le_add_right _ _
  unfold Offset.up
  split_ifs
  · exact Nat.le_refl 0
  · exact Nat.zero_le 1
  · omega
  · exact Nat.le_refl 1

theorem number_page (x y : Nat) :
    o.number x y / 32 = (o.bp / 32 + y / 2 ^ ch * o.bwPg + x / 2 ^ cw + o.up x y) % GS_MAX_PAGES := by
  have entry := formed.lookup_lt x y
  have place : (o.bp + 32 * (y / 2 ^ ch * o.bwPg + x / 2 ^ cw) + o.lookup x y) / 32 =
      o.bp / 32 + y / 2 ^ ch * o.bwPg + x / 2 ^ cw + o.up x y := by
    rw [Offset.up, o.invBlockOff_eq]
    split <;> omega
  have xor : o.blockXor / 2 ^ 5 = 0 := Nat.div_eq_of_lt formed.xor
  have page (n : Nat) : (n ^^^ o.blockXor) % GS_MAX_BLOCKS / 32 = n / 32 % GS_MAX_PAGES := by
    have small := Nat.mod_lt (n ^^^ o.blockXor) (show 0 < 16384 by decide)
    calc (n ^^^ o.blockXor) % GS_MAX_BLOCKS / 32 = (n ^^^ o.blockXor) / 2 ^ 5 % 512 := by
          rw [GS_MAX_BLOCKS]
          omega
      _ = n / 32 % GS_MAX_PAGES := by rw [Nat.xor_div_two_pow, xor, Nat.xor_zero, GS_MAX_PAGES]
  rw [Offset.number, page, ← place, Offset.place, formed.blocksHigh, formed.blocksWide, formed.lookup]

theorem align_eq (rect : Rect) : o.align rect =
    { ox1 := rect.blkLeft w
      oy1 := rect.blkTop h
      ox2 := rect.blkRight w
      oy2 := rect.blkBottom h
      ix1 := 2 ^ cw * ((rect.blkLeft w + (2 ^ cw - 1)) / 2 ^ cw)
      iy1 := 2 ^ ch * ((rect.blkTop h + (2 ^ ch - 1)) / 2 ^ ch)
      ix2 := 2 ^ cw * (rect.blkRight w / 2 ^ cw)
      iy2 := 2 ^ ch * (rect.blkBottom h / 2 ^ ch) } := by
  have pageX : o.pageMaskX = 2 ^ (w + cw) - 1 := by rw [Offset.pageMaskX, formed.pageWidth]
  have pageY : o.pageMaskY = 2 ^ (h + ch) - 1 := by
    change o.list.blocksHigh * o.list.colHeight - 1 = _
    rw [formed.pageHeight]
  simp only [Offset.align, Rect.ralignOutside, Rect.ralignInside, formed.blockMaskX, formed.blockMaskY, formed.blockShiftX,
    formed.blockShiftY, pageX, pageY, outer_shift, inner_start, inner_stop, Rect.blkLeft, Rect.blkTop, Rect.blkRight,
    Rect.blkBottom]

end Formed

/-- The loop calls its function on the pages of the rectangle's pixels, each once. -/
structure Exact (o : Offset) (rect : Rect) : Prop where
  once : (o.pageLooperForRect rect).loopPages.Nodup
  pages : ∀ page, page ∈ (o.pageLooperForRect rect).loopPages ↔ ∃ x y, rect.Has x y ∧ o.bn x y / 32 = page

/-! ## Rows of pages -/

variable {r : Nat}

namespace Formed

variable {o : Offset} {w h cw ch : Nat} (formed : Formed o w h cw ch) {rect : Rect} (wide : rect.left < rect.right)
include formed wide

omit wide in
theorem tile_width : 1 <<< (o.pageShiftX - o.blockShiftX) = 2 ^ cw := by
  rw [formed.pageShiftX, formed.blockShiftX, Nat.add_sub_cancel_left, Nat.one_shiftLeft]

omit wide in
theorem tile_height : 1 <<< (o.pageShiftY - o.blockShiftY) = 2 ^ ch := by
  rw [formed.pageShiftY, formed.blockShiftY, Nat.add_sub_cancel_left, Nat.one_shiftLeft]

omit wide in
theorem band_period (y1 y2 v x : Nat) :
    (∃ y, y1 ≤ y ∧ y < y2 ∧ o.up (x % 2 ^ cw) y = v) ↔ ∃ y, y1 ≤ y ∧ y < y2 ∧ o.up x y = v := by
  simp only [formed.up_mod_left]

theorem startAdj_iff (y1 y2 : Nat) :
    o.rectUsesPage (o.startAdj (o.align rect)).1 (o.startAdj (o.align rect)).2 y1 y2 true = true ↔
    ∃ x, rect.blkLeft w ≤ x ∧ x < rect.blkRight w ∧ x / 2 ^ cw = rect.blkLeft w / 2 ^ cw ∧
      ∃ y, y1 ≤ y ∧ y < y2 ∧ o.up x y = 0 := by
  have some : rect.blkLeft w < rect.blkRight w := Rect.blkLeft_lt wide
  rw [o.rectUsesPage_iff]
  cases stays : staysWithinOnePage (rect.blkLeft w) (rect.blkRight w)
      (2 ^ cw * ((rect.blkLeft w + (2 ^ cw - 1)) / 2 ^ cw)) (2 ^ cw * (rect.blkRight w / 2 ^ cw)) with
  | true =>
      have one := stays_true some formed.widths stays
      have cols : o.startAdj (o.align rect) = (rect.blkLeft w, rect.blkRight w) := by
        rw [formed.align_eq]
        exact if_pos stays
      rw [cols]
      constructor
      · rintro ⟨x, above, below, band⟩
        exact ⟨x, above, below, by rcases formed.widths with four | eight <;> simp only [*] at * <;> omega, band⟩
      · rintro ⟨x, above, below, -, band⟩
        exact ⟨x, above, below, band⟩
  | false =>
      refine first_tile some formed.widths (formed.band_period y1 y2 0) stays ?_
      rw [formed.align_eq, Offset.startAdj, formed.tile_width]
      exact if_neg (Bool.eq_false_iff.mp stays)

theorem endAdj_iff (y1 y2 : Nat) :
    o.rectUsesPage (o.endAdj (o.align rect)).1 (o.endAdj (o.align rect)).2 y1 y2 false = true ↔
    ∃ x, rect.blkLeft w ≤ x ∧ x < rect.blkRight w ∧ x / 2 ^ cw = (rect.blkRight w - 1) / 2 ^ cw ∧
      ∃ y, y1 ≤ y ∧ y < y2 ∧ o.up x y = 1 := by
  have some : rect.blkLeft w < rect.blkRight w := Rect.blkLeft_lt wide
  rw [o.rectUsesPage_iff]
  cases stays : staysWithinOnePage (rect.blkLeft w) (rect.blkRight w)
      (2 ^ cw * ((rect.blkLeft w + (2 ^ cw - 1)) / 2 ^ cw)) (2 ^ cw * (rect.blkRight w / 2 ^ cw)) with
  | true =>
      have one := stays_true some formed.widths stays
      have cols : o.endAdj (o.align rect) = (rect.blkLeft w, rect.blkRight w) := by
        rw [formed.align_eq]
        exact if_pos stays
      rw [cols]
      constructor
      · rintro ⟨x, above, below, band⟩
        exact ⟨x, above, below, by rcases formed.widths with four | eight <;> simp only [*] at * <;> omega, band⟩
      · rintro ⟨x, above, below, -, band⟩
        exact ⟨x, above, below, band⟩
  | false =>
      refine last_tile some formed.widths (formed.band_period y1 y2 1) stays ?_
      rw [formed.align_eq, Offset.endAdj, formed.tile_width]
      exact if_neg (Bool.eq_false_iff.mp stays)

theorem adjustStartEnd_iff {y1 y2 : Nat} (band : y1 < y2) (p : Nat) :
    let off := o.adjustStartEnd (o.align rect) (rect.blkLeft w / 2 ^ cw, (rect.blkRight w - 1) / 2 ^ cw + 2) y1 y2
    (off.1 ≤ p ∧ p < off.2) ↔
      ∃ x, rect.blkLeft w ≤ x ∧ x < rect.blkRight w ∧ ∃ y, y1 ≤ y ∧ y < y2 ∧ x / 2 ^ cw + o.up x y = p := by
  have some : rect.blkLeft w < rect.blkRight w := Rect.blkLeft_lt wide
  have start := formed.startAdj_iff wide y1 y2
  have stop := formed.endAdj_iff wide y1 y2
  have few (x y : Nat) : o.up x y = 0 ∨ o.up x y = 1 := by
    unfold Offset.up
    split
    · exact Or.inl rfl
    · exact Or.inr rfl
  have tiles (x : Nat) (above : rect.blkLeft w ≤ x) (below : x < rect.blkRight w) :
      rect.blkLeft w / 2 ^ cw ≤ x / 2 ^ cw ∧ x / 2 ^ cw ≤ (rect.blkRight w - 1) / 2 ^ cw :=
    ⟨Nat.div_le_div_right above, Nat.div_le_div_right (by omega)⟩
  simp only [Offset.adjustStartEnd]
  constructor
  · rintro ⟨above, below⟩
    rcases between_edges above below with ⟨rfl, used⟩ | ⟨rfl, used⟩ | ⟨after, before⟩
    · obtain ⟨x, left, right, tile, y, top, bottom, low⟩ := start.mp used
      exact ⟨x, left, right, y, top, bottom, by rw [tile, low, Nat.add_zero]⟩
    · obtain ⟨x, left, right, tile, y, top, bottom, high⟩ := stop.mp used
      exact ⟨x, left, right, y, top, bottom, by rw [tile, high]⟩
    · -- either the last block of the tile before is in its upper page, or the first block of this one is in its lower one
      obtain ⟨left, right, positive, tile, here, start⟩ := tile_between some formed.widths after before
      rcases few (2 ^ cw * p - 1) y1 with low | high
      · have row := formed.up_row (x := 2 ^ cw * p - 1) (y := y1) (by rw [Nat.sub_add_cancel positive, start])
        rw [Nat.sub_add_cancel positive, low] at row
        exact ⟨2 ^ cw * p, by omega, right, y1, Nat.le_refl y1, band, by rw [here, Nat.le_zero.mp row, Nat.add_zero]⟩
      · exact ⟨2 ^ cw * p - 1, left, by omega, y1, Nat.le_refl y1, band, by
          rw [tile, high, Nat.sub_add_cancel (Nat.one_le_of_lt after)]⟩
  · rintro ⟨x, above, below, y, top, bottom, rfl⟩
    obtain ⟨first, last⟩ := tiles x above below
    rcases few x y with low | high
    · have uses (same : x / 2 ^ cw = rect.blkLeft w / 2 ^ cw) := start.mpr ⟨x, above, below, same, y, top, bottom, low⟩
      rw [low]
      constructor
      · split
        · exact first
        · next unused => exact Nat.lt_of_le_of_ne first fun same => unused (uses same.symm)
      · split <;> omega
    · have uses (same : x / 2 ^ cw = (rect.blkRight w - 1) / 2 ^ cw) := stop.mpr ⟨x, above, below, same, y, top, bottom, high⟩
      rw [high]
      constructor
      · split <;> omega
      · split
        · omega
        · next unused =>
            have before := Nat.lt_of_le_of_ne last fun same => unused (uses same)
            omega

omit wide in
theorem pages_left : rect.left >>> o.pageShiftX = rect.blkLeft w / 2 ^ cw := by
  rw [formed.pageShiftX, Nat.shiftRight_eq_div_pow, Nat.pow_add, ← Nat.div_div_eq_div_mul, Rect.blkLeft]

omit wide in
theorem pages_top : rect.top >>> o.pageShiftY = rect.blkTop h / 2 ^ ch := by
  rw [formed.pageShiftY, Nat.shiftRight_eq_div_pow, Nat.pow_add, ← Nat.div_div_eq_div_mul, Rect.blkTop]

theorem pages_right : (rect.right + o.pageMaskX) >>> o.pageShiftX = (rect.blkRight w - 1) / 2 ^ cw + 1 := by
  have some : rect.blkLeft w < rect.blkRight w := Rect.blkLeft_lt wide
  have positive := Nat.two_pow_pos cw
  rw [formed.pageShiftX, Nat.shiftRight_eq_div_pow, Offset.pageMaskX, formed.pageWidth, up_div,
    ← Nat.add_div_right _ positive, ← Rect.blkRight]
  exact congrArg (· / 2 ^ cw) (by omega)

omit wide in
theorem pages_bottom (high : rect.top < rect.bottom) :
    (rect.bottom + o.pageMaskY) >>> o.pageShiftY = (rect.blkBottom h - 1) / 2 ^ ch + 1 := by
  have some : rect.blkTop h < rect.blkBottom h := Rect.blkTop_lt high
  have positive := Nat.two_pow_pos ch
  change (rect.bottom + (o.list.blocksHigh * o.list.colHeight - 1)) >>> o.pageShiftY = _
  rw [formed.pageShiftY, Nat.shiftRight_eq_div_pow, formed.pageHeight, up_div, ← Nat.add_div_right _ positive, ← Rect.blkBottom]
  exact congrArg (· / 2 ^ ch) (by omega)

theorem fullRow_eq : o.fullRow rect =
    (rect.blkLeft w / 2 ^ cw, (rect.blkRight w - 1) / 2 ^ cw + 1 + if o.bp % 32 = 0 then 0 else 1) := by
  rw [Offset.fullRow, formed.pages_left, formed.pages_right wide, blockOff]

theorem looper_parts (high : rect.top < rect.bottom) (first mid last : Nat × Nat) :
    (o.looper rect first mid last).bp = o.bp / 32 + rect.blkTop h / 2 ^ ch * o.bwPg ∧
      (o.looper rect first mid last).yInc = o.bwPg ∧
      (o.looper rect first mid last).yCnt = (rect.blkBottom h - 1) / 2 ^ ch + 1 - rect.blkTop h / 2 ^ ch ∧
      (o.looper rect first mid last).slowPath =
        decide (((rect.blkBottom h - 1) / 2 ^ ch + 1 - rect.blkTop h / 2 ^ ch) * o.bwPg +
          ((rect.blkRight w - 1) / 2 ^ cw + 1 + if o.bp % 32 = 0 then 0 else 1) - rect.blkLeft w / 2 ^ cw > GS_MAX_PAGES) := by
  rw [← formed.pages_top, ← formed.pages_bottom high, ← Nat.shiftRight_eq_div_pow o.bp 5]
  refine ⟨rfl, rfl, rfl, ?_⟩
  rw [Offset.looper, formed.fullRow_eq wide]

theorem pageLooper_parts (high : rect.top < rect.bottom) :
    (o.pageLooperForRect rect).bp = o.bp / 32 + rect.blkTop h / 2 ^ ch * o.bwPg ∧
      (o.pageLooperForRect rect).yInc = o.bwPg ∧
      (o.pageLooperForRect rect).yCnt = (rect.blkBottom h - 1) / 2 ^ ch + 1 - rect.blkTop h / 2 ^ ch ∧
      (o.pageLooperForRect rect).slowPath =
        decide (((rect.blkBottom h - 1) / 2 ^ ch + 1 - rect.blkTop h / 2 ^ ch) * o.bwPg +
          ((rect.blkRight w - 1) / 2 ^ cw + 1 + if o.bp % 32 = 0 then 0 else 1) - rect.blkLeft w / 2 ^ cw > GS_MAX_PAGES) := by
  unfold Offset.pageLooperForRect
  split
  · exact formed.looper_parts wide high ..
  · dsimp only
    split
    · exact formed.looper_parts wide high ..
    · exact formed.looper_parts wide high ..

theorem rowOff_aligned (aligned : o.bp % 32 = 0) (r : Nat) :
    (o.pageLooperForRect rect).rowOff r = (rect.blkLeft w / 2 ^ cw, (rect.blkRight w - 1) / 2 ^ cw + 1) := by
  have row := formed.fullRow_eq wide
  rw [if_pos aligned, Nat.add_zero] at row
  rw [Offset.pageLooperForRect, blockOff, if_pos aligned, ← row, PageLooper.rowOff]
  split
  · rfl
  · split
    · rfl
    · rfl

theorem rowOff_adjusted (high : rect.top < rect.bottom) (unaligned : o.bp % 32 ≠ 0)
    (inside : r < (o.pageLooperForRect rect).yCnt) : ∃ rows : Nat × Nat,
      (o.pageLooperForRect rect).rowOff r = o.adjustStartEnd (o.align rect)
        (rect.blkLeft w / 2 ^ cw, (rect.blkRight w - 1) / 2 ^ cw + 2) rows.1 rows.2 ∧
      ∀ P : Nat → Prop, (∀ y, P (y % 2 ^ ch) ↔ P y) → ((∃ y, rows.1 ≤ y ∧ y < rows.2 ∧ P y) ↔
        ∃ y, rect.blkTop h ≤ y ∧ y < rect.blkBottom h ∧ y / 2 ^ ch = rect.blkTop h / 2 ^ ch + r ∧ P y) := by
  have some : rect.blkTop h < rect.blkBottom h := Rect.blkTop_lt high
  have count := (formed.pageLooper_parts wide high).2.2.1
  have row := formed.fullRow_eq wide
  have oy1 : (o.align rect).oy1 = rect.blkTop h := congrArg TextureAligned.oy1 (formed.align_eq rect)
  have oy2 : (o.align rect).oy2 = rect.blkBottom h := congrArg TextureAligned.oy2 (formed.align_eq rect)
  have iy1 := congrArg TextureAligned.iy1 (formed.align_eq rect)
  have iy2 := congrArg TextureAligned.iy2 (formed.align_eq rect)
  dsimp only at iy1 iy2
  rw [if_neg unaligned] at row
  cases stays : staysWithinOnePage (rect.blkTop h) (rect.blkBottom h)
      (2 ^ ch * ((rect.blkTop h + (2 ^ ch - 1)) / 2 ^ ch)) (2 ^ ch * (rect.blkBottom h / 2 ^ ch)) with
  | true =>
      have one := stays_true some formed.heights stays
      have zero : r = 0 := by omega
      refine ⟨(rect.blkTop h, rect.blkBottom h), ?_, fun P _ => ?_⟩
      · rw [Offset.pageLooperForRect, blockOff, if_neg unaligned]
        dsimp only
        rw [oy1, oy2, iy1, iy2, if_pos stays, row, zero]
        rfl
      · constructor
        · rintro ⟨y, top, bottom, holds⟩
          have same : y / 2 ^ ch = rect.blkTop h / 2 ^ ch :=
            Nat.le_antisymm (one ▸ Nat.div_le_div_right (by omega)) (Nat.div_le_div_right top)
          exact ⟨y, top, bottom, by rw [zero, same, Nat.add_zero], holds⟩
        · rintro ⟨y, top, bottom, -, holds⟩
          exact ⟨y, top, bottom, holds⟩
  | false =>
      refine ⟨_, ?_, fun P period => tile_band some formed.heights period stays (by omega) rfl⟩
      have before : r + 1 < (rect.blkBottom h - 1) / 2 ^ ch + 1 - rect.blkTop h / 2 ^ ch ↔
          rect.blkTop h / 2 ^ ch + r < (rect.blkBottom h - 1) / 2 ^ ch := by omega
      rw [PageLooper.rowOff, count]
      rw [Offset.pageLooperForRect, blockOff, if_neg unaligned]
      dsimp only
      rw [oy1, oy2, iy1, iy2, if_neg (Bool.eq_false_iff.mp stays), row, formed.tile_height]
      simp only [Offset.looper, before, ite_not]
      split_ifs
      all_goals rfl

omit wide in
theorem up_aligned (aligned : o.bp % 32 = 0) (x y : Nat) : o.up x y = 0 := by
  rw [Offset.up, o.invBlockOff_eq, aligned]
  exact if_pos (formed.lookup_lt x y)

theorem row_iff (high : rect.top < rect.bottom) (inside : r < (o.pageLooperForRect rect).yCnt) (p : Nat) :
    (((o.pageLooperForRect rect).rowOff r).1 ≤ p ∧ p < ((o.pageLooperForRect rect).rowOff r).2) ↔
      ∃ x, rect.blkLeft w ≤ x ∧ x < rect.blkRight w ∧ ∃ y, rect.blkTop h ≤ y ∧ y < rect.blkBottom h ∧
        y / 2 ^ ch = rect.blkTop h / 2 ^ ch + r ∧ x / 2 ^ cw + o.up x y = p := by
  have some : rect.blkLeft w < rect.blkRight w := Rect.blkLeft_lt wide
  have many : rect.blkTop h < rect.blkBottom h := Rect.blkTop_lt high
  have count := (formed.pageLooper_parts wide high).2.2.1
  obtain ⟨row, top, bottom, tile⟩ := tile_some formed.heights many (Nat.le_add_right _ r)
    (show rect.blkTop h / 2 ^ ch + r ≤ (rect.blkBottom h - 1) / 2 ^ ch by omega)
  by_cases aligned : o.bp % 32 = 0
  · rw [formed.rowOff_aligned wide aligned]
    simp only [formed.up_aligned aligned, Nat.add_zero]
    constructor
    · rintro ⟨after, before⟩
      obtain ⟨x, left, right, page⟩ := tile_some formed.widths some after (Nat.le_of_lt_succ before)
      exact ⟨x, left, right, row, top, bottom, tile, page⟩
    · rintro ⟨x, left, right, _, -, -, -, rfl⟩
      exact ⟨Nat.div_le_div_right left, Nat.lt_succ_of_le (Nat.div_le_div_right (by omega))⟩
  · obtain ⟨rows, adjusted, band⟩ := formed.rowOff_adjusted wide high aligned inside
    obtain ⟨y, first, last, -⟩ := (band (fun _ => True) fun _ => Iff.rfl).mpr ⟨row, top, bottom, tile, trivial⟩
    have adjust := formed.adjustStartEnd_iff wide (Nat.lt_of_le_of_lt first last) p
    rw [adjusted]
    refine adjust.trans (exists_congr fun x => and_congr_right fun _ => and_congr_right fun _ => ?_)
    refine band (fun y => x / 2 ^ cw + o.up x y = p) fun y => ?_
    rw [formed.up_mod_right]

theorem row_bounds (high : rect.top < rect.bottom) (inside : r < (o.pageLooperForRect rect).yCnt) :
    rect.blkLeft w / 2 ^ cw ≤ ((o.pageLooperForRect rect).rowOff r).1 ∧
      ((o.pageLooperForRect rect).rowOff r).1 ≤ rect.blkLeft w / 2 ^ cw + 1 ∧
      (rect.blkRight w - 1) / 2 ^ cw + 1 ≤ ((o.pageLooperForRect rect).rowOff r).2 ∧
      ((o.pageLooperForRect rect).rowOff r).2 ≤ (rect.blkRight w - 1) / 2 ^ cw + 1 + if o.bp % 32 = 0 then 0 else 1 := by
  by_cases aligned : o.bp % 32 = 0
  · rw [formed.rowOff_aligned wide aligned]
    exact ⟨Nat.le_refl _, Nat.le_succ _, Nat.le_refl _, Nat.le_add_right _ _⟩
  · obtain ⟨rows, adjusted, -⟩ := formed.rowOff_adjusted wide high aligned inside
    rw [adjusted, Offset.adjustStartEnd, if_neg aligned]
    dsimp only
    generalize rect.blkLeft w / 2 ^ cw = first
    generalize (rect.blkRight w - 1) / 2 ^ cw = last
    refine ⟨?_, ?_, ?_, ?_⟩ <;> split <;> omega

theorem middle_wider (high : rect.top < rect.bottom) {i r : Nat} (after : 0 < i)
    (before : i + 1 < (o.pageLooperForRect rect).yCnt) (inside : r < (o.pageLooperForRect rect).yCnt) :
    ((o.pageLooperForRect rect).rowOff i).1 ≤ ((o.pageLooperForRect rect).rowOff r).1 ∧
      ((o.pageLooperForRect rect).rowOff r).2 ≤ ((o.pageLooperForRect rect).rowOff i).2 := by
  have count := (formed.pageLooper_parts wide high).2.2.1
  have some : rect.blkLeft w < rect.blkRight w := Rect.blkLeft_lt wide
  have many : rect.blkTop h < rect.blkBottom h := Rect.blkTop_lt high
  have covers (p : Nat) (member : ((o.pageLooperForRect rect).rowOff r).1 ≤ p ∧ p < ((o.pageLooperForRect rect).rowOff r).2) :
      ((o.pageLooperForRect rect).rowOff i).1 ≤ p ∧ p < ((o.pageLooperForRect rect).rowOff i).2 := by
    obtain ⟨x, left, right, y, -, -, -, page⟩ := (formed.row_iff wide high inside p).mp member
    refine (formed.row_iff wide high (Nat.lt_of_succ_lt before) p).mpr ⟨x, left, right, ?_⟩
    refine (middle_tile (P := fun y => x / 2 ^ cw + o.up x y = p) formed.heights (fun y => by rw [formed.up_mod_right])
      (by omega) (by omega)).mp ⟨y % 2 ^ ch, Nat.zero_le _, Nat.mod_lt y (Nat.two_pow_pos ch), ?_⟩
    rw [formed.up_mod_right, page]
  obtain ⟨row, top, bottom, tile⟩ := tile_some formed.heights many (Nat.le_add_right _ r)
    (show rect.blkTop h / 2 ^ ch + r ≤ (rect.blkBottom h - 1) / 2 ^ ch by omega)
  have nonempty := (formed.row_iff wide high inside _).mpr
    ⟨rect.blkLeft w, Nat.le_refl _, some, row, top, bottom, tile, rfl⟩
  have first := covers _ ⟨Nat.le_refl _, by omega⟩
  have last := covers (((o.pageLooperForRect rect).rowOff r).2 - 1) (by omega)
  exact ⟨first.1, by omega⟩

/-! ## All rows -/

theorem covers_iff (high : rect.top < rect.bottom) (page : Nat) :
    (o.pageLooperForRect rect).Covers page ↔ ∃ x y, rect.Has x y ∧ o.bn x y / 32 = page := by
  obtain ⟨bp, yInc, yCnt, -⟩ := formed.pageLooper_parts wide high
  have many : rect.blkTop h < rect.blkBottom h := Rect.blkTop_lt high
  have columns (b : Nat) := touched_iff (b := b) wide (Nat.two_pow_pos w)
  have rows (b : Nat) := touched_iff (b := b) high (Nat.two_pow_pos h)
  have address (r : Nat) : (o.pageLooperForRect rect).bp + r * (o.pageLooperForRect rect).yInc =
      o.bp / 32 + (rect.blkTop h / 2 ^ ch + r) * o.bwPg := by
    rw [bp, yInc, Nat.add_mul, Nat.add_assoc]
  simp only [PageLooper.Covers, PageLooper.first, PageLooper.stop, address, formed.bn_number, formed.number_page]
  constructor
  · rintro ⟨r, inside, p, above, below, rfl⟩
    obtain ⟨X, left, right, Y, top, bottom, tile, up⟩ :=
      (formed.row_iff wide high inside (p - (o.bp / 32 + (rect.blkTop h / 2 ^ ch + r) * o.bwPg))).mp (by omega)
    obtain ⟨x, left', right', rfl⟩ := (columns X).mp ⟨left, right⟩
    obtain ⟨y, top', bottom', rfl⟩ := (rows Y).mp ⟨top, bottom⟩
    refine ⟨x, y, ⟨left', right', top', bottom'⟩, ?_⟩
    rw [tile]
    exact congrArg (· % GS_MAX_PAGES) (by omega)
  · rintro ⟨x, y, ⟨left, right, top, bottom⟩, rfl⟩
    have column := (columns (x / 2 ^ w)).mpr ⟨x, left, right, rfl⟩
    have row := (rows (y / 2 ^ h)).mpr ⟨y, top, bottom, rfl⟩
    have first : rect.blkTop h / 2 ^ ch ≤ y / 2 ^ h / 2 ^ ch := Nat.div_le_div_right row.1
    have last : y / 2 ^ h / 2 ^ ch ≤ (rect.blkBottom h - 1) / 2 ^ ch :=
      Nat.div_le_div_right (Nat.le_sub_one_of_lt row.2)
    have inside : y / 2 ^ h / 2 ^ ch - rect.blkTop h / 2 ^ ch < (o.pageLooperForRect rect).yCnt := by
      rw [yCnt]
      omega
    have tile : rect.blkTop h / 2 ^ ch + (y / 2 ^ h / 2 ^ ch - rect.blkTop h / 2 ^ ch) = y / 2 ^ h / 2 ^ ch := by omega
    have member := (formed.row_iff wide high inside (x / 2 ^ w / 2 ^ cw + o.up (x / 2 ^ w) (y / 2 ^ h))).mpr
      ⟨_, column.1, column.2, _, row.1, row.2, tile.symm, rfl⟩
    refine ⟨_, inside, _, ?_, ?_, rfl⟩
    · rw [tile]
      omega
    · rw [tile]
      omega

theorem inOrder (high : rect.top < rect.bottom) (starts : o.bwPg ≠ 0 ∨ ∀ r < (o.pageLooperForRect rect).yCnt,
    ((o.pageLooperForRect rect).rowOff 0).1 ≤ ((o.pageLooperForRect rect).rowOff r).1) :
    InOrder (o.pageLooperForRect rect).first (o.pageLooperForRect rect).stop (o.pageLooperForRect rect).yCnt 0 := by
  obtain ⟨-, yInc, -, -⟩ := formed.pageLooper_parts wide high
  have lines {i r : Nat} (before : i < r) : i * o.bwPg + o.bwPg ≤ r * o.bwPg := by
    rw [← Nat.succ_mul]
    exact Nat.mul_le_mul_right o.bwPg before
  constructor
  · intro i r _ le inside
    rcases Nat.eq_or_lt_of_le le with rfl | before
    · exact Nat.le_refl _
    · have low := formed.row_bounds wide high (show i < (o.pageLooperForRect rect).yCnt by omega)
      have above := formed.row_bounds wide high (show r < (o.pageLooperForRect rect).yCnt by omega)
      have line := lines before
      simp only [PageLooper.first, yInc]
      rcases Nat.eq_zero_or_pos i with rfl | after
      · rcases starts with wider | first
        · omega
        · have := first r (by omega)
          omega
      · have middle := formed.middle_wider wide high after (show i + 1 < (o.pageLooperForRect rect).yCnt by omega)
          (show r < (o.pageLooperForRect rect).yCnt by omega)
        omega
  · intro i _ before
    have middle := formed.middle_wider (i := i + 1) wide high (by omega) (by omega)
      (show i < (o.pageLooperForRect rect).yCnt by omega)
    have line := lines (show i < i + 1 by omega)
    simp only [PageLooper.stop, yInc]
    omega

theorem exact_of_slow (high : rect.top < rect.bottom) (slow : (o.pageLooperForRect rect).slowPath = true) : Exact o rect := by
  obtain ⟨once, pages⟩ := (o.pageLooperForRect rect).slowPath_exact slow
  exact ⟨once, fun page => (pages page).trans (formed.covers_iff wide high page)⟩

theorem exact_of_starts (high : rect.top < rect.bottom) (starts : o.bwPg ≠ 0 ∨ ∀ r < (o.pageLooperForRect rect).yCnt,
    ((o.pageLooperForRect rect).rowOff 0).1 ≤ ((o.pageLooperForRect rect).rowOff r).1) : Exact o rect := by
  obtain ⟨bp, yInc, yCnt, slowPath⟩ := formed.pageLooper_parts wide high
  cases path : (o.pageLooperForRect rect).slowPath with
  | true => exact formed.exact_of_slow wide high path
  | false =>
      have small := of_decide_eq_false (slowPath.symm.trans path)
      have span (r : Nat) (inside : r < (o.pageLooperForRect rect).yCnt) :
          (o.pageLooperForRect rect).bp + rect.blkLeft w / 2 ^ cw ≤ (o.pageLooperForRect rect).first r ∧
            (o.pageLooperForRect rect).stop r ≤ (o.pageLooperForRect rect).bp + rect.blkLeft w / 2 ^ cw + GS_MAX_PAGES := by
        have bounds := formed.row_bounds wide high inside
        have lines := Nat.mul_le_mul_right o.bwPg (Nat.le_of_lt inside)
        rw [yCnt] at lines
        simp only [PageLooper.first, PageLooper.stop, yInc]
        omega
      obtain ⟨once, pages⟩ := (o.pageLooperForRect rect).fastPath_exact path (formed.inOrder wide high starts) span
      exact ⟨once, fun page => (pages page).trans (formed.covers_iff wide high page)⟩

end Formed

/-! ## When the loop is exact -/

/-- A pixel in the first column of pages, with its block in the lower of the two pages that its tile touches. -/
def Offset.Low (o : Offset) (rect : Rect) (x y : Nat) : Prop :=
  rect.Has x y ∧ x >>> o.pageShiftX = rect.left >>> o.pageShiftX ∧
    o.lookup (x >>> o.blockShiftX) (y >>> o.blockShiftY) < 32 - o.bp % 32

namespace Formed

variable {o : Offset} {w h cw ch : Nat} (formed : Formed o w h cw ch) {rect : Rect} (wide : rect.left < rect.right)
include formed wide

theorem low_iff (high : rect.top < rect.bottom) (inside : r < (o.pageLooperForRect rect).yCnt) :
    ((o.pageLooperForRect rect).rowOff r).1 ≤ rect.blkLeft w / 2 ^ cw ↔
      ∃ x y, o.Low rect x y ∧ y >>> o.pageShiftY = rect.top >>> o.pageShiftY + r := by
  have columns (b : Nat) := touched_iff (b := b) wide (Nat.two_pow_pos w)
  have rows (b : Nat) := touched_iff (b := b) high (Nat.two_pow_pos h)
  have bounds := formed.row_bounds wide high inside
  have some : rect.blkLeft w < rect.blkRight w := Rect.blkLeft_lt wide
  have last : rect.blkLeft w / 2 ^ cw ≤ (rect.blkRight w - 1) / 2 ^ cw := Nat.div_le_div_right (by omega)
  have shiftX (x : Nat) : x >>> o.pageShiftX = x / 2 ^ w / 2 ^ cw := by
    rw [formed.pageShiftX, Nat.shiftRight_eq_div_pow, Nat.pow_add, Nat.div_div_eq_div_mul]
  have shiftY (y : Nat) : y >>> o.pageShiftY = y / 2 ^ h / 2 ^ ch := by
    rw [formed.pageShiftY, Nat.shiftRight_eq_div_pow, Nat.pow_add, Nat.div_div_eq_div_mul]
  simp only [Offset.Low, shiftX, shiftY, formed.blockShiftX, formed.blockShiftY, Nat.shiftRight_eq_div_pow, ← o.invBlockOff_eq]
  constructor
  · intro start
    obtain ⟨X, left, right, Y, top, bottom, tile, up⟩ := (formed.row_iff wide high inside _).mp ⟨start, by omega⟩
    obtain ⟨x, left', right', rfl⟩ := (columns X).mp ⟨left, right⟩
    obtain ⟨y, top', bottom', rfl⟩ := (rows Y).mp ⟨top, bottom⟩
    have first : rect.blkLeft w / 2 ^ cw ≤ x / 2 ^ w / 2 ^ cw := Nat.div_le_div_right left
    refine ⟨x, y, ⟨⟨left', right', top', bottom'⟩, by rw [← Rect.blkLeft]; omega, ?_⟩, tile⟩
    by_contra high
    rw [Offset.up, if_neg high] at up
    omega
  · rintro ⟨x, y, ⟨⟨left, right, top, bottom⟩, page, low⟩, tile⟩
    have column := (columns (x / 2 ^ w)).mpr ⟨x, left, right, rfl⟩
    have row := (rows (y / 2 ^ h)).mpr ⟨y, top, bottom, rfl⟩
    exact ((formed.row_iff wide high inside _).mpr ⟨_, column.1, column.2, _, row.1, row.2, tile, by
      rw [Offset.up, if_pos low, page, Rect.blkLeft, Nat.add_zero]⟩).1

theorem missed (high : rect.top < rect.bottom) (unaligned : o.bp % 32 ≠ 0) (zero : o.bwPg = 0)
    (narrow : (rect.blkRight w - 1) / 2 ^ cw + 1 - rect.blkLeft w / 2 ^ cw < GS_MAX_PAGES) (exact : Exact o rect)
    (inside : r < (o.pageLooperForRect rect).yCnt)
    (low : ((o.pageLooperForRect rect).rowOff r).1 ≤ rect.blkLeft w / 2 ^ cw) :
    ((o.pageLooperForRect rect).rowOff 0).1 ≤ rect.blkLeft w / 2 ^ cw := by
  obtain ⟨bp, yInc, yCnt, slowPath⟩ := formed.pageLooper_parts wide high
  have some : rect.blkLeft w < rect.blkRight w := Rect.blkLeft_lt wide
  have last : rect.blkLeft w / 2 ^ cw ≤ (rect.blkRight w - 1) / 2 ^ cw := Nat.div_le_div_right (by omega)
  rw [zero, Nat.mul_zero, Nat.zero_add, if_neg unaligned] at slowPath
  have fast : (o.pageLooperForRect rect).slowPath = false := by
    rw [slowPath]
    exact decide_eq_false (by omega)
  by_contra late
  have bounds := formed.row_bounds wide high inside
  have covered : (o.pageLooperForRect rect).Covers
      (((o.pageLooperForRect rect).bp + rect.blkLeft w / 2 ^ cw) % GS_MAX_PAGES) := by
    refine ⟨r, inside, _, ?_, ?_, rfl⟩
    · simp only [PageLooper.first, yInc, zero]
      omega
    · simp only [PageLooper.stop, yInc, zero]
      omega
  have listed := (exact.pages _).mpr ((formed.covers_iff wide high _).mp covered)
  rw [PageLooper.loopPages_eq, if_neg (Bool.eq_false_iff.mp fast)] at listed
  obtain ⟨p, member, same⟩ := List.mem_map.mp listed
  have stops (i : Nat) (below : i < (o.pageLooperForRect rect).yCnt) :
      (o.pageLooperForRect rect).bp + rect.blkLeft w / 2 ^ cw + 1 ≤ (o.pageLooperForRect rect).stop i ∧
        (o.pageLooperForRect rect).stop i ≤ (o.pageLooperForRect rect).bp + (rect.blkRight w - 1) / 2 ^ cw + 2 := by
    have bounds := formed.row_bounds wide high below
    rw [if_neg unaligned] at bounds
    simp only [PageLooper.stop, yInc, zero]
    omega
  have first : (o.pageLooperForRect rect).bp + rect.blkLeft w / 2 ^ cw + 1 ≤ (o.pageLooperForRect rect).first 0 := by
    simp only [PageLooper.first, yInc, zero]
    omega
  have above := above_of_mem_sweep (le_max_of_le_right first) (fun i _ below => (stops i (by omega)).1) member
  obtain ⟨i, -, below, -, before⟩ := inside_of_mem_sweep member
  have stop := (stops i (by omega)).2
  rw [GS_MAX_PAGES] at same narrow
  omega

theorem exact_iff (high : rect.top < rect.bottom) : Exact o rect ↔
    (o.bwPg = 0 → (rect.right + o.pageMaskX) >>> o.pageShiftX - rect.left >>> o.pageShiftX < GS_MAX_PAGES →
      ∀ x y, o.Low rect x y → ∃ x' y', o.Low rect x' y' ∧ y' >>> o.pageShiftY = rect.top >>> o.pageShiftY) := by
  obtain ⟨-, -, yCnt, slowPath⟩ := formed.pageLooper_parts wide high
  have many : rect.blkTop h < rect.blkBottom h := Rect.blkTop_lt high
  have tiles : rect.blkTop h / 2 ^ ch ≤ (rect.blkBottom h - 1) / 2 ^ ch := Nat.div_le_div_right (by omega)
  have some : 0 < (o.pageLooperForRect rect).yCnt := by
    rw [yCnt]
    omega
  have first := formed.low_iff wide high some
  have rowOf (x y : Nat) (low : o.Low rect x y) :
      ∃ r < (o.pageLooperForRect rect).yCnt, ((o.pageLooperForRect rect).rowOff r).1 ≤ rect.blkLeft w / 2 ^ cw := by
    obtain ⟨-, -, top, bottom⟩ := low.1
    have row := (touched_iff high (Nat.two_pow_pos h)).mpr ⟨y, top, bottom, rfl⟩
    have after : rect.blkTop h / 2 ^ ch ≤ y / 2 ^ h / 2 ^ ch := Nat.div_le_div_right row.1
    have before : y / 2 ^ h / 2 ^ ch ≤ (rect.blkBottom h - 1) / 2 ^ ch := Nat.div_le_div_right (Nat.le_sub_one_of_lt row.2)
    have inside : y / 2 ^ h / 2 ^ ch - rect.blkTop h / 2 ^ ch < (o.pageLooperForRect rect).yCnt := by
      rw [yCnt]
      omega
    refine ⟨_, inside, (formed.low_iff wide high inside).mpr ⟨x, y, low, ?_⟩⟩
    rw [formed.pages_top, formed.pageShiftY, Nat.shiftRight_eq_div_pow, Nat.pow_add, ← Nat.div_div_eq_div_mul]
    omega
  rw [formed.pages_right wide, formed.pages_left]
  rw [Nat.add_zero] at first
  constructor
  · intro exact zero narrow x y low
    by_cases aligned : o.bp % 32 = 0
    · exact first.mp (by rw [formed.rowOff_aligned wide aligned])
    · obtain ⟨r, inside, low⟩ := rowOf x y low
      exact first.mp (formed.missed wide high aligned zero narrow exact inside low)
  · intro holds
    by_cases aligned : o.bp % 32 = 0
    · refine formed.exact_of_starts wide high (Or.inr fun r _ => ?_)
      rw [formed.rowOff_aligned wide aligned, formed.rowOff_aligned wide aligned]
    · by_cases zero : o.bwPg = 0
      · by_cases narrow : (rect.blkRight w - 1) / 2 ^ cw + 1 - rect.blkLeft w / 2 ^ cw < GS_MAX_PAGES
        · refine formed.exact_of_starts wide high (Or.inr fun r inside => ?_)
          by_contra later
          have bounds := formed.row_bounds wide high inside
          have bounds' := formed.row_bounds wide high some
          obtain ⟨x, y, low, -⟩ := (formed.low_iff wide high inside).mp (by omega)
          have early := first.mpr (holds zero narrow x y low)
          omega
        · refine formed.exact_of_slow wide high ?_
          rw [slowPath, zero, if_neg aligned, Nat.mul_zero, Nat.zero_add]
          rw [GS_MAX_PAGES] at narrow ⊢
          exact decide_eq_true (by omega)
      · exact formed.exact_of_starts wide high (Or.inl zero)

end Formed

theorem loopPages_exact (bp bw psm : Nat) (rect : Rect) (wide : rect.left < rect.right) (high : rect.top < rect.bottom) :
    let o := getBlockOffset bp bw psm
    Exact o rect ↔ (o.bwPg = 0 → (rect.right + o.pageMaskX) >>> o.pageShiftX - rect.left >>> o.pageShiftX < GS_MAX_PAGES →
      ∀ x y, o.Low rect x y → ∃ x' y', o.Low rect x' y' ∧ y' >>> o.pageShiftY = rect.top >>> o.pageShiftY) := by
  obtain ⟨w, h, cw, ch, formed⟩ := getBlockOffset_formed bp bw psm
  exact formed.exact_iff wide high

/-- A buffer of no pages in width, for a rectangle that begins in the last block of a page: the page that the pixel
(56, 32) is in is left out. -/
theorem loopPages_misses : ¬ Exact (getBlockOffset 1 0 0) ⟨56, 24, 64, 64⟩ := by
  intro exact
  have inside : Rect.Has ⟨56, 24, 64, 64⟩ 56 32 := ⟨by decide, by decide, by decide, by decide⟩
  have page : (getBlockOffset 1 0 0).bn 56 32 / 32 = 0 := by decide
  have listed := (exact.pages 0).mpr ⟨56, 32, inside, page⟩
  have pages : ((getBlockOffset 1 0 0).pageLooperForRect ⟨56, 24, 64, 64⟩).loopPages = [1] := by decide
  rw [pages] at listed
  exact absurd listed (by decide)

theorem loopPages_exact_frame : Exact (getBlockOffset 1 10 0) ⟨56, 24, 64, 64⟩ :=
  (loopPages_exact 1 10 0 ⟨56, 24, 64, 64⟩ (by decide) (by decide)).mpr fun zero => absurd zero (by decide)

end Pcsx2.GsMemory
