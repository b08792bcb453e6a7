import Mathlib.Algebra.Order.Ring.Nat
import Mathlib.Tactic.LinearCombination
import Mathlib.Tactic.Ring
import Mathlib.Tactic.SplitIfs
import Pcsx2.Foundation.Lists
import Pcsx2.GsMemory.Swizzle

/-!
# Block numbers

The blocks of pixels, as `BNHelper` numbers them one after the other, and as the addresses of the pixels have them.
-/

namespace Pcsx2.GsMemory
open Foundation

/-! ## Offsets with their blocks -/

/-- A `GSOffset` with all of its `GSSwizzleInfo`. -/
structure Offset where
  list : Swizzling
  blockXor : Nat
  bp : Nat
  bw : Nat

def GS_MAX_BLOCKS : Nat := 16384

namespace Offset

variable (o : Offset)

def pixels : GSOffset := gsOffset (gsSwizzleInfo o.list o.blockXor) o.bp o.bw

def bwPg : Nat := o.pixels.bwPg

def pageShiftX : Nat := o.pixels.info.pageShiftX

def pageShiftY : Nat := o.pixels.info.pageShiftY

def pageMaskX : Nat := o.list.blocksWide * o.list.colWidth - 1

def pageMaskY : Nat := o.pixels.info.pageMaskY

def blockMaskX : Nat := o.list.blocksWide * o.list.colWidth / o.list.blocksWide - 1

def blockMaskY : Nat := o.list.blocksHigh * o.list.colHeight / o.list.blocksHigh - 1

def blockShiftX : Nat := Nat.log2 (o.list.blocksWide * o.list.colWidth / o.list.blocksWide)

def blockShiftY : Nat := Nat.log2 (o.list.blocksHigh * o.list.colHeight / o.list.blocksHigh)

/-- `makeSwizzleTable` repeats a table of blocks until it has eight rows of eight. -/
def lookup (x y : Nat) : Nat := o.list.blockTable.entry ((y &&& 7) % o.list.blocksHigh) ((x &&& 7) % o.list.blocksWide)

end Offset

structure BNHelper where
  blockSwizzle : Nat → Nat → Nat
  baseBP : Nat
  bp : Nat
  baseBlkX : Nat
  blkX : Nat
  blkY : Nat
  pageMaskX : Nat
  pageMaskY : Nat
  addY : Nat
  xor : Nat

def Offset.bnMulti (o : Offset) (x y : Nat) : BNHelper :=
  let yAmt := (y >>> (o.pageShiftY - 5) - (y >>> (o.pageShiftY - 5) &&& 0x1f)) * o.bwPg
  let xAmt := x >>> (o.pageShiftX - 5) - (x >>> (o.pageShiftX - 5) &&& 0x1f)
  { blockSwizzle := o.lookup
    baseBP := o.bp + yAmt + xAmt
    bp := o.bp + yAmt + xAmt
    baseBlkX := x >>> o.blockShiftX
    blkX := x >>> o.blockShiftX
    blkY := y >>> o.blockShiftY
    pageMaskX := 1 <<< (o.pageShiftX - o.blockShiftX) - 1
    pageMaskY := 1 <<< (o.pageShiftY - o.blockShiftY) - 1
    addY := 32 * o.bwPg
    xor := o.blockXor }

namespace BNHelper

def nextBlockX (bn : BNHelper) : BNHelper :=
  { bn with
    blkX := bn.blkX + 1
    bp := if (bn.blkX + 1) &&& bn.pageMaskX = 0 then bn.bp + 32 else bn.bp }

def nextBlockY (bn : BNHelper) : BNHelper :=
  let baseBP := if (bn.blkY + 1) &&& bn.pageMaskY = 0 then bn.baseBP + bn.addY else bn.baseBP
  { bn with
    blkY := bn.blkY + 1
    baseBP
    blkX := bn.baseBlkX
    bp := baseBP }

def valueNoWrap (bn : BNHelper) : Nat := (bn.bp + bn.blockSwizzle bn.blkX bn.blkY) ^^^ bn.xor

def value (bn : BNHelper) : Nat := bn.valueNoWrap % GS_MAX_BLOCKS

/-- `for (; bn.blkX() < right; bn.nextBlockX()) fn(bn.value());` -/
def loopX (right : Nat) (bn : BNHelper) : List Nat × BNHelper :=
  if bn.blkX < right then
    let rest := loopX right bn.nextBlockX
    (bn.value :: rest.1, rest.2)
  else ([], bn)
termination_by right - bn.blkX
decreasing_by
  simp only [nextBlockX]
  omega

theorem loopX_blkY (right : Nat) (bn : BNHelper) : (bn.loopX right).2.blkY = bn.blkY := by
  fun_induction loopX right bn with
  | case1 bn _ _ ih => exact ih
  | case2 => rfl

def loopY (right bottom : Nat) (bn : BNHelper) : List Nat :=
  if bn.blkY < bottom then
    let row := bn.loopX right
    row.1 ++ loopY right bottom row.2.nextBlockY
  else []
termination_by bottom - bn.blkY
decreasing_by
  simp only [nextBlockY, loopX_blkY]
  omega

end BNHelper

structure Rect where
  left : Nat
  top : Nat
  right : Nat
  bottom : Nat

def Rect.Has (rect : Rect) (x y : Nat) : Prop := rect.left ≤ x ∧ x < rect.right ∧ rect.top ≤ y ∧ y < rect.bottom

namespace Offset

def bn (o : Offset) (x y : Nat) : Nat := (o.bnMulti x y).value

/-- The numbers that `loopBlocks` calls its function on. -/
def loopBlocks (o : Offset) (rect : Rect) : List Nat :=
  let right := (rect.right + o.blockMaskX) >>> o.blockShiftX
  let bottom := (rect.bottom + o.blockMaskY) >>> o.blockShiftY
  (o.bnMulti rect.left rect.top).loopY right bottom

end Offset

/-! ## The formats -/

/-- `m_psm[psm].info`, by its tables. -/
def psmInfo (psm : Nat) : Swizzling × Nat :=
  if psm = 2 ∨ psm = 18 then (swizzleTables16, 0x00)
  else if psm = 10 then (swizzleTables16S, 0x00)
  else if psm = 19 then (swizzleTables8, 0x00)
  else if psm = 20 then (swizzleTables4, 0x00)
  else if psm = 48 ∨ psm = 49 then (swizzleTables32, 0x18)
  else if psm = 50 then (swizzleTables16, 0x18)
  else if psm = 58 then (swizzleTables16S, 0x18)
  else (swizzleTables32, 0x00)

/-- `GetOffset`. -/
def getBlockOffset (bp bw psm : Nat) : Offset := ⟨(psmInfo psm).1, (psmInfo psm).2, bp, bw⟩

/-! ## What the tables have in common -/

/-- The row of the column table that `makeRowOffsetTableList` uses for a row of pixels. -/
def rowUsed (mask y : Nat) : Nat := if 2 ≤ y &&& mask ∧ y &&& mask < 6 then 2 else 0

/-- Sizes are powers of two, each number is in a table once, and a row differs from another one by the same number
throughout, as far as they use the same table of rows. -/
structure Regular (s : Swizzling) (w h cw ch : Nat) : Prop where
  colWidth : s.colWidth = 2 ^ w
  colHeight : s.colHeight = 2 ^ h
  blocksWide : s.blocksWide = 2 ^ cw
  blocksHigh : s.blocksHigh = 2 ^ ch
  page : cw + ch = 5
  wide : cw ≤ 3
  high : ch ≤ 3
  pageWide : 6 ≤ w + cw
  pageHigh : 5 ≤ h + ch
  rows : 3 ≤ h
  rowMask : s.rowMask = 0 ∨ s.rowMask = 7
  blocks : Fills s.blocksHigh s.blocksWide s.blockTable.entry
  columns : Fills s.colHeight s.colWidth s.colTable.entry
  origin : s.blockTable.entry 0 0 = 0
  blockSum : ∀ i < s.blocksHigh, ∀ j < s.blocksWide, s.blockTable.entry i j = s.blockTable.entry i 0 + s.blockTable.entry 0 j
  columnSum : ∀ i < s.colHeight, ∀ j < s.colWidth, s.colTable.entry i j + s.colTable.entry (rowUsed s.rowMask i) 0 =
    s.colTable.entry i 0 + s.colTable.entry (rowUsed s.rowMask i) j

theorem regular32 : Regular swizzleTables32 3 3 3 2 := by
  refine ⟨rfl, rfl, rfl, rfl, rfl, ?_, ?_, ?_, ?_, ?_, ?_, ?_, ?_, rfl, ?_, ?_⟩ <;> decide

set_option maxRecDepth 4096 in
theorem regular16 : Regular swizzleTables16 4 3 2 3 := by
  refine ⟨rfl, rfl, rfl, rfl, rfl, ?_, ?_, ?_, ?_, ?_, ?_, ?_, ?_, rfl, ?_, ?_⟩ <;> decide

set_option maxRecDepth 4096 in
theorem regular16S : Regular swizzleTables16S 4 3 2 3 := by
  refine ⟨rfl, rfl, rfl, rfl, rfl, ?_, ?_, ?_, ?_, ?_, ?_, ?_, ?_, rfl, ?_, ?_⟩ <;> decide

set_option maxRecDepth 4096 in
theorem regular8 : Regular swizzleTables8 4 4 3 2 := by
  refine ⟨rfl, rfl, rfl, rfl, rfl, ?_, ?_, ?_, ?_, ?_, ?_, ?_, ?_, rfl, ?_, ?_⟩ <;> decide

theorem regular4 : Regular swizzleTables4 5 4 2 3 := by
  refine ⟨rfl, rfl, rfl, rfl, rfl, ?_, ?_, ?_, ?_, ?_, ?_, ?_, ?_, rfl, ?_, ?_⟩ <;> decide +kernel

structure Formed (o : Offset) (w h cw ch : Nat) : Prop extends Regular o.list w h cw ch where
  xor : o.blockXor < 32

theorem psmInfo_regular (psm : Nat) : (∃ w h cw ch, Regular (psmInfo psm).1 w h cw ch) ∧ (psmInfo psm).2 < 32 := by
  unfold psmInfo
  split_ifs
  · exact ⟨⟨_, _, _, _, regular16⟩, by decide⟩
  · exact ⟨⟨_, _, _, _, regular16S⟩, by decide⟩
  · exact ⟨⟨_, _, _, _, regular8⟩, by decide⟩
  · exact ⟨⟨_, _, _, _, regular4⟩, by decide⟩
  · exact ⟨⟨_, _, _, _, regular32⟩, by decide⟩
  · exact ⟨⟨_, _, _, _, regular16⟩, by decide⟩
  · exact ⟨⟨_, _, _, _, regular16S⟩, by decide⟩
  · exact ⟨⟨_, _, _, _, regular32⟩, by decide⟩

theorem getBlockOffset_formed (bp bw psm : Nat) : ∃ w h cw ch, Formed (getBlockOffset bp bw psm) w h cw ch := by
  obtain ⟨⟨w, h, cw, ch, regular⟩, xor⟩ := psmInfo_regular psm
  exact ⟨w, h, cw, ch, regular, xor⟩

namespace Formed

variable {o : Offset} {w h cw ch : Nat} (formed : Formed o w h cw ch)
include formed

theorem pageWidth : o.list.blocksWide * o.list.colWidth = 2 ^ (w + cw) := by
  rw [formed.blocksWide, formed.colWidth, ← Nat.pow_add, Nat.add_comm]

theorem pageHeight : o.list.blocksHigh * o.list.colHeight = 2 ^ (h + ch) := by
  rw [formed.blocksHigh, formed.colHeight, ← Nat.pow_add, Nat.add_comm]

theorem pageShiftX : o.pageShiftX = w + cw := by
  change Nat.log2 (o.list.blocksWide * o.list.colWidth) = w + cw
  rw [formed.pageWidth, Nat.log2_two_pow]

theorem pageShiftY : o.pageShiftY = h + ch := by
  change Nat.log2 (o.list.blocksHigh * o.list.colHeight) = h + ch
  rw [formed.pageHeight, Nat.log2_two_pow]

theorem blockWidth : o.list.blocksWide * o.list.colWidth / o.list.blocksWide = 2 ^ w := by
  rw [formed.blocksWide, formed.colWidth, Nat.mul_div_cancel_left _ (Nat.two_pow_pos cw)]

theorem blockHeight : o.list.blocksHigh * o.list.colHeight / o.list.blocksHigh = 2 ^ h := by
  rw [formed.blocksHigh, formed.colHeight, Nat.mul_div_cancel_left _ (Nat.two_pow_pos ch)]

theorem blockShiftX : o.blockShiftX = w := by rw [Offset.blockShiftX, formed.blockWidth, Nat.log2_two_pow]

theorem blockShiftY : o.blockShiftY = h := by rw [Offset.blockShiftY, formed.blockHeight, Nat.log2_two_pow]

theorem blockMaskX : o.blockMaskX = 2 ^ w - 1 := by rw [Offset.blockMaskX, formed.blockWidth]

theorem blockMaskY : o.blockMaskY = 2 ^ h - 1 := by rw [Offset.blockMaskY, formed.blockHeight]

theorem lookup (x y : Nat) : o.lookup x y = o.list.blockTable.entry (y % 2 ^ ch) (x % 2 ^ cw) := by
  have low (n k : Nat) (few : k ≤ 3) : (n &&& 7) % 2 ^ k = n % 2 ^ k := by
    rw [show 7 = 2 ^ 3 - 1 from rfl, Nat.and_two_pow_sub_one_eq_mod]
    exact Nat.mod_mod_of_dvd n (Nat.pow_dvd_pow 2 few)
  rw [Offset.lookup, formed.blocksHigh, formed.blocksWide, low y ch formed.high, low x cw formed.wide]

end Formed

/-! ## Numbers of blocks -/

/-- The block in this column and row of blocks, before wrapping and without the exclusive or. -/
def Offset.place (o : Offset) (x y : Nat) : Nat :=
  o.bp + 32 * (y / o.list.blocksHigh * o.bwPg + x / o.list.blocksWide) +
    o.list.blockTable.entry (y % o.list.blocksHigh) (x % o.list.blocksWide)

def Offset.number (o : Offset) (x y : Nat) : Nat := (o.place x y ^^^ o.blockXor) % GS_MAX_BLOCKS

/-- A helper that started in the column `start` of blocks. -/
structure Stands (o : Offset) (start : Nat) (bn : BNHelper) : Prop where
  blockSwizzle : bn.blockSwizzle = o.lookup
  pageMaskX : bn.pageMaskX = o.list.blocksWide - 1
  pageMaskY : bn.pageMaskY = o.list.blocksHigh - 1
  addY : bn.addY = 32 * o.bwPg
  xor : bn.xor = o.blockXor
  baseBlkX : bn.baseBlkX = start
  baseBP : bn.baseBP = o.bp + 32 * (bn.blkY / o.list.blocksHigh * o.bwPg + start / o.list.blocksWide)
  bp : bn.bp = o.bp + 32 * (bn.blkY / o.list.blocksHigh * o.bwPg + bn.blkX / o.list.blocksWide)

theorem next_div (n k : Nat) : (n + 1) / 2 ^ k = if (n + 1) &&& (2 ^ k - 1) = 0 then n / 2 ^ k + 1 else n / 2 ^ k := by
  simp only [Nat.and_two_pow_sub_one_eq_mod, Nat.succ_div, Nat.dvd_iff_mod_eq_zero]
  split
  · rfl
  · rfl

namespace Formed

variable {o : Offset} {w h cw ch : Nat} (formed : Formed o w h cw ch) {start : Nat} {bn : BNHelper}
include formed

theorem stands_value (stands : Stands o start bn) : bn.value = o.number bn.blkX bn.blkY := by
  rw [BNHelper.value, BNHelper.valueNoWrap, stands.bp, stands.blockSwizzle, stands.xor, formed.lookup, Offset.number,
    Offset.place, formed.blocksHigh, formed.blocksWide]

theorem stands_nextBlockX (stands : Stands o start bn) : Stands o start bn.nextBlockX := by
  have next := next_div bn.blkX cw
  refine ⟨stands.blockSwizzle, stands.pageMaskX, stands.pageMaskY, stands.addY, stands.xor, stands.baseBlkX, stands.baseBP, ?_⟩
  simp only [BNHelper.nextBlockX, stands.pageMaskX, formed.blocksWide, next, stands.bp]
  split
  · ring
  · rfl

theorem stands_nextBlockY (stands : Stands o start bn) : Stands o start bn.nextBlockY := by
  have next := next_div bn.blkY ch
  have base : bn.nextBlockY.baseBP =
      o.bp + 32 * ((bn.blkY + 1) / o.list.blocksHigh * o.bwPg + start / o.list.blocksWide) := by
    simp only [BNHelper.nextBlockY, stands.pageMaskY, formed.blocksHigh, next, stands.baseBP, stands.addY]
    split
    · ring
    · rfl
  refine ⟨stands.blockSwizzle, stands.pageMaskX, stands.pageMaskY, stands.addY, stands.xor, stands.baseBlkX, base, ?_⟩
  refine base.trans ?_
  rw [BNHelper.nextBlockY, stands.baseBlkX]

theorem stands_bnMulti (x y : Nat) : Stands o (x / 2 ^ w) (o.bnMulti x y) := by
  have pages (n k : Nat) (enough : 5 ≤ k) : n >>> (k - 5) - (n >>> (k - 5) &&& 0x1f) = 32 * (n / 2 ^ k) := by
    have power : 2 ^ k = 2 ^ (k - 5) * 32 := by
      rw [show 32 = 2 ^ 5 from rfl, ← Nat.pow_add, Nat.sub_add_cancel enough]
    rw [show 0x1f = 2 ^ 5 - 1 from rfl, Nat.and_two_pow_sub_one_eq_mod, Nat.shiftRight_eq_div_pow, power,
      ← Nat.div_div_eq_div_mul]
    omega
  have block (n a b : Nat) : n / 2 ^ a / 2 ^ b = n / 2 ^ (a + b) := by rw [Nat.div_div_eq_div_mul, Nat.pow_add]
  have address : (o.bnMulti x y).bp = o.bp + 32 * (y / 2 ^ h / o.list.blocksHigh * o.bwPg + x / 2 ^ w / o.list.blocksWide) := by
    simp only [Offset.bnMulti, formed.pageShiftX, formed.pageShiftY, formed.blocksHigh, formed.blocksWide, block]
    rw [pages y _ formed.pageHigh, pages x _ (Nat.le_of_succ_le formed.pageWide)]
    ring
  have column : (o.bnMulti x y).blkX = x / 2 ^ w := by
    simp only [Offset.bnMulti, formed.blockShiftX, Nat.shiftRight_eq_div_pow]
  have row : (o.bnMulti x y).blkY = y / 2 ^ h := by
    simp only [Offset.bnMulti, formed.blockShiftY, Nat.shiftRight_eq_div_pow]
  have maskX : (o.bnMulti x y).pageMaskX = o.list.blocksWide - 1 := by
    simp only [Offset.bnMulti, formed.pageShiftX, formed.blockShiftX, formed.blocksWide, Nat.add_sub_cancel_left,
      Nat.one_shiftLeft]
  have maskY : (o.bnMulti x y).pageMaskY = o.list.blocksHigh - 1 := by
    simp only [Offset.bnMulti, formed.pageShiftY, formed.blockShiftY, formed.blocksHigh, Nat.add_sub_cancel_left,
      Nat.one_shiftLeft]
  refine ⟨rfl, maskX, maskY, rfl, rfl, column, ?_, ?_⟩
  · rw [row]
    exact address
  · rw [row, column]
    exact address

theorem bn_number (x y : Nat) : o.bn x y = o.number (x / 2 ^ w) (y / 2 ^ h) := by
  rw [Offset.bn, formed.stands_value (formed.stands_bnMulti x y)]
  simp only [Offset.bnMulti, formed.blockShiftX, formed.blockShiftY, Nat.shiftRight_eq_div_pow]

/-! ## Loops over blocks -/

theorem loopX_numbers (right : Nat) (stands : Stands o start bn) :
    (bn.loopX right).1 = (List.range' bn.blkX (right - bn.blkX)).map (fun x => o.number x bn.blkY) ∧
      Stands o start (bn.loopX right).2 := by
  fun_induction BNHelper.loopX right bn with
  | case1 bn inside rest ih =>
      obtain ⟨numbers, after⟩ := ih (formed.stands_nextBlockX stands)
      refine ⟨?_, after⟩
      have count : right - bn.blkX = right - (bn.blkX + 1) + 1 := by omega
      rw [count, List.range'_succ, List.map_cons, ← formed.stands_value stands]
      exact congrArg _ numbers
  | case2 bn outside =>
      rw [Nat.sub_eq_zero_of_le (Nat.le_of_not_lt outside)]
      exact ⟨rfl, stands⟩

theorem loopY_numbers (right bottom : Nat) (stands : Stands o start bn) (first : bn.blkX = start) :
    bn.loopY right bottom = (List.range' bn.blkY (bottom - bn.blkY)).flatMap fun y =>
      (List.range' start (right - start)).map fun x => o.number x y := by
  fun_induction BNHelper.loopY right bottom bn with
  | case1 bn inside row ih =>
      obtain ⟨numbers, after⟩ := formed.loopX_numbers right stands
      have rest := ih (formed.stands_nextBlockY after) after.baseBlkX
      have same : row.2.nextBlockY.blkY = bn.blkY + 1 := congrArg (· + 1) (bn.loopX_blkY right)
      have count : bottom - bn.blkY = bottom - (bn.blkY + 1) + 1 := by omega
      rw [same] at rest
      rw [count, List.range'_succ, List.flatMap_cons, ← first]
      rw [first] at numbers ⊢
      exact congrArg₂ (· ++ ·) numbers rest
  | case2 bn outside =>
      rw [Nat.sub_eq_zero_of_le (Nat.le_of_not_lt outside)]
      rfl

end Formed

/-! ## Addresses of pixels -/

theorem Offset.pixelSwizzleRow_eq (o : Offset) (x y : Nat) :
    o.pixels.info.pixelSwizzleRow (y &&& o.pixels.info.pixelRowMask) x =
    o.list.pxOffset (x % 2048) (rowUsed o.list.rowMask y) - o.list.pxOffset 0 (rowUsed o.list.rowMask y) := by
  change o.list.rows (y &&& o.list.rowMask) x = _
  unfold Swizzling.rows rowUsed
  split
  · rfl
  · rfl

namespace Formed

variable {o : Offset} {w h cw ch : Nat} (formed : Formed o w h cw ch)
include formed

theorem rowUsed_mod (y : Nat) : rowUsed o.list.rowMask (y % o.list.colHeight) = rowUsed o.list.rowMask y := by
  have same : y % o.list.colHeight &&& o.list.rowMask = y &&& o.list.rowMask := by
    rcases formed.rowMask with zero | seven
    · rw [zero, Nat.and_zero, Nat.and_zero]
    · rw [seven, formed.colHeight, show 7 = 2 ^ 3 - 1 from rfl, Nat.and_two_pow_sub_one_eq_mod, Nat.and_two_pow_sub_one_eq_mod]
      exact Nat.mod_mod_of_dvd y (Nat.pow_dvd_pow 2 formed.rows)
  rw [rowUsed, rowUsed, same]

theorem pxOffset_separates (x : Nat) {y : Nat} (inside : y < 2 ^ (h + ch)) :
    (o.list.pxOffset 0 y : Int) +
        (o.list.pxOffset x (rowUsed o.list.rowMask y) - o.list.pxOffset 0 (rowUsed o.list.rowMask y)) =
      o.list.pxOffset x y := by
  have positive : 0 < o.list.colHeight := by rw [formed.colHeight]; exact Nat.two_pow_pos h
  have wide : 0 < o.list.colWidth := by rw [formed.colWidth]; exact Nat.two_pow_pos w
  have page : 0 < o.list.blocksWide * o.list.colWidth := by rw [formed.pageWidth]; exact Nat.two_pow_pos _
  have small : rowUsed o.list.rowMask y < o.list.colHeight := by
    have few : 2 ^ 3 ≤ o.list.colHeight := by rw [formed.colHeight]; exact Nat.pow_le_pow_right (by decide) formed.rows
    unfold rowUsed
    split <;> omega
  have row : y / o.list.colHeight < o.list.blocksHigh :=
    Nat.div_lt_of_lt_mul (by rw [Nat.mul_comm, formed.pageHeight]; exact inside)
  have column : x % (o.list.blocksWide * o.list.colWidth) / o.list.colWidth < o.list.blocksWide :=
    Nat.div_lt_of_lt_mul (by rw [Nat.mul_comm o.list.colWidth]; exact Nat.mod_lt x page)
  have blocks := formed.blockSum _ row _ column
  have columns := formed.columnSum _ (Nat.mod_lt y positive) _
    (Nat.mod_lt (x % (o.list.blocksWide * o.list.colWidth)) wide)
  rw [formed.rowUsed_mod] at columns
  simp only [Swizzling.pxOffset, Nat.zero_div, Nat.zero_mod, Nat.div_eq_of_lt small, Nat.mod_eq_of_lt small, formed.origin,
    blocks]
  push_cast
  have sum := congrArg (fun n : Nat => (n : Int)) columns
  simp only [Nat.cast_add] at sum
  linear_combination -sum

theorem base_eq (y : Nat) : o.pixels.pixelAddressZeroXRaw y =
    (o.bp + 32 * (y / 2 ^ (h + ch) * o.bwPg)) % GS_MAX_BLOCKS * 2 ^ (w + h) + o.list.pxOffset 0 (y % 2 ^ (h + ch)) := by
  have shiftX : o.pixels.info.pageShiftX = w + cw := formed.pageShiftX
  have shiftY : o.pixels.info.pageShiftY = h + ch := formed.pageShiftY
  have mask : o.pixels.info.pageMaskY = 2 ^ (h + ch) - 1 := by
    change o.list.blocksHigh * o.list.colHeight - 1 = _
    rw [formed.pageHeight]
  have shift : w + cw + (h + ch) = w + h + 5 := by have := formed.page; omega
  have pages : GS_MAX_PAGES <<< (w + h + 5) = 2 ^ (14 + (w + h)) := by
    rw [Nat.shiftLeft_eq, GS_MAX_PAGES, show 512 = 2 ^ 9 from rfl, ← Nat.pow_add]
    congr 1
    omega
  have whole : y - y % 2 ^ (h + ch) = y / 2 ^ (h + ch) * 2 ^ (h + ch) := by
    have := Nat.div_add_mod y (2 ^ (h + ch))
    rw [Nat.mul_comm] at this
    omega
  have rows : y / 2 ^ (h + ch) * 2 ^ (h + ch) * o.bwPg * 2 ^ (w + cw) = 32 * (y / 2 ^ (h + ch) * o.bwPg) * 2 ^ (w + h) := by
    have power : 2 ^ (h + ch) * 2 ^ (w + cw) = 32 * 2 ^ (w + h) := by
      rw [← Nat.pow_add, Nat.add_comm (h + ch), shift, Nat.pow_succ, Nat.pow_add]
      ring
    calc y / 2 ^ (h + ch) * 2 ^ (h + ch) * o.bwPg * 2 ^ (w + cw) =
        y / 2 ^ (h + ch) * o.bwPg * (2 ^ (h + ch) * 2 ^ (w + cw)) := by ring
      _ = 32 * (y / 2 ^ (h + ch) * o.bwPg) * 2 ^ (w + h) := by rw [power]; ring
  unfold GSOffset.pixelAddressZeroXRaw
  dsimp only
  rw [shiftX, shiftY, mask, Nat.and_two_pow_sub_one_eq_mod, shift, pages, Nat.and_two_pow_sub_one_eq_mod, whole,
    Nat.add_sub_cancel, Nat.shiftLeft_eq, Nat.shiftLeft_eq]
  change (o.bp * 2 ^ (w + h) + y / 2 ^ (h + ch) * 2 ^ (h + ch) * o.bwPg * 2 ^ (w + cw)) % _ + o.list.pxOffset 0 _ = _
  rw [rows, ← Nat.add_mul, Nat.pow_add 2 14, Nat.mul_mod_mul_right]
  rfl

theorem column_lt (x y : Nat) : o.list.colTable.entry (y % 2 ^ h) (x % 2 ^ w) < 2 ^ (w + h) := by
  have row : y % 2 ^ h < o.list.colHeight := by rw [formed.colHeight]; exact Nat.mod_lt y (Nat.two_pow_pos h)
  have column : x % 2 ^ w < o.list.colWidth := by rw [formed.colWidth]; exact Nat.mod_lt x (Nat.two_pow_pos w)
  have inside := formed.columns.lt row column
  rwa [formed.colHeight, formed.colWidth, ← Nat.pow_add, Nat.add_comm h] at inside

theorem pxOffset_split (x y : Nat) : o.list.pxOffset x (y % 2 ^ (h + ch)) =
    (32 * (x / 2 ^ w / 2 ^ cw) + o.list.blockTable.entry (y / 2 ^ h % 2 ^ ch) (x / 2 ^ w % 2 ^ cw)) * 2 ^ (w + h) +
      o.list.colTable.entry (y % 2 ^ h) (x % 2 ^ w) := by
  have five : 32 = 2 ^ cw * 2 ^ ch := by rw [← Nat.pow_add, formed.page]
  have row : y % 2 ^ (h + ch) / 2 ^ h = y / 2 ^ h % 2 ^ ch := by rw [Nat.pow_add, Nat.mod_mul_right_div_self]
  have column : x % 2 ^ (w + cw) / 2 ^ w = x / 2 ^ w % 2 ^ cw := by rw [Nat.pow_add, Nat.mod_mul_right_div_self]
  have inRow : y % 2 ^ (h + ch) % 2 ^ h = y % 2 ^ h := Nat.mod_mod_of_dvd y (Nat.pow_dvd_pow 2 (Nat.le_add_right h ch))
  have inColumn : x % 2 ^ (w + cw) % 2 ^ w = x % 2 ^ w := Nat.mod_mod_of_dvd x (Nat.pow_dvd_pow 2 (Nat.le_add_right w cw))
  have page : x / 2 ^ (w + cw) = x / 2 ^ w / 2 ^ cw := by rw [Nat.div_div_eq_div_mul, Nat.pow_add]
  unfold Swizzling.pxOffset
  dsimp only
  rw [formed.pageWidth, formed.colHeight, formed.colWidth, formed.blocksHigh, formed.blocksWide, row, column, inRow, inColumn,
    page, five, Nat.pow_add 2 w h]
  ring

theorem pa_eq {x : Nat} (small : x < 2048) (y : Nat) : ∃ block, o.pixels.pa x y =
    (block ^^^ o.blockXor) * 2 ^ (w + h) + o.list.colTable.entry (y % 2 ^ h) (x % 2 ^ w) ∧
    block = (o.bp + 32 * (y / 2 ^ (h + ch) * o.bwPg)) % GS_MAX_BLOCKS + 32 * (x / 2 ^ w / 2 ^ cw) +
      o.list.blockTable.entry (y / 2 ^ h % 2 ^ ch) (x / 2 ^ w % 2 ^ cw) := by
  refine ⟨_, ?_, rfl⟩
  have positive := Nat.two_pow_pos (h + ch)
  have used : rowUsed o.list.rowMask (y % 2 ^ (h + ch)) = rowUsed o.list.rowMask y := by
    have rows : y % 2 ^ (h + ch) % o.list.colHeight = y % o.list.colHeight := by
      rw [formed.colHeight]
      exact Nat.mod_mod_of_dvd y (Nat.pow_dvd_pow 2 (Nat.le_add_right h ch))
    rw [← formed.rowUsed_mod, rows, formed.rowUsed_mod]
  have separated := formed.pxOffset_separates x (Nat.mod_lt y positive)
  rw [used] at separated
  have column := formed.column_lt x y
  have xor : o.pixels.info.pixelAddressXor = o.blockXor <<< (w + h) := by
    change o.blockXor <<< (Nat.log2 o.list.colWidth + Nat.log2 o.list.colHeight) = _
    rw [formed.colWidth, formed.colHeight, Nat.log2_two_pow, Nat.log2_two_pow]
  have sum : (o.pixels.pixelAddressZeroXRaw y : Int) +
      o.pixels.info.pixelSwizzleRow (y &&& o.pixels.info.pixelRowMask) (0 + x) =
      (((o.bp + 32 * (y / 2 ^ (h + ch) * o.bwPg)) % GS_MAX_BLOCKS + 32 * (x / 2 ^ w / 2 ^ cw) +
        o.list.blockTable.entry (y / 2 ^ h % 2 ^ ch) (x / 2 ^ w % 2 ^ cw)) * 2 ^ (w + h) +
          o.list.colTable.entry (y % 2 ^ h) (x % 2 ^ w) : Nat) := by
    rw [o.pixelSwizzleRow_eq, Nat.zero_add, Nat.mod_eq_of_lt small, formed.base_eq, Nat.cast_add, Int.add_assoc, separated,
      formed.pxOffset_split]
    push_cast
    ring
  change ((o.pixels.pixelAddressZeroXRaw y : Int) +
    o.pixels.info.pixelSwizzleRow (y &&& o.pixels.info.pixelRowMask) (0 + x)).toNat ^^^ o.pixels.info.pixelAddressXor = _
  rw [sum, Int.toNat_natCast, xor, add_xor_of_lt (by rw [Nat.mul_mod_left]; omega), ← Nat.shiftLeft_eq,
    ← Nat.shiftLeft_xor_distrib, Nat.shiftLeft_eq]

theorem place_eq (x y : Nat) : o.place (x / 2 ^ w) (y / 2 ^ h) = o.bp + 32 * (y / 2 ^ (h + ch) * o.bwPg) +
    32 * (x / 2 ^ w / 2 ^ cw) + o.list.blockTable.entry (y / 2 ^ h % 2 ^ ch) (x / 2 ^ w % 2 ^ cw) := by
  rw [Offset.place, formed.blocksHigh, formed.blocksWide, Nat.div_div_eq_div_mul y, ← Nat.pow_add]
  ring

theorem pa_block {x : Nat} (small : x < 2048) (y : Nat) : o.pixels.pa x y / 2 ^ (w + h) % GS_MAX_BLOCKS = o.bn x y ∧
    o.pixels.pa x y % 2 ^ (w + h) = o.list.colTable.entry (y % 2 ^ h) (x % 2 ^ w) := by
  obtain ⟨block, address, numbered⟩ := formed.pa_eq small y
  have column := formed.column_lt x y
  have wrapped : block % 2 ^ 14 = o.place (x / 2 ^ w) (y / 2 ^ h) % 2 ^ 14 := by
    rw [numbered, formed.place_eq, GS_MAX_BLOCKS]
    omega
  have power : GS_MAX_BLOCKS = 2 ^ 14 := rfl
  rw [address, Nat.mul_comm]
  constructor
  · rw [Nat.mul_add_div (Nat.two_pow_pos _), Nat.div_eq_of_lt column, Nat.add_zero, formed.bn_number, Offset.number, power,
      Nat.xor_mod_two_pow, Nat.xor_mod_two_pow, wrapped]
  · rw [Nat.mul_add_mod, Nat.mod_eq_of_lt column]

end Formed

/-! ## Rectangles -/

theorem touched_iff {low high size b : Nat} (some : low < high) (positive : 0 < size) :
    (low / size ≤ b ∧ b < (high + (size - 1)) / size) ↔ ∃ x, low ≤ x ∧ x < high ∧ x / size = b := by
  constructor
  · rintro ⟨first, last⟩
    have below : b * size < high := by
      have := (Nat.le_div_iff_mul_le positive).mp last
      rw [Nat.succ_mul] at this
      omega
    refine ⟨max low (b * size), le_max_left .., max_lt some below, ?_⟩
    rcases Nat.le_total low (b * size) with before | after
    · rw [max_eq_right before, Nat.mul_div_cancel b positive]
    · rw [max_eq_left after]
      exact Nat.le_antisymm first ((Nat.le_div_iff_mul_le positive).mpr after)
  · rintro ⟨x, first, last, rfl⟩
    refine ⟨Nat.div_le_div_right first, (Nat.le_div_iff_mul_le positive).mpr ?_⟩
    have := Nat.div_mul_le_self x size
    rw [Nat.succ_mul]
    omega

theorem eq_of_parts {n n' a b : Nat} (page : n / 2 ^ (a + b) = n' / 2 ^ (a + b))
    (block : n / 2 ^ a % 2 ^ b = n' / 2 ^ a % 2 ^ b) (place : n % 2 ^ a = n' % 2 ^ a) : n = n' := by
  rw [Nat.pow_add, ← Nat.div_div_eq_div_mul, ← Nat.div_div_eq_div_mul] at page
  have blocks := (Nat.div_add_mod (n / 2 ^ a) (2 ^ b)).symm.trans (by rw [page, block, Nat.div_add_mod])
  exact (Nat.div_add_mod n (2 ^ a)).symm.trans (by rw [blocks, place, Nat.div_add_mod])

/-- What addresses and numbers of blocks have to do with each other. -/
structure Swizzled (o : Offset) : Prop where
  block : ∀ x < 2048, ∀ y < 2048, o.pixels.pa x y / (o.list.colWidth * o.list.colHeight) % GS_MAX_BLOCKS = o.bn x y
  column : ∀ x < 2048, ∀ y < 2048,
    o.pixels.pa x y % (o.list.colWidth * o.list.colHeight) = o.list.colTable.entry (y % o.list.colHeight) (x % o.list.colWidth)
  loop : ∀ rect : Rect, rect.left < rect.right → rect.top < rect.bottom → ∀ n,
    n ∈ o.loopBlocks rect ↔ ∃ x y, rect.Has x y ∧ o.bn x y = n
  order : ∀ rect : Rect, o.loopBlocks rect =
    (List.range' (rect.top >>> o.blockShiftY) ((rect.bottom + o.blockMaskY) >>> o.blockShiftY - rect.top >>> o.blockShiftY)).flatMap
      fun y => (List.range' (rect.left >>> o.blockShiftX)
        ((rect.right + o.blockMaskX) >>> o.blockShiftX - rect.left >>> o.blockShiftX)).map fun x =>
          o.bn (x <<< o.blockShiftX) (y <<< o.blockShiftY)
  apart : ∀ x < 2048, ∀ y < 2048, ∀ x' < 2048, ∀ y' < 2048,
    x >>> o.pageShiftX = x' >>> o.pageShiftX → y >>> o.pageShiftY = y' >>> o.pageShiftY →
    o.pixels.pa x y % (GS_MAX_BLOCKS * (o.list.colWidth * o.list.colHeight)) =
      o.pixels.pa x' y' % (GS_MAX_BLOCKS * (o.list.colWidth * o.list.colHeight)) → x = x' ∧ y = y'

namespace Formed

variable {o : Offset} {w h cw ch : Nat} (formed : Formed o w h cw ch)
include formed

theorem loopBlocks_numbers (rect : Rect) : o.loopBlocks rect =
    (List.range' (rect.top / 2 ^ h) ((rect.bottom + (2 ^ h - 1)) / 2 ^ h - rect.top / 2 ^ h)).flatMap fun y =>
      (List.range' (rect.left / 2 ^ w) ((rect.right + (2 ^ w - 1)) / 2 ^ w - rect.left / 2 ^ w)).map fun x => o.number x y := by
  have column : (o.bnMulti rect.left rect.top).blkX = rect.left / 2 ^ w := by
    simp only [Offset.bnMulti, formed.blockShiftX, Nat.shiftRight_eq_div_pow]
  have row : (o.bnMulti rect.left rect.top).blkY = rect.top / 2 ^ h := by
    simp only [Offset.bnMulti, formed.blockShiftY, Nat.shiftRight_eq_div_pow]
  have loops := formed.loopY_numbers ((rect.right + (2 ^ w - 1)) / 2 ^ w) ((rect.bottom + (2 ^ h - 1)) / 2 ^ h)
    (formed.stands_bnMulti rect.left rect.top) column
  rw [row] at loops
  rw [← loops, Offset.loopBlocks, formed.blockShiftX, formed.blockShiftY, formed.blockMaskX, formed.blockMaskY,
    Nat.shiftRight_eq_div_pow, Nat.shiftRight_eq_div_pow]

theorem bn_first (x y : Nat) : o.bn (x <<< o.blockShiftX) (y <<< o.blockShiftY) = o.number x y := by
  rw [formed.bn_number, formed.blockShiftX, formed.blockShiftY, Nat.shiftLeft_eq, Nat.shiftLeft_eq,
    Nat.mul_div_cancel x (Nat.two_pow_pos w), Nat.mul_div_cancel y (Nat.two_pow_pos h)]

theorem mem_loopBlocks {rect : Rect} (wide : rect.left < rect.right) (high : rect.top < rect.bottom) (n : Nat) :
    n ∈ o.loopBlocks rect ↔ ∃ x y, rect.Has x y ∧ o.bn x y = n := by
  have columns (b : Nat) := touched_iff (b := b) wide (Nat.two_pow_pos w)
  have rows (b : Nat) := touched_iff (b := b) high (Nat.two_pow_pos h)
  have range (low high b : Nat) : b ∈ List.range' low (high - low) ↔ low ≤ b ∧ b < high := by
    rw [List.mem_range'_1]
    omega
  simp only [formed.loopBlocks_numbers, List.mem_flatMap, List.mem_map, range, rows, columns, formed.bn_number]
  constructor
  · rintro ⟨_, ⟨y, top, bottom, rfl⟩, _, ⟨x, left, right, rfl⟩, same⟩
    exact ⟨x, y, ⟨left, right, top, bottom⟩, same⟩
  · rintro ⟨x, y, ⟨left, right, top, bottom⟩, same⟩
    exact ⟨_, ⟨y, top, bottom, rfl⟩, _, ⟨x, left, right, rfl⟩, same⟩

theorem block_apart {i j i' j' base : Nat} (row : i < 2 ^ ch) (col : j < 2 ^ cw) (row' : i' < 2 ^ ch) (col' : j' < 2 ^ cw)
    (same : ((base + o.list.blockTable.entry i j) ^^^ o.blockXor) % GS_MAX_BLOCKS =
      ((base + o.list.blockTable.entry i' j') ^^^ o.blockXor) % GS_MAX_BLOCKS) : i = i' ∧ j = j' := by
  rw [← formed.blocksHigh] at row row'
  rw [← formed.blocksWide] at col col'
  have size : o.list.blocksHigh * o.list.blocksWide = 32 := by
    rw [formed.blocksHigh, formed.blocksWide, ← Nat.pow_add, Nat.add_comm, formed.page]
  have first := formed.blocks.lt row col
  have second := formed.blocks.lt row' col'
  have power : GS_MAX_BLOCKS = 2 ^ 14 := rfl
  rw [power, Nat.xor_mod_two_pow, Nat.xor_mod_two_pow] at same
  have equal := Nat.xor_left_injective same
  exact formed.blocks.injective row col row' col' (by omega)

theorem pixels_apart {x y x' y' : Nat} (small : x < 2048) (small' : x' < 2048) (pageX : x / 2 ^ (w + cw) = x' / 2 ^ (w + cw))
    (pageY : y / 2 ^ (h + ch) = y' / 2 ^ (h + ch))
    (same : o.pixels.pa x y % (GS_MAX_BLOCKS * 2 ^ (w + h)) = o.pixels.pa x' y' % (GS_MAX_BLOCKS * 2 ^ (w + h))) :
    x = x' ∧ y = y' := by
  have mask (n : Nat) (k : Nat) : n % 2 ^ k < 2 ^ k := Nat.mod_lt n (Nat.two_pow_pos k)
  have column := (formed.pa_block small y).2
  have column' := (formed.pa_block small' y').2
  have low := congrArg (· % 2 ^ (w + h)) same
  simp only [Nat.mod_mul_left_mod, column, column'] at low
  obtain ⟨rowIn, columnIn⟩ := formed.columns.injective (by rw [formed.colHeight]; exact mask y h)
    (by rw [formed.colWidth]; exact mask x w) (by rw [formed.colHeight]; exact mask y' h) (by rw [formed.colWidth]; exact mask x' w) low
  have block := (formed.pa_block small y).1
  have block' := (formed.pa_block small' y').1
  have high := congrArg (· / 2 ^ (w + h)) same
  simp only [Nat.mul_comm GS_MAX_BLOCKS, Nat.mod_mul_right_div_self, block, block', formed.bn_number, Offset.number,
    formed.place_eq] at high
  have page : x / 2 ^ w / 2 ^ cw = x' / 2 ^ w / 2 ^ cw := by
    rw [Nat.div_div_eq_div_mul, Nat.div_div_eq_div_mul, ← Nat.pow_add, pageX]
  rw [pageY, page] at high
  obtain ⟨rowOf, columnOf⟩ := formed.block_apart (mask _ ch) (mask _ cw) (mask _ ch) (mask _ cw) high
  exact ⟨eq_of_parts pageX columnOf columnIn, eq_of_parts pageY rowOf rowIn⟩

end Formed

theorem swizzle_addresses (bp bw psm : Nat) : Swizzled (getBlockOffset bp bw psm) := by
  obtain ⟨w, h, cw, ch, formed⟩ := getBlockOffset_formed bp bw psm
  have size : (getBlockOffset bp bw psm).list.colWidth * (getBlockOffset bp bw psm).list.colHeight = 2 ^ (w + h) := by
    rw [formed.colWidth, formed.colHeight, Nat.pow_add]
  refine ⟨?_, ?_, ?_, ?_, ?_⟩
  · intro x small y _
    rw [size]
    exact (formed.pa_block small y).1
  · intro x small y _
    rw [size, formed.colHeight, formed.colWidth]
    exact (formed.pa_block small y).2
  · intro rect wide high n
    exact formed.mem_loopBlocks wide high n
  · intro rect
    simp only [formed.bn_first]
    rw [formed.loopBlocks_numbers, formed.blockShiftX, formed.blockShiftY, formed.blockMaskX, formed.blockMaskY]
    simp only [Nat.shiftRight_eq_div_pow]
  · intro x small y _ x' small' y' _ pageX pageY same
    rw [formed.pageShiftX, Nat.shiftRight_eq_div_pow, Nat.shiftRight_eq_div_pow] at pageX
    rw [formed.pageShiftY, Nat.shiftRight_eq_div_pow, Nat.shiftRight_eq_div_pow] at pageY
    rw [size] at same
    exact formed.pixels_apart small small' pageX pageY same

end Pcsx2.GsMemory
