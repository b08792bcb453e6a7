import Pcsx2.Foundation.Masks

/-!
# Pixel addresses

The swizzle tables of the GS and the addresses `GSOffset` takes from them.
-/

namespace Pcsx2.GsMemory

/-! ## Tables -/

abbrev Table := List (List Nat)

def Table.entry (table : Table) (row column : Nat) : Nat :=
  (table.getD row []).getD column 0

def blockTable32 : Table :=
  [[0, 1, 4, 5, 16, 17, 20, 21],
   [2, 3, 6, 7, 18, 19, 22, 23],
   [8, 9, 12, 13, 24, 25, 28, 29],
   [10, 11, 14, 15, 26, 27, 30, 31]]

def blockTable16 : Table :=
  [[0, 2, 8, 10],
   [1, 3, 9, 11],
   [4, 6, 12, 14],
   [5, 7, 13, 15],
   [16, 18, 24, 26],
   [17, 19, 25, 27],
   [20, 22, 28, 30],
   [21, 23, 29, 31]]

def blockTable16S : Table :=
  [[0, 2, 16, 18],
   [1, 3, 17, 19],
   [8, 10, 24, 26],
   [9, 11, 25, 27],
   [4, 6, 20, 22],
   [5, 7, 21, 23],
   [12, 14, 28, 30],
   [13, 15, 29, 31]]

def blockTable8 : Table :=
  [[0, 1, 4, 5, 16, 17, 20, 21],
   [2, 3, 6, 7, 18, 19, 22, 23],
   [8, 9, 12, 13, 24, 25, 28, 29],
   [10, 11, 14, 15, 26, 27, 30, 31]]

def blockTable4 : Table :=
  [[0, 2, 8, 10],
   [1, 3, 9, 11],
   [4, 6, 12, 14],
   [5, 7, 13, 15],
   [16, 18, 24, 26],
   [17, 19, 25, 27],
   [20, 22, 28, 30],
   [21, 23, 29, 31]]

def columnTable32 : Table :=
  [[0, 1, 4, 5, 8, 9, 12, 13],
   [2, 3, 6, 7, 10, 11, 14, 15],
   [16, 17, 20, 21, 24, 25, 28, 29],
   [18, 19, 22, 23, 26, 27, 30, 31],
   [32, 33, 36, 37, 40, 41, 44, 45],
   [34, 35, 38, 39, 42, 43, 46, 47],
   [48, 49, 52, 53, 56, 57, 60, 61],
   [50, 51, 54, 55, 58, 59, 62, 63]]

def columnTable16 : Table :=
  [[0, 2, 8, 10, 16, 18, 24, 26, 1, 3, 9, 11, 17, 19, 25, 27],
   [4, 6, 12, 14, 20, 22, 28, 30, 5, 7, 13, 15, 21, 23, 29, 31],
   [32, 34, 40, 42, 48, 50, 56, 58, 33, 35, 41, 43, 49, 51, 57, 59],
   [36, 38, 44, 46, 52, 54, 60, 62, 37, 39, 45, 47, 53, 55, 61, 63],
   [64, 66, 72, 74, 80, 82, 88, 90, 65, 67, 73, 75, 81, 83, 89, 91],
   [68, 70, 76, 78, 84, 86, 92, 94, 69, 71, 77, 79, 85, 87, 93, 95],
   [96, 98, 104, 106, 112, 114, 120, 122, 97, 99, 105, 107, 113, 115, 121, 123],
   [100, 102, 108, 110, 116, 118, 124, 126, 101, 103, 109, 111, 117, 119, 125, 127]]

def columnTable8 : Table :=
  [[0, 4, 16, 20, 32, 36, 48, 52, 2, 6, 18, 22, 34, 38, 50, 54],
   [8, 12, 24, 28, 40, 44, 56, 60, 10, 14, 26, 30, 42, 46, 58, 62],
   [33, 37, 49, 53, 1, 5, 17, 21, 35, 39, 51, 55, 3, 7, 19, 23],
   [41, 45, 57, 61, 9, 13, 25, 29, 43, 47, 59, 63, 11, 15, 27, 31],
   [96, 100, 112, 116, 64, 68, 80, 84, 98, 102, 114, 118, 66, 70, 82, 86],
   [104, 108, 120, 124, 72, 76, 88, 92, 106, 110, 122, 126, 74, 78, 90, 94],
   [65, 69, 81, 85, 97, 101, 113, 117, 67, 71, 83, 87, 99, 103, 115, 119],
   [73, 77, 89, 93, 105, 109, 121, 125, 75, 79, 91, 95, 107, 111, 123, 127],
   [128, 132, 144, 148, 160, 164, 176, 180, 130, 134, 146, 150, 162, 166, 178, 182],
   [136, 140, 152, 156, 168, 172, 184, 188, 138, 142, 154, 158, 170, 174, 186, 190],
   [161, 165, 177, 181, 129, 133, 145, 149, 163, 167, 179, 183, 131, 135, 147, 151],
   [169, 173, 185, 189, 137, 141, 153, 157, 171, 175, 187, 191, 139, 143, 155, 159],
   [224, 228, 240, 244, 192, 196, 208, 212, 226, 230, 242, 246, 194, 198, 210, 214],
   [232, 236, 248, 252, 200, 204, 216, 220, 234, 238, 250, 254, 202, 206, 218, 222],
   [193, 197, 209, 213, 225, 229, 241, 245, 195, 199, 211, 215, 227, 231, 243, 247],
   [201, 205, 217, 221, 233, 237, 249, 253, 203, 207, 219, 223, 235, 239, 251, 255]]

def columnTable4 : Table :=
  [[0, 8, 32, 40, 64, 72, 96, 104, 2, 10, 34, 42, 66, 74, 98, 106,
     4, 12, 36, 44, 68, 76, 100, 108, 6, 14, 38, 46, 70, 78, 102, 110],
   [16, 24, 48, 56, 80, 88, 112, 120, 18, 26, 50, 58, 82, 90, 114, 122,
     20, 28, 52, 60, 84, 92, 116, 124, 22, 30, 54, 62, 86, 94, 118, 126],
   [65, 73, 97, 105, 1, 9, 33, 41, 67, 75, 99, 107, 3, 11, 35, 43,
     69, 77, 101, 109, 5, 13, 37, 45, 71, 79, 103, 111, 7, 15, 39, 47],
   [81, 89, 113, 121, 17, 25, 49, 57, 83, 91, 115, 123, 19, 27, 51, 59,
     85, 93, 117, 125, 21, 29, 53, 61, 87, 95, 119, 127, 23, 31, 55, 63],
   [192, 200, 224, 232, 128, 136, 160, 168, 194, 202, 226, 234, 130, 138, 162, 170,
     196, 204, 228, 236, 132, 140, 164, 172, 198, 206, 230, 238, 134, 142, 166, 174],
   [208, 216, 240, 248, 144, 152, 176, 184, 210, 218, 242, 250, 146, 154, 178, 186,
     212, 220, 244, 252, 148, 156, 180, 188, 214, 222, 246, 254, 150, 158, 182, 190],
   [129, 137, 161, 169, 193, 201, 225, 233, 131, 139, 163, 171, 195, 203, 227, 235,
     133, 141, 165, 173, 197, 205, 229, 237, 135, 143, 167, 175, 199, 207, 231, 239],
   [145, 153, 177, 185, 209, 217, 241, 249, 147, 155, 179, 187, 211, 219, 243, 251,
     149, 157, 181, 189, 213, 221, 245, 253, 151, 159, 183, 191, 215, 223, 247, 255],
   [256, 264, 288, 296, 320, 328, 352, 360, 258, 266, 290, 298, 322, 330, 354, 362,
     260, 268, 292, 300, 324, 332, 356, 364, 262, 270, 294, 302, 326, 334, 358, 366],
   [272, 280, 304, 312, 336, 344, 368, 376, 274, 282, 306, 314, 338, 346, 370, 378,
     276, 284, 308, 316, 340, 348, 372, 380, 278, 286, 310, 318, 342, 350, 374, 382],
   [321, 329, 353, 361, 257, 265, 289, 297, 323, 331, 355, 363, 259, 267, 291, 299,
     325, 333, 357, 365, 261, 269, 293, 301, 327, 335, 359, 367, 263, 271, 295, 303],
   [337, 345, 369, 377, 273, 281, 305, 313, 339, 347, 371, 379, 275, 283, 307, 315,
     341, 349, 373, 381, 277, 285, 309, 317, 343, 351, 375, 383, 279, 287, 311, 319],
   [448, 456, 480, 488, 384, 392, 416, 424, 450, 458, 482, 490, 386, 394, 418, 426,
     452, 460, 484, 492, 388, 396, 420, 428, 454, 462, 486, 494, 390, 398, 422, 430],
   [464, 472, 496, 504, 400, 408, 432, 440, 466, 474, 498, 506, 402, 410, 434, 442,
     468, 476, 500, 508, 404, 412, 436, 444, 470, 478, 502, 510, 406, 414, 438, 446],
   [385, 393, 417, 425, 449, 457, 481, 489, 387, 395, 419, 427, 451, 459, 483, 491,
     389, 397, 421, 429, 453, 461, 485, 493, 391, 399, 423, 431, 455, 463, 487, 495],
   [401, 409, 433, 441, 465, 473, 497, 505, 403, 411, 435, 443, 467, 475, 499, 507,
     405, 413, 437, 445, 469, 477, 501, 509, 407, 415, 439, 447, 471, 479, 503, 511]]

/-- The parameters of `pxOffset` and the mask of `makeRowOffsetTableList`. -/
structure Swizzling where
  blocksHigh : Nat
  blocksWide : Nat
  colHeight : Nat
  colWidth : Nat
  blockTable : Table
  colTable : Table
  rowMask : Nat

def swizzleTables32 : Swizzling := ⟨4, 8, 8, 8, blockTable32, columnTable32, 0⟩

def swizzleTables16 : Swizzling := ⟨8, 4, 8, 16, blockTable16, columnTable16, 0⟩

def swizzleTables16S : Swizzling := ⟨8, 4, 8, 16, blockTable16S, columnTable16, 0⟩

def swizzleTables8 : Swizzling := ⟨4, 8, 16, 16, blockTable8, columnTable8, 7⟩

def swizzleTables4 : Swizzling := ⟨8, 4, 16, 32, blockTable4, columnTable4, 7⟩

def Swizzling.pxOffset (s : Swizzling) (x y : Nat) : Nat :=
  let blockSize := s.colHeight * s.colWidth
  let pageSize := blockSize * s.blocksHigh * s.blocksWide
  let pageWidth := s.blocksWide * s.colWidth
  let pageX := x / pageWidth
  let subpageX := x % pageWidth
  let blockID := s.blockTable.entry (y / s.colHeight) (subpageX / s.colWidth)
  let sublockOffset := s.colTable.entry (y % s.colHeight) (subpageX % s.colWidth)
  pageX * pageSize + blockID * blockSize + sublockOffset

def Swizzling.makeRowOffsetTable (s : Swizzling) (y x : Nat) : Int :=
  (s.pxOffset (x % 2048) y : Int) - s.pxOffset 0 y

/-- The list `{a, a, b, b, b, b, a, a}` of rows, or eight times `a`. -/
def Swizzling.rows (s : Swizzling) (y : Nat) : Nat → Int :=
  if 2 ≤ y ∧ y < 6 then s.makeRowOffsetTable 2 else s.makeRowOffsetTable 0

/-! ## Swizzles -/

structure GSSwizzleInfo where
  pixelSwizzleCol : Nat → Nat
  pixelSwizzleRow : Nat → Nat → Int
  pageMaskY : Nat
  pixelRowMask : Nat
  pageShiftX : Nat
  pageShiftY : Nat
  pixelAddressXor : Nat

def gsSwizzleInfo (list : Swizzling) (blockXor : Nat) : GSSwizzleInfo where
  pixelSwizzleCol := list.pxOffset 0
  pixelSwizzleRow := list.rows
  pageMaskY := list.blocksHigh * list.colHeight - 1
  pixelRowMask := list.rowMask
  pageShiftX := Nat.log2 (list.blocksWide * list.colWidth)
  pageShiftY := Nat.log2 (list.blocksHigh * list.colHeight)
  pixelAddressXor := blockXor <<< (Nat.log2 list.colWidth + Nat.log2 list.colHeight)

def swizzle32 : GSSwizzleInfo := gsSwizzleInfo swizzleTables32 0x00

def swizzle32Z : GSSwizzleInfo := gsSwizzleInfo swizzleTables32 0x18

def swizzle16 : GSSwizzleInfo := gsSwizzleInfo swizzleTables16 0x00

def swizzle16S : GSSwizzleInfo := gsSwizzleInfo swizzleTables16S 0x00

def swizzle16Z : GSSwizzleInfo := gsSwizzleInfo swizzleTables16 0x18

def swizzle16SZ : GSSwizzleInfo := gsSwizzleInfo swizzleTables16S 0x18

def swizzle8 : GSSwizzleInfo := gsSwizzleInfo swizzleTables8 0x00

def swizzle4 : GSSwizzleInfo := gsSwizzleInfo swizzleTables4 0x00

/-! ## Offsets -/

structure GSOffset where
  info : GSSwizzleInfo
  bp : Nat
  bwPg : Nat

def gsOffset (swz : GSSwizzleInfo) (bp bw : Nat) : GSOffset :=
  ⟨swz, bp, bw >>> (swz.pageShiftX - 6)⟩

def GS_MAX_PAGES : Nat := 512

namespace GSOffset

variable (off : GSOffset)

def pixelAddressZeroXRaw (y : Nat) : Nat :=
  let base := off.bp <<< (off.info.pageShiftX + off.info.pageShiftY - 5)
  let base := base + ((y - (y &&& off.info.pageMaskY)) * off.bwPg) <<< off.info.pageShiftX
  let base := base &&& (GS_MAX_PAGES <<< (off.info.pageShiftX + off.info.pageShiftY) - 1)
  base + off.info.pixelSwizzleCol (y &&& off.info.pageMaskY)

structure PAHelper where
  pixelSwizzleRow : Nat → Int
  base : Nat
  xor : Nat

def paMulti (x y : Nat) : PAHelper where
  pixelSwizzleRow i := off.info.pixelSwizzleRow (y &&& off.info.pixelRowMask) (x + i)
  base := off.pixelAddressZeroXRaw y
  xor := off.info.pixelAddressXor

def PAHelper.value (pa : PAHelper) (x : Nat) : Nat :=
  (pa.base + pa.pixelSwizzleRow x).toNat ^^^ pa.xor

def pa (x y : Nat) : Nat := (off.paMulti 0 y).value x

@[simp] theorem paMulti_value (x y i : Nat) : (off.paMulti x y).value i = off.pa (x + i) y := by
  unfold pa PAHelper.value paMulti
  dsimp only
  rw [Nat.zero_add]

end GSOffset

/-! ## Columns of 32-bit pixels -/

theorem pxOffset32_row (x : Nat) : swizzleTables32.pxOffset x 0 =
    x / 64 * 2048 + blockTable32.entry 0 (x % 64 / 8) * 64 + columnTable32.entry 0 (x % 64 % 8) := rfl

theorem pxOffset32_add {x i : Nat} (aligned : x % 8 = 0) (within : i < 8) :
    swizzleTables32.pxOffset (x + i) 0 = swizzleTables32.pxOffset x 0 + columnTable32.entry 0 i := by
  have page : (x + i) / 64 = x / 64 := by omega
  have block : (x + i) % 64 / 8 = x % 64 / 8 := by omega
  have pixel : (x + i) % 64 % 8 = i := by omega
  have first : x % 64 % 8 = 0 := by omega
  have origin : columnTable32.entry 0 0 = 0 := rfl
  rw [pxOffset32_row, pxOffset32_row, page, block, pixel, first, origin, Nat.add_zero]

section

variable (bp bw blockXor : Nat)

def offset32 : GSOffset := gsOffset (gsSwizzleInfo swizzleTables32 blockXor) bp bw

theorem offset32_row (y x : Nat) :
    (offset32 bp bw blockXor).info.pixelSwizzleRow (y &&& (offset32 bp bw blockXor).info.pixelRowMask) x =
      swizzleTables32.pxOffset (x % 2048) 0 := by
  change swizzleTables32.rows (y &&& 0) x = _
  rw [Nat.and_zero]
  change (swizzleTables32.pxOffset (x % 2048) 0 : Int) - (0 : Nat) = _
  omega

theorem offset32_pa (x y : Nat) : (offset32 bp bw blockXor).pa x y =
    ((offset32 bp bw blockXor).pixelAddressZeroXRaw y + swizzleTables32.pxOffset (x % 2048) 0) ^^^ (blockXor <<< 6) := by
  unfold GSOffset.pa GSOffset.PAHelper.value GSOffset.paMulti
  dsimp only
  rw [offset32_row, Nat.zero_add, ← Int.natCast_add, Int.toNat_natCast]
  rfl

theorem offset32_base_room (y : Nat) : (offset32 bp bw blockXor).pixelAddressZeroXRaw y % 64 + 13 < 64 := by
  have corner : ∀ t < 32, swizzleTables32.pxOffset 0 t % 64 + 13 < 64 := by decide
  have within : y &&& 31 < 32 := Nat.lt_of_le_of_lt Nat.and_le_right (by decide)
  have here := corner _ within
  let pages := (y - (y &&& 31)) * (offset32 bp bw blockXor).bwPg
  have sum : (offset32 bp bw blockXor).pixelAddressZeroXRaw y =
      ((bp <<< 6 + pages <<< 6) &&& (2 ^ 20 - 1)) + swizzleTables32.pxOffset 0 (y &&& 31) := rfl
  rw [Nat.and_two_pow_sub_one_eq_mod, Nat.shiftLeft_eq, Nat.shiftLeft_eq] at sum
  omega

theorem offset32_column {x i : Nat} (y : Nat) (aligned : x % 8 = 0) (within : i < 8) :
    (offset32 bp bw blockXor).pa (x + i) y = (offset32 bp bw blockXor).pa x y + columnTable32.entry 0 i := by
  have same : (x + i) % 2048 = x % 2048 + i := by omega
  have reach : ∀ i < 8, columnTable32.entry 0 i ≤ 13 := by decide
  have room := offset32_base_room bp bw blockXor y
  have here := reach i within
  have left : swizzleTables32.pxOffset (x % 2048) 0 % 64 = 0 := by
    have first : x % 2048 % 64 % 8 = 0 := by omega
    have origin : columnTable32.entry 0 0 = 0 := rfl
    rw [pxOffset32_row, first, origin]
    omega
  rw [offset32_pa, offset32_pa, same, pxOffset32_add (by omega) within, ← Nat.add_assoc]
  apply Foundation.add_xor_of_lt
  omega

end

end Pcsx2.GsMemory
