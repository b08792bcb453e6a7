import Pcsx2.Foundation.Masks
import Mathlib.Data.List.FinRange
import Mathlib.Data.Set.Insert
import Mathlib.Data.Fintype.Basic

/-!
# Error correction codes of the memory cards

A block is 128 bytes.
-/

namespace Pcsx2.Memcard
open Foundation

abbrev Block := Fin 128 → BitVec 8

/-- The three bytes of the code of a block. -/
abbrev Ecc := BitVec 8 × BitVec 8 × BitVec 8

namespace FileMemoryCard

def parity_table : List (BitVec 8) := [
  0, 1, 1, 0, 1, 0, 0, 1, 1, 0, 0, 1, 0, 1, 1, 0, 1, 0, 0, 1, 0, 1, 1, 0, 0, 1, 1, 0, 1, 0, 0, 1, 1, 0, 0, 1,
  0, 1, 1, 0, 0, 1, 1, 0, 1, 0, 0, 1, 0, 1, 1, 0, 1, 0, 0, 1, 1, 0, 0, 1, 0, 1, 1, 0, 1, 0, 0, 1, 0, 1, 1, 0,
  0, 1, 1, 0, 1, 0, 0, 1, 0, 1, 1, 0, 1, 0, 0, 1, 1, 0, 0, 1, 0, 1, 1, 0, 0, 1, 1, 0, 1, 0, 0, 1, 1, 0, 0, 1,
  0, 1, 1, 0, 1, 0, 0, 1, 0, 1, 1, 0, 0, 1, 1, 0, 1, 0, 0, 1, 1, 0, 0, 1, 0, 1, 1, 0, 0, 1, 1, 0, 1, 0, 0, 1,
  0, 1, 1, 0, 1, 0, 0, 1, 1, 0, 0, 1, 0, 1, 1, 0, 0, 1, 1, 0, 1, 0, 0, 1, 1, 0, 0, 1, 0, 1, 1, 0, 1, 0, 0, 1,
  0, 1, 1, 0, 0, 1, 1, 0, 1, 0, 0, 1, 0, 1, 1, 0, 1, 0, 0, 1, 1, 0, 0, 1, 0, 1, 1, 0, 1, 0, 0, 1, 0, 1, 1, 0,
  0, 1, 1, 0, 1, 0, 0, 1, 1, 0, 0, 1, 0, 1, 1, 0, 0, 1, 1, 0, 1, 0, 0, 1, 0, 1, 1, 0, 1, 0, 0, 1, 1, 0, 0, 1,
  0, 1, 1, 0]

def column_parity_mask : List (BitVec 8) := [
  0, 7, 22, 17, 37, 34, 51, 52, 52, 51, 34, 37, 17, 22, 7, 0, 67, 68, 85, 82, 102, 97, 112, 119, 119, 112, 97,
  102, 82, 85, 68, 67, 82, 85, 68, 67, 119, 112, 97, 102, 102, 97, 112, 119, 67, 68, 85, 82, 17, 22, 7, 0, 52,
  51, 34, 37, 37, 34, 51, 52, 0, 7, 22, 17, 97, 102, 119, 112, 68, 67, 82, 85, 85, 82, 67, 68, 112, 119, 102,
  97, 34, 37, 52, 51, 7, 0, 17, 22, 22, 17, 0, 7, 51, 52, 37, 34, 51, 52, 37, 34, 22, 17, 0, 7, 7, 0, 17, 22,
  34, 37, 52, 51, 112, 119, 102, 97, 85, 82, 67, 68, 68, 67, 82, 85, 97, 102, 119, 112, 112, 119, 102, 97, 85,
  82, 67, 68, 68, 67, 82, 85, 97, 102, 119, 112, 51, 52, 37, 34, 22, 17, 0, 7, 7, 0, 17, 22, 34, 37, 52, 51,
  34, 37, 52, 51, 7, 0, 17, 22, 22, 17, 0, 7, 51, 52, 37, 34, 97, 102, 119, 112, 68, 67, 82, 85, 85, 82, 67,
  68, 112, 119, 102, 97, 17, 22, 7, 0, 52, 51, 34, 37, 37, 34, 51, 52, 0, 7, 22, 17, 82, 85, 68, 67, 119, 112,
  97, 102, 102, 97, 112, 119, 67, 68, 85, 82, 67, 68, 85, 82, 102, 97, 112, 119, 119, 112, 97, 102, 82, 85, 68,
  67, 0, 7, 22, 17, 37, 34, 51, 52, 52, 51, 34, 37, 17, 22, 7, 0]

structure Parities where
  column_parity : BitVec 8
  line_parity_0 : BitVec 8
  line_parity_1 : BitVec 8

def parityStep (buf : Block) (parities : Parities) (i : Fin 128) : Parities :=
  let b := buf i
  let column_parity := parities.column_parity ^^^ column_parity_mask.getD b.toNat 0
  if parity_table.getD b.toNat 0 ≠ 0 then
    ⟨column_parity, parities.line_parity_0 ^^^ ~~~BitVec.ofNat 8 i, parities.line_parity_1 ^^^ BitVec.ofNat 8 i⟩
  else { parities with column_parity := column_parity }

def CalculateECC (buf : Block) : BitVec 32 :=
  let parities := (List.finRange 128).foldl (parityStep buf) ⟨0x77, 0x7F, 0x7F⟩
  parities.column_parity.setWidth 32 ||| (parities.line_parity_0 &&& 0x7F).setWidth 32 <<< 8 |||
    parities.line_parity_1.setWidth 32 <<< 16

/-- The bytes that are written of a code. -/
def eccBytes (ecc : BitVec 32) : Ecc := (ecc.setWidth 8, (ecc >>> 8).setWidth 8, (ecc >>> 16).setWidth 8)

end FileMemoryCard

namespace FolderMemoryCard

def Table : List (BitVec 8) := [
  0x00, 0x87, 0x96, 0x11, 0xa5, 0x22, 0x33, 0xb4, 0xb4, 0x33, 0x22, 0xa5, 0x11, 0x96, 0x87, 0x00, 0xc3, 0x44,
  0x55, 0xd2, 0x66, 0xe1, 0xf0, 0x77, 0x77, 0xf0, 0xe1, 0x66, 0xd2, 0x55, 0x44, 0xc3, 0xd2, 0x55, 0x44, 0xc3,
  0x77, 0xf0, 0xe1, 0x66, 0x66, 0xe1, 0xf0, 0x77, 0xc3, 0x44, 0x55, 0xd2, 0x11, 0x96, 0x87, 0x00, 0xb4, 0x33,
  0x22, 0xa5, 0xa5, 0x22, 0x33, 0xb4, 0x00, 0x87, 0x96, 0x11, 0xe1, 0x66, 0x77, 0xf0, 0x44, 0xc3, 0xd2, 0x55,
  0x55, 0xd2, 0xc3, 0x44, 0xf0, 0x77, 0x66, 0xe1, 0x22, 0xa5, 0xb4, 0x33, 0x87, 0x00, 0x11, 0x96, 0x96, 0x11,
  0x00, 0x87, 0x33, 0xb4, 0xa5, 0x22, 0x33, 0xb4, 0xa5, 0x22, 0x96, 0x11, 0x00, 0x87, 0x87, 0x00, 0x11, 0x96,
  0x22, 0xa5, 0xb4, 0x33, 0xf0, 0x77, 0x66, 0xe1, 0x55, 0xd2, 0xc3, 0x44, 0x44, 0xc3, 0xd2, 0x55, 0xe1, 0x66,
  0x77, 0xf0, 0xf0, 0x77, 0x66, 0xe1, 0x55, 0xd2, 0xc3, 0x44, 0x44, 0xc3, 0xd2, 0x55, 0xe1, 0x66, 0x77, 0xf0,
  0x33, 0xb4, 0xa5, 0x22, 0x96, 0x11, 0x00, 0x87, 0x87, 0x00, 0x11, 0x96, 0x22, 0xa5, 0xb4, 0x33, 0x22, 0xa5,
  0xb4, 0x33, 0x87, 0x00, 0x11, 0x96, 0x96, 0x11, 0x00, 0x87, 0x33, 0xb4, 0xa5, 0x22, 0xe1, 0x66, 0x77, 0xf0,
  0x44, 0xc3, 0xd2, 0x55, 0x55, 0xd2, 0xc3, 0x44, 0xf0, 0x77, 0x66, 0xe1, 0x11, 0x96, 0x87, 0x00, 0xb4, 0x33,
  0x22, 0xa5, 0xa5, 0x22, 0x33, 0xb4, 0x00, 0x87, 0x96, 0x11, 0xd2, 0x55, 0x44, 0xc3, 0x77, 0xf0, 0xe1, 0x66,
  0x66, 0xe1, 0xf0, 0x77, 0xc3, 0x44, 0x55, 0xd2, 0xc3, 0x44, 0x55, 0xd2, 0x66, 0xe1, 0xf0, 0x77, 0x77, 0xf0,
  0xe1, 0x66, 0xd2, 0x55, 0x44, 0xc3, 0x00, 0x87, 0x96, 0x11, 0xa5, 0x22, 0x33, 0xb4, 0xb4, 0x33, 0x22, 0xa5,
  0x11, 0x96, 0x87, 0x00]

def eccStep (data : Block) (ecc : Ecc) (i : Fin 128) : Ecc :=
  let c := Table.getD (data i).toNat 0
  let column := ecc.1 ^^^ c
  if c &&& 0x80 ≠ 0 then (column, ecc.2.1 ^^^ ~~~BitVec.ofNat 8 i, ecc.2.2 ^^^ BitVec.ofNat 8 i)
  else (column, ecc.2)

def CalculateECC (data : Block) : Ecc :=
  let ecc := (List.finRange 128).foldl (eccStep data) (0, 0, 0)
  (~~~ecc.1 &&& 0x77, ~~~ecc.2.1 &&& 0x7f, ~~~ecc.2.2 &&& 0x7f)

end FolderMemoryCard

/-! ## Sums -/

def bitSum (value : Fin 8 → BitVec 8) (b : BitVec 8) : BitVec 8 :=
  xorAll (fun k : Fin 8 => if b.getLsbD k then value k else 0) (List.finRange 8)

def columnMask (k : Fin 8) : BitVec 8 := BitVec.ofNat 8 (16 * k + (7 - k))

def column (b : BitVec 8) : BitVec 8 := FileMemoryCard.column_parity_mask.getD b.toNat 0

def odd (b : BitVec 8) : Bool := FileMemoryCard.parity_table.getD b.toNat 0 ≠ 0

def lineNumber (i : Fin 128) : BitVec 8 := BitVec.ofNat 8 i

def line (value : Fin 128 → BitVec 8) (block : Block) (i : Fin 128) : BitVec 8 := if odd (block i) then value i else 0

def columns (block : Block) : BitVec 8 := xorAll (fun i => column (block i)) (List.finRange 128)

def lines (value : Fin 128 → BitVec 8) (block : Block) : BitVec 8 := xorAll (line value block) (List.finRange 128)

def code (block : Block) : Ecc :=
  (0x77 ^^^ columns block, 0x7F ^^^ lines (fun i => ~~~lineNumber i) block &&& 0x7F, 0x7F ^^^ lines lineNumber block)

variable {block : Block} {items : List (Fin 128)} {b : BitVec 8}

theorem getD_of_sums {table : List (BitVec 8)} {value : Fin 8 → BitVec 8}
    (sums : table = (List.range 256).map fun n => bitSum value (BitVec.ofNat 8 n)) (b : BitVec 8) :
    table.getD b.toNat 0 = bitSum value b := by
  have inside : b.toNat < 256 := b.isLt
  simp [sums, List.getD, List.getElem?_map, List.getElem?_range inside]

theorem tables_eq :
    FileMemoryCard.column_parity_mask = (List.range 256).map (fun n => bitSum columnMask (BitVec.ofNat 8 n)) ∧
      FileMemoryCard.parity_table = (List.range 256).map (fun n => bitSum (fun _ => 1) (BitVec.ofNat 8 n)) ∧
        FolderMemoryCard.Table = (List.range 256).map (fun n => bitSum (fun k => columnMask k ^^^ 0x80) (BitVec.ofNat 8 n)) := by
  decide +kernel

theorem column_eq (b : BitVec 8) : column b = bitSum columnMask b := getD_of_sums tables_eq.1 b

theorem parity_eq (b : BitVec 8) : FileMemoryCard.parity_table.getD b.toNat 0 = bitSum (fun _ => 1) b :=
  getD_of_sums tables_eq.2.1 b

theorem table_eq (b : BitVec 8) : FolderMemoryCard.Table.getD b.toNat 0 = bitSum (fun k => columnMask k ^^^ 0x80) b :=
  getD_of_sums tables_eq.2.2 b

theorem bitSum_const (value b : BitVec 8) :
    bitSum (fun _ => value) b = if (List.finRange 8).countP (fun k => b.getLsbD k) % 2 = 1 then value else 0 :=
  xorAll_const _ value _

theorem bitSum_and (value : Fin 8 → BitVec 8) (b mask : BitVec 8) :
    bitSum value b &&& mask = bitSum (fun k => value k &&& mask) b := by
  rw [bitSum, xorAll_and]
  refine xorAll_congr fun k _ => ?_
  split_ifs
  · rfl
  · exact BitVec.zero_and

theorem table_odd (b : BitVec 8) : FolderMemoryCard.Table.getD b.toNat 0 &&& 0x80 ≠ 0 ↔ odd b = true := by
  have masks : ∀ k, (columnMask k ^^^ 0x80) &&& 0x80 = 0x80 := by decide
  rw [table_eq, odd, parity_eq, decide_eq_true_iff, bitSum_and]
  simp only [masks, bitSum_const]
  split_ifs <;> decide

theorem table_column (b : BitVec 8) : FolderMemoryCard.Table.getD b.toNat 0 &&& 0x77 = column b := by
  have masks : ∀ k, (columnMask k ^^^ 0x80) &&& 0x77 = columnMask k := by decide
  simp only [table_eq, column_eq, bitSum_and, masks]

theorem lineNumber_mask (i : Fin 128) : lineNumber i &&& 0x7F = lineNumber i := by
  apply BitVec.eq_of_toNat_eq
  have small : i.val < 2 ^ 7 := i.isLt
  have low : i.val &&& 127 = i.val % 2 ^ 7 := Nat.and_two_pow_sub_one_eq_mod i.val 7
  simp [lineNumber, Nat.mod_eq_of_lt (small.trans (by decide : 2 ^ 7 < 256)), low, Nat.mod_eq_of_lt small]

theorem lines_mask (block : Block) : lines lineNumber block &&& 0x7F = lines lineNumber block := by
  rw [lines, xorAll_and]
  refine xorAll_congr fun i _ => ?_
  by_cases single : odd (block i) = true
  · rw [line, if_pos single, lineNumber_mask]
  · rw [line, if_neg single]
    rfl

theorem line_odd {value : Fin 128 → BitVec 8} {i : Fin 128} (single : odd (block i) = true) : line value block i = value i :=
  if_pos single

theorem line_even {value : Fin 128 → BitVec 8} {i : Fin 128} (even : ¬odd (block i) = true) (l : BitVec 8) :
    l ^^^ line value block i = l := by
  rw [line, if_neg even]
  exact BitVec.xor_zero

theorem foldl_parityStep (c l₀ l₁ : BitVec 8) : items.foldl (FileMemoryCard.parityStep block) ⟨c, l₀, l₁⟩ =
    ⟨c ^^^ xorAll (fun i => column (block i)) items, l₀ ^^^ xorAll (line (fun i => ~~~lineNumber i) block) items,
      l₁ ^^^ xorAll (line lineNumber block) items⟩ := by
  induction items generalizing c l₀ l₁ with
  | nil => simp [xorAll]
  | cons i items ih =>
      have step : FileMemoryCard.parityStep block ⟨c, l₀, l₁⟩ i = ⟨c ^^^ column (block i),
          l₀ ^^^ line (fun i => ~~~lineNumber i) block i, l₁ ^^^ line lineNumber block i⟩ := by
        by_cases single : odd (block i) = true
        · have bit := of_decide_eq_true single
          simp only [FileMemoryCard.parityStep, if_pos bit, line_odd single, column, lineNumber]
        · have bit := of_decide_eq_false (Bool.eq_false_iff.2 single)
          simp only [FileMemoryCard.parityStep, if_neg bit, line_even single, column]
      rw [List.foldl_cons, step, ih, xorAll_cons, xorAll_cons, xorAll_cons, BitVec.xor_assoc, BitVec.xor_assoc, BitVec.xor_assoc]

theorem foldl_eccStep (c l₀ l₁ : BitVec 8) : items.foldl (FolderMemoryCard.eccStep block) (c, l₀, l₁) =
    (c ^^^ xorAll (fun i => FolderMemoryCard.Table.getD (block i).toNat 0) items,
      l₀ ^^^ xorAll (line (fun i => ~~~lineNumber i) block) items, l₁ ^^^ xorAll (line lineNumber block) items) := by
  induction items generalizing c l₀ l₁ with
  | nil => simp [xorAll]
  | cons i items ih =>
      have step : FolderMemoryCard.eccStep block (c, l₀, l₁) i = (c ^^^ FolderMemoryCard.Table.getD (block i).toNat 0,
          l₀ ^^^ line (fun i => ~~~lineNumber i) block i, l₁ ^^^ line lineNumber block i) := by
        by_cases single : odd (block i) = true
        · have bit := (table_odd (block i)).2 single
          simp only [FolderMemoryCard.eccStep, if_pos bit, line_odd single, lineNumber]
        · have bit : ¬FolderMemoryCard.Table.getD (block i).toNat 0 &&& 0x80 ≠ 0 := fun bit => single ((table_odd _).1 bit)
          simp only [FolderMemoryCard.eccStep, if_neg bit, line_even single]
      rw [List.foldl_cons, step, ih, xorAll_cons, xorAll_cons, xorAll_cons, BitVec.xor_assoc, BitVec.xor_assoc, BitVec.xor_assoc]

theorem not_and (x mask : BitVec 8) : ~~~x &&& mask = mask ^^^ (x &&& mask) := by
  ext i hi
  cases here : x[i] <;> cases kept : mask[i] <;> simp [here, kept]

theorem eccBytes_eq (a b c : BitVec 8) :
    FileMemoryCard.eccBytes (a.setWidth 32 ||| b.setWidth 32 <<< 8 ||| c.setWidth 32 <<< 16) = (a, b, c) := by
  have byte (i : Nat) (hi : i < 8) : 8 + i < 32 ∧ 16 + i < 32 ∧ ¬8 + i < 8 ∧ ¬16 + i < 16 ∧ 8 + i < 16 ∧ 16 + i - 8 = 8 + i := by omega
  refine Prod.ext ?_ (Prod.ext ?_ ?_)
  · ext i hi
    simp [FileMemoryCard.eccBytes]
  · ext i hi
    simp [FileMemoryCard.eccBytes, hi, byte i hi]
  · ext i hi
    simp [FileMemoryCard.eccBytes, hi, byte i hi, BitVec.getLsbD_of_ge a (16 + i) (by omega)]

theorem FileMemoryCard.calculateECC_eq (block : Block) : eccBytes (CalculateECC block) = code block := by
  have mask : (0x7F ^^^ lines (fun i => ~~~lineNumber i) block) &&& 0x7F = 0x7F ^^^ lines (fun i => ~~~lineNumber i) block &&& 0x7F := by
    rw [and_xor]
    rfl
  rw [CalculateECC, foldl_parityStep, ← columns, ← lines, ← lines, mask]
  exact eccBytes_eq _ _ _

theorem FolderMemoryCard.calculateECC_eq (block : Block) : CalculateECC block = code block := by
  have sum : xorAll (fun i => Table.getD (block i).toNat 0) (List.finRange 128) &&& 0x77 = columns block := by
    rw [xorAll_and]
    exact xorAll_congr fun i _ => table_column (block i)
  have zero (x : BitVec 8) : 0 ^^^ x = x := BitVec.zero_xor
  rw [CalculateECC, foldl_eccStep, ← lines, ← lines]
  simp only [zero, not_and, sum, lines_mask, code]

theorem calculateECC_same (block : Block) :
    FileMemoryCard.eccBytes (FileMemoryCard.CalculateECC block) = FolderMemoryCard.CalculateECC block := by
  rw [FileMemoryCard.calculateECC_eq, FolderMemoryCard.calculateECC_eq]

/-! ## Differences -/

/-- A bit of a block: the number of its byte and its number in the byte. -/
abbrev Bit := Fin 128 × Fin 8

def bitAt (block : Block) (bit : Bit) : Bool := (block bit.1).getLsbD bit.2

/-- The bits in which two blocks differ. -/
def differences (a b : Block) : Set Bit := {bit | bitAt a bit ≠ bitAt b bit}

/-- The exclusive or of two codes. -/
def syndrome (x y : Ecc) : Ecc := (x.1 ^^^ y.1, x.2.1 ^^^ y.2.1, x.2.2 ^^^ y.2.2)

def flip (block : Block) (bit : Bit) : Block :=
  Function.update block bit.1 (block bit.1 ^^^ 1#8 <<< bit.2.val)

def signature (bit : Bit) : Ecc := (columnMask bit.2, ~~~lineNumber bit.1 &&& 0x7F, lineNumber bit.1)

theorem getLsbD_flip (b : BitVec 8) (bit k : Fin 8) :
    (b ^^^ 1#8 <<< bit.val).getLsbD k = if k = bit then !b.getLsbD k else b.getLsbD k := by
  have single : (1#8 <<< bit.val).getLsbD k = decide (k = bit) := by
    revert bit k
    decide
  rw [BitVec.getLsbD_xor, single]
  by_cases same : k = bit <;> simp [same]

theorem bitSum_flip (value : Fin 8 → BitVec 8) (b : BitVec 8) (bit : Fin 8) :
    bitSum value b ^^^ bitSum value (b ^^^ 1#8 <<< bit.val) = value bit := by
  have here : (if b.getLsbD bit then value bit else 0) ^^^
      (if (b ^^^ 1#8 <<< bit.val).getLsbD bit then value bit else 0) = value bit := by
    rw [getLsbD_flip, if_pos rfl]
    cases b.getLsbD bit
    · exact BitVec.zero_xor
    · exact BitVec.xor_zero
  rw [← here]
  refine xorAll_change (List.nodup_finRange 8) (List.mem_finRange bit) fun k other => ?_
  rw [getLsbD_flip, if_neg other]

theorem column_flip (b : BitVec 8) (bit : Fin 8) : column b ^^^ column (b ^^^ 1#8 <<< bit.val) = columnMask bit := by
  rw [column_eq, column_eq, bitSum_flip]

theorem odd_flip (b : BitVec 8) (bit : Fin 8) : odd (b ^^^ 1#8 <<< bit.val) = !odd b := by
  have change := bitSum_flip (fun _ => 1) b bit
  have values : ∀ b, bitSum (fun _ => 1) b = 0 ∨ bitSum (fun _ => 1) b = 1 := by
    intro b
    rw [bitSum_const]
    split_ifs <;> simp
  rw [odd, odd, parity_eq, parity_eq]
  rcases values b with even | single <;> rcases values (b ^^^ 1#8 <<< bit.val) with even' | single' <;> simp_all

theorem line_flip (value : Fin 128 → BitVec 8) (block : Block) (bit : Bit) :
    line value block bit.1 ^^^ line value (flip block bit) bit.1 = value bit.1 := by
  cases single : odd (block bit.1) <;> simp [line, flip, odd_flip, single]

theorem flip_other {i : Fin 128} {bit : Bit} (other : i ≠ bit.1) : flip block bit i = block i :=
  Function.update_of_ne other _ _

theorem lines_flip (value : Fin 128 → BitVec 8) (block : Block) (bit : Bit) :
    lines value block ^^^ lines value (flip block bit) = value bit.1 := by
  rw [← line_flip value block bit]
  refine xorAll_change (List.nodup_finRange 128) (List.mem_finRange bit.1) fun i other => ?_
  rw [line, line, flip_other other]

theorem columns_flip (block : Block) (bit : Bit) : columns block ^^^ columns (flip block bit) = columnMask bit.2 := by
  have here : column (block bit.1) ^^^ column (flip block bit bit.1) = columnMask bit.2 := by
    rw [flip, Function.update_self, column_flip]
  rw [← here]
  refine xorAll_change (List.nodup_finRange 128) (List.mem_finRange bit.1) fun i other => ?_
  rw [flip_other other]

theorem xor_xor_cancel (c a b : BitVec 8) : c ^^^ a ^^^ (c ^^^ b) = a ^^^ b := by
  rw [BitVec.xor_comm c, BitVec.xor_assoc, ← BitVec.xor_assoc c, BitVec.xor_self, BitVec.zero_xor]

theorem syndrome_flip (block : Block) (bit : Bit) : syndrome (code block) (code (flip block bit)) = signature bit := by
  simp only [syndrome, code, xor_xor_cancel, columns_flip, lines_flip, ← and_xor, signature]

theorem syndrome_trans (x y z : Ecc) : syndrome (syndrome x y) (syndrome y z) = syndrome x z := by
  have cancel (a b c : BitVec 8) : a ^^^ b ^^^ (b ^^^ c) = a ^^^ c := by
    rw [BitVec.xor_comm a, xor_xor_cancel]
  simp only [syndrome, cancel]

theorem bitAt_flip (block : Block) (bit bit' : Bit) :
    bitAt (flip block bit) bit' = if bit' = bit then !bitAt block bit' else bitAt block bit' := by
  obtain ⟨i, k⟩ := bit
  obtain ⟨j, l⟩ := bit'
  by_cases byte : j = i
  · subst byte
    have pairs : ((j, l) = (j, k)) = (l = k) := by simp
    simp only [bitAt, flip, Function.update_self, getLsbD_flip, pairs]
  · have other : (j, l) ≠ (i, k) := fun same => byte (congrArg Prod.fst same)
    have kept : flip block (i, k) j = block j := flip_other byte
    rw [if_neg other, bitAt, bitAt, kept]

theorem eq_of_differences {a b : Block} (none : differences a b = ∅) : a = b := by
  funext i
  apply BitVec.eq_of_getLsbD_eq
  intro k hk
  by_contra other
  have mem : (i, ⟨k, hk⟩) ∈ differences a b := other
  rw [none] at mem
  exact mem

theorem differences_flip {a b : Block} {bit : Bit} (mem : bit ∈ differences a b) :
    differences (flip a bit) b = differences a b \ {bit} := by
  ext bit'
  have differ : bitAt a bit ≠ bitAt b bit := mem
  rw [Set.mem_sdiff, Set.mem_singleton_iff]
  change bitAt (flip a bit) bit' ≠ bitAt b bit' ↔ bitAt a bit' ≠ bitAt b bit' ∧ ¬bit' = bit
  rw [bitAt_flip]
  by_cases same : bit' = bit
  · subst same
    cases here : bitAt a bit' <;> cases there : bitAt b bit' <;> simp [here, there] at differ ⊢
  · simp [same]

theorem eq_flip {a b : Block} {bit : Bit} (single : differences a b = {bit}) : b = flip a bit := by
  have mem : bit ∈ differences a b := by rw [single]; rfl
  have none : differences (flip a bit) b = ∅ := by
    rw [differences_flip mem, single, Set.sdiff_self]
  exact (eq_of_differences none).symm

theorem syndrome_single {a b : Block} {bit : Bit} (single : differences a b = {bit}) :
    syndrome (code a) (code b) = signature bit := by
  rw [eq_flip single, syndrome_flip]

theorem syndrome_double {a b : Block} {bit bit' : Bit} (different : bit ≠ bit') (double : differences a b = {bit, bit'}) :
    syndrome (code a) (code b) = syndrome (signature bit) (signature bit') := by
  have mem : bit ∈ differences a b := by rw [double]; exact Set.mem_insert bit _
  have apart : bit ∉ ({bit'} : Set Bit) := fun same => different (Set.mem_singleton_iff.1 same)
  have left : differences (flip a bit) b = {bit'} := by
    rw [differences_flip mem, double, Set.insert_sdiff_self_of_notMem apart]
  rw [← syndrome_trans _ (code (flip a bit)), syndrome_flip, syndrome_single left]

/-! ## The law -/

theorem lineNumber_injective : Function.Injective lineNumber := by
  intro i i' same
  have values := congrArg BitVec.toNat same
  have inside := i.isLt
  have inside' := i'.isLt
  simp only [lineNumber, BitVec.toNat_ofNat] at values
  omega

theorem columnMask_injective : Function.Injective columnMask := by decide

theorem signature_injective : Function.Injective signature := by
  intro bit bit' same
  have columns_eq : columnMask bit.2 = columnMask bit'.2 := congrArg Prod.fst same
  have lines_eq : lineNumber bit.1 = lineNumber bit'.1 := congrArg (fun x : Ecc => x.2.2) same
  exact Prod.ext (lineNumber_injective lines_eq) (columnMask_injective columns_eq)

theorem signature_lines (bit : Bit) : (signature bit).2.1 ^^^ (signature bit).2.2 = 0x7F := by
  have all (number mask : BitVec 8) (inside : number &&& mask = number) : ~~~number &&& mask ^^^ number = mask := by
    ext k hk
    have bit := congrArg (fun b => b[k]) inside
    simp only [BitVec.getElem_and] at bit
    simp only [BitVec.getElem_xor, BitVec.getElem_and, BitVec.getElem_not]
    cases number_bit : number[k] <;> cases mask_bit : mask[k] <;> simp_all
  exact all _ _ (lineNumber_mask bit.1)

theorem double_lines (bit bit' : Bit) :
    (syndrome (signature bit) (signature bit')).2.1 ^^^ (syndrome (signature bit) (signature bit')).2.2 = 0 := by
  have swap (a b x y : BitVec 8) : a ^^^ b ^^^ (x ^^^ y) = a ^^^ x ^^^ (b ^^^ y) := by
    ext i hi
    simp only [BitVec.getElem_xor]
    cases a[i] <;> cases b[i] <;> cases x[i] <;> cases y[i] <;> rfl
  rw [syndrome, swap, signature_lines, signature_lines]
  rfl

/-- The cards give the same code, a single bit is told by the syndrome, and two bits are told from none and from one. -/
theorem ecc_law (a b : Block) : FileMemoryCard.eccBytes (FileMemoryCard.CalculateECC a) = FolderMemoryCard.CalculateECC a ∧
    (∀ bit, differences a b = {bit} → ∀ a' b' bit', differences a' b' = {bit'} →
      syndrome (FolderMemoryCard.CalculateECC a) (FolderMemoryCard.CalculateECC b) =
        syndrome (FolderMemoryCard.CalculateECC a') (FolderMemoryCard.CalculateECC b') → bit = bit') ∧
    ((∃ bit bit', bit ≠ bit' ∧ differences a b = {bit, bit'}) → FolderMemoryCard.CalculateECC a ≠ FolderMemoryCard.CalculateECC b ∧
      ∀ a' b' bit', differences a' b' = {bit'} →
        syndrome (FolderMemoryCard.CalculateECC a) (FolderMemoryCard.CalculateECC b) ≠
          syndrome (FolderMemoryCard.CalculateECC a') (FolderMemoryCard.CalculateECC b')) := by
  refine ⟨calculateECC_same a, fun bit single a' b' bit' single' same => ?_, fun double => ?_⟩
  · simp only [FolderMemoryCard.calculateECC_eq, syndrome_single single, syndrome_single single'] at same
    exact signature_injective same
  · obtain ⟨bit, bit', different, both⟩ := double
    simp only [FolderMemoryCard.calculateECC_eq]
    have told := syndrome_double different both
    constructor
    · intro same
      have zero : syndrome (signature bit) (signature bit') = (0, 0, 0) := by
        rw [← told, same]
        simp [syndrome]
      refine different (signature_injective ?_)
      simp only [syndrome, Prod.mk.injEq] at zero
      exact Prod.ext (BitVec.xor_eq_zero_iff.1 zero.1) (Prod.ext (BitVec.xor_eq_zero_iff.1 zero.2.1) (BitVec.xor_eq_zero_iff.1 zero.2.2))
    · intro a' b' single single_eq same
      have lines_zero := double_lines bit bit'
      rw [← told, same, syndrome_single single_eq, signature_lines] at lines_zero
      exact absurd lines_zero (by decide)

end Pcsx2.Memcard
