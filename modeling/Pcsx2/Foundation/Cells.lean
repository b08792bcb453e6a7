import Mathlib.Algebra.Order.Ring.Int
import Mathlib.Data.List.Basic

/-!
# Blocks of memory

A block is a list of cells. An access that is not within it has no result.
-/

namespace Pcsx2.Foundation

variable {β : Type*}

def loadCells (block : List β) (pos : Int) (n : Nat) : Option (List β) :=
  if 0 ≤ pos ∧ pos.toNat + n ≤ block.length then some ((block.drop pos.toNat).take n) else none

def storeCells (block : List β) (pos : Int) (data : List β) : Option (List β) :=
  if 0 ≤ pos ∧ pos.toNat + data.length ≤ block.length then
    some (block.take pos.toNat ++ data ++ block.drop (pos.toNat + data.length))
  else none

def fillCells (block : List β) (pos : Int) (n : Nat) (cell : β) : Option (List β) :=
  if 0 ≤ pos ∧ pos.toNat + n ≤ block.length then storeCells block pos (List.replicate n cell) else none

def regrow (block : List β) (n : Nat) (cell : β) : List β := block.take n ++ List.replicate (n - block.length) cell

variable {block data : List β} (first middle last : List β) {pos : Int} {n k : Nat} (cell : β)

theorem loadCells_nat (inside : k + n ≤ block.length) : loadCells block k n = some ((block.drop k).take n) := by
  rw [loadCells, if_pos ⟨Int.natCast_nonneg k, by simpa using inside⟩, Int.toNat_natCast]

theorem loadCells_append (here : pos = first.length) (count : n = middle.length) :
    loadCells (first ++ (middle ++ last)) pos n = some middle := by
  subst here count
  rw [loadCells_nat (by simp only [List.length_append]; omega), List.drop_left, List.take_left]

theorem storeCells_nat (inside : k + data.length ≤ block.length) :
    storeCells block k data = some (block.take k ++ data ++ block.drop (k + data.length)) := by
  rw [storeCells, if_pos ⟨Int.natCast_nonneg k, by simpa using inside⟩, Int.toNat_natCast]

theorem storeCells_append (here : pos = first.length) (count : data.length = middle.length) :
    storeCells (first ++ (middle ++ last)) pos data = some (first ++ (data ++ last)) := by
  subst here
  have inside : first.length + data.length ≤ (first ++ (middle ++ last)).length := by
    simp only [List.length_append]
    omega
  rw [storeCells_nat inside, List.take_left, count, ← List.drop_drop, List.drop_left, List.drop_left, List.append_assoc]

theorem loadCells_front (inside : k + n ≤ first.length) : loadCells (first ++ last) k n = some ((first.drop k).take n) := by
  have shorter : n ≤ (first.drop k).length := by
    rw [List.length_drop]
    omega
  rw [loadCells_nat (by rw [List.length_append]; omega), List.drop_append_of_le_length (by omega),
    List.take_append_of_le_length shorter]

theorem storeCells_up (here : pos = first.length + n) (room : n ≤ last.length) : ∃ gap rest,
    storeCells (first ++ (middle ++ last)) pos middle = some (first ++ (gap ++ (middle ++ rest))) ∧ gap.length = n ∧
      n + rest.length = last.length := by
  have parts : middle ++ last = (middle ++ last).take n ++
      (((middle ++ last).drop n).take middle.length ++ ((middle ++ last).drop n).drop middle.length) := by
    rw [List.take_append_drop, List.take_append_drop]
  have gap : ((middle ++ last).take n).length = n := by
    rw [List.length_take, List.length_append]
    omega
  have moved : middle.length = (((middle ++ last).drop n).take middle.length).length := by
    simp only [List.length_take, List.length_drop, List.length_append]
    omega
  refine ⟨(middle ++ last).take n, ((middle ++ last).drop n).drop middle.length, ?_, gap, ?_⟩
  · rw [← List.append_assoc first ((middle ++ last).take n), ← storeCells_append _ _ _ _ moved, List.append_assoc first, ← parts]
    rw [here, List.length_append, gap, Int.natCast_add]
  · simp only [List.length_drop, List.length_append]
    omega

theorem length_loadCells {data : List β} (loaded : loadCells block pos n = some data) : data.length = n := by
  rw [loadCells] at loaded
  split_ifs at loaded with inside
  obtain rfl := Option.some.inj loaded
  rw [List.length_take, List.length_drop]
  omega

theorem regrow_append (fits : first.length ≤ n) : ∃ rest, regrow (first ++ last) n cell = first ++ rest ∧
    first.length + rest.length = n := by
  refine ⟨last.take (n - first.length) ++ List.replicate (n - (first ++ last).length) cell, ?_, ?_⟩
  · rw [regrow, List.take_append, List.take_of_length_le fits, List.append_assoc]
  · simp only [List.length_append, List.length_take, List.length_replicate]
    omega

end Pcsx2.Foundation

/-!
# Files that can be written anywhere

A write behind the end leaves a gap that is filled up.
-/

namespace Pcsx2.Foundation

variable {α : Type*} (filler : α) {file xs ys : List α} {pos i n : Nat} {x : α}

def put (file : List α) (pos : Nat) (x : α) : List α :=
  if pos < file.length then file.set pos x else file ++ List.replicate (pos - file.length) filler ++ [x]

def puts : List α → Nat → List α → List α
  | file, _, [] => file
  | file, pos, x :: xs => puts (put filler file pos x) (pos + 1) xs

theorem length_put : (put filler file pos x).length = max file.length (pos + 1) := by
  unfold put
  split
  · rw [List.length_set]
    omega
  · simp only [List.length_append, List.length_replicate, List.length_singleton]
    omega

theorem put_self : (put filler file pos x)[pos]? = some x := by
  unfold put
  split
  · rename_i inside
    simp [inside]
  · rename_i outside
    have behind : (file ++ List.replicate (pos - file.length) filler).length = pos := by
      simp only [List.length_append, List.length_replicate]
      omega
    rw [List.getElem?_append_right (Nat.le_of_eq behind), behind]
    simp

theorem put_other (elsewhere : i ≠ pos) (inside : i < file.length) : (put filler file pos x)[i]? = file[i]? := by
  unfold put
  split
  · rw [List.getElem?_set_ne elsewhere.symm]
  · rw [List.append_assoc, List.getElem?_append_left inside]

theorem length_puts (some_items : xs ≠ []) : (puts filler file pos xs).length = max file.length (pos + xs.length) := by
  induction xs generalizing file pos with
  | nil => exact absurd rfl some_items
  | cons x xs ih =>
      cases xs with
      | nil => simp [puts, length_put]
      | cons y xs =>
          rw [puts, ih (List.cons_ne_nil _ _), length_put]
          simp only [List.length_cons]
          omega

theorem puts_other (inside : i < file.length) (elsewhere : i < pos ∨ pos + xs.length ≤ i) :
    (puts filler file pos xs)[i]? = file[i]? := by
  induction xs generalizing file pos with
  | nil => rfl
  | cons x xs ih =>
      rw [List.length_cons] at elsewhere
      have longer : i < (put filler file pos x).length := by
        rw [length_put]
        omega
      rw [puts, ih longer (by omega), put_other filler (by omega) inside]

theorem puts_inside (inside : i < xs.length) : (puts filler file pos xs)[pos + i]? = xs[i]? := by
  induction xs generalizing file pos i with
  | nil => exact absurd inside (Nat.not_lt_zero i)
  | cons x xs ih =>
      rw [puts]
      cases i with
      | zero =>
          have written : pos < (put filler file pos x).length := by
            rw [length_put]
            omega
          show (puts filler (put filler file pos x) (pos + 1) xs)[pos]? = some x
          rw [puts_other filler written (.inl (Nat.lt_add_one pos)), put_self]
      | succ i =>
          rw [← Nat.add_assoc, Nat.add_right_comm, ih (Nat.lt_of_succ_lt_succ inside)]
          rfl

def slice (file : List α) (pos n : Nat) : List α := (file.drop pos).take n

theorem length_slice : (slice file pos n).length = min n (file.length - pos) := by
  rw [slice, List.length_take, List.length_drop]

theorem slice_puts : slice (puts filler file pos xs) pos xs.length = xs := by
  apply List.ext_getElem?
  intro i
  rw [slice]
  by_cases inside : i < xs.length
  · rw [List.getElem?_take_of_lt inside, List.getElem?_drop, puts_inside filler inside]
  · rw [List.getElem?_eq_none (by rw [List.length_take]; omega), List.getElem?_eq_none (Nat.le_of_not_lt inside)]

theorem slice_puts_other (inside : i + n ≤ file.length) (elsewhere : i + n ≤ pos ∨ pos + xs.length ≤ i) :
    slice (puts filler file pos xs) i n = slice file i n := by
  apply List.ext_getElem?
  intro k
  simp only [slice, List.getElem?_take, List.getElem?_drop]
  split
  · exact puts_other filler (by omega) (by omega)
  · rfl

end Pcsx2.Foundation
