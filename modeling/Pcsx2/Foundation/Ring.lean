import Pcsx2.Foundation.Memory

/-!
# Ring buffers and what was ever written to them

Blocks go in and out of a ring in two pieces, the second at the ring's start. A ring of some
capacity keeps that many of the elements last written.
-/

namespace Pcsx2.Foundation

variable {α : Type*}

def copyIn (capacity : Nat) (data : Nat → α) (pos : Nat) (words : List α) : Nat → α :=
  let first := min (capacity - pos) words.length
  perform (perform data (blockStores pos (words.take first))) (blockStores 0 (words.drop first))

def copyOut (capacity : Nat) (data : Nat → α) (pos n : Nat) : List α :=
  let first := min (capacity - pos) n
  load data pos first ++ load data 0 (n - first)

theorem mod_of_wrapped {capacity x : Nat} (past : capacity ≤ x) (once : x < 2 * capacity) :
    x % capacity = x - capacity := by
  rw [Nat.mod_eq_sub_mod past, Nat.mod_eq_of_lt (by omega)]

section

variable {capacity pos : Nat} (data : Nat → α) (words : List α)

theorem copyIn_inside (start : pos < capacity) (fits : words.length ≤ capacity) (i : Nat)
    (inside : i < words.length) : copyIn capacity data pos words ((pos + i) % capacity) = words[i] := by
  unfold copyIn
  by_cases wraps : pos + i < capacity
  · rw [Nat.mod_eq_of_lt wraps, perform_blockStores_of_ge (by rw [List.length_drop]; omega),
      perform_blockStores _ _ _ _ (by rw [List.length_take]; omega), List.getElem_take]
  · have second : pos + i - capacity < (words.drop (min (capacity - pos) words.length)).length := by
      rw [List.length_drop]
      omega
    have stored := perform_blockStores
      (perform data (blockStores pos (words.take (min (capacity - pos) words.length)))) 0 _ _ second
    rw [Nat.zero_add] at stored
    rw [mod_of_wrapped (by omega) (by omega), stored, List.getElem_drop]
    congr 1
    omega

theorem copyIn_outside (start : pos < capacity) (j : Nat)
    (below : j < capacity) (apart : ∀ i < words.length, (pos + i) % capacity ≠ j) :
    copyIn capacity data pos words j = data j := by
  unfold copyIn
  have second : (words.drop (min (capacity - pos) words.length)).length ≤ j := by
    rw [List.length_drop]
    by_contra low
    refine apart (capacity - pos + j) (by omega) ?_
    rw [mod_of_wrapped (by omega) (by omega)]
    omega
  rw [perform_blockStores_of_ge (by omega)]
  rcases Nat.lt_or_ge j pos with before | after
  · exact perform_blockStores_of_lt before
  · refine perform_blockStores_of_ge ?_
    rw [List.length_take]
    by_contra high
    refine apart (j - pos) (by omega) ?_
    rw [Nat.mod_eq_of_lt (by omega)]
    omega

end

/-! ## The elements that are kept -/

/-- The cells hold the last elements of the history, each at its position modulo the capacity. -/
def Keeps (capacity : Nat) (data : Nat → α) (history : List α) : Prop :=
  ∀ i (inside : i < history.length), history.length ≤ i + capacity → data (i % capacity) = history[i]

namespace Keeps

variable {capacity : Nat} {data : Nat → α} {history : List α}

theorem nil : Keeps capacity data [] := fun _ inside => absurd inside (Nat.not_lt_zero _)

theorem cells_apart {i j : Nat} (less : i < j) (near : j < i + capacity) : i % capacity ≠ j % capacity := by
  intro same
  have multiple : capacity ∣ j - i := Nat.dvd_of_mod_eq_zero (Nat.sub_mod_eq_zero_of_mod_eq same.symm)
  have := Nat.le_of_dvd (by omega) multiple
  omega

theorem copyIn (keeps : Keeps capacity data history) (positive : 0 < capacity) (words : List α)
    (fits : words.length ≤ capacity) :
    Keeps capacity (copyIn capacity data (history.length % capacity) words) (history ++ words) := by
  intro i inside recent
  have start := Nat.mod_lt history.length positive
  rw [List.length_append] at inside recent
  rcases Nat.lt_or_ge i history.length with old | new
  · rw [List.getElem_append_left old, copyIn_outside data words start _ (Nat.mod_lt _ positive)]
    · exact keeps i old (by omega)
    · intro k below
      rw [Nat.mod_add_mod]
      exact (cells_apart (by omega) (by omega)).symm
  · have cell := copyIn_inside data words start fits (i - history.length) (by omega)
    rw [Nat.mod_add_mod, Nat.add_sub_cancel' new] at cell
    rw [cell, List.getElem_append_right new]

theorem update (keeps : Keeps capacity data history) (x : α) :
    Keeps capacity (Function.update data (history.length % capacity) x) (history ++ [x]) := by
  intro i inside recent
  rw [List.length_append, List.length_singleton] at inside recent
  rcases Nat.lt_or_ge i history.length with old | new
  · rw [List.getElem_append_left old, Function.update_of_ne (cells_apart (by omega) (by omega))]
    exact keeps i old (by omega)
  · obtain rfl : i = history.length := by omega
    rw [Function.update_self, List.getElem_concat_length rfl]

theorem copyOut (keeps : Keeps capacity data history) (positive : 0 < capacity) (taken n : Nat)
    (inside : taken + n ≤ history.length) (recent : history.length ≤ taken + capacity) :
    copyOut capacity data (taken % capacity) n = (history.drop taken).take n := by
  have start := Nat.mod_lt taken positive
  unfold Foundation.copyOut
  refine List.ext_getElem (by simp only [List.length_append, load_length, List.length_take, List.length_drop]; omega) ?_
  intro i left right
  rw [List.length_append, load_length, load_length] at left
  rw [List.getElem_take, List.getElem_drop, ← keeps (taken + i) (by omega) (by omega), ← Nat.mod_add_mod]
  rcases Nat.lt_or_ge i (min (capacity - taken % capacity) n) with first | second
  · rw [List.getElem_append_left (by rw [load_length]; exact first), load_getElem,
      Nat.mod_eq_of_lt (a := taken % capacity + i) (by omega)]
  · have wrapped : (taken % capacity + i) % capacity = taken % capacity + i - capacity :=
      mod_of_wrapped (by omega) (by omega)
    rw [List.getElem_append_right (by rw [load_length]; exact second), load_getElem, load_length, wrapped]
    congr 1
    omega

end Keeps

end Pcsx2.Foundation
