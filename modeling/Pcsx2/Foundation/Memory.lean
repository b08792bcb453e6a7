import Mathlib.Algebra.Group.Nat.Defs
import Mathlib.Algebra.Order.Ring.Int
import Mathlib.Algebra.Order.Ring.Nat
import Mathlib.Data.List.Basic
import Mathlib.Data.List.Range
import Mathlib.Logic.Function.Basic

namespace Pcsx2.Foundation

variable {α : Type*}

/-! ## Stores -/

/-- Perform stores of single cells, first to last. -/
def perform (m : Nat → α) (stores : List (Nat × α)) : Nat → α :=
  stores.foldl (fun m s => Function.update m s.1 s.2) m

@[simp] theorem perform_nil (m : Nat → α) : perform m [] = m := rfl

@[simp] theorem perform_cons (m : Nat → α) (s : Nat × α) (stores : List (Nat × α)) :
    perform m (s :: stores) = perform (Function.update m s.1 s.2) stores := rfl

theorem perform_append (m : Nat → α) (first second : List (Nat × α)) :
    perform m (first ++ second) = perform (perform m first) second :=
  List.foldl_append

variable {m : Nat → α}

theorem perform_of_not_mem {stores : List (Nat × α)} {a : Nat}
    (untouched : ∀ s ∈ stores, s.1 ≠ a) : perform m stores a = m a := by
  induction stores generalizing m with
  | nil => rfl
  | cons s stores ih =>
      rw [perform_cons, ih fun t member => untouched t (List.mem_cons_of_mem _ member)]
      exact Function.update_of_ne (untouched s List.mem_cons_self).symm _ _

theorem perform_apply (m : Nat → α) (stores : List (Nat × α)) (a : Nat) :
    perform m stores a = (stores.reverse.lookup a).getD (m a) := by
  induction stores using List.reverseRecOn generalizing m with
  | nil => rfl
  | append_singleton stores s ih =>
      rw [perform_append, perform_cons, perform_nil, List.reverse_append, List.reverse_singleton,
        List.singleton_append]
      by_cases here : a = s.1
      · rw [here, Function.update_self, List.lookup_cons_self]
        rfl
      · rw [Function.update_of_ne here, ih, List.lookup_cons, beq_false_of_ne here]

def blockStores : Nat → List α → List (Nat × α)
  | _, [] => []
  | a, x :: xs => (a, x) :: blockStores (a + 1) xs

@[simp] theorem blockStores_length (a : Nat) (xs : List α) :
    (blockStores a xs).length = xs.length := by
  induction xs generalizing a with
  | nil => rfl
  | cons x xs ih => simp [blockStores, ih]

variable {xs : List α}

theorem blockStores_bounds {a : Nat} {s : Nat × α}
    (member : s ∈ blockStores a xs) : a ≤ s.1 ∧ s.1 < a + xs.length := by
  induction xs generalizing a with
  | nil => simp [blockStores] at member
  | cons x xs ih =>
      rcases List.mem_cons.1 member with rfl | member
      · simp
      · have := ih member
        simp only [List.length_cons]
        omega

theorem perform_blockStores (m : Nat → α) (a : Nat) (xs : List α) (i : Nat)
    (bound : i < xs.length) : perform m (blockStores a xs) (a + i) = xs[i] := by
  induction xs generalizing m a i with
  | nil => simp at bound
  | cons x xs ih =>
      rw [blockStores, perform_cons]
      cases i with
      | zero =>
          rw [perform_of_not_mem fun s member => by have := blockStores_bounds member; omega]
          simp
      | succ i =>
          have shifted : a + (i + 1) = (a + 1) + i := by omega
          rw [shifted, ih _ _ _ (by simpa using bound)]
          rfl

theorem perform_blockStores_of_lt {a b : Nat} (below : b < a) :
    perform m (blockStores a xs) b = m b :=
  perform_of_not_mem fun s member => by have := blockStores_bounds member; omega

theorem perform_blockStores_of_ge {a b : Nat}
    (above : a + xs.length ≤ b) : perform m (blockStores a xs) b = m b :=
  perform_of_not_mem fun s member => by have := blockStores_bounds member; omega

/-! ## Loads -/

/-- The contents of `n` consecutive cells. -/
def load (m : Nat → α) (a n : Nat) : List α :=
  (List.range n).map fun i => m (a + i)

@[simp] theorem load_zero (m : Nat → α) (a : Nat) : load m a 0 = [] := rfl

@[simp] theorem load_length (m : Nat → α) (a n : Nat) : (load m a n).length = n := by
  simp [load]

@[simp] theorem load_getElem (m : Nat → α) (a n i : Nat) (bound : i < (load m a n).length) :
    (load m a n)[i] = m (a + i) := by
  simp [load]

theorem load_succ (m : Nat → α) (a n : Nat) : load m a (n + 1) = load m a n ++ [m (a + n)] := by
  simp [load, List.range_succ]

theorem load_add (m : Nat → α) (a n k : Nat) :
    load m a (n + k) = load m a n ++ load m (a + n) k := by
  simp [load, List.range_add, Nat.add_assoc]

theorem load_congr {m m' : Nat → α} {a n : Nat} (agree : ∀ i < n, m (a + i) = m' (a + i)) :
    load m a n = load m' a n :=
  List.map_congr_left fun i member => agree i (List.mem_range.1 member)

theorem load_eq_iff {a : Nat} :
    load m a xs.length = xs ↔ ∀ i (bound : i < xs.length), m (a + i) = xs[i] := by
  constructor
  · intro equal i bound
    have := load_getElem m a xs.length i (by simpa using bound)
    simpa [equal] using this.symm
  · intro agree
    apply List.ext_getElem (by simp)
    intro i _ bound
    rw [load_getElem, agree i bound]

theorem load_take {a n k : Nat} (le : k ≤ n) :
    (load m a n).take k = load m a k := by
  obtain ⟨d, rfl⟩ := Nat.exists_eq_add_of_le le
  rw [load_add, List.take_left' (by simp)]

theorem load_perform_block (m : Nat → α) (a : Nat) (xs : List α) :
    load (perform m (blockStores a xs)) a xs.length = xs :=
  load_eq_iff.2 fun i bound => perform_blockStores m a xs i bound

theorem blockStores_append (a : Nat) (xs ys : List α) :
    blockStores a (xs ++ ys) = blockStores a xs ++ blockStores (a + xs.length) ys := by
  induction xs generalizing a with
  | nil => rfl
  | cons x xs ih =>
      have shifted : a + (x :: xs).length = a + 1 + xs.length := by
        rw [List.length_cons]
        omega
      rw [List.cons_append, blockStores, blockStores, ih, shifted, List.cons_append]

theorem blockStores_load (m : Nat → α) (a p n : Nat) :
    blockStores a (load m p n) = (List.range n).map fun i => (a + i, m (p + i)) := by
  induction n with
  | zero => rfl
  | succ n ih =>
      rw [load_succ, blockStores_append, ih, load_length, List.range_succ, List.map_append]
      rfl

theorem load_perform_disjoint {stores : List (Nat × α)} {a n : Nat}
    (outside : ∀ s ∈ stores, s.1 < a ∨ a + n ≤ s.1) :
    load (perform m stores) a n = load m a n :=
  load_congr fun i bound => perform_of_not_mem fun s member => by have := outside s member; omega

theorem load_perform_blocks {blocks : List (Nat × List α)}
    (apart : blocks.Pairwise fun b c => b.1 + b.2.length ≤ c.1 ∨ c.1 + c.2.length ≤ b.1)
    {b : Nat × List α} (member : b ∈ blocks) :
    load (perform m (blocks.flatMap fun b => blockStores b.1 b.2)) b.1 b.2.length = b.2 := by
  induction blocks generalizing m with
  | nil => exact absurd member List.not_mem_nil
  | cons c rest ih =>
      obtain ⟨first, apart⟩ := List.pairwise_cons.1 apart
      rw [List.flatMap_cons, perform_append]
      rcases List.mem_cons.1 member with rfl | member
      · rw [load_perform_disjoint, load_perform_block]
        intro s stored
        obtain ⟨c, later, stored⟩ := List.mem_flatMap.1 stored
        have := first c later
        have := blockStores_bounds stored
        omega
      · exact ih apart member

end Pcsx2.Foundation

/-!
# Words in a memory of bytes

A word of some size stands in the memory with its least significant byte first.
-/

namespace Pcsx2.Foundation

def readBytes (memory : Nat → UInt8) (place : Nat) : Nat → Nat
  | 0 => 0
  | size + 1 => (memory place).toNat + 256 * readBytes memory (place + 1) size

def writeBytes (memory : Nat → UInt8) (place size value : Nat) : Nat → UInt8 := fun i =>
  if place ≤ i ∧ i < place + size then UInt8.ofNat (value / 256 ^ (i - place)) else memory i

variable {memory memory' : Nat → UInt8} {place size value : Nat}

theorem readBytes_lt : readBytes memory place size < 256 ^ size := by
  induction size generalizing place with
  | zero => exact Nat.one_pos
  | succ size ih =>
    have low : (memory place).toNat < 256 := (memory place).toNat_lt
    have high := @ih (place + 1)
    rw [readBytes, Nat.pow_succ']
    omega

theorem readBytes_congr (same : ∀ i, place ≤ i → i < place + size → memory i = memory' i) :
    readBytes memory place size = readBytes memory' place size := by
  induction size generalizing place with
  | zero => rfl
  | succ size ih =>
    rw [readBytes, readBytes, same place (Nat.le_refl _) (by omega),
      ih fun i from_next below => same i (by omega) (by omega)]

theorem writeBytes_outside {i : Nat} (outside : i < place ∨ place + size ≤ i) :
    writeBytes memory place size value i = memory i :=
  if_neg (by omega)

theorem readBytes_outside {place' size' : Nat} (apart : place' + size' ≤ place ∨ place + size ≤ place') :
    readBytes (writeBytes memory place size value) place' size' = readBytes memory place' size' :=
  readBytes_congr fun i _ _ => writeBytes_outside (by omega)

theorem readBytes_writeBytes : readBytes (writeBytes memory place size value) place size = value % 256 ^ size := by
  induction size generalizing memory place value with
  | zero => rw [readBytes, Nat.pow_zero, Nat.mod_one]
  | succ size ih =>
    have first : writeBytes memory place (size + 1) value place = UInt8.ofNat value := by
      rw [writeBytes, if_pos (by omega), Nat.sub_self, Nat.pow_zero, Nat.div_one]
    have rest : readBytes (writeBytes memory place (size + 1) value) (place + 1) size =
        readBytes (writeBytes memory (place + 1) size (value / 256)) (place + 1) size := by
      refine readBytes_congr fun i after below => ?_
      rw [writeBytes, writeBytes, if_pos (by omega), if_pos (by omega), Nat.div_div_eq_div_mul, ← Nat.pow_succ']
      congr 3
      omega
    have split : 256 ^ (size + 1) = 256 * 256 ^ size := Nat.pow_succ'
    rw [readBytes, first, rest, ih, UInt8.toNat_ofNat', split, Nat.mod_mul]

end Pcsx2.Foundation
