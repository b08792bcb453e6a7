import Mathlib.Data.List.Nodup
import Mathlib.Data.Nat.Bitwise

/-!
# Masks of high bits

Taking the low bits of a word away with a mask.
-/

namespace Pcsx2.Foundation

theorem and_high (x k n : Nat) : x &&& ((2 ^ n - 1) <<< k) = x / 2 ^ k % 2 ^ n * 2 ^ k := by
  rw [← Nat.shiftLeft_eq, ← Nat.and_two_pow_sub_one_eq_mod, ← Nat.shiftRight_eq_div_pow]
  apply Nat.eq_of_testBit_eq
  intro i
  rw [Nat.testBit_and, Nat.testBit_shiftLeft, Nat.testBit_shiftLeft, Nat.testBit_and, Nat.testBit_shiftRight]
  by_cases low : k ≤ i
  · rw [decide_eq_true low, Bool.true_and, Bool.true_and, Nat.add_sub_cancel' low]
  · rw [decide_eq_false low, Bool.false_and, Bool.false_and, Bool.and_false]

theorem add_xor_of_lt {a d x k : Nat} (room : a % 2 ^ k + d < 2 ^ k) :
    (a + d) ^^^ (x <<< k) = (a ^^^ (x <<< k)) + d := by
  have split : ∀ r, r < 2 ^ k → ∀ q, (2 ^ k * q + r) ^^^ (x <<< k) = 2 ^ k * (q ^^^ x) + r := by
    intro r small q
    apply Nat.eq_of_testBit_eq
    intro i
    rw [Nat.testBit_xor, Nat.testBit_shiftLeft, Nat.testBit_two_pow_mul_add _ small, Nat.testBit_two_pow_mul_add _ small]
    by_cases low : i < k
    · simp [low, Nat.not_le.2 low]
    · simp [low, Nat.not_lt.1 low]
  have decomposed := Nat.div_add_mod a (2 ^ k)
  have first := split (a % 2 ^ k + d) room (a / 2 ^ k)
  have second := split (a % 2 ^ k) (by omega) (a / 2 ^ k)
  rw [← Nat.add_assoc, decomposed] at first
  rw [decomposed] at second
  omega

section

variable {w k : Nat} {mask : BitVec w} (small : k ≤ w) (low : mask.toNat = 2 ^ k - 1)
include small low

theorem bits_not_low : (~~~mask).toNat = (2 ^ (w - k) - 1) <<< k := by
  rw [BitVec.toNat_not, low, Nat.shiftLeft_eq, Nat.sub_mul, ← Nat.pow_add, Nat.sub_add_cancel small, Nat.one_mul]
  have positive := Nat.two_pow_pos k
  have bound := Nat.pow_le_pow_right Nat.two_pos small
  omega

theorem bits_and_not_low (word : BitVec w) : (word &&& ~~~mask).toNat = word.toNat / 2 ^ k * 2 ^ k := by
  rw [BitVec.toNat_and, bits_not_low small low, and_high, Nat.mod_eq_of_lt]
  apply Nat.div_lt_of_lt_mul
  rw [← Nat.pow_add, Nat.add_sub_cancel' small]
  exact word.isLt

end

theorem not_low {mask : UInt32} {k : Nat} (small : k ≤ 32) (low : mask.toNat = 2 ^ k - 1) :
    (~~~mask).toNat = (2 ^ (32 - k) - 1) <<< k := bits_not_low small low

theorem and_not_low (word : UInt32) {mask : UInt32} {k : Nat} (small : k ≤ 32) (low : mask.toNat = 2 ^ k - 1) :
    (word &&& ~~~mask).toNat = word.toNat / 2 ^ k * 2 ^ k := bits_and_not_low small low word.toBitVec

end Pcsx2.Foundation

/-!
# Accumulation by exclusive or
-/

namespace Pcsx2.Foundation

variable {ι : Type} {width : Nat} {f g : ι → BitVec width} {items items' : List ι} {i : ι}

def xorAll (f : ι → BitVec width) (items : List ι) : BitVec width := items.foldr (fun i rest => f i ^^^ rest) 0

theorem xorAll_cons (f : ι → BitVec width) (i : ι) (items : List ι) : xorAll f (i :: items) = f i ^^^ xorAll f items := rfl

theorem foldl_xor (f : ι → BitVec width) (items : List ι) (acc : BitVec width) :
    items.foldl (fun acc i => acc ^^^ f i) acc = acc ^^^ xorAll f items := by
  induction items generalizing acc with
  | nil => simp [xorAll]
  | cons i items ih => rw [List.foldl_cons, ih, xorAll_cons, BitVec.xor_assoc]

theorem xorAll_append (f : ι → BitVec width) (items items' : List ι) :
    xorAll f (items ++ items') = xorAll f items ^^^ xorAll f items' := by
  induction items with
  | nil => simp [xorAll]
  | cons i items ih => rw [List.cons_append, xorAll_cons, ih, xorAll_cons, BitVec.xor_assoc]

theorem xorAll_map {κ : Type} (f : ι → BitVec width) (of : κ → ι) (items : List κ) :
    xorAll f (items.map of) = xorAll (fun k => f (of k)) items := by
  rw [xorAll, xorAll, List.foldr_map]

theorem xorAll_congr (same : ∀ i ∈ items, f i = g i) : xorAll f items = xorAll g items := by
  induction items with
  | nil => rfl
  | cons i items ih =>
      obtain ⟨here, behind⟩ := List.forall_mem_cons.1 same
      rw [xorAll_cons, xorAll_cons, here, ih behind]

theorem xorAll_const (single : ι → Bool) (value : BitVec width) (items : List ι) :
    xorAll (fun i => if single i then value else 0) items = if items.countP single % 2 = 1 then value else 0 := by
  induction items with
  | nil => rfl
  | cons i items ih =>
      rw [xorAll_cons, ih]
      cases here : single i with
      | false => simp [here]
      | true =>
          rw [List.countP_cons_of_pos here]
          rcases Nat.mod_two_eq_zero_or_one (items.countP single) with even | odd
          · simp [even, Nat.add_mod]
          · simp [odd, Nat.add_mod]

theorem xorAll_change (once : items.Nodup) (mem : i ∈ items) (same : ∀ j, j ≠ i → f j = g j) :
    xorAll f items ^^^ xorAll g items = f i ^^^ g i := by
  induction items with
  | nil => cases mem
  | cons j items ih =>
      obtain ⟨absent, once⟩ := List.nodup_cons.1 once
      rw [xorAll_cons, xorAll_cons]
      rcases List.mem_cons.1 mem with rfl | mem
      · have rest : xorAll f items = xorAll g items := xorAll_congr fun k mem => same k fun eq => absent (eq ▸ mem)
        rw [rest, BitVec.xor_assoc, BitVec.xor_comm (g i), ← BitVec.xor_assoc (xorAll g items), BitVec.xor_self,
          BitVec.zero_xor]
      · have other : j ≠ i := fun eq => absent (eq ▸ mem)
        have swap : f j ^^^ xorAll f items ^^^ (f j ^^^ xorAll g items) = xorAll f items ^^^ xorAll g items := by
          rw [BitVec.xor_comm (f j), BitVec.xor_assoc, ← BitVec.xor_assoc (f j), BitVec.xor_self, BitVec.zero_xor]
        rw [← same j other, swap, ih once mem]

theorem and_xor (a b mask : BitVec width) : (a ^^^ b) &&& mask = a &&& mask ^^^ b &&& mask := by
  apply BitVec.eq_of_getLsbD_eq
  intro i hi
  cases ha : a.getLsbD i <;> cases hb : b.getLsbD i <;> simp [ha, hb]

theorem xorAll_and (f : ι → BitVec width) (items : List ι) (mask : BitVec width) :
    xorAll f items &&& mask = xorAll (fun i => f i &&& mask) items := by
  induction items with
  | nil => simp [xorAll]
  | cons i items ih => rw [xorAll_cons, xorAll_cons, and_xor, ih]

end Pcsx2.Foundation
