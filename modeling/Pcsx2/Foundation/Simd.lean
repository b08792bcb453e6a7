import Mathlib.Algebra.Order.Ring.Int
import Mathlib.Algebra.Order.Ring.Nat
import Mathlib.Data.Fintype.Basic
import Mathlib.Order.Lattice
import Mathlib.Tactic.FinCases

/-!
# Registers of lanes

Registers of sixteen bytes, eight words or four double words: operations that saturate, those that compare, and those
that bring lanes of two registers together.
-/

namespace Pcsx2.Foundation

abbrev Bytes16 : Type := Fin 16 → BitVec 8

abbrev Words8 : Type := Fin 8 → BitVec 16

abbrev Words4 : Type := Fin 4 → UInt32

/-! ## Saturation -/

def saturate (w : Nat) (x : Int) : BitVec w := .ofInt w (max (-2 ^ (w - 1)) (min (2 ^ (w - 1) - 1) x))

def saturateU (w : Nat) (x : Int) : BitVec w := .ofInt w (max 0 (min (2 ^ w - 1) x))

theorem toNat_saturateU {w : Nat} (x : Int) : ((saturateU w x).toNat : Int) = max 0 (min (2 ^ w - 1) x) := by
  have size : (1 : Int) ≤ 2 ^ w := by exact_mod_cast Nat.one_le_two_pow
  have cast : ((2 ^ w : Nat) : Int) = 2 ^ w := by push_cast; rfl
  rw [saturateU, BitVec.toNat_ofInt, cast, Int.emod_eq_of_lt (by omega) (by omega), Int.toNat_of_nonneg (by omega)]

theorem toNat_ofInt8 {d : Int} (low : 0 ≤ d) (high : d < 256) : ((BitVec.ofInt 8 d).toNat : Int) = d := by
  rw [BitVec.toNat_ofInt]
  omega

theorem toInt_ofInt16 {x : Int} (low : -2 ^ 15 ≤ x) (high : x < 2 ^ 15) : (BitVec.ofInt 16 x).toInt = x := by
  rw [BitVec.toInt_ofInt]
  exact Int.bmod_eq_of_le (by omega) (by omega)

theorem saturate_of_fits {x : Int} (low : -2 ^ 15 ≤ x) (high : x < 2 ^ 15) : (saturate 16 x).toInt = x := by
  unfold saturate
  rw [min_eq_right (by omega), max_eq_right (by omega), toInt_ofInt16 low high]

/-! ## Comparisons -/

def laneMask (found : Bool) : UInt32 := if found then 0xFFFFFFFF else 0

@[simp] theorem laneMask_and (found : Bool) (x : UInt32) : laneMask found &&& x = if found then x else 0 := by
  cases found
  · exact UInt32.zero_and
  · exact UInt32.neg_one_and

@[simp] theorem laneMask_not (found : Bool) : ~~~laneMask found = laneMask !found := by
  cases found <;> rfl

namespace Words4

def ge32 (a b : Words4) : Words4 := fun lane => ~~~laneMask ((a lane).toInt32 < (b lane).toInt32)

def le32 (a b : Words4) : Words4 := fun lane => ~~~laneMask ((b lane).toInt32 < (a lane).toInt32)

def allfalse (v : Words4) : Bool := decide (∀ lane, v lane = 0)

theorem ge32_apply (a b : Words4) (lane : Fin 4) :
    ge32 a b lane = laneMask ((b lane).toInt32 ≤ (a lane).toInt32) := by
  simp only [ge32, laneMask_not, ← decide_not, Int32.not_lt]

theorem le32_apply (a b : Words4) (lane : Fin 4) :
    le32 a b lane = laneMask ((a lane).toInt32 ≤ (b lane).toInt32) := by
  simp only [le32, laneMask_not, ← decide_not, Int32.not_lt]

theorem not_allfalse_iff (v : Words4) : (!v.allfalse) = true ↔ ∃ lane, v lane ≠ 0 := by
  simp [allfalse]

end Words4

/-! ## Lanes of two registers in turn -/

section
variable {α : Type*} {n : Nat}

def unpacklo (a b : Fin n → α) : Fin n → α := fun i =>
  if i.val % 2 = 0 then a ⟨i / 2, by omega⟩ else b ⟨i / 2, by omega⟩

def unpackhi (a b : Fin n → α) : Fin n → α := fun i =>
  if i.val % 2 = 0 then a ⟨n / 2 + i / 2, by omega⟩ else b ⟨n / 2 + i / 2, by omega⟩

end

def toWords (v : Bytes16) : Words8 := fun i => v ⟨2 * i + 1, by omega⟩ ++ v ⟨2 * i, by omega⟩

theorem half_lt (i : Fin 16) : i.val / 2 < 8 := by omega

def toBytes (v : Words8) : Bytes16 := fun i => (v ⟨i / 2, half_lt i⟩).extractLsb' (8 * (i % 2)) 8

theorem toBytes_unpacklo (p q : Bytes16) (k : Fin 4) :
    toBytes (unpacklo (toWords p) (toWords q)) ⟨4 * k, by omega⟩ = p ⟨2 * k, by omega⟩ ∧
    toBytes (unpacklo (toWords p) (toWords q)) ⟨4 * k + 1, by omega⟩ = p ⟨2 * k + 1, by omega⟩ ∧
    toBytes (unpacklo (toWords p) (toWords q)) ⟨4 * k + 2, by omega⟩ = q ⟨2 * k, by omega⟩ ∧
    toBytes (unpacklo (toWords p) (toWords q)) ⟨4 * k + 3, by omega⟩ = q ⟨2 * k + 1, by omega⟩ := by
  fin_cases k <;> exact ⟨BitVec.extractLsb'_append_eq_right, BitVec.extractLsb'_append_eq_left,
    BitVec.extractLsb'_append_eq_right, BitVec.extractLsb'_append_eq_left⟩

theorem toBytes_unpackhi (p q : Bytes16) (k : Fin 4) :
    toBytes (unpackhi (toWords p) (toWords q)) ⟨4 * k, by omega⟩ = p ⟨8 + 2 * k, by omega⟩ ∧
    toBytes (unpackhi (toWords p) (toWords q)) ⟨4 * k + 1, by omega⟩ = p ⟨8 + 2 * k + 1, by omega⟩ ∧
    toBytes (unpackhi (toWords p) (toWords q)) ⟨4 * k + 2, by omega⟩ = q ⟨8 + 2 * k, by omega⟩ ∧
    toBytes (unpackhi (toWords p) (toWords q)) ⟨4 * k + 3, by omega⟩ = q ⟨8 + 2 * k + 1, by omega⟩ := by
  fin_cases k <;> exact ⟨BitVec.extractLsb'_append_eq_right, BitVec.extractLsb'_append_eq_left,
    BitVec.extractLsb'_append_eq_right, BitVec.extractLsb'_append_eq_left⟩

end Pcsx2.Foundation
