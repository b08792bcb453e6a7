import Mathlib.Algebra.Order.Ring.Int
import Pcsx2.Foundation.Checked
import Pcsx2.Foundation.Memory
import Pcsx2.Ipu.Decoder

/-!
# The inverse DCT

Rows first, then columns, each in place. Signed intermediate results have to fit into 32 bits, and what is stored goes
to 16 bits. The samples index a table of 1024 bytes.
-/

namespace Pcsx2.Ipu
open Foundation

def s32 (n : Int) : Option Int := signed 31 n

def W1 : Int := 2841
def W2 : Int := 2676
def W3 : Int := 2408
def W5 : Int := 1609
def W6 : Int := 1108
def W7 : Int := 565

def BUTTERFLY (w0 w1 d0 d1 : Int) : Option (Int × Int) := do
  let sum ← s32 (d0 + d1)
  let tmp ← s32 (w0 * sum)
  let first ← s32 ((w1 - w0) * d1)
  let t0 ← s32 (tmp + first)
  let second ← s32 ((w1 + w0) * d0)
  let t1 ← s32 (tmp - second)
  return (t0, t1)

/-- `a0` to `a3`, or `b0` to `b3`. -/
structure Half where
  h0 : Int
  h1 : Int
  h2 : Int
  h3 : Int

def evenHalf (rounding : Int) (r : Nat → Int) : Option Half := do
  let shifted ← s32 (r 0 * 2 ^ 11)
  let d0 ← s32 (shifted + rounding)
  let d2 ← s32 (r 2 * 2 ^ 11)
  let t0 ← s32 (d0 + d2)
  let t1 ← s32 (d0 - d2)
  let t ← BUTTERFLY W6 W2 (r 3) (r 1)
  let a0 ← s32 (t0 + t.1)
  let a1 ← s32 (t1 + t.2)
  let a2 ← s32 (t1 - t.2)
  let a3 ← s32 (t0 - t.1)
  return ⟨a0, a1, a2, a3⟩

/-- The other half, as `b0`, `t0`, `t1` and `b3`. -/
def oddHalf (r : Nat → Int) : Option Half := do
  let t ← BUTTERFLY W7 W1 (r 7) (r 4)
  let u ← BUTTERFLY W3 W5 (r 5) (r 6)
  let b0 ← s32 (t.1 + u.1)
  let b3 ← s32 (t.2 + u.2)
  let t0 ← s32 (t.1 - u.1)
  let t1 ← s32 (t.2 - u.2)
  return ⟨b0, t0, t1, b3⟩

def rowHalf (odd : Half) : Option Half := do
  let sum ← s32 (odd.h1 + odd.h2)
  let b1 ← s32 (sum * 181)
  let diff ← s32 (odd.h1 - odd.h2)
  let b2 ← s32 (diff * 181)
  return ⟨odd.h0, b1 / 2 ^ 8, b2 / 2 ^ 8, odd.h3⟩

def columnHalf (odd : Half) : Option Half := do
  let t0 := odd.h1 / 2 ^ 8
  let t1 := odd.h2 / 2 ^ 8
  let sum ← s32 (t0 + t1)
  let b1 ← s32 (sum * 181)
  let diff ← s32 (t0 - t1)
  let b2 ← s32 (diff * 181)
  return ⟨odd.h0, b1, b2, odd.h3⟩

def Half.sums (a b : Half) : List Int :=
  [a.h0 + b.h0, a.h1 + b.h1, a.h2 + b.h2, a.h3 + b.h3, a.h3 - b.h3, a.h2 - b.h2, a.h1 - b.h1, a.h0 - b.h0]

def outputs (shift : Nat) (a b : Half) : Option (Nat → Int) := do
  let sums ← (a.sums b).mapM s32
  return fun k => s16 (sums.getD k 0 / 2 ^ shift)

def idctRow (r : Nat → Int) : Option (Nat → Int) :=
  if ∀ k ∈ [1, 2, 3, 4, 5, 6, 7], r k = 0 then return fun _ => s16 (r 0 * 2 ^ 3)
  else do
    let a ← evenHalf 128 r
    let odd ← oddHalf r
    let b ← rowHalf odd
    outputs 8 a b

def idctColumn (r : Nat → Int) : Option (Nat → Int) := do
  let a ← evenHalf 65536 r
  let odd ← oddHalf r
  let b ← columnHalf odd
  outputs 17 a b

def IDCT_Block (block : Nat → Int) : Option (Nat → Int) := do
  let rows ← (List.range 8).mapM fun i => idctRow fun k => block (8 * i + k)
  let columns ← (List.range 8).mapM fun i => idctColumn fun k => rows.getD k (fun _ => 0) i
  return fun n => columns.getD (n % 8) (fun _ => 0) (n / 8)

/-! ## The table -/

/-- `g_idct_clip_lut`. -/
def make_clip_lut : List UInt8 :=
  (List.range 1024).map fun k => if k < 384 then 0 else if 255 < k - 384 then 255 else .ofNat (k - 384)

def clip (sample : Int) : Option UInt8 := if 0 ≤ sample + 384 then make_clip_lut[(sample + 384).toNat]? else none

def IDCT_Copy (block : Nat → Int) (dest stride : Nat) (mem : Nat → UInt8) : Option (Nat → UInt8) := do
  let samples ← IDCT_Block block
  let bytes ← (List.range 64).mapM fun n => clip (samples n)
  return perform mem ((List.range 64).map fun n => (dest + n / 8 * stride + n % 8, bytes.getD n 0))

/-- No intermediate result of the transform overflows, and its samples index entries of the table. -/
def Clips (block : Nat → Int) : Prop := Fine (IDCT_Block block) fun samples => ∀ n < 64, -384 ≤ samples n ∧ samples n ≤ 639

/-! ## What the halves come to -/

theorem s32_eq {n : Int} (low : -2 ^ 31 ≤ n) (high : n < 2 ^ 31) : s32 n = some n := if_pos ⟨low, high⟩

def evens (rounding : Int) (r : Nat → Int) : Half where
  h0 := 2048 * r 0 + 2048 * r 2 + W2 * r 1 + W6 * r 3 + rounding
  h1 := 2048 * r 0 - 2048 * r 2 + W6 * r 1 - W2 * r 3 + rounding
  h2 := 2048 * r 0 - 2048 * r 2 - W6 * r 1 + W2 * r 3 + rounding
  h3 := 2048 * r 0 + 2048 * r 2 - W2 * r 1 - W6 * r 3 + rounding

def odds (r : Nat → Int) : Half where
  h0 := W1 * r 4 + W3 * r 5 + W5 * r 6 + W7 * r 7
  h1 := W1 * r 4 - W3 * r 5 - W5 * r 6 + W7 * r 7
  h2 := W7 * r 4 + W5 * r 5 - W3 * r 6 - W1 * r 7
  h3 := W7 * r 4 - W5 * r 5 + W3 * r 6 - W1 * r 7

variable {r : Nat → Int}

theorem evenHalf_eq (small : ∀ k, Within 0x8000 (r k)) {rounding : Int} (low : 0 ≤ rounding) (high : rounding ≤ 65536) :
    evenHalf rounding r = some (evens rounding r) := by
  obtain ⟨low0, high0⟩ := small 0
  obtain ⟨low1, high1⟩ := small 1
  obtain ⟨low2, high2⟩ := small 2
  obtain ⟨low3, high3⟩ := small 3
  simp only [evenHalf, BUTTERFLY, W2, W6, Option.pure_def, Option.bind_eq_bind]
  simp (disch := omega) only [s32_eq, Option.bind_some, evens, W2, W6, Option.some.injEq, Half.mk.injEq]
  omega

theorem oddHalf_eq (small : ∀ k, Within 0x8000 (r k)) : oddHalf r = some (odds r) := by
  obtain ⟨low0, high0⟩ := small 4
  obtain ⟨low1, high1⟩ := small 5
  obtain ⟨low2, high2⟩ := small 6
  obtain ⟨low3, high3⟩ := small 7
  simp only [oddHalf, BUTTERFLY, W1, W3, W5, W7, Option.pure_def, Option.bind_eq_bind]
  simp (disch := omega) only [s32_eq, Option.bind_some, odds, W1, W3, W5, W7, Option.some.injEq, Half.mk.injEq]
  omega


theorem forall_lt_eight {P : Nat → Prop} :
    (∀ k < 8, P k) ↔ P 0 ∧ P 1 ∧ P 2 ∧ P 3 ∧ P 4 ∧ P 5 ∧ P 6 ∧ P 7 := by
  simp only [Nat.forall_lt_succ_right, and_assoc, Nat.not_lt_zero, false_imp_iff, implies_true, true_and]

theorem s16_eq {n : Int} (low : -0x8000 ≤ n) (high : n < 0x8000) : s16 n = n := by
  unfold s16
  rw [Int.bmod_eq_of_le] <;> omega

theorem mapM_s32 {ns : List Int} (small : ∀ n ∈ ns, -2 ^ 31 ≤ n ∧ n < 2 ^ 31) : ns.mapM s32 = some ns := by
  induction ns with
  | nil => rfl
  | cons n ns ih =>
      obtain ⟨low, high⟩ := small n List.mem_cons_self
      rw [List.mapM_cons, s32_eq low high, ih fun m member => small m (List.mem_cons_of_mem n member)]
      rfl

structure Products (r : Nat → Int) : Prop where
  sum : -2 ^ 31 ≤ ((odds r).h1 + (odds r).h2) * 181 ∧ ((odds r).h1 + (odds r).h2) * 181 < 2 ^ 31
  diff : -2 ^ 31 ≤ ((odds r).h1 - (odds r).h2) * 181 ∧ ((odds r).h1 - (odds r).h2) * 181 < 2 ^ 31

def rowSums (r : Nat → Int) : List Int :=
  (evens 128 r).sums ⟨(odds r).h0, ((odds r).h1 + (odds r).h2) * 181 / 2 ^ 8, ((odds r).h1 - (odds r).h2) * 181 / 2 ^ 8, (odds r).h3⟩

def columnSums (r : Nat → Int) : List Int :=
  (evens 65536 r).sums ⟨(odds r).h0, ((odds r).h1 / 2 ^ 8 + (odds r).h2 / 2 ^ 8) * 181,
    ((odds r).h1 / 2 ^ 8 - (odds r).h2 / 2 ^ 8) * 181, (odds r).h3⟩

structure Half.Within (bound : Int) (a : Half) : Prop where
  h0 : Foundation.Within bound a.h0
  h1 : Foundation.Within bound a.h1
  h2 : Foundation.Within bound a.h2
  h3 : Foundation.Within bound a.h3

theorem evens_within (small : ∀ k, Within 0x8000 (r k)) {rounding : Int} (low : 0 ≤ rounding) (high : rounding ≤ 65536) :
    (evens rounding r).Within 0x10000000 := by
  obtain ⟨low0, high0⟩ := small 0
  obtain ⟨low1, high1⟩ := small 1
  obtain ⟨low2, high2⟩ := small 2
  obtain ⟨low3, high3⟩ := small 3
  constructor
  all_goals
    simp only [evens, W2, W6, Foundation.Within]
    omega

theorem odds_within (small : ∀ k, Within 0x8000 (r k)) : (odds r).Within 0xfffffff := by
  obtain ⟨low4, high4⟩ := small 4
  obtain ⟨low5, high5⟩ := small 5
  obtain ⟨low6, high6⟩ := small 6
  obtain ⟨low7, high7⟩ := small 7
  constructor
  all_goals
    simp only [odds, W1, W3, W5, W7, Foundation.Within]
    omega


variable {a b : Half}

theorem outputs_eq (first : a.Within 0x10000000) (second : b.Within 0x20000000) (shift : Nat) :
    outputs shift a b = some fun k => s16 ((a.sums b).getD k 0 / 2 ^ shift) := by
  obtain ⟨⟨low0, high0⟩, ⟨low1, high1⟩, ⟨low2, high2⟩, ⟨low3, high3⟩⟩ := first
  obtain ⟨⟨low0', high0'⟩, ⟨low1', high1'⟩, ⟨low2', high2'⟩, ⟨low3', high3'⟩⟩ := second
  have small : ∀ n ∈ a.sums b, -2 ^ 31 ≤ n ∧ n < 2 ^ 31 := by
    simp only [Half.sums, List.forall_mem_cons, List.not_mem_nil, false_imp_iff, implies_true, and_true]
    omega
  rw [outputs, mapM_s32 small]
  rfl

theorem rowHalf_eq (small : ∀ k, Within 0x8000 (r k)) (products : Products r) : rowHalf (odds r) =
    some ⟨(odds r).h0, ((odds r).h1 + (odds r).h2) * 181 / 2 ^ 8, ((odds r).h1 - (odds r).h2) * 181 / 2 ^ 8, (odds r).h3⟩ := by
  obtain ⟨-, ⟨low1, high1⟩, ⟨low2, high2⟩, -⟩ := odds_within small
  obtain ⟨⟨low, high⟩, ⟨low', high'⟩⟩ := products
  simp only [rowHalf, Option.pure_def, Option.bind_eq_bind]
  simp (disch := omega) only [s32_eq, Option.bind_some]

theorem rowHalf_none (small : ∀ k, Within 0x8000 (r k)) (overflow : ¬ Products r) : rowHalf (odds r) = none := by
  obtain ⟨-, ⟨low1, high1⟩, ⟨low2, high2⟩, -⟩ := odds_within small
  simp only [rowHalf, Option.pure_def, Option.bind_eq_bind]
  simp (disch := omega) only [s32_eq, Option.bind_some]
  by_cases sum : -2 ^ 31 ≤ ((odds r).h1 + (odds r).h2) * 181 ∧ ((odds r).h1 + (odds r).h2) * 181 < 2 ^ 31
  · have diff : ¬ (-2 ^ 31 ≤ ((odds r).h1 - (odds r).h2) * 181 ∧ ((odds r).h1 - (odds r).h2) * 181 < 2 ^ 31) :=
      fun fits => overflow ⟨sum, fits⟩
    simp only [s32, signed, if_pos sum, if_neg diff, Option.bind_some, Option.bind_none]
  · simp only [s32, signed, if_neg sum, Option.bind_none]

theorem columnHalf_eq (small : ∀ k, Within 0x8000 (r k)) : columnHalf (odds r) =
    some ⟨(odds r).h0, ((odds r).h1 / 2 ^ 8 + (odds r).h2 / 2 ^ 8) * 181,
      ((odds r).h1 / 2 ^ 8 - (odds r).h2 / 2 ^ 8) * 181, (odds r).h3⟩ := by
  obtain ⟨-, ⟨low1, high1⟩, ⟨low2, high2⟩, -⟩ := odds_within small
  simp only [columnHalf, Option.pure_def, Option.bind_eq_bind]
  simp (disch := omega) only [s32_eq, Option.bind_some]

theorem idctColumn_eq (small : ∀ k, Within 0x8000 (r k)) :
    idctColumn r = some fun k => s16 ((columnSums r).getD k 0 / 2 ^ 17) := by
  obtain ⟨within0, ⟨low1, high1⟩, ⟨low2, high2⟩, within3⟩ := odds_within small
  rw [idctColumn, evenHalf_eq small (by decide) (by decide), oddHalf_eq small]
  simp only [Option.bind_eq_bind, Option.bind_some, columnHalf_eq small]
  refine outputs_eq (evens_within small (by decide) (by decide)) ?_ 17
  refine ⟨within0.mono (by decide), ?_, ?_, within3.mono (by decide)⟩
  all_goals
    simp only [Foundation.Within]
    omega

theorem idctRow_eq (small : ∀ k, Within 0x8000 (r k)) (products : Products r)
    (more : ¬ ∀ k ∈ [1, 2, 3, 4, 5, 6, 7], r k = 0) : idctRow r = some fun k => s16 ((rowSums r).getD k 0 / 2 ^ 8) := by
  obtain ⟨within0, -, -, within3⟩ := odds_within small
  rw [idctRow, if_neg more, evenHalf_eq small (by decide) (by decide), oddHalf_eq small]
  simp only [Option.bind_eq_bind, Option.bind_some, rowHalf_eq small products]
  obtain ⟨⟨low, high⟩, ⟨low', high'⟩⟩ := products
  refine outputs_eq (evens_within small (by decide) (by decide)) ?_ 8
  refine ⟨within0.mono (by decide), ?_, ?_, within3.mono (by decide)⟩
  all_goals
    simp only [Foundation.Within]
    omega

theorem clip_some {sample : Int} : (clip sample).isSome ↔ -384 ≤ sample ∧ sample ≤ 639 := by
  have length : make_clip_lut.length = 1024 := by rw [make_clip_lut, List.length_map, List.length_range]
  unfold clip
  split
  · rw [isSome_getElem?, length]
    omega
  · simp only [Option.isSome_none, Bool.false_eq_true, false_iff]
    omega

theorem copy_some {block : Nat → Int} (dest stride : Nat) (mem : Nat → UInt8) :
    (IDCT_Copy block dest stride mem).isSome ↔ Clips block := by
  constructor
  · intro copied
    obtain ⟨written, copied⟩ := Option.isSome_iff_exists.mp copied
    obtain ⟨samples, transformed, copied⟩ := Option.bind_eq_some_iff.mp copied
    obtain ⟨bytes, clipped, -⟩ := Option.bind_eq_some_iff.mp copied
    refine ⟨samples, transformed, fun n inside => clip_some.mp ?_⟩
    obtain ⟨byte, found⟩ := mapM_each clipped n (List.mem_range.mpr inside)
    rw [found]
    rfl
  · rintro ⟨samples, transformed, inside⟩
    have each : ∀ n ∈ List.range 64, Fine (clip (samples n)) fun _ => True := by
      intro n member
      obtain ⟨byte, found⟩ := Option.isSome_iff_exists.mp (clip_some.mpr (inside n (List.mem_range.mp member)))
      exact ⟨byte, found, trivial⟩
    obtain ⟨bytes, clipped, -⟩ := Fine.mapM each
    rw [IDCT_Copy, transformed, Option.bind_eq_bind, Option.bind_some, clipped]
    rfl

end Pcsx2.Ipu

/-!
# Clipping

The transform without rounding is linear. What the rounded one gives is less than 9/16 away from that, unless a row
does not fit into 16 bits.
-/

namespace Pcsx2.Ipu
open Foundation

variable {r : Nat → Int} {block : Nat → Int}

/-! ## The linear transform -/

def idealEvens (r : Nat → Int) : Half :=
  ⟨256 * (evens 0 r).h0, 256 * (evens 0 r).h1, 256 * (evens 0 r).h2, 256 * (evens 0 r).h3⟩

def idealOdds (r : Nat → Int) : Half :=
  ⟨256 * (odds r).h0, 181 * ((odds r).h1 + (odds r).h2), 181 * ((odds r).h1 - (odds r).h2), 256 * (odds r).h3⟩

/-- Eight coefficients transformed without rounding, as multiples of `2 ^ -16` in a row and of `2 ^ -25` in a column. -/
def ideal (r : Nat → Int) (k : Nat) : Int := ((idealEvens r).sums (idealOdds r)).getD k 0

def row (block : Nat → Int) (v : Nat) : Nat → Int := fun k => block (8 * v + k)

/-- A sample that the coefficients describe, as a multiple of `2 ^ -41`. -/
def described (block : Nat → Int) (y x : Nat) : Int := ideal (fun v => ideal (row block v) x) y

/-- The rows come out as numbers of 16 bits. -/
def RowsFit (block : Nat → Int) : Prop :=
  ∀ v < 8, ∀ x < 8, -2 ^ 31 ≤ ideal (row block v) x ∧ ideal (row block v) x < 2 ^ 31 - 2 ^ 16

/-- The samples that the coefficients describe exceed the range of the table by `slack` sixteenths at most. -/
def Describes (block : Nat → Int) (slack : Int) : Prop :=
  ∀ y < 8, ∀ x < 8, -384 * 2 ^ 41 - slack * 2 ^ 37 ≤ described block y x ∧ described block y x ≤ 639 * 2 ^ 41 + slack * 2 ^ 37

theorem ideal_scaled (r s : Nat → Int) : ∀ y < 8, ideal (fun k => r k * 2 ^ 16 - s k) y = ideal r y * 2 ^ 16 - ideal s y := by
  simp only [forall_lt_eight, ideal, idealEvens, idealOdds, Half.sums, evens, odds, W1, W2, W3, W5, W6, W7, List.getD_cons_zero,
    List.getD_cons_succ]
  omega

theorem ideal_within {bound : Int} (small : ∀ k < 8, Within bound (r k)) : ∀ y < 8, Within (3917568 * bound) (ideal r y) := by
  rw [forall_lt_eight] at small
  obtain ⟨⟨low0, high0⟩, ⟨low1, high1⟩, ⟨low2, high2⟩, ⟨low3, high3⟩, ⟨low4, high4⟩, ⟨low5, high5⟩, ⟨low6, high6⟩, low7, high7⟩ := small
  simp only [forall_lt_eight, ideal, idealEvens, idealOdds, Half.sums, evens, odds, W1, W2, W3, W5, W6, W7, List.getD_cons_zero,
    List.getD_cons_succ, Within]
  omega

/-! ## Rounding -/

theorem row_error (r : Nat → Int) : ∀ k < 8, Within 33023 ((rowSums r).getD k 0 / 2 ^ 8 * 2 ^ 16 - ideal r k) := by
  simp only [forall_lt_eight, rowSums, ideal, idealEvens, idealOdds, Half.sums, evens, List.getD_cons_zero, List.getD_cons_succ,
    Within]
  generalize odds r = o
  generalize W2 * r 1 = x
  generalize W6 * r 1 = x'
  generalize W2 * r 3 = y
  generalize W6 * r 3 = y'
  refine ⟨?_, ?_, ?_, ?_, ?_, ?_, ?_, ?_⟩
  all_goals omega

theorem column_error (r : Nat → Int) : ∀ k < 8, Within 16869526 ((columnSums r).getD k 0 / 2 ^ 17 * 2 ^ 25 - ideal r k) := by
  simp only [forall_lt_eight, columnSums, ideal, idealEvens, idealOdds, Half.sums, evens, List.getD_cons_zero, List.getD_cons_succ,
    Within]
  generalize odds r = o
  generalize W2 * r 1 = x
  generalize W6 * r 1 = x'
  generalize W2 * r 3 = y
  generalize W6 * r 3 = y'
  refine ⟨?_, ?_, ?_, ?_, ?_, ?_, ?_, ?_⟩
  all_goals omega

theorem column_small (small : ∀ k, Within 0x8000 (r k)) : ∀ k < 8, Within 0x2000 ((columnSums r).getD k 0 / 2 ^ 17) := by
  have halves : (evens 65536 r).Within 0x10000000 := evens_within small (by decide) (by decide)
  obtain ⟨⟨low0, high0⟩, ⟨low1, high1⟩, ⟨low2, high2⟩, ⟨low3, high3⟩⟩ := halves
  obtain ⟨⟨low0', high0'⟩, ⟨low1', high1'⟩, ⟨low2', high2'⟩, ⟨low3', high3'⟩⟩ := odds_within small
  simp only [forall_lt_eight, columnSums, Half.sums, List.getD_cons_zero, List.getD_cons_succ, Within]
  omega

theorem ideal_filled (only : ∀ k ∈ [1, 2, 3, 4, 5, 6, 7], r k = 0) : ∀ k < 8, ideal r k = r 0 * 2 ^ 3 * 2 ^ 16 := by
  simp only [List.forall_mem_cons, List.not_mem_nil, false_imp_iff, implies_true, and_true] at only
  obtain ⟨zero1, zero2, zero3, zero4, zero5, zero6, zero7⟩ := only
  simp only [forall_lt_eight, ideal, idealEvens, idealOdds, Half.sums, evens, odds, zero1, zero2, zero3, zero4, zero5, zero6, zero7,
    List.getD_cons_zero, List.getD_cons_succ]
  omega

theorem s16_within (n : Int) : Within 0x8000 (s16 n) := by
  have low := Int.le_bmod (x := n) (m := 65536) (by decide)
  have high := Int.bmod_lt (x := n) (m := 65536) (by decide)
  unfold s16 Within
  omega

/-! ## Rows and columns -/

theorem products_of_fit (fits : ∀ x < 8, -2 ^ 31 ≤ ideal r x ∧ ideal r x < 2 ^ 31 - 2 ^ 16) : Products r := by
  simp only [forall_lt_eight, ideal, idealEvens, idealOdds, Half.sums, List.getD_cons_zero, List.getD_cons_succ] at fits
  constructor
  all_goals omega

theorem products_filled (only : ∀ k ∈ [1, 2, 3, 4, 5, 6, 7], r k = 0) : Products r := by
  simp only [List.forall_mem_cons, List.not_mem_nil, false_imp_iff, implies_true, and_true] at only
  obtain ⟨-, -, -, zero4, zero5, zero6, zero7⟩ := only
  constructor
  all_goals
    simp only [odds, zero4, zero5, zero6, zero7]
    decide

theorem idctRow_fine (small : ∀ k, Within 0x8000 (r k)) (products : Products r) :
    Fine (idctRow r) fun out => ∀ k, Within 0x8000 (out k) := by
  by_cases only : ∀ k ∈ [1, 2, 3, 4, 5, 6, 7], r k = 0
  · exact ⟨_, if_pos only, fun k => s16_within _⟩
  · exact ⟨_, idctRow_eq small products only, fun k => s16_within _⟩

theorem products_of_row (small : ∀ k, Within 0x8000 (r k)) {out : Nat → Int} (done : idctRow r = some out) : Products r := by
  by_cases only : ∀ k ∈ [1, 2, 3, 4, 5, 6, 7], r k = 0
  · exact products_filled only
  · by_contra overflow
    rw [idctRow, if_neg only, evenHalf_eq small (by decide) (by decide), oddHalf_eq small] at done
    simp only [Option.bind_eq_bind, Option.bind_some, rowHalf_none small overflow, Option.bind_none, reduceCtorEq] at done

theorem idctRow_near (small : ∀ k, Within 0x8000 (r k)) (fits : ∀ x < 8, -2 ^ 31 ≤ ideal r x ∧ ideal r x < 2 ^ 31 - 2 ^ 16) :
    Fine (idctRow r) fun out => (∀ k, Within 0x8000 (out k)) ∧ ∀ k < 8, Within 33023 (out k * 2 ^ 16 - ideal r k) := by
  by_cases only : ∀ k ∈ [1, 2, 3, 4, 5, 6, 7], r k = 0
  · refine ⟨_, if_pos only, fun k => s16_within _, fun k inside => ?_⟩
    have fit := fits k inside
    have same := ideal_filled only k inside
    rw [s16_eq (by omega) (by omega), same, sub_self]
    exact .zero (by decide)
  · refine ⟨_, idctRow_eq small (products_of_fit fits) only, fun k => s16_within _, fun k inside => ?_⟩
    have fit := fits k inside
    obtain ⟨low, high⟩ := row_error r k inside
    have stored : s16 ((rowSums r).getD k 0 / 2 ^ 8) = (rowSums r).getD k 0 / 2 ^ 8 := s16_eq (by omega) (by omega)
    simp only [stored]
    exact ⟨low, high⟩

theorem idctColumn_near (small : ∀ k, Within 0x8000 (r k)) :
    Fine (idctColumn r) fun out => ∀ k < 8, Within 16869526 (out k * 2 ^ 25 - ideal r k) := by
  refine ⟨_, idctColumn_eq small, fun k inside => ?_⟩
  obtain ⟨low, high⟩ := column_small small k inside
  have stored : s16 ((columnSums r).getD k 0 / 2 ^ 17) = (columnSums r).getD k 0 / 2 ^ 17 := s16_eq (by omega) (by omega)
  simp only [stored]
  exact column_error r k inside

/-! ## Blocks -/

theorem place_eq {n : Nat} (inside : n < 64) : n / 8 < 8 ∧ n % 8 < 8 ∧ 8 * (n / 8) + n % 8 = n := by
  omega

variable (small : ∀ n, Within 0x8000 (block n))

include small

theorem overflow_iff : (IDCT_Block block).isSome ↔ ∀ v < 8, Products (row block v) := by
  constructor
  · intro transformed v inside
    obtain ⟨samples, transformed⟩ := Option.isSome_iff_exists.mp transformed
    obtain ⟨rows, rowsDone, -⟩ := Option.bind_eq_some_iff.mp transformed
    obtain ⟨out, done⟩ := mapM_each rowsDone v (List.mem_range.mpr inside)
    exact products_of_row (fun k => small _) done
  · intro products
    obtain ⟨rows, rowsDone, fit, past⟩ := Fine.range (fun v inside => idctRow_fine (fun k => small _) (products v inside)) fun _ => 0
    have column (x : Nat) : ∀ k, Within 0x8000 (rows.getD k (fun _ => 0) x) := by
      intro k
      by_cases inside : k < 8
      · exact fit k inside x
      · rw [past k (by omega)]
        exact .zero (by decide)
    obtain ⟨columns, columnsDone, -⟩ := Fine.range (fun x (_ : x < 8) => idctColumn_near (column x)) fun _ => 0
    change (Option.bind _ _).isSome = true
    rw [rowsDone, Option.bind_some]
    change (Option.bind _ _).isSome = true
    rw [columnsDone]
    rfl

theorem IDCT_Block_near (fits : RowsFit block) : Fine (IDCT_Block block) fun samples => ∀ y < 8, ∀ x < 8,
    -9 * 2 ^ 37 < samples (8 * y + x) * 2 ^ 41 - described block y x ∧
      samples (8 * y + x) * 2 ^ 41 - described block y x < 9 * 2 ^ 37 := by
  refine (Fine.range (fun v inside => idctRow_near (fun k => small _) (fits v inside)) fun _ => 0).bind fun rows rowsDone => ?_
  obtain ⟨near, past⟩ := rowsDone
  have column (x : Nat) : ∀ k, Within 0x8000 (rows.getD k (fun _ => 0) x) := by
    intro k
    by_cases inside : k < 8
    · exact (near k inside).1 x
    · rw [past k (by omega)]
      exact .zero (by decide)
  refine (Fine.range (fun x (_ : x < 8) => idctColumn_near (column x)) fun _ => 0).bind fun columns columnsDone => .pure ?_
  intro y inY x inX
  have place : (8 * y + x) % 8 = x ∧ (8 * y + x) / 8 = y := by omega
  simp only [place.1, place.2]
  obtain ⟨low, high⟩ := columnsDone.1 x inX y inY
  obtain ⟨low', high'⟩ := ideal_within (fun v inside => (near v inside).2 x inX) y inY
  have same : ideal (fun v => ideal (fun k => block (8 * v + k)) x) y = described block y x := rfl
  rw [ideal_scaled _ _ y inY, same] at low' high'
  omega

/-- Where the coefficients describe samples in the range of the table, and less than half a step beyond, it is kept. -/
theorem clips_of_describes (fits : RowsFit block) (describes : Describes block 7) : Clips block := by
  refine (IDCT_Block_near small fits).weaken fun samples near n inside => ?_
  obtain ⟨inY, inX, place⟩ := place_eq inside
  have close := near _ inY _ inX
  have range := describes _ inY _ inX
  rw [place] at close
  omega

theorem describes_of_clips (fits : RowsFit block) (clips : Clips block) : Describes block 9 := by
  obtain ⟨samples, transformed, close⟩ := IDCT_Block_near small fits
  obtain ⟨samples', transformed', range⟩ := clips
  obtain rfl := Option.some.inj (transformed.symm.trans transformed')
  intro y inY x inX
  have near := close y inY x inX
  have inside := range (8 * y + x) (by omega)
  omega

end Pcsx2.Ipu
