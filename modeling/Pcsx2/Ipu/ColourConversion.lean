import Mathlib.Algebra.Order.Ring.Abs
import Mathlib.Algebra.Order.Ring.Int
import Mathlib.Tactic.Ring
import Pcsx2.Foundation.Simd

/-!
# Colour conversion

`yuv2rgb` and `ipu_dither` with vector instructions do what the reference versions do.
-/

namespace Pcsx2.Ipu
open Foundation

/-- `macroblock_8`. -/
structure Macroblock8 where
  Y : Fin 16 → Fin 16 → BitVec 8
  Cb : Fin 8 → Fin 8 → BitVec 8
  Cr : Fin 8 → Fin 8 → BitVec 8

structure Rgba where
  r : BitVec 8
  g : BitVec 8
  b : BitVec 8
  a : BitVec 8
  deriving DecidableEq

abbrev MacroblockRgb32 : Type := Fin 16 → Fin 16 → Rgba

def IPU_Y_BIAS : Nat := 16

def IPU_C_BIAS : Nat := 128

def IPU_Y_COEFF : Int := 0x95

def IPU_GCR_COEFF : Int := -0x68

def IPU_GCB_COEFF : Int := -0x32

def IPU_RCR_COEFF : Int := 0xcc

def IPU_BCB_COEFF : Int := 0x102

def half (i : Fin 16) : Fin 8 := ⟨i / 2, by omega⟩

def yuv2rgb_reference (mb8 : Macroblock8) : MacroblockRgb32 := fun y x =>
  let lum := (IPU_Y_COEFF * max 0 ((mb8.Y y x).toNat - IPU_Y_BIAS : Int)) >>> (6 : Nat)
  let rcr := (IPU_RCR_COEFF * ((mb8.Cr (half y) (half x)).toNat - 128 : Int)) >>> (6 : Nat)
  let gcr := (IPU_GCR_COEFF * ((mb8.Cr (half y) (half x)).toNat - 128 : Int)) >>> (6 : Nat)
  let gcb := (IPU_GCB_COEFF * ((mb8.Cb (half y) (half x)).toNat - 128 : Int)) >>> (6 : Nat)
  let bcb := (IPU_BCB_COEFF * ((mb8.Cb (half y) (half x)).toNat - 128 : Int)) >>> (6 : Nat)
  { r := .ofInt 8 (max 0 (min 255 ((lum + rcr + 1) >>> (1 : Nat))))
    g := .ofInt 8 (max 0 (min 255 ((lum + gcr + gcb + 1) >>> (1 : Nat))))
    b := .ofInt 8 (max 0 (min 255 ((lum + bcb + 1) >>> (1 : Nat))))
    a := 0x80 }

/-! ## SSE2 -/

section
variable {n w : Nat}

def lanes (op : BitVec w → BitVec w → BitVec w) (a b : Fin n → BitVec w) : Fin n → BitVec w := fun i => op (a i) (b i)

def set1 (x : BitVec w) : Fin n → BitVec w := fun _ => x

end

def mm_mulhi_epi16 (a b : BitVec 16) : BitVec 16 := .ofInt 16 ((a.toInt * b.toInt) >>> (16 : Nat))

def mm_mulhi_epu16 (a b : BitVec 16) : BitVec 16 := .ofNat 16 ((a.toNat * b.toNat) >>> 16)

def mm_adds_epi16 (a b : BitVec 16) : BitVec 16 := saturate 16 (a.toInt + b.toInt)

def mm_adds_epu8 (a b : BitVec 8) : BitVec 8 := saturateU 8 (a.toNat + b.toNat)

def mm_subs_epu8 (a b : BitVec 8) : BitVec 8 := saturateU 8 (a.toNat - b.toNat)

def mm_packus_epi16 (a b : Words8) : Bytes16 := fun i =>
  saturateU 8 (if h : i.val < 8 then a ⟨i, h⟩ else b ⟨i - 8, by omega⟩).toInt

def mm_shuffle_3232 (a : Bytes16) : Bytes16 := fun i => a ⟨8 + i % 8, by omega⟩

def mm_loadl_epi64 (a : Fin 8 → BitVec 8) : Bytes16 := fun i => if h : i.val < 8 then a ⟨i, h⟩ else 0

def coefficient (coeff : Int) : BitVec 16 := BitVec.ofInt 16 coeff <<< 2

def storeRow (ll lh hl hh : Bytes16) : Fin 16 → Rgba := fun x =>
  let v := if x.val < 4 then ll else if x.val < 8 then lh else if x.val < 12 then hl else hh
  let k := x.val % 4
  ⟨v ⟨4 * k, by omega⟩, v ⟨4 * k + 1, by omega⟩, v ⟨4 * k + 2, by omega⟩, v ⟨4 * k + 3, by omega⟩⟩

/-- The row is `n * 2 + m`. -/
def yuv2rgb_sse2 (mb8 : Macroblock8) : MacroblockRgb32 := fun row =>
  let c_bias : Bytes16 := set1 (.ofNat 8 IPU_C_BIAS)
  let y_bias : Bytes16 := set1 (.ofNat 8 IPU_Y_BIAS)
  let y_mask : Words8 := set1 0xFF00
  let round_1bit : Words8 := set1 1
  let alpha := c_bias
  let cb := mm_loadl_epi64 (mb8.Cb (half row))
  let cr := mm_loadl_epi64 (mb8.Cr (half row))
  let cb := unpacklo (set1 0) (lanes (· ^^^ ·) cb c_bias)
  let cr := unpacklo (set1 0) (lanes (· ^^^ ·) cr c_bias)
  let rc := lanes mm_mulhi_epi16 (toWords cr) (set1 (coefficient IPU_RCR_COEFF))
  let gc := lanes mm_adds_epi16 (lanes mm_mulhi_epi16 (toWords cr) (set1 (coefficient IPU_GCR_COEFF)))
    (lanes mm_mulhi_epi16 (toWords cb) (set1 (coefficient IPU_GCB_COEFF)))
  let bc := lanes mm_mulhi_epi16 (toWords cb) (set1 (coefficient IPU_BCB_COEFF))
  let y := lanes mm_subs_epu8 (mb8.Y row) y_bias
  let y_even : Words8 := fun i => toWords y i <<< 8
  let y_odd := lanes (· &&& ·) (toWords y) y_mask
  let y_even := lanes mm_mulhi_epu16 y_even (set1 (coefficient IPU_Y_COEFF))
  let y_odd := lanes mm_mulhi_epu16 y_odd (set1 (coefficient IPU_Y_COEFF))
  let round (c y : Words8) : Words8 := fun i => (mm_adds_epi16 (c i) (y i) + round_1bit i).sshiftRight 1
  let combine (c : Words8) : Bytes16 :=
    let packed := mm_packus_epi16 (round c y_even) (round c y_odd)
    unpacklo packed (mm_shuffle_3232 packed)
  let r := combine rc
  let g := combine gc
  let b := combine bc
  let rg_l := unpacklo r g
  let ba_l := unpacklo b alpha
  let rg_h := unpackhi r g
  let ba_h := unpackhi b alpha
  storeRow (toBytes (unpacklo (toWords rg_l) (toWords ba_l))) (toBytes (unpackhi (toWords rg_l) (toWords ba_l)))
    (toBytes (unpacklo (toWords rg_h) (toWords ba_h))) (toBytes (unpackhi (toWords rg_h) (toWords ba_h)))

/-! ## NEON -/

def vqdmulhq_s16 (a b : BitVec 16) : BitVec 16 := saturate 16 ((2 * a.toInt * b.toInt) >>> (16 : Nat))

def MULHI16 (a b : BitVec 16) : BitVec 16 := (vqdmulhq_s16 a b).sshiftRight 1

def vqaddq_s16 (a b : BitVec 16) : BitVec 16 := saturate 16 (a.toInt + b.toInt)

def vqsubq_u8 (a b : BitVec 8) : BitVec 8 := saturateU 8 (a.toNat - b.toNat)

def vmull_u16 (a b : BitVec 16) : BitVec 32 := a.setWidth 32 * b.setWidth 32

/-- The products of the low and of the high lanes as words, of which `vuzp2q_u16` takes the odd ones. -/
def mulhi_u16 (a b : Words8) : Words8 :=
  let ab3210 : Fin 4 → BitVec 32 := fun i => vmull_u16 (a ⟨i, by omega⟩) (b ⟨i, by omega⟩)
  let ab7654 : Fin 4 → BitVec 32 := fun i => vmull_u16 (a ⟨4 + i, by omega⟩) (b ⟨4 + i, by omega⟩)
  let words (v : Fin 4 → BitVec 32) : Words8 := fun i => (v ⟨i / 2, by omega⟩).extractLsb' (16 * (i % 2)) 16
  let vuzp2q_u16 (a b : Words8) : Words8 := fun i =>
    if h : i.val < 4 then a ⟨2 * i + 1, by omega⟩ else b ⟨2 * (i - 4) + 1, by omega⟩
  vuzp2q_u16 (words ab3210) (words ab7654)

def vqmovun_s16 (a : Words8) : Fin 8 → BitVec 8 := fun i => saturateU 8 (a i).toInt

def vcombine (low high : Fin 8 → BitVec 8) : Bytes16 := fun i =>
  if h : i.val < 8 then low ⟨i, h⟩ else high ⟨i - 8, by omega⟩

/-- `vzip1q` and `vzip2q` are `unpacklo` and `unpackhi`. -/
def yuv2rgb_neon (mb8 : Macroblock8) : MacroblockRgb32 := fun row =>
  let c_bias : Bytes16 := set1 (.ofNat 8 IPU_C_BIAS)
  let y_bias : Bytes16 := set1 (.ofNat 8 IPU_Y_BIAS)
  let y_mask : Words8 := set1 0xFF00
  let round_1bit : Words8 := set1 1
  let alpha := c_bias
  let cb := vcombine (mb8.Cb (half row)) (set1 0)
  let cr := vcombine (mb8.Cr (half row)) (set1 0)
  let cb := unpacklo (set1 0) (lanes (· ^^^ ·) cb c_bias)
  let cr := unpacklo (set1 0) (lanes (· ^^^ ·) cr c_bias)
  let rc := lanes MULHI16 (toWords cr) (set1 (coefficient IPU_RCR_COEFF))
  let gc := lanes vqaddq_s16 (lanes MULHI16 (toWords cr) (set1 (coefficient IPU_GCR_COEFF)))
    (lanes MULHI16 (toWords cb) (set1 (coefficient IPU_GCB_COEFF)))
  let bc := lanes MULHI16 (toWords cb) (set1 (coefficient IPU_BCB_COEFF))
  let y := lanes vqsubq_u8 (mb8.Y row) y_bias
  let y_even : Words8 := fun i => toWords y i <<< 8
  let y_odd := lanes (· &&& ·) (toWords y) y_mask
  let y_even := mulhi_u16 y_even (set1 (coefficient IPU_Y_COEFF))
  let y_odd := mulhi_u16 y_odd (set1 (coefficient IPU_Y_COEFF))
  let round (c y : Words8) : Words8 := fun i => (vqaddq_s16 (c i) (y i) + round_1bit i).sshiftRight 1
  let combine (c : Words8) : Bytes16 :=
    let packed := vcombine (vqmovun_s16 (round c y_even)) (vqmovun_s16 (round c y_odd))
    unpacklo packed fun i => packed ⟨8 + i % 8, by omega⟩
  let r := combine rc
  let g := combine gc
  let b := combine bc
  let rg_l := unpacklo r g
  let ba_l := unpacklo b alpha
  let rg_h := unpackhi r g
  let ba_h := unpackhi b alpha
  storeRow (toBytes (unpacklo (toWords rg_l) (toWords ba_l))) (toBytes (unpackhi (toWords rg_l) (toWords ba_l)))
    (toBytes (unpacklo (toWords rg_h) (toWords ba_h))) (toBytes (unpackhi (toWords rg_h) (toWords ba_h)))

/-! ## The pixels of a row -/

section
variable (r g b alpha : Bytes16)

theorem pixel_of {v : Bytes16} {i j k l : Fin 16} {r g b a : BitVec 8} (bytes : v i = r ∧ v j = g ∧ v k = b ∧ v l = a) :
    Rgba.mk (v i) (v j) (v k) (v l) = ⟨r, g, b, a⟩ := by
  obtain ⟨rfl, rfl, rfl, rfl⟩ := bytes
  rfl

theorem storeRow_pixels (x : Fin 16) :
    storeRow (toBytes (unpacklo (toWords (unpacklo r g)) (toWords (unpacklo b alpha))))
      (toBytes (unpackhi (toWords (unpacklo r g)) (toWords (unpacklo b alpha))))
      (toBytes (unpacklo (toWords (unpackhi r g)) (toWords (unpackhi b alpha))))
      (toBytes (unpackhi (toWords (unpackhi r g)) (toWords (unpackhi b alpha)))) x = ⟨r x, g x, b x, alpha x⟩ := by
  have ll := toBytes_unpacklo (unpacklo r g) (unpacklo b alpha)
  have lh := toBytes_unpackhi (unpacklo r g) (unpacklo b alpha)
  have hl := toBytes_unpacklo (unpackhi r g) (unpackhi b alpha)
  have hh := toBytes_unpackhi (unpackhi r g) (unpackhi b alpha)
  fin_cases x <;> [exact pixel_of (ll 0); exact pixel_of (ll 1); exact pixel_of (ll 2); exact pixel_of (ll 3);
    exact pixel_of (lh 0); exact pixel_of (lh 1); exact pixel_of (lh 2); exact pixel_of (lh 3);
    exact pixel_of (hl 0); exact pixel_of (hl 1); exact pixel_of (hl 2); exact pixel_of (hl 3);
    exact pixel_of (hh 0); exact pixel_of (hh 1); exact pixel_of (hh 2); exact pixel_of (hh 3)]

end

theorem combined (even odd : Words8) (x : Fin 16) :
    unpacklo (mm_packus_epi16 even odd) (mm_shuffle_3232 (mm_packus_epi16 even odd)) x =
      saturateU 8 (if x.val % 2 = 0 then even (half x) else odd (half x)).toInt := by
  fin_cases x <;> rfl

/-! ## The lanes of a row -/

theorem chroma_word (C : BitVec 8) : (((C ^^^ .ofNat 8 IPU_C_BIAS) ++ 0#8 : BitVec 16)).toInt = 256 * (C.toNat - 128) := by
  revert C
  decide

theorem mulhi_epi16_chroma (C : BitVec 8) (coeff : Int) (shifted : (coefficient coeff).toInt = 4 * coeff)
    (low : -0x102 ≤ coeff) (high : coeff ≤ 0x102) :
    (mm_mulhi_epi16 ((C ^^^ .ofNat 8 IPU_C_BIAS) ++ 0#8) (coefficient coeff)).toInt =
        (coeff * (C.toNat - 128)) >>> (6 : Nat) ∧
      -0x204 ≤ (coeff * (C.toNat - 128)) >>> (6 : Nat) ∧ (coeff * (C.toNat - 128)) >>> (6 : Nat) ≤ 0x204 := by
  have small := C.isLt
  have bound : |coeff * (C.toNat - 128)| ≤ 0x102 * 128 := by
    rw [abs_mul]
    exact mul_le_mul (abs_le.mpr ⟨low, high⟩) (abs_le.mpr ⟨by omega, by omega⟩) (abs_nonneg _) (by decide)
  obtain ⟨below, above⟩ := abs_le.mp bound
  have product : ((256 * (C.toNat - 128) : Int) * (4 * coeff)) >>> (16 : Nat) = (coeff * (C.toNat - 128)) >>> (6 : Nat) := by
    rw [Int.shiftRight_eq_div_pow, Int.shiftRight_eq_div_pow]
    have same : (256 * (C.toNat - 128) : Int) * (4 * coeff) = coeff * (C.toNat - 128) * 2 ^ 10 := by ring
    rw [same]
    omega
  have near : -0x204 ≤ (coeff * (C.toNat - 128)) >>> (6 : Nat) ∧ (coeff * (C.toNat - 128)) >>> (6 : Nat) ≤ 0x204 := by
    rw [Int.shiftRight_eq_div_pow]
    omega
  refine ⟨?_, near⟩
  rw [mm_mulhi_epi16, chroma_word, shifted, product, toInt_ofInt16 (by omega) (by omega)]

theorem luma_word (y : BitVec 8) : (y ++ 0#8 : BitVec 16).toNat = 256 * y.toNat := by
  rw [BitVec.toNat_append, Nat.shiftLeft_eq]
  simp [Nat.mul_comm]

theorem mulhi_epu16_luma (y : BitVec 8) :
    (mm_mulhi_epu16 (y ++ 0#8) (coefficient IPU_Y_COEFF)).toInt = (IPU_Y_COEFF * y.toNat) >>> (6 : Nat) := by
  have small := y.isLt
  have coeff : (coefficient IPU_Y_COEFF).toNat = 4 * 0x95 := rfl
  have product : (256 * y.toNat * (4 * 0x95)) >>> 16 = (0x95 * y.toNat) / 64 := by
    rw [Nat.shiftRight_eq_div_pow]
    omega
  rw [mm_mulhi_epu16, luma_word, coeff, product, BitVec.toInt_ofNat', Int.shiftRight_eq_div_pow, IPU_Y_COEFF]
  rw [Int.bmod_eq_of_le (by omega) (by omega)]
  omega

theorem rounded {c y : BitVec 16} {C L : Int} (chroma : c.toInt = C) (luma : y.toInt = L)
    (low : -2 ^ 14 ≤ C) (high : C < 2 ^ 14) (positive : 0 ≤ L) (small : L < 2 ^ 13) :
    ((mm_adds_epi16 c y + 1).sshiftRight 1).toInt = (L + C + 1) >>> (1 : Nat) := by
  have sum : (mm_adds_epi16 c y).toInt = C + L := by
    rw [mm_adds_epi16, chroma, luma, saturate_of_fits (by omega) (by omega)]
  have one : (1 : BitVec 16).toInt = 1 := rfl
  rw [BitVec.toInt_sshiftRight, BitVec.toInt_add, sum, one, Int.bmod_eq_of_le (by omega) (by omega)]
  congr 1
  omega

theorem even_word (high low : BitVec 8) : (high ++ low : BitVec 16) <<< 8 = low ++ 0#8 := by
  ext i bound
  simp only [BitVec.getElem_shiftLeft, BitVec.getElem_append]
  grind

theorem odd_word (high low : BitVec 8) : (high ++ low : BitVec 16) &&& 0xFF00 = high ++ 0#8 := by
  have mask : (0xFF00 : BitVec 16) = BitVec.allOnes 8 ++ 0#8 := rfl
  rw [mask, BitVec.and_append, BitVec.and_allOnes, BitVec.and_zero]

theorem biased (Y : BitVec 8) : ((mm_subs_epu8 Y (.ofNat 8 IPU_Y_BIAS)).toNat : Int) = max 0 (Y.toNat - IPU_Y_BIAS : Int) := by
  have small := Y.isLt
  have bias : ((BitVec.ofNat 8 IPU_Y_BIAS).toNat : Int) = IPU_Y_BIAS := rfl
  rw [mm_subs_epu8, toNat_saturateU, bias]
  unfold IPU_Y_BIAS
  omega

/-- `(C - 128) << 8` for eight pixels. -/
def chromaWords (C : Fin 8 → BitVec 8) : Words8 :=
  toWords (unpacklo (set1 0) (lanes (· ^^^ ·) (mm_loadl_epi64 C) (set1 (.ofNat 8 IPU_C_BIAS))))

theorem chroma_lane (C : Fin 8 → BitVec 8) (i : Fin 8) : chromaWords C i = (C i ^^^ .ofNat 8 IPU_C_BIAS) ++ 0#8 := by
  fin_cases i <;> rfl

theorem chroma_product (C : Fin 8 → BitVec 8) (coeff : Int) (shifted : (coefficient coeff).toInt = 4 * coeff)
    (low : -0x102 ≤ coeff) (high : coeff ≤ 0x102) (i : Fin 8) :
    (lanes mm_mulhi_epi16 (chromaWords C) (set1 (coefficient coeff)) i).toInt = (coeff * ((C i).toNat - 128)) >>> (6 : Nat) ∧
      -0x204 ≤ (coeff * ((C i).toNat - 128 : Int)) >>> (6 : Nat) ∧
      (coeff * ((C i).toNat - 128 : Int)) >>> (6 : Nat) ≤ 0x204 := by
  rw [lanes, chroma_lane]
  exact mulhi_epi16_chroma (C i) coeff shifted low high

theorem luma_lane (Y : Bytes16) (x : Fin 16) :
    (if x.val % 2 = 0 then mm_mulhi_epu16 (toWords Y (half x) <<< 8) (coefficient IPU_Y_COEFF)
      else mm_mulhi_epu16 (toWords Y (half x) &&& 0xFF00) (coefficient IPU_Y_COEFF)).toInt =
      (IPU_Y_COEFF * (Y x).toNat) >>> (6 : Nat) := by
  have lane : ∀ i : Fin 16, i = x → (Y i) = Y x := fun _ same => congrArg Y same
  split
  · rename_i even
    rw [toWords, even_word, mulhi_epu16_luma, lane ⟨2 * half x, by omega⟩ (Fin.ext (by simp only [half]; omega))]
  · rename_i odd
    rw [toWords, odd_word, mulhi_epu16_luma, lane ⟨2 * half x + 1, by omega⟩ (Fin.ext (by simp only [half]; omega))]

/-! ## The vector versions and the reference -/

theorem channel {c y_even y_odd : BitVec 16} {x : Fin 16} {C L : Int} (chroma : c.toInt = C)
    (luma : (if x.val % 2 = 0 then y_even else y_odd).toInt = L)
    (low : -2 ^ 14 ≤ C) (high : C < 2 ^ 14) (positive : 0 ≤ L) (small : L < 2 ^ 13) :
    saturateU 8 (if x.val % 2 = 0 then (mm_adds_epi16 c y_even + 1).sshiftRight 1
      else (mm_adds_epi16 c y_odd + 1).sshiftRight 1).toInt = .ofInt 8 (max 0 (min 255 ((L + C + 1) >>> (1 : Nat)))) := by
  split at luma
  · rename_i even
    rw [if_pos even, rounded chroma luma low high positive small]
    rfl
  · rename_i odd
    rw [if_neg odd, rounded chroma luma low high positive small]
    rfl

theorem sse2_reference (mb8 : Macroblock8) : yuv2rgb_sse2 mb8 = yuv2rgb_reference mb8 := by
  funext row x
  have luma := luma_lane (lanes mm_subs_epu8 (mb8.Y row) (set1 (.ofNat 8 IPU_Y_BIAS))) x
  have lit : ((lanes mm_subs_epu8 (mb8.Y row) (set1 (.ofNat 8 IPU_Y_BIAS)) x).toNat : Int) =
      max 0 ((mb8.Y row x).toNat - IPU_Y_BIAS : Int) :=
    biased _
  have positive : 0 ≤ (IPU_Y_COEFF * max 0 ((mb8.Y row x).toNat - IPU_Y_BIAS : Int)) >>> (6 : Nat) := by
    simp only [IPU_Y_COEFF, IPU_Y_BIAS, Int.shiftRight_eq_div_pow]
    omega
  have small : (IPU_Y_COEFF * max 0 ((mb8.Y row x).toNat - IPU_Y_BIAS : Int)) >>> (6 : Nat) < 2 ^ 13 := by
    have bound := (mb8.Y row x).isLt
    simp only [IPU_Y_COEFF, IPU_Y_BIAS, Int.shiftRight_eq_div_pow]
    omega
  rw [lit] at luma
  obtain ⟨red, rlow, rhigh⟩ := chroma_product (mb8.Cr (half row)) IPU_RCR_COEFF rfl (by decide) (by decide) (half x)
  obtain ⟨gcr, grlow, grhigh⟩ := chroma_product (mb8.Cr (half row)) IPU_GCR_COEFF rfl (by decide) (by decide) (half x)
  obtain ⟨gcb, gblow, gbhigh⟩ := chroma_product (mb8.Cb (half row)) IPU_GCB_COEFF rfl (by decide) (by decide) (half x)
  obtain ⟨blue, blow, bhigh⟩ := chroma_product (mb8.Cb (half row)) IPU_BCB_COEFF rfl (by decide) (by decide) (half x)
  have green : (lanes mm_adds_epi16 (lanes mm_mulhi_epi16 (chromaWords (mb8.Cr (half row))) (set1 (coefficient IPU_GCR_COEFF)))
      (lanes mm_mulhi_epi16 (chromaWords (mb8.Cb (half row))) (set1 (coefficient IPU_GCB_COEFF))) (half x)).toInt =
      (IPU_GCR_COEFF * ((mb8.Cr (half row) (half x)).toNat - 128 : Int)) >>> (6 : Nat) +
        (IPU_GCB_COEFF * ((mb8.Cb (half row) (half x)).toNat - 128 : Int)) >>> (6 : Nat) := by
    rw [lanes, mm_adds_epi16, gcr, gcb]
    exact saturate_of_fits (by omega) (by omega)
  have r := channel red luma (by omega) (by omega) positive small
  have g := channel green luma (by omega) (by omega) positive small
  have b := channel blue luma (by omega) (by omega) positive small
  rw [← Int.add_assoc] at g
  simp only [yuv2rgb_sse2, storeRow_pixels, combined]
  exact (Rgba.mk.injEq ..).mpr ⟨r, g, b, rfl⟩

theorem MULHI16_eq (a b : BitVec 16) (small : b.toInt ≠ -2 ^ 15) : MULHI16 a b = mm_mulhi_epi16 a b := by
  have lowA := BitVec.le_toInt a
  have highA := BitVec.toInt_lt (x := a)
  have lowB := BitVec.le_toInt b
  have highB := BitVec.toInt_lt (x := b)
  have bound : |a.toInt * b.toInt| ≤ 2 ^ 15 * (2 ^ 15 - 1) := by
    rw [abs_mul]
    exact mul_le_mul (abs_le.mpr ⟨by omega, by omega⟩) (abs_le.mpr ⟨by omega, by omega⟩) (abs_nonneg _) (by decide)
  obtain ⟨below, above⟩ := abs_le.mp bound
  have doubled : 2 * a.toInt * b.toInt = 2 * (a.toInt * b.toInt) := Int.mul_assoc ..
  refine BitVec.eq_of_toInt_eq ?_
  rw [MULHI16, vqdmulhq_s16, mm_mulhi_epi16, BitVec.toInt_sshiftRight, doubled, Int.shiftRight_eq_div_pow,
    Int.shiftRight_eq_div_pow, Int.shiftRight_eq_div_pow]
  rw [saturate_of_fits (by omega) (by omega), toInt_ofInt16 (by omega) (by omega)]
  omega

theorem lanes_MULHI16 (v : Words8) (coeff : Int) (small : (coefficient coeff).toInt ≠ -2 ^ 15) :
    lanes MULHI16 v (set1 (coefficient coeff)) = lanes mm_mulhi_epi16 v (set1 (coefficient coeff)) := by
  funext i
  exact MULHI16_eq _ _ small

theorem vmull_u16_high (a b : BitVec 16) : (vmull_u16 a b).extractLsb' 16 16 = mm_mulhi_epu16 a b := by
  have product : a.toNat * b.toNat < 2 ^ 32 := by
    have := Nat.mul_lt_mul'' a.isLt b.isLt
    omega
  refine BitVec.eq_of_toNat_eq ?_
  rw [vmull_u16, mm_mulhi_epu16, BitVec.extractLsb'_toNat, BitVec.toNat_mul, BitVec.toNat_setWidth, BitVec.toNat_setWidth,
    BitVec.toNat_ofNat, Nat.mod_eq_of_lt (Nat.lt_trans a.isLt (by decide)), Nat.mod_eq_of_lt (Nat.lt_trans b.isLt (by decide)),
    Nat.mod_eq_of_lt product]

theorem mulhi_u16_eq (a b : Words8) : mulhi_u16 a b = lanes mm_mulhi_epu16 a b := by
  funext i
  fin_cases i <;> exact vmull_u16_high _ _

theorem vcombine_vqmovun (a b : Words8) : vcombine (vqmovun_s16 a) (vqmovun_s16 b) = mm_packus_epi16 a b := by
  funext i
  unfold vcombine mm_packus_epi16 vqmovun_s16
  split
  · rfl
  · rfl

theorem neon_sse2 (mb8 : Macroblock8) : yuv2rgb_neon mb8 = yuv2rgb_sse2 mb8 := by
  funext row
  simp only [yuv2rgb_neon, yuv2rgb_sse2, mulhi_u16_eq, vcombine_vqmovun]
  rw [lanes_MULHI16 _ IPU_RCR_COEFF (by decide), lanes_MULHI16 _ IPU_GCR_COEFF (by decide),
    lanes_MULHI16 _ IPU_GCB_COEFF (by decide), lanes_MULHI16 _ IPU_BCB_COEFF (by decide)]
  rfl

/-! ## Dithering -/

/-- `rgb16_t`. -/
structure Rgb16 where
  r : BitVec 5
  g : BitVec 5
  b : BitVec 5
  a : BitVec 1
  deriving DecidableEq

abbrev MacroblockRgb16 : Type := Fin 16 → Fin 16 → Rgb16

def Rgb16.ofWord (word : BitVec 16) : Rgb16 :=
  ⟨word.extractLsb' 0 5, word.extractLsb' 5 5, word.extractLsb' 10 5, word.extractLsb' 15 1⟩

def dither_coefficient (i j : Fin 4) : Int :=
  ([[-4, 0, -3, 1], [2, -2, 3, -1], [-3, 1, -4, 0], [3, -1, 2, -2]].getD i []).getD j 0

def fourth (i : Fin 16) : Fin 4 := ⟨i % 4, by omega⟩

def ipu_dither_reference (rgb32 : MacroblockRgb32) (dte : Bool) : MacroblockRgb16 := fun i j =>
  let c := rgb32 i j
  if dte then
    let dither := dither_coefficient (fourth i) (fourth j)
    let r := max 0 (min (c.r.toNat + dither) 255)
    let g := max 0 (min (c.g.toNat + dither) 255)
    let b := max 0 (min (c.b.toNat + dither) 255)
    { r := .ofInt 5 (r >>> (3 : Nat))
      g := .ofInt 5 (g >>> (3 : Nat))
      b := .ofInt 5 (b >>> (3 : Nat))
      a := .ofBool (c.a = 0x40) }
  else
    { r := .ofNat 5 (c.r.toNat >>> 3)
      g := .ofNat 5 (c.g.toNat >>> 3)
      b := .ofNat 5 (c.b.toNat >>> 3)
      a := .ofBool (c.a = 0x40) }

def mm_setr_epi32 (e0 e1 e2 e3 : BitVec 32) : Bytes16 := fun i =>
  (if i.val < 4 then e0 else if i.val < 8 then e1 else if i.val < 12 then e2 else e3).extractLsb' (8 * (i % 4)) 8

def dither_add_matrix (i : Fin 4) : Bytes16 :=
  if i = 0 then mm_setr_epi32 0x00000000 0x00000000 0x00000000 0x00010101
  else if i = 1 then mm_setr_epi32 0x00020202 0x00000000 0x00030303 0x00000000
  else if i = 2 then mm_setr_epi32 0x00000000 0x00010101 0x00000000 0x00000000
  else mm_setr_epi32 0x00030303 0x00000000 0x00020202 0x00000000

def dither_sub_matrix (i : Fin 4) : Bytes16 :=
  if i = 0 then mm_setr_epi32 0x00040404 0x00000000 0x00030303 0x00000000
  else if i = 1 then mm_setr_epi32 0x00000000 0x00020202 0x00000000 0x00010101
  else if i = 2 then mm_setr_epi32 0x00030303 0x00000000 0x00040404 0x00000000
  else mm_setr_epi32 0x00000000 0x00010101 0x00000000 0x00020202

def Rgba.byte (c : Rgba) (i : Nat) : BitVec 8 := if i = 0 then c.r else if i = 1 then c.g else if i = 2 then c.b else c.a

def loadPixels (c : Fin 4 → Rgba) : Bytes16 := fun i => (c ⟨i / 4, by omega⟩).byte (i % 4)

def mm_cmpeq_epi16 (a b : BitVec 16) : BitVec 16 := if a = b then .allOnes 16 else 0

def ditherBytes (i : Fin 4) (dte : Bool) (v : Bytes16) : Bytes16 :=
  if dte then lanes mm_subs_epu8 (lanes mm_adds_epu8 v (dither_add_matrix i)) (dither_sub_matrix i) else v

def ditherHalf (i : Fin 4) (c : Fin 8 → Rgba) (dte : Bool) : Words8 :=
  let alpha_test : Words8 := set1 0x40
  let rgba_8_0123 := ditherBytes i dte (loadPixels fun k => c ⟨k, by omega⟩)
  let rgba_8_4567 := ditherBytes i dte (loadPixels fun k => c ⟨4 + k, by omega⟩)
  let rgba_16_0415 := unpacklo rgba_8_0123 rgba_8_4567
  let rgba_16_2637 := unpackhi rgba_8_0123 rgba_8_4567
  let rgba_32_0246 := unpacklo rgba_16_0415 rgba_16_2637
  let rgba_32_1357 := unpackhi rgba_16_0415 rgba_16_2637
  let rg_64_01234567 := unpacklo rgba_32_0246 rgba_32_1357
  let ba_64_01234567 := unpackhi rgba_32_0246 rgba_32_1357
  let zero : Bytes16 := set1 0
  let r := toWords (unpacklo rg_64_01234567 zero)
  let g := toWords (unpackhi rg_64_01234567 zero)
  let b := toWords (unpacklo ba_64_01234567 zero)
  let a := toWords (unpackhi ba_64_01234567 zero)
  fun k => r k >>> 3 ||| (g k >>> 3) <<< 5 ||| ((b k >>> 3) <<< 10 ||| mm_cmpeq_epi16 (a k) (alpha_test k) <<< 15)

def ipu_dither_sse2 (rgb32 : MacroblockRgb32) (dte : Bool) : MacroblockRgb16 := fun i x =>
  .ofWord (ditherHalf (fourth i) (fun k => rgb32 i ⟨x / 8 * 8 + k, by omega⟩) dte ⟨x % 8, by omega⟩)

theorem split_lanes (v w : Bytes16) (k : Fin 8) :
    let v' := if k.val < 4 then v else w
    let rg := unpacklo (unpacklo (unpacklo v w) (unpackhi v w)) (unpackhi (unpacklo v w) (unpackhi v w))
    let ba := unpackhi (unpacklo (unpacklo v w) (unpackhi v w)) (unpackhi (unpacklo v w) (unpackhi v w))
    toWords (unpacklo rg (set1 0)) k = 0#8 ++ v' ⟨4 * (k % 4), by omega⟩ ∧
    toWords (unpackhi rg (set1 0)) k = 0#8 ++ v' ⟨4 * (k % 4) + 1, by omega⟩ ∧
    toWords (unpacklo ba (set1 0)) k = 0#8 ++ v' ⟨4 * (k % 4) + 2, by omega⟩ ∧
    toWords (unpackhi ba (set1 0)) k = 0#8 ++ v' ⟨4 * (k % 4) + 3, by omega⟩ := by
  fin_cases k <;> exact ⟨rfl, rfl, rfl, rfl⟩

theorem dither_matrices (i k : Fin 4) : ∀ n : Fin 3,
    dither_add_matrix i ⟨4 * k + n, by omega⟩ = .ofInt 8 (max 0 (dither_coefficient i k)) ∧
    dither_sub_matrix i ⟨4 * k + n, by omega⟩ = .ofInt 8 (max 0 (-dither_coefficient i k)) := by
  revert i k
  decide

theorem last_lt (k : Fin 4) : 4 * k.val + 3 < 16 := by omega

theorem dither_alpha (i k : Fin 4) :
    dither_add_matrix i ⟨4 * k + 3, last_lt k⟩ = 0 ∧ dither_sub_matrix i ⟨4 * k + 3, last_lt k⟩ = 0 := by
  revert i k
  decide

theorem dither_small (i k : Fin 4) : -4 ≤ dither_coefficient i k ∧ dither_coefficient i k ≤ 3 := by
  revert i k
  decide

theorem dither_clamps (x : BitVec 8) {d : Int} (low : -4 ≤ d) (high : d ≤ 3) :
    ((mm_subs_epu8 (mm_adds_epu8 x (.ofInt 8 (max 0 d))) (.ofInt 8 (max 0 (-d)))).toNat : Int) =
      max 0 (min (x.toNat + d) 255) := by
  have small := x.isLt
  rw [mm_subs_epu8, mm_adds_epu8, toNat_saturateU, toNat_saturateU, toNat_ofInt8 (by omega) (by omega),
    toNat_ofInt8 (by omega) (by omega)]
  obtain under | above := le_total d 0
  · have added : max 0 d = 0 := max_eq_left under
    have taken : max 0 (-d) = -d := max_eq_right (by omega)
    rw [added, taken]
    omega
  · have added : max 0 d = d := max_eq_right above
    have taken : max 0 (-d) = 0 := max_eq_left (by omega)
    rw [added, taken]
    omega

/-! ## The fields of a word -/

theorem ofWord_or (v w : BitVec 16) : Rgb16.ofWord (v ||| w) =
    ⟨(Rgb16.ofWord v).r ||| (Rgb16.ofWord w).r, (Rgb16.ofWord v).g ||| (Rgb16.ofWord w).g,
      (Rgb16.ofWord v).b ||| (Rgb16.ofWord w).b, (Rgb16.ofWord v).a ||| (Rgb16.ofWord w).a⟩ := by
  simp only [Rgb16.ofWord, BitVec.extractLsb'_or]

theorem wide_toNat (r : BitVec 8) : (0#8 ++ r : BitVec 16).toNat = r.toNat := by
  rw [BitVec.toNat_append]
  simp

theorem red_field (r : BitVec 8) : Rgb16.ofWord ((0#8 ++ r : BitVec 16) >>> 3) = ⟨.ofNat 5 (r.toNat >>> 3), 0, 0, 0⟩ := by
  have low := r.isLt
  simp only [Rgb16.ofWord, Rgb16.mk.injEq, ← BitVec.toNat_inj, BitVec.extractLsb'_toNat, BitVec.toNat_ushiftRight,
    wide_toNat, BitVec.toNat_ofNat, Nat.shiftRight_eq_div_pow]
  simp
  omega

theorem green_field (g : BitVec 8) :
    Rgb16.ofWord (((0#8 ++ g : BitVec 16) >>> 3) <<< 5) = ⟨0, .ofNat 5 (g.toNat >>> 3), 0, 0⟩ := by
  have low : g.toNat / 2 ^ 3 < 32 := by have := g.isLt; omega
  simp only [Rgb16.ofWord, Rgb16.mk.injEq, ← BitVec.toNat_inj, BitVec.extractLsb'_toNat, BitVec.toNat_ushiftRight,
    BitVec.toNat_shiftLeft, wide_toNat, BitVec.toNat_ofNat, Nat.shiftRight_eq_div_pow, Nat.shiftLeft_eq]
  generalize g.toNat / 2 ^ 3 = upper at low
  have word : upper * 2 ^ 5 % 2 ^ 16 = upper * 2 ^ 5 := Nat.mod_eq_of_lt (by omega)
  rw [word]
  simp
  omega

theorem blue_field (b : BitVec 8) :
    Rgb16.ofWord (((0#8 ++ b : BitVec 16) >>> 3) <<< 10) = ⟨0, 0, .ofNat 5 (b.toNat >>> 3), 0⟩ := by
  have low : b.toNat / 2 ^ 3 < 32 := by have := b.isLt; omega
  simp only [Rgb16.ofWord, Rgb16.mk.injEq, ← BitVec.toNat_inj, BitVec.extractLsb'_toNat, BitVec.toNat_ushiftRight,
    BitVec.toNat_shiftLeft, wide_toNat, BitVec.toNat_ofNat, Nat.shiftRight_eq_div_pow, Nat.shiftLeft_eq]
  generalize b.toNat / 2 ^ 3 = upper at low
  have word : upper * 2 ^ 10 % 2 ^ 16 = upper * 2 ^ 10 := Nat.mod_eq_of_lt (by omega)
  rw [word]
  simp
  omega

theorem alpha_field (a : BitVec 8) :
    Rgb16.ofWord (mm_cmpeq_epi16 (0#8 ++ a) 0x40 <<< 15) = ⟨0, 0, 0, .ofBool (a = 0x40)⟩ := by
  revert a
  decide

theorem fields_of {R G B A : BitVec 16} {r g b : BitVec 5} {a : BitVec 1}
    (red : Rgb16.ofWord R = ⟨r, 0, 0, 0⟩) (green : Rgb16.ofWord G = ⟨0, g, 0, 0⟩)
    (blue : Rgb16.ofWord B = ⟨0, 0, b, 0⟩) (alpha : Rgb16.ofWord A = ⟨0, 0, 0, a⟩) :
    Rgb16.ofWord (R ||| G ||| (B ||| A)) = ⟨r, g, b, a⟩ := by
  simp only [ofWord_or, red, green, blue, alpha, BitVec.ofNat_eq_ofNat, BitVec.or_zero, BitVec.zero_or]

theorem loadPixels_byte (c : Fin 4 → Rgba) (k n : Fin 4) : loadPixels c ⟨4 * k + n, by omega⟩ = (c k).byte n := by
  fin_cases k <;> fin_cases n <;> rfl

def Rgba.dithered (c : Rgba) (i k : Fin 4) (dte : Bool) : Rgba :=
  if dte then
    let change (x : BitVec 8) := mm_subs_epu8 (mm_adds_epu8 x (.ofInt 8 (max 0 (dither_coefficient i k))))
      (.ofInt 8 (max 0 (-dither_coefficient i k)))
    ⟨change c.r, change c.g, change c.b, c.a⟩
  else c

theorem alpha_kept (x : BitVec 8) : mm_subs_epu8 (mm_adds_epu8 x 0) 0 = x := by
  revert x
  decide

theorem dithered_pixels (i : Fin 4) (c : Fin 4 → Rgba) (dte : Bool) (k n : Fin 4) :
    ditherBytes i dte (loadPixels c) ⟨4 * k + n, by omega⟩ = ((c k).dithered i k dte).byte n := by
  cases dte with
  | false => exact loadPixels_byte c k n
  | true =>
      simp only [ditherBytes, if_true, lanes, loadPixels_byte, Rgba.dithered]
      have colours := dither_matrices i k
      have alpha := dither_alpha i k
      fin_cases n
      · exact congrArg₂ mm_subs_epu8 (congrArg _ (colours 0).1) (colours 0).2
      · exact congrArg₂ mm_subs_epu8 (congrArg _ (colours 1).1) (colours 1).2
      · exact congrArg₂ mm_subs_epu8 (congrArg _ (colours 2).1) (colours 2).2
      · exact (congrArg₂ mm_subs_epu8 (congrArg _ alpha.1) alpha.2).trans (alpha_kept _)

theorem half_bytes (i : Fin 4) (c : Fin 8 → Rgba) (dte : Bool) (k : Fin 8) (n : Fin 4) :
    (if k.val < 4 then ditherBytes i dte (loadPixels fun k => c ⟨k, by omega⟩)
      else ditherBytes i dte (loadPixels fun k => c ⟨4 + k, by omega⟩)) ⟨4 * (k % 4) + n, by omega⟩ =
      ((c k).dithered i ⟨k % 4, by omega⟩ dte).byte n := by
  have cell : ∀ j : Fin 8, j = k → c j = c k := fun _ same => congrArg c same
  split
  · rw [dithered_pixels i (fun k => c ⟨k, by omega⟩) dte ⟨k % 4, by omega⟩ n]
    rw [cell ⟨k % 4, by omega⟩ (Fin.ext (by dsimp only; omega))]
  · rw [dithered_pixels i (fun k => c ⟨4 + k, by omega⟩) dte ⟨k % 4, by omega⟩ n]
    rw [cell ⟨4 + k % 4, by omega⟩ (Fin.ext (by dsimp only; omega))]

theorem ditherHalf_word (i : Fin 4) (c : Fin 8 → Rgba) (dte : Bool) (k : Fin 8) :
    let pixel := (c k).dithered i ⟨k % 4, by omega⟩ dte
    Rgb16.ofWord (ditherHalf i c dte k) = ⟨.ofNat 5 (pixel.r.toNat >>> 3), .ofNat 5 (pixel.g.toNat >>> 3),
      .ofNat 5 (pixel.b.toNat >>> 3), .ofBool (pixel.a = 0x40)⟩ := by
  have bytes := half_bytes i c dte k
  obtain ⟨r, g, b, a⟩ := split_lanes (ditherBytes i dte (loadPixels fun k => c ⟨k, by omega⟩))
    (ditherBytes i dte (loadPixels fun k => c ⟨4 + k, by omega⟩)) k
  simp only [ditherHalf, r, g, b, a]
  have red := (red_field _).trans (congrArg (fun x : BitVec 8 => Rgb16.mk (.ofNat 5 (x.toNat >>> 3)) 0 0 0) (bytes 0))
  have green := (green_field _).trans (congrArg (fun x : BitVec 8 => Rgb16.mk 0 (.ofNat 5 (x.toNat >>> 3)) 0 0) (bytes 1))
  have blue := (blue_field _).trans (congrArg (fun x : BitVec 8 => Rgb16.mk 0 0 (.ofNat 5 (x.toNat >>> 3)) 0) (bytes 2))
  have alpha := (alpha_field _).trans (congrArg (fun x : BitVec 8 => Rgb16.mk 0 0 0 (.ofBool (x = 0x40))) (bytes 3))
  exact fields_of red green blue alpha

theorem shifted_field {x : BitVec 8} {y : Int} (same : (x.toNat : Int) = y) :
    (BitVec.ofNat 5 (x.toNat >>> 3)) = .ofInt 5 (y >>> (3 : Nat)) := by
  subst same
  rfl

theorem dither_sse2_reference (rgb32 : MacroblockRgb32) (dte : Bool) :
    ipu_dither_sse2 rgb32 dte = ipu_dither_reference rgb32 dte := by
  funext i x
  have word := ditherHalf_word (fourth i) (fun k => rgb32 i ⟨x / 8 * 8 + k, by omega⟩) dte ⟨x % 8, by omega⟩
  have place : (⟨x / 8 * 8 + x % 8, by omega⟩ : Fin 16) = x := Fin.ext (by dsimp only; omega)
  have column : (⟨x % 8 % 4, by omega⟩ : Fin 4) = fourth x := Fin.ext (by simp only [fourth]; omega)
  refine word.trans ?_
  dsimp only
  rw [place, column]
  obtain ⟨low, high⟩ := dither_small (fourth i) (fourth x)
  cases dte with
  | false => rfl
  | true =>
      exact (Rgb16.mk.injEq ..).mpr ⟨shifted_field (dither_clamps _ low high), shifted_field (dither_clamps _ low high),
        shifted_field (dither_clamps _ low high), rfl⟩

/-! ## All versions -/

theorem colour_conversion_agrees :
    (∀ mb8 : Macroblock8, yuv2rgb_sse2 mb8 = yuv2rgb_reference mb8 ∧ yuv2rgb_neon mb8 = yuv2rgb_reference mb8) ∧
      ∀ (rgb32 : MacroblockRgb32) (dte : Bool), ipu_dither_sse2 rgb32 dte = ipu_dither_reference rgb32 dte := by
  refine ⟨fun mb8 => ⟨sse2_reference mb8, ?_⟩, dither_sse2_reference⟩
  rw [neon_sse2, sse2_reference]

end Pcsx2.Ipu
