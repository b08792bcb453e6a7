import Mathlib.Data.Nat.Bitwise
import Mathlib.Tactic.IntervalCases
import Pcsx2.Foundation.Masks

/-!
# Tags of the EE data cache

A tag is a host address of a page with the flags of the line in its low bits.
-/

namespace Pcsx2.EeCache
open Foundation

structure CacheTag where
  rawValue : UInt64
  deriving DecidableEq

namespace CacheTag

def DIRTY_FLAG : UInt64 := 0x40
def VALID_FLAG : UInt64 := 0x20
def LRF_FLAG : UInt64 := 0x10
def LOCK_FLAG : UInt64 := 0x8
def ALL_FLAGS : UInt64 := 0x7FF
def ALL_BITS : UInt64 := 0xFFF
def PFN_FLAG : UInt64 := 0x800

def flags (t : CacheTag) : UInt64 := t.rawValue &&& ALL_FLAGS

def isValid (t : CacheTag) : Bool := t.rawValue &&& VALID_FLAG != 0
def isDirty (t : CacheTag) : Bool := t.rawValue &&& DIRTY_FLAG != 0
def lrf (t : CacheTag) : Bool := t.rawValue &&& LRF_FLAG != 0
def isLocked (t : CacheTag) : Bool := t.rawValue &&& LOCK_FLAG != 0

def isDirtyAndValid (t : CacheTag) : Bool :=
  t.rawValue &&& (DIRTY_FLAG ||| VALID_FLAG) == (DIRTY_FLAG ||| VALID_FLAG)

def setValid (t : CacheTag) : CacheTag := ⟨t.rawValue ||| VALID_FLAG⟩
def setDirty (t : CacheTag) : CacheTag := ⟨t.rawValue ||| DIRTY_FLAG⟩
def clearDirty (t : CacheTag) : CacheTag := ⟨t.rawValue &&& ~~~DIRTY_FLAG⟩
def toggleLRF (t : CacheTag) : CacheTag := ⟨t.rawValue ^^^ LRF_FLAG⟩

def addr (t : CacheTag) : UInt64 := t.rawValue &&& ~~~ALL_BITS

def setAddr (t : CacheTag) (addr : UInt64) : CacheTag :=
  ⟨(t.rawValue &&& ALL_BITS) ||| (addr &&& ~~~ALL_BITS)⟩

def isMatch (t : CacheTag) (other : UInt64) : Bool := t.isValid && t.addr == other &&& ~~~ALL_BITS

def clear (t : CacheTag) : CacheTag := ⟨t.rawValue &&& LRF_FLAG⟩

def isValidPFN (t : CacheTag) : Bool := t.rawValue &&& PFN_FLAG != 0

def setValidPFN (t : CacheTag) (valid : Bool) : CacheTag :=
  ⟨if valid then t.rawValue ||| PFN_FLAG else t.rawValue &&& ~~~PFN_FLAG⟩

/-! ## Bits -/

def bit (t : CacheTag) (k : Nat) : Bool := t.rawValue.toBitVec.getLsbD k

def page (t : CacheTag) : Nat := t.rawValue.toNat / 4096

theorem flag_eq (x : UInt64) {flag : UInt64} {k : Nat} (small : k < 64) (single : flag.toBitVec = BitVec.twoPow 64 k) :
    (x &&& flag != 0) = x.toBitVec.getLsbD k := by
  have some : BitVec.twoPow 64 k ≠ 0#64 := fun none => by
    have bit := congrArg (BitVec.getLsbD · k) none
    simp [small] at bit
  rw [Bool.eq_iff_iff, bne_iff_ne, ne_eq, ← UInt64.toBitVec_inj, UInt64.toBitVec_and, single, BitVec.and_twoPow]
  split
  next set => exact iff_of_true some set
  next clear => exact iff_of_false (not_not.2 rfl) clear

theorem isValid_eq (t : CacheTag) : t.isValid = t.bit 5 := flag_eq _ (by decide) (by decide)

theorem isDirty_eq (t : CacheTag) : t.isDirty = t.bit 6 := flag_eq _ (by decide) (by decide)

theorem isLocked_eq (t : CacheTag) : t.isLocked = t.bit 3 := flag_eq _ (by decide) (by decide)

theorem isValidPFN_eq (t : CacheTag) : t.isValidPFN = t.bit 11 := flag_eq _ (by decide) (by decide)

theorem isDirtyAndValid_eq (t : CacheTag) : t.isDirtyAndValid = (t.isValid && t.isDirty) := by
  have both : (DIRTY_FLAG ||| VALID_FLAG).toBitVec = BitVec.twoPow 64 6 ||| BitVec.twoPow 64 5 := by decide
  rw [isValid_eq, isDirty_eq, Bool.eq_iff_iff, isDirtyAndValid, beq_iff_eq, Bool.and_eq_true, ← UInt64.toBitVec_inj,
    UInt64.toBitVec_and, both]
  constructor
  · intro same
    have five := congrArg (BitVec.getLsbD · 5) same
    have six := congrArg (BitVec.getLsbD · 6) same
    simp [BitVec.getLsbD_twoPow] at five six
    exact ⟨five, six⟩
  · rintro ⟨five, six⟩
    apply BitVec.eq_of_getLsbD_eq
    intro i _
    rw [BitVec.getLsbD_and, BitVec.getLsbD_or, BitVec.getLsbD_twoPow, BitVec.getLsbD_twoPow]
    by_cases first : 6 = i
    · rw [← first]
      exact (congrArg (· && _) six).trans (by decide)
    · by_cases second : 5 = i
      · rw [← second]
        exact (congrArg (· && _) five).trans (by decide)
      · simp [first, second]

theorem isMatch_eq (t : CacheTag) (other : UInt64) :
    t.isMatch other = (t.isValid && t.page == other.toNat / 4096) := by
  have low : ALL_BITS.toNat = 2 ^ 12 - 1 := rfl
  have same (x : UInt64) : (x &&& ~~~ALL_BITS).toNat = x.toNat / 4096 * 4096 :=
    bits_and_not_low (by decide) low x.toBitVec
  rw [isMatch, addr, Bool.eq_iff_iff, Bool.and_eq_true, Bool.and_eq_true, beq_iff_eq, beq_iff_eq, ← UInt64.toNat_inj,
    same, same, page]
  refine and_congr_right fun _ => ?_
  omega

/-! ## What the operations change -/

section

variable (t : CacheTag) {k : Nat} (low : k < 12)
include low

theorem bit_setValid : t.setValid.bit k = (t.bit k || k == 5) := by
  show (t.rawValue.toBitVec ||| 0x20#64).getLsbD k = _
  rw [BitVec.getLsbD_or, bit]
  congr 1
  interval_cases k <;> rfl

theorem bit_setDirty : t.setDirty.bit k = (t.bit k || k == 6) := by
  show (t.rawValue.toBitVec ||| 0x40#64).getLsbD k = _
  rw [BitVec.getLsbD_or, bit]
  congr 1
  interval_cases k <;> rfl

theorem bit_clearDirty : t.clearDirty.bit k = (t.bit k && k != 6) := by
  show (t.rawValue.toBitVec &&& ~~~0x40#64).getLsbD k = _
  rw [BitVec.getLsbD_and, bit]
  congr 1
  interval_cases k <;> rfl

theorem bit_toggleLRF : t.toggleLRF.bit k = (t.bit k ^^ k == 4) := by
  show (t.rawValue.toBitVec ^^^ 0x10#64).getLsbD k = _
  rw [BitVec.getLsbD_xor, bit]
  congr 1
  interval_cases k <;> rfl

theorem bit_clear : t.clear.bit k = (t.bit k && k == 4) := by
  show (t.rawValue.toBitVec &&& 0x10#64).getLsbD k = _
  rw [BitVec.getLsbD_and, bit]
  congr 1
  interval_cases k <;> rfl

theorem bit_setAddr (addr : UInt64) : (t.setAddr addr).bit k = t.bit k := by
  show (t.rawValue.toBitVec &&& 0xFFF#64 ||| addr.toBitVec &&& ~~~0xFFF#64).getLsbD k = _
  rw [BitVec.getLsbD_or, BitVec.getLsbD_and, BitVec.getLsbD_and, bit]
  have inside : (0xFFF#64).getLsbD k = true := by
    interval_cases k <;> rfl
  have outside : (~~~0xFFF#64).getLsbD k = false := by
    interval_cases k <;> rfl
  rw [inside, outside, Bool.and_true, Bool.and_false, Bool.or_false]

theorem bit_setValidPFN (valid : Bool) : (t.setValidPFN valid).bit k = if k = 11 then valid else t.bit k := by
  cases valid
  · show (t.rawValue.toBitVec &&& ~~~0x800#64).getLsbD k = _
    rw [BitVec.getLsbD_and]
    split
    next top => rw [top]; exact Bool.and_false _
    next below =>
      have kept : (~~~0x800#64).getLsbD k = true := by
        interval_cases k <;> first | rfl | contradiction
      rw [kept, Bool.and_true, bit]
  · show (t.rawValue.toBitVec ||| 0x800#64).getLsbD k = _
    rw [BitVec.getLsbD_or]
    split
    next top => rw [top]; exact Bool.or_true _
    next below =>
      have kept : (0x800#64).getLsbD k = false := by
        interval_cases k <;> first | rfl | contradiction
      rw [kept, Bool.or_false, bit]

end

theorem page_eq (x : UInt64) : x.toNat / 4096 = x.toNat >>> 12 := (Nat.shiftRight_eq_div_pow x.toNat 12).symm

theorem page_setValid (t : CacheTag) : t.setValid.page = t.page := by
  rw [page, page, page_eq, page_eq, setValid, UInt64.toNat_or, Nat.shiftRight_or_distrib]
  exact Nat.or_zero _

theorem page_setDirty (t : CacheTag) : t.setDirty.page = t.page := by
  rw [page, page, page_eq, page_eq, setDirty, UInt64.toNat_or, Nat.shiftRight_or_distrib]
  exact Nat.or_zero _

theorem page_toggleLRF (t : CacheTag) : t.toggleLRF.page = t.page := by
  rw [page, page, page_eq, page_eq, toggleLRF, UInt64.toNat_xor, Nat.shiftRight_xor_distrib]
  exact Nat.xor_zero _

theorem page_and (x : UInt64) {mask : UInt64} (keeps : mask.toNat >>> 12 = 2 ^ 52 - 1) :
    (x &&& mask).toNat / 4096 = x.toNat / 4096 := by
  have small := x.toNat_lt
  rw [page_eq, UInt64.toNat_and, Nat.shiftRight_and_distrib, keeps, Nat.and_two_pow_sub_one_eq_mod, ← page_eq]
  omega

theorem page_clearDirty (t : CacheTag) : t.clearDirty.page = t.page := page_and _ (by decide)

theorem page_setValidPFN (t : CacheTag) (valid : Bool) : (t.setValidPFN valid).page = t.page := by
  cases valid
  · exact page_and _ (by decide)
  · rw [page, page, page_eq, page_eq, setValidPFN, if_pos rfl, UInt64.toNat_or, Nat.shiftRight_or_distrib]
    exact Nat.or_zero _

theorem page_setAddr (t : CacheTag) (addr : UInt64) : (t.setAddr addr).page = addr.toNat / 4096 := by
  have low : (t.rawValue &&& ALL_BITS).toNat >>> 12 = 0 := by
    rw [UInt64.toNat_and, Nat.shiftRight_and_distrib]
    exact Nat.and_zero _
  rw [page, page_eq, setAddr, UInt64.toNat_or, Nat.shiftRight_or_distrib, low, Nat.zero_or, ← page_eq]
  exact page_and _ (by decide)

/-! ## Views -/

structure View where
  page : Nat
  valid : Bool
  dirty : Bool
  locked : Bool
  validPFN : Bool

def view (t : CacheTag) : View :=
  { page := t.page, valid := t.isValid, dirty := t.isDirty, locked := t.isLocked, validPFN := t.isValidPFN }

theorem view_eq (t : CacheTag) :
    t.view = { page := t.page, valid := t.bit 5, dirty := t.bit 6, locked := t.bit 3, validPFN := t.bit 11 } := by
  rw [view, isValid_eq, isDirty_eq, isLocked_eq, isValidPFN_eq]

theorem view_setValid (t : CacheTag) : t.setValid.view = { t.view with valid := true } := by
  simp [view_eq, bit_setValid, page_setValid]

theorem view_setDirty (t : CacheTag) : t.setDirty.view = { t.view with dirty := true } := by
  simp [view_eq, bit_setDirty, page_setDirty]

theorem view_clearDirty (t : CacheTag) : t.clearDirty.view = { t.view with dirty := false } := by
  simp [view_eq, bit_clearDirty, page_clearDirty]

theorem view_toggleLRF (t : CacheTag) : t.toggleLRF.view = t.view := by
  simp [view_eq, bit_toggleLRF, page_toggleLRF]

theorem view_setAddr (t : CacheTag) (addr : UInt64) : (t.setAddr addr).view = { t.view with page := addr.toNat / 4096 } := by
  simp [view_eq, bit_setAddr, page_setAddr]

theorem view_setValidPFN (t : CacheTag) (valid : Bool) : (t.setValidPFN valid).view = { t.view with validPFN := valid } := by
  simp [view_eq, bit_setValidPFN, page_setValidPFN]

theorem view_clear (t : CacheTag) :
    t.clear.view = { page := 0, valid := false, dirty := false, locked := false, validPFN := false } := by
  have none : t.clear.page = 0 := by
    rw [page, page_eq, clear, UInt64.toNat_and, Nat.shiftRight_and_distrib]
    exact Nat.and_zero _
  simp [view_eq, bit_clear, none]

end CacheTag

end Pcsx2.EeCache
