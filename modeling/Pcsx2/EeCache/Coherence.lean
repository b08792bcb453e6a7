import Mathlib.Tactic.Ring
import Pcsx2.EeCache.Cache

/-!
# The cache is coherent

A valid line has the bytes of the flat memory, and the host memory has them where no dirty line does.
-/

namespace Pcsx2.EeCache
open Foundation

/-! ## Places -/

theorem setIdxFor_val (mem : UInt32) : (setIdxFor mem).val = mem.toNat / 64 % 64 := by
  show ((mem >>> 6) &&& 0x3F).toNat = _
  rw [UInt32.toNat_and]
  show (mem >>> 6).toNat &&& (2 ^ 6 - 1) = _
  rw [Nat.and_two_pow_sub_one_eq_mod, UInt32.toNat_shiftRight, Nat.shiftRight_eq_div_pow]
  rfl

def CacheLine.base (line : CacheLine) (idx : Fin 64) : Nat := line.tag.view.page * 4096 + idx.val * 64

theorem addr_toNat (line : CacheLine) (idx : Fin 64) : (line.addr idx).toNat = line.base idx := by
  have page : line.tag.addr.toNat = line.tag.view.page * 4096 :=
    bits_and_not_low (by decide) (by decide : CacheTag.ALL_BITS.toNat = 2 ^ 12 - 1) line.tag.rawValue.toBitVec
  have small := idx.isLt
  have index : (UInt64.ofNat (idx.val <<< 6)).toNat = idx.val * 64 := by
    rw [Nat.shiftLeft_eq, UInt64.toNat_ofNat', Nat.mod_eq_of_lt (by omega)]
  rw [CacheLine.addr, UInt64.toNat_or, page, index, Nat.mul_comm, CacheLine.base, Nat.mul_comm line.tag.view.page]
  exact (Nat.two_pow_add_eq_or_of_lt (show idx.val * 64 < 2 ^ 12 by omega) _).symm

theorem lineBase_toNat (ppf : UInt64) : (ppf &&& ~~~0x3F).toNat = ppf.toNat / 64 * 64 :=
  bits_and_not_low (by decide) (by decide : (0x3F : UInt64).toNat = 2 ^ 6 - 1) ppf.toBitVec

theorem offset_toNat (width : Width) (mem : UInt32) :
    ((mem &&& ~~~UInt32.ofNat (width.bytes - 1)) &&& 0x3F).toNat = mem.toNat / width.bytes * width.bytes % 64 := by
  have aligned : (mem &&& ~~~UInt32.ofNat (width.bytes - 1)).toNat = mem.toNat / width.bytes * width.bytes := by
    cases width with
    | w8 => exact and_not_low mem (k := 0) (by decide) (by decide)
    | w16 => exact and_not_low mem (k := 1) (by decide) (by decide)
    | w32 => exact and_not_low mem (k := 2) (by decide) (by decide)
    | w64 => exact and_not_low mem (k := 3) (by decide) (by decide)
    | w128 => exact and_not_low mem (k := 4) (by decide) (by decide)
  rw [UInt32.toNat_and, aligned]
  show _ &&& (2 ^ 6 - 1) = _
  rw [Nat.and_two_pow_sub_one_eq_mod]

theorem offset_le (width : Width) (mem : UInt32) : mem.toNat / width.bytes * width.bytes % 64 + width.bytes ≤ 64 := by
  cases width <;> simp only [Width.bytes] <;> omega

theorem place_eq {mem : UInt32} {ppf : UInt64} (width : Width) (same : ppf.toNat % 4096 = mem.toNat % 4096) :
    place width ppf = ppf.toNat / 4096 * 4096 + (setIdxFor mem).val * 64 + mem.toNat / width.bytes * width.bytes % 64 := by
  rw [place, setIdxFor_val]
  cases width <;> simp only [Width.bytes] <;> omega

theorem storeBytes_outside {memory bytes : Nat → UInt8} {address n a : Nat} (outside : ¬ (address ≤ a ∧ a < address + n)) :
    storeBytes memory address n bytes a = memory a := if_neg outside

/-! ## Coherence -/

/-- A valid line for the page. -/
def State.Caches (s : State) (idx : Fin 64) (way : Bool) (page : Nat) : Prop :=
  (s.lines idx way).tag.view.valid = true ∧ (s.lines idx way).tag.view.page = page

def State.Owns (s : State) (idx : Fin 64) (way : Bool) (a : Nat) : Prop :=
  (s.lines idx way).tag.isDirtyAndValid = true ∧ (s.lines idx way).tag.view.validPFN = true ∧
    (s.lines idx way).base idx ≤ a ∧ a < (s.lines idx way).base idx + 64

structure Coherent (exist : Nat → Bool) (flat : Nat → UInt8) (s : State) : Prop where
  unlocked : ∀ idx way, (s.lines idx way).tag.view.locked = false
  /-- No page is in both ways. -/
  apart : ∀ idx page, ¬ (s.Caches idx false page ∧ s.Caches idx true page)
  pfn : ∀ idx way page, s.Caches idx way page → (s.lines idx way).tag.view.validPFN = exist page
  data : ∀ idx way page, s.Caches idx way page → exist page = true → ∀ i < 64,
    (s.lines idx way).data i = flat (page * 4096 + idx.val * 64 + i)
  memory : ∀ a, (∀ idx way, ¬ s.Owns idx way a) → s.memory a = flat a

section

variable {s : State} {idx : Fin 64} {way : Bool} {line : CacheLine}

@[simp] theorem setLine_self : (s.setLine idx way line).lines idx way = line := by
  simp [State.setLine]

theorem setLine_setLine {line' : CacheLine} : (s.setLine idx way line).setLine idx way line' = s.setLine idx way line' := by
  simp [State.setLine]

theorem setLine_other {other : Fin 64} {way' : Bool} (differ : ¬ (other = idx ∧ way' = way)) :
    (s.setLine idx way line).lines other way' = s.lines other way' := by
  rw [State.setLine]
  dsimp only
  by_cases same : other = idx
  · rw [same, Function.update_self, Function.update_of_ne fun equal => differ ⟨same, equal⟩]
  · rw [Function.update_of_ne same]

theorem caches_other {other : Fin 64} {way' : Bool} {page : Nat} (differ : ¬ (other = idx ∧ way' = way)) :
    (s.setLine idx way line).Caches other way' page ↔ s.Caches other way' page := by
  rw [State.Caches, setLine_other differ, State.Caches]

theorem caches_self {page : Nat} :
    (s.setLine idx way line).Caches idx way page ↔ line.tag.view.valid = true ∧ line.tag.view.page = page := by
  rw [State.Caches, setLine_self]

theorem owns_other {other : Fin 64} {way' : Bool} {a : Nat} (differ : ¬ (other = idx ∧ way' = way)) :
    (s.setLine idx way line).Owns other way' a ↔ s.Owns other way' a := by
  rw [State.Owns, setLine_other differ, State.Owns]

theorem State.Owns.caches {a : Nat} (owns : s.Owns idx way a) : s.Caches idx way (s.lines idx way).tag.view.page := by
  have valid := owns.1
  rw [CacheTag.isDirtyAndValid_eq, Bool.and_eq_true] at valid
  exact ⟨valid.1, rfl⟩

end

section

variable {exist : Nat → Bool} {flat : Nat → UInt8} {s : State} {idx : Fin 64} {way : Bool} {line : CacheLine}
  (coherent : Coherent exist flat s)
include coherent

theorem Coherent.one {page : Nat} {way way' : Bool} (first : s.Caches idx way page) (second : s.Caches idx way' page) :
    way = way' := by
  by_contra differ
  cases way
  · cases way'
    · exact differ rfl
    · exact coherent.apart idx page ⟨first, second⟩
  · cases way'
    · exact coherent.apart idx page ⟨second, first⟩
    · exact differ rfl

theorem Coherent.setClean (clean : (s.lines idx way).tag.isDirtyAndValid = false)
    (unlocked : line.tag.view.locked = false) (unwritten : line.tag.isDirtyAndValid = false)
    (new : line.tag.view.valid = true → ¬ s.Caches idx (!way) line.tag.view.page)
    (pfn : line.tag.view.valid = true → line.tag.view.validPFN = exist line.tag.view.page)
    (data : line.tag.view.valid = true → exist line.tag.view.page = true → ∀ i < 64,
      line.data i = flat (line.tag.view.page * 4096 + idx.val * 64 + i)) :
    Coherent exist flat (s.setLine idx way line) where
  unlocked other way' := by
    by_cases same : other = idx ∧ way' = way
    · obtain ⟨rfl, rfl⟩ := same
      rw [setLine_self]
      exact unlocked
    · rw [setLine_other same]
      exact coherent.unlocked other way'
  apart other page := by
    rintro ⟨first, second⟩
    by_cases same : other = idx
    · subst same
      cases way
      · obtain ⟨valid, rfl⟩ := caches_self.1 first
        exact new valid ((caches_other (by simp)).1 second)
      · obtain ⟨valid, rfl⟩ := caches_self.1 second
        exact new valid ((caches_other (by simp)).1 first)
    · have elsewhere (way' : Bool) : ¬ (other = idx ∧ way' = way) := fun both => same both.1
      exact coherent.apart other page ⟨(caches_other (elsewhere _)).1 first, (caches_other (elsewhere _)).1 second⟩
  pfn other way' page caches := by
    by_cases same : other = idx ∧ way' = way
    · obtain ⟨rfl, rfl⟩ := same
      obtain ⟨valid, rfl⟩ := caches_self.1 caches
      rw [setLine_self]
      exact pfn valid
    · rw [setLine_other same]
      exact coherent.pfn other way' page ((caches_other same).1 caches)
  data other way' page caches real i inside := by
    by_cases same : other = idx ∧ way' = way
    · obtain ⟨rfl, rfl⟩ := same
      obtain ⟨valid, rfl⟩ := caches_self.1 caches
      rw [setLine_self]
      exact data valid real i inside
    · rw [setLine_other same]
      exact coherent.data other way' page ((caches_other same).1 caches) real i inside
  memory a unowned := by
    refine coherent.memory a fun other way' owns => ?_
    by_cases same : other = idx ∧ way' = way
    · obtain ⟨rfl, rfl⟩ := same
      exact absurd owns.1 (clean ▸ nofun)
    · exact unowned other way' ((owns_other same).2 owns)

end

/-! ## Writing back -/

section

variable {s : State} {idx : Fin 64} {way : Bool}

theorem writeBack_of_clean (clean : (s.lines idx way).tag.isDirtyAndValid = false) : s.writeBackIfNeeded idx way = s :=
  if_neg (clean ▸ nofun)

theorem writeBack_of_dirty (dirty : (s.lines idx way).tag.isDirtyAndValid = true) :
    s.writeBackIfNeeded idx way =
      { s with
        memory := if (s.lines idx way).tag.view.validPFN then
          storeBytes s.memory ((s.lines idx way).base idx) 64 (s.lines idx way).data else s.memory }.setLine idx way
        { s.lines idx way with tag := (s.lines idx way).tag.clearDirty } := by
  rw [State.writeBackIfNeeded]
  dsimp only
  rw [if_pos dirty, addr_toNat]
  rfl

theorem clean_of_view {tag : CacheTag} (clean : tag.view.valid = false ∨ tag.view.dirty = false) :
    tag.isDirtyAndValid = false := by
  rw [CacheTag.isDirtyAndValid_eq]
  rcases clean with none | none
  · exact Bool.and_eq_false_iff.2 (.inl none)
  · exact Bool.and_eq_false_iff.2 (.inr none)

variable (s idx way) in
theorem writeBack_clean : ((s.writeBackIfNeeded idx way).lines idx way).tag.isDirtyAndValid = false := by
  cases dirty : (s.lines idx way).tag.isDirtyAndValid with
  | false => rwa [writeBack_of_clean dirty]
  | true =>
    rw [writeBack_of_dirty dirty, setLine_self]
    exact clean_of_view (.inr (by rw [CacheTag.view_clearDirty]))

theorem writeBack_other {other : Fin 64} {way' : Bool} (differ : ¬ (other = idx ∧ way' = way)) :
    (s.writeBackIfNeeded idx way).lines other way' = s.lines other way' := by
  cases dirty : (s.lines idx way).tag.isDirtyAndValid with
  | false => rw [writeBack_of_clean dirty]
  | true => rw [writeBack_of_dirty dirty, setLine_other differ]

theorem writeBack_caches {other : Fin 64} {way' : Bool} {page : Nat} :
    (s.writeBackIfNeeded idx way).Caches other way' page ↔ s.Caches other way' page := by
  cases dirty : (s.lines idx way).tag.isDirtyAndValid with
  | false => rw [writeBack_of_clean dirty]
  | true =>
    rw [writeBack_of_dirty dirty]
    by_cases same : other = idx ∧ way' = way
    · obtain ⟨rfl, rfl⟩ := same
      rw [caches_self, CacheTag.view_clearDirty, State.Caches]
    · rw [caches_other same]
      rfl

theorem Coherent.writeBack {exist : Nat → Bool} {flat : Nat → UInt8} (coherent : Coherent exist flat s) (idx : Fin 64)
    (way : Bool) : Coherent exist flat (s.writeBackIfNeeded idx way) := by
  cases dirty : (s.lines idx way).tag.isDirtyAndValid with
  | false => rwa [writeBack_of_clean dirty]
  | true =>
    rw [writeBack_of_dirty dirty]
    have caches {other : Fin 64} {way' : Bool} {page : Nat} (holds : State.Caches (State.setLine _ idx way _) other way' page) :
        s.Caches other way' page := writeBack_caches.1 ((writeBack_of_dirty dirty).symm ▸ holds)
    refine ⟨fun other way' => ?_, fun other page both => ?_, fun other way' page holds => ?_,
      fun other way' page holds => ?_, fun a unowned => ?_⟩
    · by_cases same : other = idx ∧ way' = way
      · obtain ⟨rfl, rfl⟩ := same
        rw [setLine_self, CacheTag.view_clearDirty]
        exact coherent.unlocked other way'
      · rw [setLine_other same]
        exact coherent.unlocked other way'
    · exact coherent.apart other page ⟨caches both.1, caches both.2⟩
    · have old := coherent.pfn other way' page (caches holds)
      by_cases same : other = idx ∧ way' = way
      · obtain ⟨rfl, rfl⟩ := same
        rw [setLine_self, CacheTag.view_clearDirty]
        exact old
      · rw [setLine_other same]
        exact old
    · have old := coherent.data other way' page (caches holds)
      by_cases same : other = idx ∧ way' = way
      · obtain ⟨rfl, rfl⟩ := same
        rw [setLine_self]
        exact old
      · rw [setLine_other same]
        exact old
    · show (if _ then storeBytes _ _ _ _ else s.memory) a = flat a
      by_cases owned : s.Owns idx way a
      · have here := owned.caches
        obtain ⟨-, pfn, lower, upper⟩ := owned
        have real := (coherent.pfn idx way _ here).symm.trans pfn
        rw [CacheLine.base] at lower upper
        have bytes := coherent.data idx way _ here real (a - (s.lines idx way).base idx) (by rw [CacheLine.base]; omega)
        rw [if_pos pfn, storeBytes, if_pos ⟨lower, upper⟩, bytes, CacheLine.base, Nat.add_sub_cancel' lower]
      · have before : s.memory a = flat a := by
          refine coherent.memory a fun other way' owns => ?_
          by_cases same : other = idx ∧ way' = way
          · obtain ⟨rfl, rfl⟩ := same
            exact owned owns
          · exact unowned other way' ((owns_other same).2 owns)
        split
        next pfn => rwa [storeBytes_outside fun inside => owned ⟨dirty, pfn, inside.1, inside.2⟩]
        next => exact before

/-! ## Filling a line -/

theorem findInCache_some {ppf : UInt64} (found : s.findInCache idx ppf = some way) :
    s.Caches idx way (ppf.toNat / 4096) := by
  rw [State.findInCache, CacheTag.isMatch_eq, CacheTag.isMatch_eq] at found
  split at found
  next first =>
    obtain rfl := Option.some.inj found
    rw [Bool.and_eq_true, beq_iff_eq] at first
    exact first
  next =>
    split at found
    next second =>
      obtain rfl := Option.some.inj found
      rw [Bool.and_eq_true, beq_iff_eq] at second
      exact second
    next => cases found

theorem findInCache_none {ppf : UInt64} (missing : s.findInCache idx ppf = none) (way : Bool) :
    ¬ s.Caches idx way (ppf.toNat / 4096) := by
  rw [State.findInCache, CacheTag.isMatch_eq, CacheTag.isMatch_eq] at missing
  split at missing
  · cases missing
  next first =>
    split at missing
    · cases missing
    next second =>
      rw [Bool.and_eq_true, beq_iff_eq] at first second
      cases way
      · exact first
      · exact second

theorem load_view (line : CacheLine) (memory : Nat → UInt8) (ppf : UInt64) :
    (line.load memory ppf).tag.view =
      { line.tag.view with page := ppf.toNat / 4096, valid := true, dirty := false } := by
  rw [CacheLine.load, CacheTag.view_clearDirty, CacheTag.view_setValid, CacheTag.view_setAddr]

theorem load_data {line : CacheLine} {memory : Nat → UInt8} {ppf : UInt64} (pfn : line.tag.view.validPFN = true) :
    (line.load memory ppf).data = fun i => memory (ppf.toNat / 64 * 64 + i) := by
  have same : (line.tag.setAddr ppf).isValidPFN = true := by
    show (line.tag.setAddr ppf).view.validPFN = true
    rw [CacheTag.view_setAddr]
    exact pfn
  rw [CacheLine.load]
  dsimp only
  rw [if_pos same, lineBase_toNat]

theorem fill_view (line : CacheLine) (memory : Nat → UInt8) (ppf : UInt64) (validPFN : Bool) :
    (({ line with tag := line.tag.setValidPFN validPFN }).load memory ppf).tag.toggleLRF.view =
      { line.tag.view with page := ppf.toNat / 4096, valid := true, dirty := false, validPFN } := by
  rw [CacheTag.view_toggleLRF, load_view, CacheTag.view_setValidPFN]

variable {exist : Nat → Bool} {flat : Nat → UInt8}

theorem getFreeCache_spec {mem : UInt32} {ppf : UInt64} (coherent : Coherent exist flat s)
    (translates : Translates exist mem ppf) :
    Coherent exist flat (s.getFreeCache mem ppf (exist (ppf.toNat / 4096))).1 ∧
      (s.getFreeCache mem ppf (exist (ppf.toNat / 4096))).1.Caches (setIdxFor mem)
        (s.getFreeCache mem ppf (exist (ppf.toNat / 4096))).2 (ppf.toNat / 4096) := by
  have unlocked (way : Bool) : (s.lines (setIdxFor mem) way).tag.isLocked = false := coherent.unlocked _ way
  rw [State.getFreeCache]
  cases found : s.findInCache (setIdxFor mem) ppf with
  | some way =>
    dsimp only
    rw [if_neg (by rw [unlocked]; nofun)]
    exact ⟨coherent, findInCache_some found⟩
  | none =>
    dsimp only
    rw [if_neg (by rw [unlocked]; nofun)]
    generalize ((s.lines (setIdxFor mem) false).tag.lrf ^^ (s.lines (setIdxFor mem) true).tag.lrf) = newWay
    have written := coherent.writeBack (setIdxFor mem) newWay
    have missing (way : Bool) : ¬ (s.writeBackIfNeeded (setIdxFor mem) newWay).Caches (setIdxFor mem) way (ppf.toNat / 4096) :=
      fun caches => findInCache_none found way (writeBack_caches.1 caches)
    have clean := writeBack_clean s (setIdxFor mem) newWay
    generalize s.writeBackIfNeeded (setIdxFor mem) newWay = w at written missing clean ⊢
    have filled := fill_view (w.lines (setIdxFor mem) newWay) w.memory ppf (exist (ppf.toNat / 4096))
    refine ⟨written.setClean clean ?_ (clean_of_view ?_) ?_ ?_ ?_, caches_self.2 ?_⟩
    · rw [filled]
      exact written.unlocked (setIdxFor mem) newWay
    · rw [filled]
      exact .inr rfl
    · rw [filled]
      exact fun _ => missing _
    · rw [filled]
      exact fun _ => rfl
    · rw [filled]
      intro _ real i inside
      have translated := translates real
      have set := setIdxFor_val mem
      dsimp only
      rw [load_data (by rw [CacheTag.view_setValidPFN]; exact real)]
      dsimp only
      rw [show ppf.toNat / 64 * 64 = ppf.toNat / 4096 * 4096 + (setIdxFor mem).val * 64 by omega]
      refine written.memory _ fun idx way owns => ?_
      have cached := owns.caches
      obtain ⟨-, -, lower, upper⟩ := owns
      rw [CacheLine.base] at lower upper
      have index := idx.isLt
      have index' := (setIdxFor mem).isLt
      obtain rfl : idx = setIdxFor mem := Fin.ext (by omega)
      have page : (w.lines (setIdxFor mem) way).tag.view.page = ppf.toNat / 4096 := by omega
      exact missing way (page ▸ cached)
    · rw [filled]
      exact ⟨rfl, rfl⟩

end

end Pcsx2.EeCache
