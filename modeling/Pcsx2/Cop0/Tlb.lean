import Mathlib.Data.Fin.VecNotation
import Pcsx2.Foundation.Simd
import Pcsx2.Vtlb.Memory

/-!
# The TLB

Writing an entry undoes what the entry before mapped, and maps what the new one says. Entries that are cached are put
into a list of their own as well.
-/

namespace Pcsx2.Cop0
open Vtlb

/-! ## Entries -/

/-- The `EntryLo_t` fields. -/
def EntryLo_G (UL : UInt32) : Bool := UL &&& 1 == 1
def EntryLo_V (UL : UInt32) : Bool := (UL >>> 1) &&& 1 == 1
def EntryLo_C (UL : UInt32) : UInt32 := (UL >>> 3) &&& 7
def EntryLo_PFN (UL : UInt32) : UInt32 := (UL >>> 6) &&& 0xFFFFF
def EntryLo_S (UL : UInt32) : Bool := UL >>> 31 == 1

def setC (UL C : UInt32) : UInt32 := (UL &&& ~~~((7 : UInt32) <<< 3)) ||| (C <<< 3)

def isCached (EntryLo : UInt32) : Bool := EntryLo_C EntryLo == 3
def isValidCacheMode (EntryLo : UInt32) : Bool :=
  EntryLo_C EntryLo == 2 || EntryLo_C EntryLo == 3 || EntryLo_C EntryLo == 7

structure Tlbs where
  PageMask : UInt32
  EntryHi : UInt32
  EntryLo0 : UInt32
  EntryLo1 : UInt32
  deriving DecidableEq

namespace Tlbs

def Mask (t : Tlbs) : UInt32 := (t.PageMask >>> 13) &&& 0xFFF
def PFN0 (t : Tlbs) : UInt32 := (EntryLo_PFN t.EntryLo0 &&& ~~~t.Mask) <<< 12
def PFN1 (t : Tlbs) : UInt32 := (EntryLo_PFN t.EntryLo1 &&& ~~~t.Mask) <<< 12
def VPN2 (t : Tlbs) : UInt32 := ((t.EntryHi >>> 13) &&& ~~~t.Mask) <<< 13
def ASID (t : Tlbs) : UInt32 := t.EntryHi &&& 0xFF
def isGlobal (t : Tlbs) : Bool := EntryLo_G t.EntryLo0 && EntryLo_G t.EntryLo1
def isSPR (t : Tlbs) : Bool := EntryLo_S t.EntryLo0

end Tlbs

def popcount (value : UInt32) : Nat := (List.range 32).countP fun i => value.toNat.testBit i

def ConvertPageMask (PageMask : UInt32) : UInt32 := ((1 : UInt32) <<< UInt32.ofNat (12 + popcount (PageMask >>> 13))) - 1

/-- One place of the arrays of `cachedTlbs_t`. -/
structure CachedTlb where
  PageMask : UInt32
  PFN1 : UInt32
  CacheEnabled1 : UInt32
  PFN0 : UInt32
  CacheEnabled0 : UInt32
  deriving DecidableEq

/-- What an entry puts into `cachedTlbs`. -/
def Tlbs.cachedTlb (t : Tlbs) : CachedTlb where
  PageMask := ConvertPageMask t.PageMask
  PFN1 := t.PFN1
  CacheEnabled1 := if isCached t.EntryLo1 then 0xFFFFFFFF else 0
  PFN0 := t.PFN0
  CacheEnabled0 := if isCached t.EntryLo0 then 0xFFFFFFFF else 0

/-- The entry is put into `cachedTlbs`. -/
def Tlbs.hasCached (t : Tlbs) : Bool :=
  !t.isSPR && ((EntryLo_V t.EntryLo0 && isCached t.EntryLo0) || (EntryLo_V t.EntryLo1 && isCached t.EntryLo1))

/-! ## The state -/

structure Registers where
  Index : UInt32
  Random : UInt32
  PageMask : UInt32
  EntryHi : UInt32
  EntryLo0 : UInt32
  EntryLo1 : UInt32

/-- `cachedTlbs` has the first `count` places. -/
structure State where
  tlb : Nat → Tlbs
  cachedTlbs : List CachedTlb
  vtlb : MapData

variable (host : Host)

def memSetPageAddr (vtlb : MapData) (vaddr paddr : UInt32) : MapData :=
  vtlb.vtlb_VMap host vaddr.toNat paddr.toNat 0x1000

def memClearPageAddr (vtlb : MapData) (vaddr : UInt32) : MapData := vtlb.vtlb_VMapUnmap host vaddr.toNat 0x1000

/-! ## Mapping -/

namespace Tlbs

/-- The pages of a half that starts at `saddr`, where those are left out that do not match. -/
def pages (t : Tlbs) (saddr : UInt32) : List UInt32 :=
  let mask := (~~~t.Mask <<< 1) &&& 0xFFFFF
  ((List.range (t.Mask.toNat + 1)).map fun k => saddr + UInt32.ofNat k).filter fun addr : UInt32 =>
    addr &&& mask == (t.VPN2 >>> 12) &&& mask

def saddr0 (t : Tlbs) : UInt32 := t.VPN2 >>> 12
def saddr1 (t : Tlbs) : UInt32 := (t.VPN2 >>> 12) + t.Mask + 1

def mapHalf (t : Tlbs) (saddr PFN : UInt32) (vtlb : MapData) : MapData :=
  (t.pages saddr).foldl (fun vtlb (addr : UInt32) => memSetPageAddr host vtlb (addr <<< 12) (PFN + ((addr - saddr) <<< 12))) vtlb

def unmapHalf (t : Tlbs) (saddr : UInt32) (vtlb : MapData) : MapData :=
  (t.pages saddr).foldl (fun vtlb (addr : UInt32) => memClearPageAddr host vtlb (addr <<< 12)) vtlb

end Tlbs

def MapTLB (t : Tlbs) (vtlb : MapData) : MapData :=
  if t.isSPR then vtlb.vtlb_VMapBuffer host t.VPN2.toNat host.eeScratch Scratch
  else
    let vtlb := if EntryLo_V t.EntryLo0 then t.mapHalf host t.saddr0 t.PFN0 vtlb else vtlb
    if EntryLo_V t.EntryLo1 then t.mapHalf host t.saddr1 t.PFN1 vtlb else vtlb

/-- The part of `UnmapTLB` that unmaps pages. -/
def unmapPages (t : Tlbs) (vtlb : MapData) : MapData :=
  if t.isSPR then vtlb.vtlb_VMapUnmap host t.VPN2.toNat 0x4000
  else
    let vtlb := if EntryLo_V t.EntryLo0 then t.unmapHalf host t.saddr0 vtlb else vtlb
    if EntryLo_V t.EntryLo1 then t.unmapHalf host t.saddr1 vtlb else vtlb

/-- The place that is taken out of `cachedTlbs` is searched by its addresses and its mask. -/
def Tlbs.sameAddresses (t : Tlbs) (cached : CachedTlb) : Bool :=
  cached.PFN0 == t.PFN0 && cached.PFN1 == t.PFN1 && cached.PageMask == ConvertPageMask t.PageMask

def UnmapTLB (t : Tlbs) (s : State) : State :=
  let vtlb := unmapPages host t s.vtlb
  if t.isSPR then { s with vtlb }
  else { s with vtlb, cachedTlbs := s.cachedTlbs.eraseP t.sameAddresses }

/-- The entry that `WriteTLB` writes, with the cache mode of one that has none. -/
def writtenTLB (regs : Registers) : Tlbs :=
  if EntryLo_S regs.EntryLo0 then
    { PageMask := regs.PageMask
      EntryHi := regs.EntryHi
      EntryLo0 := setC regs.EntryLo0 3
      EntryLo1 := setC regs.EntryLo1 3 }
  else
    { PageMask := regs.PageMask
      EntryHi := regs.EntryHi
      EntryLo0 := if isValidCacheMode regs.EntryLo0 then regs.EntryLo0 else setC regs.EntryLo0 2
      EntryLo1 := if isValidCacheMode regs.EntryLo1 then regs.EntryLo1 else setC regs.EntryLo1 2 }

def WriteTLB (regs : Registers) (i : Nat) (s : State) : State :=
  let t := writtenTLB regs
  { tlb := Function.update s.tlb i t
    cachedTlbs := if t.hasCached then s.cachedTlbs ++ [t.cachedTlb] else s.cachedTlbs
    vtlb := MapTLB host t s.vtlb }

/-- `TLBWI` and `TLBWR`, with the register that has the index. -/
def TLBW (index : UInt32) (regs : Registers) (s : State) : State :=
  let j := (index &&& 0x3F).toNat
  if 47 < j then s
  else WriteTLB host regs j (UnmapTLB host (s.tlb j) s)

def TLBWI (regs : Registers) (s : State) : State := TLBW host regs.Index regs s

def TLBWR (regs : Registers) (s : State) : State := TLBW host regs.Random regs s

/-- The comparison of `TLBP`, which takes the fields of `EntryHi` in an order of its own. -/
def Tlbs.probed (t : Tlbs) (EntryHi : UInt32) : Bool :=
  t.VPN2 == (~~~t.Mask &&& (EntryHi &&& 0x7FFFF)) && (t.isGlobal || t.ASID == EntryHi >>> 24)

/-- The `Index` that `TLBP` sets. -/
def TLBP (EntryHi : UInt32) (s : State) : UInt32 :=
  match (List.range 48).find? fun i => (s.tlb i).probed EntryHi with
  | some i => UInt32.ofNat i
  | none => 0x80000000

end Pcsx2.Cop0

/-!
# Whether an address is cached

`CheckCache` looks at the places of `cachedTlbs` in groups of four, and at those that are left one after the other. Only
the first lane of a group is compared with the address; the other lanes are compared with zero.
-/

namespace Pcsx2.Cop0
open Foundation

variable {addr : UInt32}

/-! ## The two loops -/

/-- There are four lanes. -/
scoped instance four_lanes : NeZero 4 := ⟨by decide⟩

/-- `GSVector4i::load` of a word, which the other lanes do not get. -/
def loadWord (i : UInt32) : Words4 := fun lane => if lane = 0 then i else 0

def lanesEnabled (addr : UInt32) (group : Fin 4 → CachedTlb) : Words4 :=
  let addr_vec := loadWord addr
  let pfn1_vec : Words4 := fun lane => (group lane).PFN1
  let pfn0_vec : Words4 := fun lane => (group lane).PFN0
  let last_vec : Words4 := fun lane => (group lane).PFN1 + (group lane).PageMask
  let cmp1 : Words4 := fun lane => addr_vec.ge32 pfn1_vec lane &&& addr_vec.le32 last_vec lane
  let cmp0 : Words4 := fun lane => addr_vec.ge32 pfn0_vec lane &&& addr_vec.le32 last_vec lane
  fun lane => (cmp1 lane &&& (group lane).CacheEnabled1) ||| (cmp0 lane &&& (group lane).CacheEnabled0)

def checkEntry (addr : UInt32) (t : CachedTlb) : Bool :=
  (t.CacheEnabled1 != 0 && decide (t.PFN1 ≤ addr) && decide (addr ≤ t.PFN1 + t.PageMask)) ||
    (t.CacheEnabled0 != 0 && decide (t.PFN0 ≤ addr) && decide (addr ≤ t.PFN0 + t.PageMask))

def checkEntries (addr : UInt32) : List CachedTlb → Bool
  | t0 :: t1 :: t2 :: t3 :: rest => !(lanesEnabled addr ![t0, t1, t2, t3]).allfalse || checkEntries addr rest
  | rest => rest.any (checkEntry addr)

/-- The table is that of `cachedTlbs`. -/
def CheckCache (Config addr : UInt32) (table : List CachedTlb) : Bool :=
  if (Config >>> 16) &&& 1 = 0 then false else checkEntries addr table

/-! ## What they find -/

/-- The address lies in a half that is cached. -/
def CachedTlb.Covers (t : CachedTlb) (addr : UInt32) : Prop :=
  (t.CacheEnabled1 ≠ 0 ∧ t.PFN1 ≤ addr ∧ addr ≤ t.PFN1 + t.PageMask) ∨
    (t.CacheEnabled0 ≠ 0 ∧ t.PFN0 ≤ addr ∧ addr ≤ t.PFN0 + t.PageMask)

def CachedTlb.LaneCovers (t : CachedTlb) (addr : UInt32) : Prop :=
  (t.CacheEnabled1 ≠ 0 ∧ t.PFN1.toInt32 ≤ addr.toInt32 ∧ addr.toInt32 ≤ (t.PFN1 + t.PageMask).toInt32) ∨
    (t.CacheEnabled0 ≠ 0 ∧ t.PFN0.toInt32 ≤ addr.toInt32 ∧ addr.toInt32 ≤ (t.PFN1 + t.PageMask).toInt32)

def grouped (table : List CachedTlb) : Nat := 4 * (table.length / 4)

def CoveredInGroups (table : List CachedTlb) (addr : UInt32) : Prop :=
  ∃ i t, i < grouped table ∧ table[i]? = some t ∧ t.Covers addr

def CoveredInTail (table : List CachedTlb) (addr : UInt32) : Prop :=
  ∃ i t, grouped table ≤ i ∧ table[i]? = some t ∧ t.Covers addr

/-- A place of a group covers what its lane is compared with. -/
def CoveredInLanes (table : List CachedTlb) (addr : UInt32) : Prop :=
  ∃ i t, i < grouped table ∧ table[i]? = some t ∧ t.LaneCovers (if i % 4 = 0 then addr else 0)

theorem checkEntry_iff (t : CachedTlb) : checkEntry addr t = true ↔ t.Covers addr := by
  simp [checkEntry, CachedTlb.Covers, and_assoc]

theorem lane_iff (group : Fin 4 → CachedTlb) (lane : Fin 4) :
    lanesEnabled addr group lane ≠ 0 ↔ (group lane).LaneCovers (loadWord addr lane) := by
  have each (low high : Bool) (enable : UInt32) :
      laneMask low &&& laneMask high &&& enable ≠ 0 ↔ enable ≠ 0 ∧ low = true ∧ high = true := by
    cases low <;> cases high <;> simp
  have either (x y : UInt32) : x ||| y ≠ 0 ↔ x ≠ 0 ∨ y ≠ 0 := by
    rw [ne_eq, UInt32.or_eq_zero_iff, not_and_or]
  simp only [lanesEnabled, Words4.ge32_apply, Words4.le32_apply, either, each, decide_eq_true_eq,
    CachedTlb.LaneCovers]

theorem lanes_iff (t0 t1 t2 t3 : CachedTlb) :
    (!(lanesEnabled addr ![t0, t1, t2, t3]).allfalse) = true ↔
      t0.LaneCovers addr ∨ t1.LaneCovers 0 ∨ t2.LaneCovers 0 ∨ t3.LaneCovers 0 := by
  simp only [Words4.not_allfalse_iff, lane_iff, Fin.exists_fin_succ, loadWord]
  simp

theorem exists_group_iff (P : Nat → CachedTlb → Prop) (t0 t1 t2 t3 : CachedTlb) (rest : List CachedTlb) :
    (∃ i t, (t0 :: t1 :: t2 :: t3 :: rest)[i]? = some t ∧ P i t) ↔
      (P 0 t0 ∨ P 1 t1 ∨ P 2 t2 ∨ P 3 t3) ∨ ∃ i t, rest[i]? = some t ∧ P (i + 4) t := by
  constructor
  · rintro ⟨_ | _ | _ | _ | i, t, found, holds⟩
    · cases found
      exact .inl (.inl holds)
    · cases found
      exact .inl (.inr (.inl holds))
    · cases found
      exact .inl (.inr (.inr (.inl holds)))
    · cases found
      exact .inl (.inr (.inr (.inr holds)))
    · exact .inr ⟨i, t, found, holds⟩
  · rintro ((holds | holds | holds | holds) | ⟨i, t, found, holds⟩)
    · exact ⟨0, t0, rfl, holds⟩
    · exact ⟨1, t1, rfl, holds⟩
    · exact ⟨2, t2, rfl, holds⟩
    · exact ⟨3, t3, rfl, holds⟩
    · exact ⟨i + 4, t, found, holds⟩

theorem grouped_cons (t0 t1 t2 t3 : CachedTlb) (rest : List CachedTlb) :
    grouped (t0 :: t1 :: t2 :: t3 :: rest) = grouped rest + 4 := by
  simp [grouped]
  omega

theorem coveredInLanes_cons (t0 t1 t2 t3 : CachedTlb) (rest : List CachedTlb) :
    CoveredInLanes (t0 :: t1 :: t2 :: t3 :: rest) addr ↔
      (t0.LaneCovers addr ∨ t1.LaneCovers 0 ∨ t2.LaneCovers 0 ∨ t3.LaneCovers 0) ∨ CoveredInLanes rest addr := by
  have split := exists_group_iff (fun i t => i < grouped (t0 :: t1 :: t2 :: t3 :: rest) ∧
    t.LaneCovers (if i % 4 = 0 then addr else 0)) t0 t1 t2 t3 rest
  simpa [CoveredInLanes, grouped_cons, and_left_comm] using split

theorem coveredInTail_cons (t0 t1 t2 t3 : CachedTlb) (rest : List CachedTlb) :
    CoveredInTail (t0 :: t1 :: t2 :: t3 :: rest) addr ↔ CoveredInTail rest addr := by
  have split := exists_group_iff (fun i t => grouped (t0 :: t1 :: t2 :: t3 :: rest) ≤ i ∧ t.Covers addr) t0 t1 t2 t3 rest
  simpa [CoveredInTail, grouped_cons, and_left_comm] using split

theorem checkEntries_iff (table : List CachedTlb) :
    checkEntries addr table = true ↔ CoveredInLanes table addr ∨ CoveredInTail table addr := by
  fun_induction checkEntries addr table with
  | case1 t0 t1 t2 t3 rest ih =>
    simp only [Bool.or_eq_true, lanes_iff, ih, coveredInLanes_cons, coveredInTail_cons, or_assoc]
  | case2 rest short =>
    have none : grouped rest = 0 := by
      rcases rest with _ | ⟨t0, _ | ⟨t1, _ | ⟨t2, _ | ⟨t3, rest⟩⟩⟩⟩
      · rfl
      · simp [grouped]
      · simp [grouped]
      · simp [grouped]
      · exact absurd rfl (short t0 t1 t2 t3 rest)
    simp only [CoveredInLanes, CoveredInTail, none, List.any_eq_true, checkEntry_iff, List.mem_iff_getElem?]
    constructor
    · rintro ⟨t, ⟨i, found⟩, covers⟩
      exact .inr ⟨i, t, i.zero_le, found, covers⟩
    · rintro (⟨i, t, inside, -⟩ | ⟨i, t, -, found, covers⟩)
      · exact absurd inside i.not_lt_zero
      · exact ⟨t, ⟨i, found⟩, covers⟩

theorem covered_iff (table : List CachedTlb) :
    (∃ t ∈ table, t.Covers addr) ↔ CoveredInGroups table addr ∨ CoveredInTail table addr := by
  constructor
  · rintro ⟨t, member, covers⟩
    obtain ⟨i, found⟩ := List.mem_iff_getElem?.mp member
    rcases lt_or_ge i (grouped table) with inside | after
    · exact .inl ⟨i, t, inside, found, covers⟩
    · exact .inr ⟨i, t, after, found, covers⟩
  · rintro (⟨i, t, -, found, covers⟩ | ⟨i, t, -, found, covers⟩)
    · exact ⟨t, List.mem_of_getElem? found, covers⟩
    · exact ⟨t, List.mem_of_getElem? found, covers⟩

/-- The page at `0x1000` alone, in one half. -/
def onePage : CachedTlb where
  PageMask := 0xFFF
  PFN1 := 0x1000
  CacheEnabled1 := 0xFFFFFFFF
  PFN0 := 0x2000
  CacheEnabled0 := 0

end Pcsx2.Cop0
