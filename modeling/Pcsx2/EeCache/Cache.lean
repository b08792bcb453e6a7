import Mathlib.Logic.Function.Basic
import Pcsx2.EeCache.Tag
import Pcsx2.Foundation.Run

/-!
# The EE data cache

Two ways of 64 lines over the host memory behind the pages. Each access says which host address its
page has and whether there is memory at it.
-/

namespace Pcsx2.EeCache
open Foundation

def storeBytes (memory : Nat → UInt8) (address n : Nat) (bytes : Nat → UInt8) : Nat → UInt8 := fun a =>
  if address ≤ a ∧ a < address + n then bytes (a - address) else memory a

def loadBytes (memory : Nat → UInt8) (address n : Nat) : List UInt8 := (List.range n).map fun k => memory (address + k)

structure CacheLine where
  tag : CacheTag
  /-- The 64 bytes. -/
  data : Nat → UInt8

structure State where
  /-- The two ways of each set. -/
  lines : Fin 64 → Bool → CacheLine
  memory : Nat → UInt8
  TagLo : UInt32

def resetCache (memory : Nat → UInt8) (TagLo : UInt32) : State :=
  { lines := fun _ _ => { tag := ⟨0⟩, data := fun _ => 0 }, memory, TagLo }

theorem setIdx_lt (vaddr : UInt32) : ((vaddr >>> 6) &&& 0x3F).toNat < 64 := by
  rw [UInt32.toNat_and]
  exact Nat.lt_succ_of_le Nat.and_le_right

def setIdxFor (vaddr : UInt32) : Fin 64 := ⟨((vaddr >>> 6) &&& 0x3F).toNat, setIdx_lt vaddr⟩

/-! ## Lines -/

def CacheLine.addr (line : CacheLine) (set : Fin 64) : UInt64 := line.tag.addr ||| UInt64.ofNat (set.val <<< 6)

def CacheLine.load (line : CacheLine) (memory : Nat → UInt8) (ppf : UInt64) : CacheLine :=
  let tag := line.tag.setAddr ppf
  let data := if tag.isValidPFN then fun i => memory ((ppf &&& ~~~0x3F).toNat + i) else fun _ => 0
  { tag := tag.setValid.clearDirty, data }

def CacheLine.clear (line : CacheLine) : CacheLine := { tag := line.tag.clear, data := fun _ => 0 }

def State.setLine (s : State) (idx : Fin 64) (way : Bool) (line : CacheLine) : State :=
  { s with lines := Function.update s.lines idx (Function.update (s.lines idx) way line) }

def State.writeBackIfNeeded (s : State) (idx : Fin 64) (way : Bool) : State :=
  let line := s.lines idx way
  if line.tag.isDirtyAndValid then
    let memory := if line.tag.isValidPFN then storeBytes s.memory (line.addr idx).toNat 64 line.data else s.memory
    { s with memory }.setLine idx way { line with tag := line.tag.clearDirty }
  else s

def writebackCache (s : State) : State :=
  (List.finRange 64).foldl (fun s i => (s.writeBackIfNeeded i false).writeBackIfNeeded i true) s

def State.findInCache (s : State) (idx : Fin 64) (ppf : UInt64) : Option Bool :=
  if (s.lines idx false).tag.isMatch ppf then some false
  else if (s.lines idx true).tag.isMatch ppf then some true
  else none

/-- The host address `ppf` of `mem` in the cache, in the way that is given back. -/
def State.getFreeCache (s : State) (mem : UInt32) (ppf : UInt64) (validPFN : Bool) : State × Bool :=
  let idx := setIdxFor mem
  let locked way := (s.lines idx way).tag.isLocked
  match s.findInCache idx ppf with
  | some way => (s, if locked way ∧ !locked !way then !way else way)
  | none =>
      let newWay := (s.lines idx false).tag.lrf ^^ (s.lines idx true).tag.lrf
      let newWay := if locked newWay then !newWay else newWay
      let written := s.writeBackIfNeeded idx newWay
      let line := written.lines idx newWay
      let loaded := { line with tag := line.tag.setValidPFN validPFN }.load written.memory ppf
      (written.setLine idx newWay { loaded with tag := loaded.tag.toggleLRF }, newWay)

/-! ## Accesses -/

inductive Width where
  | w8
  | w16
  | w32
  | w64
  | w128
  deriving DecidableEq

def Width.bytes : Width → Nat
  | .w8 => 1
  | .w16 => 2
  | .w32 => 4
  | .w64 => 8
  | .w128 => 16

def State.prepareCacheAccess (s : State) (write : Bool) (width : Width) (mem : UInt32) (ppf : UInt64)
    (validPFN : Bool) : State × Bool × Nat :=
  let (s, way) := s.getFreeCache mem ppf validPFN
  let line := s.lines (setIdxFor mem) way
  let aligned := mem &&& ~~~UInt32.ofNat (width.bytes - 1)
  (if write then s.setLine (setIdxFor mem) way { line with tag := line.tag.setDirty } else s,
    way, (aligned &&& 0x3F).toNat)

def State.writeCache (s : State) (width : Width) (mem : UInt32) (ppf : UInt64) (validPFN : Bool)
    (value : List UInt8) : State :=
  let (s, way, place) := s.prepareCacheAccess true width mem ppf validPFN
  let line := s.lines (setIdxFor mem) way
  s.setLine (setIdxFor mem) way
    { line with data := storeBytes line.data place width.bytes fun k => value.getD k 0 }

def State.readCache (s : State) (width : Width) (mem : UInt32) (ppf : UInt64) (validPFN : Bool) :
    List UInt8 × State :=
  let (s, way, place) := s.prepareCacheAccess false width mem ppf validPFN
  (loadBytes (s.lines (setIdxFor mem) way).data place width.bytes, s)

/-! ## The CACHE instruction -/

def State.doCacheHitOp (s : State) (addr : UInt32) (ppf : UInt64) (op : State → Fin 64 → Bool → State) : State :=
  match s.findInCache (setIdxFor addr) ppf with
  | none => s
  | some way => op s (setIdxFor addr) way

def State.clearLine (s : State) (idx : Fin 64) (way : Bool) : State := s.setLine idx way (s.lines idx way).clear

def wordAt (data : Nat → UInt8) (i : Nat) : UInt32 :=
  (data i).toUInt32 ||| (data (i + 1)).toUInt32 <<< 8 ||| (data (i + 2)).toUInt32 <<< 16 |||
    (data (i + 3)).toUInt32 <<< 24

def State.CACHE (s : State) (rt : Nat) (addr : UInt32) (ppf : UInt64) : State :=
  let index := setIdxFor addr
  let way := addr &&& 0x1 != 0
  let line := s.lines index way
  match rt with
  -- DHIN
  | 0x1a => s.doCacheHitOp addr ppf State.clearLine
  -- DHWBIN
  | 0x18 => s.doCacheHitOp addr ppf fun s idx way => (s.writeBackIfNeeded idx way).clearLine idx way
  -- DHWOIN
  | 0x1c => s.doCacheHitOp addr ppf State.writeBackIfNeeded
  -- DXIN
  | 0x16 => s.clearLine index way
  -- DXLDT
  | 0x11 => { s with TagLo := wordAt line.data (addr &&& 0x3C).toNat }
  -- DXLTG
  | 0x10 =>
      let s := s.writeBackIfNeeded index way
      { s with TagLo := (s.lines index way).tag.flags.toUInt32 }
  -- DXSDT
  | 0x13 =>
      let bytes k := (s.TagLo >>> UInt32.ofNat (8 * k)).toUInt8
      s.setLine index way { line with data := storeBytes line.data (addr &&& 0x3C).toNat 4 bytes }
  -- DXSTG
  | 0x12 =>
      let tag := line.tag.setAddr s.TagLo.toUInt64
      let rawValue := (tag.rawValue &&& ~~~CacheTag.ALL_FLAGS) ||| (s.TagLo.toUInt64 &&& CacheTag.ALL_FLAGS)
      s.setLine index way { line with tag := ⟨rawValue⟩ }
  -- DXWBIN
  | 0x14 => (s.writeBackIfNeeded index way).clearLine index way
  | _ => s

/-! ## Runs -/

/-- The operations that neither store a tag or data nor throw written data away. -/
def State.Keeps (s : State) (rt : Nat) (addr : UInt32) (ppf : UInt64) : Prop :=
  match rt with
  | 0x1a => ∀ way, s.findInCache (setIdxFor addr) ppf = some way → (s.lines (setIdxFor addr) way).tag.isDirty = false
  | 0x16 => (s.lines (setIdxFor addr) (addr &&& 0x1 != 0)).tag.isDirtyAndValid = false
  | 0x13 | 0x12 => False
  | _ => True

inductive Event where
  | read (width : Width) (mem : UInt32) (ppf : UInt64) (value : List UInt8)
  | write (width : Width) (mem : UInt32) (ppf : UInt64) (value : List UInt8)
  | cache (rt : Nat) (addr : UInt32) (ppf : UInt64)

def Translates (exist : Nat → Bool) (mem : UInt32) (ppf : UInt64) : Prop :=
  exist (ppf.toNat / 4096) → ppf.toNat % 4096 = mem.toNat % 4096

inductive Step (exist : Nat → Bool) : Event → State → State → Prop
  | read {s t width mem ppf value} (translates : Translates exist mem ppf)
      (result : s.readCache width mem ppf (exist (ppf.toNat / 4096)) = (value, t)) :
      Step exist (.read width mem ppf value) s t
  | write {s width mem ppf} {value : List UInt8} (translates : Translates exist mem ppf)
      (length : value.length = width.bytes) :
      Step exist (.write width mem ppf value) s (s.writeCache width mem ppf (exist (ppf.toNat / 4096)) value)
  | cache {s rt addr ppf} (translates : Translates exist addr ppf) (keeps : s.Keeps rt addr ppf) :
      Step exist (.cache rt addr ppf) s (s.CACHE rt addr ppf)

/-! ## Memory without a cache -/

/-- Where an access of the width at the host address begins. -/
def place (width : Width) (ppf : UInt64) : Nat := ppf.toNat / width.bytes * width.bytes

def uncached (exist : Nat → Bool) (memory : Nat → UInt8) : Event → Nat → UInt8
  | .write width _ ppf value =>
      if exist (ppf.toNat / 4096) then storeBytes memory (place width ppf) width.bytes fun k => value.getD k 0
      else memory
  | _ => memory

def uncachedAll (exist : Nat → Bool) (memory : Nat → UInt8) (events : List Event) : Nat → UInt8 :=
  events.foldl (uncached exist) memory

end Pcsx2.EeCache
