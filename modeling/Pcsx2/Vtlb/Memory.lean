import Mathlib.Algebra.Order.Ring.Int
import Pcsx2.Foundation.Lists
import Mathlib.Data.List.Range

/-!
# The virtual memory map

Pages of the guest have an entry in `vmap`, and where they are RAM also a page of the fastmem area of the host, which is
a mapping of the main memory. The host has pages of the same size.
-/

namespace Pcsx2.Vtlb

def VTLB_PAGE_SIZE : Nat := 4096
def VTLB_PMAP_SZ : Nat := 512 * 2 ^ 20
def VTLB_VMAP_ITEMS : Nat := 2 ^ 20
def FASTMEM_PAGE_COUNT : Nat := 2 ^ 20
def NO_FASTMEM_MAPPING : Nat := 0xFFFFFFFF

/-- `u32` addition. -/
def add32 (a b : Nat) : Nat := (a + b) % 2 ^ 32

/-- A `VTLBPhysical`, as its sign bit has it. -/
inductive VTLBPhysical
  | pointer (ptr : Nat)
  | handler (id : Nat)
  deriving DecidableEq

/-- A `VTLBVirtual` at its own page. That of a handler has the address it handles. -/
inductive VTLBVirtual
  | pointer (ptr : Nat)
  | handler (id paddr : Nat)
  deriving DecidableEq

inductive PageProtectionMode
  | read
  | readWrite
  deriving DecidableEq

/-! ## Main memory -/

def TotalRam : Nat := 128 * 2 ^ 20
def Scratch : Nat := 16 * 2 ^ 10

/-- The offsets of `Scratch` and `ZeroRead` in `EEVM_MemoryAllocMess`. -/
def scratchOffset : Nat := TotalRam
def zeroReadOffset : Nat := TotalRam + Scratch + 12 * 2 ^ 20

def EEmemOffset : Nat := 0
def IOPmemOffset : Nat := 143 * 2 ^ 20
def VUmemOffset : Nat := IOPmemOffset + 129 * 2 ^ 20
def VUmemSize : Nat := 2 ^ 20

/-- The data memory, the part of it that is RAM, and the numbers of two handlers. -/
structure Host where
  data : Nat
  ExposedRam : Nat
  UnmappedVirtHandler : Nat
  UnmappedPhyHandler : Nat

namespace Host

variable (host : Host)

def eeMain : Nat := host.data + EEmemOffset
def eeScratch : Nat := host.eeMain + scratchOffset
def iopMain : Nat := host.data + IOPmemOffset
def vuMem : Nat := host.data + VUmemOffset

/-- The offset in the data memory, the size behind it, and the mode. Pages of RAM that have code can be protected. -/
def GetMainMemoryOffsetFromPtr (protects : Nat → Bool) (ptr : Nat) : Option (Nat × Nat × PageProtectionMode) :=
  let page_end := ptr + VTLB_PAGE_SIZE
  if host.eeMain ≤ ptr ∧ page_end ≤ host.eeMain + zeroReadOffset then
    let eemem_offset := ptr - host.eeMain
    let mode := if eemem_offset < host.ExposedRam ∧ protects eemem_offset then .read else .readWrite
    some (eemem_offset + EEmemOffset, zeroReadOffset - eemem_offset, mode)
  else if host.iopMain ≤ ptr ∧ page_end ≤ host.iopMain + TotalRam then
    let iopmem_offset := ptr - host.iopMain
    some (iopmem_offset + IOPmemOffset, TotalRam - iopmem_offset, .readWrite)
  else if host.vuMem ≤ ptr ∧ page_end ≤ host.vuMem + VUmemSize then
    let vumem_offset := ptr - host.vuMem
    some (vumem_offset + VUmemOffset, VUmemSize - vumem_offset, .readWrite)
  else
    none

end Host

/-! ## The maps -/

/-- The maps, what the host has mapped and how it protects it, and the settings that are looked at. `protects` is what
`mmap_GetRamPageInfo` knows. -/
structure MapData where
  pmap : Nat → VTLBPhysical
  vmap : Nat → VTLBVirtual
  s_fastmem_virtual_mapping : Nat → Nat
  s_fastmem_physical_mapping : List (Nat × Nat)
  s_fastmem_area : Nat → Option (Nat × PageProtectionMode)
  protects : Nat → Bool
  CHECK_FASTMEM : Bool
  CHECK_EEREC : Bool

namespace MapData

variable (host : Host)

def GetMainMemoryOffset (s : MapData) (paddr : Nat) : Option (Nat × Nat × PageProtectionMode) :=
  if VTLB_PMAP_SZ ≤ paddr then none
  else
    match s.pmap (paddr / VTLB_PAGE_SIZE) with
    | .handler _ => none
    | .pointer ptr => host.GetMainMemoryOffsetFromPtr s.protects ptr

/-- `Map` and `Unmap` of a page of the host. -/
def mapHost (s : MapData) (page : Nat) (mapped : Option (Nat × PageProtectionMode)) : MapData :=
  { s with s_fastmem_area := Function.update s.s_fastmem_area page mapped }

def setVirtual (s : MapData) (page mainmem_offset : Nat) : MapData :=
  { s with s_fastmem_virtual_mapping := Function.update s.s_fastmem_virtual_mapping page mainmem_offset }

def eraseReverse (s : MapData) (mainmem_offset vaddr : Nat) : MapData :=
  { s with s_fastmem_physical_mapping :=
      s.s_fastmem_physical_mapping.filter fun pair => pair.1 != mainmem_offset || pair.2 != vaddr }

def emplaceReverse (s : MapData) (mainmem_offset vaddr : Nat) : MapData :=
  { s with s_fastmem_physical_mapping := s.s_fastmem_physical_mapping ++ [(mainmem_offset, vaddr)] }

def vtlb_CreateFastmemMapping (s : MapData) (vaddr mainmem_offset : Nat) (mode : PageProtectionMode) : MapData :=
  let page := vaddr / VTLB_PAGE_SIZE
  if s.s_fastmem_virtual_mapping page = mainmem_offset then s
  else
    let s :=
      if s.s_fastmem_virtual_mapping page ≠ NO_FASTMEM_MAPPING then
        -- The pairs that are searched are those of the new offset.
        ((s.setVirtual page NO_FASTMEM_MAPPING).mapHost page none).eraseReverse mainmem_offset vaddr
      else s
    ((s.setVirtual page mainmem_offset).mapHost page (some (mainmem_offset, mode))).emplaceReverse mainmem_offset vaddr

def vtlb_RemoveFastmemMapping (s : MapData) (vaddr : Nat) : MapData :=
  let page := vaddr / VTLB_PAGE_SIZE
  if s.s_fastmem_virtual_mapping page = NO_FASTMEM_MAPPING then s
  else
    let mainmem_offset := s.s_fastmem_virtual_mapping page
    ((s.setVirtual page NO_FASTMEM_MAPPING).mapHost page none).eraseReverse mainmem_offset vaddr

def vtlb_RemoveFastmemMappings : Nat → Nat → MapData → MapData
  | 0, _, s => s
  | num_pages + 1, vaddr, s =>
    vtlb_RemoveFastmemMappings num_pages (add32 vaddr VTLB_PAGE_SIZE) (s.vtlb_RemoveFastmemMapping vaddr)

/-- The loop of `vtlb_RemoveFastmemMappings` over all pages. -/
def removeAllFastmem (s : MapData) : MapData where
  __ := s
  s_fastmem_virtual_mapping page :=
    if page < FASTMEM_PAGE_COUNT then NO_FASTMEM_MAPPING else s.s_fastmem_virtual_mapping page
  s_fastmem_area page :=
    if page < FASTMEM_PAGE_COUNT ∧ s.s_fastmem_virtual_mapping page ≠ NO_FASTMEM_MAPPING then none
    else s.s_fastmem_area page
  s_fastmem_physical_mapping := []

/-! ## Virtual mappings -/

/-- One page of the first loop of `vtlb_VMap`. -/
def mapFastmem (s : MapData) (vaddr paddr : Nat) : MapData :=
  match s.GetMainMemoryOffset host paddr with
  | some (hoffset, _, mode) => s.vtlb_CreateFastmemMapping vaddr hoffset mode
  | none => s.vtlb_RemoveFastmemMapping vaddr

def mapFastmemPages : Nat → Nat → Nat → MapData → MapData
  | 0, _, _, s => s
  | num_pages + 1, vaddr, paddr, s =>
    mapFastmemPages num_pages (add32 vaddr VTLB_PAGE_SIZE) (add32 paddr VTLB_PAGE_SIZE) (s.mapFastmem host vaddr paddr)

/-- What `vtlb_VMap` puts into `vmap`. -/
def virtualOf (s : MapData) (paddr : Nat) : VTLBVirtual :=
  if VTLB_PMAP_SZ ≤ paddr then .handler host.UnmappedPhyHandler paddr
  else
    match s.pmap (paddr / VTLB_PAGE_SIZE) with
    | .pointer ptr => .pointer ptr
    | .handler id => .handler id paddr

def setVmap (s : MapData) (vaddr : Nat) (entry : VTLBVirtual) : MapData :=
  { s with vmap := Function.update s.vmap (vaddr / VTLB_PAGE_SIZE) entry }

def mapPages : Nat → Nat → Nat → MapData → MapData
  | 0, _, _, s => s
  | num_pages + 1, vaddr, paddr, s =>
    mapPages num_pages (add32 vaddr VTLB_PAGE_SIZE) (add32 paddr VTLB_PAGE_SIZE)
      (s.setVmap vaddr (s.virtualOf host paddr))

def vtlb_VMap (s : MapData) (vaddr paddr size : Nat) : MapData :=
  let num_pages := size / VTLB_PAGE_SIZE
  let s := if s.CHECK_FASTMEM then mapFastmemPages host num_pages vaddr paddr s else s
  mapPages host num_pages vaddr paddr s

def mapScratch : Nat → Nat → Nat → MapData → MapData
  | 0, _, _, s => s
  | num_pages + 1, fm_vaddr, fm_hostoffset, s =>
    mapScratch num_pages (add32 fm_vaddr VTLB_PAGE_SIZE) (fm_hostoffset + VTLB_PAGE_SIZE)
      (s.vtlb_CreateFastmemMapping fm_vaddr fm_hostoffset .readWrite)

def bufferPages : Nat → Nat → Nat → MapData → MapData
  | 0, _, _, s => s
  | num_pages + 1, vaddr, bu8, s =>
    bufferPages num_pages (add32 vaddr VTLB_PAGE_SIZE) (bu8 + VTLB_PAGE_SIZE) (s.setVmap vaddr (.pointer bu8))

def vtlb_VMapBuffer (s : MapData) (vaddr buffer size : Nat) : MapData :=
  let s :=
    if s.CHECK_FASTMEM then
      if buffer = host.eeScratch ∧ size = Scratch then
        mapScratch (Scratch / VTLB_PAGE_SIZE) vaddr (EEmemOffset + scratchOffset) s
      else
        vtlb_RemoveFastmemMappings (size / VTLB_PAGE_SIZE) vaddr s
    else s
  bufferPages (size / VTLB_PAGE_SIZE) vaddr buffer s

def unmapPages : Nat → Nat → MapData → MapData
  | 0, _, s => s
  | num_pages + 1, vaddr, s =>
    unmapPages num_pages (add32 vaddr VTLB_PAGE_SIZE) (s.setVmap vaddr (.handler host.UnmappedVirtHandler vaddr))

def vtlb_VMapUnmap (s : MapData) (vaddr size : Nat) : MapData :=
  unmapPages host (size / VTLB_PAGE_SIZE) vaddr (vtlb_RemoveFastmemMappings (size / VTLB_PAGE_SIZE) vaddr s)

/-- One page of the loop of `vtlb_ResetFastmem`. -/
def restoreFastmem (s : MapData) (page : Nat) : MapData :=
  match s.vmap page with
  | .handler _ _ => s
  | .pointer ptr =>
    match host.GetMainMemoryOffsetFromPtr s.protects ptr with
    | some (mainmem_offset, _, prot) => s.vtlb_CreateFastmemMapping (page * VTLB_PAGE_SIZE) mainmem_offset prot
    | none => s

def vtlb_ResetFastmem (s : MapData) : MapData :=
  let s := s.removeAllFastmem
  if !s.CHECK_FASTMEM || !s.CHECK_EEREC then s
  else (List.range VTLB_VMAP_ITEMS).foldl (restoreFastmem host) s

/-! ## Protection -/

/-- `MemProtect` of a page of the host. -/
def MemProtect (prot : PageProtectionMode) (s : MapData) (vaddr : Nat) : MapData :=
  s.mapHost (vaddr / VTLB_PAGE_SIZE) ((s.s_fastmem_area (vaddr / VTLB_PAGE_SIZE)).map fun mapped => (mapped.1, prot))

def protectAliases (prot : PageProtectionMode) (s : MapData) (current_mainmem : Nat) : MapData :=
  ((s.s_fastmem_physical_mapping.filter fun pair => pair.1 == current_mainmem).map Prod.snd).foldl (MemProtect prot) s

def protectPages (prot : PageProtectionMode) : Nat → Nat → MapData → MapData
  | 0, _, s => s
  | num_pages + 1, current_mainmem, s =>
    protectPages prot num_pages (current_mainmem + VTLB_PAGE_SIZE) (s.protectAliases prot current_mainmem)

def vtlb_UpdateFastmemProtection (s : MapData) (paddr size : Nat) (prot : PageProtectionMode) : MapData :=
  if !s.CHECK_FASTMEM then s
  else
    match s.GetMainMemoryOffset host paddr with
    | none => s
    | some (mainmem_start, mainmem_size, _) =>
      protectPages prot (min size mainmem_size / VTLB_PAGE_SIZE) mainmem_start s

end MapData

end Pcsx2.Vtlb
