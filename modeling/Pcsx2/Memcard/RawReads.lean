import Pcsx2.Memcard.Folder
import Pcsx2.Memcard.Ecc

/-!
# Raw reads of the folder memory card

Where something is written outside the destination, or the fuel ends, there is no result.
-/

namespace Pcsx2.Memcard
open Foundation

def PageSize : Nat := 0x200
def ClusterSize : Nat := PageSize * 2
def EccSize : Nat := 0x10
def PageSizeRaw : Nat := PageSize + EccSize
def ClusterSizeRaw : Nat := PageSizeRaw * 2
def BlockSizeRaw : Nat := ClusterSizeRaw * 8
def IndirectFatUnused : Nat := 0xFFFFFFFF

/-- `a - b` as a `u32`. -/
def sub32 (a b : Nat) : Nat := (a + 2 ^ 32 - b) % 2 ^ 32

structure FileMetadata where
  content : Option (List (BitVec 8))
  consecutiveCluster : Nat

/-- What `Read` looks at. -/
structure FolderState where
  alloc_offset : Nat
  alloc_end : Nat
  backup_block1 : Nat
  backup_block2 : Nat
  ifc_list : Nat
  m_superBlock : Nat → BitVec 8
  m_backupBlock1 : Nat → BitVec 8
  m_backupBlock2 : Nat → BitVec 8
  m_indirectFat : Nat → Nat
  m_indirectFatRaw : Nat → BitVec 8
  m_fat : Nat → Nat
  m_fatRaw : Nat → Nat → BitVec 8
  GetFileEntryCluster : Nat → Option (Nat → Nat → BitVec 8)
  m_fileMetadataQuickAccess : Nat → Option FileMetadata
  m_cache : Nat → Option (Nat → BitVec 8)

namespace FolderState

variable (card : FolderState)

def isDataCluster (cluster : Nat) : Bool :=
  card.alloc_offset ≤ cluster ∧ cluster < (card.alloc_offset + card.alloc_end) % 2 ^ 32

def isUsed (fatCluster : Nat) : Bool := card.m_fat fatCluster &&& DataClusterInUseMask ≠ 0

def GetSystemBlockPointer (adr : Nat) : Option (Nat → BitVec 8) :=
  let block := adr / BlockSizeRaw
  let page := adr / PageSizeRaw
  let offset := adr % PageSizeRaw
  let cluster := adr / ClusterSizeRaw
  if card.isDataCluster cluster then
    let fatCluster := cluster - card.alloc_offset
    if card.isUsed fatCluster then
      (card.GetFileEntryCluster fatCluster).map fun entries i => entries (page % 2) (offset + i)
    else none
  else if block = 0 then some fun i => card.m_superBlock (page * PageSize + offset + i)
  else if block = card.backup_block1 then some fun i => card.m_backupBlock1 (page % 16 * PageSize + offset + i)
  else if block = card.backup_block2 then some fun i => card.m_backupBlock2 (page % 16 * PageSize + offset + i)
  else if cluster = card.ifc_list then some fun i => card.m_indirectFatRaw (page % 2 * PageSize + offset + i)
  else
    match (List.range (ClusterSize / 4)).find? fun j => card.m_indirectFat j ≠ IndirectFatUnused ∧ card.m_indirectFat j = cluster with
    | some j => some fun i => card.m_fatRaw j (page % 2 * PageSize + offset + i)
    | none => none

/-- Whether something was read, and the bytes that `dest` is filled with. -/
def ReadFromFile (adr : Nat) : Bool × (Nat → BitVec 8) :=
  let page := adr / PageSizeRaw
  let offset := adr % PageSizeRaw
  let cluster := adr / ClusterSizeRaw
  let fatCluster := cluster - card.alloc_offset
  if card.isDataCluster cluster ∧ card.isUsed fatCluster then
    match card.m_fileMetadataQuickAccess fatCluster with
    | some ⟨some content, consecutiveCluster⟩ =>
      let clusterOffset := page % 2 * PageSize + offset
      let fileOffset := (consecutiveCluster * ClusterSize + clusterOffset) % 2 ^ 32
      (fileOffset < content.length, fun i => content.getD (fileOffset + i) 0xFF)
    | _ => (false, fun _ => 0xFF)
  else (false, fun _ => 0xFF)

def ReadDataWithoutCache (adr : Nat) : Nat → BitVec 8 :=
  match card.GetSystemBlockPointer adr with
  | some src => src
  | none =>
    let (read, dest) := card.ReadFromFile adr
    if read then dest else fun _ => 0xFF

end FolderState

structure Destination where
  length : Nat
  bytes : Nat → BitVec 8

def Destination.write (dest : Destination) (place count : Nat) (src : Nat → BitVec 8) : Option Destination :=
  if count = 0 ∨ place + count ≤ dest.length then
    some { dest with bytes := fun i => if place ≤ i ∧ i < place + count then src (i - place) else dest.bytes i }
  else none

/-- The spare bytes behind a page: the codes of its blocks, and `0xFF`. -/
def spareBytes (data : Nat → BitVec 8) : List (BitVec 8) :=
  ((List.range (PageSize / 0x80)).flatMap fun i =>
    let ecc := FolderMemoryCard.CalculateECC fun j => data (i * 0x80 + j)
    [ecc.1, ecc.2.1, ecc.2.2]) ++ List.replicate (EccSize - PageSize / 0x80 * 3) 0xFF

def readData (card : FolderState) (adr : Nat) : Nat → BitVec 8 :=
  match card.m_cache (adr / PageSizeRaw) with
  | some cached => fun i => cached (adr % PageSizeRaw + i)
  | none => card.ReadDataWithoutCache adr

/-- The part of `Read` for the spare bytes, where `aligned` is what is read of the page's data. -/
def readSpare (aligned : Option Destination) (dest : Destination) (place offset size : Nat) : Option Destination := do
  let eccOffset := sub32 PageSize offset
  let eccLength := min (sub32 size offset) EccSize
  let data ← aligned
  let copySize := min (sub32 size eccOffset) eccLength
  dest.write (place + eccOffset) copySize fun i => (spareBytes data.bytes).getD i 0

/-- The part of `Read` that cares about one page: `size` bytes of it, where `last` is behind the last byte that was asked for. -/
def readPage (card : FolderState) (aligned : Option Destination) (dest : Destination) (place adr size last : Nat) : Option Destination := do
  let offset := adr % PageSizeRaw
  let dest ←
    if offset < PageSize then dest.write place (min size (PageSize - offset)) (readData card adr)
    else pure dest
  if last > PageSize then readSpare aligned dest place offset size else pure dest

/-- `Read` to a place of the destination. -/
def read (card : FolderState) : Nat → Destination → Nat → Nat → Nat → Option Destination
  | 0, _, _, _, _ => none
  | fuel + 1, dest, place, adr, size => do
    let page := adr / PageSizeRaw
    let offset := adr % PageSizeRaw
    let last := offset + size
    let aligned := read card fuel ⟨PageSize, fun _ => 0⟩ 0 (page * PageSizeRaw) PageSize
    if last > PageSizeRaw then
      let toNextPage := PageSizeRaw - offset
      let dest ← read card fuel dest (place + toNextPage) ((adr + toNextPage) % 2 ^ 32) (size - toNextPage)
      readPage card aligned dest place adr toNextPage last
    else readPage card aligned dest place adr size last

def FolderState.Read (card : FolderState) (dest : Destination) (adr size : Nat) : Option Destination :=
  read card (size + 1) dest 0 adr size

/-- The data bytes of a page, as `Read` returns them for an aligned read. -/
def pageData (card : FolderState) (page i : Nat) : BitVec 8 :=
  ((card.Read ⟨PageSize, fun _ => 0⟩ (page * PageSizeRaw) PageSize).map fun dest => dest.bytes i).getD 0

def raw (card : FolderState) (adr : Nat) : BitVec 8 :=
  let page := adr / PageSizeRaw
  let offset := adr % PageSizeRaw
  if offset < PageSize then pageData card page offset else (spareBytes (pageData card page)).getD (offset - PageSize) 0

/-- A read fills any destination with the image and writes nothing else. -/
def ReadsRaw (card : FolderState) (adr size : Nat) : Prop :=
  ∀ bytes, ∃ dest, card.Read ⟨size, bytes⟩ adr size = some dest ∧ ∀ i < size, dest.bytes i = raw card (adr + i)

variable {card : FolderState} {dest : Destination} {place count adr size page offset i fuel : Nat} {src src' : Nat → BitVec 8}

/-! ## Destinations -/

namespace Destination

def fill (dest : Destination) (place count : Nat) (src : Nat → BitVec 8) : Destination :=
  { dest with bytes := fun i => if place ≤ i ∧ i < place + count then src (i - place) else dest.bytes i }

theorem write_eq (fits : place + count ≤ dest.length) : dest.write place count src = some (dest.fill place count src) :=
  if_pos (.inr fits)

theorem write_outside (some_bytes : count ≠ 0) (outside : dest.length < place + count) : dest.write place count src = none :=
  if_neg (not_or.2 ⟨some_bytes, Nat.not_le_of_lt outside⟩)

theorem write_frame {dest' : Destination} (written : dest.write place count src = some dest') (outside : i < place ∨ place + count ≤ i) :
    dest'.bytes i = dest.bytes i := by
  rw [write] at written
  split_ifs at written with fits
  · obtain rfl := Option.some_inj.1 written
    exact if_neg (by omega)

theorem fill_outside (outside : i < place ∨ place + count ≤ i) : (dest.fill place count src).bytes i = dest.bytes i :=
  if_neg (by omega)

theorem fill_start (inside : i < count) : (dest.fill 0 count src).bytes i = src i := by
  simp [fill, inside]

theorem fill_congr (same : ∀ i < count, src i = src' i) : dest.fill place count src = dest.fill place count src' := by
  simp only [fill, mk.injEq, true_and]
  funext i
  split_ifs with inside
  · exact same _ (by omega)
  · rfl

theorem fill_behind (dest : Destination) (place count more : Nat) (src : Nat → BitVec 8) :
    (dest.fill place count src).fill (place + count) more (fun i => src (count + i)) = dest.fill place (count + more) src := by
  simp only [fill, mk.injEq, true_and]
  funext i
  split_ifs <;> first | rfl | omega | (congr 1; omega)

theorem fill_before (dest : Destination) (place count more : Nat) (src : Nat → BitVec 8) :
    (dest.fill (place + count) more (fun i => src (count + i))).fill place count src = dest.fill place (count + more) src := by
  simp only [fill, mk.injEq, true_and]
  funext i
  split_ifs <;> first | rfl | omega | (congr 1; omega)

end Destination

/-! ## Pages -/

theorem parts (small : offset < PageSizeRaw) : (page * PageSizeRaw + offset) / PageSizeRaw = page ∧
    (page * PageSizeRaw + offset) % PageSizeRaw = offset ∧ (page * PageSizeRaw + offset) / ClusterSizeRaw = page / 2 ∧
    (page * PageSizeRaw + offset) / BlockSizeRaw = page / 16 := by
  simp only [PageSizeRaw, ClusterSizeRaw, BlockSizeRaw, PageSize, EccSize] at small ⊢
  omega

theorem pageSize_lt : PageSize < PageSizeRaw := by decide

theorem getSystemBlockPointer_offset (small : offset < PageSize) : card.GetSystemBlockPointer (page * PageSizeRaw + offset) =
    (card.GetSystemBlockPointer (page * PageSizeRaw)).map fun src i => src (offset + i) := by
  obtain ⟨page_eq, offset_eq, cluster_eq, block_eq⟩ := @parts page offset (small.trans pageSize_lt)
  obtain ⟨page_eq', offset_eq', cluster_eq', block_eq'⟩ := @parts page 0 (by decide)
  rw [Nat.add_zero] at page_eq' offset_eq' cluster_eq' block_eq'
  simp only [FolderState.GetSystemBlockPointer, page_eq, offset_eq, cluster_eq, block_eq, page_eq', offset_eq', cluster_eq', block_eq']
  split_ifs
  · simp [Function.comp_def]
  · rfl
  · simp [Nat.add_assoc]
  · simp [Nat.add_assoc]
  · simp [Nat.add_assoc]
  · simp [Nat.add_assoc]
  · cases (List.range (ClusterSize / 4)).find? _ with
    | none => rfl
    | some j => simp [Nat.add_assoc]

theorem fileBytes_eq (content : List (BitVec 8)) (fileOffset i : Nat) :
    (if (fileOffset < content.length : Bool) then fun i => content.getD (fileOffset + i) 0xFF else fun _ => 0xFF) i =
      content.getD (fileOffset + i) 0xFF := by
  by_cases inside : fileOffset < content.length
  · simp [inside]
  · have outside : content.length ≤ fileOffset + i := by omega
    simp [inside, List.getElem?_eq_none outside]

theorem readDataWithoutCache_offset (small : offset < PageSize) (i : Nat) :
    card.ReadDataWithoutCache (page * PageSizeRaw + offset) i = card.ReadDataWithoutCache (page * PageSizeRaw) (offset + i) := by
  obtain ⟨page_eq, offset_eq, cluster_eq, -⟩ := @parts page offset (small.trans pageSize_lt)
  obtain ⟨page_eq', offset_eq', cluster_eq', -⟩ := @parts page 0 (by decide)
  rw [Nat.add_zero] at page_eq' offset_eq' cluster_eq'
  rw [FolderState.ReadDataWithoutCache, FolderState.ReadDataWithoutCache, getSystemBlockPointer_offset small]
  cases card.GetSystemBlockPointer (page * PageSizeRaw) with
  | some src => rfl
  | none =>
      simp only [Option.map_none, FolderState.ReadFromFile, page_eq, offset_eq, cluster_eq, page_eq', offset_eq', cluster_eq']
      by_cases inside : card.isDataCluster (page / 2) = true ∧ card.isUsed (page / 2 - card.alloc_offset) = true
      · rw [if_pos inside, if_pos inside]
        rcases card.m_fileMetadataQuickAccess (page / 2 - card.alloc_offset) with _ | ⟨_ | content, consecutiveCluster⟩
        · rfl
        · rfl
        · have base : (consecutiveCluster * ClusterSize + (page % 2 * PageSize + offset)) % 2 ^ 32 =
              (consecutiveCluster * ClusterSize + (page % 2 * PageSize + 0)) % 2 ^ 32 + offset := by
            simp only [ClusterSize, PageSize] at small ⊢
            omega
          simp only [fileBytes_eq]
          rw [base, Nat.add_assoc]
      · rw [if_neg inside, if_neg inside]
        rfl

theorem readData_offset (small : offset < PageSize) (i : Nat) :
    readData card (page * PageSizeRaw + offset) i = readData card (page * PageSizeRaw) (offset + i) := by
  obtain ⟨page_eq, offset_eq, -⟩ := @parts page offset (small.trans pageSize_lt)
  obtain ⟨page_eq', offset_eq', -⟩ := @parts page 0 (by decide)
  rw [Nat.add_zero] at page_eq' offset_eq'
  rw [readData, readData, page_eq, offset_eq, page_eq', offset_eq']
  cases card.m_cache page with
  | some cached => simp only [Nat.zero_add]
  | none => exact readDataWithoutCache_offset small i

theorem read_aligned (fits : place + PageSize ≤ dest.length) : read card (fuel + 1) dest place (page * PageSizeRaw) PageSize =
    some (dest.fill place PageSize (readData card (page * PageSizeRaw))) := by
  obtain ⟨-, offset_eq, -⟩ := @parts page 0 (by decide)
  rw [Nat.add_zero] at offset_eq
  have short : ¬0 + PageSize > PageSizeRaw := by decide
  have only : ¬0 + PageSize > PageSize := by decide
  have some_data : 0 < PageSize := by decide
  rw [read, offset_eq, if_neg short, readPage, offset_eq]
  simp only [if_neg only, if_pos some_data, Nat.sub_zero, Nat.min_self, Destination.write_eq fits]
  rfl

theorem read_page (card : FolderState) (page : Nat) : card.Read ⟨PageSize, fun _ => 0⟩ (page * PageSizeRaw) PageSize =
    some (Destination.fill ⟨PageSize, fun _ => 0⟩ 0 PageSize (readData card (page * PageSizeRaw))) :=
  read_aligned (Nat.le_of_eq (Nat.zero_add PageSize))

theorem pageData_eq (small : i < PageSize) : pageData card page i = readData card (page * PageSizeRaw) i := by
  rw [pageData, read_page, Option.map_some, Option.getD_some, Destination.fill_start small]

theorem spareBytes_congr (same : ∀ i < PageSize, src i = src' i) : spareBytes src = spareBytes src' := by
  have blocks (i : Nat) (inside : i < PageSize / 0x80) :
      (fun j : Fin 128 => src (i * 0x80 + j)) = fun j : Fin 128 => src' (i * 0x80 + j) := by
    funext j
    have block := j.isLt
    refine same _ ?_
    simp only [PageSize] at inside ⊢
    omega
  rw [spareBytes, spareBytes]
  congr 1
  exact List.flatMap_congr fun i mem => by rw [blocks i (List.mem_range.1 mem)]

theorem raw_data (small : offset < PageSize) : raw card (page * PageSizeRaw + offset) = readData card (page * PageSizeRaw) offset := by
  obtain ⟨page_eq, offset_eq, -⟩ := @parts page offset (small.trans pageSize_lt)
  rw [raw, page_eq, offset_eq, if_pos small, pageData_eq small]

theorem raw_spare (inside : PageSize + i < PageSizeRaw) :
    raw card (page * PageSizeRaw + (PageSize + i)) = (spareBytes (pageData card page)).getD i 0 := by
  obtain ⟨page_eq, offset_eq, -⟩ := @parts page (PageSize + i) inside
  have behind : ¬PageSize + i < PageSize := Nat.not_lt_of_le (Nat.le_add_right _ _)
  rw [raw, page_eq, offset_eq, if_neg behind, Nat.add_sub_cancel_left]

theorem sub32_of_le {a b : Nat} (le : b ≤ a) (small : a < 2 ^ 32) : sub32 a b = a - b := by
  rw [sub32]
  omega

theorem sub32_of_lt {a b : Nat} (lt : a < b) (small : b ≤ 2 ^ 32) : sub32 a b = 2 ^ 32 - (b - a) := by
  rw [sub32]
  omega

/-! ## One page -/

/-- The spare bytes can be read: the read ends in front of them, or it starts no later than with them and the lengths that are
taken from its size are long enough. -/
def SpareRead (offset size last : Nat) : Prop :=
  last ≤ PageSize ∨ offset ≤ PageSize ∧ (offset ≤ PageSize / 2 ∨ size < offset)

/-- The bytes of one page that are read: from an offset on, up to the last one that was asked for or the page's end. -/
structure PagePart (offset size last : Nat) : Prop where
  some_bytes : 0 < size
  inside : offset + size ≤ PageSizeRaw
  end_eq : offset + size = last ∨ offset + size = PageSizeRaw ∧ PageSizeRaw < last

theorem min_wrapped {wrap a b : Nat} (big : 1024 ≤ wrap) (lt : a < b) (small : b ≤ PageSizeRaw) :
    min (wrap - (b - a)) EccSize = EccSize := by
  simp only [PageSizeRaw, PageSize, EccSize] at *
  omega

variable {last : Nat}

theorem copySize_eq (part : PagePart offset size last) (spare : PageSize < last) (before : offset ≤ PageSize)
    (long : offset ≤ PageSize / 2 ∨ size < offset) :
    min (sub32 size (sub32 PageSize offset)) (min (sub32 size offset) EccSize) = offset + size - PageSize := by
  obtain ⟨some_bytes, inside, end_eq⟩ := part
  have page : PageSizeRaw = PageSize + EccSize := rfl
  have reaches : PageSize - offset ≤ size := by omega
  have size_small : size < 2 ^ 32 := Nat.lt_of_le_of_lt (Nat.le_trans (Nat.le_add_left _ _) inside) (by decide)
  rw [sub32_of_le before (by decide), sub32_of_le reaches size_small]
  rcases Nat.lt_or_ge size offset with short | enough
  · rw [sub32_of_lt short (Nat.le_trans before (by decide)), min_wrapped (by decide) short (Nat.le_trans before (by decide))]
    clear size_small
    omega
  · rw [sub32_of_le enough size_small]
    clear size_small
    simp only [PageSize, EccSize, PageSizeRaw] at *
    omega

theorem readPage_eq {data : Destination} (part : PagePart offset size last) (spare : SpareRead offset size last)
    (aligned : ∀ i < PageSize, data.bytes i = pageData card page i) (fits : place + size ≤ dest.length) :
    readPage card (some data) dest place (page * PageSizeRaw + offset) size last =
      some (dest.fill place size fun i => raw card (page * PageSizeRaw + offset + i)) := by
  obtain ⟨some_bytes, inside, end_eq⟩ := part
  have offset_small : offset < PageSizeRaw := by omega
  obtain ⟨-, offset_eq, -⟩ := @parts page offset offset_small
  have data_eq (small : offset < PageSize) (i : Nat) (within : offset + i < PageSize) :
      readData card (page * PageSizeRaw + offset) i = raw card (page * PageSizeRaw + offset + i) := by
    rw [readData_offset small, Nat.add_assoc, raw_data within]
  rw [readPage, offset_eq]
  rcases Nat.lt_or_ge PageSize last with beyond | short
  · obtain ⟨before, long⟩ := spare.resolve_left (Nat.not_le_of_lt beyond)
    have reaches : PageSize < offset + size := by
      have := pageSize_lt
      omega
    have copySize := copySize_eq ⟨some_bytes, inside, end_eq⟩ beyond before long
    have eccOffset : sub32 PageSize offset = PageSize - offset := sub32_of_le before (by decide)
    rw [eccOffset] at copySize
    have spare_eq (i : Nat) (within : i < offset + size - PageSize) :
        (spareBytes data.bytes).getD i 0 = raw card (page * PageSizeRaw + offset + (PageSize - offset + i)) := by
      have place_eq : page * PageSizeRaw + offset + (PageSize - offset + i) = page * PageSizeRaw + (PageSize + i) := by omega
      rw [place_eq, raw_spare (by omega), spareBytes_congr aligned]
    have whole : PageSize - offset + (offset + size - PageSize) = size := by omega
    have spare_fits : place + (PageSize - offset) + (offset + size - PageSize) ≤ dest.length := by omega
    simp only [if_pos beyond, readSpare, eccOffset, copySize, Option.bind_eq_bind, Option.bind_some]
    rcases Nat.lt_or_eq_of_le before with small | only_spare
    · have length : min size (PageSize - offset) = PageSize - offset := by omega
      have behind (src src' : Nat → BitVec 8) : (dest.fill place (PageSize - offset) src).write (place + (PageSize - offset))
          (offset + size - PageSize) src' = some ((dest.fill place (PageSize - offset) src).fill (place + (PageSize - offset))
            (offset + size - PageSize) src') := Destination.write_eq spare_fits
      rw [if_pos small, length, Destination.write_eq (by omega), Option.bind_some, behind,
        Destination.fill_congr fun i within => data_eq small i (by omega), Destination.fill_congr spare_eq,
        Destination.fill_behind dest place (PageSize - offset) (offset + size - PageSize)
          (fun i => raw card (page * PageSizeRaw + offset + i)), whole]
    · have no_data : ¬offset < PageSize := Nat.not_lt_of_le (Nat.le_of_eq only_spare.symm)
      rw [only_spare, Nat.sub_self, Nat.add_zero, Nat.add_sub_cancel_left] at spare_fits
      rw [if_neg no_data]
      simp only [only_spare, Nat.sub_self, Nat.add_zero, Nat.add_sub_cancel_left, Option.pure_def, Option.bind_some, Nat.zero_add]
        at spare_eq ⊢
      rw [Destination.write_eq spare_fits, Destination.fill_congr spare_eq]
  · have small : offset < PageSize := by omega
    have ends : offset + size = last := end_eq.resolve_right (by have := pageSize_lt; omega)
    have length : min size (PageSize - offset) = size := by omega
    have no_spare : ¬last > PageSize := Nat.not_lt_of_le short
    have filled : dest.write place size (readData card (page * PageSizeRaw + offset)) =
        some (dest.fill place size fun i => raw card (page * PageSizeRaw + offset + i)) := by
      rw [Destination.write_eq fits, Destination.fill_congr fun i within => data_eq small i (by omega)]
    rw [if_pos small, length, filled, Option.bind_eq_bind, Option.bind_some]
    exact if_neg no_spare

/-! ## Whole reads -/

theorem exists_page (adr : Nat) : ∃ page offset, offset < PageSizeRaw ∧ adr = page * PageSizeRaw + offset :=
  ⟨adr / PageSizeRaw, adr % PageSizeRaw, Nat.mod_lt _ (by decide), (Nat.div_add_mod' _ _).symm⟩

def alignedData (card : FolderState) (page : Nat) : Destination :=
  Destination.fill ⟨PageSize, fun _ => 0⟩ 0 PageSize (readData card (page * PageSizeRaw))

theorem alignedData_eq : ∀ i < PageSize, (alignedData card page).bytes i = pageData card page i := by
  intro i small
  rw [pageData_eq small, alignedData, Destination.fill_start small]

theorem read_across (small : offset < PageSizeRaw) (across : PageSizeRaw < offset + size) :
    read card (fuel + 2) dest place (page * PageSizeRaw + offset) size =
      (read card (fuel + 1) dest (place + (PageSizeRaw - offset)) ((page * PageSizeRaw + offset + (PageSizeRaw - offset)) % 2 ^ 32)
        (size - (PageSizeRaw - offset))).bind fun dest =>
          readPage card (some (alignedData card page)) dest place (page * PageSizeRaw + offset) (PageSizeRaw - offset) (offset + size) := by
  obtain ⟨page_eq, offset_eq, -⟩ := @parts page offset small
  have aligned : read card (fuel + 1) ⟨PageSize, fun _ => 0⟩ 0 (page * PageSizeRaw) PageSize = some (alignedData card page) :=
    read_aligned (Nat.le_of_eq (Nat.zero_add PageSize))
  rw [read, page_eq, offset_eq, aligned]
  exact if_pos across

theorem read_within (small : offset < PageSizeRaw) (within : offset + size ≤ PageSizeRaw) :
    read card (fuel + 2) dest place (page * PageSizeRaw + offset) size =
      readPage card (some (alignedData card page)) dest place (page * PageSizeRaw + offset) size (offset + size) := by
  obtain ⟨page_eq, offset_eq, -⟩ := @parts page offset small
  have aligned : read card (fuel + 1) ⟨PageSize, fun _ => 0⟩ 0 (page * PageSizeRaw) PageSize = some (alignedData card page) :=
    read_aligned (Nat.le_of_eq (Nat.zero_add PageSize))
  rw [read, page_eq, offset_eq, aligned]
  exact if_neg (Nat.not_lt_of_le within)

/-- A read starts in front of the spare bytes or with them, and not in the eight bytes behind the middle of the page with so many bytes
that the spare bytes are cut short; or it ends in front of them. -/
def Readable (adr size : Nat) : Prop :=
  SpareRead (adr % PageSizeRaw) (min size (PageSizeRaw - adr % PageSizeRaw)) (adr % PageSizeRaw + size)

instance : Decidable (Readable adr size) := inferInstanceAs (Decidable (_ ∨ _))

theorem next_page (small : offset < PageSizeRaw) (across : PageSizeRaw < offset + size) (low : page * PageSizeRaw + offset + size ≤ 2 ^ 32) :
    (page * PageSizeRaw + offset + (PageSizeRaw - offset)) % 2 ^ 32 = page * PageSizeRaw + offset + (PageSizeRaw - offset) ∧
      page * PageSizeRaw + offset + (PageSizeRaw - offset) + (size - (PageSizeRaw - offset)) ≤ 2 ^ 32 ∧
        Readable (page * PageSizeRaw + offset + (PageSizeRaw - offset)) (size - (PageSizeRaw - offset)) := by
  have next : page * PageSizeRaw + offset + (PageSizeRaw - offset) = (page + 1) * PageSizeRaw := by
    rw [Nat.succ_mul]
    clear low
    omega
  have next_lt : page * PageSizeRaw + offset + (PageSizeRaw - offset) < page * PageSizeRaw + offset + size :=
    Nat.add_lt_add_left (by clear low; omega) _
  have last_eq : page * PageSizeRaw + offset + (PageSizeRaw - offset) + (size - (PageSizeRaw - offset)) =
      page * PageSizeRaw + offset + size := by
    clear low
    omega
  refine ⟨Nat.mod_eq_of_lt (Nat.lt_of_lt_of_le next_lt low), last_eq.symm ▸ low, ?_⟩
  rw [Readable, next, Nat.mul_mod_left]
  exact .inr ⟨Nat.zero_le _, .inl (Nat.zero_le _)⟩

theorem read_eq (some_bytes : 0 < size) (enough : size < fuel) (fits : place + size ≤ dest.length) (low : adr + size ≤ 2 ^ 32)
    (readable : Readable adr size) :
    read card fuel dest place adr size = some (dest.fill place size fun i => raw card (adr + i)) := by
  induction fuel generalizing dest place adr size with
  | zero => cases enough
  | succ fuel ih =>
      obtain ⟨fuel, rfl⟩ : ∃ n, fuel = n + 1 := Nat.exists_eq_succ_of_ne_zero (by omega)
      obtain ⟨page, offset, small, rfl⟩ := exists_page adr
      obtain ⟨-, offset_eq, -⟩ := @parts page offset small
      rw [Readable, offset_eq] at readable
      rcases Nat.lt_or_ge PageSizeRaw (offset + size) with across | within
      · obtain ⟨next, next_low, next_readable⟩ := next_page small across low
        have behind : read card (fuel + 1) dest (place + (PageSizeRaw - offset)) (page * PageSizeRaw + offset + (PageSizeRaw - offset))
            (size - (PageSizeRaw - offset)) = some (dest.fill (place + (PageSizeRaw - offset)) (size - (PageSizeRaw - offset))
              fun i => raw card (page * PageSizeRaw + offset + (PageSizeRaw - offset + i))) := by
          have rest := ih (by omega) (by omega) (by omega : place + (PageSizeRaw - offset) + (size - (PageSizeRaw - offset)) ≤ dest.length)
            next_low next_readable
          simp only [Nat.add_assoc] at rest ⊢
          exact rest
        have part : PagePart offset (PageSizeRaw - offset) (offset + size) :=
          ⟨by omega, by omega, .inr ⟨by omega, across⟩⟩
        rw [Nat.min_eq_right (by omega)] at readable
        have filled (dest' : Destination) (same : dest'.length = dest.length) : readPage card (some (alignedData card page)) dest' place
            (page * PageSizeRaw + offset) (PageSizeRaw - offset) (offset + size) =
              some (dest'.fill place (PageSizeRaw - offset) fun i => raw card (page * PageSizeRaw + offset + i)) :=
          readPage_eq part readable alignedData_eq (by omega)
        have page_filled := filled (dest.fill (place + (PageSizeRaw - offset)) (size - (PageSizeRaw - offset))
          fun i => raw card (page * PageSizeRaw + offset + (PageSizeRaw - offset + i))) rfl
        rw [read_across small across, next, behind, Option.bind_some, page_filled,
          Destination.fill_before dest place (PageSizeRaw - offset) (size - (PageSizeRaw - offset))
          (fun i => raw card (page * PageSizeRaw + offset + i)), Nat.add_sub_cancel' (by omega)]
      · rw [Nat.min_eq_left (by omega)] at readable
        rw [read_within small within]
        exact readPage_eq ⟨some_bytes, within, .inl rfl⟩ readable alignedData_eq fits

/-! ## Reads that go wrong -/

theorem sub32_wrapped {a b : Nat} (small : a + b < 2 ^ 32) : sub32 a (2 ^ 32 - b) = a + b := by
  rw [sub32]
  omega

theorem readSpare_some (data : Destination) : readSpare (some data) dest place offset size =
    dest.write (place + sub32 PageSize offset) (min (sub32 size (sub32 PageSize offset)) (min (sub32 size offset) EccSize))
      fun i => (spareBytes data.bytes).getD i 0 := by
  rw [readSpare, Option.bind_eq_bind, Option.bind_some]

theorem readPage_spare {aligned : Option Destination} (small : offset < PageSizeRaw) (spare : PageSize < last) :
    readPage card aligned dest place (page * PageSizeRaw + offset) size last =
      (if offset < PageSize then dest.write place (min size (PageSize - offset)) (readData card (page * PageSizeRaw + offset))
        else some dest).bind fun dest => readSpare aligned dest place offset size := by
  obtain ⟨-, offset_eq, -⟩ := @parts page offset small
  have both : (fun dest => if last > PageSize then readSpare aligned dest place offset size else pure dest) =
      fun dest => readSpare aligned dest place offset size := funext fun dest => if_pos spare
  rw [readPage, offset_eq, both]
  split_ifs <;> rfl

theorem readSpare_late {data : Destination} (late : PageSize < offset) (inside : offset + size ≤ PageSizeRaw) (some_bytes : 0 < size)
    (room : dest.length < 2 ^ 31) : readSpare (some data) dest place offset size = none := by
  have page : PageSizeRaw = PageSize + EccSize := rfl
  have spare : EccSize ≤ PageSize := by decide
  have behind : offset - PageSize ≤ EccSize := by omega
  have short : size < offset := by omega
  have sum : size + (offset - PageSize) ≤ EccSize + EccSize := by omega
  have offset_small : offset ≤ PageSizeRaw := by omega
  have copied : min (sub32 size (sub32 PageSize offset)) (min (sub32 size offset) EccSize) ≠ 0 := by
    rw [sub32_of_lt late (Nat.le_trans offset_small (by decide)), sub32_wrapped (Nat.lt_of_le_of_lt sum (by decide)),
      sub32_of_lt short (Nat.le_trans offset_small (by decide)), min_wrapped (by decide) short offset_small]
    have some_spare : 0 < EccSize := by decide
    clear room
    omega
  have far : 2 ^ 31 ≤ sub32 PageSize offset := by
    rw [sub32_of_lt late (Nat.le_trans offset_small (by decide))]
    exact Nat.le_sub_of_add_le (Nat.le_trans (Nat.add_le_add_left behind _) (by decide))
  have outside : dest.length < place + sub32 PageSize offset + min (sub32 size (sub32 PageSize offset)) (min (sub32 size offset) EccSize) :=
    Nat.lt_of_lt_of_le room (Nat.le_trans far (Nat.le_trans (Nat.le_add_left _ _) (Nat.le_add_right _ _)))
  rw [readSpare_some, Destination.write_outside copied outside]

theorem readPage_bad {data dest' : Destination} (part : PagePart offset size last) (bad : ¬SpareRead offset size last)
    (room : dest.length < 2 ^ 31) (read : readPage card (some data) dest place (page * PageSizeRaw + offset) size last = some dest') :
    dest'.bytes (place + size - 1) = dest.bytes (place + size - 1) := by
  obtain ⟨beyond, bad⟩ := not_or.1 bad
  obtain ⟨some_bytes, inside, end_eq⟩ := part
  rw [readPage_spare (by omega) (Nat.lt_of_not_le beyond)] at read
  obtain ⟨filled, data_written, read⟩ := Option.bind_eq_some_iff.1 read
  rcases Nat.lt_or_ge PageSize offset with late | before
  · have no_data : ¬offset < PageSize := Nat.not_lt_of_lt late
    rw [if_neg no_data] at data_written
    obtain rfl := Option.some_inj.1 data_written
    rw [readSpare_late late inside some_bytes room] at read
    cases read
  · have halves : PageSize / 2 < offset ∧ offset ≤ size := by
      constructor <;> by_contra other <;> exact bad ⟨before, by omega⟩
    have middle : offset < PageSize ∧ PageSize - offset ≤ size - 1 ∧ PageSize - offset + (size - offset) ≤ size - 1 := by
      clear read data_written room bad
      simp only [PageSize, PageSizeRaw, EccSize] at *
      omega
    have eccOffset : sub32 PageSize offset = PageSize - offset := sub32_of_le before (by decide)
    have copied : min (sub32 size (PageSize - offset)) (min (sub32 size offset) EccSize) ≤ size - offset := by
      rw [sub32_of_le halves.2 (Nat.lt_of_le_of_lt (Nat.le_trans (Nat.le_add_left _ _) inside) (by decide))]
      exact Nat.le_trans (Nat.min_le_right _ _) (Nat.min_le_left _ _)
    rw [if_pos middle.1] at data_written
    rw [readSpare_some, eccOffset] at read
    have last_eq : place + size - 1 = place + (size - 1) := Nat.add_sub_assoc some_bytes place
    have behind_spare : place + (PageSize - offset) + min (sub32 size (PageSize - offset)) (min (sub32 size offset) EccSize) ≤
        place + (size - 1) := by
      rw [Nat.add_assoc]
      exact Nat.add_le_add_left (Nat.le_trans (Nat.add_le_add_left copied _) middle.2.2) place
    have behind_data : place + min size (PageSize - offset) ≤ place + (size - 1) :=
      Nat.add_le_add_left (Nat.le_trans (Nat.min_le_right _ _) middle.2.1) place
    rw [last_eq, Destination.write_frame read (.inr behind_spare), Destination.write_frame data_written (.inr behind_data)]

theorem not_ne_self (b : BitVec 8) : ~~~b ≠ b := by
  intro same
  have bit := congrArg (fun b => b.getLsbD 0) same
  simp at bit

theorem not_readsRaw (some_bytes : 0 < size) (room : size < 2 ^ 31) (low : adr + size ≤ 2 ^ 32) (bad : ¬Readable adr size) :
    ¬ReadsRaw card adr size := by
  intro reads
  obtain ⟨dest, read_some, same⟩ := reads fun i => ~~~raw card (adr + i)
  obtain ⟨fuel, rfl⟩ := Nat.exists_eq_succ_of_ne_zero (Nat.ne_of_gt some_bytes)
  obtain ⟨page, offset, small, rfl⟩ := exists_page adr
  obtain ⟨-, offset_eq, -⟩ := @parts page offset small
  rw [Readable, offset_eq] at bad
  rw [FolderState.Read] at read_some
  have untouched (i : Nat) (inside : i < fuel + 1) (kept : dest.bytes i = ~~~raw card (page * PageSizeRaw + offset + i)) : False :=
    not_ne_self _ (kept.symm.trans (same i inside))
  rcases Nat.lt_or_ge PageSizeRaw (offset + (fuel + 1)) with across | within
  · obtain ⟨next, next_low, next_readable⟩ := next_page small across low
    have length : 0 + (PageSizeRaw - offset) + (fuel + 1 - (PageSizeRaw - offset)) ≤
        Destination.length ⟨fuel + 1, fun i => ~~~raw card (page * PageSizeRaw + offset + i)⟩ := by
      simp only
      clear room low next next_low
      omega
    have positive : 0 < fuel + 1 - (PageSizeRaw - offset) := by
      clear room low next next_low
      omega
    have enough : fuel + 1 - (PageSizeRaw - offset) < fuel + 1 := by
      clear room low next next_low
      omega
    have part : PagePart offset (PageSizeRaw - offset) (offset + (fuel + 1)) := by
      clear room low next next_low
      exact ⟨by omega, by omega, .inr ⟨by omega, across⟩⟩
    rw [Nat.min_eq_right (by clear room low next next_low; omega)] at bad
    rw [read_across small across, next, read_eq positive enough length next_low next_readable, Option.bind_some] at read_some
    have kept := readPage_bad part bad room read_some
    have before : 0 + (PageSizeRaw - offset) - 1 < 0 + (PageSizeRaw - offset) := Nat.sub_lt (by rw [Nat.zero_add]; exact part.some_bytes) Nat.one_pos
    rw [Destination.fill_outside (.inl before)] at kept
    exact untouched _ (by clear room low next next_low; omega) kept
  · rw [Nat.min_eq_left (by clear room low; omega)] at bad
    rw [read_within small within] at read_some
    have kept := readPage_bad ⟨some_bytes, within, .inl rfl⟩ bad room read_some
    rw [Nat.zero_add, Nat.succ_sub_one] at kept
    exact untouched fuel (Nat.lt_succ_self fuel) kept

/-- A read fills its destination with the image, whatever was there, exactly where the spare bytes of its first page can be read. -/
theorem readsRaw_iff (some_bytes : 0 < size) (room : size < 2 ^ 31) (low : adr + size ≤ 2 ^ 32) :
    ReadsRaw card adr size ↔ Readable adr size := by
  constructor
  · intro reads
    by_contra bad
    exact not_readsRaw some_bytes room low bad reads
  · intro readable bytes
    have fits : 0 + size ≤ Destination.length ⟨size, bytes⟩ := Nat.le_of_eq (Nat.zero_add size)
    refine ⟨_, read_eq some_bytes (Nat.lt_succ_self size) fits low readable, fun i inside => ?_⟩
    rw [Destination.fill_start inside]

def blankCard : FolderState where
  alloc_offset := 0
  alloc_end := 0
  backup_block1 := 0
  backup_block2 := 0
  ifc_list := 0
  m_superBlock _ := 0
  m_backupBlock1 _ := 0xFF
  m_backupBlock2 _ := 0xFF
  m_indirectFat _ := IndirectFatUnused
  m_indirectFatRaw _ := 0xFF
  m_fat _ := 0
  m_fatRaw _ _ := 0
  GetFileEntryCluster _ := none
  m_fileMetadataQuickAccess _ := none
  m_cache _ := none

theorem readsRaw_twoPages : ReadsRaw blankCard 100 1000 :=
  (readsRaw_iff (by decide) (by decide) (by decide)).2 (by decide)

/-- A read of the second spare byte writes outside its destination, and one to the end of the spare bytes misses two of them. -/
theorem spare_not_readsRaw : blankCard.Read ⟨1, fun _ => 0⟩ 513 1 = none ∧ ¬ReadsRaw blankCard 513 1 ∧ ¬ReadsRaw blankCard 257 271 := by
  refine ⟨?_, not_readsRaw (by decide) (by decide) (by decide) (by decide),
    not_readsRaw (by decide) (by decide) (by decide) (by decide)⟩
  decide

end Pcsx2.Memcard
