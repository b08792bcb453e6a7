import Mathlib.Algebra.Group.Nat.Defs
import Mathlib.Data.Fin.VecNotation
import Pcsx2.Cdvd.ThreadedFileReader

/-!
# The memory that a compressed image is read through

Which places of `m_index`, `m_readBuffer`, the precache and the destination `ReadChunk` touches, for
a file of any contents. Shifts take their count modulo the width of what they shift.
-/

namespace Pcsx2.Cdvd.CsoFileReader

structure CsoHeader where
  magic : Fin 4 → UInt8
  total_bytes : UInt64
  frame_size : UInt32
  ver : UInt8
  align : UInt8

scoped instance magic_size : NeZero 4 := ⟨Nat.succ_ne_zero 3⟩

def validateHeader (hdr : CsoHeader) : Bool :=
  if (hdr.magic 0 ≠ 67 ∧ hdr.magic 0 ≠ 90) ∨ hdr.magic 1 ≠ 73 ∨ hdr.magic 2 ≠ 83 ∨ hdr.magic 3 ≠ 79 then false
  else if hdr.ver > 1 then false
  else if hdr.frame_size &&& (hdr.frame_size - 1) ≠ 0 then false
  else if hdr.frame_size < 2048 then false
  else true

namespace CsoHeader

variable (hdr : CsoHeader)

/-- Each shift of the loop in `ReadFileHeader` halves the size. -/
def frameShift : Nat := hdr.frame_size.toNat.log2

def uselz4 : Bool := hdr.magic 0 = 90

/-- `numFrames` has 32 bits, and the sum in it 64. -/
def numFrames : Nat := (hdr.total_bytes.toNat + hdr.frame_size.toNat - 1) % 2 ^ 64 / hdr.frame_size.toNat % 2 ^ 32

/-- The entries of `m_index`. -/
def indexSize : Nat := (hdr.numFrames + 1) % 2 ^ 32

def readBufferSize : Nat :=
  let size := (hdr.frame_size.toNat + 2 ^ (hdr.align.toNat % 32)) % 2 ^ 32
  if size < 256 * 1024 then 256 * 1024 else size

end CsoHeader

structure Opened where
  hdr : CsoHeader
  accepted : validateHeader hdr = true
  index : List UInt32
  read : index.length = hdr.indexSize
  fileSize : Nat
  small : fileSize < 2 ^ 63

structure Codec where
  decompress : Bool → Nat → Int → Bool × Nat
  honours : ∀ uselz4 size limit, (decompress uselz4 size limit).2 ≤ limit.toNat

inductive Access
  | index (place : Nat)
  | readBuffer (size : Nat)
  | cache (place size : Nat)
  | dst (size : Nat)

namespace Opened

variable (o : Opened)

def entry (place : Nat) : UInt32 := o.index.getD (place % 2 ^ 32) 0

def compressed (frame : Nat) : Bool := o.entry frame &&& 0x80000000 = 0

def frameRawPos (frame : Nat) : Nat :=
  ((o.entry frame &&& 0x7FFFFFFF).toUInt64 <<< o.hdr.align.toUInt64).toNat

def frameRawSize (frame : Nat) : Nat :=
  (((o.entry (frame + 1) &&& 0x7FFFFFFF) - (o.entry frame &&& 0x7FFFFFFF)).toUInt64 <<< o.hdr.align.toUInt64).toNat

def available (frame : Nat) : Nat := min (o.fileSize - o.frameRawPos frame) (o.frameRawSize frame)

/-- A `size_t` that is returned as an `int`. -/
def result (size : Nat) : Int := (BitVec.ofNat 32 size).toInt

/-- The end of `ReadChunk` for a compressed frame. -/
def decompressFrame (codec : Codec) (readRawBytes : Nat) : Int × List Access :=
  let limit : Int := if o.hdr.uselz4 then result o.hdr.frame_size.toNat else o.hdr.frame_size.toNat
  let (success, written) := codec.decompress o.hdr.uselz4 readRawBytes limit
  (if success then result o.hdr.frame_size.toNat else 0, [.dst written])

/-- What `ReadChunk` returns and touches. -/
def readChunk (cached : Bool) (codec : Codec) (chunkID : Int) : Int × List Access :=
  if chunkID < 0 then (-1, [])
  else
    let frame := chunkID.toNat % 2 ^ 32
    let entries : List Access := [.index frame, .index ((frame + 1) % 2 ^ 32)]
    let pos := o.frameRawPos frame
    if !o.compressed frame then
      if cached then
        if o.fileSize ≤ pos then (0, entries)
        else (result (o.available frame), entries ++ [.cache pos (o.available frame), .dst (o.available frame)])
      else if 2 ^ 63 ≤ pos then (0, entries)
      else
        let size := min (o.fileSize - pos) o.hdr.frame_size.toNat
        (result size, entries ++ [.dst size])
    else if cached then
      if o.fileSize ≤ pos then (0, entries)
      else
        let readRawBytes := o.available frame % 2 ^ 32
        let (size, written) := o.decompressFrame codec readRawBytes
        (size, entries ++ [.cache pos readRawBytes] ++ written)
    else if 2 ^ 63 ≤ pos then (0, entries)
    else
      let readRawBytes := o.available frame % 2 ^ 32
      let (size, written) := o.decompressFrame codec readRawBytes
      (size, entries ++ [.readBuffer (o.available frame), .readBuffer readRawBytes] ++ written)

/-- The place that is touched is inside what it belongs to. -/
def Allows : Access → Prop
  | .index place => place < o.hdr.indexSize
  | .readBuffer size => size ≤ o.hdr.readBufferSize
  | .cache place size => place + size ≤ o.fileSize
  | .dst size => size ≤ o.hdr.frame_size.toNat

/-- The frame and its end are in the index; if it is compressed, what the file has of it fits
`m_readBuffer` when it is read there; if not, it is no longer than a frame when it is copied. -/
def Fits (cached : Bool) (chunkID : Nat) : Prop :=
  let frame := chunkID % 2 ^ 32
  (frame < o.hdr.numFrames ∧ o.hdr.numFrames + 1 < 2 ^ 32) ∧
    if o.compressed frame then cached = false → o.available frame ≤ o.hdr.readBufferSize
    else cached = true → o.available frame ≤ o.hdr.frame_size.toNat

variable {o} {cached : Bool} {codec : Codec} {frame readRawBytes : Nat}

theorem entries_iff (frame : Nat) (word : frame < 2 ^ 32) :
    (∀ access ∈ [Access.index frame, .index ((frame + 1) % 2 ^ 32)], o.Allows access) ↔
      frame < o.hdr.numFrames ∧ o.hdr.numFrames + 1 < 2 ^ 32 := by
  have frames : o.hdr.numFrames < 2 ^ 32 := Nat.mod_lt _ (by decide)
  simp only [List.forall_mem_cons, List.not_mem_nil, false_imp_iff, implies_true, and_true, Allows, CsoHeader.indexSize]
  generalize o.hdr.numFrames = frames at *
  omega

theorem result_le (size : Nat) : result size ≤ size := by
  have wrapped := Nat.mod_le size (2 ^ 32)
  rw [result, BitVec.toInt_eq_toNat_cond, BitVec.toNat_ofNat]
  split <;> omega

theorem decompressFrame_allowed : ∀ access ∈ (o.decompressFrame codec readRawBytes).2, o.Allows access := by
  unfold decompressFrame
  simp only [List.forall_mem_cons, List.not_mem_nil, false_imp_iff, implies_true, and_true, Allows]
  refine (codec.honours _ _ _).trans ?_
  have bound := result_le o.hdr.frame_size.toNat
  split <;> omega

theorem readChunk_allowed_iff (chunkID : Nat) :
    (∀ access ∈ (o.readChunk cached codec chunkID).2, o.Allows access) ↔ o.Fits cached chunkID := by
  have word : chunkID % 2 ^ 32 < 2 ^ 32 := Nat.mod_lt _ (by decide)
  have entries := entries_iff (o := o) _ word
  have end_small := o.small
  have short := Nat.mod_le (o.available (chunkID % 2 ^ 32)) (2 ^ 32)
  unfold readChunk Fits
  rw [if_neg (by omega), Int.toNat_natCast]
  generalize frame_eq : chunkID % 2 ^ 32 = frame at *
  have none : o.fileSize ≤ o.frameRawPos frame → o.available frame = 0 := by
    intro past
    rw [available, Nat.sub_eq_zero_of_le past, Nat.zero_min]
  have inside : o.frameRawPos frame < o.fileSize → o.frameRawPos frame + o.available frame ≤ o.fileSize := by
    intro before
    have := Nat.min_le_left (o.fileSize - o.frameRawPos frame) (o.frameRawSize frame)
    rw [available]
    omega
  dsimp only
  cases o.compressed frame with
  | false =>
      cases cached with
      | false =>
          simp only [Bool.not_false, if_true, if_false, Bool.false_eq_true, false_imp_iff, and_true]
          split
          · exact entries
          · rw [List.forall_mem_append, entries]
            exact and_iff_left (by simp [Allows])
      | true =>
          simp only [Bool.not_false, if_true, if_false, Bool.false_eq_true, true_imp_iff]
          split
          · rename_i past
            rw [entries, none past]
            exact (and_iff_left (Nat.zero_le _)).symm
          · rename_i before
            rw [List.forall_mem_append, entries]
            apply and_congr_right'
            have bound := inside (by omega)
            simp only [List.forall_mem_cons, List.not_mem_nil, false_imp_iff, implies_true, and_true, Allows]
            exact and_iff_right bound
  | true =>
      cases cached with
      | false =>
          simp only [Bool.not_true, if_true, if_false, Bool.false_eq_true, true_imp_iff]
          split
          · rename_i past
            rw [entries, none (by omega)]
            exact (and_iff_left (Nat.zero_le _)).symm
          · rw [List.forall_mem_append, List.forall_mem_append, entries, and_assoc]
            apply and_congr_right'
            rw [and_iff_left decompressFrame_allowed]
            simpa [Allows] using fun fits => short.trans fits
      | true =>
          simp only [Bool.not_true, if_true, if_false, Bool.false_eq_true, Bool.true_eq_false, false_imp_iff, and_true]
          split
          · exact entries
          · rename_i before
            rw [List.forall_mem_append, List.forall_mem_append, entries, and_assoc]
            refine and_iff_left ⟨?_, decompressFrame_allowed⟩
            have bound := inside (by omega)
            simp only [List.forall_mem_cons, List.not_mem_nil, false_imp_iff, implies_true, and_true, Allows]
            omega

end Opened

/-- Reading the chunk of an offset touches only what it may exactly when the frame fits. -/
theorem readChunk_inside_iff (o : Opened) (cached : Bool) (codec : Codec) (offset : Nat)
    (chosen : 0 ≤ (chunkForOffset o.hdr.total_bytes.toNat o.hdr.frameShift offset).chunkID) :
    (∀ access ∈ (o.readChunk cached codec (chunkForOffset o.hdr.total_bytes.toNat o.hdr.frameShift offset).chunkID).2,
      o.Allows access) ↔ o.Fits cached (offset >>> o.hdr.frameShift) := by
  have here : (chunkForOffset o.hdr.total_bytes.toNat o.hdr.frameShift offset).chunkID =
      (offset >>> o.hdr.frameShift : Nat) := by
    unfold chunkForOffset at chosen ⊢
    split
    · rename_i past
      rw [if_pos past] at chosen
      cases chosen
    · rfl
  rw [here]
  exact Opened.readChunk_allowed_iff _

def Codec.refusing : Codec := ⟨fun _ _ _ => (false, 0), fun _ _ _ => Nat.zero_le _⟩

def twoSectors (first second last : UInt32) (fileSize : Nat) (small : fileSize < 2 ^ 63) : Opened where
  hdr := ⟨![67, 73, 83, 79], 4096, 2048, 1, 0⟩
  accepted := by decide
  index := [first, second, last]
  read := rfl
  fileSize := fileSize
  small := small

def storedSectors : Opened := twoSectors 0x80000024 0x80000824 0x80001024 4132 (by decide)

theorem readChunk_inside_iff_stored :
    0 ≤ (chunkForOffset storedSectors.hdr.total_bytes.toNat storedSectors.hdr.frameShift 0).chunkID ∧
      ((∀ access ∈ (storedSectors.readChunk false .refusing
          (chunkForOffset storedSectors.hdr.total_bytes.toNat storedSectors.hdr.frameShift 0).chunkID).2,
        storedSectors.Allows access) ↔ storedSectors.Fits false (0 >>> storedSectors.hdr.frameShift)) :=
  ⟨by decide, readChunk_inside_iff storedSectors false .refusing 0 (by decide)⟩

def longFrame : Opened := twoSectors 36 0x7FFFFFFF 0x7FFFFFFF 400000 (by decide)

/-- 399964 bytes go into a buffer of 262144. -/
theorem readBuffer_overrun :
    0 ≤ (chunkForOffset longFrame.hdr.total_bytes.toNat longFrame.hdr.frameShift 0).chunkID ∧
      ¬∀ access ∈ (longFrame.readChunk false .refusing
          (chunkForOffset longFrame.hdr.total_bytes.toNat longFrame.hdr.frameShift 0).chunkID).2,
        longFrame.Allows access := by
  refine ⟨by decide, fun allowed => ?_⟩
  have fits := ((Opened.readChunk_allowed_iff 0).1 allowed).2
  rw [if_pos (by decide)] at fits
  have available : longFrame.available 0 = 399964 := by decide
  have room : longFrame.hdr.readBufferSize = 262144 := by decide
  rw [Nat.zero_mod, available, room] at fits
  exact absurd (fits rfl) (by decide)

end Pcsx2.Cdvd.CsoFileReader
