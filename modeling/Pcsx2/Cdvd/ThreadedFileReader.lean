import Mathlib.Algebra.Order.Ring.Int
import Mathlib.Data.Fin.Basic
import Mathlib.Data.List.Basic
import Mathlib.Data.List.Range
import Mathlib.Logic.Function.Basic

/-!
# Disc reads through two cached buffers

Reads without an internal block size. Offsets into an image stay far below 2^64 and are natural
numbers; where the reader keeps one in 32 bits, the model does too.
-/

namespace Pcsx2.Cdvd

def minimumSize : Nat := 128 * 1024

structure Chunk where
  chunkID : Int
  offset : Nat
  length : Nat
  deriving DecidableEq

/-- A disc image behind `ChunkForOffset` and `ReadChunk`. Its chunks cover the bytes up to
`totalSize`; the data of one may go on after that, up to `dataEnd`, or end there before the chunk
does. -/
structure Image where
  totalSize : Nat
  dataEnd : Nat
  byte : Nat → UInt8
  chunkForOffset : Nat → Chunk
  /-- The amount that is returned and the bytes that are stored. -/
  readChunk : Int → Int × List UInt8
  outside : ∀ off, totalSize ≤ off → chunkForOffset off = ⟨-1, 0, 0⟩
  inside : ∀ off < totalSize, 0 ≤ (chunkForOffset off).chunkID ∧
    (chunkForOffset off).offset ≤ off ∧
    off < (chunkForOffset off).offset + (chunkForOffset off).length ∧
    (chunkForOffset off).length < 2 ^ 31
  readOutside : readChunk (-1) = (-1, [])
  readInside : ∀ off < totalSize, ∃ data : List UInt8,
    readChunk (chunkForOffset off).chunkID = ((data.length : Int), data) ∧
    data.length ≤ (chunkForOffset off).length ∧
    min (chunkForOffset off).length (totalSize - (chunkForOffset off).offset) ≤ data.length ∧
    (chunkForOffset off).offset + data.length ≤ dataEnd ∧
    ∀ i (bound : i < data.length), (chunkForOffset off).offset + i < totalSize →
      data[i] = byte ((chunkForOffset off).offset + i)

/-- `data` is what the buffer holds: the first `size` bytes at `ptr`. -/
structure Buffer where
  data : List UInt8
  offset : Nat
  cap : Nat

/-- There are two buffers. -/
scoped instance two_buffers : NeZero 2 := ⟨by decide⟩

structure Reader where
  buffer : Fin 2 → Buffer
  nextBuffer : Fin 2

def Reader.initial : Reader := { buffer := fun _ => ⟨[], 0, 0⟩, nextBuffer := 0 }

/-! ## Filling the buffers -/

def Buffer.contains (buf : Buffer) (block : Chunk) : Prop :=
  buf.data.length ≠ 0 ∧ buf.offset ≤ block.offset ∧
    block.offset + block.length ≤ buf.offset + buf.data.length

instance (buf : Buffer) (block : Chunk) : Decidable (buf.contains block) :=
  inferInstanceAs (Decidable (_ ∧ _ ∧ _))

/-- The part of `GetBlockPtr` that looks for a buffer with the block. -/
def Reader.find (r : Reader) (block : Chunk) : Option (Fin 2) :=
  if (r.buffer 0).contains block then some 0
  else if (r.buffer 1).contains block then some 1
  else none

/-- The part of `GetBlockPtr` under the lock: the next buffer is emptied and made large enough. -/
def Reader.evict (r : Reader) (block : Chunk) : Reader :=
  let buf := r.buffer r.nextBuffer
  let cap := max buf.cap (max block.length minimumSize)
  { r with buffer := Function.update r.buffer r.nextBuffer { buf with data := [], cap } }

/-- The rest of `GetBlockPtr`. -/
def Reader.fill (image : Image) (r : Reader) (block : Chunk) : Reader × Option (Fin 2) :=
  let read := image.readChunk block.chunkID
  if 0 < read.1 then
    let buf := r.buffer r.nextBuffer
    let filled := { buf with data := read.2, offset := block.offset }
    (⟨Function.update r.buffer r.nextBuffer filled, r.nextBuffer + 1⟩, some r.nextBuffer)
  else (r, none)

def Reader.getBlockPtr (image : Image) (r : Reader) (block : Chunk) : Reader × Option (Fin 2) :=
  match r.find block with
  | some i => ({ r with nextBuffer := i + 1 }, some i)
  | none => (r.evict block).fill image block

/-! ## Reading -/

theorem Image.length_pos (image : Image) {off : Nat}
    (read : ¬(image.readChunk (image.chunkForOffset off).chunkID).1 <
      (image.chunkForOffset off).length) : 0 < (image.chunkForOffset off).length := by
  rcases Nat.lt_or_ge off image.totalSize with inside | outside
  · have := image.inside off inside
    omega
  · rw [image.outside off outside, image.readOutside] at read
    exact absurd (by decide) read

def Buffer.copy (buf : Buffer) (off size : Nat) : List UInt8 :=
  (buf.data.drop ((off - buf.offset) % 2 ^ 32)).take size

theorem Buffer.length_copy (buf : Buffer) (off size : Nat) :
    (buf.copy off size).length = min size (buf.data.length - (off - buf.offset) % 2 ^ 32) := by
  rw [Buffer.copy, List.length_take, List.length_drop]

/-- `Decompress`: the reader after it, the bytes stored from the target on, and its result. -/
def Reader.decompress (image : Image) (r : Reader) (off remaining : Nat) :
    Reader × List UInt8 × Bool :=
  if _ : remaining = 0 then (r, [], true)
  else
    let chunk := image.chunkForOffset off
    if chunk.offset ≠ off ∨ remaining < chunk.length then
      match r.getBlockPtr image chunk with
      | (r, none) => (r, [], false)
      | (r, some i) =>
        if _ : (r.buffer i).data.length ≤ (off - (r.buffer i).offset) % 2 ^ 32 then
          (r, [], false)
        else
          let copied := (r.buffer i).copy off remaining
          have := (r.buffer i).length_copy off remaining
          let (r, rest, ok) :=
            Reader.decompress image r (off + copied.length) (remaining - copied.length)
          (r, copied ++ rest, ok)
    else
      let read := image.readChunk chunk.chunkID
      if short : read.1 < chunk.length then (r, read.2, false)
      else
        have := image.length_pos short
        let (r, rest, ok) :=
          Reader.decompress image r (off + chunk.length) (remaining - chunk.length)
        (r, read.2.take chunk.length ++ rest, ok)
termination_by remaining
decreasing_by all_goals omega

structure CachedRead where
  offset : Nat
  size : Nat
  written : List UInt8
  finish : Nat
  allDone : Bool

/-- One pass of `TryCachedRead` over a buffer. -/
def CachedRead.step (c : CachedRead) (buf : Buffer) : CachedRead :=
  let bufsize := buf.data.length
  if bufsize = 0 then c
  else
    let c := if buf.offset ≤ c.offset ∧ c.offset < buf.offset + bufsize then
        let copied := buf.copy c.offset c.size
        { c with
          offset := c.offset + copied.length
          size := c.size - copied.length
          written := c.written ++ copied
          finish := if c.size - copied.length = 0 then buf.offset + bufsize else c.finish }
      else c
    if 0 < c.finish ∧ buf.offset = c.finish then { c with allDone := true } else c

end Pcsx2.Cdvd

/-!
# Compressed images

The frames of an image are read as if they were decompressed already. The last one goes on after
`totalSize`.
-/

namespace Pcsx2.Cdvd.CsoFileReader

def chunkForOffset (totalSize frameShift offset : Nat) : Chunk :=
  if totalSize ≤ offset then ⟨-1, 0, 0⟩
  else
    let chunkID := offset >>> frameShift
    ⟨chunkID, chunkID <<< frameShift, 2 ^ frameShift⟩

def frame (frameShift : Nat) (byte : Nat → UInt8) (chunkID : Nat) : List UInt8 :=
  (List.range (2 ^ frameShift)).map fun i => byte (chunkID <<< frameShift + i)

def readChunk (frameShift : Nat) (byte : Nat → UInt8) (chunkID : Int) : Int × List UInt8 :=
  if chunkID < 0 then (-1, [])
  else (2 ^ frameShift, frame frameShift byte chunkID.toNat)

@[simp] theorem length_frame (frameShift : Nat) (byte : Nat → UInt8) (chunkID : Nat) :
    (frame frameShift byte chunkID).length = 2 ^ frameShift := by
  rw [frame, List.length_map, List.length_range]

theorem chunkForOffset_inside {totalSize offset : Nat} (frameShift : Nat)
    (inside : offset < totalSize) : chunkForOffset totalSize frameShift offset =
      ⟨(offset / 2 ^ frameShift : Nat), offset / 2 ^ frameShift * 2 ^ frameShift, 2 ^ frameShift⟩ := by
  rw [chunkForOffset, if_neg (Nat.not_le_of_lt inside)]
  dsimp only
  rw [Nat.shiftRight_eq_div_pow, Nat.shiftLeft_eq]

theorem readChunk_natCast (frameShift : Nat) (byte : Nat → UInt8) (chunkID : Nat) :
    readChunk frameShift byte chunkID = (2 ^ frameShift, frame frameShift byte chunkID) := by
  rw [readChunk, if_neg (by omega), Int.toNat_natCast]

/-- `byte` says also what is in the last frame behind the image. -/
def image (totalSize frameShift : Nat) (small : frameShift < 31) (byte : Nat → UInt8) : Image where
  totalSize := totalSize
  dataEnd := (totalSize + 2 ^ frameShift - 1) / 2 ^ frameShift * 2 ^ frameShift
  byte := byte
  chunkForOffset := chunkForOffset totalSize frameShift
  readChunk := readChunk frameShift byte
  outside := fun _ outside => if_pos outside
  readOutside := rfl
  inside := by
    intro off inside
    have lower := Nat.div_mul_le_self off (2 ^ frameShift)
    have upper := Nat.lt_div_mul_add (Nat.two_pow_pos frameShift) (a := off)
    rw [chunkForOffset_inside frameShift inside]
    exact ⟨Int.natCast_nonneg _, lower, upper, Nat.pow_lt_pow_right (by decide) small⟩
  readInside := by
    intro off inside
    have reach : off / 2 ^ frameShift + 1 ≤ (totalSize + 2 ^ frameShift - 1) / 2 ^ frameShift := by
      rw [← Nat.add_div_right _ (Nat.two_pow_pos frameShift)]
      exact Nat.div_le_div_right (by omega)
    rw [chunkForOffset_inside frameShift inside]
    refine ⟨_, by rw [readChunk_natCast, length_frame]; push_cast; rfl, ?_, ?_, ?_, ?_⟩
    · rw [length_frame]
    · rw [length_frame]
      exact Nat.min_le_left _ _
    · rw [length_frame, ← Nat.succ_mul]
      exact Nat.mul_le_mul_right _ reach
    · intro i bound _
      simp only [frame, List.getElem_map, List.getElem_range, Nat.shiftLeft_eq]

end Pcsx2.Cdvd.CsoFileReader
