import Mathlib.Logic.Function.Basic
import Pcsx2.Foundation.Run

/-!
# The ring heap of the GS

A buffer hands out its bytes in order and goes back to its start at the end. It counts the
allocations of each of its four quadrants, and enters a quadrant only when no allocation is left in
it; when it cannot, the heap drops it and makes a larger one.
-/

namespace Pcsx2.GsHeap
open Foundation

/-- `sizeof(Buffer)`. -/
def sizeofBuffer : UInt64 := 40

/-- `alignTo<64>(sizeof(Buffer))`. -/
def BEGINNING_OFFSET : UInt64 := (sizeofBuffer + (64 - 1)) / 64 * 64

def MIN_ALIGN : UInt64 := 8

def getAlignMask (align : UInt64) : UInt64 := max MIN_ALIGN align - 1

def alignUsingMask (align_mask value : UInt64) : UInt64 := (value + align_mask) &&& ~~~align_mask

/-! ## A buffer -/

structure Buffer where
  m_amt_allocated : UInt64
  /-- Four counters of 16 bits. -/
  m_usage : UInt64
  m_size : UInt64
  m_write_loc : UInt64
  m_quadrant_shift : Nat

def usageBit (quadrant : UInt32) : UInt64 := 1 <<< (quadrant * 16).toUInt64

def Buffer.beginUse (b : Buffer) (usage : UInt64) : Buffer := { b with m_usage := b.m_usage + usage }

def Buffer.endUse (b : Buffer) (usage : UInt64) : Buffer := { b with m_usage := b.m_usage - usage }

def Buffer.isStillInUse (b : Buffer) (quadrant : UInt32) : Bool :=
  (b.m_usage >>> (quadrant % 4 * 16).toUInt64 &&& 0xFFFF) != 0

def Buffer.quadrant (b : Buffer) (off : UInt64) : UInt32 :=
  (off >>> UInt64.ofNat b.m_quadrant_shift).toUInt32

def Buffer.usageMask (b : Buffer) (begin_off size : UInt64) : UInt64 :=
  let mid_off := begin_off + size / 2
  let end_off := begin_off + size - 1
  usageBit (b.quadrant begin_off) ||| usageBit (b.quadrant mid_off) ||| usageBit (b.quadrant end_off)

/-- The loop over the quadrants that an allocation enters: so many turns after the one at
`cur_quadrant`. -/
def Buffer.enter (b : Buffer) (turns : Nat) (cur_quadrant : UInt32) (usage_mask : UInt64) : Option UInt64 :=
  let usage_mask := usage_mask ||| usageBit cur_quadrant
  if b.isStillInUse cur_quadrant then none
  else match turns with
    | 0 => some usage_mask
    | turns + 1 => b.enter turns (cur_quadrant + 1) usage_mask

/-- The end of `alloc`: the buffer, the offset of the block and what was added to the counters. -/
def Buffer.finish (b : Buffer) (base_off size prefix_size usage_mask : UInt64) : Buffer × UInt64 × UInt64 :=
  let used := { b with m_write_loc := base_off + size }.beginUse usage_mask
  ({ used with m_amt_allocated := used.m_amt_allocated + (size + prefix_size) },
    base_off - prefix_size, usage_mask)

def Buffer.alloc (b : Buffer) (size align_mask prefix_size : UInt64) :
    Option (Buffer × UInt64 × UInt64) :=
  let prev_quadrant := b.quadrant (b.m_write_loc - 1)
  let base_off := alignUsingMask align_mask (b.m_write_loc + prefix_size)
  let usage_mask := usageBit (b.quadrant (base_off - prefix_size))
  let new_quadrant := b.quadrant (base_off + size - 1)
  if prev_quadrant = new_quadrant then
    some (b.finish base_off size prefix_size usage_mask)
  else if 4 ≤ new_quadrant then
    let base_off := alignUsingMask align_mask (BEGINNING_OFFSET + prefix_size)
    let new_quadrant := b.quadrant (base_off + size - 1)
    (b.enter new_quadrant.toNat 0 0).map (b.finish base_off size prefix_size)
  else
    (b.enter (new_quadrant.toNat - (prev_quadrant + 1).toNat) (prev_quadrant + 1) usage_mask).map
      (b.finish base_off size prefix_size)

def Buffer.make (quadrant_shift : Nat) : Buffer :=
  { m_amt_allocated := 1
    m_usage := 0
    m_size := 4 <<< UInt64.ofNat quadrant_shift
    m_write_loc := BEGINNING_OFFSET
    m_quadrant_shift := quadrant_shift }

/-! ## The heap -/

structure Made where
  buffer : Buffer
  address : Nat
  released : Bool

def Made.decref (made : Made) (amt : UInt64) : Made :=
  let { buffer, address, released } := made
  { buffer := { buffer with m_amt_allocated := buffer.m_amt_allocated - amt }
    address
    released := released || buffer.m_amt_allocated == amt }

def Made.free (made : Made) (begin_off size : UInt64) : Made :=
  { made with buffer := made.buffer.endUse (made.buffer.usageMask begin_off size) }.decref size

/-- An allocation: its bytes with the bytes before them. -/
structure Block where
  /-- Which of the buffers that were made holds it. -/
  buffer : Nat
  begin_off : UInt64
  size : UInt64
  /-- What was asked for. -/
  align : UInt64
  prefix_size : UInt64
  /-- What was added to the counters. -/
  usage : UInt64
  deriving DecidableEq

structure Heap where
  made : Nat
  buffers : Nat → Made
  /-- The buffer in use, as long as the heap lives. -/
  current : Option Nat
  live : List Block

/-- A new heap, with its first buffer at the address. -/
def Heap.start (address : Nat) : Heap :=
  { made := 1
    buffers := fun _ => { buffer := .make 14, address, released := false }
    current := some 0
    live := [] }

def Heap.decref (h : Heap) (i : Nat) (amt : UInt64) : Heap :=
  { h with buffers := Function.update h.buffers i ((h.buffers i).decref amt) }

def growShift (total_size : UInt64) : Nat → Nat → Option Nat
  | 0, _ => none
  | fuel + 1, shift =>
      if 2 <<< UInt64.ofNat (shift + 1) < total_size then growShift total_size fuel (shift + 1)
      else some (shift + 1)

def nextShift (total_size : UInt64) (shift : Nat) : Option Nat :=
  (growShift total_size 64 shift).map fun shift =>
    if 24 < shift ∧ total_size ≤ 2 <<< UInt64.ofNat (shift - 1) then shift - 1 else shift

def Heap.allocIn (h : Heap) (i : Nat) (size align prefix_size : UInt64) : Option Heap :=
  ((h.buffers i).buffer.alloc size (getAlignMask align) prefix_size).map fun (buffer, begin_off, usage) =>
    let block := { buffer := i, begin_off, size := size + prefix_size, align, prefix_size, usage }
    { h with buffers := Function.update h.buffers i { h.buffers i with buffer }, live := block :: h.live }

def Heap.replace (h : Heap) (i : Nat) (malloc : UInt64 → Nat) (shift : Nat) : Heap :=
  let fresh : Made :=
    { buffer := .make shift, address := malloc (4 <<< UInt64.ofNat shift), released := false }
  { h.decref i 1 with
    made := h.made + 1
    buffers := Function.update (h.decref i 1).buffers h.made fresh
    current := some h.made }

/-- `malloc` gives the addresses of new buffers. -/
def Heap.alloc_internal (h : Heap) (malloc : UInt64 → Nat) (i : Nat) (size align prefix_size : UInt64) :
    Option Heap :=
  let prefix_size := prefix_size + 8
  let total_size := size + prefix_size
  let attempt := if total_size ≤ (h.buffers i).buffer.m_size / 2 then h.allocIn i size align prefix_size
    else none
  attempt.or do
    let shift ← nextShift total_size (h.buffers i).buffer.m_quadrant_shift
    (h.replace i malloc shift).allocIn h.made size align prefix_size

def Heap.free (h : Heap) (block : Block) : Heap :=
  { h with
    buffers := Function.update h.buffers block.buffer
      ((h.buffers block.buffer).free block.begin_off block.size)
    live := h.live.erase block }

/-! ## Runs -/

inductive Action where
  | alloc (size align prefix_size : UInt64)
  | free (block : Block)
  | destroy

def Heap.Unused (h : Heap) (address size : Nat) : Prop :=
  ∀ i < h.made, (h.buffers i).released = false →
    address + size ≤ (h.buffers i).address ∨
      (h.buffers i).address + (h.buffers i).buffer.m_size.toNat ≤ address

/-- What `_aligned_malloc(size, 32)` promises. -/
def Heap.Mallocs (h : Heap) (malloc : UInt64 → Nat) : Prop :=
  ∀ size, malloc size % 32 = 0 ∧ h.Unused (malloc size) size.toNat

inductive Step : Action → Heap → Heap → Prop
  | alloc {h next i malloc size align prefix_size} (current : h.current = some i) (mallocs : h.Mallocs malloc)
      (result : h.alloc_internal malloc i size align prefix_size = some next) :
      Step (.alloc size align prefix_size) h next
  | free {h block} (live : block ∈ h.live) : Step (.free block) h (h.free block)
  | destroy {h i} (current : h.current = some i) :
      Step .destroy h { h.decref i 1 with current := none }

end Pcsx2.GsHeap
