import Mathlib.Algebra.Order.Ring.Int
import Mathlib.Data.List.Basic
import Mathlib.Data.List.Range

/-!
# The packets of the MTVU ring

What the EE thread writes for each `MTVU_EVENT`, and how much of it the MTVU thread reads. A block
that ends inside a word takes the rest of that word with it.
-/

namespace Pcsx2.Mtvu

abbrev Word := UInt32

/-- `buffer_size`, in words. -/
def bufferSize : Nat := 1024 * 1024 * 16 / 4

def sizeU32 (x : UInt32) : Nat := ((x + 3) >>> 2).toNat

inductive MtvuEvent where
  | vuExecute
  | vuWriteMicro
  | vuWriteData
  | vuWriteViregs
  | vuWriteVfregs
  | vifWriteCol
  | vifWriteRow
  | vifUnpack
  | nullPacket
  | reset
  deriving DecidableEq

def MtvuEvent.toWord : MtvuEvent → Word
  | .vuExecute => 0
  | .vuWriteMicro => 1
  | .vuWriteData => 2
  | .vuWriteViregs => 3
  | .vuWriteVfregs => 4
  | .vifWriteCol => 5
  | .vifWriteRow => 6
  | .vifUnpack => 7
  | .nullPacket => 8
  | .reset => 9

def MtvuEvent.ofWord (tag : Word) : Option MtvuEvent :=
  [MtvuEvent.vuExecute, .vuWriteMicro, .vuWriteData, .vuWriteViregs, .vuWriteVfregs, .vifWriteCol,
    .vifWriteRow, .vifUnpack, .nullPacket, .reset].find? fun e => e.toWord == tag

theorem event_ofWord (e : MtvuEvent) : MtvuEvent.ofWord e.toWord = some e := by
  cases e <;> rfl

/-- The size of the part of `vifStruct` from `tag` to `StructEnd`. -/
def vifCopySize : UInt32 := 30

/-- `sizeof(VIFregistersMTVU)`. -/
def vifRegsSize : UInt32 := 24

inductive Packet where
  | executeVU (vuAddr vifTop vifItop fbrst : Word)
  | writeMicroMem (addr size : Word) (data : List Word)
  | writeDataMem (addr size : Word) (data : List Word)
  | writeVIRegs (regs : List Word)
  | writeVFRegs (regs : List Word)
  | writeCol (maskCol : List Word)
  | writeRow (maskRow : List Word)
  | vifUnpack (tag regs : List Word) (size : Word) (data : List Word)
  deriving DecidableEq

/-- What the writer asks `ReserveSpace` for; the register writers ask for too much. -/
def Packet.reserve : Packet → Nat
  | .executeVU .. => 5
  | .writeMicroMem _ size _ => 3 + sizeU32 size
  | .writeDataMem _ size _ => 3 + sizeU32 size
  | .writeVIRegs _ => 1 + sizeU32 32
  | .writeVFRegs _ => 1 + sizeU32 (32 * 4)
  | .writeCol _ => 1 + sizeU32 16
  | .writeRow _ => 1 + sizeU32 16
  | .vifUnpack _ _ size _ => 1 + sizeU32 vifCopySize + sizeU32 vifRegsSize + 1 + sizeU32 size

def Packet.event : Packet → MtvuEvent
  | .executeVU .. => .vuExecute
  | .writeMicroMem .. => .vuWriteMicro
  | .writeDataMem .. => .vuWriteData
  | .writeVIRegs _ => .vuWriteViregs
  | .writeVFRegs _ => .vuWriteVfregs
  | .writeCol _ => .vifWriteCol
  | .writeRow _ => .vifWriteRow
  | .vifUnpack .. => .vifUnpack

def Packet.body : Packet → List Word
  | .executeVU vuAddr vifTop vifItop fbrst => [vuAddr, vifTop, vifItop, fbrst]
  | .writeMicroMem addr size data => addr :: size :: data
  | .writeDataMem addr size data => addr :: size :: data
  | .writeVIRegs regs => regs
  | .writeVFRegs regs => regs
  | .writeCol maskCol => maskCol
  | .writeRow maskRow => maskRow
  | .vifUnpack tag regs size data => tag ++ regs ++ size :: data

def Packet.encode (p : Packet) : List Word := p.event.toWord :: p.body

/-- The blocks have their sizes. `WriteVIRegs` and `WriteVFRegs` copy as many bytes as their
registers have words. -/
def Packet.Valid : Packet → Prop
  | .executeVU .. => True
  | .writeMicroMem _ size data => data.length = sizeU32 size
  | .writeDataMem _ size data => data.length = sizeU32 size
  | .writeVIRegs regs => regs.length = sizeU32 (.ofNat (sizeU32 32))
  | .writeVFRegs regs => regs.length = sizeU32 (.ofNat (sizeU32 (32 * 4)))
  | .writeCol maskCol => maskCol.length = sizeU32 16
  | .writeRow maskRow => maskRow.length = sizeU32 16
  | .vifUnpack tag regs size data =>
      tag.length = sizeU32 vifCopySize ∧ regs.length = sizeU32 vifRegsSize ∧
      data.length = sizeU32 size

def MtvuEvent.needed (body : List Word) : MtvuEvent → Nat
  | .vuExecute => 5
  | .vuWriteMicro | .vuWriteData => 3 + (body[1]?.map sizeU32).getD 0
  | .vuWriteViregs => 1 + sizeU32 (.ofNat (sizeU32 32))
  | .vuWriteVfregs => 1 + sizeU32 (.ofNat (sizeU32 (4 * 32)))
  | .vifWriteCol | .vifWriteRow => 1 + sizeU32 16
  | .vifUnpack =>
      let before := sizeU32 vifCopySize + sizeU32 vifRegsSize
      1 + before + 1 + (body[before]?.map sizeU32).getD 0
  | .nullPacket | .reset => 1

def needed : List Word → Nat
  | [] => 1
  | tag :: body => ((MtvuEvent.ofWord tag).map (MtvuEvent.needed body)).getD 1

def nullTag : Word := MtvuEvent.nullPacket.toWord

/-! ## Reading what was written -/

theorem encode_length (p : Packet) : p.encode.length = 1 + p.body.length := by
  rw [Packet.encode, List.length_cons, Nat.add_comm]

variable {p : Packet}

theorem length_le_reserve (valid : p.Valid) : p.encode.length ≤ p.reserve := by
  rw [encode_length]
  cases p <;> simp only [Packet.Valid] at valid <;>
    simp only [Packet.body, Packet.reserve, List.length_cons, List.length_append, List.length_nil,
      valid] <;> first | omega | decide

theorem needed_take (valid : p.Valid) {k : Nat} (le : k ≤ p.body.length) :
    p.event.needed (p.body.take k) = p.encode.length ∨
      k < p.body.length ∧ 1 + k < p.event.needed (p.body.take k) := by
  rw [encode_length]
  cases p with
  | executeVU => exact .inl rfl
  | writeVIRegs regs | writeVFRegs regs | writeCol maskCol | writeRow maskRow =>
      exact .inl (congrArg (1 + ·) valid.symm)
  | writeMicroMem addr size data | writeDataMem addr size data =>
      rcases Nat.lt_or_ge 1 k with known | unknown
      · left
        simp only [Packet.event, Packet.body, MtvuEvent.needed, List.getElem?_take, known, if_true]
        simp only [Packet.Valid] at valid
        simp [valid]
        omega
      · right
        simp [Packet.event, Packet.body, MtvuEvent.needed, Nat.not_lt.2 unknown]
        omega
  | vifUnpack tag regs size data =>
      obtain ⟨tagSize, regsSize, dataSize⟩ := valid
      have at_size : (tag ++ regs ++ size :: data)[sizeU32 vifCopySize + sizeU32 vifRegsSize]? =
          some size := by
        rw [← tagSize, ← regsSize, ← List.length_append]
        simp
      rcases Nat.lt_or_ge (sizeU32 vifCopySize + sizeU32 vifRegsSize) k with known | unknown
      · left
        simp only [Packet.event, Packet.body, MtvuEvent.needed, List.getElem?_take, known, if_true,
          at_size]
        simp [tagSize, regsSize, dataSize]
        omega
      · right
        simp [Packet.event, Packet.body, MtvuEvent.needed, Nat.not_lt.2 unknown,
          tagSize, regsSize]
        omega

theorem needed_prefix (valid : p.Valid) {acc : List Word} (before : acc <+: p.encode) :
    needed acc = p.encode.length ∨ acc.length < p.encode.length ∧ acc.length < needed acc := by
  cases acc with
  | nil => exact .inr ⟨by simp [Packet.encode], Nat.one_pos⟩
  | cons tag body =>
      obtain ⟨rfl, tail⟩ := List.cons_prefix_cons.1 before
      have whole : needed (p.event.toWord :: body) = p.event.needed body := by
        simp [needed, event_ofWord]
      have taken := needed_take valid tail.length_le
      rw [← List.prefix_iff_eq_take.1 tail] at taken
      rw [whole, List.length_cons]
      refine taken.imp_right fun ⟨short, more⟩ => ⟨?_, by omega⟩
      rw [encode_length]
      omega

theorem needed_eq_length_iff (valid : p.Valid) {acc : List Word}
    (before : acc <+: p.encode) : needed acc = acc.length ↔ acc = p.encode := by
  constructor
  · intro complete
    rcases needed_prefix valid before with whole | ⟨-, more⟩
    · exact before.eq_of_length (complete.symm.trans whole)
    · omega
  · rintro rfl
    rcases needed_prefix valid before with whole | ⟨short, -⟩
    · exact whole
    · omega

theorem lt_of_needed (valid : p.Valid) {acc : List Word} (before : acc <+: p.encode)
    (more : acc.length < needed acc) : acc.length < p.encode.length := by
  rcases needed_prefix valid before with whole | ⟨short, -⟩
  · omega
  · exact short

theorem event_ne_null (p : Packet) : p.event.toWord ≠ nullTag := by
  cases p <;> simp [Packet.event, MtvuEvent.toWord, nullTag]

theorem needed_null : needed [nullTag] = 1 := rfl

end Pcsx2.Mtvu
