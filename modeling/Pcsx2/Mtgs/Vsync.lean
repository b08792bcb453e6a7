import Pcsx2.Mtgs.Ring

/-!
# The VSync packet

`PostVsyncStart` sends the GS registers through the ring, and the `VSync` case of `MainLoop`
mails them to `Regs`. The last quadword of the packet is addressed through the pointer to the one
before it, which is only right when the two are neighbours in memory.
-/

namespace Pcsx2.Mtgs
open Foundation

/-! ## The source functions -/

/-- Words of `PS2MEM_GS`, and of `Regs`: the offsets `0x1000`, `0x1010` and `0x1080`. -/
def CSR : Nat := 0x1000 / 4
def IMR : Nat := 0x1010 / 4
def SIGLBLID : Nat := 0x1080 / 4

/-- `regset1`, `csr`, `imr`, `siglblid`, `registers_written` and the padding. -/
def sizeofRingCmdPacketVsync : Nat := 0xf0 + 4 + 4 + 8 + 4 + 12

/-- `GetDataPacketPtr`, as a word address. -/
def getDataPacketPtr (packetWritepos : Nat) : Nat := 4 * (packetWritepos &&& RingBufferMask)

/-- The stores through `remainder` in `PostVsyncStart`. -/
def vsyncRemainder (gsMem : Memory) (registersWritten : Bool) (remainder : Nat) : Stores :=
  [(remainder, gsMem CSR), (remainder + 1, gsMem IMR), (remainder + 2, gsMem SIGLBLID),
    (remainder + 3, gsMem (SIGLBLID + 1)), (remainder + 4, if registersWritten then 1 else 0)]

/-- The stores into `BufferedData`, and the new write position. -/
def postVsyncStart (gsMem : Memory) (registersWritten : Bool) (writePos : Nat) : Stores × Nat :=
  let packsize := sizeofRingCmdPacketVsync / 16
  let (tag, packet) := prepDataPacket .VSync packsize writePos
  let (copied, packetWritepos) :=
    memCopyWrappedDest ((List.range 0xf).map (slot gsMem)) packet.writepos RingBufferSize 0xf
  let remainder := vsyncRemainder gsMem registersWritten (getDataPacketPtr packetWritepos)
  let (close, newWritePos) :=
    sendDataPacket { packet with writepos := (packetWritepos + 2) &&& RingBufferMask }
  (tag ++ copied ++ remainder ++ close, newWritePos)

/-- What the `VSync` case of `MainLoop` reads, stores and hands to `GSvsync`. -/
structure VsyncEffect where
  mem : Memory
  reads : List Nat
  stores : Stores
  field : Nat
  registersWritten : Bool
  readPos : Nat

/-- The stores that mail `CSR`, `IMR` and `SIGLBLID` out of `remainder`. -/
def vsyncMail (m : Memory) (remainder : Nat) : Stores :=
  [(regs CSR, m remainder), (regs IMR, m (remainder + 1)), (regs SIGLBLID, m (remainder + 2)),
    (regs (SIGLBLID + 1), m (remainder + 3))]

def mainLoopVsync (m : Memory) (readPos : Nat) : VsyncEffect :=
  let qsize := (m (4 * readPos + 1)).toNat
  let (src, datapos) := memCopyWrappedSrc ((readPos + 1) &&& RingBufferMask) RingBufferSize 0xf
  let copied := copySlots RingBufferSize (src.map (slot m))
  let remainder := 4 * datapos
  let mail := vsyncMail (perform m copied) remainder
  let mem := perform m (copied ++ mail)
  { mem
    reads := [4 * readPos, 4 * readPos + 1] ++
      src.flatMap (fun p => [4 * p, 4 * p + 1, 4 * p + 2, 4 * p + 3]) ++
      [remainder, remainder + 1, remainder + 2, remainder + 3, regs CSR, remainder + 4]
    stores := copied ++ mail
    field := if mem (regs CSR) &&& 0x2000 ≠ 0 then 0 else 1
    registersWritten := mem (remainder + 4) ≠ 0
    readPos := (readPos + (1 + qsize)) &&& RingBufferMask }

/-! ## The round trip -/

def InPacket (writePos a : Nat) : Prop :=
  ∃ i < 1 + sizeofRingCmdPacketVsync / 16, a / 4 = (writePos + i) % RingBufferSize

/-- A word of `Regs` that the packet is mailed to. -/
def IsRegsDest (a : Nat) : Prop :=
  (∃ i < 0xf0 / 4, a = regs i) ∨ a ∈ [regs CSR, regs IMR, regs SIGLBLID, regs (SIGLBLID + 1)]

structure VsyncRoundTrip (m gsMem : Memory) (registersWritten : Bool) (writePos : Nat)
    (sent : Stores × Nat) (out : VsyncEffect) : Prop where
  regset : ∀ i < 0xf0 / 4, out.mem (regs i) = gsMem i
  csr : out.mem (regs CSR) = gsMem CSR
  imr : out.mem (regs IMR) = gsMem IMR
  siglblid : ∀ i < 2, out.mem (regs (SIGLBLID + i)) = gsMem (SIGLBLID + i)
  field : out.field = if gsMem CSR &&& 0x2000 ≠ 0 then 0 else 1
  registersWritten : out.registersWritten = registersWritten
  producerStores : ∀ s ∈ sent.1, InPacket writePos s.1
  consumerReads : ∀ a ∈ out.reads, InPacket writePos a ∨ a = regs CSR
  consumerStores : ∀ s ∈ out.stores, IsRegsDest s.1
  unchanged : ∀ a, ¬InPacket writePos a → ¬IsRegsDest a → out.mem a = m a
  readPos : out.readPos = sent.2

section Packet

variable {gsMem : Memory} {registersWritten : Bool} {writePos : Nat}

/-- The quadword slot that `remainder` points at. -/
abbrev tailSlot (writePos : Nat) : Nat := (writePos + 16) % RingBufferSize

theorem postVsyncStart_eq (inside : writePos < RingBufferSize) :
    postVsyncStart gsMem registersWritten writePos =
      ((prepDataPacket .VSync 17 writePos).1 ++
        (memCopyWrappedDest ((List.range 0xf).map (slot gsMem))
          ((writePos + 1) % RingBufferSize) RingBufferSize 0xf).1 ++
        vsyncRemainder gsMem registersWritten (4 * tailSlot writePos) ++
        [(4 * writePos + 1, 17)], (writePos + 18) % RingBufferSize) := by
  have copied : (memCopyWrappedDest ((List.range 0xf).map (slot gsMem))
      ((writePos + 1) % RingBufferSize) RingBufferSize 0xf).2 = tailSlot writePos := by
    have := memCopyWrappedDest_snd ((List.range 0xf).map (slot gsMem))
      ((writePos + 1) % RingBufferSize) RingBufferSize
    simpa [Nat.add_assoc] using this
  have closed : (tailSlot writePos + 2) % RingBufferSize = (writePos + 18) % RingBufferSize := by
    rw [Nat.mod_add_mod]
  have actual : subU32 (subU32 ((writePos + 18) % RingBufferSize) writePos % RingBufferSize) 1 =
      17 := by
    simp only [RingBufferSize_eq] at inside ⊢
    unfold subU32
    omega
  simp only [postVsyncStart, sizeofRingCmdPacketVsync, prepDataPacket, sendDataPacket,
    getDataPacketPtr, and_RingBufferMask, copied, Nat.mod_mod, closed, actual]
  rfl

theorem mainLoopVsync_eq (m : Memory) (qsize : m (4 * writePos + 1) = 17) :
    mainLoopVsync m writePos =
      let src := (List.range 0xf).map fun i => ((writePos + 1) % RingBufferSize + i) % RingBufferSize
      let remainder := 4 * tailSlot writePos
      let copied := copySlots RingBufferSize (src.map (slot m))
      let mail := vsyncMail (perform m copied) remainder
      let mem := perform m (copied ++ mail)
      { mem
        reads := [4 * writePos, 4 * writePos + 1] ++
          src.flatMap (fun p => [4 * p, 4 * p + 1, 4 * p + 2, 4 * p + 3]) ++
          [remainder, remainder + 1, remainder + 2, remainder + 3, regs CSR, remainder + 4]
        stores := copied ++ mail
        field := if mem (regs CSR) &&& 0x2000 ≠ 0 then 0 else 1
        registersWritten := mem (remainder + 4) ≠ 0
        readPos := (writePos + 18) % RingBufferSize } := by
  have start : (writePos + 1) % RingBufferSize < RingBufferSize := Nat.mod_lt _ (by decide)
  have position : ((writePos + 1) % RingBufferSize + 0xf) % RingBufferSize = tailSlot writePos := by
    rw [Nat.mod_add_mod]
  have words : (17 : Word).toNat = 17 := rfl
  simp only [mainLoopVsync, and_RingBufferMask, qsize, words,
    memCopyWrappedSrc_eq start (show 0xf ≤ RingBufferSize by decide), position]

theorem slot_word {m m' : Memory} {p q j : Nat} (equal : slot m p = slot m' q) (lt : j < 4) :
    m (4 * p + j) = m' (4 * q + j) := by
  simp only [slot, U128.mk.injEq] at equal
  obtain ⟨h0, h1, h2, h3⟩ := equal
  obtain rfl | rfl | rfl | rfl : j = 0 ∨ j = 1 ∨ j = 2 ∨ j = 3 := by omega
  · exact h0
  · exact h1
  · exact h2
  · exact h3

/-- The quadword after the one `remainder` points at is the packet's last slot, except where the
ring ends between them. -/
theorem tailSlot_succ (inside : writePos < RingBufferSize)
    (apart : writePos ≠ RingBufferSize - 17) :
    tailSlot writePos + 1 = (writePos + 17) % RingBufferSize := by
  simp only [tailSlot, RingBufferSize_eq] at inside apart ⊢
  omega

theorem tailSlot_ne (writePos : Nat) {k : Nat} (lt : k < 16) :
    tailSlot writePos ≠ (writePos + k) % RingBufferSize := by
  simp only [tailSlot, RingBufferSize_eq]
  omega

theorem vsyncRemainder_slots {s : Nat × Word}
    (member : s ∈ vsyncRemainder gsMem registersWritten (4 * tailSlot writePos)) :
    s.1 / 4 = tailSlot writePos ∨ s.1 / 4 = tailSlot writePos + 1 := by
  simp only [vsyncRemainder, List.mem_cons, List.not_mem_nil, or_false] at member
  rcases member with rfl | rfl | rfl | rfl | rfl <;> simp only <;> omega

section Sent

variable {m : Memory}

theorem sent_regset (inside : writePos < RingBufferSize) (apart : writePos ≠ RingBufferSize - 17)
    {i : Nat} (lt : i < 0xf) :
    slot (perform m (postVsyncStart gsMem registersWritten writePos).1)
      (((writePos + 1) % RingBufferSize + i) % RingBufferSize) = slot gsMem i := by
  have start : (writePos + 1) % RingBufferSize < RingBufferSize := Nat.mod_lt _ (by decide)
  have copied := slot_memCopyWrappedDest ((List.range 0xf).map (slot gsMem)) start
    (by simp [RingBufferSize_eq]) (perform m (prepDataPacket .VSync 17 writePos).1) i (by simpa)
  have next := tailSlot_succ inside apart
  have own := tailSlot_ne writePos (show 1 + i < 16 by omega)
  simp only [List.length_map, List.length_range, List.getElem_map, List.getElem_range] at copied
  rw [postVsyncStart_eq inside, perform_append, perform_append, perform_append,
    slot_perform_of_not_mem, slot_perform_of_not_mem, copied]
  · intro s member
    rw [Nat.mod_add_mod, Nat.add_assoc]
    rcases vsyncRemainder_slots member with equal | equal
    · rwa [equal]
    · rw [equal, next]
      simp only [RingBufferSize_eq] at *
      omega
  · intro s member
    rw [List.mem_singleton.1 member]
    simp only [RingBufferSize_eq] at *
    omega

/-- The words stored through `remainder`. -/
def vsyncWords (gsMem : Memory) (registersWritten : Bool) : List Word :=
  [gsMem CSR, gsMem IMR, gsMem SIGLBLID, gsMem (SIGLBLID + 1), if registersWritten then 1 else 0]

theorem vsyncRemainder_eq (remainder : Nat) : vsyncRemainder gsMem registersWritten remainder =
    blockStores remainder (vsyncWords gsMem registersWritten) := rfl

theorem sent_remainder (m gsMem : Memory) (registersWritten : Bool)
    (inside : writePos < RingBufferSize) {j : Nat}
    (lt : j < (vsyncWords gsMem registersWritten).length) :
    perform m (postVsyncStart gsMem registersWritten writePos).1 (4 * tailSlot writePos + j) =
      (vsyncWords gsMem registersWritten)[j] := by
  rw [postVsyncStart_eq inside, perform_append, perform_append, vsyncRemainder_eq,
    perform_of_not_mem, perform_blockStores]
  intro s member
  rw [List.mem_singleton.1 member]
  have := tailSlot_ne writePos (show 0 < 16 by omega)
  rw [Nat.add_zero, Nat.mod_eq_of_lt inside] at this
  have : j < 5 := lt
  dsimp only
  omega

theorem sent_qsize (inside : writePos < RingBufferSize) :
    perform m (postVsyncStart gsMem registersWritten writePos).1 (4 * writePos + 1) = 17 := by
  rw [postVsyncStart_eq inside, perform_append]
  exact Function.update_self _ _ _

theorem inPacket_of_slot {a k : Nat} (lt : k < 18) (equal : a / 4 = (writePos + k) % RingBufferSize) :
    InPacket writePos a := ⟨k, lt, equal⟩

theorem sent_inPacket (inside : writePos < RingBufferSize)
    (apart : writePos ≠ RingBufferSize - 17) {s : Nat × Word}
    (member : s ∈ (postVsyncStart gsMem registersWritten writePos).1) : InPacket writePos s.1 := by
  have start : (writePos + 1) % RingBufferSize < RingBufferSize := Nat.mod_lt _ (by decide)
  have next := tailSlot_succ inside apart
  have own (a : Nat) (equal : a / 4 = writePos) : InPacket writePos a :=
    inPacket_of_slot (k := 0) (by omega) (by rw [Nat.add_zero, Nat.mod_eq_of_lt inside, equal])
  rw [postVsyncStart_eq inside] at member
  simp only [List.mem_append, List.mem_singleton, or_assoc] at member
  rcases member with tag | copied | remainder | rfl
  · simp only [prepDataPacket, List.mem_cons, List.not_mem_nil, or_false] at tag
    rcases tag with rfl | rfl <;> exact own _ (by dsimp only; omega)
  · obtain ⟨i, lt, equal⟩ := memCopyWrappedDest_bounds ((List.range 0xf).map (slot gsMem)) start
      (by simp [RingBufferSize_eq])
      (by simpa using copied)
    rw [Nat.mod_add_mod, Nat.add_assoc] at equal
    exact inPacket_of_slot (by simp at lt; omega) equal
  · rcases vsyncRemainder_slots remainder with equal | equal
    · exact inPacket_of_slot (by omega) equal
    · exact inPacket_of_slot (by omega) (equal.trans next)
  · exact own _ (by dsimp only; omega)

end Sent

theorem copied_regs (m : Memory) {i : Nat} (lt : i < 0xf0 / 4) :
    perform m (copySlots RingBufferSize ((List.range 0xf).map (slot gsMem))) (regs i) =
      gsMem i := by
  have copied := slot_perform_copySlots m RingBufferSize ((List.range 0xf).map (slot gsMem))
    (i / 4) (by simp; omega)
  rw [List.getElem_map, List.getElem_range] at copied
  have word := slot_word copied (Nat.mod_lt i (by decide : 0 < 4))
  rwa [show 4 * (RingBufferSize + i / 4) + i % 4 = regs i by unfold regs; omega,
    Nat.div_add_mod] at word

theorem copied_isRegsDest {qs : List U128} (length : qs.length = 0xf) {s : Nat × Word}
    (member : s ∈ copySlots RingBufferSize qs) : IsRegsDest s.1 := by
  have := copySlots_bounds member
  exact .inl ⟨s.1 - 4 * RingBufferSize, by omega, by unfold regs; omega⟩

theorem tail_lt (writePos j : Nat) (lt : j < 4) : 4 * tailSlot writePos + j < 4 * RingBufferSize := by
  have : tailSlot writePos < RingBufferSize := Nat.mod_lt _ (by decide)
  omega

def mailed (gsMem : Memory) : Stores :=
  [(regs CSR, gsMem CSR), (regs IMR, gsMem IMR), (regs SIGLBLID, gsMem SIGLBLID),
    (regs (SIGLBLID + 1), gsMem (SIGLBLID + 1))]

theorem mailed_mem {s : Nat × Word} (member : s ∈ mailed gsMem) :
    s.1 ∈ [regs CSR, regs IMR, regs SIGLBLID, regs (SIGLBLID + 1)] := by
  simp only [mailed, List.mem_cons, List.not_mem_nil, or_false] at member ⊢
  rcases member with rfl | rfl | rfl | rfl <;> simp

theorem perform_mailed_of_not_dest (m : Memory) {a : Nat}
    (outside : a ∉ [regs CSR, regs IMR, regs SIGLBLID, regs (SIGLBLID + 1)]) :
    perform m (mailed gsMem) a = m a :=
  perform_of_not_mem fun _ member equal => outside (equal ▸ mailed_mem member)

theorem regs_inj {i j : Nat} : regs i = regs j ↔ i = j := by
  unfold regs
  omega

theorem perform_mailed (gsMem m : Memory) :
    perform m (mailed gsMem) (regs CSR) = gsMem CSR ∧
      perform m (mailed gsMem) (regs IMR) = gsMem IMR ∧
      ∀ i < 2, perform m (mailed gsMem) (regs (SIGLBLID + i)) = gsMem (SIGLBLID + i) := by
  refine ⟨?_, ?_, fun i lt => ?_⟩
  · simp [mailed, regs_inj, CSR, IMR, SIGLBLID]
  · simp [mailed, regs_inj, IMR, SIGLBLID]
  · match i, lt with
    | 0, _ => simp [mailed, regs_inj]
    | 1, _ => simp [mailed]

theorem regset_not_mailed {i : Nat} (lt : i < 0xf0 / 4) :
    regs i ∉ [regs CSR, regs IMR, regs SIGLBLID, regs (SIGLBLID + 1)] := by
  simp only [List.mem_cons, List.not_mem_nil, or_false, regs_inj, CSR, IMR, SIGLBLID]
  omega

theorem ring_not_mailed {a : Nat} (lt : a < 4 * RingBufferSize) :
    a ∉ [regs CSR, regs IMR, regs SIGLBLID, regs (SIGLBLID + 1)] := by
  simp only [List.mem_cons, List.not_mem_nil, or_false, regs]
  omega

section Received

variable {m : Memory}

/-- The memory after the packet is sent and mailed. -/
def received (m gsMem : Memory) (registersWritten : Bool) (writePos : Nat) : Memory :=
  perform (perform (perform m (postVsyncStart gsMem registersWritten writePos).1)
    (copySlots RingBufferSize ((List.range 0xf).map (slot gsMem)))) (mailed gsMem)

theorem received_ring {a : Nat} (lt : a < 4 * RingBufferSize) :
    received m gsMem registersWritten writePos a =
      perform m (postVsyncStart gsMem registersWritten writePos).1 a := by
  rw [received, perform_mailed_of_not_dest _ (ring_not_mailed lt), perform_of_not_mem]
  intro s member
  have := copySlots_bounds member
  omega

theorem mainLoopVsync_sent (inside : writePos < RingBufferSize)
    (apart : writePos ≠ RingBufferSize - 17) :
    mainLoopVsync (perform m (postVsyncStart gsMem registersWritten writePos).1) writePos =
      let remainder := 4 * tailSlot writePos
      { mem := received m gsMem registersWritten writePos
        reads := [4 * writePos, 4 * writePos + 1] ++
          ((List.range 0xf).map fun i =>
              ((writePos + 1) % RingBufferSize + i) % RingBufferSize).flatMap
            (fun p => [4 * p, 4 * p + 1, 4 * p + 2, 4 * p + 3]) ++
          [remainder, remainder + 1, remainder + 2, remainder + 3, regs CSR, remainder + 4]
        stores := copySlots RingBufferSize ((List.range 0xf).map (slot gsMem)) ++ mailed gsMem
        field := if received m gsMem registersWritten writePos (regs CSR) &&& 0x2000 ≠ 0 then 0 else 1
        registersWritten := received m gsMem registersWritten writePos (remainder + 4) ≠ 0
        readPos := (writePos + 18) % RingBufferSize } := by
  have loaded : ((List.range 0xf).map fun i =>
        ((writePos + 1) % RingBufferSize + i) % RingBufferSize).map
      (slot (perform m (postVsyncStart gsMem registersWritten writePos).1)) =
      (List.range 0xf).map (slot gsMem) := by
    rw [List.map_map]
    exact List.map_congr_left fun i member => sent_regset inside apart (List.mem_range.1 member)
  have mail : vsyncMail (perform (perform m (postVsyncStart gsMem registersWritten writePos).1)
      (copySlots RingBufferSize ((List.range 0xf).map (slot gsMem)))) (4 * tailSlot writePos) =
      mailed gsMem := by
    have word (j : Nat) (lt : j < 4) :
        perform (perform m (postVsyncStart gsMem registersWritten writePos).1)
          (copySlots RingBufferSize ((List.range 0xf).map (slot gsMem)))
          (4 * tailSlot writePos + j) =
        (vsyncWords gsMem registersWritten).get ⟨j, by simp only [vsyncWords, List.length]; omega⟩ := by
      rw [perform_of_not_mem, sent_remainder m gsMem registersWritten inside, List.get_eq_getElem]
      intro s member
      have := copySlots_bounds member
      have := tail_lt writePos j lt
      omega
    have first := word 0 (by omega)
    rw [Nat.add_zero] at first
    simp only [vsyncMail, first, word 1 (by omega), word 2 (by omega), word 3 (by omega)]
    rfl
  rw [mainLoopVsync_eq _ (sent_qsize inside)]
  simp only [loaded, mail, perform_append]
  rfl

end Received

theorem vsync_roundTrip_of_apart (m gsMem : Memory) (registersWritten : Bool)
    (inside : writePos < RingBufferSize) (apart : writePos ≠ RingBufferSize - 17) :
    VsyncRoundTrip m gsMem registersWritten writePos
      (postVsyncStart gsMem registersWritten writePos)
      (mainLoopVsync (perform m (postVsyncStart gsMem registersWritten writePos).1) writePos) := by
  rw [mainLoopVsync_sent inside apart]
  have next := tailSlot_succ inside apart
  have tail : 4 * tailSlot writePos + 4 < 4 * RingBufferSize := by
    have := Nat.mod_lt (writePos + 17) (by decide : 0 < RingBufferSize)
    omega
  obtain ⟨csr, imr, siglblid⟩ := perform_mailed gsMem
    (perform (perform m (postVsyncStart gsMem registersWritten writePos).1)
      (copySlots RingBufferSize ((List.range 0xf).map (slot gsMem))))
  constructor
  case regset =>
    intro i lt
    exact (perform_mailed_of_not_dest _ (regset_not_mailed lt)).trans (copied_regs _ lt)
  case csr => exact csr
  case imr => exact imr
  case siglblid => exact siglblid
  case field => exact congrArg (fun w : Word => if w &&& 0x2000 ≠ 0 then 0 else 1) csr
  case registersWritten =>
    have flag := sent_remainder m gsMem registersWritten inside (j := 4) (by simp [vsyncWords])
    change decide (received m gsMem registersWritten writePos (4 * tailSlot writePos + 4) ≠ 0) = _
    rw [received_ring tail, flag]
    cases registersWritten <;> rfl
  case producerStores => exact fun s member => sent_inPacket inside apart member
  case consumerReads =>
    have start : ∀ a, a / 4 = writePos → InPacket writePos a := fun a equal =>
      inPacket_of_slot (k := 0) (by omega) (by rw [Nat.add_zero, Nat.mod_eq_of_lt inside, equal])
    have tail (j : Nat) (lt : j < 4) : InPacket writePos (4 * tailSlot writePos + j) :=
      inPacket_of_slot (k := 16) (by omega) (by unfold tailSlot; omega)
    intro a member
    simp only [List.mem_append, List.mem_cons, List.not_mem_nil, or_false, List.mem_flatMap,
      List.mem_map, List.mem_range] at member
    rcases member with ((rfl | rfl) | ⟨p, ⟨i, lt, rfl⟩, at_p⟩) | rfl | rfl | rfl | rfl | rfl | rfl
    · exact .inl (start _ (by omega))
    · exact .inl (start _ (by omega))
    · refine .inl (inPacket_of_slot (k := 1 + i) (by omega) ?_)
      rw [← Nat.add_assoc, ← Nat.mod_add_mod]
      omega
    · exact .inl (tail 0 (by omega))
    · exact .inl (tail 1 (by omega))
    · exact .inl (tail 2 (by omega))
    · exact .inl (tail 3 (by omega))
    · exact .inr rfl
    · exact .inl (inPacket_of_slot (k := 17) (by omega) (by rw [← next]; omega))
  case consumerStores =>
    intro s member
    rcases List.mem_append.1 member with member | member
    · exact copied_isRegsDest (by simp) member
    · exact .inr (mailed_mem member)
  case unchanged =>
    intro a notPacket notDest
    change received m gsMem registersWritten writePos a = m a
    rw [received, perform_mailed_of_not_dest _ fun member => notDest (.inr member),
      perform_of_not_mem, perform_of_not_mem]
    · rintro s member rfl
      exact notPacket (sent_inPacket inside apart member)
    · rintro s member rfl
      exact notDest (copied_isRegsDest (by simp) member)
  case readPos => rw [postVsyncStart_eq inside]

/-- The packet round-trips exactly when its last two quadwords do not lie on both sides of the
ring's end. -/
theorem vsync_roundTrip_iff (m gsMem : Memory) (registersWritten : Bool) (writePos : Nat)
    (inside : writePos < RingBufferSize) :
    VsyncRoundTrip m gsMem registersWritten writePos
      (postVsyncStart gsMem registersWritten writePos)
      (mainLoopVsync (perform m (postVsyncStart gsMem registersWritten writePos).1) writePos) ↔
    writePos ≠ RingBufferSize - 17 := by
  refine ⟨fun trip bad => ?_, vsync_roundTrip_of_apart m gsMem registersWritten inside⟩
  have stored : (4 * tailSlot writePos + 4, if registersWritten then 1 else 0) ∈
      (postVsyncStart gsMem registersWritten writePos).1 := by
    rw [postVsyncStart_eq inside]
    simp [vsyncRemainder]
  obtain ⟨i, _, equal⟩ := trip.producerStores _ stored
  have := Nat.mod_lt (writePos + i) (by decide : 0 < RingBufferSize)
  simp only [tailSlot, RingBufferSize_eq] at *
  omega

/-- With the tail across the ring's end, `registers_written` is overwritten by the first register
before the consumer looks at it. -/
theorem vsync_registersWritten_lost :
    (mainLoopVsync (perform (fun _ => 0) (postVsyncStart (fun _ => 0) true
      (RingBufferSize - 17)).1) (RingBufferSize - 17)).registersWritten = false ∧
    ¬VsyncRoundTrip (fun _ => 0) (fun _ => 0) true (RingBufferSize - 17)
      (postVsyncStart (fun _ => 0) true (RingBufferSize - 17))
      (mainLoopVsync (perform (fun _ => 0) (postVsyncStart (fun _ => 0) true
        (RingBufferSize - 17)).1) (RingBufferSize - 17)) := by
  have lost : (mainLoopVsync (perform (fun _ => 0) (postVsyncStart (fun _ => 0) true
      (RingBufferSize - 17)).1) (RingBufferSize - 17)).registersWritten = false := by
    decide
  exact ⟨lost, fun trip => Bool.false_ne_true (lost.symm.trans trip.registersWritten)⟩

theorem vsync_roundTrip_iff_at_zero :
    0 < RingBufferSize ∧ (VsyncRoundTrip (fun _ => 0) (fun _ => 7) true 0
      (postVsyncStart (fun _ => 7) true 0)
      (mainLoopVsync (perform (fun _ => 0) (postVsyncStart (fun _ => 7) true 0).1) 0) ↔
        0 ≠ RingBufferSize - 17) :=
  ⟨by decide, vsync_roundTrip_iff (fun _ => 0) (fun _ => 7) true 0 (by decide)⟩

end Packet

end Pcsx2.Mtgs
