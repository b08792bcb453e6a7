import Pcsx2.Mtgs.Ring

/-!
# Packets in the ring

The packets of the EE side, the stores that put one into the ring, and what they leave there.
-/

namespace Pcsx2.Mtgs
open Foundation

inductive Packet where
  /-- `PrepDataPacket`, wrapped copies of the chunks, `SendDataPacket`. -/
  | data (cmd : Command) (size : Nat) (chunks : List (List U128))
  | simple (type : Command) (data0 data1 data2 : Word)
  | pointer (type : Command) (data0 : Word) (data1 : UInt64)

/-- Wrapped copies of chunk after chunk, each advancing `s_packet_writepos`. -/
def copyChunks : List (List U128) → Nat → Stores × Nat
  | [], writepos => ([], writepos)
  | chunk :: chunks, writepos =>
      let (first, writepos) := memCopyWrappedDest chunk writepos RingBufferSize chunk.length
      let (rest, writepos) := copyChunks chunks writepos
      (first ++ rest, writepos)

namespace Packet

/-- The argument of `GenericStall`. -/
def stallSize : Packet → Nat
  | data _ size _ => size + 1
  | _ => 1

def stores (writePos : Nat) : Packet → Stores × Nat
  | data cmd size chunks =>
      let (tag, packet) := prepDataPacket cmd size writePos
      let (copied, writepos) := copyChunks chunks packet.writepos
      let (close, newWritePos) := sendDataPacket { packet with writepos }
      (tag ++ copied ++ close, newWritePos)
  | simple type data0 data1 data2 => sendSimplePacket type data0 data1 data2 writePos
  | pointer type data0 data1 => sendPointerPacket type data0 data1 writePos

def payload : Packet → List U128
  | data _ _ chunks => chunks.flatten
  | _ => []

def tagWords : Packet → List Word
  | data cmd _ chunks => [cmd.toWord, UInt32.ofNat chunks.flatten.length]
  | simple type data0 data1 data2 => [type.toWord, data0, data1, data2]
  | pointer type data0 data1 => [type.toWord, data0, data1.toUInt32, (data1 >>> 32).toUInt32]

def size (p : Packet) : Nat := 1 + p.payload.length

/-- A data packet is announced with at least the size it is filled to, and fits in the ring. -/
def Valid : Packet → Prop
  | data cmd size chunks =>
      cmd.hasData ∧ chunks.flatten.length ≤ size ∧ size + 1 < RingBufferSize
  | simple type _ _ _ | pointer type _ _ => type.hasData = false

def image (p : Packet) : List (List Word) := p.tagWords :: p.payload.map U128.words

@[simp] theorem image_length (p : Packet) : p.image.length = p.size := by
  simp [image, size, Nat.add_comm]

theorem tagWords_length_le (p : Packet) : p.tagWords.length ≤ 4 := by
  cases p <;> simp [tagWords]

theorem image_width {p : Packet} : ∀ words ∈ p.image, words.length ≤ 4 := by
  intro words member
  rcases List.mem_cons.1 member with rfl | member
  · exact p.tagWords_length_le
  · obtain ⟨q, -, rfl⟩ := List.mem_map.1 member
    exact Nat.le_refl 4

theorem size_pos (p : Packet) : 0 < p.size := by
  unfold size
  omega

theorem size_le_stallSize {p : Packet} (valid : p.Valid) : p.size ≤ p.stallSize := by
  cases p with
  | data cmd size chunks =>
      have := valid.2.1
      simp only [Packet.size, payload, stallSize]
      omega
  | simple => simp [Packet.size, payload, stallSize]
  | pointer => simp [Packet.size, payload, stallSize]

end Packet

/-! ## Contents of the ring -/

/-- The slots from `pos` on hold the given words. -/
def Holds (m : Memory) (pos : Nat) (image : List (List Word)) : Prop :=
  ∀ i (bound : i < image.length),
    load m (4 * ((pos + i) % RingBufferSize)) image[i].length = image[i]

theorem holds_nil (m : Memory) (pos : Nat) : Holds m pos [] :=
  fun i bound => absurd bound (Nat.not_lt_zero i)

theorem holds_append {m : Memory} {pos : Nat} {first second : List (List Word)} :
    Holds m pos (first ++ second) ↔
      Holds m pos first ∧ Holds m (pos + first.length) second := by
  constructor
  · intro holds
    constructor
    · intro i bound
      have := holds i (by rw [List.length_append]; omega)
      rwa [List.getElem_append_left bound] at this
    · intro i bound
      have := holds (first.length + i) (by rw [List.length_append]; omega)
      rw [List.getElem_append_right (Nat.le_add_right _ _)] at this
      simpa only [Nat.add_sub_cancel_left, Nat.add_assoc] using this
  · rintro ⟨left, right⟩ i bound
    by_cases lt : i < first.length
    · rw [List.getElem_append_left lt]
      exact left i lt
    · rw [List.length_append] at bound
      rw [List.getElem_append_right (Nat.le_of_not_lt lt)]
      have := right (i - first.length) (by omega)
      rwa [Nat.add_assoc, Nat.add_sub_cancel' (Nat.le_of_not_lt lt)] at this

theorem holds_mod {m : Memory} (pos : Nat) {image : List (List Word)} :
    Holds m (pos % RingBufferSize) image ↔ Holds m pos image := by
  simp only [Holds, Nat.mod_add_mod]

theorem holds_singleton {m : Memory} {pos : Nat} {words : List Word}
    (inside : pos < RingBufferSize) (loaded : load m (4 * pos) words.length = words) :
    Holds m pos [words] := by
  intro i bound
  obtain rfl : i = 0 := Nat.lt_one_iff.1 bound
  rwa [show (pos + 0) % RingBufferSize = pos from Nat.mod_eq_of_lt inside]

theorem holds_perform {m : Memory} {pos : Nat} {image : List (List Word)} {stores : Stores}
    (width : ∀ words ∈ image, words.length ≤ 4) (holds : Holds m pos image)
    (apart : ∀ s ∈ stores, ∀ i < image.length, s.1 / 4 ≠ (pos + i) % RingBufferSize) :
    Holds (perform m stores) pos image := by
  intro i bound
  have narrow := width _ (List.getElem_mem bound)
  rw [load_perform_disjoint, holds i bound]
  intro s member
  have := apart s member i bound
  omega

theorem load_slot {m : Memory} {p : Nat} {q : U128} (equal : slot m p = q) :
    load m (4 * p) q.words.length = q.words := by
  subst equal
  rfl

/-! ## The packet's stores leave its image -/

theorem copyChunks_snd (chunks : List (List U128)) (w : Nat) (inside : w < RingBufferSize) :
    (copyChunks chunks w).2 = (w + chunks.flatten.length) % RingBufferSize := by
  induction chunks generalizing w with
  | nil => exact (Nat.mod_eq_of_lt inside).symm
  | cons chunk chunks ih =>
      simp only [copyChunks, memCopyWrappedDest_snd]
      rw [ih _ (Nat.mod_lt _ (by decide)), Nat.mod_add_mod, List.flatten_cons, List.length_append,
        Nat.add_assoc]

theorem copyChunks_bounds (chunks : List (List U128)) (w : Nat) (inside : w < RingBufferSize)
    (fits : chunks.flatten.length ≤ RingBufferSize) {s : Nat × Word}
    (member : s ∈ (copyChunks chunks w).1) :
    ∃ i < chunks.flatten.length, s.1 / 4 = (w + i) % RingBufferSize := by
  induction chunks generalizing w with
  | nil => simp [copyChunks] at member
  | cons chunk chunks ih =>
      rw [List.flatten_cons, List.length_append] at fits ⊢
      simp only [copyChunks, memCopyWrappedDest_snd, List.mem_append] at member
      rcases member with member | member
      · obtain ⟨i, lt, equal⟩ := memCopyWrappedDest_bounds _ inside (by omega) member
        exact ⟨i, by omega, equal⟩
      · obtain ⟨i, lt, equal⟩ := ih _ (Nat.mod_lt _ (by decide)) (by omega) member
        exact ⟨chunk.length + i, by omega, by rw [equal, Nat.mod_add_mod, Nat.add_assoc]⟩

theorem lap_ne {w i j : Nat} (lt : i < j) (lap : j < i + RingBufferSize) :
    (w + i) % RingBufferSize ≠ (w + j) % RingBufferSize := by
  rw [RingBufferSize_eq] at *
  omega

theorem slot_copyChunks (chunks : List (List U128)) (w : Nat) (inside : w < RingBufferSize)
    (fits : chunks.flatten.length ≤ RingBufferSize) (m : Memory) (i : Nat)
    (bound : i < chunks.flatten.length) :
    slot (perform m (copyChunks chunks w).1) ((w + i) % RingBufferSize) = chunks.flatten[i] := by
  induction chunks generalizing w m i with
  | nil => simp at bound
  | cons chunk chunks ih =>
      have total : chunk.length + chunks.flatten.length ≤ RingBufferSize := by
        simpa [List.flatten_cons] using fits
      simp only [copyChunks, memCopyWrappedDest_snd, perform_append, List.flatten_cons]
      by_cases first : i < chunk.length
      · rw [List.getElem_append_left first, slot_perform_of_not_mem,
          slot_memCopyWrappedDest _ inside (by omega)]
        intro s member
        obtain ⟨j, lt, equal⟩ :=
          copyChunks_bounds chunks _ (Nat.mod_lt _ (by decide)) (by omega) member
        rw [equal, Nat.mod_add_mod, Nat.add_assoc]
        exact (lap_ne (by omega) (by omega)).symm
      · rw [List.getElem_append_right (Nat.le_of_not_lt first)]
        have length : i < chunk.length + chunks.flatten.length := by
          simpa [List.flatten_cons] using bound
        rw [← ih ((w + chunk.length) % RingBufferSize) (Nat.mod_lt _ (by decide)) (by omega) _ _
          (by omega), Nat.mod_add_mod, Nat.add_assoc,
          Nat.add_sub_cancel' (Nat.le_of_not_lt first)]

theorem load_two {m : Memory} {a : Nat} {x y : Word} (first : m a = x) (second : m (a + 1) = y) :
    load m a 2 = [x, y] := by
  simp [load, List.range_succ, first, second]

section Image

variable {p : Packet} {writePos : Nat} {m : Memory}

theorem data_stores_eq {cmd : Command} {size : Nat} {chunks : List (List U128)}
    (inside : writePos < RingBufferSize) (fits : chunks.flatten.length + 1 < RingBufferSize) :
    (Packet.data cmd size chunks).stores writePos =
      ((prepDataPacket cmd size writePos).1 ++
        (copyChunks chunks ((writePos + 1) % RingBufferSize)).1 ++
        [(4 * writePos + 1, UInt32.ofNat chunks.flatten.length)],
        (writePos + (1 + chunks.flatten.length)) % RingBufferSize) := by
  have moved := copyChunks_snd chunks ((writePos + 1) % RingBufferSize) (Nat.mod_lt _ (by decide))
  rw [Nat.mod_add_mod, Nat.add_assoc] at moved
  have actual : subU32 (subU32 ((writePos + (1 + chunks.flatten.length)) % RingBufferSize) writePos %
      RingBufferSize) 1 = chunks.flatten.length := by
    simp only [RingBufferSize_eq] at inside fits ⊢
    unfold subU32
    omega
  simp only [Packet.stores, prepDataPacket, sendDataPacket, and_RingBufferMask, moved, actual]

theorem packet_newWritePos (valid : p.Valid) (inside : writePos < RingBufferSize) :
    (p.stores writePos).2 = (writePos + p.size) % RingBufferSize := by
  cases p with
  | data cmd size chunks =>
      have := valid.2
      rw [data_stores_eq inside (by omega)]
      rfl
  | simple => simp [Packet.stores, sendSimplePacket, finishSimplePacket, Packet.size, Packet.payload]
  | pointer => simp [Packet.stores, sendPointerPacket, finishSimplePacket, Packet.size, Packet.payload]

theorem packet_bounds (valid : p.Valid) (inside : writePos < RingBufferSize) {s : Nat × Word}
    (member : s ∈ (p.stores writePos).1) :
    ∃ i < p.size, s.1 / 4 = (writePos + i) % RingBufferSize := by
  have own (at_tag : s.1 / 4 = writePos) : ∃ i < p.size, s.1 / 4 = (writePos + i) % RingBufferSize :=
    ⟨0, p.size_pos, by rw [Nat.add_zero, Nat.mod_eq_of_lt inside, at_tag]⟩
  cases p with
  | data cmd size chunks =>
      have fits := valid.2
      rw [data_stores_eq inside (by omega)] at member
      simp only [List.mem_append, prepDataPacket, List.mem_cons, List.not_mem_nil,
        or_false] at member
      rcases member with ((rfl | rfl) | member) | rfl
      · exact own (by dsimp only; omega)
      · exact own (by dsimp only; omega)
      · obtain ⟨i, lt, equal⟩ :=
          copyChunks_bounds chunks _ (Nat.mod_lt _ (by decide)) (by omega) member
        rw [Nat.mod_add_mod, Nat.add_assoc] at equal
        exact ⟨1 + i, by simpa only [Packet.size, Packet.payload, Nat.add_lt_add_iff_left], equal⟩
      · exact own (by dsimp only; omega)
  | simple =>
      simp only [Packet.stores, sendSimplePacket, List.mem_cons, List.not_mem_nil,
        or_false] at member
      rcases member with rfl | rfl | rfl | rfl <;> exact own (by dsimp only; omega)
  | pointer =>
      simp only [Packet.stores, sendPointerPacket, List.mem_cons, List.not_mem_nil,
        or_false] at member
      rcases member with rfl | rfl | rfl | rfl <;> exact own (by dsimp only; omega)

theorem packet_image (valid : p.Valid) (inside : writePos < RingBufferSize) (m : Memory) :
    Holds (perform m (p.stores writePos).1) writePos p.image := by
  cases p with
  | data cmd size chunks =>
      have fits := valid.2
      rw [data_stores_eq inside (by omega)]
      intro i bound
      match i, bound with
      | 0, _ =>
          rw [show (writePos + 0) % RingBufferSize = writePos from Nat.mod_eq_of_lt inside]
          refine load_two ?_ ?_
          · rw [perform_append, perform_append, perform_of_not_mem, perform_of_not_mem]
            · simp [prepDataPacket]
            · intro s member
              obtain ⟨i, lt, equal⟩ :=
                copyChunks_bounds chunks _ (Nat.mod_lt _ (by decide)) (by omega) member
              rw [Nat.mod_add_mod, Nat.add_assoc] at equal
              have := lap_ne (w := writePos) (i := 0) (j := 1 + i) (by omega) (by omega)
              rw [Nat.add_zero, Nat.mod_eq_of_lt inside] at this
              omega
            · intro s member
              rw [List.mem_singleton.1 member]
              dsimp only
              omega
          · rw [perform_append]
            exact Function.update_self _ _ _
      | i + 1, bound =>
          have lt : i < chunks.flatten.length := by
            simp only [Packet.image_length, Packet.size, Packet.payload] at bound
            omega
          have copied := slot_copyChunks chunks ((writePos + 1) % RingBufferSize)
            (Nat.mod_lt _ (by decide)) (by omega) (perform m (prepDataPacket cmd size writePos).1)
            i lt
          rw [Nat.mod_add_mod, Nat.add_assoc, Nat.add_comm 1 i] at copied
          simp only [Packet.image, Packet.payload, List.getElem_cons_succ, List.getElem_map]
          apply load_slot
          rw [perform_append, perform_append, slot_perform_of_not_mem, copied]
          intro s member
          rw [List.mem_singleton.1 member]
          have := lap_ne (w := writePos) (i := 0) (j := i + 1) (by omega) (by omega)
          rw [Nat.add_zero, Nat.mod_eq_of_lt inside] at this
          dsimp only
          omega
  | simple type data0 data1 data2 =>
      exact holds_singleton inside
        (load_perform_block m (4 * writePos) [type.toWord, data0, data1, data2])
  | pointer type data0 data1 =>
      exact holds_singleton inside (load_perform_block m (4 * writePos)
        [type.toWord, data0, data1.toUInt32, (data1 >>> 32).toUInt32])

end Image

end Pcsx2.Mtgs
