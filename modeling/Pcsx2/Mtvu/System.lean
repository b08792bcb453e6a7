import Pcsx2.Foundation.Memory
import Pcsx2.Foundation.Run
import Pcsx2.Mtvu.Packets

/-!
# The two threads of the MTVU ring

The EE thread writes packets and the MTVU thread reads them, each with a position of its own and a
committed one that the other thread sees. At the end of the buffer the EE thread writes a null
packet, goes back to the start and commits that before it waits for room there.
-/

namespace Pcsx2.Mtvu
open Foundation

/-! ## The threads -/

inductive EePhase where
  | idle
  /-- In the `WaitOnSize(1)` of `ReserveSpace`. -/
  | waitNull (packet : Packet)
  | writeNull (packet : Packet)
  | rewind (packet : Packet)
  | wait (packet : Packet)
  | write (packet : Packet) (pending : List Word)

inductive VuPhase where
  | idle
  | read (words : List Word)

structure State where
  buffer : Nat → Word
  readPos : Nat
  atoReadPos : Nat
  writePos : Nat
  atoWritePos : Nat
  ee : EePhase
  vu : VuPhase
  sent : List Packet
  consumed : List (List Word)

def State.reset (buffer : Nat → Word) : State :=
  { buffer, readPos := 0, atoReadPos := 0, writePos := 0, atoWritePos := 0, ee := .idle,
    vu := .idle, sent := [], consumed := [] }

def fourKb : Nat := 4096

/-- When `WaitOnSize` returns. -/
def Room (readPos writePos size : Nat) : Prop :=
  readPos ≤ writePos ∨ writePos + size + fourKb < readPos

inductive Event where
  | reserve (packet : Packet)
  | waitedNull
  | wroteNull
  | rewind
  | waited
  | write
  | commitWritePos
  | begin
  | read
  | commitReadPos

inductive Step : Event → State → State → Prop
  | reserve {s} (packet : Packet) (idle : s.ee = .idle) (valid : packet.Valid)
      (fits : packet.reserve < bufferSize) :
      Step (.reserve packet) s { s with
        ee := if s.writePos + packet.reserve > bufferSize - 1 then .waitNull packet
          else .wait packet }
  | waitedNull {s packet} (phase : s.ee = .waitNull packet) (room : Room s.atoReadPos s.writePos 1) :
      Step .waitedNull s { s with ee := .writeNull packet }
  | wroteNull {s packet} (phase : s.ee = .writeNull packet) :
      Step .wroteNull s { s with
        buffer := Function.update s.buffer s.writePos nullTag
        writePos := s.writePos + 1
        ee := .rewind packet }
  | rewind {s packet} (phase : s.ee = .rewind packet) :
      Step .rewind s { s with writePos := 0, atoWritePos := 0, ee := .wait packet }
  | waited {s packet} (phase : s.ee = .wait packet)
      (room : Room s.atoReadPos s.writePos packet.reserve) :
      Step .waited s { s with ee := .write packet packet.encode }
  | write {s packet w pending} (phase : s.ee = .write packet (w :: pending)) :
      Step .write s { s with
        buffer := Function.update s.buffer s.writePos w
        writePos := s.writePos + 1
        ee := .write packet pending }
  | commitWritePos {s packet} (phase : s.ee = .write packet []) :
      Step .commitWritePos s { s with
        atoWritePos := s.writePos, ee := .idle, sent := s.sent ++ [packet] }
  | begin {s} (idle : s.vu = .idle) (work : s.atoReadPos ≠ s.atoWritePos) :
      Step .begin s { s with vu := .read [] }
  | read {s words} (reading : s.vu = .read words) (more : words.length < needed words) :
      Step .read s { s with
        readPos := s.readPos + 1
        vu := .read (words ++ [s.buffer s.readPos]) }
  | commitReadPos {s words} (reading : s.vu = .read words) (complete : needed words = words.length) :
      Step .commitReadPos s (if words.head? = some nullTag then
          { s with readPos := 0, atoReadPos := 0, vu := .idle }
        else
          { s with atoReadPos := s.readPos, vu := .idle, consumed := s.consumed ++ [words] })

/-! ## Where the unread packets are -/

/-- The words are in the buffer at the position. -/
def Laid (buffer : Nat → Word) (pos : Nat) (words : List Word) : Prop :=
  load buffer pos words.length = words

def encodeAll (packets : List Packet) : List Word := packets.flatMap Packet.encode

/-- The committed packets that are not consumed lie in the buffer as they were written: all from the
read position to the write position, or the first ones from the read position to a null packet and
the others from the start of the buffer to the write position, which is before the read position. -/
def Placed (buffer : Nat → Word) (readPos writePos : Nat) (front : List Packet) :
    Option (List Packet) → Prop
  | none => Laid buffer readPos (encodeAll front) ∧ readPos + (encodeAll front).length = writePos
  | some back =>
      Laid buffer readPos (encodeAll front ++ [nullTag]) ∧
      readPos + (encodeAll front).length < bufferSize ∧
      Laid buffer 0 (encodeAll back) ∧ (encodeAll back).length = writePos ∧ writePos < readPos

def State.unread (s : State) : List Packet := s.sent.drop s.consumed.length

structure RingSafe (s : State) : Prop where
  /-- What was consumed is what was sent, in order and unmodified; the rest is unread. -/
  fifo : s.sent.map Packet.encode = s.consumed ++ s.unread.map Packet.encode
  /-- The reader stops only when it has consumed everything. -/
  stop : s.atoReadPos = s.atoWritePos → s.unread = []
  intact : ∃ front back, front ++ back.getD [] = s.unread ∧
    Placed s.buffer s.atoReadPos s.atoWritePos front back

/-- The committed read position when the EE thread goes back to the start: past it, and in the lap
that ends. -/
def Fit (s : State) : Event → Prop
  | .rewind => 0 < s.atoReadPos ∧ s.atoReadPos ≤ s.atoWritePos
  | _ => True

def AnyStep (s t : State) : Prop := ∃ event, Step event s t

def FitStep (s t : State) : Prop := ∃ event, Fit s event ∧ Step event s t

/-! ## Placement -/

section

variable {buffer : Nat → Word} {pos a : Nat} {w : Word} {words more : List Word}

theorem laid_append :
    Laid buffer pos (words ++ more) ↔
      Laid buffer pos words ∧ Laid buffer (pos + words.length) more := by
  rw [Laid, List.length_append, load_add]
  exact ⟨fun equal => List.append_inj equal (load_length ..), fun ⟨first, second⟩ => by
    rw [first, second]⟩

theorem laid_singleton : Laid buffer pos [w] ↔ buffer pos = w := by
  simp [Laid, load]

theorem laid_update (laid : Laid buffer pos words) (apart : a < pos ∨ pos + words.length ≤ a) :
    Laid (Function.update buffer a w) pos words := by
  refine Eq.trans ?_ laid
  have outside : ∀ s ∈ [(a, w)], s.1 < pos ∨ pos + words.length ≤ s.1 := fun s member => by
    rw [List.mem_singleton.1 member]
    exact apart
  exact load_perform_disjoint outside

theorem laid_snoc_update (laid : Laid buffer pos words) :
    Laid (Function.update buffer (pos + words.length) w) pos (words ++ [w]) :=
  laid_append.2 ⟨laid_update laid (.inr le_rfl), laid_singleton.2 (Function.update_self ..)⟩

end

@[simp] theorem encodeAll_cons (p : Packet) (packets : List Packet) :
    encodeAll (p :: packets) = p.encode ++ encodeAll packets := rfl

@[simp] theorem encodeAll_append (first second : List Packet) :
    encodeAll (first ++ second) = encodeAll first ++ encodeAll second := by
  simp [encodeAll]

theorem encodeAll_eq_nil {packets : List Packet} : encodeAll packets = [] ↔ packets = [] := by
  cases packets <;> simp [encodeAll, Packet.encode]

def nextWords : List Packet → Option (List Packet) → Option (List Word)
  | p :: _, _ => some p.encode
  | [], some _ => some [nullTag]
  | [], none => none

def Free (readPos writePos size : Nat) : Prop := readPos ≤ writePos ∨ writePos + size < readPos

section

variable {buffer : Nat → Word} {readPos writePos a : Nat} {w : Word} {front : List Packet}
  {back : Option (List Packet)} (placed : Placed buffer readPos writePos front back)
include placed

theorem placed_update (above : writePos ≤ a) (free : readPos ≤ writePos ∨ a < readPos) :
    Placed (Function.update buffer a w) readPos writePos front back := by
  cases back with
  | none =>
      obtain ⟨laid, reach⟩ := placed
      exact ⟨laid_update laid (by omega), reach⟩
  | some back =>
      obtain ⟨laid, inside, laidBack, reach, lap⟩ := placed
      exact ⟨laid_update laid (by omega), inside, laid_update laidBack (by omega), reach, lap⟩

theorem placed_stop (equal : readPos = writePos) : front ++ back.getD [] = [] := by
  cases back with
  | none =>
      have none : (encodeAll front).length = 0 := by
        have := placed.2
        omega
      simpa using encodeAll_eq_nil.1 (List.eq_nil_of_length_eq_zero none)
  | some back =>
      have := placed.2.2.2.2
      omega

theorem placed_pending (work : readPos ≠ writePos) : ∃ next, nextWords front back = some next := by
  cases front with
  | cons p front => exact ⟨_, rfl⟩
  | nil =>
      cases back with
      | some back => exact ⟨_, rfl⟩
      | none => exact absurd placed.2 work

theorem placed_next {next : List Word} (first : nextWords front back = some next) :
    Laid buffer readPos next := by
  cases front with
  | cons p front =>
      obtain rfl := Option.some.inj first
      cases back with
      | none => exact (laid_append.1 placed.1).1
      | some back =>
          have laid := placed.1
          rw [encodeAll_cons, List.append_assoc] at laid
          exact (laid_append.1 laid).1
  | nil =>
      cases back with
      | none => cases first
      | some back =>
          obtain rfl := Option.some.inj first
          exact placed.1

theorem placed_commit {p : Packet} (laid : Laid buffer writePos p.encode) {size : Nat}
    (fits : p.encode.length ≤ size) (free : Free readPos writePos size) :
    match back with
    | none => Placed buffer readPos (writePos + p.encode.length) (front ++ [p]) none
    | some back => Placed buffer readPos (writePos + p.encode.length) front (some (back ++ [p])) := by
  have single : encodeAll [p] = p.encode := by simp [encodeAll]
  cases back with
  | none =>
      obtain ⟨before, reach⟩ := placed
      simp only [Placed, encodeAll_append, single, List.length_append]
      exact ⟨laid_append.2 ⟨before, reach.symm ▸ laid⟩, by omega⟩
  | some back =>
      obtain ⟨before, inside, laidBack, reach, lap⟩ := placed
      unfold Free at free
      simp only [Placed, encodeAll_append, single, List.length_append]
      refine ⟨before, inside, laid_append.2 ⟨laidBack, ?_⟩, by omega, by omega⟩
      rwa [reach, Nat.zero_add]

end

section

variable {buffer : Nat → Word} {readPos writePos : Nat} {front : List Packet}

theorem placed_consume {p : Packet} {back : Option (List Packet)}
    (placed : Placed buffer readPos writePos (p :: front) back) :
    Placed buffer (readPos + p.encode.length) writePos front back := by
  cases back with
  | none =>
      obtain ⟨laid, reach⟩ := placed
      rw [encodeAll_cons, List.length_append] at reach
      exact ⟨(laid_append.1 laid).2, by omega⟩
  | some back =>
      obtain ⟨laid, inside, laidBack, reach, lap⟩ := placed
      rw [encodeAll_cons, List.append_assoc] at laid
      rw [encodeAll_cons, List.length_append] at inside
      exact ⟨(laid_append.1 laid).2, by omega, laidBack, reach, by omega⟩

theorem placed_wrap {back : List Packet}
    (placed : Placed buffer readPos writePos [] (some back)) :
    Placed buffer 0 writePos back none :=
  ⟨placed.2.2.1, by rw [Nat.zero_add]; exact placed.2.2.2.1⟩

theorem placed_rewind {back : Option (List Packet)}
    (placed : Placed buffer readPos writePos front back) (inside : writePos < bufferSize)
    (null : buffer writePos = nullTag) (moved : 0 < readPos) (lap : readPos ≤ writePos) :
    back = none ∧ Placed buffer readPos 0 front (some []) := by
  cases back with
  | none =>
      obtain ⟨laid, reach⟩ := placed
      exact ⟨rfl, laid_append.2 ⟨laid, laid_singleton.2 (reach.symm ▸ null)⟩, by omega, rfl, rfl, moved⟩
  | some back =>
      have := placed.2.2.2.2
      omega

end

/-! ## The invariant -/

def EeInv (s : State) : Prop :=
  match s.ee with
  | .idle => s.writePos = s.atoWritePos
  | .waitNull packet | .writeNull packet =>
      packet.Valid ∧ packet.reserve < bufferSize ∧ s.writePos = s.atoWritePos
  | .rewind packet =>
      packet.Valid ∧ packet.reserve < bufferSize ∧ s.buffer s.atoWritePos = nullTag
  | .wait packet =>
      packet.Valid ∧ s.atoWritePos + packet.reserve < bufferSize ∧ s.writePos = s.atoWritePos
  | .write packet pending =>
      packet.Valid ∧ s.atoWritePos + packet.reserve < bufferSize ∧
      Free s.atoReadPos s.atoWritePos packet.reserve ∧
      ∃ written, packet.encode = written ++ pending ∧ Laid s.buffer s.atoWritePos written ∧
        s.writePos = s.atoWritePos + written.length

def VuInv (s : State) (front : List Packet) (back : Option (List Packet)) : Prop :=
  match s.vu with
  | .idle => s.readPos = s.atoReadPos
  | .read words => s.readPos = s.atoReadPos + words.length ∧
      ∃ next, nextWords front back = some next ∧ words <+: next

theorem VuInv.mono {s : State} {front front' : List Packet} {back back' : Option (List Packet)}
    (vu : VuInv s front back)
    (later : ∀ next, nextWords front back = some next → nextWords front' back' = some next) :
    VuInv s front' back' := by
  unfold VuInv at *
  cases reading : s.vu with
  | idle => simpa only [reading] using vu
  | read words =>
      simp only [reading] at vu
      obtain ⟨position, next, first, before⟩ := vu
      exact ⟨position, next, later next first, before⟩

theorem EeInv.moved {s t : State} (ee : EeInv s)
    (same : t.buffer = s.buffer ∧ t.writePos = s.writePos ∧ t.atoWritePos = s.atoWritePos ∧ t.ee = s.ee)
    (free : ∀ size, Free s.atoReadPos s.atoWritePos size → Free t.atoReadPos t.atoWritePos size) :
    EeInv t := by
  obtain ⟨buffer, writePos, atoWritePos, phase⟩ := same
  unfold EeInv at *
  rw [phase]
  cases writing : s.ee with
  | write packet pending =>
      simp only [writing] at ee
      obtain ⟨valid, fits, room, written⟩ := ee
      simp only [buffer, writePos, atoWritePos] at *
      exact ⟨valid, fits, free _ room, written⟩
  | idle | waitNull packet | writeNull packet | rewind packet | wait packet =>
      simpa only [writing, buffer, writePos, atoWritePos] using ee

structure Inv (s : State) (front : List Packet) (back : Option (List Packet)) : Prop where
  order : ∃ done, s.sent = done ++ (front ++ back.getD []) ∧ s.consumed = done.map Packet.encode
  valid : ∀ p ∈ front ++ back.getD [], p.Valid
  inside : s.atoWritePos < bufferSize
  placed : Placed s.buffer s.atoReadPos s.atoWritePos front back
  ee : EeInv s
  vu : VuInv s front back

theorem inv_reset (buffer : Nat → Word) : Inv (.reset buffer) [] none where
  order := ⟨[], rfl, rfl⟩
  valid := fun _ member => absurd member List.not_mem_nil
  inside := (by decide : 0 < bufferSize)
  placed := ⟨rfl, rfl⟩
  ee := rfl
  vu := rfl

variable {packet : Packet}

section

variable {s : State} {front : List Packet} {back : Option (List Packet)} (inv : Inv s front back)
include inv

theorem Inv.unread_eq : s.unread = front ++ back.getD [] := by
  obtain ⟨done, sent, consumed⟩ := inv.order
  rw [State.unread, sent, consumed, List.length_map, List.drop_left]

/-! ## Steps of the EE thread -/

theorem inv_reserve (idle : s.ee = .idle) (valid : packet.Valid)
    (fits : packet.reserve < bufferSize) :
    Inv { s with
      ee := if s.writePos + packet.reserve > bufferSize - 1 then .waitNull packet
        else .wait packet } front back := by
  have position := inv.ee
  simp only [EeInv, idle] at position
  by_cases full : s.writePos + packet.reserve > bufferSize - 1
  · rw [if_pos full]
    exact { inv with ee := ⟨valid, fits, position⟩ }
  · rw [if_neg full]
    have room : s.atoWritePos + packet.reserve < bufferSize := by omega
    exact { inv with ee := ⟨valid, room, position⟩ }

theorem inv_waitedNull (phase : s.ee = .waitNull packet) :
    Inv { s with ee := .writeNull packet } front back := by
  have ee := inv.ee
  simp only [EeInv, phase] at ee
  exact { inv with ee := ee }

theorem inv_wroteNull (phase : s.ee = .writeNull packet) :
    Inv { s with
      buffer := Function.update s.buffer s.writePos nullTag
      writePos := s.writePos + 1
      ee := .rewind packet } front back := by
  have ee := inv.ee
  simp only [EeInv, phase] at ee
  obtain ⟨valid, fits, position⟩ := ee
  have apart : s.atoReadPos ≤ s.atoWritePos ∨ s.atoWritePos < s.atoReadPos := by omega
  rw [position]
  exact { inv with
    placed := placed_update inv.placed le_rfl apart
    ee := ⟨valid, fits, Function.update_self ..⟩ }

theorem inv_rewind (phase : s.ee = .rewind packet) (moved : 0 < s.atoReadPos)
    (lap : s.atoReadPos ≤ s.atoWritePos) :
    Inv { s with writePos := 0, atoWritePos := 0, ee := .wait packet } front (some []) := by
  have ee := inv.ee
  simp only [EeInv, phase] at ee
  obtain ⟨valid, fits, null⟩ := ee
  obtain ⟨rfl, placed⟩ := placed_rewind inv.placed inv.inside null moved lap
  refine { inv with
    inside := (by decide : 0 < bufferSize)
    placed := placed
    ee := ⟨valid, by simpa using fits, rfl⟩
    vu := inv.vu.mono fun next first => ?_ }
  cases front with
  | nil => cases first
  | cons p front => exact first

theorem inv_waited (phase : s.ee = .wait packet)
    (room : Room s.atoReadPos s.writePos packet.reserve) :
    Inv { s with ee := .write packet packet.encode } front back := by
  have ee := inv.ee
  simp only [EeInv, phase] at ee
  obtain ⟨valid, fits, position⟩ := ee
  rw [position] at room
  have free : Free s.atoReadPos s.atoWritePos packet.reserve :=
    room.imp_right fun front => by omega
  exact { inv with ee := ⟨valid, fits, free, [], rfl, rfl, position⟩ }

theorem inv_write {w : Word} {pending : List Word}
    (phase : s.ee = .write packet (w :: pending)) :
    Inv { s with
      buffer := Function.update s.buffer s.writePos w
      writePos := s.writePos + 1
      ee := .write packet pending } front back := by
  have ee := inv.ee
  simp only [EeInv, phase] at ee
  obtain ⟨valid, fits, free, written, split, laid, position⟩ := ee
  have short := length_le_reserve valid
  rw [split, List.length_append, List.length_cons] at short
  have apart : s.atoReadPos ≤ s.atoWritePos ∨ s.writePos < s.atoReadPos :=
    free.imp_right fun front => by omega
  have above : s.atoWritePos ≤ s.writePos := by omega
  refine { inv with
    placed := placed_update inv.placed above apart
    ee := ⟨valid, fits, free, written ++ [w], by rw [split, List.append_assoc]; rfl, ?_, ?_⟩ }
  · rw [position]
    exact laid_snoc_update laid
  · rw [position, List.length_append]
    rfl

theorem inv_commitWritePos (phase : s.ee = .write packet []) :
    ∃ front back, Inv { s with
      atoWritePos := s.writePos, ee := .idle, sent := s.sent ++ [packet] } front back := by
  have ee := inv.ee
  simp only [EeInv, phase] at ee
  obtain ⟨valid, fits, free, written, split, laid, position⟩ := ee
  rw [List.append_nil] at split
  subst split
  have short := length_le_reserve valid
  have inside : s.writePos < bufferSize := by omega
  have placed := placed_commit inv.placed laid short free
  rw [← position] at placed
  obtain ⟨done, sent, consumed⟩ := inv.order
  have all (p : Packet) (member : p ∈ (front ++ back.getD []) ++ [packet]) : p.Valid := by
    rcases List.mem_append.1 member with member | member
    · exact inv.valid p member
    · exact List.mem_singleton.1 member ▸ valid
  cases back with
  | none =>
      refine ⟨front ++ [packet], none, ⟨done, by simp [sent], consumed⟩, ?_, inside, placed, rfl,
        inv.vu.mono fun next first => ?_⟩
      · simpa using all
      · cases front with
        | nil => cases first
        | cons p front => exact first
  | some back =>
      refine ⟨front, some (back ++ [packet]), ⟨done, by simp [sent], consumed⟩, ?_, inside, placed, rfl,
        inv.vu.mono fun next first => ?_⟩
      · simpa [List.append_assoc] using all
      · cases front <;> exact first

/-! ## Steps of the MTVU thread -/

theorem inv_begin (idle : s.vu = .idle) (work : s.atoReadPos ≠ s.atoWritePos) :
    Inv { s with vu := .read [] } front back := by
  have vu := inv.vu
  simp only [VuInv, idle] at vu
  obtain ⟨next, first⟩ := placed_pending inv.placed work
  exact { inv with vu := ⟨vu, next, first, List.nil_prefix⟩ }

theorem inv_read {words : List Word} (reading : s.vu = .read words)
    (more : words.length < needed words) :
    Inv { s with
      readPos := s.readPos + 1
      vu := .read (words ++ [s.buffer s.readPos]) } front back := by
  have vu := inv.vu
  simp only [VuInv, reading] at vu
  obtain ⟨position, next, first, before⟩ := vu
  have laid := placed_next inv.placed first
  have short : words.length < next.length := by
    cases front with
    | cons p front =>
        obtain rfl := Option.some.inj first
        exact lt_of_needed (inv.valid p (by simp)) before more
    | nil =>
        cases back with
        | none => cases first
        | some back =>
            obtain rfl := Option.some.inj first
            rcases List.prefix_cons_iff.1 before with rfl | ⟨rest, rfl, tail⟩
            · exact Nat.one_pos
            · obtain rfl := List.prefix_nil.1 tail
              exact absurd more (by rw [needed_null]; simp)
  have cell : s.buffer s.readPos = next[words.length] := by
    rw [position]
    exact load_eq_iff.1 laid _ short
  refine { inv with vu := ⟨?_, next, first, ?_⟩ }
  · rw [position, List.length_append]
    rfl
  · rw [cell, List.prefix_iff_eq_take, List.length_append, List.length_singleton, List.take_add_one,
      List.getElem?_eq_getElem short, ← List.prefix_iff_eq_take.1 before]
    rfl

theorem inv_commitReadPos {words : List Word} (reading : s.vu = .read words)
    (complete : needed words = words.length) :
    ∃ front back, Inv (if words.head? = some nullTag then
        { s with readPos := 0, atoReadPos := 0, vu := .idle }
      else
        { s with atoReadPos := s.readPos, vu := .idle, consumed := s.consumed ++ [words] })
      front back := by
  have vu := inv.vu
  simp only [VuInv, reading] at vu
  obtain ⟨position, next, first, before⟩ := vu
  obtain ⟨done, sent, consumed⟩ := inv.order
  cases front with
  | cons p front =>
      obtain rfl := Option.some.inj first
      have valid := inv.valid p (by simp)
      obtain rfl := (needed_eq_length_iff valid before).1 complete
      have notNull : p.encode.head? ≠ some nullTag := fun equal =>
        event_ne_null p (Option.some.inj equal)
      have placed := placed_consume inv.placed
      rw [← position] at placed
      rw [if_neg notNull]
      refine ⟨front, back, ⟨done ++ [p], by simp [sent], by simp [consumed]⟩,
        fun q member => inv.valid q (List.mem_cons_of_mem _ member), inv.inside, placed,
        inv.ee.moved ⟨rfl, rfl, rfl, rfl⟩ fun size room => ?_, rfl⟩
      cases back with
      | none =>
          left
          have := placed.2
          simp only
          omega
      | some back =>
          have lap := inv.placed.2.2.2.2
          unfold Free at *
          simp only
          omega
  | nil =>
      cases back with
      | none => cases first
      | some back =>
          obtain rfl := Option.some.inj first
          obtain rfl : words = [nullTag] := by
            rcases List.prefix_cons_iff.1 before with rfl | ⟨rest, rfl, tail⟩
            · cases complete
            · rw [List.prefix_nil.1 tail]
          rw [if_pos (show [nullTag].head? = some nullTag from rfl)]
          exact ⟨back, none, ⟨done, by simpa using sent, consumed⟩, by simpa using inv.valid,
            inv.inside, placed_wrap inv.placed,
            inv.ee.moved ⟨rfl, rfl, rfl, rfl⟩ fun _ _ => .inl (Nat.zero_le _), rfl⟩

end

theorem inv_step {s t : State} {event : Event} (inv : ∃ front back, Inv s front back)
    (fit : Fit s event) (step : Step event s t) : ∃ front back, Inv t front back := by
  obtain ⟨front, back, inv⟩ := inv
  cases step with
  | reserve packet idle valid fits => exact ⟨_, _, inv_reserve inv idle valid fits⟩
  | waitedNull phase room => exact ⟨_, _, inv_waitedNull inv phase⟩
  | wroteNull phase => exact ⟨_, _, inv_wroteNull inv phase⟩
  | rewind phase => exact ⟨_, _, inv_rewind inv phase fit.1 fit.2⟩
  | waited phase room => exact ⟨_, _, inv_waited inv phase room⟩
  | write phase => exact ⟨_, _, inv_write inv phase⟩
  | commitWritePos phase => exact inv_commitWritePos inv phase
  | begin idle work => exact ⟨_, _, inv_begin inv idle work⟩
  | read reading more => exact ⟨_, _, inv_read inv reading more⟩
  | commitReadPos reading complete => exact inv_commitReadPos inv reading complete

/-! ## Safety of the runs that fit -/

theorem Inv.ringSafe {s : State} {front : List Packet} {back : Option (List Packet)}
    (inv : Inv s front back) : RingSafe s where
  fifo := by
    obtain ⟨done, sent, consumed⟩ := inv.order
    rw [inv.unread_eq, consumed, ← List.map_append, ← sent]
  stop := fun equal => inv.unread_eq.trans (placed_stop inv.placed equal)
  intact := ⟨front, back, inv.unread_eq.symm, inv.placed⟩

theorem write_run {pending : List Word} {s : State}
    (phase : s.ee = .write packet pending) :
    ∃ buffer, Run AnyStep s { s with
      buffer, writePos := s.writePos + pending.length, ee := .write packet [] } := by
  induction pending generalizing s with
  | nil => exact ⟨s.buffer, by rw [← phase]; exact .refl⟩
  | cons w pending ih =>
      obtain ⟨buffer, run⟩ := ih (s := { s with
        buffer := Function.update s.buffer s.writePos w
        writePos := s.writePos + 1
        ee := .write packet pending }) rfl
      rw [Nat.add_assoc, Nat.add_comm 1] at run
      exact ⟨buffer, .head ⟨_, .write phase⟩ run⟩

/-- The EE thread sends a packet that fits before the end of the buffer, while the MTVU thread
sleeps behind it. -/
theorem send_run {s : State} (valid : packet.Valid) (idle : s.ee = .idle)
    (position : s.writePos = s.atoWritePos) (behind : s.atoReadPos ≤ s.writePos)
    (fits : s.writePos + packet.reserve < bufferSize) :
    ∃ buffer, Run AnyStep s { s with
      buffer
      writePos := s.writePos + packet.encode.length
      atoWritePos := s.writePos + packet.encode.length
      ee := .idle
      sent := s.sent ++ [packet] } := by
  have reserved : Run AnyStep s { s with ee := .wait packet } := by
    have step := Step.reserve packet idle valid (by omega)
    rw [if_neg (by omega)] at step
    exact .single ⟨_, step⟩
  have waited : AnyStep { s with ee := .wait packet } { s with ee := .write packet packet.encode } :=
    ⟨_, .waited rfl (.inl behind)⟩
  obtain ⟨buffer, written⟩ := write_run (s := { s with ee := .write packet packet.encode }) rfl
  exact ⟨buffer, ((reserved.tail waited).trans written).tail ⟨_, .commitWritePos rfl⟩⟩

/-- A `WriteMicroMem` of all of VU1's micro memory. -/
def microPacket : Packet := .writeMicroMem 0 0x4000 (List.replicate 4096 0)

theorem microPacket_length : microPacket.encode.length = 4099 := by
  rw [encode_length, microPacket, Packet.body, List.length_cons, List.length_cons,
    List.length_replicate]

theorem micro_size : sizeU32 0x4000 = 4096 := by decide

theorem microPacket_reserve : microPacket.reserve = 4099 := by
  rw [microPacket, Packet.reserve, micro_size]

theorem microPacket_valid : microPacket.Valid := by
  rw [microPacket, Packet.Valid, List.length_replicate, micro_size]

theorem micro_run (n : Nat) (fits : n * 4099 < bufferSize) :
    ∃ buffer, Run AnyStep (.reset fun _ => 0) { State.reset buffer with
      writePos := n * 4099, atoWritePos := n * 4099, sent := List.replicate n microPacket } := by
  induction n with
  | zero => exact ⟨_, .refl⟩
  | succ n ih =>
      rw [Nat.succ_mul] at fits
      obtain ⟨buffer, run⟩ := ih (Nat.lt_of_le_of_lt (Nat.le_add_right _ _) fits)
      have room : n * 4099 + microPacket.reserve < bufferSize := by
        rwa [microPacket_reserve]
      obtain ⟨buffer, sent⟩ := send_run (s := { State.reset buffer with
        writePos := n * 4099, atoWritePos := n * 4099, sent := List.replicate n microPacket })
        microPacket_valid rfl rfl (Nat.zero_le _) room
      refine ⟨buffer, run.trans ?_⟩
      rw [List.replicate_succ', Nat.succ_mul]
      rwa [microPacket_length] at sent

end Pcsx2.Mtvu
