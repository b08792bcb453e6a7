import Pcsx2.Foundation.Run
import Pcsx2.Mtgs.Packets

/-!
# The two threads of the MTGS ring

The EE thread sends packets and the GS thread takes them; either may be stopped between any two
accesses to shared memory. A wait of `GenericStall` that finds too little room changes nothing, so
only its last look at `s_ReadPos` is a step.
-/

namespace Pcsx2.Mtgs
open Foundation

/-! ## The threads -/

def Command.ofWord (w : Word) : Option Command :=
  [Command.GIFPath1, .GIFPath2, .GIFPath3, .VSync, .Freeze, .Reset, .SoftReset, .GSPacket,
    .MTVUGSPacket, .InitAndReadFIFO, .AsyncCall].find? fun c => c.toWord == w

def tagHasData (tag : U128) : Bool := ((Command.ofWord tag.w0).map Command.hasData).getD false

/-- How far `MainLoop` advances over a packet. -/
def ringposinc (tag : U128) : Nat := if tagHasData tag then 1 + tag.w1.toNat else 1

inductive EePhase where
  | idle
  | stall (packet : Packet)
  | copy (packet : Packet) (pending : Stores) (newWritePos : Nat)

inductive GsPhase where
  | idle
  | fetch (tag : U128) (data : List U128)

abbrev Received := List Word × List U128

def receive (tag : U128) (data : List U128) : Received :=
  (if tagHasData tag then [tag.w0, tag.w1] else tag.words, data)

def Packet.view (p : Packet) : Received := (p.tagWords, p.payload)

structure State where
  mem : Memory
  readPos : Nat
  writePos : Nat
  ee : EePhase
  gs : GsPhase
  sent : List Packet
  received : List Received

def State.initial (mem : Memory) (pos : Nat) : State :=
  { mem, readPos := pos, writePos := pos, ee := .idle, gs := .idle, sent := [], received := [] }

inductive Step : State → State → Prop
  | call {s} (packet : Packet) (idle : s.ee = .idle) (valid : packet.Valid) :
      Step s { s with ee := .stall packet }
  | proceed {s packet} (stalled : s.ee = .stall packet)
      (room : packet.stallSize < genericStallFreeroom s.writePos s.readPos) :
      Step s { s with ee := .copy packet (packet.stores s.writePos).1 (packet.stores s.writePos).2 }
  | store {s packet a w pending newWritePos}
      (copying : s.ee = .copy packet ((a, w) :: pending) newWritePos) :
      Step s { s with mem := Function.update s.mem a w, ee := .copy packet pending newWritePos }
  | publish {s packet newWritePos} (copied : s.ee = .copy packet [] newWritePos) :
      Step s { s with writePos := newWritePos, ee := .idle, sent := s.sent ++ [packet] }
  | take {s} (idle : s.gs = .idle) (work : s.readPos ≠ s.writePos) :
      Step s { s with gs := .fetch (slot s.mem s.readPos) [] }
  | read {s tag data} (fetching : s.gs = .fetch tag data) (more : data.length + 1 < ringposinc tag) :
      Step s { s with
        gs := .fetch tag (data ++ [slot s.mem ((s.readPos + 1 + data.length) &&& RingBufferMask)]) }
  | finish {s tag data} (fetching : s.gs = .fetch tag data)
      (complete : data.length + 1 = ringposinc tag) :
      Step s { s with
        readPos := (s.readPos + ringposinc tag) &&& RingBufferMask
        gs := .idle
        received := s.received ++ [receive tag data] }

/-! ## The invariant -/

def State.unread (s : State) : List Packet := s.sent.drop s.received.length

def occupied (unread : List Packet) : Nat := (unread.map Packet.size).sum

def images (unread : List Packet) : List (List Word) := unread.flatMap Packet.image

def EeInv (s : State) (used : Nat) : Prop :=
  match s.ee with
  | .idle => True
  | .stall packet => packet.Valid
  | .copy packet pending newWritePos =>
      packet.Valid ∧ used + packet.size < RingBufferSize ∧
      newWritePos = (s.writePos + packet.size) % RingBufferSize ∧
      (∀ st ∈ pending, ∃ i < packet.size, st.1 / 4 = (s.writePos + i) % RingBufferSize) ∧
      Holds (perform s.mem pending) s.writePos packet.image

def GsInv (s : State) (unread : List Packet) : Prop :=
  match s.gs with
  | .idle => True
  | .fetch tag data => ∃ packet rest, unread = packet :: rest ∧
      tag.words.take packet.tagWords.length = packet.tagWords ∧ data <+: packet.payload

structure Inv (s : State) (unread : List Packet) : Prop where
  readPos_lt : s.readPos < RingBufferSize
  order : ∃ done, s.sent = done ++ unread ∧ s.received = done.map Packet.view
  valid : ∀ p ∈ unread, p.Valid
  room : occupied unread < RingBufferSize
  writePos : s.writePos = (s.readPos + occupied unread) % RingBufferSize
  holds : Holds s.mem s.readPos (images unread)
  ee : EeInv s (occupied unread)
  gs : GsInv s unread

@[simp] theorem images_length (unread : List Packet) : (images unread).length = occupied unread := by
  simp [images, occupied, List.length_flatMap]

theorem images_width {unread : List Packet} : ∀ words ∈ images unread, words.length ≤ 4 := by
  intro words member
  obtain ⟨p, -, member⟩ := List.mem_flatMap.1 member
  exact Packet.image_width words member

theorem occupied_eq_zero {unread : List Packet} : occupied unread = 0 ↔ unread = [] := by
  cases unread with
  | nil => simp [occupied]
  | cons p rest =>
      have := p.size_pos
      simp [occupied]
      omega

theorem freeroom_eq {readPos writePos used : Nat} (inside : readPos < RingBufferSize)
    (room : used < RingBufferSize) (position : writePos = (readPos + used) % RingBufferSize) :
    genericStallFreeroom writePos readPos = RingBufferSize - used := by
  unfold genericStallFreeroom
  simp only [RingBufferSize_eq] at *
  split <;> omega

section

variable {s : State} {unread : List Packet}

theorem Inv.writePos_lt (inv : Inv s unread) : s.writePos < RingBufferSize := by
  rw [inv.writePos]
  exact Nat.mod_lt _ (by decide)

theorem Inv.apart (inv : Inv s unread) {packet : Packet} {i k : Nat}
    (room : occupied unread + packet.size < RingBufferSize) (own : i < packet.size)
    (used : k < occupied unread) :
    (s.writePos + i) % RingBufferSize ≠ (s.readPos + k) % RingBufferSize := by
  rw [inv.writePos, Nat.mod_add_mod, Nat.add_assoc]
  exact (lap_ne (by omega) (by omega)).symm

theorem Inv.unread_eq (inv : Inv s unread) : s.unread = unread := by
  obtain ⟨done, sent, received⟩ := inv.order
  rw [State.unread, sent, received, List.length_map, List.drop_left]

end

theorem occupied_cons (packet : Packet) (rest : List Packet) :
    occupied (packet :: rest) = packet.size + occupied rest := by
  simp [occupied]

theorem occupied_snoc (unread : List Packet) (packet : Packet) :
    occupied (unread ++ [packet]) = occupied unread + packet.size := by
  simp [occupied]

/-! ## What the GS thread makes of a tag -/

theorem command_ofWord (c : Command) : Command.ofWord c.toWord = some c := by
  cases c <;> rfl

theorem words_take_two {tag : U128} {x y : Word} (taken : tag.words.take 2 = [x, y]) :
    tag.w0 = x ∧ tag.w1 = y := by
  simpa [U128.words] using taken

theorem packet_tag {p : Packet} {tag : U128} (valid : p.Valid)
    (taken : tag.words.take p.tagWords.length = p.tagWords) :
    ringposinc tag = p.size ∧ receive tag p.payload = p.view := by
  cases p with
  | data cmd size chunks =>
      obtain ⟨first, second⟩ := words_take_two taken
      obtain ⟨has, fits, small⟩ := valid
      have hasData : tagHasData tag = true := by
        simp [tagHasData, first, command_ofWord, has]
      have count : (UInt32.ofNat chunks.flatten.length).toNat = chunks.flatten.length :=
        UInt32.toNat_ofNat_of_lt' (by
          rw [RingBufferSize_eq] at small
          unfold UInt32.size
          omega)
      constructor
      · rw [ringposinc, if_pos hasData, second, count]
        rfl
      · simp [receive, hasData, first, second, Packet.view, Packet.tagWords]
  | simple type data0 data1 data2 =>
      have whole : tag.words = [type.toWord, data0, data1, data2] := taken
      have first : tag.w0 = type.toWord := by simpa [U128.words] using congrArg List.head? whole
      have noData : tagHasData tag = false := by
        simp [tagHasData, first, command_ofWord, show type.hasData = false from valid]
      exact ⟨by simp [ringposinc, noData, Packet.size, Packet.payload],
        by simp [receive, noData, whole, Packet.view, Packet.tagWords]⟩
  | pointer type data0 data1 =>
      have whole : tag.words = [type.toWord, data0, data1.toUInt32, (data1 >>> 32).toUInt32] := taken
      have first : tag.w0 = type.toWord := by simpa [U128.words] using congrArg List.head? whole
      have noData : tagHasData tag = false := by
        simp [tagHasData, first, command_ofWord, show type.hasData = false from valid]
      exact ⟨by simp [ringposinc, noData, Packet.size, Packet.payload],
        by simp [receive, noData, whole, Packet.view, Packet.tagWords]⟩

/-! ## Steps preserve the invariant -/

theorem inv_initial {mem : Memory} {pos : Nat} (inside : pos < RingBufferSize) :
    Inv (.initial mem pos) [] where
  readPos_lt := inside
  order := ⟨[], rfl, rfl⟩
  valid := fun p member => absurd member List.not_mem_nil
  room := show 0 < RingBufferSize by decide
  writePos := (Nat.mod_eq_of_lt inside).symm
  holds := holds_nil _ _
  ee := trivial
  gs := trivial

theorem slot_word_zero {m : Memory} {p : Nat} {words : List Word}
    (loaded : load m (4 * p) words.length = words) (narrow : words.length ≤ 4) :
    (slot m p).words.take words.length = words := by
  have whole : (slot m p).words = load m (4 * p) 4 := rfl
  rw [whole, load_take narrow, loaded]

theorem words_injective {q r : U128} (equal : q.words = r.words) : q = r := by
  simp only [U128.words, List.cons.injEq, and_true] at equal
  obtain ⟨h0, h1, h2, h3⟩ := equal
  cases q
  cases r
  simp_all

section

variable {s : State} {unread : List Packet} (inv : Inv s unread)
include inv

theorem inv_proceed {packet : Packet} (stalled : s.ee = .stall packet)
    (room : packet.stallSize < genericStallFreeroom s.writePos s.readPos) :
    Inv { s with ee := .copy packet (packet.stores s.writePos).1 (packet.stores s.writePos).2 }
      unread := by
  have valid : packet.Valid := by
    have ee := inv.ee
    simpa only [EeInv, stalled] using ee
  rw [freeroom_eq inv.readPos_lt inv.room inv.writePos] at room
  have := Packet.size_le_stallSize valid
  exact { inv with
    ee := ⟨valid, by omega, packet_newWritePos valid inv.writePos_lt,
      fun st member => packet_bounds valid inv.writePos_lt member,
      packet_image valid inv.writePos_lt s.mem⟩ }

theorem inv_store {packet : Packet} {a : Nat} {w : Word} {pending : Stores} {newWritePos : Nat}
    (copying : s.ee = .copy packet ((a, w) :: pending) newWritePos) :
    Inv { s with mem := Function.update s.mem a w, ee := .copy packet pending newWritePos }
      unread := by
  have ee := inv.ee
  simp only [EeInv, copying] at ee
  obtain ⟨valid, room, position, own, after⟩ := ee
  obtain ⟨i, lt, at_slot⟩ := own _ List.mem_cons_self
  have kept : Holds (perform s.mem [(a, w)]) s.readPos (images unread) := by
    refine holds_perform images_width inv.holds fun st member k bound => ?_
    rw [List.mem_singleton.1 member, at_slot]
    exact inv.apart room lt (by simpa using bound)
  exact { inv with
    holds := kept
    ee := ⟨valid, room, position, fun st member => own st (List.mem_cons_of_mem _ member), after⟩ }

theorem inv_publish {packet : Packet} {newWritePos : Nat}
    (copied : s.ee = .copy packet [] newWritePos) :
    Inv { s with writePos := newWritePos, ee := .idle, sent := s.sent ++ [packet] }
      (unread ++ [packet]) := by
  have ee := inv.ee
  simp only [EeInv, copied] at ee
  obtain ⟨valid, room, position, -, after⟩ := ee
  obtain ⟨done, sent, received⟩ := inv.order
  constructor
  case readPos_lt => exact inv.readPos_lt
  case order => exact ⟨done, by simp only [sent, List.append_assoc], received⟩
  case valid =>
    intro p member
    rcases List.mem_append.1 member with member | member
    · exact inv.valid p member
    · exact List.mem_singleton.1 member ▸ valid
  case room => rwa [occupied_snoc]
  case writePos => rw [occupied_snoc, position, inv.writePos, Nat.mod_add_mod, Nat.add_assoc]
  case holds =>
    have images_snoc : images (unread ++ [packet]) = images unread ++ packet.image := by
      simp [images]
    rw [images_snoc, holds_append, images_length, ← holds_mod (s.readPos + _),
      ← inv.writePos]
    exact ⟨inv.holds, after⟩
  case ee => trivial
  case gs =>
    have gs := inv.gs
    unfold GsInv at *
    cases phase : s.gs with
    | idle => trivial
    | fetch tag data =>
        rw [phase] at gs
        obtain ⟨first, rest, unread, facts⟩ := gs
        exact ⟨first, rest ++ [packet], by rw [unread, List.cons_append], facts⟩

theorem inv_take (work : s.readPos ≠ s.writePos) :
    Inv { s with gs := .fetch (slot s.mem s.readPos) [] } unread := by
  have pending : unread ≠ [] := by
    intro empty
    have position := inv.writePos
    rw [occupied_eq_zero.2 empty, Nat.add_zero, Nat.mod_eq_of_lt inv.readPos_lt] at position
    exact work position.symm
  obtain ⟨packet, rest, rfl⟩ := List.exists_cons_of_ne_nil pending
  have tag := inv.holds 0 (by simp [images, Packet.image])
  simp only [images, List.flatMap_cons, Packet.image, List.cons_append,
    List.getElem_cons_zero, Nat.add_zero, Nat.mod_eq_of_lt inv.readPos_lt] at tag
  exact { inv with
    gs := ⟨packet, rest, rfl, slot_word_zero tag packet.tagWords_length_le, List.nil_prefix⟩ }

theorem Inv.payload_slot {packet : Packet} {rest : List Packet} (first : unread = packet :: rest)
    {k : Nat} (lt : k < packet.payload.length) :
    slot s.mem ((s.readPos + 1 + k) % RingBufferSize) = packet.payload[k] := by
  have holds := inv.holds
  rw [first, images, List.flatMap_cons, holds_append] at holds
  have cell := holds.1 (k + 1) (by simp [Packet.size]; omega)
  simp only [Packet.image, List.getElem_cons_succ, List.getElem_map] at cell
  apply words_injective
  rw [← cell, Nat.add_assoc, Nat.add_comm 1 k]
  rfl

theorem inv_read {tag : U128} {data : List U128} (fetching : s.gs = .fetch tag data)
    (more : data.length + 1 < ringposinc tag) :
    Inv { s with
      gs := .fetch tag (data ++ [slot s.mem ((s.readPos + 1 + data.length) &&& RingBufferMask)]) }
      unread := by
  have gs := inv.gs
  simp only [GsInv, fetching] at gs
  obtain ⟨packet, rest, first, taken, before⟩ := gs
  have valid := inv.valid packet (by simp [first])
  have lt : data.length < packet.payload.length := by
    rw [(packet_tag valid taken).1, Packet.size] at more
    omega
  refine { inv with gs := ⟨packet, rest, first, taken, ?_⟩ }
  rw [and_RingBufferMask, inv.payload_slot first lt]
  obtain ⟨after, whole⟩ := before
  rw [List.prefix_iff_eq_take, List.length_append, List.length_singleton,
    List.take_add_one, List.getElem?_eq_getElem lt]
  congr 1
  rw [← whole, List.take_left]

theorem inv_finish {tag : U128} {data : List U128} (fetching : s.gs = .fetch tag data)
    (complete : data.length + 1 = ringposinc tag) :
    Inv { s with
      readPos := (s.readPos + ringposinc tag) &&& RingBufferMask
      gs := .idle
      received := s.received ++ [receive tag data] } unread.tail := by
  have gs := inv.gs
  simp only [GsInv, fetching] at gs
  obtain ⟨packet, rest, rfl, taken, before⟩ := gs
  obtain ⟨done, sent, received⟩ := inv.order
  obtain ⟨advance, seen⟩ := packet_tag (inv.valid packet List.mem_cons_self) taken
  obtain rfl : data = packet.payload := before.eq_of_length (by
    rw [advance, Packet.size] at complete
    omega)
  have room := inv.room
  have position := inv.writePos
  have holds := inv.holds
  rw [images, List.flatMap_cons, holds_append, Packet.image_length] at holds
  rw [occupied_cons] at room position
  rw [List.tail_cons]
  constructor
  case readPos_lt =>
    rw [and_RingBufferMask]
    exact Nat.mod_lt _ (by decide)
  case order =>
    refine ⟨done ++ [packet], ?_, ?_⟩
    · simp only [sent, List.append_assoc, List.singleton_append]
    · simp only [received, seen, List.map_append, List.map_cons, List.map_nil]
  case valid => exact fun p member => inv.valid p (List.mem_cons_of_mem _ member)
  case room => omega
  case writePos => simp only [and_RingBufferMask, advance, position, Nat.mod_add_mod, Nat.add_assoc]
  case holds =>
    simp only [and_RingBufferMask, advance]
    exact (holds_mod _).2 holds.2
  case ee =>
    have ee := inv.ee
    unfold EeInv at *
    cases phase : s.ee with
    | idle => trivial
    | stall p => rwa [phase] at ee
    | copy p pending newWritePos =>
        rw [phase] at ee
        obtain ⟨valid, used, facts⟩ := ee
        rw [occupied_cons] at used
        exact ⟨valid, by omega, facts⟩
  case gs => trivial

end

theorem inv_step {s t : State} (inv : ∃ unread, Inv s unread) (step : Step s t) :
    ∃ unread, Inv t unread := by
  obtain ⟨unread, inv⟩ := inv
  cases step with
  | call packet idle valid => exact ⟨unread, { inv with ee := valid }⟩
  | proceed stalled room => exact ⟨unread, inv_proceed inv stalled room⟩
  | store copying => exact ⟨unread, inv_store inv copying⟩
  | publish copied => exact ⟨_, inv_publish inv copied⟩
  | take idle work => exact ⟨unread, inv_take inv work⟩
  | read fetching more => exact ⟨unread, inv_read inv fetching more⟩
  | finish fetching complete => exact ⟨_, inv_finish inv fetching complete⟩

/-! ## Safety of every run -/

def State.pending (s : State) : Stores :=
  match s.ee with
  | .copy _ pending _ => pending
  | _ => []

structure RingSafe (s : State) : Prop where
  /-- What was received is what was sent, in order and unmodified; the rest is unread. -/
  fifo : s.sent.map Packet.view = s.received ++ s.unread.map Packet.view
  used : subU32 s.writePos s.readPos % RingBufferSize = (s.unread.map Packet.size).sum
  bound : (s.unread.map Packet.size).sum ≤ RingBufferSize - 1
  /-- The slots of unread packets hold their words, and no pending store is to one of them. -/
  holds : Holds s.mem s.readPos (s.unread.flatMap Packet.image)
  apart : ∀ st ∈ s.pending, ∀ k < (s.unread.map Packet.size).sum,
    st.1 / 4 ≠ (s.readPos + k) % RingBufferSize
  empty : s.readPos = s.writePos ↔ s.unread = []

theorem Inv.used {s : State} {unread : List Packet} (inv : Inv s unread) :
    subU32 s.writePos s.readPos % RingBufferSize = occupied unread := by
  have readPos := inv.readPos_lt
  have room := inv.room
  rw [inv.writePos]
  unfold subU32
  simp only [RingBufferSize_eq] at *
  omega

theorem Inv.ringSafe {s : State} {unread : List Packet} (inv : Inv s unread) : RingSafe s := by
  obtain rfl := inv.unread_eq
  constructor
  case fifo =>
    obtain ⟨done, sent, received⟩ := inv.order
    rw [received, ← List.map_append, ← sent]
  case used => exact inv.used
  case bound => exact Nat.le_sub_one_of_lt inv.room
  case holds => exact inv.holds
  case apart =>
    have ee := inv.ee
    unfold EeInv at ee
    unfold State.pending
    split
    · rename_i packet pending newWritePos copying
      rw [copying] at ee
      obtain ⟨valid, room, position, own, after⟩ := ee
      intro st member k lt
      obtain ⟨i, inside, equal⟩ := own st member
      rw [equal]
      exact inv.apart room inside lt
    · intro st member
      exact absurd member List.not_mem_nil
  case empty =>
    rw [← occupied_eq_zero, ← inv.used]
    have := inv.readPos_lt
    have := inv.writePos_lt
    unfold subU32
    simp only [RingBufferSize_eq] at *
    omega

end Pcsx2.Mtgs
