import Pcsx2.Foundation.Run
import Pcsx2.Gif.Path

/-!
# The packet buffer between the EE and the MTGS thread

The EE thread copies packets into the buffer of a path and queues what it has parsed; the MTGS thread
reads the queued packets in order and lowers `readAmount`.
-/

namespace Pcsx2.Gif
open Foundation

/-- A `GSPacket` command, with the bytes that were copied in for it. A blank packet has no offset. -/
structure Queued where
  offset : Option Nat
  size : Nat
  bytes : List UInt8

inductive Ee where
  | idle
  /-- In `CopyGSPacketData`, before and after the overflow check. -/
  | copy (pMem : List UInt8)
  | copyWait (pMem : List UInt8)
  | execute
  /-- Between `ExecuteGSPacket` and `Gif_AddCompletedGSPacket`. -/
  | forward (gsPack : GSPacket)

/-- `copied` has the bytes of the path that are not in a queued packet, `forwarded` those of every
packet that was queued and `sent` what the MTGS thread has read for each one. -/
structure State where
  path : Path
  readAmount : Int
  queue : List Queued
  ee : Ee
  copied : List UInt8
  forwarded : List (List UInt8)
  read : List UInt8
  sent : List (List UInt8)

def State.init (buffer : Nat → UInt8) (buffSize buffSafeZone : Nat) : State :=
  { path := .init buffer buffSize buffSafeZone, readAmount := 0, queue := [], ee := .idle,
    copied := [], forwarded := [], read := [], sent := [] }

def State.base (s : State) : Nat :=
  match s.ee with
  | .forward gsPack => gsPack.offset
  | _ => s.path.gsPack.offset

/-! ## Waiting for the MTGS thread -/

/-- The loop in `RealignPacket` ends. -/
def State.canRealign (s : State) : Prop :=
  let offset := s.path.curOffset - s.path.gsPack.size
  let sizeToAdd := s.path.curSize - offset
  let intersect : Nat := sizeToAdd - offset
  (sizeToAdd : Int) - intersect ≤ offset - s.readAmount

/-- The loop in `CopyGSPacketData` ends. -/
def State.canCopy (s : State) (size : Nat) : Prop :=
  let readPos := ((s.path.curOffset - s.path.gsPack.size : Nat) : Int) - s.readAmount
  0 ≤ readPos ∨ (s.path.curSize : Int) + size < s.path.buffLimit + readPos

def State.addGSPacket (s : State) (offset : Option Nat) (size : Nat) (bytes : List UInt8) : State :=
  { s with readAmount := s.readAmount + size, queue := s.queue ++ [⟨offset, size, bytes⟩] }

/-- The rest of `RealignPacket`. -/
def State.realignPacket (s : State) : State :=
  let offset := s.path.curOffset - s.path.gsPack.size
  let s := if offset < s.path.buffLimit then s.addGSPacket none (s.path.buffLimit - offset) [] else s
  { s with path := s.path.realignPacket }

/-- `Gif_AddCompletedGSPacket` -/
def State.addCompletedGSPacket (s : State) (gsPack : GSPacket) : State :=
  let bytes := s.copied.take gsPack.size
  { s.addGSPacket (some gsPack.offset) gsPack.size bytes with
    copied := s.copied.drop gsPack.size, forwarded := s.forwarded ++ [bytes] }

/-- A turn of the loop in `ExecuteGSPacket`. -/
def State.turn (s : State) (stat : GifStat) (pending : List (List UInt8) → Bool) : State :=
  match (s.path.turn stat pending []).1 with
  | .starved path => { s with path, ee := .idle }
  | .next path => { s with path }
  | .complete path gsPack =>
    { s with
      path, ee := .forward gsPack, copied := s.copied.take (path.curSize - s.path.gsPack.offset) }

/-- `FlushToMTGS` for a path whose data is all parsed. -/
def State.flush (s : State) : State :=
  let t := s.addCompletedGSPacket s.path.gsPack
  { t with
    path := { s.path with gsPack := { s.path.gsPack with offset := s.path.curOffset, size := 0 } }
    ee := .idle }

def State.slice (s : State) : State :=
  let subOffset := if s.path.gifTag.isValid then 16 else 0
  let t := s.addCompletedGSPacket { s.path.gsPack with size := s.path.gsPack.size - subOffset }
  let curOffset := s.path.curOffset - subOffset
  { t with
    path := { s.path with
      curOffset, gsPack := ⟨curOffset, 0, 0⟩, gifTag := { s.path.gifTag with isValid := false } }
    ee := .idle }

inductive Event where
  | copy (pMem : List UInt8)
  | other

/-- Steps of the EE thread, then those of the MTGS thread. -/
inductive Step : Event → State → State → Prop
  | call {s pMem} (idle : s.ee = .idle) : Step (.copy pMem) s { s with ee := .copy pMem }
  | overflow {s pMem} (atCopy : s.ee = .copy pMem)
      (full : s.path.buffSize < s.path.curSize + pMem.length) (free : s.canRealign) :
      Step .other s { s.realignPacket with ee := .copyWait pMem }
  | room {s pMem} (atCopy : s.ee = .copy pMem)
      (room : s.path.curSize + pMem.length ≤ s.path.buffSize) :
      Step .other s { s with ee := .copyWait pMem }
  | copy {s pMem} (atWait : s.ee = .copyWait pMem) (free : s.canCopy pMem.length) :
      Step .other s { s with path := s.path.append pMem, ee := .idle, copied := s.copied ++ pMem }
  | execute {s} (idle : s.ee = .idle) : Step .other s { s with ee := .execute }
  | realign {s} (atLoop : s.ee = .execute) (needed : s.path.needsRealign) (free : s.canRealign) :
      Step .other s s.realignPacket
  | turn {s} (stat : GifStat) (pending : List (List UInt8) → Bool) (atLoop : s.ee = .execute)
      (ready : ¬s.path.needsRealign) : Step .other s (s.turn stat pending)
  | forward {s gsPack} (complete : s.ee = .forward gsPack) :
      Step .other s { s.addCompletedGSPacket gsPack with ee := .idle }
  | flush {s} (idle : s.ee = .idle) (some : s.path.gsPack.size ≠ 0)
      (stopped : s.path.gifTag.isValid = false) : Step .other s s.flush
  | slice {s} (idle : s.ee = .idle) (image : s.path.state = .image) (some : 16 < s.path.gsPack.size) :
      Step .other s s.slice
  | read {s q rest offset} (first : s.queue = q :: rest) (real : q.offset = some offset)
      (more : s.read.length < q.size) :
      Step .other s { s with read := s.read ++ [s.path.buffer (offset + s.read.length)] }
  | sent {s q rest offset} (first : s.queue = q :: rest) (real : q.offset = some offset)
      (all : s.read.length = q.size) :
      Step .other s { s with
        queue := rest, readAmount := s.readAmount - q.size, read := [], sent := s.sent ++ [s.read] }
  | blank {s q rest} (first : s.queue = q :: rest) (blank : q.offset = none) :
      Step .other s { s with queue := rest, readAmount := s.readAmount - q.size }

/-- The queued packets and the packet being assembled are in the buffer as they were copied, and the
MTGS thread has read the first packets as they were copied. -/
structure Intact (s : State) : Prop where
  queued : ∀ q ∈ s.queue, ∀ offset, q.offset = some offset →
    load s.path.buffer offset q.size = q.bytes
  current : load s.path.buffer s.base (s.path.curSize - s.base) = s.copied
  received : s.forwarded = s.sent ++ (s.queue.filter (·.offset.isSome)).map (·.bytes)
  size : s.path.curSize ≤ s.path.buffSize

/-- With what the path has from the start of the packet on, a chunk fits in the buffer. -/
def Orderly (s : State) : Event → Prop
  | .copy pMem => s.path.curSize - s.path.gsPack.offset + pMem.length ≤ s.path.buffSize
  | .other => True

def OrderlyStep (s t : State) : Prop := ∃ event, Orderly s event ∧ Step event s t

def AnyStep (s t : State) : Prop := ∃ event, Step event s t ∧ ∀ pMem, event = .copy pMem →
  pMem.length % 16 = 0 ∧ s.path.gsPack.size + pMem.length ≤ s.path.buffSize - s.path.buffLimit

/-! ## Packets one after the other -/

/-- The packets lie one after the other from `a` to `b`. Blank ones have a place too. -/
def Placed : Nat → List Queued → Nat → Prop
  | a, [], b => a = b
  | a, q :: rest, b => (∀ offset, q.offset = some offset → offset = a) ∧ 0 < q.size ∧
      Placed (a + q.size) rest b

def total (queue : List Queued) : Nat := (queue.map (·.size)).sum

theorem placed_append {a c : Nat} {xs ys : List Queued} :
    Placed a (xs ++ ys) c ↔ ∃ b, Placed a xs b ∧ Placed b ys c := by
  induction xs generalizing a with
  | nil => exact ⟨fun placed => ⟨a, rfl, placed⟩, fun ⟨_, same, placed⟩ => same ▸ placed⟩
  | cons q xs ih =>
      rw [List.cons_append, Placed, ih]
      constructor
      · rintro ⟨here, some, b, left, right⟩
        exact ⟨b, ⟨here, some, left⟩, right⟩
      · rintro ⟨b, ⟨here, some, left⟩, right⟩
        exact ⟨here, some, b, left, right⟩

theorem placed_total {a b : Nat} {xs : List Queued} (placed : Placed a xs b) : a + total xs = b := by
  induction xs generalizing a with
  | nil => exact placed
  | cons q xs ih =>
      rw [← ih placed.2.2, total, List.map_cons, List.sum_cons, total]
      omega

theorem placed_bounds {a b offset : Nat} {xs : List Queued} {q : Queued} (placed : Placed a xs b)
    (mem : q ∈ xs) (real : q.offset = some offset) : a ≤ offset ∧ offset + q.size ≤ b := by
  induction xs generalizing a with
  | nil => exact absurd mem List.not_mem_nil
  | cons r xs ih =>
      obtain ⟨here, -, rest⟩ := placed
      rcases List.mem_cons.mp mem with rfl | later
      · have := here offset real
        have := placed_total rest
        omega
      · have := ih rest later
        omega

theorem total_append (xs ys : List Queued) : total (xs ++ ys) = total xs + total ys := by
  simp [total]

theorem total_pos {a b : Nat} {q : Queued} {xs : List Queued} (placed : Placed a (q :: xs) b) :
    0 < total (q :: xs) := by
  have := placed.2.1
  simp only [total, List.map_cons, List.sum_cons]
  omega

/-! ## The invariant -/

/-- The packets in the queue from before the last move to the front, and those after it. The older
ones end at `buffLimit` or behind it, and the data in front does not reach them. -/
structure Laps (path : Path) (base : Nat) (old new : List Queued) : Prop where
  before : ∃ a b, Placed a old b ∧ path.buffLimit ≤ b
  after : ∃ a, Placed a new base ∧ (old ≠ [] → a = 0)
  clear : ∀ q ∈ old, ∀ offset, q.offset = some offset → path.curSize ≤ offset

def EeOk (s : State) : Prop :=
  match s.ee with
  | .copy pMem => s.path.curSize - s.path.gsPack.offset + pMem.length ≤ s.path.buffSize
  | .copyWait pMem => s.path.curSize + pMem.length ≤ s.path.buffSize
  | .forward gsPack => gsPack.offset + gsPack.size = s.path.curOffset ∧ 0 < gsPack.size ∧
      s.path.gsPack.size = 0
  | _ => True

def firstBytes : List Queued → List UInt8
  | [] => []
  | q :: _ => q.bytes

structure Inv (s : State) : Prop where
  valid : s.path.Valid
  ee : EeOk s
  laps : ∃ old new, s.queue = old ++ new ∧ Laps s.path s.base old new
  readAmount : s.readAmount = total s.queue
  read : s.read = (firstBytes s.queue).take s.read.length
  length : ∀ q ∈ s.queue, q.bytes.length = if q.offset.isSome then q.size else 0
  intact : Intact s

theorem inv_init (buffer : Nat → UInt8) (buffSize buffSafeZone : Nat) :
    Inv (.init buffer buffSize buffSafeZone) where
  valid := ⟨rfl, Nat.le_refl _, fun no => absurd no (by simp [State.init, Path.init, GifTag.reset])⟩
  ee := trivial
  laps := ⟨[], [], rfl, ⟨_, _, rfl, Nat.le_refl _⟩, ⟨_, rfl, fun some => absurd rfl some⟩, by simp⟩
  readAmount := rfl
  read := rfl
  length := by simp [State.init]
  intact := ⟨by simp [State.init], rfl, rfl, Nat.zero_le _⟩

section

variable {s : State} {path : Path} {base : Nat} {old new : List Queued}

theorem Laps.tail {q : Queued} {rest : List Queued} (laps : Laps path base old new)
    (split : q :: rest = old ++ new) : ∃ old new, rest = old ++ new ∧ Laps path base old new := by
  obtain ⟨⟨a, b, placed, limit⟩, ⟨c, after, zero⟩, clear⟩ := laps
  cases old with
  | nil =>
      rw [List.nil_append] at split
      subst split
      exact ⟨[], rest, rfl, ⟨a, b, placed, limit⟩, ⟨_, after.2.2, fun some => absurd rfl some⟩,
        clear⟩
  | cons p old =>
      obtain ⟨rfl, rfl⟩ := List.cons.inj split
      exact ⟨old, new, rfl, ⟨_, b, placed.2.2, limit⟩, ⟨c, after, fun _ => zero (by simp)⟩,
        fun r mem => clear r (List.mem_cons_of_mem _ mem)⟩

theorem Laps.push {n : Nat} {bytes : List UInt8} (laps : Laps path base old new) (more : 0 < n) :
    Laps path (base + n) old (new ++ [⟨some base, n, bytes⟩]) := by
  obtain ⟨before, ⟨c, after, zero⟩, clear⟩ := laps
  refine ⟨before, ⟨c, placed_append.mpr ⟨base, after, ?_, more, rfl⟩, zero⟩, clear⟩
  intro offset same
  exact (Option.some.inj same).symm

theorem Laps.old_nil (laps : Laps path base old new) (few : total (old ++ new) ≤ base) : old = [] := by
  obtain ⟨⟨a, b, placed, -⟩, ⟨c, after, zero⟩, -⟩ := laps
  cases old with
  | nil => rfl
  | cons q old =>
      have := placed_total after
      have := zero (by simp)
      have := total_pos placed
      rw [total_append] at few
      omega

/-! ## Steps of the MTGS thread -/

theorem Inv.pop {q : Queued} {rest : List Queued} (inv : Inv s) (first : s.queue = q :: rest)
    (sent : List (List UInt8))
    (received : s.forwarded = sent ++ (rest.filter (·.offset.isSome)).map (·.bytes)) :
    Inv { s with queue := rest, readAmount := s.readAmount - q.size, read := [], sent } := by
  obtain ⟨old, new, split, laps⟩ := inv.laps
  have later {r : Queued} (mem : r ∈ rest) : r ∈ s.queue := first ▸ List.mem_cons_of_mem _ mem
  refine ⟨inv.valid, inv.ee, laps.tail (first ▸ split), ?_, rfl, fun r mem => inv.length r (later mem),
    ⟨fun r mem => inv.intact.queued r (later mem), inv.intact.current, received, inv.intact.size⟩⟩
  have := inv.readAmount
  rw [first] at this
  simp only [this, total, List.map_cons, List.sum_cons]
  omega

theorem Inv.read_step {q : Queued} {rest : List Queued} {offset : Nat} (inv : Inv s)
    (first : s.queue = q :: rest) (real : q.offset = some offset) (more : s.read.length < q.size) :
    Inv { s with read := s.read ++ [s.path.buffer (offset + s.read.length)] } := by
  refine ⟨inv.valid, inv.ee, inv.laps, inv.readAmount, ?_, inv.length,
    ⟨inv.intact.queued, inv.intact.current, inv.intact.received, inv.intact.size⟩⟩
  have bytes := inv.intact.queued q (first ▸ List.mem_cons_self) offset real
  have now := inv.read
  rw [first, firstBytes, ← bytes, load_take (by omega)] at now
  rw [first, firstBytes, ← bytes, load_take (by rw [List.length_append]; exact more),
    List.length_append, List.length_singleton, load_succ, ← now]

theorem Inv.sent {q : Queued} {rest : List Queued} {offset : Nat} (inv : Inv s)
    (first : s.queue = q :: rest) (real : q.offset = some offset) (all : s.read.length = q.size) :
    Inv { s with
      queue := rest, readAmount := s.readAmount - q.size, read := [], sent := s.sent ++ [s.read] } := by
  refine inv.pop first _ ?_
  have length := inv.length q (first ▸ List.mem_cons_self)
  have now := inv.read
  rw [real, Option.isSome_some, if_pos rfl] at length
  rw [first, firstBytes, all, ← length, List.take_length] at now
  rw [inv.intact.received, first, now, List.append_assoc]
  simp [real]

theorem Inv.blank {q : Queued} {rest : List Queued} (inv : Inv s) (first : s.queue = q :: rest)
    (blank : q.offset = none) :
    Inv { s with queue := rest, readAmount := s.readAmount - q.size } := by
  have length := inv.length q (first ▸ List.mem_cons_self)
  have now := inv.read
  rw [blank, Option.isSome_none, if_neg Bool.false_ne_true] at length
  rw [first, firstBytes, List.length_eq_zero_iff.mp length, List.take_nil] at now
  have popped := inv.pop first s.sent (by rw [inv.intact.received, first]; simp [blank])
  rwa [← now] at popped

/-! ## Steps of the EE thread -/

theorem Path.Valid.start (valid : path.Valid) : path.curOffset - path.gsPack.size = path.gsPack.offset := by
  have := valid.offset
  omega

theorem Inv.forward {gsPack : GSPacket} (inv : Inv s) (path : Path) (start : gsPack.offset = s.base)
    (more : 0 < gsPack.size) (fits : s.base + gsPack.size ≤ s.path.curSize) (valid : path.Valid)
    (buffer : path.buffer = s.path.buffer) (curSize : path.curSize = s.path.curSize)
    (buffSize : path.buffSize = s.path.buffSize) (buffLimit : path.buffLimit = s.path.buffLimit)
    (next : path.gsPack.offset = s.base + gsPack.size) :
    Inv { s.addCompletedGSPacket gsPack with path, ee := .idle } := by
  obtain ⟨old, new, split, laps⟩ := inv.laps
  have halves : s.copied = load s.path.buffer s.base gsPack.size ++
      load s.path.buffer (s.base + gsPack.size) (s.path.curSize - (s.base + gsPack.size)) := by
    rw [← inv.intact.current, ← load_add]
    congr 1
    omega
  have bytes : s.copied.take gsPack.size = load s.path.buffer s.base gsPack.size := by
    rw [halves, List.take_left' (load_length _ _ _)]
  have rest : s.copied.drop gsPack.size =
      load s.path.buffer (s.base + gsPack.size) (s.path.curSize - (s.base + gsPack.size)) := by
    rw [halves, List.drop_left' (load_length _ _ _)]
  refine ⟨valid, trivial, ?_, ?_, ?_, ?_, ?_⟩
  · refine ⟨old, new ++ [⟨some s.base, gsPack.size, s.copied.take gsPack.size⟩], ?_, ?_⟩
    · simp only [State.addCompletedGSPacket, State.addGSPacket, split, start, List.append_assoc]
    · obtain ⟨before, after, clear⟩ := laps.push more
      refine ⟨buffLimit ▸ before, ?_, curSize ▸ clear⟩
      simpa only [State.base, next] using after
  · simp only [State.addCompletedGSPacket, State.addGSPacket, total_append, inv.readAmount]
    simp [total]
  · have now := inv.read
    simp only [State.addCompletedGSPacket, State.addGSPacket]
    cases atQueue : s.queue with
    | nil =>
        rw [atQueue, firstBytes, List.take_nil] at now
        rw [now]
        rfl
    | cons q queue =>
        rw [atQueue] at now
        exact now
  · intro q mem
    rcases List.mem_append.mp mem with old | new
    · exact inv.length q old
    · rw [List.mem_singleton.mp new, bytes]
      simp
  · refine ⟨fun q mem offset real => ?_, ?_, ?_, ?_⟩
    · dsimp only
      rw [buffer]
      rcases List.mem_append.mp mem with old | new
      · exact inv.intact.queued q old offset real
      · rw [List.mem_singleton.mp new] at real ⊢
        rw [← Option.some.inj real, bytes, start]
    · simp only [State.base, next, buffer, curSize, State.addCompletedGSPacket]
      exact rest.symm
    · simp only [State.addCompletedGSPacket, State.addGSPacket, inv.intact.received]
      simp
    · dsimp only
      rw [curSize, buffSize]
      exact inv.intact.size

/-- The blank packet of `RealignPacket`. -/
def blanks (path : Path) : List Queued :=
  if path.gsPack.offset < path.buffLimit then
    [⟨none, path.buffLimit - path.gsPack.offset, []⟩]
  else []

theorem realignPacket_eq (valid : s.path.Valid) : s.realignPacket =
    { s with
      readAmount := s.readAmount + total (blanks s.path), queue := s.queue ++ blanks s.path
      path := s.path.realignPacket } := by
  unfold State.realignPacket blanks
  rw [valid.start]
  dsimp only
  split
  · simp [State.addGSPacket, total]
  · simp [total]

theorem placed_blanks (path : Path) :
    Placed path.gsPack.offset (blanks path) (max path.gsPack.offset path.buffLimit) := by
  unfold blanks
  split
  · exact ⟨fun _ no => absurd no (by simp), by dsimp only; omega, by simp only [Placed]; omega⟩
  · simp only [Placed]
    omega

theorem mem_blanks {q : Queued} (mem : q ∈ blanks path) : q.offset = none ∧ q.bytes = [] := by
  unfold blanks at mem
  split at mem
  · rw [List.mem_singleton.mp mem]
    exact ⟨rfl, rfl⟩
  · exact absurd mem List.not_mem_nil

theorem Inv.realign (inv : Inv s) (ee : Ee) (base : s.base = s.path.gsPack.offset)
    (free : s.canRealign) (start : State.base { s.realignPacket with ee } = 0)
    (ok : EeOk { s.realignPacket with ee }) : Inv { s.realignPacket with ee } := by
  obtain ⟨old, new, split, laps⟩ := inv.laps
  have amount := inv.readAmount
  have within := inv.valid.within
  have offset := inv.valid.offset
  unfold State.canRealign at free
  rw [inv.valid.start, amount] at free
  dsimp only at free
  have old_nil := laps.old_nil (by rw [← split, base]; omega)
  subst old_nil
  rw [List.nil_append] at split
  subst split
  obtain ⟨a, after, -⟩ := laps.after
  rw [base] at after
  have ends := placed_total after
  have apart {q : Queued} {o : Nat} (mem : q ∈ s.queue) (real : q.offset = some o) :
      s.path.curSize - s.path.gsPack.offset ≤ o := by
    have := placed_bounds after mem real
    have : 0 < total s.queue := by
      cases atQueue : s.queue with
      | nil => simp [atQueue] at mem
      | cons => rw [atQueue] at after; exact total_pos after
    omega
  have moved : (s.path.realignPacket).buffer = perform s.path.buffer (blockStores 0
      (load s.path.buffer s.path.gsPack.offset (s.path.curSize - s.path.gsPack.offset))) := by
    simp only [Path.realignPacket, inv.valid.start]
  have size : s.path.realignPacket.curSize = s.path.curSize - s.path.gsPack.offset := by
    simp only [Path.realignPacket, inv.valid.start]
  rw [realignPacket_eq inv.valid] at start ok ⊢
  refine ⟨⟨Nat.zero_add _, ?_, inv.valid.tag⟩, ok, ?_, ?_, ?_, ?_, ?_⟩
  · dsimp only
    rw [size]
    simp only [Path.realignPacket]
    omega
  · refine ⟨s.queue ++ blanks s.path, [], (List.append_nil _).symm, ⟨a, _, placed_append.mpr
      ⟨_, after, placed_blanks s.path⟩, Nat.le_max_right _ _⟩, ⟨0, start.symm, fun _ => rfl⟩, ?_⟩
    intro q mem o real
    dsimp only
    rw [size]
    rcases List.mem_append.mp mem with queued | blank
    · exact apart queued real
    · exact absurd ((mem_blanks blank).1.symm.trans real) (by simp)
  · dsimp only
    rw [amount, total_append]
    push_cast
    rfl
  · have now := inv.read
    dsimp only
    cases atQueue : s.queue with
    | nil =>
        rw [atQueue, firstBytes, List.take_nil] at now
        rw [now]
        rfl
    | cons q queue =>
        rw [atQueue] at now
        exact now
  · intro q mem
    rcases List.mem_append.mp mem with queued | blank
    · exact inv.length q queued
    · rw [(mem_blanks blank).1, (mem_blanks blank).2]
      rfl
  · refine ⟨fun q mem o real => ?_, ?_, ?_, ?_⟩
    · rcases List.mem_append.mp mem with queued | blank
      · dsimp only
        rw [moved, load_perform_disjoint, inv.intact.queued q queued o real]
        intro store stored
        have bounds := blockStores_bounds stored
        have := apart queued real
        rw [load_length] at bounds
        omega
      · exact absurd ((mem_blanks blank).1.symm.trans real) (by simp)
    · rw [start]
      dsimp only
      rw [size, moved, Nat.sub_zero, ← inv.intact.current, base]
      have back := load_perform_block s.path.buffer 0
        (load s.path.buffer s.path.gsPack.offset (s.path.curSize - s.path.gsPack.offset))
      rwa [load_length] at back
    · dsimp only
      have none : (blanks s.path).filter (·.offset.isSome) = [] :=
        List.filter_eq_nil_iff.mpr fun q mem => by rw [(mem_blanks mem).1]; simp
      rw [List.filter_append, none, List.append_nil]
      exact inv.intact.received
    · have := inv.intact.size
      dsimp only
      rw [size]
      simp only [Path.realignPacket]
      omega

theorem Inv.append {pMem : List UInt8} (inv : Inv s) (atWait : s.ee = .copyWait pMem)
    (free : s.canCopy pMem.length) :
    Inv { s with path := s.path.append pMem, ee := .idle, copied := s.copied ++ pMem } := by
  obtain ⟨old, new, split, laps⟩ := inv.laps
  have amount := inv.readAmount
  have within := inv.valid.within
  have offset := inv.valid.offset
  have ee := inv.ee
  have base : s.base = s.path.gsPack.offset := by simp only [State.base, atWait]
  simp only [EeOk, atWait] at ee
  unfold State.canCopy at free
  rw [inv.valid.start, amount] at free
  dsimp only at free
  have apart {q : Queued} {o : Nat} (mem : q ∈ old) (real : q.offset = some o) :
      s.path.curSize + pMem.length ≤ o := by
    obtain ⟨a, b, before, limit⟩ := laps.before
    obtain ⟨c, after, zero⟩ := laps.after
    have := zero (List.ne_nil_of_mem mem)
    have := placed_bounds before mem real
    have := placed_total before
    have := placed_total after
    rw [split, total_append] at free
    have : 0 < total old := by
      cases old with
      | nil => exact absurd mem List.not_mem_nil
      | cons => exact total_pos before
    omega
  refine ⟨⟨offset, by simp only [Path.append]; omega, inv.valid.tag⟩, trivial, ?_, amount, inv.read,
    inv.length, ?_, ?_, inv.intact.received, ee⟩
  · have after := laps.after
    rw [base] at after
    exact ⟨old, new, split, laps.before, after, fun q mem o real => apart mem real⟩
  · intro q mem o real
    dsimp only [Path.append]
    rw [load_perform_disjoint, inv.intact.queued q mem o real]
    intro store stored
    have bounds := blockStores_bounds stored
    rw [split] at mem
    rcases List.mem_append.mp mem with before | after
    · have := apart before real
      omega
    · obtain ⟨c, placed, -⟩ := laps.after
      have := placed_bounds placed after real
      omega
  · have current := inv.intact.current
    have length : s.path.curSize + pMem.length - s.path.gsPack.offset =
        s.path.curSize - s.path.gsPack.offset + pMem.length := by omega
    have front : s.path.gsPack.offset + (s.path.curSize - s.path.gsPack.offset) = s.path.curSize := by
      omega
    simp only [State.base, Path.append]
    rw [length, load_add, front, load_perform_block, load_perform_disjoint, ← base, current]
    intro store stored
    have := blockStores_bounds stored
    omega

theorem Inv.turn {stat : GifStat} {pending : List (List UInt8) → Bool} (inv : Inv s)
    (atLoop : s.ee = .execute) : Inv (s.turn stat pending) := by
  have spec := turn_spec stat pending [] inv.valid
  have base : s.base = s.path.gsPack.offset := by simp only [State.base, atLoop]
  obtain ⟨old, new, split, laps⟩ := inv.laps
  have intact := inv.intact
  have goOn {q : Path} (ee : Ee) (next : Turn.Next s.path q) (start : State.base { s with path := q, ee } =
      q.gsPack.offset) (ok : EeOk { s with path := q, ee }) : Inv { s with path := q, ee } := by
    obtain ⟨advances, valid⟩ := next
    have same := advances.offset
    refine ⟨valid, ok, ⟨old, new, split, ?_, ?_, ?_⟩, inv.readAmount, inv.read, inv.length,
      ⟨?_, ?_, intact.received, ?_⟩⟩
    · exact advances.buffLimit ▸ laps.before
    · rw [start, same, ← base]
      exact laps.after
    · exact advances.curSize ▸ laps.clear
    · exact advances.buffer ▸ intact.queued
    · rw [start, same, ← base]
      exact advances.buffer ▸ advances.curSize ▸ intact.current
    · exact advances.buffSize ▸ advances.curSize ▸ intact.size
  unfold State.turn
  generalize (s.path.turn stat pending []).1 = result at spec
  cases result with
  | starved q => exact goOn .idle spec rfl trivial
  | next q =>
      have := goOn s.ee spec (by simp only [State.base, atLoop]) (by simp only [EeOk, atLoop])
      exact this
  | complete q gsPack =>
      have within := spec.curSize
      have start := spec.offset
      refine ⟨spec.valid, ⟨spec.size, by have := spec.some; omega, spec.fresh⟩,
        ⟨old, new, split, ?_, ?_, ?_⟩, inv.readAmount, inv.read, inv.length,
        ⟨?_, ?_, intact.received, ?_⟩⟩
      · exact spec.buffLimit ▸ laps.before
      · simp only [State.base]
        rw [start, ← base]
        exact laps.after
      · intro r mem o real
        exact Nat.le_trans within (laps.clear r mem o real)
      · exact spec.buffer ▸ intact.queued
      · simp only [State.base]
        rw [start, spec.buffer, ← base, ← intact.current, load_take (by omega)]
      · have := intact.size
        dsimp only
        rw [spec.buffSize]
        omega

theorem Inv.withEe {ee : Ee} (inv : Inv s) (base : State.base { s with ee } = s.base)
    (ok : EeOk { s with ee }) : Inv { s with ee } := by
  obtain ⟨old, new, split, laps⟩ := inv.laps
  refine ⟨inv.valid, ok, ⟨old, new, split, laps.before, ?_, laps.clear⟩, inv.readAmount, inv.read,
    inv.length, ⟨inv.intact.queued, ?_, inv.intact.received, inv.intact.size⟩⟩
  · rw [base]
    exact laps.after
  · rw [base]
    exact inv.intact.current

theorem Inv.slice (inv : Inv s) (idle : s.ee = .idle) (more : 16 < s.path.gsPack.size) :
    Inv s.slice := by
  have base : s.base = s.path.gsPack.offset := by simp only [State.base, idle]
  have offset := inv.valid.offset
  have within := inv.valid.within
  have sub : (if s.path.gifTag.isValid then 16 else 0) ≤ 16 := by split <;> omega
  unfold State.slice
  dsimp only
  generalize (if s.path.gifTag.isValid then 16 else 0) = subOffset at sub
  refine inv.forward _ base.symm (by dsimp only; omega) (by dsimp only; omega) ⟨rfl, ?_, ?_⟩ rfl rfl rfl
    rfl (by dsimp only; omega)
  · dsimp only
    omega
  · exact fun no => absurd no Bool.false_ne_true

theorem inv_step {t : State} {event : Event} (inv : Inv s) (orderly : Orderly s event)
    (step : Step event s t) : Inv t := by
  have offset := inv.valid.offset
  have within := inv.valid.within
  cases step with
  | call idle => exact inv.withEe (by simp only [State.base, idle]) orderly
  | @overflow _ pMem atCopy full free =>
      have fits := inv.ee
      simp only [EeOk, atCopy] at fits
      refine inv.realign _ (by simp only [State.base, atCopy]) free ?_ ?_
      · rw [realignPacket_eq inv.valid]
        rfl
      · rw [realignPacket_eq inv.valid]
        simpa only [EeOk, Path.realignPacket, inv.valid.start] using fits
  | room atCopy room => exact inv.withEe (by simp only [State.base, atCopy]) room
  | copy atWait free => exact inv.append atWait free
  | execute idle => exact inv.withEe (by simp only [State.base, idle]) trivial
  | realign atLoop needed free =>
      have moved := inv.realign s.ee (by simp only [State.base, atLoop]) free
      rw [realignPacket_eq inv.valid] at moved ⊢
      exact moved (by simp only [State.base, atLoop]; rfl) (by simp only [EeOk, atLoop])
  | turn stat pending atLoop => exact inv.turn atLoop
  | @forward _ gsPack complete =>
      have ee := inv.ee
      simp only [EeOk, complete] at ee
      have base : s.base = gsPack.offset := by simp only [State.base, complete]
      exact inv.forward s.path base.symm ee.2.1 (by omega) inv.valid rfl rfl rfl rfl (by omega)
  | flush idle some stopped =>
      have base : s.base = s.path.gsPack.offset := by simp only [State.base, idle]
      refine inv.forward _ base.symm (Nat.pos_of_ne_zero some) (by omega) ⟨rfl, within, ?_⟩ rfl rfl rfl
        rfl (by dsimp only; omega)
      exact fun isValid => absurd (stopped.symm.trans isValid) Bool.false_ne_true
  | slice idle image some => exact inv.slice idle some
  | read first real more => exact inv.read_step first real more
  | sent first real all => exact inv.sent first real all
  | blank first blank => exact inv.blank first blank

end

/-- As long as every chunk fits behind the start of the packet, the MTGS thread reads what was
copied in. -/
theorem packets_intact (buffer : Nat → UInt8) (buffSize buffSafeZone : Nat) (s : State)
    (run : Run OrderlyStep (.init buffer buffSize buffSafeZone) s) : Intact s := by
  have inv : Inv s := by
    refine Run.invariant run (inv_init buffer buffSize buffSafeZone) ?_
    rintro s t inv ⟨event, orderly, step⟩
    exact inv_step inv orderly step
  exact inv.intact

/-! ## Copies with no parsing in between -/

/-- The sizes of `Gif_Unit`. -/
def unitInit (buffer : Nat → UInt8) : State := .init buffer (9 * 2 ^ 20) (2 ^ 20 + 2 ^ 10)

def State.afterCopy (s : State) (pMem : List UInt8) : State :=
  { s with path := s.path.append pMem, ee := .idle, copied := s.copied ++ pMem }

theorem packets_intact_tag : Intact ((unitInit fun _ => 0).afterCopy eopTag) := by
  refine packets_intact (fun _ => 0) (9 * 2 ^ 20) (2 ^ 20 + 2 ^ 10) _ ?_
  let s := unitInit fun _ => 0
  have call : OrderlyStep s { s with ee := .copy eopTag } :=
    ⟨.copy eopTag, by simp only [Orderly]; decide, .call rfl⟩
  have room : OrderlyStep { s with ee := .copy eopTag } { s with ee := .copyWait eopTag } :=
    ⟨.other, trivial, .room rfl (by decide)⟩
  have copy : OrderlyStep { s with ee := .copyWait eopTag } (s.afterCopy eopTag) :=
    ⟨.other, trivial, .copy rfl (Or.inl (by decide))⟩
  exact ((Run.single call).tail room).tail copy

theorem other_step {s t : State} (step : Step .other s t) : AnyStep s t :=
  ⟨.other, step, fun _ no => absurd no (by simp)⟩

structure Unparsed (s : State) (n : Nat) : Prop where
  curSize : s.path.curSize = n
  curOffset : s.path.curOffset = 0
  gsPack : s.path.gsPack = ⟨0, 0, 0⟩
  buffSize : s.path.buffSize = 9 * 2 ^ 20
  buffLimit : s.path.buffLimit = 9 * 2 ^ 20 - (2 ^ 20 + 2 ^ 10)
  idle : s.ee = .idle
  readAmount : s.readAmount = 0
  queue : s.queue = []

section

variable {s : State} {n : Nat} {pMem : List UInt8}

theorem Unparsed.call (unparsed : Unparsed s n) (mebibyte : pMem.length = 2 ^ 20) :
    AnyStep s { s with ee := .copy pMem } := by
  refine ⟨.copy pMem, .call unparsed.idle, fun _ same => ?_⟩
  cases same
  rw [mebibyte, unparsed.gsPack, unparsed.buffSize, unparsed.buffLimit]
  decide

theorem Unparsed.copy (unparsed : Unparsed s n) (mebibyte : pMem.length = 2 ^ 20)
    (room : n + 2 ^ 20 ≤ 9 * 2 ^ 20) :
    Run AnyStep s (s.afterCopy pMem) ∧ Unparsed (s.afterCopy pMem) (n + 2 ^ 20) := by
  have fits : s.path.curSize + pMem.length ≤ s.path.buffSize := by
    rw [unparsed.curSize, mebibyte, unparsed.buffSize]
    exact room
  have free : State.canCopy { s with ee := .copyWait pMem } pMem.length := by
    refine Or.inl ?_
    dsimp only
    rw [unparsed.curOffset, unparsed.readAmount]
    simp
  have copied : AnyStep { s with ee := .copyWait pMem } (s.afterCopy pMem) :=
    other_step (.copy (s := { s with ee := .copyWait pMem }) rfl free)
  refine ⟨((Run.single (unparsed.call mebibyte)).tail (other_step (.room rfl fits))).tail copied, ?_⟩
  refine { unparsed with curSize := ?_, idle := rfl }
  simp only [State.afterCopy, Path.append]
  rw [unparsed.curSize, mebibyte]

theorem unparsed_run (buffer : Nat → UInt8) (mebibyte : pMem.length = 2 ^ 20) (few : n ≤ 9) :
    ∃ s, Run AnyStep (unitInit buffer) s ∧ Unparsed s (n * 2 ^ 20) := by
  induction n with
  | zero => exact ⟨_, .refl, rfl, rfl, rfl, rfl, rfl, rfl, rfl, rfl⟩
  | succ n ih =>
      obtain ⟨s, run, unparsed⟩ := ih (by omega)
      obtain ⟨more, next⟩ := unparsed.copy mebibyte (by omega)
      refine ⟨_, run.trans more, ?_⟩
      rw [Nat.succ_mul]
      exact next

theorem overflow_run (buffer : Nat → UInt8) (mebibyte : pMem.length = 2 ^ 20) :
    ∃ s, Run AnyStep (unitInit buffer) s ∧ ¬Intact s := by
  obtain ⟨s, run, unparsed⟩ := unparsed_run buffer mebibyte (Nat.le_refl 9)
  have offset := unparsed.curOffset
  have gsPack := unparsed.gsPack
  have limit := unparsed.buffLimit
  have overflow := other_step (.overflow (s := { s with ee := .copy pMem }) rfl
    (by dsimp only; rw [unparsed.curSize, unparsed.buffSize, mebibyte]; omega)
    (by
      unfold State.canRealign
      dsimp only
      rw [offset, gsPack, unparsed.curSize, unparsed.readAmount]
      simp))
  let moved : State := { State.realignPacket { s with ee := .copy pMem } with ee := .copyWait pMem }
  have movedQueue : moved.queue = [⟨none, s.path.buffLimit, []⟩] := by
    simp [moved, State.realignPacket, State.addGSPacket, offset, gsPack, limit, unparsed.queue]
  have movedAmount : moved.readAmount = s.path.buffLimit := by
    simp [moved, State.realignPacket, State.addGSPacket, offset, gsPack, limit, unparsed.readAmount]
  have movedPath : moved.path = s.path.realignPacket := by
    simp [moved, State.realignPacket, State.addGSPacket, offset, gsPack, limit]
  have blank := other_step (.blank (s := moved) movedQueue rfl)
  have copy := other_step (.copy (s := { moved with
    queue := [], readAmount := moved.readAmount - s.path.buffLimit }) rfl (by
      refine Or.inl ?_
      dsimp only
      rw [movedAmount, movedPath]
      simp [Path.realignPacket]))
  refine ⟨_, (((run.tail (unparsed.call mebibyte)).tail overflow).tail blank).tail copy, ?_⟩
  intro intact
  have bound := intact.size
  simp only [Path.append, movedPath, Path.realignPacket, offset, gsPack, unparsed.curSize,
    unparsed.buffSize, mebibyte] at bound
  omega

end

/-- Packets of one tag each fill the buffer when none is parsed, and go past its end. -/
theorem buffer_overflow : ¬∀ (buffer : Nat → UInt8) (s : State),
    Run AnyStep (unitInit buffer) s → Intact s := by
  intro all
  have mebibyte : (List.replicate (2 ^ 16) eopTag).flatten.length = 2 ^ 20 := by
    rw [List.length_flatten, List.map_replicate, List.sum_replicate_nat]
    rfl
  obtain ⟨s, run, broken⟩ := overflow_run (fun _ => 0) mebibyte
  exact broken (all _ s run)

end Pcsx2.Gif
