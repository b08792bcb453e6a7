import Mathlib.Tactic.SplitIfs
import Pcsx2.Sif.Channels

/-!
# Progress of the two loops

A loop of SIF0 returns whenever the tags of the IOP come to an end. One of SIF1 may wait for room in the FIFO that only
the IOP could make.
-/

namespace Pcsx2.Sif
open Foundation Dma

/-! ## SIF0 -/

variable {n : Nat}

namespace Sif0

variable {host : Host} {iopMem : Nat → Byte} {s t : State}

inductive Progress (s t : State) : Prop
  | sends (more : s.sent < t.sent)
  | takes (more : s.taken < t.taken)
  | endsIop (was : s.iopBusy = true) (now : t.iopBusy = false)
  | endsEe (was : s.eeBusy = true) (now : t.eeBusy = false)
  /-- After a bus error. -/
  | stopsEe (was : s.sif0ch.chcr.STR = true) (now : t.sif0ch.chcr.STR = false)

/-- The loop returns, and no pass of it is in vain. -/
def State.Proceeds (host : Host) (iopMem : Nat → Byte) (s : State) : Prop :=
  Leaves (State.busyCheck host iopMem) (State.pass host iopMem) s ∧
    ∀ passes, (s.SIF0Dma host iopMem passes).busyCheck host iopMem = true →
      Progress (s.SIF0Dma host iopMem passes) ((s.SIF0Dma host iopMem passes).pass host iopMem)

structure SameIop (s t : State) : Prop where
  iopBusy : t.iopBusy = s.iopBusy
  iopEnd : t.iopEnd = s.iopEnd
  counter : t.counter = s.counter
  tadr : t.tadr = s.tadr
  writeJunk : t.writeJunk = s.writeJunk
  sent : t.sent = s.sent

inductive EeTurn (s t : State) : Prop
  | ended (now : t.eeBusy = false) (size : t.fifo.size ≤ s.fifo.size)
  | stopped (was : s.sif0ch.chcr.STR = true) (now : t.sif0ch.chcr.STR = false) (busy : t.eeBusy = s.eeBusy)
      (size : t.fifo.size ≤ s.fifo.size)
  | took (more : s.taken < t.taken) (size : t.fifo.size < s.fifo.size) (busy : t.eeBusy = s.eeBusy)
      (active : t.sif0ch.chcr.STR = s.sif0ch.chcr.STR)

variable (host) in
theorem WriteFifoToEE_turn (active : s.sif0ch.chcr.STR = true) (more : 0 < s.sif0ch.qwc) (stored : 4 ≤ s.fifo.size) :
    EeTurn s (s.WriteFifoToEE host) ∧ SameIop s (s.WriteFifoToEE host) := by
  have some_read : 0 < min s.sif0ch.qwc (s.fifo.size >>> 2) := by
    rw [Nat.shiftRight_eq_div_pow]
    omega
  have words : 0 < min s.sif0ch.qwc (s.fifo.size >>> 2) <<< 2 := by
    rw [Nat.shiftLeft_eq]
    omega
  unfold State.WriteFifoToEE
  cases mapped : dmaGetAddr host.exposedRam s.sif0ch.madr true with
  | none => exact ⟨.stopped active rfl rfl le_rfl, ⟨rfl, rfl, rfl, rfl, rfl, rfl⟩⟩
  | some ptag =>
    simp only
    split
    · exact ⟨.took (Nat.lt_add_of_pos_right words) (Nat.sub_lt (by omega) words) rfl rfl, ⟨rfl, rfl, rfl, rfl, rfl, rfl⟩⟩
    · exact ⟨.took (Nat.lt_add_of_pos_right words) (Nat.sub_lt (by omega) words) rfl rfl, ⟨rfl, rfl, rfl, rfl, rfl, rfl⟩⟩

theorem SameIop.trans {u : State} (first : SameIop s t) (second : SameIop t u) : SameIop s u :=
  ⟨second.iopBusy.trans first.iopBusy, second.iopEnd.trans first.iopEnd, second.counter.trans first.counter,
    second.tadr.trans first.tadr, second.writeJunk.trans first.writeJunk, second.sent.trans first.sent⟩

theorem ProcessEETag_fields : s.ProcessEETag.eeBusy = s.eeBusy ∧
    s.ProcessEETag.sif0ch.chcr.STR = s.sif0ch.chcr.STR ∧ s.ProcessEETag.fifo.size = s.fifo.size - 4 ∧
      s.ProcessEETag.taken = s.taken + 4 ∧ SameIop s s.ProcessEETag := by
  unfold State.ProcessEETag
  dsimp only
  split <;> split
  · split <;> exact ⟨rfl, rfl, rfl, rfl, rfl, rfl, rfl, rfl, rfl, rfl⟩
  · split <;> exact ⟨rfl, rfl, rfl, rfl, rfl, rfl, rfl, rfl, rfl, rfl⟩
  · split <;> exact ⟨rfl, rfl, rfl, rfl, rfl, rfl, rfl, rfl, rfl, rfl⟩
  · split <;> exact ⟨rfl, rfl, rfl, rfl, rfl, rfl, rfl, rfl, rfl, rfl⟩

theorem tag_turn (active : s.sif0ch.chcr.STR = true) (stored : 4 ≤ s.fifo.size) :
    EeTurn s (if 0 < s.ProcessEETag.sif0ch.qwc ∧ 4 ≤ s.ProcessEETag.fifo.size then s.ProcessEETag.WriteFifoToEE host
      else s.ProcessEETag) ∧
    SameIop s (if 0 < s.ProcessEETag.sif0ch.qwc ∧ 4 ≤ s.ProcessEETag.fifo.size then s.ProcessEETag.WriteFifoToEE host
      else s.ProcessEETag) := by
  obtain ⟨busy, str, size, taken, same⟩ := ProcessEETag_fields (s := s)
  split
  case isTrue more =>
    obtain ⟨turn, same'⟩ := WriteFifoToEE_turn host (str.trans active) more.1 more.2
    refine ⟨?_, same.trans same'⟩
    cases turn with
    | ended now size' => exact .ended now (by omega)
    | stopped was now busy' size' => exact .stopped active now (busy'.trans busy) (by omega)
    | took more' size' busy' str' => exact .took (by omega) (by omega) (busy'.trans busy) (str'.trans str)
  case isFalse => exact ⟨.took (by omega) (by omega) busy str, same⟩

variable (host) in
theorem HandleEETransfer_turn (ready : s.eeReady = true) :
    EeTurn s (s.HandleEETransfer host) ∧ SameIop s (s.HandleEETransfer host) := by
  simp only [State.eeReady, Bool.and_eq_true, Bool.or_eq_true, decide_eq_true_eq] at ready
  unfold State.HandleEETransfer
  cases active : s.sif0ch.chcr.STR with
  | false => exact ⟨.ended rfl le_rfl, ⟨rfl, rfl, rfl, rfl, rfl, rfl⟩⟩
  | true =>
    rw [if_neg (by decide)]
    by_cases empty : s.sif0ch.qwc = 0
    · by_cases last : s.sif0ch.chcr.MOD = NORMAL_MODE ∨ s.eeEnd = true
      · have done : ¬(0 < s.EndEE.sif0ch.qwc ∧ 4 ≤ s.EndEE.fifo.size) := fun more => more.1.ne' empty
        simp only [if_pos empty, if_pos last, if_neg done]
        exact ⟨.ended rfl le_rfl, ⟨rfl, rfl, rfl, rfl, rfl, rfl⟩⟩
      · have stored : 4 ≤ s.fifo.size := ready.2.resolve_right fun ends => last (.inr ends.1)
        simp only [if_pos empty, if_neg last, if_pos stored]
        exact tag_turn active stored
    · have more : 0 < s.sif0ch.qwc := Nat.pos_of_ne_zero empty
      have stored : 4 ≤ s.fifo.size := ready.2.resolve_right fun ends => empty ends.2
      simp only [if_neg empty, if_pos (And.intro more stored)]
      exact WriteFifoToEE_turn _ active more stored

/-! ### What is left -/

inductive Tags (host : Host) (iopMem : Nat → Byte) : Word → Nat → Prop
  | last {tadr : Word} (ends : Sif1.State.endsIop (State.tagAt host iopMem tadr).1 = true) :
      Tags host iopMem tadr (State.tagCounter (State.tagAt host iopMem tadr).2 + 1)
  | tag {tadr : Word} {n : Nat} (more : Tags host iopMem (tadr + 16) n) :
      Tags host iopMem tadr (State.tagCounter (State.tagAt host iopMem tadr).2 + 1 + n)

inductive IopLeft (host : Host) (iopMem : Nat → Byte) (n : Nat) (s : State) : Prop
  | idle (busy : s.iopBusy = false)
  | ending (last : s.iopEnd = true) (left : s.counter + 1 ≤ n)
  | reading (m : Nat) (tags : Tags host iopMem s.tadr m) (left : s.counter + 1 + m ≤ n)

theorem tags_of_end {tadr : Word} {k : Nat}
    (ends : Sif1.State.endsIop (State.tagAt host iopMem (tadr + BitVec.ofNat 32 (16 * k))).1 = true) :
    ∃ n, Tags host iopMem tadr n := by
  induction k generalizing tadr with
  | zero => exact ⟨_, .last (by simpa using ends)⟩
  | succ k ih =>
    have next : tadr + BitVec.ofNat 32 (16 * (k + 1)) = tadr + 16 + BitVec.ofNat 32 (16 * k) := by
      rw [Nat.mul_succ, Nat.add_comm, BitVec.ofNat_add, ← BitVec.add_assoc]
      rfl
    rw [next] at ends
    obtain ⟨n, tags⟩ := ih ends
    exact ⟨_, .tag tags⟩

theorem IopLeft.same (left : IopLeft host iopMem n s) (same : SameIop s t) : IopLeft host iopMem n t := by
  cases left with
  | idle busy => exact .idle (same.iopBusy.trans busy)
  | ending last left => exact .ending (same.iopEnd.trans last) (by rw [same.counter]; exact left)
  | reading m tags left => exact .reading m (same.tadr ▸ tags) (by rw [same.counter]; exact left)

structure SameEe (s t : State) : Prop where
  eeBusy : t.eeBusy = s.eeBusy
  active : t.sif0ch.chcr.STR = s.sif0ch.chcr.STR
  taken : t.taken = s.taken

theorem HandleIOPTransfer_left (left : IopLeft host iopMem n s) (ready : s.iopReady = true) :
    (∃ m < n, IopLeft host iopMem m (s.HandleIOPTransfer host iopMem)) ∧ SameEe s (s.HandleIOPTransfer host iopMem) ∧
      (s.sent < (s.HandleIOPTransfer host iopMem).sent ∨ (s.HandleIOPTransfer host iopMem).iopBusy = false) := by
  simp only [State.iopReady, Bool.and_eq_true, Bool.or_eq_true, decide_eq_true_eq] at ready
  obtain ⟨busy, ready⟩ := ready
  have positive : 0 < n := by
    cases left with
    | idle idle => exact absurd (busy.symm.trans idle) (by decide)
    | ending _ left => omega
    | reading _ _ left => omega
  unfold State.HandleIOPTransfer
  by_cases empty : s.counter = 0
  · rw [if_pos empty]
    cases last : s.iopEnd with
    | true => exact ⟨⟨0, positive, .idle rfl⟩, ⟨rfl, rfl, rfl⟩, .inr rfl⟩
    | false =>
      rw [if_neg (by decide)]
      refine ⟨?_, ⟨rfl, rfl, rfl⟩, .inl (Nat.lt_add_of_pos_right (by decide))⟩
      cases left with
      | idle idle => exact absurd (busy.symm.trans idle) (by decide)
      | ending ends => exact absurd (last.symm.trans ends) (by decide)
      | reading m tags left =>
        cases tags with
        | last ends =>
          have end_set : (s.ProcessIOPTag host iopMem).iopEnd = true := by simp [State.ProcessIOPTag, ends]
          exact ⟨n - 1, by omega, .ending end_set (by simp [State.ProcessIOPTag]; omega)⟩
        | tag more => exact ⟨n - 1, by omega, .reading _ more (by simp [State.ProcessIOPTag]; omega)⟩
  · rw [if_neg empty]
    have room : 0 < s.fifo.sif_free := ready.resolve_right fun ends => empty ends.2
    rw [if_pos room]
    have written : 0 < min s.counter s.fifo.sif_free := by omega
    have counter : (s.WriteIOPtoFifo host iopMem).counter < s.counter := Nat.sub_lt (Nat.pos_of_ne_zero empty) written
    refine ⟨?_, ⟨rfl, rfl, rfl⟩, .inl (Nat.lt_add_of_pos_right written)⟩
    cases left with
    | idle idle => exact absurd (busy.symm.trans idle) (by decide)
    | ending ends left => exact ⟨n - 1, by omega, .ending ends (by omega)⟩
    | reading m tags left => exact ⟨n - 1, by omega, .reading m tags (by omega)⟩

/-! ### Runs -/

def State.rank (s : State) : Nat :=
  4 * s.writeJunk + 2 * s.fifo.size + if s.eeBusy then if s.sif0ch.chcr.STR then 2 else 1 else 0

theorem fillUp_same : SameEe s s.fillUp ∧ s.fillUp.sent = s.sent ∧ s.fillUp.iopBusy = s.iopBusy ∧
    s.fillUp.rank ≤ s.rank := by
  unfold State.fillUp
  split
  · refine ⟨⟨rfl, rfl, rfl⟩, rfl, rfl, ?_⟩
    simp only [State.rank, SifFifo.writeJunk]
    omega
  · exact ⟨⟨rfl, rfl, rfl⟩, rfl, rfl, le_rfl⟩

theorem IopLeft.fillUp (left : IopLeft host iopMem n s) : IopLeft host iopMem n s.fillUp := by
  unfold State.fillUp
  split
  · cases left with
    | idle busy => exact .idle busy
    | ending last left => exact .ending last left
    | reading m tags left => exact .reading m tags left
  · exact left

theorem EeTurn.rank (turn : EeTurn s t) (same : SameIop s t) (busy : s.eeBusy = true) : t.rank < s.rank := by
  have junk := same.writeJunk
  cases turn with
  | ended now size =>
    simp only [State.rank, now, busy, junk, Bool.false_eq_true, reduceIte]
    split <;> omega
  | stopped was now busy' size =>
    simp only [State.rank, busy', busy, was, now, junk, Bool.false_eq_true, reduceIte]
    omega
  | took more size busy' active =>
    simp only [State.rank, busy', active, junk]
    omega

theorem pass_lowers (left : IopLeft host iopMem n s) (now : s.busyCheck host iopMem = true) :
    ((∃ m < n, IopLeft host iopMem m (s.pass host iopMem)) ∨
      IopLeft host iopMem n (s.pass host iopMem) ∧ (s.pass host iopMem).rank < s.rank) ∧
    Progress s (s.pass host iopMem) := by
  obtain ⟨sameEe, sent, iopBusy, rank⟩ := fillUp_same (s := s)
  have iopLeft := left.fillUp
  have busy_of {u : State} (ready : u.eeReady = true) : u.eeBusy = true := by
    simp only [State.eeReady, Bool.and_eq_true] at ready
    exact ready.1
  unfold State.busyCheck at now
  unfold State.pass
  cases ready : s.fillUp.iopReady with
  | true =>
    have was : s.iopBusy = true := by
      simp only [State.iopReady, Bool.and_eq_true] at ready
      exact iopBusy ▸ ready.1
    obtain ⟨⟨m, lower, left'⟩, same, moves⟩ := HandleIOPTransfer_left iopLeft ready
    have iop : s.fillUp.iopPass host iopMem = s.fillUp.HandleIOPTransfer host iopMem := if_pos ready
    have frame : SameIop (s.fillUp.iopPass host iopMem) ((s.fillUp.iopPass host iopMem).eePass host) := by
      unfold State.eePass
      split
      case isTrue ready => exact (HandleEETransfer_turn _ ready).2
      case isFalse => exact ⟨rfl, rfl, rfl, rfl, rfl, rfl⟩
    rw [← iop] at left' moves
    refine ⟨.inl ⟨m, lower, left'.same frame⟩, ?_⟩
    rcases moves with more | idle
    · exact .sends (by rw [frame.sent, ← sent]; exact more)
    · exact .endsIop was (frame.iopBusy.trans idle)
  | false =>
    have iop : s.fillUp.iopPass host iopMem = s.fillUp := if_neg (by rw [ready]; decide)
    rw [ready, Bool.false_or, iop] at now
    obtain ⟨turn, same⟩ := HandleEETransfer_turn host now
    have ee : s.fillUp.eePass host = s.fillUp.HandleEETransfer host := if_pos now
    rw [iop, ee]
    refine ⟨.inr ⟨iopLeft.same same, ?_⟩, ?_⟩
    · exact (turn.rank same (busy_of now)).trans_le rank
    · cases turn with
      | ended idle => exact .endsEe (sameEe.eeBusy ▸ busy_of now) idle
      | stopped was now => exact .stopsEe (sameEe.active ▸ was) now
      | took more => exact .takes (sameEe.taken ▸ more)

theorem proceeds (chain : s.iopBusy = true → s.iopEnd = false →
      ∃ k : Nat, Sif1.State.endsIop (State.tagAt host iopMem (s.tadr + BitVec.ofNat 32 (16 * k))).1 = true) :
    s.Proceeds host iopMem := by
  have bounded : ∃ n, IopLeft host iopMem n s := by
    cases busy : s.iopBusy with
    | false => exact ⟨0, .idle busy⟩
    | true =>
      cases last : s.iopEnd with
      | true => exact ⟨_, .ending last le_rfl⟩
      | false =>
        obtain ⟨k, ends⟩ := chain busy last
        obtain ⟨m, tags⟩ := tags_of_end ends
        exact ⟨_, .reading m tags le_rfl⟩
  obtain ⟨n, left⟩ := bounded
  constructor
  · exact leaves_of_rank (IopLeft host iopMem) State.rank (fun _ => False)
      (fun _ _ left now _ => (pass_lowers left now).1) left fun _ => id
  · intro passes now
    have keeps : ∀ u, (∃ n, IopLeft host iopMem n u) → u.busyCheck host iopMem = true →
        ∃ n, IopLeft host iopMem n (u.pass host iopMem) := by
      rintro u ⟨n, left⟩ now
      rcases (pass_lowers left now).1 with ⟨m, -, left⟩ | ⟨left, -⟩
      · exact ⟨m, left⟩
      · exact ⟨n, left⟩
    have later : ∃ n, IopLeft host iopMem n (s.SIF0Dma host iopMem passes) := busyLoop_invariant keeps ⟨n, left⟩ passes
    obtain ⟨n, left⟩ := later
    exact (pass_lowers left now).2

end Sif0

/-! ## SIF1 -/

namespace Sif1

variable {host : Host} {s t : State}

def sentPacket (ch : Registers) : Registers := if ch.qwc = 0 then ch else ch.advance ch.qwc

def nextTag (host : Host) (r : Reading) : Option Reading :=
  if r.last then none
  else (dmaGetAddr host.exposedRam (sentPacket r.ch).tadr false).map fun ptag =>
    (sentPacket r.ch).readTag Registers.hwDmacSrcChain (host.mem ptag.1 ptag.2)

inductive ChainEnds (host : Host) : Reading → Prop
  | last {r : Reading} (none : nextTag host r = none) : ChainEnds host r
  | tag {r r' : Reading} (next : nextTag host r = some r') (more : ChainEnds host r') : ChainEnds host r

/-- In normal mode there is no chain. -/
def State.reading (s : State) : Reading := ⟨s.sif1ch, s.eeEnd || s.sif1ch.chcr.MOD = NORMAL_MODE⟩

inductive Progress (host : Host) (s t : State) : Prop
  | sends (more : s.sent.length < t.sent.length)
  | takes (more : s.taken < t.taken)
  | tag (empty : s.sif1ch.qwc = 0) (next : nextTag host s.reading = some t.reading)
  | endsIop (was : s.iopBusy = true) (now : t.iopBusy = false)
  | endsEe (was : s.eeBusy = true) (now : t.eeBusy = false)
  /-- After a bus error. -/
  | stopsEe (was : s.sif1ch.chcr.STR = true) (now : t.sif1ch.chcr.STR = false)
  | stallsEe (was : s.sif1_dma_stall = false) (now : t.sif1_dma_stall = true)

def State.pass (host : Host) (s : State) : State := (s.eePass host).iopPass host

def State.LoopProceeds (host : Host) (s : State) : Prop :=
  Leaves (State.busyCheck host) (State.pass host) s ∧
    ∀ passes, (s.loop host passes).busyCheck host = true →
      Progress host (s.loop host passes) ((s.loop host passes).pass host)

/-- `SIF1Dma` returns at once or when its loop does. -/
def State.Proceeds (host : Host) (s : State) : Prop :=
  (s.sif1_dma_stall && s.aboveStadr) = true ∨ { s with sif1_dma_stall := false }.LoopProceeds host

structure State.Waits (host : Host) (s : State) : Prop where
  busy : s.eeBusy = true
  active : s.sif1ch.chcr.STR = true
  more : 0 < s.sif1ch.qwc
  unstalled : s.sif1_dma_stall = false
  below : s.stallsAt = false
  mapped : (dmaGetAddr host.exposedRam s.sif1ch.madr false).isSome = true
  room : 0 < s.fifo.sif_free
  few : s.fifo.sif_free < 4

/-- The EE waits for room, and the IOP does not take any words. -/
def State.Starved (host : Host) (s : State) : Prop := s.Waits host ∧ s.iopBusy = false

/-! ### What is left -/

inductive Quads (host : Host) : Reading → Nat → Prop
  | last {r : Reading} {n : Nat} (none : nextTag host r = none) (left : r.ch.qwc ≤ n) : Quads host r n
  | tag {r r' : Reading} {m n : Nat} (next : nextTag host r = some r') (more : Quads host r' m)
      (left : r.ch.qwc + 1 + m ≤ n) : Quads host r n

theorem ChainEnds.quads {r : Reading} (ends : ChainEnds host r) : ∃ n, Quads host r n := by
  induction ends with
  | last none => exact ⟨_, .last none le_rfl⟩
  | tag next _ ih =>
    obtain ⟨m, more⟩ := ih
    exact ⟨_, .tag next more le_rfl⟩

theorem sentPacket_advance {ch : Registers} {count : Nat} (more : 0 < ch.qwc) (inside : count ≤ ch.qwc) :
    sentPacket (ch.advance count) = sentPacket ch := by
  have whole : sentPacket ch = ch.advance ch.qwc := if_neg more.ne'
  rw [whole, sentPacket, Registers.advance_qwc, Registers.advance_advance]
  split
  case isTrue done => rw [show count = ch.qwc by omega]
  case isFalse => rw [Nat.add_sub_cancel' inside]

theorem Quads.advance {ch : Registers} {last : Bool} {n count : Nat} (quads : Quads host ⟨ch, last⟩ n)
    (more : 0 < ch.qwc) (inside : count ≤ ch.qwc) :
    count ≤ n ∧ Quads host ⟨ch.advance count, last⟩ (n - count) := by
  have same : nextTag host ⟨ch.advance count, last⟩ = nextTag host ⟨ch, last⟩ := by
    simp only [nextTag, sentPacket_advance more inside]
  cases quads with
  | last none left =>
    refine ⟨inside.trans left, .last (same.trans none) ?_⟩
    rw [Registers.advance_qwc]
    exact Nat.sub_le_sub_right left count
  | tag next rest left =>
    dsimp only at left
    refine ⟨by omega, .tag (same.trans next) rest ?_⟩
    rw [Registers.advance_qwc]
    omega

theorem Quads.next {r r' : Reading} (quads : Quads host r n) (next : nextTag host r = some r') :
    ∃ m < n, Quads host r' m := by
  cases quads with
  | last none => exact absurd (none.symm.trans next) (by simp)
  | tag next' more left => exact ⟨_, by omega, Option.some.inj (next'.symm.trans next) ▸ more⟩

inductive EeLeft (host : Host) (n : Nat) (s : State) : Prop
  | idle (off : s.eeBusy = false ∨ s.sif1_dma_stall = true)
  | stopped (inactive : s.sif1ch.chcr.STR = false) (left : 1 ≤ n)
  | reading (m : Nat) (quads : Quads host s.reading m) (left : m + 2 ≤ n)

/-! ### Turns -/

structure SameIop (s t : State) : Prop where
  iopBusy : t.iopBusy = s.iopBusy
  iopEnd : t.iopEnd = s.iopEnd
  counter : t.counter = s.counter
  taken : t.taken = s.taken

structure SameEe (s t : State) : Prop where
  eeBusy : t.eeBusy = s.eeBusy
  eeEnd : t.eeEnd = s.eeEnd
  sif1ch : t.sif1ch = s.sif1ch
  stall : t.sif1_dma_stall = s.sif1_dma_stall
  std : t.std = s.std
  stadr : t.stadr = s.stadr
  sent : t.sent = s.sent

inductive EeTurn (host : Host) (s t : State) : Prop
  | ended (now : t.eeBusy = false)
  | stopped (was : s.sif1ch.chcr.STR = true) (now : t.sif1ch.chcr.STR = false)
  | stalled (now : t.sif1_dma_stall = true)
  | tag (active : s.sif1ch.chcr.STR = true) (empty : s.sif1ch.qwc = 0) (next : nextTag host s.reading = some t.reading)
  | sent (active : s.sif1ch.chcr.STR = true) (more : 0 < s.sif1ch.qwc) (some_sent : 0 < s.writeSize)
      (reading : t.reading = ⟨s.sif1ch.advance s.writeSize, s.reading.last⟩) (longer : s.sent.length < t.sent.length)
  | waits (now : s.Waits host) (still : t.Waits host) (size : t.fifo.size = s.fifo.size)
      (reading : t.reading = ⟨s.sif1ch.advance 0, s.reading.last⟩) (sent : t.sent = s.sent)

theorem hwDmacSrcChain_chcr (ch : Registers) (id : BitVec 3) : (ch.hwDmacSrcChain id).1.chcr = ch.chcr := by
  unfold Registers.hwDmacSrcChain
  split_ifs <;> rfl

@[simp] theorem writeFifo_sif1ch (words : List Word) : (s.writeFifo words).sif1ch = s.sif1ch := rfl

@[simp] theorem writeFifo_size (words : List Word) : (s.writeFifo words).fifo.size = s.fifo.size + words.length := rfl

theorem ProcessEETag_turn (empty : s.sif1ch.qwc = 0) (active : s.sif1ch.chcr.STR = true)
    (more : ¬(s.sif1ch.chcr.MOD = NORMAL_MODE ∨ s.eeEnd = true)) :
    EeTurn host s (s.ProcessEETag host) ∧ SameIop s (s.ProcessEETag host) := by
  rw [not_or, Bool.not_eq_true] at more
  unfold State.ProcessEETag
  cases mapped : dmaGetAddr host.exposedRam s.sif1ch.tadr false with
  | none => exact ⟨.stopped active rfl, ⟨rfl, rfl, rfl, rfl⟩⟩
  | some ptag =>
    have mode : ((s.sif1ch.readTag Registers.hwDmacSrcChain (host.mem ptag.1 ptag.2)).ch.chcr.MOD = NORMAL_MODE) = False := by
      simp only [Registers.readTag, hwDmacSrcChain_chcr, Registers.transfer]
      exact eq_false more.1
    have next : nextTag host s.reading = some (s.sif1ch.readTag Registers.hwDmacSrcChain (host.mem ptag.1 ptag.2)) := by
      simp [nextTag, State.reading, sentPacket, empty, more.1, more.2, mapped]
    simp only
    split
    · refine ⟨.tag active empty (next.trans ?_), ⟨rfl, rfl, rfl, rfl⟩⟩
      simp [State.reading, mode]
    · refine ⟨.tag active empty (next.trans ?_), ⟨rfl, rfl, rfl, rfl⟩⟩
      simp [State.reading, mode]

theorem quadWords_length (quads : List Quad) : (quads.flatMap quadWords).length = 4 * quads.length := by
  simp [quadWords, Nat.mul_comm]

theorem State.Waits.still (waits : s.Waits host) : (s.WriteEEtoFifo host).Waits host ∧
    (s.WriteEEtoFifo host).fifo.size = s.fifo.size ∧ (s.WriteEEtoFifo host).sent = s.sent ∧
      (s.WriteEEtoFifo host).reading = ⟨s.sif1ch.advance 0, s.reading.last⟩ := by
  have few := waits.few
  have nothing : s.writeSize = 0 := by
    simp only [State.writeSize, Nat.shiftRight_eq_div_pow]
    omega
  obtain ⟨ptag, mapped⟩ := Option.isSome_iff_exists.mp waits.mapped
  have none : (host.mem.quads ptag 0).flatMap quadWords = [] := rfl
  have free : (s.writeFifo []).fifo.sif_free = s.fifo.sif_free := rfl
  have std : (s.writeFifo []).std = s.std := rfl
  have stadr : (s.writeFifo []).stadr = s.stadr := rfl
  unfold State.WriteEEtoFifo
  rw [mapped]
  dsimp only
  rw [nothing, none]
  refine ⟨⟨waits.busy, ?_, ?_, waits.unstalled, ?_, ?_, waits.room, few⟩, rfl, ?_, ?_⟩
  · simp [waits.active]
  · simpa using waits.more
  · simpa [State.stallsAt, State.aboveStadr, State.writeSize, free, std, stadr] using waits.below
  · simp [mapped]
  · simp [State.writeFifo]
  · simp [State.reading, State.writeFifo]

theorem WriteEEtoFifo_same : SameIop s (s.WriteEEtoFifo host) := by
  unfold State.WriteEEtoFifo
  split <;> exact ⟨rfl, rfl, rfl, rfl⟩

theorem WriteEEtoFifo_turn (busy : s.eeBusy = true) (active : s.sif1ch.chcr.STR = true) (more : 0 < s.sif1ch.qwc)
    (unstalled : s.sif1_dma_stall = false) (below : s.stallsAt = false) (room : 0 < s.fifo.sif_free) :
    EeTurn host s (s.WriteEEtoFifo host) := by
  cases mapped : dmaGetAddr host.exposedRam s.sif1ch.madr false with
  | none =>
    unfold State.WriteEEtoFifo
    rw [mapped]
    exact .stopped active rfl
  | some ptag =>
    by_cases some_sent : 0 < s.writeSize
    · unfold State.WriteEEtoFifo
      rw [mapped]
      refine .sent active more some_sent ?_ ?_
      · simp [State.reading, State.writeFifo]
      · simp only [State.writeFifo, List.length_append, quadWords_length, EeMemory.quads, load_length]
        omega
    · have few : s.fifo.sif_free < 4 := by
        simp only [State.writeSize, Nat.shiftRight_eq_div_pow] at some_sent
        omega
      have waits : s.Waits host := ⟨busy, active, more, unstalled, below, by rw [mapped]; rfl, room, few⟩
      obtain ⟨still, size, sent, reading⟩ := waits.still
      exact .waits waits still size reading sent

variable (host) in
theorem HandleEETransfer_turn (ready : s.eeReady = true) :
    EeTurn host s (s.HandleEETransfer host) ∧ SameIop s (s.HandleEETransfer host) := by
  simp only [State.eeReady, Bool.and_eq_true, Bool.or_eq_true, decide_eq_true_eq, Bool.not_eq_true'] at ready
  obtain ⟨⟨busy, unstalled⟩, ready⟩ := ready
  unfold State.HandleEETransfer
  cases active : s.sif1ch.chcr.STR with
  | false => exact ⟨.ended rfl, ⟨rfl, rfl, rfl, rfl⟩⟩
  | true =>
    rw [if_neg (by decide)]
    by_cases empty : s.sif1ch.qwc = 0
    · rw [if_pos empty]
      by_cases last : s.sif1ch.chcr.MOD = NORMAL_MODE ∨ s.eeEnd = true
      · exact if_pos last ▸ ⟨.ended rfl, ⟨rfl, rfl, rfl, rfl⟩⟩
      · rw [if_neg last]
        exact ProcessEETag_turn empty active last
    · have room : 0 < s.fifo.sif_free := ready.resolve_right fun ends => empty ends.2
      rw [if_neg empty]
      cases below : s.stallsAt with
      | true => exact ⟨.stalled rfl, ⟨rfl, rfl, rfl, rfl⟩⟩
      | false =>
        rw [if_neg (by decide), if_pos room]
        exact ⟨WriteEEtoFifo_turn busy active (Nat.pos_of_ne_zero empty) unstalled below room, WriteEEtoFifo_same⟩

def State.rank (s : State) : Nat := s.fifo.size + if s.iopBusy then 1 else 0

inductive IopTurn (s t : State) : Prop
  | ended (now : t.iopBusy = false) (size : t.fifo.size ≤ s.fifo.size)
  | took (more : s.taken < t.taken) (size : t.fifo.size < s.fifo.size) (busy : t.iopBusy = s.iopBusy)

variable (host) in
theorem WriteFifoToIOP_turn (left : 0 < s.counter) (stored : 0 < s.fifo.size) :
    IopTurn s (s.WriteFifoToIOP host) ∧ SameEe s (s.WriteFifoToIOP host) := by
  have some_read : 0 < min s.counter s.fifo.size := by omega
  exact ⟨.took (Nat.lt_add_of_pos_right some_read) (Nat.sub_lt stored some_read) rfl, ⟨rfl, rfl, rfl, rfl, rfl, rfl, rfl⟩⟩

variable (host) in
theorem HandleIOPTransfer_turn (ready : s.iopReady = true) :
    IopTurn s (s.HandleIOPTransfer host) ∧ SameEe s (s.HandleIOPTransfer host) := by
  simp only [State.iopReady, Bool.and_eq_true, Bool.or_eq_true, decide_eq_true_eq] at ready
  obtain ⟨-, ready⟩ := ready
  unfold State.HandleIOPTransfer
  by_cases empty : s.counter = 0
  · have nothing : ¬(0 < s.counter ∧ 0 < s.fifo.size) := fun some_left => some_left.1.ne' empty
    simp only [if_neg nothing, if_pos empty]
    cases last : s.iopEnd with
    | true => exact ⟨.ended rfl le_rfl, ⟨rfl, rfl, rfl, rfl, rfl, rfl, rfl⟩⟩
    | false =>
      have stored : 4 ≤ s.fifo.size := ready.resolve_right fun ends => by rw [last] at ends; cases ends.1
      rw [if_neg (by decide), if_pos stored]
      exact ⟨.took (Nat.lt_add_of_pos_right (by decide)) (Nat.sub_lt (by omega) (by decide)) rfl,
        ⟨rfl, rfl, rfl, rfl, rfl, rfl, rfl⟩⟩
  · have stored : 4 ≤ s.fifo.size := ready.resolve_right fun ends => empty ends.2
    have left : 0 < s.counter := Nat.pos_of_ne_zero empty
    obtain ⟨turn, same⟩ := WriteFifoToIOP_turn host left (by omega)
    simp only [if_pos (And.intro left (by omega : 0 < s.fifo.size))]
    generalize s.WriteFifoToIOP host = u at turn same ⊢
    split
    · split
      · refine ⟨.ended rfl ?_, ⟨same.1, same.2, same.3, same.4, same.5, same.6, same.7⟩⟩
        cases turn with
        | ended _ size => exact size
        | took _ size => exact size.le
      · split
        · refine ⟨?_, ⟨same.1, same.2, same.3, same.4, same.5, same.6, same.7⟩⟩
          cases turn with
          | ended now size => exact .ended now ((Nat.sub_le _ _).trans size)
          | took more size busy => exact .took (Nat.lt_add_right 4 more) ((Nat.sub_le _ _).trans_lt size) busy
        · exact ⟨turn, same⟩
    · exact ⟨turn, same⟩

theorem IopTurn.rank (turn : IopTurn s t) (busy : s.iopBusy = true) : t.rank < s.rank := by
  cases turn with
  | ended now size =>
    simp only [State.rank, now, busy, Bool.false_eq_true, reduceIte]
    omega
  | took _ size same =>
    simp only [State.rank, same]
    omega

theorem iopPass_same : SameEe s (s.iopPass host) := by
  unfold State.iopPass
  split
  case isTrue ready => exact (HandleIOPTransfer_turn _ ready).2
  case isFalse => exact ⟨rfl, rfl, rfl, rfl, rfl, rfl, rfl⟩

theorem SameEe.reading (same : SameEe s t) : t.reading = s.reading := by
  simp only [State.reading, same.sif1ch, same.eeEnd]

theorem EeLeft.same (left : EeLeft host n s) (same : SameEe s t) : EeLeft host n t := by
  cases left with
  | idle off => exact .idle (by rw [same.eeBusy, same.stall]; exact off)
  | stopped inactive left => exact .stopped (by rw [same.sif1ch]; exact inactive) left
  | reading m quads left => exact .reading m (same.reading ▸ quads) left

theorem EeTurn.lowers (turn : EeTurn host s t) (left : EeLeft host n s) (ready : s.eeReady = true) :
    (∃ m < n, EeLeft host m t) ∨ s.Waits host ∧ t.Waits host ∧ EeLeft host n t ∧ t.fifo.size = s.fifo.size := by
  simp only [State.eeReady, Bool.and_eq_true, Bool.not_eq_true'] at ready
  have positive : 0 < n := by
    cases left with
    | idle off => simp [ready.1.1, ready.1.2] at off
    | stopped _ left => exact left
    | reading _ _ left => omega
  cases turn with
  | ended now => exact .inl ⟨0, positive, .idle (.inl now)⟩
  | stalled now => exact .inl ⟨0, positive, .idle (.inr now)⟩
  | stopped was now =>
    cases left with
    | idle off => simp [ready.1.1, ready.1.2] at off
    | stopped inactive => simp [was] at inactive
    | reading _ _ left => exact .inl ⟨1, by omega, .stopped now le_rfl⟩
  | tag active _ next =>
    cases left with
    | idle off => simp [ready.1.1, ready.1.2] at off
    | stopped inactive => exact absurd (active.symm.trans inactive) (by decide)
    | reading m quads left =>
      obtain ⟨m', lower, rest⟩ := quads.next next
      exact .inl ⟨m' + 2, by omega, .reading m' rest le_rfl⟩
  | sent active more some_sent reading =>
    cases left with
    | idle off => simp [ready.1.1, ready.1.2] at off
    | stopped inactive => exact absurd (active.symm.trans inactive) (by decide)
    | reading m quads left =>
      have within : s.writeSize ≤ s.sif1ch.qwc := Nat.min_le_left _ _
      obtain ⟨inside, rest⟩ := quads.advance more within
      exact .inl ⟨m - s.writeSize + 2, by omega, .reading _ (reading ▸ rest) le_rfl⟩
  | waits now still size reading =>
    refine .inr ⟨now, still, ?_, size⟩
    cases left with
    | idle off => simp [ready.1.1, ready.1.2] at off
    | stopped inactive left => exact absurd (now.active.symm.trans inactive) (by decide)
    | reading m quads left => exact .reading m (reading ▸ (quads.advance now.more (Nat.zero_le _)).2) left

/-! ### Runs -/

theorem State.Waits.ready (waits : s.Waits host) : s.eeReady = true := by
  simp [State.eeReady, waits.busy, waits.unstalled, waits.room]

theorem State.loop_eq (passes : Nat) : s.loop host passes = busyLoop (State.busyCheck host) (State.pass host) passes s := by
  induction passes generalizing s with
  | zero => rfl
  | succ passes ih =>
    cases now : s.busyCheck host with
    | true => rw [busyLoop_busy now, ← ih, State.loop, if_pos now, State.pass]
    | false => rw [busyLoop_idle now, State.loop, if_neg (by rw [now]; decide)]

variable (host) in
theorem iopPass_lowers (ready : s.iopReady = true) : (s.iopPass host).rank < s.rank ∧
    (s.taken < (s.iopPass host).taken ∨ s.iopBusy = true ∧ (s.iopPass host).iopBusy = false) := by
  have busy : s.iopBusy = true := by
    simp only [State.iopReady, Bool.and_eq_true] at ready
    exact ready.1
  rw [State.iopPass, if_pos ready]
  obtain ⟨turn, -⟩ := HandleIOPTransfer_turn host ready
  refine ⟨turn.rank busy, ?_⟩
  cases turn with
  | ended now => exact .inr ⟨busy, now⟩
  | took more => exact .inl more

theorem State.Waits.iopReady (waits : s.Waits host) (busy : s.iopBusy = true) : s.iopReady = true := by
  have few := waits.few
  rw [SifFifo.sif_free, FIFO_SIF_W] at few
  have stored : 4 ≤ s.fifo.size := by omega
  simp [State.iopReady, busy, stored]

theorem pass_lowers (now : s.busyCheck host = true) (fed : ¬s.Starved host) :
    (∀ n, EeLeft host n s →
      (∃ m < n, EeLeft host m (s.pass host)) ∨ EeLeft host n (s.pass host) ∧ (s.pass host).rank < s.rank) ∧
    Progress host s (s.pass host) := by
  have iop : SameEe (s.eePass host) (s.pass host) := iopPass_same
  cases ready : s.eeReady with
  | true =>
    obtain ⟨turn, same⟩ := HandleEETransfer_turn host ready
    have ee : s.eePass host = s.HandleEETransfer host := if_pos ready
    rw [← ee] at turn same
    have takes (waits : s.Waits host) (still : (s.eePass host).Waits host) : (s.eePass host).iopReady = true := by
      refine still.iopReady (same.iopBusy.trans ?_)
      cases busy : s.iopBusy with
      | true => rfl
      | false => exact absurd ⟨waits, busy⟩ fed
    constructor
    · intro n left
      rcases turn.lowers left ready with ⟨m, lower, left⟩ | ⟨waits, still, left, size⟩
      · exact .inl ⟨m, lower, left.same iop⟩
      · refine .inr ⟨left.same iop, (iopPass_lowers _ (takes waits still)).1.trans_eq ?_⟩
        rw [State.rank, State.rank, size, same.iopBusy]
    · simp only [State.eeReady, Bool.and_eq_true, Bool.not_eq_true'] at ready
      cases turn with
      | ended now => exact .endsEe ready.1.1 (iop.eeBusy.trans now)
      | stopped was now => exact .stopsEe was (iop.sif1ch ▸ now)
      | stalled now => exact .stallsEe ready.1.2 (iop.stall.trans now)
      | tag _ empty next => exact .tag empty (iop.reading ▸ next)
      | sent _ _ _ _ longer => exact .sends (iop.sent ▸ longer)
      | waits waits still =>
        rcases (iopPass_lowers _ (takes waits still)).2 with more | ⟨busy, idle⟩
        · exact .takes (same.taken ▸ more)
        · exact .endsIop (same.iopBusy ▸ busy) idle
  | false =>
    have ee : s.eePass host = s := if_neg (by rw [ready]; decide)
    rw [State.busyCheck, ready, ee, Bool.false_or] at now
    obtain ⟨lower, moves⟩ := iopPass_lowers host now
    rw [ee] at iop
    have pass : s.pass host = s.iopPass host := congrArg (State.iopPass host) ee
    rw [pass] at iop ⊢
    refine ⟨fun n left => .inr ⟨left.same iop, lower⟩, ?_⟩
    rcases moves with more | ⟨busy, idle⟩
    · exact .takes more
    · exact .endsIop busy idle

theorem Starved_pass (starved : s.Starved host) :
    s.busyCheck host = true ∧ (s.pass host).Starved host ∧ ¬Progress host s (s.pass host) := by
  obtain ⟨waits, idle⟩ := starved
  obtain ⟨still, -, sent, -⟩ := waits.still
  have same : SameIop s (s.WriteEEtoFifo host) := WriteEEtoFifo_same
  have ee : s.eePass host = s.WriteEEtoFifo host := by
    rw [State.eePass, if_pos waits.ready, State.HandleEETransfer, if_neg (by simp [waits.active]), if_neg waits.more.ne',
      if_neg (by simp [waits.below]), if_pos waits.room]
  have pass : s.pass host = s.WriteEEtoFifo host := by
    rw [State.pass, ee, State.iopPass, if_neg (by simp [State.iopReady, same.iopBusy, idle])]
  rw [pass]
  refine ⟨by simp [State.busyCheck, waits.ready], ⟨still, same.iopBusy.trans idle⟩, fun progress => ?_⟩
  cases progress with
  | sends more => exact more.ne (congrArg List.length sent.symm)
  | takes more => exact more.ne same.taken.symm
  | tag empty => exact waits.more.ne' empty
  | endsIop was => simp [idle] at was
  | endsEe _ now => simp [still.busy] at now
  | stopsEe _ now => simp [still.active] at now
  | stallsEe _ now => simp [still.unstalled] at now

theorem loopProceeds_iff (chain : s.eeBusy = true → ChainEnds host s.reading) :
    s.LoopProceeds host ↔ ∀ passes, ¬(s.loop host passes).Starved host := by
  have stuck : ∀ u : State, u.Starved host → ¬Leaves (State.busyCheck host) (State.pass host) u := fun u starved =>
    not_leaves_of_stuck (fun _ starved => (Starved_pass starved).1) (fun _ starved => (Starved_pass starved).2.1) starved
  constructor
  · rintro ⟨leaves, -⟩ passes starved
    rw [State.loop_eq] at starved
    exact stuck _ starved ((leaves_loop passes).mpr leaves)
  · intro fed
    have bounded : ∃ n, EeLeft host n s := by
      cases busy : s.eeBusy with
      | false => exact ⟨0, .idle (.inl busy)⟩
      | true =>
        obtain ⟨m, quads⟩ := (chain busy).quads
        exact ⟨_, .reading m quads le_rfl⟩
    obtain ⟨n, left⟩ := bounded
    simp only [State.loop_eq] at fed
    constructor
    · exact leaves_of_rank (EeLeft host) State.rank (State.Starved host)
        (fun n _ left now fed => (pass_lowers now fed).1 n left) left fed
    · intro passes now
      rw [State.loop_eq] at now ⊢
      exact (pass_lowers now (fed passes)).2

/-! ### Whole quadwords -/

structure Aligned (s : State) : Prop where
  tte : s.sif1ch.chcr.TTE = false
  size : s.fifo.size % 4 = 0
  counter : s.counter % 4 = 0

theorem Aligned.fed (aligned : Aligned s) : ¬s.Starved host := by
  rintro ⟨waits, -⟩
  have size := aligned.size
  have room := waits.room
  have few := waits.few
  rw [SifFifo.sif_free, FIFO_SIF_W] at room few
  omega

theorem Aligned.eePass (aligned : Aligned s) : Aligned (s.eePass host) := by
  have whole (n : Nat) : (s.fifo.size + 4 * n) % 4 = 0 := by rw [Nat.add_mul_mod_self_left, aligned.size]
  unfold State.eePass State.HandleEETransfer
  split_ifs
  · exact ⟨aligned.tte, aligned.size, aligned.counter⟩
  · exact ⟨aligned.tte, aligned.size, aligned.counter⟩
  · unfold State.ProcessEETag
    split
    · exact ⟨aligned.tte, aligned.size, aligned.counter⟩
    · simp only [aligned.tte, Bool.false_eq_true, reduceIte]
      exact ⟨by simp [Registers.readTag, hwDmacSrcChain_chcr, Registers.transfer, aligned.tte], aligned.size, aligned.counter⟩
  · exact ⟨aligned.tte, aligned.size, aligned.counter⟩
  · unfold State.WriteEEtoFifo
    split
    · exact ⟨aligned.tte, aligned.size, aligned.counter⟩
    · refine ⟨by simp [aligned.tte], ?_, aligned.counter⟩
      simp only [writeFifo_size, quadWords_length]
      exact whole _
  · exact aligned
  · exact aligned

theorem Aligned.iopPass (aligned : Aligned s) : Aligned (s.iopPass host) := by
  have size := aligned.size
  have counter := aligned.counter
  have whole (words : Word) : (words &&& 0xFFFFC).toNat % 4 = 0 := by
    rw [BitVec.toNat_and, Nat.and_mod_two_pow (n := 2)]
    exact Nat.and_zero _
  have written : Aligned (s.WriteFifoToIOP host) := by
    refine ⟨aligned.tte, ?_, ?_⟩
    · show (s.fifo.size - min s.counter s.fifo.size) % 4 = 0
      omega
    · show (s.counter - min s.counter s.fifo.size) % 4 = 0
      omega
  have later (u : State) (aligned : Aligned u) : Aligned
      (if u.counter = 0 then if u.iopEnd then u.EndIOP else if 4 ≤ u.fifo.size then u.SIFIOPReadTag else u else u) := by
    have size := aligned.size
    split_ifs with empty last stored
    · exact ⟨aligned.tte, aligned.size, aligned.counter⟩
    · refine ⟨aligned.tte, ?_, whole _⟩
      show (u.fifo.size - 4) % 4 = 0
      omega
    · exact aligned
    · exact aligned
  unfold State.iopPass
  split
  · unfold State.HandleIOPTransfer
    split
    · exact later _ written
    · exact later _ aligned
  · exact aligned

theorem Aligned.loopProceeds (aligned : Aligned s) (chain : s.eeBusy = true → ChainEnds host s.reading) :
    s.LoopProceeds host := by
  rw [loopProceeds_iff chain]
  intro passes
  rw [State.loop_eq]
  have keeps : ∀ u, Aligned u → u.busyCheck host = true → Aligned (u.pass host) := fun u aligned _ => aligned.eePass.iopPass
  exact (busyLoop_invariant keeps aligned passes).fed

end Sif1

/-! ## Both -/

theorem proceed_iff {host : Host} {iopMem : Nat → Byte} {s₀ : Sif0.State} {s₁ : Sif1.State}
    (iopChain : s₀.iopBusy = true → s₀.iopEnd = false → ∃ k : Nat,
      Sif1.State.endsIop (Sif0.State.tagAt host iopMem (s₀.tadr + BitVec.ofNat 32 (16 * k))).1 = true)
    (eeChain : s₁.eeBusy = true → Sif1.ChainEnds host s₁.reading) :
    s₀.Proceeds host iopMem ∧ s₁.Proceeds host ↔
      ((s₁.sif1_dma_stall && s₁.aboveStadr) = false →
        ∀ passes, ¬({ s₁ with sif1_dma_stall := false }.loop host passes).Starved host) := by
  have loop : Sif1.State.LoopProceeds host { s₁ with sif1_dma_stall := false } ↔ _ := Sif1.loopProceeds_iff eeChain
  rw [Sif1.State.Proceeds, loop, and_iff_right (Sif0.proceeds iopChain)]
  cases (s₁.sif1_dma_stall && s₁.aboveStadr) <;> simp

def onePacket : Host where
  mem := fun region i => if region = .main ∧ i = 0 then 0x0000100000000020 else 0
  exposedRam := 0x2000000
  exposedIopRam := 0x200000

def twoWords (i : Nat) : Byte := if i = 3 then 0x80 else if i = 4 then 2 else 0

/-- The tag is sent if `TTE` is set. -/
def Sif1.started (TTE : Bool) : Sif1.State where
  fifo := .clear
  eeEnd := false
  eeBusy := true
  iopEnd := false
  iopBusy := false
  counter := 0
  data := 0
  words := 0
  sif1ch := ⟨⟨CHAIN_MODE, 0, TTE, false, true, 0⟩, 0, 0, 0, 0, 0⟩
  madr := 0
  iopMem := fun _ => 0
  sif1_dma_stall := false
  std := false
  stadr := 0
  eeEnds := 0
  iopEnds := 0
  sent := []
  taken := 0
  last := false

def Sif0.started : Sif0.State where
  fifo := .clear
  eeEnd := false
  eeBusy := true
  iopEnd := false
  iopBusy := true
  writeJunk := 0
  counter := 0
  data := 0
  words := 0
  sif0ch := ⟨⟨CHAIN_MODE, 0, false, false, true, 0⟩, 0, 0, 0, 0, 0⟩
  eeMem := onePacket.mem
  madr := 0
  tadr := 0
  sts := false
  stadr := 0
  eeEnds := 0
  iopEnds := 0
  sent := 0
  taken := 0

theorem started_chain (TTE : Bool) : Sif1.ChainEnds onePacket (Sif1.started TTE).reading := by
  have packet : (Sif1.nextTag onePacket (Sif1.started TTE).reading).map Reading.last = some true := by
    cases TTE <;> decide
  obtain ⟨r, next, last⟩ := Option.map_eq_some_iff.mp packet
  exact .tag next (.last (by simp [Sif1.nextTag, last]))

theorem packets_proceed : Sif0.started.Proceeds onePacket twoWords ∧ (Sif1.started false).Proceeds onePacket := by
  refine (proceed_iff (fun _ _ => ⟨0, by decide⟩) fun _ => started_chain false).mpr fun _ passes => ?_
  have aligned : Sif1.Aligned (Sif1.started false) := ⟨rfl, rfl, rfl⟩
  exact (Sif1.loopProceeds_iff fun _ => started_chain false).mp (aligned.loopProceeds fun _ => started_chain false) passes

/-- With its tag the packet does not fit into the FIFO. -/
theorem tagged_packet_starves : ¬ ∀ (host : Host) (s : Sif1.State),
    (s.eeBusy = true → Sif1.ChainEnds host s.reading) → s.Proceeds host := by
  intro all
  have free : ((Sif1.started true).loop onePacket 2).fifo.sif_free = 2 := by decide +kernel
  have starved : ((Sif1.started true).loop onePacket 2).Starved onePacket :=
    ⟨⟨rfl, rfl, by decide, rfl, rfl, rfl, by rw [free]; decide, by rw [free]; decide⟩, rfl⟩
  rcases all onePacket (Sif1.started true) fun _ => started_chain true with early | proceeds
  · exact absurd early (by decide)
  · exact (Sif1.loopProceeds_iff fun _ => started_chain true).mp proceeds 2 starved

end Pcsx2.Sif
