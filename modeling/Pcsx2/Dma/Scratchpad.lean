import Mathlib.Algebra.Order.Ring.Nat
import Mathlib.Tactic.SplitIfs
import Pcsx2.Dma.Chain

/-!
# Transfers to and from the scratchpad

The channels of the scratchpad move a block in pieces, one an interrupt. `SADR` is kept as the number of its quadword.
-/

namespace Pcsx2.Dma
open Foundation

/-! ## Memory -/

inductive HostArray
  | scratch
  | main
  | zeroRead
  | zeroWrite
  | vu0Micro
  | vu0Mem
  | vu1Micro
  | vu1Mem
  deriving DecidableEq

/-- A quadword of a host array. -/
abbrev Host := HostArray × Nat

def Host.shift (host : Host) (i : Nat) : Host := (host.1, host.2 + i)

def SPRdmaGetAddr (exposedRam : Nat) (addr : Word) (write : Bool) : Option Host :=
  if addr &&& 0x70000000 = 0x70000000 then some (.scratch, (addr &&& 0x3ff0).toNat / 16)
  else
    let addr := addr &&& 0x1ffffff0
    if addr.toNat < exposedRam then some (.main, addr.toNat / 16)
    else if addr < 0x10000000 then some (if write then .zeroWrite else .zeroRead, 0)
    else if addr ≥ 0x11000000 ∧ addr < 0x11010000 then
      if addr ≥ 0x1100c000 then some (.vu1Mem, (addr &&& 0x3ff0).toNat / 16)
      else if addr ≥ 0x11004000 ∧ addr < 0x11008000 then some (.vu0Mem, (addr &&& 0xff0).toNat / 16)
      else if addr < 0x11004000 then some (.vu0Micro, (addr &&& 0xff0).toNat / 16)
      else some (.vu1Micro, (addr &&& 0x3ff0).toNat / 16)
    else none

/-- The quadwords of a copy, which wraps around at most once. It goes wrong where it runs past the scratchpad. -/
def scratchQuads (first count : Nat) : Option (List Nat) :=
  if first + count ≥ 0x400 then
    if first + count - 0x400 ≤ 0x400 then
      some (List.range' first (0x400 - first) ++ List.range' 0 (first + count - 0x400))
    else none
  else some (List.range' first count)

/-- A quadword is moved between a place in memory and one in the scratchpad. -/
abbrev Move := Host × Nat

/-- `memcpy_from_spr` and `memcpy_to_spr`, up to the direction. -/
def memcpySpr (host : Host) (first count : Nat) : Option (List Move) :=
  (scratchQuads first count).map fun quads => ((List.range count).map host.shift).zip quads

/-! ## Channels -/

def INTERLEAVE_MODE : BitVec 2 := 2

structure Spr extends Registers where
  sadr : BitVec 10
  finished : Bool

namespace Spr

def advance (s : Spr) (count : Nat) : Spr :=
  { s with madr := s.madr + .ofNat 32 (count * 16), sadr := s.sadr + .ofNat 10 count, qwc := s.qwc - count }

end Spr

/-- What the channels read of the registers of the DMAC. `hwMFIFOWrite` says what a write into the ring moves. -/
structure DmacRegisters where
  exposedRam : Nat
  MFD : BitVec 2
  rborADDR : Word
  rbsrRMSK : Word
  SQWC : BitVec 8
  TQWC : BitVec 8
  hwMFIFOWrite : Word → BitVec 10 → Nat → List Move

def NO_MFD : BitVec 2 := 0
def MFD_RESERVED : BitVec 2 := 1
def MFD_VIF1 : BitVec 2 := 2
def MFD_GIF : BitVec 2 := 3

variable (dmac : DmacRegisters) (mem : HostArray → Nat → Quad)

def DmacRegisters.InRing (madr : Word) : Prop := dmac.rborADDR ≤ madr ∧ madr < dmac.rborADDR + dmac.rbsrRMSK + 16

instance (madr : Word) : Decidable (dmac.InRing madr) := inferInstanceAs (Decidable (_ ∧ _))

/-! ## Blocks of an interleaved transfer -/

/-- The loop of an interleaved transfer, with what is left to transfer. A turn transfers at least one quadword. -/
def interleaveLoop (copy : Spr → Nat → Option (List Move)) (sqwc tqwc : Nat) :
    Nat → Nat → Spr → Option (List Move × Spr)
  | 0, _, s => some ([], s)
  | fuel + 1, qwc, s =>
    if qwc = 0 then some ([], s)
    else
      let count := min tqwc qwc
      (copy s count).bind fun moves =>
        let madr := s.madr + .ofNat 32 ((sqwc + count) * 16)
        (interleaveLoop copy sqwc tqwc fuel (qwc - count) { s with madr, sadr := s.sadr + .ofNat 10 count, qwc := count }).map
          fun rest => (moves ++ rest.1, rest.2)

def DmacRegisters.tqwc (qwc : Nat) : Nat := if dmac.TQWC = 0 then qwc else dmac.TQWC.toNat

def interleave (copy : Spr → Nat → Option (List Move)) (s : Spr) : Option (List Move × Spr) :=
  (interleaveLoop copy dmac.SQWC.toNat (dmac.tqwc s.qwc) s.qwc s.qwc s).map fun done => (done.1, { done.2 with qwc := 0 })

/-! ## From the scratchpad -/

/-- `_SPR0chain` -/
def SPR0chain (s : Spr) : Option (List Move × Spr) :=
  if s.qwc = 0 then some ([], s)
  else
    match SPRdmaGetAddr dmac.exposedRam s.madr true with
    | none => some ([], s)
    | some pMem =>
      let partialqwc := min s.qwc (0x400 - s.sadr.toNat)
      if dmac.InRing s.madr then
        -- no ring has been set up
        if dmac.rbsrRMSK = 0 then some ([], { s.advance s.qwc with finished := true })
        else
          let madr := dmac.rborADDR + ((s.madr + .ofNat 32 (partialqwc * 16)) &&& dmac.rbsrRMSK)
          some (dmac.hwMFIFOWrite s.madr s.sadr partialqwc, { s.advance partialqwc with madr, finished := true })
      else (memcpySpr pMem s.sadr.toNat partialqwc).map fun moves => (moves, s.advance partialqwc)

def SPR0copy (s : Spr) (count : Nat) : Option (List Move) :=
  if dmac.MFD = MFD_VIF1 ∨ dmac.MFD = MFD_GIF then some (dmac.hwMFIFOWrite s.madr s.sadr count)
  else (SPRdmaGetAddr dmac.exposedRam s.madr true).bind fun pMem => memcpySpr pMem s.sadr.toNat count

/-- `_SPR0interleave` -/
def SPR0interleave (s : Spr) : Option (List Move × Spr) := interleave dmac (SPR0copy dmac) s

/-- The tag at `SADR` is read: the registers of its packet, and whether it is the last one. -/
def SPR0tag (s : Spr) : Spr × Bool :=
  let ptag := mem .scratch s.sadr.toNat
  let tag : Tag := ptag.word 0
  ({ s with toRegisters := { s.transfer tag with madr := ptag.word 1 }, sadr := s.sadr + 1 },
    tag.ID = TAG_END || (s.chcr.TIE && tag.IRQ))

/-- `_dmaSPR0` -/
def dmaSPR0 (s : Spr) : Option (List Move × Spr) :=
  if s.chcr.MOD = NORMAL_MODE then (SPR0chain dmac s).map fun done => (done.1, { done.2 with finished := true })
  else if s.chcr.MOD = CHAIN_MODE then
    if s.qwc > 0 then SPR0chain dmac s
    else (SPR0chain dmac (SPR0tag mem s).1).map fun done => (done.1, { done.2 with finished := (SPR0tag mem s).2 })
  else (SPR0interleave dmac s).map fun done => (done.1, { done.2 with finished := true })

def SPRFROMinterrupt (s : Spr) : Option (List Move × Spr) :=
  if s.finished = false ∨ s.qwc > 0 then dmaSPR0 dmac mem s else some ([], { s with chcr.STR := false })

/-! ## To the scratchpad -/

/-- `_SPR1chain` -/
def SPR1chain (s : Spr) : Option (List Move × Spr) :=
  if s.qwc = 0 then some ([], s)
  else
    match SPRdmaGetAddr dmac.exposedRam s.madr false with
    | none => some ([], s)
    | some pMem =>
      let partialqwc := min s.qwc 0x400
      (memcpySpr pMem s.sadr.toNat partialqwc).map fun moves =>
        (moves, { s.advance partialqwc with toRegisters := (s.advance partialqwc).hwDmacSrcTadrInc })

def SPR1copy (s : Spr) (count : Nat) : Option (List Move) :=
  (SPRdmaGetAddr dmac.exposedRam s.madr false).bind fun pMem => memcpySpr pMem s.sadr.toNat count

/-- `_SPR1interleave` -/
def SPR1interleave (s : Spr) : Option (List Move × Spr) := interleave dmac (SPR1copy dmac) s

/-- The tag at `TADR` is read, and moved if the channel transfers tags. Where it is not in memory this goes wrong. -/
def SPR1tag (s : Spr) : Option (List Move × Spr × Bool) :=
  (SPRdmaGetAddr dmac.exposedRam s.tadr false).bind fun host =>
    let ptag := mem host.1 host.2
    let tag : Tag := ptag.word 0
    let s := { s with toRegisters := { s.transfer tag with madr := ptag.word 1 } }
    let next := s.hwDmacSrcChain tag.ID
    let last := next.2 || (s.chcr.TIE && tag.IRQ)
    if s.chcr.TTE then
      (memcpySpr host s.sadr.toNat 1).map fun moves => (moves, { s with toRegisters := next.1, sadr := s.sadr + 1 }, last)
    else some ([], { s with toRegisters := next.1 }, last)

/-- `_dmaSPR1` -/
def dmaSPR1 (s : Spr) : Option (List Move × Spr) :=
  if s.chcr.MOD = NORMAL_MODE then (SPR1chain dmac s).map fun done => (done.1, { done.2 with finished := true })
  else if s.chcr.MOD = CHAIN_MODE then
    if s.qwc > 0 then SPR1chain dmac s
    else
      (SPR1tag dmac mem s).bind fun tag =>
        (SPR1chain dmac tag.2.1).map fun done => (tag.1 ++ done.1, { done.2 with finished := tag.2.2 })
  else (SPR1interleave dmac s).map fun done => (done.1, { done.2 with finished := true })

def SPRTOinterrupt (s : Spr) : Option (List Move × Spr) :=
  if s.finished = false ∨ s.qwc > 0 then dmaSPR1 dmac mem s else some ([], { s with chcr.STR := false })

/-! ## What is transferred -/

inductive Direction
  | fromSPR
  | toSPR
  deriving DecidableEq

namespace Direction

variable (d : Direction)

def write : Bool := d = fromSPR

def chain : Spr → Option (List Move × Spr) :=
  match d with
  | fromSPR => SPR0chain dmac
  | toSPR => SPR1chain dmac

def interrupt : Spr → Option (List Move × Spr) :=
  match d with
  | fromSPR => SPRFROMinterrupt dmac mem
  | toSPR => SPRTOinterrupt dmac mem

def tag (s : Spr) : Option (List Move × Spr) :=
  match d with
  | fromSPR => some ([], (SPR0tag mem s).1)
  | toSPR => (SPR1tag dmac mem s).map fun tag => (tag.1, tag.2.1)

/-- The block that the next interrupt works at. -/
def block (s : Spr) : Option (List Move × Spr) :=
  if s.chcr.MOD = CHAIN_MODE ∧ s.qwc = 0 then d.tag dmac mem s else some ([], s)

def working (s : Spr) : Option (List Move × Spr) := if s.qwc > 0 then d.interrupt dmac mem s else none

def addr (madr : Word) : Option Host := SPRdmaGetAddr dmac.exposedRam madr d.write

end Direction

def distance (sqwc tqwc i : Nat) : Nat := i / tqwc * (sqwc + tqwc) + i % tqwc

def prescribed (addr : Word → Option Host) (sqwc tqwc : Nat) (madr : Word) (sadr : BitVec 10) (qwc : Nat) :
    List (Option Host × Nat) :=
  (List.range qwc).map fun i => (addr (madr + .ofNat 32 (distance sqwc tqwc i * 16)), (sadr.toNat + i) % 0x400)

def targets (moves : List Move) : List (Option Host × Nat) := moves.map fun move => (some move.1, move.2)

/-- The turns of a block move what they should, and `SADR` ends behind it. -/
def Direction.Moved (d : Direction) (s : Spr) : Prop :=
  ∃ tag b first u rest t, d.block dmac mem s = some (tag, b) ∧ d.interrupt dmac mem s = some (tag ++ first, u) ∧
    Emits (d.working dmac mem) u rest t ∧ t.qwc = 0 ∧ t.sadr = b.sadr + .ofNat 10 b.qwc ∧
    targets (first ++ rest) =
      if s.chcr.MOD = NORMAL_MODE ∨ s.chcr.MOD = CHAIN_MODE then prescribed (d.addr dmac) 0 1 b.madr b.sadr b.qwc
      else prescribed (d.addr dmac) dmac.SQWC.toNat (dmac.tqwc b.qwc) b.madr b.sadr b.qwc

def Direction.RingOff (d : Direction) (b : Spr) : Prop :=
  d = fromSPR → dmac.rbsrRMSK = 0 ∨ ∀ i < b.qwc, ¬dmac.InRing (b.madr + .ofNat 32 (i * 16))

/-- The MFIFO is not in use. -/
def Direction.MfifoOff (d : Direction) (b : Spr) : Prop :=
  (d = fromSPR → dmac.MFD ≠ MFD_VIF1 ∧ dmac.MFD ≠ MFD_GIF) ∧
    (b.chcr.MOD = NORMAL_MODE ∨ b.chcr.MOD = CHAIN_MODE → d.RingOff dmac b)

def Contiguous (addr : Word → Option Host) (madr : Word) (count : Nat) : Prop :=
  ∃ host, addr madr = some host ∧ ∀ i < count, addr (madr + .ofNat 32 (i * 16)) = some (host.shift i)

def Straight (addr : Word → Option Host) (fit : Word → BitVec 10 → Nat → Prop) (limit : BitVec 10 → Nat) (sqwc : Nat)
    (qwc : Nat) (madr : Word) (sadr : BitVec 10) : Prop :=
  if qwc = 0 then True
  else
    let count := min (limit sadr) qwc
    fit madr sadr count ∧ Contiguous addr madr count ∧
      (0 < count → Straight addr fit limit sqwc (qwc - count) (madr + .ofNat 32 ((sqwc + count) * 16)) (sadr + .ofNat 10 count))
termination_by qwc
decreasing_by omega

def Direction.limit (d : Direction) (sadr : BitVec 10) : Nat :=
  match d with
  | fromSPR => 0x400 - sadr.toNat
  | toSPR => 0x400

def Direction.Fit (d : Direction) (madr : Word) : Prop := d = fromSPR → ¬dmac.InRing madr

/-- The blocks that are moved as they should. -/
def Direction.Good (d : Direction) (b : Spr) : Prop :=
  if b.chcr.MOD = NORMAL_MODE ∨ b.chcr.MOD = CHAIN_MODE then
    Straight (d.addr dmac) (fun madr _ _ => d.Fit dmac madr) d.limit 0 b.qwc b.madr b.sadr
  else
    Straight (d.addr dmac) (fun _ sadr count => sadr.toNat + count ≤ 0x800) (fun _ => dmac.tqwc b.qwc) dmac.SQWC.toNat
      b.qwc b.madr b.sadr

/-! ## Copies -/

theorem scratchQuads_eq {first count : Nat} (inside : first < 0x400) : scratchQuads first count =
    if first + count ≤ 0x800 then some ((List.range count).map fun i => (first + i) % 0x400) else none := by
  unfold scratchQuads
  by_cases wraps : first + count ≥ 0x400
  · by_cases fits : first + count ≤ 0x800
    · rw [if_pos wraps, if_pos (by omega), if_pos fits, Option.some.injEq]
      refine List.ext_getElem (by simp; omega) fun i left right => ?_
      simp only [List.length_append, List.length_range'] at left
      simp only [List.getElem_append, List.getElem_range', List.getElem_map, List.getElem_range, List.length_range']
      split <;> omega
    · rw [if_pos wraps, if_neg (by omega), if_neg fits]
  · rw [if_neg wraps, if_pos (by omega), Option.some.injEq]
    refine List.ext_getElem (by simp) fun i left right => ?_
    simp only [List.length_range'] at left
    simp only [List.getElem_range', List.getElem_map, List.getElem_range]
    omega

def runMoves (host : Host) (sadr : BitVec 10) (count : Nat) : List Move :=
  (List.range count).map fun i => (host.shift i, (sadr.toNat + i) % 0x400)

theorem memcpySpr_eq (host : Host) (sadr : BitVec 10) (count : Nat) :
    memcpySpr host sadr.toNat count = if sadr.toNat + count ≤ 0x800 then some (runMoves host sadr count) else none := by
  rw [memcpySpr, scratchQuads_eq sadr.isLt]
  split
  · rw [Option.map_some, List.zip_map', runMoves]
  · rfl

/-! ## Pieces -/

variable {addr : Word → Option Host} {sqwc tqwc : Nat} {madr : Word} {sadr : BitVec 10}

theorem distance_zero (i : Nat) : distance 0 1 i = i := by
  simp [distance, Nat.mod_one]

theorem distance_inside {i : Nat} (inside : i < tqwc) : distance sqwc tqwc i = i := by
  simp [distance, Nat.div_eq_of_lt inside, Nat.mod_eq_of_lt inside]

theorem distance_behind (positive : 0 < tqwc) (i : Nat) :
    distance sqwc tqwc (tqwc + i) = sqwc + tqwc + distance sqwc tqwc i := by
  rw [distance, distance, Nat.add_div_left _ positive, Nat.add_mod_left, Nat.succ_mul]
  omega

theorem madr_add (m n : Nat) : madr + .ofNat 32 (m * 16) + .ofNat 32 (n * 16) = madr + .ofNat 32 ((m + n) * 16) := by
  rw [BitVec.add_assoc, ← BitVec.ofNat_add, Nat.add_mul]

theorem sadr_add (m n : Nat) : sadr + .ofNat 10 m + .ofNat 10 n = sadr + .ofNat 10 (m + n) := by
  rw [BitVec.add_assoc, ← BitVec.ofNat_add]

theorem sadr_mod (m n : Nat) : ((sadr + .ofNat 10 m).toNat + n) % 0x400 = (sadr.toNat + (m + n)) % 0x400 := by
  rw [BitVec.toNat_add, BitVec.toNat_ofNat]
  omega

theorem prescribed_split {count rest gap : Nat} (near : ∀ i < count, distance sqwc tqwc i = i)
    (far : ∀ i < rest, distance sqwc tqwc (count + i) = gap + count + distance sqwc tqwc i) :
    prescribed addr sqwc tqwc madr sadr (count + rest) =
      ((List.range count).map fun i => (addr (madr + .ofNat 32 (i * 16)), (sadr.toNat + i) % 0x400)) ++
        prescribed addr sqwc tqwc (madr + .ofNat 32 ((gap + count) * 16)) (sadr + .ofNat 10 count) rest := by
  rw [prescribed, prescribed, List.range_add, List.map_append, List.map_map]
  congr 1
  · refine List.map_congr_left fun i member => ?_
    rw [near i (List.mem_range.1 member)]
  · refine List.map_congr_left fun i member => ?_
    rw [Function.comp_apply, far i (List.mem_range.1 member), madr_add, sadr_mod]

theorem targets_runMoves (host : Host) (count : Nat) : targets (runMoves host sadr count) =
    ((List.range count).map fun i => (addr (madr + .ofNat 32 (i * 16)), (sadr.toNat + i) % 0x400)) ↔
      ∀ i < count, addr (madr + .ofNat 32 (i * 16)) = some (host.shift i) := by
  rw [targets, runMoves, List.map_map, List.map_inj_left]
  simp only [List.mem_range, Function.comp_apply, Prod.mk.injEq, and_true]
  exact forall₂_congr fun i below => eq_comm

theorem targets_append {host : Host} {count rest gap : Nat} {moves : List Move}
    (near : ∀ i < count, distance sqwc tqwc i = i)
    (far : ∀ i < rest, distance sqwc tqwc (count + i) = gap + count + distance sqwc tqwc i) :
    targets (runMoves host sadr count ++ moves) = prescribed addr sqwc tqwc madr sadr (count + rest) ↔
      (∀ i < count, addr (madr + .ofNat 32 (i * 16)) = some (host.shift i)) ∧
        targets moves = prescribed addr sqwc tqwc (madr + .ofNat 32 ((gap + count) * 16)) (sadr + .ofNat 10 count) rest := by
  have length : (targets (runMoves host sadr count)).length =
      ((List.range count).map fun i => (addr (madr + .ofNat 32 (i * 16)), (sadr.toNat + i) % 0x400)).length := by
    simp [targets, runMoves]
  rw [prescribed_split near far, ← targets_runMoves, targets, List.map_append]
  constructor
  · exact fun same => List.append_inj same length
  · rintro ⟨first, later⟩
    exact congrArg₂ _ first later

/-! ## A piece of a block -/

/-- The two states work at one block. -/
structure Same (u b : Spr) : Prop where
  madr : u.madr = b.madr
  sadr : u.sadr = b.sadr
  qwc : u.qwc = b.qwc
  mode : u.chcr.MOD = b.chcr.MOD

variable {dmac mem} {d : Direction} {s b u t : Spr} {moves : List Move}

/-- What an interrupt does at a block: nothing is left, the address is not mapped, the address is in the ring, or a piece
is moved. -/
inductive Piece (dmac : DmacRegisters) (d : Direction) (b : Spr) : List Move → Spr → Prop
  | done {u : Spr} : b.qwc = 0 → Same u b → Piece dmac d b [] u
  | unmapped {u : Spr} : 0 < b.qwc → d.addr dmac b.madr = none → Same u b → Piece dmac d b [] u
  | skipped {u : Spr} {host : Host} : 0 < b.qwc → ¬d.Fit dmac b.madr → d.addr dmac b.madr = some host → u.qwc = 0 →
      Piece dmac d b [] u
  | moved {u : Spr} {host : Host} : 0 < b.qwc → d.Fit dmac b.madr → d.addr dmac b.madr = some host →
      Same u (b.advance (min (d.limit b.sadr) b.qwc)) →
      Piece dmac d b (runMoves host b.sadr (min (d.limit b.sadr) b.qwc)) u

theorem hwDmacSrcTadrInc_eq (ch : Registers) : ch.hwDmacSrcTadrInc.madr = ch.madr ∧
    ch.hwDmacSrcTadrInc.qwc = ch.qwc ∧ ch.hwDmacSrcTadrInc.chcr = ch.chcr := by
  unfold Registers.hwDmacSrcTadrInc
  split
  · exact ⟨rfl, rfl, rfl⟩
  · split
    · exact ⟨rfl, rfl, rfl⟩
    · split <;> exact ⟨rfl, rfl, rfl⟩

theorem memcpySpr_piece (host : Host) (d : Direction) (sadr : BitVec 10) (qwc : Nat) :
    memcpySpr host sadr.toNat (min (d.limit sadr) qwc) = some (runMoves host sadr (min (d.limit sadr) qwc)) := by
  have inside := sadr.isLt
  rw [memcpySpr_eq, if_pos]
  cases d <;> simp only [Direction.limit] <;> omega

theorem SPR0chain_piece (off : Direction.fromSPR.RingOff dmac b) :
    ∃ moves u, SPR0chain dmac b = some (moves, u) ∧ Piece dmac .fromSPR b moves u := by
  unfold SPR0chain
  by_cases empty : b.qwc = 0
  · exact ⟨_, _, if_pos empty, .done empty ⟨rfl, rfl, rfl, rfl⟩⟩
  · rw [if_neg empty]
    have positive : 0 < b.qwc := by omega
    cases mapped : SPRdmaGetAddr dmac.exposedRam b.madr true with
    | none => exact ⟨_, _, rfl, .unmapped positive mapped ⟨rfl, rfl, rfl, rfl⟩⟩
    | some pMem =>
      simp only
      by_cases inside : dmac.InRing b.madr
      · rw [if_pos inside]
        have none : dmac.rbsrRMSK = 0 := (off rfl).resolve_right fun outside => outside 0 positive (by simpa using inside)
        rw [if_pos none]
        exact ⟨_, _, rfl, .skipped positive (fun fit => fit rfl inside) mapped (by simp [Spr.advance])⟩
      · have copied := memcpySpr_piece pMem .fromSPR b.sadr b.qwc
        rw [if_neg inside, Nat.min_comm, ← Direction.limit.eq_1, copied, Option.map_some]
        exact ⟨_, _, rfl, .moved positive (fun _ => inside) mapped ⟨rfl, rfl, rfl, rfl⟩⟩

theorem SPR1chain_piece : ∃ moves u, SPR1chain dmac b = some (moves, u) ∧ Piece dmac .toSPR b moves u := by
  unfold SPR1chain
  by_cases empty : b.qwc = 0
  · exact ⟨_, _, if_pos empty, .done empty ⟨rfl, rfl, rfl, rfl⟩⟩
  · rw [if_neg empty]
    have positive : 0 < b.qwc := by omega
    cases mapped : SPRdmaGetAddr dmac.exposedRam b.madr false with
    | none => exact ⟨_, _, rfl, .unmapped positive mapped ⟨rfl, rfl, rfl, rfl⟩⟩
    | some pMem =>
      have copied := memcpySpr_piece pMem .toSPR b.sadr b.qwc
      simp only
      rw [Nat.min_comm, ← Direction.limit.eq_2 b.sadr, copied, Option.map_some]
      obtain ⟨madr, qwc, chcr⟩ := hwDmacSrcTadrInc_eq (b.advance (min (Direction.toSPR.limit b.sadr) b.qwc)).toRegisters
      refine ⟨_, _, rfl, .moved positive (fun direction => Direction.noConfusion direction) mapped ⟨madr, rfl, qwc, ?_⟩⟩
      rw [← chcr]

theorem Piece.finish (piece : Piece dmac d b moves u) (finished : Bool) : Piece dmac d b moves { u with finished } := by
  cases piece with
  | done empty same => exact .done empty ⟨same.1, same.2, same.3, same.4⟩
  | unmapped positive none same => exact .unmapped positive none ⟨same.1, same.2, same.3, same.4⟩
  | skipped positive ring mapped empty => exact .skipped positive ring mapped empty
  | moved positive fit mapped same => exact .moved positive fit mapped ⟨same.1, same.2, same.3, same.4⟩

theorem interrupt_piece {tag : List Move} (busy : s.finished = false ∨ s.qwc > 0)
    (mode : s.chcr.MOD = NORMAL_MODE ∨ s.chcr.MOD = CHAIN_MODE) (block : d.block dmac mem s = some (tag, b))
    (off : d.RingOff dmac b) :
    ∃ moves u, d.interrupt dmac mem s = some (tag ++ moves, u) ∧ Piece dmac d b moves u := by
  have modes : CHAIN_MODE ≠ NORMAL_MODE := by decide
  cases d with
  | fromSPR =>
      obtain ⟨moves, u, chain, piece⟩ := SPR0chain_piece off
      simp only [Direction.interrupt, SPRFROMinterrupt, if_pos busy, dmaSPR0]
      rcases mode with normal | chained
      · rw [Direction.block, if_neg (fun both => modes (both.1.symm.trans normal))] at block
        cases block
        rw [if_pos normal, chain, Option.map_some]
        exact ⟨_, _, rfl, piece.finish true⟩
      · rw [if_neg (chained ▸ modes), if_pos chained]
        by_cases empty : s.qwc = 0
        · rw [Direction.block, if_pos ⟨chained, empty⟩] at block
          cases block
          rw [if_neg (by omega), chain, Option.map_some]
          exact ⟨_, _, rfl, piece.finish _⟩
        · rw [Direction.block, if_neg (fun both => empty both.2)] at block
          cases block
          rw [if_pos (by omega), chain]
          exact ⟨_, _, rfl, piece⟩
  | toSPR =>
      have taken : ∃ moves u, SPR1chain dmac b = some (moves, u) ∧ Piece dmac .toSPR b moves u := SPR1chain_piece
      obtain ⟨moves, u, chain, piece⟩ := taken
      simp only [Direction.interrupt, SPRTOinterrupt, if_pos busy, dmaSPR1]
      rcases mode with normal | chained
      · rw [Direction.block, if_neg (fun both => modes (both.1.symm.trans normal))] at block
        cases block
        rw [if_pos normal, chain, Option.map_some]
        exact ⟨_, _, rfl, piece.finish true⟩
      · rw [if_neg (chained ▸ modes), if_pos chained]
        by_cases empty : s.qwc = 0
        · rw [Direction.block, if_pos ⟨chained, empty⟩, Direction.tag, Option.map_eq_some_iff] at block
          obtain ⟨read, tagged, equal⟩ := block
          cases equal
          rw [if_neg (by omega), tagged, Option.bind_some, chain, Option.map_some]
          exact ⟨_, _, rfl, piece.finish _⟩
        · rw [Direction.block, if_neg (fun both => empty both.2)] at block
          cases block
          rw [if_pos (by omega), chain]
          exact ⟨_, _, rfl, piece⟩

/-! ## A block in pieces -/

theorem working_piece (mode : u.chcr.MOD = NORMAL_MODE ∨ u.chcr.MOD = CHAIN_MODE) (off : d.RingOff dmac u) (more : 0 < u.qwc) :
    ∃ moves v, d.working dmac mem u = some (moves, v) ∧ Piece dmac d u moves v := by
  have block : d.block dmac mem u = some ([], u) := if_neg fun both => by omega
  obtain ⟨moves, v, step, piece⟩ := interrupt_piece (.inr more) mode block off
  exact ⟨moves, v, by rw [Direction.working, if_pos more, step, List.nil_append], piece⟩

theorem working_stopped (empty : u.qwc = 0) : d.working dmac mem u = none := if_neg (by omega)

theorem RingOff.same (off : d.RingOff dmac b) (same : Same u b) : d.RingOff dmac u := by
  refine fun direction => (off direction).imp_right fun outside i below => ?_
  rw [same.madr]
  exact outside i (same.qwc ▸ below)

theorem RingOff.advance (off : d.RingOff dmac b) (count : Nat) : d.RingOff dmac (b.advance count) := by
  refine fun direction => (off direction).imp_right fun outside i below => ?_
  rw [Spr.advance, madr_add]
  exact outside (count + i) (by simp only [Spr.advance] at below; omega)

theorem unmapped_stuck (mode : b.chcr.MOD = NORMAL_MODE ∨ b.chcr.MOD = CHAIN_MODE) (off : d.RingOff dmac b)
    (unmapped : d.addr dmac b.madr = none) (same : Same u b) (ran : Emits (d.working dmac mem) u moves t) : Same t b := by
  induction ran with
  | nil => exact same
  | @cons u v t _ _ step _ ih =>
      refine ih ?_
      have more : 0 < u.qwc := Nat.pos_of_ne_zero fun empty => by rw [working_stopped empty] at step; cases step
      obtain ⟨moves, v, next, piece⟩ := working_piece (by rw [same.mode]; exact mode) (RingOff.same off same) more
      cases next.symm.trans step
      have none : d.addr dmac u.madr = none := by rw [same.madr, unmapped]
      cases piece with
      | done empty => exact absurd empty more.ne'
      | unmapped _ _ kept =>
          exact ⟨kept.madr.trans same.madr, kept.sadr.trans same.sadr, kept.qwc.trans same.qwc, kept.mode.trans same.mode⟩
      | skipped _ _ mapped => rw [none] at mapped; cases mapped
      | moved _ _ mapped => rw [none] at mapped; cases mapped

def Rest (dmac : DmacRegisters) (mem : HostArray → Nat → Quad) (d : Direction) (moves : List Move) (u b : Spr) : Prop :=
  ∃ rest t, Emits (d.working dmac mem) u rest t ∧ t.qwc = 0 ∧ t.sadr = b.sadr + .ofNat 10 b.qwc ∧
    targets (moves ++ rest) = prescribed (d.addr dmac) 0 1 b.madr b.sadr b.qwc

theorem rest_step {v : Spr} (more : 0 < u.qwc) (step : d.working dmac mem u = some (moves, v)) :
    Rest dmac mem d [] u u ↔ Rest dmac mem d moves v u := by
  constructor
  · rintro ⟨all, t, ran, empty, sadr, same⟩
    cases ran with
    | nil => omega
    | cons first later =>
        cases first.symm.trans step
        exact ⟨_, t, later, empty, sadr, same⟩
  · rintro ⟨rest, t, ran, empty, sadr, same⟩
    exact ⟨_, t, .cons step ran, empty, sadr, same⟩

theorem rest_moved {host : Host} {count : Nat} (inside : count ≤ b.qwc) (same : Same u (b.advance count)) :
    Rest dmac mem d (runMoves host b.sadr count) u b ↔
      (∀ i < count, d.addr dmac (b.madr + .ofNat 32 (i * 16)) = some (host.shift i)) ∧ Rest dmac mem d [] u u := by
  obtain ⟨rest, total⟩ := Nat.exists_eq_add_of_le inside
  have qwc : u.qwc = rest := by rw [same.qwc, Spr.advance, total, Nat.add_sub_cancel_left]
  have madr : u.madr = b.madr + .ofNat 32 ((0 + count) * 16) := by rw [same.madr, Nat.zero_add]; rfl
  have sadr : u.sadr = b.sadr + .ofNat 10 count := same.sadr
  have split (moves : List Move) : targets (runMoves host b.sadr count ++ moves) = prescribed (d.addr dmac) 0 1 b.madr b.sadr b.qwc ↔
      (∀ i < count, d.addr dmac (b.madr + .ofNat 32 (i * 16)) = some (host.shift i)) ∧
        targets ([] ++ moves) = prescribed (d.addr dmac) 0 1 u.madr u.sadr u.qwc := by
    rw [total, madr, sadr, qwc]
    exact targets_append (fun i _ => distance_zero i) fun i _ => by simp only [distance_zero, Nat.zero_add]
  have ends : u.sadr + .ofNat 10 u.qwc = b.sadr + .ofNat 10 b.qwc := by rw [sadr, qwc, sadr_add, total]
  simp only [Rest, split, ends]
  constructor
  · rintro ⟨moves, t, ran, empty, last, contiguous, later⟩
    exact ⟨contiguous, moves, t, ran, empty, last, later⟩
  · rintro ⟨contiguous, moves, t, ran, empty, last, later⟩
    exact ⟨moves, t, ran, empty, last, contiguous, later⟩

theorem piece_iff (piece : Piece dmac d b moves u) (mode : b.chcr.MOD = NORMAL_MODE ∨ b.chcr.MOD = CHAIN_MODE)
    (off : d.RingOff dmac b) : Rest dmac mem d moves u b ↔
      Straight (d.addr dmac) (fun madr _ _ => d.Fit dmac madr) d.limit 0 b.qwc b.madr b.sadr := by
  induction size : b.qwc using Nat.strongRecOn generalizing b moves u with
  | ind n ih =>
      subst size
      cases piece with
      | done empty same =>
          rw [Straight, if_pos empty, iff_true]
          refine ⟨[], u, .nil u, same.qwc.trans empty, ?_, ?_⟩
          · rw [same.sadr, empty]
            simp
          · rw [empty]
            rfl
      | unmapped positive none same =>
          refine iff_of_false ?_ ?_
          · rintro ⟨rest, t, ran, empty, -⟩
            have kept := (unmapped_stuck mode off none same ran).qwc
            omega
          · rw [Straight, if_neg positive.ne']
            rintro ⟨-, ⟨host, mapped, -⟩, -⟩
            rw [none] at mapped
            cases mapped
      | skipped positive ring mapped empty =>
          refine iff_of_false ?_ ?_
          · rintro ⟨rest, t, ran, -, -, same⟩
            obtain ⟨rfl, rfl⟩ := ran.of_stopped (working_stopped empty)
            have lengths := congrArg List.length same
            simp [targets, prescribed] at lengths
            omega
          · rw [Straight, if_neg positive.ne']
            exact fun straight => ring straight.1
      | @moved u host positive fit mapped same =>
          have taken : 0 < min (d.limit b.sadr) b.qwc := by
            have inside := b.sadr.isLt
            cases d <;> simp only [Direction.limit] <;> omega
          have count_le : min (d.limit b.sadr) b.qwc ≤ b.qwc := Nat.min_le_right ..
          rw [Straight, if_neg positive.ne']
          simp only
          generalize min (d.limit b.sadr) b.qwc = count at same taken count_le ⊢
          have qwc : u.qwc = b.qwc - count := same.qwc
          have off' : d.RingOff dmac u := RingOff.same (RingOff.advance off count) same
          have mode' : u.chcr.MOD = NORMAL_MODE ∨ u.chcr.MOD = CHAIN_MODE := by rw [same.mode]; exact mode
          have later : Rest dmac mem d [] u u ↔
              Straight (d.addr dmac) (fun madr _ _ => d.Fit dmac madr) d.limit 0 u.qwc u.madr u.sadr := by
            by_cases empty : u.qwc = 0
            · exact ih u.qwc (by omega) (.done empty ⟨rfl, rfl, rfl, rfl⟩) mode' off' rfl
            · have works : ∃ moves v, d.working dmac mem u = some (moves, v) ∧ Piece dmac d u moves v :=
                working_piece mode' off' (Nat.pos_of_ne_zero empty)
              obtain ⟨moves, v, step, piece⟩ := works
              rw [rest_step (Nat.pos_of_ne_zero empty) step]
              exact ih u.qwc (by omega) piece mode' off' rfl
          have madr : u.madr = b.madr + .ofNat 32 ((0 + count) * 16) := by rw [same.madr, Nat.zero_add]; rfl
          rw [rest_moved count_le same, later, qwc, madr, same.sadr]
          constructor
          · rintro ⟨contiguous, straight⟩
            exact ⟨fit, ⟨host, mapped, contiguous⟩, fun _ => straight⟩
          · rintro ⟨-, ⟨host', mapped', contiguous⟩, straight⟩
            cases mapped.symm.trans mapped'
            exact ⟨contiguous, straight taken⟩

/-! ## Interleaved blocks -/

variable {copy : Spr → Nat → Option (List Move)}

def LoopMoves (addr : Word → Option Host) (copy : Spr → Nat → Option (List Move)) (sqwc tqwc fuel qwc : Nat) (s : Spr) : Prop :=
  ∃ moves u, interleaveLoop copy sqwc tqwc fuel qwc s = some (moves, u) ∧ u.sadr = s.sadr + .ofNat 10 qwc ∧
    targets moves = prescribed addr sqwc tqwc s.madr s.sadr qwc

theorem loopMoves_turn {host : Host} {fuel qwc : Nat} (positive : 0 < tqwc) (more : 0 < qwc)
    (copied : copy s (min tqwc qwc) = some (runMoves host s.sadr (min tqwc qwc))) :
    LoopMoves addr copy sqwc tqwc (fuel + 1) qwc s ↔
      (∀ i < min tqwc qwc, addr (s.madr + .ofNat 32 (i * 16)) = some (host.shift i)) ∧
        LoopMoves addr copy sqwc tqwc fuel (qwc - min tqwc qwc)
          { s with madr := s.madr + .ofNat 32 ((sqwc + min tqwc qwc) * 16), sadr := s.sadr + .ofNat 10 (min tqwc qwc)
                   qwc := min tqwc qwc } := by
  obtain ⟨rest, total⟩ := Nat.exists_eq_add_of_le (Nat.min_le_right tqwc qwc)
  have left : qwc - min tqwc qwc = rest := by omega
  have near : ∀ i < min tqwc qwc, distance sqwc tqwc i = i := fun i below => distance_inside (by omega)
  have far : ∀ i < rest, distance sqwc tqwc (min tqwc qwc + i) = sqwc + min tqwc qwc + distance sqwc tqwc i := by
    intro i below
    rw [Nat.min_eq_left (by omega), distance_behind positive]
  have split (moves : List Move) : targets (runMoves host s.sadr (min tqwc qwc) ++ moves) =
      prescribed addr sqwc tqwc s.madr s.sadr qwc ↔
      (∀ i < min tqwc qwc, addr (s.madr + .ofNat 32 (i * 16)) = some (host.shift i)) ∧
        targets moves = prescribed addr sqwc tqwc (s.madr + .ofNat 32 ((sqwc + min tqwc qwc) * 16))
          (s.sadr + .ofNat 10 (min tqwc qwc)) rest := by
    have whole : prescribed addr sqwc tqwc s.madr s.sadr qwc =
        prescribed addr sqwc tqwc s.madr s.sadr (min tqwc qwc + rest) := congrArg _ total
    rw [whole]
    exact targets_append near far
  have ends : s.sadr + .ofNat 10 (min tqwc qwc) + .ofNat 10 rest = s.sadr + .ofNat 10 qwc := by rw [sadr_add, ← total]
  simp only [LoopMoves, interleaveLoop, if_neg more.ne', copied, Option.bind_some, left, Option.map_eq_some_iff, ends]
  constructor
  · rintro ⟨moves, u, ⟨later, ran, equal⟩, sadr, same⟩
    cases equal
    obtain ⟨contiguous, behind⟩ := (split later.1).mp same
    exact ⟨contiguous, later.1, later.2, ran, sadr, behind⟩
  · rintro ⟨contiguous, moves, u, ran, sadr, behind⟩
    exact ⟨_, u, ⟨(moves, u), ran, rfl⟩, sadr, (split moves).mpr ⟨contiguous, behind⟩⟩

theorem loopMoves_iff (copies : ∀ s count, copy s count = (addr s.madr).bind fun pMem => memcpySpr pMem s.sadr.toNat count)
    (fuel : Nat) {qwc : Nat} (enough : qwc ≤ fuel) (positive : 0 < qwc → 0 < tqwc) (s : Spr) :
    LoopMoves addr copy sqwc tqwc fuel qwc s ↔
      Straight addr (fun _ sadr count => sadr.toNat + count ≤ 0x800) (fun _ => tqwc) sqwc qwc s.madr s.sadr := by
  have nothing (fuel : Nat) (s : Spr) : LoopMoves addr copy sqwc tqwc fuel 0 s := by
    cases fuel with
    | zero => exact ⟨[], s, rfl, by simp, rfl⟩
    | succ fuel => exact ⟨[], s, rfl, by simp, rfl⟩
  induction fuel generalizing qwc s with
  | zero =>
      obtain rfl : qwc = 0 := by omega
      rw [Straight, if_pos rfl, iff_true]
      exact nothing 0 s
  | succ fuel ih =>
      by_cases empty : qwc = 0
      · subst empty
        rw [Straight, if_pos rfl, iff_true]
        exact nothing (fuel + 1) s
      · have more : 0 < qwc := Nat.pos_of_ne_zero empty
        have taken : 0 < min tqwc qwc := Nat.lt_min.mpr ⟨positive more, more⟩
        rw [Straight, if_neg empty]
        have copied := copies s (min tqwc qwc)
        cases mapped : addr s.madr with
        | none =>
            rw [mapped, Option.bind_none] at copied
            refine iff_of_false ?_ ?_
            · rintro ⟨moves, u, ran, -⟩
              simp [interleaveLoop, empty, copied] at ran
            · rintro ⟨-, ⟨host, at_host, -⟩, -⟩
              cases mapped.symm.trans at_host
        | some host =>
            rw [mapped, Option.bind_some, memcpySpr_eq] at copied
            by_cases fits : s.sadr.toNat + min tqwc qwc ≤ 0x800
            · rw [if_pos fits] at copied
              have enough' : qwc - min tqwc qwc ≤ fuel := by omega
              rw [loopMoves_turn (positive more) more copied]
              refine (and_congr_right fun _ => ih enough' (fun _ => positive more) _).trans ?_
              constructor
              · rintro ⟨contiguous, straight⟩
                exact ⟨fits, ⟨host, mapped, contiguous⟩, fun _ => straight⟩
              · rintro ⟨-, ⟨host', mapped', contiguous⟩, straight⟩
                cases mapped.symm.trans mapped'
                exact ⟨contiguous, straight taken⟩
            · rw [if_neg fits] at copied
              refine iff_of_false ?_ fun straight => fits straight.1
              rintro ⟨moves, u, ran, -⟩
              simp [interleaveLoop, empty, copied] at ran

def Direction.turn (d : Direction) (dmac : DmacRegisters) (s : Spr) (count : Nat) : Option (List Move) :=
  (d.addr dmac s.madr).bind fun pMem => memcpySpr pMem s.sadr.toNat count

theorem interrupt_interleave (busy : s.finished = false ∨ s.qwc > 0)
    (mode : ¬(s.chcr.MOD = NORMAL_MODE ∨ s.chcr.MOD = CHAIN_MODE))
    (off : d = .fromSPR → dmac.MFD ≠ MFD_VIF1 ∧ dmac.MFD ≠ MFD_GIF) :
    d.interrupt dmac mem s =
      (interleave dmac (d.turn dmac) s).map fun done => (done.1, { done.2 with finished := true }) := by
  obtain ⟨normal, chained⟩ := not_or.mp mode
  cases d with
  | fromSPR =>
      have copies : SPR0copy dmac = Direction.fromSPR.turn dmac := by
        funext s count
        exact if_neg fun on => on.elim (off rfl).1 (off rfl).2
      simp only [Direction.interrupt, SPRFROMinterrupt, if_pos busy, dmaSPR0, if_neg normal, if_neg chained, SPR0interleave,
        copies]
  | toSPR =>
      simp only [Direction.interrupt, SPRTOinterrupt, if_pos busy, dmaSPR1, if_neg normal, if_neg chained, SPR1interleave]
      rfl

theorem moved_interleave_iff (busy : s.finished = false ∨ s.qwc > 0)
    (mode : ¬(s.chcr.MOD = NORMAL_MODE ∨ s.chcr.MOD = CHAIN_MODE))
    (off : d = .fromSPR → dmac.MFD ≠ MFD_VIF1 ∧ dmac.MFD ≠ MFD_GIF) : d.Moved dmac mem s ↔
      LoopMoves (d.addr dmac) (d.turn dmac) dmac.SQWC.toNat (dmac.tqwc s.qwc) s.qwc s.qwc s := by
  have block : d.block dmac mem s = some ([], s) := if_neg fun chained => mode (.inr chained.1)
  rw [Direction.Moved, interrupt_interleave busy mode off, block]
  simp only [if_neg mode]
  constructor
  · rintro ⟨tag, b, first, u, rest, t, same, ran, emits, -, sadr, moves⟩
    cases same
    simp only [interleave, Option.map_map, Option.map_eq_some_iff] at ran
    obtain ⟨done, ran, equal⟩ := ran
    cases equal
    obtain ⟨rfl, rfl⟩ := emits.of_stopped (working_stopped rfl)
    exact ⟨done.1, done.2, ran, sadr, by simpa using moves⟩
  · rintro ⟨moves, u, ran, sadr, same⟩
    refine ⟨[], s, moves, { u with qwc := 0, finished := true }, [], _, rfl, ?_, .nil _, rfl, sadr, by simpa using same⟩
    rw [interleave, ran]
    rfl

/-! ## What the channels move -/

theorem hwDmacSrcChain_mode (ch : Registers) (id : BitVec 3) : (ch.hwDmacSrcChain id).1.chcr = ch.chcr := by
  unfold Registers.hwDmacSrcChain
  split_ifs <;> rfl

theorem block_mode {tag : List Move} (block : d.block dmac mem s = some (tag, b)) : b.chcr.MOD = s.chcr.MOD := by
  unfold Direction.block at block
  split at block
  · cases d with
    | fromSPR => cases block; rfl
    | toSPR =>
        simp only [Direction.tag, SPR1tag, Option.map_eq_some_iff, Option.bind_eq_some_iff] at block
        obtain ⟨read, ⟨host, -, tagged⟩, equal⟩ := block
        cases equal
        split at tagged
        · obtain ⟨moves, -, equal⟩ := Option.map_eq_some_iff.mp tagged
          cases equal
          simp only [hwDmacSrcChain_mode]
          rfl
        · cases tagged
          simp only [hwDmacSrcChain_mode]
          rfl
  · cases block
    rfl

theorem moved_piece_iff {tag : List Move} (busy : s.finished = false ∨ s.qwc > 0)
    (mode : s.chcr.MOD = NORMAL_MODE ∨ s.chcr.MOD = CHAIN_MODE) (block : d.block dmac mem s = some (tag, b))
    (off : d.RingOff dmac b) : d.Moved dmac mem s ↔
      Straight (d.addr dmac) (fun madr _ _ => d.Fit dmac madr) d.limit 0 b.qwc b.madr b.sadr := by
  obtain ⟨moves, u, step, piece⟩ := interrupt_piece busy mode block off
  have pieces : Rest dmac mem d moves u b ↔ _ := piece_iff piece (by rw [block_mode block]; exact mode) off
  rw [← pieces, Direction.Moved, block, step]
  simp only [if_pos mode]
  constructor
  · rintro ⟨_, _, first, _, rest, t, same, next, ran, empty, sadr, moved⟩
    cases same
    obtain ⟨equal, rfl⟩ := Prod.mk.inj (Option.some.inj next)
    obtain rfl := List.append_cancel_left equal
    exact ⟨rest, t, ran, empty, sadr, moved⟩
  · rintro ⟨rest, t, ran, empty, sadr, moved⟩
    exact ⟨tag, b, moves, u, rest, t, rfl, rfl, ran, empty, sadr, moved⟩

/-- The interrupts move a block as they should exactly if its pieces are contiguous and it neither runs past the
scratchpad nor starts a piece in a ring without a size. -/
theorem moved_iff (busy : s.finished = false ∨ s.qwc > 0)
    (off : ∀ tag b, d.block dmac mem s = some (tag, b) → d.MfifoOff dmac b) :
    d.Moved dmac mem s ↔ ∃ tag b, d.block dmac mem s = some (tag, b) ∧ d.Good dmac b := by
  cases block : d.block dmac mem s with
  | none =>
      refine iff_of_false ?_ (by simp)
      rintro ⟨tag, b, first, u, rest, t, found, -⟩
      rw [block] at found
      cases found
  | some found =>
      obtain ⟨tag, b⟩ := found
      have same_mode := block_mode block
      obtain ⟨mfd, ring⟩ := off tag b block
      have only : (∃ tag' b', some (tag, b) = some (tag', b') ∧ d.Good dmac b') ↔ d.Good dmac b := by
        constructor
        · rintro ⟨_, _, same, good⟩
          cases same
          exact good
        · exact fun good => ⟨tag, b, rfl, good⟩
      rw [only, Direction.Good, same_mode]
      by_cases mode : s.chcr.MOD = NORMAL_MODE ∨ s.chcr.MOD = CHAIN_MODE
      · rw [if_pos mode]
        exact moved_piece_iff busy mode block (ring (same_mode ▸ mode))
      · rw [if_neg mode, moved_interleave_iff busy mode mfd]
        rw [Direction.block, if_neg fun chained => mode (.inr chained.1)] at block
        cases block
        refine loopMoves_iff (fun _ _ => rfl) s.qwc le_rfl (fun more => ?_) s
        unfold DmacRegisters.tqwc
        split_ifs with unset
        · exact more
        · exact Nat.pos_of_ne_zero fun zero => unset (BitVec.eq_of_toNat_eq zero)

def noMfifo : DmacRegisters where
  exposedRam := 0x2000000
  MFD := NO_MFD
  rborADDR := 0
  rbsrRMSK := 0
  SQWC := 0
  TQWC := 0
  hwMFIFOWrite := fun _ _ _ => []

def started (mode : BitVec 2) (madr : Word) (sadr : BitVec 10) (qwc : Nat) : Spr :=
  { chcr := { MOD := mode, ASP := 0, TTE := false, TIE := false, STR := true, TAG := 0 }
    madr, qwc, tadr := 0, asr0 := 0, asr1 := 0, sadr, finished := false }

theorem wrapping_moved : Direction.fromSPR.Moved noMfifo (fun _ _ => 0) (started NORMAL_MODE 0x1000 1022 3) := by
  refine (moved_iff (.inl rfl) ?_).mpr ⟨[], started NORMAL_MODE 0x1000 1022 3, rfl, ?_⟩
  · rintro tag b block
    cases block
    exact ⟨fun _ => by decide, fun _ _ => .inl rfl⟩
  · rw [Direction.Good, if_pos (.inl rfl), Straight, if_neg (by decide)]
    refine ⟨fun _ => by decide, ⟨(.main, 0x100), by decide, by decide⟩, fun _ => ?_⟩
    rw [Straight, if_neg (by decide)]
    refine ⟨fun _ => by decide, ⟨(.main, 0x102), by decide, by decide⟩, fun _ => ?_⟩
    rw [Straight, if_pos (by decide)]
    trivial

/-- An interleaved transfer of one long block runs past the scratchpad. -/
theorem long_block_not_moved : ¬ ∀ (dmac : DmacRegisters) (mem : HostArray → Nat → Quad) (d : Direction) (s : Spr),
    (s.finished = false ∨ s.qwc > 0) → s.qwc ≤ 0x10000 →
      (∀ tag b, d.block dmac mem s = some (tag, b) → d.MfifoOff dmac b) → d.Moved dmac mem s := by
  intro all
  have mode : ¬((started INTERLEAVE_MODE 0 0 0x801).chcr.MOD = NORMAL_MODE ∨
      (started INTERLEAVE_MODE 0 0 0x801).chcr.MOD = CHAIN_MODE) := by decide
  have moved : Direction.toSPR.Moved noMfifo (fun _ _ => 0) (started INTERLEAVE_MODE 0 0 0x801) := by
    refine all _ _ _ _ (.inl rfl) (by decide) fun tag b block => ?_
    cases block
    exact ⟨fun _ => by decide, fun _ _ => .inl rfl⟩
  have copies : ∀ s count, Direction.toSPR.turn noMfifo s count =
      (Direction.toSPR.addr noMfifo s.madr).bind fun pMem => memcpySpr pMem s.sadr.toNat count := fun _ _ => rfl
  rw [moved_interleave_iff (.inl rfl) mode (fun _ => by decide), loopMoves_iff copies _ le_rfl fun _ => by decide,
    Straight, if_neg (by decide)] at moved
  exact absurd moved.1 (by decide)

end Pcsx2.Dma
