import Pcsx2.GsTransfer.Transfer

/-!
# What the format prescribes

The data of a tag goes through its list of registers, `NLOOP` times.
-/

namespace Pcsx2.GsTransfer
open GIFPath

/-! ## Packets -/

namespace GIFTag

def registers (tag : GIFTag) : List Nat := (List.range (nregOf tag.NREG)).map fun j => tag.REGS / 2 ^ (4 * j) % 2 ^ 4

def listing (tag : GIFTag) : List Nat := (List.replicate tag.NLOOP tag.registers).flatten

def size (tag : GIFTag) : Nat :=
  match tag.FLG with
  | .PACKED => tag.NLOOP * nregOf tag.NREG
  | .REGLIST => (tag.NLOOP * nregOf tag.NREG + 1) / 2
  | .IMAGE | .IMAGE2 => tag.NLOOP

end GIFTag

structure Packet where
  head : Quadword
  data : List Quadword
  full : data.length = (GIFTag.ofQuadword head).size

namespace Packet

def words (packet : Packet) : List Quadword := packet.head :: packet.data

def effects (packet : Packet) : List Effect :=
  let tag := GIFTag.ofQuadword packet.head
  if tag.NLOOP = 0 then []
  else tagEffects tag ++
    match tag.FLG with
    | .PACKED => List.zipWith packedRegHandler tag.listing packet.data
    | .REGLIST => List.zipWith .register tag.listing (halves packet.data)
    | .IMAGE | .IMAGE2 => packet.data.map .image

end Packet

/-! ## One quadword after the other -/

inductive Pending
  | idle
  | packed (regs : List Nat)
  | reglist (regs : List Nat)
  | image (count : Nat)

namespace Pending

def packedLeft : List Nat → Pending
  | [] => idle
  | reg :: regs => packed (reg :: regs)

def reglistLeft : List Nat → Pending
  | [] => idle
  | reg :: regs => reglist (reg :: regs)

def imageLeft : Nat → Pending
  | 0 => idle
  | count + 1 => image (count + 1)

def begin (tag : GIFTag) : Pending :=
  match tag.FLG with
  | .PACKED => packedLeft tag.listing
  | .REGLIST => reglistLeft tag.listing
  | .IMAGE | .IMAGE2 => imageLeft tag.NLOOP

def take (r : Quadword) : Pending → Pending × List Effect
  | idle =>
    let tag := GIFTag.ofQuadword r
    (begin tag, if tag.NLOOP = 0 then [] else tagEffects tag)
  | packed [] => (idle, [])
  | packed (reg :: regs) => (packedLeft regs, [packedRegHandler reg r])
  | reglist [] => (idle, [])
  | reglist [reg] => (idle, [.register reg r.lo])
  | reglist (reg :: second :: regs) => (reglistLeft regs, [.register reg r.lo, .register second r.hi])
  | image count => (imageLeft (count - 1), [.image r])

def feed (pending : Pending) : List Quadword → Pending × List Effect
  | [] => (pending, [])
  | r :: rest => ((feed (pending.take r).1 rest).1, (pending.take r).2 ++ (feed (pending.take r).1 rest).2)

variable {pending next : Pending} {data rest : List Quadword} {effects : List Effect}

theorem feed_append (fed : feed pending data = (next, effects)) (rest : List Quadword) :
    feed pending (data ++ rest) = ((feed next rest).1, effects ++ (feed next rest).2) := by
  induction data generalizing pending effects with
  | nil =>
    obtain ⟨rfl, rfl⟩ := Prod.mk.inj fed
    rfl
  | cons r data ih =>
    obtain ⟨rfl, rfl⟩ := Prod.mk.inj fed
    rw [List.cons_append, feed, ih rfl, List.append_assoc]

/-! ## The data of one packet -/

theorem feed_packed (regs : List Nat) (data : List Quadword) (fits : data.length ≤ regs.length) :
    feed (packedLeft regs) data = (packedLeft (regs.drop data.length), List.zipWith packedRegHandler regs data) := by
  induction data generalizing regs with
  | nil => rw [List.zipWith_nil_right, List.length_nil, List.drop_zero, feed]
  | cons r data ih =>
    cases regs with
    | nil => cases fits
    | cons reg regs =>
      have first : (packedLeft (reg :: regs)).take r = (packedLeft regs, [packedRegHandler reg r]) := rfl
      rw [feed, first, ih regs (Nat.le_of_succ_le_succ fits)]
      rfl

theorem halves_cons (r : Quadword) (data : List Quadword) : halves (r :: data) = r.lo :: r.hi :: halves data := rfl

theorem halves_length (data : List Quadword) : (halves data).length = 2 * data.length := by
  induction data with
  | nil => rfl
  | cons r data ih =>
    rw [halves_cons, List.length_cons, List.length_cons, List.length_cons, ih]
    omega

theorem feed_reglist (regs : List Nat) (data : List Quadword) (fits : 2 * data.length ≤ regs.length + 1) :
    feed (reglistLeft regs) data =
      (reglistLeft (regs.drop (2 * data.length)), List.zipWith .register regs (halves data)) := by
  induction data generalizing regs with
  | nil => rw [halves, List.flatMap_nil, List.zipWith_nil_right, List.length_nil, Nat.mul_zero, List.drop_zero, feed]
  | cons r data ih =>
    cases regs with
    | nil =>
      rw [List.length_cons, List.length_nil] at fits
      omega
    | cons reg regs =>
      rw [List.length_cons, List.length_cons] at fits
      rw [halves_cons]
      cases regs with
      | nil =>
        have last : (reglistLeft [reg]).take r = (idle, [.register reg r.lo]) := rfl
        obtain rfl : data = [] := List.eq_nil_of_length_eq_zero (by rw [List.length_nil] at fits; omega)
        rw [feed, last]
        rfl
      | cons second regs =>
        have first : (reglistLeft (reg :: second :: regs)).take r =
            (reglistLeft regs, [.register reg r.lo, .register second r.hi]) := rfl
        have places : 2 * (data.length + 1) = 2 * data.length + 1 + 1 := by omega
        rw [feed, first, ih regs (by rw [List.length_cons] at fits; omega), List.length_cons, places, List.drop_succ_cons,
          List.drop_succ_cons]
        rfl

theorem feed_image (count : Nat) (data : List Quadword) (fits : data.length ≤ count) :
    feed (imageLeft count) data = (imageLeft (count - data.length), data.map .image) := by
  induction data generalizing count with
  | nil => rfl
  | cons r data ih =>
    obtain ⟨count, rfl⟩ := Nat.exists_eq_succ_of_ne_zero (show count ≠ 0 by rintro rfl; cases fits)
    have first : (imageLeft (count + 1)).take r = (imageLeft count, [.image r]) := rfl
    rw [feed, first, ih count (Nat.le_of_succ_le_succ fits), List.length_cons, Nat.succ_sub_succ]
    rfl

theorem listing_length (tag : GIFTag) : tag.listing.length = tag.NLOOP * nregOf tag.NREG := by
  unfold GIFTag.listing GIFTag.registers
  rw [List.length_flatten, List.map_replicate, List.sum_replicate_nat, List.length_map, List.length_range]

theorem feed_packet (packet : Packet) : feed idle packet.words = (idle, packet.effects) := by
  have full := packet.full
  have body : feed (begin (GIFTag.ofQuadword packet.head)) packet.data = (idle,
      match (GIFTag.ofQuadword packet.head).FLG with
      | .PACKED => List.zipWith packedRegHandler (GIFTag.ofQuadword packet.head).listing packet.data
      | .REGLIST => List.zipWith .register (GIFTag.ofQuadword packet.head).listing (halves packet.data)
      | .IMAGE | .IMAGE2 => packet.data.map .image) := by
    have listed := listing_length (GIFTag.ofQuadword packet.head)
    unfold GIFTag.size at full
    unfold begin
    cases flag : (GIFTag.ofQuadword packet.head).FLG with
    | PACKED =>
      rw [flag] at full
      dsimp only at full ⊢
      rw [feed_packed _ _ (by omega), List.drop_eq_nil_of_le (by omega)]
      rfl
    | REGLIST =>
      rw [flag] at full
      dsimp only at full ⊢
      rw [feed_reglist _ _ (by omega), List.drop_eq_nil_of_le (by omega)]
      rfl
    | IMAGE =>
      rw [flag] at full
      dsimp only at full ⊢
      rw [feed_image _ _ (by omega), full, Nat.sub_self]
      rfl
    | IMAGE2 =>
      rw [flag] at full
      dsimp only at full ⊢
      rw [feed_image _ _ (by omega), full, Nat.sub_self]
      rfl
  unfold Packet.words Packet.effects
  dsimp only
  rw [feed]
  unfold take
  dsimp only
  rw [body]
  by_cases none : (GIFTag.ofQuadword packet.head).NLOOP = 0
  · have empty : packet.data = [] := by
      apply List.eq_nil_of_length_eq_zero
      rw [full]
      unfold GIFTag.size
      rw [none, Nat.zero_mul]
      split <;> rfl
    rw [if_pos none, if_pos none, empty]
    cases (GIFTag.ofQuadword packet.head).FLG <;> simp [halves]
  · rw [if_neg none, if_neg none]

theorem feed_packets (packets : List Packet) :
    feed idle (packets.flatMap Packet.words) = (idle, packets.flatMap Packet.effects) := by
  induction packets with
  | nil => rfl
  | cons packet packets ih => rw [List.flatMap_cons, List.flatMap_cons, feed_append (feed_packet packet), ih]

end Pending

end Pcsx2.GsTransfer
