import Pcsx2.Gif.Chunks

/-!
# What comes out of a stream

The packets of a stream and its A+D writes, for any way to cut it.
-/

namespace Pcsx2.Gif
open Foundation

/-! ## Packets end with their last tag -/

def IsPrim (tag data : List UInt8) : Prop :=
  tag.length = 16 ∧ data.length = (GifTag.reset.setTag tag).len

inductive Prims : List UInt8 → Prop
  | nil : Prims []
  | snoc {front tag data} (before : Prims front) (prim : IsPrim tag data)
      (goesOn : (HwGifTag.ofBytes tag).EOP = false) : Prims (front ++ tag ++ data)

def IsPacket (bytes : List UInt8) : Prop :=
  ∃ front tag data, bytes = front ++ tag ++ data ∧ Prims front ∧ IsPrim tag data ∧
    (HwGifTag.ofBytes tag).EOP = true

def GifTag.left (t : GifTag) : Nat := t.nLoop * t.nRegs - t.nRegIdx

def Open (t : GifTag) (bytes : List UInt8) : Prop :=
  ∃ front tag data, bytes = front ++ tag ++ data ∧ Prims front ∧ tag.length = 16 ∧
    data.length + 16 * t.left = (GifTag.reset.setTag tag).len ∧
    t.tag.EOP = (HwGifTag.ofBytes tag).EOP ∧ t.nRegIdx < t.nRegs

def Assembled (p : Path) : Prop :=
  if p.gifTag.isValid then Open p.gifTag (load p.buffer p.gsPack.offset p.gsPack.size)
  else Prims (load p.buffer p.gsPack.offset p.gsPack.size)

section

variable {p q : Path} {stat : GifStat} {pending : List (List UInt8) → Bool}
  {handled : List (List UInt8)}

theorem setTag_len (t : GifTag) (pMem : List UInt8) :
    (t.setTag pMem).len = (GifTag.reset.setTag pMem).len ∧
    (t.setTag pMem).tag.EOP = (HwGifTag.ofBytes pMem).EOP ∧
    ((t.setTag pMem).hasAD = true → 16 * (t.setTag pMem).left = (t.setTag pMem).len ∧
      (t.setTag pMem).nRegIdx < (t.setTag pMem).nRegs) := by
  unfold GifTag.setTag GifTag.left
  generalize HwGifTag.ofBytes pMem = tag
  obtain ⟨NLOOP, EOP, FLG, NREG, REGS⟩ := tag
  match FLG with
  | 0 =>
      refine ⟨rfl, rfl, fun _ => ⟨?_, Nat.succ_pos _⟩⟩
      simp only [GifTag.analyzeTag, Nat.sub_zero]
      rw [Nat.mul_comm NLOOP, Nat.mul_comm 16]
  | 1 => exact ⟨rfl, rfl, fun no => absurd no Bool.false_ne_true⟩
  | _ + 2 => exact ⟨rfl, rfl, fun no => absurd no Bool.false_ne_true⟩

theorem packedStep_left {t : GifTag} (loop : t.nLoop ≠ 0) (idx : t.nRegIdx < t.nRegs) :
    t.packedStep.left + 1 = t.left ∧ t.packedStep.nRegIdx < t.packedStep.nRegs := by
  obtain ⟨n, some⟩ := Nat.exists_eq_succ_of_ne_zero loop
  have total : (n + 1) * t.nRegs = n * t.nRegs + t.nRegs := Nat.succ_mul _ _
  unfold GifTag.packedStep GifTag.left
  rw [if_pos (Nat.pos_of_ne_zero loop), some]
  split
  · simp only [Nat.succ_sub_one, Nat.succ_eq_add_one]
    rw [total]
    omega
  · simp only [Nat.succ_eq_add_one]
    rw [total]
    omega

theorem load_step (valid : p.gsPack.offset + p.gsPack.size = p.curOffset) (n : Nat) :
    load p.buffer p.gsPack.offset (p.gsPack.size + n) =
      load p.buffer p.gsPack.offset p.gsPack.size ++ load p.buffer p.curOffset n := by
  rw [load_add, valid]

theorem packedAD_open (pending : List (List UInt8) → Bool) (p : Path) (handled : List (List UInt8))
    (valid : p.gsPack.offset + p.gsPack.size = p.curOffset)
    (opened : Open p.gifTag (load p.buffer p.gsPack.offset p.gsPack.size)) :
    Open (p.packedAD pending handled).1.gifTag
      (load p.buffer p.gsPack.offset (p.packedAD pending handled).1.gsPack.size) := by
  have step {p : Path} (loop : p.gifTag.nLoop ≠ 0)
      (valid : p.gsPack.offset + p.gsPack.size = p.curOffset)
      (opened : Open p.gifTag (load p.buffer p.gsPack.offset p.gsPack.size)) :
      Open p.gifTag.packedStep (load p.buffer p.gsPack.offset (p.gsPack.size + 16)) := by
    obtain ⟨front, tag, data, bytes, before, length, left, eop, idx⟩ := opened
    obtain ⟨less, idx'⟩ := packedStep_left loop idx
    refine ⟨front, tag, data ++ load p.buffer p.curOffset 16, ?_, before, length, ?_, ?_, idx'⟩
    · rw [load_step valid, bytes, List.append_assoc (front ++ tag)]
    · rw [List.length_append, load_length]
      omega
    · rw [packedStep_tag]
      exact eop
  fun_induction Path.packedAD pending p handled with
  | case1 p handled done => exact opened
  | case2 p handled loop short => exact opened
  | case3 p handled loop => exact step loop valid opened
  | case4 p handled loop room pMem next atAD go ih =>
      exact ih (by simp only [next, Path.incTag]; omega) (step loop valid opened)
  | case5 p handled loop room next other ih =>
      exact ih (by simp only [next, Path.incTag]; omega) (step loop valid opened)

def Turn.Assembles : Turn → Prop
  | .starved q => Assembled q
  | .next q => Assembled q
  | .complete q gsPack => Assembled q ∧ IsPacket (load q.buffer gsPack.offset gsPack.size)

theorem endTag_assembles (front tag data : List UInt8)
    (bytes : load p.buffer p.gsPack.offset p.gsPack.size = front ++ tag ++ data)
    (before : Prims front) (prim : IsPrim tag data)
    (eop : p.gifTag.tag.EOP = (HwGifTag.ofBytes tag).EOP) : (p.endTag stat).Assembles := by
  unfold Path.endTag
  dsimp only
  split
  · rename_i ended
    have packet : IsPacket (load p.buffer p.gsPack.offset p.gsPack.size) :=
      ⟨front, tag, data, bytes, before, prim, eop ▸ ended⟩
    split
    · split
      · exact ⟨.nil, packet⟩
      · exact ⟨.nil, packet⟩
    · exact ⟨.nil, packet⟩
  · rename_i goesOn
    have assembled : Prims (load p.buffer p.gsPack.offset p.gsPack.size) :=
      bytes ▸ .snoc before prim (eop ▸ (by simpa using goesOn))
    exact assembled

theorem packedAD_finished (pending : List (List UInt8) → Bool) (p : Path) (handled : List (List UInt8))
    (ended : (p.packedAD pending handled).2.2 = .finished) :
    (p.packedAD pending handled).1.gifTag.nLoop = 0 := by
  fun_induction Path.packedAD pending p handled with
  | case1 p handled done => exact done
  | case2 p handled loop short => cases ended
  | case3 p handled loop room pMem next atAD stall => cases ended
  | case4 p handled loop room pMem next atAD go ih => exact ih ended
  | case5 p handled loop room next other ih => exact ih ended

theorem tagData_assembles (valid : p.gsPack.offset + p.gsPack.size = p.curOffset)
    (isValid : p.gifTag.isValid = true)
    (opened : p.gifTag.hasAD = true → Open p.gifTag (load p.buffer p.gsPack.offset p.gsPack.size))
    (read : p.gifTag.hasAD = false → ∃ front tag,
      load p.buffer p.gsPack.offset p.gsPack.size = front ++ tag ∧ Prims front ∧ tag.length = 16 ∧
      p.gifTag.len = (GifTag.reset.setTag tag).len ∧
      p.gifTag.tag.EOP = (HwGifTag.ofBytes tag).EOP) :
    (p.tagData stat pending handled).1.Assembles := by
  unfold Path.tagData
  split
  · rename_i hasAD
    have advances := packedAD_advances pending p handled
    have sameValid := (packedAD_tag pending p handled).1
    have stays := packedAD_open pending p handled valid (opened hasAD)
    have done := packedAD_finished pending p handled
    generalize p.packedAD pending handled = result at *
    obtain ⟨q, handled', ended⟩ := result
    have open' : Open q.gifTag (load q.buffer q.gsPack.offset q.gsPack.size) := by
      rw [advances.buffer, advances.offset]
      exact stays
    have assembled : Assembled q := by
      rw [Assembled, if_pos (sameValid.trans isValid)]
      exact open'
    have closed (loop : q.gifTag.nLoop = 0) : (q.endTag stat).Assembles := by
      obtain ⟨front, tag, data, bytes, before, length, left, eop, -⟩ := open'
      rw [GifTag.left, loop, Nat.zero_mul, Nat.zero_sub, Nat.mul_zero] at left
      exact endTag_assembles _ _ _ bytes before ⟨length, left⟩ eop
    cases ended with
    | starved => exact assembled
    | dblSIGNAL =>
        dsimp only
        split
        · rename_i last
          exact closed last.2
        · exact assembled
    | finished => exact closed (done rfl)
  · rename_i noAD
    obtain ⟨front, tag, bytes, before, length, len, eop⟩ := read (by simpa using noAD)
    refine endTag_assembles _ _ (load p.buffer p.curOffset p.gifTag.len) ?_ before ⟨length, ?_⟩ eop
    · simp only [Path.incTag]
      rw [load_step valid, bytes]
    · rw [load_length, len]

theorem turn_assembles (stat : GifStat) (pending : List (List UInt8) → Bool)
    (handled : List (List UInt8)) (valid : p.Valid) (assembled : Assembled p) :
    (p.turn stat pending handled).1.Assembles := by
  by_cases isValid : p.gifTag.isValid
  · rw [Assembled, if_pos isValid] at assembled
    rw [Path.turn, if_pos isValid]
    exact tagData_assembles valid.offset isValid (fun _ => assembled)
      fun noAD => absurd ((valid.tag isValid).1.symm.trans noAD) (by decide)
  have prims := assembled
  rw [Assembled, if_neg isValid] at prims
  by_cases room : p.curSize < p.curOffset + 16
  · rw [Path.turn, if_neg isValid, if_pos room]
    exact assembled
  rw [turn_tag isValid room rfl]
  obtain ⟨len, eop, packed⟩ := setTag_len p.gifTag (load p.buffer p.curOffset 16)
  have sameValid := setTag_isValid p.gifTag (load p.buffer p.curOffset 16)
  split
  · exact prims
  · have grown := load_step valid.offset 16
    have next := valid.offset
    refine tagData_assembles (by simp only [Path.opened]; omega) sameValid (fun hasAD => ?_)
      fun _ => ⟨_, _, grown, prims, load_length _ _ _, len, eop⟩
    obtain ⟨left, idx⟩ := packed hasAD
    refine ⟨_, _, [], ?_, prims, load_length p.buffer p.curOffset 16, ?_, eop, idx⟩
    · rw [List.append_nil]
      exact grown
    · rw [List.length_nil, Nat.zero_add]
      exact left.trans len

theorem realignPacket_packet (valid : p.Valid) :
    load p.realignPacket.buffer p.realignPacket.gsPack.offset p.realignPacket.gsPack.size =
      load p.buffer p.gsPack.offset p.gsPack.size := by
  have offset := valid.offset
  have within := valid.within
  have moved : load p.realignPacket.buffer 0 p.gsPack.size =
      load (fun a => p.buffer (p.gsPack.offset + a)) 0 p.gsPack.size :=
    load_congr fun i bound => realignPacket_buffer valid (by omega)
  refine moved.trans ?_
  simp only [load, Nat.zero_add]

theorem align_assembled (valid : p.Valid) (assembled : Assembled p) : Assembled p.align := by
  unfold Path.align
  split
  · unfold Assembled at assembled ⊢
    rw [realignPacket_packet valid]
    exact assembled
  · exact assembled

theorem append_assembled (valid : p.Valid) (assembled : Assembled p) (chunk : List UInt8) :
    Assembled (p.append chunk) := by
  have offset := valid.offset
  have within := valid.within
  have same : load (p.append chunk).buffer p.gsPack.offset p.gsPack.size =
      load p.buffer p.gsPack.offset p.gsPack.size := by
    refine load_congr fun i bound => perform_blockStores_of_lt ?_
    omega
  unfold Assembled at assembled ⊢
  rw [show (p.append chunk).gsPack = p.gsPack from rfl, same]
  exact assembled

theorem drain_packets (stat : GifStat) (pending : List (List UInt8) → Bool)
    (handled : List (List UInt8)) (valid : p.Valid) (assembled : Assembled p)
    (before : ∀ bytes ∈ packets, IsPacket bytes) :
    (p.drain stat pending handled packets).1.Valid ∧
    Assembled (p.drain stat pending handled packets).1 ∧
    ∀ bytes ∈ (p.drain stat pending handled packets).2.2, IsPacket bytes := by
  induction left : p.remaining using Nat.strong_induction_on
    generalizing p handled packets with
  | _ n ih =>
  subst left
  have spec := turn_spec stat pending handled (align_valid valid)
  have assembles := turn_assembles stat pending handled (align_valid valid) (align_assembled valid assembled)
  have below := turn_below stat pending p.align handled
  rw [drain_eq]
  generalize p.align.turn stat pending handled = result at *
  obtain ⟨turn, handled'⟩ := result
  cases turn with
  | starved q => exact ⟨spec.valid, assembles, before⟩
  | next q =>
      exact ih q.remaining (Nat.lt_of_lt_of_le below (align_remaining p)) _ spec.valid assembles before rfl
  | complete q gsPack =>
      refine ih q.remaining (Nat.lt_of_lt_of_le below (align_remaining p)) _ spec.valid assembles.1
        (fun bytes member => ?_) rfl
      rcases List.mem_append.1 member with old | new
      · exact before bytes old
      · rw [List.mem_singleton.1 new]
        exact assembles.2

end

/-! ## SIGNALs -/

/-- No SIGNAL among the A+D writes stalls behind a pending one. -/
def NoSecondSignal (pending : List (List UInt8) → Bool) (writes : List (List UInt8)) : Prop :=
  ∀ before pMem, before ++ [pMem] <+: writes → handlerAD (pending before) pMem = false

section

variable {p : Path} {stat : GifStat} {pending : List (List UInt8) → Bool}
  {handled packets writes : List (List UInt8)}

theorem packedAD_handled (pending : List (List UInt8) → Bool) (p : Path)
    (handled : List (List UInt8)) : handled <+: (p.packedAD pending handled).2.1 := by
  fun_induction Path.packedAD pending p handled with
  | case1 p handled | case2 p handled => exact List.prefix_rfl
  | case3 p handled => exact List.prefix_append _ _
  | case4 p handled loop room pMem next atAD go ih => exact (List.prefix_append _ _).trans ih
  | case5 p handled loop room next other ih => exact ih

theorem packedAD_pending (pending : List (List UInt8) → Bool) (p : Path) (handled : List (List UInt8))
    (once : NoSecondSignal pending (p.packedAD quiet handled).2.1) :
    p.packedAD pending handled = p.packedAD quiet handled := by
  fun_induction Path.packedAD quiet p handled with
  | case1 p handled done => rw [Path.packedAD, if_pos done]
  | case2 p handled loop short => rw [Path.packedAD, if_neg loop, dif_pos short]
  | case3 p handled loop room pMem next atAD stall => simp [handlerAD, quiet] at stall
  | case4 p handled loop room pMem next atAD go ih =>
      have free : handlerAD (pending handled) pMem = false :=
        once handled pMem (packedAD_handled quiet next (handled ++ [pMem]))
      rw [Path.packedAD, if_neg loop, dif_neg room]
      dsimp only
      rw [if_pos atAD, if_neg (by simpa [pMem] using free)]
      exact ih once
  | case5 p handled loop room next other ih =>
      rw [Path.packedAD, if_neg loop, dif_neg room]
      dsimp only
      rw [if_neg other]
      exact ih once

theorem tagData_handled (p : Path) (handled : List (List UInt8)) :
    handled <+: (p.tagData stat pending handled).2 := by
  unfold Path.tagData
  split
  · have grows := packedAD_handled pending p handled
    generalize p.packedAD pending handled = result at *
    obtain ⟨q, handled', ended⟩ := result
    cases ended with
    | starved | finished => exact grows
    | dblSIGNAL =>
        dsimp only
        split <;> exact grows
  · exact List.prefix_rfl

theorem turn_handled (stat : GifStat) (pending : List (List UInt8) → Bool) (p : Path)
    (handled : List (List UInt8)) :
    handled <+: (p.turn stat pending handled).2 := by
  unfold Path.turn
  split
  · exact tagData_handled p handled
  split
  · exact List.prefix_rfl
  split
  · exact tagData_handled _ handled
  · exact List.prefix_rfl

theorem tagData_pending (p : Path) (handled : List (List UInt8))
    (once : NoSecondSignal pending (p.tagData stat quiet handled).2) :
    p.tagData stat pending handled = p.tagData stat quiet handled := by
  unfold Path.tagData at once ⊢
  split
  · rename_i hasAD
    have same := packedAD_pending pending p handled
    have notDbl := packedAD_quiet p handled
    rw [if_pos hasAD] at once
    generalize p.packedAD quiet handled = result at *
    obtain ⟨q, handled', ended⟩ := result
    cases ended with
    | starved | finished => rw [same once]
    | dblSIGNAL => exact absurd rfl notDbl
  · rfl

theorem turn_pending (stat : GifStat) (pending : List (List UInt8) → Bool) (p : Path)
    (handled : List (List UInt8))
    (once : NoSecondSignal pending (p.turn stat quiet handled).2) :
    p.turn stat pending handled = p.turn stat quiet handled := by
  unfold Path.turn at once ⊢
  split
  · rename_i isValid
    rw [if_pos isValid] at once
    exact tagData_pending p handled once
  rename_i invalid
  rw [if_neg invalid] at once
  split
  · rfl
  rename_i room
  rw [if_neg room] at once
  split
  · rename_i read
    rw [read] at once
    exact tagData_pending _ handled once
  · rfl

theorem NoSecondSignal.of_prefix {front : List (List UInt8)} (once : NoSecondSignal pending writes)
    (front_of : front <+: writes) : NoSecondSignal pending front :=
  fun before pMem of_front => once before pMem (of_front.trans front_of)

theorem drain_handled (p : Path) (handled packets : List (List UInt8)) :
    handled <+: (p.drain stat pending handled packets).2.1 := by
  induction left : p.remaining using Nat.strong_induction_on
    generalizing p handled packets with
  | _ n ih =>
  subst left
  have grows := turn_handled stat pending p.align handled
  have below := turn_below stat pending p.align handled
  rw [drain_eq]
  generalize p.align.turn stat pending handled = result at *
  obtain ⟨turn, handled'⟩ := result
  cases turn with
  | starved q => exact grows
  | next q =>
      exact grows.trans (ih q.remaining (Nat.lt_of_lt_of_le below (align_remaining p)) q handled' _ rfl)
  | complete q gsPack =>
      exact grows.trans (ih q.remaining (Nat.lt_of_lt_of_le below (align_remaining p)) q handled' _ rfl)

theorem drain_pending (stat : GifStat) (pending : List (List UInt8) → Bool) (p : Path)
    (handled packets : List (List UInt8))
    (once : NoSecondSignal pending (p.drain stat quiet handled packets).2.1) :
    p.drain stat pending handled packets = p.drain stat quiet handled packets := by
  induction left : p.remaining using Nat.strong_induction_on
    generalizing p handled packets with
  | _ n ih =>
  subst left
  have same := turn_pending stat pending p.align handled
  have below := turn_below stat quiet p.align handled
  rw [drain_eq] at once ⊢
  rw [drain_eq stat quiet]
  generalize p.align.turn stat quiet handled = result at *
  obtain ⟨turn, handled'⟩ := result
  cases turn with
  | starved q => rw [same once]
  | next q =>
      rw [same (once.of_prefix (drain_handled q handled' packets))]
      exact ih q.remaining (Nat.lt_of_lt_of_le below (align_remaining p)) q handled' _ once rfl
  | complete q gsPack =>
      rw [same (once.of_prefix (drain_handled q handled' _))]
      exact ih q.remaining (Nat.lt_of_lt_of_le below (align_remaining p)) q handled' _ once rfl

theorem feed_handled (p : Path) (handled packets : List (List UInt8)) (chunks : List (List UInt8)) :
    handled <+: (feed stat pending p handled packets chunks).2.1 := by
  induction chunks generalizing p handled packets with
  | nil => exact List.prefix_rfl
  | cons chunk chunks ih => exact (drain_handled _ handled packets).trans (ih _ _ _)

theorem feed_pending (stat : GifStat) (p : Path) (handled packets : List (List UInt8))
    (chunks : List (List UInt8))
    (once : NoSecondSignal pending (feed stat quiet p handled packets chunks).2.1) :
    feed stat pending p handled packets chunks = feed stat quiet p handled packets chunks := by
  induction chunks generalizing p handled packets with
  | nil => rfl
  | cons chunk chunks ih =>
      have same := drain_pending stat pending (p.copyGSPacketData chunk)
        handled packets (once.of_prefix (feed_handled _ _ _ chunks))
      rw [feed, feed, same]
      exact ih _ _ _ once

end

/-! ## Any way to cut the stream -/

structure Path.AtBoundary (p : Path) : Prop where
  invalid : p.gifTag.isValid = false
  offset : p.gsPack.offset = p.curOffset
  size : p.gsPack.size = 0
  all : p.curOffset = p.curSize

structure SameOutcome (cut whole : Path × List (List UInt8) × List (List UInt8)) : Prop where
  packets : cut.2.2 = whole.2.2
  handled : cut.2.1 = whole.2.1
  curOffset : cut.1.curOffset = whole.1.curOffset
  gifTag : cut.1.gifTag = whole.1.gifTag
  ends : ∀ bytes ∈ cut.2.2, IsPacket bytes

section

variable {p : Path} {stat : GifStat} {pending pending' : List (List UInt8) → Bool}
  {handled packets : List (List UInt8)} {chunks : List (List UInt8)}

theorem Path.AtBoundary.valid (boundary : p.AtBoundary) : p.Valid where
  offset := by rw [boundary.offset, boundary.size, Nat.add_zero]
  within := Nat.le_of_eq boundary.all
  tag := fun isValid => absurd (boundary.invalid.symm.trans isValid) Bool.false_ne_true

theorem Path.AtBoundary.short (boundary : p.AtBoundary) : p.curSize < p.curOffset + 16 := by
  rw [boundary.all]
  exact Nat.lt_add_of_pos_right (by decide)

theorem Path.AtBoundary.settled (boundary : p.AtBoundary) : Settled p where
  valid := boundary.valid
  starved := .tag boundary.invalid boundary.short
  still := Or.inl fun needed => Nat.not_le_of_lt boundary.short needed.2.1

theorem Path.AtBoundary.assembled (boundary : p.AtBoundary) : Assembled p := by
  rw [Assembled, if_neg (by rw [boundary.invalid]; exact Bool.false_ne_true), boundary.size]
  exact .nil

theorem boundary_init (buffer : Nat → UInt8) (buffSize buffSafeZone : Nat) :
    (Path.init buffer buffSize buffSafeZone).AtBoundary :=
  ⟨rfl, rfl, rfl, rfl⟩

theorem copyGSPacketData_assembled (valid : p.Valid) (assembled : Assembled p)
    (chunk : List UInt8) : (p.copyGSPacketData chunk).Valid ∧ Assembled (p.copyGSPacketData chunk) := by
  have moved : Assembled p.realignPacket := by
    unfold Assembled at assembled ⊢
    rw [realignPacket_packet valid]
    exact assembled
  unfold Path.copyGSPacketData
  split
  · have valid' := realignPacket_valid valid
    exact ⟨append_valid valid' chunk, append_assembled valid' moved chunk⟩
  · exact ⟨append_valid valid chunk, append_assembled valid assembled chunk⟩

theorem feed_packets (stat : GifStat) (pending : List (List UInt8) → Bool)
    (handled : List (List UInt8)) (chunks : List (List UInt8)) (valid : p.Valid)
    (assembled : Assembled p) (before : ∀ bytes ∈ packets, IsPacket bytes) :
    ∀ bytes ∈ (feed stat pending p handled packets chunks).2.2, IsPacket bytes := by
  induction chunks generalizing p handled packets with
  | nil => exact before
  | cons chunk chunks ih =>
      obtain ⟨valid', assembled'⟩ := copyGSPacketData_assembled valid assembled chunk
      obtain ⟨validQ, assembledQ, after⟩ := drain_packets stat pending handled
        valid' assembled' before
      exact ih _ validQ assembledQ after

theorem feed_quiet (handled packets : List (List UInt8)) (unmasked : stat.Unmasked) (settled : Settled p)
    (fits : p.curSize + chunks.flatten.length ≤ p.buffSize) :
    ∃ buffer, (feed stat quiet p handled packets [chunks.flatten]) =
      ((feed stat quiet p handled packets chunks).1.behind buffer [],
        (feed stat quiet p handled packets chunks).2) := by
  have behind : Behind p (p.append chunks.flatten).buffer chunks.flatten :=
    ⟨fun a _ old => perform_blockStores_of_lt old, load_perform_block _ _ _⟩
  obtain ⟨buffer, same⟩ := feed_behind handled packets unmasked settled
    behind fits
  have copied : p.copyGSPacketData chunks.flatten =
      p.behind (p.append chunks.flatten).buffer chunks.flatten := by
    rw [Path.copyGSPacketData, if_neg (by omega)]
    rfl
  refine ⟨buffer, ?_⟩
  rw [feed, copied, same]
  rfl

end

/-- Any two ways to feed a stream of which no SIGNAL stalls come to the same. -/
theorem chunking_independent {p : Path} {stat : GifStat} {pending pending' : List (List UInt8) → Bool}
    {chunks : List (List UInt8)} (boundary : p.AtBoundary)
    (fits : p.curSize + chunks.flatten.length ≤ p.buffSize) (unmasked : stat.Unmasked)
    (once : NoSecondSignal pending (feed stat quiet p [] [] [chunks.flatten]).2.1)
    (once' : NoSecondSignal pending' (feed stat quiet p [] [] [chunks.flatten]).2.1) :
    SameOutcome (feed stat pending p [] [] chunks) (feed stat pending' p [] [] [chunks.flatten]) := by
  obtain ⟨buffer, same⟩ := feed_quiet [] [] unmasked boundary.settled fits
  have whole := feed_pending stat p [] [] [chunks.flatten] once'
  have cut := feed_pending stat p [] [] chunks (by rw [same] at once; exact once)
  have ends : ∀ bytes ∈ (feed stat quiet p [] [] chunks).2.2, IsPacket bytes :=
    feed_packets stat quiet [] chunks boundary.valid boundary.assembled fun bytes no =>
      absurd no List.not_mem_nil
  rw [whole, cut, same]
  exact ⟨rfl, rfl, rfl, rfl, ends⟩

theorem chunking_independent_tags :
    SameOutcome (feed ⟨1, false, false⟩ quiet (.init (fun _ => 0) 64 16) [] [] [eopTag, eopTag])
      (feed ⟨1, false, false⟩ quiet (.init (fun _ => 0) 64 16) [] [] [eopTag ++ eopTag]) := by
  have never (writes : List (List UInt8)) : NoSecondSignal quiet writes := fun _ _ _ => by
    simp [handlerAD, quiet]
  have boundary : (Path.init (fun _ => 0) 64 16).AtBoundary := boundary_init _ _ _
  have fits : 0 + [eopTag, eopTag].flatten.length ≤ 64 := by decide
  exact chunking_independent boundary fits (fun masked => absurd masked.1 (by decide)) (never _)
    (never _)

/-! ## A masked path 3 -/

section

variable {p : Path} {stat : GifStat} {pending : List (List UInt8) → Bool}
  {handled packets : List (List UInt8)}

theorem setTag_eopTag (t : GifTag) : (t.setTag eopTag).hasAD = false ∧ (t.setTag eopTag).len = 0 ∧
    (t.setTag eopTag).tag.EOP = true := by
  simp only [GifTag.setTag, ofBytes_eopTag]
  refine ⟨?_, rfl, rfl⟩
  simp only [GifTag.analyzeTag]
  decide

theorem endTag_masked (masked : ¬stat.Unmasked) (eop : p.gifTag.tag.EOP = true)
    (within : p.curOffset ≤ p.curSize) : ∃ q : Path, p.endTag stat = .complete q p.gsPack ∧
      q.AtBoundary ∧ q.buffer = p.buffer ∧ q.curOffset = p.curOffset ∧ q.buffLimit = p.buffLimit ∧
      q.buffSize = p.buffSize := by
  obtain ⟨three, mask⟩ := not_not.1 masked
  unfold Path.endTag
  dsimp only
  rw [if_pos eop, if_pos three]
  split
  · exact ⟨_, rfl, ⟨rfl, rfl, rfl, rfl⟩, rfl, rfl, rfl, rfl⟩
  · rename_i whole
    have all : p.curOffset = p.curSize := Nat.le_antisymm within (by
      have : ¬0 < p.curSize - p.curOffset := fun more => whole ⟨more, mask⟩
      omega)
    exact ⟨_, rfl, ⟨rfl, rfl, rfl, all⟩, rfl, rfl, rfl, rfl⟩

theorem drain_masked (pending : List (List UInt8) → Bool) (handled packets : List (List UInt8))
    (masked : ¬stat.Unmasked) (boundary : p.AtBoundary)
    (low : p.curOffset ≤ p.buffLimit) (rest : List UInt8) :
    ∃ q : Path, (p.append (eopTag ++ rest)).drain stat pending handled packets =
        (q, handled, packets ++ [eopTag]) ∧ q.AtBoundary ∧
      q.curOffset = p.curOffset + 16 ∧ q.buffLimit = p.buffLimit ∧ q.buffSize = p.buffSize := by
  have invalid := boundary.invalid
  have bytes : load (p.append (eopTag ++ rest)).buffer p.curOffset 16 = eopTag := by
    have stored := load_perform_block p.buffer p.curSize (eopTag ++ rest)
    rw [List.length_append, load_add] at stored
    rw [boundary.all]
    exact (List.append_inj stored (load_length _ _ _)).1
  have here : (p.append (eopTag ++ rest)).align = p.append (eopTag ++ rest) :=
    if_neg fun needed => Nat.not_lt_of_le low needed.2.2
  have room : p.curOffset + 16 ≤ (p.append (eopTag ++ rest)).curSize := by
    have : eopTag.length = 16 := rfl
    simp only [Path.append, List.length_append, boundary.all]
    omega
  obtain ⟨noAD, len, eop⟩ := setTag_eopTag p.gifTag
  have tagged : (p.append (eopTag ++ rest)).gifTag.setTag
      (load (p.append (eopTag ++ rest)).buffer (p.append (eopTag ++ rest)).curOffset 16) =
        p.gifTag.setTag eopTag := congrArg p.gifTag.setTag bytes
  let opened := ((p.append (eopTag ++ rest)).opened (p.gifTag.setTag eopTag)).incTag
    (p.gifTag.setTag eopTag).len
  have end_offset : opened.curOffset = p.curOffset + 16 := by
    simp only [opened, Path.incTag, Path.opened, len]
    rfl
  have size : opened.gsPack.size = 16 := by
    simp only [opened, Path.incTag, Path.opened, Path.append, len, boundary.size]
  obtain ⟨q, complete, next, buffer, moved, limit, room'⟩ := endTag_masked (p := opened) masked eop
    (by rw [end_offset]; exact room)
  have turned : (p.append (eopTag ++ rest)).turn stat pending handled =
      (.complete q opened.gsPack, handled) := by
    rw [turn_tag (by simp [Path.append, invalid]) (by exact Nat.not_lt_of_le room) tagged,
      if_neg (by rw [len]; exact fun short => Nat.not_lt_of_le room short.2), Path.tagData,
      if_neg (by exact ne_true_of_eq_false noAD)]
    exact congrArg (·, handled) complete
  refine ⟨q, ?_, next, moved.trans end_offset, limit, room'⟩
  rw [drain_eq, here, turned]
  dsimp only
  rw [buffer, size, show opened.gsPack.offset = p.curOffset from boundary.offset,
    show opened.buffer = (p.append (eopTag ++ rest)).buffer from rfl, bytes, drain_eq, Path.align,
    if_neg fun needed => Nat.not_le_of_lt next.short needed.2.1, Path.turn,
    if_neg (by simp [next.invalid]), if_pos next.short]

end

/-- Two packets in one chunk for a masked path 3: the second one is not executed. -/
theorem masked_rewind : ¬∀ (p : Path) (stat : GifStat) (pending pending' : List (List UInt8) → Bool)
    (chunks : List (List UInt8)), p.AtBoundary → p.curSize + chunks.flatten.length ≤ p.buffSize →
    NoSecondSignal pending (feed stat quiet p [] [] [chunks.flatten]).2.1 →
    NoSecondSignal pending' (feed stat quiet p [] [] [chunks.flatten]).2.1 →
    SameOutcome (feed stat pending p [] [] chunks)
      (feed stat pending' p [] [] [chunks.flatten]) := by
  intro all
  have never (writes : List (List UInt8)) : NoSecondSignal quiet writes := fun _ _ _ => by
    simp [handlerAD, quiet]
  let stat : GifStat := ⟨3, true, false⟩
  have masked : ¬stat.Unmasked := not_not.2 ⟨rfl, Or.inl rfl⟩
  let p := Path.init (fun _ => 0) 64 16
  have boundary : p.AtBoundary := boundary_init _ _ _
  have same := (all p stat quiet quiet [eopTag, eopTag] boundary (by decide) (never _) (never _)).packets
  have copied (q : Path) (chunk : List UInt8) (fits : q.curSize + chunk.length ≤ q.buffSize) :
      q.copyGSPacketData chunk = q.append chunk := if_neg (Nat.not_lt_of_le fits)
  obtain ⟨whole, wholeEq, -⟩ := drain_masked quiet [] [] masked boundary (by decide) eopTag
  obtain ⟨q, firstEq, next, offset, limit, size⟩ := drain_masked quiet [] [] masked boundary
    (by decide) []
  obtain ⟨r, secondEq, -⟩ := drain_masked quiet [] [eopTag] masked next (by rw [offset, limit]; decide) []
  rw [List.append_nil] at firstEq secondEq
  have cut : feed stat quiet p [] [] [eopTag, eopTag] = (r, [], [eopTag, eopTag]) := by
    have second : feed stat quiet q [] [eopTag] [eopTag] = (r, [], [eopTag, eopTag]) := by
      rw [feed, copied q eopTag (by rw [← next.all, offset, size]; decide), secondEq]
      rfl
    rw [feed, copied p eopTag (by decide), firstEq]
    exact second
  have once : feed stat quiet p [] [] [eopTag ++ eopTag] = (whole, [], [eopTag]) := by
    rw [feed, copied p (eopTag ++ eopTag) (by decide), wholeEq]
    rfl
  rw [cut, show [eopTag, eopTag].flatten = eopTag ++ eopTag from rfl, once] at same
  exact absurd (congrArg List.length same) (by dsimp only; decide)

end Pcsx2.Gif
