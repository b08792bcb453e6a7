import Pcsx2.Gif.Path

/-!
# A stream of packets in chunks

A stream is copied to a path chunk by chunk, and after each chunk `ExecuteGSPacket` is called until
no packet is complete. What comes out does not depend on where the stream is cut.
-/

namespace Pcsx2.Gif
open Foundation

/-- No SIGNAL is pending. -/
def quiet : List (List UInt8) → Bool := fun _ => false

def Path.extend (p : Path) (buffer : Nat → UInt8) (curSize : Nat) : Path := { p with buffer, curSize }

def Turn.extend (buffer : Nat → UInt8) (curSize : Nat) : Turn → Turn
  | .starved p => .starved (p.extend buffer curSize)
  | .next p => .next (p.extend buffer curSize)
  | .complete p gsPack => .complete (p.extend buffer curSize) gsPack

section

variable {p q : Path} {stat : GifStat} {pending : List (List UInt8) → Bool}
  {handled : List (List UInt8)} {buffer : Nat → UInt8} {curSize : Nat}

/-! ## A turn with more data -/

theorem packedAD_extend (more : p.curSize ≤ curSize)
    (agree : ∀ a, p.curOffset ≤ a → a < p.curSize → buffer a = p.buffer a) :
    (p.extend buffer curSize).packedAD pending handled =
      match p.packedAD pending handled with
      | (q, handled, .starved) => (q.extend buffer curSize).packedAD pending handled
      | (q, handled, ended) => (q.extend buffer curSize, handled, ended) := by
  fun_induction Path.packedAD pending p handled with
  | case1 p handled done =>
      rw [Path.packedAD, if_pos (by exact done)]
  | case2 p handled loop short => rfl
  | case3 p handled loop room pMem next atAD stall =>
      have same : load buffer p.curOffset 16 = pMem :=
        load_congr fun i bound => agree _ (by omega) (by omega)
      rw [Path.packedAD, if_neg (by exact loop), dif_neg (by simp only [Path.extend]; omega)]
      simp only [Path.extend, same, if_pos atAD, if_pos stall]
      rfl
  | case4 p handled loop room pMem next atAD go ih =>
      have same : load buffer p.curOffset 16 = pMem :=
        load_congr fun i bound => agree _ (by omega) (by omega)
      rw [Path.packedAD, if_neg (by exact loop), dif_neg (by simp only [Path.extend]; omega)]
      simp only [Path.extend, same, if_pos atAD, if_neg go]
      exact ih more fun a lower upper => agree a (Nat.le_of_add_right_le lower) upper
  | case5 p handled loop room next other ih =>
      have same : ¬(p.extend buffer curSize).gifTag.curReg = regAD := other
      rw [Path.packedAD, if_neg (by exact loop), dif_neg (by simp only [Path.extend]; omega)]
      dsimp only
      rw [if_neg same]
      exact ih more fun a lower upper => agree a (Nat.le_of_add_right_le lower) upper

theorem packedAD_quiet (p : Path) (handled : List (List UInt8)) :
    (p.packedAD quiet handled).2.2 ≠ .dblSIGNAL := by
  fun_induction Path.packedAD quiet p handled with
  | case1 | case2 => simp
  | case3 p handled loop room pMem next atAD stall => simp [handlerAD, quiet] at stall
  | case4 p handled loop room pMem next atAD go ih => exact ih
  | case5 p handled loop room next other ih => exact ih

theorem endTag_unmasked (unmasked : stat.Unmasked) : p.endTag stat =
    if p.gifTag.tag.EOP then
      .complete { p with
        gifTag := { p.gifTag with isValid := false }, dmaRewind := 0, gsPack := ⟨p.curOffset, 0, 0⟩
        state := if stat.APATH = 3 then .wait else .idle } p.gsPack
    else .next { p with gifTag := { p.gifTag with isValid := false } } := by
  unfold Path.endTag
  dsimp only
  split
  · split
    · rename_i three
      rw [if_neg fun both => unmasked ⟨three, both.2⟩]
    · rfl
  · rfl

theorem endTag_extend (p : Path) (buffer : Nat → UInt8) (curSize : Nat) (unmasked : stat.Unmasked) :
    (p.extend buffer curSize).endTag stat = (p.endTag stat).extend buffer curSize := by
  rw [endTag_unmasked unmasked, endTag_unmasked unmasked]
  by_cases eop : p.gifTag.tag.EOP
  · rw [if_pos eop, if_pos (by exact eop)]
    rfl
  · rw [if_neg eop, if_neg (by exact eop)]
    rfl

/-- More data behind the data of `p` from the start of the packet on. -/
structure Extends (p : Path) (buffer : Nat → UInt8) (curSize : Nat) : Prop where
  more : p.curSize ≤ curSize
  agree : ∀ a, p.gsPack.offset ≤ a → a < p.curSize → buffer a = p.buffer a

theorem Extends.agree_offset (extends' : Extends p buffer curSize) (valid : p.Valid) :
    ∀ a, p.curOffset ≤ a → a < p.curSize → buffer a = p.buffer a := by
  have := valid.offset
  exact fun a lower upper => extends'.agree a (by omega) upper

/-- Why a turn has stopped: there is no data for a tag, for the next A+D register or for all of the
tag's data. -/
inductive Starved (p : Path) : Prop
  | tag (invalid : p.gifTag.isValid = false) (short : p.curSize < p.curOffset + 16)
  | data (valid : p.gifTag.isValid = true) (hasAD : p.gifTag.hasAD = true)
      (loop : p.gifTag.nLoop ≠ 0) (short : p.curSize < p.curOffset + 16)
  | whole (t : GifTag) (invalid : p.gifTag.isValid = false) (room : p.curOffset + 16 ≤ p.curSize)
      (read : p.gifTag.setTag (load p.buffer p.curOffset 16) = t) (noAD : t.hasAD = false)
      (same : p.gifTag = { t with isValid := false }) (state : p.state = .ofFlg t.tag.FLG)
      (short : p.curSize < p.curOffset + 16 + t.len)

theorem setTag_setTag (t : GifTag) (pMem : List UInt8) (isValid : Bool) :
    GifTag.setTag { t.setTag pMem with isValid } pMem = t.setTag pMem := by
  unfold GifTag.setTag
  generalize HwGifTag.ofBytes pMem = tag
  obtain ⟨NLOOP, EOP, FLG, NREG, REGS⟩ := tag
  match FLG with
  | 0 => rfl
  | 1 => rfl
  | _ + 2 => rfl

theorem packedAD_starved (pending : List (List UInt8) → Bool) (p : Path) (handled : List (List UInt8))
    (ended : (p.packedAD pending handled).2.2 = .starved) :
    (p.packedAD pending handled).1.gifTag.nLoop ≠ 0 ∧
    (p.packedAD pending handled).1.curSize < (p.packedAD pending handled).1.curOffset + 16 := by
  fun_induction Path.packedAD pending p handled with
  | case1 p handled done => cases ended
  | case2 p handled loop short => exact ⟨loop, short⟩
  | case3 p handled loop room pMem next atAD stall => cases ended
  | case4 p handled loop room pMem next atAD go ih => exact ih ended
  | case5 p handled loop room next other ih => exact ih ended

theorem endTag_ne_starved (p q : Path) : p.endTag stat ≠ .starved q := by
  unfold Path.endTag
  dsimp only
  split
  · split
    · split <;> simp
    · simp
  · simp

theorem tagData_extend (unmasked : stat.Unmasked) (isValid : p.gifTag.isValid = true)
    (more : p.curSize ≤ curSize)
    (agree : ∀ a, p.curOffset ≤ a → a < p.curSize → buffer a = p.buffer a) :
    match p.tagData stat quiet handled with
    | (.starved q, handled') => Starved q ∧
        (p.extend buffer curSize).tagData stat quiet handled =
          (q.extend buffer curSize).turn stat quiet handled'
    | (turn, handled') => (p.extend buffer curSize).tagData stat quiet handled =
        (turn.extend buffer curSize, handled') := by
  unfold Path.tagData
  by_cases hasAD : p.gifTag.hasAD
  · have tag := packedAD_tag quiet p handled
    have notDbl := packedAD_quiet p handled
    have stops := packedAD_starved quiet p handled
    have hasAD' : (p.extend buffer curSize).gifTag.hasAD := hasAD
    rw [if_pos hasAD, if_pos hasAD', packedAD_extend more agree]
    generalize p.packedAD quiet handled = result at *
    obtain ⟨q, handled', ended⟩ := result
    cases ended with
    | starved =>
        obtain ⟨loop, short⟩ := stops rfl
        have sameValid := tag.1.trans isValid
        have sameAD := tag.2.trans hasAD
        refine ⟨.data sameValid sameAD loop short, ?_⟩
        have valid' : (q.extend buffer curSize).gifTag.isValid := sameValid
        have sameAD' : (q.extend buffer curSize).gifTag.hasAD := sameAD
        rw [Path.turn, if_pos valid', Path.tagData, if_pos sameAD']
    | dblSIGNAL => exact absurd rfl notDbl
    | finished =>
        dsimp only
        have same := endTag_extend q buffer curSize unmasked
        rw [same]
        generalize atEnd : q.endTag stat = turn
        cases turn with
        | starved r => exact absurd atEnd (endTag_ne_starved q r)
        | next r => rfl
        | complete r gsPack => rfl
  · have hasAD' : ¬(p.extend buffer curSize).gifTag.hasAD := hasAD
    rw [if_neg hasAD, if_neg hasAD']
    have same := endTag_extend (p.incTag p.gifTag.len) buffer curSize unmasked
    have moved : (p.extend buffer curSize).incTag (p.extend buffer curSize).gifTag.len =
      (p.incTag p.gifTag.len).extend buffer curSize := rfl
    rw [moved, same]
    generalize atEnd : (p.incTag p.gifTag.len).endTag stat = turn
    cases turn with
    | starved r => exact absurd atEnd (endTag_ne_starved _ r)
    | next r => rfl
    | complete r gsPack => rfl

def Path.unread (p : Path) (t : GifTag) : Path :=
  { p with gifTag := { t with isValid := false }, state := .ofFlg t.tag.FLG }

def Path.opened (p : Path) (t : GifTag) : Path :=
  { p with
    curOffset := p.curOffset + 16, gifTag := t, state := .ofFlg t.tag.FLG
    gsPack := { p.gsPack with size := p.gsPack.size + 16, cycles := p.gsPack.cycles + 2 + t.cycles } }

theorem turn_tag {t : GifTag} (invalid : ¬p.gifTag.isValid) (room : ¬p.curSize < p.curOffset + 16)
    (read : p.gifTag.setTag (load p.buffer p.curOffset 16) = t) :
    p.turn stat pending handled =
      if t.hasAD = false ∧ p.curSize < p.curOffset + 16 + t.len then (.starved (p.unread t), handled)
      else (p.opened t).tagData stat pending handled := by
  unfold Path.turn Path.readTag
  rw [if_neg invalid, if_neg room, read]
  dsimp only
  by_cases short : t.hasAD = false ∧ p.curSize < p.curOffset + 16 + t.len
  · rw [if_pos short, if_pos short]
    rfl
  · rw [if_neg short, if_neg short]
    rfl

theorem turn_extend (handled : List (List UInt8)) (unmasked : stat.Unmasked) (valid : p.Valid)
    (extends' : Extends p buffer curSize) :
    match p.turn stat quiet handled with
    | (.starved q, handled') => Starved q ∧
        (p.extend buffer curSize).turn stat quiet handled =
          (q.extend buffer curSize).turn stat quiet handled'
    | (turn, handled') => (p.extend buffer curSize).turn stat quiet handled =
        (turn.extend buffer curSize, handled') := by
  have agree := extends'.agree_offset valid
  have more := extends'.more
  by_cases isValid : p.gifTag.isValid
  · have isValid' : (p.extend buffer curSize).gifTag.isValid := isValid
    rw [Path.turn, Path.turn, if_pos isValid, if_pos isValid']
    exact tagData_extend unmasked isValid more agree
  have invalid : ¬(p.extend buffer curSize).gifTag.isValid := isValid
  by_cases room : p.curSize < p.curOffset + 16
  · rw [Path.turn, if_neg isValid, if_pos room]
    exact ⟨.tag (by simpa using isValid) room, rfl⟩
  have room' : ¬(p.extend buffer curSize).curSize < (p.extend buffer curSize).curOffset + 16 := by
    simp only [Path.extend]
    omega
  generalize read : p.gifTag.setTag (load p.buffer p.curOffset 16) = t
  have read' : (p.extend buffer curSize).gifTag.setTag
      (load buffer (p.extend buffer curSize).curOffset 16) = t := by
    rw [← read, ← load_congr fun i bound => agree _ (by omega) (by omega)]
    rfl
  rw [turn_tag isValid room read, turn_tag invalid room' read']
  by_cases short : t.hasAD = false ∧ p.curSize < p.curOffset + 16 + t.len
  · have again : ((p.unread t).extend buffer curSize).gifTag.setTag
        (load buffer ((p.unread t).extend buffer curSize).curOffset 16) = t := by
      rw [← read']
      exact setTag_setTag _ _ _
    rw [if_pos short]
    dsimp only
    refine ⟨.whole t rfl (Nat.le_of_not_lt room) ?_ short.1 rfl rfl short.2, ?_⟩
    · rw [← read]
      exact setTag_setTag _ _ _
    · rw [turn_tag (p := (p.unread t).extend buffer curSize) Bool.false_ne_true room' again]
      rfl
  · have enough : ¬(t.hasAD = false ∧ curSize < p.curOffset + 16 + t.len) := by
      rintro ⟨noAD, small⟩
      exact short ⟨noAD, by omega⟩
    rw [if_neg short, if_neg (by exact enough)]
    refine tagData_extend (p := p.opened t) unmasked ?_ more fun a lower upper => ?_
    · rw [← read]
      exact setTag_isValid _ _
    · exact agree a (Nat.le_of_add_right_le lower) upper

theorem Starved.turn (starved : Starved p) (same : ∀ a, p.curOffset ≤ a → a < p.curSize →
      buffer a = p.buffer a) :
    (p.extend buffer p.curSize).turn stat pending handled =
      (.starved (p.extend buffer p.curSize), handled) := by
  cases starved with
  | tag invalid short =>
      rw [Path.turn, if_neg (by simp [Path.extend, invalid]), if_pos (by exact short)]
  | data valid hasAD loop short =>
      rw [Path.turn, if_pos (by exact valid), Path.tagData, if_pos (by exact hasAD), Path.packedAD,
        if_neg (by exact loop), dif_pos (by exact short)]
  | whole t invalid room read noAD same' state short =>
      have read' : (p.extend buffer p.curSize).gifTag.setTag
          (load buffer (p.extend buffer p.curSize).curOffset 16) = t := by
        rw [← read, ← load_congr fun i bound => same _ (by omega) (by omega)]
        rfl
      rw [turn_tag (by simp [Path.extend, invalid]) (by exact Nat.not_lt_of_le room) read',
        if_pos ⟨noAD, by exact short⟩, Path.unread, ← same', ← state]
      rfl

/-! ## Moving the packet with more data -/

theorem realignPacket_valid (valid : p.Valid) : p.realignPacket.Valid := by
  have := valid.offset
  have := valid.within
  refine ⟨Nat.zero_add _, ?_, valid.tag⟩
  simp only [Path.realignPacket]
  omega

theorem align_valid (valid : p.Valid) : p.align.Valid := by
  unfold Path.align
  split
  · exact realignPacket_valid valid
  · exact valid

theorem realignPacket_buffer (valid : p.Valid) {a : Nat} (bound : a < p.curSize - p.gsPack.offset) :
    p.realignPacket.buffer a = p.buffer (p.gsPack.offset + a) := by
  have start : p.curOffset - p.gsPack.size = p.gsPack.offset := by
    have := valid.offset
    omega
  have stored := perform_blockStores p.buffer 0
    (load p.buffer p.gsPack.offset (p.curSize - p.gsPack.offset)) a (by rwa [load_length])
  rw [Nat.zero_add, load_getElem] at stored
  simp only [Path.realignPacket, start]
  exact stored

theorem realignPacket_front (valid : p.Valid) (front : p.gsPack.offset = 0) : p.realignPacket = p := by
  have offset := valid.offset
  rw [front, Nat.zero_add] at offset
  have start : p.curOffset - p.gsPack.size = 0 := by omega
  have same : perform p.buffer (blockStores 0 (load p.buffer 0 p.curSize)) = p.buffer := by
    funext a
    rcases Nat.lt_or_ge a p.curSize with below | above
    · have stored := perform_blockStores p.buffer 0 (load p.buffer 0 p.curSize) a
        (by rwa [load_length])
      rw [Nat.zero_add, load_getElem, Nat.zero_add] at stored
      exact stored
    · exact perform_blockStores_of_ge (by rw [load_length]; omega)
  have pack : ({ p.gsPack with offset := 0 } : GSPacket) = p.gsPack := by rw [← front]
  simp only [Path.realignPacket, start, Nat.sub_zero, same]
  rw [pack, offset]

structure Behind (p : Path) (buffer : Nat → UInt8) (data : List UInt8) : Prop where
  agree : ∀ a, p.gsPack.offset ≤ a → a < p.curSize → buffer a = p.buffer a
  data : load buffer p.curSize data.length = data

def Path.behind (p : Path) (buffer : Nat → UInt8) (data : List UInt8) : Path :=
  p.extend buffer (p.curSize + data.length)

theorem Behind.extends {data : List UInt8} (behind : Behind p buffer data) :
    Extends p buffer (p.curSize + data.length) :=
  ⟨Nat.le_add_right _ _, behind.agree⟩

theorem behind_valid (valid : p.Valid) (buffer : Nat → UInt8) (data : List UInt8) :
    (p.behind buffer data).Valid :=
  ⟨valid.offset, Nat.le_trans valid.within (Nat.le_add_right _ _), valid.tag⟩

theorem Behind.realignPacket {data : List UInt8} (behind : Behind p buffer data) (valid : p.Valid) :
    Behind p.realignPacket (p.behind buffer data).realignPacket.buffer data ∧
    (p.behind buffer data).realignPacket =
      p.realignPacket.behind (p.behind buffer data).realignPacket.buffer data := by
  have offset := valid.offset
  have within := valid.within
  have start : p.curOffset - p.gsPack.size = p.gsPack.offset := by omega
  have size : p.realignPacket.curSize = p.curSize - p.gsPack.offset := by
    simp only [Path.realignPacket, start]
  have moved {a : Nat} (bound : a < p.curSize + data.length - p.gsPack.offset) :
      (p.behind buffer data).realignPacket.buffer a = buffer (p.gsPack.offset + a) :=
    realignPacket_buffer (behind_valid valid buffer data) bound
  refine ⟨⟨fun a _ upper => ?_, ?_⟩, ?_⟩
  · rw [size] at upper
    rw [moved (by omega), realignPacket_buffer valid upper]
    exact behind.agree _ (Nat.le_add_right _ _) (by omega)
  · have shifted : load (p.behind buffer data).realignPacket.buffer p.realignPacket.curSize
        data.length = load (fun a => buffer (p.gsPack.offset + a)) p.realignPacket.curSize
          data.length := load_congr fun i bound => moved (by omega)
    refine (shifted.trans ?_).trans behind.data
    rw [size]
    simp only [load]
    refine List.map_congr_left fun i _ => ?_
    congr 1
    omega
  · simp only [Path.behind, Path.extend, Path.realignPacket, start, Path.mk.injEq, and_true, true_and]
    omega

end

/-! ## Executing until no packet is complete -/

theorem executeGSPacket_below (stat : GifStat) (pending : List (List UInt8) → Bool) (p : Path)
    (handled : List (List UInt8)) (gsPack : GSPacket)
    (complete : (p.executeGSPacket stat pending handled).2.1 = some gsPack) :
    (p.executeGSPacket stat pending handled).1.remaining < p.remaining := by
  fun_induction Path.executeGSPacket stat pending p handled with
  | case1 p handled below q handled' result => cases complete
  | case2 p handled below q t handled' result =>
      rw [result] at below
      exact Nat.lt_of_lt_of_le below (align_remaining p)
  | case3 p handled below q handled' result less ih => exact Nat.lt_trans (ih complete) less

/-- `ExecuteGSPacket` again and again; the bytes of each packet that is complete are collected. -/
def Path.drain (stat : GifStat) (pending : List (List UInt8) → Bool) (p : Path)
    (handled packets : List (List UInt8)) : Path × List (List UInt8) × List (List UInt8) :=
  match result : p.executeGSPacket stat pending handled with
  | (q, none, handled) => (q, handled, packets)
  | (q, some gsPack, handled') =>
    have := executeGSPacket_below stat pending p handled gsPack (by rw [result])
    have := congrArg (·.1.remaining) result
    q.drain stat pending handled' (packets ++ [load q.buffer gsPack.offset gsPack.size])
termination_by p.remaining
decreasing_by simp_all

section

variable {p q : Path} {stat : GifStat} {pending : List (List UInt8) → Bool}
  {handled handled' packets : List (List UInt8)} {buffer : Nat → UInt8} {data : List UInt8}

theorem executeGSPacket_eq (stat : GifStat) (pending : List (List UInt8) → Bool) (p : Path)
    (handled : List (List UInt8)) : p.executeGSPacket stat pending handled =
      match p.align.turn stat pending handled with
      | (.starved p, handled) => (p, none, handled)
      | (.complete p gsPack, handled) => (p, some gsPack, handled)
      | (.next q, handled) => q.executeGSPacket stat pending handled := by
  rw [Path.executeGSPacket]
  split
  all_goals
    rename_i result
    simp only [result]

theorem drain_execute (stat : GifStat) (pending : List (List UInt8) → Bool) (p : Path)
    (handled packets : List (List UInt8)) : p.drain stat pending handled packets =
      match p.executeGSPacket stat pending handled with
      | (q, none, handled) => (q, handled, packets)
      | (q, some gsPack, handled) =>
        q.drain stat pending handled (packets ++ [load q.buffer gsPack.offset gsPack.size]) := by
  rw [Path.drain]
  split
  all_goals
    rename_i result
    simp only [result]

theorem drain_eq (stat : GifStat) (pending : List (List UInt8) → Bool) (p : Path)
    (handled packets : List (List UInt8)) : p.drain stat pending handled packets =
      match p.align.turn stat pending handled with
      | (.starved q, handled) => (q, handled, packets)
      | (.next q, handled) => q.drain stat pending handled packets
      | (.complete q gsPack, handled) =>
        q.drain stat pending handled (packets ++ [load q.buffer gsPack.offset gsPack.size]) := by
  rw [drain_execute, executeGSPacket_eq]
  generalize p.align.turn stat pending handled = result
  obtain ⟨turn, handled'⟩ := result
  cases turn with
  | starved q => rfl
  | next q => exact (drain_execute stat pending q handled' packets).symm
  | complete q gsPack => rfl

/-! ## Draining with more data -/

theorem align_behind (behind : Behind p buffer data) (valid : p.Valid)
    (ready : p.gifTag.isValid = true ∨ p.curOffset + 16 ≤ p.curSize) :
    ∃ moved, Behind p.align moved data ∧
      (p.behind buffer data).align = p.align.behind moved data := by
  have same : (p.behind buffer data).needsRealign ↔ p.needsRealign := by
    simp only [Path.needsRealign, Path.behind, Path.extend]
    constructor
    · rintro ⟨invalid, room, past⟩
      refine ⟨invalid, ?_, past⟩
      exact ready.resolve_left (by rw [invalid]; exact Bool.false_ne_true)
    · rintro ⟨invalid, room, past⟩
      exact ⟨invalid, by omega, past⟩
  unfold Path.align
  by_cases needed : p.needsRealign
  · rw [if_pos needed, if_pos (same.mpr needed)]
    obtain ⟨moved, eq⟩ := behind.realignPacket valid
    exact ⟨_, moved, eq⟩
  · rw [if_neg needed, if_neg (mt same.mp needed)]
    exact ⟨buffer, behind, rfl⟩

theorem tagData_starved (valid : p.gifTag.isValid = true)
    (starved : (p.tagData stat quiet handled).1 = .starved q) : q.gifTag.isValid = true := by
  unfold Path.tagData at starved
  have tag := packedAD_tag quiet p handled
  have notDbl := packedAD_quiet p handled
  split at starved
  · generalize p.packedAD quiet handled = result at *
    obtain ⟨r, handled', ended⟩ := result
    cases ended with
    | starved =>
        cases starved
        exact tag.1.trans valid
    | dblSIGNAL => exact absurd rfl notDbl
    | finished => exact absurd starved (endTag_ne_starved _ _)
  · exact absurd starved (endTag_ne_starved _ _)

theorem turn_starved (starved : (p.turn stat quiet handled).1 = .starved q) :
    q.gifTag.isValid = true ∨ p.gifTag.isValid = false ∧ q.curOffset = p.curOffset := by
  by_cases isValid : p.gifTag.isValid
  · rw [Path.turn, if_pos isValid] at starved
    exact Or.inl (tagData_starved isValid starved)
  have invalid : p.gifTag.isValid = false := by simpa using isValid
  by_cases room : p.curSize < p.curOffset + 16
  · rw [Path.turn, if_neg isValid, if_pos room] at starved
    cases starved
    exact Or.inr ⟨invalid, rfl⟩
  rw [turn_tag isValid room rfl] at starved
  split at starved
  · cases starved
    exact Or.inr ⟨invalid, rfl⟩
  · exact Or.inl (tagData_starved (setTag_isValid _ _) starved)

theorem align_still (valid : p.Valid) (still : ¬p.needsRealign ∨ p.gsPack.offset = 0) :
    p.align = p := by
  unfold Path.align
  split
  · rename_i needed
    exact realignPacket_front valid (still.resolve_left fun no => no needed)
  · rfl

structure Settled (p : Path) : Prop where
  valid : p.Valid
  starved : Starved p
  still : ¬p.needsRealign ∨ p.gsPack.offset = 0

theorem Settled.drain (settled : Settled p) (same : Behind p buffer []) :
    (p.behind buffer []).drain stat quiet handled packets =
      (p.behind buffer [], handled, packets) := by
  have offset := settled.valid.offset
  have still : (p.behind buffer []).align = p.behind buffer [] :=
    align_still (behind_valid settled.valid buffer []) settled.still
  rw [drain_eq, still, Path.behind, List.length_nil, Nat.add_zero,
    settled.starved.turn fun a lower upper => same.agree a (by omega) upper]

theorem drain_of_starved (starved : p.align.turn stat pending handled = (.starved q, handled')) :
    p.drain stat pending handled packets = (q, handled', packets) := by
  rw [drain_eq, starved]

theorem Behind.later (behind : Behind p buffer data) (same : q.buffer = p.buffer)
    (size : q.curSize = p.curSize) (later : p.gsPack.offset ≤ q.gsPack.offset) :
    Behind q buffer data ∧ p.extend buffer (p.curSize + data.length) = p.behind buffer data ∧
      q.extend buffer (p.curSize + data.length) = q.behind buffer data := by
  refine ⟨⟨fun a lower upper => ?_, ?_⟩, rfl, ?_⟩
  · rw [same]
    exact behind.agree a (by omega) (by omega)
  · rw [size]
    exact behind.data
  · rw [Path.behind, size]

theorem still_behind (stat : GifStat) (handled : List (List UInt8)) (q : Path) (valid : p.Valid)
    (starved : (p.align.turn stat quiet handled).1 = .starved q)
    (ready : p.gifTag.isValid = true ∨ p.curOffset + 16 ≤ p.curSize) (buffer : Nat → UInt8)
    (data : List UInt8) :
    ¬(q.behind buffer data).needsRealign ∨ (q.behind buffer data).gsPack.offset = 0 := by
  have spec := turn_spec stat quiet handled (align_valid valid)
  rw [starved] at spec
  have advances := spec.advances
  by_cases needed : p.needsRealign
  · right
    have moved : p.align.gsPack.offset = 0 := by
      rw [Path.align, if_pos needed]
      rfl
    exact advances.offset.trans moved
  · left
    have here : p.align = p := by rw [Path.align, if_neg needed]
    rw [here] at starved advances
    rintro ⟨invalid, -, past⟩
    obtain ⟨before, same⟩ := (turn_starved starved).resolve_left (by
      rw [show q.gifTag.isValid = false from invalid]
      exact Bool.false_ne_true)
    refine needed ⟨before, ready.resolve_left (by rw [before]; exact Bool.false_ne_true), ?_⟩
    rw [← same, ← advances.buffLimit]
    exact past

theorem drain_behind (handled packets : List (List UInt8)) (unmasked : stat.Unmasked) (valid : p.Valid) (behind : Behind p buffer data) :
    Settled (p.drain stat quiet handled packets).1 ∧
    (p.drain stat quiet handled packets).1.buffSize = p.buffSize ∧
    (p.drain stat quiet handled packets).1.curSize ≤ p.curSize ∧
    ∃ moved, Behind (p.drain stat quiet handled packets).1 moved data ∧
      (p.behind buffer data).drain stat quiet handled packets =
        ((p.drain stat quiet handled packets).1.behind moved data).drain stat quiet
          (p.drain stat quiet handled packets).2.1 (p.drain stat quiet handled packets).2.2 := by
  induction left : p.remaining using Nat.strong_induction_on generalizing p buffer handled packets with
  | _ n ih =>
  subst left
  by_cases ready : p.gifTag.isValid = true ∨ p.curOffset + 16 ≤ p.curSize
  swap
  · obtain ⟨invalid, short⟩ := not_or.mp ready
    have quietly : ¬p.needsRealign := fun needed => short needed.2.1
    have stop : p.align.turn stat quiet handled = (.starved p, handled) := by
      rw [Path.align, if_neg quietly, Path.turn, if_neg invalid, if_pos (Nat.lt_of_not_le short)]
    rw [drain_of_starved stop]
    exact ⟨⟨valid, .tag (by simpa using invalid) (Nat.lt_of_not_le short), Or.inl quietly⟩, rfl,
      Nat.le_refl _, buffer, behind, rfl⟩
  obtain ⟨moved, behind', aligned⟩ := align_behind behind valid ready
  have spec := turn_spec stat quiet handled (align_valid valid)
  have extended := turn_extend handled unmasked (align_valid valid) behind'.extends
  have below := turn_below stat quiet p.align handled
  have still (q : Path) := still_behind stat handled q valid
  obtain ⟨shrunk, kept⟩ : p.align.curSize ≤ p.curSize ∧ p.align.buffSize = p.buffSize := by
    unfold Path.align
    split
    · exact ⟨Nat.sub_le _ _, rfl⟩
    · exact ⟨Nat.le_refl _, rfl⟩
  rw [drain_eq stat quiet (p.behind buffer data), drain_eq stat quiet p, aligned]
  rw [Path.behind]
  generalize p.align.turn stat quiet handled = result at *
  obtain ⟨turn, handled'⟩ := result
  cases turn with
  | starved q =>
      obtain ⟨starved, same⟩ := extended
      have advances := spec.advances
      obtain ⟨behindQ, -, eq⟩ := behind'.later advances.buffer advances.curSize
        (Nat.le_of_eq advances.offset.symm)
      have stillQ := still q rfl ready
      dsimp only
      refine ⟨⟨spec.valid, starved, stillQ q.buffer []⟩, advances.buffSize.trans kept, ?_, moved,
        behindQ, ?_⟩
      · rw [advances.curSize]
        exact shrunk
      · rw [same, eq, drain_eq stat quiet (q.behind moved data),
          align_still (behind_valid spec.valid moved data) (stillQ moved data)]
  | next q =>
      have advances := spec.advances
      obtain ⟨behindQ, -, eq⟩ := behind'.later advances.buffer advances.curSize
        (Nat.le_of_eq advances.offset.symm)
      obtain ⟨settled, size, less, rest⟩ := ih q.remaining
        (Nat.lt_of_lt_of_le below (align_remaining p)) _ _ spec.valid behindQ rfl
      dsimp only at extended ⊢
      rw [extended, Turn.extend, eq]
      refine ⟨settled, size.trans (advances.buffSize.trans kept), Nat.le_trans less ?_, rest⟩
      rw [advances.curSize]
      exact shrunk
  | complete q gsPack =>
      have size := spec.kept unmasked
      have ends := spec.size
      have start := spec.offset
      have offset := spec.valid.offset
      have within := spec.valid.within
      have fresh := spec.fresh
      obtain ⟨behindQ, -, eq⟩ := behind'.later spec.buffer size (by omega)
      have bytes : load moved gsPack.offset gsPack.size = load q.buffer gsPack.offset gsPack.size := by
        refine load_congr fun i bound => ?_
        rw [spec.buffer]
        exact behind'.agree _ (by omega) (by omega)
      obtain ⟨settled, same, less, rest⟩ := ih q.remaining
        (Nat.lt_of_lt_of_le below (align_remaining p)) _ _ spec.valid behindQ rfl
      dsimp only at extended ⊢
      rw [extended, Turn.extend, eq]
      dsimp only
      rw [show (q.behind moved data).buffer = moved from rfl, bytes]
      refine ⟨settled, same.trans (spec.buffSize.trans kept), Nat.le_trans less ?_, rest⟩
      rw [size]
      exact shrunk

end

/-! ## Feeding chunks -/

/-- Copy each chunk and execute until no packet is complete. -/
def feed (stat : GifStat) (pending : List (List UInt8) → Bool) (p : Path)
    (handled packets : List (List UInt8)) :
    List (List UInt8) → Path × List (List UInt8) × List (List UInt8)
  | [] => (p, handled, packets)
  | chunk :: chunks =>
    let (p, handled, packets) := (p.copyGSPacketData chunk).drain stat pending handled packets
    feed stat pending p handled packets chunks

section

variable {p : Path} {stat : GifStat} {handled packets : List (List UInt8)} {buffer : Nat → UInt8}

theorem append_valid (valid : p.Valid) (chunk : List UInt8) : (p.append chunk).Valid :=
  ⟨valid.offset, Nat.le_trans valid.within (Nat.le_add_right _ _), valid.tag⟩

theorem Behind.append {chunk rest : List UInt8} (behind : Behind p buffer (chunk ++ rest)) :
    Behind (p.append chunk) buffer rest ∧
      p.behind buffer (chunk ++ rest) = (p.append chunk).behind buffer rest := by
  have data := behind.data
  rw [List.length_append, load_add] at data
  obtain ⟨front, back⟩ := List.append_inj data (load_length _ _ _)
  refine ⟨⟨fun a lower upper => ?_, back⟩, ?_⟩
  · simp only [Path.append] at lower upper ⊢
    rcases Nat.lt_or_ge a p.curSize with old | new
    · rw [perform_blockStores_of_lt old]
      exact behind.agree a lower old
    · obtain ⟨i, rfl⟩ := Nat.exists_eq_add_of_le new
      have bound : i < chunk.length := by omega
      rw [perform_blockStores _ _ _ i bound]
      exact load_eq_iff.mp front i bound
  · simp only [Path.behind, Path.extend, Path.append, List.length_append, Nat.add_assoc]

theorem feed_behind {chunks : List (List UInt8)} (handled packets : List (List UInt8)) (unmasked : stat.Unmasked) (settled : Settled p)
    (behind : Behind p buffer chunks.flatten)
    (fits : p.curSize + chunks.flatten.length ≤ p.buffSize) :
    ∃ moved, (p.behind buffer chunks.flatten).drain stat quiet handled packets =
      ((feed stat quiet p handled packets chunks).1.behind moved [],
        (feed stat quiet p handled packets chunks).2) := by
  induction chunks generalizing p handled packets buffer with
  | nil => exact ⟨buffer, settled.drain behind⟩
  | cons chunk chunks ih =>
      rw [List.flatten_cons] at behind fits ⊢
      rw [List.length_append] at fits
      have copied : p.copyGSPacketData chunk = p.append chunk := by
        rw [Path.copyGSPacketData, if_neg (by omega)]
      obtain ⟨behind', eq⟩ := behind.append
      obtain ⟨settled', size, less, moved, again, same⟩ := drain_behind handled packets
        unmasked (append_valid settled.valid chunk) behind'
      rw [eq, same, feed, copied]
      refine ih _ _ settled' again ?_
      rw [size]
      have : (p.append chunk).curSize = p.curSize + chunk.length := rfl
      have : (p.append chunk).buffSize = p.buffSize := rfl
      omega

end

end Pcsx2.Gif
