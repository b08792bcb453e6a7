import Pcsx2.Foundation.Loop
import Pcsx2.Foundation.Format
import Pcsx2.PacketReader.NetLib

/-!
# DNS packets

A name is a row of labels, each behind its length, that ends with a zero or with a pointer to the rest
of the name anywhere in the buffer. It is read with fuel, a unit for each label and each pointer.
-/

namespace Pcsx2.PacketReader

open Foundation Foundation.Reader Relation

/-- The character between two labels. -/
def dot : Byte := 0x2E

def address (high low : Byte) : Nat := ((high &&& ~~~0xC0#8) ++ low : BitVec 16).toNat

def readSegment (again : Reader Byte (List Byte)) : Reader Byte (List Byte) := do
  let len ← peek
  if len = 0 then
    skip 1
    pure []
  else if 192 ≤ len.toNat then
    let high ← readByte08
    let low ← readByte08
    elsewhere (address high low) again
  else
    skip 1
    let label ← readByteArray len.toNat
    let next ← peek
    let rest ← again
    pure (label ++ (if next ≠ 0 then [dot] else []) ++ rest)

def readDNSString : Nat → Reader Byte (List Byte)
  | 0 => fun _ _ => none
  | fuel + 1 => readSegment (readDNSString fuel)

structure DNSQuestionEntry where
  name : List Byte
  entryType : BitVec 16
  entryClass : BitVec 16
  deriving DecidableEq

structure DNSResponseEntry extends DNSQuestionEntry where
  timeToLive : BitVec 32
  data : List Byte
  deriving DecidableEq

structure DNSPacket where
  id : BitVec 16
  flags1 : Byte
  flags2 : Byte
  questions : List DNSQuestionEntry
  answers : List DNSResponseEntry
  authorities : List DNSResponseEntry
  additional : List DNSResponseEntry
  deriving DecidableEq

def DNSQuestionEntry.read (fuel : Nat) : Reader Byte DNSQuestionEntry := do
  let name ← readDNSString fuel
  let entryType ← readUInt16
  let entryClass ← readUInt16
  pure ⟨name, entryType, entryClass⟩

def DNSResponseEntry.read (fuel : Nat) : Reader Byte DNSResponseEntry := do
  let question ← DNSQuestionEntry.read fuel
  let timeToLive ← readUInt32
  let dataLen ← readUInt16
  let data ← readByteArray dataLen.toNat
  pure ⟨question, timeToLive, data⟩

def DNSPacket.read (fuel : Nat) : Reader Byte DNSPacket := do
  let id ← readUInt16
  let flags1 ← readByte08
  let flags2 ← readByte08
  let qCount ← readUInt16
  let aCount ← readUInt16
  let auCount ← readUInt16
  let adCount ← readUInt16
  let questions ← many qCount.toNat (DNSQuestionEntry.read fuel)
  let answers ← many aCount.toNat (DNSResponseEntry.read fuel)
  let authorities ← many auCount.toNat (DNSResponseEntry.read fuel)
  let additional ← many adCount.toNat (DNSResponseEntry.read fuel)
  pure ⟨id, flags1, flags2, questions, answers, authorities, additional⟩

/-- The packet that stands in the buffer, and the place behind it. -/
def DNSPacket.parse (fuel : Nat) (buffer : List Byte) : Option (DNSPacket × Nat) := DNSPacket.read fuel buffer 0

/-! ## One turn of the loop -/

variable {buffer : List Byte} {again again' : Reader Byte (List Byte)} {a b e e' fuel : Nat} {len high low next : Byte}
  {v : List Byte × Nat}

theorem Below.readSegment (below : Below again again') : Below (readSegment again) (readSegment again') := by
  apply (Below.refl _).bind
  intro len
  by_cases zero : len = 0
  · rw [if_pos zero, if_pos zero]
    exact Below.refl _
  rw [if_neg zero, if_neg zero]
  by_cases large : 192 ≤ len.toNat
  · rw [if_pos large, if_pos large]
    exact (Below.refl _).bind fun high => (Below.refl _).bind fun low => below.elsewhere _
  · rw [if_neg large, if_neg large]
    apply (Below.refl _).bind
    intro _
    apply (Below.refl _).bind
    intro label
    apply (Below.refl _).bind
    intro next
    exact below.bind fun rest => Below.refl _

theorem grows_readDNSString : Grows readDNSString := by
  intro fuel
  induction fuel with
  | zero => exact fun _ _ _ none => by cases none
  | succ fuel ih => exact Below.readSegment ih

theorem peek_some (here : buffer[a]? = some len) : peek buffer a = some (len, a) := by
  rw [peek, here]
  rfl

theorem readByte08_some (here : buffer[a]? = some len) : readByte08 buffer a = some (len, a + 1) := by
  rw [readByte08, item, here]
  rfl

theorem readSegment_null (here : buffer[a]? = some 0) : readSegment again buffer a = some ([], a + 1) :=
  (bind_some (peek_some here)).trans rfl

theorem readSegment_pointer (here : buffer[a]? = some high) (large : 192 ≤ high.toNat) (behind : buffer[a + 1]? = some low) :
    readSegment again buffer a = (again buffer (address high low)).map fun v => (v.1, a + 2) := by
  have nonzero : high ≠ 0 := by
    rintro rfl
    exact absurd large (by decide)
  refine (bind_some (peek_some here)).trans ?_
  rw [if_neg nonzero, if_pos large]
  exact (bind_some (readByte08_some here)).trans (bind_some (readByte08_some behind))

theorem readSegment_label (here : buffer[a]? = some len) (nonzero : len ≠ 0) (small : len.toNat < 192)
    (behind : buffer[a + 1 + len.toNat]? = some next) :
    readSegment again buffer a = (again buffer (a + 1 + len.toNat)).map fun v =>
      ((buffer.drop (a + 1)).take len.toNat ++ (if next ≠ 0 then [dot] else []) ++ v.1, v.2) := by
  have inside : a + 1 + len.toNat ≤ buffer.length := Nat.le_of_lt (List.getElem?_eq_some_iff.1 behind).1
  have label : readByteArray len.toNat buffer (a + 1) = some ((buffer.drop (a + 1)).take len.toNat, a + 1 + len.toNat) :=
    if_pos inside
  have step : skip 1 buffer a = some ((), a + 1) := rfl
  refine (bind_some (peek_some here)).trans ?_
  rw [if_neg nonzero, if_neg (Nat.not_le_of_lt small), bind_some step, bind_some label, bind_some (peek_some behind)]
  cases rest : again buffer (a + 1 + len.toNat) with
  | none => exact bind_none rest
  | some v => exact bind_some rest

inductive Follows (buffer : List Byte) (a : Nat) : Nat → Prop
  | label {len : Byte} (here : buffer[a]? = some len) (nonzero : len ≠ 0) (small : len.toNat < 192) :
      Follows buffer a (a + 1 + len.toNat)
  | pointer {high low : Byte} (here : buffer[a]? = some high) (large : 192 ≤ high.toNat) (behind : buffer[a + 1]? = some low) :
      Follows buffer a (address high low)

/-- The byte is in the buffer, and so is the other one of a pointer. -/
def Inside (buffer : List Byte) (a : Nat) : Prop := ∃ len, buffer[a]? = some len ∧ (192 ≤ len.toNat → a + 1 < buffer.length)

/-- Where the name goes on from here is inside, and never leads back. -/
def Safe (buffer : List Byte) (a : Nat) : Prop :=
  ∀ b, ReflTransGen (Follows buffer) a b → Inside buffer b ∧ ¬TransGen (Follows buffer) b b

inductive NameEnds (buffer : List Byte) : Nat → Nat → Prop
  | null {a : Nat} (here : buffer[a]? = some 0) : NameEnds buffer a (a + 1)
  | pointer {a : Nat} {high : Byte} (here : buffer[a]? = some high) (large : 192 ≤ high.toNat) : NameEnds buffer a (a + 2)
  | label {a e : Nat} {len : Byte} (here : buffer[a]? = some len) (nonzero : len ≠ 0) (small : len.toNat < 192)
      (rest : NameEnds buffer (a + 1 + len.toNat) e) : NameEnds buffer a e

theorem readSegment_cases (read : readSegment again buffer a = some v) : buffer[a]? = some 0 ∧ v = ([], a + 1) ∨
    (∃ high low w, buffer[a]? = some high ∧ 192 ≤ high.toNat ∧ buffer[a + 1]? = some low ∧
      again buffer (address high low) = some w ∧ v = (w.1, a + 2)) ∨
    ∃ len next w, buffer[a]? = some len ∧ len ≠ 0 ∧ len.toNat < 192 ∧ buffer[a + 1 + len.toNat]? = some next ∧
      again buffer (a + 1 + len.toNat) = some w ∧ v.2 = w.2 := by
  obtain ⟨len, a', look, read'⟩ := bind_eq_some read
  obtain ⟨len', here, same⟩ := Option.map_eq_some_iff.1 look
  cases same
  by_cases zero : len = 0
  · subst zero
    rw [readSegment_null here] at read
    exact .inl ⟨here, (Option.some.inj read).symm⟩
  rw [if_neg zero] at read'
  by_cases large : 192 ≤ len.toNat
  · rw [if_pos large] at read'
    obtain ⟨high, b, first, read'⟩ := bind_eq_some read'
    obtain ⟨highAt, rfl⟩ := item_eq_some first
    obtain ⟨low, c, second, read'⟩ := bind_eq_some read'
    obtain ⟨lowAt, rfl⟩ := item_eq_some second
    obtain ⟨w, there, same⟩ := Option.map_eq_some_iff.1 read'
    have large : 192 ≤ high.toNat := Option.some.inj (here.symm.trans highAt) ▸ large
    exact .inr (.inl ⟨high, low, w, highAt, large, lowAt, there, same.symm⟩)
  · rw [if_neg large] at read'
    obtain ⟨_, _, step, read'⟩ := bind_eq_some read'
    cases step
    obtain ⟨label, b, taken, read'⟩ := bind_eq_some read'
    have place : b = a + 1 + len.toNat := sized_items.place_eq taken
    subst place
    obtain ⟨next, _, look, read'⟩ := bind_eq_some read'
    obtain ⟨_, behind, same⟩ := Option.map_eq_some_iff.1 look
    cases same
    obtain ⟨rest, e, there, done⟩ := bind_eq_some read'
    have same : v.2 = e := (congrArg Prod.snd (Option.some.inj done)).symm
    exact .inr (.inr ⟨len, next, _, here, zero, Nat.lt_of_not_le large, behind, there, same⟩)

/-! ## Names -/

theorem inside_of_read (read : readDNSString fuel buffer a = some v) : Inside buffer a := by
  cases fuel with
  | zero => cases read
  | succ fuel =>
      obtain ⟨here, -⟩ | ⟨high, low, w, here, large, behind, -⟩ | ⟨len, next, w, here, -, small, -⟩ := readSegment_cases read
      · exact ⟨0, here, fun large => absurd large (by decide)⟩
      · exact ⟨high, here, fun _ => (List.getElem?_eq_some_iff.1 behind).1⟩
      · exact ⟨len, here, fun large => absurd small (Nat.not_lt_of_le large)⟩

theorem read_of_follows (follows : Follows buffer a b) (read : ∃ v, readDNSString fuel buffer a = some v) :
    ∃ less < fuel, ∃ v, readDNSString less buffer b = some v := by
  obtain ⟨v, read⟩ := read
  cases fuel with
  | zero => cases read
  | succ fuel =>
      cases follows with
      | label here nonzero small =>
          obtain ⟨zero, -⟩ | ⟨high, low, w, high', large, -⟩ | ⟨len, next, w, len', -, -, -, there, -⟩ := readSegment_cases read
          · exact absurd (Option.some.inj (here.symm.trans zero)) nonzero
          · obtain rfl := Option.some.inj (here.symm.trans high')
            exact absurd small (Nat.not_lt_of_le large)
          · obtain rfl := Option.some.inj (here.symm.trans len')
            exact ⟨fuel, Nat.lt_succ_self fuel, w, there⟩
      | pointer here large behind =>
          rw [readDNSString, readSegment_pointer here large behind, Option.map_eq_some_iff] at read
          obtain ⟨w, there, -⟩ := read
          exact ⟨fuel, Nat.lt_succ_self fuel, w, there⟩

theorem safe_of_read (read : readDNSString fuel buffer a = some v) : Safe buffer a := by
  have less (a b fuel : Nat) (follows : Follows buffer a b) (read : ∃ v, readDNSString fuel buffer a = some v) :
      ∃ less < fuel, ∃ v, readDNSString less buffer b = some v := read_of_follows follows read
  intro b path
  have reached : ∃ fuel v, readDNSString fuel buffer b = some v := by
    induction path with
    | refl => exact ⟨fuel, v, read⟩
    | tail _ last ih =>
        obtain ⟨fuel, read⟩ := ih
        obtain ⟨less, -, read⟩ := read_of_follows last read
        exact ⟨less, read⟩
  obtain ⟨fuel, v, there⟩ := reached
  exact ⟨inside_of_read there, not_transGen_self less ⟨v, there⟩⟩

theorem exists_read_of_safe (safe : Safe buffer a) : ∃ fuel v, readDNSString fuel buffer a = some v := by
  have below (b : Nat) (path : ReflTransGen (Follows buffer) a b) : b < buffer.length := by
    obtain ⟨len, here, -⟩ := (safe b path).1
    exact (List.getElem?_eq_some_iff.1 here).1
  apply induction_of_acyclic ((Set.finite_lt_nat buffer.length).subset below) fun b path => (safe b path).2
  intro b path ih
  obtain ⟨len, here, pair⟩ := (safe b path).1
  by_cases zero : len = 0
  · subst zero
    exact ⟨1, _, readSegment_null here⟩
  by_cases large : 192 ≤ len.toNat
  · have behind := List.getElem?_eq_getElem (pair large)
    obtain ⟨fuel, w, there⟩ := ih _ (.pointer here large behind)
    refine ⟨fuel + 1, (w.1, b + 2), ?_⟩
    rw [readDNSString, readSegment_pointer here large behind, there]
    rfl
  · have follows : Follows buffer b (b + 1 + len.toNat) := .label here zero (Nat.lt_of_not_le large)
    obtain ⟨fuel, w, there⟩ := ih _ follows
    have behind := List.getElem?_eq_getElem (below _ (path.tail follows))
    have read : readDNSString (fuel + 1) buffer b = _ := readSegment_label here zero (Nat.lt_of_not_le large) behind
    rw [there] at read
    exact ⟨fuel + 1, _, read⟩

theorem safe_iff : (∃ fuel, (readDNSString fuel buffer a).isSome) ↔ Safe buffer a := by
  simp only [Option.isSome_iff_exists]
  constructor
  · rintro ⟨fuel, v, read⟩
    exact safe_of_read read
  · exact exists_read_of_safe

theorem nameEnds_of_read (read : readDNSString fuel buffer a = some v) : NameEnds buffer a v.2 := by
  induction fuel generalizing a v with
  | zero => cases read
  | succ fuel ih =>
      obtain ⟨here, rfl⟩ | ⟨high, low, w, here, large, -, -, rfl⟩ | ⟨len, next, w, here, nonzero, small, -, there, same⟩ :=
        readSegment_cases read
      · exact .null here
      · exact .pointer here large
      · exact same ▸ .label here nonzero small (ih there)

theorem NameEnds.unique (ends : NameEnds buffer a e) (ends' : NameEnds buffer a e') : e = e' := by
  induction ends with
  | null here =>
      cases ends' with
      | null here' => rfl
      | pointer here' large => cases here.symm.trans here'; exact absurd large (by decide)
      | label here' nonzero => cases here.symm.trans here'; exact absurd rfl nonzero
  | pointer here large =>
      cases ends' with
      | null here' => cases here.symm.trans here'; exact absurd large (by decide)
      | pointer here' large' => rfl
      | label here' nonzero small => cases here.symm.trans here'; exact absurd small (Nat.not_lt_of_le large)
  | label here nonzero small rest ih =>
      cases ends' with
      | null here' => cases here.symm.trans here'; exact absurd rfl nonzero
      | pointer here' large => cases here.symm.trans here'; exact absurd small (Nat.not_lt_of_le large)
      | label here' nonzero' small' rest' =>
          cases here.symm.trans here'
          exact ih rest'

theorem spans_name_iff : Spans readDNSString buffer a e ↔ Safe buffer a ∧ NameEnds buffer a e := by
  constructor
  · rintro ⟨name, fuel, read⟩
    exact ⟨safe_of_read read, nameEnds_of_read read⟩
  · rintro ⟨safe, ends⟩
    obtain ⟨fuel, v, read⟩ := exists_read_of_safe safe
    obtain rfl := ends.unique (nameEnds_of_read read)
    exact ⟨v.1, fuel, read⟩

/-! ## Packets -/

/-- A question stands at `a`, its name is safe, and `b` is behind it. -/
def QuestionAt (buffer : List Byte) (a b : Nat) : Prop :=
  Safe buffer a ∧ ∃ e, NameEnds buffer a e ∧ b = e + 4 ∧ b ≤ buffer.length

def ResponseAt (buffer : List Byte) (a b : Nat) : Prop :=
  ∃ q, QuestionAt buffer a q ∧ ∃ dataLen, readUInt16 buffer (q + 4) = some (dataLen, q + 6) ∧
    b = q + 6 + dataLen.toNat ∧ b ≤ buffer.length

/-- There is a header, and behind it as many entries as its counts tell lie one behind another. -/
def Laid (buffer : List Byte) : Prop :=
  ∃ qCount aCount auCount adCount, readUInt16 buffer 4 = some (qCount, 6) ∧ readUInt16 buffer 6 = some (aCount, 8) ∧
    readUInt16 buffer 8 = some (auCount, 10) ∧ readUInt16 buffer 10 = some (adCount, 12) ∧
    ∃ a b c d, Row (QuestionAt buffer) qCount.toNat 12 a ∧ Row (ResponseAt buffer) aCount.toNat a b ∧
      Row (ResponseAt buffer) auCount.toNat b c ∧ Row (ResponseAt buffer) adCount.toNat c d

theorem grows_question : Grows DNSQuestionEntry.read := grows_readDNSString.bind fun _ => Grows.const _

theorem grows_response : Grows DNSResponseEntry.read := grows_question.bind fun _ => Grows.const _

theorem spans_question_iff : Spans DNSQuestionEntry.read buffer a b ↔ QuestionAt buffer a b := by
  have sized (name : List Byte) : Sized (readUInt16 >>= fun entryType => readUInt16 >>= fun entryClass =>
      pure (⟨name, entryType, entryClass⟩ : DNSQuestionEntry)) 4 := sized_readUInt16.bind fun _ => sized_readUInt16.map
  refine (spans_then grows_readDNSString fun name e => spans_sized (sized name)).trans ?_
  simp only [spans_name_iff, and_assoc, exists_and_left, QuestionAt]

theorem spans_response_iff : Spans DNSResponseEntry.read buffer a b ↔ ResponseAt buffer a b := by
  have data (question : DNSQuestionEntry) (timeToLive : BitVec 32) (dataLen : BitVec 16) :
      Sized (readByteArray dataLen.toNat >>= fun data => pure (⟨question, timeToLive, data⟩ : DNSResponseEntry)) dataLen.toNat :=
    sized_items.map
  refine (spans_then grows_question fun question q => ?_).trans (exists_congr fun q => and_congr_left fun _ => spans_question_iff)
  refine (spans_then_sized sized_readUInt32).trans ?_
  constructor
  · rintro ⟨timeToLive, -, rest⟩
    obtain ⟨dataLen, read, rest⟩ := (spans_then_sized sized_readUInt16).1 rest
    exact ⟨dataLen, read, (spans_sized (data question timeToLive dataLen)).1 rest⟩
  · rintro ⟨dataLen, read, rest⟩
    have inside : q + 4 + 2 ≤ buffer.length := sized_readUInt16.isSome_iff.1 (by rw [read]; rfl)
    obtain ⟨timeToLive, first⟩ := (sized_readUInt32 buffer q).1 (by omega)
    exact ⟨timeToLive, first, (spans_then_sized sized_readUInt16).2
      ⟨dataLen, read, (spans_sized (data question timeToLive dataLen)).2 rest⟩⟩

def DNSPacket.readEntries (make : List DNSQuestionEntry → List DNSResponseEntry → List DNSResponseEntry →
    List DNSResponseEntry → DNSPacket) (qCount aCount auCount adCount : BitVec 16) (fuel : Nat) : Reader Byte DNSPacket := do
  let questions ← many qCount.toNat (DNSQuestionEntry.read fuel)
  let answers ← many aCount.toNat (DNSResponseEntry.read fuel)
  let authorities ← many auCount.toNat (DNSResponseEntry.read fuel)
  let additional ← many adCount.toNat (DNSResponseEntry.read fuel)
  pure (make questions answers authorities additional)

variable {make : List DNSQuestionEntry → List DNSResponseEntry → List DNSResponseEntry → List DNSResponseEntry → DNSPacket}
  {qCount aCount auCount adCount : BitVec 16} {k place : Nat}

theorem grows_readEntries : Grows (DNSPacket.readEntries make qCount aCount auCount adCount) :=
  grows_question.many.bind fun _ => grows_response.many.bind fun _ => grows_response.many.bind fun _ =>
    grows_response.many.bind fun _ => Grows.const _

theorem row_responses_iff : Spans (fun n => many k (DNSResponseEntry.read n)) buffer a b ↔ Row (ResponseAt buffer) k a b :=
  (spans_many grows_response).trans (Row.congr fun _ _ => spans_response_iff)

theorem spans_entries_iff : (∃ d, Spans (DNSPacket.readEntries make qCount aCount auCount adCount) buffer place d) ↔
    ∃ a b c d, Row (QuestionAt buffer) qCount.toNat place a ∧ Row (ResponseAt buffer) aCount.toNat a b ∧
      Row (ResponseAt buffer) auCount.toNat b c ∧ Row (ResponseAt buffer) adCount.toNat c d := by
  have entries (d : Nat) : Spans (DNSPacket.readEntries make qCount aCount auCount adCount) buffer place d ↔
      ∃ a, Row (QuestionAt buffer) qCount.toNat place a ∧ ∃ b, Row (ResponseAt buffer) aCount.toNat a b ∧
        ∃ c, Row (ResponseAt buffer) auCount.toNat b c ∧ Row (ResponseAt buffer) adCount.toNat c d := by
    refine (spans_bind_of_const grows_question.many (fun _ => ?_) fun questions a => ?_).trans
      (exists_congr fun a => and_congr_left fun _ => (spans_many grows_question).trans (Row.congr fun _ _ => spans_question_iff))
    · exact grows_response.many.bind fun _ => grows_response.many.bind fun _ => grows_response.many.bind fun _ => Grows.const _
    refine (spans_bind_of_const grows_response.many (fun _ => ?_) fun answers b => ?_).trans
      (exists_congr fun b => and_congr_left fun _ => row_responses_iff)
    · exact grows_response.many.bind fun _ => grows_response.many.bind fun _ => Grows.const _
    refine (spans_bind_of_const grows_response.many (fun _ => ?_) fun authorities c => ?_).trans
      (exists_congr fun c => and_congr_left fun _ => row_responses_iff)
    · exact grows_response.many.bind fun _ => Grows.const _
    exact (spans_map grows_response.many).trans row_responses_iff
  simp only [entries]
  constructor
  · rintro ⟨d, a, questions, b, answers, c, authorities, additional⟩
    exact ⟨a, b, c, d, questions, answers, authorities, additional⟩
  · rintro ⟨a, b, c, d, questions, answers, authorities, additional⟩
    exact ⟨d, a, questions, b, answers, c, authorities, additional⟩

theorem spans_packet_iff : Spans DNSPacket.read buffer 0 b ↔ ∃ id, readUInt16 buffer 0 = some (id, 2) ∧
    ∃ flags1, readByte08 buffer 2 = some (flags1, 3) ∧ ∃ flags2, readByte08 buffer 3 = some (flags2, 4) ∧
    ∃ qCount, readUInt16 buffer 4 = some (qCount, 6) ∧ ∃ aCount, readUInt16 buffer 6 = some (aCount, 8) ∧
    ∃ auCount, readUInt16 buffer 8 = some (auCount, 10) ∧ ∃ adCount, readUInt16 buffer 10 = some (adCount, 12) ∧
      Spans (DNSPacket.readEntries (DNSPacket.mk id flags1 flags2) qCount aCount auCount adCount) buffer 12 b := by
  refine (spans_bind_sized sized_readUInt16 fun _ => ?_).trans (exists_congr fun id => and_congr_right fun _ => ?_)
  · exact (Grows.const _).bind fun _ => (Grows.const _).bind fun _ => (Grows.const _).bind fun _ => (Grows.const _).bind fun _ =>
      (Grows.const _).bind fun _ => (Grows.const _).bind fun _ => grows_readEntries
  refine (spans_bind_sized sized_readByte08 fun _ => ?_).trans (exists_congr fun flags1 => and_congr_right fun _ => ?_)
  · exact (Grows.const _).bind fun _ => (Grows.const _).bind fun _ => (Grows.const _).bind fun _ => (Grows.const _).bind fun _ =>
      (Grows.const _).bind fun _ => grows_readEntries
  refine (spans_bind_sized sized_readByte08 fun _ => ?_).trans (exists_congr fun flags2 => and_congr_right fun _ => ?_)
  · exact (Grows.const _).bind fun _ => (Grows.const _).bind fun _ => (Grows.const _).bind fun _ => (Grows.const _).bind fun _ =>
      grows_readEntries
  refine (spans_bind_sized sized_readUInt16 fun _ => ?_).trans (exists_congr fun qCount => and_congr_right fun _ => ?_)
  · exact (Grows.const _).bind fun _ => (Grows.const _).bind fun _ => (Grows.const _).bind fun _ => grows_readEntries
  refine (spans_bind_sized sized_readUInt16 fun _ => ?_).trans (exists_congr fun aCount => and_congr_right fun _ => ?_)
  · exact (Grows.const _).bind fun _ => (Grows.const _).bind fun _ => grows_readEntries
  refine (spans_bind_sized sized_readUInt16 fun _ => ?_).trans (exists_congr fun auCount => and_congr_right fun _ => ?_)
  · exact (Grows.const _).bind fun _ => grows_readEntries
  exact spans_bind_sized sized_readUInt16 fun _ => grows_readEntries

theorem laid_iff : (∃ fuel, (DNSPacket.parse fuel buffer).isSome) ↔ Laid buffer := by
  have spans : (∃ fuel, (DNSPacket.parse fuel buffer).isSome) ↔ ∃ d, Spans DNSPacket.read buffer 0 d := by
    simp only [Option.isSome_iff_exists, Prod.exists, DNSPacket.parse, Spans, Gives]
    constructor
    · rintro ⟨fuel, p, d, read⟩
      exact ⟨d, p, fuel, read⟩
    · rintro ⟨d, p, fuel, read⟩
      exact ⟨fuel, p, d, read⟩
  rw [spans]
  constructor
  · rintro ⟨d, packet⟩
    obtain ⟨id, -, flags1, -, flags2, -, qCount, q, aCount, a, auCount, au, adCount, ad, entries⟩ := spans_packet_iff.1 packet
    exact ⟨qCount, aCount, auCount, adCount, q, a, au, ad, spans_entries_iff.1 ⟨d, entries⟩⟩
  · rintro ⟨qCount, aCount, auCount, adCount, q, a, au, ad, entries⟩
    have inside : 4 + 2 ≤ buffer.length := sized_readUInt16.isSome_iff.1 (by rw [q]; rfl)
    obtain ⟨id, first⟩ := (sized_readUInt16 buffer 0).1 (by omega)
    obtain ⟨flags1, second⟩ := (sized_readByte08 buffer 2).1 (by omega)
    obtain ⟨flags2, third⟩ := (sized_readByte08 buffer 3).1 (by omega)
    obtain ⟨d, entries⟩ := spans_entries_iff.2 entries
    exact ⟨d, spans_packet_iff.2 ⟨id, first, flags1, second, flags2, third, qCount, q, aCount, a, auCount, au, adCount, ad, entries⟩⟩

/-- Reading comes to an end and stays inside exactly where the names are safe and the entries are all there. -/
theorem dns_inside_iff (buffer : List Byte) :
    (∀ offset, (∃ fuel, (readDNSString fuel buffer offset).isSome) ↔ Safe buffer offset) ∧
      ((∃ fuel, (DNSPacket.parse fuel buffer).isSome) ↔ Laid buffer) :=
  ⟨fun _ => safe_iff, laid_iff⟩

def selfPointer : List Byte := [0, 1, 0, 0, 0, 1, 0, 0, 0, 0, 0, 0, 0xC0, 12, 0, 1, 0, 1]

theorem selfPointer_not_inside : 12 < selfPointer.length ∧ (¬∃ fuel, (readDNSString fuel selfPointer 12).isSome) ∧
    ¬∃ fuel, (DNSPacket.parse fuel selfPointer).isSome := by
  have round : Follows selfPointer 12 12 := @Follows.pointer selfPointer 12 0xC0 12 rfl (by decide) rfl
  have endless : ¬Safe selfPointer 12 := fun safe => (safe 12 .refl).2 (.single round)
  refine ⟨by decide, fun read => endless (safe_iff.1 read), fun read => ?_⟩
  obtain ⟨qCount, _, _, _, q, _, _, _, _, _, _, _, questions, _⟩ := laid_iff.1 read
  have one : qCount = 1 := by
    have same : readUInt16 selfPointer 4 = some (1, 6) := by decide
    rw [same] at q
    cases q
    rfl
  subst one
  obtain ⟨_, ⟨safe, _⟩, _⟩ := questions
  exact endless safe

end Pcsx2.PacketReader
