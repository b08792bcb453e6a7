import Mathlib.Order.WellFounded
import Pcsx2.Foundation.Loop
import Pcsx2.PacketReader.NetLib

/-!
# Options of a header

The constructors of IP and TCP packets read the options behind a header with the same loop. They
differ in the kinds they know.
-/

namespace Pcsx2.PacketReader

open Foundation Foundation.Reader

def Takes {α : Type} (r : Reader Byte α) (buffer : List Byte) (offset : Nat) : Option Nat → Prop
  | some n => (offset + n ≤ buffer.length → ∃ a, r buffer offset = some (a, offset + n)) ∧
      (buffer.length < offset + n → r buffer offset = none)
  | none => r buffer offset = none

theorem Takes.map {α β : Type} {r : Reader Byte α} {g : α → β} {buffer : List Byte} {offset : Nat} {size : Option Nat}
    (takes : Takes r buffer offset size) : Takes (r >>= fun a => pure (g a)) buffer offset size := by
  cases size with
  | none => exact bind_none takes
  | some n =>
      constructor
      · intro enough
        obtain ⟨a, read⟩ := takes.1 enough
        exact ⟨g a, bind_some read⟩
      · exact fun short => bind_none (takes.2 short)

/-- Options of a protocol. `size` is how many bytes are read for an option of some kind and length
byte, `none` where it cannot be built. -/
structure OptionFormat (α : Type) where
  nop : α
  read : Byte → Reader Byte α
  size : Byte → Byte → Option Nat
  size_pos : ∀ kind opLen n, size kind opLen = some n → 0 < n
  sized : ∀ buffer offset kind opLen, buffer[offset]? = some kind → buffer[offset + 1]? = some opLen →
    Takes (read kind) buffer offset (size kind opLen)

/-! ## Unknown options -/

structure IPopUnk (known : List Byte) where
  code : Byte
  length : Byte
  value : List Byte
  unknown : code ∉ known
  long : 2 ≤ length.toNat
  size : value.length = length.toNat - 2
  deriving DecidableEq

namespace IPopUnk

variable {known : List Byte}

/-- `resize` throws for a length below 2. -/
def make (known : List Byte) (code length : Byte) (value : List Byte) : Option (IPopUnk known) :=
  if fits : code ∉ known ∧ 2 ≤ length.toNat ∧ value.length = length.toNat - 2
  then some ⟨code, length, value, fits.1, fits.2.1, fits.2.2⟩ else none

def read (known : List Byte) : Reader Byte (IPopUnk known) := do
  let code ← readByte08
  let length ← readByte08
  let value ← readByteArray (length.toNat - 2)
  lift (make known code length value)

def write (o : IPopUnk known) : List Byte := o.code :: o.length :: o.value

theorem length_write (o : IPopUnk known) : o.write.length = o.length.toNat := by
  have long := o.long
  simp only [write, List.length_cons, o.size]
  omega

theorem reads_read (o : IPopUnk known) : Reads (read known) o.write o := by
  have made : make known o.code o.length o.value = some o := dif_pos ⟨o.unknown, o.long, o.size⟩
  exact (reads_readByte08 o.code).bind ((reads_readByte08 o.length).bind ((reads_items o.value o.size).lift made))

def sizeOf (known : List Byte) (opKind opLen : Byte) : Option Nat :=
  if opKind ∉ known ∧ 2 ≤ opLen.toNat then some opLen.toNat else none

theorem sized_read {buffer : List Byte} {offset : Nat} {opKind opLen : Byte} (kind : buffer[offset]? = some opKind)
    (len : buffer[offset + 1]? = some opLen) : Takes (read known) buffer offset (sizeOf known opKind opLen) := by
  have first : readByte08 buffer offset = some (opKind, offset + 1) := by rw [readByte08, item, kind]; rfl
  have second : readByte08 buffer (offset + 1) = some (opLen, offset + 2) := by rw [readByte08, item, len]; rfl
  have head : read known buffer offset =
      (readByteArray (opLen.toNat - 2) >>= fun value => lift (make known opKind opLen value)) buffer (offset + 2) := by
    rw [read, bind_some first, bind_some second]
  by_cases fits : opKind ∉ known ∧ 2 ≤ opLen.toNat
  · have behind : offset + 2 + (opLen.toNat - 2) = offset + opLen.toNat := by omega
    rw [sizeOf, if_pos fits, Takes, head]
    constructor
    · intro enough
      have value : ((buffer.drop (offset + 2)).take (opLen.toNat - 2)).length = opLen.toNat - 2 := by
        rw [List.length_take, List.length_drop]
        omega
      have third : readByteArray (opLen.toNat - 2) buffer (offset + 2) = some ((buffer.drop (offset + 2)).take (opLen.toNat - 2),
          offset + opLen.toNat) := by
        rw [readByteArray, items, behind, if_pos enough]
      rw [bind_some third, Reader.lift, make, dif_pos ⟨fits.1, fits.2, value⟩]
      exact ⟨_, rfl⟩
    · intro short
      exact bind_none (if_neg (by omega))
  · have unmade (value : List Byte) : make known opKind opLen value = none := dif_neg fun all => fits ⟨all.1, all.2.1⟩
    rw [sizeOf, if_neg fits, Takes, head]
    cases third : readByteArray (opLen.toNat - 2) buffer (offset + 2) with
    | none => exact bind_none third
    | some pair =>
        rw [bind_some third, Reader.lift, unmade]
        rfl

theorem sizeOf_pos {opKind opLen : Byte} {n : Nat} (size : sizeOf known opKind opLen = some n) : 0 < n := by
  rw [sizeOf] at size
  by_cases fits : opKind ∉ known ∧ 2 ≤ opLen.toNat
  · rw [if_pos fits, Option.some.injEq] at size
    omega
  · rw [if_neg fits] at size
    cases size

end IPopUnk

/-! ## The loop -/

variable {α : Type} (format : OptionFormat α) (buffer : List Byte) (headerLength : Nat)

/-- The variables of the loop. `used` is how far behind the last byte of an option it is. -/
structure OptionState (α : Type) where
  offset : Nat
  options : List α
  used : Nat

namespace OptionFormat

/-- `none` is read where the buffer ends, and an unknown option of a length below 2 throws. -/
def turn (s : OptionState α) : Turn (OptionState α) (List α × Nat) :=
  match buffer[s.offset]?, buffer[s.offset + 1]? with
  | some opKind, some opLen =>
    if opKind = 0 then .done (s.options, max s.used (s.offset + 1))
    else if opKind = 1 then .again ⟨s.offset + 1, s.options ++ [format.nop], max s.used (s.offset + 1)⟩
    else match format.read opKind buffer s.offset with
      | some (o, behind) =>
        let offset := s.offset + opLen.toNat
        let used := max s.used (max behind offset)
        if offset = headerLength then .done (s.options ++ [o], used)
        else .again ⟨offset, s.options ++ [o], used⟩
      | none => .fault
  | _, _ => .fault

def initial : OptionState α := ⟨20, [], 0⟩

/-! ## The options that the loop comes to -/

/-- The places where an option begins. -/
inductive Reached : Nat → Prop
  | first : Reached 20
  | nop {offset : Nat} (reached : Reached offset) (kind : buffer[offset]? = some 1) : Reached (offset + 1)
  | option {offset : Nat} {opKind opLen : Byte} (reached : Reached offset) (kind : buffer[offset]? = some opKind)
      (option : opKind ≠ 0 ∧ opKind ≠ 1) (len : buffer[offset + 1]? = some opLen)
      (last : offset + opLen.toNat ≠ headerLength) : Reached (offset + opLen.toNat)

/-- The option begins in the header, has a next byte, and, if it is more than a kind, has a length
with which it can be built and ends in the header. -/
def Good (offset : Nat) : Prop := offset < headerLength ∧ ∃ opKind opLen,
  buffer[offset]? = some opKind ∧ buffer[offset + 1]? = some opLen ∧
    (opKind ≠ 0 ∧ opKind ≠ 1 → 0 < opLen.toNat ∧ offset + opLen.toNat ≤ headerLength ∧
      ∃ n, format.size opKind opLen = some n ∧ offset + n ≤ headerLength)

def Contained : Prop := ∃ options used, Loop.Ends (format.turn buffer headerLength) initial (options, used) ∧ used ≤ headerLength

variable {format buffer headerLength} {s : OptionState α} {opKind opLen : Byte} {result : List α × Nat} {o : α} {behind n : Nat}

/-! ## One turn -/

theorem turn_end (kind : buffer[s.offset]? = some 0) (len : buffer[s.offset + 1]? = some opLen) :
    format.turn buffer headerLength s = .done (s.options, max s.used (s.offset + 1)) := by
  simp only [turn, kind, len, if_true]

theorem turn_nop (kind : buffer[s.offset]? = some 1) (len : buffer[s.offset + 1]? = some opLen) :
    format.turn buffer headerLength s = .again ⟨s.offset + 1, s.options ++ [format.nop], max s.used (s.offset + 1)⟩ := by
  have other : (1 : Byte) ≠ 0 := by decide
  simp only [turn, kind, len, if_neg other, if_true]

theorem turn_option (kind : buffer[s.offset]? = some opKind) (option : opKind ≠ 0 ∧ opKind ≠ 1)
    (len : buffer[s.offset + 1]? = some opLen) (read : format.read opKind buffer s.offset = some (o, behind)) :
    format.turn buffer headerLength s = if s.offset + opLen.toNat = headerLength
      then .done (s.options ++ [o], max s.used (max behind (s.offset + opLen.toNat)))
      else .again ⟨s.offset + opLen.toNat, s.options ++ [o], max s.used (max behind (s.offset + opLen.toNat))⟩ := by
  simp only [turn, kind, len, if_neg option.1, if_neg option.2, read]

theorem turn_fault (kind : buffer[s.offset]? = some opKind) (option : opKind ≠ 0 ∧ opKind ≠ 1)
    (len : buffer[s.offset + 1]? = some opLen) (read : format.read opKind buffer s.offset = none) :
    format.turn buffer headerLength s = .fault := by
  simp only [turn, kind, len, if_neg option.1, if_neg option.2, read]

inductive Finds (format : OptionFormat α) (buffer : List Byte) (headerLength : Nat) (s : OptionState α) : Prop
  | fault (turn : format.turn buffer headerLength s = .fault)
  | atEnd {opLen : Byte} (kind : buffer[s.offset]? = some 0) (len : buffer[s.offset + 1]? = some opLen)
  | nop {opLen : Byte} (kind : buffer[s.offset]? = some 1) (len : buffer[s.offset + 1]? = some opLen)
  | option {opKind opLen : Byte} {o : α} {n : Nat} (kind : buffer[s.offset]? = some opKind) (option : opKind ≠ 0 ∧ opKind ≠ 1)
      (len : buffer[s.offset + 1]? = some opLen) (size : format.size opKind opLen = some n)
      (read : format.read opKind buffer s.offset = some (o, s.offset + n))

theorem finds (format : OptionFormat α) (buffer : List Byte) (headerLength : Nat) (s : OptionState α) :
    Finds format buffer headerLength s := by
  cases kind : buffer[s.offset]? with
  | none => exact .fault (by simp only [turn, kind])
  | some opKind =>
      cases len : buffer[s.offset + 1]? with
      | none => exact .fault (by simp only [turn, kind, len])
      | some opLen =>
          by_cases zero : opKind = 0
          · exact .atEnd (zero ▸ kind) len
          by_cases one : opKind = 1
          · exact .nop (one ▸ kind) len
          have sized := format.sized buffer s.offset opKind opLen kind len
          cases size : format.size opKind opLen with
          | none =>
              rw [size] at sized
              exact .fault (turn_fault kind ⟨zero, one⟩ len sized)
          | some n =>
              rw [size] at sized
              rcases Nat.lt_or_ge buffer.length (s.offset + n) with short | enough
              · exact .fault (turn_fault kind ⟨zero, one⟩ len (sized.2 short))
              · obtain ⟨o, read⟩ := sized.1 enough
                exact .option kind ⟨zero, one⟩ len size read

theorem turn_grows (format : OptionFormat α) (buffer : List Byte) (headerLength : Nat) (s : OptionState α) :
    match format.turn buffer headerLength s with
    | .again t => s.used ≤ t.used ∧ s.options.length < t.options.length
    | .done a => s.used ≤ a.2 ∧ s.options.length ≤ a.1.length ∧ (buffer[s.offset]? ≠ some 0 → s.options.length < a.1.length)
    | .fault => True := by
  have longer (o : α) : s.options.length < (s.options ++ [o]).length := List.length_append ▸ Nat.lt_succ_self _
  cases finds format buffer headerLength s with
  | fault turn => simp only [turn]
  | atEnd kind len =>
      rw [turn_end kind len]
      exact ⟨Nat.le_max_left _ _, Nat.le_refl _, absurd kind⟩
  | nop kind len =>
      rw [turn_nop kind len]
      exact ⟨Nat.le_max_left _ _, longer _⟩
  | @option _ opLen _ _ kind option len _ read =>
      rw [turn_option kind option len read]
      by_cases last : s.offset + opLen.toNat = headerLength
      · rw [if_pos last]
        exact ⟨Nat.le_max_left _ _, (longer _).le, fun _ => longer _⟩
      · rw [if_neg last]
        exact ⟨Nat.le_max_left _ _, longer _⟩

theorem grows_of_ends (ends : Loop.Ends (format.turn buffer headerLength) s result) :
    s.used ≤ result.2 ∧ s.options.length ≤ result.1.length := by
  induction ends with
  | @done s a now =>
      have grows := turn_grows format buffer headerLength s
      rw [now] at grows
      exact ⟨grows.1, grows.2.1⟩
  | @again s t a next _ ih =>
      have grows := turn_grows format buffer headerLength s
      rw [next] at grows
      exact ⟨grows.1.trans ih.1, grows.2.le.trans ih.2⟩

/-! ## The whole loop -/

theorem not_ends_of_empty (kind : buffer[s.offset]? = some opKind) (option : opKind ≠ 0 ∧ opKind ≠ 1)
    (len : buffer[s.offset + 1]? = some 0) (other : s.offset ≠ headerLength) :
    ¬Loop.Ends (format.turn buffer headerLength) s result := by
  intro ends
  induction ends with
  | @done s a now =>
      cases read : format.read opKind buffer s.offset with
      | none =>
          rw [turn_fault kind option len read] at now
          cases now
      | some pair =>
          rw [turn_option kind option len read, if_neg (by simpa using other)] at now
          cases now
  | @again s t a next _ ih =>
      cases read : format.read opKind buffer s.offset with
      | none =>
          rw [turn_fault kind option len read] at next
          cases next
      | some pair =>
          rw [turn_option kind option len read, if_neg (by simpa using other)] at next
          cases next
          exact ih (by simpa using kind) (by simpa using len) (by simpa using other)

theorem good_of_ends (ends : Loop.Ends (format.turn buffer headerLength) s result) (used : result.2 ≤ headerLength) :
    format.Good buffer headerLength s.offset := by
  cases finds format buffer headerLength s with
  | fault turn => exact absurd ends (Loop.not_ends_fault turn)
  | atEnd kind len =>
      have last := (Loop.ends_done (turn_end kind len)).1 ends
      subst last
      have := Nat.le_max_right s.used (s.offset + 1)
      exact ⟨by omega, _, _, kind, len, fun option => absurd rfl option.1⟩
  | nop kind len =>
      have rest : max s.used (s.offset + 1) ≤ result.2 := (grows_of_ends ((Loop.ends_again (turn_nop kind len)).1 ends)).1
      have := Nat.le_max_right s.used (s.offset + 1)
      exact ⟨by omega, _, _, kind, len, fun option => absurd rfl option.2⟩
  | @option opKind opLen o n kind option len size read =>
      have positive := format.size_pos opKind opLen n size
      have turn := @turn_option _ _ _ headerLength _ _ _ _ _ kind option len read
      have bound : max s.used (max (s.offset + n) (s.offset + opLen.toNat)) ≤ headerLength := by
        by_cases last : s.offset + opLen.toNat = headerLength
        · rw [if_pos last] at turn
          have eq := (Loop.ends_done turn).1 ends
          subst eq
          exact used
        · rw [if_neg last] at turn
          exact (grows_of_ends ((Loop.ends_again turn).1 ends)).1.trans used
      refine ⟨by omega, opKind, opLen, kind, len, fun _ => ⟨?_, by omega, n, size, by omega⟩⟩
      apply Nat.pos_of_ne_zero
      intro zero
      have empty : opLen = 0 := BitVec.eq_of_toNat_eq zero
      subst empty
      exact not_ends_of_empty kind option len (by omega) ends

theorem turn_good (inside : headerLength ≤ buffer.length) (reached : Reached buffer headerLength s.offset)
    (used : s.used ≤ headerLength) (good : format.Good buffer headerLength s.offset) :
    match format.turn buffer headerLength s with
    | .again t => (Reached buffer headerLength t.offset ∧ t.used ≤ headerLength) ∧ s.offset < t.offset
    | .done a => a.2 ≤ headerLength
    | .fault => False := by
  obtain ⟨before, opKind, opLen, kind, len, body⟩ := good
  by_cases zero : opKind = 0
  · subst zero
    rw [turn_end kind len]
    exact Nat.max_le.2 ⟨used, before⟩
  by_cases one : opKind = 1
  · subst one
    rw [turn_nop kind len]
    exact ⟨⟨.nop reached kind, Nat.max_le.2 ⟨used, before⟩⟩, Nat.lt_succ_self _⟩
  obtain ⟨positive, ends, n, size, short⟩ := body ⟨zero, one⟩
  have sized := format.sized buffer s.offset opKind opLen kind len
  rw [size] at sized
  obtain ⟨o, read⟩ := sized.1 (short.trans inside)
  have bound := Nat.max_le.2 ⟨used, Nat.max_le.2 ⟨short, ends⟩⟩
  rw [turn_option kind ⟨zero, one⟩ len read]
  by_cases last : s.offset + opLen.toNat = headerLength
  · rw [if_pos last]
    exact bound
  · rw [if_neg last]
    exact ⟨⟨.option reached kind ⟨zero, one⟩ len last, bound⟩, Nat.lt_add_of_pos_right positive⟩

theorem ends_of_reached (inside : headerLength ≤ buffer.length)
    (ends : Loop.Ends (format.turn buffer headerLength) initial result) (used : result.2 ≤ headerLength) {offset : Nat}
    (reached : Reached buffer headerLength offset) :
    ∃ s : OptionState α, s.offset = offset ∧ Loop.Ends (format.turn buffer headerLength) s result := by
  induction reached with
  | first => exact ⟨initial, rfl, ends⟩
  | nop _ kind ih =>
      obtain ⟨s, rfl, ends⟩ := ih
      obtain ⟨-, _, opLen, -, len, -⟩ := good_of_ends ends used
      exact ⟨_, rfl, (Loop.ends_again (turn_nop kind len)).1 ends⟩
  | option _ kind option len last ih =>
      obtain ⟨s, rfl, ends⟩ := ih
      obtain ⟨-, _, _, kind', len', body⟩ := good_of_ends ends used
      obtain rfl := Option.some.inj (kind.symm.trans kind')
      obtain rfl := Option.some.inj (len.symm.trans len')
      obtain ⟨-, -, n, size, short⟩ := body option
      have sized := format.sized buffer s.offset _ _ kind len
      rw [size] at sized
      obtain ⟨o, read⟩ := sized.1 (short.trans inside)
      have turn := @turn_option _ _ _ headerLength _ _ _ _ _ kind option len read
      rw [if_neg last] at turn
      exact ⟨_, rfl, (Loop.ends_again turn).1 ends⟩

theorem contained_iff (inside : headerLength ≤ buffer.length) :
    format.Contained buffer headerLength ↔ ∀ offset, Reached buffer headerLength offset → format.Good buffer headerLength offset := by
  constructor
  · rintro ⟨options, used, ends, short⟩ offset reached
    obtain ⟨s, rfl, ends⟩ := ends_of_reached inside ends short reached
    exact good_of_ends ends short
  · intro good
    let I (s : OptionState α) : Prop := Reached buffer headerLength s.offset ∧ s.used ≤ headerLength
    have spec (s : OptionState α) (holds : I s) := turn_good inside holds.1 holds.2 (good s.offset holds.1)
    have first : I initial := ⟨.first, Nat.zero_le _⟩
    have total : ∃ a, Loop.Ends (format.turn buffer headerLength) initial a := by
      refine Loop.exists_ends (fun s => headerLength - s.offset) (I := I) ?_ ?_ first
      · intro s holds wrong
        have after := spec s holds
        rw [wrong] at after
        exact after
      · intro s t holds next
        have after := spec s holds
        rw [next] at after
        exact ⟨after.1, Nat.sub_lt_sub_left (good s.offset holds.1).1 after.2⟩
    obtain ⟨⟨options, used⟩, ends⟩ := total
    refine ⟨options, used, ends, ?_⟩
    refine ends.invariant (I := I) (Q := fun a => a.2 ≤ headerLength) ?_ ?_ first
    · intro s t holds next
      have after := spec s holds
      rw [next] at after
      exact after.1
    · intro s a holds now
      have after := spec s holds
      rw [now] at after
      exact after

/-! ## Headers with options -/

def readOptions (format : OptionFormat α) (fuel : Nat) (buffer : List Byte) (headerLength : Nat) : Option (List α × Nat) :=
  if 20 < headerLength then Loop.run (format.turn buffer headerLength) fuel initial else some ([], 0)

theorem readOptions_inside_iff (inside : headerLength ≤ buffer.length) :
    (∃ fuel options used, format.readOptions fuel buffer headerLength = some (options, used) ∧ used ≤ headerLength) ↔
      (20 < headerLength → ∀ offset, Reached buffer headerLength offset → format.Good buffer headerLength offset) := by
  by_cases long : 20 < headerLength
  · simp only [readOptions, long, if_true, true_imp_iff]
    rw [← contained_iff inside, Contained]
    simp only [Loop.ends_iff]
    exact ⟨fun ⟨fuel, options, used, run, short⟩ => ⟨options, used, ⟨fuel, run⟩, short⟩,
      fun ⟨options, used, ⟨fuel, run⟩, short⟩ => ⟨fuel, options, used, run, short⟩⟩
  · exact iff_of_true ⟨0, [], 0, if_neg long, Nat.zero_le _⟩ (absurd · long)

end OptionFormat

end Pcsx2.PacketReader
