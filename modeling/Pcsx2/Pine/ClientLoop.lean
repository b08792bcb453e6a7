import Mathlib.Data.List.Basic
import Mathlib.Algebra.Order.Ring.Int

/-!
# Messages of a client

A message begins with its length. What the socket has is read until the length is reached, and the commands behind the
length are then parsed.
-/

namespace Pcsx2.Pine

def MAX_IPC_SIZE : Nat := 650000

/-- What one `read_portable` gives, and whether the answer to a message that it ends can be sent. -/
structure Read where
  bytes : List UInt8
  answers : Bool

/-- `calls` remembers the commands that `ParseCommand` was given. -/
structure ClientLoop where
  s_ipc_buffer : Nat → UInt8
  receive_length : Nat
  end_length : Int
  returned : Bool
  calls : List (List UInt8)

/-- A client connects, and the buffer still has what the one before it sent. -/
def start (s_ipc_buffer : Nat → UInt8) : ClientLoop where
  s_ipc_buffer
  receive_length := 0
  end_length := 4
  returned := false
  calls := []

def store (buffer : Nat → UInt8) (offset : Nat) (bytes : List UInt8) (i : Nat) : UInt8 :=
  if offset ≤ i then bytes.getD (i - offset) (buffer i) else buffer i

/-- A `u32` as the `int` it is assigned to. -/
def toInt (value : Nat) : Int := if value < 2 ^ 31 then value else value - 2 ^ 32

def FromSpan (buffer : Nat → UInt8) : Nat :=
  (buffer 0).toNat + (buffer 1).toNat * 2 ^ 8 + (buffer 2).toNat * 2 ^ 16 + (buffer 3).toNat * 2 ^ 24

namespace ClientLoop

def restart (loop : ClientLoop) : ClientLoop := { loop with receive_length := 0, end_length := 4 }

/-- The commands behind the length are parsed. -/
def parse (loop : ClientLoop) (answers : Bool) : ClientLoop :=
  let commands := (List.range (loop.end_length - 4).toNat).map fun i => loop.s_ipc_buffer (4 + i)
  { loop with calls := loop.calls ++ [commands], returned := !answers }.restart

def proceed (loop : ClientLoop) (answers : Bool) : ClientLoop :=
  if loop.receive_length < loop.end_length then loop else loop.parse answers

def step (loop : ClientLoop) (read : Read) : ClientLoop :=
  if loop.returned then loop
  else if read.bytes.length = 0 then { loop with returned := true }
  else
    let loop := { loop with
      s_ipc_buffer := store loop.s_ipc_buffer loop.receive_length read.bytes
      receive_length := loop.receive_length + read.bytes.length }
    if loop.end_length = 4 ∧ 4 ≤ loop.receive_length then
      let end_length := toInt (FromSpan loop.s_ipc_buffer)
      if MAX_IPC_SIZE < end_length ∨ end_length < 4 then loop.restart
      else { loop with end_length }.proceed read.answers
    else loop.proceed read.answers

def run (loop : ClientLoop) (reads : List Read) : ClientLoop := reads.foldl step loop

end ClientLoop

/-! ## Messages -/

def lengthField (length : Nat) : List UInt8 :=
  [UInt8.ofNat length, UInt8.ofNat (length / 2 ^ 8), UInt8.ofNat (length / 2 ^ 16), UInt8.ofNat (length / 2 ^ 24)]

/-- The message with the given commands. -/
def message (commands : List UInt8) : List UInt8 := lengthField (4 + commands.length) ++ commands

abbrev received (reads : List Read) : List UInt8 := reads.flatMap Read.bytes

/-- A read of a client that stays, whose answers can be sent. -/
structure Read.Good (read : Read) : Prop where
  some : read.bytes ≠ []
  answers : read.answers = true

/-- No read has bytes beyond the end of a message it has the end of. -/
def EndsAtReads (messages : List (List UInt8)) (reads : List Read) : Prop :=
  ∃ groups : List (List Read), reads = groups.flatten ∧ groups.map received = messages.map message

/-! ## The length of a message -/

variable {loop : ClientLoop} {bytes more commands : List UInt8} {read : Read} {reads : List Read}

def announced (bytes : List UInt8) : Int :=
  if bytes.length < 4 then 4 else toInt (FromSpan fun i => bytes.getD i 0)

theorem FromSpan_congr {buffer other : Nat → UInt8} (same : ∀ i < 4, buffer i = other i) :
    FromSpan buffer = FromSpan other := by
  unfold FromSpan
  rw [same 0 (by decide), same 1 (by decide), same 2 (by decide), same 3 (by decide)]

theorem announced_append (enough : 4 ≤ bytes.length) : announced (bytes ++ more) = announced bytes := by
  unfold announced
  rw [List.length_append, if_neg (by omega), if_neg (by omega)]
  congr 1
  apply FromSpan_congr
  intro i early
  rw [List.getD_eq_getElem?_getD, List.getElem?_append_left (by omega), ← List.getD_eq_getElem?_getD]

theorem announced_message (fits : commands.length + 4 ≤ MAX_IPC_SIZE) :
    announced (message commands) = commands.length + 4 := by
  unfold MAX_IPC_SIZE at fits
  have enough : ¬ (message commands).length < 4 := by
    simp [message, lengthField]
  have value : (FromSpan fun i => (message commands).getD i 0) = 4 + commands.length := by
    simp only [FromSpan, message, lengthField, List.cons_append, List.getD_cons_zero, List.getD_cons_succ,
      UInt8.toNat_ofNat']
    omega
  unfold announced toInt
  rw [if_neg enough, value, if_pos (by omega)]
  omega

theorem message_length (commands : List UInt8) : (message commands).length = commands.length + 4 := by
  rw [message, List.length_append, Nat.add_comm]
  rfl

theorem message_commands (commands : List UInt8) : (message commands).drop 4 = commands := rfl

/-! ## One read -/

structure Holds (loop : ClientLoop) (bytes : List UInt8) : Prop where
  buffer : ∀ i < bytes.length, loop.s_ipc_buffer i = bytes.getD i 0
  receive_length : loop.receive_length = bytes.length
  end_length : loop.end_length = announced bytes
  valid : 4 ≤ announced bytes
  stays : loop.returned = false

inductive Received (calls : List (List UInt8)) (bytes : List UInt8) (loop' : ClientLoop) : Prop
  | waits (short : bytes.length < announced bytes) (holds : Holds loop' bytes) (same : loop'.calls = calls)
  | parses (whole : announced bytes ≤ bytes.length) (enough : 4 ≤ announced bytes) (holds : Holds loop' [])
    (one : loop'.calls = calls ++ [(bytes.drop 4).take (announced bytes - 4).toNat])
  | refuses (some : 4 ≤ bytes.length) (wrong : MAX_IPC_SIZE < announced bytes ∨ announced bytes < 4)
    (holds : Holds loop' []) (same : loop'.calls = calls)

theorem holds_start (buffer : Nat → UInt8) : Holds (start buffer) [] := ⟨nofun, rfl, rfl, le_rfl, rfl⟩

theorem holds_restart (stays : loop.returned = false) : Holds loop.restart [] := ⟨nofun, rfl, rfl, le_rfl, stays⟩

theorem store_append {buffer : Nat → UInt8} (before : ∀ i < bytes.length, buffer i = bytes.getD i 0) :
    ∀ i < (bytes ++ more).length, store buffer bytes.length more i = (bytes ++ more).getD i 0 := by
  intro i inside
  rw [List.length_append] at inside
  unfold store
  split
  · rename_i behind
    rw [List.getD_eq_getElem?_getD, List.getD_eq_getElem?_getD, List.getElem?_append_right behind,
      List.getElem?_eq_getElem (by omega)]
    rfl
  · rename_i front
    rw [before i (by omega), List.getD_eq_getElem?_getD, List.getD_eq_getElem?_getD, List.getElem?_append_left (by omega)]

theorem proceed_received {calls : List (List UInt8)} (holds : Holds loop bytes) (same : loop.calls = calls) :
    Received calls bytes (loop.proceed true) := by
  unfold ClientLoop.proceed
  have length := holds.receive_length
  have ends := holds.end_length
  split
  · rename_i short
    exact .waits (by omega) holds same
  · rename_i whole
    have parsed : ((List.range (loop.end_length - 4).toNat).map fun i => loop.s_ipc_buffer (4 + i)) =
        (bytes.drop 4).take (announced bytes - 4).toNat := by
      rw [ends]
      have valid := holds.valid
      apply List.ext_getElem
      · rw [List.length_map, List.length_range, List.length_take, List.length_drop]
        omega
      · intro i early late
        rw [List.length_map, List.length_range] at early
        rw [List.getElem_map, List.getElem_range, List.getElem_take, List.getElem_drop, holds.buffer _ (by omega)]
        rw [List.getD_eq_getElem?_getD, List.getElem?_eq_getElem, Option.getD_some]
    refine .parses (by omega) holds.valid (holds_restart rfl) ?_
    show loop.calls ++ [_] = _
    rw [parsed, same]

theorem step_received (holds : Holds loop bytes) (good : read.Good) :
    Received loop.calls (bytes ++ read.bytes) (loop.step read) := by
  have some : read.bytes.length ≠ 0 := fun none => good.some (List.length_eq_zero_iff.mp none)
  have buffer : ∀ i < (bytes ++ read.bytes).length, _ := store_append holds.buffer
  have length : loop.receive_length + read.bytes.length = (bytes ++ read.bytes).length := by
    rw [holds.receive_length, List.length_append]
  unfold ClientLoop.step
  rw [if_neg (by rw [holds.stays]; exact Bool.false_ne_true), if_neg some, good.answers]
  dsimp only
  rw [holds.receive_length] at length ⊢
  split
  · rename_i reads
    have updated : toInt (FromSpan (store loop.s_ipc_buffer bytes.length read.bytes)) =
        announced (bytes ++ read.bytes) := by
      unfold announced
      rw [if_neg (by omega)]
      congr 1
      exact FromSpan_congr fun i early => buffer i (by omega)
    rw [updated]
    split
    · rename_i wrong
      exact .refuses (by omega) wrong (holds_restart holds.stays) rfl
    · rename_i right
      refine proceed_received ⟨buffer, length, rfl, ?_, holds.stays⟩ rfl
      omega
  · rename_i known
    have same : announced (bytes ++ read.bytes) = announced bytes := by
      by_cases enough : 4 ≤ bytes.length
      · exact announced_append enough
      · have initial : announced bytes = 4 := if_pos (by omega)
        have still : ¬ 4 ≤ (bytes ++ read.bytes).length := by
          rw [← length]
          exact fun late => known ⟨holds.end_length.trans initial, late⟩
        rw [initial]
        exact if_pos (by omega)
    exact proceed_received ⟨buffer, length, holds.end_length.trans same.symm, same ▸ holds.valid, holds.stays⟩ rfl

/-! ## Runs -/

theorem run_append (first second : List Read) : loop.run (first ++ second) = (loop.run first).run second :=
  List.foldl_append

theorem received_some (good : ∀ read ∈ reads, read.Good) (none : received reads = []) : reads = [] := by
  cases reads with
  | nil => rfl
  | cons read rest =>
    obtain ⟨empty, -⟩ := List.append_eq_nil_iff.mp none
    exact absurd empty (good read List.mem_cons_self).some

theorem run_message (fits : commands.length + 4 ≤ MAX_IPC_SIZE) (good : ∀ read ∈ reads, read.Good)
    (holds : Holds loop bytes) (whole : bytes ++ received reads = message commands)
    (part : bytes.length < (message commands).length) :
    Holds (loop.run reads) [] ∧ (loop.run reads).calls = loop.calls ++ [commands] := by
  induction reads generalizing loop bytes with
  | nil =>
    rw [received, List.flatMap_nil, List.append_nil] at whole
    exact absurd part (by rw [whole]; exact lt_irrefl _)
  | cons read rest ih =>
    have goodRest : ∀ other ∈ rest, other.Good := fun other member => good other (List.mem_cons_of_mem _ member)
    have size := message_length commands
    have full := announced_message fits
    have whole' : (bytes ++ read.bytes) ++ received rest = message commands := by
      rw [List.append_assoc]
      exact whole
    have known : 4 ≤ (bytes ++ read.bytes).length → announced (bytes ++ read.bytes) = commands.length + 4 := by
      intro enough
      rw [← full, ← whole', announced_append enough]
    have unknown : (bytes ++ read.bytes).length < 4 → announced (bytes ++ read.bytes) = 4 := fun short => if_pos short
    have lengths := congrArg List.length whole'
    rw [List.length_append, size] at lengths
    show Holds ((loop.step read).run rest) [] ∧ ((loop.step read).run rest).calls = _
    rcases step_received holds (good read List.mem_cons_self) with ⟨short, holds', same⟩ | ⟨ends, enough, holds', one⟩ |
      ⟨some, wrong, -, -⟩
    · rw [← same]
      refine ih goodRest holds' whole' ?_
      omega
    · have known := known (by omega)
      have done : rest = [] := by
        apply received_some goodRest
        apply List.eq_nil_of_length_eq_zero
        omega
      subst done
      rw [received, List.flatMap_nil, List.append_nil] at whole'
      refine ⟨holds', one.trans ?_⟩
      rw [known, whole', message_commands, List.take_of_length_le]
      omega
    · have known := known some
      unfold MAX_IPC_SIZE at wrong fits
      omega

theorem run_groups {groups : List (List Read)} {messages : List (List UInt8)}
    (fits : ∀ commands ∈ messages, commands.length + 4 ≤ MAX_IPC_SIZE) (good : ∀ read ∈ groups.flatten, read.Good)
    (holds : Holds loop []) (ends : groups.map received = messages.map message) :
    (loop.run groups.flatten).calls = loop.calls ++ messages := by
  induction groups generalizing loop messages with
  | nil =>
    obtain rfl := List.map_eq_nil_iff.mp ends.symm
    exact (List.append_nil _).symm
  | cons group rest ih =>
    obtain _ | ⟨commands, messages⟩ := messages
    · cases ends
    obtain ⟨whole, ends⟩ := List.cons.inj ends
    rw [List.flatten_cons] at good
    rw [List.flatten_cons, run_append]
    have some : (0 : Nat) < (message commands).length := by
      rw [message_length]
      omega
    obtain ⟨holds', one⟩ := run_message (fits commands List.mem_cons_self)
      (fun read member => good read (List.mem_append_left _ member)) holds whole some
    rw [ih (fun other member => fits other (List.mem_cons_of_mem _ member))
      (fun read member => good read (List.mem_append_right _ member)) holds' ends, one, List.append_assoc]
    rfl

def totalSize (messages : List (List UInt8)) : Nat := (messages.map fun commands => commands.length + 4).sum

theorem proceed_grows {calls : List (List UInt8)} (answers : Bool) (same : loop.calls = calls) :
    calls <+: (loop.proceed answers).calls := by
  subst same
  unfold ClientLoop.proceed
  split
  · exact List.prefix_rfl
  · exact List.prefix_append _ _

theorem step_grows (loop : ClientLoop) (read : Read) : loop.calls <+: (loop.step read).calls := by
  unfold ClientLoop.step
  dsimp only
  split
  · exact List.prefix_rfl
  split
  · exact List.prefix_rfl
  split
  · split
    · exact List.prefix_rfl
    · exact proceed_grows _ rfl
  · exact proceed_grows _ rfl

theorem run_grows (loop : ClientLoop) (reads : List Read) : loop.calls <+: (loop.run reads).calls := by
  induction reads generalizing loop with
  | nil => exact List.prefix_rfl
  | cons read rest ih => exact (step_grows loop read).trans (ih _)

variable {parsed : List (List UInt8)}

theorem parsed_first {loop' : ClientLoop} (one : loop'.calls = loop.calls ++ [commands])
    (calls : (loop'.run reads).calls = loop.calls ++ parsed) :
    ∃ rest, parsed = commands :: rest ∧ (loop'.run reads).calls = loop'.calls ++ rest := by
  obtain ⟨rest, grows⟩ := run_grows loop' reads
  refine ⟨rest, ?_, grows.symm⟩
  rw [← grows, one, List.append_assoc] at calls
  exact (List.append_cancel_left calls).symm

theorem totalSize_cons (commands : List UInt8) (messages : List (List UInt8)) :
    totalSize (commands :: messages) = commands.length + 4 + totalSize messages := rfl

theorem received_cons (read : Read) (rest : List Read) :
    (received (read :: rest)).length = read.bytes.length + (received rest).length := by
  rw [received, List.flatMap_cons, List.length_append]

theorem parsed_length (enough : 4 ≤ announced bytes) (whole : announced bytes ≤ bytes.length) :
    (((bytes.drop 4).take (announced bytes - 4).toNat).length : Int) + 4 = announced bytes := by
  rw [List.length_take, List.length_drop]
  omega

theorem received_flatten (groups : List (List Read)) : received groups.flatten = (groups.map received).flatten := by
  induction groups with
  | nil => rfl
  | cons group rest ih =>
    rw [List.flatten_cons, received, List.flatMap_append, List.map_cons, List.flatten_cons]
    exact congrArg (received group ++ ·) ih

theorem run_size (good : ∀ read ∈ reads, read.Good) (holds : Holds loop bytes)
    (calls : (loop.run reads).calls = loop.calls ++ parsed) :
    totalSize parsed ≤ bytes.length + (received reads).length := by
  induction reads generalizing loop bytes parsed with
  | nil =>
    obtain rfl : parsed = [] := List.append_cancel_left (calls.symm.trans (List.append_nil _).symm)
    exact Nat.zero_le _
  | cons read rest ih =>
    have goodRest : ∀ other ∈ rest, other.Good := fun other member => good other (List.mem_cons_of_mem _ member)
    have length : (bytes ++ read.bytes).length = bytes.length + read.bytes.length := List.length_append
    rw [received_cons]
    rcases step_received holds (good read List.mem_cons_self) with ⟨-, holds', same⟩ | ⟨whole, enough, holds', one⟩ |
      ⟨-, -, holds', same⟩
    · have bound := ih goodRest holds' (calls.trans (by rw [same]))
      omega
    · obtain ⟨others, rfl, calls'⟩ := parsed_first one calls
      have bound := ih goodRest holds' calls'
      have size := parsed_length enough whole
      rw [List.length_nil] at bound
      rw [totalSize_cons]
      omega
    · have bound := ih goodRest holds' (calls.trans (by rw [same]))
      rw [List.length_nil] at bound
      omega

theorem run_ends (good : ∀ read ∈ reads, read.Good) (holds : Holds loop bytes)
    (calls : (loop.run reads).calls = loop.calls ++ parsed) (some : parsed ≠ [])
    (size : totalSize parsed = bytes.length + (received reads).length) :
    ∃ (group : List Read) (groups : List (List Read)), reads = group ++ groups.flatten ∧
      (bytes.length + (received group).length) :: groups.map (fun group => (received group).length) =
        parsed.map fun commands => commands.length + 4 := by
  induction reads generalizing loop bytes parsed with
  | nil => exact absurd (List.append_cancel_left (calls.symm.trans (List.append_nil _).symm)) some
  | cons read rest ih =>
    have goodRest : ∀ other ∈ rest, other.Good := fun other member => good other (List.mem_cons_of_mem _ member)
    have length : (bytes ++ read.bytes).length = bytes.length + read.bytes.length := List.length_append
    rw [received_cons] at size
    rcases step_received holds (good read List.mem_cons_self) with ⟨-, holds', same⟩ | ⟨whole, enough, holds', one⟩ |
      ⟨late, -, holds', same⟩
    · obtain ⟨group, groups, rfl, sizes⟩ := ih goodRest holds' (calls.trans (by rw [same])) some (by omega)
      refine ⟨read :: group, groups, rfl, ?_⟩
      rw [← sizes, length, received_cons, Nat.add_assoc]
    · obtain ⟨others, rfl, calls'⟩ := parsed_first one calls
      have bound := run_size goodRest holds' calls'
      have first := parsed_length enough whole
      rw [List.length_nil] at bound
      rw [totalSize_cons] at size
      have single : (received [read]).length = read.bytes.length := by rw [received_cons]; rfl
      by_cases last : others = []
      · subst last
        have none : totalSize [] = 0 := rfl
        have done : rest = [] := by
          apply received_some goodRest
          apply List.eq_nil_of_length_eq_zero
          omega
        refine ⟨[read], [], by rw [done]; rfl, ?_⟩
        rw [single, List.map_nil, List.map_singleton]
        congr 1
        omega
      · obtain ⟨group, groups, rfl, sizes⟩ := ih goodRest holds' calls' last (by rw [List.length_nil]; omega)
        refine ⟨[read], group :: groups, rfl, ?_⟩
        rw [List.map_cons, List.map_cons, ← sizes, List.length_nil, Nat.zero_add, single]
        congr 1
        omega
    · have bound := run_size goodRest holds' (calls.trans (by rw [same]))
      rw [List.length_nil] at bound
      omega

/-- Each message is parsed once, with all of its commands, just when no read has bytes beyond the end of a message. -/
theorem messages_parsed_iff (buffer : Nat → UInt8) (messages : List (List UInt8)) (reads : List Read)
    (fits : ∀ commands ∈ messages, commands.length + 4 ≤ MAX_IPC_SIZE) (good : ∀ read ∈ reads, read.Good)
    (stream : received reads = (messages.map message).flatten) :
    ((start buffer).run reads).calls = messages ↔ EndsAtReads messages reads := by
  have holds := holds_start buffer
  constructor
  · intro calls
    by_cases none : messages = []
    · subst none
      exact ⟨[], received_some good stream, rfl⟩
    · have size : totalSize messages = (received reads).length := by
        rw [stream, List.length_flatten, List.map_map, totalSize]
        congr 1
      obtain ⟨group, groups, rfl, sizes⟩ := run_ends good holds calls none (by rw [size, List.length_nil, Nat.zero_add])
      refine ⟨group :: groups, rfl, ?_⟩
      rw [List.eq_iff_flatten_eq]
      constructor
      · rw [← stream]
        exact (received_flatten (group :: groups)).symm
      · rw [List.map_map, List.map_map, List.map_cons]
        rw [List.length_nil, Nat.zero_add] at sizes
        refine sizes.trans ?_
        exact List.map_congr_left fun commands _ => (message_length commands).symm
  · rintro ⟨groups, rfl, ends⟩
    exact run_groups fits good holds ends

def cut (bytes : List UInt8) : Read := { bytes, answers := true }

theorem messages_parsed_iff_pieces :
    ((start fun _ => 0).run [cut [5, 0], cut [0, 0, 8], cut [6, 0, 0, 0, 1, 2]]).calls = [[8], [1, 2]] ↔
      EndsAtReads [[8], [1, 2]] [cut [5, 0], cut [0, 0, 8], cut [6, 0, 0, 0, 1, 2]] := by
  apply messages_parsed_iff
  · decide
  · intro read member
    simp only [List.mem_cons, List.not_mem_nil, or_false] at member
    rcases member with rfl | rfl | rfl <;> exact ⟨List.cons_ne_nil _ _, rfl⟩
  · decide

/-- The second message comes with the end of the first. -/
theorem coalesced_lost :
    received [cut [5, 0, 0, 0, 8, 6, 0, 0, 0, 1, 2]] = ([[8], [1, 2]].map message).flatten ∧
      ((start fun _ => 0).run [cut [5, 0, 0, 0, 8, 6, 0, 0, 0, 1, 2]]).calls ≠ [[8], [1, 2]] := by
  decide

end Pcsx2.Pine
