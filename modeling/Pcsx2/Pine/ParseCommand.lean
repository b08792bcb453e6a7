import Pcsx2.Pine.ClientLoop

/-!
# Commands of a message

`ParseCommand` runs the commands of a message one behind the other and collects what they answer. A byte that is read behind
the announced size, or written behind the reply buffer, is a fault.
-/

namespace Pcsx2.Pine

def MAX_IPC_RETURN_SIZE : Nat := 450000

def u32 (value : Nat) : Nat := value % 2 ^ 32

/-- A text that is shorter than an `int` can count. -/
abbrev Text := {chars : List UInt8 // chars.length < 2 ^ 31}

inductive VMState
  | Shutdown
  | Initializing
  | Running
  | Paused
  | Resetting
  | Stopping

structure Emulator (σ : Type) where
  HasValidVM : σ → Bool × σ
  vtlb_ramRead (width address : Nat) : σ → Nat × σ
  vtlb_ramWrite (width address value : Nat) : σ → σ
  SaveStateToSlot (slot : Nat) : σ → σ
  LoadStateFromSlot (slot : Nat) : σ → σ
  GetTitle : σ → Text × σ
  GetDiscSerial : σ → Text × σ
  GetDiscCRC : σ → BitVec 32 × σ
  GetDiscVersion : σ → Text × σ
  GetState : σ → VMState × σ
  GitRev : Text

/-- The locals of `ParseCommand`, and the emulator. -/
structure Parser (σ : Type) where
  ret_buffer : Nat → UInt8
  ret_cnt : Nat
  buf_cnt : Nat
  world : σ

/-- How a command ends early: by `goto error`, or at a byte outside a buffer. -/
inductive Failure
  | error
  | fault

abbrev ParseM (σ : Type) := ExceptT Failure (StateM (Parser σ))

def littleEndian (width value : Nat) : List UInt8 := (List.range width).map fun i => UInt8.ofNat (value / 2 ^ (8 * i))

def fromBytes (bytes : List UInt8) : Nat := bytes.foldr (fun b rest => b.toNat + 2 ^ 8 * rest) 0

namespace ParseM

variable {σ α : Type}

def ask (query : σ → α × σ) : ParseM σ α := fun p => (.ok (query p.world).1, { p with world := (query p.world).2 })

def act (action : σ → σ) : ParseM σ Unit := fun p => (.ok (), { p with world := action p.world })

/-- `goto error` where the checks fail. -/
def SafetyChecks (buf_size command_size reply_size : Nat) : ParseM σ Unit := fun p =>
  if u32 (p.buf_cnt + command_size) > buf_size ∨ u32 (p.ret_cnt + reply_size) ≥ MAX_IPC_RETURN_SIZE then (.error .error, p)
  else (.ok (), p)

/-- `FromSpan` of so many bytes, behind `buf_cnt`. -/
def readSpan (buf : Nat → UInt8) (buf_size width offset : Nat) : ParseM σ Nat := fun p =>
  if p.buf_cnt + offset + width ≤ buf_size then
    (.ok (fromBytes ((List.range width).map fun i => buf (p.buf_cnt + offset + i))), p)
  else (.error .fault, p)

/-- Bytes are written to the reply buffer at `ret_cnt`, which is moved behind them. -/
def ToResultVector (bytes : List UInt8) : ParseM σ Unit := fun p =>
  if p.ret_cnt + bytes.length ≤ MAX_IPC_RETURN_SIZE then
    (.ok (), { p with ret_buffer := store p.ret_buffer p.ret_cnt bytes, ret_cnt := u32 (p.ret_cnt + bytes.length) })
  else (.error .fault, p)

/-- `buf_cnt` is moved on. -/
def skip (count : Nat) : ParseM σ Unit := fun p => (.ok (), { p with buf_cnt := u32 (p.buf_cnt + count) })

def validVM (emu : Emulator σ) : ParseM σ Unit := do
  let valid ← ask emu.HasValidVM
  if valid then pure () else throw .error

end ParseM

section
variable {σ : Type} (emu : Emulator σ) (buf : Nat → UInt8) (buf_size : Nat)
open ParseM

/-! ## The commands -/

/-- A read of `width` bytes of memory. -/
def MsgRead (width : Nat) : ParseM σ Unit := do
  validVM emu
  SafetyChecks buf_size 4 width
  let a ← readSpan buf buf_size 4 0
  let res ← ask (emu.vtlb_ramRead width a)
  ToResultVector (littleEndian width res)
  skip 4

def MsgRead8 : ParseM σ Unit := MsgRead emu buf buf_size 1
def MsgRead16 : ParseM σ Unit := MsgRead emu buf buf_size 2
def MsgRead32 : ParseM σ Unit := MsgRead emu buf buf_size 4
def MsgRead64 : ParseM σ Unit := MsgRead emu buf buf_size 8

/-- A write of `width` bytes of memory. -/
def MsgWrite (width : Nat) : ParseM σ Unit := do
  validVM emu
  SafetyChecks buf_size (width + 4) 0
  let a ← readSpan buf buf_size 4 0
  let value ← readSpan buf buf_size width 4
  act (emu.vtlb_ramWrite width a value)
  skip (4 + width)

def MsgWrite8 : ParseM σ Unit := MsgWrite emu buf buf_size 1
def MsgWrite16 : ParseM σ Unit := MsgWrite emu buf buf_size 2
def MsgWrite32 : ParseM σ Unit := MsgWrite emu buf buf_size 4
def MsgWrite64 : ParseM σ Unit := MsgWrite emu buf buf_size 8

/-- The reply of `size` bytes of a text with a terminator behind it, and their number in front. -/
def replyText (size : Nat) (text : List UInt8) : ParseM σ Unit := do
  SafetyChecks buf_size 0 (u32 (size + 4))
  ToResultVector (littleEndian 4 size)
  ToResultVector ((text ++ [0]).take size)

/-- `PCSX2 ` -/
def versionMark : List UInt8 := [0x50, 0x43, 0x53, 0x58, 0x32, 0x20]

def MsgVersion : ParseM σ Unit := replyText buf_size (u32 (emu.GitRev.1.length + 7)) (versionMark ++ emu.GitRev.1)

def MsgState (action : Nat → σ → σ) : ParseM σ Unit := do
  validVM emu
  SafetyChecks buf_size 1 0
  let slot ← readSpan buf buf_size 1 0
  act (action slot)
  skip 1

def MsgSaveState : ParseM σ Unit := MsgState emu buf buf_size emu.SaveStateToSlot
def MsgLoadState : ParseM σ Unit := MsgState emu buf buf_size emu.LoadStateFromSlot

def MsgText (query : σ → List UInt8 × σ) : ParseM σ Unit := do
  validVM emu
  let text ← ask query
  replyText buf_size (u32 (text.length + 1)) text

/-- `fmt::format("{:08x}", crc)` -/
def hex (crc : BitVec 32) : List UInt8 :=
  (List.range 8).map fun i =>
    let digit := crc.toNat / 16 ^ (7 - i) % 16
    UInt8.ofNat (if digit < 10 then 0x30 + digit else 0x57 + digit)

def MsgTitle : ParseM σ Unit := MsgText emu buf_size fun s => ((emu.GetTitle s).1.1, (emu.GetTitle s).2)
def MsgID : ParseM σ Unit := MsgText emu buf_size fun s => ((emu.GetDiscSerial s).1.1, (emu.GetDiscSerial s).2)
def MsgUUID : ParseM σ Unit := MsgText emu buf_size fun s => (hex (emu.GetDiscCRC s).1, (emu.GetDiscCRC s).2)
def MsgGameVersion : ParseM σ Unit := MsgText emu buf_size fun s => ((emu.GetDiscVersion s).1.1, (emu.GetDiscVersion s).2)

def EmuStatus : VMState → Nat
  | .Running => 0
  | .Paused => 1
  | _ => 2

def MsgStatus : ParseM σ Unit := do
  SafetyChecks buf_size 0 4
  let status ← ask emu.GetState
  ToResultVector (littleEndian 4 (EmuStatus status))

def command (opcode : Nat) : ParseM σ Unit :=
  match opcode with
  | 0 => MsgRead8 emu buf buf_size
  | 1 => MsgRead16 emu buf buf_size
  | 2 => MsgRead32 emu buf buf_size
  | 3 => MsgRead64 emu buf buf_size
  | 4 => MsgWrite8 emu buf buf_size
  | 5 => MsgWrite16 emu buf buf_size
  | 6 => MsgWrite32 emu buf buf_size
  | 7 => MsgWrite64 emu buf buf_size
  | 8 => MsgVersion emu buf_size
  | 9 => MsgSaveState emu buf buf_size
  | 0xA => MsgLoadState emu buf buf_size
  | 0xB => MsgTitle emu buf_size
  | 0xC => MsgID emu buf_size
  | 0xD => MsgUUID emu buf_size
  | 0xE => MsgGameVersion emu buf_size
  | 0xF => MsgStatus emu buf_size
  | _ => throw .error

def turn : ParseM σ Unit := do
  SafetyChecks buf_size 1 0
  let opcode ← readSpan buf buf_size 1 0
  skip 1
  command emu buf buf_size opcode

/-- The loop. -/
def parse : Nat → ParseM σ Unit
  | 0 => throw .fault
  | fuel + 1 => fun p => if p.buf_cnt < buf_size then (turn emu buf buf_size >>= fun _ => parse fuel) p else (.ok (), p)

/-- An `IPCBuffer`, and the emulator afterwards. -/
structure Reply (σ : Type) where
  size : Nat
  buffer : Nat → UInt8
  world : σ

/-- `MakeOkIPC` and `MakeFailIPC` -/
def makeIPC (ret_buffer : Nat → UInt8) (size : Nat) (result : UInt8) : Nat → UInt8 :=
  store (store ret_buffer 0 (littleEndian 4 size)) 4 [result]

def IPC_OK : UInt8 := 0
def IPC_FAIL : UInt8 := 0xFF

/-- No reply where there was a fault. -/
def ParseCommand (ret_buffer : Nat → UInt8) (world : σ) : Option (Reply σ) :=
  match parse emu buf buf_size (buf_size + 1) ⟨ret_buffer, 5, 0, world⟩ with
  | (.ok (), p) => some ⟨p.ret_cnt, makeIPC p.ret_buffer p.ret_cnt IPC_OK, p.world⟩
  | (.error .error, p) => some ⟨5, makeIPC p.ret_buffer 5 IPC_FAIL, p.world⟩
  | (.error .fault, _) => none


/-! ## What commands do -/

end

inductive Command
  | read (width address : Nat)
  | write (width address value : Nat)
  | version
  | saveState (slot : Nat)
  | loadState (slot : Nat)
  | title
  | id
  | uuid
  | gameVersion
  | status

def readShape (width : Nat) : Nat × (List UInt8 → Command) := (4, fun args => .read width (fromBytes args))

def writeShape (width : Nat) : Nat × (List UInt8 → Command) :=
  (4 + width, fun args => .write width (fromBytes (args.take 4)) (fromBytes (args.drop 4)))

def shape (opcode : Nat) : Option (Nat × (List UInt8 → Command)) :=
  match opcode with
  | 0 => some (readShape 1)
  | 1 => some (readShape 2)
  | 2 => some (readShape 4)
  | 3 => some (readShape 8)
  | 4 => some (writeShape 1)
  | 5 => some (writeShape 2)
  | 6 => some (writeShape 4)
  | 7 => some (writeShape 8)
  | 8 => some (0, fun _ => .version)
  | 9 => some (1, fun args => .saveState (fromBytes args))
  | 0xA => some (1, fun args => .loadState (fromBytes args))
  | 0xB => some (0, fun _ => .title)
  | 0xC => some (0, fun _ => .id)
  | 0xD => some (0, fun _ => .uuid)
  | 0xE => some (0, fun _ => .gameVersion)
  | 0xF => some (0, fun _ => .status)
  | _ => none

def decode : List UInt8 → Option (Command × List UInt8)
  | [] => none
  | opcode :: rest =>
    match shape opcode.toNat with
    | some (count, make) => if count ≤ rest.length then some (make (rest.take count), rest.drop count) else none
    | none => none

def textReply (text : List UInt8) : List UInt8 := littleEndian 4 (text.length + 1) ++ (text ++ [0])

section
variable {σ : Type} (emu : Emulator σ)

def answer : Command → σ → List UInt8 × σ
  | .read width address, s => (littleEndian width (emu.vtlb_ramRead width address s).1, (emu.vtlb_ramRead width address s).2)
  | .write width address value, s => ([], emu.vtlb_ramWrite width address value s)
  | .version, s => (textReply (versionMark ++ emu.GitRev.1), s)
  | .saveState slot, s => ([], emu.SaveStateToSlot slot s)
  | .loadState slot, s => ([], emu.LoadStateFromSlot slot s)
  | .title, s => (textReply (emu.GetTitle s).1.1, (emu.GetTitle s).2)
  | .id, s => (textReply (emu.GetDiscSerial s).1.1, (emu.GetDiscSerial s).2)
  | .uuid, s => (textReply (hex (emu.GetDiscCRC s).1), (emu.GetDiscCRC s).2)
  | .gameVersion, s => (textReply (emu.GetDiscVersion s).1.1, (emu.GetDiscVersion s).2)
  | .status, s => (littleEndian 4 (EmuStatus (emu.GetState s).1), (emu.GetState s).2)

/-- The reply of a command. All but two need a VM. -/
def perform : Command → σ → Option (List UInt8 × σ)
  | .version, s => some (answer emu .version s)
  | .status, s => some (answer emu .status s)
  | c, s => if (emu.HasValidVM s).1 then some (answer emu c (emu.HasValidVM s).2) else none

/-- The commands of a message are performed one behind the other, with these replies. -/
inductive Batch : List UInt8 → σ → List (List UInt8) → σ → Prop
  | nil (s : σ) : Batch [] s [] s
  | cons {bytes rest : List UInt8} {c : Command} {s s' t : σ} {reply : List UInt8} {replies : List (List UInt8)}
      (decoded : decode bytes = some (c, rest)) (performed : perform emu c s = some (reply, s'))
      (behind : Batch rest s' replies t) : Batch bytes s (reply :: replies) t

end

section
variable {σ : Type}

def Reply.bytes (reply : Reply σ) : List UInt8 := (List.range reply.size).map reply.buffer

/-- A reply of so many commands, each at the place that those before it leave. -/
structure Reply.Ok (reply : Reply σ) (replies : List (List UInt8)) : Prop where
  size : reply.size = 5 + replies.flatten.length
  bytes : reply.bytes = littleEndian 4 reply.size ++ [IPC_OK] ++ replies.flatten

structure Reply.Fail (reply : Reply σ) : Prop where
  size : reply.size = 5
  bytes : reply.bytes = littleEndian 4 5 ++ [IPC_FAIL]

end

section
variable {σ α β : Type} {emu : Emulator σ} {buf : Nat → UInt8} {buf_size width count : Nat} {p p' : Parser σ}
  {m : ParseM σ α} {f : α → ParseM σ β} {bytes rest reply : List UInt8} {replies : List (List UInt8)} {s t : σ}

/-! ## Rules of the parser's steps -/

namespace ParseM

theorem bind_ok {a : α} (runs : m p = (.ok a, p')) : (m >>= f) p = f a p' := by
  simp only [bind, ExceptT.bind, ExceptT.mk, StateT.bind, runs, ExceptT.bindCont]

theorem bind_error {e : Failure} (runs : m p = (.error e, p')) : (m >>= f) p = (.error e, p') := by
  simp only [bind, ExceptT.bind, ExceptT.mk, StateT.bind, runs, ExceptT.bindCont]
  rfl

theorem u32_of_lt {value : Nat} (small : value < 2 ^ 32) : u32 value = value := Nat.mod_eq_of_lt small

theorem ask_bind (query : σ → α × σ) : (ask query >>= f) p = f (query p.world).1 { p with world := (query p.world).2 } := bind_ok rfl

theorem validVM_bind {f : Unit → ParseM σ β} : (validVM emu >>= f) p =
    if (emu.HasValidVM p.world).1 then f () { p with world := (emu.HasValidVM p.world).2 }
    else (.error .error, { p with world := (emu.HasValidVM p.world).2 }) := by
  cases valid : (emu.HasValidVM p.world).1 with
  | true =>
      have runs : validVM emu p = (.ok (), { p with world := (emu.HasValidVM p.world).2 }) := by
        rw [validVM, ask_bind, valid]
        rfl
      rw [bind_ok runs, if_pos rfl]
  | false =>
      have runs : validVM emu p = (.error .error, { p with world := (emu.HasValidVM p.world).2 }) := by
        rw [validVM, ask_bind, valid]
        rfl
      rw [bind_error runs, if_neg Bool.false_ne_true]

/-- A parser in a message that counts in a `u32`, with room for more of the reply. -/
structure Within (buf_size : Nat) (p : Parser σ) : Prop where
  small : buf_size + 12 < 2 ^ 32
  inside : p.buf_cnt ≤ buf_size
  room : p.ret_cnt < MAX_IPC_RETURN_SIZE

theorem Within.world (within : Within buf_size p) (world : σ) : Within buf_size { p with world } :=
  ⟨within.small, within.inside, within.room⟩

theorem u32_ret_cnt {value : Nat} (fits : value ≤ MAX_IPC_RETURN_SIZE) : u32 value = value := by
  refine u32_of_lt (Nat.lt_of_le_of_lt fits ?_)
  decide

theorem Within.u32_buf_cnt (within : Within buf_size p) (short : count ≤ 12) : u32 (p.buf_cnt + count) = p.buf_cnt + count :=
  u32_of_lt (Nat.lt_of_le_of_lt (Nat.add_le_add within.inside short) within.small)

theorem safetyChecks_bind {f : Unit → ParseM σ β} {command_size reply_size : Nat} (within : Within buf_size p)
    (short : command_size ≤ 12) (small : reply_size ≤ 2 ^ 31 + 20) : (SafetyChecks buf_size command_size reply_size >>= f) p =
      if p.buf_cnt + command_size ≤ buf_size ∧ p.ret_cnt + reply_size < MAX_IPC_RETURN_SIZE then f () p else (.error .error, p) := by
  have room : p.ret_cnt < 450000 := within.room
  have counted : u32 (p.ret_cnt + reply_size) = p.ret_cnt + reply_size := u32_of_lt (by omega)
  by_cases fits : p.buf_cnt + command_size ≤ buf_size ∧ p.ret_cnt + reply_size < MAX_IPC_RETURN_SIZE
  · have runs : SafetyChecks buf_size command_size reply_size p = (.ok (), p) := by
      rw [SafetyChecks, within.u32_buf_cnt short, counted]
      exact if_neg (not_or.2 ⟨Nat.not_lt.2 fits.1, Nat.not_le.2 fits.2⟩)
    rw [bind_ok runs, if_pos fits]
  · have runs : SafetyChecks buf_size command_size reply_size p = (.error .error, p) := by
      rw [SafetyChecks, within.u32_buf_cnt short, counted]
      refine if_pos ?_
      rcases not_and_or.1 fits with long | full
      · exact .inl (Nat.not_le.1 long)
      · exact .inr (Nat.not_lt.1 full)
    rw [bind_error runs, if_neg fits]

theorem readSpan_bind {f : Nat → ParseM σ β} {offset : Nat} (inside : p.buf_cnt + offset + width ≤ buf_size) :
    (readSpan buf buf_size width offset >>= f) p = f (fromBytes ((List.range width).map fun i => buf (p.buf_cnt + offset + i))) p :=
  bind_ok (if_pos inside)

theorem act_bind {f : Unit → ParseM σ β} (action : σ → σ) : (act action >>= f) p = f () { p with world := action p.world } := bind_ok rfl

theorem toResultVector_eq (fits : p.ret_cnt + bytes.length ≤ MAX_IPC_RETURN_SIZE) : ToResultVector bytes p =
    (.ok (), { p with ret_buffer := store p.ret_buffer p.ret_cnt bytes, ret_cnt := p.ret_cnt + bytes.length }) := by
  rw [ToResultVector, if_pos fits, u32_ret_cnt fits]

theorem skip_eq (counted : u32 (p.buf_cnt + count) = p.buf_cnt + count) :
    skip count p = (.ok (), { p with buf_cnt := p.buf_cnt + count }) := by
  rw [skip, counted]

end ParseM

open ParseM

theorem littleEndian_length (width value : Nat) : (littleEndian width value).length = width := by simp [littleEndian]

theorem textReply_length (text : List UInt8) : (textReply text).length = text.length + 5 := by
  simp [textReply, littleEndian_length]
  omega

theorem store_nil (buffer : Nat → UInt8) (offset : Nat) : store buffer offset [] = buffer := by
  funext i
  simp [store]

theorem store_store (buffer : Nat → UInt8) (offset : Nat) (first second : List UInt8) :
    store (store buffer offset first) (offset + first.length) second = store buffer offset (first ++ second) := by
  funext i
  rcases Nat.lt_or_ge i offset with before | behind
  · have outside : ¬offset + first.length ≤ i := by omega
    simp [store, Nat.not_le.2 before, outside]
  · rcases Nat.lt_or_ge i (offset + first.length) with here | further
    · have inside : i - offset < first.length := by omega
      simp [store, behind, Nat.not_le.2 here, List.getElem?_append_left inside]
    · have outside : first.length ≤ i - offset := by omega
      have place : i - offset - first.length = i - (offset + first.length) := by omega
      simp [store, behind, further, List.getElem?_append_right outside, List.getElem?_eq_none outside, place]

/-- The bytes of the message from a place on. -/
def ahead (buf : Nat → UInt8) (buf_size place : Nat) : List UInt8 := (List.range (buf_size - place)).map fun i => buf (place + i)

def Parser.after (p : Parser σ) (reply : List UInt8) (count : Nat) (world : σ) : Parser σ where
  ret_buffer := store p.ret_buffer p.ret_cnt reply
  ret_cnt := p.ret_cnt + reply.length
  buf_cnt := p.buf_cnt + count
  world := world

/-- A command either is performed, or ends in `goto error` because its arguments are cut off, it is refused, or its reply is too long. -/
inductive Handled (buf_size : Nat) (p : Parser σ) (count : Nat) (performed : Option (List UInt8 × σ)) (ends : Except Failure Unit × Parser σ) : Prop
  | done {reply : List UInt8} {t : σ} (inside : p.buf_cnt + count ≤ buf_size) (some : performed = some (reply, t))
      (fits : p.ret_cnt + reply.length < MAX_IPC_RETURN_SIZE) (next : ends = (.ok (), p.after reply count t))
  | refused {p' : Parser σ} (reason : p.buf_cnt + count ≤ buf_size → ∀ reply t, performed = some (reply, t) →
      MAX_IPC_RETURN_SIZE ≤ p.ret_cnt + reply.length) (next : ends = (.error .error, p'))

theorem ahead_take {place : Nat} (inside : place + count ≤ buf_size) :
    (ahead buf buf_size place).take count = (List.range count).map fun i => buf (place + i) := by
  rw [ahead, ← List.map_take, List.take_range, Nat.min_eq_left (by omega)]

theorem ahead_drop (place count : Nat) : (ahead buf buf_size place).drop count = ahead buf buf_size (place + count) := by
  refine List.ext_getElem (by simp [ahead, Nat.sub_add_eq]) fun i inside inside' => ?_
  simp [ahead, Nat.add_assoc]

theorem fromBytes_one (b : UInt8) : fromBytes [b] = b.toNat := by simp [fromBytes]

/-! ## The commands -/

def guarded (emu : Emulator σ) (c : Command) (s : σ) : Option (List UInt8 × σ) :=
  if (emu.HasValidVM s).1 then some (answer emu c (emu.HasValidVM s).2) else none

theorem validVM_handled {c : Command} {rest : Unit → ParseM σ Unit} (runs : ∀ world,
    Handled buf_size { p with world } count (some (answer emu c world)) (rest () { p with world })) :
    Handled buf_size p count (guarded emu c p.world) ((validVM emu >>= rest) p) := by
  rw [validVM_bind, guarded]
  split_ifs with valid
  · cases runs (emu.HasValidVM p.world).2 with
    | done inside some fits next => exact .done inside some fits next
    | refused reason next => exact .refused reason next
  · exact .refused (fun _ _ _ performed => by cases performed) rfl

theorem msgRead_handled (within : Within buf_size p) (narrow : width ≤ 8) : Handled buf_size p 4
    (guarded emu (.read width (fromBytes ((ahead buf buf_size p.buf_cnt).take 4))) p.world) (MsgRead emu buf buf_size width p) := by
  refine validVM_handled fun world => ?_
  have length := littleEndian_length width
  rw [safetyChecks_bind (within.world world) (by decide) (by omega)]
  split_ifs with fits
  · rw [ahead_take fits.1, readSpan_bind fits.1, ask_bind, bind_ok (toResultVector_eq (by rw [length]; exact Nat.le_of_lt fits.2))]
    exact .done fits.1 rfl (by rw [length]; exact fits.2) (skip_eq (within.u32_buf_cnt (by decide)))
  · refine .refused (fun inside reply t performed => ?_) rfl
    obtain ⟨rfl, rfl⟩ := Option.some_inj.1 performed
    rw [length]
    exact Nat.not_lt.1 fun more => fits ⟨inside, more⟩

theorem silent_handled (within : Within buf_size p) (inside : p.buf_cnt + count ≤ buf_size) (short : count ≤ 12) (t : σ) :
    Handled buf_size p count (some ([], t)) (skip count { p with world := t }) := by
  refine .done inside rfl within.room ?_
  rw [skip_eq ((within.world t).u32_buf_cnt short), Parser.after, store_nil]
  rfl

theorem msgWrite_handled (within : Within buf_size p) (narrow : width ≤ 8) : Handled buf_size p (4 + width)
    (guarded emu (.write width (fromBytes (((ahead buf buf_size p.buf_cnt).take (4 + width)).take 4))
      (fromBytes (((ahead buf buf_size p.buf_cnt).take (4 + width)).drop 4))) p.world) (MsgWrite emu buf buf_size width p) := by
  refine validVM_handled fun world => ?_
  rw [safetyChecks_bind (within.world world) (by omega) (by decide)]
  by_cases inside : p.buf_cnt + 4 + width ≤ buf_size
  · have address : ((ahead buf buf_size p.buf_cnt).take (4 + width)).take 4 = (List.range 4).map fun i => buf (p.buf_cnt + i) := by
      rw [List.take_take, Nat.min_eq_left (by omega), ahead_take (by omega)]
    have value : ((ahead buf buf_size p.buf_cnt).take (4 + width)).drop 4 =
        (List.range width).map fun i => buf (p.buf_cnt + 4 + i) := by
      rw [List.drop_take, ahead_drop, Nat.add_sub_cancel_left, ahead_take inside]
    have front : p.buf_cnt + 0 + 4 ≤ buf_size := by omega
    rw [if_pos ⟨show p.buf_cnt + (width + 4) ≤ buf_size by omega, within.room⟩, address, value,
      readSpan_bind (p := { p with world }) front, readSpan_bind (p := { p with world }) inside, act_bind]
    exact silent_handled (within.world world) (show p.buf_cnt + (4 + width) ≤ buf_size by omega) (by omega) _
  · rw [if_neg fun fits => inside (by have := fits.1; simp only at this; omega)]
    refine .refused (fun fits => absurd ?_ inside) rfl
    simp only at fits
    omega

theorem msgState_handled (within : Within buf_size p) {action : Nat → σ → σ} {c : Nat → Command}
    (acts : ∀ slot s, answer emu (c slot) s = ([], action slot s)) : Handled buf_size p 1
      (guarded emu (c (fromBytes ((ahead buf buf_size p.buf_cnt).take 1))) p.world) (MsgState emu buf buf_size action p) := by
  refine validVM_handled fun world => ?_
  rw [safetyChecks_bind (within.world world) (by decide) (by decide)]
  split_ifs with fits
  · rw [ahead_take fits.1, readSpan_bind fits.1, act_bind, acts]
    exact silent_handled (within.world world) fits.1 (by decide) _
  · exact .refused (fun inside _ _ _ => absurd ⟨inside, within.room⟩ fits) rfl

theorem replyText_handled (within : Within buf_size p) {text : List UInt8} (short : text.length ≤ 2 ^ 31 + 6) :
    Handled buf_size p 0 (some (textReply text, p.world)) (replyText buf_size (u32 (text.length + 1)) text p) := by
  have size : u32 (text.length + 1) = text.length + 1 := u32_of_lt (by omega)
  have more : u32 (text.length + 1 + 4) = text.length + 5 := u32_of_lt (by omega)
  have whole : (text ++ [0]).take (text.length + 1) = text ++ [0] := List.take_of_length_le (by simp)
  have number := littleEndian_length 4 (text.length + 1)
  rw [replyText, size, more, whole, safetyChecks_bind within (Nat.zero_le _) (by omega)]
  split_ifs with fits
  · rw [bind_ok (toResultVector_eq (by rw [number]; omega)), toResultVector_eq]
    · refine .done fits.1 rfl (by rw [textReply_length]; exact fits.2) ?_
      simp only [Parser.after, textReply, Nat.add_zero, ← store_store, List.length_append, Nat.add_assoc]
    · simp only [number, List.length_append, List.length_singleton]
      omega
  · refine .refused (fun inside reply t performed => ?_) rfl
    obtain ⟨rfl, rfl⟩ := Option.some_inj.1 performed
    rw [textReply_length]
    exact Nat.not_lt.1 fun more => fits ⟨inside, more⟩

theorem msgVersion_handled (within : Within buf_size p) :
    Handled buf_size p 0 (some (answer emu .version p.world)) (MsgVersion emu buf_size p) := by
  have short := emu.GitRev.2
  have length : (versionMark ++ emu.GitRev.1).length = emu.GitRev.1.length + 6 := by
    simp [versionMark]
  have handled : Handled buf_size p 0 (some (textReply (versionMark ++ emu.GitRev.1), p.world)) _ :=
    replyText_handled within (by rw [length]; omega)
  rwa [length] at handled

theorem msgText_handled (within : Within buf_size p) {query : σ → List UInt8 × σ} {c : Command}
    (asks : ∀ s, answer emu c s = (textReply (query s).1, (query s).2)) (short : ∀ s, (query s).1.length < 2 ^ 31) :
    Handled buf_size p 0 (guarded emu c p.world) (MsgText emu buf_size query p) := by
  refine validVM_handled fun world => ?_
  rw [ask_bind, asks]
  have handled := replyText_handled (within.world (query world).2) (Nat.le_of_lt (Nat.lt_add_right 6 (short world)))
  cases handled with
  | done inside some fits next => exact .done inside some fits next
  | refused reason next => exact .refused reason next

theorem msgStatus_handled (within : Within buf_size p) :
    Handled buf_size p 0 (some (answer emu .status p.world)) (MsgStatus emu buf_size p) := by
  have length := littleEndian_length 4
  rw [MsgStatus, safetyChecks_bind within (by decide) (by decide)]
  split_ifs with fits
  · rw [ask_bind, toResultVector_eq (by rw [length]; exact Nat.le_of_lt fits.2)]
    exact .done fits.1 rfl (by simpa [answer, length] using fits.2) rfl
  · refine .refused (fun inside reply t performed => ?_) rfl
    obtain ⟨rfl, rfl⟩ := Option.some_inj.1 performed
    rw [length]
    exact Nat.not_lt.1 fun more => fits ⟨inside, more⟩

theorem command_handled (within : Within buf_size p) {opcode : Nat} {make : List UInt8 → Command} (known : shape opcode = some (count, make)) :
    Handled buf_size p count (perform emu (make ((ahead buf buf_size p.buf_cnt).take count)) p.world)
      (command emu buf buf_size opcode p) := by
  unfold shape at known
  split at known <;> cases known
  · exact msgRead_handled within (by decide)
  · exact msgRead_handled within (by decide)
  · exact msgRead_handled within (by decide)
  · exact msgRead_handled within (by decide)
  · exact msgWrite_handled within (by decide)
  · exact msgWrite_handled within (by decide)
  · exact msgWrite_handled within (by decide)
  · exact msgWrite_handled within (by decide)
  · exact msgVersion_handled within
  · exact msgState_handled within fun _ _ => rfl
  · exact msgState_handled within fun _ _ => rfl
  · exact msgText_handled within (fun _ => rfl) fun s => (emu.GetTitle s).1.2
  · exact msgText_handled within (fun _ => rfl) fun s => (emu.GetDiscSerial s).1.2
  · exact msgText_handled within (fun _ => rfl) fun s => (by simp [hex])
  · exact msgText_handled within (fun _ => rfl) fun s => (emu.GetDiscVersion s).1.2
  · exact msgStatus_handled within

theorem command_unknown {opcode : Nat} (unknown : shape opcode = none) : command emu buf buf_size opcode p = (.error .error, p) := by
  unfold shape at unknown
  unfold command
  split at unknown <;> cases unknown
  rfl

theorem ahead_cons {place : Nat} (inside : place < buf_size) : ahead buf buf_size place = buf place :: ahead buf buf_size (place + 1) := by
  obtain ⟨more, length⟩ := Nat.exists_eq_add_of_lt inside
  have left : buf_size - place = more + 1 := by omega
  have behind : buf_size - (place + 1) = more := by omega
  rw [ahead, ahead, left, behind, List.range_succ_eq_map]
  simp [Function.comp_def, Nat.add_comm, Nat.add_left_comm]

theorem ahead_length (place : Nat) : (ahead buf buf_size place).length = buf_size - place := by simp [ahead]

/-! ## The loop -/

/-- A turn of the loop performs the command that the rest of the message begins with, or it ends in `goto error`. -/
inductive Turned (emu : Emulator σ) (buf : Nat → UInt8) (buf_size : Nat) (p : Parser σ) : Prop
  | done {c : Command} {rest reply : List UInt8} {t : σ} (p' : Parser σ) (decoded : decode (ahead buf buf_size p.buf_cnt) = some (c, rest))
      (performed : perform emu c p.world = some (reply, t)) (fits : p.ret_cnt + reply.length < MAX_IPC_RETURN_SIZE)
      (next : turn emu buf buf_size p = (.ok (), p')) (behind : rest = ahead buf buf_size p'.buf_cnt) (on : p.buf_cnt < p'.buf_cnt)
      (within : Within buf_size p') (world : p'.world = t) (counted : p'.ret_cnt = p.ret_cnt + reply.length)
      (stored : p'.ret_buffer = store p.ret_buffer p.ret_cnt reply)
  | refused {p' : Parser σ} (reason : ∀ c rest reply t, decode (ahead buf buf_size p.buf_cnt) = some (c, rest) →
      perform emu c p.world = some (reply, t) → MAX_IPC_RETURN_SIZE ≤ p.ret_cnt + reply.length)
      (next : turn emu buf buf_size p = (.error .error, p'))

theorem turned (within : Within buf_size p) (more : p.buf_cnt < buf_size) : Turned emu buf buf_size p := by
  have whole : p.buf_cnt + 1 ≤ buf_size := more
  have opcode : fromBytes ((List.range 1).map fun i => buf (p.buf_cnt + 0 + i)) = (buf p.buf_cnt).toNat := fromBytes_one _
  have further : Within buf_size { p with buf_cnt := p.buf_cnt + 1 } := ⟨within.small, whole, within.room⟩
  have steps : turn emu buf buf_size p = command emu buf buf_size (buf p.buf_cnt).toNat { p with buf_cnt := p.buf_cnt + 1 } := by
    rw [turn, safetyChecks_bind within (by decide) (by decide), if_pos ⟨whole, within.room⟩, readSpan_bind whole, opcode,
      bind_ok (skip_eq (within.u32_buf_cnt (by decide)))]
  cases known : shape (buf p.buf_cnt).toNat with
  | none =>
      rw [command_unknown known] at steps
      refine .refused (fun c rest reply t decoded => ?_) steps
      simp [ahead_cons more, decode, known] at decoded
  | some form =>
      obtain ⟨count, make⟩ := form
      have decode_eq : decode (ahead buf buf_size p.buf_cnt) = if count ≤ buf_size - (p.buf_cnt + 1) then
          some (make ((ahead buf buf_size (p.buf_cnt + 1)).take count), ahead buf buf_size (p.buf_cnt + 1 + count)) else none := by
        simp only [ahead_cons more, decode, known, ahead_length, ahead_drop]
      have handled : Handled buf_size _ count _ (command emu buf buf_size _ _) := command_handled further known
      rw [← steps] at handled
      cases handled with
      | done inside some fits next =>
          refine .done _ (decode_eq.trans (if_pos (by simp only at inside; omega))) some fits next rfl ?_ ?_ rfl rfl rfl
          · simp only [Parser.after]
            omega
          · exact ⟨within.small, inside, fits⟩
      | refused reason next =>
          refine .refused (fun c rest reply t decoded performed => ?_) next
          rw [decode_eq] at decoded
          split_ifs at decoded with enough
          cases decoded
          exact reason (by simp only; omega) reply t performed

theorem parse_next {fuel : Nat} (more : p.buf_cnt < buf_size) (next : turn emu buf buf_size p = (.ok (), p')) :
    parse emu buf buf_size (fuel + 1) p = parse emu buf buf_size fuel p' :=
  (if_pos more).trans (bind_ok next)

theorem parse_error {fuel : Nat} (more : p.buf_cnt < buf_size) (next : turn emu buf buf_size p = (.error .error, p')) :
    parse emu buf buf_size (fuel + 1) p = (.error .error, p') :=
  (if_pos more).trans (bind_error next)

theorem parse_last {fuel : Nat} (last : buf_size ≤ p.buf_cnt) : parse emu buf buf_size (fuel + 1) p = (.ok (), p) :=
  if_neg (Nat.not_lt.2 last)

theorem Batch.first (batch : Batch emu bytes s replies t) (more : bytes ≠ []) : ∃ c rest reply s' behind,
    decode bytes = some (c, rest) ∧ perform emu c s = some (reply, s') ∧ Batch emu rest s' behind t ∧ replies = reply :: behind := by
  cases batch with
  | nil => exact absurd rfl more
  | cons decoded performed behind => exact ⟨_, _, _, _, _, decoded, performed, behind, rfl⟩

/-- The loop performs the commands of a batch, or it ends in `goto error`. -/
inductive Parsed (emu : Emulator σ) (buf : Nat → UInt8) (buf_size : Nat) (p : Parser σ) (ends : Except Failure Unit × Parser σ) : Prop
  | done {replies : List (List UInt8)} (p' : Parser σ) (batch : Batch emu (ahead buf buf_size p.buf_cnt) p.world replies p'.world)
      (fits : p.ret_cnt + replies.flatten.length < MAX_IPC_RETURN_SIZE) (next : ends = (.ok (), p'))
      (counted : p'.ret_cnt = p.ret_cnt + replies.flatten.length)
      (stored : p'.ret_buffer = store p.ret_buffer p.ret_cnt replies.flatten)
  | refused {p' : Parser σ} (reason : ∀ replies t, Batch emu (ahead buf buf_size p.buf_cnt) p.world replies t →
      MAX_IPC_RETURN_SIZE ≤ p.ret_cnt + replies.flatten.length) (next : ends = (.error .error, p'))

theorem parsed (fuel : Nat) (within : Within buf_size p) (enough : buf_size < p.buf_cnt + fuel) :
    Parsed emu buf buf_size p (parse emu buf buf_size fuel p) := by
  induction fuel generalizing p with
  | zero => exact absurd within.inside (Nat.not_le.2 enough)
  | succ fuel ih =>
      rcases Nat.lt_or_ge p.buf_cnt buf_size with more | last
      · have some_bytes : ahead buf buf_size p.buf_cnt ≠ [] := by
          rw [ahead_cons more]
          exact List.cons_ne_nil _ _
        have next_turn : Turned emu buf buf_size p := turned within more
        cases next_turn with
        | done p' decoded performed fits next behind on within' world counted stored =>
            rw [parse_next more next]
            subst world behind
            cases ih within' (by omega) with
            | done p'' batch fits' next' counted' stored' =>
                refine .done p'' (.cons decoded performed batch) ?_ next' ?_ ?_
                · rw [List.flatten_cons, List.length_append, ← Nat.add_assoc, ← counted]
                  exact fits'
                · rw [List.flatten_cons, List.length_append, ← Nat.add_assoc, ← counted, counted']
                · rw [List.flatten_cons, ← store_store, ← counted, ← stored, stored']
            | refused reason next' =>
                refine .refused (fun replies t batch => ?_) next'
                obtain ⟨c, rest, reply, s', behind, decoded', performed', batch', rfl⟩ := batch.first some_bytes
                obtain ⟨rfl, rfl⟩ := Prod.mk.inj (Option.some_inj.1 (decoded.symm.trans decoded'))
                obtain ⟨rfl, rfl⟩ := Prod.mk.inj (Option.some_inj.1 (performed.symm.trans performed'))
                have long := reason behind t batch'
                rwa [List.flatten_cons, List.length_append, ← Nat.add_assoc, ← counted]
        | refused reason next =>
            refine .refused (fun replies t batch => ?_) (parse_error more next)
            obtain ⟨c, rest, reply, s', behind, decoded, performed, -, rfl⟩ := batch.first some_bytes
            have long := reason c rest reply s' decoded performed
            rw [List.flatten_cons, List.length_append]
            omega
      · have none : ahead buf buf_size p.buf_cnt = [] := by
          rw [ahead, Nat.sub_eq_zero_of_le last]
          rfl
        have fits : p.ret_cnt + ([] : List (List UInt8)).flatten.length < MAX_IPC_RETURN_SIZE := within.room
        refine .done p ?_ fits (parse_last last) rfl (store_nil _ _).symm
        rw [none]
        exact .nil _

/-! ## Replies -/

theorem makeIPC_bytes (buffer : Nat → UInt8) (result : UInt8) (replies : List UInt8) (size : Nat) :
    (List.range (5 + replies.length)).map (makeIPC (store buffer 5 replies) size result) = littleEndian 4 size ++ [result] ++ replies := by
  have number := littleEndian_length 4 size
  refine List.ext_getElem (by simp [number]; omega) fun i inside inside' => ?_
  rw [List.getElem_map, List.getElem_range, makeIPC]
  rcases Nat.lt_trichotomy i 4 with front | rfl | behind
  · have here : i < (littleEndian 4 size).length := by rwa [number]
    simp [store, Nat.not_le.2 front, List.getElem_append_left, here]
  · simp [store, number]
  · obtain ⟨k, rfl⟩ : ∃ k, i = k + 5 := ⟨i - 5, by omega⟩
    have short : k < replies.length := by
      simp only [List.length_append, number, List.length_singleton] at inside'
      omega
    simp [store, number, short]

theorem Reply.Fail.not_ok {reply : Reply σ} (fail : reply.Fail) (ok : reply.Ok replies) : False := by
  have size := ok.size.symm.trans fail.size
  have empty : replies.flatten = [] := List.eq_nil_of_length_eq_zero (by omega)
  have bytes := ok.bytes.symm.trans fail.bytes
  rw [fail.size, empty] at bytes
  exact absurd bytes (by decide)

theorem parseCommand_cases (emu : Emulator σ) (buf : Nat → UInt8) (small : buf_size + 12 < 2 ^ 32) (ret_buffer : Nat → UInt8) (s : σ) :
    ∃ reply, ParseCommand emu buf buf_size ret_buffer s = some reply ∧
      ((reply.Fail ∧ ∀ replies t, Batch emu (ahead buf buf_size 0) s replies t → MAX_IPC_RETURN_SIZE ≤ 5 + replies.flatten.length) ∨
        ∃ replies, Batch emu (ahead buf buf_size 0) s replies reply.world ∧ 5 + replies.flatten.length < MAX_IPC_RETURN_SIZE ∧
          reply.Ok replies) := by
  have within : Within buf_size (⟨ret_buffer, 5, 0, s⟩ : Parser σ) := ⟨small, Nat.zero_le _, by simp [MAX_IPC_RETURN_SIZE]⟩
  have whole : Parsed emu buf buf_size _ (parse emu buf buf_size (buf_size + 1) _) := parsed (buf_size + 1) within (by omega)
  cases whole with
  | done p' batch fits next counted stored =>
      simp only at counted stored
      refine ⟨⟨p'.ret_cnt, makeIPC p'.ret_buffer p'.ret_cnt IPC_OK, p'.world⟩, by rw [ParseCommand, next], .inr ⟨_, batch, fits, counted, ?_⟩⟩
      simp only [Reply.bytes]
      rw [stored, counted, makeIPC_bytes]
  | @refused p' reason next =>
      refine ⟨⟨5, makeIPC p'.ret_buffer 5 IPC_FAIL, p'.world⟩, by rw [ParseCommand, next], .inl ⟨⟨rfl, ?_⟩, reason⟩⟩
      have bytes := makeIPC_bytes p'.ret_buffer IPC_FAIL [] 5
      rwa [store_nil, List.append_nil] at bytes

variable {replies' : List (List UInt8)}

theorem Batch.append {more : List UInt8} {u : σ} (batch : Batch emu bytes s replies t)
    (behind : Batch emu more t replies' u) : Batch emu (bytes ++ more) s (replies ++ replies') u := by
  induction batch with
  | nil => exact behind
  | @cons bytes rest c s s' t reply replies decoded performed _ ih =>
      refine .cons ?_ performed (ih behind)
      cases bytes with
      | nil => cases decoded
      | cons opcode bytes =>
          rw [decode] at decoded
          rw [List.cons_append, decode]
          cases known : shape opcode.toNat with
          | none => simp [known] at decoded
          | some form =>
              obtain ⟨count, make⟩ := form
              simp only [known] at decoded ⊢
              split_ifs at decoded with enough
              cases decoded
              have longer : count ≤ (bytes ++ more).length := by
                rw [List.length_append]
                omega
              rw [if_pos longer, List.take_append_of_le_length enough, List.drop_append_of_le_length enough]

theorem ahead_append {count : Nat} (inside : count ≤ buf_size) :
    ahead buf count 0 ++ ahead (fun i => buf (count + i)) (buf_size - count) 0 = ahead buf buf_size 0 := by
  have taken : (ahead buf buf_size 0).take count = ahead buf count 0 := by
    rw [ahead_take (by rwa [Nat.zero_add]), ahead, Nat.sub_zero]
  have dropped : (ahead buf buf_size 0).drop count = ahead (fun i => buf (count + i)) (buf_size - count) 0 := by
    rw [ahead_drop, Nat.zero_add]
    simp [ahead]
  rw [← taken, ← dropped, List.take_append_drop]

theorem ne_nil_of_decode {first : Command × List UInt8} (decoded : decode bytes = some first) : bytes ≠ [] := by
  rintro rfl
  cases decoded

theorem Batch.unique {t' : σ} (batch : Batch emu bytes s replies t) (batch' : Batch emu bytes s replies' t') :
    replies = replies' ∧ t = t' := by
  induction batch generalizing replies' with
  | nil =>
      cases batch' with
      | nil => exact ⟨rfl, rfl⟩
      | cons decoded => cases decoded
  | cons decoded performed _ ih =>
      obtain ⟨c, rest, reply, s', behind, decoded', performed', batch', rfl⟩ := batch'.first (ne_nil_of_decode decoded)
      obtain ⟨rfl, rfl⟩ := Prod.mk.inj (Option.some_inj.1 (decoded.symm.trans decoded'))
      obtain ⟨rfl, rfl⟩ := Prod.mk.inj (Option.some_inj.1 (performed.symm.trans performed'))
      obtain ⟨rfl, rfl⟩ := ih batch'
      exact ⟨rfl, rfl⟩

theorem Reply.Ok.flatten_eq {reply : Reply σ} (ok : reply.Ok replies) (ok' : reply.Ok replies') :
    replies.flatten = replies'.flatten :=
  List.append_cancel_left (ok.bytes.symm.trans ok'.bytes)

theorem Reply.Ok.congr {reply : Reply σ} (ok : reply.Ok replies) (same : replies.flatten = replies'.flatten) :
    reply.Ok replies' := by
  constructor
  · rw [← same]
    exact ok.size
  · rw [← same]
    exact ok.bytes

theorem parseCommand_ok {reply : Reply σ} {ret_buffer : Nat → UInt8} (small : buf_size + 12 < 2 ^ 32)
    (returns : ParseCommand emu buf buf_size ret_buffer s = some reply) (ok : reply.Ok replies) :
    ∃ replies', Batch emu (ahead buf buf_size 0) s replies' reply.world ∧ replies.flatten = replies'.flatten := by
  obtain ⟨reply', returns', ⟨fail, -⟩ | ⟨replies', batch, -, ok'⟩⟩ := parseCommand_cases emu buf small ret_buffer s
  · obtain rfl := Option.some_inj.1 (returns.symm.trans returns')
    exact absurd ok fail.not_ok
  · obtain rfl := Option.some_inj.1 (returns.symm.trans returns')
    exact ⟨replies', batch, ok.flatten_eq ok'⟩

/-- A message is answered by the replies of all its commands, or by the failure, and never faults. Two messages that are both answered by
replies are answered alike as one, where there is room for the replies. -/
theorem parseCommand_law (small : buf_size + 12 < 2 ^ 32) :
    (∀ ret_buffer s, ∃ reply, ParseCommand emu buf buf_size ret_buffer s = some reply ∧
      (reply.Fail ∨ ∃ replies, Batch emu (ahead buf buf_size 0) s replies reply.world ∧ reply.Ok replies)) ∧
    ∀ count ≤ buf_size, ∀ ret_buffer ret_buffer' s first replies second replies',
      ParseCommand emu buf count ret_buffer s = some first → first.Ok replies →
      ParseCommand emu (fun i => buf (count + i)) (buf_size - count) ret_buffer' first.world = some second → second.Ok replies' →
      ∃ whole, ParseCommand emu buf buf_size ret_buffer s = some whole ∧
        if 5 + (replies ++ replies').flatten.length < MAX_IPC_RETURN_SIZE then whole.Ok (replies ++ replies') ∧ whole.world = second.world
        else whole.Fail := by
  constructor
  · intro ret_buffer s
    obtain ⟨reply, returns, ⟨fail, -⟩ | ⟨replies, batch, -, ok⟩⟩ := parseCommand_cases emu buf small ret_buffer s
    · exact ⟨reply, returns, .inl fail⟩
    · exact ⟨reply, returns, .inr ⟨replies, batch, ok⟩⟩
  · intro count inside ret_buffer ret_buffer' s first replies second replies' first_eq first_ok second_eq second_ok
    obtain ⟨batch_replies, batch, same⟩ := parseCommand_ok (by omega) first_eq first_ok
    obtain ⟨batch_replies', batch', same'⟩ := parseCommand_ok (by omega) second_eq second_ok
    have both := batch.append batch'
    rw [ahead_append inside] at both
    have flatten_eq : (batch_replies ++ batch_replies').flatten = (replies ++ replies').flatten := by
      rw [List.flatten_append, List.flatten_append, same, same']
    obtain ⟨whole, returns, ⟨fail, long⟩ | ⟨all, batch_all, fits, ok⟩⟩ := parseCommand_cases emu buf small ret_buffer s
    · have full := long _ _ both
      rw [flatten_eq] at full
      exact ⟨whole, returns, by rwa [if_neg (Nat.not_lt.2 full)]⟩
    · obtain ⟨rfl, ends⟩ := batch_all.unique both
      rw [flatten_eq] at fits
      exact ⟨whole, returns, by rw [if_pos fits]; exact ⟨ok.congr flatten_eq, ends⟩⟩

end

def idleEmulator : Emulator Unit where
  HasValidVM s := (false, s)
  vtlb_ramRead _ _ s := (0, s)
  vtlb_ramWrite _ _ _ s := s
  SaveStateToSlot _ s := s
  LoadStateFromSlot _ s := s
  GetTitle s := (⟨[], by decide⟩, s)
  GetDiscSerial s := (⟨[], by decide⟩, s)
  GetDiscCRC s := (0, s)
  GetDiscVersion s := (⟨[], by decide⟩, s)
  GetState s := (.Shutdown, s)
  GitRev := ⟨[0x76, 0x32], by decide⟩

/-- The version and the status are asked for. -/
theorem parseCommand_two : ∃ reply, ParseCommand idleEmulator (fun i => if i = 0 then 8 else 0xF) 2 (fun _ => 0) () = some reply ∧
    (reply.Fail ∨ ∃ replies, Batch idleEmulator (ahead (fun i => if i = 0 then 8 else 0xF) 2 0) () replies reply.world ∧ reply.Ok replies) :=
  (parseCommand_law (by decide)).1 _ _

end Pcsx2.Pine
