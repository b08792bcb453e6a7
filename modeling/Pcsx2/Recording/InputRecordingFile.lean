import Mathlib.Data.List.Basic
import Mathlib.Data.List.GetD
import Mathlib.Data.List.Induction
import Pcsx2.Foundation.Cells

/-!
# The input of a pad

`PadData` is made from the state of a pad, or from the bytes of a record.
-/

namespace Pcsx2.Recording

inductive Inputs
  | PAD_UP | PAD_RIGHT | PAD_DOWN | PAD_LEFT | PAD_TRIANGLE | PAD_CIRCLE | PAD_CROSS | PAD_SQUARE
  | PAD_L1 | PAD_L2 | PAD_R1 | PAD_R2
  deriving DecidableEq, Repr

/-- What is asked of a `PadBase`. -/
structure PadBase where
  GetButtons : UInt32
  GetRawRightAnalog : UInt8 × UInt8
  GetRawLeftAnalog : UInt8 × UInt8
  GetRawInput : Inputs → UInt8

def sioConvertPortAndSlotToPad (port slot : Nat) : Nat :=
  if slot = 0 then port else if port = 0 then slot + 1 else slot + 4

structure PadData where
  m_ext_port : Nat
  m_port : Nat
  m_slot : Nat
  m_rightAnalog : UInt8 × UInt8
  m_leftAnalog : UInt8 × UInt8
  m_compactPressFlagsGroupOne : UInt8
  m_compactPressFlagsGroupTwo : UInt8
  m_circle : Bool × UInt8
  m_cross : Bool × UInt8
  m_square : Bool × UInt8
  m_triangle : Bool × UInt8
  m_down : Bool × UInt8
  m_left : Bool × UInt8
  m_right : Bool × UInt8
  m_up : Bool × UInt8
  m_l1 : Bool × UInt8
  m_l2 : Bool × UInt8
  m_r1 : Bool × UInt8
  m_r2 : Bool × UInt8
  m_start : Bool
  m_select : Bool
  m_l3 : Bool
  m_r3 : Bool
  deriving DecidableEq, Repr

namespace PadData

def make (port slot : Nat) (groupOne groupTwo : UInt8) (rightAnalog leftAnalog : UInt8 × UInt8)
    (pressure : Inputs → UInt8) : PadData where
  m_port := port
  m_slot := slot
  m_ext_port := sioConvertPortAndSlotToPad port slot
  m_compactPressFlagsGroupOne := groupOne
  m_compactPressFlagsGroupTwo := groupTwo
  m_rightAnalog := rightAnalog
  m_leftAnalog := leftAnalog
  m_left := (0b10000000 &&& groupOne == 0, pressure .PAD_LEFT)
  m_down := (0b01000000 &&& groupOne == 0, pressure .PAD_DOWN)
  m_right := (0b00100000 &&& groupOne == 0, pressure .PAD_RIGHT)
  m_up := (0b00010000 &&& groupOne == 0, pressure .PAD_UP)
  m_start := 0b00001000 &&& groupOne == 0
  m_r3 := 0b00000100 &&& groupOne == 0
  m_l3 := 0b00000010 &&& groupOne == 0
  m_select := 0b00000001 &&& groupOne == 0
  m_square := (0b10000000 &&& groupTwo == 0, pressure .PAD_SQUARE)
  m_cross := (0b01000000 &&& groupTwo == 0, pressure .PAD_CROSS)
  m_circle := (0b00100000 &&& groupTwo == 0, pressure .PAD_CIRCLE)
  m_triangle := (0b00010000 &&& groupTwo == 0, pressure .PAD_TRIANGLE)
  m_r1 := (0b00001000 &&& groupTwo == 0, pressure .PAD_R1)
  m_l1 := (0b00000100 &&& groupTwo == 0, pressure .PAD_L1)
  m_r2 := (0b00000010 &&& groupTwo == 0, pressure .PAD_R2)
  m_l2 := (0b00000001 &&& groupTwo == 0, pressure .PAD_L2)

/-- `PadData(port, slot)` -/
def ofPad (port slot : Nat) (pad : PadBase) : PadData :=
  make port slot ((pad.GetButtons &&& 0b1111111100000000) >>> 8).toUInt8 (pad.GetButtons &&& 0b11111111).toUInt8
    pad.GetRawRightAnalog pad.GetRawLeftAnalog pad.GetRawInput

/-- `PadData(port, slot, data)` -/
def ofBytes (port slot : Nat) (data : Fin 18 → UInt8) : PadData :=
  make port slot (data 0) (data 1) (data 2, data 3) (data 4, data 5) fun
    | .PAD_LEFT => data 7
    | .PAD_DOWN => data 9
    | .PAD_RIGHT => data 6
    | .PAD_UP => data 8
    | .PAD_SQUARE => data 13
    | .PAD_CROSS => data 12
    | .PAD_CIRCLE => data 11
    | .PAD_TRIANGLE => data 10
    | .PAD_R1 => data 15
    | .PAD_L1 => data 14
    | .PAD_R2 => data 17
    | .PAD_L2 => data 16

variable (d : PadData)

def pressure : Inputs → UInt8
  | .PAD_LEFT => d.m_left.2
  | .PAD_DOWN => d.m_down.2
  | .PAD_RIGHT => d.m_right.2
  | .PAD_UP => d.m_up.2
  | .PAD_SQUARE => d.m_square.2
  | .PAD_CROSS => d.m_cross.2
  | .PAD_CIRCLE => d.m_circle.2
  | .PAD_TRIANGLE => d.m_triangle.2
  | .PAD_R1 => d.m_r1.2
  | .PAD_L1 => d.m_l1.2
  | .PAD_R2 => d.m_r2.2
  | .PAD_L2 => d.m_l2.2

/-- The bytes `writePadData` writes, in its order. -/
def bytes : List UInt8 :=
  [d.m_compactPressFlagsGroupOne, d.m_compactPressFlagsGroupTwo,
    d.m_rightAnalog.1, d.m_rightAnalog.2, d.m_leftAnalog.1, d.m_leftAnalog.2,
    d.m_right.2, d.m_left.2, d.m_up.2, d.m_down.2,
    d.m_triangle.2, d.m_circle.2, d.m_cross.2, d.m_square.2,
    d.m_l1.2, d.m_r1.2, d.m_l2.2, d.m_r2.2]

@[simp] theorem length_bytes : d.bytes.length = 18 := rfl

structure SameInput (d e : PadData) : Prop where
  groupOne : d.m_compactPressFlagsGroupOne = e.m_compactPressFlagsGroupOne
  groupTwo : d.m_compactPressFlagsGroupTwo = e.m_compactPressFlagsGroupTwo
  rightAnalog : d.m_rightAnalog = e.m_rightAnalog
  leftAnalog : d.m_leftAnalog = e.m_leftAnalog
  pressure : d.pressure = e.pressure

theorem sameInput_ofBytes (port slot : Nat) : (ofBytes port slot fun i => d.bytes[i.val]).SameInput d where
  groupOne := rfl
  groupTwo := rfl
  rightAnalog := rfl
  leftAnalog := rfl
  pressure := by
    funext input
    cases input <;> rfl

end PadData

end Pcsx2.Recording

/-!
# Input recordings

A file with a header and, for each frame, a record for each of two ports. What is written behind the end of the file
leaves a gap of zeros.
-/

namespace Pcsx2.Recording
open Foundation

/-! ## Files -/

structure FILE where
  contents : List UInt8
  position : Nat

namespace FILE

variable (file : FILE)

def fseek (seek : Nat) : FILE := { file with position := seek }

def fwrite (byte : UInt8) : FILE where
  contents := put 0 file.contents file.position byte
  position := file.position + 1

def fread (count : Nat) : List UInt8 × FILE :=
  let read := slice file.contents file.position count
  (read, { file with position := file.position + read.length })

theorem foldl_fwrite (bytes : List UInt8) :
    (bytes.foldl fwrite file).contents = puts 0 file.contents file.position bytes := by
  induction bytes generalizing file with
  | nil => rfl
  | cons byte bytes ih => exact ih (file.fwrite byte)

end FILE

structure InputRecordingFile where
  m_recordingFile : Option FILE

def sizeofInputRecordingFileHeader : Nat := 1 + 50 + 255 + 255

def s_controllerPortsSupported : Nat := 2
def s_controllerInputBytes : Nat := 18
def s_inputBytesPerFrame : Nat := s_controllerInputBytes * s_controllerPortsSupported
def s_headerSize : Nat := sizeofInputRecordingFileHeader + 4 + 4

/-- The numbers fit a `size_t` and a `long` of 64 bits. -/
def getRecordingBlockSeekPoint (frame : UInt32) : Nat := s_headerSize + 1 + frame.toNat * s_inputBytesPerFrame

/-- Where the record of a port is. -/
def recordSeek (frame : UInt32) (port : Nat) : Nat := getRecordingBlockSeekPoint frame + s_controllerInputBytes * port

namespace InputRecordingFile

variable (f : InputRecordingFile)

def writePadData (frame : UInt32) (data : PadData) : Bool × InputRecordingFile :=
  match f.m_recordingFile with
  | none => (false, f)
  | some file => (true, ⟨some (data.bytes.foldl FILE.fwrite (file.fseek (recordSeek frame data.m_port)))⟩)

/-- The number of bytes that `fread` returns is compared with 1. What it has not read stays zero. -/
def readPadData (frame : UInt32) (port slot : Nat) : Option PadData × InputRecordingFile :=
  match f.m_recordingFile with
  | none => (none, f)
  | some file =>
    let (data, file) := (file.fseek (recordSeek frame port)).fread 18
    if data.length ≠ 1 then (some (.ofBytes port slot fun i => data.getD i 0), ⟨some file⟩) else (none, ⟨some file⟩)

def bulkReadLoop (port : Nat) : Nat → UInt32 → InputRecordingFile → List PadData × InputRecordingFile
  | 0, _, f => ([], f)
  | left + 1, currFrame, f =>
    let (padData, f) := f.readPadData currFrame port 0
    let (data, f) := bulkReadLoop port left (currFrame + 1) f
    (padData.toList ++ data, f)

def bulkReadPadData (frameStart frameEnd : UInt32) (port : Nat) : List PadData × InputRecordingFile :=
  if f.m_recordingFile.isNone ∨ frameEnd < frameStart then ([], f)
  else bulkReadLoop port (frameEnd.toNat - frameStart.toNat) frameStart f

def contents : List UInt8 := (f.m_recordingFile.map FILE.contents).getD []

def writeAll (writes : List (UInt32 × PadData)) : InputRecordingFile :=
  writes.foldl (fun f write => (f.writePadData write.1 write.2).2) f

end InputRecordingFile

open InputRecordingFile

def lastWritten (writes : List (UInt32 × PadData)) (frame : UInt32) (port : Nat) : Option PadData :=
  (writes.reverse.find? fun write => write.1 = frame ∧ write.2.m_port = port).map Prod.snd

/-- The length of the file after the writes. -/
def writtenLength (length : Nat) (writes : List (UInt32 × PadData)) : Nat :=
  writes.foldl (fun length write => max length (recordSeek write.1 write.2.m_port + 18)) length

/-- Of the bytes that were there, those of the header and of the other records are still the same. -/
structure Keeps (before after : List UInt8) (frame : UInt32) (port : Nat) : Prop where
  header : ∀ i < s_headerSize + 1, i < before.length → after[i]? = before[i]?
  records : ∀ (frame' : UInt32), ∀ port' < 2, (frame', port') ≠ (frame, port) → ∀ i < 18,
    recordSeek frame' port' + i < before.length → after[recordSeek frame' port' + i]? = before[recordSeek frame' port' + i]?

/-- What the writes to an open file should come to for a frame and a port. -/
structure RoundTrips (file : FILE) (writes : List (UInt32 × PadData)) (frame : UInt32) (port : Nat) : Prop where
  written : ∀ data, lastWritten writes frame port = some data → ∀ slot, ∃ read,
    ((writeAll ⟨some file⟩ writes).readPadData frame port slot).1 = some read ∧ read.SameInput data
  missing : (writeAll ⟨some file⟩ writes).contents.length < recordSeek frame port + 18 →
    ∀ slot, ((writeAll ⟨some file⟩ writes).readPadData frame port slot).1 = none
  kept : ∀ before write after, writes = before ++ write :: after →
    ((writeAll ⟨some file⟩ before).writePadData write.1 write.2).1 = true ∧
      Keeps (writeAll ⟨some file⟩ before).contents (writeAll ⟨some file⟩ (before ++ [write])).contents write.1 write.2.m_port

variable {f : InputRecordingFile} {file : FILE} {writes : List (UInt32 × PadData)} {frame frame' : UInt32} {port port' : Nat}

/-! ## Places -/

theorem header_le_recordSeek : s_headerSize + 1 ≤ recordSeek frame port := by
  rw [recordSeek, getRecordingBlockSeekPoint]
  omega

theorem recordSeek_apart (valid : port < 2) (valid' : port' < 2) (other : (frame', port') ≠ (frame, port)) :
    recordSeek frame' port' + 18 ≤ recordSeek frame port ∨ recordSeek frame port + 18 ≤ recordSeek frame' port' := by
  have different : frame'.toNat ≠ frame.toNat ∨ port' ≠ port := by
    by_contra same
    rw [not_or, not_not, not_not, UInt32.toNat_inj] at same
    exact other (Prod.ext same.1 same.2)
  simp only [recordSeek, getRecordingBlockSeekPoint, s_inputBytesPerFrame, s_controllerInputBytes, s_controllerPortsSupported]
  omega

/-! ## One write -/

theorem writePadData_open (file : FILE) (frame : UInt32) (data : PadData) : ∃ after : FILE,
    (InputRecordingFile.mk (some file)).writePadData frame data = (true, ⟨some after⟩) ∧
      after.contents = puts 0 file.contents (recordSeek frame data.m_port) data.bytes :=
  ⟨_, rfl, FILE.foldl_fwrite _ _⟩

theorem readPadData_open (slot : Nat) : ((InputRecordingFile.mk (some file)).readPadData frame port slot).1 =
    if (slice file.contents (recordSeek frame port) 18).length ≠ 1 then
      some (.ofBytes port slot fun i => (slice file.contents (recordSeek frame port) 18).getD i 0)
    else none := by
  simp only [readPadData, FILE.fread, FILE.fseek]
  exact apply_ite Prod.fst _ _ _

theorem keeps_puts (contents : List UInt8) (data : PadData) (valid : data.m_port < 2) :
    Keeps contents (puts 0 contents (recordSeek frame data.m_port) data.bytes) frame data.m_port where
  header i header inside := by
    have above : s_headerSize + 1 ≤ recordSeek frame data.m_port := header_le_recordSeek
    exact puts_other 0 inside (.inl (by omega))
  records frame' port' valid' other i record inside := by
    refine puts_other 0 inside ?_
    rw [PadData.length_bytes]
    rcases recordSeek_apart valid valid' other with below | above
    · exact .inl (by omega)
    · exact .inr (by omega)

/-! ## Runs -/

theorem writeAll_concat (write : UInt32 × PadData) :
    writeAll f (writes ++ [write]) = ((writeAll f writes).writePadData write.1 write.2).2 := by
  rw [writeAll, List.foldl_append]
  rfl

theorem writtenLength_concat (length : Nat) (write : UInt32 × PadData) : writtenLength length (writes ++ [write]) =
    max (writtenLength length writes) (recordSeek write.1 write.2.m_port + 18) := by
  rw [writtenLength, List.foldl_append]
  rfl

theorem lastWritten_concat (write : UInt32 × PadData) : lastWritten (writes ++ [write]) frame port =
    if write.1 = frame ∧ write.2.m_port = port then some write.2 else lastWritten writes frame port := by
  rw [lastWritten, List.reverse_append, List.reverse_singleton, List.singleton_append, List.find?_cons]
  by_cases here : write.1 = frame ∧ write.2.m_port = port
  · simp [here]
  · simp only [here, decide_false, if_false]
    rfl

theorem writeAll_spec (file : FILE) (valid : ∀ write ∈ writes, write.2.m_port < 2) : ∃ after : FILE,
    writeAll ⟨some file⟩ writes = ⟨some after⟩ ∧ after.contents.length = writtenLength file.contents.length writes ∧
      ∀ frame, ∀ port < 2, ∀ data, lastWritten writes frame port = some data →
        recordSeek frame port + 18 ≤ after.contents.length ∧ slice after.contents (recordSeek frame port) 18 = data.bytes := by
  induction writes using List.reverseRecOn with
  | nil => exact ⟨file, rfl, rfl, fun frame port _ data none => by cases none⟩
  | append_singleton writes write ih =>
      obtain ⟨before, opened, length, holds⟩ := ih fun write member => valid write (List.mem_append_left _ member)
      have valid : write.2.m_port < 2 := valid write (List.mem_append_right _ (List.mem_singleton_self write))
      obtain ⟨after, written, contents⟩ := writePadData_open before write.1 write.2
      have some_bytes : write.2.bytes ≠ [] := List.cons_ne_nil _ _
      have longer : after.contents.length = max before.contents.length (recordSeek write.1 write.2.m_port + 18) := by
        rw [contents, length_puts 0 some_bytes, PadData.length_bytes]
      refine ⟨after, by rw [writeAll_concat, opened, written], by rw [longer, length, writtenLength_concat], ?_⟩
      intro frame port valid' data last
      rw [lastWritten_concat] at last
      split at last
      · rename_i here
        obtain ⟨rfl, rfl⟩ := here
        obtain rfl := Option.some.inj last
        exact ⟨by omega, by rw [contents, ← PadData.length_bytes write.2, slice_puts]⟩
      · rename_i elsewhere
        obtain ⟨inside, same⟩ := holds frame port valid' data last
        have other : (frame, port) ≠ (write.1, write.2.m_port) := by
          rintro ⟨⟩
          exact elsewhere ⟨rfl, rfl⟩
        refine ⟨by omega, ?_⟩
        rw [contents, slice_puts_other 0 inside, same]
        rw [PadData.length_bytes]
        exact recordSeek_apart valid valid' other

/-- A record comes back as it was written last, no other record nor the header is changed, and a record that is not all
there is missed where one byte of it is there. -/
theorem recordRoundTrips_iff (valid : ∀ write ∈ writes, write.2.m_port < 2) (valid' : port < 2) :
    RoundTrips file writes frame port ↔
      recordSeek frame port + 18 ≤ writtenLength file.contents.length writes ∨
        writtenLength file.contents.length writes = recordSeek frame port + 1 := by
  obtain ⟨after, opened, length, holds⟩ := writeAll_spec file valid
  have here : (writeAll ⟨some file⟩ writes).contents = after.contents := by rw [opened]; rfl
  have count : (slice after.contents (recordSeek frame port) 18).length = min 18 (after.contents.length - recordSeek frame port) :=
    length_slice
  rw [← length]
  constructor
  · intro trips
    by_contra partly
    rw [not_or] at partly
    have short : after.contents.length < recordSeek frame port + 18 := Nat.lt_of_not_le partly.1
    have missed := trips.missing (here ▸ short) 0
    rw [opened, readPadData_open, if_pos (by omega)] at missed
    cases missed
  · intro whole
    constructor
    · intro data last slot
      obtain ⟨inside, same⟩ := holds frame port valid' data last
      refine ⟨_, by rw [opened, readPadData_open, if_pos (by omega)], ?_⟩
      rw [same]
      convert data.sameInput_ofBytes port slot using 3 with i
      exact List.getD_eq_getElem _ _ i.isLt
    · intro short slot
      rw [here] at short
      rw [opened, readPadData_open, if_neg (by omega)]
    · rintro before write later rfl
      obtain ⟨middle, opened', -⟩ := writeAll_spec file
        fun write member => valid write (List.mem_append_left _ member)
      obtain ⟨next, written, contents⟩ := writePadData_open middle write.1 write.2
      rw [writeAll_concat, opened', written]
      refine ⟨rfl, ?_⟩
      show Keeps middle.contents next.contents _ _
      rw [contents]
      exact keeps_puts _ _ (valid write (List.mem_append_right _ List.mem_cons_self))

def newRecording : FILE := ⟨List.replicate (s_headerSize + 1) 0, 0⟩

def released : PadData := .make 0 0 0xFF 0xFF (127, 127) (127, 127) fun _ => 0

theorem released_roundTrips : RoundTrips newRecording [(0, released)] 0 0 := by
  have valid : ∀ write ∈ [((0 : UInt32), released)], write.2.m_port < 2 := by decide
  exact (recordRoundTrips_iff valid (by decide)).2 (.inl (by decide +kernel))

/-- The other port of a frame is read although nothing is there. -/
theorem missing_read : ¬∀ (file : FILE) (writes : List (UInt32 × PadData)) (frame : UInt32) (port : Nat),
    (∀ write ∈ writes, write.2.m_port < 2) → port < 2 → RoundTrips file writes frame port := by
  intro all
  have trips := all newRecording [(0, released)] 0 1 (by decide) (by decide)
  have short : (writeAll ⟨some newRecording⟩ [(0, released)]).contents.length < recordSeek 0 1 + 18 := by decide +kernel
  have none : ((writeAll ⟨some newRecording⟩ [(0, released)]).readPadData 0 1 0).1 = none := trips.missing short 0
  exact absurd none (by decide +kernel)

end Pcsx2.Recording
