import Mathlib.Logic.Function.Basic
import Pcsx2.Foundation.Run

/-!
# The audio ring buffer

A reader and a writer share the frames of a ring and two positions in it. Every load and store of a
position and every frame that is copied is a step of its own.
-/

namespace Pcsx2.Audio
open Foundation

def CHUNK_SIZE : Nat := 64

def getAlignedBufferSize (size : Nat) : Nat := (size + (CHUNK_SIZE - 1)) / CHUNK_SIZE * CHUNK_SIZE

/-- `m_buffer_size` and `m_stretch_enabled`. -/
structure Config where
  size : Nat
  positive : 0 < size
  stretch : Bool

/-- Where the reader is in `ReadFrames`. -/
inductive Reading
  | idle
  | counting (num_frames rpos : Nat)
  | counted (frames_to_read : Nat)
  | copying (rpos frames_to_read done : Nat)
  deriving DecidableEq

/-- Where the writer is in `InternalWriteFrames`. After an overrun it remembers whether the discard made
no room for the chunk. -/
inductive Writing (α : Type*)
  | idle
  | counting (data : List α) (rpos : Nat)
  | overrun (data : List α)
  | discarding (data : List α) (rpos : Nat)
  | counted (data : List α) (tight : Bool)
  | copying (data : List α) (tight : Bool) (wpos done : Nat)

structure AudioStream (α : Type*) where
  m_rpos : Nat
  m_wpos : Nat
  m_buffer : Nat → α
  m_filling : Bool
  reading : Reading
  writing : Writing α
  written : List α
  out : List α

inductive Action (α : Type*)
  | readFrames (num_frames : Nat)
  | readCount
  | readPosition
  | readFrame
  | readStore
  | writeFrames (data : List α)
  | writeCount
  | overrunLoad
  | overrunStore
  | writePosition
  | writeFrame
  | writeStore

section

variable {α : Type*} (cfg : Config)

/-! ## Positions -/

def getBufferedFramesRelaxed (rpos wpos : Nat) : Nat := (wpos + cfg.size - rpos) % cfg.size

/-- Where the frame is copied to or from; the copies are split at the end of the buffer. -/
def place (pos done : Nat) : Nat := if done < cfg.size - pos then pos + done else done - (cfg.size - pos)

def afterRead (rpos frames_to_read : Nat) : Nat :=
  let last := min (cfg.size - rpos) frames_to_read
  let rpos := if 0 < last then (if rpos + last = cfg.size then 0 else rpos + last) else rpos
  let first := frames_to_read - last
  if 0 < first then first else rpos

def afterWrite (wpos num_frames : Nat) : Nat :=
  if cfg.size - wpos ≤ num_frames then num_frames - (cfg.size - wpos) else wpos + num_frames

/-- `StretchOverrun` drops two packets. -/
def afterDiscard (rpos : Nat) : Nat := (rpos + CHUNK_SIZE * 2) % cfg.size

/-! ## Steps -/

/-- What `ReadFrames` will copy, and `m_filling` then. -/
def framesToRead (num_frames available_frames : Nat) (m_filling : Bool) : Nat × Bool :=
  let toFill := getAlignedBufferSize (cfg.size / (if cfg.stretch then 32 else 400))
  let (frames_to_read, m_filling) :=
    if m_filling then (if available_frames < toFill then (0, true) else (num_frames, false))
    else (num_frames, false)
  if available_frames < frames_to_read then (available_frames, true) else (frames_to_read, m_filling)

namespace AudioStream

variable (s : AudioStream α)

def buffered : Nat := getBufferedFramesRelaxed cfg s.m_rpos s.m_wpos

def makesRoom (data : List α) : Bool :=
  CHUNK_SIZE * 2 ≤ s.buffered cfg ∧ data.length < cfg.size - s.buffered cfg + CHUNK_SIZE * 2

def step (s : AudioStream α) : Action α → Option (AudioStream α)
  | .readFrames num_frames =>
      match s.reading with
      | .idle => some { s with reading := .counting num_frames s.m_rpos }
      | _ => none
  | .readCount =>
      match s.reading with
      | .counting num_frames rpos =>
          let (frames_to_read, m_filling) :=
            framesToRead cfg num_frames (getBufferedFramesRelaxed cfg rpos s.m_wpos) s.m_filling
          some { s with m_filling, reading := if 0 < frames_to_read then .counted frames_to_read else .idle }
      | _ => none
  | .readPosition =>
      match s.reading with
      | .counted frames_to_read => some { s with reading := .copying s.m_rpos frames_to_read 0 }
      | _ => none
  | .readFrame =>
      match s.reading with
      | .copying rpos frames_to_read done =>
          if done < frames_to_read then
            some { s with
              out := s.out ++ [s.m_buffer (place cfg rpos done)]
              reading := .copying rpos frames_to_read (done + 1) }
          else none
      | _ => none
  | .readStore =>
      match s.reading with
      | .copying rpos frames_to_read done =>
          if done = frames_to_read then
            some { s with m_rpos := afterRead cfg rpos frames_to_read, reading := .idle }
          else none
      | _ => none
  | .writeFrames data =>
      match s.writing with
      | .idle => some { s with writing := .counting data s.m_rpos }
      | _ => none
  | .writeCount =>
      match s.writing with
      | .counting data rpos =>
          let free := cfg.size - getBufferedFramesRelaxed cfg rpos s.m_wpos
          some { s with
            writing :=
              if free ≤ data.length then (if cfg.stretch then .overrun data else .idle)
              else .counted data false }
      | _ => none
  | .overrunLoad =>
      match s.writing with
      | .overrun data => some { s with writing := .discarding data s.m_rpos }
      | _ => none
  | .overrunStore =>
      match s.writing with
      | .discarding data rpos =>
          some { s with m_rpos := afterDiscard cfg rpos, writing := .counted data !s.makesRoom cfg data }
      | _ => none
  | .writePosition =>
      match s.writing with
      | .counted data tight => some { s with writing := .copying data tight s.m_wpos 0 }
      | _ => none
  | .writeFrame =>
      match s.writing with
      | .copying data tight wpos done =>
          match data[done]? with
          | some frame =>
              some { s with
                m_buffer := Function.update s.m_buffer (place cfg wpos done) frame
                written := s.written ++ [frame]
                writing := .copying data tight wpos (done + 1) }
          | none => none
      | _ => none
  | .writeStore =>
      match s.writing with
      | .copying data _ wpos done =>
          if done = data.length then some { s with m_wpos := afterWrite cfg wpos data.length, writing := .idle }
          else none
      | _ => none

/-- A new stream; the buffer is not cleared. -/
def new (m_buffer : Nat → α) : AudioStream α :=
  { m_rpos := 0, m_wpos := 0, m_buffer, m_filling := false, reading := .idle, writing := .idle, written := [], out := [] }

end AudioStream

/-- No chunk is larger than the buffer. -/
def Action.Fits : Action α → Prop
  | .writeFrames data => data.length ≤ cfg.size
  | _ => True

instance (action : Action α) : Decidable (action.Fits cfg) := by
  cases action <;> unfold Action.Fits <;> infer_instance

/-- One of the threads takes a step. -/
def Steps (s t : AudioStream α) : Prop := ∃ action : Action α, action.Fits cfg ∧ s.step cfg action = some t

/-! ## What is wanted -/

structure Safe (s : AudioStream α) : Prop where
  subsequence : s.out.Sublist s.written
  /-- The frames being copied out are not being overwritten. -/
  apart : ∀ rpos frames_to_read done data tight wpos copied,
    s.reading = .copying rpos frames_to_read done → s.writing = .copying data tight wpos copied →
      ∀ i < frames_to_read, ∀ j < data.length, place cfg rpos i ≠ place cfg wpos j
  rpos : s.m_rpos < cfg.size
  wpos : s.m_wpos < cfg.size

def Writing.Tight : Writing α → Prop
  | .counted _ tight => tight = true
  | .copying _ tight _ _ => tight = true
  | _ => False

instance (writing : Writing α) : Decidable writing.Tight := by
  cases writing <;> unfold Writing.Tight <;> infer_instance

/-- `StretchOverrun` stores while no read is going on and the read position is the one it loaded, and does
not leave more frames to be read than there are. Nothing is read while the chunk overwrites frames that
were not discarded. -/
def AudioStream.Clear (s : AudioStream α) : Action α → Prop
  | .overrunStore =>
      match s.writing with
      | .discarding data rpos =>
          s.reading = .idle ∧ s.m_rpos = rpos ∧
            getBufferedFramesRelaxed cfg (afterDiscard cfg rpos) ((s.m_wpos + data.length) % cfg.size) ≤
              s.buffered cfg + data.length
      | _ => True
  | .readFrames _ => ¬ s.writing.Tight
  | _ => True

instance (s : AudioStream α) (action : Action α) : Decidable (s.Clear cfg action) := by
  unfold AudioStream.Clear
  cases action with
  | overrunStore => cases s.writing <;> infer_instance
  | _ => infer_instance

/-- A step that meets the condition. -/
def ClearSteps (s t : AudioStream α) : Prop :=
  ∃ action : Action α, action.Fits cfg ∧ s.Clear cfg action ∧ s.step cfg action = some t

end

end Pcsx2.Audio
