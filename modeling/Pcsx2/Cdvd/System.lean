import Pcsx2.Foundation.Run
import Pcsx2.Cdvd.Reading

/-!
# Synchronous reads and the read thread

One caller of `ReadSync` and the thread of `Loop`. Each step is as much as one of them does without
the other one seeing it.
-/

namespace Pcsx2.Cdvd
open Foundation

structure Response where
  sector : UInt32
  count : UInt32
  /-- What was stored in the caller's buffer, by position. -/
  written : List (Nat × List UInt8)
  amtRead : BitVec 32

/-- Where `Loop` is. -/
inductive Thread where
  | waiting
  | loaded (ptr : Option Nat) (ok : Bool)
  | exchange (ptr : Option Nat) (ok : Bool)
  | getBlockPtr (chunk : Chunk) (buffersFilled : Nat)
  | readChunk (chunk : Chunk) (buffersFilled : Nat)
  | readahead (buf : Fin 2) (buffersFilled : Nat)
  | extend (buf : Fin 2) (chunk : Chunk) (buffersFilled : Nat)
  | finished

/-- Where the caller is: in `TryCachedRead` with the lock held, or in `FinishRead`. -/
inductive Caller where
  | idle
  | tryCachedRead (sector count : UInt32) (pass : Nat) (c : CachedRead)
  | finishRead (sector count : UInt32) (written : List (Nat × List UInt8))

/-- A request pointer is a position in the caller's buffer. `threadOffset` and `threadSize` are the
local copies of `Loop`; it is running unless it waits. -/
structure State where
  reader : Reader
  requestPtr : Option Nat
  requestOffset : Nat
  requestSize : Nat
  amtRead : BitVec 32
  thread : Thread
  threadOffset : Nat
  threadSize : Nat
  caller : Caller
  responses : List Response

def State.initial : State :=
  { reader := .initial, requestPtr := none, requestOffset := 0, requestSize := 0, amtRead := 0,
    thread := .waiting, threadOffset := 0, threadSize := 0, caller := .idle, responses := [] }

def State.respond (s : State) (sector count : UInt32) (written : List (Nat × List UInt8)) : State :=
  { s with caller := .idle, responses := s.responses ++ [⟨sector, count, written, s.amtRead⟩] }

def State.locked (s : State) : Prop := ∃ sector count pass c, s.caller = .tryCachedRead sector count pass c

def State.running (s : State) : Bool := !(s.thread matches .waiting)

/-- The request of `ReadSync`: the rest of the read, or a readahead when nothing is left. -/
def State.request (s : State) (sector count : UInt32) (c : CachedRead) (reader : Reader)
    (bytes : List UInt8) (ok : Bool) : State :=
  let written := [(0, c.written), (c.written.length, bytes)]
  let amtRead := if ok then s.amtRead + .ofNat 32 bytes.length else s.amtRead
  let offset := if ok then c.offset + c.size else c.offset
  let size := if ok then 0 else c.size
  if size = 0 then
    { s with
      reader, amtRead, requestPtr := none, requestSize := 1,
      requestOffset := (offset + (2 ^ 64 - 1)) % 2 ^ 64 }.respond sector count written
  else
    { s with
      reader, amtRead, requestPtr := some c.written.length, requestSize := size,
      requestOffset := offset, caller := .finishRead sector count written }

/-- `ReadSync` after `TryCachedRead`, up to `FinishRead`. -/
def State.readSync (image : Image) (s : State) (sector count : UInt32) (c : CachedRead) : State :=
  let s := { s with amtRead := .ofNat 32 c.written.length }
  if c.allDone then s.respond sector count [(0, c.written)]
  else if 0 < c.size ∧ s.running = false then
    let (reader, bytes, ok) := s.reader.decompress image c.offset c.size
    s.request sector count c reader bytes ok
  else s.request sector count c s.reader [] false

/-- `Decompress` in `Loop`, into the buffer of the caller that waits for it. -/
def State.serve (image : Image) (s : State) (ptr : Nat) : State :=
  let (reader, bytes, ok) := s.reader.decompress image s.threadOffset s.threadSize
  { s with
    reader, thread := .exchange (some ptr) ok
    amtRead := if ok then s.amtRead + .ofNat 32 bytes.length else s.amtRead
    caller := match s.caller with
      | .finishRead sector count written => .finishRead sector count (written ++ [(ptr, bytes)])
      | caller => caller }

def State.load (s : State) (ok : Bool) : State :=
  { s with
    thread := .loaded s.requestPtr ok, threadOffset := s.requestOffset, threadSize := s.requestSize }

def State.exchange (image : Image) (s : State) (ok : Bool) : State :=
  let chunk := image.chunkForOffset ((s.threadOffset + s.threadSize) % 2 ^ 64)
  { s with
    requestPtr := none
    thread := if ok ∧ 0 ≤ chunk.chunkID then .getBlockPtr chunk 0 else .finished }

def State.fill (image : Image) (s : State) (chunk : Chunk) (buffersFilled : Nat) : State :=
  match s.reader.fill image chunk with
  | (reader, some i) => { s with reader, thread := .readahead i buffersFilled }
  | (reader, none) => { s with reader, thread := .finished }

/-- One round of the readahead, up to `ReadChunk`. -/
def State.readahead (image : Image) (s : State) (i : Fin 2) (buffersFilled : Nat) : State :=
  let buf := s.reader.buffer i
  let bufsize := buf.data.length
  let chunk := image.chunkForOffset (buf.offset + bufsize)
  if s.requestPtr.isSome ∨ chunk.chunkID < 0 then { s with thread := .finished }
  else if buf.offset + bufsize ≠ chunk.offset ∨ buf.cap < chunk.length + bufsize then
    if 2 ≤ buffersFilled + 1 then { s with thread := .finished }
    else { s with thread := .getBlockPtr chunk (buffersFilled + 1) }
  else { s with thread := .extend i chunk buffersFilled }

def State.extend (image : Image) (s : State) (i : Fin 2) (chunk : Chunk) (buffersFilled : Nat) :
    State :=
  let read := image.readChunk chunk.chunkID
  let buf := s.reader.buffer i
  if read.1 ≤ 0 then { s with thread := .finished }
  else
    let longer := { buf with data := buf.data ++ read.2 }
    { s with
      reader := { s.reader with buffer := Function.update s.reader.buffer i longer }
      thread := .readahead i buffersFilled }

def State.finish (s : State) : State :=
  { s with
    thread := .waiting
    requestSize := if s.threadSize = s.requestSize ∧ s.threadOffset = s.requestOffset ∧
      s.requestPtr = none then 0 else s.requestSize }

section

variable (image : Image) (blocksize dataoffset : Nat)

def start (sector : UInt32) : Nat := sector.toNat * blocksize + dataoffset

def requestedSize (count : UInt32) : Nat := count.toNat * blocksize % 2 ^ 32

inductive Event where
  | readSync (sector count : UInt32)
  /-- What `ReadSync` does after `TryCachedRead`. -/
  | tried
  /-- `Decompress` in `Loop`. -/
  | serve
  | silent

inductive Step : Event → State → State → Prop
  | readSync {s} (sector count) (idle : s.caller = .idle) :
      Step (.readSync sector count) s { s with
        caller := .tryCachedRead sector count 0
          ⟨start blocksize dataoffset sector, requestedSize blocksize count, [], 0, false⟩ }
  | pass {s sector count pass c} (atPass : s.caller = .tryCachedRead sector count pass c)
      (more : pass < 4) :
      Step .silent s { s with
        caller := .tryCachedRead sector count (pass + 1) (c.step (s.reader.buffer (.ofNat 2 pass))) }
  | tried {s sector count c} (passed : s.caller = .tryCachedRead sector count 4 c) :
      Step .tried s (s.readSync image sector count c)
  | finishRead {s sector count written} (atEnd : s.caller = .finishRead sector count written)
      (done : s.requestPtr = none) :
      Step .silent s (s.respond sector count written)
  | take {s} (waiting : s.thread = .waiting) (work : s.requestSize ≠ 0) (free : ¬s.locked) :
      Step .silent s (s.load true)
  | serve {s ptr ok} (loaded : s.thread = .loaded (some ptr) ok) :
      Step .serve s (s.serve image ptr)
  | skip {s ok} (loaded : s.thread = .loaded none ok) :
      Step .silent s { s with thread := .exchange none ok }
  | exchange {s ptr ok} (atExchange : s.thread = .exchange ptr ok) (same : s.requestPtr = ptr) :
      Step .silent s (s.exchange image ok)
  | retry {s ptr ok} (atExchange : s.thread = .exchange ptr ok) (other : s.requestPtr ≠ ptr)
      (free : ¬s.locked) :
      Step .silent s (s.load ok)
  | find {s chunk filled i} (atBlock : s.thread = .getBlockPtr chunk filled)
      (found : s.reader.find chunk = some i) :
      Step .silent s { s with
        reader := { s.reader with nextBuffer := i + 1 }, thread := .readahead i filled }
  | evict {s chunk filled} (atBlock : s.thread = .getBlockPtr chunk filled)
      (missing : s.reader.find chunk = none) (free : ¬s.locked) :
      Step .silent s { s with reader := s.reader.evict chunk, thread := .readChunk chunk filled }
  | fill {s chunk filled} (atRead : s.thread = .readChunk chunk filled) :
      Step .silent s (s.fill image chunk filled)
  | readahead {s i filled} (atRound : s.thread = .readahead i filled) :
      Step .silent s (s.readahead image i filled)
  | extend {s i chunk filled} (atRead : s.thread = .extend i chunk filled) :
      Step .silent s (s.extend image i chunk filled)
  | finish {s} (finished : s.thread = .finished) (free : ¬s.locked) :
      Step .silent s s.finish

/-- What a request is to deliver. -/
structure Transparent (r : Response) : Prop where
  bytes : ∀ w ∈ r.written, ∀ i (bound : i < w.2.length),
    start blocksize dataoffset r.sector + w.1 + i < image.totalSize ∧
    w.2[i] = image.byte (start blocksize dataoffset r.sector + w.1 + i)
  amount : start blocksize dataoffset r.sector + r.count.toNat * blocksize ≤ image.totalSize →
    r.amtRead.toInt = r.count.toNat * blocksize ∧
    ∀ p < r.count.toNat * blocksize, ∃ w ∈ r.written, w.1 ≤ p ∧ p < w.1 + w.2.length
  outside : image.totalSize ≤ start blocksize dataoffset r.sector → ∀ w ∈ r.written, w.2 = []

/-- No read is as long as 2^31 bytes, and none runs into data behind the image. -/
def Fits (sector count : UInt32) : Prop :=
  (start blocksize dataoffset sector + count.toNat * blocksize ≤ image.totalSize →
    count.toNat * blocksize < 2 ^ 31) ∧
  Contained image (start blocksize dataoffset sector) (requestedSize blocksize count)

/-- Where the request leaves the image, its 32-bit offset is behind what a buffer that starts at
offset zero has. -/
def Clear (r : Reader) (off size : Nat) : Prop :=
  off + size ≤ image.totalSize ∨ max off image.totalSize < 2 ^ 32 ∨
  (image.totalSize ≤ off ∨ size < 2 ^ 31) ∧ ∀ i, (r.buffer i).offset = 0 →
    (r.buffer i).data.length ≤ max off image.totalSize % 2 ^ 32

def Orderly (s : State) : Event → Prop
  | .readSync sector count => Fits image blocksize dataoffset sector count
  | .tried => ∀ sector count c, s.caller = .tryCachedRead sector count 4 c → c.allDone = false →
      0 < c.size → s.running = false → Clear image s.reader c.offset c.size
  | .serve => Clear image s.reader s.threadOffset s.threadSize
  | .silent => True

def AnyStep (s t : State) : Prop := ∃ event, Step image blocksize dataoffset event s t

def OrderlyStep (s t : State) : Prop :=
  ∃ event, Orderly image blocksize dataoffset s event ∧ Step image blocksize dataoffset event s t

end

end Pcsx2.Cdvd
