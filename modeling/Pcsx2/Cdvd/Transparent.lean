import Pcsx2.Cdvd.ThreadedFileReader
import Pcsx2.Cdvd.System

/-!
# What requests deliver

Every block that is stored for a request is a part of the image, and a request inside the image gets
all of it. The invariant follows one request from `TryCachedRead` to `FinishRead`.
-/

namespace Pcsx2.Cdvd
open Foundation

section

variable (image : Image) (blocksize dataoffset : Nat)

def Good (sector : UInt32) (written : List (Nat × List UInt8)) : Prop :=
  ∀ w ∈ written, image.Agrees (start blocksize dataoffset sector + w.1) w.2 ∧
    (w.2 ≠ [] → start blocksize dataoffset sector + w.1 + w.2.length ≤ image.totalSize)

def Covered (written : List (Nat × List UInt8)) (n : Nat) : Prop :=
  ∀ p < n, ∃ w ∈ written, w.1 ≤ p ∧ p < w.1 + w.2.length

def Complete (sector count : UInt32) (written : List (Nat × List UInt8)) (amt : BitVec 32) : Prop :=
  start blocksize dataoffset sector + count.toNat * blocksize ≤ image.totalSize →
    amt.toInt = count.toNat * blocksize ∧ Covered written (count.toNat * blocksize)

end

variable {reader : Reader} {ok : Bool} {bytes : List UInt8}

section

variable {image : Image} {blocksize dataoffset : Nat} {sector count : UInt32}
  {written : List (Nat × List UInt8)}

theorem covered_append (bytes : List UInt8) {ptr : Nat} (covered : Covered written ptr) :
    Covered (written ++ [(ptr, bytes)]) (ptr + bytes.length) := by
  intro p bound
  rcases Nat.lt_or_ge p ptr with early | late
  · obtain ⟨w, mem, within⟩ := covered p early
    exact ⟨w, List.mem_append_left _ mem, within⟩
  · exact ⟨(ptr, bytes), by simp, late, bound⟩

theorem toInt_ofNat {n : Nat} (small : n < 2 ^ 31) : (BitVec.ofNat 32 n).toInt = n := by
  rw [BitVec.toInt_eq_toNat_of_lt, BitVec.toNat_ofNat, Nat.mod_eq_of_lt (by omega)]
  rw [BitVec.toNat_ofNat, Nat.mod_eq_of_lt (by omega)]
  omega

theorem Fits.size (fits : Fits image blocksize dataoffset sector count)
    (inside : start blocksize dataoffset sector + count.toNat * blocksize ≤ image.totalSize) :
    requestedSize blocksize count = count.toNat * blocksize ∧ count.toNat * blocksize < 2 ^ 31 := by
  have small := fits.1 inside
  exact ⟨Nat.mod_eq_of_lt (by omega), small⟩

theorem transparent_of (good : Good image blocksize dataoffset sector written) {amt : BitVec 32}
    (complete : Complete image blocksize dataoffset sector count written amt) :
    Transparent image blocksize dataoffset ⟨sector, count, written, amt⟩ := by
  refine ⟨fun w mem i bound => ?_, complete, fun outside w mem => ?_⟩
  · obtain ⟨agrees, inside⟩ := good w mem
    have := inside (by rintro none; simp [none] at bound)
    exact ⟨by dsimp only; omega, agrees i bound (by omega)⟩
  · by_contra some
    have := (good w mem).2 some
    have := List.length_pos_of_ne_nil some
    dsimp only at outside
    omega

theorem delivered {ptr rest : Nat}
    (fits : Fits image blocksize dataoffset sector count)
    (good : Good image blocksize dataoffset sector written) (covered : Covered written ptr)
    (size : rest + ptr = requestedSize blocksize count)
    (done : Decompressed image (start blocksize dataoffset sector + ptr) rest (reader, bytes, ok)) :
    Good image blocksize dataoffset sector (written ++ [(ptr, bytes)]) ∧
    Complete image blocksize dataoffset sector count (written ++ [(ptr, bytes)])
      (if ok then BitVec.ofNat 32 ptr + .ofNat 32 bytes.length else .ofNat 32 ptr) := by
  constructor
  · intro w mem
    rcases List.mem_append.mp mem with old | new
    · exact good w old
    · rw [List.mem_singleton.mp new]
      exact ⟨done.agrees, done.inside⟩
  · intro inside
    obtain ⟨whole, small⟩ := fits.size inside
    have yes := done.ok (by omega)
    have all := done.all yes
    dsimp only at yes all
    have total : ptr + bytes.length = count.toNat * blocksize := by omega
    rw [if_pos yes, ← BitVec.ofNat_add, ← total]
    exact ⟨by rw [toInt_ofNat (by omega)]; push_cast at total ⊢; omega, covered_append _ covered⟩

theorem sealed_of_clear {r : Reader} {off size : Nat} (valid : r.Valid image)
    (contained : Contained image off size) (clear : Clear image r off size) :
    off + size ≤ image.totalSize ∨ Sealed image r off := by
  by_cases inside : off + size ≤ image.totalSize
  · exact Or.inl inside
  have dataEnd := contained.resolve_left inside
  refine Or.inr ⟨dataEnd, ?_, fun i zero => ?_⟩
  · rcases clear.resolve_left inside with narrow | ⟨far, -⟩ <;> omega
  · rcases clear.resolve_left inside with narrow | ⟨-, short⟩
    · by_cases none : (r.buffer i).data = []
      · rw [none]
        exact Nat.zero_le _
      · have := (valid i).dataEnd none
        rw [Nat.mod_eq_of_lt narrow]
        omega
    · exact short i zero

theorem Contained.rest {off size rest ptr : Nat} (contained : Contained image off size)
    (split : rest + ptr = size) (reached : ptr = 0 ∨ off + ptr ≤ image.totalSize) :
    Contained image (off + ptr) rest := by
  unfold Contained at *
  omega

end

/-! ## The invariant -/

/-- `Loop` has served the request but not yet taken it back. -/
def Thread.served : Thread → Bool
  | .exchange (some _) _ => true
  | _ => false

def Chunk.Inside (image : Image) (chunk : Chunk) : Prop :=
  ∃ off < image.totalSize, chunk = image.chunkForOffset off

structure Extends (image : Image) (buf : Buffer) (chunk : Chunk) : Prop where
  inside : chunk.Inside image
  offset : buf.offset + buf.data.length = chunk.offset
  room : chunk.length + buf.data.length ≤ buf.cap

/-- What `Loop` relies on between two of its steps. -/
def ThreadOk (image : Image) (s : State) : Prop :=
  match s.thread with
  | .loaded (some ptr) _ => s.requestPtr = some ptr ∧ s.threadOffset = s.requestOffset ∧
      s.threadSize = s.requestSize
  | .exchange (some ptr) _ => s.requestPtr = some ptr
  | .getBlockPtr chunk _ => chunk.Inside image
  | .readChunk chunk _ =>
      chunk.Inside image ∧ chunk.length ≤ (s.reader.buffer s.reader.nextBuffer).cap
  | .extend i chunk _ => Extends image (s.reader.buffer i) chunk
  | _ => True

section

variable (image : Image) (blocksize dataoffset : Nat)

structure Pending (s : State) (sector count : UInt32) (written : List (Nat × List UInt8)) (ptr : Nat) :
    Prop where
  requested : s.requestPtr = some ptr
  unserved : s.thread.served = false
  offset : s.requestOffset = start blocksize dataoffset sector + ptr
  size : s.requestSize + ptr = requestedSize blocksize count
  amtRead : s.amtRead = .ofNat 32 ptr
  covered : Covered written ptr
  reached : ptr = 0 ∨ start blocksize dataoffset sector + ptr ≤ image.totalSize

def CallerOk (s : State) : Prop :=
  match s.caller with
  | .idle => s.requestPtr = none
  | .tryCachedRead sector count _ c => s.requestPtr = none ∧
      Fits image blocksize dataoffset sector count ∧
      Cached image (start blocksize dataoffset sector) (requestedSize blocksize count) c
  | .finishRead sector count written =>
      Fits image blocksize dataoffset sector count ∧
      Good image blocksize dataoffset sector written ∧
      ((s.requestPtr = none ∨ s.thread.served = true) ∧
        Complete image blocksize dataoffset sector count written s.amtRead ∨
      ∃ ptr, Pending image blocksize dataoffset s sector count written ptr)

structure Inv (s : State) : Prop where
  valid : s.reader.Valid image
  thread : ThreadOk image s
  caller : CallerOk image blocksize dataoffset s
  responses : ∀ r ∈ s.responses, Transparent image blocksize dataoffset r

end

variable {c : CachedRead}

section

variable {image : Image} {blocksize dataoffset : Nat} {s : State}

theorem CallerOk.frame {t : State} (ok : CallerOk image blocksize dataoffset s)
    (unserved : s.thread.served = false) (still : t.thread.served = false)
    (caller : t.caller = s.caller) (ptr : t.requestPtr = s.requestPtr)
    (offset : t.requestOffset = s.requestOffset)
    (size : s.requestPtr ≠ none → t.requestSize = s.requestSize) (amtRead : t.amtRead = s.amtRead) :
    CallerOk image blocksize dataoffset t := by
  unfold CallerOk at *
  rw [caller, ptr, amtRead]
  cases atCaller : s.caller with
  | idle => simpa only [atCaller] using ok
  | tryCachedRead sector count pass c => simpa only [atCaller] using ok
  | finishRead sector count written =>
      simp only [atCaller] at ok
      obtain ⟨fits, good, ⟨ended, complete⟩ | ⟨start, pending⟩⟩ := ok
      · rw [unserved] at ended
        exact ⟨fits, good, Or.inl ⟨Or.inl (ended.resolve_right Bool.false_ne_true), complete⟩⟩
      · have requested := pending.requested
        have := size (by rw [requested]; simp)
        exact ⟨fits, good, Or.inr ⟨start, ptr.trans requested, still, offset.trans pending.offset,
          this ▸ pending.size, amtRead.trans pending.amtRead, pending.covered, pending.reached⟩⟩

theorem Inv.silent {thread : Thread} (inv : Inv image blocksize dataoffset s)
    (valid : reader.Valid image) (unserved : s.thread.served = false)
    (still : thread.served = false) (ok : ThreadOk image { s with reader, thread }) :
    Inv image blocksize dataoffset { s with reader, thread } :=
  ⟨valid, ok, inv.caller.frame unserved still rfl rfl rfl (fun _ => rfl) rfl, inv.responses⟩

theorem Inv.load (inv : Inv image blocksize dataoffset s) (unserved : s.thread.served = false)
    (ok : Bool) : Inv image blocksize dataoffset (s.load ok) := by
  refine ⟨inv.valid, ?_, inv.caller.frame unserved rfl rfl rfl rfl (fun _ => rfl) rfl, inv.responses⟩
  unfold ThreadOk State.load
  cases requested : s.requestPtr with
  | none => trivial
  | some ptr => exact ⟨rfl, rfl, rfl⟩

/-! ## The steps of the caller -/

theorem threadOk_request {s t : State} (ok : ThreadOk image s) (none : s.requestPtr = none)
    (reader : t.reader = s.reader) (thread : t.thread = s.thread) : ThreadOk image t := by
  unfold ThreadOk at *
  rw [thread, reader]
  cases atThread : s.thread with
  | waiting => trivial
  | loaded ptr =>
      cases ptr with
      | none => trivial
      | some ptr =>
          rw [atThread] at ok
          exact absurd (none.symm.trans ok.1) (by simp)
  | exchange ptr =>
      cases ptr with
      | none => trivial
      | some ptr =>
          rw [atThread] at ok
          exact absurd (none.symm.trans ok) (by simp)
  | getBlockPtr => simpa only [atThread] using ok
  | readChunk => simpa only [atThread] using ok
  | readahead => trivial
  | extend => simpa only [atThread] using ok
  | finished => trivial

theorem Inv.idle {written : List (Nat × List UInt8)} {sector count : UInt32} {t : State}
    (inv : Inv image blocksize dataoffset s) (none : t.requestPtr = none)
    (reader : t.reader.Valid image) (thread : ThreadOk image t)
    (responses : t.responses = s.responses)
    (good : Good image blocksize dataoffset sector written)
    (complete : Complete image blocksize dataoffset sector count written t.amtRead) :
    Inv image blocksize dataoffset (t.respond sector count written) := by
  refine ⟨reader, thread, none, fun r mem => ?_⟩
  rcases List.mem_append.mp mem with old | new
  · exact inv.responses r (responses ▸ old)
  · rw [List.mem_singleton.mp new]
    exact transparent_of good complete

theorem good_cached {sector : UInt32} {size : Nat}
    (cached : Cached image (start blocksize dataoffset sector) size c) :
    Good image blocksize dataoffset sector [(0, c.written)] := by
  intro w mem
  rw [List.mem_singleton.mp mem]
  exact ⟨cached.agrees, cached.inside⟩

theorem covered_cached (c : CachedRead) : Covered [(0, c.written)] c.written.length := by
  intro p bound
  exact ⟨(0, c.written), by simp, Nat.zero_le p, by simpa using bound⟩

theorem complete_cached {sector count : UInt32} {written : List (Nat × List UInt8)}
    (fits : Fits image blocksize dataoffset sector count)
    (cached : Cached image (start blocksize dataoffset sector) (requestedSize blocksize count) c)
    (zero : c.size = 0) (covered : Covered written c.written.length) :
    Complete image blocksize dataoffset sector count written (.ofNat 32 c.written.length) := by
  intro inside
  obtain ⟨whole, small⟩ := fits.size inside
  have all := cached.size
  rw [zero, Nat.zero_add, whole] at all
  rw [all] at covered ⊢
  exact ⟨by rw [toInt_ofNat small]; push_cast; rfl, covered⟩

theorem Inv.request {sector count : UInt32}
    (inv : Inv image blocksize dataoffset s)
    (fits : Fits image blocksize dataoffset sector count)
    (cached : Cached image (start blocksize dataoffset sector) (requestedSize blocksize count) c)
    (amtRead : s.amtRead = .ofNat 32 c.written.length) (valid : reader.Valid image)
    (thread : ∀ t : State, t.thread = s.thread → t.reader = reader → ThreadOk image t)
    (unserved : s.thread.served = false)
    (good : Good image blocksize dataoffset sector [(0, c.written), (c.written.length, bytes)])
    (complete : ok = true ∨ c.size = 0 → Complete image blocksize dataoffset sector count
      [(0, c.written), (c.written.length, bytes)]
      (if ok then s.amtRead + .ofNat 32 bytes.length else s.amtRead)) :
    Inv image blocksize dataoffset (s.request sector count c reader bytes ok) := by
  unfold State.request
  dsimp only
  cases ok with
  | true =>
      simp only [if_true]
      exact inv.idle rfl valid (thread _ rfl rfl) rfl good (complete (Or.inl rfl))
  | false =>
      simp only [Bool.false_eq_true, if_false] at complete ⊢
      split
      · rename_i zero
        exact inv.idle rfl valid (thread _ rfl rfl) rfl good (complete (Or.inr zero))
      · refine ⟨valid, thread _ rfl rfl, ⟨fits, good, Or.inr ⟨c.written.length, rfl, unserved,
          cached.offset, cached.size, amtRead, ?_, ?_⟩⟩, inv.responses⟩
        · intro p bound
          exact ⟨(0, c.written), by simp, Nat.zero_le p, by simpa using bound⟩
        · by_cases empty : c.written = []
          · exact Or.inl (by rw [empty]; rfl)
          · exact Or.inr (cached.inside empty)

theorem Inv.readSync {sector count : UInt32}
    (inv : Inv image blocksize dataoffset s) (passed : s.caller = .tryCachedRead sector count 4 c)
    (clear : c.allDone = false → 0 < c.size → s.running = false →
      Clear image s.reader c.offset c.size) :
    Inv image blocksize dataoffset (s.readSync image sector count c) := by
  have caller := inv.caller
  simp only [CallerOk, passed] at caller
  obtain ⟨none, fits, cached⟩ := caller
  have reached : c.written.length = 0 ∨
      start blocksize dataoffset sector + c.written.length ≤ image.totalSize := by
    by_cases empty : c.written = []
    · exact Or.inl (by rw [empty]; rfl)
    · exact Or.inr (cached.inside empty)
  have unserved : s.thread.served = false := by
    have ok := inv.thread
    unfold ThreadOk at ok
    unfold Thread.served
    split
    · rename_i atThread
      rw [atThread] at ok
      exact absurd (none.symm.trans ok) (by simp)
    · rfl
  have inv' : Inv image blocksize dataoffset { s with amtRead := .ofNat 32 c.written.length } := by
    refine ⟨inv.valid, inv.thread, ?_, inv.responses⟩
    unfold CallerOk
    rw [passed]
    exact ⟨none, fits, cached⟩
  have still (t : State) (atThread : t.thread = s.thread) (reader : t.reader = s.reader) :=
    threadOk_request inv.thread none reader atThread
  unfold State.readSync
  dsimp only
  split
  · rename_i all
    exact inv'.idle none inv.valid inv.thread rfl (good_cached cached)
      (complete_cached fits cached (cached.allDone all) (covered_cached c))
  rename_i part
  split
  · rename_i direct
    have free := sealed_of_clear inv.valid (cached.offset ▸ fits.2.rest cached.size reached)
      (clear (by simpa using part) direct.1 direct.2)
    have done := decompress_spec inv.valid free
    have waiting : s.thread = .waiting := by
      have stopped := direct.2
      unfold State.running at stopped
      split at stopped <;> simp_all
    generalize s.reader.decompress image c.offset c.size = result at done
    obtain ⟨reader, bytes, ok⟩ := result
    obtain ⟨good, complete⟩ := delivered fits (good_cached cached) (covered_cached c) cached.size
      (cached.offset ▸ done)
    refine inv'.request fits cached rfl done.valid ?_ unserved good fun _ => complete
    intro t atThread _
    unfold ThreadOk
    rw [atThread]
    dsimp only
    rw [waiting]
    trivial
  · refine inv'.request fits cached rfl inv.valid still unserved ?_ fun zero => ?_
    · intro w mem
      rcases List.mem_cons.mp mem with first | second
      · exact good_cached cached w (List.mem_singleton.mpr first)
      · rw [List.mem_singleton.mp second]
        exact ⟨agrees_nil, fun none => absurd rfl none⟩
    · exact complete_cached fits cached (zero.resolve_left Bool.false_ne_true)
        (covered_append [] (covered_cached c))

theorem Inv.pass {sector count : UInt32} {pass next : Nat} {i : Fin 2}
    (inv : Inv image blocksize dataoffset s)
    (atPass : s.caller = .tryCachedRead sector count pass c) :
    Inv image blocksize dataoffset { s with
      caller := .tryCachedRead sector count next (c.step (s.reader.buffer i)) } := by
  have caller := inv.caller
  simp only [CallerOk, atPass] at caller
  obtain ⟨none, fits, cached⟩ := caller
  exact ⟨inv.valid, inv.thread, ⟨none, fits, cached.step (inv.valid i) fits.2⟩, inv.responses⟩

/-! ## The steps of the read thread -/

theorem Inv.requested {ptr : Nat} (inv : Inv image blocksize dataoffset s)
    (requested : s.requestPtr = some ptr) :
    ∃ sector count written, s.caller = .finishRead sector count written := by
  have caller := inv.caller
  unfold CallerOk at caller
  split at caller
  · exact absurd (requested.symm.trans caller) (by simp)
  · exact absurd (requested.symm.trans caller.1) (by simp)
  · rename_i sector count written atCaller
    exact ⟨sector, count, written, atCaller⟩

theorem Inv.serve {ptr : Nat} (inv : Inv image blocksize dataoffset s)
    (loaded : s.thread = .loaded (some ptr) ok)
    (clear : Clear image s.reader s.threadOffset s.threadSize) :
    Inv image blocksize dataoffset (s.serve image ptr) := by
  have taken := inv.thread
  simp only [ThreadOk, loaded] at taken
  obtain ⟨requested, offset, size⟩ := taken
  obtain ⟨sector, count, written, atCaller⟩ := inv.requested requested
  have caller := inv.caller
  simp only [CallerOk, atCaller] at caller
  obtain ⟨fits, good, ⟨ended, -⟩ | ⟨from', pending⟩⟩ := caller
  · simp [requested, loaded, Thread.served] at ended
  have same : from' = ptr := Option.some.inj (pending.requested.symm.trans requested)
  subst same
  rw [offset, size, pending.offset] at clear
  have free := sealed_of_clear inv.valid (fits.2.rest pending.size pending.reached) clear
  have done := decompress_spec inv.valid free
  unfold State.serve
  rw [offset, size, pending.offset]
  generalize s.reader.decompress image _ _ = result at done
  obtain ⟨reader, bytes, ok'⟩ := result
  obtain ⟨good', complete⟩ := delivered fits good pending.covered pending.size done
  dsimp only
  refine ⟨done.valid, requested, ?_, inv.responses⟩
  unfold CallerOk
  rw [atCaller]
  refine ⟨fits, good', Or.inl ⟨Or.inr rfl, ?_⟩⟩
  rw [pending.amtRead]
  exact complete

theorem Inv.exchange {ptr : Option Nat} (inv : Inv image blocksize dataoffset s)
    (atExchange : s.thread = .exchange ptr ok) (same : s.requestPtr = ptr) :
    Inv image blocksize dataoffset (s.exchange image ok) := by
  refine ⟨inv.valid, ?_, ?_, inv.responses⟩
  · unfold ThreadOk State.exchange
    dsimp only
    split_ifs with next
    · refine ⟨_, ?_, rfl⟩
      by_contra outside
      rw [image.outside _ (Nat.le_of_not_lt outside)] at next
      exact absurd next.2 (by decide)
    · trivial
  · have caller := inv.caller
    unfold CallerOk at *
    change match s.caller with | .idle => _ | .tryCachedRead .. => _ | .finishRead .. => _
    cases atCaller : s.caller with
    | idle => rfl
    | tryCachedRead sector count pass c =>
        simp only [atCaller] at caller
        exact ⟨rfl, caller.2⟩
    | finishRead sector count written =>
        simp only [atCaller] at caller
        obtain ⟨fits, good, ⟨-, complete⟩ | ⟨from', pending⟩⟩ := caller
        · exact ⟨fits, good, Or.inl ⟨Or.inl rfl, complete⟩⟩
        · have unserved := pending.unserved
          rw [atExchange, ← same, pending.requested] at unserved
          exact absurd unserved (by simp [Thread.served])

variable {filled : Nat} {chunk : Chunk}

theorem Inv.find {i next : Fin 2}
    (inv : Inv image blocksize dataoffset s) (atBlock : s.thread = .getBlockPtr chunk filled) :
    Inv image blocksize dataoffset { s with
      reader := { s.reader with nextBuffer := next }, thread := .readahead i filled } :=
  inv.silent inv.valid (by rw [atBlock]; rfl) rfl trivial

theorem Inv.evict (inv : Inv image blocksize dataoffset s)
    (atBlock : s.thread = .getBlockPtr chunk filled) :
    Inv image blocksize dataoffset { s with
      reader := s.reader.evict chunk, thread := .readChunk chunk filled } := by
  have ok := inv.thread
  simp only [ThreadOk, atBlock] at ok
  obtain ⟨off, inside, rfl⟩ := ok
  exact inv.silent (inv.valid.evict (image.inside off inside).2.2.2) (by rw [atBlock]; rfl) rfl
    ⟨⟨off, inside, rfl⟩, evict_room _ _⟩

theorem Inv.fill (inv : Inv image blocksize dataoffset s)
    (atRead : s.thread = .readChunk chunk filled) :
    Inv image blocksize dataoffset (s.fill image chunk filled) := by
  have ok := inv.thread
  simp only [ThreadOk, atRead] at ok
  obtain ⟨⟨off, inside, rfl⟩, room⟩ := ok
  obtain ⟨buf, new, -, -, read⟩ := fill_inside inside inv.valid room
  unfold State.fill
  rw [read]
  exact inv.silent (inv.valid.update new) (by rw [atRead]; rfl) rfl trivial

theorem Inv.readahead {i : Fin 2} (inv : Inv image blocksize dataoffset s)
    (atRound : s.thread = .readahead i filled) :
    Inv image blocksize dataoffset (s.readahead image i filled) := by
  have unserved : s.thread.served = false := by rw [atRound]; rfl
  have chunk_inside (off : Nat) (there : ¬(image.chunkForOffset off).chunkID < 0) :
      (image.chunkForOffset off).Inside image := by
    refine ⟨off, ?_, rfl⟩
    by_contra outside
    rw [image.outside _ (Nat.le_of_not_lt outside)] at there
    exact there (by decide)
  unfold State.readahead
  dsimp only
  split_ifs with stop other full
  · exact inv.silent inv.valid unserved rfl trivial
  · exact inv.silent inv.valid unserved rfl trivial
  · exact inv.silent inv.valid unserved rfl (chunk_inside _ fun no => stop (Or.inr no))
  · refine inv.silent inv.valid unserved rfl ⟨chunk_inside _ fun no => stop (Or.inr no), ?_, ?_⟩
    · dsimp only
      omega
    · dsimp only
      omega

theorem Inv.extend {i : Fin 2}
    (inv : Inv image blocksize dataoffset s) (atRead : s.thread = .extend i chunk filled) :
    Inv image blocksize dataoffset (s.extend image i chunk filled) := by
  have unserved : s.thread.served = false := by rw [atRead]; rfl
  have ok := inv.thread
  simp only [ThreadOk, atRead] at ok
  obtain ⟨⟨off, inside, rfl⟩, next, room⟩ := ok
  obtain ⟨data, read, agrees, short, -, dataEnd, -⟩ := readChunk_inside inside
  unfold State.extend
  dsimp only
  split
  · exact inv.silent inv.valid unserved rfl trivial
  refine inv.silent (fun j => ?_) unserved rfl trivial
  change (Function.update s.reader.buffer i _ j).Valid image
  by_cases same : j = i
  · rw [same, Function.update_self, read]
    have old := inv.valid i
    rw [← next] at agrees dataEnd
    refine ⟨agrees_append old.agrees agrees, fun _ => ?_, ?_, old.cap⟩
    · rw [List.length_append, ← Nat.add_assoc]
      exact dataEnd
    · rw [List.length_append]
      dsimp only
      omega
  · rw [Function.update_of_ne same]
    exact inv.valid j

theorem Inv.finish (inv : Inv image blocksize dataoffset s) (finished : s.thread = .finished) :
    Inv image blocksize dataoffset s.finish := by
  refine ⟨inv.valid, trivial, inv.caller.frame (by rw [finished]; rfl) rfl rfl rfl rfl ?_ rfl,
    inv.responses⟩
  intro requested
  simp only [State.finish, requested, and_false, if_false]

theorem inv_initial : Inv image blocksize dataoffset .initial :=
  ⟨valid_initial, trivial, rfl, fun _ mem => absurd mem (by simp [State.initial])⟩

theorem inv_step {t : State} {event : Event} (inv : Inv image blocksize dataoffset s)
    (orderly : Orderly image blocksize dataoffset s event)
    (step : Step image blocksize dataoffset event s t) : Inv image blocksize dataoffset t := by
  cases step with
  | readSync sector count idle =>
      have caller := inv.caller
      simp only [CallerOk, idle] at caller
      exact ⟨inv.valid, inv.thread, ⟨caller, orderly, cached_start _ _ _⟩, inv.responses⟩
  | pass atPass => exact inv.pass atPass
  | tried passed => exact inv.readSync passed (orderly _ _ _ passed)
  | finishRead atEnd done =>
      have caller := inv.caller
      simp only [CallerOk, atEnd] at caller
      obtain ⟨-, good, ⟨-, complete⟩ | ⟨ptr, pending⟩⟩ := caller
      · exact inv.idle done inv.valid inv.thread rfl good complete
      · exact absurd (done.symm.trans pending.requested) (by simp)
  | take waiting => exact inv.load (by rw [waiting]; rfl) _
  | serve loaded => exact inv.serve loaded orderly
  | skip loaded => exact inv.silent inv.valid (by rw [loaded]; rfl) rfl trivial
  | exchange atExchange same => exact inv.exchange atExchange same
  | @retry _ ptr ok atExchange other =>
      refine inv.load ?_ _
      have ok := inv.thread
      simp only [ThreadOk, atExchange] at ok
      cases ptr with
      | none => rw [atExchange]; rfl
      | some ptr => exact absurd ok other
  | find atBlock => exact inv.find atBlock
  | evict atBlock => exact inv.evict atBlock
  | fill atRead => exact inv.fill atRead
  | readahead atRound => exact inv.readahead atRound
  | extend atRead => exact inv.extend atRead
  | finish finished => exact inv.finish finished

/-- Reads are transparent in every run in which no request goes wrong where it leaves the image. -/
theorem reads_transparent (image : Image) (blocksize dataoffset : Nat) (s : State)
    (run : Run (OrderlyStep image blocksize dataoffset) .initial s) :
    ∀ r ∈ s.responses, Transparent image blocksize dataoffset r := by
  have inv : Inv image blocksize dataoffset s := by
    refine Run.invariant run inv_initial ?_
    rintro s t inv ⟨event, orderly, step⟩
    exact inv_step inv orderly step
  exact inv.responses

end

/-! ## Two requests to an image of one frame -/

theorem passes_run {image : Image} {blocksize dataoffset : Nat} {s : State} {sector count : UInt32}
    {c c' : CachedRead} (atStart : s.caller = .tryCachedRead sector count 0 c)
    (passes : (((c.step (s.reader.buffer 0)).step (s.reader.buffer 1)).step
      (s.reader.buffer 0)).step (s.reader.buffer 1) = c') :
    Run (OrderlyStep image blocksize dataoffset) s { s with
      caller := .tryCachedRead sector count 4 c' } := by
  have pass {t : State} {c : CachedRead} {n : Nat}
      (atPass : t.caller = .tryCachedRead sector count n c) (more : n < 4) :
      Run (OrderlyStep image blocksize dataoffset) t { t with
        caller := .tryCachedRead sector count (n + 1) (c.step (t.reader.buffer (.ofNat 2 n))) } :=
    Run.single ⟨.silent, trivial, .pass atPass more⟩
  subst passes
  exact (((pass atStart (by decide)).trans (pass rfl (by decide))).trans
    (pass rfl (by decide))).trans (pass rfl (by decide))

def oneFrame : Image := CsoFileReader.image 4096 12 (by decide) fun _ => 1

def oneFrameData : List UInt8 := CsoFileReader.frame 12 (fun _ => 1) 0

theorem length_oneFrameData : oneFrameData.length = 4096 := CsoFileReader.length_frame _ _ _

def oneFrameCached : Reader :=
  let r := Reader.initial
  { r with
    buffer := Function.update r.buffer r.nextBuffer ⟨oneFrameData, 0, minimumSize⟩
    nextBuffer := r.nextBuffer.rev }

theorem decompress_oneFrame :
    Reader.initial.decompress oneFrame 0 2048 = (oneFrameCached, oneFrameData.take 2048, true) := by
  have block : Reader.initial.getBlockPtr oneFrame ⟨0, 0, 4096⟩ = (oneFrameCached, some 0) := by
    have read : oneFrame.readChunk 0 = (4096, oneFrameData) := rfl
    simp only [Reader.getBlockPtr, show Reader.initial.find ⟨0, 0, 4096⟩ = none from rfl,
      Reader.fill, read, Reader.evict, Function.update_self, Function.update_idem]
    rfl
  have chunk : oneFrame.chunkForOffset 0 = ⟨0, 0, 4096⟩ := by decide
  have buffer : oneFrameCached.buffer 0 = ⟨oneFrameData, 0, minimumSize⟩ := rfl
  rw [decompress_buffered (by decide) (by rw [chunk]; decide) (by rw [chunk]; exact block)
    (by rw [buffer, length_oneFrameData]; decide), buffer]
  simp only [Buffer.copy, Nat.sub_self, Nat.zero_mod, List.drop_zero]

theorem decompress_behind : oneFrameCached.decompress oneFrame (2 ^ 32) 2048 =
    ({ oneFrameCached with nextBuffer := 1 }, oneFrameData.take 2048, true) := by
  have buffer : oneFrameCached.buffer 0 = ⟨oneFrameData, 0, minimumSize⟩ := rfl
  have chunk : oneFrame.chunkForOffset (2 ^ 32) = ⟨-1, 0, 0⟩ := by decide
  have found : oneFrameCached.find ⟨-1, 0, 0⟩ = some 0 := by
    rw [Reader.find, if_pos]
    simp only [Buffer.contains, buffer, length_oneFrameData]
    decide
  have block : oneFrameCached.getBlockPtr oneFrame ⟨-1, 0, 0⟩ =
      ({ oneFrameCached with nextBuffer := 1 }, some 0) := by
    rw [Reader.getBlockPtr, found]
    rfl
  rw [decompress_buffered (by decide) (by rw [chunk]; decide) (by rw [chunk]; exact block)
    (by simp only [buffer, length_oneFrameData]; decide)]
  simp only [buffer, Buffer.copy, Nat.sub_zero, Nat.mod_self, List.drop_zero]

theorem readSync_decompress {image : Image} {s : State} (sector count : UInt32)
    (part : c.allDone = false)
    (more : 0 < c.size) (stopped : s.running = false)
    (done : s.reader.decompress image c.offset c.size = (reader, bytes, ok)) :
    s.readSync image sector count c =
      { s with amtRead := .ofNat 32 c.written.length }.request sector count c reader bytes ok := by
  unfold State.readSync
  dsimp only
  rw [if_neg (by rw [part]; exact Bool.false_ne_true), if_pos ⟨more, stopped⟩, done]

theorem request_responses (s : State) (sector count : UInt32) (c : CachedRead) (reader : Reader)
    (bytes : List UInt8) : (s.request sector count c reader bytes true).responses = s.responses ++
      [⟨sector, count, [(0, c.written), (c.written.length, bytes)],
        s.amtRead + .ofNat 32 bytes.length⟩] := rfl

def oneFrameRead : State :=
  State.request { State.initial with caller := .tryCachedRead 0 1 4 ⟨0, 2048, [], 0, false⟩ } 0 1
    ⟨0, 2048, [], 0, false⟩ oneFrameCached (oneFrameData.take 2048) true

theorem oneFrameRead_run : Run (OrderlyStep oneFrame 2048 0) .initial oneFrameRead := by
  let c : CachedRead := ⟨0, 2048, [], 0, false⟩
  let called : State := { State.initial with caller := .tryCachedRead 0 1 0 c }
  let passed : State := { State.initial with caller := .tryCachedRead 0 1 4 c }
  have start : OrderlyStep oneFrame 2048 0 .initial called :=
    ⟨.readSync 0 1, ⟨fun _ => by decide, Or.inl (by decide)⟩, .readSync 0 1 rfl⟩
  have passes : Run (OrderlyStep oneFrame 2048 0) called passed := passes_run rfl rfl
  have read : passed.readSync oneFrame 0 1 c = oneFrameRead :=
    readSync_decompress _ _ rfl (by decide) rfl decompress_oneFrame
  have tried : Step oneFrame 2048 0 .tried passed oneFrameRead := read ▸ .tried rfl
  refine ((Run.single start).trans passes).tail ⟨.tried, fun _ _ _ atEnd _ _ _ => ?_, tried⟩
  cases atEnd
  exact Or.inl (by decide)

theorem reads_transparent_oneFrame :
    Transparent oneFrame 2048 0 ⟨0, 1, [(0, []), (0, oneFrameData.take 2048)],
      State.initial.amtRead + .ofNat 32 (oneFrameData.take 2048).length⟩ := by
  refine reads_transparent oneFrame 2048 0 oneFrameRead oneFrameRead_run _ ?_
  rw [oneFrameRead, request_responses]
  exact List.mem_append_right _ (List.mem_singleton_self _)

/-- A request for sector 2^21 of the same image gets the first sector. -/
theorem reads_opaque : ¬∀ (image : Image) (blocksize dataoffset : Nat) (s : State),
    Run (AnyStep image blocksize dataoffset) .initial s →
    ∀ r ∈ s.responses, Transparent image blocksize dataoffset r := by
  intro all
  let c : CachedRead := ⟨2 ^ 32, 2048, [], 0, false⟩
  let called : State := { oneFrameRead with caller := .tryCachedRead 2097152 1 0 c }
  let passed : State := { oneFrameRead with caller := .tryCachedRead 2097152 1 4 c }
  have start : OrderlyStep oneFrame 2048 0 oneFrameRead called :=
    ⟨.readSync 2097152 1, ⟨fun _ => by decide, Or.inr (by decide)⟩, .readSync 2097152 1 rfl⟩
  have first : c.step ⟨oneFrameData, 0, minimumSize⟩ = c := by
    simp [CachedRead.step, c, length_oneFrameData]
  have passes : Run (OrderlyStep oneFrame 2048 0) called passed := by
    refine passes_run (c := c) rfl ?_
    change (((c.step ⟨oneFrameData, 0, minimumSize⟩).step ⟨[], 0, 0⟩).step
      ⟨oneFrameData, 0, minimumSize⟩).step ⟨[], 0, 0⟩ = c
    rw [first]
    change ((c.step ⟨oneFrameData, 0, minimumSize⟩).step ⟨[], 0, 0⟩) = c
    rw [first]
    rfl
  have run := Run.mono ((oneFrameRead_run.tail start).trans passes) fun s t ⟨event, _, step⟩ =>
    (⟨event, step⟩ : AnyStep oneFrame 2048 0 s t)
  have read := readSync_decompress (s := passed) (c := c) 2097152 1 rfl (by decide) rfl
    decompress_behind
  have delivered := all oneFrame 2048 0 _ (run.tail ⟨.tried, .tried rfl⟩)
    ⟨2097152, 1, [(0, []), (0, oneFrameData.take 2048)],
      .ofNat 32 0 + .ofNat 32 (oneFrameData.take 2048).length⟩ (by
        rw [read, request_responses]
        exact List.mem_append_right _ (List.mem_singleton_self _))
  have none := delivered.outside (by decide) (0, oneFrameData.take 2048) (by simp)
  dsimp only at none
  have length := length_oneFrameData
  rcases List.take_eq_nil_iff.mp none with zero | empty
  · exact absurd zero (by decide)
  · rw [empty] at length
    exact absurd length (by decide)

end Pcsx2.Cdvd
