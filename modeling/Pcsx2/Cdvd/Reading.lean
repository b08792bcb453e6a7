import Mathlib.Tactic.FinCases
import Pcsx2.Cdvd.ThreadedFileReader

/-!
# What the buffers hold and what is copied out of them
-/

namespace Pcsx2.Cdvd

/-- `data` is what the image has from `off` on, as far as the image goes. -/
def Image.Agrees (image : Image) (off : Nat) (data : List UInt8) : Prop :=
  ∀ i (bound : i < data.length), off + i < image.totalSize → data[i] = image.byte (off + i)

structure Buffer.Valid (image : Image) (buf : Buffer) : Prop where
  agrees : image.Agrees buf.offset buf.data
  dataEnd : buf.data ≠ [] → buf.offset + buf.data.length ≤ image.dataEnd
  fits : buf.data.length ≤ buf.cap
  cap : buf.cap < 2 ^ 31

def Reader.Valid (image : Image) (r : Reader) : Prop := ∀ i, (r.buffer i).Valid image

section

variable {image : Image} {off : Nat} {xs ys : List UInt8}

theorem agrees_nil : image.Agrees off [] := fun _ bound => absurd bound (Nat.not_lt_zero _)

theorem agrees_append (left : image.Agrees off xs) (right : image.Agrees (off + xs.length) ys) :
    image.Agrees off (xs ++ ys) := by
  intro i bound inside
  rcases Nat.lt_or_ge i xs.length with early | late
  · rw [List.getElem_append_left early]
    exact left i early inside
  · rw [List.length_append] at bound
    rw [List.getElem_append_right late]
    have := right (i - xs.length) (by omega) (by omega)
    rwa [show off + xs.length + (i - xs.length) = off + i by omega] at this

theorem agrees_drop (n : Nat) (all : image.Agrees off xs) : image.Agrees (off + n) (xs.drop n) := by
  intro i bound inside
  rw [List.length_drop] at bound
  rw [List.getElem_drop, all (n + i) (by omega) (by omega), Nat.add_assoc]

theorem agrees_take (n : Nat) (all : image.Agrees off xs) : image.Agrees off (xs.take n) := by
  intro i bound inside
  rw [List.length_take] at bound
  rw [List.getElem_take]
  exact all i (by omega) inside

theorem Buffer.Valid.copy {buf : Buffer} (valid : buf.Valid image) (size : Nat)
    (lower : buf.offset ≤ off) (upper : off < buf.offset + buf.data.length) :
    image.Agrees off (buf.copy off size) ∧
    (buf.copy off size).length = min size (buf.offset + buf.data.length - off) := by
  have small : off - buf.offset < 2 ^ 32 := by
    have := valid.fits
    have := valid.cap
    omega
  have copied := agrees_take size (agrees_drop (off - buf.offset) valid.agrees)
  rw [show buf.offset + (off - buf.offset) = off by omega] at copied
  rw [Buffer.length_copy, Buffer.copy, Nat.mod_eq_of_lt small]
  exact ⟨copied, by omega⟩

end

/-! ## Filling the buffers -/

section

variable {image : Image} {r : Reader} {block : Chunk} {off : Nat}

theorem valid_initial : Reader.initial.Valid image := fun _ =>
  { agrees := agrees_nil, dataEnd := fun some => absurd rfl some, fits := Nat.zero_le _,
    cap := by simp [Reader.initial] }

theorem find_some {i : Fin 2} (found : r.find block = some i) : (r.buffer i).contains block := by
  unfold Reader.find at found
  split at found
  · rename_i first
    cases found
    exact first
  · split at found
    · rename_i second
      cases found
      exact second
    · cases found

theorem Reader.Valid.update {buf : Buffer} {next : Fin 2} (valid : r.Valid image)
    (new : buf.Valid image) :
    Reader.Valid image ⟨Function.update r.buffer r.nextBuffer buf, next⟩ := by
  intro i
  change (Function.update r.buffer r.nextBuffer buf i).Valid image
  by_cases same : i = r.nextBuffer
  · rw [same, Function.update_self]
    exact new
  · rw [Function.update_of_ne same]
    exact valid i

theorem Reader.Valid.evict (valid : r.Valid image) (small : block.length < 2 ^ 31) :
    (r.evict block).Valid image := by
  refine valid.update ⟨agrees_nil, fun some => absurd rfl some, Nat.zero_le _, ?_⟩
  have := (valid r.nextBuffer).cap
  simp only [minimumSize]
  omega

theorem readChunk_inside (inside : off < image.totalSize) : ∃ data : List UInt8,
    image.readChunk (image.chunkForOffset off).chunkID = ((data.length : Int), data) ∧
    image.Agrees (image.chunkForOffset off).offset data ∧
    data.length ≤ (image.chunkForOffset off).length ∧
    min (image.chunkForOffset off).length (image.totalSize - (image.chunkForOffset off).offset) ≤
      data.length ∧
    (image.chunkForOffset off).offset + data.length ≤ image.dataEnd ∧
    off < (image.chunkForOffset off).offset + data.length := by
  obtain ⟨-, lower, upper, -⟩ := image.inside off inside
  obtain ⟨data, read, short, long, dataEnd, agrees⟩ := image.readInside off inside
  exact ⟨data, read, agrees, short, long, dataEnd, by omega⟩

theorem fill_inside (inside : off < image.totalSize) (valid : r.Valid image)
    (room : (image.chunkForOffset off).length ≤ (r.buffer r.nextBuffer).cap) :
    ∃ buf : Buffer, buf.Valid image ∧ buf.offset = (image.chunkForOffset off).offset ∧
      off < buf.offset + buf.data.length ∧
      r.fill image (image.chunkForOffset off) =
        (⟨Function.update r.buffer r.nextBuffer buf, r.nextBuffer + 1⟩, some r.nextBuffer) := by
  obtain ⟨-, lower, -⟩ := image.inside off inside
  obtain ⟨data, read, agrees, short, -, dataEnd, upper⟩ := readChunk_inside inside
  refine ⟨{ r.buffer r.nextBuffer with
    data, offset := (image.chunkForOffset off).offset }, ?_, rfl, upper, ?_⟩
  · exact ⟨agrees, fun _ => dataEnd, Nat.le_trans short room, (valid r.nextBuffer).cap⟩
  · have positive : (0 : Int) < data.length := by omega
    simp only [Reader.fill, read, if_pos positive]

theorem evict_room (r : Reader) (block : Chunk) :
    block.length ≤ ((r.evict block).buffer (r.evict block).nextBuffer).cap := by
  simp only [Reader.evict, Function.update_self]
  omega

theorem getBlockPtr_inside (inside : off < image.totalSize) (valid : r.Valid image) :
    ∃ r' i, r.getBlockPtr image (image.chunkForOffset off) = (r', some i) ∧ r'.Valid image ∧
      (r'.buffer i).offset ≤ off ∧ off < (r'.buffer i).offset + (r'.buffer i).data.length ∧
      ∀ j, r'.buffer j = r.buffer j ∨ (r'.buffer j).offset = (image.chunkForOffset off).offset := by
  obtain ⟨-, lower, upper, small⟩ := image.inside off inside
  cases found : r.find (image.chunkForOffset off) with
  | some i =>
      obtain ⟨-, first, last⟩ := find_some found
      refine ⟨{ r with nextBuffer := i + 1 }, i, ?_, valid, ?_, ?_, fun j => Or.inl rfl⟩
      · rw [Reader.getBlockPtr, found]
      · exact Nat.le_trans first lower
      · exact Nat.lt_of_lt_of_le upper last
  | none =>
      have evicted := valid.evict small
      obtain ⟨buf, new, start, reach, filled⟩ := fill_inside inside evicted (evict_room r _)
      refine ⟨_, _, by rw [Reader.getBlockPtr, found]; exact filled, evicted.update new, ?_⟩
      simp only [Function.update_self]
      refine ⟨start ▸ lower, reach, fun j => ?_⟩
      by_cases same : j = r.nextBuffer
      · right
        subst same
        simp only [Reader.evict, Function.update_self, start]
      · left
        simp only [Reader.evict, Function.update_of_ne same]

/-! ## Decompressing -/

/-- A request that leaves the image finds no data behind it: not in the last chunk, and not in a
buffer that starts at offset zero, which is where the invalid chunk points. -/
structure Sealed (image : Image) (r : Reader) (off : Nat) : Prop where
  dataEnd : image.dataEnd ≤ max off image.totalSize
  fresh : off < image.totalSize → image.totalSize < 2 ^ 32 ∨ 2 ^ 31 ≤ off
  zero : ∀ i, (r.buffer i).offset = 0 →
    (r.buffer i).data.length ≤ max off image.totalSize % 2 ^ 32

structure Decompressed (image : Image) (off remaining : Nat) (result : Reader × List UInt8 × Bool) :
    Prop where
  valid : result.1.Valid image
  agrees : image.Agrees off result.2.1
  length : result.2.1.length ≤ remaining
  inside : result.2.1 ≠ [] → off + result.2.1.length ≤ image.totalSize
  all : result.2.2 = true → result.2.1.length = remaining
  ok : off + remaining ≤ image.totalSize → result.2.2 = true

variable {remaining : Nat}

theorem Decompressed.stopped {data : List UInt8} (valid : r.Valid image)
    (agrees : image.Agrees off data) (length : data.length ≤ remaining)
    (inside : data ≠ [] → off + data.length ≤ image.totalSize)
    (outside : image.totalSize < off + remaining) :
    Decompressed image off remaining (r, data, false) :=
  ⟨valid, agrees, length, inside, fun yes => absurd yes Bool.false_ne_true,
    fun fits => absurd fits (by omega)⟩

theorem Decompressed.cons {data rest : List UInt8} {ok : Bool}
    (agrees : image.Agrees off data) (length : data.length ≤ remaining)
    (inside : off + data.length ≤ image.totalSize)
    (next : Decompressed image (off + data.length) (remaining - data.length) (r, rest, ok)) :
    Decompressed image off remaining (r, data ++ rest, ok) := by
  have short := next.length
  refine ⟨next.valid, agrees_append agrees next.agrees, ?_, fun _ => ?_, fun yes => ?_, fun fits => ?_⟩
  · rw [List.length_append]
    dsimp only at short
    omega
  · rw [List.length_append]
    by_cases none : rest = []
    · rw [none]
      exact inside
    · have := next.inside none
      dsimp only at this
      omega
  · have := next.all yes
    rw [List.length_append]
    dsimp only at this
    omega
  · exact next.ok (by omega)

theorem decompress_outside (valid : r.Valid image)
    (outside : image.totalSize ≤ off) (more : 0 < remaining) (sealed : Sealed image r off) :
    Decompressed image off remaining (r.decompress image off remaining) := by
  have stopped {r' : Reader} (valid : r'.Valid image) :
      Decompressed image off remaining (r', [], false) :=
    .stopped valid agrees_nil (Nat.zero_le _) (fun none => absurd rfl none) (by omega)
  rw [Reader.decompress, dif_neg (by omega)]
  simp only [image.outside off outside]
  split
  · cases found : r.find ⟨-1, 0, 0⟩ with
    | none =>
        have missing : r.getBlockPtr image ⟨-1, 0, 0⟩ = (r.evict ⟨-1, 0, 0⟩, none) := by
          simp only [Reader.getBlockPtr, found, Reader.fill, image.readOutside]
          rfl
        rw [missing]
        exact stopped (valid.evict (by simp))
    | some i =>
        have hit : r.getBlockPtr image ⟨-1, 0, 0⟩ = ({ r with nextBuffer := i + 1 }, some i) := by
          rw [Reader.getBlockPtr, found]
        obtain ⟨-, first, -⟩ := find_some found
        have zero : (r.buffer i).offset = 0 := Nat.le_zero.mp first
        have short := sealed.zero i zero
        rw [Nat.max_eq_left outside] at short
        rw [hit]
        dsimp only
        rw [dif_pos (by rw [zero]; exact short)]
        exact stopped valid
  · rw [dif_pos (by rw [image.readOutside]; decide), image.readOutside]
    exact stopped valid

theorem Sealed.next {r' : Reader} {n : Nat} (sealed : Sealed image r off)
    (valid : r'.Valid image) (inside : off < image.totalSize) (upper : off + n ≤ image.totalSize)
    (changed : ∀ j, r'.buffer j = r.buffer j ∨
      (r'.buffer j).offset = (image.chunkForOffset off).offset) :
    Sealed image r' (off + n) := by
  have same : max (off + n) image.totalSize = max off image.totalSize := by omega
  refine ⟨same ▸ sealed.dataEnd, fun _ => (sealed.fresh inside).imp_right (by omega),
    fun j zero => ?_⟩
  rw [same]
  rcases changed j with old | new
  · rw [old] at zero ⊢
    exact sealed.zero j zero
  · obtain ⟨-, -, reach, small⟩ := image.inside off inside
    rcases sealed.fresh inside with narrow | far
    · have := sealed.dataEnd
      by_cases none : (r'.buffer j).data = []
      · rw [none]
        exact Nat.zero_le _
      · have := (valid j).dataEnd none
        omega
    · omega

theorem decompress_spec (valid : r.Valid image)
    (clear : off + remaining ≤ image.totalSize ∨ Sealed image r off) :
    Decompressed image off remaining (r.decompress image off remaining) := by
  induction remaining using Nat.strong_induction_on generalizing r off with
  | _ remaining ih =>
  by_cases done : remaining = 0
  · subst done
    rw [Reader.decompress, dif_pos rfl]
    exact ⟨valid, agrees_nil, Nat.le_refl _, fun none => absurd rfl none, fun _ => rfl, fun _ => rfl⟩
  rcases Nat.lt_or_ge off image.totalSize with inside | outside
  swap
  · exact decompress_outside valid outside (by omega) (clear.resolve_left (by omega))
  have bounded (n : Nat) (few : n ≤ remaining) (upper : off + n ≤ image.dataEnd) :
      off + n ≤ image.totalSize := by
    rcases clear with fits | sealed
    · omega
    · have := sealed.dataEnd
      omega
  rw [Reader.decompress, dif_neg done]
  dsimp only
  split
  · obtain ⟨r', i, found, valid', lower, upper, changed⟩ := getBlockPtr_inside inside valid
    obtain ⟨agrees, length⟩ := (valid' i).copy remaining lower upper
    have narrow : (off - (r'.buffer i).offset) % 2 ^ 32 = off - (r'.buffer i).offset := by
      have := (valid' i).fits
      have := (valid' i).cap
      exact Nat.mod_eq_of_lt (by omega)
    have fits := bounded ((r'.buffer i).copy off remaining).length (by omega) (by
      have := (valid' i).dataEnd (by rintro none; simp [none] at upper; omega)
      omega)
    rw [found]
    dsimp only
    rw [dif_neg (by omega)]
    refine .cons agrees (by omega) fits (ih _ (by omega) valid' ?_)
    exact clear.imp (by omega) fun sealed => sealed.next valid' inside fits changed
  · rename_i direct
    have start : (image.chunkForOffset off).offset = off := by omega
    obtain ⟨data, read, agrees, short, long, dataEnd, reach⟩ := readChunk_inside inside
    rw [start] at agrees long dataEnd
    have fits := bounded data.length (by omega) dataEnd
    rw [read]
    dsimp only
    split
    · exact .stopped valid agrees (by omega) (fun _ => fits) (by omega)
    · have whole : data.length = (image.chunkForOffset off).length := by omega
      rw [← whole, List.take_length]
      refine .cons agrees (by omega) fits (ih _ (by omega) valid ?_)
      exact clear.imp (by omega) fun sealed => sealed.next valid inside fits fun j => Or.inl rfl

theorem decompress_buffered {r' : Reader} {i : Fin 2} (more : 0 < remaining)
    (short : (image.chunkForOffset off).offset ≠ off ∨ remaining < (image.chunkForOffset off).length)
    (found : r.getBlockPtr image (image.chunkForOffset off) = (r', some i))
    (all : remaining + (off - (r'.buffer i).offset) % 2 ^ 32 ≤ (r'.buffer i).data.length) :
    r.decompress image off remaining = (r', (r'.buffer i).copy off remaining, true) := by
  have length := (r'.buffer i).length_copy off remaining
  have whole : remaining - ((r'.buffer i).copy off remaining).length = 0 := by omega
  rw [Reader.decompress, dif_neg (by omega)]
  dsimp only
  rw [if_pos short, found]
  dsimp only
  rw [dif_neg (by omega), whole, Reader.decompress, dif_pos rfl]
  simp only [List.append_nil]

end

/-! ## Cached reads -/

def Contained (image : Image) (off size : Nat) : Prop :=
  off + size ≤ image.totalSize ∨ image.dataEnd ≤ max off image.totalSize

structure Cached (image : Image) (off size : Nat) (c : CachedRead) : Prop where
  agrees : image.Agrees off c.written
  offset : c.offset = off + c.written.length
  size : c.size + c.written.length = size
  inside : c.written ≠ [] → off + c.written.length ≤ image.totalSize
  finish : 0 < c.finish → c.size = 0
  allDone : c.allDone = true → c.size = 0

theorem cached_start (image : Image) (off size : Nat) : Cached image off size ⟨off, size, [], 0, false⟩ :=
  ⟨agrees_nil, rfl, rfl, fun none => absurd rfl none, fun zero => absurd zero (Nat.lt_irrefl 0),
    fun no => absurd no Bool.false_ne_true⟩

theorem Cached.step {image : Image} {off size : Nat} {c : CachedRead} {buf : Buffer}
    (cached : Cached image off size c) (valid : buf.Valid image)
    (contained : Contained image off size) : Cached image off size (c.step buf) := by
  have marked {c : CachedRead} (cached : Cached image off size c) :
      Cached image off size
        (if 0 < c.finish ∧ buf.offset = c.finish then { c with allDone := true } else c) := by
    split
    · rename_i both
      exact { cached with allDone := fun _ => cached.finish both.1 }
    · exact cached
  unfold CachedRead.step
  dsimp only
  split
  · exact cached
  refine marked ?_
  split
  swap
  · exact cached
  rename_i some within
  obtain ⟨agrees, length⟩ := valid.copy c.size within.1 within.2
  have same := cached.offset
  have total := cached.size
  rw [same] at agrees length within
  have inside : c.written ++ buf.copy c.offset c.size ≠ [] →
      off + (c.written ++ buf.copy c.offset c.size).length ≤ image.totalSize := by
    intro _
    have := valid.dataEnd (by rintro none; simp [none] at some)
    rw [List.length_append, same, length]
    rcases contained with fits | bare
    · omega
    · omega
  refine ⟨same ▸ agrees_append cached.agrees agrees, ?_, ?_, inside, ?_, ?_⟩
  · rw [List.length_append, same, Nat.add_assoc]
  · dsimp only
    rw [List.length_append, same]
    omega
  · dsimp only
    split
    · rename_i zero
      exact fun _ => zero
    · intro ended
      rw [cached.finish ended, Nat.zero_sub]
  · intro yes
    dsimp only
    rw [cached.allDone yes, Nat.zero_sub]

end Pcsx2.Cdvd
