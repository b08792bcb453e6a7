import Mathlib.Data.Nat.ModEq
import Pcsx2.Audio.AudioStream
import Pcsx2.Foundation.Ring

/-!
# What is copied out of the audio ring

Frames are counted from the start of the stream. The reader is at one count and the writer at another, less
than a buffer ahead, and the positions are these counts modulo the size.
-/

namespace Pcsx2.Audio
open Foundation

section

variable (cfg : Config)

/-! ## Positions of counts -/

theorem place_eq {pos done : Nat} (inside : pos < cfg.size) (few : done < cfg.size) :
    place cfg pos done = (pos + done) % cfg.size := by
  unfold place
  split
  · rw [Nat.mod_eq_of_lt (by omega)]
  · rw [mod_of_wrapped (by omega) (by omega)]
    omega

theorem afterRead_eq {pos frames : Nat} (inside : pos < cfg.size) (few : frames < cfg.size) :
    afterRead cfg pos frames = (pos + frames) % cfg.size := by
  unfold afterRead
  simp only
  rcases Nat.lt_trichotomy (pos + frames) cfg.size with below | exact | above
  · rw [Nat.min_eq_right (by omega), Nat.sub_self, if_neg (Nat.lt_irrefl 0), Nat.mod_eq_of_lt below,
      if_neg (show ¬ pos + frames = cfg.size by omega)]
    split <;> omega
  · rw [Nat.min_eq_right (by omega), Nat.sub_self, if_neg (Nat.lt_irrefl 0), if_pos (by omega), if_pos exact, exact,
      Nat.mod_self]
  · rw [Nat.min_eq_left (by omega), if_pos (by omega), mod_of_wrapped (by omega) (by omega)]
    omega

theorem afterWrite_eq {pos frames : Nat} (inside : pos < cfg.size) (few : frames ≤ cfg.size) :
    afterWrite cfg pos frames = (pos + frames) % cfg.size := by
  unfold afterWrite
  split
  · rw [mod_of_wrapped (by omega) (by omega)]
    omega
  · rw [Nat.mod_eq_of_lt (by omega)]

theorem buffered_spec {rpos wpos : Nat} (rinside : rpos < cfg.size) (winside : wpos < cfg.size) :
    (rpos + getBufferedFramesRelaxed cfg rpos wpos) % cfg.size = wpos ∧
      getBufferedFramesRelaxed cfg rpos wpos < cfg.size := by
  unfold getBufferedFramesRelaxed
  refine ⟨?_, Nat.mod_lt _ cfg.positive⟩
  rw [Nat.add_mod_mod, show rpos + (wpos + cfg.size - rpos) = wpos + cfg.size by omega, Nat.add_mod_right,
    Nat.mod_eq_of_lt winside]

theorem buffered_eq {r w : Nat} (order : r ≤ w) (near : w < r + cfg.size) :
    getBufferedFramesRelaxed cfg (r % cfg.size) (w % cfg.size) = w - r := by
  have rinside := Nat.mod_lt r cfg.positive
  have winside := Nat.mod_lt w cfg.positive
  obtain ⟨leads, few⟩ := buffered_spec cfg rinside winside
  have same : Nat.ModEq cfg.size (r + getBufferedFramesRelaxed cfg (r % cfg.size) (w % cfg.size)) (r + (w - r)) := by
    show _ % _ = _ % _
    rw [← Nat.mod_add_mod, leads, Nat.add_sub_cancel' order]
  exact Nat.ModEq.eq_of_lt_of_lt (Nat.ModEq.add_left_cancel' r same) few (by omega)

theorem pos_of_buffered {rpos w : Nat} (rinside : rpos < cfg.size)
    (few : getBufferedFramesRelaxed cfg rpos (w % cfg.size) ≤ w) :
    rpos = (w - getBufferedFramesRelaxed cfg rpos (w % cfg.size)) % cfg.size := by
  obtain ⟨leads, -⟩ := buffered_spec cfg rinside (Nat.mod_lt w cfg.positive)
  have same : Nat.ModEq cfg.size (rpos + getBufferedFramesRelaxed cfg rpos (w % cfg.size))
      (w - getBufferedFramesRelaxed cfg rpos (w % cfg.size) + getBufferedFramesRelaxed cfg rpos (w % cfg.size)) := by
    show _ % _ = _ % _
    rw [leads, Nat.sub_add_cancel few]
  exact (Nat.mod_eq_of_lt rinside).symm.trans (Nat.ModEq.add_right_cancel' _ same)

end

/-! ## The invariant -/

section

variable {α : Type*} (cfg : Config)

def Reading.done : Reading → Nat
  | .copying _ _ done => done
  | _ => 0

def ReadingOk (r w : Nat) : Reading → Prop
  | .idle => True
  | .counting _ rpos => rpos = r % cfg.size
  | .counted frames_to_read => r + frames_to_read ≤ w
  | .copying rpos frames_to_read done => rpos = r % cfg.size ∧ r + frames_to_read ≤ w ∧ done ≤ frames_to_read

/-- The chunk fits behind the reader, or the reader will be moved on before it goes on reading. -/
def Room (r w : Nat) (data : List α) (m_rpos : Nat) : Bool → Prop
  | false => w + data.length < r + cfg.size ∧ m_rpos = r % cfg.size
  | true => ∃ r', r ≤ r' ∧ r' ≤ w + data.length ∧ w + data.length < r' + cfg.size ∧ m_rpos = r' % cfg.size

def WritingOk (r w m_rpos total : Nat) : Writing α → Prop
  | .idle => total = w ∧ m_rpos = r % cfg.size
  | .counting data rpos =>
      total = w ∧ m_rpos = r % cfg.size ∧ data.length ≤ cfg.size ∧ ∃ r₀ ≤ r, rpos = r₀ % cfg.size ∧ w < r₀ + cfg.size
  | .overrun data => total = w ∧ m_rpos = r % cfg.size ∧ data.length ≤ cfg.size
  | .discarding data _ => total = w ∧ m_rpos = r % cfg.size ∧ data.length ≤ cfg.size
  | .counted data tight => total = w ∧ data.length ≤ cfg.size ∧ Room cfg r w data m_rpos tight
  | .copying data tight wpos done =>
      (total = w + done ∧ done ≤ data.length ∧ wpos = w % cfg.size) ∧ data.length ≤ cfg.size ∧
        Room cfg r w data m_rpos tight

structure Counts (s : AudioStream α) (r w : Nat) : Prop where
  order : r ≤ w
  near : w < r + cfg.size
  wpos : s.m_wpos = w % cfg.size
  keeps : Keeps cfg.size s.m_buffer s.written
  reading : ReadingOk cfg r w s.reading
  writing : WritingOk cfg r w s.m_rpos s.written.length s.writing
  quiet : s.writing.Tight → s.reading = .idle
  out : s.out.Sublist (s.written.take (r + s.reading.done))

variable {cfg} {s : AudioStream α} {r w : Nat} {writing : Writing α}

theorem WritingOk.total {total m_rpos : Nat} (ok : WritingOk cfg r w m_rpos total writing) :
    w ≤ total := by
  cases writing with
  | copying data tight wpos done => exact Nat.le.intro ok.1.1.symm
  | _ => exact ok.1.ge

theorem WritingOk.rpos {total m_rpos : Nat} (ok : WritingOk cfg r w m_rpos total writing)
    (loose : ¬ writing.Tight) : m_rpos = r % cfg.size := by
  cases writing with
  | idle => exact ok.2
  | counting data rpos => exact ok.2.1
  | overrun data => exact ok.2.1
  | discarding data rpos => exact ok.2.1
  | counted data tight =>
    cases tight with
    | true => exact absurd rfl loose
    | false => exact ok.2.2.2
  | copying data tight wpos done =>
    cases tight with
    | true => exact absurd rfl loose
    | false => exact ok.2.2.2

theorem WritingOk.inside {total m_rpos : Nat} (ok : WritingOk cfg r w m_rpos total writing) :
    m_rpos < cfg.size := by
  have positive := cfg.positive
  have room {data : List α} {tight : Bool} (room : Room cfg r w data m_rpos tight) : m_rpos < cfg.size := by
    cases tight with
    | false => exact room.2 ▸ Nat.mod_lt _ positive
    | true =>
      obtain ⟨r', -, -, -, rpos⟩ := room
      exact rpos ▸ Nat.mod_lt _ positive
  cases writing with
  | counted data tight => exact room ok.2.2
  | copying data tight wpos done => exact room ok.2.2
  | idle => exact ok.2 ▸ Nat.mod_lt _ positive
  | counting data rpos => exact ok.2.1 ▸ Nat.mod_lt _ positive
  | overrun data => exact ok.2.1 ▸ Nat.mod_lt _ positive
  | discarding data rpos => exact ok.2.1 ▸ Nat.mod_lt _ positive

theorem WritingOk.read {total m_rpos r' : Nat} (ok : WritingOk cfg r w m_rpos total writing)
    (loose : ¬ writing.Tight) (on : r ≤ r') : WritingOk cfg r' w (r' % cfg.size) total writing := by
  cases writing with
  | idle => exact ⟨ok.1, rfl⟩
  | counting data rpos =>
    obtain ⟨total, -, few, r₀, before, rest⟩ := ok
    exact ⟨total, rfl, few, r₀, before.trans on, rest⟩
  | overrun data => exact ⟨ok.1, rfl, ok.2.2⟩
  | discarding data rpos => exact ⟨ok.1, rfl, ok.2.2⟩
  | counted data tight =>
    cases tight with
    | true => exact absurd rfl loose
    | false =>
      obtain ⟨total, few, room, -⟩ := ok
      exact ⟨total, few, by omega, rfl⟩
  | copying data tight wpos done =>
    cases tight with
    | true => exact absurd rfl loose
    | false =>
      obtain ⟨copied, few, room, -⟩ := ok
      exact ⟨copied, few, by omega, rfl⟩

theorem Counts.prefix_of_append (counts : Counts cfg s r w) {n : Nat} (few : n ≤ w) (more : List α) :
    (s.written ++ more).take n = s.written.take n :=
  List.take_append_of_le_length (few.trans counts.writing.total)

theorem Counts.out_le (counts : Counts cfg s r w) : r + s.reading.done ≤ w := by
  have order := counts.order
  have reading := counts.reading
  revert reading
  cases s.reading with
  | copying rpos frames_to_read done =>
    rintro ⟨-, few, copied⟩
    show r + done ≤ w
    omega
  | _ => exact fun _ => order

/-! ## Reading -/

theorem framesToRead_le (cfg : Config) (num_frames available_frames : Nat) (m_filling : Bool) :
    (framesToRead cfg num_frames available_frames m_filling).1 ≤ available_frames := by
  have bound (first : Nat × Bool) :
      (if available_frames < first.1 then (available_frames, true) else (first.1, first.2)).1 ≤ available_frames := by
    split
    · exact Nat.le_refl _
    · rename_i enough
      exact Nat.not_lt.mp enough
  exact bound _

theorem Counts.readFrames (counts : Counts cfg s r w) (idle : s.reading = .idle) (loose : ¬ s.writing.Tight)
    (num_frames : Nat) : Counts cfg { s with reading := .counting num_frames s.m_rpos } r w where
  order := counts.order
  near := counts.near
  wpos := counts.wpos
  keeps := counts.keeps
  reading := counts.writing.rpos loose
  writing := counts.writing
  quiet tight := absurd tight loose
  out := by
    have out := counts.out
    rwa [idle] at out

theorem Counts.loose (counts : Counts cfg s r w) (busy : s.reading ≠ .idle) : ¬ s.writing.Tight :=
  fun tight => busy (counts.quiet tight)

theorem Counts.readCount (counts : Counts cfg s r w) {num_frames rpos : Nat}
    (counting : s.reading = .counting num_frames rpos) (m_filling : Bool) {frames_to_read : Nat}
    (few : frames_to_read ≤ getBufferedFramesRelaxed cfg rpos s.m_wpos) :
    Counts cfg { s with m_filling, reading := if 0 < frames_to_read then .counted frames_to_read else .idle } r w := by
  have loose := counts.loose (by rw [counting]; rintro ⟨⟩)
  have reading := counts.reading
  have out := counts.out
  rw [counting] at reading out
  have rpos_eq : rpos = r % cfg.size := reading
  rw [rpos_eq, counts.wpos, buffered_eq cfg counts.order counts.near] at few
  have order := counts.order
  refine ⟨counts.order, counts.near, counts.wpos, counts.keeps, ?_, counts.writing, fun tight => absurd tight loose, ?_⟩
  · show ReadingOk cfg r w (if 0 < frames_to_read then _ else _)
    split
    · show r + frames_to_read ≤ w
      omega
    · trivial
  · show s.out.Sublist (s.written.take (r + Reading.done (if 0 < frames_to_read then _ else _)))
    split <;> exact out

theorem Counts.readPosition (counts : Counts cfg s r w) {frames_to_read : Nat}
    (counted : s.reading = .counted frames_to_read) :
    Counts cfg { s with reading := .copying s.m_rpos frames_to_read 0 } r w := by
  have loose := counts.loose (by rw [counted]; rintro ⟨⟩)
  have reading := counts.reading
  have out := counts.out
  rw [counted] at reading out
  exact ⟨counts.order, counts.near, counts.wpos, counts.keeps,
    ⟨counts.writing.rpos loose, reading, Nat.zero_le _⟩, counts.writing, fun tight => absurd tight loose, out⟩

theorem Counts.total_lt (counts : Counts cfg s r w) (loose : ¬ s.writing.Tight) : s.written.length < r + cfg.size := by
  have near := counts.near
  have writing := counts.writing
  revert writing loose
  cases s.writing with
  | copying data tight wpos done =>
    cases tight with
    | true => exact fun loose => absurd rfl loose
    | false =>
      rintro - ⟨⟨total, copied, -⟩, -, room, -⟩
      omega
  | _ => exact fun _ writing => writing.1.trans_lt near

theorem Counts.readFrame (counts : Counts cfg s r w) {rpos frames_to_read done : Nat}
    (copying : s.reading = .copying rpos frames_to_read done) (more : done < frames_to_read) :
    Counts cfg { s with
      out := s.out ++ [s.m_buffer (place cfg rpos done)]
      reading := .copying rpos frames_to_read (done + 1) } r w := by
  have loose := counts.loose (by rw [copying]; rintro ⟨⟩)
  have reading := counts.reading
  have out := counts.out
  rw [copying] at reading out
  obtain ⟨rpos_eq, few, -⟩ := reading
  have total := counts.writing.total
  have near := counts.near
  refine ⟨counts.order, counts.near, counts.wpos, counts.keeps, ⟨rpos_eq, few, more⟩, counts.writing,
    fun tight => absurd tight loose, ?_⟩
  have kept := counts.keeps (r + done) (by omega) (by have := counts.total_lt loose; omega)
  have frame : s.m_buffer (place cfg rpos done) = s.written[r + done] := by
    rw [rpos_eq, place_eq cfg (Nat.mod_lt _ cfg.positive) (by omega), Nat.mod_add_mod, kept]
  show (s.out ++ [_]).Sublist (s.written.take (r + (done + 1)))
  rw [frame, ← Nat.add_assoc, List.take_succ_eq_append_getElem (by omega)]
  exact out.append (List.Sublist.refl _)

theorem Counts.readStore (counts : Counts cfg s r w) {rpos frames_to_read : Nat}
    (copying : s.reading = .copying rpos frames_to_read frames_to_read) :
    Counts cfg { s with m_rpos := afterRead cfg rpos frames_to_read, reading := .idle } (r + frames_to_read) w := by
  have loose := counts.loose (by rw [copying]; rintro ⟨⟩)
  have reading := counts.reading
  have out := counts.out
  rw [copying] at reading out
  obtain ⟨rpos_eq, few, -⟩ := reading
  have near := counts.near
  have stored : afterRead cfg rpos frames_to_read = (r + frames_to_read) % cfg.size := by
    rw [rpos_eq, afterRead_eq cfg (Nat.mod_lt _ cfg.positive) (by omega), Nat.mod_add_mod]
  refine ⟨few, by omega, counts.wpos, counts.keeps, trivial, ?_, fun tight => absurd tight loose, out⟩
  show WritingOk cfg (r + frames_to_read) w (afterRead cfg rpos frames_to_read) s.written.length s.writing
  rw [stored]
  exact counts.writing.read loose (Nat.le_add_right _ _)

/-! ## Writing -/

theorem Counts.writeFrames (counts : Counts cfg s r w) (idle : s.writing = .idle) (data : List α)
    (fits : data.length ≤ cfg.size) : Counts cfg { s with writing := .counting data s.m_rpos } r w := by
  have writing := counts.writing
  rw [idle] at writing
  exact ⟨counts.order, counts.near, counts.wpos, counts.keeps, counts.reading,
    ⟨writing.1, writing.2, fits, r, Nat.le_refl _, writing.2, counts.near⟩, False.elim, counts.out⟩

variable {data : List α}

theorem Counts.writeCount (counts : Counts cfg s r w) {rpos : Nat}
    (counting : s.writing = .counting data rpos) :
    Counts cfg { s with
      writing :=
        if cfg.size - getBufferedFramesRelaxed cfg rpos s.m_wpos ≤ data.length then
          (if cfg.stretch then .overrun data else .idle)
        else .counted data false } r w := by
  have writing := counts.writing
  rw [counting] at writing
  obtain ⟨total, rpos_eq, fits, r₀, before, loaded, recent⟩ := writing
  have order := counts.order
  have near := counts.near
  refine ⟨counts.order, counts.near, counts.wpos, counts.keeps, counts.reading, ?_, ?_, counts.out⟩
  · show WritingOk cfg r w s.m_rpos s.written.length (if _ then _ else _)
    split
    · split
      · exact ⟨total, rpos_eq, fits⟩
      · exact ⟨total, rpos_eq⟩
    · rename_i enough
      rw [loaded, counts.wpos, buffered_eq cfg (by omega) recent] at enough
      exact ⟨total, fits, by omega, rpos_eq⟩
  · show Writing.Tight (if _ then _ else _) → _
    split
    · split <;> exact False.elim
    · exact fun tight => Bool.noConfusion tight

theorem Counts.overrunLoad (counts : Counts cfg s r w) (overrun : s.writing = .overrun data) :
    Counts cfg { s with writing := .discarding data s.m_rpos } r w := by
  have writing := counts.writing
  rw [overrun] at writing
  exact ⟨counts.order, counts.near, counts.wpos, counts.keeps, counts.reading, writing, False.elim, counts.out⟩

theorem Counts.take_mono (counts : Counts cfg s r w) {n : Nat} (on : r + s.reading.done ≤ n) :
    s.out.Sublist (s.written.take n) :=
  counts.out.trans (List.take_sublist_take_left on)

theorem Counts.overrunStore (counts : Counts cfg s r w) {rpos : Nat}
    (discarding : s.writing = .discarding data rpos) (clear : s.Clear cfg .overrunStore) :
    ∃ r', Counts cfg { s with
      m_rpos := afterDiscard cfg rpos, writing := .counted data !s.makesRoom cfg data } r' w := by
  unfold AudioStream.Clear at clear
  rw [discarding] at clear
  obtain ⟨idle, unmoved, enough⟩ := clear
  have writing := counts.writing
  rw [discarding] at writing
  obtain ⟨total, rpos_eq, fits⟩ := writing
  have order := counts.order
  have near := counts.near
  have buffered : s.buffered cfg = w - r := by
    unfold AudioStream.buffered
    rw [rpos_eq, counts.wpos, buffered_eq cfg counts.order counts.near]
  cases room : s.makesRoom cfg data with
  | true =>
    have some := of_decide_eq_true room
    rw [buffered] at some
    refine ⟨r + CHUNK_SIZE * 2, by omega, by omega, counts.wpos, counts.keeps, ?_, ?_, ?_, ?_⟩
    · show ReadingOk cfg (r + CHUNK_SIZE * 2) w s.reading
      rw [idle]
      trivial
    · refine ⟨total, fits, by omega, ?_⟩
      show afterDiscard cfg rpos = _
      unfold afterDiscard
      rw [← unmoved, rpos_eq, Nat.mod_add_mod]
    · exact fun tight => Bool.noConfusion tight
    · exact counts.take_mono (by rw [idle]; exact Nat.add_le_add_left (Nat.zero_le _) r)
  | false =>
    have inside : afterDiscard cfg rpos < cfg.size := Nat.mod_lt _ cfg.positive
    rw [counts.wpos, Nat.mod_add_mod, buffered] at enough
    refine ⟨r, counts.order, counts.near, counts.wpos, counts.keeps, counts.reading, ?_, fun _ => idle, counts.out⟩
    obtain ⟨-, few⟩ := buffered_spec cfg inside (Nat.mod_lt (w + data.length) cfg.positive)
    have moved := pos_of_buffered cfg (w := w + data.length) inside (by omega)
    exact ⟨total, fits, w + data.length - getBufferedFramesRelaxed cfg (afterDiscard cfg rpos)
      ((w + data.length) % cfg.size), by omega, Nat.sub_le _ _, by omega, moved⟩

theorem Counts.writePosition (counts : Counts cfg s r w) {tight : Bool}
    (counted : s.writing = .counted data tight) :
    Counts cfg { s with writing := .copying data tight s.m_wpos 0 } r w := by
  have writing := counts.writing
  have quiet := counts.quiet
  rw [counted] at writing quiet
  obtain ⟨total, fits, room⟩ := writing
  exact ⟨counts.order, counts.near, counts.wpos, counts.keeps, counts.reading,
    ⟨⟨total, Nat.zero_le _, counts.wpos⟩, fits, room⟩, quiet, counts.out⟩

theorem Counts.writeFrame (counts : Counts cfg s r w) {tight : Bool} {wpos done : Nat}
    (copying : s.writing = .copying data tight wpos done) {frame : α} (next : data[done]? = some frame) :
    Counts cfg { s with
      m_buffer := Function.update s.m_buffer (place cfg wpos done) frame
      written := s.written ++ [frame]
      writing := .copying data tight wpos (done + 1) } r w := by
  have writing := counts.writing
  have quiet := counts.quiet
  rw [copying] at writing quiet
  obtain ⟨⟨total, -, wpos_eq⟩, fits, room⟩ := writing
  obtain ⟨below, -⟩ := List.getElem?_eq_some_iff.mp next
  have cell : place cfg wpos done = s.written.length % cfg.size := by
    rw [wpos_eq, place_eq cfg (Nat.mod_lt _ cfg.positive) (by omega), Nat.mod_add_mod, total]
  refine ⟨counts.order, counts.near, counts.wpos, ?_, counts.reading, ⟨⟨?_, below, wpos_eq⟩, fits, room⟩, quiet, ?_⟩
  · show Keeps cfg.size (Function.update s.m_buffer (place cfg wpos done) frame) (s.written ++ [frame])
    rw [cell]
    exact counts.keeps.update frame
  · show (s.written ++ [frame]).length = w + (done + 1)
    rw [List.length_append, total]
    rfl
  · show s.out.Sublist ((s.written ++ [frame]).take (r + s.reading.done))
    rw [counts.prefix_of_append counts.out_le]
    exact counts.out

theorem Counts.writeStore (counts : Counts cfg s r w) {tight : Bool} {wpos : Nat}
    (copying : s.writing = .copying data tight wpos data.length) :
    ∃ r', Counts cfg { s with m_wpos := afterWrite cfg wpos data.length, writing := .idle } r' (w + data.length) := by
  have writing := counts.writing
  have quiet := counts.quiet
  rw [copying] at writing quiet
  obtain ⟨⟨total, -, wpos_eq⟩, fits, room⟩ := writing
  have order := counts.order
  have stored : afterWrite cfg wpos data.length = (w + data.length) % cfg.size := by
    rw [wpos_eq, afterWrite_eq cfg (Nat.mod_lt _ cfg.positive) fits, Nat.mod_add_mod]
  cases tight with
  | false =>
    obtain ⟨near, rpos_eq⟩ := room
    refine ⟨r, by omega, near, stored, counts.keeps, ?_, ⟨total, rpos_eq⟩, False.elim, counts.out⟩
    have reading := counts.reading
    revert reading
    show _ → ReadingOk cfg r (w + data.length) s.reading
    cases s.reading with
    | idle => exact id
    | counting num_frames rpos => exact id
    | counted frames_to_read => exact fun few => Nat.le_add_right_of_le few
    | copying rpos frames_to_read done =>
      exact fun ⟨rpos_eq, few, copied⟩ => ⟨rpos_eq, Nat.le_add_right_of_le few, copied⟩
  | true =>
    obtain ⟨r', on, before, near, rpos_eq⟩ := room
    have idle := quiet rfl
    refine ⟨r', before, near, stored, counts.keeps, ?_, ⟨total, rpos_eq⟩, False.elim, ?_⟩
    · show ReadingOk cfg r' (w + data.length) s.reading
      rw [idle]
      trivial
    · exact counts.take_mono (by rw [idle]; exact Nat.add_le_add_right on 0)

/-! ## Every step -/

theorem Counts.step (counts : Counts cfg s r w) {t : AudioStream α} (clear : ClearSteps cfg s t) :
    ∃ r' w', Counts cfg t r' w' := by
  obtain ⟨action, fits, clear, step⟩ := clear
  unfold AudioStream.step at step
  cases action with
  | readFrames num_frames =>
    simp only at step
    split at step
    · rename_i idle
      obtain rfl := Option.some.inj step
      exact ⟨r, w, counts.readFrames idle clear num_frames⟩
    · cases step
  | readCount =>
    simp only at step
    split at step
    · rename_i num_frames rpos counting
      obtain rfl := Option.some.inj step
      exact ⟨r, w, counts.readCount counting _ (framesToRead_le cfg _ _ _)⟩
    · cases step
  | readPosition =>
    simp only at step
    split at step
    · rename_i frames_to_read counted
      obtain rfl := Option.some.inj step
      exact ⟨r, w, counts.readPosition counted⟩
    · cases step
  | readFrame =>
    simp only at step
    split at step
    · rename_i rpos frames_to_read done copying
      split at step
      · rename_i more
        obtain rfl := Option.some.inj step
        exact ⟨r, w, counts.readFrame copying more⟩
      · cases step
    · cases step
  | readStore =>
    simp only at step
    split at step
    · rename_i rpos frames_to_read done copying
      split at step
      · rename_i all
        subst all
        obtain rfl := Option.some.inj step
        exact ⟨_, w, counts.readStore copying⟩
      · cases step
    · cases step
  | writeFrames data =>
    simp only at step
    split at step
    · rename_i idle
      obtain rfl := Option.some.inj step
      exact ⟨r, w, counts.writeFrames idle data fits⟩
    · cases step
  | writeCount =>
    simp only at step
    split at step
    · rename_i data rpos counting
      obtain rfl := Option.some.inj step
      exact ⟨r, w, counts.writeCount counting⟩
    · cases step
  | overrunLoad =>
    simp only at step
    split at step
    · rename_i data overrun
      obtain rfl := Option.some.inj step
      exact ⟨r, w, counts.overrunLoad overrun⟩
    · cases step
  | overrunStore =>
    simp only at step
    split at step
    · rename_i data rpos discarding
      obtain rfl := Option.some.inj step
      obtain ⟨r', counts⟩ := counts.overrunStore discarding clear
      exact ⟨r', w, counts⟩
    · cases step
  | writePosition =>
    simp only at step
    split at step
    · rename_i data tight counted
      obtain rfl := Option.some.inj step
      exact ⟨r, w, counts.writePosition counted⟩
    · cases step
  | writeFrame =>
    simp only at step
    split at step
    · rename_i data tight wpos done copying
      split at step
      · rename_i frame next
        obtain rfl := Option.some.inj step
        exact ⟨r, w, counts.writeFrame copying next⟩
      · cases step
    · cases step
  | writeStore =>
    simp only at step
    split at step
    · rename_i data tight wpos done copying
      split at step
      · rename_i all
        subst all
        obtain rfl := Option.some.inj step
        obtain ⟨r', counts⟩ := counts.writeStore copying
        exact ⟨r', _, counts⟩
      · cases step
    · cases step

theorem Counts.new (cfg : Config) (m_buffer : Nat → α) : Counts cfg (AudioStream.new m_buffer) 0 0 where
  order := Nat.le_refl _
  near := by rw [Nat.zero_add]; exact cfg.positive
  wpos := (Nat.zero_mod _).symm
  keeps := Keeps.nil
  reading := trivial
  writing := ⟨rfl, (Nat.zero_mod _).symm⟩
  quiet := False.elim
  out := List.nil_sublist _

theorem Counts.safe (counts : Counts cfg s r w) : Safe cfg s := by
  have order := counts.order
  have near := counts.near
  refine ⟨counts.out.trans (List.take_sublist _ _), ?_, ?_, ?_⟩
  · intro rpos frames_to_read done data tight wpos copied reading_eq writing_eq i below j inside
    have loose := counts.loose (by rw [reading_eq]; rintro ⟨⟩)
    have reading := counts.reading
    have writing := counts.writing
    rw [reading_eq] at reading
    rw [writing_eq] at writing loose
    obtain ⟨rpos_eq, few, -⟩ := reading
    obtain ⟨⟨-, -, wpos_eq⟩, fits, room⟩ := writing
    cases tight with
    | true => exact absurd rfl loose
    | false =>
      have behind := room.1
      rw [rpos_eq, wpos_eq, place_eq cfg (Nat.mod_lt _ cfg.positive) (by omega),
        place_eq cfg (Nat.mod_lt _ cfg.positive) (by omega), Nat.mod_add_mod, Nat.mod_add_mod]
      exact Keeps.cells_apart (by omega) (by omega)
  · exact counts.writing.inside
  · rw [counts.wpos]
    exact Nat.mod_lt _ cfg.positive

end

/-- In every interleaving whose overruns are clear of the reader, the frames copied out are a subsequence
of those written, none is copied while it is overwritten, and the positions stay in the buffer. -/
theorem frames_subsequence {α : Type*} (cfg : Config) (m_buffer : Nat → α) {s : AudioStream α}
    (run : Run (ClearSteps cfg) (AudioStream.new m_buffer) s) : Safe cfg s := by
  obtain ⟨r, w, counts⟩ := Run.invariant (I := fun s => ∃ r w, Counts cfg s r w) run
    ⟨0, 0, Counts.new cfg m_buffer⟩ fun s t ⟨r, w, counts⟩ step => counts.step step
  exact counts.safe

def oneFrame : List (Action Nat) :=
  [.writeFrames [7], .writeCount, .writePosition, .writeFrame, .writeStore, .readFrames 1, .readCount, .readPosition,
    .readFrame, .readStore]

theorem frames_subsequence_one :
    ∃ s, Run (ClearSteps ⟨768, by decide, true⟩) (AudioStream.new fun _ => (0 : Nat)) s ∧ s.out = [7] ∧
      Safe ⟨768, by decide, true⟩ s := by
  have out : (oneFrame.foldlM (fun s action => if action.Fits ⟨768, by decide, true⟩ ∧ s.Clear ⟨768, by decide, true⟩ action
      then s.step ⟨768, by decide, true⟩ action else none) (AudioStream.new fun _ => (0 : Nat))).map (·.out) =
      some [7] := by
    decide
  obtain ⟨s, runs, out⟩ := Option.map_eq_some_iff.mp out
  have run : Run (ClearSteps ⟨768, by decide, true⟩) (AudioStream.new fun _ => (0 : Nat)) s :=
    Run.of_actions (fun s action t step => by
      obtain ⟨⟨fits, clear⟩, step⟩ := Option.ite_none_right_eq_some.mp step
      exact ⟨action, fits, clear, step⟩) runs
  exact ⟨s, run, out, frames_subsequence _ _ run⟩

/-! ## An overrun during a read -/

def writeChunk : List (Action Nat) :=
  [.writeFrames (List.replicate 64 0), .writeCount, .writePosition] ++ List.replicate 64 .writeFrame ++ [.writeStore]

/-- The reader starts to copy 704 frames. Then a chunk overruns, and the one after it is written over what is
being copied. -/
def overwriting : List (Action Nat) :=
  (List.replicate 11 writeChunk).flatten ++ [.readFrames 704, .readCount, .readPosition] ++
  [.writeFrames (List.replicate 64 0), .writeCount, .overrunLoad, .overrunStore, .writePosition] ++
  List.replicate 64 .writeFrame ++ [.writeStore] ++ [.writeFrames (List.replicate 64 0), .writeCount, .writePosition]

def copied : Writing Nat → Option (Nat × Nat × Nat)
  | .copying data _ wpos done => some (data.length, wpos, done)
  | _ => none

/-- With a buffer of 768 frames. -/
theorem frames_overwritten :
    ∃ s, Run (Steps ⟨768, by decide, true⟩) (AudioStream.new fun _ => (0 : Nat)) s ∧
      ¬ Safe ⟨768, by decide, true⟩ s := by
  have places : (overwriting.foldlM (fun (s : AudioStream Nat) (action : Action Nat) =>
      if action.Fits ⟨768, by decide, true⟩ then s.step ⟨768, by decide, true⟩ action else none)
      (AudioStream.new fun _ => (0 : Nat))).map
      (fun s : AudioStream Nat => (s.reading, copied s.writing)) = some (.copying 0 704 0, some (64, 0, 0)) := by
    decide +kernel
  obtain ⟨s, runs, at_once⟩ := Option.map_eq_some_iff.mp places
  have run : Run (Steps ⟨768, by decide, true⟩) (AudioStream.new fun _ => (0 : Nat)) s :=
    Run.of_actions (fun s action t step => by
      obtain ⟨fits, step⟩ := Option.ite_none_right_eq_some.mp step
      exact ⟨action, fits, step⟩) runs
  refine ⟨s, run, fun safe => ?_⟩
  obtain ⟨reading, writing⟩ := Prod.mk.inj at_once
  cases copying : s.writing with
  | copying data tight wpos done =>
      obtain ⟨length, wpos_eq, -⟩ : data.length = 64 ∧ wpos = 0 ∧ done = 0 := by simpa [copying, copied] using writing
      exact safe.apart 0 704 0 data tight wpos done reading copying 0 (by decide) 0 (by omega) (by rw [wpos_eq])
  | idle | counting | overrun | discarding | counted => simp [copying, copied] at writing

end Pcsx2.Audio
