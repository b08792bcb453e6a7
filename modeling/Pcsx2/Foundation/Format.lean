import Mathlib.Data.List.Basic

/-!
# Formats

A reader takes a value from a buffer, from some place on, and leaves the place behind it; where the
buffer ends too early there is none. A format is a reader with the bytes it reads a value from.
-/

namespace Pcsx2.Foundation

abbrev Reader (β α : Type) := ReaderT (List β) (StateT Nat Option) α

namespace Reader

variable {β α γ : Type} {r : Reader β α} {f : α → Reader β γ} {g : α → γ} {buffer bytes bytes' : List β} {place place' n m : Nat}
  {a : α} {c : γ}

def item : Reader β β := fun buffer place => buffer[place]?.map fun b => (b, place + 1)

def items (n : Nat) : Reader β (List β) := fun buffer place =>
  if place + n ≤ buffer.length then some ((buffer.drop place).take n, place + n) else none

def chunk (n : Nat) : Reader β { bytes : List β // bytes.length = n } := fun buffer place =>
  if enough : place + n ≤ buffer.length then
    some (⟨(buffer.drop place).take n, by rw [List.length_take, List.length_drop]; omega⟩, place + n)
  else none

def skip (n : Nat) : Reader β Unit := fun _ place => some ((), place + n)

def lift (answer : Option α) : Reader β α := fun _ place => answer.map fun a => (a, place)

def many : Nat → Reader β α → Reader β (List α)
  | 0, _ => pure []
  | n + 1, r => do
      let a ← r
      let rest ← many n r
      pure (a :: rest)

theorem bind_some (read : r buffer place = some (a, place')) : (r >>= f) buffer place = f a buffer place' := by
  show Option.bind (r buffer place) _ = _
  rw [read]
  rfl

theorem bind_none (read : r buffer place = none) : (r >>= f) buffer place = none := by
  show Option.bind (r buffer place) _ = _
  rw [read]
  rfl

theorem bind_eq_some {behind : Nat} (read : (r >>= f) buffer place = some (c, behind)) :
    ∃ a place', r buffer place = some (a, place') ∧ f a buffer place' = some (c, behind) := by
  cases first : r buffer place with
  | none =>
      rw [bind_none first] at read
      cases read
  | some pair =>
      rw [bind_some first] at read
      exact ⟨pair.1, pair.2, rfl, read⟩

theorem item_eq_some {b : β} (read : item buffer place = some (b, place')) : buffer[place]? = some b ∧ place' = place + 1 := by
  obtain ⟨c, found, same⟩ := Option.map_eq_some_iff.1 read
  cases same
  exact ⟨found, rfl⟩

/-! ## Readers of a fixed size -/

/-- The reader needs `n` items and no more. -/
def Sized (r : Reader β α) (n : Nat) : Prop := ∀ buffer place,
  (place + n ≤ buffer.length → ∃ a, r buffer place = some (a, place + n)) ∧ (buffer.length < place + n → r buffer place = none)

theorem sized_item : Sized (item : Reader β β) 1 := by
  intro buffer place
  unfold item
  constructor
  · intro enough
    exact ⟨buffer[place], by rw [List.getElem?_eq_getElem (by omega)]; rfl⟩
  · intro short
    rw [List.getElem?_eq_none (by omega)]
    rfl

theorem sized_items : Sized (items n : Reader β (List β)) n := by
  intro buffer place
  constructor
  · exact fun enough => ⟨_, if_pos enough⟩
  · exact fun short => if_neg (by omega)

theorem sized_chunk : Sized (chunk n : Reader β _) n := by
  intro buffer place
  constructor
  · exact fun enough => ⟨_, dif_pos enough⟩
  · exact fun short => dif_neg (by omega)

theorem Sized.place_eq (sized : Sized r n) (read : r buffer place = some (a, place')) : place' = place + n := by
  rcases Nat.lt_or_ge buffer.length (place + n) with short | enough
  · rw [(sized buffer place).2 short] at read
    cases read
  · obtain ⟨a', read'⟩ := (sized buffer place).1 enough
    rw [read] at read'
    cases read'
    rfl

theorem Sized.bind (first : Sized r n) (rest : ∀ a, Sized (f a) m) : Sized (r >>= f) (n + m) := by
  intro buffer place
  rcases Nat.lt_or_ge buffer.length (place + n) with short | enough
  · refine ⟨fun enough => by omega, fun _ => bind_none ((first buffer place).2 short)⟩
  · obtain ⟨a, read⟩ := (first buffer place).1 enough
    rw [bind_some read, ← Nat.add_assoc]
    exact rest a buffer (place + n)

theorem Sized.map (first : Sized r n) : Sized (r >>= fun a => pure (g a)) n := by
  intro buffer place
  constructor
  · intro enough
    obtain ⟨a, read⟩ := (first buffer place).1 enough
    exact ⟨g a, bind_some read⟩
  · exact fun short => bind_none ((first buffer place).2 short)

theorem Sized.many (sized : Sized r m) (inside : place ≤ buffer.length) :
    (place + n * m ≤ buffer.length → ∃ values, many n r buffer place = some (values, place + n * m)) ∧
      (buffer.length < place + n * m → many n r buffer place = none) := by
  induction n generalizing place with
  | zero =>
      rw [Nat.zero_mul]
      exact ⟨fun _ => ⟨[], rfl⟩, fun short => absurd inside (Nat.not_le_of_lt short)⟩
  | succ n ih =>
      rw [Nat.succ_mul, Nat.add_comm (n * m), ← Nat.add_assoc]
      rcases Nat.lt_or_ge buffer.length (place + m) with short | enough
      · exact ⟨fun enough => by omega, fun _ => bind_none ((sized buffer place).2 short)⟩
      · obtain ⟨a, read⟩ := (sized buffer place).1 enough
        obtain ⟨whole, none⟩ := ih enough
        constructor
        · intro enough
          obtain ⟨values, others⟩ := whole enough
          exact ⟨a :: values, (bind_some read).trans (bind_some others)⟩
        · exact fun short => (bind_some read).trans (bind_none (none short))

theorem Sized.skipping (rest : Sized r m) : Sized (skip n >>= fun _ => r) (n + m) := by
  intro buffer place
  have first : Reader.skip n buffer place = some ((), place + n) := rfl
  rw [bind_some first, ← Nat.add_assoc]
  exact rest buffer (place + n)

theorem Sized.isSome_iff (sized : Sized r n) : (r buffer place).isSome ↔ place + n ≤ buffer.length := by
  rcases Nat.lt_or_ge buffer.length (place + n) with short | enough
  · rw [(sized buffer place).2 short]
    exact iff_of_false Bool.false_ne_true (by omega)
  · obtain ⟨a, read⟩ := (sized buffer place).1 enough
    rw [read]
    exact iff_of_true rfl enough

/-! ## What is read back -/

/-- Standing in front of the bytes, the reader gives the value and stands behind them. -/
def Reads (r : Reader β α) (bytes : List β) (a : α) : Prop :=
  ∀ before after, r (before ++ (bytes ++ after)) before.length = some (a, before.length + bytes.length)

theorem reads_item (b : β) : Reads item [b] b := by
  intro before after
  simp [item]

theorem reads_items (bytes : List β) (length : bytes.length = n) : Reads (items n) bytes bytes := by
  subst length
  intro before after
  rw [items, if_pos (by simp), List.drop_left, List.take_left]

theorem Reads.bind (first : Reads r bytes a) (rest : Reads (f a) bytes' c) : Reads (r >>= f) (bytes ++ bytes') c := by
  intro before after
  have here := first before (bytes' ++ after)
  have there := rest (before ++ bytes) after
  rw [List.append_assoc, List.length_append] at there
  rw [List.append_assoc bytes, bind_some here, there, List.length_append, Nat.add_assoc]

theorem Reads.map (first : Reads r bytes a) : Reads (r >>= fun a => pure (g a)) bytes (g a) :=
  fun before after => bind_some (first before after)

theorem Reads.lift {answer : α → Option γ} (first : Reads r bytes a) (found : answer a = some c) :
    Reads (r >>= fun a => Reader.lift (answer a)) bytes c := by
  intro before after
  rw [bind_some (first before after), Reader.lift, found]
  rfl

theorem Reads.skipping (length : bytes.length = n) (rest : Reads r bytes' a) : Reads (skip n >>= fun _ => r) (bytes ++ bytes') a := by
  subst length
  have first : Reads (Reader.skip bytes.length) bytes () := fun _ _ => rfl
  exact first.bind rest

theorem reads_many (write : α → List β) {values : List α} (each : ∀ a ∈ values, Reads r (write a) a) :
    Reads (many values.length r) (values.flatMap write) values := by
  induction values with
  | nil => exact fun _ _ => rfl
  | cons a values ih =>
      rw [List.forall_mem_cons] at each
      exact each.1.bind (ih each.2).map

theorem length_of_many {values : List α} (read : many n r buffer place = some (values, place')) : values.length = n := by
  induction n generalizing place values place' with
  | zero =>
      cases read
      rfl
  | succ n ih =>
      obtain ⟨a, _, _, read⟩ := bind_eq_some read
      obtain ⟨rest, _, others, read⟩ := bind_eq_some read
      cases read
      rw [List.length_cons, ih others]

theorem getElem?_front {b : β} {front rest : List β} : (front ++ b :: rest)[front.length]? = some b := by
  rw [List.getElem?_append_right (Nat.le_refl _), Nat.sub_self]
  rfl

theorem getElem?_front_succ {b c : β} {front rest : List β} : (front ++ b :: c :: rest)[front.length + 1]? = some c := by
  rw [List.getElem?_append_right (Nat.le_add_right _ _), Nat.add_sub_cancel_left]
  rfl

theorem Reads.at (reads : Reads r bytes a) (before after : List β) (whole : buffer = before ++ (bytes ++ after))
    (here : place = before.length) : r buffer place = some (a, place + bytes.length) := by
  subst whole here
  exact reads before after

end Reader

end Pcsx2.Foundation

/-!
# Readers with fuel

A reader that follows what it reads may have no end, so it is given fuel, and more fuel than it
needs changes nothing.
-/

namespace Pcsx2.Foundation.Reader

def peek {β : Type} : Reader β β := fun buffer place => buffer[place]?.map fun b => (b, place)

def elsewhere {β α : Type} (target : Nat) (r : Reader β α) : Reader β α :=
  fun buffer place => (r buffer target).map fun v => (v.1, place)

variable {β α γ : Type} {r : Nat → Reader β α} {f : Nat → α → Reader β γ} {buffer bytes bytes' : List β} {place behind n m k : Nat}
  {a : α} {c : γ}

def Below (r r' : Reader β α) : Prop := ∀ buffer place v, r buffer place = some v → r' buffer place = some v

def Grows (r : Nat → Reader β α) : Prop := ∀ n, Below (r n) (r (n + 1))

def Gives (r : Nat → Reader β α) (buffer : List β) (place : Nat) (a : α) (behind : Nat) : Prop :=
  ∃ n, r n buffer place = some (a, behind)

def ReadsBack (r : Nat → Reader β α) (bytes : List β) (a : α) : Prop := ∃ n, Reads (r n) bytes a

theorem Below.refl (r : Reader β α) : Below r r := fun _ _ _ read => read

theorem Below.bind {r r' : Reader β α} {f f' : α → Reader β γ} (first : Below r r') (rest : ∀ a, Below (f a) (f' a)) :
    Below (r >>= f) (r' >>= f') := by
  intro buffer place v read
  obtain ⟨a, between, here, there⟩ := bind_eq_some read
  exact (bind_some (first _ _ _ here)).trans (rest a _ _ _ there)

theorem Below.elsewhere {r r' : Reader β α} (target : Nat) (below : Below r r') :
    Below (Reader.elsewhere target r) (Reader.elsewhere target r') := by
  intro buffer place v read
  obtain ⟨v', here, same⟩ := Option.map_eq_some_iff.1 read
  exact Option.map_eq_some_iff.2 ⟨v', below _ _ _ here, same⟩

theorem Grows.le {v : α × Nat} (grows : Grows r) (more : n ≤ m) (read : r n buffer place = some v) :
    r m buffer place = some v := by
  induction more with
  | refl => exact read
  | step _ ih => exact grows _ _ _ _ ih

theorem Grows.const (r : Reader β α) : Grows fun _ => r := fun _ => Below.refl r

theorem Grows.bind (first : Grows r) (rest : ∀ a, Grows fun n => f n a) : Grows fun n => r n >>= f n :=
  fun n => (first n).bind fun a => rest a n

theorem Grows.many (grows : Grows r) : Grows fun n => Reader.many k (r n) := by
  induction k with
  | zero => exact Grows.const _
  | succ k ih => exact grows.bind fun a => ih.bind fun rest => Grows.const _

/-! ## What is read -/

theorem gives_const {r : Reader β α} : Gives (fun _ => r) buffer place a behind ↔ r buffer place = some (a, behind) :=
  exists_const _

theorem gives_bind (first : Grows r) (rest : ∀ a, Grows fun n => f n a) :
    Gives (fun n => r n >>= f n) buffer place c behind ↔
      ∃ a between, Gives r buffer place a between ∧ Gives (fun n => f n a) buffer between c behind := by
  constructor
  · rintro ⟨n, read⟩
    obtain ⟨a, between, here, there⟩ := bind_eq_some read
    exact ⟨a, between, ⟨n, here⟩, n, there⟩
  · rintro ⟨a, between, ⟨n, here⟩, m, there⟩
    refine ⟨max n m, (bind_some (first.le (Nat.le_max_left n m) here)).trans ?_⟩
    exact (rest a).le (Nat.le_max_right n m) there

def Spans (r : Nat → Reader β α) (buffer : List β) (place behind : Nat) : Prop := ∃ a, Gives r buffer place a behind

def Row (related : Nat → Nat → Prop) : Nat → Nat → Nat → Prop
  | 0, place, behind => place = behind
  | k + 1, place, behind => ∃ between, related place between ∧ Row related k between behind

theorem Row.congr {related related' : Nat → Nat → Prop} (same : ∀ a b, related a b ↔ related' a b) :
    Row related k place behind ↔ Row related' k place behind := by
  induction k generalizing place with
  | zero => exact Iff.rfl
  | succ k ih => exact exists_congr fun between => and_congr (same _ _) ih

theorem spans_bind (first : Grows r) (rest : ∀ a, Grows fun n => f n a) :
    Spans (fun n => r n >>= f n) buffer place behind ↔
      ∃ a between, Gives r buffer place a between ∧ Spans (fun n => f n a) buffer between behind := by
  simp only [Spans, gives_bind first rest]
  constructor
  · rintro ⟨c, a, between, here, there⟩
    exact ⟨a, between, here, c, there⟩
  · rintro ⟨a, between, here, c, there⟩
    exact ⟨c, a, between, here, there⟩

theorem spans_map {g : α → γ} (grows : Grows r) :
    Spans (fun n => r n >>= fun a => pure (g a)) buffer place behind ↔ Spans r buffer place behind := by
  refine (spans_bind (f := fun _ a => pure (g a)) grows fun _ => Grows.const _).trans ?_
  constructor
  · rintro ⟨a, between, here, c, there⟩
    obtain ⟨_, stay⟩ := there
    cases stay
    exact ⟨a, here⟩
  · rintro ⟨a, here⟩
    exact ⟨a, behind, here, g a, 0, rfl⟩

theorem spans_bind_of_const {rests : Nat → Prop} (first : Grows r) (rest : ∀ a, Grows fun n => f n a)
    (same : ∀ a between, Spans (fun n => f n a) buffer between behind ↔ rests between) :
    Spans (fun n => r n >>= f n) buffer place behind ↔ ∃ between, Spans r buffer place between ∧ rests between := by
  refine (spans_bind first rest).trans ?_
  simp only [same]
  constructor
  · rintro ⟨a, between, here, there⟩
    exact ⟨between, ⟨a, here⟩, there⟩
  · rintro ⟨between, ⟨a, here⟩, there⟩
    exact ⟨a, between, here, there⟩

theorem spans_then {f : α → Reader β γ} {rests : Nat → Prop} (grows : Grows r)
    (same : ∀ a between, Spans (fun _ => f a) buffer between behind ↔ rests between) :
    Spans (fun n => r n >>= f) buffer place behind ↔ ∃ between, Spans r buffer place between ∧ rests between :=
  spans_bind_of_const grows (fun a => Grows.const (f a)) same

theorem spans_bind_sized {r : Reader β α} (sized : Sized r m) (rest : ∀ a, Grows fun n => f n a) :
    Spans (fun n => r >>= f n) buffer place behind ↔
      ∃ a, r buffer place = some (a, place + m) ∧ Spans (fun n => f n a) buffer (place + m) behind := by
  refine (spans_bind (Grows.const r) rest).trans ?_
  simp only [gives_const]
  constructor
  · rintro ⟨a, between, here, there⟩
    obtain rfl := sized.place_eq here
    exact ⟨a, here, there⟩
  · rintro ⟨a, here, there⟩
    exact ⟨a, place + m, here, there⟩

theorem spans_then_sized {r : Reader β α} {f : α → Reader β γ} (sized : Sized r m) :
    Spans (fun _ => r >>= f) buffer place behind ↔
      ∃ a, r buffer place = some (a, place + m) ∧ Spans (fun _ => f a) buffer (place + m) behind :=
  spans_bind_sized sized fun a => Grows.const (f a)

theorem spans_sized {r : Reader β α} (sized : Sized r m) :
    Spans (fun _ => r) buffer place behind ↔ behind = place + m ∧ behind ≤ buffer.length := by
  simp only [Spans, gives_const]
  constructor
  · rintro ⟨a, read⟩
    obtain rfl := sized.place_eq read
    exact ⟨rfl, sized.isSome_iff.1 (by rw [read]; rfl)⟩
  · rintro ⟨rfl, inside⟩
    exact (sized buffer place).1 inside

theorem spans_many (grows : Grows r) :
    Spans (fun n => Reader.many k (r n)) buffer place behind ↔ Row (Spans r buffer) k place behind := by
  induction k generalizing place with
  | zero =>
      constructor
      · rintro ⟨_, _, read⟩
        cases read
        rfl
      · rintro rfl
        exact ⟨[], 0, rfl⟩
  | succ k ih =>
      have others (a : α) : Grows fun n => Reader.many k (r n) >>= fun rest => pure (a :: rest) :=
        grows.many.bind fun _ => Grows.const _
      exact spans_bind_of_const grows others fun a between => (spans_map grows.many).trans ih

/-! ## What is read back -/

theorem Grows.reads (grows : Grows r) (more : n ≤ m) (reads : Reads (r n) bytes a) : Reads (r m) bytes a :=
  fun before after => grows.le more (reads before after)

theorem ReadsBack.const {r : Reader β α} (reads : Reads r bytes a) : ReadsBack (fun _ => r) bytes a := ⟨0, reads⟩

theorem ReadsBack.bind (first : Grows r) (rest : ∀ a, Grows fun n => f n a) (here : ReadsBack r bytes a)
    (there : ReadsBack (fun n => f n a) bytes' c) : ReadsBack (fun n => r n >>= f n) (bytes ++ bytes') c := by
  obtain ⟨n, here⟩ := here
  obtain ⟨m, there⟩ := there
  have more : Reads (f (max n m) a) bytes' c := (rest a).reads (Nat.le_max_right n m) there
  exact ⟨max n m, (first.reads (Nat.le_max_left n m) here).bind more⟩

theorem ReadsBack.map {g : α → γ} (here : ReadsBack r bytes a) : ReadsBack (fun n => r n >>= fun a => pure (g a)) bytes (g a) := by
  obtain ⟨n, here⟩ := here
  exact ⟨n, here.map⟩

theorem ReadsBack.many (grows : Grows r) (write : α → List β) {values : List α} (each : ∀ a ∈ values, ReadsBack r (write a) a) :
    ReadsBack (fun n => Reader.many values.length (r n)) (values.flatMap write) values := by
  induction values with
  | nil => exact ⟨0, fun _ _ => rfl⟩
  | cons a values ih =>
      rw [List.forall_mem_cons] at each
      obtain ⟨n, here⟩ := each.1
      obtain ⟨m, there⟩ := ih each.2
      have more : Reads (Reader.many values.length (r (max n m))) (values.flatMap write) values :=
        grows.many.reads (Nat.le_max_right n m) there
      exact ⟨max n m, (grows.reads (Nat.le_max_left n m) here).bind more.map⟩

end Pcsx2.Foundation.Reader
