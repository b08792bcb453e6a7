import Pcsx2.GsTransfer.Resume

/-!
# Calls on one path

What the handlers get of a stream, however it is cut.
-/

namespace Pcsx2.GsTransfer
open GIFPath

variable {index : Nat} {path : GIFPath} {data : List Quadword} {source : Source}

/-! ## One call -/

theorem passes_spec (late : index ≠ 0) {fuel : Nat} (enough : data.length ≤ fuel) (sound : path.Sound)
    (resumes : path.Resumes data.length) :
    ∃ next, passes index fuel path data = some (next, (path.pending.feed data).2, []) ∧ next.Sound ∧
      next.pending = (path.pending.feed data).1 := by
  induction fuel generalizing path data with
  | zero =>
    obtain rfl := List.eq_nil_of_length_eq_zero (Nat.le_zero.mp enough)
    exact ⟨path, rfl, sound, rfl⟩
  | succ fuel ih =>
    cases data with
    | nil => exact ⟨path, rfl, sound, rfl⟩
    | cons r rest =>
      obtain ⟨middle, effects, left, result, passed⟩ := pass_passed sound (List.cons_ne_nil r rest) resumes
      have shorter := passed.shorter
      obtain ⟨next, results, nextSound, pending⟩ := ih (by omega) passed.sound passed.resumes
      refine ⟨next, ?_, nextSound, ?_⟩
      · unfold passes
        simp only [result, Option.bind_eq_bind, Option.bind_some, if_neg fun first : index = 0 ∧ _ => late first.1, results]
        rw [passed.fed]
        rfl
      · rw [pending, passed.fed]

theorem passes_none (fuel : Nat) (fits : data.length < 2 ^ 31) (sound : path.Sound) (fails : ¬ path.Resumes data.length) :
    passes index fuel path data = none := by
  cases data with
  | nil => exact absurd (fun _ _ _ empty => absurd rfl empty) fails
  | cons r rest =>
    cases fuel with
    | zero => rfl
    | succ fuel =>
      unfold passes
      rw [pass_none sound (List.cons_ne_nil r rest) fits fails]
      rfl

theorem Transfer_spec (late : index ≠ 0) (sound : path.Sound) (resumes : path.Resumes source.data.length) :
    ∃ next, Transfer index path source = some (next, (path.pending.feed source.data).2) ∧ next.Sound ∧
      next.pending = (path.pending.feed source.data).1 := by
  obtain ⟨next, result, nextSound, pending⟩ := passes_spec late le_rfl sound resumes
  refine ⟨next, ?_, nextSound, pending⟩
  unfold Transfer
  simp only [result, Option.bind_eq_bind, Option.bind_some, if_neg fun first : index = 0 ∧ _ => late first.1]

theorem Transfer_none (sound : path.Sound) (fails : ¬ path.Resumes source.data.length) : Transfer index path source = none := by
  unfold Transfer
  rw [passes_none _ source.fits sound fails]
  rfl

variable {effects : List Effect}

theorem sound_of_passes {fuel : Nat} (sound : path.Sound) (fits : data.length < 2 ^ 31) {next : GIFPath}
    {rest : List Quadword} (result : passes index fuel path data = some (next, effects, rest)) : next.Sound := by
  induction fuel generalizing path data effects with
  | zero =>
    cases data with
    | nil =>
      cases result
      exact sound
    | cons r data => cases result
  | succ fuel ih =>
    cases data with
    | nil =>
      cases result
      exact sound
    | cons r data =>
      unfold passes at result
      obtain ⟨⟨middle, first, left⟩, passed, later⟩ := Option.bind_eq_some_iff.mp result
      have pass := passed_of_pass sound (List.cons_ne_nil r data) fits passed
      dsimp only at later
      split at later
      · cases later
        exact pass.sound
      · obtain ⟨⟨last, effects', rest'⟩, results, same⟩ := Option.map_eq_some_iff.mp later
        cases same
        exact ih pass.sound (pass.shorter.trans fits) results

theorem sound_of_Transfer (sound : path.Sound) {next : GIFPath}
    (result : Transfer index path source = some (next, effects)) : next.Sound := by
  unfold Transfer at result
  obtain ⟨⟨last, effects', rest⟩, passed, later⟩ := Option.bind_eq_some_iff.mp result
  have lastSound := sound_of_passes sound source.fits passed
  dsimp only at later
  split at later
  · cases later
    exact sound_of_fields lastSound rfl rfl rfl fun goesOn => absurd rfl goesOn
  · cases later
    exact lastSound

/-! ## All calls -/

/-- The condition for each call, in the state that it finds. -/
def AlwaysResumes (index : Nat) (path : GIFPath) : List Source → Prop
  | [] => True
  | source :: later => path.Resumes source.data.length ∧
    ∀ next effects, Transfer index path source = some (next, effects) → AlwaysResumes index next later

variable {sources : List Source}

theorem transfers_spec (late : index ≠ 0) (sound : path.Sound)
    (resumes : AlwaysResumes index path sources) :
    ∃ next, transfers index path sources = some (next, (path.pending.feed (sources.flatMap Source.data)).2) := by
  induction sources generalizing path with
  | nil => exact ⟨path, rfl⟩
  | cons source later ih =>
    obtain ⟨middle, result, middleSound, pending⟩ := Transfer_spec late sound resumes.1
    obtain ⟨next, results⟩ := ih middleSound (resumes.2 middle _ result)
    refine ⟨next, ?_⟩
    rw [List.flatMap_cons, Pending.feed_append rfl, ← pending]
    unfold transfers
    simp only [result, results, Option.bind_eq_bind, Option.bind_some]

theorem transfers_none (late : index ≠ 0) (sound : path.Sound)
    (fails : ¬ AlwaysResumes index path sources) : transfers index path sources = none := by
  induction sources generalizing path with
  | nil => exact absurd trivial fails
  | cons source later ih =>
    unfold transfers
    by_cases resumes : path.Resumes source.data.length
    · obtain ⟨middle, result, middleSound, -⟩ := Transfer_spec late sound resumes
      have rest : ¬ AlwaysResumes index middle later := by
        intro always
        refine fails ⟨resumes, fun next effects same => ?_⟩
        rw [result] at same
        obtain ⟨rfl, -⟩ := Prod.mk.inj (Option.some.inj same)
        exact always
      simp only [result, ih middleSound rest, Option.bind_eq_bind, Option.bind_some, Option.bind_none]
    · rw [Transfer_none sound resumes]
      rfl

theorem reset_sound : GIFPath.reset.Sound := ⟨fun loops => absurd rfl loops, nofun, nofun, nofun⟩

theorem sound_of_transfers (sound : path.Sound) {next : GIFPath}
    (result : transfers index path sources = some (next, effects)) : next.Sound := by
  induction sources generalizing path effects with
  | nil =>
    cases result
    exact sound
  | cons source later ih =>
    unfold transfers at result
    obtain ⟨⟨middle, first⟩, passed, rest⟩ := Option.bind_eq_some_iff.mp result
    obtain ⟨⟨last, second⟩, results, same⟩ := Option.bind_eq_some_iff.mp rest
    cases same
    exact ih (sound_of_Transfer sound passed) results

/-- The handlers get what the format prescribes just when no call starts within a list of registers that it, or the
packet, ends with. -/
theorem transfers_prescribed_iff (late : index ≠ 0) (packets : List Packet) (sources : List Source)
    (cut : sources.flatMap Source.data = packets.flatMap Packet.words) :
    (∃ path, transfers index GIFPath.reset sources = some (path, packets.flatMap Packet.effects)) ↔
      AlwaysResumes index GIFPath.reset sources := by
  constructor
  · rintro ⟨path, result⟩
    by_contra fails
    rw [transfers_none late reset_sound fails] at result
    cases result
  · intro resumes
    obtain ⟨next, result⟩ := transfers_spec late reset_sound resumes
    refine ⟨next, ?_⟩
    rw [result, cut, pending_done rfl, Pending.feed_packets]

/-! ### A vertex -/

def vertexPacket : Packet where
  head := ⟨0x2000000000000001, 0x51⟩
  data := [⟨0x80, 0⟩, ⟨0x100, 0⟩]
  full := by decide

def wholeVertex : List Source := [⟨vertexPacket.words, by decide⟩]

def cutVertex : List Source := [⟨[⟨0x2000000000000001, 0x51⟩, ⟨0x80, 0⟩], by decide⟩, ⟨[⟨0x100, 0⟩], by decide⟩]

theorem transfers_prescribed_iff_vertex :
    (∃ path, transfers 3 GIFPath.reset wholeVertex = some (path, [vertexPacket].flatMap Packet.effects)) ↔
      AlwaysResumes 3 GIFPath.reset wholeVertex :=
  transfers_prescribed_iff (by decide) [vertexPacket] wholeVertex (by decide)

/-- The packet ends within the loop to the start of the list, and the count of what is left wraps. -/
theorem cut_packet_fails : ¬ ∀ (packets : List Packet) (sources : List Source), sources.flatMap Source.data = packets.flatMap Packet.words →
    ∃ path, transfers 3 GIFPath.reset sources = some (path, packets.flatMap Packet.effects) := by
  intro always
  obtain ⟨path, result⟩ := always [vertexPacket] cutVertex (by decide)
  have nothing : (transfers 3 GIFPath.reset cutVertex).isNone = true := by decide
  rw [result] at nothing
  cases nothing

end Pcsx2.GsTransfer
