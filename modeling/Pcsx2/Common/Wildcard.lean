import Mathlib.Data.List.Count
import Mathlib.Data.Prod.Lex
import Mathlib.Order.WellFounded
import Pcsx2.Foundation.Glob
import Pcsx2.Foundation.Loop

/-!
# Wildcards

`WildcardMatch` goes back to the last `*` it has met and to no earlier one. The bodies for the two
values of `case_sensitive` differ in how they compare letters.
-/

namespace Pcsx2.Common

open Foundation Foundation.Glob

structure CString where
  bytes : List UInt8
  nonzero : 0 ∉ bytes

def deref (rest : List UInt8) : UInt8 := rest.headD 0

/-- `'*'` -/
def star : UInt8 := 42

/-- `'?'` -/
def question : UInt8 := 63

def tolower (c : UInt8) : UInt8 := if 65 ≤ c ∧ c ≤ 90 then c + 32 else c

/-- How the body for a value of `case_sensitive` compares a letter of the mask with one of the subject. -/
def equal (case_sensitive : Bool) (m c : UInt8) : Bool :=
  if case_sensitive then tolower m == tolower c else m == c

/-- The loop up to the first `*`, `none` where it returns false. -/
def leading (case_sensitive : Bool) : (subject mask : List UInt8) → Option (List UInt8 × List UInt8)
  | [], mask => some ([], mask)
  | c :: subject, mask =>
    if deref mask = star then some (c :: subject, mask)
    else if deref mask ≠ question ∧ !equal case_sensitive (deref mask) c then none
    else leading case_sensitive subject mask.tail

structure Scan where
  subject : List UInt8
  mask : List UInt8
  mp : Option (List UInt8)
  cp : Option (List UInt8)

def Scan.turn (case_sensitive : Bool) (s : Scan) : Turn Scan Bool :=
  match s.subject with
  | [] => .done (s.mask.dropWhile (· == star)).isEmpty
  | c :: subject =>
    if deref s.mask = star then
      if deref s.mask.tail = 0 then .done true
      else .again { s with mask := s.mask.tail, mp := some s.mask.tail, cp := some subject }
    else if deref s.mask = question ∨ equal case_sensitive (deref s.mask) c then
      .again { s with mask := s.mask.tail, subject := subject }
    else
      match s.mp, s.cp with
      | some mp, some cp => .again { s with mask := mp, subject := cp, cp := some cp.tail }
      | _, _ => .fault

/-- `none` where `fuel` turns do not end the loop, or a null pointer is followed. -/
def wildcardMatch (subject mask : CString) (case_sensitive : Bool) (fuel : Nat) : Option Bool :=
  match leading case_sensitive subject.bytes mask.bytes with
  | none => some false
  | some (subject, mask) => Loop.run (Scan.turn case_sensitive) fuel ⟨subject, mask, none, none⟩

/-! ## Masks as globs -/

def symbol (m : UInt8) : Symbol UInt8 := if m = star then .star else if m = question then .any else .letter m

def Globs (same : UInt8 → UInt8 → Prop) (mask subject : List UInt8) : Prop := Matches same (mask.map symbol) subject

section

variable {same : UInt8 → UInt8 → Prop} {m c : UInt8} {mask front subject : List UInt8}

theorem symbol_eq_star : symbol m = .star ↔ m = star := by
  unfold symbol
  split
  · simp_all
  · split <;> simp_all

theorem star_mem_map : Symbol.star ∈ front.map symbol ↔ star ∈ front := by
  simp only [List.mem_map, symbol_eq_star, exists_eq_right]

theorem globs_nil : Globs same [] subject ↔ subject = [] := matches_nil_iff

theorem globs_cons (single : m ≠ star) :
    Globs same (m :: mask) (c :: subject) ↔ (m = question ∨ same m c) ∧ Globs same mask subject := by
  unfold Globs
  rw [List.map_cons, matches_cons_iff (mt symbol_eq_star.1 single)]
  apply and_congr_left'
  unfold symbol
  rw [if_neg single]
  split <;> simp_all [Symbol.Accepts]

theorem globs_star : Globs same (star :: mask) subject ↔ ∃ rest, rest <:+ subject ∧ Globs same mask rest := by
  unfold Globs
  rw [List.map_cons, symbol_eq_star.2 rfl, matches_star_iff]

theorem globs_star_cons :
    Globs same (star :: mask) (c :: subject) ↔ Globs same mask (c :: subject) ∨ Globs same (star :: mask) subject := by
  simp only [globs_star, List.suffix_cons_iff, or_and_right, exists_or, exists_eq_left]

theorem globs_star_tail : Globs same (star :: mask) subject ↔ Globs same mask subject ∨ Globs same (star :: mask) subject.tail := by
  cases subject with
  | nil => simp [globs_star, List.suffix_nil]
  | cons c subject => exact globs_star_cons

theorem globs_star_of_suffix {rest : List UInt8} (matched : Globs same (star :: mask) rest) (suffix : rest <:+ subject) :
    Globs same (star :: mask) subject := by
  unfold Globs at *
  rw [List.map_cons, symbol_eq_star.2 rfl] at *
  exact matched.star_of_suffix suffix

theorem globs_nil_iff : Globs same mask [] ↔ (mask.dropWhile (· == star)).isEmpty := by
  induction mask with
  | nil => simp [globs_nil]
  | cons m mask ih =>
      by_cases single : m = star
      · subst single
        rw [globs_star, List.dropWhile_cons_of_pos (by simp), ← ih]
        simp [List.suffix_nil]
      · rw [List.dropWhile_cons_of_neg (by simpa using single)]
        refine iff_of_false ?_ (by simp)
        exact not_matches_cons_nil (mt symbol_eq_star.1 single)

theorem Globs.absorb {taken : List UInt8} (single : star ∉ front) (length : taken.length = front.length)
    (matched : Globs same (star :: (front ++ mask)) (taken ++ subject)) :
    ∃ rest, rest <:+ subject ∧ Globs same mask rest := by
  unfold Globs at matched
  rw [List.map_cons, symbol_eq_star.2 rfl, List.map_append] at matched
  exact matched.absorb (mt star_mem_map.1 single) (by rw [length, List.length_map])

end

/-! ## The loop behind the first star -/

variable {case_sensitive : Bool} {whole : Prop} {mask subject : List UInt8}

def Accepts (case_sensitive : Bool) : (mask subject : List UInt8) → Prop :=
  Globs fun m c => equal case_sensitive m c = true

/-- `whole` is the answer still to be found. The mask since the last star has no star and has met
as many letters as it is long; the next attempt would begin one letter later. -/
inductive Searching (case_sensitive : Bool) (whole : Prop) : Scan → Prop
  | fresh {mask subject : List UInt8} (clean : 0 ∉ subject) (clean' : 0 ∉ mask) (first : deref mask = star ∨ subject = [])
      (answer : whole ↔ Accepts case_sensitive mask subject) :
      Searching case_sensitive whole ⟨subject, mask, none, none⟩
  | behind {front mask taken subject : List UInt8} (clean : 0 ∉ taken ++ subject) (clean' : 0 ∉ front ++ mask)
      (single : star ∉ front) (length : taken.length = front.length)
      (answer : whole ↔ Accepts case_sensitive mask subject ∨
        Accepts case_sensitive (star :: (front ++ mask)) (taken ++ subject).tail) :
      Searching case_sensitive whole ⟨subject, mask, some (front ++ mask), some (taken ++ subject).tail⟩

def Scan.rank (s : Scan) : ℕ ×ₗ ℕ ×ₗ ℕ :=
  toLex (s.mask.count star, toLex ((s.cp.getD []).length, s.subject.length))

theorem deref_eq_zero (clean : 0 ∉ mask) : deref mask = 0 ↔ mask = [] := by
  cases mask with
  | nil => exact iff_of_true rfl rfl
  | cons m mask =>
      refine iff_of_false ?_ (List.cons_ne_nil m mask)
      exact fun eq => clean (eq ▸ List.mem_cons_self)

theorem tolower_ne_zero {c : UInt8} (nonzero : c ≠ 0) : tolower c ≠ 0 := by
  unfold tolower
  split
  · rename_i upper
    rw [UInt8.le_iff_toNat_le, UInt8.le_iff_toNat_le] at upper
    intro eq
    have sum := congrArg UInt8.toNat eq
    rw [UInt8.toNat_add] at sum
    simp at sum upper
    omega
  · exact nonzero

theorem not_equal_zero {c : UInt8} (nonzero : c ≠ 0) : equal case_sensitive 0 c = false := by
  unfold equal
  have lower := tolower_ne_zero nonzero
  split
  · rw [show tolower 0 = 0 from rfl]
    exact beq_eq_false_iff_ne.2 lower.symm
  · exact beq_eq_false_iff_ne.2 nonzero.symm

theorem Scan.rank_lt {s t : Scan} (falls : t.mask.count star < s.mask.count star ∨ t.mask.count star = s.mask.count star ∧
    ((t.cp.getD []).length < (s.cp.getD []).length ∨
      (t.cp.getD []).length = (s.cp.getD []).length ∧ t.subject.length < s.subject.length)) : t.rank < s.rank := by
  simpa only [Scan.rank, Prod.Lex.toLex_lt_toLex] using falls

namespace Searching

variable {s : Scan} {c m : UInt8} {mp cp : Option (List UInt8)}

theorem clean_subject (searching : Searching case_sensitive whole s) : 0 ∉ s.subject := by
  cases searching with
  | fresh clean _ _ _ => exact clean
  | behind clean _ _ _ _ => exact fun mem => clean (List.mem_append_right _ mem)

theorem clean_mask (searching : Searching case_sensitive whole s) : 0 ∉ s.mask := by
  cases searching with
  | fresh _ clean _ _ => exact clean
  | behind _ clean _ _ _ => exact fun mem => clean (List.mem_append_right _ mem)

theorem answer_here (searching : Searching case_sensitive whole s) (here : s.subject = [] ∨ deref s.mask = star) :
    whole ↔ Accepts case_sensitive s.mask s.subject := by
  cases searching with
  | fresh _ _ _ answer => exact answer
  | @behind front mask taken subject _ _ single length answer =>
      refine answer.trans (or_iff_left_of_imp fun later => ?_)
      obtain ⟨rest, suffix, matched⟩ := Globs.absorb single length (globs_star_of_suffix later (List.tail_suffix _))
      rcases here with nil | first
      · subst nil
        exact List.suffix_nil.1 suffix ▸ matched
      · cases mask with
        | nil => cases first
        | cons m mask =>
            subst first
            exact globs_star_of_suffix matched suffix

theorem turn_nil (searching : Searching case_sensitive whole ⟨[], mask, mp, cp⟩) :
    (mask.dropWhile (· == star)).isEmpty = true ↔ whole :=
  globs_nil_iff.symm.trans (searching.answer_here (.inl rfl)).symm

theorem turn_last_star (searching : Searching case_sensitive whole ⟨subject, [star], mp, cp⟩) : whole :=
  (searching.answer_here (.inr rfl)).2 (globs_star.2 ⟨[], List.nil_suffix, globs_nil.2 rfl⟩)

theorem turn_star (searching : Searching case_sensitive whole ⟨c :: subject, star :: mask, mp, cp⟩) :
    Searching case_sensitive whole ⟨c :: subject, mask, some mask, some subject⟩ := by
  have clean := searching.clean_mask
  have answer := searching.answer_here (.inr rfl)
  exact @Searching.behind _ _ [] _ [] _ searching.clean_subject (fun mem => clean (List.mem_cons_of_mem _ mem))
    List.not_mem_nil rfl (answer.trans globs_star_cons)

theorem turn_met (searching : Searching case_sensitive whole ⟨c :: subject, m :: mask, mp, cp⟩) (single : m ≠ star)
    (met : m = question ∨ equal case_sensitive m c = true) :
    Searching case_sensitive whole ⟨subject, mask, mp, cp⟩ := by
  cases searching with
  | fresh _ _ first _ => rcases first with first | nil
                         · exact absurd first single
                         · cases nil
  | @behind front _ taken _ clean clean' none length answer =>
      rw [List.append_cons front] at clean' answer ⊢
      rw [List.append_cons taken] at clean answer ⊢
      refine .behind clean clean' ?_ (by simp [length]) (answer.trans (or_congr_left ?_))
      · simp [none, Ne.symm single]
      · exact (globs_cons single).trans (and_iff_right met)

theorem turn_back (searching : Searching case_sensitive whole ⟨c :: subject, mask, mp, cp⟩)
    (single : deref mask ≠ star) (unmet : ¬Accepts case_sensitive mask (c :: subject)) :
    ∃ mask' subject', mp = some mask' ∧ cp = some subject' ∧ mask'.count star = mask.count star ∧
      Searching case_sensitive whole ⟨subject', mask', some mask', some subject'.tail⟩ := by
  cases searching with
  | fresh _ _ first _ => rcases first with first | nil
                         · exact absurd first single
                         · cases nil
  | @behind front _ taken _ clean clean' none length answer =>
      refine ⟨_, _, rfl, rfl, ?_, ?_⟩
      · rw [List.count_append, List.count_eq_zero.2 none, Nat.zero_add]
      · have clean'' : 0 ∉ (taken ++ c :: subject).tail := fun mem => clean (List.mem_of_mem_tail mem)
        refine @Searching.behind _ _ [] _ [] _ clean'' clean' List.not_mem_nil rfl (answer.trans ?_)
        rw [or_iff_right unmet]
        exact globs_star_tail

theorem turn_spec (searching : Searching case_sensitive whole s) :
    match s.turn case_sensitive with
    | .again t => Searching case_sensitive whole t ∧ t.rank < s.rank
    | .done b => (b = true ↔ whole)
    | .fault => False := by
  obtain ⟨subject, mask, mp, cp⟩ := s
  cases subject with
  | nil => exact searching.turn_nil
  | cons c subject =>
      have nonzero : c ≠ 0 := fun eq => searching.clean_subject (eq ▸ List.mem_cons_self)
      by_cases first : deref mask = star
      · cases mask with
        | nil => cases first
        | cons m mask =>
            obtain rfl : m = star := first
            have first : deref (star :: mask) = star := rfl
            by_cases last : deref mask = 0
            · obtain rfl := (deref_eq_zero fun mem => searching.clean_mask (List.mem_cons_of_mem _ mem)).1 last
              simp only [Scan.turn, first, List.tail_cons, last, if_true, true_iff]
              exact searching.turn_last_star
            · simp only [Scan.turn, first, List.tail_cons, last, if_true, if_false]
              exact ⟨searching.turn_star, Scan.rank_lt (.inl (by simp))⟩
      · by_cases met : deref mask = question ∨ equal case_sensitive (deref mask) c = true
        · simp only [Scan.turn, first, met, if_true, if_false]
          cases mask with
          | nil => simp only [deref, List.headD_nil, not_equal_zero nonzero] at met
                   exact absurd met (by decide)
          | cons m mask =>
              refine ⟨searching.turn_met first met, Scan.rank_lt (.inr ⟨?_, .inr ⟨rfl, Nat.lt_succ_self _⟩⟩)⟩
              exact (List.count_cons_of_ne first).symm
        · have unmet : ¬Accepts case_sensitive mask (c :: subject) := by
            cases mask with
            | nil => exact fun accepts => by cases globs_nil.1 accepts
            | cons m mask => exact fun accepts => met ((globs_cons first).1 accepts).1
          obtain ⟨mask', subject', rfl, rfl, stars, next⟩ := searching.turn_back first unmet
          simp only [Scan.turn, first, met, if_false]
          refine ⟨next, Scan.rank_lt (.inr ⟨stars, ?_⟩)⟩
          cases subject' with
          | nil => exact .inr ⟨rfl, Nat.succ_pos _⟩
          | cons c' subject' => exact .inl (Nat.lt_succ_self _)

theorem turn_again {t : Scan} (searching : Searching case_sensitive whole s) (next : s.turn case_sensitive = .again t) :
    Searching case_sensitive whole t ∧ t.rank < s.rank := by
  simpa only [next] using searching.turn_spec

theorem ends (searching : Searching case_sensitive whole s) :
    ∃ b, Loop.Ends (Scan.turn case_sensitive) s b ∧ (b = true ↔ whole) := by
  obtain ⟨b, ends⟩ := Loop.exists_ends Scan.rank (I := Searching case_sensitive whole)
    (fun s searching wrong => by simpa only [wrong] using searching.turn_spec)
    (fun s t searching next => searching.turn_again next) searching
  refine ⟨b, ends, ends.invariant (I := Searching case_sensitive whole) (Q := fun b => b = true ↔ whole) ?_ ?_ searching⟩
  · exact fun s t searching next => (searching.turn_again next).1
  · exact fun s b searching now => by simpa only [now] using searching.turn_spec

end Searching

/-! ## The whole function -/

theorem leading_spec (clean : 0 ∉ subject) (clean' : 0 ∉ mask) :
    match leading case_sensitive subject mask with
    | none => ¬Accepts case_sensitive mask subject
    | some (subject', mask') =>
      Searching case_sensitive (Accepts case_sensitive mask subject) ⟨subject', mask', none, none⟩ := by
  induction subject generalizing mask with
  | nil => exact .fresh clean clean' (.inr rfl) Iff.rfl
  | cons c subject ih =>
      have nonzero : c ≠ 0 := fun eq => clean (eq ▸ List.mem_cons_self)
      have clean'' : 0 ∉ subject := fun mem => clean (List.mem_cons_of_mem _ mem)
      by_cases first : deref mask = star
      · simp only [leading, first, if_true]
        exact .fresh clean clean' (.inl first) Iff.rfl
      · cases mask with
        | nil =>
            have unmet : deref [] ≠ question ∧ (!equal case_sensitive (deref []) c) = true :=
              ⟨by decide, by rw [show deref [] = 0 from rfl, not_equal_zero nonzero, Bool.not_false]⟩
            simp only [leading, first, if_false, if_pos unmet]
            exact fun accepts => by cases globs_nil.1 accepts
        | cons m mask =>
            have accepts_iff : Accepts case_sensitive (m :: mask) (c :: subject) ↔
                (m = question ∨ equal case_sensitive m c = true) ∧ Accepts case_sensitive mask subject := globs_cons first
            have step : leading case_sensitive (c :: subject) (m :: mask) =
                if m ≠ question ∧ !equal case_sensitive m c then none else leading case_sensitive subject mask := by
              rw [leading, if_neg first]
              rfl
            by_cases unmet : m ≠ question ∧ (!equal case_sensitive m c) = true
            · rw [step, if_pos unmet, accepts_iff]
              rintro ⟨rfl | met, _⟩
              · exact unmet.1 rfl
              · simp [met] at unmet
            · have met : m = question ∨ equal case_sensitive m c = true := by
                by_contra neither
                simp [not_or] at neither
                exact unmet ⟨neither.1, by simp [neither.2]⟩
              have rest := ih clean'' fun mem => clean' (List.mem_cons_of_mem m mem)
              rw [and_iff_right met] at accepts_iff
              rw [step, if_neg unmet, accepts_iff]
              exact rest

theorem wildcardMatch_spec (subject mask : CString) (case_sensitive : Bool) : ∃ fuel b,
    wildcardMatch subject mask case_sensitive fuel = some b ∧ (b = true ↔ Accepts case_sensitive mask.bytes subject.bytes) := by
  have spec := @leading_spec case_sensitive _ _ subject.nonzero mask.nonzero
  cases start : leading case_sensitive subject.bytes mask.bytes with
  | none =>
      simp only [start] at spec
      exact ⟨0, false, by simp only [wildcardMatch, start], by simp [spec]⟩
  | some rests =>
      simp only [start] at spec
      obtain ⟨b, ends, answer⟩ := spec.ends
      obtain ⟨fuel, ran⟩ := ends.run
      exact ⟨fuel, b, by simp only [wildcardMatch, start, ran], answer⟩

theorem wildcardMatch_unique {subject mask : CString} {fuel fuel' : Nat} {b b' : Bool}
    (ran : wildcardMatch subject mask case_sensitive fuel = some b)
    (ran' : wildcardMatch subject mask case_sensitive fuel' = some b') : b = b' := by
  unfold wildcardMatch at ran ran'
  cases start : leading case_sensitive subject.bytes mask.bytes with
  | none =>
      simp only [start, Option.some.injEq] at ran ran'
      exact ran.symm.trans ran'
  | some rests =>
      simp only [start] at ran ran'
      exact (Loop.Ends.of_run ran).unique (.of_run ran')

/-! ## Letters and their case -/

/-- The mask matches the subject letter by letter. -/
def MatchesExactly (subject mask : CString) : Prop := Globs (· = ·) mask.bytes subject.bytes

/-- The mask matches the subject when the case of the letters of ASCII is ignored. -/
def MatchesIgnoringCase (subject mask : CString) : Prop :=
  Globs (fun m c => tolower m = tolower c) mask.bytes subject.bytes

/-- The function ends, follows no null pointer and gives the answer that its parameter asks for. -/
def RightAnswer (subject mask : CString) (case_sensitive : Bool) : Prop :=
  ∃ fuel b, wildcardMatch subject mask case_sensitive fuel = some b ∧
    (b = true ↔ if case_sensitive then MatchesExactly subject mask else MatchesIgnoringCase subject mask)

variable {subject mask : CString}

theorem MatchesExactly.ignoringCase (exactly : MatchesExactly subject mask) : MatchesIgnoringCase subject mask :=
  Matches.mono (fun _ _ eq => congrArg tolower eq) exactly

theorem accepts_iff (subject mask : CString) (case_sensitive : Bool) : Accepts case_sensitive mask.bytes subject.bytes ↔
    if case_sensitive then MatchesIgnoringCase subject mask else MatchesExactly subject mask := by
  cases case_sensitive <;> simp [Accepts, equal, MatchesIgnoringCase, MatchesExactly]

/-- The two bodies are the wrong way round. -/
theorem wildcardMatch_right_iff (subject mask : CString) (case_sensitive : Bool) :
    RightAnswer subject mask case_sensitive ↔ MatchesExactly subject mask ∨ ¬MatchesIgnoringCase subject mask := by
  obtain ⟨fuel, b, ran, answer⟩ := wildcardMatch_spec subject mask case_sensitive
  have weaker : MatchesExactly subject mask → MatchesIgnoringCase subject mask := MatchesExactly.ignoringCase
  have right_iff : RightAnswer subject mask case_sensitive ↔
      (b = true ↔ if case_sensitive then MatchesExactly subject mask else MatchesIgnoringCase subject mask) := by
    constructor
    · rintro ⟨fuel', b', ran', answer'⟩
      exact wildcardMatch_unique ran' ran ▸ answer'
    · exact fun answer' => ⟨fuel, b, ran, answer'⟩
  rw [right_iff, answer, accepts_iff]
  cases case_sensitive
  · simp only [Bool.false_eq_true, if_false]
    tauto
  · simp only [if_true]
    tauto

/-- `"A"` against `"a"` with `case_sensitive` set. -/
theorem wildcardMatch_of_wrong_case : ¬RightAnswer ⟨[65], by decide⟩ ⟨[97], by decide⟩ true := by
  rintro ⟨fuel, b, ran, answer⟩
  have found : wildcardMatch ⟨[65], by decide⟩ ⟨[97], by decide⟩ true 1 = some true := by decide
  have yes : MatchesExactly ⟨[65], by decide⟩ ⟨[97], by decide⟩ := by
    simpa only [if_true] using answer.1 (wildcardMatch_unique ran found)
  have letters := (globs_cons (by decide)).1 yes
  exact absurd letters.1 (by decide)

end Pcsx2.Common
