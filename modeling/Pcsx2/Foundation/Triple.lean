import Mathlib.Data.Option.Basic
import Mathlib.Logic.Basic
import Mathlib.Tactic.ByContra

/-!
# Programs that can go wrong

A program runs on a state and may go wrong, after which nothing is known. A triple is total: from a state of the
precondition the program does not go wrong.
-/

namespace Pcsx2.Foundation

universe u

variable {σ α β : Type u}

abbrev Program (σ α : Type u) := StateT σ Option α

/-! ## Single states -/

namespace Program

variable {program : Program σ α} {next : α → Program σ β} {s t : σ} {a : α}

theorem andThen_some (ran : program s = some (a, t)) : (program >>= next) s = next a t := by
  change (program s >>= fun p => next p.1 p.2) = next a t
  rw [ran]
  rfl

theorem andThen_none (wrong : program s = none) : (program >>= next) s = none := by
  change (program s >>= fun p => next p.1 p.2) = none
  rw [wrong]
  rfl

end Program

/-! ## Triples -/

def Triple (P : σ → Prop) (program : Program σ α) (Q : α → σ → Prop) : Prop :=
  ∀ s, P s → ∃ a t, program s = some (a, t) ∧ Q a t

namespace Triple

variable {P P' : σ → Prop} {Q Q' : α → σ → Prop} {R : β → σ → Prop}

theorem result {a : α} (post : ∀ s, P s → Q a s) : Triple P (pure a) Q :=
  fun s holds => ⟨a, s, rfl, post s holds⟩

theorem andThen {program : Program σ α} {next : α → Program σ β} (first : Triple P program Q)
    (second : ∀ a, Triple (Q a) (next a) R) : Triple P (program >>= next) R := by
  intro s holds
  obtain ⟨a, t, ran, between⟩ := first s holds
  obtain ⟨b, u, went, post⟩ := second a t between
  refine ⟨b, u, ?_, post⟩
  rw [Program.andThen_some ran]
  exact went

theorem weaken {program : Program σ α} (triple : Triple P program Q) (pre : ∀ s, P' s → P s)
    (post : ∀ a s, Q a s → Q' a s) : Triple P' program Q' := by
  intro s holds
  obtain ⟨a, t, ran, after⟩ := triple s (pre s holds)
  exact ⟨a, t, ran, post a t after⟩

theorem inspect {next : σ → Program σ β} (each : ∀ s, P s → Triple P (next s) R) : Triple P (get >>= next) R :=
  fun s holds => each s holds s holds

theorem given {c : Prop} {program : Program σ α} (known : c → Triple P program Q) :
    Triple (fun s => c ∧ P s) program Q :=
  fun s holds => known holds.1 s holds.2

theorem update {f : σ → σ} {Q : PUnit → σ → Prop} (post : ∀ s, P s → Q ⟨⟩ (f s)) : Triple P (modify f) Q :=
  fun s holds => ⟨⟨⟩, f s, rfl, post s holds⟩

theorem branch {c : Prop} [Decidable c] {first second : Program σ α} (yes : c → Triple P first Q)
    (no : ¬c → Triple P second Q) : Triple P (if c then first else second) Q := by
  by_cases holds : c
  · rw [if_pos holds]
    exact yes holds
  · rw [if_neg holds]
    exact no holds

end Triple

/-! ## Partial triples -/

def Ensures (P : σ → Prop) (program : Program σ α) (Q : α → σ → Prop) : Prop :=
  ∀ s a t, P s → program s = some (a, t) → Q a t

namespace Ensures

variable {P P' : σ → Prop} {Q Q' : α → σ → Prop} {R : β → σ → Prop} {program first second : Program σ α}

theorem result {a : α} (post : ∀ s, P s → Q a s) : Ensures P (pure a) Q := by
  intro s b t holds ran
  obtain ⟨rfl, rfl⟩ := Prod.mk.inj (Option.some.inj ran)
  exact post _ holds

theorem andThen {next : α → Program σ β} (first : Ensures P program Q) (second : ∀ a, Ensures (Q a) (next a) R) :
    Ensures P (program >>= next) R := by
  intro s b u holds ran
  cases went : program s with
  | none =>
      rw [Program.andThen_none went] at ran
      cases ran
  | some outcome =>
      obtain ⟨a, t⟩ := outcome
      rw [Program.andThen_some went] at ran
      exact second a t b u (first s a t holds went) ran

theorem weaken (ensures : Ensures P program Q) (pre : ∀ s, P' s → P s) (post : ∀ a s, Q a s → Q' a s) :
    Ensures P' program Q' :=
  fun s a t holds ran => post a t (ensures s a t (pre s holds) ran)

theorem update {f : σ → σ} {Q : PUnit → σ → Prop} (post : ∀ s, P s → Q ⟨⟩ (f s)) : Ensures P (modify f) Q := by
  intro s a t holds ran
  obtain ⟨rfl, rfl⟩ := Prod.mk.inj (Option.some.inj ran)
  exact post s holds

theorem read {ν : Type u} {view : σ → ν} : Ensures P (do return view (← get) : Program σ ν) fun v s => P s ∧ view s = v := by
  intro s v t holds ran
  obtain ⟨rfl, rfl⟩ := Prod.mk.inj (Option.some.inj ran)
  exact ⟨holds, rfl⟩

theorem wrong {program : Program σ α} (never : ∀ s, program s = none) : Ensures P program Q := by
  intro s a t holds ran
  rw [never s] at ran
  cases ran

theorem branch {c : Prop} [Decidable c] (yes : c → Ensures P first Q) (no : ¬c → Ensures P second Q) :
    Ensures P (if c then first else second) Q := by
  by_cases holds : c
  · rw [if_pos holds]
    exact yes holds
  · rw [if_neg holds]
    exact no holds

theorem join {c : Prop} [Decidable c] {next : α → Program σ β} (cases : Ensures P (if c then first else second) Q)
    (rest : ∀ a, Ensures (Q a) (next a) R) : Ensures P (if c then first >>= next else second >>= next) R := by
  by_cases holds : c
  · rw [if_pos holds] at cases ⊢
    exact cases.andThen rest
  · rw [if_neg holds] at cases ⊢
    exact cases.andThen rest

end Ensures

/-! ## Invariants -/

def Maintains (I : σ → Prop) (program : Program σ α) : Prop := Triple I program fun _ => I

namespace Maintains

variable {I : σ → Prop} {program : Program σ α}

theorem result (a : α) : Maintains I (pure a) := Triple.result fun _ holds => holds

theorem andThen {next : α → Program σ β} (first : Maintains I program) (second : ∀ a, Maintains I (next a)) :
    Maintains I (program >>= next) :=
  Triple.andThen first second

theorem inspect {next : σ → Program σ β} (each : ∀ s, I s → Maintains I (next s)) : Maintains I (get >>= next) :=
  Triple.inspect each

theorem update {f : σ → σ} (keeps : ∀ s, I s → I (f s)) : Maintains I (modify f) := Triple.update keeps

theorem branch {c : Prop} [Decidable c] {first second : Program σ α} (yes : c → Maintains I first)
    (no : ¬c → Maintains I second) : Maintains I (if c then first else second) :=
  Triple.branch yes no

end Maintains

/-! ## Exact conditions -/

/-- From the state the program goes wrong exactly where the condition fails, and else it keeps the invariant. -/
def Exactly (I : σ → Prop) (program : Program σ α) (s : σ) (c : Prop) : Prop :=
  (c → ∃ a t, program s = some (a, t) ∧ I t) ∧ (¬c → program s = none)

namespace Exactly

variable {I : σ → Prop} {program first second : Program σ α} {next : α → Program σ β} {s t : σ} {a : α} {c c' : Prop}

theorem always (maintains : Maintains I program) (holds : I s) (known : c) : Exactly I program s c :=
  ⟨fun _ => maintains s holds, fun no => absurd known no⟩

theorem wrong (none : program s = none) (no : ¬c) : Exactly I program s c :=
  ⟨fun yes => absurd yes no, fun _ => none⟩

theorem congr (exactly : Exactly I program s c) (same : c ↔ c') : Exactly I program s c' :=
  ⟨fun yes => exactly.1 (same.mpr yes), fun no => exactly.2 fun yes => no (same.mp yes)⟩

theorem after (ran : program s = some (a, t)) (rest : Exactly I (next a) t c) : Exactly I (program >>= next) s c := by
  constructor
  · intro yes
    rw [Program.andThen_some ran]
    exact rest.1 yes
  · intro no
    rw [Program.andThen_some ran]
    exact rest.2 no

theorem andThen (exactly : Exactly I program s c) (rest : ∀ a, Maintains I (next a)) :
    Exactly I (program >>= next) s c := by
  constructor
  · intro yes
    obtain ⟨a, t, ran, holds⟩ := exactly.1 yes
    rw [Program.andThen_some ran]
    exact rest a t holds
  · exact fun no => Program.andThen_none (exactly.2 no)

theorem inspect {next : σ → Program σ β} (exactly : Exactly I (next s) s c) : Exactly I (get >>= next) s c :=
  after rfl exactly

theorem branch {d : Prop} [Decidable d] (yes : d → Exactly I first s c) (no : ¬d → Exactly I second s c) :
    Exactly I (if d then first else second) s c := by
  by_cases holds : d
  · rw [if_pos holds]
    exact yes holds
  · rw [if_neg holds]
    exact no holds

theorem iff (exactly : Exactly I program s c) : (∃ a t, program s = some (a, t)) ↔ c := by
  constructor
  · rintro ⟨a, t, ran⟩
    by_contra no
    rw [exactly.2 no] at ran
    exact absurd ran (by simp)
  · intro yes
    obtain ⟨a, t, ran, -⟩ := exactly.1 yes
    exact ⟨a, t, ran⟩

theorem keeps (exactly : Exactly I program s c) (ran : program s = some (a, t)) : I t := by
  obtain ⟨b, u, same, holds⟩ := exactly.1 (exactly.iff.mp ⟨a, t, ran⟩)
  rw [ran] at same
  obtain ⟨-, rfl⟩ := Prod.mk.inj (Option.some.inj same)
  exact holds

end Exactly

end Pcsx2.Foundation

/-!
# Two runs of one program

The same program is run from two states. Rules for what its runs keep equal or related, where both fail when one does.
-/

namespace Pcsx2.Foundation

universe u

variable {σ α β : Type u} {m : StateT σ Option α} {f : α → StateT σ Option β}
  {R R' : σ → σ → Prop} {Q Q' : α → σ → σ → Prop} {T : β → σ → σ → Prop}

/-- From states that `R` relates, the runs of `m` give one result and end in states that `Q` relates for it. -/
def Lockstep (m : StateT σ Option α) (R : σ → σ → Prop) (Q : α → σ → σ → Prop) : Prop :=
  ∀ s s', R s s' → Option.Rel (fun x y => x.1 = y.1 ∧ Q x.1 x.2 y.2) (m s) (m s')

namespace Lockstep

theorem conseq (lockstep : Lockstep m R Q) (stronger : ∀ s s', R' s s' → R s s')
    (weaker : ∀ a s s', Q a s s' → Q' a s s') : Lockstep m R' Q' := by
  intro s s' related
  match m s, m s', lockstep s s' (stronger s s' related) with
  | _, _, .some both => exact .some ⟨both.1, weaker _ _ _ both.2⟩
  | _, _, .none => exact .none

theorem before (lockstep : Lockstep m R Q) (stronger : ∀ s s', R' s s' → R s s') : Lockstep m R' Q :=
  lockstep.conseq stronger fun _ _ _ holds => holds

theorem after (lockstep : Lockstep m R Q) (weaker : ∀ a s s', Q a s s' → Q' a s s') : Lockstep m R Q' :=
  lockstep.conseq (fun _ _ holds => holds) weaker

theorem pure {a : α} (holds : ∀ s s', R s s' → Q a s s') : Lockstep (pure a : StateT σ Option α) R Q :=
  fun s s' related => .some ⟨rfl, holds s s' related⟩

theorem bind (first : Lockstep m R Q) (rest : ∀ a, Lockstep (f a) (Q a) T) : Lockstep (m >>= f) R T := by
  intro s s' related
  show Option.Rel _ (Option.bind (m s) _) (Option.bind (m s') _)
  match m s, m s', first s s' related with
  | none, none, .none => exact .none
  | some (a, _), some (_, _), .some both =>
    obtain ⟨rfl, holds⟩ := both
    exact rest a _ _ holds

theorem ite {c : Prop} [Decidable c] {m' : StateT σ Option α} (yes : c → Lockstep m R Q)
    (no : ¬ c → Lockstep m' R Q) : Lockstep (if c then m else m') R Q := by
  split
  · exact yes ‹_›
  · exact no ‹_›

theorem join {c : Prop} [Decidable c] {m' : StateT σ Option α} (first : Lockstep (if c then m else m') R Q)
    (rest : ∀ a, Lockstep (f a) (Q a) T) : Lockstep (if c then m >>= f else m' >>= f) R T := by
  split
  · rename_i holds
    rw [if_pos holds] at first
    exact first.bind rest
  · rename_i fails
    rw [if_neg fails] at first
    exact first.bind rest

theorem when {c : Prop} [Decidable c] {m : StateT σ Option PUnit} {f : PUnit → StateT σ Option β}
    (first : Lockstep m R fun _ => R) (rest : Lockstep (f ⟨⟩) R T) : Lockstep (if c then m >>= f else f ⟨⟩) R T := by
  split
  · exact first.bind fun _ => rest
  · exact rest

theorem read {ν : Type u} {view : σ → ν} (same : ∀ s s', R s s' → view s = view s') :
    Lockstep (do return view (← get) : StateT σ Option ν) R fun v s s' => R s s' ∧ view s = v :=
  fun s s' related => .some ⟨same s s' related, related, rfl⟩

theorem modify {update : σ → σ} {Q : PUnit → σ → σ → Prop} (keeps : ∀ s s', R s s' → Q ⟨⟩ (update s) (update s')) :
    Lockstep (modify update : StateT σ Option PUnit) R Q :=
  fun s s' related => .some ⟨rfl, keeps s s' related⟩

theorem observe {ν : Type u} {s s' : σ} (lockstep : Lockstep m R Q) (related : R s s') (view : σ → ν)
    (same : ∀ a s s', Q a s s' → view s = view s') :
    (m s).map (Prod.map id view) = (m s').map (Prod.map id view) := by
  match m s, m s', lockstep s s' related with
  | none, none, .none => rfl
  | some (a, t), some (_, t'), .some both =>
    obtain ⟨rfl, holds⟩ := both
    exact congrArg (fun v => some (a, v)) (same a t t' holds)

end Lockstep

end Pcsx2.Foundation

namespace Pcsx2.Foundation

universe u v

variable {σ α β : Type u} {ε : Type v} {m : StateT σ (Except ε) α} {f : α → StateT σ (Except ε) β} {s : σ}

/-- From `s` the computation faults exactly when `fine` fails, and otherwise ends as `post` has it. -/
def Outcome (m : StateT σ (Except ε) α) (s : σ) (fine : Prop) (post : α → σ → Prop) : Prop :=
  match m s with
  | .ok (a, t) => fine ∧ post a t
  | .error _ => ¬ fine

theorem bind_ok {a : α} {t : σ} (runs : m s = .ok (a, t)) : (m >>= f) s = f a t := by
  show Except.bind (m s) _ = _
  rw [runs]
  rfl

namespace Outcome

variable {fine next : Prop} {mid post post' : α → σ → Prop} {last : β → σ → Prop}

theorem congr (outcome : Outcome m s fine post) (same : fine ↔ next) : Outcome m s next post :=
  propext same ▸ outcome

theorem weaken (outcome : Outcome m s fine post) (weaker : fine → ∀ a t, post a t → post' a t) :
    Outcome m s fine post' := by
  unfold Outcome at *
  split
  · rename_i a t ends
    rw [ends] at outcome
    exact ⟨outcome.1, weaker outcome.1 a t outcome.2⟩
  · rename_i e ends
    rw [ends] at outcome
    exact outcome

theorem done {a : α} {t : σ} (runs : m s = .ok (a, t)) (holds : post a t) : Outcome m s True post := by
  unfold Outcome
  rw [runs]
  exact ⟨trivial, holds⟩

theorem error {e : ε} (runs : m s = .error e) (faulty : ¬ fine) : Outcome m s fine post := by
  unfold Outcome
  rw [runs]
  exact faulty

theorem bind (first : Outcome m s fine mid)
    (rest : ∀ a t, fine → mid a t → Outcome (f a) t next last) :
    Outcome (m >>= f) s (fine ∧ next) last := by
  unfold Outcome at first
  split at first
  · rename_i a t ends
    have after := rest a t first.1 first.2
    unfold Outcome at after ⊢
    rw [bind_ok ends]
    split at after
    · exact ⟨⟨first.1, after.1⟩, after.2⟩
    · exact fun fines => after fines.2
  · rename_i e ends
    have both : (m >>= f) s = .error e := by
      show Except.bind (m s) _ = _
      rw [ends]
      rfl
    unfold Outcome
    rw [both]
    exact fun fines => first fines.1

theorem andThen (first : Outcome m s True mid) (rest : ∀ a t, mid a t → Outcome (f a) t next last) :
    Outcome (m >>= f) s next last :=
  (first.bind fun a t _ => rest a t).congr (by simp)

theorem bindTotal (first : Outcome m s fine mid)
    (rest : ∀ a t, fine → mid a t → Outcome (f a) t True last) : Outcome (m >>= f) s fine last :=
  (first.bind rest).congr (by simp)

theorem faulty (first : Outcome m s fine mid) (fails : ¬ fine) (also : ¬ next) : Outcome (m >>= f) s next last := by
  have both : Outcome (m >>= f) s (fine ∧ next) last := first.bind fun _ _ holds _ => absurd holds fails
  exact both.congr (iff_of_false (fun fines => fails fines.1) also)

theorem step {a : α} {t : σ} (runs : m s = .ok (a, t)) (rest : Outcome (f a) t next last) :
    Outcome (m >>= f) s next last := by
  have first : Outcome m s True fun b u => b = a ∧ u = t := done runs ⟨rfl, rfl⟩
  apply first.andThen
  rintro b u ⟨rfl, rfl⟩
  exact rest

theorem fail {e : ε} (runs : m s = .error e) (faulty : ¬ next) : Outcome (m >>= f) s next last := by
  have faults : (m >>= f) s = .error e := by
    show Except.bind (m s) _ = _
    rw [runs]
    rfl
  exact error faults faulty

theorem ite {c : Prop} [Decidable c] {m' : StateT σ (Except ε) α}
    (yes : c → Outcome m s fine post) (no : ¬ c → Outcome m' s fine post) :
    Outcome (if c then m else m') s fine post := by
  split
  · exact yes ‹_›
  · exact no ‹_›

end Outcome

end Pcsx2.Foundation
