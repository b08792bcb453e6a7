import Pcsx2.Common.Path

/-!
# Canonical paths

What a path denotes, and when `Canonicalize` keeps it.
-/

namespace Pcsx2.Common
open Foundation

/-- Where a walk through names has come to: how many parents found no name to take back, and the names that are left. -/
structure Walk where
  parents : Nat
  names : List (List Byte)
  deriving DecidableEq

def Walk.step (walk : Walk) (name : List Byte) : Walk :=
  if name = dot then walk
  else if name = dotDot then
    if walk.names ≠ [] then { walk with names := walk.names.dropLast } else { walk with parents := walk.parents + 1 }
  else { walk with names := walk.names ++ [name] }

def walk (names : List (List Byte)) : Walk := names.foldl Walk.step ⟨0, []⟩

structure Location where
  scheme : List Byte
  absolute : Bool
  parents : Nat
  names : List (List Byte)
  deriving DecidableEq

/-- The location of what follows the scheme. -/
def place (scheme rest : List Byte) : Location :=
  let walked := walk (pieces separator rest)
  ⟨scheme, isAbsolute rest, if isAbsolute rest then 0 else walked.parents, walked.names⟩

def location (path : List Byte) : Location :=
  place (path.take (getURISchemeLength path)) (path.drop (getURISchemeLength path))

/-- The law of `Canonicalize` for a path. -/
structure Canonicalizes (path : List Byte) : Prop where
  idempotent : canonicalize (canonicalize path) = canonicalize path
  absolute : isAbsolute path = true → isAbsolute (canonicalize path) = true
  location : location (canonicalize path) = location path

/-- A relative path that leads up by one parent at most, or an absolute one that never leaves the root and ends below it. -/
def Followed (rest : List Byte) : Prop :=
  let walked := walk (pieces separator rest)
  if isAbsolute rest then walked.parents = 0 ∧ walked.names ≠ [] else walked.parents ≤ 1

structure Plain (name : List Byte) : Prop where
  piece : IsPiece separator name
  not_dot : name ≠ dot
  not_dotDot : name ≠ dotDot

variable {path rest name scheme : List Byte} {names components : List (List Byte)} {absolute single : Bool} {walked : Walk}

/-! ## Walks -/

theorem isPiece_dotDot : IsPiece separator dotDot := by decide

theorem Walk.step_plain (plain : Plain name) : walked.step name = { walked with names := walked.names ++ [name] } := by
  simp [Walk.step, plain.not_dot, plain.not_dotDot]

theorem foldl_plain (plain : ∀ name ∈ names, Plain name) :
    names.foldl Walk.step walked = { walked with names := walked.names ++ names } := by
  induction names generalizing walked with
  | nil => simp
  | cons name names ih =>
      obtain ⟨here, behind⟩ := List.forall_mem_cons.1 plain
      simp [Walk.step_plain here, ih behind]

theorem walk_plain (plain : ∀ name ∈ names, Plain name) : walk names = ⟨0, names⟩ := foldl_plain plain

theorem foldl_names_plain (are : ∀ name ∈ components, IsPiece separator name) (plain : ∀ name ∈ walked.names, Plain name) :
    ∀ name ∈ (components.foldl Walk.step walked).names, Plain name := by
  induction components generalizing walked with
  | nil => exact plain
  | cons component components ih =>
      obtain ⟨here, behind⟩ := List.forall_mem_cons.1 are
      refine ih behind ?_
      simp only [Walk.step]
      split_ifs with is_dot is_dotDot some_names
      · exact plain
      · exact fun name mem => plain name (List.dropLast_subset _ mem)
      · exact plain
      · intro name mem
        rcases List.mem_append.1 mem with mem | mem
        · exact plain name mem
        · rw [List.mem_singleton.1 mem]
          exact ⟨here, is_dot, is_dotDot⟩

theorem walk_names_plain (rest : List Byte) : ∀ name ∈ (walk (pieces separator rest)).names, Plain name :=
  foldl_names_plain (fun _ mem => isPiece_of_mem mem) (by simp)

/-! ## Components -/

/-- What stands in front of the names: a second parent takes the first one back, and the first one the root. -/
def front (absolute : Bool) : Nat → List (List Byte)
  | 0 => if absolute then [[]] else []
  | parents + 1 => if front absolute parents = [] then [dotDot] else []

theorem front_succ (absolute : Bool) (parents : Nat) :
    front absolute (parents + 1) = [] ∨ front absolute (parents + 1) = [dotDot] := by
  rw [front]
  split_ifs
  · exact .inr rfl
  · exact .inl rfl

theorem front_dropLast (absolute : Bool) (parents : Nat) : (front absolute parents).dropLast = [] := by
  cases parents with
  | zero => cases absolute <;> rfl
  | succ parents => rcases front_succ absolute parents with same | same <;> simp [same]

theorem canonicalizeComponent_eq (name : List Byte) :
    canonicalizeComponent false (front absolute walked.parents ++ walked.names) name =
      front absolute (walked.step name).parents ++ (walked.step name).names := by
  by_cases is_dot : name = dot
  · simp [canonicalizeComponent, Walk.step, is_dot]
  by_cases is_dotDot : name = dotDot
  · by_cases some_names : walked.names = []
    · by_cases in_front : front absolute walked.parents = []
      · simp [canonicalizeComponent, Walk.step, is_dotDot, some_names, in_front, front, dot, dotDot]
      · simp [canonicalizeComponent, Walk.step, is_dotDot, some_names, in_front, front, front_dropLast, dot, dotDot]
    · have longer : front absolute walked.parents ++ walked.names ≠ [] := by simp [some_names]
      simp [canonicalizeComponent, Walk.step, is_dotDot, some_names, List.dropLast_append_of_ne_nil, dot, dotDot]
  · simp [canonicalizeComponent, Walk.step, is_dot, is_dotDot]

theorem foldl_canonicalizeComponent (components : List (List Byte)) :
    components.foldl (canonicalizeComponent false) (front absolute walked.parents ++ walked.names) =
      front absolute (components.foldl Walk.step walked).parents ++ (components.foldl Walk.step walked).names := by
  induction components generalizing walked with
  | nil => rfl
  | cons component components ih => rw [List.foldl_cons, List.foldl_cons, canonicalizeComponent_eq, ih]

def canonicalizeRest (rest : List Byte) : List Byte :=
  joinNativePath (canonicalizeComponents (splitNativePath rest))

theorem canonicalizeComponents_eq (rest : List Byte) : canonicalizeComponents (splitNativePath rest) =
    if splitNativePath rest = [dot] then [dot]
    else front (isAbsolute rest) (walk (pieces separator rest)).parents ++ (walk (pieces separator rest)).names := by
  have run (absolute : Bool) (components : List (List Byte)) :
      components.foldl (canonicalizeComponent false) (front absolute 0) =
        front absolute (walk components).parents ++ (walk components).names := by
    simpa [walk] using @foldl_canonicalizeComponent absolute ⟨0, []⟩ components
  rw [canonicalizeComponents, splitNativePath_eq]
  cases absolute : isAbsolute rest with
  | true =>
      have start (single : Bool) : canonicalizeComponent single [] [] = front true 0 := by cases single <;> rfl
      have not_dot : [] :: pieces separator rest ≠ [dot] := by simp [dot]
      simp only [if_true, List.singleton_append, if_neg not_dot, List.foldl_cons, start]
      cases names_eq : pieces separator rest with
      | nil => rfl
      | cons name names =>
          have several : decide (([] :: name :: names).length = 1) = false := by simp
          rw [several, run]
  | false =>
      simp only [Bool.false_eq_true, if_false, List.nil_append]
      rcases pieces separator rest with _ | ⟨name, _ | ⟨next, names⟩⟩
      · rfl
      · by_cases is_dot : name = dot
        · subst is_dot
          rfl
        · have same : canonicalizeComponent true [] name = canonicalizeComponent false [] name := by
            simp [canonicalizeComponent, is_dot]
          have only : [name] ≠ [dot] := by simp [is_dot]
          rw [if_neg only, ← run false]
          exact same
      · have several : decide ((name :: next :: names).length = 1) = false := by simp
        have not_dot : name :: next :: names ≠ [dot] := by simp
        rw [if_neg not_dot, several, ← run false]
        rfl

/-! ## What follows the scheme -/

theorem foldl_replicate_dotDot (parents k : Nat) :
    (List.replicate parents dotDot).foldl Walk.step ⟨k, []⟩ = ⟨k + parents, []⟩ := by
  induction parents generalizing k with
  | zero => rfl
  | succ parents ih =>
      have step : Walk.step ⟨k, []⟩ dotDot = ⟨k + 1, []⟩ := by simp [Walk.step, dot, dotDot]
      rw [List.replicate_succ, List.foldl_cons, step, ih, Nat.add_assoc, Nat.add_comm 1]

theorem relative_spec (parents : Nat) (plain : ∀ name ∈ names, Plain name) :
    isAbsolute (joinNativePath (List.replicate parents dotDot ++ names)) = false ∧
      pieces separator (joinNativePath (List.replicate parents dotDot ++ names)) = List.replicate parents dotDot ++ names ∧
      walk (List.replicate parents dotDot ++ names) = ⟨parents, names⟩ := by
  have are : ∀ name ∈ List.replicate parents dotDot ++ names, IsPiece separator name := by
    intro name mem
    rcases List.mem_append.1 mem with mem | mem
    · rw [List.eq_of_mem_replicate mem]
      exact isPiece_dotDot
    · exact (plain name mem).piece
  refine ⟨isAbsolute_join are, pieces_intercalate are, ?_⟩
  rw [walk, List.foldl_append, foldl_replicate_dotDot, foldl_plain plain]
  simp

theorem absolute_spec (some_names : names ≠ []) (plain : ∀ name ∈ names, Plain name) :
    joinNativePath ([] :: names) = slashed separator names ∧ isAbsolute (slashed separator names) = true ∧
      pieces separator (slashed separator names) = names ∧ walk names = ⟨0, names⟩ := by
  refine ⟨?_, isAbsolute_slashed some_names, pieces_slashed fun name mem => (plain name mem).piece, walk_plain plain⟩
  rw [slashed_eq names some_names, joinNativePath, List.intercalate_cons_of_ne_nil some_names]
  rfl

theorem front_eq (absolute : Bool) (parents : Nat) : (absolute = true ∧ parents = 0 ∧ front absolute parents = [[]]) ∨
    ∃ k ≤ 1, front absolute parents = List.replicate k dotDot ∧ (absolute = false → parents ≤ 1 → k = parents) := by
  cases parents with
  | zero =>
      cases absolute with
      | true => exact .inl ⟨rfl, rfl, rfl⟩
      | false => exact .inr ⟨0, Nat.zero_le 1, rfl, fun _ _ => rfl⟩
  | succ parents =>
      refine .inr ?_
      rcases front_succ absolute parents with same | same
      · refine ⟨0, Nat.zero_le 1, same, fun relative small => ?_⟩
        obtain rfl : parents = 0 := by omega
        subst relative
        cases same
      · refine ⟨1, Nat.le_refl 1, same, fun relative small => ?_⟩
        omega

theorem place_relative (relative : isAbsolute rest = false) :
    place scheme rest = ⟨scheme, false, (walk (pieces separator rest)).parents, (walk (pieces separator rest)).names⟩ := by
  simp [place, relative]

theorem place_absolute (absolute : isAbsolute rest = true) :
    place scheme rest = ⟨scheme, true, 0, (walk (pieces separator rest)).names⟩ := by
  simp [place, absolute]

theorem splitNativePath_dot (only : splitNativePath rest = [dot]) : isAbsolute rest = false ∧ pieces separator rest = [dot] := by
  rw [splitNativePath_eq] at only
  cases absolute : isAbsolute rest with
  | true => simp [absolute, dot] at only
  | false => simpa [absolute] using only

theorem canonicalizeRest_dot (only : splitNativePath rest = [dot]) : canonicalizeRest rest = dot := by
  rw [canonicalizeRest, canonicalizeComponents_eq, if_pos only]
  rfl

theorem canonicalizeRest_eq (several : splitNativePath rest ≠ [dot]) : canonicalizeRest rest =
    joinNativePath (front (isAbsolute rest) (walk (pieces separator rest)).parents ++ (walk (pieces separator rest)).names) := by
  rw [canonicalizeRest, canonicalizeComponents_eq, if_neg several]

theorem Followed.kept (followed : Followed rest) :
    place scheme (canonicalizeRest rest) = place scheme rest ∧ canonicalizeRest (canonicalizeRest rest) = canonicalizeRest rest := by
  have plain := walk_names_plain rest
  by_cases only : splitNativePath rest = [dot]
  · obtain ⟨relative, piece⟩ := splitNativePath_dot only
    rw [canonicalizeRest_dot only, place_relative relative, piece]
    exact ⟨rfl, rfl⟩
  · simp only [Followed] at followed
    cases absolute : isAbsolute rest with
    | true =>
        rw [absolute, if_pos rfl] at followed
        obtain ⟨joined, absolute', pieces_eq, walked⟩ := absolute_spec followed.2 plain
        have result : canonicalizeRest rest = slashed separator (walk (pieces separator rest)).names := by
          rw [canonicalizeRest_eq only, absolute, followed.1, ← joined]
          rfl
        have several : splitNativePath (slashed separator (walk (pieces separator rest)).names) ≠ [dot] := by
          simp [splitNativePath_eq, absolute', dot]
        rw [result, place_absolute absolute', place_absolute absolute, pieces_eq, walked]
        refine ⟨rfl, ?_⟩
        rw [canonicalizeRest_eq several, absolute', pieces_eq, walked, ← joined]
        rfl
    | false =>
        rw [absolute, if_neg Bool.false_ne_true] at followed
        obtain ⟨root, -⟩ | ⟨k, -, front_k, same⟩ := front_eq false (walk (pieces separator rest)).parents
        · cases root
        · obtain rfl := same rfl followed
          obtain ⟨relative, pieces_eq, walked⟩ := relative_spec (walk (pieces separator rest)).parents plain
          have result : canonicalizeRest rest = joinNativePath
              (List.replicate (walk (pieces separator rest)).parents dotDot ++ (walk (pieces separator rest)).names) := by
            rw [canonicalizeRest_eq only, absolute, front_k]
          have several : splitNativePath (canonicalizeRest rest) ≠ [dot] := by
            rw [splitNativePath_eq, result, relative, pieces_eq]
            intro split
            rw [if_neg Bool.false_ne_true, List.nil_append] at split
            have mem : dot ∈ List.replicate (walk (pieces separator rest)).parents dotDot ++ (walk (pieces separator rest)).names := by
              rw [split]
              exact List.mem_singleton_self dot
            rcases List.mem_append.1 mem with mem | mem
            · exact absurd (List.eq_of_mem_replicate mem) (by decide)
            · exact (plain dot mem).not_dot rfl
          constructor
          · rw [result, place_relative relative, place_relative absolute, pieces_eq, walked]
          · rw [canonicalizeRest_eq several, result, relative, pieces_eq, walked, front_k]

theorem Followed.of_kept (kept : place scheme (canonicalizeRest rest) = place scheme rest) : Followed rest := by
  have plain := walk_names_plain rest
  by_cases only : splitNativePath rest = [dot]
  · obtain ⟨relative, piece⟩ := splitNativePath_dot only
    simp only [Followed, relative, piece]
    decide
  · simp only [Followed]
    rw [canonicalizeRest_eq only] at kept
    obtain ⟨absolute, root, front_root⟩ | ⟨k, small, front_k, -⟩ :=
      front_eq (isAbsolute rest) (walk (pieces separator rest)).parents
    · rw [if_pos absolute]
      refine ⟨root, fun no_names => ?_⟩
      rw [front_root, no_names, place_absolute absolute] at kept
      cases congrArg Location.absolute kept
    · obtain ⟨relative, pieces_eq, walked⟩ := relative_spec k plain
      rw [front_k, place_relative relative, pieces_eq, walked] at kept
      cases absolute : isAbsolute rest with
      | true =>
          rw [place_absolute absolute] at kept
          cases congrArg Location.absolute kept
      | false =>
          rw [place_relative absolute] at kept
          have same : k = (walk (pieces separator rest)).parents := congrArg Location.parents kept
          exact same ▸ small

/-! ## Paths -/

theorem canonicalize_eq (path : List Byte) : canonicalize path =
    path.take (getURISchemeLength path) ++ canonicalizeRest (path.drop (getURISchemeLength path)) := rfl

theorem mem_front {component : List Byte} {parents : Nat} (mem : component ∈ front absolute parents) : separator ∉ component := by
  obtain ⟨-, -, same⟩ | ⟨k, -, same, -⟩ := front_eq absolute parents
  · rw [same, List.mem_singleton] at mem
    simp [mem]
  · rw [same] at mem
    rw [List.eq_of_mem_replicate mem]
    exact isPiece_dotDot.2

theorem canonicalizeRest_single (rest : List Byte) : ¬[separator, separator] <:+: canonicalizeRest rest := by
  have plain := walk_names_plain rest
  by_cases only : splitNativePath rest = [dot]
  · rw [canonicalizeRest_dot only]
    decide
  · rw [canonicalizeRest_eq only]
    refine not_infix_intercalate (fun component mem => ?_) fun mem => ?_
    · rcases List.mem_append.1 mem with mem | mem
      · exact mem_front mem
      · exact (plain component mem).piece.2
    · obtain ⟨-, -, same⟩ | ⟨k, -, same, -⟩ := front_eq (isAbsolute rest) (walk (pieces separator rest)).parents
      · rw [same] at mem
        exact (plain [] mem).piece.1 rfl
      · rw [same] at mem
        rcases List.mem_append.1 (List.mem_of_mem_tail mem) with mem | mem
        · cases List.eq_of_mem_replicate mem
        · exact (plain [] mem).piece.1 rfl

theorem canonicalize_scheme (path : List Byte) : getURISchemeLength (canonicalize path) = getURISchemeLength path := by
  rcases Nat.eq_zero_or_pos (getURISchemeLength path) with none | scheme
  · rw [canonicalize_eq, none, List.take_zero, List.nil_append, List.drop_zero]
    exact getURISchemeLength_of_not_infix (canonicalizeRest_single path)
  · rw [canonicalize_eq, getURISchemeLength_append scheme]

theorem canonicalize_parts (path : List Byte) :
    (canonicalize path).take (getURISchemeLength path) = path.take (getURISchemeLength path) ∧
      (canonicalize path).drop (getURISchemeLength path) = canonicalizeRest (path.drop (getURISchemeLength path)) := by
  have inside : (path.take (getURISchemeLength path)).length = getURISchemeLength path := by
    rw [List.length_take]
    exact Nat.min_eq_left (getURISchemeLength_le path)
  rw [canonicalize_eq]
  exact ⟨List.take_left' inside, List.drop_left' inside⟩

theorem location_canonicalize (path : List Byte) : location (canonicalize path) =
    place (path.take (getURISchemeLength path)) (canonicalizeRest (path.drop (getURISchemeLength path))) := by
  obtain ⟨scheme, rest⟩ := canonicalize_parts path
  rw [location, canonicalize_scheme, scheme, rest]

/-- The law holds exactly for the paths in which, behind the scheme, no second parent is met at the start of a relative path and the root
of an absolute one is neither left nor where it ends. -/
theorem canonicalizes_iff (path : List Byte) : Canonicalizes path ↔ Followed (path.drop (getURISchemeLength path)) := by
  constructor
  · intro law
    have same := law.location
    rw [location_canonicalize] at same
    exact Followed.of_kept same
  · intro followed
    obtain ⟨same, again⟩ := @Followed.kept _ (path.take (getURISchemeLength path)) followed
    obtain ⟨scheme, rest⟩ := canonicalize_parts path
    have located : location (canonicalize path) = location path := by
      rw [location_canonicalize, same]
      rfl
    refine ⟨?_, fun absolute => ?_, located⟩
    · rw [canonicalize_eq (canonicalize path), canonicalize_scheme, scheme, rest, again, canonicalize_eq path]
    · have no_scheme := getURISchemeLength_of_isAbsolute absolute
      have kept := congrArg Location.absolute located
      simp only [location, place, canonicalize_scheme, no_scheme, List.drop_zero] at kept
      rw [kept, absolute]

/-- The root becomes the empty path, and two parents take each other back. -/
theorem root_not_canonicalizes : canonicalize [0x2F] = [] ∧ canonicalize [0x2E, 0x2E, 0x2F, 0x2E, 0x2E, 0x2F, 0x61] = [0x61] ∧
    ¬Canonicalizes [0x2F] ∧ ¬Canonicalizes [0x2E, 0x2E, 0x2F, 0x2E, 0x2E, 0x2F, 0x61] := by
  have root : canonicalize [0x2F] = [] := by decide
  have parents : canonicalize [0x2E, 0x2E, 0x2F, 0x2E, 0x2E, 0x2F, 0x61] = [0x61] := by decide
  refine ⟨root, parents, fun law => ?_, fun law => ?_⟩
  · have absolute := law.absolute (by decide)
    rw [root] at absolute
    cases absolute
  · have same := law.location
    rw [parents] at same
    revert same
    decide

end Pcsx2.Common

/-!
# Relative paths

Paths from the root by plain names, and the way from one to another.
-/

namespace Pcsx2.Common
open Foundation

/-- A canonical absolute path: the names that lead to it from the root, none of which is `.` or `..`. -/
structure CanonicalPath where
  names : List (List Byte)
  plain : ∀ name ∈ names, Plain name

namespace CanonicalPath

def path (p : CanonicalPath) : List Byte := separator :: joinNativePath p.names

theorem isAbsolute_path (p : CanonicalPath) : isAbsolute p.path = true := by
  simp [path, isAbsolute]

theorem pieces_path (p : CanonicalPath) : pieces separator p.path = p.names := by
  rw [path, pieces_cons_sep]
  exact pieces_intercalate fun name mem => (p.plain name mem).piece

theorem splitNativePath_path (p : CanonicalPath) : splitNativePath p.path = [] :: p.names := by
  rw [splitNativePath_eq, p.isAbsolute_path, p.pieces_path]
  rfl

theorem path_eq (p : CanonicalPath) (some_names : p.names ≠ []) : p.path = slashed separator p.names :=
  (slashed_eq p.names some_names).symm

end CanonicalPath

variable {path : List Byte} {names names' : List (List Byte)}

theorem canonicalize_of_isAbsolute (absolute : isAbsolute path = true) : canonicalize path =
    joinNativePath (front true (walk (pieces separator path)).parents ++ (walk (pieces separator path)).names) := by
  have several : splitNativePath path ≠ [dot] := by simp [splitNativePath_eq, absolute, dot]
  rw [canonicalize_eq, getURISchemeLength_of_isAbsolute absolute, List.take_zero, List.nil_append, List.drop_zero,
    canonicalizeRest_eq several, absolute]

theorem isAbsolute_canonical_iff : isAbsolute path = true ∧ canonicalize path = path ↔
    ∃ p : CanonicalPath, p.names ≠ [] ∧ path = p.path := by
  constructor
  · rintro ⟨absolute, kept⟩
    have plain := walk_names_plain path
    have result := canonicalize_of_isAbsolute absolute
    rw [kept] at result
    generalize walk (pieces separator path) = walked at plain result
    obtain ⟨-, -, root⟩ | ⟨k, -, parents, -⟩ := front_eq true walked.parents
    · have some_names : walked.names ≠ [] := by
        intro none
        rw [root, none] at result
        rw [result] at absolute
        cases absolute
      refine ⟨⟨walked.names, plain⟩, some_names, ?_⟩
      rw [CanonicalPath.path_eq _ some_names, ← (absolute_spec some_names plain).1, result, root]
      rfl
    · rw [result, parents, (relative_spec k plain).1] at absolute
      cases absolute
  · rintro ⟨p, some_names, rfl⟩
    refine ⟨p.isAbsolute_path, ?_⟩
    rw [canonicalize_of_isAbsolute p.isAbsolute_path, p.pieces_path, walk_plain p.plain, p.path_eq some_names,
      ← (absolute_spec some_names p.plain).1]
    rfl

/-! ## The way from one path to another -/

theorem take_numSame (names names' : List (List Byte)) :
    names.take (numSame names names') = names'.take (numSame names names') := by
  induction names generalizing names' with
  | nil => simp [numSame]
  | cons name names ih =>
      cases names' with
      | nil => simp [numSame]
      | cons name' names' =>
          by_cases same : name = name'
          · simp [numSame, same, ih]
          · simp [numSame, same]

theorem foldl_parents (names taken : List (List Byte)) :
    (List.replicate taken.length dotDot).foldl Walk.step ⟨0, names ++ taken⟩ = ⟨0, names⟩ := by
  induction taken using List.reverseRecOn with
  | nil => simp
  | append_singleton taken last ih =>
      have step : Walk.step ⟨0, names ++ (taken ++ [last])⟩ dotDot = ⟨0, names ++ taken⟩ := by
        rw [← List.append_assoc]
        simp [Walk.step, dot, dotDot]
      rw [List.length_append, List.length_singleton, List.replicate_succ, List.foldl_cons, step, ih]

theorem walk_makeRelative (p r : CanonicalPath) :
    walk (r.names ++ (List.replicate (r.names.length - numSame p.names r.names) dotDot ++
      p.names.drop (numSame p.names r.names))) = ⟨0, p.names⟩ := by
  have same := take_numSame p.names r.names
  generalize numSame p.names r.names = num_same at same ⊢
  have back : (List.replicate (r.names.length - num_same) dotDot).foldl Walk.step ⟨0, r.names⟩ = ⟨0, r.names.take num_same⟩ := by
    simpa using foldl_parents (r.names.take num_same) (r.names.drop num_same)
  have on : ∀ name ∈ p.names.drop num_same, Plain name := fun name mem => p.plain name (List.mem_of_mem_drop mem)
  have start := walk_plain r.plain
  rw [walk] at start ⊢
  rw [List.foldl_append, List.foldl_append, start, back, foldl_plain on, ← same, List.take_append_drop]

theorem makeRelative_path (p r : CanonicalPath) : makeRelative p.path r.path =
    joinNativePath (List.replicate (r.names.length - numSame p.names r.names) dotDot ++
      p.names.drop (numSame p.names r.names)) := by
  simp [makeRelative, CanonicalPath.isAbsolute_path, CanonicalPath.splitNativePath_path, numSame]

theorem combine_makeRelative (p r : CanonicalPath) : combine r.path (makeRelative p.path r.path) =
    slashed separator (r.names ++ (List.replicate (r.names.length - numSame p.names r.names) dotDot ++
      p.names.drop (numSame p.names r.names))) := by
  have on : ∀ name ∈ p.names.drop (numSame p.names r.names), Plain name :=
    fun name mem => p.plain name (List.mem_of_mem_drop mem)
  rw [combine_of_isAbsolute r.isAbsolute_path, r.pieces_path, makeRelative_path, (relative_spec _ on).2.1]

/-- The way from `r` to `p` leads from `r` to `p`, where `p` is not the root. -/
theorem canonicalize_combine_makeRelative_iff (p r : CanonicalPath) :
    canonicalize (combine r.path (makeRelative p.path r.path)) = p.path ↔ p.names ≠ [] := by
  have walked := walk_makeRelative p r
  rw [combine_makeRelative]
  have are : ∀ name ∈ r.names ++ (List.replicate (r.names.length - numSame p.names r.names) dotDot ++
      p.names.drop (numSame p.names r.names)), IsPiece separator name := by
    intro name mem
    rcases List.mem_append.1 mem with mem | mem
    · exact (r.plain name mem).piece
    · rcases List.mem_append.1 mem with mem | mem
      · rw [List.eq_of_mem_replicate mem]
        exact isPiece_dotDot
      · exact (p.plain name (List.mem_of_mem_drop mem)).piece
  generalize r.names ++ (List.replicate (r.names.length - numSame p.names r.names) dotDot ++
    p.names.drop (numSame p.names r.names)) = components at walked are ⊢
  by_cases none : p.names = []
  · have result : canonicalize (slashed separator components) = [] := by
      by_cases empty : components = []
      · subst empty
        rfl
      · rw [canonicalize_of_isAbsolute (isAbsolute_slashed empty), pieces_slashed are, walked, none]
        rfl
    simp [result, none, CanonicalPath.path]
  · have some_components : components ≠ [] := by
      rintro rfl
      exact none (congrArg Walk.names walked).symm
    have result : canonicalize (slashed separator components) = p.path := by
      rw [canonicalize_of_isAbsolute (isAbsolute_slashed some_components), pieces_slashed are, walked, p.path_eq none,
        ← (absolute_spec none p.plain).1]
      rfl
    simp [result, none]

/-- The root is not got back. -/
theorem root_makeRelative : canonicalize (combine [0x2F, 0x61] (makeRelative [0x2F] [0x2F, 0x61])) = [] ∧
    ¬∀ p r : CanonicalPath, canonicalize (combine r.path (makeRelative p.path r.path)) = p.path := by
  have empty : canonicalize (combine [0x2F, 0x61] (makeRelative [0x2F] [0x2F, 0x61])) = [] := by decide
  refine ⟨empty, fun law => ?_⟩
  have plain : Plain [0x61] := ⟨by decide, by decide, by decide⟩
  have back := law ⟨[], by simp⟩ ⟨[[0x61]], by simpa using plain⟩
  exact List.cons_ne_nil _ _ (back.symm.trans empty)

end Pcsx2.Common
