import Pcsx2.GsTransfer.Alike

/-!
# A path in a savestate

A path is saved as a tag and a position, from which `SetTag` makes one again.
-/

namespace Pcsx2.GsTransfer
open GIFPath

variable {index : Nat} {path next : GIFPath} {data : List Quadword} {α : Type}

namespace GIFPath

def packRegs (regs : Nat → Nat) (count : Nat) : Nat :=
  (List.range count).foldl (fun REGS j => REGS ||| regs j <<< (4 * j)) 0

/-- The tag that `Freeze` makes of a path. `NREG` and `NLOOP` have the bits of a tag. -/
def frozenTag (path : GIFPath) : GIFTag :=
  { path.tag with NREG := path.nreg % 2 ^ 4, NLOOP := path.nloop % 2 ^ 15, REGS := packRegs path.regs 16 }

def freeze (path : GIFPath) : GIFPath := { path with tag := path.frozenTag }

/-- `Defrost` of a path that has been reset. -/
def defrost (path : GIFPath) (tag : GIFTag) (reg : Nat) : GIFPath := SetTag { path with tag, reg } tag

/-! ## What paths keep -/

structure Follows (path next : GIFPath) : Prop where
  tag : next.tag = path.tag
  nreg : next.nreg = path.nreg
  type : next.type = path.type
  regs : next.regs = path.regs
  nloop : next.nloop ≤ path.nloop

theorem Follows.trans {last : GIFPath} (first : Follows path next) (second : Follows next last) : Follows path last :=
  ⟨second.tag.trans first.tag, second.nreg.trans first.nreg, second.type.trans first.type, second.regs.trans first.regs,
    second.nloop.trans first.nloop⟩

theorem step_follows (path : GIFPath) : Follows path path.StepReg.1 := by
  unfold StepReg
  split
  · exact ⟨rfl, rfl, rfl, rfl, Nat.sub_le _ _⟩
  · exact ⟨rfl, rfl, rfl, rfl, le_rfl⟩

variable {effects : List Effect}

theorem loop_follows {handler : Nat → α → Effect} {data rest : List α}
    (result : path.loop handler data = some (next, effects, rest)) : Follows path next := by
  induction data generalizing path effects with
  | nil => cases result
  | cons r data ih =>
    rw [loop] at result
    split at result
    · obtain ⟨⟨last, later, left⟩, results, same⟩ := Option.map_eq_some_iff.mp result
      cases same
      exact (step_follows path).trans (ih results)
    · cases result
      exact step_follows path

variable {rest : List Quadword}

theorem toStart_follows (result : path.toStart data = some (next, effects, rest)) : Follows path next := by
  induction data generalizing path effects with
  | nil => cases result
  | cons r data ih =>
    rw [toStart] at result
    split at result
    · obtain ⟨⟨last, later, left⟩, results, same⟩ := Option.map_eq_some_iff.mp result
      cases same
      exact (step_follows path).trans (ih results)
    · cases result
      exact step_follows path

theorem fromStart_follows (result : path.fromStart data = some (next, effects, rest)) : Follows path next := by
  unfold fromStart at result
  dsimp only at result
  split at result
  · obtain ⟨_, _, same⟩ := Option.map_eq_some_iff.mp result
    cases same
    exact ⟨rfl, rfl, rfl, rfl, Nat.zero_le _⟩
  · exact loop_follows result

theorem packed_follows (result : path.packed data = some (next, effects, rest)) : Follows path next := by
  unfold packed at result
  split at result
  · obtain ⟨⟨middle, first, left⟩, started, later⟩ := Option.bind_eq_some_iff.mp result
    obtain ⟨⟨last, second, left'⟩, results, same⟩ := Option.map_eq_some_iff.mp later
    cases same
    exact (toStart_follows started).trans (fromStart_follows results)
  · exact fromStart_follows result

theorem reglist_follows (result : path.reglist data = some (next, effects, rest)) : Follows path next := by
  unfold reglist at result
  obtain ⟨⟨last, first, left⟩, looped, same⟩ := Option.bind_eq_some_iff.mp result
  cases same
  exact loop_follows looped

/-- The registers that `SetTag` would make of the saved ones. -/
def saved (path : GIFPath) (j : Nat) : Nat := if j < path.nreg then path.regs j else 0

/-- Beside the position, a path is what `SetTag` makes of its own registers. -/
structure Kept (path : GIFPath) : Prop where
  small : ∀ j, path.regs j < 16
  few : path.nreg ≤ 16
  loops : path.nloop < 2 ^ 17
  typed : path.nloop ≠ 0 → path.tag.FLG = .PACKED → ∀ n, typeOf path.saved path.nreg n = (path.type, path.nreg, n)
  plain : path.nloop ≠ 0 → path.tag.FLG ≠ .PACKED → path.type = .UNKNOWN
  image : path.nloop ≠ 0 → path.tag.FLG = .IMAGE ∨ path.tag.FLG = .IMAGE2 → path.reg = 0 ∧ path.nloop < 2 ^ 15

theorem Follows.kept (follows : Follows path next) (kept : path.Kept) (unfinished : path.nloop ≠ 0)
    (image : next.nloop ≠ 0 → next.tag.FLG = .IMAGE ∨ next.tag.FLG = .IMAGE2 → next.reg = 0 ∧ next.nloop < 2 ^ 15) :
    next.Kept := by
  have saved : next.saved = path.saved := by
    funext j
    unfold GIFPath.saved
    rw [follows.nreg, follows.regs]
  refine ⟨?_, ?_, Nat.lt_of_le_of_lt follows.nloop kept.loops, fun _ => ?_, fun _ => ?_, image⟩
  · rw [follows.regs]
    exact kept.small
  · rw [follows.nreg]
    exact kept.few
  · rw [follows.tag, follows.nreg, follows.type, saved]
    exact kept.typed unfinished
  · rw [follows.tag, follows.type]
    exact kept.plain unfinished

/-! ## Tags -/

variable {regs : Nat → Nat} {nreg nloop : Nat}

theorem typeOf_cases (small : ∀ j, regs j < 16) (nreg nloop : Nat) :
    (∀ n, typeOf regs nreg n = ((typeOf regs nreg nloop).1, nreg, n)) ∧ (typeOf regs nreg nloop).2.1 = nreg ∨
      (typeOf regs nreg nloop).1 = .STQRGBAXYZF2 ∧ (typeOf regs nreg nloop).2.1 = 3 ∧
        regs 0 = 2 ∧ regs 1 = 1 ∧ regs 2 = 4 := by
  unfold typeOf
  by_cases only : adOnly regs nreg = true
  · left
    exact ⟨fun n => by rw [if_pos only, if_pos only], by rw [if_pos only]⟩
  simp only [if_neg only]
  split
  · left
    split
    · exact ⟨fun _ => rfl, rfl⟩
    · split <;> exact ⟨fun _ => rfl, rfl⟩
  · split
    · rename_i values
      have first := U32_digits (a := 2) (b := 1) (c := 4) (d := 2) small (by decide) values.1
      exact .inr ⟨rfl, rfl, first.1, first.2.1, first.2.2.1⟩
    · exact .inl ⟨fun _ => rfl, rfl⟩
  · split
    · rename_i values
      have first := U32_digits (a := 2) (b := 1) (c := 4) (d := 2) small (by decide) values.1
      exact .inr ⟨rfl, rfl, first.1, first.2.1, first.2.2.1⟩
    · exact .inl ⟨fun _ => rfl, rfl⟩
  · exact .inl ⟨fun _ => rfl, rfl⟩

theorem typeOf_loops (regs : Nat → Nat) (nreg nloop : Nat) : (typeOf regs nreg nloop).2.2 ≤ nloop * 4 := by
  have more : nloop ≤ nloop * 4 ∧ nloop * 3 ≤ nloop * 4 := by omega
  unfold typeOf
  split
  · exact more.1
  · split
    · split
      · exact more.1
      · split <;> exact more.1
    · split
      · exact more.2
      · exact more.1
    · split
      · exact le_rfl
      · exact more.1
    · exact more.1

theorem typeOf_again (small : ∀ j, regs j < 16) (zero : ∀ j, nreg ≤ j → regs j = 0) (nloop n : Nat) :
    typeOf (fun j => if j < (typeOf regs nreg nloop).2.1 then regs j else 0) (typeOf regs nreg nloop).2.1 n =
      ((typeOf regs nreg nloop).1, (typeOf regs nreg nloop).2.1, n) := by
  rcases typeOf_cases small nreg nloop with ⟨same, length⟩ | ⟨type, length, first, second, third⟩
  · have masked : (fun j => if j < nreg then regs j else 0) = regs := by
      funext j
      split
      · rfl
      · exact (zero j (Nat.le_of_not_lt ‹_›)).symm
    rw [length, masked, same]
  · have other : adOnly (fun j => if j < 3 then regs j else 0) 3 = false := by
      apply Bool.eq_false_iff.mpr
      intro all
      have start := List.all_eq_true.mp all 0 (List.mem_range.mpr (by decide))
      dsimp only at start
      rw [if_pos (by decide), first] at start
      exact absurd start (by decide)
    have word : U32 (fun j => if j < 3 then regs j else 0) 0 = 0x00040102 := by
      unfold U32
      simp [first, second, third]
    rw [length, type]
    unfold typeOf
    rw [other, if_neg Bool.false_ne_true, word, if_neg (by decide), if_pos rfl]
    rfl

theorem SetTag_kept (kept : path.Kept) (tag : GIFTag) (small : tag.NREG < 16) (loops : tag.NLOOP < 2 ^ 15) :
    (path.SetTag tag).Kept := by
  by_cases none : tag.NLOOP = 0
  · have set : path.SetTag tag = { path with tag := { tag with REGS := path.tag.REGS }, nloop := 0 } := if_pos none
    rw [set]
    exact ⟨kept.small, kept.few, Nat.two_pow_pos 17, fun goesOn => absurd rfl goesOn, fun goesOn => absurd rfl goesOn,
      fun goesOn => absurd rfl goesOn⟩
  have few := (nregOf_bounds small).2
  have nibbles := regsOf_lt tag.REGS (nregOf tag.NREG)
  have zero : ∀ j, nregOf tag.NREG ≤ j → regsOf tag.REGS (nregOf tag.NREG) j = 0 :=
    fun j beyond => if_neg (Nat.not_lt.mpr beyond)
  unfold SetTag
  rw [if_neg none]
  refine ⟨nibbles, ?_, ?_, fun _ flag n => ?_, fun _ flag => ?_, fun _ flag => ⟨rfl, ?_⟩⟩
  · unfold typedOf
    dsimp only
    split
    · rcases typeOf_cases nibbles (nregOf tag.NREG) tag.NLOOP with ⟨-, length⟩ | ⟨-, length, -⟩
      · rw [length]
        exact few
      · rw [length]
        decide
    · exact few
  · have most := typeOf_loops (regsOf tag.REGS (nregOf tag.NREG)) (nregOf tag.NREG) tag.NLOOP
    unfold typedOf
    dsimp only
    split
    · omega
    · dsimp only
      omega
  · dsimp only at flag
    unfold GIFPath.saved typedOf
    dsimp only
    rw [if_pos flag]
    exact typeOf_again nibbles zero tag.NLOOP n
  · dsimp only at flag ⊢
    unfold typedOf
    rw [if_neg flag]
  · dsimp only at flag ⊢
    unfold typedOf
    have plain : tag.FLG ≠ .PACKED := by
      rcases flag with flag | flag
      · rw [flag]
        decide
      · rw [flag]
        decide
    rw [if_neg plain]
    exact loops

theorem pass_kept (kept : path.Kept)
    (result : path.pass data = some (next, effects, rest)) : next.Kept := by
  cases data with
  | nil => cases result
  | cons r data =>
    unfold pass at result
    dsimp only at result
    by_cases done : path.nloop = 0
    · rw [if_pos done] at result
      cases result
      exact SetTag_kept kept _ (Nat.mod_lt _ (by decide)) (Nat.mod_lt _ (by decide))
    rw [if_neg done] at result
    have other : ∀ {flag}, path.tag.FLG = flag → flag ≠ .IMAGE → flag ≠ .IMAGE2 → Follows path next → next.Kept := by
      intro flag same first second follows
      refine follows.kept kept done fun _ image => ?_
      rw [follows.tag, same] at image
      exact absurd image (not_or.mpr ⟨first, second⟩)
    have images : path.tag.FLG = .IMAGE ∨ path.tag.FLG = .IMAGE2 → path.image (r :: data) = some (next, effects, rest) →
        next.Kept := by
      intro flag image
      obtain ⟨start, loops⟩ := kept.image done flag
      have follows : Follows path { path with nloop := path.nloop - min (r :: data).length path.nloop } :=
        ⟨rfl, rfl, rfl, rfl, Nat.sub_le _ _⟩
      cases image
      exact follows.kept kept done fun _ _ => ⟨start, Nat.lt_of_le_of_lt (Nat.sub_le _ _) loops⟩
    cases flag : path.tag.FLG with
    | PACKED =>
      rw [flag] at result
      exact other flag (by decide) (by decide) (packed_follows result)
    | REGLIST =>
      rw [flag] at result
      exact other flag (by decide) (by decide) (reglist_follows result)
    | IMAGE =>
      rw [flag] at result
      exact images (.inl flag) result
    | IMAGE2 =>
      rw [flag] at result
      exact images (.inr flag) result

theorem passes_kept {fuel : Nat} (kept : path.Kept)
    (result : passes index fuel path data = some (next, effects, rest)) : next.Kept := by
  induction fuel generalizing path data effects with
  | zero =>
    cases data with
    | nil =>
      cases result
      exact kept
    | cons r data => cases result
  | succ fuel ih =>
    cases data with
    | nil =>
      cases result
      exact kept
    | cons r data =>
      unfold passes at result
      obtain ⟨⟨middle, first, left⟩, passed, later⟩ := Option.bind_eq_some_iff.mp result
      have middleKept := pass_kept kept passed
      dsimp only at later
      split at later
      · cases later
        exact middleKept
      · obtain ⟨⟨last, effects', rest'⟩, results, same⟩ := Option.map_eq_some_iff.mp later
        cases same
        exact ih middleKept results

theorem transfers_kept (kept : path.Kept) {sources : List Source}
    (result : transfers index path sources = some (next, effects)) : next.Kept := by
  induction sources generalizing path effects with
  | nil =>
    cases result
    exact kept
  | cons source later ih =>
    unfold transfers at result
    obtain ⟨⟨middle, first⟩, called, rest⟩ := Option.bind_eq_some_iff.mp result
    obtain ⟨⟨last, second⟩, results, same⟩ := Option.bind_eq_some_iff.mp rest
    cases same
    apply ih _ results
    unfold Transfer at called
    obtain ⟨⟨end_, effects', left⟩, passed, ends⟩ := Option.bind_eq_some_iff.mp called
    have endKept := passes_kept kept passed
    dsimp only at ends
    split at ends
    · cases ends
      exact ⟨endKept.small, endKept.few, Nat.two_pow_pos 17, fun goesOn => absurd rfl goesOn, fun goesOn => absurd rfl goesOn,
        fun goesOn => absurd rfl goesOn⟩
    · cases ends
      exact endKept

theorem reset_kept : GIFPath.reset.Kept :=
  ⟨fun _ => Nat.succ_pos 15, Nat.zero_le 16, Nat.two_pow_pos 17, fun goesOn => absurd rfl goesOn, fun goesOn => absurd rfl goesOn,
    fun goesOn => absurd rfl goesOn⟩

/-! ## The saved tag -/

theorem packRegs_digits (small : ∀ j, regs j < 16) (count : Nat) :
    packRegs regs count < 2 ^ (4 * count) ∧ ∀ j < count, packRegs regs count / 2 ^ (4 * j) % 2 ^ 4 = regs j := by
  induction count with
  | zero => exact ⟨Nat.one_pos, nofun⟩
  | succ count ih =>
    obtain ⟨below, digits⟩ := ih
    have nibble := small count
    have next : packRegs regs (count + 1) = regs count * 2 ^ (4 * count) + packRegs regs count := by
      have step : packRegs regs (count + 1) = packRegs regs count ||| regs count <<< (4 * count) := by
        unfold packRegs
        rw [List.range_succ, List.foldl_append, List.foldl_cons, List.foldl_nil]
      rw [step, Nat.or_comm, ← Nat.shiftLeft_add_eq_or_of_lt below, Nat.shiftLeft_eq]
    have size : 2 ^ (4 * (count + 1)) = 16 * 2 ^ (4 * count) := by
      rw [Nat.mul_succ, Nat.pow_add, Nat.mul_comm]
    refine ⟨?_, fun j inside => ?_⟩
    · have most : regs count * 2 ^ (4 * count) ≤ 15 * 2 ^ (4 * count) := Nat.mul_le_mul_right _ (Nat.le_of_lt_succ nibble)
      rw [next, size]
      omega
    · rcases Nat.lt_succ_iff_lt_or_eq.mp inside with earlier | rfl
      · have split : 2 ^ (4 * count) = 2 ^ (4 * j) * (2 ^ 4 * 2 ^ (4 * (count - j - 1))) := by
          rw [← Nat.pow_add, ← Nat.pow_add]
          congr 1
          omega
        rw [next, split, Nat.mul_left_comm, Nat.mul_add_div (Nat.two_pow_pos _), Nat.mul_left_comm,
          Nat.mul_add_mod]
        exact digits j earlier
      · rw [next, Nat.mul_comm, Nat.mul_add_div (Nat.two_pow_pos _), Nat.div_eq_of_lt below, Nat.add_zero,
          Nat.mod_eq_of_lt (show regs j < 2 ^ 4 from nibble)]

theorem regsOf_packRegs (kept : path.Kept) (j : Nat) (inside : j < path.nreg) :
    regsOf (packRegs path.regs 16) path.nreg j = path.regs j := by
  have few := kept.few
  unfold regsOf
  rw [if_pos inside]
  exact (packRegs_digits kept.small 16).2 j (by omega)

/-! ## A path that is restored -/

theorem nregOf_mod (positive : 0 < nreg) (few : nreg ≤ 16) : nregOf (nreg % 2 ^ 4) = nreg := by
  unfold nregOf
  split <;> omega

/-- Where a path can be saved: at the start of its list, with a count that a tag has bits for. -/
def Saves (path : GIFPath) : Prop := path.nloop = 0 ∨ path.reg = 0 ∧ path.nloop < 2 ^ 15

theorem defrost_alike (kept : path.Kept) (sound : path.Sound) (saves : path.Saves) (base : GIFPath) :
    Alike path (base.defrost path.frozenTag path.reg) := by
  unfold defrost SetTag
  by_cases done : path.nloop = 0
  · rw [if_pos (show path.frozenTag.NLOOP = 0 by unfold frozenTag; rw [done]; exact Nat.zero_mod _)]
    exact ⟨rfl, rfl, done, fun goesOn => absurd done goesOn⟩
  obtain ⟨start, loops⟩ := saves.resolve_left done
  have inside := sound.reg done
  have count : path.frozenTag.NLOOP = path.nloop := Nat.mod_eq_of_lt loops
  have length : nregOf path.frozenTag.NREG = path.nreg := nregOf_mod (Nat.zero_lt_of_lt inside) kept.few
  have regs : regsOf path.frozenTag.REGS path.nreg = path.saved := by
    funext j
    unfold GIFPath.saved
    split
    · exact regsOf_packRegs kept j ‹_›
    · exact if_neg ‹_›
  have typed : typedOf path.frozenTag = (path.type, path.nreg, path.nloop) := by
    unfold typedOf
    dsimp only
    rw [length, regs, count]
    by_cases packed : path.tag.FLG = .PACKED
    · exact (if_pos packed).trans (kept.typed done packed path.nloop)
    · rw [kept.plain done packed]
      exact if_neg packed
  rw [count, if_neg done, typed, length, regs]
  refine ⟨rfl, rfl, rfl, fun _ => ⟨rfl, start, rfl, inside, fun j below => ?_⟩⟩
  exact (if_pos below).symm

/-! ## A path that is not -/

def zeros (count : Nat) : List Quadword := List.replicate count ⟨0, 0⟩

theorem feed_zeros (count : Nat) : Pending.idle.feed (zeros count) = (.idle, []) := by
  induction count with
  | zero => rfl
  | succ count ih =>
    have one : Pending.take ⟨0, 0⟩ .idle = (.idle, []) := rfl
    show Pending.feed .idle (⟨0, 0⟩ :: zeros count) = _
    rw [Pending.feed, one, ih]
    rfl

variable {count : Nat}

theorem feed_packed_zeros {list : List Nat} (enough : list.length ≤ count) :
    ((Pending.packedLeft list).feed (zeros count)).2.length = list.length := by
  have first := Pending.feed_packed list (zeros list.length) (by rw [zeros, List.length_replicate])
  have split : zeros count = zeros list.length ++ zeros (count - list.length) := by
    unfold zeros
    rw [← List.replicate_add, Nat.add_sub_cancel' enough]
  have ended : list.drop (zeros list.length).length = [] := by
    rw [zeros, List.length_replicate, List.drop_length]
  rw [ended] at first
  rw [split, Pending.feed_append first, Pending.packedLeft, feed_zeros, List.append_nil, List.length_zipWith, zeros,
    List.length_replicate, Nat.min_self]

theorem feed_reglist_zeros {list : List Nat} (enough : list.length ≤ count) :
    ((Pending.reglistLeft list).feed (zeros count)).2.length = list.length := by
  have length : ∀ n, (zeros n).length = n := fun n => List.length_replicate
  have first := Pending.feed_reglist list (zeros ((list.length + 1) / 2)) (by rw [length]; omega)
  have split : zeros count = zeros ((list.length + 1) / 2) ++ zeros (count - (list.length + 1) / 2) := by
    unfold zeros
    rw [← List.replicate_add, Nat.add_sub_cancel' (by omega)]
  have ended : list.drop (2 * (zeros ((list.length + 1) / 2)).length) = [] := by
    rw [length, List.drop_eq_nil_iff]
    omega
  rw [ended] at first
  rw [split, Pending.feed_append first, Pending.reglistLeft, feed_zeros, List.append_nil, List.length_zipWith,
    Pending.halves_length, length]
  omega

theorem passes_zeros (index : Nat) {fuel count : Nat} (enough : count ≤ fuel) (sound : path.Sound)
    (resumes : path.Resumes (zeros count).length) :
    ∃ next rest, passes index fuel path (zeros count) = some (next, (path.pending.feed (zeros count)).2, rest) := by
  induction fuel generalizing path count with
  | zero =>
    obtain rfl := Nat.le_zero.mp enough
    exact ⟨path, [], rfl⟩
  | succ fuel ih =>
    cases count with
    | zero => exact ⟨path, [], rfl⟩
    | succ count =>
      obtain ⟨middle, effects, left, result, passed⟩ := pass_passed sound (List.cons_ne_nil _ (zeros count)) resumes
      obtain ⟨taken, tail⟩ := passed.tail
      have shorter := passed.shorter
      have more : left = zeros (count + 1 - taken) := by
        rw [tail]
        exact List.drop_replicate (n := count + 1)
      rw [more] at passed shorter result
      have fed := passed.fed
      change path.pending.feed (zeros (count + 1)) = _ at fed
      show ∃ next rest, passes index (fuel + 1) path (⟨0, 0⟩ :: zeros count) = _
      unfold passes
      rw [result]
      by_cases ends : index = 0 ∧ middle.tag.EOP = true ∧ middle.nloop = 0
      · refine ⟨middle, zeros (count + 1 - taken), ?_⟩
        simp only [Option.bind_eq_bind, Option.bind_some, if_pos ends]
        rw [fed, pending_done ends.2.2, feed_zeros, List.append_nil]
      · have fewer : count + 1 - taken ≤ fuel := by
          have less : (zeros (count + 1 - taken)).length < (zeros (count + 1)).length := shorter
          rw [zeros, zeros, List.length_replicate, List.length_replicate] at less
          omega
        obtain ⟨next, rest, results⟩ := ih fewer passed.sound passed.resumes
        refine ⟨next, rest, ?_⟩
        simp only [Option.bind_eq_bind, Option.bind_some, if_neg ends, results]
        rw [fed]
        rfl

theorem transfer_zeros (index : Nat) (sound : path.Sound) (fits : (zeros count).length < 2 ^ 31)
    (resumes : path.Resumes (zeros count).length) :
    ((Transfer index path ⟨zeros count, fits⟩).map Prod.snd) = some (path.pending.feed (zeros count)).2 := by
  have enough : count ≤ (zeros count).length := List.length_replicate.symm.le
  obtain ⟨next, rest, result⟩ := passes_zeros index enough sound resumes
  unfold Transfer
  dsimp only
  rw [result]
  simp only [Option.bind_eq_bind, Option.bind_some]
  split <;> rfl

theorem feed_pending_zeros (flag : path.tag.FLG = .PACKED ∨ path.tag.FLG = .REGLIST)
    (enough : path.left.length ≤ count) : (path.pending.feed (zeros count)).2.length = path.left.length := by
  unfold pending
  rcases flag with flag | flag
  · rw [flag]
    exact feed_packed_zeros enough
  · rw [flag]
    exact feed_reglist_zeros enough

theorem feed_begin_zeros {tag : GIFTag} (flag : tag.FLG = .PACKED ∨ tag.FLG = .REGLIST)
    (enough : tag.listing.length ≤ count) : ((Pending.begin tag).feed (zeros count)).2.length = tag.listing.length := by
  unfold Pending.begin
  rcases flag with flag | flag
  · rw [flag]
    exact feed_packed_zeros enough
  · rw [flag]
    exact feed_reglist_zeros enough

theorem left_differs {nloop nreg reg : Nat} (inside : reg < nreg) (unfinished : nloop ≠ 0)
    (differs : reg ≠ 0 ∨ 2 ^ 15 ≤ nloop) : nloop * nreg - reg ≠ nloop % 2 ^ 15 * nreg := by
  rcases Nat.lt_or_ge nloop (2 ^ 15) with small | large
  · rw [Nat.mod_eq_of_lt small]
    have some := Nat.mul_le_mul_right nreg (Nat.one_le_iff_ne_zero.mpr unfinished)
    omega
  · have split : nloop * nreg = nloop % 2 ^ 15 * nreg + nloop / 2 ^ 15 * 2 ^ 15 * nreg := by
      rw [← Nat.add_mul, Nat.mul_comm (nloop / 2 ^ 15), Nat.mod_add_div]
    have quotient : 1 ≤ nloop / 2 ^ 15 := Nat.div_pos large (by decide)
    have more : 1 * 2 ^ 15 * nreg ≤ nloop / 2 ^ 15 * 2 ^ 15 * nreg :=
      Nat.mul_le_mul_right _ (Nat.mul_le_mul_right _ quotient)
    omega

theorem defrost_differs (index : Nat) (kept : path.Kept) (sound : path.Sound) (fails : ¬ path.Saves) {base : GIFPath}
    (baseSound : Sound { base with tag := path.frozenTag, reg := path.reg }) :
    ∃ source, (Transfer index path source).map Prod.snd ≠
      (Transfer index (base.defrost path.frozenTag path.reg) source).map Prod.snd := by
  obtain ⟨unfinished, differs⟩ := not_or.mp fails
  have inside := sound.reg unfinished
  have loops := kept.loops
  have few := kept.few
  have away : path.reg ≠ 0 ∨ 2 ^ 15 ≤ path.nloop := by
    by_contra both
    rw [not_or] at both
    exact differs ⟨by_contra both.1, Nat.lt_of_not_le both.2⟩
  have flag : path.tag.FLG = .PACKED ∨ path.tag.FLG = .REGLIST := by
    have image := kept.image unfinished
    cases flag : path.tag.FLG with
    | PACKED => exact .inl rfl
    | REGLIST => exact .inr rfl
    | IMAGE => exact absurd (image (.inl flag)) differs
    | IMAGE2 => exact absurd (image (.inr flag)) differs
  obtain ⟨nextSound, begins, -, start⟩ := SetTag_spec baseSound path.frozenTag (Nat.mod_lt _ (by decide))
  have listed : path.frozenTag.listing.length = path.nloop % 2 ^ 15 * path.nreg := by
    rw [Pending.listing_length]
    show path.nloop % 2 ^ 15 * nregOf (path.nreg % 2 ^ 4) = _
    rw [nregOf_mod (Nat.zero_lt_of_lt inside) few]
  have most : path.nloop * path.nreg ≤ 2 ^ 17 * 16 := Nat.mul_le_mul loops.le few
  have modLess : path.nloop % 2 ^ 15 * path.nreg ≤ path.nloop * path.nreg := Nat.mul_le_mul_right _ (Nat.mod_le _ _)
  have positive := Nat.mul_le_mul_right path.nreg (Nat.one_le_iff_ne_zero.mpr unfinished)
  have length : (zeros (path.nloop * path.nreg)).length = path.nloop * path.nreg := List.length_replicate
  have fits : (zeros (path.nloop * path.nreg)).length < 2 ^ 31 := by
    rw [length]
    omega
  refine ⟨⟨zeros (path.nloop * path.nreg), fits⟩, ?_⟩
  have restored : (Transfer index (base.defrost path.frozenTag path.reg) ⟨zeros (path.nloop * path.nreg), fits⟩).map Prod.snd =
      some ((Pending.begin path.frozenTag).feed (zeros (path.nloop * path.nreg))).2 := by
    rw [← begins]
    refine transfer_zeros index nextSound fits fun _ goesOn between => ?_
    exact absurd start (not_or.mpr ⟨goesOn, between⟩)
  rw [restored]
  by_cases resumes : path.Resumes (zeros (path.nloop * path.nreg)).length
  · rw [transfer_zeros index sound fits resumes]
    intro same
    have counts := congrArg List.length (Option.some.inj same)
    rw [feed_pending_zeros flag (by rw [left_length]; omega), left_length,
      feed_begin_zeros (show path.frozenTag.FLG = .PACKED ∨ path.frozenTag.FLG = .REGLIST from flag)
        (by rw [listed]; exact modLess), listed] at counts
    exact left_differs inside unfinished away counts
  · rw [show Transfer index path ⟨zeros (path.nloop * path.nreg), fits⟩ = none from Transfer_none sound resumes]
    nofun

end GIFPath

end Pcsx2.GsTransfer
