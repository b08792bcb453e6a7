import Pcsx2.GsTransfer.Loops

/-!
# Streams that are cut

A call that starts between two registers of a PACKED list has to go beyond the next start of the list, and the packet
too.
-/

namespace Pcsx2.GsTransfer
open GIFPath

variable {path : GIFPath} {data : List Quadword}

namespace GIFPath

def Resumes (path : GIFPath) (size : Nat) : Prop :=
  path.tag.FLG = .PACKED → path.nloop ≠ 0 → path.reg ≠ 0 → size ≠ 0 → 2 ≤ path.nloop ∧ path.nreg - path.reg < size

structure Passed (path : GIFPath) (data : List Quadword) (next : GIFPath) (effects : List Effect) (rest : List Quadword) :
    Prop where
  sound : next.Sound
  shorter : rest.length < data.length
  tail : ∃ count, rest = data.drop count
  resumes : next.Resumes rest.length
  fed : path.pending.feed data = ((next.pending.feed rest).1, effects ++ (next.pending.feed rest).2)

/-! ## The parts of a pass -/

theorem loopRegs_eq {first second : GIFPath} (nreg : first.nreg = second.nreg) (regs : first.regs = second.regs) :
    first.loopRegs = second.loopRegs := by
  unfold loopRegs
  rw [nreg, regs]

theorem sound_of_fields {next : GIFPath} (sound : path.Sound) (nreg : next.nreg = path.nreg) (type : next.type = path.type)
    (regs : next.regs = path.regs) (reg : next.nloop ≠ 0 → next.reg < next.nreg) : next.Sound := by
  have loop := loopRegs_eq nreg regs
  refine ⟨reg, ?_, ?_, ?_⟩
  · rw [type, nreg, regs]
    exact sound.adOnly
  · rw [type, loop]
    exact sound.xyzf2
  · rw [type, loop]
    exact sound.xyz2

theorem left_done (done : path.nloop = 0) : path.left = [] := by
  unfold left
  rw [done, List.replicate_zero, List.flatten_nil, List.drop_nil]

theorem pending_done (done : path.nloop = 0) : path.pending = .idle := by
  unfold pending
  rw [left_done done, done]
  cases path.tag.FLG <;> rfl

theorem fromStart_spec (sound : path.Sound) (unfinished : path.nloop ≠ 0) (start : path.reg = 0) (given : data ≠ []) :
    ∃ next, path.fromStart data = some (next, List.zipWith packedRegHandler path.left data, data.drop path.left.length) ∧
      next.Sound ∧ next.tag = path.tag ∧ next.left = path.left.drop data.length := by
  have total := path.left_length
  rw [start, Nat.sub_zero] at total
  unfold fromStart
  by_cases fits : path.nloop * path.nreg ≤ data.length
  · refine ⟨{ path with nloop := 0 }, ?_, ?_, rfl, ?_⟩
    · rw [if_pos fits, bulk_spec sound start unfinished fits, total]
      rfl
    · exact sound_of_fields sound rfl rfl rfl fun none => absurd rfl none
    · rw [left_done rfl, List.drop_eq_nil_of_le (total.trans_le fits)]
  · rw [if_neg fits]
    exact loop_spec sound unfinished given

theorem fromStart_none (path : GIFPath) (fits : data.length < 2 ^ 31) (nothing : data = [] ∨ path.nloop = 0) :
    path.fromStart data = none := by
  unfold fromStart
  by_cases none : path.nloop * path.nreg = 0
  · rw [none, if_pos (Nat.zero_le _), bulk_zero path fits]
    rfl
  · rcases nothing with rfl | done
    · have short : ¬ path.nloop * path.nreg ≤ ([] : List Quadword).length := fun all => none (Nat.le_zero.mp all)
      exact if_neg short
    · rw [done, Nat.zero_mul] at none
      exact absurd rfl none

theorem zipWith_take {α β γ : Type} (f : α → β → γ) {xs : List α} {n : Nat} (fits : xs.length ≤ n) (ys : List β) :
    List.zipWith f xs (ys.take n) = List.zipWith f xs ys := by
  have whole : (List.zipWith f xs ys).take n = List.zipWith f xs ys := by
    apply List.take_of_length_le
    rw [List.length_zipWith]
    omega
  rw [← whole, List.take_zipWith, List.take_of_length_le fits]

theorem halves_take (count : Nat) (data : List Quadword) : halves (data.take count) = (halves data).take (2 * count) := by
  induction data generalizing count with
  | nil => rw [List.take_nil, halves, List.flatMap_nil, List.take_nil]
  | cons r data ih =>
    cases count with
    | zero => rfl
    | succ count =>
      rw [List.take_succ_cons, Pending.halves_cons, Pending.halves_cons, ih, Nat.mul_succ, List.take_succ_cons,
        List.take_succ_cons]

theorem taken_passed {next : GIFPath} {taken : Nat} (flag : path.tag.FLG = .PACKED) (nextSound : next.Sound)
    (tag : next.tag = path.tag) (positive : 0 < taken) (fits : taken ≤ path.left.length) (given : taken ≤ data.length)
    (left : next.left = path.left.drop taken) (last : data.drop taken = [] ∨ next.nloop = 0 ∨ next.reg = 0) :
    path.Passed data next (List.zipWith packedRegHandler path.left (data.take taken)) (data.drop taken) := by
  refine ⟨nextSound, ?_, ⟨taken, rfl⟩, ?_, ?_⟩
  · rw [List.length_drop]
    omega
  · intro _ unfinished between size
    rcases last with none | none | none
    · rw [none] at size
      exact absurd rfl size
    · exact absurd none unfinished
    · exact absurd none between
  · have prefix_ := Pending.feed_packed path.left (data.take taken) (by rw [List.length_take]; omega)
    have whole := Pending.feed_append prefix_ (data.drop taken)
    rw [List.take_append_drop, List.length_take, Nat.min_eq_left given] at whole
    unfold pending
    rw [tag, flag]
    dsimp only
    rw [whole, left]

theorem Passed.trans {middle next : GIFPath} {effects later : List Effect} {between rest : List Quadword}
    (first : path.Passed data middle effects between) (second : middle.Passed between next later rest) :
    path.Passed data next (effects ++ later) rest := by
  obtain ⟨count, taken⟩ := first.tail
  obtain ⟨more, left⟩ := second.tail
  refine ⟨second.sound, second.shorter.trans first.shorter, ⟨count + more, ?_⟩, second.resumes, ?_⟩
  · rw [left, taken, List.drop_drop]
  rw [first.fed, second.fed, List.append_assoc]

theorem start_passed (sound : path.Sound) (flag : path.tag.FLG = .PACKED) (unfinished : path.nloop ≠ 0) (start : path.reg = 0)
    (given : data ≠ []) : ∃ next effects rest, path.fromStart data = some (next, effects, rest) ∧
      path.Passed data next effects rest := by
  obtain ⟨next, result, nextSound, tag, left⟩ := fromStart_spec sound unfinished start given
  refine ⟨next, _, _, result, ?_⟩
  have some : 0 < data.length := List.length_pos_iff.mpr given
  have regs : 0 < path.left.length := List.length_pos_iff.mpr ((left_ne_nil sound).mpr unfinished)
  rcases Nat.lt_or_ge data.length path.left.length with short | long
  · have passed := taken_passed flag nextSound tag some short.le le_rfl left (.inl (List.drop_length))
    rw [List.take_length, List.drop_length] at passed
    rwa [List.drop_eq_nil_of_le short.le]
  · have done : next.nloop = 0 := by
      by_contra goesOn
      rw [List.drop_eq_nil_of_le long] at left
      exact (left_ne_nil nextSound).mpr goesOn left
    have all : next.left = path.left.drop path.left.length := by
      rw [left, List.drop_eq_nil_of_le long, List.drop_length]
    have passed := taken_passed flag nextSound tag regs le_rfl long all (.inr (.inl done))
    rwa [zipWith_take _ le_rfl] at passed

theorem toStart_passed (flag : path.tag.FLG = .PACKED) (sound : path.Sound) (unfinished : path.nloop ≠ 0)
    (more : path.nreg - path.reg < data.length) :
    path.Passed data { path with reg := 0, nloop := path.nloop - 1 }
      (List.zipWith packedRegHandler path.left (data.take (path.nreg - path.reg))) (data.drop (path.nreg - path.reg)) := by
  have inside := sound.reg unfinished
  have length := path.left_length
  obtain ⟨nloop, count⟩ := Nat.exists_eq_succ_of_ne_zero unfinished
  rw [count, Nat.succ_mul] at length
  have left : GIFPath.left { path with reg := 0, nloop := path.nloop - 1 } = path.left.drop (path.nreg - path.reg) := by
    unfold left
    dsimp only
    rw [List.drop_drop, Nat.add_sub_cancel' inside.le, count, List.replicate_succ, List.flatten_cons, List.drop_zero,
      List.drop_append_of_le_length path.loopRegs_length.symm.le, List.drop_eq_nil_of_le path.loopRegs_length.le]
    rfl
  refine taken_passed flag (sound_of_fields sound rfl rfl rfl fun _ => ?_) rfl (by omega) (by omega) more.le left
    (.inr (.inr rfl))
  dsimp only
  omega

theorem packed_passed (flag : path.tag.FLG = .PACKED) (sound : path.Sound) (unfinished : path.nloop ≠ 0) (given : data ≠ [])
    (resumes : path.Resumes data.length) : ∃ next effects rest, path.packed data = some (next, effects, rest) ∧
      path.Passed data next effects rest := by
  unfold packed
  by_cases start : path.reg = 0
  · rw [if_neg (not_not_intro start)]
    exact start_passed sound flag unfinished start given
  · have size : data.length ≠ 0 := fun empty => given (List.eq_nil_of_length_eq_zero empty)
    obtain ⟨loops, more⟩ := resumes flag unfinished start size
    have first := toStart_passed flag sound unfinished more
    have rest : data.drop (path.nreg - path.reg) ≠ [] := by
      rw [ne_eq, List.drop_eq_nil_iff]
      omega
    obtain ⟨next, effects, last, result, second⟩ :=
      start_passed first.sound flag (show path.nloop - 1 ≠ 0 by omega) rfl rest
    refine ⟨next, _, last, ?_, first.trans second⟩
    rw [if_pos start, toStart_spec sound unfinished more]
    simp only [Option.bind_eq_bind, Option.bind_some, result]
    rfl

theorem packed_none (sound : path.Sound) (unfinished : path.nloop ≠ 0) (given : data ≠ [])
    (fits : data.length < 2 ^ 31) (fails : ¬ path.Resumes data.length) : path.packed data = none := by
  have between : path.reg ≠ 0 := fun start => fails fun _ _ between => absurd start between
  unfold packed
  rw [if_pos between]
  rcases Nat.lt_or_ge (path.nreg - path.reg) data.length with more | less
  · have last : path.nloop - 1 = 0 := by
      by_contra loops
      exact fails fun _ _ _ _ => ⟨by omega, more⟩
    have none : GIFPath.fromStart { path with reg := 0, nloop := path.nloop - 1 } (data.drop (path.nreg - path.reg)) = none :=
      fromStart_none _ (by rw [List.length_drop]; omega) (.inr last)
    rw [toStart_spec sound unfinished more]
    simp only [Option.bind_eq_bind, Option.bind_some, none]
    rfl
  · obtain ⟨next, effects, result⟩ := toStart_short sound unfinished given less
    rw [result]
    simp only [Option.bind_eq_bind, Option.bind_some, fromStart_none next (show ([] : List Quadword).length < 2 ^ 31 by decide)
      (.inl rfl)]
    rfl

theorem reglist_passed (flag : path.tag.FLG = .REGLIST) (sound : path.Sound) (unfinished : path.nloop ≠ 0)
    (given : data ≠ []) : ∃ next effects rest, path.reglist data = some (next, effects, rest) ∧
      path.Passed data next effects rest := by
  have some : 0 < data.length := List.length_pos_iff.mpr given
  have positive : 0 < path.left.length := List.length_pos_iff.mpr ((left_ne_nil sound).mpr unfinished)
  have halfCount := Pending.halves_length data
  have halves_given : halves data ≠ [] := by
    intro empty
    rw [empty, List.length_nil] at halfCount
    omega
  obtain ⟨next, result, nextSound, tag, left⟩ := (loop_spec sound unfinished halves_given : ∃ next, path.loop .register (halves data) = _ ∧ _)
  have lasts : data.length - ((halves data).drop path.left.length).length / 2 = min data.length ((path.left.length + 1) / 2) := by
    rw [List.length_drop, halfCount]
    omega
  generalize taken : min data.length ((path.left.length + 1) / 2) = count at lasts
  refine ⟨next, List.zipWith .register path.left (halves data), data.drop count, ?_, nextSound, ?_, ⟨count, rfl⟩, ?_, ?_⟩
  · unfold reglist
    rw [result]
    simp only [Option.bind_eq_bind, Option.bind_some, lasts]
  · rw [List.length_drop]
    omega
  · intro packed
    rw [tag, flag] at packed
    cases packed
  · have first := Pending.feed_reglist path.left (data.take count) (by rw [List.length_take]; omega)
    have whole := Pending.feed_append first (data.drop count)
    have same : List.zipWith Effect.register path.left (halves (data.take count)) =
        List.zipWith Effect.register path.left (halves data) := by
      rw [halves_take]
      rcases Nat.le_total data.length ((path.left.length + 1) / 2) with short | long
      · rw [List.take_of_length_le (by omega)]
      · exact zipWith_take _ (by omega) _
    have ends : path.left.drop (2 * (data.take count).length) = next.left := by
      rw [left, halfCount, List.length_take]
      rcases Nat.le_total data.length ((path.left.length + 1) / 2) with short | long
      · rw [← taken, Nat.min_eq_left short, Nat.min_self]
      · rw [List.drop_eq_nil_of_le (by omega), List.drop_eq_nil_of_le (by omega)]
    rw [List.take_append_drop, same, ends] at whole
    unfold pending
    rw [tag, flag]
    exact whole

theorem image_passed (flag : path.tag.FLG = .IMAGE ∨ path.tag.FLG = .IMAGE2) (sound : path.Sound) (unfinished : path.nloop ≠ 0)
    (given : data ≠ []) : ∃ next effects rest, path.image data = some (next, effects, rest) ∧
      path.Passed data next effects rest := by
  have some : 0 < data.length := List.length_pos_iff.mpr given
  refine ⟨_, _, _, rfl, sound_of_fields sound rfl rfl rfl fun goesOn => ?_, ?_, ⟨_, rfl⟩, ?_, ?_⟩
  · exact sound.reg unfinished
  · rw [List.length_drop]
    omega
  · intro packed
    rcases flag with flag | flag
    · rw [flag] at packed
      cases packed
    · rw [flag] at packed
      cases packed
  · have first := Pending.feed_image path.nloop (data.take (min data.length path.nloop)) (by rw [List.length_take]; omega)
    have whole := Pending.feed_append first (data.drop (min data.length path.nloop))
    have count : (data.take (min data.length path.nloop)).length = min data.length path.nloop := by
      rw [List.length_take]
      omega
    rw [List.take_append_drop, count] at whole
    unfold pending
    rcases flag with flag | flag
    · rw [flag]
      exact whole
    · rw [flag]
      exact whole

/-! ## Tags -/

theorem regsOf_lt (REGS nreg j : Nat) : regsOf REGS nreg j < 16 := by
  unfold regsOf
  split
  · exact Nat.mod_lt _ (by decide)
  · decide

theorem replicate_mul {α : Type} (n k : Nat) (list : List α) :
    (List.replicate (n * k) list).flatten = (List.replicate n (List.replicate k list).flatten).flatten := by
  induction n with
  | zero =>
    rw [Nat.zero_mul]
    rfl
  | succ n ih =>
    rw [Nat.succ_mul, Nat.add_comm, List.replicate_add, List.flatten_append, ih, List.replicate_succ, List.flatten_cons]

theorem U32_digits {regs : Nat → Nat} (small : ∀ j, regs j < 16) {k a b c d : Nat} (byte : a < 16 ∧ b < 16 ∧ c < 16)
    (value : U32 regs k = a + 2 ^ 8 * b + 2 ^ 16 * c + 2 ^ 24 * d) :
    regs (4 * k) = a ∧ regs (4 * k + 1) = b ∧ regs (4 * k + 2) = c ∧ regs (4 * k + 3) = d := by
  have first := small (4 * k)
  have second := small (4 * k + 1)
  have third := small (4 * k + 2)
  unfold U32 at value
  omega

structure Begins (regs : Nat → Nat) (nreg nloop : Nat) (typed : PathType × Nat × Nat) : Prop where
  positive : 0 < typed.2.1
  loops : nloop ≠ 0 → typed.2.2 ≠ 0
  listing : (List.replicate typed.2.2 ((List.range typed.2.1).map regs)).flatten =
    (List.replicate nloop ((List.range nreg).map regs)).flatten
  adOnly : typed.1 = .ADONLY → ∀ j < typed.2.1, regs j = GIF_REG_A_D
  xyzf2 : typed.1 = .STQRGBAXYZF2 → (List.range typed.2.1).map regs = [0x02, 0x01, 0x04]
  xyz2 : typed.1 = .STQRGBAXYZ2 → (List.range typed.2.1).map regs = [0x02, 0x01, 0x05]

variable {regs : Nat → Nat} {nreg nloop : Nat}

theorem begins_unknown (positive : 0 < nreg) (nloop : Nat) : Begins regs nreg nloop (.UNKNOWN, nreg, nloop) :=
  ⟨positive, id, rfl, nofun, nofun, nofun⟩

theorem begins_adOnly (positive : 0 < nreg) (few : nreg ≤ 16) (only : adOnly regs nreg = true) (nloop : Nat) :
    Begins regs nreg nloop (.ADONLY, nreg, nloop) := by
  refine ⟨positive, id, rfl, fun _ j inside => ?_, nofun, nofun⟩
  have all := List.all_eq_true.mp only j (List.mem_range.mpr (Nat.lt_of_lt_of_le inside few))
  rw [decide_eq_true (show j < nreg from inside), beq_iff_eq, beq_iff_eq] at all
  exact all

theorem begins_three {XYZ : Nat} (small : ∀ j, regs j < 16) (type : PathType)
    (match_ : type = .STQRGBAXYZF2 ∧ XYZ = 0x04 ∨ type = .STQRGBAXYZ2 ∧ XYZ = 0x05)
    (value : U32 regs 0 = 0x02 + 2 ^ 8 * 0x01 + 2 ^ 16 * XYZ + 2 ^ 24 * 0) (nloop : Nat) :
    Begins regs 3 nloop (type, 3, nloop) := by
  obtain ⟨first, second, third, -⟩ := U32_digits small
    (by rcases match_ with ⟨-, rfl⟩ | ⟨-, rfl⟩ <;> decide) value
  have listed : (List.range 3).map regs = [0x02, 0x01, XYZ] := by
    show [regs 0, regs 1, regs 2] = _
    rw [first, second, third]
  refine ⟨Nat.succ_pos 2, id, rfl, ?_, ?_, ?_⟩
  · rintro rfl
    rcases match_ with ⟨other, -⟩ | ⟨other, -⟩ <;> cases other
  · rintro rfl
    rcases match_ with ⟨-, rfl⟩ | ⟨other, -⟩
    · exact listed
    · cases other
  · rintro rfl
    rcases match_ with ⟨other, -⟩ | ⟨-, rfl⟩
    · cases other
    · exact listed

theorem begins_repeated {count : Nat} (positive : count ≠ 0)
    (three : (List.range 3).map regs = [0x02, 0x01, 0x04])
    (whole : (List.range nreg).map regs = (List.replicate count [0x02, 0x01, 0x04]).flatten) (nloop : Nat) :
    Begins regs nreg nloop (.STQRGBAXYZF2, 3, nloop * count) := by
  refine ⟨Nat.succ_pos 2, fun some => Nat.mul_ne_zero some positive, ?_, nofun, fun _ => three, nofun⟩
  dsimp only
  rw [three, whole, replicate_mul]

theorem typeOf_begins (small : ∀ j, regs j < 16) (positive : 0 < nreg) (few : nreg ≤ 16) (nloop : Nat) :
    Begins regs nreg nloop (typeOf regs nreg nloop) := by
  unfold typeOf
  by_cases only : adOnly regs nreg = true
  · rw [if_pos only]
    exact begins_adOnly positive few only nloop
  rw [if_neg only]
  split
  · split
    · rename_i value
      exact begins_three small .STQRGBAXYZ2 (.inr ⟨rfl, rfl⟩) value nloop
    · split
      · rename_i value
        exact begins_three small .STQRGBAXYZF2 (.inl ⟨rfl, rfl⟩) value nloop
      · exact begins_unknown positive nloop
  · split
    · rename_i values
      have first := U32_digits (a := 2) (b := 1) (c := 4) (d := 2) small (by decide) values.1
      have second := U32_digits (a := 1) (b := 4) (c := 2) (d := 1) small (by decide) values.2.1
      have third := U32_digits (a := 4) (b := 0) (c := 0) (d := 0) small (by decide) values.2.2
      simp only [Nat.mul_zero, Nat.zero_add, Nat.mul_one, Nat.reduceMul, Nat.reduceAdd] at first second third
      apply begins_repeated (by decide)
      · show [regs 0, regs 1, regs 2] = _
        rw [first.1, first.2.1, first.2.2.1]
      · show [regs 0, regs 1, regs 2, regs 3, regs 4, regs 5, regs 6, regs 7, regs 8] = _
        rw [first.1, first.2.1, first.2.2.1, first.2.2.2, second.1, second.2.1, second.2.2.1, second.2.2.2, third.1]
        rfl
    · exact begins_unknown positive nloop
  · split
    · rename_i values
      have first := U32_digits (a := 2) (b := 1) (c := 4) (d := 2) small (by decide) values.1
      have second := U32_digits (a := 1) (b := 4) (c := 2) (d := 1) small (by decide) values.2.1
      have third := U32_digits (a := 4) (b := 2) (c := 1) (d := 4) small (by decide) values.2.2
      simp only [Nat.mul_zero, Nat.zero_add, Nat.mul_one, Nat.reduceMul, Nat.reduceAdd] at first second third
      apply begins_repeated (by decide)
      · show [regs 0, regs 1, regs 2] = _
        rw [first.1, first.2.1, first.2.2.1]
      · show [regs 0, regs 1, regs 2, regs 3, regs 4, regs 5, regs 6, regs 7, regs 8, regs 9, regs 10, regs 11] = _
        rw [first.1, first.2.1, first.2.2.1, first.2.2.2, second.1, second.2.1, second.2.2.1, second.2.2.2, third.1,
          third.2.1, third.2.2.1, third.2.2.2]
        rfl
    · exact begins_unknown positive nloop
  · exact begins_unknown positive nloop

theorem nregOf_bounds {NREG : Nat} (small : NREG < 16) : 0 < nregOf NREG ∧ nregOf NREG ≤ 16 := by
  unfold nregOf
  split <;> omega

theorem SetTag_spec (sound : path.Sound) (tag : GIFTag) (small : tag.NREG < 16) :
    (path.SetTag tag).Sound ∧ (path.SetTag tag).pending = .begin tag ∧
      ((path.SetTag tag).nloop = 0 ↔ tag.NLOOP = 0) ∧ ((path.SetTag tag).nloop = 0 ∨ (path.SetTag tag).reg = 0) := by
  by_cases none : tag.NLOOP = 0
  · have set : path.SetTag tag = { path with tag := { tag with REGS := path.tag.REGS }, nloop := 0 } := if_pos none
    rw [set]
    refine ⟨sound_of_fields sound rfl rfl rfl fun goesOn => absurd rfl goesOn, ?_, iff_of_true rfl none, .inl rfl⟩
    rw [pending_done rfl]
    unfold Pending.begin GIFTag.listing
    rw [none]
    cases tag.FLG <;> rfl
  obtain ⟨positive, few⟩ := nregOf_bounds small
  have begins : Begins (regsOf tag.REGS (nregOf tag.NREG)) (nregOf tag.NREG) tag.NLOOP (typedOf tag) := by
    unfold typedOf
    dsimp only
    split
    · exact typeOf_begins (regsOf_lt _ _) positive few _
    · exact begins_unknown positive _
  have listed : (List.range (nregOf tag.NREG)).map (regsOf tag.REGS (nregOf tag.NREG)) = tag.registers := by
    apply List.map_congr_left
    intro j member
    exact if_pos (List.mem_range.mp member)
  have left : (path.SetTag tag).left = tag.listing := by
    unfold SetTag left loopRegs GIFTag.listing
    rw [if_neg none, List.drop_zero, begins.listing, listed]
  have image : tag.FLG ≠ .PACKED → (path.SetTag tag).nloop = tag.NLOOP := by
    intro other
    unfold SetTag typedOf
    rw [if_neg none]
    dsimp only
    rw [if_neg other]
  have flag : (path.SetTag tag).tag.FLG = tag.FLG := by
    unfold SetTag
    rw [if_neg none]
  have pending : (path.SetTag tag).pending = .begin tag := by
    unfold GIFPath.pending Pending.begin
    rw [left, flag]
    cases other : tag.FLG with
    | PACKED => rfl
    | REGLIST => rfl
    | IMAGE =>
      dsimp only
      rw [image (by rw [other]; decide)]
    | IMAGE2 =>
      dsimp only
      rw [image (by rw [other]; decide)]
  refine ⟨?_, pending, ?_, ?_⟩
  · unfold SetTag
    rw [if_neg none]
    exact ⟨fun _ => begins.positive, begins.adOnly, begins.xyzf2, begins.xyz2⟩
  · unfold SetTag
    rw [if_neg none]
    exact iff_of_false (begins.loops none) none
  · unfold SetTag
    rw [if_neg none]
    exact .inr rfl

/-! ## A call -/

theorem pass_passed (sound : path.Sound) (given : data ≠ []) (resumes : path.Resumes data.length) :
    ∃ next effects rest, path.pass data = some (next, effects, rest) ∧ path.Passed data next effects rest := by
  obtain ⟨r, rest, rfl⟩ := List.exists_cons_of_ne_nil given
  by_cases done : path.nloop = 0
  · have small : (GIFTag.ofQuadword r).NREG < 16 := Nat.mod_lt _ (by decide)
    obtain ⟨setSound, begins, loops, start⟩ := SetTag_spec sound (.ofQuadword r) small
    refine ⟨path.SetTag (.ofQuadword r), _, rest, if_pos done, setSound, Nat.lt_succ_self _, ⟨1, rfl⟩, ?_, ?_⟩
    · intro _ unfinished between
      rcases start with none | none
      · exact absurd none unfinished
      · exact absurd none between
    · rw [pending_done done, Pending.feed, begins]
      unfold Pending.take
      dsimp only
      congr 2
      by_cases none : (GIFTag.ofQuadword r).NLOOP = 0
      · rw [if_pos none, if_neg (by rw [loops.mpr none]; decide)]
      · have some : 0 < (path.SetTag (.ofQuadword r)).nloop := Nat.pos_of_ne_zero fun empty => none (loops.mp empty)
        rw [if_neg none, if_pos some]
        unfold SetTag
        rw [if_neg none]
        rfl
  · unfold pass
    dsimp only
    rw [if_neg done]
    cases flag : path.tag.FLG with
    | PACKED => exact packed_passed flag sound done given resumes
    | REGLIST => exact reglist_passed flag sound done given
    | IMAGE => exact image_passed (.inl flag) sound done given
    | IMAGE2 => exact image_passed (.inr flag) sound done given

theorem pass_none (sound : path.Sound) (given : data ≠ []) (fits : data.length < 2 ^ 31)
    (fails : ¬ path.Resumes data.length) : path.pass data = none := by
  obtain ⟨r, rest, rfl⟩ := List.exists_cons_of_ne_nil given
  have flag : path.tag.FLG = .PACKED := by
    by_contra flag
    exact fails fun packed => absurd packed flag
  have unfinished : path.nloop ≠ 0 := fun done => fails fun _ goesOn => absurd done goesOn
  unfold pass
  dsimp only
  rw [if_neg unfinished, flag]
  exact packed_none sound unfinished given fits fails

theorem passed_of_pass (sound : path.Sound) (given : data ≠ []) (fits : data.length < 2 ^ 31) {next : GIFPath}
    {effects : List Effect} {rest : List Quadword} (result : path.pass data = some (next, effects, rest)) :
    path.Passed data next effects rest := by
  by_cases resumes : path.Resumes data.length
  · obtain ⟨next', effects', rest', result', passed⟩ := pass_passed sound given resumes
    rw [result'] at result
    cases result
    exact passed
  · rw [pass_none sound given fits resumes] at result
    cases result

end GIFPath

end Pcsx2.GsTransfer
