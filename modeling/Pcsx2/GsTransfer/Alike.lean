import Pcsx2.GsTransfer.Streams

/-!
# Paths that take the same

What a path has besides the registers of its loop and what is left of its packet does not matter.
-/

namespace Pcsx2.GsTransfer
open GIFPath

variable {p q : GIFPath} {α : Type}

structure Alike (p q : GIFPath) : Prop where
  flag : p.tag.FLG = q.tag.FLG
  eop : p.tag.EOP = q.tag.EOP
  nloop : p.nloop = q.nloop
  rest : p.nloop ≠ 0 → p.nreg = q.nreg ∧ p.reg = q.reg ∧ p.type = q.type ∧ p.reg < p.nreg ∧
    ∀ j < p.nreg, p.regs j = q.regs j

def Parallel (x y : Option (GIFPath × α)) : Prop := Option.Rel (fun a b => Alike a.1 b.1 ∧ a.2 = b.2) x y

namespace Parallel

theorem pure (alike : Alike p q) (a : α) : Parallel (some (p, a)) (some (q, a)) := .some ⟨alike, rfl⟩

theorem bind {β : Type} {x y : Option (GIFPath × α)} {f g : GIFPath × α → Option (GIFPath × β)} (first : Parallel x y)
    (second : ∀ p q a, x = some (p, a) → Alike p q → Parallel (f (p, a)) (g (q, a))) :
    Parallel (x.bind f) (y.bind g) := by
  match x, y, first with
  | none, none, .none => exact .none
  | some (p, a), some (q, _), .some both =>
    obtain ⟨alike, rfl⟩ := both
    exact second p q a rfl alike

theorem emit {x y : Option (GIFPath × List Effect × α)} (both : Parallel x y) (effects : List Effect) :
    Parallel (GIFPath.emit effects x) (GIFPath.emit effects y) := by
  match x, y, both with
  | none, none, .none => exact .none
  | some (p, a), some (q, _), .some both =>
    obtain ⟨alike, rfl⟩ := both
    exact .some ⟨alike, rfl⟩

theorem effects {x y : Option (GIFPath × α)} (both : Parallel x y) : x.map Prod.snd = y.map Prod.snd := by
  match x, y, both with
  | none, none, .none => rfl
  | some _, some _, .some both => exact congrArg some both.2

end Parallel

/-! ## Loops -/

namespace Alike

theorem step (alike : Alike p q) (unfinished : p.nloop ≠ 0) :
    Alike p.StepReg.1 q.StepReg.1 ∧ p.StepReg.2 = q.StepReg.2 ∧ p.GetReg = q.GetReg ∧ p.StepReg.1.reg = q.StepReg.1.reg ∧
      (p.StepReg.2 = true → p.StepReg.1.nloop ≠ 0) := by
  obtain ⟨nreg, reg, type, inside, regs⟩ := alike.rest unfinished
  have same : p.GetReg = q.GetReg := by
    unfold GetReg
    rw [regs p.reg inside, reg]
  by_cases last : p.reg + 1 = p.nreg
  · have lastToo : q.reg + 1 = q.nreg := by rw [← reg, ← nreg, last]
    rw [step_last last, step_last lastToo, alike.nloop]
    refine ⟨⟨alike.flag, alike.eop, rfl, fun _ => ⟨nreg, rfl, type, ?_, regs⟩⟩, rfl, same, rfl, of_decide_eq_true⟩
    dsimp only
    omega
  · have moreToo : q.reg + 1 ≠ q.nreg := by rwa [← reg, ← nreg]
    rw [step_next last, step_next moreToo]
    refine ⟨⟨alike.flag, alike.eop, alike.nloop, fun _ => ⟨nreg, congrArg Nat.succ reg, type, ?_, regs⟩⟩, rfl, same,
      congrArg Nat.succ reg, fun _ => unfinished⟩
    dsimp only
    omega

theorem loop (alike : Alike p q) (unfinished : p.nloop ≠ 0) (handler : Nat → α → Effect) (data : List α) :
    Parallel (p.loop handler data) (q.loop handler data) := by
  induction data generalizing p q with
  | nil => exact .none
  | cons r rest ih =>
    obtain ⟨next, goesOn, same, -, open_⟩ := alike.step unfinished
    rw [GIFPath.loop, GIFPath.loop, ← goesOn, ← same]
    by_cases more : p.StepReg.2 = true ∧ rest ≠ []
    · rw [if_pos more, if_pos more]
      exact (ih next (open_ more.1)).emit _
    · rw [if_neg more, if_neg more]
      exact .pure next _

theorem toStart (alike : Alike p q) (unfinished : p.nloop ≠ 0) (data : List Quadword) :
    Parallel (p.toStart data) (q.toStart data) := by
  induction data generalizing p q with
  | nil => exact .none
  | cons r rest ih =>
    obtain ⟨next, goesOn, same, reg, open_⟩ := alike.step unfinished
    rw [GIFPath.toStart, GIFPath.toStart, ← goesOn, ← same, ← reg]
    by_cases more : p.StepReg.2 = true ∧ rest ≠ [] ∧ p.StepReg.1.reg ≠ 0
    · rw [if_pos more, if_pos more]
      exact (ih next (open_ more.1)).emit _
    · rw [if_neg more, if_neg more]
      exact .pure next _

theorem whole_congr {handler handler' : Nat → Quadword → Effect} {nreg : Nat} (same : ∀ j < nreg, handler j = handler' j)
    {reg : Nat} (inside : reg < nreg) (total : Nat) (data : List Quadword) :
    whole handler nreg reg total data = whole handler' nreg reg total data := by
  induction data generalizing reg total with
  | nil => rfl
  | cons r rest ih =>
    have next : (if reg + 1 < nreg then reg + 1 else 0) < nreg := by
      split <;> omega
    rw [whole, whole, ih next, same reg inside]

theorem bulk (alike : Alike p q) (unfinished : p.nloop ≠ 0) (total : Nat) (data : List Quadword) :
    p.bulk total data = q.bulk total data := by
  obtain ⟨nreg, -, type, inside, regs⟩ := alike.rest unfinished
  unfold GIFPath.bulk
  rw [← type, ← nreg]
  cases p.type with
  | UNKNOWN => exact whole_congr (fun j below => by rw [regs j below]) (Nat.zero_lt_of_lt inside) total data
  | ADONLY => rfl
  | STQRGBAXYZF2 => rfl
  | STQRGBAXYZ2 => rfl

variable {data : List Quadword}

theorem fromStart (alike : Alike p q) (fits : data.length < 2 ^ 31) :
    Parallel (p.fromStart data) (q.fromStart data) := by
  by_cases done : p.nloop = 0
  · rw [fromStart_none p fits (.inr done), fromStart_none q fits (.inr (alike.nloop.symm.trans done))]
    exact .none
  · obtain ⟨nreg, reg, type, inside, regs⟩ := alike.rest done
    unfold GIFPath.fromStart
    dsimp only
    rw [← alike.nloop, ← nreg, ← alike.bulk done]
    split
    · cases p.bulk (p.nloop * p.nreg) data with
      | none => exact .none
      | some result => exact .some ⟨⟨alike.flag, alike.eop, rfl, fun goesOn => absurd rfl goesOn⟩, rfl⟩
    · exact alike.loop done packedRegHandler data

theorem toStart_length {next : GIFPath} {effects : List Effect} {rest : List Quadword}
    (result : p.toStart data = some (next, effects, rest)) : rest.length ≤ data.length := by
  induction data generalizing p next effects rest with
  | nil => cases result
  | cons r data ih =>
    rw [GIFPath.toStart] at result
    split at result
    · cases later : p.StepReg.1.toStart data with
      | none =>
        rw [later] at result
        cases result
      | some left =>
        rw [later] at result
        cases result
        exact (ih later).trans (Nat.le_succ _)
    · cases result
      exact Nat.le_succ _

theorem packed (alike : Alike p q) (unfinished : p.nloop ≠ 0) (fits : data.length < 2 ^ 31) :
    Parallel (p.packed data) (q.packed data) := by
  obtain ⟨-, reg, -, -, -⟩ := alike.rest unfinished
  unfold GIFPath.packed
  rw [← reg]
  split
  · refine (alike.toStart unfinished data).bind fun next next' left result same => ?_
    exact (same.fromStart (Nat.lt_of_le_of_lt (toStart_length result) fits)).emit _
  · exact alike.fromStart fits

theorem reglist (alike : Alike p q) (unfinished : p.nloop ≠ 0) (data : List Quadword) :
    Parallel (p.reglist data) (q.reglist data) :=
  (alike.loop unfinished .register (halves data)).bind fun _ _ _ _ next => .pure next _

theorem image (alike : Alike p q) (data : List Quadword) : Parallel (p.image data) (q.image data) := by
  unfold GIFPath.image
  rw [← alike.nloop]
  refine .some ⟨⟨alike.flag, alike.eop, rfl, fun goesOn => ?_⟩, rfl⟩
  have before : p.nloop ≠ 0 := fun done => goesOn (by rw [done, Nat.zero_sub])
  exact alike.rest before

/-! ## Calls -/

theorem setTag (p q : GIFPath) (src : GIFTag) (small : src.NREG < 16) : Alike (p.SetTag src) (q.SetTag src) := by
  unfold SetTag
  by_cases none : src.NLOOP = 0
  · rw [if_pos none, if_pos none]
    exact ⟨rfl, rfl, rfl, fun goesOn => absurd rfl goesOn⟩
  · rw [if_neg none, if_neg none]
    refine ⟨rfl, rfl, rfl, fun _ => ⟨rfl, rfl, rfl, ?_, fun _ _ => rfl⟩⟩
    obtain ⟨positive, few⟩ := nregOf_bounds small
    unfold typedOf
    dsimp only
    split
    · exact (typeOf_begins (regsOf_lt _ _) positive few _).positive
    · exact positive

theorem pass (alike : Alike p q) (fits : data.length < 2 ^ 31) :
    Parallel (p.pass data) (q.pass data) := by
  cases data with
  | nil => exact .none
  | cons r rest =>
    unfold GIFPath.pass
    dsimp only
    by_cases done : p.nloop = 0
    · rw [if_pos done, if_pos (alike.nloop.symm.trans done)]
      have next := setTag p q (.ofQuadword r) (Nat.mod_lt _ (by decide))
      have effects : tagEffects (p.SetTag (.ofQuadword r)).tag = tagEffects (q.SetTag (.ofQuadword r)).tag := by
        unfold SetTag
        split <;> rfl
      rw [next.nloop, effects]
      exact .pure next _
    · rw [if_neg done, if_neg (alike.nloop.symm.trans_ne done), ← alike.flag]
      cases p.tag.FLG with
      | PACKED => exact alike.packed done fits
      | REGLIST => exact alike.reglist done _
      | IMAGE => exact alike.image _
      | IMAGE2 => exact alike.image _

theorem passes (alike : Alike p q) (sound : p.Sound) (index fuel : Nat) (fits : data.length < 2 ^ 31) :
    Parallel (p.passes index fuel data) (q.passes index fuel data) := by
  induction fuel generalizing p q data with
  | zero =>
    cases data with
    | nil => exact .pure alike _
    | cons r rest => exact .none
  | succ fuel ih =>
    cases data with
    | nil => exact .pure alike _
    | cons r rest =>
      unfold GIFPath.passes
      refine (alike.pass fits).bind fun next next' left result same => ?_
      obtain ⟨effects, rest⟩ := left
      have passed := passed_of_pass sound (List.cons_ne_nil _ _) fits result
      dsimp only
      rw [same.eop, same.nloop]
      split
      · exact .pure same _
      · exact (ih same passed.sound (passed.shorter.trans fits)).emit effects

theorem transfer (alike : Alike p q) (sound : p.Sound) (index : Nat) (source : Source) :
    Parallel (Transfer index p source) (Transfer index q source) := by
  unfold Transfer
  refine (alike.passes sound index _ source.fits).bind fun next next' left _ same => ?_
  obtain ⟨effects, rest⟩ := left
  dsimp only
  rw [same.nloop]
  split
  · have ended : Alike { next with nloop := 0 } { next' with nloop := 0 } :=
      ⟨same.flag, same.eop, rfl, fun goesOn => absurd rfl goesOn⟩
    exact .pure ended effects
  · exact .pure same effects

theorem transfers (alike : Alike p q) (sound : p.Sound) (index : Nat) (sources : List Source) :
    Parallel (transfers index p sources) (transfers index q sources) := by
  induction sources generalizing p q with
  | nil => exact .pure alike _
  | cons source later ih =>
    unfold GsTransfer.transfers
    refine (alike.transfer sound index source).bind fun next next' effects result same => ?_
    exact (ih same (sound_of_Transfer sound result)).bind fun _ _ _ _ last => .pure last _

end Alike

end Pcsx2.GsTransfer
