import Mathlib.Data.List.Nodup
import Mathlib.Data.List.Perm.Basic
import Mathlib.Logic.Function.Basic

/-!
# Chains of links

A table of links gives for each cell the one behind it. A chain is the list of the cells from one on to the end.
-/

namespace Pcsx2.Foundation

variable {κ : Type*} {next next' : κ → Option κ} {chain : List κ} {cell last : κ}

/-- The links lead along the list and end with it. -/
def Linked (next : κ → Option κ) : List κ → Prop
  | [] => True
  | cell :: rest => next cell = rest.head? ∧ Linked next rest

namespace Linked

theorem congr (linked : Linked next chain) (same : ∀ cell ∈ chain, next' cell = next cell) :
    Linked next' chain := by
  induction chain with
  | nil => trivial
  | cons first rest ih =>
    obtain ⟨link, links⟩ := linked
    refine ⟨(same first List.mem_cons_self).trans link, ih links fun cell member => ?_⟩
    exact same cell (List.mem_cons_of_mem first member)

theorem single (ends : next cell = none) : Linked next [cell] := ⟨ends, trivial⟩

theorem snoc (linked : Linked next chain) (distinct : chain.Nodup) (ends : chain.getLast? = some last)
    (fresh : cell ∉ chain) (link : next' last = some cell) (stop : next' cell = none)
    (same : ∀ other ∈ chain, other ≠ last → next' other = next other) : Linked next' (chain ++ [cell]) := by
  induction chain with
  | nil => simp at ends
  | cons first rest ih =>
    obtain ⟨follows, links⟩ := linked
    obtain ⟨single, distinct⟩ := List.nodup_cons.mp distinct
    cases rest with
    | nil =>
      obtain rfl : first = last := by simpa using ends
      exact ⟨link, stop, trivial⟩
    | cons second rest =>
      have behind : (second :: rest).getLast? = some last := by simpa using ends
      have other : first ≠ last := fun equal => single (equal ▸ List.mem_of_getLast? behind)
      refine ⟨(same first List.mem_cons_self other).trans follows, ?_⟩
      refine ih links distinct behind (fun member => fresh (List.mem_cons_of_mem first member)) fun cell member => ?_
      exact same cell (List.mem_cons_of_mem first member)

end Linked

/-! ## Families of chains -/

variable {ι : Type*} [DecidableEq ι] {owners : List ι} {owner : ι} {chains : ι → List κ}

theorem flatMap_update_of_not_mem (other : owner ∉ owners) (changed : List κ) :
    owners.flatMap (Function.update chains owner changed) = owners.flatMap chains := by
  apply List.flatMap_congr
  intro member inside
  apply Function.update_of_ne
  rintro rfl
  exact other inside

variable (chains) in
theorem flatMap_update_snoc (inside : owner ∈ owners) (distinct : owners.Nodup) (cell : κ) :
    (owners.flatMap (Function.update chains owner (chains owner ++ [cell]))).Perm (cell :: owners.flatMap chains) := by
  induction owners with
  | nil => cases inside
  | cons first rest ih =>
    obtain ⟨single, distinct⟩ := List.nodup_cons.mp distinct
    rw [List.flatMap_cons, List.flatMap_cons]
    by_cases here : first = owner
    · subst here
      rw [Function.update_self, flatMap_update_of_not_mem single, List.append_assoc]
      exact List.perm_middle
    · rw [Function.update_of_ne here]
      have there : owner ∈ rest := (List.mem_cons.mp inside).resolve_left (Ne.symm here)
      exact ((ih there distinct).append_left _).trans List.perm_middle

end Pcsx2.Foundation
