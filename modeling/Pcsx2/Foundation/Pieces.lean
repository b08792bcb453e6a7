import Mathlib.Data.List.DropRight

/-!
# Pieces

The nonempty pieces that a separator leaves of a list, and lists put together from pieces.
-/

namespace Pcsx2.Foundation

variable {α : Type} [DecidableEq α] {sep a : α} {xs ys piece : List α} {names : List (List α)}

def pieces (sep : α) (xs : List α) : List (List α) := (xs.splitOn sep).filter (· ≠ [])

def IsPiece (sep : α) (piece : List α) : Prop := piece ≠ [] ∧ sep ∉ piece

instance : Decidable (IsPiece sep piece) := inferInstanceAs (Decidable (_ ∧ _))

theorem pieces_nil : pieces sep [] = [] := by simp [pieces]

theorem pieces_append (xs ys : List α) : pieces sep (xs ++ sep :: ys) = pieces sep xs ++ pieces sep ys := by
  simp [pieces, List.splitOn_append_cons_self]

theorem pieces_cons_sep (ys : List α) : pieces sep (sep :: ys) = pieces sep ys := by
  simpa [pieces_nil] using pieces_append [] ys

theorem pieces_of_not_mem (absent : sep ∉ xs) : pieces sep xs = if xs = [] then [] else [xs] := by
  rw [pieces, List.splitOn_eq_singleton absent]
  by_cases empty : xs = [] <;> simp [empty]

theorem IsPiece.pieces (is : IsPiece sep piece) : pieces sep piece = [piece] := by
  rw [pieces_of_not_mem is.2, if_neg is.1]

theorem pieces_intercalate (are : ∀ piece ∈ names, IsPiece sep piece) : pieces sep ([sep].intercalate names) = names := by
  cases names with
  | nil => exact pieces_nil
  | cons piece names =>
      rw [pieces, List.splitOn_intercalate sep (fun piece mem => (are piece mem).2) (List.cons_ne_nil _ _)]
      exact List.filter_eq_self.2 fun piece mem => by simpa using (are piece mem).1

theorem not_mem_of_mem_splitOn (mem : piece ∈ xs.splitOn sep) : sep ∉ piece := by
  induction xs generalizing piece with
  | nil =>
      rw [List.splitOn_nil, List.mem_singleton] at mem
      simp [mem]
  | cons a xs ih =>
      rw [List.splitOn_cons_eq_if_modifyHead] at mem
      by_cases separates : a = sep
      · simp only [separates, beq_self_eq_true, if_true, List.mem_cons] at mem
        rcases mem with rfl | mem
        · simp
        · exact ih mem
      · obtain ⟨first, others, split⟩ := List.exists_cons_of_ne_nil (List.splitOn_ne_nil sep xs)
        simp only [beq_iff_eq, separates, if_false, split, List.modifyHead_cons, List.mem_cons] at mem
        rcases mem with rfl | mem
        · have absent := ih (split ▸ List.mem_cons_self)
          simpa using ⟨Ne.symm separates, absent⟩
        · exact ih (split ▸ List.mem_cons_of_mem first mem)

theorem isPiece_of_mem (mem : piece ∈ pieces sep xs) : IsPiece sep piece := by
  rw [pieces, List.mem_filter, decide_eq_true_iff] at mem
  exact ⟨mem.2, not_mem_of_mem_splitOn mem.1⟩

theorem not_infix_intercalate (are : ∀ piece ∈ names, sep ∉ piece) (behind : [] ∉ names.tail) :
    ¬[sep, sep] <:+: [sep].intercalate names := by
  rintro ⟨before, after, same⟩
  have some_names : names ≠ [] := by
    rintro rfl
    simp at same
  have split : names = before.splitOn sep ++ [] :: after.splitOn sep := by
    rw [← List.splitOn_intercalate sep are some_names, ← same]
    have shape : before ++ [sep, sep] ++ after = before ++ sep :: ([] ++ sep :: after) := by simp
    rw [shape, List.splitOn_append_cons_self, List.splitOn_append_cons_self, List.splitOn_nil]
    rfl
  obtain ⟨first, others, front⟩ := List.exists_cons_of_ne_nil (List.splitOn_ne_nil sep before)
  rw [split, front] at behind
  simp at behind

theorem pieces_map {β : Type} [DecidableEq β] {f : α → β} {sep' : β} (sep_iff : ∀ a, f a = sep' ↔ a = sep) (xs : List α) :
    pieces sep' (xs.map f) = (pieces sep xs).map (List.map f) := by
  have split : (xs.map f).splitOn sep' = (xs.splitOn sep).map (List.map f) := by
    induction xs with
    | nil => simp
    | cons a xs ih =>
        rw [List.map_cons, List.splitOn_cons_eq_if_modifyHead, List.splitOn_cons_eq_if_modifyHead, ih]
        by_cases separates : a = sep
        · simp [separates, (sep_iff sep).2 rfl]
        · have other : f a ≠ sep' := fun same => separates ((sep_iff a).1 same)
          cases xs.splitOn sep <;> simp [separates, other]
  simp [pieces, split, List.filter_map, Function.comp_def]

/-! ## Repeated separators -/

def collapse (sep : α) : Bool → List α → List α
  | _, [] => []
  | last, a :: xs =>
    if a = sep then
      if last then collapse sep true xs else a :: collapse sep true xs
    else a :: collapse sep false xs

def trim (sep : α) (xs : List α) : List α := xs.rdropWhile (· = sep)

def slashed (sep : α) (names : List (List α)) : List α := names.flatMap (sep :: ·)

omit [DecidableEq α] in
theorem slashed_eq (names : List (List α)) (some_names : names ≠ []) : slashed sep names = sep :: [sep].intercalate names := by
  induction names with
  | nil => exact absurd rfl some_names
  | cons piece names ih =>
      cases names with
      | nil => simp [slashed]
      | cons next names =>
          have behind := ih (List.cons_ne_nil _ _)
          rw [slashed, List.flatMap_cons, ← slashed, behind, List.intercalate_cons_cons]
          simp

theorem collapse_append {last : Bool} (absent : sep ∉ piece) (xs : List α) :
    collapse sep last (piece ++ xs) = piece ++ collapse sep (last && piece.isEmpty) xs := by
  induction piece generalizing last with
  | nil => simp
  | cons a piece ih =>
      obtain ⟨different, behind⟩ := List.ne_and_not_mem_of_not_mem_cons absent
      simp [collapse, Ne.symm different, ih behind]

theorem trim_append_sep (xs : List α) : trim sep (xs ++ [sep]) = trim sep xs := by
  simp [trim]

theorem trim_append_other (xs : List α) (other : a ≠ sep) : trim sep (xs ++ [a]) = xs ++ [a] := by
  simp [trim, other]

theorem trim_append (some_ys : trim sep ys ≠ []) : trim sep (xs ++ ys) = xs ++ trim sep ys := by
  induction ys using List.reverseRecOn with
  | nil => simp [trim] at some_ys
  | append_singleton ys a ih =>
      rw [← List.append_assoc]
      by_cases separates : a = sep
      · subst separates
        rw [trim_append_sep] at some_ys
        rw [trim_append_sep, trim_append_sep, ih some_ys]
      · rw [trim_append_other _ separates, trim_append_other _ separates, List.append_assoc]

theorem IsPiece.trim (is : IsPiece sep piece) : trim sep piece = piece := by
  refine List.rdropWhile_eq_self_iff.2 fun some_piece last => is.2 ?_
  have same : piece.getLast some_piece = sep := by simpa using last
  exact same ▸ List.getLast_mem some_piece

theorem trim_append_piece (is : IsPiece sep piece) (xs : List α) : Foundation.trim sep (xs ++ piece) = xs ++ piece := by
  rw [trim_append (by rw [is.trim]; exact is.1), is.trim]

theorem trim_collapse (trimmed : trim sep xs = xs) (ys : List α) :
    trim sep (xs ++ sep :: collapse sep true ys) = xs ++ slashed sep (pieces sep ys) := by
  have parts (names : List (List α)) (absent : ∀ piece ∈ names, sep ∉ piece) (xs : List α) (trimmed : trim sep xs = xs) :
      trim sep (xs ++ sep :: collapse sep true ([sep].intercalate names)) = xs ++ slashed sep (names.filter (· ≠ [])) := by
    induction names generalizing xs with
    | nil => simpa [slashed, collapse, trim_append_sep] using trimmed
    | cons piece names ih =>
        obtain ⟨here, behind⟩ := List.forall_mem_cons.1 absent
        by_cases empty : piece = []
        · subst empty
          cases names with
          | nil => simpa [slashed, collapse, trim_append_sep] using trimmed
          | cons next names => simpa [collapse] using ih behind xs trimmed
        · have is : IsPiece sep piece := ⟨empty, here⟩
          have longer : trim sep (xs ++ sep :: piece) = xs ++ sep :: piece := by
            simpa using trim_append_piece is (xs ++ [sep])
          cases names with
          | nil =>
              have whole : collapse sep true (piece ++ []) = piece ++ [] := collapse_append here []
              rw [List.append_nil] at whole
              simp [whole, longer, slashed, empty]
          | cons next names =>
              have rest := ih behind (xs ++ sep :: piece) longer
              rw [List.intercalate_cons_cons, List.append_assoc, collapse_append here]
              simpa [collapse, empty, slashed] using rest
  have split := parts (ys.splitOn sep) (fun piece mem => not_mem_of_mem_splitOn mem) xs trimmed
  rwa [List.intercalate_splitOn] at split

end Pcsx2.Foundation

/-!
# Descents

Where names lead to, when one of them stands for the place itself and one for the place above it.
-/

namespace Pcsx2.Foundation

variable {α β : Type} [DecidableEq α] [DecidableEq β] {here up : α} {here' up' : β} {f : α → β}

def descend (here up : α) (place : List α) : List α → Option (List α)
  | [] => some place
  | name :: names =>
    if name = here then descend here up place names
    else if name = up then
      if place = [] then none else descend here up place.dropLast names
    else descend here up (place ++ [name]) names

theorem descend_map (here_iff : ∀ name, f name = here' ↔ name = here) (up_iff : ∀ name, f name = up' ↔ name = up) (place names : List α) :
    descend here' up' (place.map f) (names.map f) = (descend here up place names).map (List.map f) := by
  induction names generalizing place with
  | nil => rfl
  | cons name names ih =>
      rw [List.map_cons, descend, descend]
      by_cases is_here : name = here
      · simp [is_here, (here_iff here).2 rfl, ih]
      by_cases is_up : name = up
      · subst is_up
        have further := ih place.dropLast
        rw [List.map_dropLast] at further
        by_cases start : place = [] <;> simp [here_iff, up_iff, is_here, start, further]
      · have further := ih (place ++ [name])
        rw [List.map_append] at further
        simpa [here_iff, up_iff, is_here, is_up] using further

end Pcsx2.Foundation
