import Mathlib.Data.List.Basic

/-!
# Globs

A glob is a list of symbols: a letter to be met, any single letter, or any string.
-/

namespace Pcsx2.Foundation.Glob

inductive Symbol (α : Type*)
  | letter (a : α)
  | any
  | star
  deriving DecidableEq

variable {α β : Type*} {same same' : α → β → Prop}

inductive Matches (same : α → β → Prop) : List (Symbol α) → List β → Prop
  | nil : Matches same [] []
  | letter {a : α} {b : β} {mask : List (Symbol α)} {subject : List β} (met : same a b)
      (rest : Matches same mask subject) : Matches same (.letter a :: mask) (b :: subject)
  | any {b : β} {mask : List (Symbol α)} {subject : List β}
      (rest : Matches same mask subject) : Matches same (.any :: mask) (b :: subject)
  | star (skipped : List β) {mask : List (Symbol α)} {subject : List β}
      (rest : Matches same mask subject) : Matches same (.star :: mask) (skipped ++ subject)

def Symbol.Accepts (same : α → β → Prop) : Symbol α → β → Prop
  | .letter a, b => same a b
  | .any, _ => True
  | .star, _ => False

variable {symbol : Symbol α} {mask mask' : List (Symbol α)} {b : β} {subject : List β}

theorem Matches.mono (weaker : ∀ a b, same a b → same' a b) (matched : Matches same mask subject) :
    Matches same' mask subject := by
  induction matched with
  | nil => exact .nil
  | letter met _ ih => exact .letter (weaker _ _ met) ih
  | any _ ih => exact .any ih
  | star skipped _ ih => exact .star skipped ih

theorem matches_nil_iff : Matches same [] subject ↔ subject = [] := by
  constructor
  · intro matched
    cases matched
    rfl
  · rintro rfl
    exact .nil

theorem matches_cons_iff (single : symbol ≠ .star) :
    Matches same (symbol :: mask) (b :: subject) ↔ symbol.Accepts same b ∧ Matches same mask subject := by
  constructor
  · intro matched
    cases symbol with
    | letter a =>
        cases matched with
        | letter met rest => exact ⟨met, rest⟩
    | any =>
        cases matched with
        | any rest => exact ⟨trivial, rest⟩
    | star => exact absurd rfl single
  · rintro ⟨accepts, rest⟩
    cases symbol with
    | letter a => exact .letter accepts rest
    | any => exact .any rest
    | star => exact absurd rfl single

theorem not_matches_cons_nil (single : symbol ≠ .star) : ¬Matches same (symbol :: mask) ([] : List β) := by
  intro matched
  cases symbol with
  | letter a => cases matched
  | any => cases matched
  | star => exact single rfl

theorem matches_star_iff :
    Matches same (.star :: mask) subject ↔ ∃ rest, rest <:+ subject ∧ Matches same mask rest := by
  constructor
  · intro matched
    cases matched with
    | star skipped rest => exact ⟨_, ⟨skipped, rfl⟩, rest⟩
  · rintro ⟨_, ⟨skipped, rfl⟩, matched⟩
    exact .star skipped matched

theorem Matches.star_of_suffix {rest : List β} (matched : Matches same (.star :: mask) rest) (suffix : rest <:+ subject) :
    Matches same (.star :: mask) subject := by
  obtain ⟨rest', suffix', matched'⟩ := matches_star_iff.1 matched
  exact matches_star_iff.2 ⟨rest', suffix'.trans suffix, matched'⟩

theorem Matches.split {front : List (Symbol α)} (single : .star ∉ front) (matched : Matches same (front ++ mask) subject) :
    ∃ taken rest, subject = taken ++ rest ∧ taken.length = front.length ∧ Matches same mask rest := by
  induction front generalizing subject with
  | nil => exact ⟨[], subject, rfl, rfl, matched⟩
  | cons symbol front ih =>
      have first : symbol ≠ .star := fun eq => single (eq ▸ List.mem_cons_self)
      cases subject with
      | nil => exact absurd matched (not_matches_cons_nil first)
      | cons b subject =>
          obtain ⟨taken, rest, rfl, length, matched⟩ :=
            ih (fun mem => single (List.mem_cons_of_mem _ mem)) ((matches_cons_iff first).1 matched).2
          exact ⟨b :: taken, rest, rfl, by simp [length], matched⟩

theorem Matches.absorb {front : List (Symbol α)} {taken : List β} (single : .star ∉ front)
    (length : taken.length = front.length) (matched : Matches same (.star :: (front ++ mask)) (taken ++ subject)) :
    ∃ rest, rest <:+ subject ∧ Matches same mask rest := by
  obtain ⟨later, suffix, matched⟩ := matches_star_iff.1 matched
  obtain ⟨taken', rest, rfl, length', matched⟩ := matched.split single
  have shorter := suffix.length_le
  simp only [List.length_append] at shorter
  have inside : rest <:+ taken ++ subject := (List.suffix_append taken' rest).trans suffix
  exact ⟨rest, List.suffix_of_suffix_length_le inside (List.suffix_append taken subject) (by omega), matched⟩

end Pcsx2.Foundation.Glob
