import Mathlib.Algebra.BigOperators.Group.List.Basic
import Pcsx2.PacketReader.Options

/-!
# Options that are written and read again

The options of a header are written one behind another and zeros follow them up to the end of the
header. The loop reads them back when it comes to an end there.
-/

namespace Pcsx2.PacketReader

open Foundation Foundation.Reader

structure OptionCodec (α : Type) extends OptionFormat α where
  getLength : α → Byte
  write : α → List Byte
  write_nop : write nop = [1]
  length_write : ∀ o, (write o).length = (getLength o).toNat
  written : ∀ o, o ≠ nop → ∃ opKind body, write o = opKind :: getLength o :: body ∧ (opKind ≠ 0 ∧ opKind ≠ 1) ∧
    Reads (read opKind) (write o) o

namespace OptionCodec

open OptionFormat

variable {α : Type} (codec : OptionCodec α)

def total (options : List α) : Nat := (options.map fun o => (codec.getLength o).toNat).sum

def bytes (options : List α) : List Byte := options.flatMap codec.write

/-- `ReComputeHeaderLen` counts the options and aligns. -/
def headerLengthOf (options : List α) : Nat := (20 + codec.total options + 3) / 4 * 4

/-- Where the loop stops behind these options: no NOP ends the header unless the payload reads as an
END, and a single zero at the end of the header has a byte behind it. -/
def EndsWell (options : List α) (headerLength : Nat) (payload : List Byte) : Prop :=
  (20 + codec.total options = headerLength → options.getLast? = some codec.nop → ∃ b rest, payload = 0 :: b :: rest) ∧
  (20 + codec.total options + 1 = headerLength → payload ≠ [])

variable {codec} {headerLength used : Nat} {front rest payload : List Byte} {options done : List α} {o : α}

theorem total_cons : codec.total (o :: options) = (codec.getLength o).toNat + codec.total options := by
  rw [total, total, List.map_cons, List.sum_cons]

theorem total_append {options' : List α} : codec.total (options ++ options') = codec.total options + codec.total options' := by
  rw [total, total, total, List.map_append, List.sum_append]

theorem length_bytes : (codec.bytes options).length = codec.total options := by
  induction options with
  | nil => rfl
  | cons o options ih => rw [bytes, List.flatMap_cons, List.length_append, codec.length_write, total_cons, ← ih, bytes]

theorem getLength_nop : (codec.getLength codec.nop).toNat = 1 := by
  rw [← codec.length_write, codec.write_nop, List.length_singleton]

theorem getLength_pos (o : α) : 0 < (codec.getLength o).toNat := by
  by_cases nop : o = codec.nop
  · rw [nop, getLength_nop]
    exact Nat.one_pos
  · obtain ⟨_, _, write, -⟩ := codec.written o nop
    rw [← codec.length_write, write]
    exact Nat.succ_pos _

theorem total_pos (some : options ≠ []) : 0 < codec.total options := by
  obtain ⟨o, options, rfl⟩ := List.exists_cons_of_ne_nil some
  rw [total_cons]
  exact Nat.add_pos_left (getLength_pos o) _

theorem le_headerLengthOf : 20 + codec.total options ≤ codec.headerLengthOf options := by
  rw [headerLengthOf]
  omega

theorem headerLengthOf_nil : codec.headerLengthOf [] = 20 := by simp [headerLengthOf, total]

/-! ## One written option -/

theorem getElem?_front_none {b : Byte} : (front ++ [b])[front.length + 1]? = none := by
  rw [List.getElem?_eq_none]
  rw [List.length_append, List.length_singleton]

theorem turn_written (other : o ≠ codec.nop) : ∃ used', codec.turn (front ++ (codec.write o ++ rest)) headerLength
    ⟨front.length, done, used⟩ = if front.length + (codec.getLength o).toNat = headerLength then .done (done ++ [o], used')
      else .again ⟨front.length + (codec.getLength o).toNat, done ++ [o], used'⟩ := by
  obtain ⟨opKind, body, write, option, reads⟩ := codec.written o other
  have kind : (front ++ (codec.write o ++ rest))[front.length]? = some opKind := by
    rw [write]
    exact getElem?_front
  have len : (front ++ (codec.write o ++ rest))[front.length + 1]? = some (codec.getLength o) := by
    rw [write]
    exact getElem?_front_succ
  exact ⟨_, turn_option (s := ⟨front.length, done, used⟩) kind option len (reads front rest)⟩

theorem again_written (more : rest ≠ []) (before : front.length + (codec.getLength o).toNat ≠ headerLength) :
    ∃ used', codec.turn (front ++ (codec.write o ++ rest)) headerLength ⟨front.length, done, used⟩ =
      .again ⟨front.length + (codec.getLength o).toNat, done ++ [o], used'⟩ := by
  by_cases nop : o = codec.nop
  · subst nop
    obtain ⟨b, rest, rfl⟩ := List.exists_cons_of_ne_nil more
    rw [codec.write_nop, getLength_nop]
    exact ⟨_, turn_nop (s := ⟨front.length, done, used⟩) getElem?_front getElem?_front_succ⟩
  · obtain ⟨used', turn⟩ := @turn_written _ codec headerLength used front rest done o nop
    rw [if_neg before] at turn
    exact ⟨used', turn⟩

theorem bytes_cons : codec.bytes (o :: options) = codec.write o ++ codec.bytes options := List.flatMap_cons

theorem ends_written (more : rest ≠ []) (before : (front ++ codec.bytes options).length < headerLength) :
    ∃ used', ∀ result, Loop.Ends (codec.turn (front ++ codec.bytes options ++ rest) headerLength) ⟨front.length, done, used⟩ result ↔
      Loop.Ends (codec.turn (front ++ codec.bytes options ++ rest) headerLength)
        ⟨(front ++ codec.bytes options).length, done ++ options, used'⟩ result := by
  induction options generalizing front done used with
  | nil => exact ⟨used, fun result => by simp only [bytes, List.flatMap_nil, List.append_nil]⟩
  | cons o options ih =>
      have more' : codec.bytes options ++ rest ≠ [] := fun nil => more (List.append_eq_nil_iff.1 nil).2
      have whole : front ++ codec.bytes (o :: options) = front ++ codec.write o ++ codec.bytes options := by
        rw [bytes_cons, List.append_assoc]
      have length : (front ++ codec.write o).length = front.length + (codec.getLength o).toNat := by
        rw [List.length_append, codec.length_write]
      rw [whole] at before ⊢
      have here := List.length_append ▸ before
      obtain ⟨used', turn⟩ := @again_written _ codec headerLength used front _ done o more' (by omega)
      obtain ⟨used'', others⟩ := @ih used' _ (done ++ [o]) before
      refine ⟨used'', fun result => ?_⟩
      rw [← List.append_assoc, ← List.append_assoc, ← length] at turn
      rw [Loop.ends_again turn, others result, List.append_assoc done, List.singleton_append]

theorem ends_here_iff : (∃ used', Loop.Ends (codec.turn (front ++ rest) headerLength) ⟨front.length, done, used⟩ (done, used')) ↔
    ∃ b rest', rest = 0 :: b :: rest' := by
  rcases rest with _ | ⟨b, _ | ⟨c, rest'⟩⟩
  · have turn : codec.turn (front ++ []) headerLength ⟨front.length, done, used⟩ = .fault := by
      simp only [turn, List.append_nil, List.getElem?_eq_none (Nat.le_refl _)]
    refine iff_of_false ?_ ?_
    · rintro ⟨used', ends⟩
      exact Loop.not_ends_fault turn ends
    · rintro ⟨b, rest, whole⟩
      cases whole
  · have turn : codec.turn (front ++ [b]) headerLength ⟨front.length, done, used⟩ = .fault := by
      simp only [turn, getElem?_front, getElem?_front_none]
    refine iff_of_false ?_ ?_
    · rintro ⟨used', ends⟩
      exact Loop.not_ends_fault turn ends
    · rintro ⟨b, rest, whole⟩
      cases whole
  · by_cases zero : b = 0
    · subst zero
      have turn := @turn_end _ codec.toOptionFormat _ headerLength ⟨front.length, done, used⟩ _
        (@getElem?_front _ _ _ (c :: rest')) getElem?_front_succ
      exact iff_of_true ⟨_, .done turn⟩ ⟨c, rest', rfl⟩
    · refine iff_of_false ?_ ?_
      · rintro ⟨used', ends⟩
        have grows := turn_grows codec.toOptionFormat (front ++ b :: c :: rest') headerLength ⟨front.length, done, used⟩
        have other : (front ++ b :: c :: rest')[front.length]? ≠ some 0 := by
          rw [getElem?_front]
          exact fun same => zero (Option.some.inj same)
        cases ends with
        | done now =>
            rw [now] at grows
            exact Nat.lt_irrefl _ (grows.2.2 other)
        | again next rest =>
            rw [next] at grows
            exact Nat.lt_irrefl _ (grows.2.trans_le (grows_of_ends rest).2)
      · rintro ⟨b', rest, whole⟩
        exact zero (List.cons.inj whole).1

theorem ends_last_iff (last : front.length + (codec.getLength o).toNat = headerLength) :
    (∃ used', Loop.Ends (codec.turn (front ++ (codec.write o ++ payload)) headerLength) ⟨front.length, done, used⟩
      (done ++ [o], used')) ↔ o ≠ codec.nop ∨ ∃ b rest, payload = 0 :: b :: rest := by
  by_cases nop : o = codec.nop
  · subst nop
    rw [codec.write_nop, or_iff_right (not_not_intro rfl)]
    cases payload with
    | nil =>
        have turn : codec.turn (front ++ ([1] ++ [])) headerLength ⟨front.length, done, used⟩ = .fault := by
          simp only [turn, List.append_nil, getElem?_front, getElem?_front_none]
        refine iff_of_false ?_ ?_
        · rintro ⟨used', ends⟩
          exact Loop.not_ends_fault turn ends
        · rintro ⟨b, rest, whole⟩
          cases whole
    | cons b payload =>
        have turn := @turn_nop _ codec.toOptionFormat _ headerLength ⟨front.length, done, used⟩ _
          (@getElem?_front _ _ front (b :: payload)) getElem?_front_succ
        have there : front.length + 1 = (front ++ [1]).length := by rw [List.length_append, List.length_singleton]
        simp only [List.singleton_append, Loop.ends_again turn, there]
        rw [← @ends_here_iff _ codec _ _ (front ++ [1]) (b :: payload), List.append_assoc, List.singleton_append]
  · obtain ⟨used', turn⟩ := @turn_written _ codec headerLength used front payload done o nop
    rw [if_pos last] at turn
    exact iff_of_true ⟨used', .done turn⟩ (.inl nop)

theorem ends_well_iff (short : 20 + codec.total options ≤ headerLength) : codec.EndsWell options headerLength payload ↔
    20 + codec.total options = headerLength ∧ options.getLast? ≠ some codec.nop ∨
      ∃ b rest, List.replicate (headerLength - (20 + codec.total options)) 0 ++ payload = 0 :: b :: rest := by
  rw [EndsWell]
  obtain ⟨gap, whole⟩ := Nat.exists_eq_add_of_le short
  rw [whole, Nat.add_sub_cancel_left]
  rcases gap with _ | _ | gap
  · by_cases nop : options.getLast? = some codec.nop
    · simp [nop]
    · simp [nop]
  · cases payload with
    | nil => simp
    | cons b payload => simp
  · simp [List.replicate_succ]

theorem ends_iff (length : front.length = 20) (long : 20 < headerLength) (short : 20 + codec.total options ≤ headerLength) :
    (∃ used, Loop.Ends (codec.turn (front ++ codec.bytes options ++
      (List.replicate (headerLength - (20 + codec.total options)) 0 ++ payload)) headerLength) initial (options, used)) ↔
      codec.EndsWell options headerLength payload := by
  rw [ends_well_iff short, initial, ← length]
  have whole : (front ++ codec.bytes options).length = front.length + codec.total options := by
    rw [List.length_append, length_bytes]
  rcases Nat.lt_or_eq_of_le short with before | last
  · obtain ⟨gap, more⟩ := Nat.exists_eq_add_of_lt before
    obtain ⟨used', others⟩ := @ends_written _ codec headerLength 0 front
      (List.replicate (headerLength - (front.length + codec.total options)) 0 ++ payload) options []
      (by rw [length, more, Nat.add_assoc, Nat.add_sub_cancel_left, List.replicate_succ]; exact List.cons_ne_nil _ _) (by omega)
    simp only [others, List.nil_append, ends_here_iff]
    exact ⟨.inr, fun either => either.resolve_left fun both => by omega⟩
  · rcases List.eq_nil_or_concat' options with rfl | ⟨init, o, rfl⟩
    · rw [total, List.map_nil, List.sum_nil] at last
      omega
    have positive : 0 < (codec.getLength o).toNat := getLength_pos o
    have split : codec.total (init ++ [o]) = codec.total init + (codec.getLength o).toNat := by
      rw [total_append, total_cons]
      rfl
    have written : front ++ codec.bytes (init ++ [o]) = front ++ codec.bytes init ++ codec.write o := by simp [bytes]
    have more : codec.write o ++ payload ≠ [] := by
      intro nil
      have none := codec.length_write o
      rw [(List.append_eq_nil_iff.1 nil).1, List.length_nil] at none
      omega
    have init_length : (front ++ codec.bytes init).length = front.length + codec.total init := by
      rw [List.length_append, length_bytes]
    rw [length, ← last, Nat.sub_self, List.replicate_zero, List.nil_append, written, List.append_assoc (front ++ _), List.getLast?_concat]
    obtain ⟨used', others⟩ := @ends_written _ codec headerLength 0 front _ init [] more (by omega)
    have here := @ends_last_iff _ codec (20 + codec.total (init ++ [o])) used' (front ++ codec.bytes init) payload init o
      (by omega)
    simp only [length, List.nil_append, ← last] at others
    simp only [others, here, ne_eq, Option.some.injEq, true_and]

theorem readOptions_iff (length : front.length = 20) (short : 20 + codec.total options ≤ headerLength) :
    (∃ fuel used, codec.readOptions fuel (front ++ codec.bytes options ++
      (List.replicate (headerLength - (20 + codec.total options)) 0 ++ payload)) headerLength = some (options, used)) ↔
      codec.EndsWell options headerLength payload := by
  by_cases long : 20 < headerLength
  · rw [← ends_iff length long short]
    simp only [readOptions, long, if_true, Loop.ends_iff]
    exact exists_comm
  · have none : options = [] := by
      by_contra some
      have : 0 < codec.total options := total_pos some
      omega
    subst none
    refine iff_of_true ⟨0, 0, if_neg long⟩ ⟨fun _ last => ?_, fun last => by omega⟩
    cases last

end OptionCodec

end Pcsx2.PacketReader
