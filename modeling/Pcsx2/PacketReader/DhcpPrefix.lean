import Pcsx2.PacketReader.Dhcp

/-!
# The options that a DHCP packet carries
-/

namespace Pcsx2.PacketReader

open Foundation Foundation.Reader DHCPOption

namespace DHCPPacket

def longestPrefix (room : Int) : List DHCPOption → List DHCPOption
  | [] => []
  | o :: options =>
    if o = endOption then [] else if o.size ≤ room then o :: longestPrefix (room - o.size) options else []

/-- The packet is written within its length, and the longest prefix of its options that leaves room
for an END is parsed back, with the END. -/
def WritesPrefix (p : DHCPPacket) : Prop := ∃ bytes, p.writeBytes = some bytes ∧ (bytes.length : Int) = p.getLength ∧
  ∃ fuel q, parse fuel bytes = some q ∧ q.options = longestPrefix (p.maxLength - 269) p.options ++ [endOption]

/-- The options that the loop takes. -/
def taken (p : DHCPPacket) : List DHCPOption := accepted p.maxLength p.options 240

/-- The options that the loop takes can be told by their length bytes up to an END. Where they are
not all, an END is added and fits behind them. Where they are, they fit, and an END is one of them, or
just one zero is left to stand for it, or the last one is a NOP and does. -/
def Carries (p : DHCPPacket) : Prop :=
  (∀ o ∈ p.taken.takeWhile (· ≠ endOption), o.body.length ≤ 255) ∧
    if p.taken.length = p.options.length then
      total p.taken ≤ p.maxLength - 268 ∧ (endOption ∈ p.taken ∨ total p.taken = p.maxLength - 269 ∨
        total p.taken = p.maxLength - 268 ∧ p.taken.getLast? = some nop)
    else total p.taken ≤ p.maxLength - 269

instance (p : DHCPPacket) : Decidable p.Carries :=
  inferInstanceAs (Decidable ((∀ o ∈ p.taken.takeWhile (· ≠ endOption), o.body.length ≤ 255) ∧
    if p.taken.length = p.options.length then
      total p.taken ≤ p.maxLength - 268 ∧ (endOption ∈ p.taken ∨ total p.taken = p.maxLength - 269 ∨
        total p.taken = p.maxLength - 268 ∧ p.taken.getLast? = some nop)
    else total p.taken ≤ p.maxLength - 269))

variable {room maxLength len : Int} {options rest : List DHCPOption} {o : DHCPOption}

theorem total_cons : total (o :: options) = o.size + total options := by
  rw [total, total, List.map_cons, List.sum_cons]

theorem total_append : total (options ++ rest) = total options + total rest := by
  rw [total, total, total, List.map_append, List.sum_append]

theorem longestPrefix_append (before : ∀ o ∈ options, o ≠ endOption) (fits : total options ≤ room) :
    longestPrefix room (options ++ rest) = options ++ longestPrefix (room - total options) rest := by
  induction options generalizing room with
  | nil => simp [total]
  | cons o options ih =>
      rw [List.forall_mem_cons] at before
      rw [total_cons] at fits
      rw [List.cons_append, longestPrefix, if_neg before.1, if_pos (by omega), ih before.2 (by omega), total_cons, List.cons_append,
        Int.natCast_add, Int.sub_sub]

theorem longestPrefix_end : longestPrefix room (endOption :: rest) = [] := if_pos rfl

theorem longestPrefix_all (before : ∀ o ∈ options, o ≠ endOption) (fits : total options ≤ room) :
    longestPrefix room options = options := by
  have whole := @longestPrefix_append _ _ [] before fits
  rwa [List.append_nil, longestPrefix, List.append_nil] at whole

theorem longestPrefix_stop (short : room < o.size) : longestPrefix room (o :: rest) = [] := by
  rw [longestPrefix, if_neg (Int.not_le_of_gt short), ite_self]

theorem accepted_spec : ∃ left, options = accepted maxLength options len ++ left ∧
    ∀ o rest, left = o :: rest → maxLength ≤ len + total (accepted maxLength options len) + o.size := by
  induction options generalizing len with
  | nil => exact ⟨[], rfl, fun _ _ none => by cases none⟩
  | cons o options ih =>
      have short : o.getLength.toNat ≤ o.size := by
        rw [DHCPOption.getLength, BitVec.toNat_ofNat]
        exact Nat.mod_le _ _
      by_cases fits : len + o.getLength.toNat < maxLength
      · obtain ⟨left, split, stop⟩ := @ih (len + o.getLength.toNat)
        rw [accepted, if_pos fits]
        refine ⟨left, by rw [List.cons_append, ← split], fun o' rest more => ?_⟩
        have := stop o' rest more
        rw [total_cons]
        omega
      · rw [accepted, if_neg fits]
        refine ⟨o :: options, rfl, fun o' rest more => ?_⟩
        cases more
        have : total [] = 0 := rfl
        omega

theorem length_fieldBytes (p : DHCPPacket) : p.fieldBytes.length = 240 := by
  have address := p.clientHardwareAddress.property
  simp only [fieldBytes, List.length_append, List.length_cons, List.length_nil, length_writeUInt16, length_writeUInt32,
    length_writeIPAddress, List.length_replicate, address]

/-- What stands behind the options that are taken. -/
def added (p : DHCPPacket) : List Byte := if p.taken.length = p.options.length then [] else [255]

variable {p : DHCPPacket} {written : List Byte} {left : List DHCPOption}

theorem added_eq_nil_iff (split : p.options = p.taken ++ left) : p.added = [] ↔ left = [] := by
  have same : p.taken.length = p.options.length ↔ left = [] := by
    rw [split, List.length_append, Nat.left_eq_add, List.length_eq_zero_iff]
  rw [added, ← same]
  by_cases all : p.taken.length = p.options.length
  · rw [if_pos all]
    exact iff_of_true rfl all
  · rw [if_neg all]
    exact iff_of_false (List.cons_ne_nil _ _) all

theorem writeBytes_eq_some (wide : 240 < p.maxLength) : p.writeBytes = some written ↔ ∃ zeros : Nat,
    (total p.taken + p.added.length + zeros : Int) = p.maxLength - 268 ∧
      written = p.fieldBytes ++ bytes p.taken ++ (p.added ++ List.replicate zeros 0) := by
  have content : writeOptions p.maxLength p.options 240 none p.fieldBytes =
      some (p.fieldBytes ++ bytes p.taken ++ p.added) := writeOptions_eq wide
  have length : (p.fieldBytes ++ bytes p.taken ++ p.added).length =
      240 + total p.taken + p.added.length := by
    rw [List.length_append, List.length_append, length_fieldBytes, length_bytes]
  simp only [writeBytes, content, Option.bind_eq_bind, Option.bind_some, length, getLength]
  generalize total p.taken = taken at *
  constructor
  · intro wrote
    by_cases fits : ((240 + taken + p.added.length : Nat) : Int) ≤ p.maxLength - (8 + 20)
    · rw [if_pos fits, List.append_assoc, Option.some.injEq] at wrote
      exact ⟨_, by omega, wrote.symm⟩
    · rw [if_neg fits] at wrote
      cases wrote
  · rintro ⟨zeros, whole, rfl⟩
    rw [if_pos (by omega), List.append_assoc _ p.added]
    congr 4
    omega

theorem writesPrefix_iff (wide : 269 ≤ p.maxLength) : p.WritesPrefix ↔ ∃ zeros : Nat,
    (total p.taken + p.added.length + zeros : Int) = p.maxLength - 268 ∧
      Loop.Ends (turn (p.fieldBytes ++ bytes p.taken ++ (p.added ++ List.replicate zeros 0)))
        ⟨p.fieldBytes.length, []⟩ (longestPrefix (p.maxLength - 269) p.options ++ [endOption]) := by
  have enough (rest : List Byte) : 240 ≤ (p.fieldBytes ++ bytes p.taken ++ rest).length := by
    rw [List.length_append, List.length_append, length_fieldBytes]
    omega
  rw [length_fieldBytes]
  constructor
  · rintro ⟨written, wrote, -, parsed⟩
    obtain ⟨zeros, whole, rfl⟩ := (writeBytes_eq_some (by omega)).1 wrote
    exact ⟨zeros, whole, (parse_options_iff (enough _)).1 parsed⟩
  · rintro ⟨zeros, whole, ends⟩
    refine ⟨_, (writeBytes_eq_some (by omega)).2 ⟨zeros, whole, rfl⟩, ?_, (parse_options_iff (enough _)).2 ends⟩
    rw [List.length_append, List.length_append, List.length_append, length_fieldBytes, length_bytes, List.length_replicate, getLength]
    omega

/-! ## The options up to the first that is not good -/

theorem exists_split (taken : List DHCPOption) : ∃ before behind, taken = before ++ behind ∧ (∀ o ∈ before, Good o) ∧
    (∀ o rest, behind = o :: rest → ¬Good o) := by
  induction taken with
  | nil => exact ⟨[], [], rfl, fun _ none => absurd none List.not_mem_nil, fun _ _ none => by cases none⟩
  | cons o taken ih =>
      by_cases good : Good o
      · obtain ⟨before, behind, rfl, all, stop⟩ := ih
        exact ⟨o :: before, behind, rfl, List.forall_mem_cons.2 ⟨good, all⟩, stop⟩
      · refine ⟨[], o :: taken, rfl, fun _ none => absurd none List.not_mem_nil, fun _ _ same => ?_⟩
        cases same
        exact good

variable {before behind : List DHCPOption}

theorem takeWhile_before (good : ∀ o ∈ before, Good o) : (before ++ behind).takeWhile (· ≠ endOption) =
    before ++ behind.takeWhile (· ≠ endOption) :=
  List.takeWhile_append_of_pos fun o mem => decide_eq_true (good o mem).1

theorem bytes_append : bytes (before ++ behind) = bytes before ++ bytes behind := List.flatMap_append

theorem carries_iff_of_end (taken : p.taken = before ++ endOption :: behind)
    (good : ∀ o ∈ before, Good o) : p.Carries ↔ total p.taken + p.added.length ≤ p.maxLength - 268 := by
  have small : ∀ o ∈ (before ++ endOption :: behind).takeWhile (· ≠ endOption), o.body.length ≤ 255 := by
    rw [takeWhile_before good, List.takeWhile_cons_of_neg (by simp), List.append_nil]
    exact fun o mem => (good o mem).2
  have mem : endOption ∈ before ++ endOption :: behind := by simp
  simp only [Carries, added, taken, and_iff_right small]
  by_cases all : (before ++ endOption :: behind).length = p.options.length
  · rw [if_pos all, if_pos all, List.length_nil, and_iff_left (.inl mem), Int.natCast_zero, Int.add_zero]
  · rw [if_neg all, if_neg all, List.length_singleton]
    omega

theorem writesPrefix_iff_of_end (wide : 269 ≤ p.maxLength) (split : p.options = p.taken ++ left)
    (taken : p.taken = before ++ endOption :: behind) (good : ∀ o ∈ before, Good o) :
    p.WritesPrefix ↔ total p.taken + p.added.length ≤ p.maxLength - 268 := by
  have size : total p.taken = total before + (1 + total behind) := by
    rw [taken, total_append, total_cons]
    rfl
  have ends (fits : total p.taken + p.added.length ≤ p.maxLength - 268) (zeros : Nat) :
      Loop.Ends (turn (p.fieldBytes ++ bytes p.taken ++ (p.added ++ List.replicate zeros 0)))
        ⟨p.fieldBytes.length, []⟩ (longestPrefix (p.maxLength - 269) p.options ++ [endOption]) := by
    have first : longestPrefix (p.maxLength - 269) p.options = before := by
      rw [split, taken, List.append_assoc, longestPrefix_append (fun o mem => (good o mem).1) (by omega), List.cons_append,
        longestPrefix_end, List.append_nil]
    have whole : p.fieldBytes ++ bytes p.taken ++ (p.added ++ List.replicate zeros 0) =
        p.fieldBytes ++ bytes before ++ 255 :: (bytes behind ++ (p.added ++ List.replicate zeros 0)) := by
      rw [taken, bytes_append, bytes_cons]
      simp only [DHCPOption.writeBytes, or_true, if_true, getCode, List.append_assoc, List.cons_append, List.nil_append]
    rw [first, whole, ends_good good (List.cons_ne_nil _ _), ends_end, List.nil_append]
  rw [writesPrefix_iff wide]
  constructor
  · rintro ⟨zeros, whole, -⟩
    omega
  · intro fits
    exact ⟨_, by omega, ends fits (p.maxLength - 268 - (total p.taken + p.added.length)).toNat⟩

theorem not_carries_of_bad (taken : p.taken = before ++ o :: behind) (good : ∀ o ∈ before, Good o)
    (other : o ≠ endOption) (large : 255 < o.body.length) : ¬p.Carries := by
  rintro ⟨small, -⟩
  rw [taken, takeWhile_before good, List.takeWhile_cons_of_pos (by simpa using other)] at small
  exact absurd (small o (by simp)) (Nat.not_le_of_lt large)

theorem not_writesPrefix_of_bad (wide : 269 ≤ p.maxLength) (split : p.options = p.taken ++ left)
    (taken : p.taken = before ++ o :: behind) (good : ∀ o ∈ before, Good o)
    (other : o ≠ nop ∧ o ≠ endOption) (large : 255 < o.body.length) : ¬p.WritesPrefix := by
  intro writes
  obtain ⟨zeros, whole, ends⟩ := (writesPrefix_iff wide).1 writes
  have size : total p.taken = total before + (o.size + total behind) := by
    rw [taken, total_append, total_cons]
  have positive := o.size_pos
  have first : longestPrefix (p.maxLength - 269) p.options =
      before ++ longestPrefix (p.maxLength - 269 - total before) (o :: (behind ++ left)) := by
    rw [split, taken, List.append_assoc, longestPrefix_append (fun o mem => (good o mem).1) (by omega), List.cons_append]
  have content : p.fieldBytes ++ bytes p.taken ++ (p.added ++ List.replicate zeros 0) =
      p.fieldBytes ++ bytes before ++ (o.writeBytes ++ (bytes behind ++ (p.added ++ List.replicate zeros 0))) := by
    rw [taken, bytes_append, bytes_cons]
    simp only [List.append_assoc]
  have more : o.writeBytes ++ (bytes behind ++ (p.added ++ List.replicate zeros 0)) ≠ [] := by
    rw [writeBytes_of_other other]
    exact List.cons_ne_nil _ _
  rw [content, ends_good good more, List.nil_append] at ends
  obtain ⟨o', extends_, different, different'⟩ := ends_bad other large ends
  rw [first, List.append_assoc, List.prefix_append_right_inj, longestPrefix, if_neg other.2] at extends_
  split at extends_
  · exact different (List.cons_prefix_cons.1 extends_).1
  · exact different' (List.cons_prefix_cons.1 extends_).1

theorem writesPrefix_iff_of_left (wide : 269 ≤ p.maxLength) (split : p.options = p.taken ++ o :: left)
    (stop : p.maxLength ≤ 240 + total p.taken + o.size)
    (good : ∀ o ∈ p.taken, Good o) : p.WritesPrefix ↔ p.Carries := by
  have not_all : p.taken.length ≠ p.options.length := by
    intro same
    have length := congrArg List.length split
    rw [List.length_append, List.length_cons] at length
    omega
  have added_eq : p.added = [255] := if_neg not_all
  have small : ∀ o ∈ p.taken.takeWhile (· ≠ endOption), o.body.length ≤ 255 :=
    fun o mem => (good o (List.takeWhile_subset _ mem)).2
  have carries : p.Carries ↔ total p.taken ≤ p.maxLength - 269 := by
    simp only [Carries, and_iff_right small, if_neg not_all]
  have ends (fits : total p.taken ≤ p.maxLength - 269) (zeros : Nat) :
      Loop.Ends (turn (p.fieldBytes ++ bytes p.taken ++ (p.added ++ List.replicate zeros 0)))
        ⟨p.fieldBytes.length, []⟩ (longestPrefix (p.maxLength - 269) p.options ++ [endOption]) := by
    have first : longestPrefix (p.maxLength - 269) p.options = p.taken := by
      rw [split, longestPrefix_append (fun o mem => (good o mem).1) (by omega), longestPrefix_stop (by omega), List.append_nil]
    rw [first, added_eq, List.singleton_append, ends_good good (List.cons_ne_nil _ _), ends_end, List.nil_append]
  rw [writesPrefix_iff wide, carries, added_eq]
  constructor
  · rintro ⟨zeros, whole, -⟩
    rw [List.length_singleton] at whole
    omega
  · intro fits
    refine ⟨(p.maxLength - 269 - total p.taken).toNat, ?_, added_eq ▸ ends fits _⟩
    rw [List.length_singleton]
    omega

theorem ends_padded_iff (good : ∀ o ∈ options, Good o) (front : List Byte) (count : Nat) {result : List DHCPOption} :
    Loop.Ends (turn (front ++ bytes options ++ List.replicate (count + 1) 0)) ⟨front.length, []⟩ (result ++ [endOption]) ↔
      result = options ++ List.replicate count nop := by
  rw [ends_good good (by rw [List.replicate_succ]; exact List.cons_ne_nil _ _), ends_zeros, List.nil_append, List.append_left_inj]

theorem ends_full_iff (good : ∀ other ∈ options ++ [o], Good other) (front : List Byte) {result : List DHCPOption} :
    Loop.Ends (turn (front ++ bytes (options ++ [o]))) ⟨front.length, []⟩ (result ++ [endOption]) ↔ o = nop ∧ result = options := by
  have good' : ∀ other ∈ options, Good other := fun other mem => good other (List.mem_append_left _ mem)
  have last : Good o := good o (by simp)
  have single : bytes [o] = o.writeBytes := List.append_nil _
  rw [bytes_append, ← List.append_assoc, single, ends_good good' (fun nil => by
    have positive := o.size_pos
    rw [← length_writeBytes, nil] at positive
    exact absurd positive (Nat.lt_irrefl 0)), List.nil_append]
  by_cases nop : o = .nop
  · subst nop
    rw [and_iff_right rfl]
    exact (ends_zeros 0).trans (by rw [List.replicate_zero, List.append_nil, List.append_left_inj])
  · rw [ends_last ⟨nop, last.1⟩ last.2]
    refine iff_of_false (fun same => ?_) (fun both => nop both.1)
    cases (List.append_inj' same rfl).2

theorem writesPrefix_iff_of_all (wide : 269 ≤ p.maxLength) (all : p.options = p.taken) (good : ∀ o ∈ p.taken, Good o) :
    p.WritesPrefix ↔ p.Carries := by
  have added_eq : p.added = [] := if_pos (by rw [← all])
  have small : ∀ o ∈ p.taken.takeWhile (· ≠ endOption), o.body.length ≤ 255 :=
    fun o mem => (good o (List.takeWhile_subset _ mem)).2
  have not_mem : endOption ∉ p.taken := fun mem => (good _ mem).1 rfl
  have same : p.taken.length = p.options.length := by rw [← all]
  simp only [writesPrefix_iff wide, Carries, and_iff_right small, same, if_true, not_mem, false_or, added_eq, List.nil_append,
    List.length_nil, Int.natCast_zero, Int.add_zero, all]
  generalize p.taken = taken at *
  have before (o : DHCPOption) (mem : o ∈ taken) : o ≠ endOption := (good o mem).1
  constructor
  · rintro ⟨zeros, whole, ends⟩
    refine ⟨by omega, ?_⟩
    rcases zeros with _ | count
    · rcases List.eq_nil_or_concat' taken with rfl | ⟨init, o, rfl⟩
      · have none : total [] = 0 := rfl
        omega
      rw [List.replicate_zero, List.append_nil, ends_full_iff good] at ends
      exact .inr ⟨by omega, by rw [List.getLast?_concat, ends.1]⟩
    · rw [ends_padded_iff good, longestPrefix_all before (by omega)] at ends
      have count_eq := congrArg List.length ends
      rw [List.length_append, List.length_replicate] at count_eq
      exact .inl (by omega)
  · rintro ⟨-, one | ⟨full, last⟩⟩
    · refine ⟨1, by omega, (ends_padded_iff good _ 0).2 ?_⟩
      rw [longestPrefix_all before (by omega), List.replicate_zero, List.append_nil]
    · obtain ⟨init, rfl⟩ := List.getLast?_eq_some_iff.1 last
      have size : total (init ++ [nop]) = total init + 1 := total_append
      refine ⟨0, by omega, ?_⟩
      rw [List.replicate_zero, List.append_nil, ends_full_iff good]
      refine ⟨rfl, ?_⟩
      have short : p.maxLength - 269 - total init < nop.size := by
        have one : nop.size = 1 := rfl
        omega
      rw [longestPrefix_append (fun o mem => before o (List.mem_append_left _ mem)) (by omega), longestPrefix_stop short, List.append_nil]

theorem writesPrefix_iff_carries (wide : 269 ≤ p.maxLength) : p.WritesPrefix ↔ p.Carries := by
  obtain ⟨left, split, stop⟩ := @accepted_spec p.maxLength 240 p.options
  obtain ⟨before, behind, taken, good, first⟩ := exists_split p.taken
  rcases behind with _ | ⟨o, behind⟩
  · rw [List.append_nil] at taken
    rw [← taken] at good
    rcases left with _ | ⟨o, left⟩
    · exact writesPrefix_iff_of_all wide (by rw [List.append_nil] at split; exact split) good
    · exact writesPrefix_iff_of_left wide split (stop o left rfl) good
  · by_cases last : o = endOption
    · subst last
      rw [writesPrefix_iff_of_end wide split taken good, carries_iff_of_end taken good]
    · have large : 255 < o.body.length := by
        by_contra small
        exact first o behind rfl ⟨last, Nat.le_of_not_lt small⟩
      have other : o ≠ nop := by
        rintro rfl
        cases large
      exact iff_of_false (not_writesPrefix_of_bad wide split taken good ⟨other, last⟩ large) (not_carries_of_bad taken good last large)

/-- A buffer is parsed inside when every option that is come to lies in it, and a packet is written
inside and parsed back when its loop goes right. -/
theorem dhcp_bounds_iff (buffer : List Byte) (p : DHCPPacket) (enough : 240 ≤ buffer.length) (wide : 269 ≤ p.maxLength) :
    ((∃ fuel q, parse fuel buffer = some q) ↔ 240 < buffer.length ∧ ∀ offset, Reached buffer offset → Inside buffer offset) ∧
    (p.WritesPrefix ↔ p.Carries) :=
  ⟨parse_iff enough, writesPrefix_iff_carries wide⟩

def acknowledgement (options : List DHCPOption) : DHCPPacket :=
  ⟨2, 1, 6, 0, 1, 0, 0, 0, 0xC0000202, 0xC0000201, 0, ⟨List.replicate 16 0, rfl⟩, 0x63825363, options, 576⟩

theorem dhcp_bounds_acknowledgement : (acknowledgement [.msg 5, .subnet 0xFFFFFF00, .endOption]).WritesPrefix :=
  (dhcp_bounds_iff (List.replicate 241 255) (acknowledgement [.msg 5, .subnet 0xFFFFFF00, .endOption])
    (by rw [List.length_replicate]; omega) (by decide)).2.2 (by decide)

def longNames : DHCPPacket := acknowledgement [.hostName (List.replicate 200 0x61), .dnsName (List.replicate 107 0x61), .endOption]

theorem longNames_not_bounded : ¬∀ (buffer : List Byte) (p : DHCPPacket), 240 ≤ buffer.length → 269 ≤ p.maxLength →
    (∃ fuel q, parse fuel buffer = some q) ∧ p.WritesPrefix := by
  intro all
  have writes := (all (List.replicate 241 255) longNames (by rw [List.length_replicate]; omega) (by decide)).2
  rw [writesPrefix_iff_carries (by decide)] at writes
  exact absurd writes (by decide +kernel)

end DHCPPacket

end Pcsx2.PacketReader
