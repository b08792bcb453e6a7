import Pcsx2.Cop0.Tlb
import Pcsx2.Vtlb.Fastmem
import Mathlib.Data.List.Perm.Basic

/-!
# The list of cached entries

`cachedTlbs` has what the cached entries of the TLB put into it, unless a write takes out what another entry did. It
finds that when the addresses and the mask are the same.
-/

namespace Pcsx2.Cop0
open Vtlb

variable {host : Host} {s : State} {t : Tlbs}

/-! ## The entries -/

/-- What an entry has in `cachedTlbs`. -/
def Tlbs.cachedList (t : Tlbs) : List CachedTlb := if t.hasCached then [t.cachedTlb] else []

def cachedEntries (tlb : Nat → Tlbs) : List CachedTlb := (List.range 48).flatMap fun i => (tlb i).cachedList

/-- `cachedTlbs` has the cached entries, in any order. -/
def CachesEntries (s : State) : Prop := s.cachedTlbs.Perm (cachedEntries s.tlb) ∧ s.cachedTlbs.length ≤ 48

/-- The entries other than that at `j`. -/
def otherEntries (tlb : Nat → Tlbs) (j : Nat) : List CachedTlb :=
  ((List.range 48).erase j).flatMap fun i => (tlb i).cachedList

theorem cachedEntries_perm (tlb : Nat → Tlbs) {j : Nat} (inside : j < 48) :
    (cachedEntries tlb).Perm ((tlb j).cachedList ++ otherEntries tlb j) :=
  (List.perm_cons_erase (List.mem_range.mpr inside)).flatMap_right _

theorem otherEntries_update (tlb : Nat → Tlbs) (j : Nat) (t : Tlbs) :
    otherEntries (Function.update tlb j t) j = otherEntries tlb j := by
  apply List.flatMap_congr
  intro i member
  rw [Function.update_of_ne]
  rintro rfl
  exact List.nodup_range.not_mem_erase member

theorem cachedList_length (t : Tlbs) : t.cachedList.length ≤ 1 := by
  unfold Tlbs.cachedList
  split
  · exact le_rfl
  · exact Nat.zero_le 1

theorem cachedLists_length (tlb : Nat → Tlbs) (indices : List Nat) :
    (indices.flatMap fun i => (tlb i).cachedList).length ≤ indices.length := by
  induction indices with
  | nil => exact le_rfl
  | cons i rest ih =>
    have first := cachedList_length (tlb i)
    rw [List.flatMap_cons, List.length_append, List.length_cons]
    omega

theorem cachesEntries_iff : CachesEntries s ↔ s.cachedTlbs.Perm (cachedEntries s.tlb) := by
  refine ⟨And.left, fun same => ⟨same, ?_⟩⟩
  rw [same.length_eq]
  exact (cachedLists_length s.tlb _).trans_eq List.length_range

/-! ## One write -/

inductive Write
  | TLBWI (regs : Registers)
  | TLBWR (regs : Registers)

def Write.index : Write → Nat
  | TLBWI regs => (regs.Index &&& 0x3F).toNat
  | TLBWR regs => (regs.Random &&& 0x3F).toNat

def Write.regs : Write → Registers
  | TLBWI regs => regs
  | TLBWR regs => regs

def State.write (host : Host) (s : State) : Write → State
  | .TLBWI regs => Cop0.TLBWI host regs s
  | .TLBWR regs => Cop0.TLBWR host regs s

theorem write_eq (s : State) (write : Write) : s.write host write =
    if 47 < write.index then s
    else WriteTLB host write.regs write.index (UnmapTLB host (s.tlb write.index) s) := by
  cases write <;> rfl

def TakesOwn (s : State) (write : Write) : Prop :=
  write.index ≤ 47 → (s.tlb write.index).isSPR = false →
    ∀ cached, s.cachedTlbs.find? (s.tlb write.index).sameAddresses = some cached →
      (s.tlb write.index).hasCached = true ∧ cached = (s.tlb write.index).cachedTlb

theorem sameAddresses_self (t : Tlbs) : t.sameAddresses t.cachedTlb = true := by
  simp [Tlbs.sameAddresses, Tlbs.cachedTlb]

theorem cachedList_spr (spr : t.isSPR = true) : t.cachedList = [] := by
  unfold Tlbs.cachedList Tlbs.hasCached
  rw [spr]
  rfl

/-- What `UnmapTLB` leaves is what the other entries have, just when the place it takes out is the entry's own. -/
theorem eraseP_perm_iff {cachedTlbs others : List CachedTlb} (same : cachedTlbs.Perm (t.cachedList ++ others)) :
    (cachedTlbs.eraseP t.sameAddresses).Perm others ↔
      ∀ cached, cachedTlbs.find? t.sameAddresses = some cached → t.hasCached = true ∧ cached = t.cachedTlb := by
  cases found : cachedTlbs.find? t.sameAddresses with
  | none =>
    have missing := List.find?_eq_none.mp found
    have uncached : t.cachedList = [] := by
      unfold Tlbs.cachedList at same ⊢
      split
      · rename_i cached
        rw [if_pos cached] at same
        exact absurd (sameAddresses_self t) (missing _ (same.mem_iff.mpr List.mem_cons_self))
      · rfl
    rw [uncached] at same
    rw [List.eraseP_of_forall_not missing]
    exact iff_of_true same nofun
  | some cached =>
    obtain ⟨first, rest, split, erased⟩ :
        ∃ first rest, cachedTlbs = first ++ cached :: rest ∧ cachedTlbs.eraseP t.sameAddresses = first ++ rest := by
      obtain ⟨holds, first, rest, split, before⟩ := List.find?_eq_some_iff_append.mp found
      refine ⟨first, rest, split, ?_⟩
      rw [split, List.eraseP_append_right _ (fun other member => by simpa using before other member),
        List.eraseP_cons_of_pos holds]
    have whole : (cached :: cachedTlbs.eraseP t.sameAddresses).Perm (t.cachedList ++ others) := by
      rw [erased]
      refine .trans ?_ same
      rw [split]
      exact List.perm_middle.symm
    have only : (∀ other, some cached = some other → t.hasCached = true ∧ other = t.cachedTlb) ↔
        t.hasCached = true ∧ cached = t.cachedTlb :=
      ⟨fun all => all cached rfl, fun own other equal => Option.some.inj equal ▸ own⟩
    rw [only]
    unfold Tlbs.cachedList at whole
    cases has : t.hasCached with
    | true =>
      rw [has, if_pos rfl, List.singleton_append] at whole
      constructor
      · intro kept
        have both := (kept.cons cached).symm.trans whole
        have single : [cached].Perm [t.cachedTlb] := (List.perm_append_right_iff others).mp both
        exact ⟨rfl, List.singleton_perm_singleton.mp single⟩
      · rintro ⟨-, rfl⟩
        exact whole.cons_inv
    | false =>
      rw [has, if_neg Bool.false_ne_true, List.nil_append] at whole
      refine iff_of_false (fun kept => ?_) fun own => Bool.false_ne_true own.1
      have shorter := whole.length_eq
      rw [List.length_cons, kept.length_eq] at shorter
      omega

variable (host) in
theorem write_cachesEntries_iff (good : CachesEntries s) (write : Write) :
    CachesEntries (s.write host write) ↔ TakesOwn s write := by
  rw [write_eq]
  by_cases outside : 47 < write.index
  · rw [if_pos outside]
    exact iff_of_true good fun inside => absurd inside (Nat.not_le.mpr outside)
  rw [if_neg outside, cachesEntries_iff]
  have before := (cachesEntries_iff.mp good).trans (cachedEntries_perm s.tlb (show write.index < 48 by omega))
  generalize written : writtenTLB write.regs = t
  have tlb : (WriteTLB host write.regs write.index (UnmapTLB host (s.tlb write.index) s)).tlb =
      Function.update s.tlb write.index t := by
    rw [← written]
    unfold UnmapTLB
    dsimp only
    split <;> rfl
  have cached : (WriteTLB host write.regs write.index (UnmapTLB host (s.tlb write.index) s)).cachedTlbs =
      (UnmapTLB host (s.tlb write.index) s).cachedTlbs ++ t.cachedList := by
    rw [← written]
    unfold WriteTLB Tlbs.cachedList
    dsimp only
    split
    · rfl
    · rw [List.append_nil]
  have after := cachedEntries_perm (Function.update s.tlb write.index t) (show write.index < 48 by omega)
  rw [otherEntries_update, Function.update_self] at after
  have rest : (WriteTLB host write.regs write.index (UnmapTLB host (s.tlb write.index) s)).cachedTlbs.Perm
      (cachedEntries (WriteTLB host write.regs write.index (UnmapTLB host (s.tlb write.index) s)).tlb) ↔
      (UnmapTLB host (s.tlb write.index) s).cachedTlbs.Perm (otherEntries s.tlb write.index) := by
    rw [tlb, cached, after.congr_right, List.perm_append_comm.congr_left, List.perm_append_left_iff]
  rw [rest]
  unfold UnmapTLB TakesOwn
  dsimp only
  cases spr : (s.tlb write.index).isSPR with
  | true =>
    rw [if_pos rfl]
    rw [cachedList_spr spr] at before
    exact iff_of_true before fun _ other => absurd other (by decide)
  | false =>
    rw [if_neg Bool.false_ne_true]
    have inside : write.index ≤ 47 := Nat.not_lt.mp outside
    rw [eraseP_perm_iff before]
    exact ⟨fun own _ _ => own, fun own => own inside rfl⟩

/-! ## Runs -/

/-- `cachedTlbs` is right in every state. -/
def AlwaysCaches (host : Host) (s : State) : List Write → Prop
  | [] => CachesEntries s
  | write :: rest => CachesEntries s ∧ AlwaysCaches host (s.write host write) rest

/-- No write takes out the place of another entry. -/
def AlwaysTakesOwn (host : Host) (s : State) : List Write → Prop
  | [] => True
  | write :: rest => TakesOwn s write ∧ AlwaysTakesOwn host (s.write host write) rest

/-- After a reset no entry is valid. -/
def reset (vtlb : MapData) : State where
  tlb _ := { PageMask := 0, EntryHi := 0, EntryLo0 := 0, EntryLo1 := 0 }
  cachedTlbs := []
  vtlb

theorem reset_vtlb (vtlb : MapData) : (reset vtlb).vtlb = vtlb := rfl

theorem reset_cachesEntries (vtlb : MapData) : CachesEntries (reset vtlb) := by
  rw [cachesEntries_iff]
  have none : cachedEntries (reset vtlb).tlb = [] := List.flatMap_eq_nil_iff.mpr fun _ _ =>
    if_neg (show ¬ Tlbs.hasCached ⟨0, 0, 0, 0⟩ = true by decide)
  rw [none]
  exact .refl []

theorem alwaysCaches_iff (good : CachesEntries s) (writes : List Write) :
    AlwaysCaches host s writes ↔ AlwaysTakesOwn host s writes := by
  induction writes generalizing s with
  | nil => exact iff_of_true good trivial
  | cons write rest ih =>
    unfold AlwaysCaches AlwaysTakesOwn
    constructor
    · rintro ⟨-, always⟩
      have next : CachesEntries (s.write host write) := by
        cases rest with
        | nil => exact always
        | cons => exact always.1
      exact ⟨(write_cachesEntries_iff host good write).mp next, (ih next).mp always⟩
    · rintro ⟨own, always⟩
      have next := (write_cachesEntries_iff host good write).mpr own
      exact ⟨good, (ih next).mpr always⟩

/-- In a run from a reset on, `cachedTlbs` has the cached entries in every state just when no write takes out what
another entry put into it. -/
theorem cachedTlbs_entries_iff (host : Host) (vtlb : MapData) (writes : List Write) :
    AlwaysCaches host (reset vtlb) writes ↔ AlwaysTakesOwn host (reset vtlb) writes :=
  alwaysCaches_iff (reset_cachesEntries vtlb) writes

/-! ### An entry that was never written -/

def cachedWrite : Write := .TLBWI
  { Index := 1, Random := 47, PageMask := 0, EntryHi := 0x2000, EntryLo0 := 0x1A, EntryLo1 := 0 }

def uncachedWrite : Write := .TLBWI
  { Index := 0, Random := 47, PageMask := 0, EntryHi := 0x4000, EntryLo0 := 0x52, EntryLo1 := 0 }

/-- What entry 0 has after a reset is taken for what entry 1 put into `cachedTlbs`. -/
theorem cached_taken : ¬ AlwaysCaches smallHost (reset blank) [cachedWrite, uncachedWrite] := by
  have none : (((reset blank).write smallHost cachedWrite).write smallHost uncachedWrite).cachedTlbs.length = 0 := by
    decide
  have one : (cachedEntries (((reset blank).write smallHost cachedWrite).write smallHost uncachedWrite).tlb).length = 1 := by
    decide
  rintro ⟨-, -, same, -⟩
  have lengths := same.length_eq
  rw [none, one] at lengths
  cases lengths

end Pcsx2.Cop0
