import Pcsx2.Foundation.Run
import Pcsx2.GsClut.Clut

/-!
# Skipped reloads

A load that is skipped would have changed nothing, as long as every change of the palette was noticed. The
window that is tested holds the palettes of CSM1 that do not wrap; palettes of CSM2 lie where TEXCLUT says, and an
interval that wraps is only noticed above its start.
-/

namespace Pcsx2.GsClut
open Foundation GsMemory

/-! ## Loads -/

namespace Load

variable {load old : Load} {vm vm' : Vm} {clut : Nat → BitVec 16}

def source (load : Load) (k : Nat) : Option Nat := load.reverse.lookup k

theorem perform_apply (k : Nat) : load.perform vm clut k = ((load.source k).map vm.get16).getD (clut k) := by
  unfold perform source
  rw [Foundation.perform_apply, ← List.map_reverse]
  induction load.reverse with
  | nil => rfl
  | cons store stores ih =>
      rw [List.map_cons, List.lookup_cons, List.lookup_cons]
      by_cases here : k = store.1
      · simp [here]
      · simpa [beq_false_of_ne here] using ih

theorem mem_of_source {k a : Nat} (found : load.source k = some a) : (k, a) ∈ load := by
  obtain ⟨before, after, split, -⟩ := List.lookup_eq_some_iff.mp found
  rw [← List.mem_reverse, split]
  simp

def Held (load : Load) (vm : Vm) (clut : Nat → BitVec 16) : Prop :=
  ∀ k a, load.source k = some a → clut k = vm.get16 a

theorem held_perform : load.Held vm (load.perform vm clut) := by
  intro k a found
  rw [perform_apply, found]
  rfl

theorem Held.perform_eq (held : load.Held vm clut) : load.perform vm clut = clut := by
  funext k
  rw [perform_apply]
  cases found : load.source k with
  | none => rfl
  | some a => exact (held k a found).symm

/-- Every entry of the load comes from where the old load has it from. -/
def Covered (load old : Load) : Prop := ∀ k a, load.source k = some a → old.source k = some a

theorem Held.covered (held : old.Held vm clut) (covered : load.Covered old) : load.Held vm clut :=
  fun k a found => held k a (covered k a found)

def Kept (load : Load) (vm vm' : Vm) : Prop := ∀ store ∈ load, vm'.get16 store.2 = vm.get16 store.2

theorem Held.kept (held : load.Held vm clut) (kept : load.Kept vm vm') : load.Held vm' clut := by
  intro k a found
  rw [held k a found]
  exact (kept _ (mem_of_source found)).symm

end Load

/-! ## Palettes of CSM1 -/

theorem GSVector4i.interleave_subset {a b : List Nat} {x : Nat} (member : x ∈ interleave a b) : x ∈ a ∨ x ∈ b := by
  unfold interleave at member
  obtain ⟨lanes, zipped, here⟩ := List.mem_flatMap.mp member
  have both := List.of_mem_zip zipped
  rcases List.mem_cons.mp here with rfl | here
  · exact Or.inl both.1
  · exact Or.inr (List.mem_singleton.mp here ▸ both.2)

namespace Vectors

variable {v : Vectors} {P : Nat → Prop}

def All (v : Vectors) (P : Nat → Prop) : Prop :=
  (∀ x ∈ v.a, P x) ∧ (∀ x ∈ v.b, P x) ∧ (∀ x ∈ v.c, P x) ∧ ∀ x ∈ v.d, P x

theorem All.sw16 (all : v.All P) : v.sw16.All P := by
  obtain ⟨a, b, c, d⟩ := all
  have low {p q : GSVector4i} (first : ∀ x ∈ p, P x) (second : ∀ x ∈ q, P x) : ∀ x ∈ p.upl16 q, P x := by
    intro x member
    rcases GSVector4i.interleave_subset member with here | here
    · exact first x (List.mem_of_mem_take here)
    · exact second x (List.mem_of_mem_take here)
  have high {p q : GSVector4i} (first : ∀ x ∈ p, P x) (second : ∀ x ∈ q, P x) : ∀ x ∈ p.uph16 q, P x := by
    intro x member
    rcases GSVector4i.interleave_subset member with here | here
    · exact first x (List.mem_of_mem_drop here)
    · exact second x (List.mem_of_mem_drop here)
  exact ⟨low a b, low c d, high a b, high c d⟩

theorem All.sw32 (all : v.All P) : v.sw32.All P := by
  obtain ⟨a, b, c, d⟩ := all
  have low {p q : GSVector4i} (first : ∀ x ∈ p, P x) (second : ∀ x ∈ q, P x) : ∀ x ∈ p.upl32 q, P x := by
    intro x member
    simp only [GSVector4i.upl32, List.mem_append] at member
    rcases member with ((here | here) | here) | here
    · exact first x (List.mem_of_mem_take here)
    · exact second x (List.mem_of_mem_take here)
    · exact first x (List.mem_of_mem_drop (List.mem_of_mem_take here))
    · exact second x (List.mem_of_mem_drop (List.mem_of_mem_take here))
  have high {p q : GSVector4i} (first : ∀ x ∈ p, P x) (second : ∀ x ∈ q, P x) : ∀ x ∈ p.uph32 q, P x := by
    intro x member
    simp only [GSVector4i.uph32, List.mem_append] at member
    rcases member with ((here | here) | here) | here
    · exact first x (List.mem_of_mem_drop (List.mem_of_mem_take here))
    · exact second x (List.mem_of_mem_drop (List.mem_of_mem_take here))
    · exact first x (List.mem_of_mem_drop here)
    · exact second x (List.mem_of_mem_drop here)
  exact ⟨low a b, low c d, high a b, high c d⟩

theorem All.swapMiddle (all : v.All P) : v.swapMiddle.All P := ⟨all.1, all.2.2.1, all.2.1, all.2.2.2⟩

theorem All.column (all : v.All P) : v.column.All P := all.sw16.sw32.swapMiddle.sw16.swapMiddle

theorem load_all (src i : Nat) : (load src i).All fun x => src + 8 * i ≤ x ∧ x < src + 8 * i + 32 := by
  have one (j : Nat) (low : i ≤ j) (high : j < i + 4) :
      ∀ x ∈ GSVector4i.load src j, src + 8 * i ≤ x ∧ x < src + 8 * i + 32 := by
    intro x member
    obtain ⟨k, within, rfl⟩ := List.mem_map.mp member
    have := List.mem_range.mp within
    unfold id
    omega
  exact ⟨one i (by omega) (by omega), one (i + 1) (by omega) (by omega), one (i + 2) (by omega) (by omega),
    one (i + 3) (by omega) (by omega)⟩

end Vectors

theorem mem_of_mem_blockStores {a : Nat} {xs : List Nat} {store : Nat × Nat} (member : store ∈ blockStores a xs) :
    store.2 ∈ xs := by
  induction xs generalizing a with
  | nil => exact absurd member List.not_mem_nil
  | cons x xs ih =>
      rcases List.mem_cons.mp member with rfl | member
      · exact List.mem_cons_self
      · exact List.mem_cons_of_mem _ (ih member)

theorem four_blocks {v : Vectors} {P : Nat → Prop} (all : v.All P) {i j k l : Nat} {store : Nat × Nat}
    (member : store ∈ blockStores i v.a ++ blockStores j v.c ++ blockStores k v.b ++ blockStores l v.d) :
    P store.2 := by
  simp only [List.mem_append] at member
  rcases member with ((here | here) | here) | here
  · exact all.1 _ (mem_of_mem_blockStores here)
  · exact all.2.2.1 _ (mem_of_mem_blockStores here)
  · exact all.2.1 _ (mem_of_mem_blockStores here)
  · exact all.2.2.2 _ (mem_of_mem_blockStores here)

section

variable {src clut : Nat} {store : Nat × Nat}

theorem reads_T32I4 (member : store ∈ writeClutT32I4Csm1 src clut) : src ≤ store.2 ∧ store.2 < src + 32 := by
  have := four_blocks (Vectors.load_all src 0).column member
  omega

theorem reads_T32I8 {offset : Nat} (member : store ∈ writeClutT32I8Csm1 src clut offset) :
    src ≤ store.2 ∧ store.2 < src + 512 := by
  obtain ⟨i, within, member⟩ := List.mem_flatMap.mp member
  have here := reads_T32I4 member
  have within : i < 16 := by
    have := List.mem_range'_1.mp within
    omega
  have column : ∀ i < 16, clutTableT32I8.getD (i * 16 &&& 0x70) 0 ||| (i * 16 &&& 0x80) ≤ 240 := by decide
  have := column i within
  omega

theorem reads_T16I8 (member : store ∈ writeClutT16I8Csm1 src clut) : src ≤ store.2 ∧ store.2 < src + 512 := by
  obtain ⟨j, within, member⟩ := List.mem_flatMap.mp member
  have here := four_blocks (Vectors.load_all src (4 * j)).column member
  have := List.mem_range.mp within
  omega

theorem reads_T16I4 (member : store ∈ writeClutT16I4Csm1 src clut) : src ≤ store.2 ∧ store.2 < src + 512 := by
  obtain ⟨i, within, rfl⟩ := List.mem_map.mp member
  have entry : ∀ i < 16, clutTableT16I4.getD i 0 ≤ 30 := by decide
  have := entry i (List.mem_range.mp within)
  dsimp only
  omega

end

variable {texclut : GIFRegTEXCLUT}

theorem reads_csm1 {tex0 : GIFRegTEX0} {store : Nat × Nat} (csm1 : tex0.csm = 0)
    (member : store ∈ tex0.load texclut) :
    blockPtr tex0.cbp ≤ store.2 ∧ store.2 < blockPtr tex0.cbp + 512 := by
  unfold GIFRegTEX0.load m_wc m_wcCsm1 at member
  rw [if_pos csm1] at member
  split_ifs at member
  · exact reads_T32I8 member
  · have := reads_T32I4 member
    omega
  · exact absurd member List.not_mem_nil
  · exact reads_T16I8 member
  · exact reads_T16I4 member
  · exact absurd member List.not_mem_nil
  · exact reads_T16I8 member
  · exact reads_T16I4 member
  · exact absurd member List.not_mem_nil
  · exact absurd member List.not_mem_nil

theorem load_of_pal {old new : GIFRegTEX0} {texclut texclut' : GIFRegTEXCLUT} (same : old.SamePalette new)
    (size : pal old.psm = pal new.psm) (indexed : pal new.psm ≠ 0) (registers : new.csm = 1 → texclut = texclut') :
    new.load texclut = old.load texclut' := by
  obtain ⟨psm, _, _, _, _, cld⟩ := new
  obtain ⟨psm', cbp, cpsm, csm, csa, cld'⟩ := old
  obtain ⟨rfl, rfl, rfl, rfl⟩ := same
  dsimp only at size indexed registers
  have kinds : ∀ p : BitVec 6, pal p ≠ 0 → p &&& 0x7 = if pal p = 16 then 4 else 3 := by decide
  have kind : psm &&& 0x7 = psm' &&& 0x7 := by rw [kinds psm indexed, kinds psm' (size ▸ indexed), size]
  have table : m_wc csm cpsm psm = m_wc csm cpsm psm' := by
    unfold m_wc m_wcCsm1 m_wcCsm2
    rw [kind, size]
  unfold GIFRegTEX0.load
  dsimp only
  rw [table]
  by_cases csm1 : csm = 0
  · unfold m_wc m_wcCsm1
    rw [if_pos csm1]
    split_ifs <;> rfl
  · have csm2 : ∀ b : BitVec 1, b ≠ 0 → b = 1 := by decide
    rw [registers (csm2 csm csm1)]
    rfl

/-! ## Reports -/

def InInterval (start_block end_block b : Nat) : Prop :=
  if start_block ≤ end_block then start_block ≤ b ∧ b ≤ end_block else start_block ≤ b ∨ b ≤ end_block

instance (start_block end_block b : Nat) : Decidable (InInterval start_block end_block b) := by
  unfold InInterval
  infer_instance

structure Reported (vm vm' : Vm) (start_block end_block : Nat) : Prop where
  start_lt : start_block < 0x10000
  end_lt : end_block < 0x10000
  contained : ∀ i < m_vmsize, vm i ≠ vm' i → InInterval start_block end_block (i / 256)

theorem Reported.get16_eq {vm vm' : Vm} {start_block end_block a : Nat} (reported : Reported vm vm' start_block end_block)
    (outside : ¬InInterval start_block end_block (a / 128 % 0x4000)) : vm'.get16 a = vm.get16 a := by
  have byte (i : Nat) (half : i / 2 = a) : vm'.get8 i = vm.get8 i := by
    by_contra differs
    have block : i % m_vmsize / 256 = a / 128 % 0x4000 := by unfold m_vmsize; omega
    apply outside
    rw [← block]
    exact reported.contained _ (Nat.mod_lt _ (by decide)) (Ne.symm differs)
  unfold Vm.get16
  rw [byte (2 * a) (by omega), byte (2 * a + 1) (by omega)]

def InWindow (cbp : BitVec 14) (start_block end_block : Nat) : Prop :=
  start_block ≤ cbp.toNat + 3 ∧ (cbp.toNat ≤ end_block ∨ end_block / 32 < start_block / 32)

instance (cbp : BitVec 14) (start_block end_block : Nat) : Decidable (InWindow cbp start_block end_block) :=
  inferInstanceAs (Decidable (_ ∧ _))

theorem and_page {x : Nat} (bound : x < 0x10000) : x &&& 0xFFE0 = x / 32 * 32 := by
  have masked := Foundation.and_high x 5 11
  have mask : (2 ^ 11 - 1) <<< 5 = 0xFFE0 := rfl
  rw [mask] at masked
  omega

variable {draws : List Draw}

namespace GSClut

variable {c : GSClut} {start_block end_block : Nat} {is_draw : Bool}

theorem or_ne_zero (dirty : BitVec 8) (is_draw : Bool) : (dirty ||| if is_draw then 2 else 1) ≠ 0 := by
  intro clean
  obtain ⟨-, reason⟩ := BitVec.or_eq_zero_iff.mp clean
  cases is_draw <;> simp at reason

theorem invalidateRange_eq (start_lt : start_block < 0x10000) (end_lt : end_block < 0x10000)
    (clean : c.m_write.dirty = 0) :
    c.invalidateRange start_block end_block is_draw =
      if InWindow c.m_write.next_tex0.cbp start_block end_block then c.setDirty (if is_draw then 2 else 1) else c := by
  have same : c.m_write.next_tex0.cbp + 0x4000 = c.m_write.next_tex0.cbp := BitVec.add_zero _
  have idle : ¬c.m_write.dirty &&& 2 ≠ 0 := by rw [clean]; decide
  have empty (x : BitVec 8) : 0 ||| x = x := BitVec.zero_or
  have bound := c.m_write.next_tex0.cbp.isLt
  unfold invalidateRange
  rw [if_neg idle]
  dsimp only
  rw [same, ite_self, and_page start_lt, and_page end_lt, clean, empty]
  apply if_congr _ rfl rfl
  unfold InWindow
  split_ifs with wraps <;> omega

theorem invalidateRange_cases : c.invalidateRange start_block end_block is_draw = c ∨
    c.invalidateRange start_block end_block is_draw = c.setDirty (c.m_write.dirty ||| if is_draw then 2 else 1) := by
  by_cases drawn : c.m_write.dirty &&& 2 ≠ 0
  · left
    unfold invalidateRange
    rw [if_pos drawn]
  · unfold invalidateRange
    rw [if_neg drawn]
    exact (ite_eq_or_eq _ _ _).symm

theorem invalidateRange_clean (clean : (c.invalidateRange start_block end_block is_draw).m_write.dirty = 0) :
    c.invalidateRange start_block end_block is_draw = c := by
  rcases invalidateRange_cases with same | dirtied
  · exact same
  · rw [dirtied] at clean
    exact absurd clean (or_ne_zero _ _)

structure Alike (c c' : GSClut) : Prop where
  m_CBP0 : c'.m_CBP0 = c.m_CBP0
  m_CBP1 : c'.m_CBP1 = c.m_CBP1
  m_clut : c'.m_clut = c.m_clut
  tex0 : c'.m_write.tex0 = c.m_write.tex0
  texclut : c'.m_write.texclut = c.m_write.texclut
  next_tex0 : c'.m_write.next_tex0 = c.m_write.next_tex0

theorem Alike.refl (c : GSClut) : c.Alike c := ⟨rfl, rfl, rfl, rfl, rfl, rfl⟩

theorem Alike.trans {c₁ c₂ c₃ : GSClut} (first : c₁.Alike c₂) (second : c₂.Alike c₃) : c₁.Alike c₃ :=
  ⟨second.m_CBP0.trans first.m_CBP0, second.m_CBP1.trans first.m_CBP1, second.m_clut.trans first.m_clut,
    second.tex0.trans first.tex0, second.texclut.trans first.texclut, second.next_tex0.trans first.next_tex0⟩

theorem setDirty_alike (dirty : BitVec 8) : c.Alike (c.setDirty dirty) := ⟨rfl, rfl, rfl, rfl, rfl, rfl⟩

theorem invalidateRange_alike : c.Alike (c.invalidateRange start_block end_block is_draw) := by
  rcases invalidateRange_cases with same | dirtied
  · rw [same]
    exact Alike.refl _
  · rw [dirtied]
    exact setDirty_alike _

theorem checkClutValidity_alike (draws : List Draw) : c.Alike (c.checkClutValidity draws) := by
  induction draws generalizing c with
  | nil => exact Alike.refl _
  | cons draw draws ih =>
      unfold checkClutValidity
      dsimp only
      split_ifs
      · exact Alike.refl _
      · exact invalidateRange_alike
      · exact invalidateRange_alike.trans ih

theorem checkClutValidity_clean (clean : (c.checkClutValidity draws).m_write.dirty = 0) :
    c.checkClutValidity draws = c := by
  induction draws generalizing c with
  | nil => rfl
  | cons draw draws ih =>
      unfold checkClutValidity at clean ⊢
      dsimp only at clean ⊢
      split_ifs at clean ⊢ with drawn dirty
      · rfl
      · exact absurd clean dirty
      · rw [ih clean]
        exact invalidateRange_clean (not_not.mp dirty)

theorem clearDrawInvalidity_alike : c.Alike c.clearDrawInvalidity := by
  unfold clearDrawInvalidity
  split_ifs
  · exact setDirty_alike _
  · exact Alike.refl _

theorem clearDrawInvalidity_clean (clean : c.clearDrawInvalidity.m_write.dirty = 0) : c.m_write.dirty = 0 := by
  unfold clearDrawInvalidity at clean
  split_ifs at clean with drawn
  · have dirty : (1 : BitVec 8) ≠ 0 := by decide
    exact absurd clean dirty
  · exact clean

theorem canLoadClut_admits {c c' : GSClut} (first : c'.m_CBP0 = c.m_CBP0) (second : c'.m_CBP1 = c.m_CBP1)
    (tex0 : GIFRegTEX0) (update_CBP : Bool) : (c'.canLoadClut tex0 update_CBP).1 = (c.canLoadClut tex0 false).1 := by
  unfold canLoadClut
  rw [first, second]
  split_ifs <;> rfl

theorem canLoadClut_rest (tex0 : GIFRegTEX0) (update_CBP : Bool) :
    (c.canLoadClut tex0 update_CBP).2.m_clut = c.m_clut ∧ (c.canLoadClut tex0 update_CBP).2.m_write = c.m_write := by
  unfold canLoadClut
  split_ifs <;> exact ⟨rfl, rfl⟩

theorem canLoadClut_refused {tex0 : GIFRegTEX0} {update_CBP : Bool} (refused : (c.canLoadClut tex0 update_CBP).1 = false) :
    (c.canLoadClut tex0 update_CBP).2 = c := by
  unfold canLoadClut at refused ⊢
  split_ifs at refused ⊢ <;> rfl

end GSClut

/-! ## Sessions -/

structure Session extends GSState where
  unconditional : Nat → BitVec 16 := fun _ => 0

inductive Action
  | tex0 (tex0 : GIFRegTEX0) (draws : List Draw) (flushed : Vm)
  | texclut (texclut : GIFRegTEXCLUT)
  | modify (vm : Vm) (start_block end_block : Nat) (is_draw : Bool)

def Session.step (s : Session) : Action → Session
  | .tex0 tex0 draws flushed =>
      let next := s.applyTex0 tex0 draws flushed
      { next with
        unconditional :=
          if (s.m_clut.canLoadClut tex0 false).1 then (tex0.kept.load s.texclut).perform next.vm s.unconditional
          else s.unconditional }
  | .texclut texclut => { s with texclut }
  | .modify vm start_block end_block is_draw =>
      { s with vm, m_clut := s.m_clut.invalidateRange start_block end_block is_draw }

namespace Session

variable (s : Session)

def Allowed : Action → Prop
  | .modify vm start_block end_block _ => Reported s.vm vm start_block end_block
  | _ => True

def last : Load := s.m_clut.m_write.tex0.load s.m_clut.m_write.texclut

/-- The palette is seen to be the same only where it is: a format without a palette selects no other load, and a
change of what was loaded meets the window. -/
def Clear : Action → Prop
  | .tex0 tex0 draws _ =>
      (s.m_clut.canLoadClut tex0 false).1 → (s.checkedClut tex0 draws).m_write.dirty = 0 →
        s.m_clut.m_write.tex0.SamePalette tex0 → pal s.m_clut.m_write.tex0.psm = 0 → pal tex0.psm = 0 →
          (tex0.load s.texclut).Covered s.last
  | .texclut _ => True
  | .modify vm start_block end_block _ =>
      s.m_clut.m_write.dirty = 0 →
        s.last.Kept s.vm vm ∨
        (s.m_clut.m_write.tex0.csm = 0 ∧ s.m_clut.m_write.tex0.cbp.toNat ≤ 0x3FFC ∧ start_block ≤ end_block) ∨
        InWindow s.m_clut.m_write.tex0.cbp start_block end_block

def Acts (s t : Session) : Prop := ∃ action, s.Allowed action ∧ t = s.step action

/-- The same under the condition. -/
def Step (s t : Session) : Prop := ∃ action, s.Allowed action ∧ s.Clear action ∧ t = s.step action

/-- As the state is constructed. -/
def Fresh : Prop := s.m_clut.m_write = {} ∧ s.unconditional = s.m_clut.m_clut

/-- What a clean state has. -/
structure Clean : Prop where
  next : s.m_clut.m_write.next_tex0.cbp = s.m_clut.m_write.tex0.cbp
  masked : s.m_clut.m_write.tex0.cpsm &&& 0xa = s.m_clut.m_write.tex0.cpsm
  held : s.last.Held s.vm s.m_clut.m_clut

structure Current : Prop where
  same : s.m_clut.m_clut = s.unconditional
  clean : s.m_clut.m_write.dirty = 0 → s.Clean

variable {s}

theorem Fresh.current (fresh : s.Fresh) : s.Current := by
  have dirty : s.m_clut.m_write.dirty ≠ 0 := by
    rw [fresh.1]
    decide
  exact ⟨fresh.2.symm, fun clean => absurd clean dirty⟩

/-! ### Changes of the memory -/

theorem kept_of_outside {vm : Vm} {start_block end_block : Nat} (reported : Reported s.vm vm start_block end_block)
    (csm1 : s.m_clut.m_write.tex0.csm = 0) (room : s.m_clut.m_write.tex0.cbp.toNat ≤ 0x3FFC)
    (forward : start_block ≤ end_block)
    (outside : ¬InWindow s.m_clut.m_write.tex0.cbp start_block end_block) : s.last.Kept s.vm vm := by
  intro store member
  apply reported.get16_eq
  have reads := reads_csm1 csm1 member
  unfold blockPtr at reads
  unfold InInterval
  unfold InWindow at outside
  rw [if_pos forward]
  omega

theorem Clean.kept (clean : s.Clean) (idle : s.m_clut.m_write.dirty = 0) {vm : Vm} {start_block end_block : Nat}
    {is_draw : Bool} (reported : Reported s.vm vm start_block end_block)
    (clear : s.Clear (.modify vm start_block end_block is_draw))
    (unseen : (s.m_clut.invalidateRange start_block end_block is_draw).m_write.dirty = 0) : s.last.Kept s.vm vm := by
  have outside : ¬InWindow s.m_clut.m_write.tex0.cbp start_block end_block := by
    intro window
    have seen : (if is_draw then 2 else 1 : BitVec 8) ≠ 0 := by cases is_draw <;> decide
    rw [GSClut.invalidateRange_eq reported.start_lt reported.end_lt idle, clean.next, if_pos window] at unseen
    exact seen unseen
  rcases clear idle with kept | ⟨csm1, room, forward⟩ | window
  · exact kept
  · exact kept_of_outside reported csm1 room forward outside
  · exact absurd window outside

theorem Current.modify (current : s.Current) {vm : Vm} {start_block end_block : Nat} {is_draw : Bool}
    (reported : Reported s.vm vm start_block end_block) (clear : s.Clear (.modify vm start_block end_block is_draw)) :
    (s.step (.modify vm start_block end_block is_draw)).Current where
  same := GSClut.invalidateRange_alike.m_clut.trans current.same
  clean unseen := by
    have same : s.m_clut.invalidateRange start_block end_block is_draw = s.m_clut :=
      GSClut.invalidateRange_clean unseen
    have idle : s.m_clut.m_write.dirty = 0 := same ▸ unseen
    have clean := current.clean idle
    have kept := clean.kept idle reported clear unseen
    unfold step
    dsimp only
    rw [same]
    exact ⟨clean.next, clean.masked, clean.held.kept kept⟩

/-! ### Writes of TEX0 -/

theorem admits_indexed {c : GSClut} {tex0 : GIFRegTEX0} (admits : (c.canLoadClut tex0 false).1 = true) :
    ¬tex0.psm &&& 0x7 < 3 := by
  intro direct
  unfold GSClut.canLoadClut at admits
  rw [if_pos direct] at admits
  exact Bool.false_ne_true admits

theorem applyTex0_refused {tex0 : GIFRegTEX0} (draws : List Draw) (flushed : Vm)
    (refused : (s.m_clut.canLoadClut tex0 false).1 = false) : s.applyTex0 tex0 draws flushed = s.toGSState := by
  have checked : s.checkedClut tex0 draws = s.m_clut := by
    unfold GSState.checkedClut
    rw [refused]
    exact if_neg (by simp)
  have test : s.m_clut.writeTest tex0 s.texclut = (false, s.m_clut) := by
    have refused' : (s.m_clut.canLoadClut tex0 true).1 = false :=
      (GSClut.canLoadClut_admits rfl rfl tex0 true).trans refused
    unfold GSClut.writeTest
    dsimp only
    rw [refused', GSClut.canLoadClut_refused refused']
    exact ite_self _
  unfold GSState.applyTex0
  rw [checked, test]
  rfl

theorem writeTest_admitted {c : GSClut} {tex0 : GIFRegTEX0} (texclut : GIFRegTEXCLUT)
    (admits : (c.canLoadClut tex0 false).1 = true) :
    c.writeTest tex0 texclut = ((c.m_write.isDirty tex0 texclut).1,
      { (c.canLoadClut tex0 true).2 with m_write := (c.m_write.isDirty tex0 texclut).2 }) := by
  have admits' : (c.canLoadClut tex0 true).1 = true :=
    (GSClut.canLoadClut_admits rfl rfl tex0 true).trans admits
  unfold GSClut.writeTest
  dsimp only
  rw [if_neg (admits_indexed admits), admits', (GSClut.canLoadClut_rest tex0 true).2]
  rfl

theorem checkedClut_admitted {tex0 : GIFRegTEX0} (draws : List Draw)
    (admits : (s.m_clut.canLoadClut tex0 false).1 = true) :
    s.checkedClut tex0 draws = (s.m_clut.clearDrawInvalidity.setNextClutTex0 tex0).checkClutValidity draws :=
  if_pos ⟨admits_indexed admits, admits⟩

theorem checkedClut_alike {tex0 : GIFRegTEX0} (draws : List Draw)
    (admits : (s.m_clut.canLoadClut tex0 false).1 = true) :
    (s.m_clut.setNextClutTex0 tex0).Alike (s.checkedClut tex0 draws) := by
  have cleared := GSClut.clearDrawInvalidity_alike (c := s.m_clut)
  have next : (s.m_clut.setNextClutTex0 tex0).Alike (s.m_clut.clearDrawInvalidity.setNextClutTex0 tex0) :=
    ⟨cleared.m_CBP0, cleared.m_CBP1, cleared.m_clut, cleared.tex0, cleared.texclut, rfl⟩
  rw [checkedClut_admitted draws admits]
  exact next.trans (GSClut.checkClutValidity_alike draws)

theorem idle_of_checkedClut {tex0 : GIFRegTEX0}
    (admits : (s.m_clut.canLoadClut tex0 false).1 = true) (clean : (s.checkedClut tex0 draws).m_write.dirty = 0) :
    s.m_clut.m_write.dirty = 0 := by
  rw [checkedClut_admitted draws admits] at clean
  have same := GSClut.checkClutValidity_clean clean
  rw [same] at clean
  exact GSClut.clearDrawInvalidity_clean clean

theorem isDirty_true {w : WriteState} {tex0 : GIFRegTEX0}
    (dirty : (w.isDirty tex0 texclut).1 = true) : (w.isDirty tex0 texclut).2 = w :=
  if_pos dirty

structure Skipped (w : WriteState) (tex0 : GIFRegTEX0) (texclut : GIFRegTEXCLUT) : Prop where
  idle : w.dirty = 0
  palette : w.tex0.SamePalette tex0
  size : pal w.tex0.psm = pal tex0.psm
  registers : tex0.csm = 1 → texclut = w.texclut
  noted : (w.isDirty tex0 texclut).2 = { w with tex0, texclut }

theorem isDirty_false {w : WriteState} {tex0 : GIFRegTEX0}
    (clean : (w.isDirty tex0 texclut).1 = false) : Skipped w tex0 texclut := by
  have noted : (w.isDirty tex0 texclut).2 = { w with tex0, texclut } := by
    have either : (w.isDirty tex0 texclut).2 =
        if (w.isDirty tex0 texclut).1 then w else { w with tex0, texclut } := rfl
    rw [either, clean]
    rfl
  unfold WriteState.isDirty at clean
  dsimp only at clean
  split_ifs at clean with differs registers
  rw [not_or, not_not, not_not] at differs
  refine ⟨by simpa using clean, differs.1, differs.2, ?_, noted⟩
  intro csm2
  by_contra other
  exact registers ⟨csm2, other⟩

theorem Current.loaded (current : s.Current) {tex0 : GIFRegTEX0} {flushed : Vm}
    (admits : (s.m_clut.canLoadClut tex0 false).1 = true)
    (dirty : ((s.checkedClut tex0 draws).m_write.isDirty tex0 s.texclut).1 = true) :
    (s.step (.tex0 tex0 draws flushed)).Current := by
  have alike := checkedClut_alike draws admits
  have admits' : ((s.checkedClut tex0 draws).canLoadClut tex0 false).1 = true :=
    (GSClut.canLoadClut_admits (c := s.m_clut) alike.m_CBP0 alike.m_CBP1 tex0 false).trans admits
  have noted := (GSClut.canLoadClut_rest (c := s.checkedClut tex0 draws) tex0 true).1
  have next : s.applyTex0 tex0 draws flushed = { s.toGSState with
      vm := flushed
      m_clut := ({ ((s.checkedClut tex0 draws).canLoadClut tex0 true).2 with
        m_write := (s.checkedClut tex0 draws).m_write } : GSClut).write flushed tex0.kept s.texclut } := by
    unfold GSState.applyTex0
    rw [writeTest_admitted s.texclut admits', isDirty_true dirty, dirty]
    rfl
  unfold step
  dsimp only
  rw [next, if_pos admits]
  refine ⟨?_, fun _ => ⟨?_, ?_, ?_⟩⟩
  · show Load.perform _ _ _ = Load.perform _ _ _
    rw [noted, alike.m_clut, ← current.same]
    rfl
  · show (s.checkedClut tex0 draws).m_write.next_tex0.cbp = tex0.cbp
    rw [alike.next_tex0]
    rfl
  · show tex0.cpsm &&& 0xa &&& 0xa = tex0.cpsm &&& 0xa
    rw [BitVec.and_assoc, BitVec.and_self]
  · exact Load.held_perform

theorem covered_of_skipped {w : WriteState} {tex0 : GIFRegTEX0}
    (skipped : Skipped w tex0 texclut)
    (unindexed : pal w.tex0.psm = 0 → pal tex0.psm = 0 → (tex0.load texclut).Covered (w.tex0.load w.texclut)) :
    (tex0.load texclut).Covered (w.tex0.load w.texclut) := by
  by_cases indexed : pal tex0.psm = 0
  · exact unindexed (skipped.size.trans indexed) indexed
  · rw [load_of_pal skipped.palette skipped.size indexed skipped.registers]
    exact fun _ _ found => found

theorem kept_of_masked {tex0 : GIFRegTEX0} (masked : tex0.cpsm &&& 0xa = tex0.cpsm) : tex0.kept = tex0 := by
  unfold GIFRegTEX0.kept
  rw [masked]

theorem Current.skipped (current : s.Current) {tex0 : GIFRegTEX0} {flushed : Vm}
    (admits : (s.m_clut.canLoadClut tex0 false).1 = true) (clear : s.Clear (.tex0 tex0 draws flushed))
    (skips : ((s.checkedClut tex0 draws).m_write.isDirty tex0 s.texclut).1 = false) :
    (s.step (.tex0 tex0 draws flushed)).Current := by
  have alike := checkedClut_alike draws admits
  have admits' : ((s.checkedClut tex0 draws).canLoadClut tex0 false).1 = true :=
    (GSClut.canLoadClut_admits (c := s.m_clut) alike.m_CBP0 alike.m_CBP1 tex0 false).trans admits
  have noted := (GSClut.canLoadClut_rest (c := s.checkedClut tex0 draws) tex0 true).1
  have skipped := isDirty_false skips
  have next : s.applyTex0 tex0 draws flushed = { s.toGSState with
      m_clut := { ((s.checkedClut tex0 draws).canLoadClut tex0 true).2 with
        m_write := { (s.checkedClut tex0 draws).m_write with tex0, texclut := s.texclut } } } := by
    unfold GSState.applyTex0
    rw [writeTest_admitted s.texclut admits', skipped.noted, skips]
    rfl
  have clean := current.clean (idle_of_checkedClut admits skipped.idle)
  have last : (s.checkedClut tex0 draws).m_write.tex0 = s.m_clut.m_write.tex0 := alike.tex0
  have registers : (s.checkedClut tex0 draws).m_write.texclut = s.m_clut.m_write.texclut := alike.texclut
  have palette := skipped.palette
  rw [last] at palette
  have masked : tex0.cpsm &&& 0xa = tex0.cpsm := by
    rw [← palette.2.1]
    exact clean.masked
  have covered : (tex0.load s.texclut).Covered s.last := by
    have here := covered_of_skipped skipped
    rw [last, registers] at here
    exact here (clear admits skipped.idle palette)
  have held := clean.held.covered covered
  unfold step
  dsimp only
  rw [next, if_pos admits, kept_of_masked masked, ← current.same]
  refine ⟨?_, fun _ => ⟨?_, masked, ?_⟩⟩
  · show ((s.checkedClut tex0 draws).canLoadClut tex0 true).2.m_clut = Load.perform _ _ _
    rw [noted, alike.m_clut]
    exact held.perform_eq.symm
  · show (s.checkedClut tex0 draws).m_write.next_tex0.cbp = tex0.cbp
    rw [alike.next_tex0]
    rfl
  · show Load.Held _ s.vm ((s.checkedClut tex0 draws).canLoadClut tex0 true).2.m_clut
    rw [noted, alike.m_clut]
    exact held

theorem Current.tex0 (current : s.Current) {tex0 : GIFRegTEX0} {flushed : Vm}
    (clear : s.Clear (.tex0 tex0 draws flushed)) : (s.step (.tex0 tex0 draws flushed)).Current := by
  cases admits : (s.m_clut.canLoadClut tex0 false).1 with
  | false =>
      unfold step
      dsimp only
      rw [applyTex0_refused draws flushed admits, admits]
      exact current
  | true =>
      cases dirty : ((s.checkedClut tex0 draws).m_write.isDirty tex0 s.texclut).1 with
      | true => exact current.loaded admits dirty
      | false => exact current.skipped admits clear dirty

theorem Current.step (current : s.Current) {t : Session} (step : s.Step t) : t.Current := by
  obtain ⟨action, allowed, clear, rfl⟩ := step
  cases action with
  | tex0 tex0 draws flushed => exact current.tex0 clear
  | texclut texclut =>
      refine ⟨current.same, fun idle => ?_⟩
      have clean := current.clean idle
      exact ⟨clean.next, clean.masked, clean.held⟩
  | modify vm start_block end_block is_draw => exact current.modify allowed clear

/-- Skipping reloads is not seen, as long as the palette is seen to be the same only where it is. -/
theorem reloads_transparent {t : Session} (fresh : s.Fresh) (run : Run Step s t) :
    t.m_clut.m_clut = t.unconditional :=
  (run.invariant fresh.current fun _ _ current step => current.step step).same

end Session

/-! ## A transfer that wraps -/

def firstBlock : GIFRegTEX0 := ⟨20, 0, 2, 0, 0, 1⟩

def unchanged : Vm := fun _ => 0

def changed : Vm := Function.update unchanged 0 1

theorem changed_contained {start_block end_block : Nat} (contains : InInterval start_block end_block 0) :
    ∀ i < m_vmsize, unchanged i ≠ changed i → InInterval start_block end_block (i / 256) := by
  intro i _ differs
  have first : i = 0 := by
    by_contra other
    exact differs (Function.update_of_ne other 1 unchanged).symm
  rw [first]
  exact contains

namespace Session

def write (flushed : Vm) : Action := .tex0 firstBlock [] flushed

def change (start_block end_block : Nat) : Action := .modify changed start_block end_block false

def loaded : Session := step {} (write unchanged)

def reported (start_block end_block : Nat) : Session := loaded.step (change start_block end_block)

def again (start_block end_block : Nat) : Session := (reported start_block end_block).step (write changed)

theorem again_acts {start_block end_block : Nat} (start_lt : start_block < 0x10000) (end_lt : end_block < 0x10000)
    (contains : InInterval start_block end_block 0) : Run Acts {} (again start_block end_block) := by
  have first : Run Acts {} loaded := Run.single ⟨write unchanged, trivial, rfl⟩
  have second : Run Acts {} (reported start_block end_block) :=
    first.tail ⟨change start_block end_block, ⟨start_lt, end_lt, changed_contained contains⟩, rfl⟩
  exact second.tail ⟨write changed, trivial, rfl⟩

theorem wrapped_report_missed :
    ¬∀ s t : Session, s.Fresh → Run Acts s t → t.m_clut.m_clut = t.unconditional := by
  intro transparent
  have same := transparent {} (again 0x3FE0 5) ⟨rfl, rfl⟩ (again_acts (by decide) (by decide) (by decide))
  have stale : (again 0x3FE0 5).m_clut.m_clut 0 ≠ (again 0x3FE0 5).unconditional 0 := by decide
  exact stale (congrFun same 0)

theorem reloads_transparent_again : (again 0 5).m_clut.m_clut = (again 0 5).unconditional := by
  have indexed : pal firstBlock.psm ≠ 0 := by decide
  have window : InWindow loaded.m_clut.m_write.tex0.cbp 0 5 := by decide
  have first : Run Step {} loaded :=
    Run.single ⟨write unchanged, trivial, fun _ _ _ _ none => absurd none indexed, rfl⟩
  have second : Run Step {} (reported 0 5) :=
    first.tail ⟨change 0 5, ⟨by decide, by decide, changed_contained (by decide)⟩, fun _ => Or.inr (Or.inr window), rfl⟩
  have third : Run Step {} (again 0 5) :=
    second.tail ⟨write changed, trivial, fun _ _ _ _ none => absurd none indexed, rfl⟩
  exact reloads_transparent ⟨rfl, rfl⟩ third

end Session

end Pcsx2.GsClut
