import Pcsx2.Mechacon.Clock

/-!
# Sessions of the configuration

A session is opened on an area of the NVRAM, to read or to write its blocks in turn. The numbers of other areas are
taken as that of the area 1, whose blocks they go on behind.
-/

namespace Pcsx2.Mechacon
open Foundation

variable {console : Console} {s t : Cdvd}

/-! ## Areas -/

def blockCount (area : Byte) : Nat :=
  if area = 0 then 4 else if area = 1 then 2 else if area = 2 then 7 else 0

def areaStart (console : Console) (area : Byte) : Nat :=
  if area = 0 then (getNvmLayout console).config0
  else if area = 2 then (getNvmLayout console).config2
  else (getNvmLayout console).config1

def InArea (console : Console) (area : Byte) (i : Nat) : Prop :=
  areaStart console area ≤ i ∧ i < areaStart console area + 16 * blockCount area

def InBlock (console : Console) (area : Byte) (k i : Nat) : Prop :=
  areaStart console area + k * 16 ≤ i ∧ i < areaStart console area + k * 16 + 16

theorem InBlock.inArea {area : Byte} {k i : Nat} (inside : InBlock console area k i) (own : k < blockCount area) :
    InArea console area i := by
  unfold InBlock at inside
  unfold InArea
  omega

theorem known_area {area : Byte} {k : Nat} (own : k < blockCount area) : area = 0 ∨ area = 1 ∨ area = 2 := by
  unfold blockCount at own
  split_ifs at own with zero one two
  · exact .inl zero
  · exact .inr (.inl one)
  · exact .inr (.inr two)
  · exact absurd own k.not_lt_zero

theorem small_area {area : Byte} (small : area ≤ 2) : area = 0 ∨ area = 1 ∨ area = 2 := by
  have bound : area.toNat ≤ 2 := small
  rw [← BitVec.toNat_inj, ← BitVec.toNat_inj, ← BitVec.toNat_inj]
  show area.toNat = 0 ∨ area.toNat = 1 ∨ area.toNat = 2
  omega

theorem areaStarts (console : Console) :
    (areaStart console 0 = 0x270 ∧ areaStart console 1 = 0x2B0 ∧ areaStart console 2 = 0x200) ∨
      areaStart console 0 = 0x280 ∧ areaStart console 1 = 0x300 ∧ areaStart console 2 = 0x200 := by
  by_cases layout : 0x146 ≤ console.biosVersion
  · left
    simp [areaStart, getNvmLayout, layout]
  · right
    simp [areaStart, getNvmLayout, layout]

theorem blockCounts : blockCount 0 = 4 ∧ blockCount 1 = 2 ∧ blockCount 2 = 7 := ⟨rfl, rfl, rfl⟩

theorem InBlock.bounds {area : Byte} {k i : Nat} (inside : InBlock console area k i) (own : k < blockCount area) :
    0x200 ≤ i ∧ i < NVRAM_SIZE := by
  have starts := areaStarts console
  have counts := blockCounts
  unfold InBlock at inside
  unfold NVRAM_SIZE
  rcases known_area own with rfl | rfl | rfl
  · omega
  · omega
  · omega

theorem InBlock.unique {area other : Byte} {k l i : Nat} (inside : InBlock console area k i) (own : k < blockCount area)
    (also : InBlock console other l i) (own' : l < blockCount other) : area = other ∧ k = l := by
  have starts := areaStarts console
  have counts := blockCounts
  unfold InBlock at inside also
  rcases known_area own with rfl | rfl | rfl <;> rcases known_area own' with rfl | rfl | rfl
  all_goals first | exact ⟨rfl, by omega⟩ | omega

/-! ## What the commands do -/

structure Config where
  nvram : Nat → Byte
  cReadWrite : Byte
  cOffset : Byte
  cNumBlocks : Byte
  cBlockIndex : Byte

def Cdvd.config (s : Cdvd) : Config := ⟨s.bytes .nvram, s.cReadWrite, s.cOffset, s.cNumBlocks, s.cBlockIndex⟩

def Cdvd.HasBlock (s : Cdvd) : Prop := s.cBlockIndex < s.cNumBlocks ∧ s.cBlockIndex.toNat < blockCount s.cOffset

theorem noBlock_iff {s : Cdvd} (known : s.cOffset = 0 ∨ s.cOffset = 1 ∨ s.cOffset = 2) :
    s.noBlock = true ↔ blockCount s.cOffset ≤ s.cBlockIndex.toNat := by
  unfold Cdvd.noBlock
  rw [decide_eq_true_iff]
  rcases known with same | same | same
  all_goals
    rw [same]
    constructor
    · rintro (⟨number, many⟩ | ⟨number, many⟩ | ⟨number, many⟩)
      all_goals first | exact many | exact absurd number (by decide)
  · exact fun many => .inl ⟨rfl, many⟩
  · exact fun many => .inr (.inl ⟨rfl, many⟩)
  · exact fun many => .inr (.inr ⟨rfl, many⟩)

theorem Cdvd.HasBlock.noBlock (has : s.HasBlock) : s.noBlock = false := by
  rw [← Bool.not_eq_true, noBlock_iff (known_area has.2)]
  exact Nat.not_le.mpr has.2

/-! ## Accesses -/

theorem available_inside {offset : Nat} (inside : offset + 16 ≤ NVRAM_SIZE) : available offset 16 = 16 :=
  if_neg (Nat.not_lt.mpr inside)

theorem block_length (s : Cdvd) (buffer : Buffer) (first n : Nat) : (s.block buffer first n).length = n := by
  simp [Cdvd.block]

theorem copyBlock_eq {dst src : Buffer} {offset : Nat} (read : src.Has offset 16) (s : Cdvd)
    {first : Nat} (write : dst.Has first 16) :
    copyBlock dst first src offset 16 s = some ((), s.write dst first (s.block src offset 16)) := by
  unfold copyBlock
  rw [Program.andThen_some (loadBlock_inside read), storeBlock, if_pos]
  · rfl
  · rwa [block_length]

theorem nvram_has_block {offset : Nat} (inside : offset + 16 ≤ NVRAM_SIZE) : Buffer.nvram.Has offset 16 := by
  constructor
  · exact Int.natCast_nonneg _
  · simp only [Buffer.size]
    omega

theorem cdvdReadNVM_eq {offset : Nat} (inside : offset + 16 ≤ NVRAM_SIZE) (s : Cdvd) :
    cdvdReadNVM 0 offset 16 s = some ((), s.write .scmdResult 0 (s.block .nvram offset 16)) := by
  have none : clearMissing 0 offset 16 s = some ((), s) := by
    rw [clearMissing, if_neg (Nat.not_lt.mpr inside)]
    rfl
  unfold cdvdReadNVM
  rw [Program.andThen_some none, available_inside inside]
  exact copyBlock_eq (nvram_has_block inside) s (by decide)

theorem cdvdWriteNVM_eq {offset : Nat} (inside : offset + 16 ≤ NVRAM_SIZE) (s : Cdvd) :
    cdvdWriteNVM 0 offset 16 s = some ((), s.write .nvram offset (s.block .scmdParam 0 16)) := by
  unfold cdvdWriteNVM
  rw [available_inside inside]
  exact copyBlock_eq (by decide) s (nvram_has_block inside)

/-! ## Commands -/

def Cdvd.prepared (s : Cdvd) (rt : Byte) (size : Nat) : Cdvd := (s.issued rt).sized size

theorem sCommand_prepared {rt : Byte} {size : Nat} (le : size ≤ 16) {command : Program Cdvd Unit}
    (same : sCommand console rt = do setSCMDResultSize size; command) (ran : command (s.prepared rt size) = some ((), t)) :
    cdvdWrite16 console rt s = some ((), t.cleared) := by
  apply cdvdWrite16_eq
  rw [same, Program.andThen_some (setSCMDResultSize_eq le)]
  exact ran

theorem Cdvd.HasBlock.inside (has : s.HasBlock) (console : Console) :
    areaStart console s.cOffset + s.cBlockIndex.toNat * 16 + 16 ≤ NVRAM_SIZE := by
  have last : InBlock console s.cOffset s.cBlockIndex.toNat
      (areaStart console s.cOffset + s.cBlockIndex.toNat * 16 + 15) := by
    unfold InBlock
    omega
  exact (last.bounds has.2).2

theorem writeConfig_block (mode : s.cReadWrite = 1) (has : s.HasBlock) :
    cdvdWrite16 console 0x42 s = some ((), { (s.prepared 0x42 1).write .nvram
      (areaStart console s.cOffset + s.cBlockIndex.toNat * 16) (s.block .scmdParam 0 16) with
        cBlockIndex := s.cBlockIndex + 1 }.cleared) := by
  have wrote := cdvdWriteNVM_eq (has.inside console) (s.prepared 0x42 1)
  apply sCommand_prepared (by decide : 1 ≤ 16) rfl
  have goes : ¬((s.prepared 0x42 1).cReadWrite ≠ 1 ∨ (s.prepared 0x42 1).cNumBlocks ≤ (s.prepared 0x42 1).cBlockIndex) := by
    rintro (other | ended)
    · exact other mode
    · exact BitVec.not_le.mpr has.1 ended
  have block : (s.prepared 0x42 1).noBlock = false := has.noBlock
  unfold cdvdWriteConfig
  refine (Program.andThen_some rfl).trans ?_
  rw [if_neg goes, block, if_neg Bool.false_ne_true]
  exact Program.andThen_some wrote

theorem prepared_of_ran {rt : Byte} {size : Nat} (le : size ≤ 16) {command : Program Cdvd Unit}
    (same : sCommand console rt = do setSCMDResultSize size; command) (ran : cdvdWrite16 console rt s = some ((), t)) :
    ∃ u, command (s.prepared rt size) = some ((), u) ∧ t = u.cleared := by
  cases went : command (s.prepared rt size) with
  | none =>
    have wrong : sCommand console rt (s.issued rt) = none := by
      rw [same, Program.andThen_some (setSCMDResultSize_eq le)]
      exact went
    have zeros : storeBlock .scmdResult 0 (List.replicate 16 0) { s with sCommand := rt } = some ((), s.issued rt) := rfl
    have never : cdvdWrite16 console rt s = none := by
      refine (Program.andThen_some rfl).trans ?_
      rw [Program.andThen_some zeros]
      exact Program.andThen_none wrong
    rw [never] at ran
    cases ran
  | some outcome =>
    have also := (sCommand_prepared le same went).symm.trans ran
    exact ⟨outcome.2, rfl, (Prod.mk.inj (Option.some.inj also)).2.symm⟩

theorem writeConfig_nothing (known : s.cReadWrite = 1 → s.cBlockIndex < s.cNumBlocks → s.cOffset ≤ 2)
    (none : ¬(s.cReadWrite = 1 ∧ s.HasBlock)) :
    cdvdWrite16 console 0x42 s = some ((), (s.prepared 0x42 1).cleared) := by
  apply sCommand_prepared (by decide : 1 ≤ 16) rfl
  unfold cdvdWriteConfig
  refine (Program.andThen_some rfl).trans ?_
  by_cases ended : (s.prepared 0x42 1).cReadWrite ≠ 1 ∨ (s.prepared 0x42 1).cNumBlocks ≤ (s.prepared 0x42 1).cBlockIndex
  · rw [if_pos ended]
    rfl
  · obtain ⟨mode, left⟩ := not_or.mp ended
    have writing : s.cReadWrite = 1 := not_not.mp mode
    have less : s.cBlockIndex < s.cNumBlocks := BitVec.not_le.mp left
    have block : (s.prepared 0x42 1).noBlock = true := by
      refine (noBlock_iff (small_area (known writing less))).mpr (Nat.not_lt.mp fun own => ?_)
      exact none ⟨writing, less, own⟩
    rw [if_neg ended, block, if_pos rfl]
    rfl

/-- A program that leaves what the sessions depend on. -/
def Keeps {α : Type} (program : Program Cdvd α) : Prop :=
  ∀ c, Ensures (fun s => s.config = c) program fun _ t => t.config = c

theorem Keeps.andThen {α β : Type} {program : Program Cdvd α} {next : α → Program Cdvd β} (first : Keeps program)
    (second : ∀ a, Keeps (next a)) : Keeps (program >>= next) :=
  fun c => (first c).andThen fun a => second a c

theorem Keeps.result {α : Type} (a : α) : Keeps (pure a) := fun _ => Ensures.result fun _ same => same

theorem Keeps.branch {α : Type} {c : Prop} [Decidable c] {first second : Program Cdvd α} (yes : Keeps first)
    (no : Keeps second) : Keeps (if c then first else second) :=
  fun config => Ensures.branch (fun _ => yes config) fun _ => no config

theorem loadBlock_keeps (buffer : Buffer) (first : Int) (n : Nat) : Keeps (loadBlock buffer first n) := by
  intro c s bytes t same ran
  unfold loadBlock at ran
  split_ifs at ran with has
  cases ran
  exact same

theorem load_keeps (buffer : Buffer) (i : Int) : Keeps (load buffer i) := by
  intro c s byte t same ran
  unfold load at ran
  split_ifs at ran with has
  cases ran
  exact same

theorem storeBlock_keeps (first : Int) (bytes : List Byte) : Keeps (storeBlock .scmdResult first bytes) := by
  intro c s _ t same ran
  unfold storeBlock at ran
  split_ifs at ran with has
  cases ran
  exact same

theorem cdvdReadNVM_keeps (dst offset bytes : Nat) : Keeps (cdvdReadNVM dst offset bytes) := by
  refine Keeps.andThen (Keeps.branch (storeBlock_keeps _ _) (Keeps.result _)) fun _ => ?_
  exact Keeps.branch ((loadBlock_keeps _ _ _).andThen fun _ => storeBlock_keeps _ _) (Keeps.result _)

theorem setInitialized_keeps (s : Cdvd) : Keeps (setInitialized console s) :=
  Keeps.branch ((load_keeps _ _).andThen fun _ => storeBlock_keeps _ _) (Keeps.result _)

theorem readConfig_config (ran : cdvdWrite16 console 0x41 s = some ((), t)) :
    t.config = s.config ∨ t.config = { s.config with cBlockIndex := s.cBlockIndex + 1 } := by
  obtain ⟨u, read, rfl⟩ := prepared_of_ran (by decide : 16 ≤ 16) rfl ran
  show u.config = s.config ∨ u.config = { s.config with cBlockIndex := s.cBlockIndex + 1 }
  unfold cdvdReadConfig at read
  rw [Program.andThen_some (rfl : (get : Program Cdvd Cdvd) (s.prepared 0x41 16) = some (_, _))] at read
  split_ifs at read with writing ended missing
  · exact .inl (((storeBlock_keeps _ _).andThen fun _ => storeBlock_keeps _ _) s.config (s.prepared 0x41 16) _ _ rfl read)
  · cases read
    exact .inl rfl
  · exact .inl (storeBlock_keeps _ _ s.config (s.prepared 0x41 16) _ _ rfl read)
  · right
    have next : Ensures (fun t => t.config = s.config) nextBlock fun _ t =>
        t.config = { s.config with cBlockIndex := s.cBlockIndex + 1 } := by
      apply Ensures.update
      intro t same
      simp only [Cdvd.config, Config.mk.injEq] at same ⊢
      simp only [same, and_self]
    exact ((cdvdReadNVM_keeps _ _ _ s.config).andThen fun _ => ((setInitialized_keeps _ s.config).andThen fun _ => next))
      (s.prepared 0x41 16) _ _ rfl read

theorem readConfig_block (slow : console.fastBooted = false) (mode : s.cReadWrite = 0) (has : s.HasBlock) :
    cdvdWrite16 console 0x41 s = some ((), { (s.prepared 0x41 16).write .scmdResult 0
      (s.block .nvram (areaStart console s.cOffset + s.cBlockIndex.toNat * 16) 16) with
        cBlockIndex := s.cBlockIndex + 1 }.cleared) := by
  have read := cdvdReadNVM_eq (has.inside console) (s.prepared 0x41 16)
  apply sCommand_prepared (by decide : 16 ≤ 16) rfl
  have writing : ¬(s.prepared 0x41 16).cReadWrite ≠ 0 := not_not.mpr mode
  have left : ¬(s.prepared 0x41 16).cNumBlocks ≤ (s.prepared 0x41 16).cBlockIndex := BitVec.not_le.mpr has.1
  have block : (s.prepared 0x41 16).noBlock = false := has.noBlock
  have unset (t : Cdvd) : setInitialized console (s.prepared 0x41 16) t = some ((), t) := by
    rw [setInitialized, slow, if_neg (fun all => Bool.false_ne_true all.2.2.2)]
    rfl
  unfold cdvdReadConfig
  refine (Program.andThen_some rfl).trans ?_
  rw [if_neg writing, if_neg left, block, if_neg Bool.false_ne_true]
  refine (Program.andThen_some read).trans ?_
  rw [Program.andThen_some (unset _)]
  rfl

/-! ## Steps -/

inductive ConfigEvent
  | param (rt : Byte)
  | openConfig
  | readConfig
  | writeConfig
  | closeConfig

def configAct (console : Console) : ConfigEvent → Program Cdvd Unit
  | .param rt => cdvdWrite17 rt
  | .openConfig => cdvdWrite16 console 0x40
  | .readConfig => cdvdWrite16 console 0x41
  | .writeConfig => cdvdWrite16 console 0x42
  | .closeConfig => cdvdWrite16 console 0x43

def WritesKnown (s : Cdvd) (event : ConfigEvent) : Prop :=
  event = .writeConfig → s.cReadWrite = 1 → s.cBlockIndex < s.cNumBlocks → s.cOffset ≤ 2

def WritesBlock (s : Cdvd) (event : ConfigEvent) : Prop := event = .writeConfig ∧ s.cReadWrite = 1 ∧ s.HasBlock

instance (area : Byte) (k i : Nat) : Decidable (InBlock console area k i) := inferInstanceAs (Decidable (_ ∧ _))

def Cdvd.blockWritten (s : Cdvd) (console : Console) (i : Nat) : Byte :=
  if InBlock console s.cOffset s.cBlockIndex.toNat i then
    s.bytes .scmdParam (i - (areaStart console s.cOffset + s.cBlockIndex.toNat * 16))
  else s.bytes .nvram i

theorem block_getD (s : Cdvd) (buffer : Buffer) (first : Nat) {n j : Nat} (inside : j < n) :
    (s.block buffer first n).getD j 0 = s.bytes buffer (first + j) := by
  simp [Cdvd.block, List.getD, inside]

theorem block_write (s : Cdvd) (buffer : Buffer) (first : Nat) (bytes : List Byte) :
    (s.write buffer first bytes).block buffer first bytes.length = bytes := by
  apply List.ext_getElem
  · exact block_length _ _ _ _
  · intro i inside also
    simp [Cdvd.block, Cdvd.write, also]

theorem write_nvram (s : Cdvd) (console : Console) :
    (s.write .nvram (areaStart console s.cOffset + s.cBlockIndex.toNat * 16) (s.block .scmdParam 0 16)).bytes .nvram =
      s.blockWritten console := by
  funext i
  unfold Cdvd.blockWritten
  simp only [Cdvd.write, block_length, true_and]
  by_cases inside : InBlock console s.cOffset s.cBlockIndex.toNat i
  · have small : i - (areaStart console s.cOffset + s.cBlockIndex.toNat * 16) < 16 :=
      Nat.sub_lt_left_of_lt_add inside.1 inside.2
    rw [if_pos inside]
    refine (if_pos inside).trans ?_
    rw [block_getD s _ _ small, Nat.zero_add]
  · rw [if_neg inside]
    exact if_neg inside

theorem openConfig_config (ran : configAct console .openConfig s = some ((), t)) :
    t.config = ⟨s.bytes .nvram, s.bytes .scmdParam 0, s.bytes .scmdParam 1, s.bytes .scmdParam 2, 0⟩ := by
  obtain ⟨u, opened, rfl⟩ := prepared_of_ran (by decide : 1 ≤ 16) rfl ran
  cases opened
  rfl

theorem closeConfig_config (ran : configAct console .closeConfig s = some ((), t)) :
    t.config = ⟨s.bytes .nvram, 0, 0, 0, 0⟩ := by
  cases ran
  rfl

theorem param_config {rt : Byte} (ran : configAct console (.param rt) s = some ((), t)) : t.config = s.config := by
  have stored (i : Int) : Keeps (store .scmdParam i rt) := by
    intro c s _ t same ran
    unfold store storeBlock at ran
    split_ifs at ran with has
    cases ran
    exact same
  have counted : Keeps (modify fun u => { u with
      scmdParamPos := (if 16 ≤ s.scmdParamPos then 0 else s.scmdParamPos) + 1
      scmdParamCnt := (if 16 ≤ s.scmdParamPos then 0 else s.scmdParamCnt) + 1 }) :=
    fun c => Ensures.update fun _ same => same
  change cdvdWrite17 rt s = some ((), t) at ran
  unfold cdvdWrite17 at ran
  rw [Program.andThen_some (rfl : (get : Program Cdvd Cdvd) s = some (s, s))] at ran
  exact ((stored _).andThen fun _ => counted) s.config s _ t rfl ran

theorem step_nvram {event : ConfigEvent} (known : WritesKnown s event) (acted : configAct console event s = some ((), t)) :
    (WritesBlock s event ∧ t.bytes .nvram = s.blockWritten console) ∨
      (¬WritesBlock s event ∧ t.bytes .nvram = s.bytes .nvram) := by
  cases event with
  | param rt => exact .inr ⟨fun writes => ConfigEvent.noConfusion writes.1, congrArg Config.nvram (param_config acted)⟩
  | openConfig => exact .inr ⟨fun writes => ConfigEvent.noConfusion writes.1, congrArg Config.nvram (openConfig_config acted)⟩
  | closeConfig => exact .inr ⟨fun writes => ConfigEvent.noConfusion writes.1, congrArg Config.nvram (closeConfig_config acted)⟩
  | readConfig =>
    refine .inr ⟨fun writes => ConfigEvent.noConfusion writes.1, ?_⟩
    rcases readConfig_config acted with same | next
    · exact congrArg Config.nvram same
    · exact congrArg Config.nvram next
  | writeConfig =>
    by_cases writes : s.cReadWrite = 1 ∧ s.HasBlock
    · left
      have block : configAct console .writeConfig s = _ := writeConfig_block writes.1 writes.2
      cases block.symm.trans acted
      exact ⟨⟨rfl, writes⟩, write_nvram s console⟩
    · right
      have nothing : configAct console .writeConfig s = _ := writeConfig_nothing (known rfl) writes
      cases nothing.symm.trans acted
      exact ⟨fun own => writes own.2, rfl⟩

theorem step_frame {event : ConfigEvent} (known : WritesKnown s event) (acted : configAct console event s = some ((), t))
    {i : Nat} (changed : t.bytes .nvram i ≠ s.bytes .nvram i) :
    WritesBlock s event ∧ InBlock console s.cOffset s.cBlockIndex.toNat i := by
  rcases step_nvram known acted with ⟨writes, nvram⟩ | ⟨-, nvram⟩
  · refine ⟨writes, ?_⟩
    by_contra outside
    rw [nvram, Cdvd.blockWritten, if_neg outside] at changed
    exact changed rfl
  · exact absurd (congrFun nvram i) changed

theorem step_sound (console : Console) (event : ConfigEvent) (sound : Sound s) :
    ∃ t, configAct console event s = some ((), t) ∧ Sound t := by
  have fits (rt : Byte) (free : s.CommandFits rt) : ∃ t, cdvdWrite16 console rt s = some ((), t) ∧ Sound t := by
    obtain ⟨_, t, ran, kept⟩ := (cdvdWrite16_exactly console sound rt).1 free
    exact ⟨t, ran, kept⟩
  cases event with
  | param rt =>
    obtain ⟨_, t, ran, kept⟩ := cdvdWrite17_maintains rt s sound
    exact ⟨t, ran, kept⟩
  | openConfig => exact fits 0x40 trivial
  | readConfig => exact fits 0x41 trivial
  | writeConfig => exact fits 0x42 trivial
  | closeConfig => exact fits 0x43 trivial

/-! ## Runs -/

def ConfigStep (console : Console) (s t : Cdvd) : Prop :=
  ∃ event, WritesKnown s event ∧ configAct console event s = some ((), t)

def StepAround (console : Console) (area k : Byte) (s t : Cdvd) : Prop :=
  ∃ event, WritesKnown s event ∧ ¬(WritesBlock s event ∧ s.cOffset = area ∧ s.cBlockIndex = k) ∧
    configAct console event s = some ((), t)

def identity (console : Console) : List Nat :=
  [(getNvmLayout console).consoleId, (getNvmLayout console).ilinkId, (getNvmLayout console).modelNum,
    (getNvmLayout console).modelNum + 8, (getNvmLayout console).regparams]

theorem identity_below {first : Nat} (member : first ∈ identity console) : first + 8 ≤ 0x200 := by
  unfold identity getNvmLayout at member
  split_ifs at member with layout
  all_goals
    simp only [List.mem_cons, List.not_mem_nil, or_false] at member
    omega

theorem block_kept {area k : Byte} (own : k.toNat < blockCount area) (run : Run (StepAround console area k) s t) {i : Nat}
    (inside : InBlock console area k.toNat i) : t.bytes .nvram i = s.bytes .nvram i := by
  induction run with
  | refl => rfl
  | tail before last ih =>
    obtain ⟨event, known, other, acted⟩ := last
    refine .trans (by_contra fun changed => ?_) ih
    obtain ⟨writes, written⟩ := step_frame known acted changed
    obtain ⟨same, number⟩ := inside.unique own written writes.2.2.2
    exact other ⟨writes, same.symm, (BitVec.eq_of_toNat_eq number).symm⟩

structure SessionsKept (console : Console) (nvram : Nat → Byte) (s : Cdvd) : Prop where
  acts : ∀ event, ∃ t, configAct console event s = some ((), t)
  frame : ∀ event t i, WritesKnown s event → configAct console event s = some ((), t) →
    t.bytes .nvram i ≠ s.bytes .nvram i →
      event = .writeConfig ∧ s.cReadWrite = 1 ∧ InArea console s.cOffset i ∧ InBlock console s.cOffset s.cBlockIndex.toNat i
  identity : ∀ first ∈ identity console, ∀ i, first ≤ i → i < first + 8 → s.bytes .nvram i = nvram i
  opens : ∀ t, configAct console .openConfig s = some ((), t) →
    t.config = ⟨s.bytes .nvram, s.bytes .scmdParam 0, s.bytes .scmdParam 1, s.bytes .scmdParam 2, 0⟩
  writes : s.cReadWrite = 1 → s.HasBlock → ∀ t, configAct console .writeConfig s = some ((), t) →
    t.cBlockIndex = s.cBlockIndex + 1 ∧
    ∀ u w, Run (StepAround console s.cOffset s.cBlockIndex) t u → u.cReadWrite = 0 → u.HasBlock →
      u.cOffset = s.cOffset → u.cBlockIndex = s.cBlockIndex → configAct console .readConfig u = some ((), w) →
        w.block .scmdResult 0 16 = s.block .scmdParam 0 16
  reads : s.cReadWrite = 0 → s.HasBlock → ∀ t, configAct console .readConfig s = some ((), t) →
    t.cBlockIndex = s.cBlockIndex + 1

theorem config_sound {nvram : Nat → Byte} {rtc : RTC} (run : Run (ConfigStep console) (cdvdReset console nvram rtc) s) :
    Sound s := by
  apply run.invariant cdvdReset_sound
  rintro s t sound ⟨event, -, acted⟩
  obtain ⟨u, ran, kept⟩ := step_sound console event sound
  cases acted.symm.trans ran
  exact kept

theorem identity_kept {nvram : Nat → Byte} {rtc : RTC} (run : Run (ConfigStep console) (cdvdReset console nvram rtc) s)
    {i : Nat} (before : i < 0x200) : s.bytes .nvram i = nvram i := by
  induction run with
  | refl => rfl
  | tail earlier last ih =>
    obtain ⟨event, known, acted⟩ := last
    refine .trans (by_contra fun changed => ?_) ih
    obtain ⟨writes, inside⟩ := step_frame known acted changed
    have behind := (inside.bounds writes.2.2.2).1
    omega

theorem readConfig_answer (slow : console.fastBooted = false) (mode : s.cReadWrite = 0) (has : s.HasBlock)
    (ran : configAct console .readConfig s = some ((), t)) :
    t.cBlockIndex = s.cBlockIndex + 1 ∧
      t.block .scmdResult 0 16 = s.block .nvram (areaStart console s.cOffset + s.cBlockIndex.toNat * 16) 16 := by
  cases (readConfig_block slow mode has).symm.trans ran
  have answered := block_write (s.prepared 0x41 16) .scmdResult 0
    (s.block .nvram (areaStart console s.cOffset + s.cBlockIndex.toNat * 16) 16)
  rw [block_length] at answered
  exact ⟨rfl, answered⟩

end Pcsx2.Mechacon
