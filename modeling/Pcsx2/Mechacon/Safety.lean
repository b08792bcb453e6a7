import Pcsx2.Mechacon.Inside

/-!
# Safety of the command interface

Four commands and the end of a day read outside a buffer or a table, each in the states where its condition fails.
Everything else stays inside.
-/

namespace Pcsx2.Mechacon
open Foundation

/-! ## Conditions -/

namespace Cdvd

variable (s : Cdvd)

def word (i : Nat) : BitVec 16 := s.bytes .mg (i + 1) ++ s.bytes .mg i

def nameOffset : Nat := 0x20 + 0x10 * (s.word 0x1A).toNat

def HasName : Prop := s.word 0x18 &&& 1 ≠ 0

instance : Decidable s.HasName := inferInstanceAs (Decidable (_ ≠ _))

def NameInside : Prop := s.HasName → s.nameOffset < 65536

instance : Decidable s.NameInside := inferInstanceAs (Decidable (_ → _))

def bitOffset : Nat :=
  let ofs := if s.HasName then s.nameOffset + (s.bytes .mg s.nameOffset).toNat else s.nameOffset
  (if s.word 0x18 &&& 0xF000 = 0 then ofs + 8 else ofs) + 0x20

def ZerosInside (ofs : Nat) : Prop :=
  ofs + 5 < 65536 ∧ (s.bytes .mg (ofs + 5) = 0 →
    ofs + 6 < 65536 ∧ (s.bytes .mg (ofs + 6) = 0 → ofs + 7 < 65536))

instance (ofs : Nat) : Decidable (s.ZerosInside ofs) := inferInstanceAs (Decidable (_ ∧ (_ → _ ∧ (_ → _))))

def HeaderWritten : Prop :=
  s.mg_datatype = 1 ∧ s.mg_maxsize = s.mg_size ∧ 0x20 ≤ s.mg_size ∧ s.mg_size = (s.word 0x14).toNat

instance : Decidable s.HeaderWritten := inferInstanceAs (Decidable (_ ∧ _))

def HeaderInside : Prop := s.NameInside ∧ (s.bitOffset ≤ 65536 → s.ZerosInside s.bitOffset)

instance : Decidable s.HeaderInside := inferInstanceAs (Decidable (_ ∧ _))

def DayEnds : Prop := 60 ≤ s.rtc.second + 1 ∧ 60 ≤ s.rtc.minute + 1 ∧ 24 ≤ s.rtc.hour + 1

instance : Decidable s.DayEnds := inferInstanceAs (Decidable (_ ∧ _))

def CommandFits (rt : Byte) : Prop :=
  if rt = 0x09 then 7 ≤ s.scmdParamPos
  else if rt = 0x88 ∨ rt = 0x8F then s.HeaderWritten → s.HeaderInside
  else if rt = 0x91 then s.NameInside
  else True

def WriteFits (key rt : Byte) : Prop :=
  if key = 0x04 then s.drive.ready &&& CDVD_DRIVE_READY ≠ 0 → s.drive.noDisc = false → rt < 16
  else if key = 0x16 then s.CommandFits rt
  else True

/-- The condition under which an action stays inside the buffers and tables. -/
def Fits : Action → Prop
  | .write key rt _ => s.WriteFits key rt
  | .vsync second => second = true → s.DayEnds → 1 ≤ s.rtc.month ∧ s.rtc.month ≤ 12
  | .read _ => True
  | .interrupt _ => True

end Cdvd

/-! ## Accesses from a state -/

section

variable {s : Cdvd} {buffer : Buffer}

theorem load_inside {i : Nat} (inside : i < buffer.size) : load buffer i s = some (s.bytes buffer i, s) := by
  have has : buffer.Has i 1 := ⟨by omega, by omega⟩
  exact if_pos has

theorem load_outside {i : Int} (outside : i < 0 ∨ buffer.size ≤ i) : load buffer i s = none := by
  have no : ¬buffer.Has i 1 := by
    rintro ⟨first, last⟩
    omega
  exact if_neg no

theorem loadBlock_inside {i : Int} {n : Nat} (has : buffer.Has i n) :
    loadBlock buffer i n s = some (s.block buffer i.toNat n, s) :=
  if_pos has

theorem loadU16_inside {i : Nat} (inside : i + 1 < 65536) : loadU16 .mg i s = some (s.word i, s) := by
  unfold loadU16
  have low : i < Buffer.mg.size := Nat.lt_of_succ_lt inside
  rw [Program.andThen_some (load_inside low)]
  exact Program.andThen_some (load_inside (i := i + 1) inside)

def Cdvd.sized (s : Cdvd) (size : Nat) : Cdvd :=
  { s with scmdResultCnt := size, scmdResultPos := 0, sDataIn := s.sDataIn &&& ~~~0x40 }.write .scmdResult 0
    (List.replicate size 0)

theorem setSCMDResultSize_eq {size : Nat} (le : size ≤ 16) : setSCMDResultSize size s = some ((), s.sized size) := by
  have has : Buffer.scmdResult.Has 0 (List.replicate size (0 : Byte)).length := by
    rw [List.length_replicate]
    constructor
    · decide
    · show (0 : Int) + size ≤ 16
      omega
  exact if_pos has

theorem Sound.sized (sound : Sound s) {size : Nat} (le : size ≤ 16) : Sound (s.sized size) := by
  obtain ⟨_, t, ran, kept⟩ := setSCMDResultSize_maintains le s sound
  rw [setSCMDResultSize_eq le] at ran
  obtain ⟨-, rfl⟩ := Prod.mk.inj (Option.some.inj ran)
  exact kept

end

/-! ## Tables -/

section

variable {α : Type} {table : List α} {i : Int}

theorem entry_maintains (first : 0 ≤ i) (inside : i < table.length) : Maintains Sound (entry table i) := by
  intro s sound
  have below : i.toNat < table.length := by omega
  refine ⟨table[i.toNat], s, ?_, sound⟩
  unfold entry
  rw [if_pos first, List.getElem?_eq_getElem below]
  rfl

theorem entry_outside {s : Cdvd} (outside : i < 0 ∨ table.length ≤ i) : entry table i s = none := by
  unfold entry
  by_cases first : 0 ≤ i
  · have behind : table.length ≤ i.toNat := by omega
    rw [if_pos first, List.getElem?_eq_none behind]
    rfl
  · exact if_neg first

end

/-! ## N-commands -/

section

variable (console : Console) {s : Cdvd} (sound : Sound s)
include sound

theorem cdvdCommandErrorHandler_exactly :
    Exactly Sound cdvdCommandErrorHandler s (s.drive.noDisc = false → s.nCommand < 16) := by
  apply Exactly.inspect
  apply Exactly.branch
  · rintro ⟨-, missing⟩
    apply Exactly.always (refused_maintains _) sound
    intro present
    exact absurd (missing.symm.trans present) (by decide)
  intro other
  by_cases below : s.nCommand < 16
  · have inside : (s.nCommand.toNat : Int) < cdvdParamLength.length := Int.ofNat_lt.mpr below
    apply Exactly.always _ sound fun _ => below
    apply (entry_maintains (Int.natCast_nonneg _) inside).andThen
    intro length
    apply Maintains.branch (fun _ => refused_maintains _)
    intro _
    exact Maintains.branch (fun _ => refused_maintains _) fun _ => Maintains.result true
  · have behind : (cdvdParamLength.length : Int) ≤ s.nCommand.toNat := Int.ofNat_le.mpr (Nat.le_of_not_lt below)
    apply Exactly.wrong (Program.andThen_none (entry_outside (Or.inr behind)))
    intro fits
    have present : s.drive.noDisc = false := by
      by_contra missing
      have command : s.nCommand ≠ 0 := fun zero => below (zero ▸ by decide)
      exact other ⟨command, Bool.eq_true_of_not_eq_false missing⟩
    exact below (fits present)

theorem cdvdWrite04_exactly (rt : Byte) (speed_change : Bool) :
    Exactly Sound (cdvdWrite04 console rt speed_change) s
      (s.drive.ready &&& CDVD_DRIVE_READY ≠ 0 → s.drive.noDisc = false → rt < 16) := by
  apply Exactly.inspect
  apply Exactly.branch
  · intro notReady
    apply Exactly.always _ sound fun ready => absurd notReady ready
    exact (onDrive_maintains _).andThen fun _ => clearNCMDParam_maintains
  intro ready
  have issued : Sound { s with nCommand := rt, drive := { s.drive with abortRequested := false } } := sound.same rfl
  apply Exactly.after rfl
  apply Exactly.congr _ (forall_prop_of_true ready).symm
  apply (cdvdCommandErrorHandler_exactly issued).andThen
  intro accepted
  exact Maintains.branch (fun _ => nCommand_maintains console rt speed_change) fun _ => clearNCMDParam_maintains

end

/-! ## The clock -/

theorem takeDate_exactly {s : Cdvd} (sound : Sound s) {pos : Nat} (le : pos ≤ 16) :
    Exactly Sound (takeDate pos) s (7 ≤ pos) := by
  by_cases enough : 7 ≤ pos
  · have parameter (k : Nat) (positive : 0 < k) (small : k ≤ 7) : Maintains Sound (param (pos - k)) := by
      apply param_maintains
      constructor
      · omega
      · show (pos : Int) - k + 1 ≤ 16
        omega
    apply Exactly.always _ sound enough
    apply (parameter 7 (by decide) (by decide)).andThen
    intro second
    apply (parameter 6 (by decide) (by decide)).andThen
    intro minute
    apply (parameter 5 (by decide) (by decide)).andThen
    intro hour
    apply (parameter 3 (by decide) (by decide)).andThen
    intro day
    apply (parameter 2 (by decide) (by decide)).andThen
    intro month
    apply (parameter 1 (by decide) (by decide)).andThen
    intro year
    exact modify_maintains fun _ => rfl
  · have before : (pos : Int) - 7 < 0 := by omega
    exact Exactly.wrong (Program.andThen_none (load_outside (Or.inl before))) enough

theorem sceCdWriteRTC_exactly {s : Cdvd} (sound : Sound s) : Exactly Sound sceCdWriteRTC s (7 ≤ s.scmdParamPos) := by
  have answered : answer [0] s = some ((), (s.sized 1).write .scmdResult 0 [0]) := rfl
  have kept : Sound ((s.sized 1).write .scmdResult 0 [0]) := (sound.sized (by decide : 1 ≤ 16)).same rfl
  apply Exactly.after answered
  apply Exactly.inspect
  exact takeDate_exactly kept sound.scmdParamPos

theorem monthLength_exactly {s : Cdvd} (sound : Sound s) (rtc : RTC) :
    Exactly Sound rtc.monthLength s (1 ≤ rtc.month ∧ rtc.month ≤ 12) := by
  apply Exactly.branch
  · rintro ⟨february, -⟩
    rw [february]
    exact Exactly.always (Maintains.result _) sound (by decide)
  intro _
  have length : monthmap.length = 12 := rfl
  by_cases inside : 1 ≤ rtc.month ∧ rtc.month ≤ 12
  · have first : 1 ≤ rtc.month.toNat := inside.1
    have last : rtc.month.toNat ≤ 12 := inside.2
    exact Exactly.always (entry_maintains (by omega) (by omega)) sound inside
  · apply Exactly.wrong (entry_outside _) inside
    by_contra other
    apply inside
    constructor
    · show 1 ≤ rtc.month.toNat
      omega
    · show rtc.month.toNat ≤ 12
      omega

theorem nextSecond_exactly {s : Cdvd} (sound : Sound s) :
    Exactly Sound s.rtc.nextSecond s (s.DayEnds → 1 ≤ s.rtc.month ∧ s.rtc.month ≤ 12) := by
  apply Exactly.branch
  · intro below
    exact Exactly.always (Maintains.result _) sound fun ends => absurd ends.1 (BitVec.not_le.mpr below)
  intro minute
  apply Exactly.branch
  · intro below
    exact Exactly.always (Maintains.result _) sound fun ends => absurd ends.2.1 (BitVec.not_le.mpr below)
  intro hour
  apply Exactly.branch
  · intro below
    exact Exactly.always (Maintains.result _) sound fun ends => absurd ends.2.2 (BitVec.not_le.mpr below)
  intro day
  have ends : s.DayEnds := ⟨BitVec.not_lt.mp minute, BitVec.not_lt.mp hour, BitVec.not_lt.mp day⟩
  apply Exactly.congr _ (forall_prop_of_true ends).symm
  apply Exactly.andThen
  · exact monthLength_exactly sound _
  · exact fun length => Maintains.result _

theorem cdvdVsync_exactly (console : Console) {s : Cdvd} (sound : Sound s) (second : Bool) :
    Exactly Sound (cdvdVsync console second) s
      (second = true → s.DayEnds → 1 ≤ s.rtc.month ∧ s.rtc.month ≤ 12) := by
  apply Exactly.branch
  · intro yes
    have updated : Sound { s with drive := s.drive.updateTrayState console.toHost } := sound.same rfl
    apply Exactly.congr _ (forall_prop_of_true yes).symm
    apply Exactly.after rfl
    apply Exactly.inspect
    apply (nextSecond_exactly updated).andThen
    exact fun rtc => modify_maintains fun _ => rfl
  · exact fun no => Exactly.always (Maintains.result ()) sound fun yes => absurd yes no

/-! ## Headers -/

section

variable {s : Cdvd}

theorem passBlocks_eq (count : Nat) : ∀ ofs, passBlocks ofs count = ofs + 0x10 * count := by
  induction count with
  | zero => exact fun _ => rfl
  | succ count ih =>
      intro ofs
      rw [passBlocks, ih]
      omega

theorem mg_BIToffset_eq : mg_BIToffset s = (addName (s.word 0x18) s.nameOffset >>= fun ofs =>
    pure ((if s.word 0x18 &&& 0xF000 = 0 then ofs + 8 else ofs) + 0x20)) s := by
  have count : loadU16 .mg 0x1A s = some (s.word 0x1A, s) := loadU16_inside (i := 0x1A) (by decide)
  have flags : loadU16 .mg 0x18 s = some (s.word 0x18, s) := loadU16_inside (i := 0x18) (by decide)
  unfold mg_BIToffset
  rw [Program.andThen_some count, Program.andThen_some flags, passBlocks_eq]
  rfl

theorem mg_BIToffset_inside (inside : s.NameInside) : mg_BIToffset s = some (s.bitOffset, s) := by
  rw [mg_BIToffset_eq]
  unfold Cdvd.bitOffset addName
  by_cases named : s.HasName
  · have flagged : s.word 0x18 &&& 1 ≠ 0 := named
    rw [if_pos flagged, if_pos named, Program.andThen_some (Program.andThen_some (load_inside (inside named)))]
    rfl
  · have plain : ¬s.word 0x18 &&& 1 ≠ 0 := named
    rw [if_neg plain, if_neg named]
    rfl

theorem mg_BIToffset_outside (outside : ¬s.NameInside) : mg_BIToffset s = none := by
  obtain ⟨named, far⟩ := Classical.not_imp.mp outside
  have flagged : s.word 0x18 &&& 1 ≠ 0 := named
  have behind : (Buffer.mg.size : Int) ≤ s.nameOffset := Int.ofNat_le.mpr (Nat.le_of_not_lt far)
  rw [mg_BIToffset_eq]
  unfold addName
  rw [if_pos flagged]
  exact Program.andThen_none (Program.andThen_none (load_outside (Or.inr behind)))

theorem bitOffset_ge : 0x40 ≤ s.bitOffset := by
  unfold Cdvd.bitOffset Cdvd.nameOffset
  dsimp only
  split_ifs <;> omega

theorem wrongBlocks_exactly (sound : Sound s) (ofs : Nat) :
    Exactly Sound (wrongBlocks ofs) s (s.ZerosInside ofs) := by
  have outside {k : Nat} (no : ¬ofs + k < 65536) : load .mg (ofs + k : Nat) s = none :=
    load_outside (Or.inr (Int.ofNat_le.mpr (Nat.le_of_not_lt no)))
  have found : Maintains Sound (pure true) := Maintains.result true
  by_cases fifth : ofs + 5 < 65536
  swap
  · exact Exactly.wrong (Program.andThen_none (outside fifth)) fun zeros => fifth zeros.1
  apply Exactly.after (load_inside fifth)
  apply Exactly.branch (fun some => Exactly.always found sound ⟨fifth, fun zero => absurd zero some⟩)
  intro fifthZero
  have fifthZero := Classical.not_not.mp fifthZero
  by_cases sixth : ofs + 6 < 65536
  swap
  · exact Exactly.wrong (Program.andThen_none (outside sixth)) fun zeros => sixth (zeros.2 fifthZero).1
  apply Exactly.after (load_inside sixth)
  apply Exactly.branch (fun some => Exactly.always found sound ⟨fifth, fun _ => ⟨sixth, fun zero => absurd zero some⟩⟩)
  intro sixthZero
  have sixthZero := Classical.not_not.mp sixthZero
  by_cases seventh : ofs + 7 < 65536
  swap
  · exact Exactly.wrong (Program.andThen_none (outside seventh)) fun zeros => seventh ((zeros.2 fifthZero).2 sixthZero)
  apply Exactly.always _ sound ⟨fifth, fun _ => ⟨sixth, fun _ => seventh⟩⟩
  have inside {k n : Nat} (le : k + n ≤ 8) : Buffer.mg.Has (ofs + k : Nat) n := by
    constructor
    · omega
    · show ((ofs + k : Nat) : Int) + n ≤ 65536
      omega
  apply (load_maintains (inside (by decide))).andThen
  intro byte
  apply Maintains.branch (fun _ => found)
  intro _
  apply (loadU16_maintains (inside (by decide))).andThen
  intro blocks
  apply (loadU16_maintains (by decide)).andThen
  exact fun length => Maintains.result _

theorem readKeys_exactly (sound : Sound s) {ofs : Nat} (ge : 0x20 ≤ ofs) (le : ofs ≤ 65536) :
    Exactly Sound (readKeys ofs) s (s.ZerosInside ofs) := by
  have inside {k : Nat} (before : k ≤ 0x20) (room : 0x10 ≤ k) : Buffer.mg.Has (ofs - k : Nat) 0x10 := by
    constructor
    · omega
    · show ((ofs - k : Nat) : Int) + (0x10 : Nat) ≤ 65536
      omega
  have kbit := inside (le_refl 0x20) (by decide)
  have kcon := inside (by decide) (le_refl 0x10)
  let kept : Cdvd := { s with
    mg_kbit := s.block .mg ((ofs - 0x20 : Nat) : Int).toNat 0x10
    mg_kcon := s.block .mg ((ofs - 0x10 : Nat) : Int).toNat 0x10 }
  have keys : Sound kept := sound.same rfl
  have checked : Exactly Sound (wrongBlocks ofs) kept (s.ZerosInside ofs) := wrongBlocks_exactly keys ofs
  refine Exactly.after (loadBlock_inside kbit) (Exactly.after (loadBlock_inside kcon) (Exactly.after (t := kept) rfl ?_))
  apply checked.andThen
  intro wrong
  exact Maintains.branch (fun _ => fail_pol_cal_maintains) fun _ => store_maintains (by decide) _

theorem readHeader_exactly (sound : Sound s) : Exactly Sound readHeader s s.HeaderInside := by
  by_cases inside : s.NameInside
  · apply Exactly.after (mg_BIToffset_inside inside)
    have ge := bitOffset_ge (s := s)
    apply Exactly.branch
    · intro refused
      have far : ¬s.bitOffset ≤ 65536 := by omega
      exact Exactly.always fail_pol_cal_maintains sound ⟨inside, fun le => absurd le far⟩
    · intro accepted
      have le : s.bitOffset ≤ 65536 := by omega
      apply (readKeys_exactly sound (by omega) le).congr
      exact ⟨fun zeros => ⟨inside, fun _ => zeros⟩, fun header => header.2 le⟩
  · exact Exactly.wrong (Program.andThen_none (mg_BIToffset_outside inside)) fun header => inside header.1

theorem checkHeader_exactly (sound : Sound s) :
    Exactly Sound checkHeader s (s.HeaderWritten → s.HeaderInside) := by
  apply Exactly.inspect
  apply Exactly.branch
  swap
  · intro data
    exact Exactly.always (store_maintains (by decide) _) sound fun written => absurd written.1 data
  intro header
  apply Exactly.after (loadU16_inside (by decide : 0x14 + 1 < 65536))
  apply Exactly.branch
  · rintro different
    apply Exactly.always fail_pol_cal_maintains sound
    rintro ⟨-, whole, long, length⟩
    rcases different with other | short | other
    · exact absurd whole other
    · exact absurd short (Int.not_lt.mpr long)
    · exact absurd length other
  · intro same
    simp only [not_or, Classical.not_not, Int.not_lt] at same
    have written : s.HeaderWritten := ⟨header, same⟩
    apply Exactly.congr _ (forall_prop_of_true written).symm
    exact Exactly.after (loadBlock_inside (by decide)) (readHeader_exactly sound)

theorem mechaconAuth_exactly (sound : Sound s) : Exactly Sound mechaconAuth s (s.HeaderWritten → s.HeaderInside) :=
  Exactly.after (setSCMDResultSize_eq (by decide)) (checkHeader_exactly (sound.sized (by decide : 1 ≤ 16)))

theorem checkBlocks_maintains (ofs : Nat) : Maintains Sound (checkBlocks ofs) := by
  apply Maintains.branch (fun _ => fail_pol_cal_maintains)
  intro near
  have count : Buffer.mg.Has (ofs + 4 : Nat) 1 := by
    constructor
    · omega
    · show ((ofs + 4 : Nat) : Int) + (1 : Nat) ≤ 65536
      omega
  apply (load_maintains count).andThen
  intro blocks
  apply Maintains.branch (fun _ => fail_pol_cal_maintains)
  intro fits
  have few := blocks.isLt
  have read : Buffer.mg.Has ofs (8 + 16 * blocks.toNat) := by
    constructor
    · omega
    · show (ofs : Int) + (8 + 16 * blocks.toNat : Nat) ≤ 65536
      omega
  have write : Buffer.mg.Has 0 (8 + 16 * blocks.toNat) := by
    constructor
    · decide
    · show (0 : Int) + (8 + 16 * blocks.toNat : Nat) ≤ 65536
      omega
  apply (copyBlock_maintains read write).andThen
  intro _
  apply (load_maintains (by decide)).andThen
  intro moved
  have some := moved.isLt
  have size : (0 : Int) ≤ (8 + 16 * moved.toNat : Nat) ∧ ((8 + 16 * moved.toNat : Nat) : Int) ≤ 65536 := by omega
  have maxsize : (0 : Int) ≤ 65535 := by decide
  apply Maintains.andThen
  · apply Maintains.update
    exact fun t sound => { sound with mg_size := size, mg_maxsize := maxsize }
  · intro _
    apply Maintains.inspect
    exact fun t _ => storeBlock_maintains (by decide : Buffer.scmdResult.Has 0 3)

theorem sceMgReadBITLength_exactly (sound : Sound s) : Exactly Sound sceMgReadBITLength s s.NameInside := by
  have sized := sound.sized (by decide : 3 ≤ 16)
  apply Exactly.after (setSCMDResultSize_eq (by decide))
  by_cases inside : s.NameInside
  · exact Exactly.after (mg_BIToffset_inside (s := s.sized 3) inside)
      (Exactly.always (checkBlocks_maintains _) sized inside)
  · exact Exactly.wrong (Program.andThen_none (mg_BIToffset_outside inside)) inside

end

/-! ## Every action -/

theorem cdvdWrite16_exactly (console : Console) {s : Cdvd} (sound : Sound s) (rt : Byte) :
    Exactly Sound (cdvdWrite16 console rt) s (s.CommandFits rt) := by
  let issued : Cdvd := { s with sCommand := rt }.write .scmdResult 0 (List.replicate 16 0)
  have kept : Sound issued := sound.same rfl
  apply Exactly.after rfl
  apply Exactly.after (t := issued) rfl
  apply Exactly.andThen _ fun _ => clearSCMDParam_maintains
  show Exactly Sound (sCommand console rt) issued (s.CommandFits rt)
  unfold sCommand Cdvd.CommandFits
  split_ifs with clock header length
  · exact sceCdWriteRTC_exactly kept
  · exact mechaconAuth_exactly kept
  · exact sceMgReadBITLength_exactly kept
  · apply Exactly.always _ kept trivial
    cases found : fixedAnswers.lookup rt with
    | some result => exact fixedAnswers_maintain (rt, result) (lookup_mem found)
    | none => exact table_maintains (sCommands_maintain console) (answer_maintains (by decide)) rt

theorem position_next {pos cnt : Nat} (le : pos ≤ 16) (same : cnt = pos) {buffer : Buffer} (size : buffer.size = 16) :
    buffer.Has ((if 16 ≤ pos then 0 else pos : Nat) : Int) 1 ∧ (if 16 ≤ pos then 0 else pos) + 1 ≤ 16 ∧
      (if 16 ≤ pos then 0 else cnt) + 1 = (if 16 ≤ pos then 0 else pos) + 1 := by
  unfold Buffer.Has
  rw [size]
  split_ifs <;> omega

theorem cdvdWrite05_maintains (rt : Byte) : Maintains Sound (cdvdWrite05 rt) := by
  apply Maintains.inspect
  intro s sound
  obtain ⟨inside, le, same⟩ := position_next sound.ncmdParamPos sound.ncmdParamCnt (rfl : Buffer.ncmdParam.size = 16)
  apply (store_maintains inside rt).andThen
  intro _
  apply Maintains.update
  exact fun t kept => { kept with ncmdParamPos := le, ncmdParamCnt := same }

theorem cdvdWrite17_maintains (rt : Byte) : Maintains Sound (cdvdWrite17 rt) := by
  apply Maintains.inspect
  intro s sound
  obtain ⟨inside, le, same⟩ := position_next sound.scmdParamPos sound.scmdParamCnt (rfl : Buffer.scmdParam.size = 16)
  apply (store_maintains inside rt).andThen
  intro _
  apply Maintains.update
  exact fun t kept => { kept with scmdParamPos := le, scmdParamCnt := same }

theorem cdvdRead_maintains (console : Console) (key : Byte) : Maintains Sound (cdvdRead console key) := by
  apply Maintains.branch
  · intro _
    apply Maintains.inspect
    intro s _
    exact (onDrive_maintains _).andThen fun _ => Maintains.result _
  intro _
  apply Maintains.branch
  · intro _
    apply Maintains.inspect
    intro s sound
    apply Maintains.branch
    · rintro ⟨-, more⟩
      have le := sound.scmdResultCnt
      have inside : Buffer.scmdResult.Has s.scmdResultPos 1 := by
        constructor
        · omega
        · show (s.scmdResultPos : Int) + (1 : Nat) ≤ 16
          omega
      apply modify_andThen
      · exact fun _ => rfl
      · exact load_maintains inside
    · exact fun _ => Maintains.result 0
  · intro _
    apply Maintains.inspect
    exact fun s _ => Maintains.result _

theorem cdvdWrite_exactly (console : Console) {s : Cdvd} (sound : Sound s) (key rt : Byte) (speed_change : Bool) :
    Exactly Sound (cdvdWrite console key rt speed_change) s (s.WriteFits key rt) := by
  by_cases nCommand : key = 0x04
  · subst nCommand
    exact cdvdWrite04_exactly console sound rt speed_change
  by_cases sCommand : key = 0x16
  · subst sCommand
    exact cdvdWrite16_exactly console sound rt
  have fits : s.WriteFits key rt := by
    unfold Cdvd.WriteFits
    rw [if_neg nCommand, if_neg sCommand]
    trivial
  have howTo : Maintains Sound (modify fun s => { s with howTo := rt }) := modify_maintains fun _ => rfl
  have decSet : Maintains Sound (modify fun s => { s with decSet := rt }) := modify_maintains fun _ => rfl
  apply Exactly.always _ sound fits
  apply Maintains.branch (fun yes => absurd yes nCommand)
  intro _
  apply Maintains.branch (fun _ => cdvdWrite05_maintains rt)
  intro _
  apply Maintains.branch (fun _ => howTo)
  intro _
  apply Maintains.branch (fun _ => onDrive_maintains _)
  intro _
  apply Maintains.branch (fun _ => onDrive_maintains _)
  intro _
  apply Maintains.branch (fun yes => absurd yes sCommand)
  intro _
  apply Maintains.branch (fun _ => cdvdWrite17_maintains rt)
  intro _
  apply Maintains.branch (fun _ => decSet)
  exact fun _ => Maintains.result ()

theorem act_exactly (console : Console) {s : Cdvd} (sound : Sound s) (action : Action) :
    Exactly Sound (act console action) s (s.Fits action) := by
  cases action with
  | write key rt speed_change => exact cdvdWrite_exactly console sound key rt speed_change
  | read key =>
      apply Exactly.always _ sound trivial
      exact (cdvdRead_maintains console key).andThen fun _ => Maintains.result ()
  | vsync second => exact cdvdVsync_exactly console sound second
  | interrupt drive =>
      apply Exactly.always _ sound trivial
      exact onDrive_maintains fun _ => drive

/-! ## Runs -/

section

variable {console : Console} {nvram : Nat → Byte} {rtc : RTC} {t : Cdvd}

theorem cdvdReset_sound : Sound (cdvdReset console nvram rtc) := by
  have size : (0 : Int) ≤ 0 ∧ (0 : Int) ≤ 65536 := by decide
  have maxsize : (0 : Int) ≤ 65535 := by decide
  exact ⟨Nat.zero_le _, rfl, Nat.zero_le _, rfl, Nat.zero_le _, size, maxsize⟩

theorem run_sound (run : Run (Steps console) (cdvdReset console nvram rtc) t) : Sound t := by
  apply run.invariant cdvdReset_sound
  rintro s t sound ⟨action, acted⟩
  exact (act_exactly console sound action).keeps acted

/-- In every run the buffers and tables are left exactly by an action whose condition fails. -/
theorem commands_inside (run : Run (Steps console) (cdvdReset console nvram rtc) t) :
    (0 ≤ t.mg_size ∧ t.mg_size ≤ 65536) ∧
      ∀ action, (∃ u, act console action t = some ((), u)) ↔ t.Fits action := by
  have sound := run_sound run
  refine ⟨sound.mg_size, fun action => ?_⟩
  rw [← (act_exactly console sound action).iff]
  constructor
  · rintro ⟨u, acted⟩
    exact ⟨(), u, acted⟩
  · rintro ⟨_, u, acted⟩
    exact ⟨u, acted⟩

end

/-! ## A clock command without parameters -/

def bare : Console where
  sourceType := .noDisc
  isFastBootInProgress := false
  detectDiskType := 0
  trackEnd := 0
  dualInfo := (0, 0)
  readTrack _ _ := 0
  getBuffer _ _ := (0, [])
  biosVersion := 0x146
  mechaVersion := 0x00020603
  fastBooted := false
  discSerial _ := 0
  readSubQ _ := (0, .replicate 10 0)
  readKey _ _ _ := .replicate 16 0

def started : Cdvd := cdvdReset bare (fun _ => 0) {}

/-- The date is looked for before the first parameter. -/
theorem clock_outside :
    ¬∀ (console : Console) (nvram : Nat → Byte) (rtc : RTC) (t : Cdvd),
      Run (Steps console) (cdvdReset console nvram rtc) t →
      (0 ≤ t.mg_size ∧ t.mg_size ≤ 65536) ∧ ∀ action, ∃ u, act console action t = some ((), u) := by
  intro inside
  obtain ⟨u, acted⟩ := (inside bare (fun _ => 0) {} started .refl).2 (.write 0x16 0x09 false)
  have short : ¬started.Fits (.write 0x16 0x09 false) := by
    intro fits
    have enough : 7 ≤ 0 := fits
    omega
  have wrong := (act_exactly bare cdvdReset_sound (.write 0x16 0x09 false)).2 short
  exact absurd (acted.symm.trans wrong) (by simp)

theorem commands_inside_parameter :
    ∃ t, Run (Steps bare) started t ∧ t.scmdParamPos = 1 ∧ (0 ≤ t.mg_size ∧ t.mg_size ≤ 65536) ∧
      ∀ action, (∃ u, act bare action t = some ((), u)) ↔ t.Fits action := by
  have run : Run (Steps bare) started { started.write .scmdParam 0 [0x12] with scmdParamPos := 1, scmdParamCnt := 1 } :=
    Run.single ⟨.write 0x17 0x12 false, rfl⟩
  exact ⟨_, run, rfl, commands_inside run⟩

end Pcsx2.Mechacon
