import Pcsx2.Mechacon.Registers

/-!
# Commands that stay inside

The commands that read and write inside the buffers in every state with sound positions.
-/

namespace Pcsx2.Mechacon
open Foundation

structure Sound (s : Cdvd) : Prop where
  ncmdParamPos : s.ncmdParamPos ≤ 16
  ncmdParamCnt : s.ncmdParamCnt = s.ncmdParamPos
  scmdParamPos : s.scmdParamPos ≤ 16
  scmdParamCnt : s.scmdParamCnt = s.scmdParamPos
  scmdResultCnt : s.scmdResultCnt ≤ 16
  mg_size : 0 ≤ s.mg_size ∧ s.mg_size ≤ 65536
  mg_maxsize : s.mg_maxsize ≤ 65535

def Cdvd.positions (s : Cdvd) : (Nat × Nat) × (Nat × Nat) × Nat × Int × Int :=
  ((s.ncmdParamPos, s.ncmdParamCnt), (s.scmdParamPos, s.scmdParamCnt), s.scmdResultCnt, s.mg_size, s.mg_maxsize)

theorem Sound.same {s t : Cdvd} (sound : Sound s) (same : t.positions = s.positions) : Sound t := by
  simp only [Cdvd.positions, Prod.mk.injEq] at same
  obtain ⟨⟨ncmdPos, ncmdCnt⟩, ⟨scmdPos, scmdCnt⟩, resultCnt, size, maxsize⟩ := same
  constructor
  · exact ncmdPos ▸ sound.ncmdParamPos
  · rw [ncmdCnt, ncmdPos]
    exact sound.ncmdParamCnt
  · exact scmdPos ▸ sound.scmdParamPos
  · rw [scmdCnt, scmdPos]
    exact sound.scmdParamCnt
  · exact resultCnt ▸ sound.scmdResultCnt
  · exact size ▸ sound.mg_size
  · exact maxsize ▸ sound.mg_maxsize

/-! ## Accesses -/

section

variable {buffer : Buffer} {i : Int}

theorem modify_maintains {f : Cdvd → Cdvd} (same : ∀ s, (f s).positions = s.positions) :
    Maintains Sound (modify f) :=
  Maintains.update fun s sound => sound.same (same s)

theorem modify_andThen {α : Type} {f : Cdvd → Cdvd} {next : Unit → Program Cdvd α}
    (same : ∀ s, (f s).positions = s.positions) (rest : Maintains Sound (next ())) :
    Maintains Sound (modify f >>= next) :=
  (modify_maintains same).andThen fun _ => rest

theorem onDrive_maintains (f : Drive → Drive) : Maintains Sound (onDrive f) := modify_maintains fun _ => rfl

theorem load_maintains (has : buffer.Has i 1) : Maintains Sound (load buffer i) := by
  intro s sound
  exact ⟨_, s, if_pos has, sound⟩

theorem loadBlock_length {n : Nat} (has : buffer.Has i n) :
    Triple Sound (loadBlock buffer i n) fun bytes s => bytes.length = n ∧ Sound s := by
  intro s sound
  refine ⟨_, s, if_pos has, ?_, sound⟩
  unfold Cdvd.block
  rw [List.length_map, List.length_range]

theorem loadBlock_maintains {n : Nat} (has : buffer.Has i n) : Maintains Sound (loadBlock buffer i n) :=
  (loadBlock_length has).weaken (fun _ sound => sound) fun _ _ read => read.2

theorem storeBlock_maintains {bytes : List Byte} (has : buffer.Has i bytes.length) :
    Maintains Sound (storeBlock buffer i bytes) := by
  intro s sound
  exact ⟨(), _, if_pos has, sound.same rfl⟩

theorem store_maintains (has : buffer.Has i 1) (byte : Byte) : Maintains Sound (store buffer i byte) :=
  storeBlock_maintains has

theorem Buffer.Has.part {n m k : Nat} (has : buffer.Has i n) (inside : k + m ≤ n) : buffer.Has (i + k) m := by
  obtain ⟨first, last⟩ := has
  constructor <;> omega

theorem loadU16_maintains (has : buffer.Has i 2) : Maintains Sound (loadU16 buffer i) := by
  have low : buffer.Has (i + (0 : Nat)) 1 := has.part (by decide)
  have high : buffer.Has (i + (1 : Nat)) 1 := has.part (by decide)
  rw [Nat.cast_zero, Int.add_zero] at low
  apply (load_maintains low).andThen
  intro _
  apply (load_maintains high).andThen
  intro _
  exact Maintains.result _

theorem loadU32_maintains (has : buffer.Has i 4) : Maintains Sound (loadU32 buffer i) := by
  have low : buffer.Has (i + (0 : Nat)) 2 := has.part (by decide)
  have high : buffer.Has (i + (2 : Nat)) 2 := has.part (by decide)
  rw [Nat.cast_zero, Int.add_zero] at low
  apply (loadU16_maintains low).andThen
  intro _
  apply (loadU16_maintains high).andThen
  intro _
  exact Maintains.result _

theorem copyBlock_maintains {src : Buffer} {offset : Int} {n : Nat} (read : src.Has offset n) (write : buffer.Has i n) :
    Maintains Sound (copyBlock buffer i src offset n) := by
  apply (loadBlock_length read).andThen
  intro bytes
  apply Triple.given
  rintro rfl
  exact storeBlock_maintains write

end

/-! ## Results -/

theorem setSCMDResultSize_maintains {size : Nat} (le : size ≤ 16) : Maintains Sound (setSCMDResultSize size) := by
  have sized (s : Cdvd) (sound : Sound s) : Sound { s with
      scmdResultCnt := size, scmdResultPos := 0, sDataIn := s.sDataIn &&& ~~~0x40 } :=
    { sound with scmdResultCnt := le }
  apply (Maintains.update sized).andThen
  intro _
  apply storeBlock_maintains
  rw [List.length_replicate]
  constructor
  · decide
  · show (0 : Int) + size ≤ 16
    omega

theorem answer_maintains {result : List Byte} (le : result.length ≤ 16) : Maintains Sound (answer result) := by
  apply (setSCMDResultSize_maintains le).andThen
  intro _
  apply storeBlock_maintains
  constructor
  · decide
  · show (0 : Int) + result.length ≤ 16
    omega

/-! ## NVRAM -/

theorem available_le (offset bytes : Nat) : available offset bytes ≤ bytes ∧
    (0 < available offset bytes → offset + available offset bytes ≤ NVRAM_SIZE) := by
  unfold available
  split_ifs <;> omega

theorem nvram_has {offset bytes : Nat} (some : 0 < available offset bytes) :
    Buffer.nvram.Has offset (available offset bytes) := by
  have inside := (available_le offset bytes).2 some
  constructor
  · omega
  · show (offset : Int) + available offset bytes ≤ NVRAM_SIZE
    omega

theorem cdvdReadNVM_maintains {dst bytes : Nat} (fits : dst + bytes ≤ 16) (offset : Nat) :
    Maintains Sound (cdvdReadNVM dst offset bytes) := by
  have le := (available_le offset bytes).1
  have missing : Maintains Sound (clearMissing dst offset bytes) := by
    apply Maintains.branch
    · intro _
      apply storeBlock_maintains
      rw [List.length_replicate]
      constructor
      · omega
      · show ((dst + available offset bytes : Nat) : Int) + (bytes - available offset bytes : Nat) ≤ 16
        omega
    · exact fun _ => Maintains.result ()
  apply missing.andThen
  intro _
  apply Maintains.branch
  · intro some
    apply copyBlock_maintains (nvram_has some)
    constructor
    · omega
    · show (dst : Int) + available offset bytes ≤ 16
      omega
  · exact fun _ => Maintains.result ()

theorem cdvdWriteNVM_maintains {src bytes : Nat} (fits : src + bytes ≤ 16) (offset : Nat) :
    Maintains Sound (cdvdWriteNVM src offset bytes) := by
  have le := (available_le offset bytes).1
  apply Maintains.branch
  · intro some
    apply copyBlock_maintains _ (nvram_has some)
    constructor
    · omega
    · show (src : Int) + available offset bytes ≤ 16
      omega
  · exact fun _ => Maintains.result ()

variable (console : Console)

theorem setInitialized_maintains (s : Cdvd) : Maintains Sound (setInitialized console s) := by
  apply Maintains.branch
  · intro _
    apply (load_maintains (by decide)).andThen
    intro flags
    exact store_maintains (by decide) _
  · exact fun _ => Maintains.result ()

theorem nextBlock_maintains : Maintains Sound nextBlock := modify_maintains fun _ => rfl

theorem cdvdReadConfig_maintains : Maintains Sound (cdvdReadConfig console) := by
  apply Maintains.inspect
  intro s _
  apply Maintains.branch
  · intro _
    apply (store_maintains (by decide) _).andThen
    intro _
    exact storeBlock_maintains (by decide)
  intro _
  apply Maintains.branch (fun _ => Maintains.result ())
  intro _
  apply Maintains.branch
  · exact fun _ => storeBlock_maintains (by decide)
  · intro _
    apply (cdvdReadNVM_maintains (by decide) _).andThen
    intro _
    apply (setInitialized_maintains console s).andThen
    exact fun _ => nextBlock_maintains

theorem cdvdWriteConfig_maintains : Maintains Sound (cdvdWriteConfig console) := by
  apply Maintains.inspect
  intro s _
  apply Maintains.branch (fun _ => Maintains.result ())
  intro _
  apply Maintains.branch (fun _ => Maintains.result ())
  intro _
  apply (cdvdWriteNVM_maintains (by decide) _).andThen
  exact fun _ => nextBlock_maintains

/-! ## S-commands -/

theorem sized_maintains {size : Nat} (le : size ≤ 16) {command : Program Cdvd Unit}
    (maintains : Maintains Sound command) : Maintains Sound (setSCMDResultSize size >>= fun _ => command) :=
  (setSCMDResultSize_maintains le).andThen fun _ => maintains

theorem param_maintains {i : Int} (has : Buffer.scmdParam.Has i 1) : Maintains Sound (param i) := load_maintains has

theorem cdReadSubQ_maintains : Maintains Sound (cdReadSubQ console) := by
  apply sized_maintains (by decide)
  apply Maintains.inspect
  intro s _
  apply (storeBlock_maintains _).andThen
  · exact fun _ => store_maintains (by decide) _
  · rw [Vector.length_toList]
    decide

theorem mecaconCommand_maintains : Maintains Sound (mecaconCommand console) := by
  apply (param_maintains (by decide)).andThen
  intro sub
  have version : Maintains Sound (storeBlock .scmdResult 0 (bytesOf console.mechaVersion)) :=
    storeBlock_maintains (by decide : Buffer.scmdResult.Has 0 4)
  apply Maintains.branch (fun _ => sized_maintains (by decide) version)
  intro _
  apply Maintains.branch
  · intro _
    apply Maintains.inspect
    intro s _
    exact answer_maintains (show 2 ≤ 16 by decide)
  intro _
  apply Maintains.branch (fun _ => sized_maintains (by decide) (cdvdWriteNVM_maintains (by decide) _))
  intro _
  apply Maintains.branch (fun _ => sized_maintains (by decide) (cdvdReadNVM_maintains (by decide) _))
  intro _
  apply Maintains.branch (fun _ => answer_maintains (by decide))
  intro _
  apply Maintains.branch (fun _ => answer_maintains (by decide))
  exact fun _ => answer_maintains (by decide)

theorem cdTrayReqState_maintains : Maintains Sound cdTrayReqState :=
  (onDrive_maintains _).andThen fun _ => answer_maintains (by decide)

theorem cdTrayCtrl_maintains : Maintains Sound (cdTrayCtrl console) := by
  apply sized_maintains (by decide)
  apply (param_maintains (by decide)).andThen
  intro close
  apply Maintains.inspect
  intro s _
  apply (onDrive_maintains _).andThen
  exact fun _ => store_maintains (by decide) _

theorem cdReadRTC_maintains : Maintains Sound cdReadRTC :=
  Maintains.inspect fun _ _ => answer_maintains (show 8 ≤ 16 by decide)

theorem nvramAddress_maintains : Maintains Sound nvramAddress := by
  apply (param_maintains (by decide)).andThen
  intro high
  apply (param_maintains (by decide)).andThen
  exact fun low => Maintains.result _

theorem swapBytes_maintains {buffer : Buffer} {i : Nat} (has : buffer.Has i 2) :
    Maintains Sound (swapBytes buffer i) := by
  have first : buffer.Has i 1 := (has.part (by decide : 0 + 1 ≤ 2))
  apply (load_maintains first).andThen
  intro _
  apply (load_maintains (has.part (by decide : 1 + 1 ≤ 2))).andThen
  exact fun _ => storeBlock_maintains has

theorem sceCdReadNVM_maintains : Maintains Sound sceCdReadNVM := by
  apply nvramAddress_maintains.andThen
  intro address
  apply Maintains.branch
  · intro _
    apply sized_maintains (by decide)
    apply (cdvdReadNVM_maintains (by decide) _).andThen
    exact fun _ => swapBytes_maintains (by decide)
  · exact fun _ => answer_maintains (by decide)

theorem sceCdWriteNVM_maintains : Maintains Sound sceCdWriteNVM := by
  apply sized_maintains (by decide)
  apply nvramAddress_maintains.andThen
  intro address
  apply Maintains.branch
  · intro _
    apply (swapBytes_maintains (by decide)).andThen
    exact fun _ => cdvdWriteNVM_maintains (by decide) _
  · exact fun _ => store_maintains (by decide) _

theorem sceCdReadILinkId_maintains : Maintains Sound (sceCdReadILinkId console) := by
  apply sized_maintains (by decide)
  apply (cdvdReadNVM_maintains (by decide) _).andThen
  intro _
  apply (load_maintains (by decide)).andThen
  intro third
  apply (load_maintains (by decide)).andThen
  intro fourth
  apply Maintains.branch
  · exact fun _ => storeBlock_maintains (by decide)
  · exact fun _ => Maintains.result ()

theorem cdReadModelNumber_maintains : Maintains Sound (cdReadModelNumber console) := by
  apply sized_maintains (by decide)
  apply (param_maintains (by decide)).andThen
  exact fun part => cdvdReadNVM_maintains (by decide) _

theorem cdWriteModelNumber_maintains : Maintains Sound (cdWriteModelNumber console) := by
  apply sized_maintains (by decide)
  apply (param_maintains (by decide)).andThen
  exact fun part => cdvdWriteNVM_maintains (by decide) _

theorem getPS1BootParam_maintains : Maintains Sound (getPS1BootParam console) :=
  answer_maintains (show 13 ≤ 16 by decide)

theorem sceCdReadRegionParams_maintains : Maintains Sound (sceCdReadRegionParams console) := by
  have version : Maintains Sound (storeBlock .scmdResult 1 (bytesOf console.mechaVersion)) :=
    storeBlock_maintains (by decide : Buffer.scmdResult.Has 1 4)
  apply sized_maintains (by decide)
  apply version.andThen
  intro _
  apply (cdvdReadNVM_maintains (by decide) _).andThen
  intro _
  apply (load_maintains (by decide)).andThen
  intro zone
  apply (storeBlock_maintains (by decide : Buffer.scmdResult.Has 1 2)).andThen
  exact fun _ => storeBlock_maintains (by decide)

theorem cdOpenConfig_maintains : Maintains Sound cdOpenConfig := by
  apply sized_maintains (by decide)
  apply (param_maintains (by decide)).andThen
  intro cReadWrite
  apply (param_maintains (by decide)).andThen
  intro cOffset
  apply (param_maintains (by decide)).andThen
  intro cNumBlocks
  apply modify_andThen
  · exact fun _ => rfl
  · exact store_maintains (by decide) _

theorem cdCloseConfig_maintains : Maintains Sound cdCloseConfig := by
  apply modify_andThen
  · exact fun _ => rfl
  · exact answer_maintains (by decide)

/-! ## Encrypted data -/

theorem mechaconAuthStart_maintains : Maintains Sound mechaconAuthStart := by
  apply modify_andThen
  · exact fun _ => rfl
  · exact answer_maintains (by decide)

theorem fail_pol_cal_maintains : Maintains Sound fail_pol_cal := store_maintains (by decide) _

theorem word_le (low high : Byte) : low.toNat + high.toNat * 256 ≤ 65535 := by
  have := low.isLt
  have := high.isLt
  omega

theorem sceMgWriteData_maintains : Maintains Sound sceMgWriteData := by
  apply sized_maintains (by decide)
  apply Maintains.inspect
  intro s sound
  have positive := sound.mg_size.1
  have limit := sound.mg_maxsize
  have counted : s.scmdParamCnt ≤ 16 := sound.scmdParamCnt ▸ sound.scmdParamPos
  apply Maintains.branch
  · exact fun _ => store_maintains (by decide) _
  intro fits
  have read : Buffer.scmdParam.Has 0 s.scmdParamCnt := by
    constructor
    · decide
    · show (0 : Int) + s.scmdParamCnt ≤ 16
      omega
  have write : Buffer.mg.Has s.mg_size s.scmdParamCnt := by
    constructor
    · exact positive
    · show s.mg_size + s.scmdParamCnt ≤ 65536
      omega
  have size : 0 ≤ s.mg_size + s.scmdParamCnt ∧ s.mg_size + s.scmdParamCnt ≤ 65536 := by omega
  apply (copyBlock_maintains read write).andThen
  intro _
  apply Maintains.andThen
  · apply Maintains.update
    exact fun t kept => { kept with mg_size := size }
  · exact fun _ => store_maintains (by decide) _

theorem sceMgReadData_maintains : Maintains Sound sceMgReadData := by
  apply Maintains.inspect
  intro s sound
  have bounds := sound.mg_size
  generalize count : (min 16 s.mg_size).toNat = n
  have small : n ≤ 16 ∧ n ≤ s.mg_size := by omega
  apply (setSCMDResultSize_maintains small.1).andThen
  intro _
  have answered : Buffer.scmdResult.Has 0 n := by
    constructor
    · decide
    · show (0 : Int) + n ≤ 16
      omega
  have first : Buffer.mg.Has 0 n := by
    constructor
    · decide
    · show (0 : Int) + n ≤ 65536
      omega
  have rest : Buffer.mg.Has n (s.mg_size - n).toNat ∧ Buffer.mg.Has 0 (s.mg_size - n).toNat := by
    refine ⟨⟨?_, ?_⟩, ⟨?_, ?_⟩⟩
    · omega
    · show (n : Int) + (s.mg_size - n).toNat ≤ 65536
      omega
    · decide
    · show (0 : Int) + (s.mg_size - n).toNat ≤ 65536
      omega
  have size : 0 ≤ s.mg_size - n ∧ s.mg_size - n ≤ 65536 := by omega
  apply (copyBlock_maintains first answered).andThen
  intro _
  apply Maintains.andThen
  · apply Maintains.update
    exact fun t kept => { kept with mg_size := size }
  · exact fun _ => copyBlock_maintains rest.1 rest.2

theorem restart_maintains (low high : Byte) (mg_datatype : Int) : Maintains Sound (do
    modify fun s => { s with mg_size := 0, mg_datatype, mg_maxsize := (low.toNat + high.toNat * 256 : Nat) }
    store .scmdResult 0 0) := by
  have size : (0 : Int) ≤ 0 ∧ (0 : Int) ≤ 65536 := by decide
  have maxsize : ((low.toNat + high.toNat * 256 : Nat) : Int) ≤ 65535 := Int.ofNat_le.mpr (word_le low high)
  apply Maintains.andThen
  · apply Maintains.update
    exact fun s sound => { sound with mg_size := size, mg_maxsize := maxsize }
  · exact fun _ => store_maintains (by decide) _

theorem sceMgWriteHeaderStart_maintains : Maintains Sound sceMgWriteHeaderStart := by
  apply sized_maintains (by decide)
  apply (param_maintains (by decide)).andThen
  intro low
  apply (param_maintains (by decide)).andThen
  intro high
  apply (loadBlock_maintains (by decide)).andThen
  exact fun _ => restart_maintains low high 1

theorem sceMgWriteDatainLength_maintains : Maintains Sound sceMgWriteDatainLength := by
  apply sized_maintains (by decide)
  apply (param_maintains (by decide)).andThen
  intro low
  apply (param_maintains (by decide)).andThen
  exact fun high => restart_maintains low high 0

theorem sceMgWriteDataoutLength_maintains : Maintains Sound sceMgWriteDataoutLength := by
  apply sized_maintains (by decide)
  apply (param_maintains (by decide)).andThen
  intro low
  apply (param_maintains (by decide)).andThen
  intro high
  apply Maintains.inspect
  intro s _
  apply Maintains.branch
  · intro _
    have maxsize : (0 : Int) ≤ 65535 := by decide
    apply Maintains.andThen
    · apply Maintains.update
      exact fun t sound => { sound with mg_maxsize := maxsize }
    · exact fun _ => store_maintains (by decide) _
  · exact fun _ => store_maintains (by decide) _

theorem sceMgReadKey_maintains (half : Cdvd → List Byte) : Maintains Sound (sceMgReadKey half) := by
  apply sized_maintains (by decide)
  apply Maintains.inspect
  intro s _
  have short := List.length_take_le 8 (half s)
  apply storeBlock_maintains
  constructor
  · decide
  · show (1 : Int) + ((half s).take 8).length ≤ 16
    omega

/-! ## N-commands -/

theorem clearNCMDParam_maintains : Maintains Sound clearNCMDParam := by
  apply Maintains.update
  exact fun s sound => { sound with ncmdParamPos := Nat.zero_le _, ncmdParamCnt := rfl }

theorem clearSCMDParam_maintains : Maintains Sound clearSCMDParam := by
  apply Maintains.update
  exact fun s sound => { sound with scmdParamPos := Nat.zero_le _, scmdParamCnt := rfl }

theorem refused_maintains (error : Byte) : Maintains Sound (refused error) :=
  (onDrive_maintains _).andThen fun _ => Maintains.result _

theorem cdReset_maintains : Maintains Sound cdReset := by
  apply clearSCMDParam_maintains.andThen
  intro _
  apply (onDrive_maintains _).andThen
  intro _
  apply (storeBlock_maintains (by decide)).andThen
  exact fun _ => onDrive_maintains _

theorem cdSeek_maintains : Maintains Sound cdSeek :=
  (loadU32_maintains (by decide)).andThen fun _ => onDrive_maintains _

theorem readParams_maintains : Maintains Sound readParams := by
  apply (loadU32_maintains (by decide)).andThen
  intro sector
  apply (loadU32_maintains (by decide)).andThen
  intro count
  apply (load_maintains (by decide)).andThen
  intro retries
  apply (load_maintains (by decide)).andThen
  intro spindle
  apply (load_maintains (by decide)).andThen
  exact fun mode => Maintains.result _

theorem cdRead_maintains (speed_change : Bool) : Maintains Sound (cdRead console speed_change) :=
  readParams_maintains.andThen fun _ => onDrive_maintains _

theorem cdGetToc_maintains : Maintains Sound cdGetToc := by
  apply (load_maintains (by decide)).andThen
  intro _
  apply (load_maintains (by decide)).andThen
  exact fun _ => onDrive_maintains _

theorem cdReadKey_maintains : Maintains Sound (cdReadKey console) := by
  apply (load_maintains (by decide)).andThen
  intro arg0
  apply (loadU16_maintains (by decide)).andThen
  intro arg1
  apply (loadU32_maintains (by decide)).andThen
  intro arg2
  apply modify_andThen
  · exact fun _ => rfl
  · exact onDrive_maintains _

theorem cdChgSpdlCtrl_maintains : Maintains Sound cdChgSpdlCtrl :=
  (load_maintains (by decide)).andThen fun _ => onDrive_maintains _

theorem lookup_mem {α : Type} {key : Byte} {a : α} {table : List (Byte × α)} (found : table.lookup key = some a) :
    (key, a) ∈ table := by
  induction table with
  | nil => exact absurd found (by simp)
  | cons head rest ih =>
      obtain ⟨first, b⟩ := head
      rw [List.lookup_cons] at found
      cases same : key == first with
      | true =>
          rw [same] at found
          rw [eq_of_beq same, Option.some.inj found]
          exact List.mem_cons_self
      | false =>
          rw [same] at found
          exact List.mem_cons_of_mem _ (ih found)

theorem table_maintains {table : List (Byte × Program Cdvd Unit)} {other : Program Cdvd Unit}
    (each : ∀ command ∈ table, Maintains Sound command.2) (unknown : Maintains Sound other) (key : Byte) :
    Maintains Sound ((table.lookup key).getD other) := by
  cases found : table.lookup key with
  | none => exact unknown
  | some command => exact each _ (lookup_mem found)

theorem nCommands_maintain (speed_change : Bool) :
    ∀ command ∈ nCommands console speed_change, Maintains Sound command.2 := by
  simp only [nCommands, List.forall_mem_cons]
  refine ⟨onDrive_maintains _, cdReset_maintains, onDrive_maintains _, onDrive_maintains _, onDrive_maintains _,
    cdSeek_maintains, cdRead_maintains console speed_change, cdGetToc_maintains, cdReadKey_maintains console,
    cdChgSpdlCtrl_maintains, ?_⟩
  exact fun _ none => absurd none List.not_mem_nil

theorem nCommand_maintains (rt : Byte) (speed_change : Bool) : Maintains Sound (nCommand console rt speed_change) := by
  have parameters (f : ReadParams → Drive → Drive) : Maintains Sound (do
      let p ← readParams
      onDrive (f p)
      clearNCMDParam) := by
    apply readParams_maintains.andThen
    intro p
    apply (onDrive_maintains _).andThen
    exact fun _ => clearNCMDParam_maintains
  apply Maintains.branch
  · intro _
    apply Maintains.inspect
    intro s _
    exact Maintains.branch (fun _ => onDrive_maintains _) fun _ => parameters _
  intro _
  apply Maintains.branch
  · intro _
    apply Maintains.inspect
    intro s _
    exact Maintains.branch (fun _ => onDrive_maintains _) fun _ => parameters _
  intro _
  apply (table_maintains (nCommands_maintain console speed_change) (onDrive_maintains _) rt).andThen
  exact fun _ => clearNCMDParam_maintains

/-! ## S-commands without conditions -/

theorem fixedAnswers_maintain : ∀ fixed ∈ fixedAnswers, Maintains Sound (answer fixed.2) := by
  have short : ∀ fixed ∈ fixedAnswers, fixed.2.length ≤ 16 := by decide
  exact fun fixed member => answer_maintains (short fixed member)

theorem sCommands_maintain : ∀ command ∈ sCommands console, Maintains Sound command.2 := by
  simp only [sCommands, List.forall_mem_cons]
  refine ⟨cdReadSubQ_maintains console, mecaconCommand_maintains console, cdTrayReqState_maintains,
    cdTrayCtrl_maintains console, cdReadRTC_maintains, sceCdReadNVM_maintains, sceCdWriteNVM_maintains,
    Maintains.result (), sceCdReadILinkId_maintains console,
    sized_maintains (by decide) (cdvdWriteNVM_maintains (by decide) _), cdReadModelNumber_maintains console,
    cdWriteModelNumber_maintains console, getPS1BootParam_maintains console, sceCdReadRegionParams_maintains console,
    sized_maintains (by decide) (cdvdReadNVM_maintains (by decide) _),
    sized_maintains (by decide) (cdvdWriteNVM_maintains (by decide) _),
    sized_maintains (by decide) (cdvdWriteNVM_maintains (by decide) _), cdOpenConfig_maintains,
    sized_maintains (by decide) (cdvdReadConfig_maintains console),
    sized_maintains (by decide) (cdvdWriteConfig_maintains console), cdCloseConfig_maintains,
    mechaconAuthStart_maintains, mechaconAuthStart_maintains, sceMgWriteData_maintains, sceMgReadData_maintains,
    sceMgWriteHeaderStart_maintains, sceMgWriteDatainLength_maintains, sceMgWriteDataoutLength_maintains,
    sceMgReadKey_maintains _, sceMgReadKey_maintains _, sceMgReadKey_maintains _, sceMgReadKey_maintains _, ?_⟩
  exact fun _ none => absurd none List.not_mem_nil

end Pcsx2.Mechacon
