import Pcsx2.Mechacon.Buffers

/-!
# S-commands

The commands for the controller: clock, NVRAM, configuration and the authentication of encrypted data.
-/

namespace Pcsx2.Mechacon
open Foundation

variable (console : Console)

/-! ## Numbers in the parameters -/

def btoi (b : Byte) : Byte := b / 16 * 10 + b % 16

def itob (i : Byte) : Byte := i / 10 * 16 + i % 10

def param (i : Int) : Program Cdvd Byte := load .scmdParam i

def bytesOf (word : BitVec 32) : List Byte :=
  [word.extractLsb' 0 8, word.extractLsb' 8 8, word.extractLsb' 16 8, word.extractLsb' 24 8]

/-! ## The drive -/

def cdReadSubQ : Program Cdvd Unit := do
  setSCMDResultSize 11
  let s ← get
  let answered := console.readSubQ s.drive.currentSector
  storeBlock .scmdResult 1 answered.2.toList
  store .scmdResult 0 (if answered.1 = -1 then 0x80 else answered.1.extractLsb' 0 8)

def mecaconCommand : Program Cdvd Unit := do
  let sub ← param 0
  if sub = 0x00 then do
    setSCMDResultSize 4
    storeBlock .scmdResult 0 (bytesOf console.mechaVersion)
  else if sub = 0x30 then do
    let s ← get
    answer [s.drive.status, if s.drive.status &&& 1 ≠ 0 then 8 else 0]
  else if sub = 0x44 then do
    setSCMDResultSize 1
    cdvdWriteConsoleID console
  else if sub = 0x45 then do
    setSCMDResultSize 9
    cdvdReadConsoleID console
  else if sub = 0xFD then answer [0, 0x04, 0x12, 0x10, 0x01, 0x30]
  else if sub = 0xEF then answer [0, 0x0F, 0x05]
  else answer [0x81]

def cdTrayReqState : Program Cdvd Unit := do
  onDrive fun d => { d with statusSticky := d.status &&& CDVD_STATUS_TRAY_OPEN }
  answer [0]

def cdTrayCtrl : Program Cdvd Unit := do
  setSCMDResultSize 1
  let close ← param 0
  let s ← get
  let tray := if close = 0 then s.drive.ctrlTrayOpen console.toHost else s.drive.ctrlTrayClose console.toHost
  onDrive fun _ => tray.2
  store .scmdResult 0 tray.1

/-! ## The clock -/

def cdReadRTC : Program Cdvd Unit := do
  let s ← get
  answer [0, itob s.rtc.second, itob s.rtc.minute, itob s.rtc.hour, 0, itob s.rtc.day, itob s.rtc.month,
    itob s.rtc.year]

def takeDate (pos : Int) : Program Cdvd Unit := do
  let second ← param (pos - 7)
  let minute ← param (pos - 6)
  let hour ← param (pos - 5)
  let day ← param (pos - 3)
  let month ← param (pos - 2)
  let year ← param (pos - 1)
  let rtc : RTC := ⟨btoi second, btoi minute % 60, btoi hour % 24, 0, btoi day, btoi (month &&& 0x7f), btoi year⟩
  modify fun s => { s with rtc }

def sceCdWriteRTC : Program Cdvd Unit := do
  answer [0]
  let s ← get
  takeDate s.scmdParamPos

/-! ## NVRAM -/

def nvramAddress : Program Cdvd Nat := do
  let high ← param 0
  let low ← param 1
  pure (high.toNat * 256 + low.toNat)

def swapBytes (buffer : Buffer) (i : Nat) : Program Cdvd Unit := do
  let first ← load buffer i
  let second ← load buffer (i + 1 : Nat)
  storeBlock buffer i [second, first]

def sceCdReadNVM : Program Cdvd Unit := do
  let address ← nvramAddress
  if address < 512 then do
    setSCMDResultSize 3
    cdvdReadNVM 1 (address * 2) 2
    swapBytes .scmdResult 1
  else answer [0xff]

def sceCdWriteNVM : Program Cdvd Unit := do
  setSCMDResultSize 1
  let address ← nvramAddress
  if address < 512 then do
    swapBytes .scmdParam 2
    cdvdWriteNVM 2 (address * 2) 2
  else store .scmdResult 0 0xff

def sceCdPowerOff : Program Cdvd Unit := pure ()

def sceCdReadILinkId : Program Cdvd Unit := do
  setSCMDResultSize 9
  cdvdReadILinkID console
  let third ← load .scmdResult 3
  let fourth ← load .scmdResult 4
  if third = 0 ∧ fourth = 0 then storeBlock .scmdResult 0 [0x00, 0x00, 0xAC, 0xFF, 0xFF, 0xFF, 0xFF, 0xB9, 0x86]
  else pure ()

def sceCdWriteILinkID : Program Cdvd Unit := do
  setSCMDResultSize 1
  cdvdWriteILinkID console

def cdReadModelNumber : Program Cdvd Unit := do
  setSCMDResultSize 9
  let part ← param 0
  cdvdReadModelNumber console part

def cdWriteModelNumber : Program Cdvd Unit := do
  setSCMDResultSize 1
  let part ← param 0
  cdvdWriteModelNumber console part

def getPS1BootParam : Program Cdvd Unit :=
  answer (0 :: [0, 1, 2, 3, 4, 5, 6, 7, 9, 10, 11, 12].map console.discSerial)

def sceCdReadRegionParams : Program Cdvd Unit := do
  setSCMDResultSize 15
  storeBlock .scmdResult 1 (bytesOf console.mechaVersion)
  cdvdReadRegionParams console
  let zone ← load .scmdResult 1
  storeBlock .scmdResult 1 [BitVec.ofNat 8 (1 <<< zone.toNat), 0]
  storeBlock .scmdResult 11 [0, 0, 0, 0]

def sceCdReadMAC : Program Cdvd Unit := do
  setSCMDResultSize 9
  cdvdReadMAC console

def sceCdWriteMAC : Program Cdvd Unit := do
  setSCMDResultSize 1
  cdvdWriteMAC console

def sceCdWriteRegionParams : Program Cdvd Unit := do
  setSCMDResultSize 1
  cdvdWriteRegionParams console

/-! ## Configuration -/

def cdOpenConfig : Program Cdvd Unit := do
  setSCMDResultSize 1
  let cReadWrite ← param 0
  let cOffset ← param 1
  let cNumBlocks ← param 2
  modify fun s => { s with cReadWrite, cOffset, cNumBlocks, cBlockIndex := 0 }
  store .scmdResult 0 0

def cdReadConfig : Program Cdvd Unit := do
  setSCMDResultSize 16
  cdvdReadConfig console

def cdWriteConfig : Program Cdvd Unit := do
  setSCMDResultSize 1
  cdvdWriteConfig console

def cdCloseConfig : Program Cdvd Unit := do
  modify fun s => { s with cReadWrite := 0, cOffset := 0, cNumBlocks := 0, cBlockIndex := 0 }
  answer [0]

/-! ## Encrypted data -/

def fail_pol_cal : Program Cdvd Unit := store .scmdResult 0 0x80

/-- `count` steps of 0x10. -/
def passBlocks (ofs : Nat) : Nat → Nat
  | 0 => ofs
  | count + 1 => passBlocks (ofs + 0x10) count

def addName (flags : BitVec 16) (ofs : Nat) : Program Cdvd Nat :=
  if flags &&& 1 ≠ 0 then do
    let name ← load .mg ofs
    pure (ofs + name.toNat)
  else pure ofs

def mg_BIToffset : Program Cdvd Nat := do
  let count ← loadU16 .mg 0x1A
  let flags ← loadU16 .mg 0x18
  let ofs ← addName flags (passBlocks 0x20 count.toNat)
  pure ((if flags &&& 0xF000 = 0 then ofs + 8 else ofs) + 0x20)

def mechaconAuthStart : Program Cdvd Unit := do
  modify fun s => { s with mg_datatype := 0 }
  answer [0]

def sceMgWriteData : Program Cdvd Unit := do
  setSCMDResultSize 1
  let s ← get
  if s.mg_maxsize < s.mg_size + s.scmdParamCnt then store .scmdResult 0 0x80
  else do
    copyBlock .mg s.mg_size .scmdParam 0 s.scmdParamCnt
    modify fun t => { t with mg_size := s.mg_size + s.scmdParamCnt }
    store .scmdResult 0 0

def sceMgReadData : Program Cdvd Unit := do
  let s ← get
  let n := (min 16 s.mg_size).toNat
  setSCMDResultSize n
  copyBlock .scmdResult 0 .mg 0 n
  modify fun t => { t with mg_size := s.mg_size - n }
  copyBlock .mg 0 .mg n (s.mg_size - n).toNat

def wrongBlocks (bit_ofs : Nat) : Program Cdvd Bool := do
  let fifth ← load .mg (bit_ofs + 5 : Nat)
  if fifth ≠ 0 then pure true
  else do
    let sixth ← load .mg (bit_ofs + 6 : Nat)
    if sixth ≠ 0 then pure true
    else do
      let seventh ← load .mg (bit_ofs + 7 : Nat)
      if seventh ≠ 0 then pure true
      else do
        let blocks ← loadU16 .mg (bit_ofs + 4 : Nat)
        let length ← loadU16 .mg 0x14
        pure (blocks.toNat * 16 + bit_ofs + 8 + 16 ≠ length.toNat)

def readKeys (bit_ofs : Nat) : Program Cdvd Unit := do
  let mg_kbit ← loadBlock .mg (bit_ofs - 0x20 : Nat) 0x10
  let mg_kcon ← loadBlock .mg (bit_ofs - 0x10 : Nat) 0x10
  modify fun s => { s with mg_kbit, mg_kcon }
  let wrong ← wrongBlocks bit_ofs
  if wrong then fail_pol_cal else store .scmdResult 0 0

def readHeader : Program Cdvd Unit := do
  let bit_ofs ← mg_BIToffset
  if bit_ofs < 0x20 ∨ 65536 < bit_ofs then fail_pol_cal else readKeys bit_ofs

def checkHeader : Program Cdvd Unit := do
  let s ← get
  if s.mg_datatype = 1 then do
    let length ← loadU16 .mg 0x14
    if s.mg_maxsize ≠ s.mg_size ∨ s.mg_size < 0x20 ∨ s.mg_size ≠ length.toNat then fail_pol_cal
    else do
      -- What is logged of the header.
      let _ ← loadBlock .mg 0x10 0x0D
      readHeader
  else store .scmdResult 0 0

def mechaconAuth : Program Cdvd Unit := do
  setSCMDResultSize 1
  checkHeader

def sceMgWriteHeaderStart : Program Cdvd Unit := do
  setSCMDResultSize 1
  let low ← param 1
  let high ← param 2
  let _ ← loadBlock .scmdParam 0 5
  modify fun s => { s with mg_size := 0, mg_datatype := 1, mg_maxsize := (low.toNat + high.toNat * 256 : Nat) }
  store .scmdResult 0 0

def moveBlocks (ofs copy_len : Nat) : Program Cdvd Unit := do
  copyBlock .mg 0 .mg ofs copy_len
  let blocks ← load .mg 4
  let size := 8 + 16 * blocks.toNat
  modify fun s => { s with mg_maxsize := 0, mg_size := (size : Nat) }
  let s ← get
  storeBlock .scmdResult 0
    [if s.mg_datatype = 1 then 0 else 0x80, BitVec.ofNat 8 size, BitVec.ofNat 8 (size >>> 8)]

def checkBlocks (ofs : Nat) : Program Cdvd Unit :=
  if 65536 - 5 < ofs then fail_pol_cal
  else do
    let blocks ← load .mg (ofs + 4 : Nat)
    let copy_len := 8 + 16 * blocks.toNat
    if 65536 - ofs < copy_len then fail_pol_cal else moveBlocks ofs copy_len

def sceMgReadBITLength : Program Cdvd Unit := do
  setSCMDResultSize 3
  let ofs ← mg_BIToffset
  checkBlocks ofs

def sceMgWriteDatainLength : Program Cdvd Unit := do
  setSCMDResultSize 1
  let low ← param 0
  let high ← param 1
  modify fun s => { s with mg_size := 0, mg_datatype := 0, mg_maxsize := (low.toNat + high.toNat * 256 : Nat) }
  store .scmdResult 0 0

def sceMgWriteDataoutLength : Program Cdvd Unit := do
  setSCMDResultSize 1
  let low ← param 0
  let high ← param 1
  let s ← get
  if (low.toNat + high.toNat * 256 : Nat) = s.mg_size ∧ s.mg_datatype = 0 then do
    modify fun s => { s with mg_maxsize := 0 }
    store .scmdResult 0 0
  else store .scmdResult 0 0x80

def sceMgReadKey (half : Cdvd → List Byte) : Program Cdvd Unit := do
  setSCMDResultSize 9
  let s ← get
  storeBlock .scmdResult 1 ((half s).take 8)

def sceMgReadKbit : Program Cdvd Unit := sceMgReadKey fun s => s.mg_kbit

def sceMgReadKbit2 : Program Cdvd Unit := sceMgReadKey fun s => s.mg_kbit.drop 8

def sceMgReadKcon : Program Cdvd Unit := sceMgReadKey fun s => s.mg_kcon

def sceMgReadKcon2 : Program Cdvd Unit := sceMgReadKey fun s => s.mg_kcon.drop 8

/-! ## The register -/

def fixedAnswers : List (Byte × List Byte) :=
  [(0x14, [0]), (0x15, [5]), (0x16, [0]), (0x1A, [1]), (0x1B, [0]), (0x1C, [0]), (0x1E, [0, 0x14, 0, 0, 0]),
    (0x20, [0, 1, 0]), (0x22, List.replicate 10 0), (0x24, [0]), (0x29, [0]), (0x31, [0]), (0x32, [0, 0]),
    (0x82, [0]), (0x83, [0]), (0x84, [0, 0x21, 0xdc, 0x31, 0x96, 0xce, 0x72, 0xe0, 0xc8, 0x69, 0xda, 0x34, 0x9b]),
    (0x85, [0, 0xeb, 0x01, 0xc7, 0xa9, 0x3f, 0x9c, 0x5b, 0x19, 0x31, 0xa0, 0xb3, 0xa3]), (0x86, [0]), (0x87, [0])]

def sCommands : List (Byte × Program Cdvd Unit) :=
  [(0x02, cdReadSubQ console), (0x03, mecaconCommand console), (0x05, cdTrayReqState), (0x06, cdTrayCtrl console),
    (0x08, cdReadRTC), (0x0A, sceCdReadNVM), (0x0B, sceCdWriteNVM), (0x0F, sceCdPowerOff),
    (0x12, sceCdReadILinkId console), (0x13, sceCdWriteILinkID console), (0x17, cdReadModelNumber console),
    (0x18, cdWriteModelNumber console), (0x27, getPS1BootParam console), (0x36, sceCdReadRegionParams console),
    (0x37, sceCdReadMAC console), (0x38, sceCdWriteMAC console), (0x3E, sceCdWriteRegionParams console),
    (0x40, cdOpenConfig), (0x41, cdReadConfig console), (0x42, cdWriteConfig console), (0x43, cdCloseConfig),
    (0x80, mechaconAuthStart), (0x81, mechaconAuthStart), (0x8D, sceMgWriteData), (0x8E, sceMgReadData),
    (0x90, sceMgWriteHeaderStart), (0x92, sceMgWriteDatainLength), (0x93, sceMgWriteDataoutLength),
    (0x94, sceMgReadKbit), (0x95, sceMgReadKbit2), (0x96, sceMgReadKcon), (0x97, sceMgReadKcon2)]

def unknownSCommand : Program Cdvd Unit := answer [0x80]

def sCommand (rt : Byte) : Program Cdvd Unit :=
  if rt = 0x09 then sceCdWriteRTC
  else if rt = 0x88 ∨ rt = 0x8F then mechaconAuth
  else if rt = 0x91 then sceMgReadBITLength
  else
    match fixedAnswers.lookup rt with
    | some result => answer result
    | none => ((sCommands console).lookup rt).getD unknownSCommand

def clearSCMDParam : Program Cdvd Unit := modify fun s => { s with scmdParamPos := 0, scmdParamCnt := 0 }

def cdvdWrite16 (rt : Byte) : Program Cdvd Unit := do
  modify fun s => { s with sCommand := rt }
  storeBlock .scmdResult 0 (List.replicate 16 0)
  sCommand console rt
  clearSCMDParam

def cdvdWrite17 (rt : Byte) : Program Cdvd Unit := do
  let s ← get
  let pos := if 16 ≤ s.scmdParamPos then 0 else s.scmdParamPos
  let cnt := if 16 ≤ s.scmdParamPos then 0 else s.scmdParamCnt
  store .scmdParam pos rt
  modify fun s => { s with scmdParamPos := pos + 1, scmdParamCnt := cnt + 1 }

end Pcsx2.Mechacon
