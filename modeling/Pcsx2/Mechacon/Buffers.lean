import Pcsx2.Foundation.Triple
import Pcsx2.Mechacon.Drive

/-!
# The buffers of the command interface

The state of the drive and of its two command registers. A program goes wrong where it reads or writes a buffer
outside.
-/

namespace Pcsx2.Mechacon
open Foundation

inductive Buffer
  | ncmdParam
  | scmdParam
  | scmdResult
  | mg
  | nvram
  deriving DecidableEq, Repr

def NVRAM_SIZE : Nat := 1024

def Buffer.size : Buffer → Nat
  | ncmdParam => 16
  | scmdParam => 16
  | scmdResult => 16
  | mg => 65536
  | nvram => NVRAM_SIZE

structure RTC where
  second : Byte := 0
  minute : Byte := 0
  hour : Byte := 0
  pad : Byte := 0
  day : Byte := 1
  month : Byte := 1
  year : Byte := 0
  deriving DecidableEq, Repr

structure NVMLayout where
  config0 : Nat
  config1 : Nat
  config2 : Nat
  consoleId : Nat
  ilinkId : Nat
  modelNum : Nat
  regparams : Nat
  mac : Nat
  deriving Repr

structure Console extends Host where
  biosVersion : Nat
  mechaVersion : BitVec 32
  /-- `NoOSD`, or the program was booted without the BIOS. -/
  fastBooted : Bool
  discSerial : Nat → Byte
  readSubQ : BitVec 32 → BitVec 32 × Vector Byte 10
  readKey : Byte → BitVec 16 → BitVec 32 → Vector Byte 16

def getNvmLayout (console : Console) : NVMLayout :=
  if 0x146 ≤ console.biosVersion then ⟨0x270, 0x2B0, 0x200, 0x1F0, 0x1E0, 0x1B0, 0x180, 0x198⟩
  else ⟨0x280, 0x300, 0x200, 0x1C8, 0x1C0, 0x1A0, 0x180, 0x198⟩

structure Cdvd where
  drive : Drive := {}
  bytes : Buffer → Nat → Byte := fun _ _ => 0
  nCommand : Byte := 0
  sCommand : Byte := 0
  sDataIn : Byte := 0x40
  howTo : Byte := 0
  ncmdParamCnt : Nat := 0
  ncmdParamPos : Nat := 0
  scmdParamCnt : Nat := 0
  scmdParamPos : Nat := 0
  scmdResultCnt : Nat := 0
  scmdResultPos : Nat := 0
  cBlockIndex : Byte := 0
  cOffset : Byte := 0
  cReadWrite : Byte := 0
  cNumBlocks : Byte := 0
  rtc : RTC := {}
  key : Vector Byte 16 := .replicate 16 0
  keyXor : Byte := 0
  decSet : Byte := 0
  mg_size : Int := 0
  mg_maxsize : Int := 0
  mg_datatype : Int := 0
  mg_kbit : List Byte := List.replicate 16 0
  mg_kcon : List Byte := List.replicate 16 0

namespace Cdvd

variable (s : Cdvd)

def write (buffer : Buffer) (first : Nat) (bytes : List Byte) : Cdvd :=
  { s with bytes := fun b i =>
      if b = buffer ∧ first ≤ i ∧ i < first + bytes.length then bytes.getD (i - first) 0 else s.bytes b i }

def block (buffer : Buffer) (first n : Nat) : List Byte := (List.range n).map fun i => s.bytes buffer (first + i)

end Cdvd

/-! ## Accesses -/

def Buffer.Has (buffer : Buffer) (first : Int) (n : Nat) : Prop := 0 ≤ first ∧ first + n ≤ buffer.size

instance (buffer : Buffer) (first : Int) (n : Nat) : Decidable (buffer.Has first n) :=
  inferInstanceAs (Decidable (_ ∧ _))

def loadBlock (buffer : Buffer) (first : Int) (n : Nat) : Program Cdvd (List Byte) := fun s =>
  if buffer.Has first n then some (s.block buffer first.toNat n, s) else none

def storeBlock (buffer : Buffer) (first : Int) (bytes : List Byte) : Program Cdvd Unit := fun s =>
  if buffer.Has first bytes.length then some ((), s.write buffer first.toNat bytes) else none

def load (buffer : Buffer) (i : Int) : Program Cdvd Byte := fun s =>
  if buffer.Has i 1 then some (s.bytes buffer i.toNat, s) else none

def store (buffer : Buffer) (i : Int) (byte : Byte) : Program Cdvd Unit := storeBlock buffer i [byte]

def loadU16 (buffer : Buffer) (i : Int) : Program Cdvd (BitVec 16) := do
  let low ← load buffer i
  let high ← load buffer (i + 1)
  pure (high ++ low)

def loadU32 (buffer : Buffer) (i : Int) : Program Cdvd (BitVec 32) := do
  let low ← loadU16 buffer i
  let high ← loadU16 buffer (i + 2)
  pure (high ++ low)

def entry {α : Type} (table : List α) (i : Int) : Program Cdvd α := fun s =>
  if 0 ≤ i then table[i.toNat]?.map fun a => (a, s) else none

def onDrive (f : Drive → Drive) : Program Cdvd Unit := modify fun s => { s with drive := f s.drive }

/-! ## Results -/

def setSCMDResultSize (size : Nat) : Program Cdvd Unit := do
  modify fun s => { s with scmdResultCnt := size, scmdResultPos := 0, sDataIn := s.sDataIn &&& ~~~0x40 }
  storeBlock .scmdResult 0 (List.replicate size 0)

def answer (result : List Byte) : Program Cdvd Unit := do
  setSCMDResultSize result.length
  storeBlock .scmdResult 0 result

/-! ## NVRAM -/

def available (offset bytes : Nat) : Nat := if NVRAM_SIZE < offset + bytes then NVRAM_SIZE - offset else bytes

def copyBlock (dst : Buffer) (first : Int) (src : Buffer) (offset : Int) (n : Nat) : Program Cdvd Unit := do
  let bytes ← loadBlock src offset n
  storeBlock dst first bytes

def clearMissing (dst offset bytes : Nat) : Program Cdvd Unit :=
  if NVRAM_SIZE < offset + bytes then
    storeBlock .scmdResult (dst + available offset bytes : Nat) (List.replicate (bytes - available offset bytes) 0)
  else pure ()

def cdvdReadNVM (dst offset bytes : Nat) : Program Cdvd Unit := do
  clearMissing dst offset bytes
  let to_read := available offset bytes
  if 0 < to_read then copyBlock .scmdResult dst .nvram offset to_read else pure ()

def cdvdWriteNVM (src offset bytes : Nat) : Program Cdvd Unit := do
  let to_write := available offset bytes
  if 0 < to_write then copyBlock .nvram offset .scmdParam src to_write else pure ()

variable (console : Console)

def cdvdReadConsoleID : Program Cdvd Unit := cdvdReadNVM 1 (getNvmLayout console).consoleId 8

def cdvdWriteConsoleID : Program Cdvd Unit := cdvdWriteNVM 1 (getNvmLayout console).consoleId 8

def cdvdReadILinkID : Program Cdvd Unit := cdvdReadNVM 1 (getNvmLayout console).ilinkId 8

def cdvdWriteILinkID : Program Cdvd Unit := cdvdWriteNVM 1 (getNvmLayout console).ilinkId 8

def cdvdReadModelNumber (part : Byte) : Program Cdvd Unit :=
  cdvdReadNVM 1 ((getNvmLayout console).modelNum + part.toNat) 8

def cdvdWriteModelNumber (part : Byte) : Program Cdvd Unit :=
  cdvdWriteNVM 1 ((getNvmLayout console).modelNum + part.toNat) 8

def cdvdReadRegionParams : Program Cdvd Unit := cdvdReadNVM 3 (getNvmLayout console).regparams 8

def cdvdWriteRegionParams : Program Cdvd Unit := cdvdWriteNVM 2 (getNvmLayout console).regparams 8

def cdvdReadMAC : Program Cdvd Unit := cdvdReadNVM 1 (getNvmLayout console).mac 8

def cdvdWriteMAC : Program Cdvd Unit := cdvdWriteNVM 0 (getNvmLayout console).mac 8

/-! ## Configuration -/

def Cdvd.noBlock (s : Cdvd) : Bool :=
  s.cOffset = 0 ∧ 4 ≤ s.cBlockIndex ∨ s.cOffset = 1 ∧ 2 ≤ s.cBlockIndex ∨ s.cOffset = 2 ∧ 7 ≤ s.cBlockIndex

def Cdvd.area (s : Cdvd) : Nat :=
  if s.cOffset = 0 then (getNvmLayout console).config0
  else if s.cOffset = 2 then (getNvmLayout console).config2
  else (getNvmLayout console).config1

def nextBlock : Program Cdvd Unit := modify fun s => { s with cBlockIndex := s.cBlockIndex + 1 }

def setInitialized (s : Cdvd) : Program Cdvd Unit :=
  if s.cOffset ≠ 0 ∧ s.cOffset ≠ 2 ∧ s.cBlockIndex = 1 ∧ console.fastBooted then do
    let flags ← load .scmdResult 2
    store .scmdResult 2 (flags ||| 0x80)
  else pure ()

def cdvdReadConfig : Program Cdvd Unit := do
  let s ← get
  if s.cReadWrite ≠ 0 then do
    store .scmdResult 0 0x80
    storeBlock .scmdResult 1 (List.replicate 15 0)
  else if s.cNumBlocks ≤ s.cBlockIndex then pure ()
  else if s.noBlock then storeBlock .scmdResult 0 (List.replicate 16 0)
  else do
    cdvdReadNVM 0 (s.area console + s.cBlockIndex.toNat * 16) 16
    setInitialized console s
    nextBlock

def cdvdWriteConfig : Program Cdvd Unit := do
  let s ← get
  if s.cReadWrite ≠ 1 ∨ s.cNumBlocks ≤ s.cBlockIndex then pure ()
  else if s.noBlock then pure ()
  else do
    cdvdWriteNVM 0 (s.area console + s.cBlockIndex.toNat * 16) 16
    nextBlock

end Pcsx2.Mechacon
