import Mathlib.Algebra.Order.Ring.Nat
import Mathlib.Tactic.ByContra
import Mathlib.Tactic.SplitIfs
import Pcsx2.Foundation.Memory

/-!
# Block dumps

A dump has records of a block and its number. Opening reads the numbers into a table, a part of the file at a time; a
block is then searched in it.
-/

namespace Pcsx2.Cdvd
open Foundation

/-! ## Opening -/

structure DumpFile where
  bytes : Nat → UInt8
  size : Nat

namespace DumpFile

def ofList (l : List UInt8) : DumpFile := ⟨fun i => l.getD i 0, l.length⟩

def u32 (file : DumpFile) (place : Nat) : Nat := readBytes file.bytes place 4

end DumpFile

def BlockDumpHeaderSize : Nat := 16

/-- The conversion to an `int`. -/
def toInt (n : Nat) : Int := if n % 2 ^ 32 < 2 ^ 31 then (n % 2 ^ 32 : Nat) else (n % 2 ^ 32 : Nat) - 2 ^ 32

structure BlockdumpFileReader where
  m_dblocksize : Nat
  m_blocks : Nat
  m_blockofs : Int
  m_dtablesize : Nat
  m_dtable : List Nat

def bs : Nat := 1024 * 1024

def readNumbers (buffer : Nat → UInt8) (m_dblocksize has : Nat) : Nat → Nat → Option (List Nat × Nat × Nat)
  | 0, off => some ([], 0, off)
  | left + 1, off =>
    if has ≤ off then some ([], left + 1, off)
    else if bs < off + 4 then none
    else
      (readNumbers buffer m_dblocksize has left ((off + 4 + m_dblocksize) % 2 ^ 32)).map fun rest =>
        (readBytes buffer off 4 :: rest.1, rest.2)

/-- What `fread` puts into the buffer. -/
def fill (file : DumpFile) (place has : Nat) (buffer : Nat → UInt8) : Nat → UInt8 :=
  fun i => if i < has then file.bytes (place + i) else buffer i

def readTable (file : DumpFile) (m_dblocksize place : Nat) (buffer : Nat → UInt8) (left off : Nat) : Option (List Nat) :=
  let has := min bs (file.size - place)
  let buffer := fill file place has buffer
  match readNumbers buffer m_dblocksize has left off with
  | none => none
  | some (numbers, left, off) =>
    if has = bs then
      (readTable file m_dblocksize (place + has) buffer left ((off + 2 ^ 32 - has) % 2 ^ 32)).map (numbers ++ ·)
    else some numbers
termination_by file.size - place
decreasing_by
  unfold bs at *
  omega

def Open2 (file : DumpFile) : Option (Except String BlockdumpFileReader) :=
  if file.size < 4 ∨ load file.bytes 0 4 ≠ [0x42, 0x44, 0x56, 0x32] then
    some (.error "Block dump signature is invalid.")
  else if file.size < BlockDumpHeaderSize then some (.error "Failed to read block dump information.")
  else
    let m_dblocksize := file.u32 4
    let datalen := file.size - BlockDumpHeaderSize
    let stride := (m_dblocksize + 4) % 2 ^ 32
    if stride = 0 then none
    else
      let m_dtablesize := toInt (datalen / stride)
      if m_dtablesize < 0 then none
      else
        (readTable file m_dblocksize BlockDumpHeaderSize (fun _ => 0) m_dtablesize.toNat 0).map fun m_dtable =>
          .ok { m_dblocksize, m_blocks := file.u32 8, m_blockofs := toInt (file.u32 12)
                m_dtablesize := m_dtablesize.toNat, m_dtable }

/-! ## Reading -/

def seekPosition (m_blocksize i : Nat) : Nat := (BlockDumpHeaderSize + i * (m_blocksize + 4) + 4) % 2 ^ 32

def readBlock (file : DumpFile) (m_blocksize i : Nat) : Int × Option (List UInt8) :=
  let place := seekPosition m_blocksize i
  if place + m_blocksize ≤ file.size then (toInt m_blocksize, some (load file.bytes place m_blocksize)) else (0, none)

def ReadChunk (file : DumpFile) (r : BlockdumpFileReader) (blockID : Int) : Option (Int × Option (List UInt8)) :=
  let lsn := (blockID % 2 ^ 32).toNat
  match r.m_dtable.findIdx? (· = lsn) with
  | some i => some (readBlock file r.m_dblocksize i)
  | none => if r.m_dtable.length = r.m_dtablesize then some (-1, none) else none

/-! ## Dumps -/

namespace DumpFile

variable (file : DumpFile)

def record (m_dblocksize i : Nat) : Nat := BlockDumpHeaderSize + i * (m_dblocksize + 4)

def lsn (m_dblocksize i : Nat) : Nat := file.u32 (record m_dblocksize i)

def data (m_dblocksize i : Nat) : List UInt8 := load file.bytes (record m_dblocksize i + 4) m_dblocksize

structure IsDump (m_dblocksize n : Nat) : Prop where
  signature : load file.bytes 0 4 = [0x42, 0x44, 0x56, 0x32]
  blocksize : file.u32 4 = m_dblocksize
  positive : 0 < m_dblocksize
  size : file.size = BlockDumpHeaderSize + n * (m_dblocksize + 4)
  distinct : ∀ i < n, ∀ j < n, file.lsn m_dblocksize i = file.lsn m_dblocksize j → i = j

/-- The table is filled with the numbers, and each of them leads to its block. -/
def Readable (m_dblocksize n : Nat) : Prop :=
  ∃ r, Open2 file = some (.ok r) ∧ r.m_dblocksize = m_dblocksize ∧ r.m_dtablesize = n ∧
    r.m_dtable = (List.range n).map (file.lsn m_dblocksize) ∧
    ∀ lsn < 2 ^ 32,
      (∀ i < n, file.lsn m_dblocksize i = lsn →
        ReadChunk file r lsn = some ((m_dblocksize : Int), some (file.data m_dblocksize i))) ∧
      ((∀ i < n, file.lsn m_dblocksize i ≠ lsn) → ReadChunk file r lsn = some (-1, none))

/-- No number straddles two parts of the file. -/
def Whole (m_dblocksize i : Nat) : Prop := i * (m_dblocksize + 4) % bs ≤ bs - 4

instance (m_dblocksize i : Nat) : Decidable (Whole m_dblocksize i) := inferInstanceAs (Decidable (_ ≤ _))

/-- A dump that the reader can deal with. -/
structure Fits (m_dblocksize n : Nat) : Prop where
  blocksize : m_dblocksize < 2 ^ 31
  count : n < 2 ^ 31
  whole : ∀ i < n, Whole m_dblocksize i
  near : ∀ i < n, load file.bytes (seekPosition m_dblocksize i) m_dblocksize = file.data m_dblocksize i

def numbers (m_dblocksize : Nat) : Nat → Nat → Option (List Nat)
  | _, 0 => some []
  | i, left + 1 =>
    if Whole m_dblocksize i then (numbers m_dblocksize (i + 1) left).map (file.lsn m_dblocksize i :: ·) else none

theorem readBytes_moved {bytes bytes' : Nat → UInt8} {place place' size : Nat}
    (same : ∀ k < size, bytes (place + k) = bytes' (place' + k)) :
    readBytes bytes place size = readBytes bytes' place' size := by
  induction size generalizing place place' with
  | zero => rfl
  | succ size ih =>
      have first : bytes place = bytes' place' := same 0 (by omega)
      rw [readBytes, readBytes, first, ih fun k below => ?_]
      have later := same (k + 1) (by omega)
      rwa [Nat.add_comm k 1, ← Nat.add_assoc, ← Nat.add_assoc] at later

variable {file} {m_dblocksize n : Nat}

theorem lsn_lt {i : Nat} : file.lsn m_dblocksize i < 2 ^ 32 := readBytes_lt

theorem numbers_eq_some (i left : Nat) {table : List Nat} : file.numbers m_dblocksize i left = some table ↔
    (∀ j < left, Whole m_dblocksize (i + j)) ∧ table = (List.range' i left).map (file.lsn m_dblocksize) := by
  induction left generalizing i table with
  | zero => simp [numbers, eq_comm]
  | succ left ih =>
      have shift (j : Nat) : i + 1 + j = i + (j + 1) := by omega
      by_cases whole : Whole m_dblocksize i
      · simp only [numbers, whole, if_true, Option.map_eq_some_iff, ih, List.range'_succ, List.map_cons]
        constructor
        · rintro ⟨rest, ⟨later, rfl⟩, rfl⟩
          refine ⟨fun j below => ?_, rfl⟩
          cases j with
          | zero => exact whole
          | succ j => rw [← shift]; exact later j (by omega)
        · rintro ⟨all, rfl⟩
          exact ⟨_, ⟨fun j below => by rw [shift]; exact all (j + 1) (by omega), rfl⟩, rfl⟩
      · simp only [numbers, whole, if_false, reduceCtorEq, false_iff]
        rintro ⟨all, -⟩
        exact whole (all 0 (by omega))

theorem readNumbers_eq {buffer : Nat → UInt8} {has part : Nat} (small : m_dblocksize < 2 ^ 31) (aligned : part % bs = 0)
    (read : has = min bs (n * (m_dblocksize + 4) - part))
    (filled : ∀ k < has, buffer k = file.bytes (BlockDumpHeaderSize + part + k))
    {i left off : Nat} (rest : i + left = n) (place : left = 0 ∨ part + off = i * (m_dblocksize + 4)) (short : off < 2 ^ 32) :
    (∃ numbers left' off', readNumbers buffer m_dblocksize has left off = some (numbers, left', off') ∧
      file.numbers m_dblocksize i left = (file.numbers m_dblocksize (n - left') left').map (numbers ++ ·) ∧ left' ≤ n ∧
      (left' = 0 ∨ part + off' = (n - left') * (m_dblocksize + 4) ∧ has ≤ off') ∧ off' < 2 ^ 32) ∨
    readNumbers buffer m_dblocksize has left off = none ∧ file.numbers m_dblocksize i left = none := by
  induction left generalizing i off with
  | zero => exact .inl ⟨[], 0, off, rfl, by simp [numbers], by omega, .inl rfl, short⟩
  | succ left ih =>
      have here : part + off = i * (m_dblocksize + 4) := by simpa using place
      by_cases all : has ≤ off
      · refine .inl ⟨[], left + 1, off, by simp [readNumbers, all], ?_, by omega, .inr ⟨?_, all⟩, short⟩
        · simp [show n - (left + 1) = i by omega]
        · rw [here, show n - (left + 1) = i by omega]
      · have inside : off < bs := by omega
        have whole : Whole m_dblocksize i ↔ ¬bs < off + 4 := by
          rw [Whole, ← here, Nat.add_mod, aligned, Nat.zero_add, Nat.mod_mod, Nat.mod_eq_of_lt inside]
          unfold bs
          omega
        by_cases straddles : bs < off + 4
        · exact .inr ⟨by simp [readNumbers, all, straddles], by simp [numbers, whole, straddles]⟩
        · have later : (i + 1) * (m_dblocksize + 4) ≤ n * (m_dblocksize + 4) := Nat.mul_le_mul_right _ (by omega)
          have next : (i + 1) * (m_dblocksize + 4) = i * (m_dblocksize + 4) + (m_dblocksize + 4) := Nat.succ_mul ..
          have bound : off + 4 + m_dblocksize < 2 ^ 32 := by unfold bs at inside; omega
          have wrap : (off + 4 + m_dblocksize) % 2 ^ 32 = off + 4 + m_dblocksize := Nat.mod_eq_of_lt bound
          have number : readBytes buffer off 4 = file.lsn m_dblocksize i := by
            refine readBytes_moved fun k below => ?_
            rw [filled (off + k) (by omega), record, ← here]
            exact congrArg file.bytes (by omega)
          rcases ih (i := i + 1) (by omega) (.inr (by omega)) bound with
            ⟨numbers, left', off', returned, equal, rest⟩ | ⟨returned, equal⟩
          · refine .inl ⟨file.lsn m_dblocksize i :: numbers, left', off', ?_, ?_, rest⟩
            · rw [readNumbers, if_neg all, if_neg straddles, wrap, returned, number, Option.map_some]
            · simp [DumpFile.numbers, whole, straddles, equal, Function.comp_def]
          · refine .inr ⟨?_, ?_⟩
            · rw [readNumbers, if_neg all, if_neg straddles, wrap, returned, Option.map_none]
            · simp [numbers, whole, straddles, equal]

theorem carry {part off place : Nat} (there : part + off = place) (beyond : bs ≤ off) (short : off < 2 ^ 32) :
    part + bs + (off + 2 ^ 32 - bs) % 2 ^ 32 = place := by
  have split : off + 2 ^ 32 - bs = off - bs + 2 ^ 32 := by omega
  rw [split, Nat.add_mod_right, Nat.mod_eq_of_lt (by omega)]
  omega

theorem last_part {part off has left : Nat} (short : has < bs) (read : has = min bs (n * (m_dblocksize + 4) - part))
    (there : part + off = (n - left) * (m_dblocksize + 4)) (beyond : has ≤ off) (within : left ≤ n) : left = 0 := by
  by_contra more
  have before : (n - left + 1) * (m_dblocksize + 4) ≤ n * (m_dblocksize + 4) := Nat.mul_le_mul_right _ (by omega)
  rw [Nat.succ_mul] at before
  omega

theorem readTable_eq (small : m_dblocksize < 2 ^ 31) (size : file.size = BlockDumpHeaderSize + n * (m_dblocksize + 4))
    {part : Nat} (aligned : part % bs = 0) (buffer : Nat → UInt8) {i left off : Nat} (rest : i + left = n)
    (place : left = 0 ∨ part + off = i * (m_dblocksize + 4)) (short : off < 2 ^ 32) :
    readTable file m_dblocksize (BlockDumpHeaderSize + part) buffer left off = file.numbers m_dblocksize i left := by
  induction parts : file.size - (BlockDumpHeaderSize + part) using Nat.strongRecOn generalizing part buffer i left off with
  | ind k ih =>
      rw [readTable, parts]
      have read : min bs k = min bs (n * (m_dblocksize + 4) - part) := by
        rw [← parts, size, Nat.add_sub_add_left]
      have part_le : min bs k ≤ bs := Nat.min_le_left ..
      generalize has_eq : min bs k = has at read part_le ⊢
      have filled : ∀ j < has, fill file (BlockDumpHeaderSize + part) has buffer j = file.bytes (BlockDumpHeaderSize + part + j) :=
        fun j below => if_pos below
      rcases readNumbers_eq small aligned read filled rest place short with
        ⟨numbers, left', off', returned, equal, within, later, short'⟩ | ⟨returned, equal⟩
      · simp only [returned, equal]
        by_cases full : has = bs
        · have carried : left' = 0 ∨
              part + bs + (off' + 2 ^ 32 - bs) % 2 ^ 32 = (n - left') * (m_dblocksize + 4) :=
            later.imp_right fun ⟨there, beyond⟩ => carry there (full ▸ beyond) short'
          have less : file.size - (BlockDumpHeaderSize + (part + bs)) < k := by
            have : 0 < bs := by decide
            rw [← Nat.add_assoc, Nat.sub_add_eq, parts]
            omega
          rw [if_pos full, full, Nat.add_assoc, ih _ less (by rw [Nat.add_mod_right, aligned]) _ (Nat.sub_add_cancel within)
            carried (Nat.mod_lt _ (Nat.two_pow_pos 32)) rfl]
        · have done : left' = 0 :=
            later.elim id fun ⟨there, beyond⟩ => last_part (Nat.lt_of_le_of_ne part_le full) read there beyond within
          simp [full, done, DumpFile.numbers]
      · simp only [returned, equal]

end DumpFile

theorem toInt_of_lt {k : Nat} (small : k < 2 ^ 31) : toInt k = k := by
  have wrap : k % 2 ^ 32 = k := Nat.mod_eq_of_lt (by omega)
  rw [toInt, wrap, if_pos small]

theorem toInt_lt (k : Nat) : toInt k < 2 ^ 31 := by
  unfold toInt
  split_ifs <;> omega

variable {file : DumpFile} {m_dblocksize n : Nat} {r : BlockdumpFileReader}

theorem Open2_dtablesize (opened : Open2 file = some (.ok r)) : r.m_dtablesize < 2 ^ 31 := by
  have small := toInt_lt ((file.size - BlockDumpHeaderSize) / ((file.u32 4 + 4) % 2 ^ 32))
  simp only [Open2] at opened
  split_ifs at opened
  · cases opened
  · cases opened
  · obtain ⟨table, -, equal⟩ := Option.map_eq_some_iff.mp opened
    cases equal
    simp only
    omega

theorem Open2_eq (dump : file.IsDump m_dblocksize n) (small : m_dblocksize < 2 ^ 31) (few : n < 2 ^ 31) :
    Open2 file = (file.numbers m_dblocksize 0 n).map fun m_dtable => .ok
      ⟨m_dblocksize, file.u32 8, toInt (file.u32 12), n, m_dtable⟩ := by
  have header : file.size - BlockDumpHeaderSize = n * (m_dblocksize + 4) := by rw [dump.size, Nat.add_sub_cancel_left]
  have stride : (m_dblocksize + 4) % 2 ^ 32 = m_dblocksize + 4 := Nat.mod_eq_of_lt (by omega)
  have count : toInt (n * (m_dblocksize + 4) / (m_dblocksize + 4)) = n := by
    rw [Nat.mul_div_cancel _ (by omega), toInt_of_lt few]
  have long : 16 ≤ file.size := by rw [dump.size]; exact Nat.le_add_right ..
  have table := DumpFile.readTable_eq small dump.size (Nat.zero_mod bs) (fun _ => 0) (Nat.zero_add n) (.inr (by simp))
    (by decide : 0 < 2 ^ 32)
  rw [Nat.add_zero] at table
  simp only [Open2, dump.signature, dump.blocksize, header, stride, count, table, Int.toNat_natCast]
  rw [if_neg (by simp; omega), if_neg (by unfold BlockDumpHeaderSize; omega), if_neg (by omega), if_neg (by omega)]

/-! ## Searching -/

theorem ReadChunk_result {blockID result : Int} {data : List UInt8}
    (read : ReadChunk file r blockID = some (result, some data)) : result = toInt r.m_dblocksize := by
  simp only [ReadChunk, readBlock] at read
  split at read
  · split_ifs at read <;> simp_all
  · split_ifs at read
    simp at read

theorem ReadChunk_found (dump : file.IsDump m_dblocksize n) (small : m_dblocksize < 2 ^ 31)
    (block : r.m_dblocksize = m_dblocksize) (table : r.m_dtable = (List.range n).map (file.lsn m_dblocksize)) {i : Nat}
    (inside : i < n) : ReadChunk file r (file.lsn m_dblocksize i) =
      some ((m_dblocksize : Int), some (load file.bytes (seekPosition m_dblocksize i) m_dblocksize)) := by
  have number : ((file.lsn m_dblocksize i : Int) % 2 ^ 32).toNat = file.lsn m_dblocksize i := by
    have : file.lsn m_dblocksize i < 2 ^ 32 := DumpFile.lsn_lt
    omega
  have found : r.m_dtable.findIdx? (· = file.lsn m_dblocksize i) = some i := by
    rw [table, List.findIdx?_eq_some_iff_getElem]
    refine ⟨by simpa using inside, by simp, fun j before => ?_⟩
    simp only [List.getElem_map, List.getElem_range, decide_eq_true_eq]
    exact fun same => before.ne (dump.distinct j (by omega) i inside same)
  have fits : seekPosition m_dblocksize i + m_dblocksize ≤ file.size := by
    have next : (i + 1) * (m_dblocksize + 4) ≤ n * (m_dblocksize + 4) := Nat.mul_le_mul_right _ inside
    have low := Nat.mod_le (BlockDumpHeaderSize + i * (m_dblocksize + 4) + 4) (2 ^ 32)
    rw [Nat.succ_mul] at next
    rw [dump.size, seekPosition]
    omega
  simp only [ReadChunk, number, found, readBlock, block, if_pos fits, toInt_of_lt small]

theorem ReadChunk_missing (table : r.m_dtable = (List.range n).map (file.lsn m_dblocksize)) (size : r.m_dtablesize = n)
    {lsn : Nat} (short : lsn < 2 ^ 32) (missing : ∀ i < n, file.lsn m_dblocksize i ≠ lsn) :
    ReadChunk file r lsn = some (-1, none) := by
  have number : ((lsn : Int) % 2 ^ 32).toNat = lsn := by omega
  have searched : r.m_dtable.findIdx? (· = lsn) = none := by
    rw [table, List.findIdx?_eq_none_iff]
    simpa using missing
  have filled : r.m_dtable.length = r.m_dtablesize := by simp [table, size]
  simp only [ReadChunk, number, searched, if_pos filled]

/-! ## What can be read -/

theorem Readable.fits (dump : file.IsDump m_dblocksize n) (some_record : 0 < n) (readable : file.Readable m_dblocksize n) :
    file.Fits m_dblocksize n := by
  obtain ⟨r, opened, block, size, table, reads⟩ := readable
  have few : n < 2 ^ 31 := size ▸ Open2_dtablesize opened
  have first := (reads _ DumpFile.lsn_lt).1 0 some_record rfl
  have result := ReadChunk_result first
  have small : m_dblocksize < 2 ^ 31 := by
    have := toInt_lt r.m_dblocksize
    omega
  rw [Open2_eq dump small few, Option.map_eq_some_iff] at opened
  obtain ⟨m_dtable, filled, -⟩ := opened
  have whole := ((DumpFile.numbers_eq_some 0 n).mp filled).1
  refine ⟨small, few, fun i below => by simpa using whole i below, fun i below => ?_⟩
  have same := (reads _ DumpFile.lsn_lt).1 i below rfl
  rw [ReadChunk_found dump small block table below] at same
  exact Option.some.inj (Prod.mk.inj (Option.some.inj same)).2

theorem Fits.readable (dump : file.IsDump m_dblocksize n) (fits : file.Fits m_dblocksize n) :
    file.Readable m_dblocksize n := by
  have filled : file.numbers m_dblocksize 0 n = some ((List.range n).map (file.lsn m_dblocksize)) := by
    rw [DumpFile.numbers_eq_some, List.range_eq_range']
    exact ⟨fun i below => by simpa using fits.whole i below, rfl⟩
  refine ⟨_, by rw [Open2_eq dump fits.blocksize fits.count, filled]; rfl, rfl, rfl, rfl, fun lsn short => ⟨?_, ?_⟩⟩
  · rintro i below rfl
    rw [ReadChunk_found dump fits.blocksize rfl rfl below, fits.near i below]
  · exact fun missing => ReadChunk_missing rfl rfl short missing

theorem readable_empty (dump : file.IsDump m_dblocksize 0) : file.Readable m_dblocksize 0 ↔ m_dblocksize + 4 ≠ 2 ^ 32 := by
  have size : file.size = 16 := by rw [dump.size, Nat.zero_mul]; rfl
  have block : m_dblocksize < 2 ^ 32 := dump.blocksize ▸ readBytes_lt
  have table : readTable file m_dblocksize BlockDumpHeaderSize (fun _ => 0) 0 0 = some [] := by
    have has : min bs (file.size - BlockDumpHeaderSize) = 0 := by rw [size]; rfl
    have part : 0 ≠ bs := by decide
    rw [readTable, has]
    simp only [readNumbers, if_neg part]
  by_cases zero : m_dblocksize + 4 = 2 ^ 32
  · simp only [zero, ne_eq, not_true_eq_false, iff_false]
    rintro ⟨r, opened, -⟩
    simp [Open2, dump.signature, dump.blocksize, size, zero, BlockDumpHeaderSize] at opened
  · have stride : (m_dblocksize + 4) % 2 ^ 32 ≠ 0 := by omega
    have opened : Open2 file = some (.ok ⟨m_dblocksize, file.u32 8, toInt (file.u32 12), 0, []⟩) := by
      have count : toInt ((16 - BlockDumpHeaderSize) / ((m_dblocksize + 4) % 2 ^ 32)) = 0 := by
        rw [show 16 - BlockDumpHeaderSize = 0 from rfl, Nat.zero_div, toInt_of_lt (by decide)]
        rfl
      simp only [Open2, dump.signature, dump.blocksize, size, count, Int.toNat_zero, table]
      rw [if_neg (by simp), if_neg (by decide), if_neg stride, if_neg (by decide)]
      rfl
    refine iff_of_true ⟨_, opened, rfl, rfl, rfl, fun lsn short => ⟨fun i below => absurd below i.not_lt_zero, fun missing => ?_⟩⟩ zero
    exact ReadChunk_missing rfl rfl short missing

/-- A dump can be read exactly if its numbers do not straddle two parts of the file and its records are within reach. -/
theorem dump_readable_iff (dump : file.IsDump m_dblocksize n) : file.Readable m_dblocksize n ↔
    n = 0 ∧ m_dblocksize + 4 ≠ 2 ^ 32 ∨ 0 < n ∧ file.Fits m_dblocksize n := by
  cases n with
  | zero => simp [readable_empty dump]
  | succ n => simpa using ⟨Readable.fits dump n.succ_pos, Fits.readable dump⟩

def twoBlocks : DumpFile := .ofList [0x42, 0x44, 0x56, 0x32, 2, 0, 0, 0, 21, 0, 0, 0, 0, 0, 0, 0,
  20, 0, 0, 0, 0xAB, 0xCD, 16, 0, 0, 0, 0x12, 0x34]

theorem twoBlocks_readable : twoBlocks.Readable 2 2 := by
  have dump : twoBlocks.IsDump 2 2 := ⟨rfl, rfl, by decide, rfl, by decide⟩
  refine (dump_readable_iff dump).mpr (.inr ⟨by decide, by decide, by decide, fun i below => ?_, by decide⟩)
  unfold DumpFile.Whole bs
  omega

def straddled : DumpFile where
  bytes := fun i => if i = 16 + 1048575 then 1 else (DumpFile.ofList [0x42, 0x44, 0x56, 0x32, 0xFB, 0xFF, 0x0F, 0]).bytes i
  size := 16 + 2 * 1048575

theorem straddled_not_readable : ¬ ∀ (file : DumpFile) (m_dblocksize n : Nat), file.IsDump m_dblocksize n →
    file.Readable m_dblocksize n := by
  intro all
  have first : straddled.lsn 1048571 0 = 0 := rfl
  have second : straddled.lsn 1048571 1 = 1 := rfl
  have dump : straddled.IsDump 1048571 2 := by
    refine ⟨rfl, rfl, by decide, rfl, fun i i_lt j j_lt same => ?_⟩
    obtain rfl | rfl : i = 0 ∨ i = 1 := by omega
    · obtain rfl | rfl : j = 0 ∨ j = 1 := by omega
      · rfl
      · simp [first, second] at same
    · obtain rfl | rfl : j = 0 ∨ j = 1 := by omega
      · simp [first, second] at same
      · rfl
  have whole := (Readable.fits dump (by decide) (all _ _ _ dump)).whole 1 (by decide)
  unfold DumpFile.Whole bs at whole
  omega

end Pcsx2.Cdvd
