import Pcsx2.Vif.Extent

/-!
# The cache of compiled routines

A bucket holds the blocks of one hash key in the order they were added, and a cell of zeroes after
them.
-/

namespace Pcsx2.Vif

/-- An `nVifBlock`, as it is compared. -/
structure NVifBlock where
  hash_key : BitVec 16
  length : BitVec 16
  key0 : BitVec 32
  key1 : BitVec 32
  startPtr : Nat
  deriving DecidableEq

namespace NVifBlock

variable (block key : NVifBlock)

/-- What `memset` leaves. -/
def zero : NVifBlock := ⟨0, 0, 0, 0, 0⟩

/-- The fields that the keys are made of. -/
def fields : Block :=
  { num := block.hash_key.extractLsb' 0 8
    upkType := block.hash_key.extractLsb' 8 8
    mask := block.key0
    mode := block.key1.extractLsb' 0 8
    aligned := block.key1.extractLsb' 8 8
    cl := block.key1.extractLsb' 16 8
    wl := block.key1.extractLsb' 24 8 }

/-- What `find` compares. -/
def SameKeys : Prop := block.key0 = key.key0 ∧ block.key1 = key.key1

instance : Decidable (block.SameKeys key) := inferInstanceAs (Decidable (_ ∧ _))

def Same : Prop := block.hash_key = key.hash_key ∧ block.SameKeys key

end NVifBlock

/-! ## Buckets -/

/-- `m_bucket`, where `none` is a null pointer. -/
abbrev HashBucket := BitVec 16 → Option (List NVifBlock)

/-- The loop of `find`; the outer `none` is an access past the end of the chain. -/
def findIn (dataPtr : NVifBlock) : List NVifBlock → Option (Option NVifBlock)
  | [] => none
  | chainpos :: chain =>
      if chainpos.SameKeys dataPtr then some (some chainpos)
      else if chainpos.startPtr = 0 then some none
      else findIn dataPtr chain

/-- The loop of `bucket_size`. -/
def sizeOf : List NVifBlock → Option Nat
  | [] => none
  | chainpos :: chain => if chainpos.startPtr = 0 then some 0 else (sizeOf chain).map (· + 1)

namespace HashBucket

variable (m_bucket : HashBucket)

/-- The constructor. -/
def new : HashBucket := fun _ => none

def find (dataPtr : NVifBlock) : Option (Option NVifBlock) :=
  (m_bucket dataPtr.hash_key).bind (findIn dataPtr)

def bucket_size (dataPtr : NVifBlock) : Option Nat := (m_bucket dataPtr.hash_key).bind sizeOf

def add (dataPtr : NVifBlock) : Option HashBucket :=
  match m_bucket dataPtr.hash_key, m_bucket.bucket_size dataPtr with
  | some chain, some size =>
      some (Function.update m_bucket dataPtr.hash_key (some (chain.take size ++ [dataPtr, .zero])))
  | _, _ => none

def reset : HashBucket := fun _ => some [.zero]

end HashBucket

/-! ## Keys -/

/-- What `dVifUnpack` reads of the unit. -/
structure VifRegisters where
  cmd : BitVec 8
  usn : Bool
  num : BitVec 8
  cycle : Cycle
  start_aligned : BitVec 8
  mode : BitVec 32
  mask : Word

namespace VifRegisters

variable (regs : VifRegisters)

def upkType : BitVec 8 := (regs.cmd &&& 0x1f) ||| ((if regs.usn then 1 else 0) <<< 5)

def doMask : Bool := if regs.cycle.isFill then true else regs.cmd &&& 0x10 ≠ 0

def hash_key : BitVec 16 := (regs.upkType.setWidth 16 <<< 8) ||| regs.num.setWidth 16

def key0 : BitVec 32 := if regs.doMask then regs.mask else 0

def key1 : BitVec 32 :=
  let key1 := (regs.cycle.wl.setWidth 32 <<< 24) ||| (regs.cycle.cl.setWidth 32 <<< 16) |||
    (regs.start_aligned.setWidth 32 <<< 8) ||| (regs.mode &&& 0xff)
  -- the whole alignment only matters to V3-16
  if regs.upkType &&& 0xf ≠ 9 then key1 &&& 0xffff01ff else key1

/-- The block that is searched for. -/
def block : NVifBlock := ⟨regs.hash_key, 0, regs.key0, regs.key1, 0⟩

/-- The keys of an empty cell. -/
def Zero : Prop := regs.key0 = 0 ∧ regs.key1 = 0

instance : Decidable regs.Zero := inferInstanceAs (Decidable (_ ∧ _))

end VifRegisters

/-! ## Adding and resetting -/

structure CompiledBlock where
  block : NVifBlock
  started : block.startPtr ≠ 0

inductive BucketOp
  | reset
  | add (compiled : CompiledBlock)

def BucketOp.apply (m_bucket : HashBucket) : BucketOp → Option HashBucket
  | .reset => some HashBucket.reset
  | .add compiled => m_bucket.add compiled.block

/-- The buckets after some operations. -/
def bucketsAfter (ops : List BucketOp) : Option HashBucket :=
  ops.foldlM BucketOp.apply HashBucket.new

def BucketOp.note (blocks : List NVifBlock) : BucketOp → List NVifBlock
  | .reset => []
  | .add compiled => blocks ++ [compiled.block]

/-- The blocks added since the last reset. -/
def added (ops : List BucketOp) : List NVifBlock := ops.foldl BucketOp.note []

/-- A search finds a block with these keys if and only if there is one. -/
def FindsAdded (m_bucket : HashBucket) (blocks : List NVifBlock) (key : NVifBlock) : Prop :=
  ∃ found, m_bucket.find key = some found ∧
    (found.isSome ↔ ∃ block ∈ blocks, block.Same key) ∧
    ∀ block ∈ found, block.startPtr ≠ 0 ∧ block ∈ blocks ∧ block.Same key

/-! ## Dispatching -/

/-- The part of an `nVifStruct` that the recompiler uses. -/
structure NVif where
  vifBlocks : HashBucket
  recWritePtr : Nat
  recEndPtr : Nat

structure CodeArea where
  ptr : Nat
  positive : 0 < ptr
  size : Nat
  emitted : List Instr → Nat

inductive Ran
  | routine (startPtr : Nat)
  | interpreter
  deriving DecidableEq

section

variable (area : CodeArea) (idx : Idx)

def dVifReset : NVif := ⟨HashBucket.reset, area.ptr, area.ptr + (area.size - 0x40000)⟩

def dVifCompile (v : NVif) (block : NVifBlock) : Option (NVif × NVifBlock) :=
  let v := if v.recEndPtr ≤ v.recWritePtr then dVifReset area else v
  let block := { block with startPtr := v.recWritePtr, length := block.fields.length }
  (v.vifBlocks.add block).map fun vifBlocks =>
    ({ v with vifBlocks, recWritePtr := v.recWritePtr + area.emitted block.fields.compileRoutine }, block)

def dVifUnpack (v : NVif) (regs : VifRegisters) (addr : BitVec 32) : Option (NVif × Ran) :=
  let run (b : NVifBlock) : Ran :=
    if noWrapping idx addr b.length then .routine b.startPtr else .interpreter
  match v.vifBlocks.find regs.block with
  | none => none
  | some (some b) => some (v, run b)
  | some none => (dVifCompile area v regs.block).map fun (v, b) => (v, run b)

inductive VifRequest
  | reset
  | unpack (regs : VifRegisters) (addr : BitVec 32)

def serve (v : NVif) : VifRequest → Option (NVif × List Ran)
  | .reset => some (dVifReset area, [])
  | .unpack regs addr => (dVifUnpack area idx v regs addr).map fun (v, ran) => (v, [ran])

/-- What the requests after a reset run, one after the other. -/
def serveAll (v : NVif) : List VifRequest → Option (List Ran)
  | [] => some []
  | request :: requests =>
      match serve area idx v request with
      | none => none
      | some (v, ran) => (serveAll v requests).map (ran ++ ·)

end

/-! ## What a bucket holds -/

section

variable {blocks : List NVifBlock} (compiled : ∀ block ∈ blocks, block.startPtr ≠ 0)

include compiled

theorem findIn_blocks (key : NVifBlock) :
    findIn key (blocks ++ [.zero]) = some (match blocks.find? (fun block => block.SameKeys key) with
      | some block => some block
      | none => if NVifBlock.zero.SameKeys key then some .zero else none) := by
  induction blocks with
  | nil =>
    show (if NVifBlock.zero.SameKeys key then some (some NVifBlock.zero) else some none) = _
    rw [List.find?_nil]
    split <;> rfl
  | cons block blocks ih =>
    have started := compiled block List.mem_cons_self
    have rest := ih fun block member => compiled block (List.mem_cons_of_mem _ member)
    rw [List.cons_append, findIn, List.find?_cons]
    by_cases same : block.SameKeys key
    · rw [if_pos same, decide_eq_true same]
    · rw [if_neg same, if_neg started, decide_eq_false same, rest]

theorem sizeOf_blocks : sizeOf (blocks ++ [.zero]) = some blocks.length := by
  induction blocks with
  | nil => rfl
  | cons block blocks ih =>
    have started := compiled block List.mem_cons_self
    rw [List.cons_append, sizeOf, if_neg started,
      ih fun block member => compiled block (List.mem_cons_of_mem _ member)]
    rfl

end

structure Holds (m_bucket : HashBucket) (blocks : List NVifBlock) : Prop where
  compiled : ∀ block ∈ blocks, block.startPtr ≠ 0
  chain : ∀ hash_key, m_bucket hash_key = some (blocks.filter (fun block => block.hash_key = hash_key) ++ [.zero])

namespace Holds

theorem reset : Holds HashBucket.reset [] := ⟨fun _ member => absurd member List.not_mem_nil, fun _ => rfl⟩

variable {m_bucket : HashBucket} {blocks : List NVifBlock} (holds : Holds m_bucket blocks)

include holds

theorem compiled_chain (hash_key : BitVec 16) :
    ∀ block ∈ blocks.filter (fun block => block.hash_key = hash_key), block.startPtr ≠ 0 :=
  fun block member => holds.compiled block (List.mem_of_mem_filter member)

theorem add (block : NVifBlock) (started : block.startPtr ≠ 0) :
    ∃ after, m_bucket.add block = some after ∧ Holds after (blocks ++ [block]) := by
  have size : m_bucket.bucket_size block =
      some (blocks.filter (fun other => other.hash_key = block.hash_key)).length := by
    unfold HashBucket.bucket_size
    rw [holds.chain, Option.bind_some, sizeOf_blocks (holds.compiled_chain _)]
  have equal : m_bucket.add block = some (Function.update m_bucket block.hash_key
      (some (blocks.filter (fun other => other.hash_key = block.hash_key) ++ [block, .zero]))) := by
    unfold HashBucket.add
    rw [size, holds.chain]
    simp only
    rw [List.take_left]
  refine ⟨_, equal, ?_, ?_⟩
  · intro other member
    rcases List.mem_append.mp member with before | last
    · exact holds.compiled other before
    · rwa [List.mem_singleton.mp last]
  · intro hash_key
    rw [List.filter_append]
    by_cases same : hash_key = block.hash_key
    · have self : [block].filter (fun other => other.hash_key = block.hash_key) = [block] :=
        List.filter_eq_self.mpr fun other member => decide_eq_true (by rw [List.mem_singleton.mp member])
      rw [same, Function.update_self, self, List.append_assoc]
      rfl
    · rw [Function.update_of_ne same, holds.chain, List.filter_cons_of_neg (by simpa using Ne.symm same),
        List.filter_nil, List.append_nil]

theorem find (key : NVifBlock) :
    (∃ block ∈ blocks, block.Same key ∧ m_bucket.find key = some (some block)) ∨
    ((∀ block ∈ blocks, ¬ block.Same key) ∧
      m_bucket.find key = some (if NVifBlock.zero.SameKeys key then some .zero else none)) := by
  unfold HashBucket.find
  rw [holds.chain, Option.bind_some, findIn_blocks (holds.compiled_chain _)]
  cases found : (blocks.filter fun block => block.hash_key = key.hash_key).find? fun block => block.SameKeys key with
  | some block =>
    obtain ⟨member, hash_key⟩ := List.mem_filter.mp (List.mem_of_find?_eq_some found)
    have same := List.find?_some found
    exact .inl ⟨block, member, ⟨of_decide_eq_true hash_key, of_decide_eq_true same⟩, rfl⟩
  | none =>
    refine .inr ⟨fun block member same => ?_, rfl⟩
    have other := List.find?_eq_none.mp found block (List.mem_filter.mpr ⟨member, decide_eq_true same.1⟩)
    exact other (decide_eq_true same.2)

theorem findsAdded_iff (key : NVifBlock) :
    FindsAdded m_bucket blocks key ↔
      ¬ NVifBlock.zero.SameKeys key ∨ ∃ block ∈ blocks, block.Same key := by
  rcases holds.find key with ⟨block, member, same, find⟩ | ⟨none, find⟩
  · refine iff_of_true ⟨some block, find, ?_, ?_⟩ (.inr ⟨block, member, same⟩)
    · exact iff_of_true rfl ⟨block, member, same⟩
    · rintro found ⟨⟩
      exact ⟨holds.compiled block member, member, same⟩
  · have absent : ¬ ∃ block ∈ blocks, block.Same key := fun ⟨block, member, same⟩ => none block member same
    by_cases zero : NVifBlock.zero.SameKeys key
    · rw [if_pos zero] at find
      refine iff_of_false ?_ (fun either => either.elim (fun nonzero => nonzero zero) absent)
      rintro ⟨found, equal, -, good⟩
      rw [find, Option.some.injEq] at equal
      exact (good NVifBlock.zero equal.symm).1 rfl
    · rw [if_neg zero] at find
      refine iff_of_true ⟨Option.none, find, ?_, ?_⟩ (.inl zero)
      · exact iff_of_false Bool.false_ne_true absent
      · rintro found ⟨⟩

theorem apply (ops : List BucketOp) :
    ∃ after, ops.foldlM BucketOp.apply m_bucket = some after ∧ Holds after (ops.foldl BucketOp.note blocks) := by
  induction ops generalizing m_bucket blocks with
  | nil => exact ⟨m_bucket, rfl, holds⟩
  | cons op ops ih =>
    rw [List.foldlM_cons, List.foldl_cons]
    cases op with
    | reset => exact ih reset
    | add compiled =>
      obtain ⟨next, added, holds⟩ := holds.add compiled.block compiled.started
      obtain ⟨after, run, holds⟩ := ih holds
      refine ⟨after, ?_, holds⟩
      show (m_bucket.add compiled.block).bind _ = _
      rw [added]
      exact run

end Holds

theorem bucketsAfter_holds (ops : List BucketOp) :
    ∃ m_bucket, bucketsAfter (.reset :: ops) = some m_bucket ∧ Holds m_bucket (added (.reset :: ops)) := by
  exact Holds.reset.apply ops

/-! ## What is run -/

structure Sound (v : NVif) (blocks : List NVifBlock) : Prop where
  holds : Holds v.vifBlocks blocks
  nonzero : ∀ block ∈ blocks, ¬ NVifBlock.zero.SameKeys block
  started : 0 < v.recWritePtr

theorem sameKeys_zero (regs : VifRegisters) : NVifBlock.zero.SameKeys regs.block ↔ regs.Zero :=
  and_congr eq_comm eq_comm

theorem noWrapping_zero (idx : Idx) (addr : BitVec 32) : noWrapping idx addr 0 = true := by
  apply decide_eq_true
  have below : startmem idx addr ≤ (vuMemLimit idx - 0x10).toNat := by
    unfold startmem
    rw [BitVec.toNat_and]
    exact Nat.and_le_right
  have limit : (vuMemLimit idx - 0x10).toNat ≤ (vuMemLimit idx).toNat := by cases idx <;> decide
  exact below.trans limit

section

variable (area : CodeArea) (idx : Idx)

theorem dVifReset_sound : Sound (dVifReset area) [] :=
  ⟨Holds.reset, fun _ member => absurd member List.not_mem_nil, area.positive⟩

variable {area idx} {v : NVif} {blocks : List NVifBlock} (sound : Sound v blocks)

include sound

theorem dVifCompile_sound (block : NVifBlock) (nonzero : ¬ NVifBlock.zero.SameKeys block) :
    ∃ after compiled more, dVifCompile area v block = some (after, compiled) ∧ Sound after more ∧
      compiled.startPtr ≠ 0 := by
  have ready : ∃ more, Sound (if v.recEndPtr ≤ v.recWritePtr then dVifReset area else v) more := by
    split
    · exact ⟨[], dVifReset_sound area⟩
    · exact ⟨blocks, sound⟩
  unfold dVifCompile
  obtain ⟨more, sound⟩ := ready
  revert sound
  generalize (if v.recEndPtr ≤ v.recWritePtr then dVifReset area else v) = v
  intro sound
  have started : v.recWritePtr ≠ 0 := Nat.pos_iff_ne_zero.mp sound.started
  obtain ⟨after, added, holds⟩ :=
    sound.holds.add { block with startPtr := v.recWritePtr, length := block.fields.length } started
  simp only
  rw [added, Option.map_some]
  refine ⟨_, _, _, rfl, ⟨holds, ?_, Nat.lt_add_right _ sound.started⟩, started⟩
  intro other member
  rcases List.mem_append.mp member with before | last
  · exact sound.nonzero other before
  · rw [List.mem_singleton.mp last]
    exact nonzero

theorem dVifUnpack_sound (regs : VifRegisters) (addr : BitVec 32) :
    ∃ after ran more, dVifUnpack area idx v regs addr = some (after, ran) ∧ Sound after more ∧
      (ran = .routine 0 ↔ regs.Zero) := by
  have runs (b : NVifBlock) (started : b.startPtr ≠ 0) :
      (if noWrapping idx addr b.length then Ran.routine b.startPtr else .interpreter) ≠ .routine 0 := by
    split
    · exact fun null => started (Ran.routine.inj null)
    · rintro ⟨⟩
  unfold dVifUnpack
  simp only
  rcases sound.holds.find regs.block with ⟨block, member, same, find⟩ | ⟨none, find⟩
  · rw [find]
    have nonzero : ¬ regs.Zero := by
      rintro ⟨key0, key1⟩
      exact sound.nonzero block member ⟨key0.symm.trans same.2.1.symm, key1.symm.trans same.2.2.symm⟩
    exact ⟨v, _, blocks, rfl, sound, iff_of_false (runs block (sound.holds.compiled block member)) nonzero⟩
  · rw [find]
    by_cases zero : NVifBlock.zero.SameKeys regs.block
    · rw [if_pos zero]
      refine ⟨v, _, blocks, rfl, sound, iff_of_true ?_ ((sameKeys_zero regs).mp zero)⟩
      exact if_pos (noWrapping_zero idx addr)
    · rw [if_neg zero]
      obtain ⟨after, compiled, more, compile, sound, started⟩ : ∃ after compiled more,
          dVifCompile area v regs.block = some (after, compiled) ∧ Sound after more ∧ compiled.startPtr ≠ 0 :=
        dVifCompile_sound sound regs.block zero
      simp only [compile, Option.map_some]
      exact ⟨after, _, more, rfl, sound, iff_of_false (runs compiled started) (mt (sameKeys_zero regs).mpr zero)⟩

theorem serveAll_sound (requests : List VifRequest) :
    ∃ ran, serveAll area idx v requests = some ran ∧
      (.routine 0 ∉ ran ↔ ∀ regs addr, .unpack regs addr ∈ requests → ¬ regs.Zero) := by
  induction requests generalizing v blocks with
  | nil => exact ⟨[], rfl, iff_of_true List.not_mem_nil fun _ _ member => absurd member List.not_mem_nil⟩
  | cons request requests ih =>
    unfold serveAll
    cases request with
    | reset =>
      obtain ⟨ran, run, safe⟩ := ih (dVifReset_sound area)
      refine ⟨ran, ?_, ?_⟩
      · simp only [serve, run, Option.map_some, List.nil_append]
      · rw [safe]
        simp only [List.mem_cons, reduceCtorEq, false_or]
    | unpack regs addr =>
      obtain ⟨after, first, more, unpack, sound, null⟩ : ∃ after first more,
          dVifUnpack area idx v regs addr = some (after, first) ∧ Sound after more ∧
            (first = .routine 0 ↔ regs.Zero) :=
        dVifUnpack_sound sound regs addr
      obtain ⟨ran, run, safe⟩ := ih sound
      refine ⟨first :: ran, ?_, ?_⟩
      · simp only [serve, unpack, run, Option.map_some, List.singleton_append]
      · rw [List.mem_cons, not_or, safe, eq_comm, null]
        constructor
        · rintro ⟨nonzero, later⟩ other place member
          rcases List.mem_cons.mp member with same | member
          · obtain ⟨rfl, -⟩ := VifRequest.unpack.inj same
            exact nonzero
          · exact later other place member
        · intro all
          exact ⟨all regs addr List.mem_cons_self, fun other place member => all other place (List.mem_cons_of_mem _ member)⟩

end

/-- Searches are right, and no null pointer is called, unless the keys are those of an empty cell. -/
theorem find_added_iff (ops : List BucketOp) (regs : VifRegisters) (area : CodeArea) (idx : Idx) (requests : List VifRequest) :
    (∃ m_bucket, bucketsAfter (.reset :: ops) = some m_bucket ∧
      (FindsAdded m_bucket (added (.reset :: ops)) regs.block ↔
        ¬ regs.Zero ∨ ∃ block ∈ added (.reset :: ops), block.Same regs.block)) ∧
    ∃ ran, serveAll area idx (dVifReset area) requests = some ran ∧
      (.routine 0 ∉ ran ↔ ∀ regs addr, .unpack regs addr ∈ requests → ¬ regs.Zero) := by
  constructor
  · obtain ⟨m_bucket, after, holds⟩ := bucketsAfter_holds ops
    refine ⟨m_bucket, after, ?_⟩
    rw [holds.findsAdded_iff, sameKeys_zero]
  · exact serveAll_sound (dVifReset_sound area) requests

/-- The first UNPACK after a reset with `CYCLE`, `MODE` and `MASK` all zero calls the null pointer. -/
theorem null_routine :
    serveAll ⟨0x10000, by decide, 0x800000, List.length⟩ .vif1 (dVifReset ⟨0x10000, by decide, 0x800000, List.length⟩)
      [.unpack ⟨0x6c, false, 1, ⟨0, 0⟩, 2, 0, 0⟩ 0] = some [.routine 0] ∧
    ∀ m_bucket, bucketsAfter [.reset] = some m_bucket → ¬ FindsAdded m_bucket [] ⟨0x0c01, 0, 0, 0, 0⟩ := by
  refine ⟨rfl, ?_⟩
  rintro m_bucket ⟨⟩ ⟨found, find, -, good⟩
  have empty : some .zero = found := Option.some.inj find
  exact (good NVifBlock.zero empty.symm).1 rfl

end Pcsx2.Vif
