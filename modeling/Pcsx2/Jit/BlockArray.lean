import Mathlib.Data.Nat.Basic
import Pcsx2.Foundation.Lists

/-!
# The sorted block array of the recompilers
-/

namespace Pcsx2.Jit
open Foundation

structure BaseBlockEx where
  fnptr : UInt64
  startpc : UInt32
  size : UInt32
  deriving DecidableEq

/-- The search of `BaseBlockArray::insert`. -/
def insertIndex (blocks : List BaseBlockEx) (startpc : UInt32) (imin imax : Nat)
    (inside : imax ≤ blocks.length) : Nat :=
  if more : imin < imax then
    let imid := (imin + imax) >>> 1
    have bound : imid < blocks.length := by omega
    if startpc < blocks[imid].startpc then insertIndex blocks startpc imin imid bound.le
    else insertIndex blocks startpc (imid + 1) imax inside
  else imin
termination_by imax - imin

/-- `BaseBlockArray::insert`; the rest of the new block is zero. -/
def insert (blocks : List BaseBlockEx) (startpc : UInt32) (fnptr : UInt64) : List BaseBlockEx :=
  let imin := insertIndex blocks startpc 0 blocks.length le_rfl
  blocks.take imin ++ { fnptr, startpc, size := 0 } :: blocks.drop imin

def erase (blocks : List BaseBlockEx) (first last : Nat) : List BaseBlockEx :=
  blocks.take first ++ blocks.drop last

/-- The search of `BaseBlocks::LastIndex`. -/
def lastIndexLoop (blocks : List BaseBlockEx) (startpc : UInt32) (imin imax : Nat)
    (ordered : imin ≤ imax) (inside : imax < blocks.length) : Nat :=
  if done : imin = imax then imin
  else
    let imid := (imin + imax + 1) >>> 1
    have bound : imid < blocks.length := by omega
    if startpc < blocks[imid].startpc then
      lastIndexLoop blocks startpc imin (imid - 1) (by omega) (by omega)
    else lastIndexLoop blocks startpc imid imax (by omega) inside
termination_by imax - imin

/-- `BaseBlocks::LastIndex`, with `none` for -1. -/
def lastIndex (blocks : List BaseBlockEx) (startpc : UInt32) : Option Nat :=
  if nonempty : 0 < blocks.length then
    some (lastIndexLoop blocks startpc 0 (blocks.length - 1) (by omega) (by omega))
  else none

/-- `BaseBlocks::Index`. -/
def index (blocks : List BaseBlockEx) (startpc : UInt32) : Option Nat := do
  let idx ← lastIndex blocks startpc
  let block ← blocks[idx]?
  if startpc < block.startpc ∨
      block.size ≠ 0 ∧ block.startpc + block.size * 4 ≤ startpc then none
  else some idx

/-- `BaseBlocks::Get`. -/
def get (blocks : List BaseBlockEx) (startpc : UInt32) : Option BaseBlockEx := do
  let idx ← index blocks startpc
  blocks[idx]?

/-! ## Sortedness -/

def BaseBlockEx.key (block : BaseBlockEx) : Nat := block.startpc.toNat

/-- Strictly sorted by `startpc`. -/
abbrev Sorted (blocks : List BaseBlockEx) : Prop := Ascending BaseBlockEx.key blocks

variable {blocks : List BaseBlockEx}

/-- The number of blocks that start at or before `startpc`. -/
abbrev upTo (blocks : List BaseBlockEx) (startpc : UInt32) : Nat :=
  rank BaseBlockEx.key blocks startpc.toNat

theorem upTo_le_iff (sorted : Sorted blocks) {startpc : UInt32} {i : Nat}
    (bound : i < blocks.length) : upTo blocks startpc ≤ i ↔ startpc < blocks[i].startpc :=
  Nat.not_lt.symm.trans ((lt_rank_iff sorted _ bound).not.trans Nat.not_le)

theorem insertIndex_eq (sorted : Sorted blocks) (startpc : UInt32) (imin imax : Nat)
    (inside : imax ≤ blocks.length) (lower : imin ≤ upTo blocks startpc)
    (upper : upTo blocks startpc ≤ imax) :
    insertIndex blocks startpc imin imax inside = upTo blocks startpc := by
  fun_induction insertIndex blocks startpc imin imax inside with
  | case1 imin imax inside more imid bound after ih =>
      have := (upTo_le_iff sorted bound).2 after
      exact ih lower (by omega)
  | case2 imin imax inside more imid bound before ih =>
      have := (upTo_le_iff sorted bound).not.2 before
      exact ih (by omega) upper
  | case3 imin imax inside done => omega

theorem lastIndexLoop_eq (sorted : Sorted blocks) (startpc : UInt32) (imin imax : Nat)
    (ordered : imin ≤ imax) (inside : imax < blocks.length)
    (lower : imin ≤ upTo blocks startpc - 1) (upper : upTo blocks startpc - 1 ≤ imax) :
    lastIndexLoop blocks startpc imin imax ordered inside = upTo blocks startpc - 1 := by
  fun_induction lastIndexLoop blocks startpc imin imax ordered inside with
  | case1 imax inside ordered => omega
  | case2 imin imax ordered inside more imid bound after ih =>
      have := (upTo_le_iff sorted bound).2 after
      exact ih lower (by omega)
  | case3 imin imax ordered inside more imid bound before ih =>
      have := (upTo_le_iff sorted bound).not.2 before
      exact ih (by omega) upper

theorem insert_eq (sorted : Sorted blocks) (startpc : UInt32) (fnptr : UInt64) :
    insert blocks startpc fnptr =
      blocks.take (upTo blocks startpc) ++
        { fnptr, startpc, size := 0 } :: blocks.drop (upTo blocks startpc) := by
  rw [insert, insertIndex_eq sorted startpc 0 _ le_rfl (Nat.zero_le _) (rank_le_length _ _ _)]

theorem lastIndex_eq (sorted : Sorted blocks) (startpc : UInt32) (nonempty : 0 < blocks.length) :
    lastIndex blocks startpc = some (upTo blocks startpc - 1) := by
  have : upTo blocks startpc ≤ blocks.length := rank_le_length _ _ _
  rw [lastIndex, dif_pos nonempty, lastIndexLoop_eq sorted startpc _ _ _ _ (by omega) (by omega)]

/-! ## What the operations do to a sorted array -/

theorem mem_insert (sorted : Sorted blocks) {startpc : UInt32} {fnptr : UInt64} {b : BaseBlockEx} :
    b ∈ insert blocks startpc fnptr ↔ b = { fnptr, startpc, size := 0 } ∨ b ∈ blocks := by
  rw [insert_eq sorted, List.mem_append, List.mem_cons, or_left_comm, ← List.mem_append,
    List.take_append_drop]

theorem insert_sorted (sorted : Sorted blocks) {startpc : UInt32} {fnptr : UInt64}
    (fresh : ∀ b ∈ blocks, b.startpc ≠ startpc) : Sorted (insert blocks startpc fnptr) := by
  rw [insert_eq sorted]
  have before (b : BaseBlockEx) (member : b ∈ blocks.take (upTo blocks startpc)) :
      b.startpc < startpc :=
    Nat.lt_of_le_of_ne (take_rank sorted member) fun equal =>
      fresh b (List.mem_of_mem_take member) (UInt32.toNat_inj.1 equal)
  refine List.pairwise_append.2 ⟨sorted.take, ?_, ?_⟩
  · exact List.pairwise_cons.2 ⟨fun b member => drop_rank sorted member, sorted.drop⟩
  · intro a left b right
    rcases List.mem_cons.1 right with rfl | right
    · exact before a left
    · exact lt_of_lt_of_le (α := Nat) (before a left) (drop_rank sorted right).le

section

variable {first last : Nat}

theorem erase_split (blocks : List BaseBlockEx) (ordered : first ≤ last) :
    blocks = blocks.take first ++
      ((blocks.drop first).take (last - first) ++ blocks.drop last) := by
  obtain ⟨d, rfl⟩ := Nat.exists_eq_add_of_le ordered
  rw [Nat.add_sub_cancel_left, ← List.drop_drop, List.take_append_drop, List.take_append_drop]

theorem erase_sorted (sorted : Sorted blocks) (ordered : first ≤ last) :
    Sorted (erase blocks first last) := by
  rw [erase_split blocks ordered] at sorted
  exact sorted.sublist ((List.append_sublist_append_left _).2 (List.sublist_append_right _ _))

theorem mem_erase (ordered : first ≤ last) {b : BaseBlockEx} :
    b ∈ blocks ↔ b ∈ (blocks.drop first).take (last - first) ∨ b ∈ erase blocks first last := by
  conv_lhs => rw [erase_split blocks ordered]
  rw [erase, List.mem_append, List.mem_append, List.mem_append, or_left_comm]

theorem erased_ne (sorted : Sorted blocks) (ordered : first ≤ last) {a b : BaseBlockEx}
    (erased : a ∈ (blocks.drop first).take (last - first)) (kept : b ∈ erase blocks first last) :
    a.startpc ≠ b.startpc := by
  rw [erase_split blocks ordered] at sorted
  obtain ⟨-, tail, before⟩ := List.pairwise_append.1 sorted
  obtain ⟨-, -, after⟩ := List.pairwise_append.1 tail
  intro equal
  have same : a.key = b.key := congrArg UInt32.toNat equal
  rcases List.mem_append.1 kept with kept | kept
  · exact absurd same (before b kept a (List.mem_append_left _ erased)).ne'
  · exact absurd same (after a erased b kept).ne

end

/-- `Get` finds the block that starts at `startpc`; that it may find one around `startpc` does not
matter to `Link`. -/
theorem get_start (sorted : Sorted blocks) (unsized : ∀ b ∈ blocks, b.size = 0) (startpc : UInt32)
    (b : BaseBlockEx) :
    get blocks startpc = some b ∧ b.startpc = startpc ↔ b ∈ blocks ∧ b.startpc = startpc := by
  refine and_congr_left fun start => ⟨fun found => ?_, fun member => ?_⟩
  · obtain ⟨idx, -, found⟩ := Option.bind_eq_some_iff.1 found
    exact List.mem_of_getElem? found
  · obtain ⟨bound, positive, at_rank⟩ := rank_of_mem sorted member
    have key : b.key = startpc.toNat := congrArg UInt32.toNat start
    simp only [key] at bound positive at_rank
    have entry : blocks[upTo blocks startpc - 1]? = some b := by
      rw [List.getElem?_eq_getElem bound, at_rank]
    have idx : index blocks startpc = some (upTo blocks startpc - 1) := by
      simp [index, lastIndex_eq sorted startpc (by omega), entry, unsized b member, start]
    simp [get, idx, entry]

end Pcsx2.Jit
