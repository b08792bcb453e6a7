import Pcsx2.GsHeap.Safety

/-!
# The heap keeps its promises

Over any run of allocations and frees with alignments up to that of a buffer.
-/

namespace Pcsx2.GsHeap
open Foundation

/-! ## The next buffer -/

theorem shifted_toNat {shift : Nat} (small : shift ≤ 62) :
    ((2 : UInt64) <<< UInt64.ofNat shift).toNat = 2 * 2 ^ shift := by
  have power : 2 ^ shift ≤ 2 ^ 62 := Nat.pow_le_pow_right Nat.two_pos small
  rw [UInt64.toNat_shiftLeft, UInt64.toNat_ofNat', Nat.mod_eq_of_lt (by omega : shift < 2 ^ 64),
    Nat.mod_eq_of_lt (by omega : shift < 64), Nat.shiftLeft_eq]
  show 2 * 2 ^ shift % 2 ^ 64 = 2 * 2 ^ shift
  omega

theorem growShift_spec {total_size : UInt64} (fuel : Nat) (total : total_size.toNat ≤ 2 ^ 62) {shift : Nat}
    (small : shift ≤ 61) (enough : 62 ≤ fuel + shift) :
    ∃ next, growShift total_size fuel shift = some next ∧ shift < next ∧ next ≤ 62 ∧
      (next = 62 → shift = 61) ∧ total_size.toNat ≤ 2 * 2 ^ next := by
  induction fuel generalizing shift with
  | zero => omega
  | succ fuel ih =>
    have grown := shifted_toNat (show shift + 1 ≤ 62 by omega)
    rw [growShift]
    by_cases less : 2 <<< UInt64.ofNat (shift + 1) < total_size
    · rw [if_pos less]
      rw [UInt64.lt_iff_toNat_lt, grown] at less
      have below : shift < 60 := by
        by_contra large
        have power : 2 ^ 61 ≤ 2 ^ (shift + 1) := Nat.pow_le_pow_right Nat.two_pos (by omega)
        omega
      obtain ⟨next, result, above, limit, last, fits⟩ := ih (show shift + 1 ≤ 61 by omega) (by omega)
      exact ⟨next, result, by omega, limit, fun top => by have := last top; omega, fits⟩
    · rw [if_neg less]
      rw [UInt64.lt_iff_toNat_lt, grown, Nat.not_lt] at less
      exact ⟨shift + 1, rfl, Nat.lt_succ_self _, by omega, fun top => by omega, less⟩

theorem nextShift_spec {total_size : UInt64} (total : total_size.toNat ≤ 2 ^ 62) {shift : Nat}
    (large : 14 ≤ shift) (small : shift ≤ 61) :
    ∃ next, nextShift total_size shift = some next ∧ 14 ≤ next ∧ next ≤ 61 ∧ total_size.toNat ≤ 2 * 2 ^ next := by
  obtain ⟨next, result, above, limit, last, fits⟩ := growShift_spec 64 total small (by omega)
  rw [nextShift, result, Option.map_some]
  have before := shifted_toNat (show next - 1 ≤ 62 by omega)
  split
  next refuses =>
    have half := refuses.2
    rw [UInt64.le_iff_toNat_le, before] at half
    exact ⟨next - 1, rfl, by omega, by omega, half⟩
  next grows =>
    refine ⟨next, rfl, by omega, ?_, fits⟩
    by_contra top
    refine grows ⟨by omega, ?_⟩
    rw [UInt64.le_iff_toNat_le, before, show next = 62 by omega]
    exact total

/-! ## All buffers -/

def Heap.blocksOf (h : Heap) (i : Nat) : List Block := h.live.filter (·.buffer = i)

structure HeapSound (h : Heap) : Prop where
  buffers : ∀ i < h.made, BufferSound (h.buffers i) (h.blocksOf i) (h.current = some i)
  known : ∀ block ∈ h.live, block.buffer < h.made
  current : ∀ i, h.current = some i → i < h.made
  regions : ∀ i < h.made, ∀ j < h.made, i ≠ j → (h.buffers i).released = false → (h.buffers j).released = false →
    Apart Made.address (fun made => made.buffer.m_size.toNat) (h.buffers i) (h.buffers j)

/-- What a request has to be like: an alignment up to that of a buffer, a size that memory has, and
fewer than 65535 allocations in each quadrant of the buffer in use. -/
structure Heap.Asks (h : Heap) (size align prefix_size : UInt64) : Prop where
  honoured : Honoured align
  total : size.toNat + prefix_size.toNat + 8 ≤ 2 ^ 62
  few : ∀ i, h.current = some i → ∀ q < 4, (h.buffers i).buffer.count (h.blocksOf i) q < 65535

def Good (h : Heap) : Action → Prop
  | .alloc size align prefix_size => h.Asks size align prefix_size
  | _ => True

def AnyStep (h next : Heap) : Prop := ∃ action, Step action h next

def GoodStep (h next : Heap) : Prop := ∃ action, Good h action ∧ Step action h next

section

variable {h next : Heap} {i : Nat}

theorem HeapSound.update (sound : HeapSound h) (inside : i < h.made) {changed : Made} (count : next.made = h.made)
    (buffers : next.buffers = Function.update h.buffers i changed)
    (address : changed.address = (h.buffers i).address)
    (size : changed.buffer.m_size = (h.buffers i).buffer.m_size)
    (released : changed.released = false → (h.buffers i).released = false)
    (here : BufferSound changed (next.blocksOf i) (next.current = some i))
    (others : ∀ j, j ≠ i → (h.blocksOf j).Perm (next.blocksOf j) ∧ (next.current = some j ↔ h.current = some j))
    (known : ∀ block ∈ next.live, block.buffer < h.made) (current : ∀ j, next.current = some j → j < h.made) :
    HeapSound next := by
  have place (j : Nat) : (next.buffers j).address = (h.buffers j).address ∧
      (next.buffers j).buffer.m_size = (h.buffers j).buffer.m_size ∧
      ((next.buffers j).released = false → (h.buffers j).released = false) := by
    rw [buffers]
    by_cases same : j = i
    · rw [same, Function.update_self]
      exact ⟨address, size, released⟩
    · rw [Function.update_of_ne same]
      exact ⟨rfl, rfl, id⟩
  refine ⟨fun j below => ?_, count ▸ known, count ▸ current, fun j below k below' differ kept kept' => ?_⟩
  · by_cases same : j = i
    · rw [same, buffers, Function.update_self]
      exact here
    · have old := (sound.buffers j (count ▸ below)).perm (others j same).1
      rw [buffers, Function.update_of_ne same]
      rwa [decide_eq_decide.2 (others j same).2]
  · have apart := sound.regions j (count ▸ below) k (count ▸ below') differ ((place j).2.2 kept) ((place k).2.2 kept')
    rw [Apart] at apart ⊢
    rwa [(place j).1, (place k).1, (place j).2.1, (place k).2.1]

theorem blocksOf_cons {live : List Block} (block : Block) (j : Nat) :
    (block :: live).filter (·.buffer = j) =
      if block.buffer = j then block :: live.filter (·.buffer = j) else live.filter (·.buffer = j) := by
  rw [List.filter_cons]
  simp only [decide_eq_true_eq]

theorem allocIn_sound {size align prefix_size : UInt64} (sound : HeapSound h) (current : h.current = some i)
    (serves : (h.buffers i).buffer.Serves size align prefix_size)
    (few : ∀ q < 4, (h.buffers i).buffer.count (h.blocksOf i) q < 65535)
    (result : h.allocIn i size align prefix_size = some next) : HeapSound next := by
  have inside := sound.current i current
  have old := sound.buffers i inside
  rw [decide_eq_true current] at old
  obtain ⟨⟨buffer, begin_off, usage⟩, out, rfl⟩ := Option.map_eq_some_iff.1 result
  have handed := alloc_spec old.shaped serves old.counts out
  refine sound.update inside rfl rfl rfl ?_ id ?_ ?_ ?_ sound.current
  · rw [handed.next]
  · rw [Heap.blocksOf, blocksOf_cons, if_pos rfl, decide_eq_true current]
    exact sound_alloc old handed rfl serves few
  · intro j differ
    refine ⟨.of_eq ?_, Iff.rfl⟩
    rw [Heap.blocksOf, Heap.blocksOf, blocksOf_cons, if_neg differ.symm]
  · intro block listed
    rcases List.mem_cons.1 listed with rfl | listed
    · exact inside
    · exact sound.known block listed

theorem drop_sound (sound : HeapSound h) (current : h.current = some i) :
    HeapSound { h.decref i 1 with current := none } := by
  have inside := sound.current i current
  have old := sound.buffers i inside
  rw [decide_eq_true current] at old
  refine sound.update inside rfl rfl rfl rfl ?_ (sound_drop old) ?_ sound.known nofun
  · exact fun kept => (Bool.or_eq_false_iff.1 kept).1
  · intro j differ
    refine ⟨.rfl, iff_of_false nofun ?_⟩
    rw [current, Option.some_inj]
    exact differ.symm

theorem free_sound {block : Block} (sound : HeapSound h) (live : block ∈ h.live) : HeapSound (h.free block) := by
  have inside := sound.known block live
  have listed : block ∈ h.blocksOf block.buffer := List.mem_filter.2 ⟨live, decide_eq_true rfl⟩
  have perm (j : Nat) := (List.perm_cons_erase live).filter (·.buffer = j)
  refine sound.update inside rfl rfl rfl rfl ?_ ?_ ?_ ?_ sound.current
  · exact fun kept => (Bool.or_eq_false_iff.1 kept).1
  · have split := perm block.buffer
    rw [blocksOf_cons, if_pos rfl] at split
    exact sound_free ((sound.buffers _ inside).perm split)
  · intro j differ
    have split := perm j
    rw [blocksOf_cons, if_neg differ.symm] at split
    exact ⟨split, Iff.rfl⟩
  · exact fun other listed => sound.known other (List.mem_of_mem_erase listed)

theorem add_sound {shift address : Nat} (sound : HeapSound h) (none : h.current = none) (lower : 14 ≤ shift)
    (upper : shift ≤ 61) (aligned : address % 32 = 0)
    (unused : h.Unused address ((4 : UInt64) <<< UInt64.ofNat shift).toNat) :
    HeapSound { h with
      made := h.made + 1
      buffers := Function.update h.buffers h.made { buffer := .make shift, address, released := false }
      current := some h.made } := by
  have empty : h.live.filter (·.buffer = h.made) = [] := by
    refine List.filter_eq_nil_iff.2 fun block listed same => ?_
    exact Nat.ne_of_lt (sound.known block listed) (of_decide_eq_true same)
  refine ⟨fun j below => ?_, fun block listed => (sound.known block listed).trans (Nat.lt_succ_self _), ?_, ?_⟩
  · by_cases same : j = h.made
    · rw [same]
      dsimp only
      rw [Function.update_self, Heap.blocksOf, empty, decide_eq_true rfl]
      exact sound_make lower upper aligned
    · have old := sound.buffers j (by have := Nat.lt_succ_iff.1 below; omega)
      dsimp only
      rw [Function.update_of_ne same, decide_eq_false (fun equal => same (Option.some.inj equal).symm)]
      rwa [none, decide_eq_false nofun] at old
  · intro j equal
    rw [← Option.some.inj equal]
    exact Nat.lt_succ_self _
  · intro j below k below' differ
    dsimp only
    have old {j : Nat} (below : j < h.made + 1) (other : j ≠ h.made) : j < h.made := by omega
    by_cases first : j = h.made
    · have second : k ≠ h.made := fun same => differ (first.trans same.symm)
      rw [first, Function.update_self, Function.update_of_ne second]
      exact fun _ kept => unused k (old below' second) kept
    · by_cases second : k = h.made
      · rw [second, Function.update_self, Function.update_of_ne first]
        exact fun kept _ => (unused j (old below first) kept).symm
      · rw [Function.update_of_ne first, Function.update_of_ne second]
        exact sound.regions j (old below first) k (old below' second) differ

theorem alloc_internal_spec {malloc : UInt64 → Nat} {size align prefix_size : UInt64} (sound : HeapSound h)
    (current : h.current = some i) (mallocs : h.Mallocs malloc) (asks : h.Asks size align prefix_size) :
    ∃ next, h.alloc_internal malloc i size align prefix_size = some next ∧ HeapSound next := by
  have inside := sound.current i current
  have old := sound.buffers i inside
  have total := asks.total
  have eight : (8 : UInt64).toNat = 8 := rfl
  have header : (prefix_size + 8).toNat = prefix_size.toNat + 8 := toNat_add_of_lt (by omega)
  have whole : (size + (prefix_size + 8)).toNat = size.toNat + (prefix_size.toNat + 8) := by
    rw [← header]
    exact toNat_add_of_lt (by omega)
  rw [Heap.alloc_internal]
  cases attempt : (if size + (prefix_size + 8) ≤ (h.buffers i).buffer.m_size / 2 then
      h.allocIn i size align (prefix_size + 8) else none) with
  | some next =>
    refine ⟨next, rfl, ?_⟩
    have fits : size + (prefix_size + 8) ≤ (h.buffers i).buffer.m_size / 2 := by
      by_contra large
      rw [if_neg large] at attempt
      cases attempt
    rw [if_pos fits] at attempt
    rw [UInt64.le_iff_toNat_le, whole, UInt64.toNat_div, old.shaped.size] at fits
    change _ ≤ _ / 2 at fits
    refine allocIn_sound sound current ⟨asks.honoured, by omega, ?_⟩ (asks.few i current) attempt
    rw [header, Buffer.quarter]
    omega
  | none =>
    obtain ⟨shift, grown, lower, upper, fits⟩ :=
      nextShift_spec (by omega : (size + (prefix_size + 8)).toNat ≤ 2 ^ 62) old.shaped.shift_ge old.shaped.shift_le
    obtain ⟨aligned, unused⟩ := mallocs (4 <<< UInt64.ofNat shift)
    have replaced : HeapSound (h.replace i malloc shift) := by
      refine add_sound (drop_sound sound current) rfl lower upper aligned ?_
      intro j below kept
      have place : ((h.decref i 1).buffers j).address = (h.buffers j).address ∧
          ((h.decref i 1).buffers j).buffer.m_size = (h.buffers j).buffer.m_size ∧
          (((h.decref i 1).buffers j).released = false → (h.buffers j).released = false) := by
        rw [Heap.decref]
        dsimp only
        by_cases same : j = i
        · rw [same, Function.update_self]
          exact ⟨rfl, rfl, fun kept => (Bool.or_eq_false_iff.1 kept).1⟩
        · rw [Function.update_of_ne same]
          exact ⟨rfl, rfl, id⟩
      dsimp only at kept ⊢
      rw [place.1, place.2.1]
      exact unused j below (place.2.2 kept)
    -- the fresh buffer has room
    have last : (h.replace i malloc shift).current = some h.made := rfl
    have fresh := replaced.buffers h.made (Nat.lt_succ_self _)
    have new : (h.replace i malloc shift).buffers h.made =
        { buffer := .make shift, address := malloc (4 <<< UInt64.ofNat shift), released := false } :=
      Function.update_self ..
    have empty : (h.replace i malloc shift).blocksOf h.made = [] := by
      refine List.filter_eq_nil_iff.2 fun block listed same => ?_
      exact Nat.ne_of_lt (sound.known block listed) (of_decide_eq_true same)
    have serves : ((h.replace i malloc shift).buffers h.made).buffer.Serves size align (prefix_size + 8) := by
      refine ⟨asks.honoured, by omega, ?_⟩
      rw [new, header]
      show _ ≤ 2 * 2 ^ shift
      omega
    have unusedQuadrants : ∀ q < 4,
        ((h.replace i malloc shift).buffers h.made).buffer.count ((h.replace i malloc shift).blocksOf h.made) q = 0 := by
      intro q _
      rw [empty]
      rfl
    obtain ⟨⟨buffer, begin_off, usage⟩, out⟩ := alloc_unused fresh.shaped serves fresh.counts unusedQuadrants
    refine ⟨_, ?_, allocIn_sound replaced last serves (fun q below => ?_) (congrArg (Option.map _) out)⟩
    · rw [grown]
      exact congrArg (Option.map _) out
    · rw [unusedQuadrants q below]
      decide

end

/-! ## Runs -/

theorem sound_start {address : Nat} (aligned : address % 32 = 0) : HeapSound (.start address) where
  buffers i below := by
    obtain rfl := Nat.lt_one_iff.1 below
    exact sound_make le_rfl (by decide) aligned
  known := nofun
  current i equal := by
    rw [← Option.some.inj equal]
    exact Nat.one_pos
  regions i below j below' differ := by
    rw [Nat.lt_one_iff.1 below, Nat.lt_one_iff.1 below'] at differ
    exact absurd rfl differ

theorem heap_run {address : Nat} (aligned : address % 32 = 0) {h : Heap} (run : Run GoodStep (.start address) h) :
    HeapSound h := by
  refine run.invariant (sound_start aligned) ?_
  rintro h next sound ⟨action, good, step⟩
  cases step with
  | alloc current mallocs result =>
    obtain ⟨served, equal, sound⟩ := alloc_internal_spec sound current mallocs good
    rw [result] at equal
    rwa [Option.some.inj equal]
  | free live => exact free_sound sound live
  | destroy current => exact drop_sound sound current

/-! ## Safety -/

def Heap.addressOf (h : Heap) (block : Block) : Nat := (h.buffers block.buffer).address + block.first

structure Heap.Safe (h : Heap) : Prop where
  /-- A live block lies in its buffer, after the header, and the buffer is not released. -/
  inside : ∀ block ∈ h.live, (h.buffers block.buffer).released = false ∧ sizeofBuffer.toNat ≤ block.first ∧
    block.first + block.length ≤ (h.buffers block.buffer).buffer.m_size.toNat
  aligned : ∀ block ∈ h.live, block.align.toNat ∣ h.addressOf block + block.prefix_size.toNat
  apart : h.live.Pairwise (Apart h.addressOf Block.length)
  /-- What was added to the counters for a block is what its `free` takes away. -/
  usage : ∀ block ∈ h.live, block.usage = (h.buffers block.buffer).buffer.usageMask block.begin_off block.size
  /-- Every request is served, by a fresh buffer at the latest. -/
  serves : ∀ size align prefix_size, h.Asks size align prefix_size → ∀ i, h.current = some i → ∀ malloc, h.Mallocs malloc →
    (h.alloc_internal malloc i size align prefix_size).isSome
  /-- A buffer is released when the heap has dropped it and no block is left in it. -/
  released : ∀ i < h.made, (h.buffers i).released = true ↔ h.current ≠ some i ∧ ∀ block ∈ h.live, block.buffer ≠ i

theorem pairwise_of_filter {R : Block → Block → Prop} {live : List Block}
    (each : ∀ i, (live.filter (·.buffer = i)).Pairwise R) : live.Pairwise fun x y => x.buffer = y.buffer → R x y := by
  induction live with
  | nil => exact .nil
  | cons block rest ih =>
    refine List.pairwise_cons.2 ⟨fun other listed same => ?_, ih fun i => ?_⟩
    · have here := each block.buffer
      rw [blocksOf_cons, if_pos rfl] at here
      exact (List.pairwise_cons.1 here).1 other (List.mem_filter.2 ⟨listed, decide_eq_true same.symm⟩)
    · exact (each i).sublist ((List.sublist_cons_self block rest).filter _)

theorem HeapSound.block {h : Heap} (sound : HeapSound h) {block : Block} (live : block ∈ h.live) :
    BlockSound (h.buffers block.buffer) block ∧ (h.buffers block.buffer).released = false ∧
      (h.buffers block.buffer).buffer.m_size.toNat = 4 * (h.buffers block.buffer).buffer.quarter := by
  have here := sound.buffers _ (sound.known block live)
  have listed : block ∈ h.blocksOf block.buffer := List.mem_filter.2 ⟨live, decide_eq_true rfl⟩
  refine ⟨here.each block listed, Bool.eq_false_of_not_eq_true fun gone => ?_, here.shaped.size⟩
  rw [(here.released.1 gone).2] at listed
  cases listed

theorem HeapSound.safe {h : Heap} (sound : HeapSound h) : h.Safe where
  inside block live := by
    obtain ⟨block, kept, size⟩ := sound.block live
    exact ⟨kept, Nat.le_trans (by decide) block.above, size ▸ block.fits⟩
  aligned block live := (sound.block live).1.aligned
  apart := by
    have each (i : Nat) : (h.live.filter (·.buffer = i)).Pairwise (Apart Block.first Block.length) := by
      by_cases below : i < h.made
      · exact (sound.buffers i below).apart
      · have none : h.live.filter (·.buffer = i) = [] :=
          List.filter_eq_nil_iff.2 fun block listed same => below (of_decide_eq_true same ▸ sound.known block listed)
        rw [none]
        exact .nil
    refine (pairwise_of_filter each).imp_of_mem fun {x y} first second apart => ?_
    by_cases same : x.buffer = y.buffer
    · have apart := apart same
      rw [Apart] at apart ⊢
      rw [Heap.addressOf, Heap.addressOf, same]
      omega
    · obtain ⟨one, kept, size⟩ := sound.block first
      obtain ⟨two, kept', size'⟩ := sound.block second
      have region := sound.regions _ (sound.known x first) _ (sound.known y second) same kept kept'
      have fits := one.fits
      have fits' := two.fits
      rw [Apart] at region ⊢
      rw [Heap.addressOf, Heap.addressOf]
      omega
  usage block live := (sound.block live).1.usage
  serves size align prefix_size asks i current malloc mallocs := by
    obtain ⟨next, equal, -⟩ := alloc_internal_spec sound current mallocs asks
    rw [equal]
    rfl
  released i below := by
    rw [(sound.buffers i below).released, decide_eq_false_iff_not, Heap.blocksOf, List.filter_eq_nil_iff]
    simp only [decide_eq_true_eq, ne_eq]

/-- With alignments of at most 32 bytes, sizes below 2^62 and fewer than 65535 allocations in a
quadrant, the heap is safe in every state that it reaches. -/
theorem ringHeap_safe {address : Nat} (aligned : address % 32 = 0) {h : Heap}
    (run : Run GoodStep (.start address) h) : h.Safe := (heap_run aligned run).safe

/-- A block in the first buffer. -/
theorem ringHeap_safe_oneBlock : ∃ h : Heap, h.live.length = 1 ∧ h.Safe := by
  have mallocs : (Heap.start 0).Mallocs fun _ => 65536 := by
    refine fun size => ⟨(by decide : 65536 % 32 = 0), fun i below _ => .inr ?_⟩
    rw [Nat.lt_one_iff.1 below]
    exact (by decide : 0 + (Buffer.make 14).m_size.toNat ≤ 65536)
  have asks : (Heap.start 0).Asks 100 16 8 :=
    ⟨⟨4, by decide, by decide⟩, by decide, fun i current q _ => (by decide : 0 < 65535)⟩
  have served : ((Heap.start 0).alloc_internal (fun _ => 65536) 0 100 16 8).map (·.live.length) = some 1 := by decide
  obtain ⟨next, result, one⟩ := Option.map_eq_some_iff.1 served
  exact ⟨next, one, ringHeap_safe (by decide : 0 % 32 = 0)
    (.single ⟨.alloc 100 16 8, asks, .alloc rfl mallocs result⟩)⟩

/-! ## Larger alignments -/

theorem first_request (address : Nat) (size align prefix_size : UInt64) (holds : Heap → Bool)
    (aligned : (address + 65536) % 32 = 0)
    (served : ((Heap.start address).alloc_internal (fun _ => address + 65536) 0 size align prefix_size).map holds = some true) :
    ∃ h : Heap, Run AnyStep (.start address) h ∧ holds h = true := by
  obtain ⟨next, result, holds⟩ := Option.map_eq_some_iff.1 served
  refine ⟨next, .single ⟨.alloc size align prefix_size, .alloc rfl (fun size => ⟨aligned, fun i below _ => .inr ?_⟩) result⟩, holds⟩
  rw [Nat.lt_one_iff.1 below]
  exact Nat.add_le_add_left (by decide : (Buffer.make 14).m_size.toNat ≤ 65536) address

/-- With an alignment of 64 the block is misaligned when the buffer is, and with one of 65536 it
lies outside the buffer. -/
theorem aligned_unsafe :
    (∃ h : Heap, Run AnyStep (.start 32) h ∧ ∃ block ∈ h.live, ¬ block.align.toNat ∣ h.addressOf block + block.prefix_size.toNat) ∧
    ∃ h : Heap, Run AnyStep (.start 0) h ∧ ∃ block ∈ h.live,
      (h.buffers block.buffer).buffer.m_size.toNat < block.first + block.length := by
  constructor
  · obtain ⟨h, run, holds⟩ := first_request 32 100 64 8
      (fun h => h.live.any fun block => ¬ block.align.toNat ∣ h.addressOf block + block.prefix_size.toNat)
      (by decide) (by decide)
    obtain ⟨block, live, holds⟩ := List.any_eq_true.1 holds
    exact ⟨h, run, block, live, of_decide_eq_true holds⟩
  · obtain ⟨h, run, holds⟩ := first_request 0 100 65536 8
      (fun h => h.live.any fun block =>
        (h.buffers block.buffer).buffer.m_size.toNat < block.first + block.length)
      (by decide) (by decide)
    obtain ⟨block, live, holds⟩ := List.any_eq_true.1 holds
    exact ⟨h, run, block, live, of_decide_eq_true holds⟩

end Pcsx2.GsHeap
