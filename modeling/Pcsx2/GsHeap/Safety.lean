import Pcsx2.Foundation.Intervals
import Pcsx2.GsHeap.Allocation

/-!
# Blocks that do not overlap

The counters of a buffer count the live blocks of each quadrant, and all of these lie before the
write position or in a later quadrant. So a block that is handed out overlaps no other one, and the
amount of a buffer is zero exactly when nobody has a use for it.
-/

namespace Pcsx2.GsHeap
open Foundation

def Block.first (block : Block) : Nat := block.begin_off.toNat

def Block.length (block : Block) : Nat := block.size.toNat

def Buffer.Touches (b : Buffer) (q : Nat) (block : Block) : Prop :=
  b.firstQuadrant block.begin_off ≤ q ∧ q ≤ b.lastQuadrant block.begin_off block.size

instance (b : Buffer) (q : Nat) (block : Block) : Decidable (b.Touches q block) :=
  inferInstanceAs (Decidable (_ ∧ _))

def Buffer.count (b : Buffer) (blocks : List Block) (q : Nat) : Nat := blocks.countP (b.Touches q ·)

/-! ## One buffer -/

structure BlockSound (made : Made) (block : Block) : Prop where
  above : 64 ≤ block.first
  fits : block.first + block.length ≤ 4 * made.buffer.quarter
  some : 0 < block.length
  half : block.length ≤ 2 * made.buffer.quarter
  aligned : block.align.toNat ∣ made.address + block.first + block.prefix_size.toNat
  usage : block.usage = made.buffer.usageMask block.begin_off block.size

structure BufferSound (made : Made) (blocks : List Block) (held : Bool) : Prop where
  shaped : made.buffer.Shaped
  address : made.address % 32 = 0
  counts : made.buffer.Counts (made.buffer.count blocks)
  amount : made.buffer.m_amt_allocated.toNat = held.toNat + (blocks.map Block.length).sum
  each : ∀ block ∈ blocks, BlockSound made block
  placed : ∀ block ∈ blocks, block.first + block.length ≤ made.buffer.m_write_loc.toNat ∨
    made.buffer.front < made.buffer.firstQuadrant block.begin_off
  apart : blocks.Pairwise (Apart Block.first Block.length)
  released : made.released = true ↔ held = false ∧ blocks = []

section

variable {made : Made} {blocks : List Block} {held : Bool} (sound : BufferSound made blocks held)
include sound

theorem BufferSound.perm {others : List Block} (perm : blocks.Perm others) : BufferSound made others held where
  shaped := sound.shaped
  address := sound.address
  counts := by
    have same : made.buffer.count blocks = made.buffer.count others := funext fun q => perm.countP_eq _
    exact same ▸ sound.counts
  amount := by rw [sound.amount, (perm.map Block.length).sum_eq]
  each block listed := sound.each block (perm.mem_iff.2 listed)
  placed block listed := sound.placed block (perm.mem_iff.2 listed)
  apart := (perm.pairwise_iff fun apart => apart.symm).1 sound.apart
  released := by
    rw [sound.released, ← List.length_eq_zero_iff, perm.length_eq, List.length_eq_zero_iff]

end

theorem sound_make {shift address : Nat} (lower : 14 ≤ shift) (upper : shift ≤ 61) (aligned : address % 32 = 0) :
    BufferSound { buffer := .make shift, address, released := false } [] true where
  shaped := by
    have power : 2 ^ shift ≤ 2 ^ 61 := Nat.pow_le_pow_right Nat.two_pos upper
    have large : 2 ^ 14 ≤ 2 ^ shift := Nat.pow_le_pow_right Nat.two_pos lower
    refine ⟨lower, upper, ?_, le_rfl, ?_⟩
    · show ((4 : UInt64) <<< UInt64.ofNat shift).toNat = _
      rw [UInt64.toNat_shiftLeft, UInt64.toNat_ofNat', Nat.mod_eq_of_lt (by omega : shift < 2 ^ 64),
        Nat.mod_eq_of_lt (by omega : shift < 64), Nat.shiftLeft_eq]
      show 4 * 2 ^ shift % 2 ^ 64 = 4 * 2 ^ shift
      omega
    · show 64 ≤ _
      show 64 ≤ 4 * 2 ^ shift
      omega
  address := aligned
  counts := ⟨fun _ _ => Nat.two_pow_pos 16, rfl⟩
  amount := rfl
  each := nofun
  placed := nofun
  apart := .nil
  released := ⟨nofun, nofun⟩

theorem mask_toNat (b : Buffer) (block : Block) :
    (rangeMask (b.firstQuadrant block.begin_off) (b.lastQuadrant block.begin_off block.size)).toNat =
      lanes fun q => if b.Touches q block then 1 else 0 := rangeMask_toNat _ _

theorem lanes_count_cons (b : Buffer) (block : Block) (blocks : List Block) :
    lanes (b.count (block :: blocks)) = lanes (b.count blocks) + lanes fun q => if b.Touches q block then 1 else 0 := by
  rw [← lanes_add]
  apply lanes_congr
  intro q _
  simp only [Buffer.count, List.countP_cons, decide_eq_true_eq]

theorem BlockSound.counted {made : Made} {blocks : List Block} {block : Block} (sound : BlockSound made block)
    (listed : block ∈ blocks) (positive : 0 < made.buffer.quarter) :
    made.buffer.firstQuadrant block.begin_off < 4 ∧
      made.buffer.count blocks (made.buffer.firstQuadrant block.begin_off) ≠ 0 := by
  have some := sound.some
  have fits := sound.fits
  rw [Block.length] at some fits
  rw [Block.first] at fits
  constructor
  · exact Nat.div_lt_of_lt_mul (by omega)
  · refine Nat.ne_of_gt (List.countP_pos_iff.2 ⟨block, listed, ?_⟩)
    exact decide_eq_true ⟨le_rfl, Nat.div_le_div_right (by omega)⟩

section

variable {b : Buffer} {address : Nat} {released : Bool} {blocks : List Block} {block : Block} {size : UInt64}
  {next : Buffer} (sound : BufferSound { buffer := b, address, released } blocks true)
  (out : HandsOut b (b.count blocks) size block.align block.prefix_size next block.begin_off block.usage)
  (whole : block.size = size + block.prefix_size)
include sound out whole

/-- A block that was there before: it is before the write position in quadrants that were written, or
after the new block. -/
theorem HandsOut.meets {other : Block} (listed : other ∈ blocks) :
    (other.first + other.length ≤ b.m_write_loc.toNat ∧ b.m_write_loc.toNat ≤ block.first) ∨
      b.lastQuadrant block.begin_off block.size < b.firstQuadrant other.begin_off := by
  have large : 16384 ≤ b.quarter := quarter_ge sound.shaped
  obtain ⟨inside, used⟩ := (sound.each other listed).counted listed (by dsimp only; omega)
  rw [whole]
  rcases out.free _ inside used with after | ⟨written, before⟩
  · exact .inr after
  · rcases sound.placed other listed with below | above
    · exact .inl ⟨below, before⟩
    · exact absurd written (Nat.not_le_of_lt above)

variable (serves : b.Serves size block.align block.prefix_size)
include serves

theorem HandsOut.blockSound : BlockSound { buffer := next, address, released } block := by
  have total := total_toNat sound.shaped serves
  have half := serves.half
  have header := serves.header
  have fits := out.fits
  have mask := out.mask
  rw [← whole] at total fits mask
  obtain rfl := out.next
  have some : 0 < block.size.toNat := by omega
  have small : block.size.toNat ≤ 2 * b.quarter := by omega
  refine ⟨out.above, fits, some, small, ?_, ?_⟩
  · obtain ⟨k, bound, power⟩ := serves.honoured
    have divides : block.align.toNat ∣ address := by
      rw [power]
      exact (Nat.pow_dvd_pow 2 bound).trans (Nat.dvd_of_mod_eq_zero sound.address)
    show block.align.toNat ∣ address + block.begin_off.toNat + block.prefix_size.toNat
    rw [Nat.add_assoc]
    exact Nat.dvd_add divides out.aligned
  · exact mask.trans (usageMask_eq sound.shaped some small fits).symm

theorem sound_alloc (few : ∀ q < 4, b.count blocks q < 65535) :
    BufferSound { buffer := next, address, released } (block :: blocks) true := by
  have large : 16384 ≤ b.quarter := quarter_ge sound.shaped
  have limit : b.quarter ≤ 2 ^ 61 := quarter_le sound.shaped
  have new := out.blockSound sound whole serves
  have meets {other : Block} (listed : other ∈ blocks) := out.meets sound whole listed
  have mask := out.mask
  obtain rfl := out.next
  rw [← whole] at *
  have positive : 0 < b.quarter := by omega
  have some : 0 < block.size.toNat := new.some
  have fits : block.begin_off.toNat + block.size.toNat ≤ 4 * b.quarter := new.fits
  have above : 64 ≤ block.begin_off.toNat := new.above
  have top : (block.begin_off + block.size).toNat = block.begin_off.toNat + block.size.toNat :=
    toNat_add_of_lt (by omega)
  have each : ∀ other ∈ block :: blocks, BlockSound _ other := fun other listed => by
    rcases List.mem_cons.1 listed with rfl | listed
    · exact new
    · obtain ⟨above, fits, some, half, aligned, usage⟩ := sound.each other listed
      exact ⟨above, fits, some, half, aligned, usage⟩
  have apart : (block :: blocks).Pairwise (Apart Block.first Block.length) := by
    refine List.pairwise_cons.2 ⟨fun other listed => ?_, sound.apart⟩
    rcases meets listed with before | after
    · exact .inr (Nat.le_trans before.1 before.2)
    · have below := Nat.lt_of_div_lt_div after
      exact .inl (by rw [Block.first, Block.first, Block.length]; omega)
  have total := sum_le_of_apart apart fun other listed => ⟨(each other listed).above, (each other listed).fits⟩
  have counts : ∀ q < 4, b.count (block :: blocks) q < 2 ^ 16 := by
    intro q inside
    have few := few q inside
    rw [Buffer.count] at few ⊢
    rw [List.countP_cons]
    split <;> omega
  refine ⟨⟨sound.shaped.shift_ge, sound.shaped.shift_le, sound.shaped.size, ?_, ?_⟩, sound.address, ⟨counts, ?_⟩, ?_,
    each, ?_, apart, ?_⟩
  · show 64 ≤ (block.begin_off + block.size).toNat
    omega
  · show (block.begin_off + block.size).toNat ≤ 4 * b.quarter
    omega
  · show (b.m_usage + block.usage).toNat = lanes (b.count (block :: blocks))
    have sum := lanes_count_cons b block blocks
    have small := lanes_lt counts
    have before := sound.counts.2
    dsimp only at before
    rw [← mask_toNat, ← mask, ← before] at sum
    rw [sum] at small ⊢
    exact toNat_add_of_lt small
  · show (b.m_amt_allocated + block.size).toNat = 1 + ((block :: blocks).map Block.length).sum
    have before := sound.amount
    dsimp only [Bool.toNat_true] at before
    change _ ≤ 4 * b.quarter - 64 at total
    rw [List.map_cons, List.sum_cons, Block.length] at total ⊢
    rw [toNat_add_of_lt (by omega), before]
    omega
  · intro other listed
    show other.first + other.length ≤ (block.begin_off + block.size).toNat ∨
      ((block.begin_off + block.size).toNat - 1) / b.quarter < b.firstQuadrant other.begin_off
    rw [top]
    rcases List.mem_cons.1 listed with rfl | listed
    · exact .inl le_rfl
    · rcases meets listed with ⟨below, before⟩ | after
      · refine .inl (Nat.le_trans below (Nat.le_trans before ?_))
        exact Nat.le_add_right ..
      · exact .inr after
  · exact ⟨fun gone => absurd (sound.released.1 gone).1 nofun, fun both => absurd both.1 nofun⟩

end

section

variable {made : Made} {blocks : List Block} {block : Block} {held : Bool}

theorem BufferSound.sum_eq_zero (each : ∀ block ∈ blocks, BlockSound made block) :
    (blocks.map Block.length).sum = 0 ↔ blocks = [] := by
  cases blocks with
  | nil => exact iff_of_true rfl rfl
  | cons block rest =>
    have some := (each block List.mem_cons_self).some
    rw [List.map_cons, List.sum_cons]
    exact iff_of_false (by omega) nofun

theorem sound_drop (sound : BufferSound made blocks true) : BufferSound (made.decref 1) blocks false := by
  have amount := sound.amount
  have left : (made.buffer.m_amt_allocated - 1).toNat = (blocks.map Block.length).sum := by
    rw [toNat_sub_of_le (by rw [amount]; exact Nat.le_add_right ..), amount]
    exact Nat.add_sub_cancel_left ..
  have kept : made.released = false := Bool.eq_false_of_not_eq_true fun gone => absurd (sound.released.1 gone).1 nofun
  refine ⟨⟨sound.shaped.shift_ge, sound.shaped.shift_le, sound.shaped.size, sound.shaped.write_ge,
    sound.shaped.write_le⟩, sound.address, sound.counts, ?_, ?_, sound.placed, sound.apart, ?_⟩
  · exact left.trans (Nat.zero_add _).symm
  · intro block listed
    obtain ⟨above, fits, some, half, aligned, usage⟩ := sound.each block listed
    exact ⟨above, fits, some, half, aligned, usage⟩
  · show (made.released || made.buffer.m_amt_allocated == 1) = true ↔ _
    rw [kept, Bool.false_or, beq_iff_eq, ← UInt64.toNat_inj, amount, ← BufferSound.sum_eq_zero sound.each]
    show 1 + _ = 1 ↔ _
    simp

theorem sound_free (sound : BufferSound made (block :: blocks) held) :
    BufferSound (made.free block.begin_off block.size) blocks held := by
  have amount := sound.amount
  have freed := sound.each block List.mem_cons_self
  have each : ∀ other ∈ blocks, BlockSound (made.free block.begin_off block.size) other := by
    intro other listed
    obtain ⟨above, fits, some, half, aligned, usage⟩ := sound.each other (List.mem_cons_of_mem _ listed)
    exact ⟨above, fits, some, half, aligned, usage⟩
  rw [List.map_cons, List.sum_cons, Block.length] at amount
  have left : (made.buffer.m_amt_allocated - block.size).toNat = held.toNat + (blocks.map Block.length).sum := by
    rw [toNat_sub_of_le (by omega), amount]
    omega
  have kept : made.released = false := Bool.eq_false_of_not_eq_true fun gone => absurd (sound.released.1 gone).2 nofun
  refine ⟨⟨sound.shaped.shift_ge, sound.shaped.shift_le, sound.shaped.size, sound.shaped.write_ge,
    sound.shaped.write_le⟩, sound.address, ⟨?_, ?_⟩, left, each, ?_, (List.pairwise_cons.1 sound.apart).2, ?_⟩
  · intro q inside
    refine Nat.lt_of_le_of_lt ?_ (sound.counts.1 q inside)
    exact (List.sublist_cons_self block blocks).countP_le
  · show (made.buffer.m_usage - made.buffer.usageMask block.begin_off block.size).toNat = lanes (made.buffer.count blocks)
    have before := sound.counts.2
    rw [lanes_count_cons, ← mask_toNat, ← usageMask_eq sound.shaped freed.some freed.half freed.fits] at before
    rw [toNat_sub_of_le (by omega), before, Nat.add_sub_cancel]
  · intro other listed
    exact sound.placed other (List.mem_cons_of_mem _ listed)
  · show (made.released || made.buffer.m_amt_allocated == block.size) = true ↔ _
    rw [kept, Bool.false_or, beq_iff_eq, ← UInt64.toNat_inj, amount, ← BufferSound.sum_eq_zero each]
    cases held
    · simp
    · simp
      omega

end

end Pcsx2.GsHeap
