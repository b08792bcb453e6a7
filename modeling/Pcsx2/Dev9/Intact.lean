import Mathlib.Data.List.Basic
import Pcsx2.Dev9.Received

/-!
# Delivery of a packet

A packet's bytes go to consecutive places of the ring, its length and pointer to the next descriptor.
-/

namespace Pcsx2.Dev9
open Foundation

namespace Smap

structure Filled (buffer : Nat → UInt8) (count first : Nat) (s t : Smap) : Prop where
  dev9R : t.dev9R = s.dev9R
  rxbdi : t.rxbdi = s.rxbdi
  txbdi : t.txbdi = s.txbdi
  rxfifo_wr_ptr : t.rxfifo_wr_ptr = (s.rxfifo_wr_ptr + count) % 16384
  inside : (∀ a ∈ s.accesses, a.Inside) → ∀ a ∈ t.accesses, a.Inside
  kept : ∀ position, (∀ k < count, position ≠ (s.rxfifo_wr_ptr + k) % 16384) → t.rxfifo position = s.rxfifo position
  put : count ≤ 16384 → ∀ k < count, t.rxfifo ((s.rxfifo_wr_ptr + k) % 16384) = buffer (first + k)

theorem rxLoop_filled (buffer : Nat → UInt8) (count first : Nat) {s : Smap} (start : s.rxfifo_wr_ptr < 16384) :
    Filled buffer count first s (rxLoop buffer count first s) := by
  induction count generalizing first s with
  | zero =>
    refine ⟨rfl, rfl, rfl, (Nat.mod_eq_of_lt start).symm, id, fun _ _ => rfl, fun _ k none => absurd none (by omega)⟩
  | succ count ih =>
    have next : (s.rxfifoWrite (buffer first)).rxfifo_wr_ptr = (s.rxfifo_wr_ptr + 1) % 16384 := by
      simp only [rxfifoWrite]
      omega
    have rest := ih (first + 1) (s := s.rxfifoWrite (buffer first)) (by rw [next]; exact Nat.mod_lt _ (by decide))
    have shift : ∀ k, ((s.rxfifoWrite (buffer first)).rxfifo_wr_ptr + k) % 16384 =
        (s.rxfifo_wr_ptr + (k + 1)) % 16384 := by
      intro k
      rw [next]
      omega
    constructor
    case dev9R => exact rest.dev9R
    case rxbdi => exact rest.rxbdi
    case txbdi => exact rest.txbdi
    case rxfifo_wr_ptr => exact rest.rxfifo_wr_ptr.trans (shift count)
    case inside =>
      refine fun before => rest.inside fun a mem => ?_
      rcases List.mem_append.mp mem with mem | mem
      · exact before a mem
      · rw [List.mem_singleton.mp mem]
        exact start
    case kept =>
      intro position away
      rw [rxLoop, rest.kept position fun k below => by rw [shift]; exact away (k + 1) (by omega)]
      refine Function.update_of_ne ?_ _ _
      have here := away 0 (by omega)
      rwa [Nat.add_zero, Nat.mod_eq_of_lt start] at here
    case put =>
      intro fits k below
      cases k with
      | zero =>
        rw [rxLoop, rest.kept]
        · rw [Nat.add_zero, Nat.mod_eq_of_lt start]
          exact Function.update_self _ _ _
        · intro k later
          rw [shift]
          omega
      | succ k =>
        rw [rxLoop, ← shift, rest.put (by omega) k (by omega)]
        congr 1
        omega

structure Delivered (pk : NetPacket) (s t : Smap) : Prop where
  rxbdi : t.rxbdi = (s.rxbdi + 1) % 64
  txbdi : t.txbdi = s.txbdi
  rxfifo_wr_ptr : t.rxfifo_wr_ptr = (s.rxfifo_wr_ptr + pk.bytes) % 16384
  inside : (∀ a ∈ s.accesses, a.Inside) → ∀ a ∈ t.accesses, a.Inside
  kept : ∀ position, (∀ k < pk.bytes, position ≠ (s.rxfifo_wr_ptr + k) % 16384) →
    t.rxfifo position = s.rxfifo position
  put : ∀ k < pk.bytes, t.rxfifo ((s.rxfifo_wr_ptr + k) % 16384) = pk.buffer k
  taken : (t.dev9Ru 2 s.rxbd).testBit 15 = false
  length : t.dev9Ru 2 (s.rxbd + 4) = pk.size
  pointer : t.dev9Ru 2 (s.rxbd + 6) = 0x4000 + s.rxfifo_wr_ptr
  registers : ∀ size mem, (mem % 0x10000 + size ≤ 0x103c ∨ 0x103d ≤ mem % 0x10000) →
    (mem % 0x10000 + size ≤ 0x3200 + 8 * s.rxbdi ∨ 0x3208 + 8 * s.rxbdi ≤ mem % 0x10000) →
      t.dev9Ru size mem = s.dev9Ru size mem

theorem rxbd_mod {s : Smap} (bound : s.rxbdi < 64) (k : Nat) (small : k < 8) :
    (s.rxbd + k) % 0x10000 = 0x3200 + 8 * s.rxbdi + k := by
  unfold rxbd SMAP_BD_RX_BASE SMAP_REGBASE
  omega

theorem rx_process_delivered {pk : NetPacket} (fits : pk.size ≤ 1514) {s : Smap} (start : s.rxfifo_wr_ptr < 16384)
    (bound : s.rxbdi < 64) (ready : (s.dev9Ru 2 s.rxbd).testBit 15 = true) :
    Delivered pk s (s.rx_process pk) := by
  have filled := rxLoop_filled pk.buffer pk.bytes 0 start
  have bytes : pk.bytes ≤ 16384 := by
    unfold NetPacket.bytes
    omega
  have place := rxbd_mod bound
  have place₀ : s.rxbd % 0x10000 = 0x3200 + 8 * s.rxbdi := place 0 (by decide)
  have place₄ := place 4 (by decide)
  have place₆ := place 6 (by decide)
  have count : SMAP_R_RXFIFO_FRAME_CNT % 0x10000 = 0x103c := by decide
  unfold rx_process
  simp only [ready, Bool.not_true, Bool.false_eq_true, ↓reduceIte]
  generalize rxLoop pk.buffer pk.bytes 0 s = u at filled ⊢
  generalize moved : ({ u with rxbdi := (u.rxbdi + 1) % (SMAP_BD_SIZE / 8) } : Smap) = v
  have registers : ∀ size mem, v.dev9Ru size mem = s.dev9Ru size mem := by
    intro size mem
    rw [← moved]
    unfold dev9Ru
    rw [← filled.dev9R]
  generalize low : v.setDev9Ru 2 (s.rxbd + 4) pk.size = v₁
  generalize high : v₁.setDev9Ru 2 (s.rxbd + 6) (0x4000 + s.rxfifo_wr_ptr % 16384) = v₂
  generalize control : v₂.setDev9Ru 2 s.rxbd (v₂.dev9Ru 2 s.rxbd &&& 0x7fff) = v₃
  generalize counted :
    v₃.setDev9Ru 1 SMAP_R_RXFIFO_FRAME_CNT (v₃.dev9Ru 1 SMAP_R_RXFIFO_FRAME_CNT + 1) = v₄
  -- Each of the four writes leaves what is apart from it.
  have apart₁ : ∀ size mem, mem % 0x10000 + size ≤ 0x3204 + 8 * s.rxbdi ∨ 0x3206 + 8 * s.rxbdi ≤ mem % 0x10000 →
      v₁.dev9Ru size mem = v.dev9Ru size mem := by
    intro size mem apart
    rw [← low, dev9Ru_apart _ _ (by omega)]
  have apart₂ : ∀ size mem, mem % 0x10000 + size ≤ 0x3206 + 8 * s.rxbdi ∨ 0x3208 + 8 * s.rxbdi ≤ mem % 0x10000 →
      v₂.dev9Ru size mem = v₁.dev9Ru size mem := by
    intro size mem apart
    rw [← high, dev9Ru_apart _ _ (by omega)]
  have apart₃ : ∀ size mem, mem % 0x10000 + size ≤ 0x3200 + 8 * s.rxbdi ∨ 0x3202 + 8 * s.rxbdi ≤ mem % 0x10000 →
      v₃.dev9Ru size mem = v₂.dev9Ru size mem := by
    intro size mem apart
    rw [← control, dev9Ru_apart _ _ (by omega)]
  have apart₄ : ∀ size mem, mem % 0x10000 + size ≤ 0x103c ∨ 0x103d ≤ mem % 0x10000 →
      v₄.dev9Ru size mem = v₃.dev9Ru size mem := by
    intro size mem apart
    rw [← counted, dev9Ru_apart _ _ (by omega)]
  have same : v₄.rxbdi = v.rxbdi ∧ v₄.txbdi = v.txbdi ∧ v₄.rxfifo_wr_ptr = v.rxfifo_wr_ptr ∧
      v₄.accesses = v.accesses ∧ v₄.rxfifo = v.rxfifo := by
    rw [← counted, ← control, ← high, ← low]
    exact ⟨rfl, rfl, rfl, rfl, rfl⟩
  obtain ⟨rxbdi, txbdi, wr_ptr, accesses, rxfifo⟩ := same
  subst moved
  constructor
  case rxbdi => exact rxbdi.trans (congrArg (fun n => (n + 1) % 64) filled.rxbdi)
  case txbdi => exact txbdi.trans filled.txbdi
  case rxfifo_wr_ptr => exact wr_ptr.trans filled.rxfifo_wr_ptr
  case inside => exact fun before a mem => filled.inside before a (accesses ▸ mem)
  case kept => exact fun position away => (congrFun rxfifo position).trans (filled.kept position away)
  case put =>
    intro k below
    refine (congrFun rxfifo _).trans ((filled.put bytes k below).trans ?_)
    rw [Nat.zero_add]
  case taken =>
    show (v₄.dev9Ru 2 s.rxbd).testBit 15 = false
    rw [apart₄ _ _ (by omega), ← control, dev9Ru_setDev9Ru]
    exact testBit_clear _
  case length =>
    show v₄.dev9Ru 2 (s.rxbd + 4) = pk.size
    rw [apart₄ _ _ (by omega), apart₃ _ _ (by omega), apart₂ _ _ (by omega), ← low, dev9Ru_setDev9Ru]
    omega
  case pointer =>
    show v₄.dev9Ru 2 (s.rxbd + 6) = 0x4000 + s.rxfifo_wr_ptr
    rw [apart₄ _ _ (by omega), apart₃ _ _ (by omega), ← high, dev9Ru_setDev9Ru]
    omega
  case registers =>
    intro size mem no_count outside
    show v₄.dev9Ru size mem = s.dev9Ru size mem
    rw [apart₄ _ _ no_count, apart₃ _ _ (by omega), apart₂ _ _ (by omega), apart₁ _ _ (by omega), registers]

end Smap

end Pcsx2.Dev9

/-!
# Received packets stay intact

A FIFO that is filled to its last byte looks empty to `rx_fifo_can_rx`, which takes any distance of the
pointers for room of a packet of 1514 bytes and so 1516 in the FIFO; the data registers take their pointers
as the guest left them. Where a packet fits before the read pointer and the words of the data registers and
of DMA are inside, every packet can be read until the guest has done with it.
-/

namespace Pcsx2.Dev9
open Foundation

namespace History

/-! ## The condition -/

/-- The accesses of the guest do not cross the end of a FIFO, and a packet neither reaches beyond the read
pointer nor to a packet that was read but is still held. -/
def Clear (h : History) : Action → Prop
  | .read32 addr => addr = SMAP_R_RXFIFO_DATA → position h.smap + 4 ≤ 16384
  | .write32 addr _ => addr = SMAP_R_TXFIFO_DATA → h.smap.dev9Ru 4 SMAP_R_TXFIFO_WR_PTR + 4 ≤ 16384
  | .readDMA size =>
      (h.smap.dev9Ru 2 SMAP_R_RXFIFO_CTRL).testBit 1 = true →
        Smap.TransferInside (position h.smap) ((size + 3) / 4)
  | .writeDMA words =>
      (h.smap.dev9Ru 2 SMAP_R_TXFIFO_CTRL).testBit 1 = true →
        Smap.TransferInside (h.smap.dev9Ru 4 SMAP_R_TXFIFO_WR_PTR % 16384) words.length
  | .packet pk =>
      (h.smap.dev9Ru 2 h.smap.rxbd).testBit 15 = true →
        h.written + pk.bytes ≤ h.read + 16384 ∧
          ∀ p ∈ h.packets, p.Held → p.start < h.read → ∀ k < pk.bytes, ∀ i < p.packet.size,
            (h.written + k) % 16384 ≠ (p.start + i) % 16384
  | _ => True

def ClearSteps (h k : History) : Prop := ∃ action, h.Fits action ∧ h.Clear action ∧ h.step action = k

/-! ## The invariant -/

structure Kept (h : History) : Prop where
  wr_ptr : h.smap.rxfifo_wr_ptr = h.written % 16384
  order : h.read ≤ h.written
  room : h.written ≤ h.read + 16384
  started : 16384 ≤ h.written
  rxbdi : h.smap.rxbdi < 64
  txbdi : h.smap.txbdi < 64
  bd : ∀ p ∈ h.packets, p.bd < 64
  put : ∀ p ∈ h.packets, p.start + p.packet.size ≤ h.written
  safe : h.Safe

structure Inv (h : History) : Prop extends Kept h where
  rd_ptr : position h.smap = h.read % 16384

theorem moved_spec {written read position : Nat} (order : read ≤ written) (room : written ≤ read + 16384)
    (started : 16384 ≤ written) (inside : position < 16384) :
    moved written read position % 16384 = position ∧ moved written read position ≤ written ∧
      written ≤ moved written read position + 16384 := by
  unfold moved
  simp only
  split <;> omega

variable {h : History}

theorem Kept.move (kept : h.Kept) {position : Nat} (inside : position < 16384) :
    (h.move position).Kept ∧ (h.move position).read % 16384 = position := by
  obtain ⟨at_position, order, room⟩ := moved_spec kept.order kept.room kept.started inside
  refine ⟨⟨kept.wr_ptr, order, room, kept.started, kept.rxbdi, kept.txbdi, ?_, ?_, ?_⟩, at_position⟩
  · intro p mem
    obtain ⟨q, before, rfl⟩ := List.mem_map.mp mem
    exact kept.bd q before
  · intro p mem
    obtain ⟨q, before, rfl⟩ := List.mem_map.mp mem
    exact kept.put q before
  · refine ⟨kept.safe.inside, fun p mem held => ?_, fun p mem own => ?_⟩
    · obtain ⟨q, before, rfl⟩ := List.mem_map.mp mem
      refine kept.safe.readable q before fun done => held ⟨?_, done.2⟩
      simp only [done.1, Bool.true_or]
    · obtain ⟨q, before, rfl⟩ := List.mem_map.mp mem
      obtain ⟨taken, length, pointer⟩ := kept.safe.described q before own
      exact ⟨taken, length, pointer⟩

theorem Kept.moveWords (kept : h.Kept) (start words : Nat) : (h.moveWords start words).Kept := by
  induction words with
  | zero => exact kept
  | succ words ih => exact (ih.move (Nat.mod_lt _ (by decide))).1

theorem moveWords_position (kept : h.Kept) {start : Nat} (at_start : h.read % 16384 = start)
    (words : Nat) : (h.moveWords start words).read % 16384 = (start + 4 * words) % 16384 := by
  cases words with
  | zero => rw [moveWords, at_start, Nat.mul_zero, Nat.add_zero, Nat.mod_eq_of_lt (by omega)]
  | succ words => exact ((kept.moveWords start words).move (Nat.mod_lt _ (by decide))).2

@[simp] theorem moveWords_smap (h : History) (start words : Nat) : (h.moveWords start words).smap = h.smap := by
  induction words with
  | zero => rfl
  | succ words ih => exact ih

/-! ## Descriptors -/

theorem pbd_mod {p : Received} (bound : p.bd < 64) (k : Nat) (small : k < 8) :
    (p.pbd + k) % 0x10000 = 0x3200 + 8 * p.bd + k := by
  unfold Received.pbd SMAP_BD_RX_BASE SMAP_REGBASE
  omega

def Register (addr size : Nat) : Prop := size = 0 ∨ (SMAP_REGBASE ≤ addr ∧ addr < FLASH_REGBASE)

theorem dev9Ru_of_frame {s t : Smap} {addr size : Nat} (frame : Frame (addr % 0x10000) size s t)
    (register : Register addr size) {p : Received} (bound : p.bd < 64) (k size' : Nat) (within : k + size' ≤ 8)
    (untouched : ¬ Touches addr size (p.pbd + k) size') : t.dev9Ru size' (p.pbd + k) = s.dev9Ru size' (p.pbd + k) := by
  rcases Nat.eq_zero_or_pos size' with rfl | some_byte
  · rfl
  refine readBytes_congr fun i low high => frame.table i ?_ ?_ ?_
  all_goals
    have place := pbd_mod bound k (by omega)
    rw [place] at low high
  · omega
  · omega
  · rcases register with rfl | ⟨from_base, below⟩
    · omega
    · unfold Touches Received.pbd SMAP_BD_RX_BASE at untouched
      unfold FLASH_REGBASE at below
      unfold SMAP_REGBASE at from_base untouched
      omega

theorem Kept.wrote (kept : h.Kept) {t : Smap} {addr size : Nat}
    (frame : Frame (addr % 0x10000) size h.smap t) (register : Register addr size) :
    (({ h with smap := t } : History).wrote addr size).Kept := by
  refine ⟨frame.rxfifo_wr_ptr.trans kept.wr_ptr, kept.order, kept.room, kept.started, ?_, frame.txbdi kept.txbdi, ?_, ?_, ?_⟩
  · exact frame.rxbdi.trans_lt kept.rxbdi
  · intro p mem
    obtain ⟨q, before, rfl⟩ := List.mem_map.mp mem
    exact kept.bd q before
  · intro p mem
    obtain ⟨q, before, rfl⟩ := List.mem_map.mp mem
    exact kept.put q before
  · refine ⟨frame.inside kept.safe.inside, fun p mem held i below => ?_, fun p mem own => ?_⟩
    · obtain ⟨q, before, rfl⟩ := List.mem_map.mp mem
      have readable := kept.safe.readable q before fun done => held ⟨done.1, by simp only [done.2, Bool.true_or]⟩
      exact (congrFun frame.rxfifo _).trans (readable i below)
    · obtain ⟨q, before, rfl⟩ := List.mem_map.mp mem
      obtain ⟨own, not_made⟩ := Bool.or_eq_false_iff.mp own
      have described := kept.safe.described q before own
      have bound := kept.bd q before
      constructor
      case taken =>
        by_cases touched : Touches addr size q.pbd 2
        · rw [decide_eq_true touched, Bool.true_and] at not_made
          exact not_made
        · exact (congrArg (Nat.testBit · 15) (dev9Ru_of_frame frame register bound 0 2 (by decide) touched)).trans
            described.taken
      case length =>
        intro own
        obtain ⟨own, untouched⟩ := Bool.or_eq_false_iff.mp own
        refine (dev9Ru_of_frame frame register bound 4 2 (by decide) fun touched => ?_).trans (described.length own)
        exact absurd (show Touches addr size (q.pbd + 4) 4 from ⟨by have := touched.1; omega, touched.2⟩)
          (of_decide_eq_false untouched)
      case pointer =>
        intro own
        obtain ⟨own, untouched⟩ := Bool.or_eq_false_iff.mp own
        refine (dev9Ru_of_frame frame register bound 6 2 (by decide) fun touched => ?_).trans (described.pointer own)
        exact absurd (show Touches addr size (q.pbd + 4) 4 from
          ⟨by have := touched.1; omega, by have := touched.2; omega⟩) (of_decide_eq_false untouched)

theorem Kept.guest (kept : h.Kept) {t : Smap} {addr size : Nat}
    (frame : Frame (addr % 0x10000) size h.smap t) (register : Register addr size) : (h.guest t addr size).Inv := by
  have inside : position t < 16384 := Nat.mod_lt _ (by decide)
  obtain ⟨kept, rd_ptr⟩ := (kept.wrote frame register).move inside
  exact ⟨kept, rd_ptr.symm⟩

/-! ## DMA -/

theorem readDMALoop_position (words : Nat) {s : Smap} (start : s.dev9Ru 4 SMAP_R_RXFIFO_RD_PTR < 16384) :
    (Smap.readDMALoop words s).2.dev9Ru 4 SMAP_R_RXFIFO_RD_PTR =
      (s.dev9Ru 4 SMAP_R_RXFIFO_RD_PTR + 4 * words) % 16384 := by
  induction words generalizing s with
  | zero => exact (Nat.mod_eq_of_lt start).symm
  | succ words ih =>
    unfold Smap.readDMALoop Smap.rxfifo32
    generalize s.dev9Ru 4 SMAP_R_RXFIFO_RD_PTR = rd_ptr at start ⊢
    have next : (rd_ptr + 4) % 16384 % 256 ^ 4 = (rd_ptr + 4) % 16384 := by omega
    refine (ih (s := (s.access .rx rd_ptr 4).setDev9Ru 4 SMAP_R_RXFIFO_RD_PTR ((rd_ptr + 4) % 16384)) ?_).trans ?_
    · rw [Smap.dev9Ru_setDev9Ru, next]
      exact Nat.mod_lt _ (by decide)
    · rw [Smap.dev9Ru_setDev9Ru, next]
      omega

theorem readDMA_position {s : Smap} (enabled : (s.dev9Ru 2 SMAP_R_RXFIFO_CTRL).testBit 1 = true) (size : Nat) :
    position (s.smap_readDMA8Mem size).2 = (position s + 4 * ((size + 3) / 4)) % 16384 := by
  unfold Smap.smap_readDMA8Mem position
  rw [if_pos enabled]
  generalize s.dev9Ru 4 SMAP_R_RXFIFO_RD_PTR = rd_ptr
  have masked : rd_ptr % 16384 % 256 ^ 4 = rd_ptr % 16384 := by omega
  have loop := readDMALoop_position ((size + 3) / 4) (s := s.setDev9Ru 4 SMAP_R_RXFIFO_RD_PTR (rd_ptr % 16384))
    (by rw [Smap.dev9Ru_setDev9Ru, masked]; exact Nat.mod_lt _ (by decide))
  rw [Smap.dev9Ru_setDev9Ru, masked] at loop
  refine (congrArg (· % 16384) ((Smap.dev9Ru_apart _ _ (.inr (by decide))).trans loop)).trans ?_
  exact Nat.mod_mod _ _

/-! ## Reset -/

structure Emptied (s t : Smap) : Prop where
  rxfifo : t.rxfifo = s.rxfifo
  rxfifo_wr_ptr : t.rxfifo_wr_ptr = 0
  rxbdi : t.rxbdi = 0
  txbdi : t.txbdi = s.txbdi
  accesses : t.accesses = s.accesses
  table : ∀ size mem, 0x3200 ≤ mem % 0x10000 → t.dev9Ru size mem = s.dev9Ru size mem
  position : position t = 0

theorem smap_write8_emptied (s : Smap) {value : Nat} (reset : value.testBit 0 = true) :
    Emptied s (s.smap_write8 SMAP_R_RXFIFO_CTRL value) := by
  have control : s.smap_write8 SMAP_R_RXFIFO_CTRL value = s.resetRx.setDev9Ru 1 SMAP_R_RXFIFO_CTRL (value &&& 0xfe) := by
    unfold Smap.smap_write8
    rw [if_neg (by decide), if_neg (by decide), if_neg (by decide), if_pos rfl, if_pos reset]
  rw [control]
  have frame_cnt : SMAP_R_RXFIFO_FRAME_CNT % 0x10000 = 0x103c := by decide
  have rd_ptr : SMAP_R_RXFIFO_RD_PTR % 0x10000 = 0x1034 := by decide
  have fifo_size : SMAP_R_RXFIFO_SIZE % 0x10000 = 0x1038 := by decide
  have ctrl : SMAP_R_RXFIFO_CTRL % 0x10000 = 0x1030 := by decide
  unfold Smap.resetRx
  refine ⟨rfl, rfl, rfl, rfl, rfl, fun size mem high => ?_, ?_⟩
  · rw [Smap.dev9Ru_apart _ _ (by omega), Smap.dev9Ru_apart _ _ (by omega), Smap.dev9Ru_apart _ _ (by omega),
      Smap.dev9Ru_apart _ _ (by omega)]
    rfl
  · unfold History.position
    rw [Smap.dev9Ru_apart _ _ (by omega), Smap.dev9Ru_apart _ _ (by omega), Smap.dev9Ru_setDev9Ru,
      Nat.zero_mod, Nat.zero_mod]

theorem Inv.restart (inv : h.Inv) {t : Smap} (emptied : Emptied h.smap t) :
    ({ h.restart with smap := t } : History).Inv := by
  have order := inv.order
  have started := inv.started
  have aligned : (h.written + 16383) / 16384 * 16384 % 16384 = 0 := Nat.mul_mod_left _ _
  have later : h.written ≤ (h.written + 16383) / 16384 * 16384 := by omega
  constructor
  case rd_ptr => exact emptied.position.trans aligned.symm
  case toKept =>
    refine ⟨emptied.rxfifo_wr_ptr.trans aligned.symm, Nat.le_refl _, Nat.le_add_right _ _, started.trans later, ?_, ?_,
      ?_, ?_, ?_⟩
    · exact emptied.rxbdi.trans_lt (by decide)
    · exact emptied.txbdi.trans_lt inv.txbdi
    · intro p mem
      obtain ⟨q, before, rfl⟩ := List.mem_map.mp mem
      exact inv.bd q before
    · intro p mem
      obtain ⟨q, before, rfl⟩ := List.mem_map.mp mem
      exact (inv.put q before).trans later
    · refine ⟨fun a mem => inv.safe.inside a (emptied.accesses ▸ mem), fun p mem held i below => ?_, fun p mem own => ?_⟩
      · obtain ⟨q, before, rfl⟩ := List.mem_map.mp mem
        refine (congrFun emptied.rxfifo _).trans (inv.safe.readable q before (fun done => held ⟨rfl, done.2⟩) i below)
      · obtain ⟨q, before, rfl⟩ := List.mem_map.mp mem
        obtain ⟨taken, length, pointer⟩ := inv.safe.described q before own
        have place := pbd_mod (inv.bd q before)
        have same : ∀ k < 8, ∀ size, t.dev9Ru size (q.pbd + k) = h.smap.dev9Ru size (q.pbd + k) :=
          fun k small size => emptied.table size _ (by rw [place k small]; omega)
        exact ⟨(congrArg (Nat.testBit · 15) (same 0 (by decide) 2)).trans taken,
          fun own => (same 4 (by decide) 2).trans (length own), fun own => (same 6 (by decide) 2).trans (pointer own)⟩

/-! ## Delivery -/

theorem Inv.packet (inv : h.Inv) {pk : NetPacket} (fits : pk.size ≤ 1514)
    (ready : (h.smap.dev9Ru 2 h.smap.rxbd).testBit 15 = true) (room : h.written + pk.bytes ≤ h.read + 16384)
    (apart : ∀ p ∈ h.packets, p.Held → p.start < h.read → ∀ k < pk.bytes, ∀ i < p.packet.size,
      (h.written + k) % 16384 ≠ (p.start + i) % 16384) :
    ({ h with
        smap := h.smap.rx_process pk
        written := h.written + pk.bytes
        packets := h.packets ++ [{ start := h.written, packet := pk, bd := h.smap.rxbdi }] } : History).Inv := by
  have start : h.smap.rxfifo_wr_ptr < 16384 := by
    rw [inv.wr_ptr]
    exact Nat.mod_lt _ (by decide)
  have delivered := Smap.rx_process_delivered fits start inv.rxbdi ready
  have bytes : pk.size ≤ pk.bytes := by
    unfold NetPacket.bytes
    omega
  have place : ∀ k, (h.smap.rxfifo_wr_ptr + k) % 16384 = (h.written + k) % 16384 := by
    intro k
    rw [inv.wr_ptr, Nat.mod_add_mod]
  have other : ∀ p ∈ h.packets, p.returned = false → p.bd ≠ h.smap.rxbdi := by
    intro p mem own same
    have taken := (inv.safe.described p mem own).taken
    rw [Received.pbd, same] at taken
    exact absurd (taken.symm.trans ready) (by decide)
  have registers : ∀ p ∈ h.packets, p.returned = false → ∀ k size, k + size ≤ 8 →
      (h.smap.rx_process pk).dev9Ru size (p.pbd + k) = h.smap.dev9Ru size (p.pbd + k) := by
    intro p mem own k size within
    have differ := other p mem own
    rcases Nat.eq_zero_or_pos size with rfl | some_byte
    · rfl
    · have at_pbd := pbd_mod (inv.bd p mem) k (by omega)
      exact delivered.registers size _ (by omega) (by omega)
  have all : ∀ {P : Received → Prop}, (∀ p ∈ h.packets, P p) →
      P { start := h.written, packet := pk, bd := h.smap.rxbdi } →
        ∀ p ∈ h.packets ++ [{ start := h.written, packet := pk, bd := h.smap.rxbdi }], P p := by
    intro P old new p mem
    rcases List.mem_append.mp mem with mem | mem
    · exact old p mem
    · exact List.mem_singleton.mp mem ▸ new
  constructor
  case rd_ptr =>
    refine (congrArg (· % 16384) (delivered.registers 4 SMAP_R_RXFIFO_RD_PTR (.inl (by decide)) (.inl ?_))).trans inv.rd_ptr
    exact (show SMAP_R_RXFIFO_RD_PTR % 0x10000 + 4 ≤ 0x3200 by decide).trans (Nat.le_add_right _ _)
  case toKept =>
    constructor
    case wr_ptr => exact delivered.rxfifo_wr_ptr.trans (place pk.bytes)
    case order => exact inv.order.trans (Nat.le_add_right _ _)
    case room => exact room
    case started => exact inv.started.trans (Nat.le_add_right _ _)
    case rxbdi => exact delivered.rxbdi.trans_lt (Nat.mod_lt _ (by decide))
    case txbdi => exact delivered.txbdi.trans_lt inv.txbdi
    case bd => exact all inv.bd inv.rxbdi
    case put => exact all (fun p mem => (inv.put p mem).trans (Nat.le_add_right _ _)) (Nat.add_le_add_left bytes _)
    case safe =>
      refine ⟨delivered.inside inv.safe.inside, all ?_ ?_, all ?_ ?_⟩
      · intro p mem held i below
        refine (delivered.kept _ fun k within => ?_).trans (inv.safe.readable p mem held i below)
        rw [place]
        by_cases passed : p.start < h.read
        · exact (apart p mem held passed k within i below).symm
        · have put := inv.put p mem
          omega
      · intro _ i below
        refine (congrArg _ (place i).symm).trans (delivered.put i (Nat.lt_of_lt_of_le below bytes))
      · intro p mem own
        obtain ⟨taken, length, pointer⟩ := inv.safe.described p mem own
        have same := registers p mem own
        exact ⟨(congrArg (Nat.testBit · 15) (same 0 2 (by decide))).trans taken,
          fun own => (same 4 2 (by decide)).trans (length own), fun own => (same 6 2 (by decide)).trans (pointer own)⟩
      · exact fun _ => ⟨delivered.taken, fun _ => delivered.length,
          fun _ => delivered.pointer.trans (congrArg (0x4000 + ·) inv.wr_ptr)⟩

/-! ## Runs -/

theorem wrote_nothing (h : History) : h.wrote 0 0 = h := by
  have same : (fun p : Received =>
      { p with
        returned := p.returned || (decide (Touches 0 0 p.pbd 2) && (h.smap.dev9Ru 2 p.pbd).testBit 15)
        rewritten := p.rewritten || decide (Touches 0 0 (p.pbd + 4) 4) }) = id := by
    funext p
    have first : ¬ Touches 0 0 p.pbd 2 := fun touched => absurd touched.2 (Nat.not_lt_zero _)
    have second : ¬ Touches 0 0 (p.pbd + 4) 4 := fun touched => absurd touched.2 (Nat.not_lt_zero _)
    simp only [first, second, decide_false, Bool.false_and, Bool.or_false, id]
  unfold wrote
  rw [same, List.map_id]

theorem Inv.step (inv : h.Inv) {action : Action} (fits : h.Fits action) (clear : h.Clear action) :
    (h.step action).Inv := by
  have kept := inv.toKept
  cases action with
  | read8 addr => exact inv
  | read16 addr => exact inv
  | read32 addr => exact kept.guest (Smap.smap_read32_frame h.smap addr clear) (.inl rfl)
  | write8 addr value =>
    unfold History.step
    simp only
    split
    · rename_i reset
      rw [reset.1]
      exact inv.restart (smap_write8_emptied h.smap reset.2)
    · rename_i stays
      exact kept.guest (Smap.smap_write8_frame h.smap addr value stays) (.inr fits.1)
  | write16 addr value => exact kept.guest (Smap.smap_write16_frame inv.txbdi addr value) (.inr fits.1)
  | write32 addr value => exact kept.guest (Smap.smap_write32_frame inv.txbdi addr value clear) (.inr fits.1)
  | readDMA size =>
    unfold History.step
    simp only
    split
    · rename_i enabled
      have frame : Frame 0 0 h.smap (h.smap.smap_readDMA8Mem size).2 :=
        Smap.smap_readDMA8Mem_frame h.smap size clear
      have kept : (({ h with smap := (h.smap.smap_readDMA8Mem size).2 } : History).wrote 0 0).Kept :=
        kept.wrote frame (.inl rfl)
      rw [wrote_nothing] at kept
      refine ⟨kept.moveWords _ _, ?_⟩
      rw [moveWords_smap, moveWords_position kept inv.rd_ptr.symm]
      exact readDMA_position enabled size
    · exact inv
  | writeDMA words => exact kept.guest (Smap.smap_writeDMA8Mem_frame h.smap words clear) (.inl rfl)
  | packet pk =>
    unfold History.step
    simp only
    split
    · rename_i ready
      exact inv.packet fits.1 ready (clear ready).1 (clear ready).2
    · exact inv

/-- The adapter after `DEV9init`, with whatever else is in its memory. -/
def Init (s : Smap) : Prop :=
  s.rxfifo_wr_ptr = 0 ∧ s.dev9Ru 4 SMAP_R_RXFIFO_RD_PTR = 0 ∧ s.rxbdi = 0 ∧ s.txbdi = 0 ∧ s.accesses = []

/-- In every run that meets the condition, the accesses stay inside the FIFOs and each received packet can be
read at its descriptor's pointer and length until the guest has moved past it and returned the descriptor. -/
theorem frames_intact {s : Smap} (init : Init s) {h : History} (run : Run ClearSteps { smap := s } h) : h.Safe := by
  obtain ⟨wr_ptr, rd_ptr, rxbdi, txbdi, accesses⟩ := init
  have start : ({ smap := s } : History).Inv := by
    refine ⟨⟨wr_ptr.trans (show 0 = 16384 % 16384 by decide), Nat.le_refl _, Nat.le_add_right _ _, Nat.le_refl _,
      rxbdi.trans_lt (by decide), txbdi.trans_lt (by decide), nofun, nofun, ⟨fun a mem => ?_, nofun, nofun⟩⟩, ?_⟩
    · exact absurd (accesses ▸ mem) List.not_mem_nil
    · exact (congrArg (· % 16384) rd_ptr).trans (show 0 % 16384 = 16384 % 16384 by decide)
  have inv := Run.invariant (I := Inv) run start fun h k inv step => by
    obtain ⟨action, fits, clear, rfl⟩ := step
    exact inv.step fits clear
  exact inv.safe

/-- All receive descriptors are empty. -/
def initial : Smap where
  dev9R i := if 0x3200 ≤ i ∧ i < 0x3400 ∧ i % 8 = 1 then 0x80 else 0
  rxfifo _ := 0
  txfifo _ := 0
  phyregs _ := 0

theorem initial_init : Init initial := ⟨rfl, by decide, rfl, rfl, rfl⟩

/-- A packet of 60 bytes is received and its first word read. -/
theorem frames_intact_one : ∃ h, Run ClearSteps { smap := initial } h ∧ h.read = 16388 ∧ h.Safe := by
  have deliver : ClearSteps { smap := initial } (({ smap := initial } : History).step (.packet ⟨60, fun _ => 1⟩)) :=
    ⟨.packet ⟨60, fun _ => 1⟩, by decide, fun _ => ⟨by decide, nofun⟩, rfl⟩
  have read : ClearSteps (({ smap := initial } : History).step (.packet ⟨60, fun _ => 1⟩))
      ((({ smap := initial } : History).step (.packet ⟨60, fun _ => 1⟩)).step (.read32 SMAP_R_RXFIFO_DATA)) :=
    ⟨.read32 SMAP_R_RXFIFO_DATA, by decide, fun _ => by decide, rfl⟩
  have run : Run ClearSteps { smap := initial } _ := (Run.single deliver).tail read
  exact ⟨_, run, by decide, frames_intact initial_init run⟩

/-- The guest's write pointer is used as it is: the word is written behind the send FIFO. -/
theorem txfifo_overrun : ∃ h, Run Steps { smap := initial } h ∧ ¬ h.Safe := by
  have pointer : Steps { smap := initial } (({ smap := initial } : History).step (.write32 SMAP_R_TXFIFO_WR_PTR 0x10000)) :=
    ⟨_, by decide, rfl⟩
  have data : Steps (({ smap := initial } : History).step (.write32 SMAP_R_TXFIFO_WR_PTR 0x10000))
      ((({ smap := initial } : History).step (.write32 SMAP_R_TXFIFO_WR_PTR 0x10000)).step
        (.write32 SMAP_R_TXFIFO_DATA 0)) :=
    ⟨_, by decide, rfl⟩
  refine ⟨_, (Run.single pointer).tail data, fun safe => ?_⟩
  have accesses : ((({ smap := initial } : History).step (.write32 SMAP_R_TXFIFO_WR_PTR 0x10000)).step
      (.write32 SMAP_R_TXFIFO_DATA 0)).smap.accesses = [⟨.tx, 0x10000, 4⟩] := by
    decide
  have inside := safe.inside ⟨.tx, 0x10000, 4⟩ (accesses ▸ List.mem_singleton_self _)
  exact absurd inside (by decide)

end History

end Pcsx2.Dev9
