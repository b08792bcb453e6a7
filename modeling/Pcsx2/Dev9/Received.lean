import Pcsx2.Dev9.Smap
import Pcsx2.Foundation.Run

/-!
# What becomes of received packets

Beside the adapter goes a history: how many bytes were ever put into the receive FIFO, how many of them the
guest's read pointer has moved past, and the packets with what the guest did about them.
-/

namespace Pcsx2.Dev9
open Foundation

inductive Action
  | read8 (addr : Nat)
  | read16 (addr : Nat)
  | read32 (addr : Nat)
  | write8 (addr value : Nat)
  | write16 (addr value : Nat)
  | write32 (addr value : Nat)
  | readDMA (size : Nat)
  | writeDMA (words : List Nat)
  | packet (pk : NetPacket)

structure Received where
  /-- The bytes that were put into the FIFO before it. -/
  start : Nat
  packet : NetPacket
  bd : Nat
  /-- The read pointer has moved past it. -/
  past : Bool := false
  /-- The guest has made its descriptor empty. -/
  returned : Bool := false
  /-- The guest has written the length or the pointer of its descriptor. -/
  rewritten : Bool := false

def Received.pbd (p : Received) : Nat := SMAP_BD_RX_BASE + 8 * p.bd

def Received.Held (p : Received) : Prop := ¬ (p.past = true ∧ p.returned = true)

structure History where
  smap : Smap
  /-- The bytes put into the FIFO; they start with those of an empty one. -/
  written : Nat := 16384
  /-- Those the read pointer has moved past. -/
  read : Nat := 16384
  packets : List Received := []

/-- The access is inside the 16 KiB. -/
def Access.Inside (a : Access) : Prop := a.position + a.length ≤ 16384

instance (a : Access) : Decidable a.Inside := inferInstanceAs (Decidable (_ ≤ _))

namespace History

/-! ## The guest's part -/

def moved (written read position : Nat) : Nat :=
  let forward := read + (position + 16384 - read % 16384) % 16384
  if forward ≤ written then forward else forward - 16384

def move (h : History) (position : Nat) : History :=
  let read := moved h.written h.read position
  { h with
    read
    packets := h.packets.map fun p => { p with past := p.past || decide (p.start + p.packet.size ≤ read) } }

def Touches (place size place' size' : Nat) : Prop := place < place' + size' ∧ place' < place + size

instance (place size place' size' : Nat) : Decidable (Touches place size place' size') :=
  inferInstanceAs (Decidable (_ ∧ _))

def wrote (h : History) (addr size : Nat) : History :=
  { h with packets := h.packets.map fun p =>
      { p with
        returned := p.returned || (decide (Touches addr size p.pbd 2) && (h.smap.dev9Ru 2 p.pbd).testBit 15)
        rewritten := p.rewritten || decide (Touches addr size (p.pbd + 4) 4) } }

def restart (h : History) : History :=
  let written := (h.written + 16383) / 16384 * 16384
  { h with written, read := written, packets := h.packets.map fun p => { p with past := true } }

def position (s : Smap) : Nat := s.dev9Ru 4 SMAP_R_RXFIFO_RD_PTR % 16384

def guest (h : History) (s : Smap) (addr size : Nat) : History :=
  (({ h with smap := s }).wrote addr size).move (position s)

def moveWords (h : History) (start : Nat) : Nat → History
  | 0 => h
  | words + 1 => (h.moveWords start words).move ((start + 4 * (words + 1)) % 16384)

/-! ## Steps -/

def step (h : History) : Action → History
  | .read8 _ => h
  | .read16 _ => h
  | .read32 addr => h.guest (h.smap.smap_read32 addr).2 0 0
  | .write8 addr value =>
      let s := h.smap.smap_write8 addr value
      if addr = SMAP_R_RXFIFO_CTRL ∧ value.testBit 0 then { h.restart with smap := s } else h.guest s addr 1
  | .write16 addr value => h.guest (h.smap.smap_write16 addr value) addr 2
  | .write32 addr value => h.guest (h.smap.smap_write32 addr value) addr 4
  | .readDMA size =>
      let s := (h.smap.smap_readDMA8Mem size).2
      if (h.smap.dev9Ru 2 SMAP_R_RXFIFO_CTRL).testBit 1 then
        ({ h with smap := s } : History).moveWords (position h.smap) ((size + 3) / 4)
      else h
  | .writeDMA words => h.guest (h.smap.smap_writeDMA8Mem words) 0 0
  | .packet pk =>
      let s := h.smap.rx_process pk
      if (h.smap.dev9Ru 2 h.smap.rxbd).testBit 15 then
        { h with
          smap := s
          written := h.written + pk.bytes
          packets := h.packets ++ [{ start := h.written, packet := pk, bd := h.smap.rxbdi }] }
      else h

/-- What the guest and the host may do: the address is one of the adapter's, and a packet of at most 1514
bytes comes when there is room. -/
def Fits (h : History) : Action → Prop
  | .read8 addr | .read16 addr | .read32 addr => SMAP_REGBASE ≤ addr ∧ addr < FLASH_REGBASE
  | .write8 addr value => (SMAP_REGBASE ≤ addr ∧ addr < FLASH_REGBASE) ∧ value < 0x100
  | .write16 addr value => (SMAP_REGBASE ≤ addr ∧ addr < FLASH_REGBASE) ∧ value < 0x10000
  | .write32 addr value => (SMAP_REGBASE ≤ addr ∧ addr < FLASH_REGBASE) ∧ value < 0x100000000
  | .readDMA _ => True
  | .writeDMA _ => True
  | .packet pk => pk.size ≤ 1514 ∧ h.smap.rx_fifo_can_rx = true

instance (h : History) (action : Action) : Decidable (h.Fits action) := by
  cases action <;> unfold Fits <;> infer_instance

def Steps (h k : History) : Prop := ∃ action, h.Fits action ∧ h.step action = k

/-! ## What is wanted -/

/-- The packet's bytes are in the FIFO, where it was put. -/
def Readable (s : Smap) (p : Received) : Prop :=
  ∀ i < p.packet.size, s.rxfifo ((p.start + i) % 16384) = p.packet.buffer i

structure Described (s : Smap) (p : Received) : Prop where
  taken : (s.dev9Ru 2 p.pbd).testBit 15 = false
  length : p.rewritten = false → s.dev9Ru 2 (p.pbd + 4) = p.packet.size
  pointer : p.rewritten = false → s.dev9Ru 2 (p.pbd + 6) = 0x4000 + p.start % 16384

structure Safe (h : History) : Prop where
  inside : ∀ a ∈ h.smap.accesses, a.Inside
  readable : ∀ p ∈ h.packets, p.Held → Readable h.smap p
  described : ∀ p ∈ h.packets, p.returned = false → Described h.smap p

end History

end Pcsx2.Dev9

/-!
# What the guest's accesses leave alone

But for a reset no access of the guest touches the receive FIFO's contents or its write pointer, and none
but a write to a descriptor of the receive table changes that table.
-/

namespace Pcsx2.Dev9
open Foundation

/-- From `s` to `t` nothing of the receive FIFO changes but the bytes that were written, and the accesses
stay inside. -/
structure Frame (place size : Nat) (s t : Smap) : Prop where
  rxfifo : t.rxfifo = s.rxfifo
  rxfifo_wr_ptr : t.rxfifo_wr_ptr = s.rxfifo_wr_ptr
  rxbdi : t.rxbdi = s.rxbdi
  txbdi : s.txbdi < 64 → t.txbdi < 64
  table : ∀ i, 0x3200 ≤ i → i < 0x3400 → i < place ∨ place + size ≤ i → t.dev9R i = s.dev9R i
  inside : (∀ a ∈ s.accesses, a.Inside) → ∀ a ∈ t.accesses, a.Inside

namespace Frame

variable {place size : Nat} {s t u : Smap}

theorem refl (s : Smap) : Frame place size s s :=
  ⟨rfl, rfl, rfl, id, fun _ _ _ _ => rfl, id⟩

theorem trans (first : Frame place size s t) (second : Frame place size t u) : Frame place size s u where
  rxfifo := second.rxfifo.trans first.rxfifo
  rxfifo_wr_ptr := second.rxfifo_wr_ptr.trans first.rxfifo_wr_ptr
  rxbdi := second.rxbdi.trans first.rxbdi
  txbdi := second.txbdi ∘ first.txbdi
  table i low high outside := (second.table i low high outside).trans (first.table i low high outside)
  inside := second.inside ∘ first.inside

theorem written (s : Smap) (mem value : Nat) : Frame (mem % 0x10000) size s (s.setDev9Ru size mem value) :=
  ⟨rfl, rfl, rfl, id, fun _ _ _ outside => writeBytes_outside outside, id⟩

theorem set (s : Smap) {mem : Nat} (value : Nat) {size : Nat}
    (apart : mem % 0x10000 + size ≤ 0x3200 ∨ 0x3400 ≤ mem % 0x10000) {place' size' : Nat} :
    Frame place' size' s (s.setDev9Ru size mem value) :=
  ⟨rfl, rfl, rfl, id, fun _ _ _ _ => writeBytes_outside (by omega), id⟩

theorem access (s : Smap) (fifo : SmapFifo) {position length : Nat} (inside : position + length ≤ 16384) :
    Frame place size s (s.access fifo position length) :=
  ⟨rfl, rfl, rfl, id, fun _ _ _ _ => rfl, fun before a mem => by
    rcases List.mem_append.mp mem with mem | mem
    · exact before a mem
    · rw [List.mem_singleton.mp mem]
      exact inside⟩

theorem irq (s : Smap) (cause : Nat) : Frame place size s (s.irq cause) :=
  ⟨rfl, rfl, rfl, id, fun _ _ _ _ => rfl, id⟩

theorem setTxfifo32 (s : Smap) {position : Nat} (value : Nat) (inside : position + 4 ≤ 16384) :
    Frame place size s (s.setTxfifo32 position value) := by
  have frame : Frame place size s (s.access .tx position 4) := access s .tx inside
  exact { frame with }

end Frame

/-! ## Sending -/

namespace Smap

variable {place size : Nat}

theorem detection_frame {base : Nat} (left i : Nat) (s : Smap) (inside : base + i + 4 * left ≤ 16384) :
    Frame place size s (detection base left i s).2 := by
  induction left generalizing i s with
  | zero => exact Frame.refl s
  | succ left ih =>
    have first : Frame place size s (s.access .tx (base + i) 4) := Frame.access s .tx (by omega)
    unfold detection txfifo32
    simp only
    split
    · exact first
    · exact first.trans (ih (i + 4) _ (by omega))

theorem sendPacket_frame {base length : Nat} (start : base < 16384) (fits : length ≤ 1514) (s : Smap) :
    Frame place size s (s.sendPacket base length) := by
  unfold sendPacket
  split
  · have first : Frame place size s (s.access .tx base (16384 - base)) := Frame.access s .tx (by omega)
    exact { first.trans (Frame.access _ .tx (by omega : 0 + (length - (16384 - base)) ≤ 16384)) with }
  · exact { Frame.access s .tx (by omega : base + length ≤ 16384) with }

theorem txPacket_frame (pbd : Nat) (s : Smap) : Frame place size s (s.txPacket pbd) := by
  unfold txPacket
  simp only
  split
  · exact Frame.refl s
  · rename_i fits
    have send : ∀ s : Smap, ∀ base, Frame place size s (s.sendPacket (base % 16384) _) :=
      fun s base => sendPacket_frame (Nat.mod_lt _ (by decide)) (Nat.le_of_not_lt fits) s
    split
    · rename_i detect
      refine Frame.trans ?_ (send _ _)
      have frame : Frame place size s
          (detection ((s.dev9Ru 2 (pbd + 6) + 0x100000000 - 0x1000) % 16384) 379 0 s).2 :=
        detection_frame 379 0 s (by rw [detect.2]; decide)
      split
      · exact frame.trans (Frame.irq _ _)
      · exact frame
    · exact send _ _

theorem txbd_apart {s : Smap} (bound : s.txbdi < 64) : s.txbd % 0x10000 + 2 ≤ 0x3200 := by
  unfold txbd SMAP_BD_TX_BASE SMAP_REGBASE
  omega

def txTurn (s : Smap) : Smap :=
  let pbd := s.txbd
  let s := s.txPacket pbd
  let s := s.setDev9Ru 2 pbd (s.dev9Ru 2 pbd &&& 0x7fff)
  let s := { s with txbdi := (s.txbdi + 1) % (SMAP_BD_SIZE / 8) }
  s.setDev9Ru 1 SMAP_R_TXFIFO_FRAME_CNT (s.dev9Ru 1 SMAP_R_TXFIFO_FRAME_CNT + 255)

theorem txLoop_succ (fuel : Nat) (s : Smap) (cnt : Nat) :
    txLoop (fuel + 1) s cnt = if (s.dev9Ru 2 s.txbd).testBit 15 then txLoop fuel s.txTurn (cnt + 1) else (s, cnt) := by
  rw [txLoop]
  cases (s.dev9Ru 2 s.txbd).testBit 15 <;> rfl

theorem txTurn_frame {s : Smap} (bound : s.txbdi < 64) : Frame place size s s.txTurn := by
  have apart := txbd_apart bound
  unfold txTurn
  generalize s.txbd = pbd at apart ⊢
  have clear (t : Smap) (value : Nat) : Frame place size t (t.setDev9Ru 2 pbd value) := Frame.set t value (.inl apart)
  have next (t : Smap) : Frame place size t { t with txbdi := (t.txbdi + 1) % (SMAP_BD_SIZE / 8) } :=
    ⟨rfl, rfl, rfl, fun _ => Nat.mod_lt _ (by decide), fun _ _ _ _ => rfl, id⟩
  have count (t : Smap) (value : Nat) : Frame place size t (t.setDev9Ru 1 SMAP_R_TXFIFO_FRAME_CNT value) :=
    Frame.set t value (.inl (by decide))
  exact (txPacket_frame pbd s).trans ((clear _ _).trans ((next _).trans (count _ _)))

theorem txLoop_frame (fuel : Nat) {s : Smap} (bound : s.txbdi < 64) (cnt : Nat) :
    Frame place size s (txLoop fuel s cnt).1 := by
  induction fuel generalizing s cnt with
  | zero => exact Frame.refl s
  | succ fuel ih =>
    rw [txLoop_succ]
    split
    · have turn : Frame place size s s.txTurn := txTurn_frame bound
      exact turn.trans (ih (turn.txbdi bound) (cnt + 1))
    · exact Frame.refl s

theorem tx_process_frame {s : Smap} (bound : s.txbdi < 64) : Frame place size s s.tx_process :=
  (txLoop_frame 65 bound 0).trans (Frame.irq _ _)

/-! ## The loop ends -/

theorem testBit_clear (value : Nat) : ((value &&& 0x7fff) % 256 ^ 2).testBit 15 = false := by
  have small : value &&& 0x7fff < 2 ^ 15 := Nat.and_lt_two_pow _ (by decide)
  exact Nat.testBit_lt_two_pow (Nat.lt_of_le_of_lt (Nat.mod_le _ _) small)

theorem dev9Ru_setDev9Ru (s : Smap) (size mem value : Nat) :
    (s.setDev9Ru size mem value).dev9Ru size mem = value % 256 ^ size :=
  readBytes_writeBytes

theorem dev9Ru_apart (s : Smap) {size mem size' mem' : Nat} (value : Nat)
    (apart : mem' % 0x10000 + size' ≤ mem % 0x10000 ∨ mem % 0x10000 + size ≤ mem' % 0x10000) :
    (s.setDev9Ru size mem value).dev9Ru size' mem' = s.dev9Ru size' mem' :=
  readBytes_outside apart

/-! ## Registers -/

theorem phyWrite_frame (s : Smap) (value : Nat) : Frame place size s (s.phyWrite value).2 :=
  ⟨rfl, rfl, rfl, id, fun _ _ _ _ => rfl, id⟩

theorem emac3Value_frame {s : Smap} (bound : s.txbdi < 64) (addr value : Nat) :
    Frame place size s (s.emac3Value addr value).2 := by
  unfold emac3Value
  split
  · exact Frame.set s _ (.inl (by decide))
  · split
    · exact tx_process_frame bound
    · split
      · simp only
        generalize (if value.testBit 12 then s.phyRead value else value) = value
        split
        · exact phyWrite_frame s value
        · exact Frame.refl s
      · exact Frame.refl s

theorem emac3_write_frame {s : Smap} (bound : s.txbdi < 64) {addr : Nat} (apart : addr % 0x10000 + 4 ≤ 0x3200) :
    Frame place size s (s.emac3_write addr) := by
  unfold emac3_write
  exact (emac3Value_frame bound addr (wswap (s.dev9Ru 4 addr))).trans (Frame.set _ _ (.inl apart))

theorem emac3H_low : ∀ addr ∈ emac3H, (addr - 2) % 0x10000 + 4 ≤ 0x3200 := by
  decide

theorem smap_write16_frame {s : Smap} (bound : s.txbdi < 64) (addr value : Nat) :
    Frame (addr % 0x10000) 2 s (s.smap_write16 addr value) := by
  unfold smap_write16
  split
  · exact Frame.written s addr _
  · split
    · exact ⟨rfl, rfl, rfl, id, fun _ _ _ _ => rfl, id⟩
    · split
      · rename_i high
        exact (Frame.written s addr value).trans
          (emac3_write_frame (s := s.setDev9Ru 2 addr value) bound (emac3H_low addr high))
      · exact Frame.written s addr value

theorem smap_write32_frame {s : Smap} (bound : s.txbdi < 64) (addr value : Nat)
    (inside : addr = SMAP_R_TXFIFO_DATA → s.dev9Ru 4 SMAP_R_TXFIFO_WR_PTR + 4 ≤ 16384) :
    Frame (addr % 0x10000) 4 s (s.smap_write32 addr value) := by
  unfold smap_write32
  split
  · rename_i emac
    have first := smap_write16_frame bound addr (value % 0x10000)
    have second := smap_write16_frame (first.txbdi bound) (addr + 2) (value / 0x10000)
    refine Frame.trans { first with table := ?_ } { second with table := ?_ }
    · exact fun i low high outside => first.table i low high (by omega)
    · intro i low high outside
      refine second.table i low high ?_
      unfold SMAP_EMAC3_REGBASE SMAP_EMAC3_REGEND SMAP_EMAC3_REGBASE SMAP_REGBASE at emac
      omega
  · split
    · rename_i data
      exact (Frame.setTxfifo32 s value (inside data)).trans (Frame.set _ _ (.inl (by decide)))
    · exact Frame.written s addr value

theorem smap_write8_frame (s : Smap) (addr value : Nat)
    (stays : ¬ (addr = SMAP_R_RXFIFO_CTRL ∧ value.testBit 0 = true)) :
    Frame (addr % 0x10000) 1 s (s.smap_write8 addr value) := by
  unfold smap_write8
  split
  · exact Frame.set s _ (.inl (by decide))
  · split
    · exact (Frame.written s addr value).trans (Frame.set _ _ (.inl (by decide)))
    · split
      · refine Frame.trans ?_ (Frame.written _ addr _)
        split
        · unfold resetTx
          refine Frame.trans (t := { s with txbdi := 0 }) ?_ ?_
          · exact ⟨rfl, rfl, rfl, fun _ => show 0 < 64 by decide, fun _ _ _ _ => rfl, id⟩
          · exact (Frame.set _ _ (.inl (by decide))).trans
              ((Frame.set _ _ (.inl (by decide))).trans (Frame.set _ _ (.inl (by decide))))
        · exact Frame.refl s
      · split
        · rename_i control
          rw [if_neg fun bit => stays ⟨control, bit⟩]
          exact Frame.written s addr _
        · split
          · exact ⟨rfl, rfl, rfl, id, fun _ _ _ _ => rfl, id⟩
          · exact Frame.written s addr value

theorem smap_read32_frame (s : Smap) (addr : Nat)
    (inside : addr = SMAP_R_RXFIFO_DATA → s.dev9Ru 4 SMAP_R_RXFIFO_RD_PTR % 16384 + 4 ≤ 16384) :
    Frame place size s (s.smap_read32 addr).2 := by
  unfold smap_read32
  split
  · exact Frame.refl s
  · split
    · rename_i data
      exact (Frame.access s .rx (inside data)).trans (Frame.set _ _ (.inl (by decide)))
    · exact Frame.refl s

/-! ## DMA -/

def TransferInside (position words : Nat) : Prop := position % 4 = 0 ∨ position + 4 * words ≤ 16384

instance (position words : Nat) : Decidable (TransferInside position words) :=
  inferInstanceAs (Decidable (_ ∨ _))

theorem readDMALoop_frame (words : Nat) {s : Smap} (start : s.dev9Ru 4 SMAP_R_RXFIFO_RD_PTR < 16384)
    (inside : TransferInside (s.dev9Ru 4 SMAP_R_RXFIFO_RD_PTR) words) :
    Frame place size s (readDMALoop words s).2 := by
  induction words generalizing s with
  | zero => exact Frame.refl s
  | succ words ih =>
    unfold readDMALoop rxfifo32
    generalize s.dev9Ru 4 SMAP_R_RXFIFO_RD_PTR = rd_ptr at start inside ⊢
    have word : rd_ptr + 4 ≤ 16384 := by unfold TransferInside at inside; omega
    have next : (rd_ptr + 4) % 16384 % 256 ^ 4 = (rd_ptr + 4) % 16384 := by omega
    refine (Frame.access s .rx word).trans ((Frame.set _ _ (.inl (by decide))).trans (ih ?_ ?_))
    · rw [dev9Ru_setDev9Ru]
      omega
    · rw [dev9Ru_setDev9Ru, next]
      unfold TransferInside at inside ⊢
      omega

theorem writeDMALoop_frame (words : List Nat) {s : Smap} (start : s.dev9Ru 4 SMAP_R_TXFIFO_WR_PTR < 16384)
    (inside : TransferInside (s.dev9Ru 4 SMAP_R_TXFIFO_WR_PTR) words.length) :
    Frame place size s (writeDMALoop words s) := by
  induction words generalizing s with
  | nil => exact Frame.refl s
  | cons value words ih =>
    unfold writeDMALoop
    generalize s.dev9Ru 4 SMAP_R_TXFIFO_WR_PTR = wr_ptr at start inside ⊢
    rw [List.length_cons] at inside
    have word : wr_ptr + 4 ≤ 16384 := by unfold TransferInside at inside; omega
    have next : (wr_ptr + 4) % 16384 % 256 ^ 4 = (wr_ptr + 4) % 16384 := by omega
    refine (Frame.setTxfifo32 s value word).trans ((Frame.set _ _ (.inl (by decide))).trans (ih ?_ ?_))
    · rw [dev9Ru_setDev9Ru]
      omega
    · rw [dev9Ru_setDev9Ru, next]
      unfold TransferInside at inside ⊢
      omega

theorem smap_readDMA8Mem_frame (s : Smap) (size : Nat)
    (inside : (s.dev9Ru 2 SMAP_R_RXFIFO_CTRL).testBit 1 = true →
      TransferInside (s.dev9Ru 4 SMAP_R_RXFIFO_RD_PTR % 16384) ((size + 3) / 4)) {place size' : Nat} :
    Frame place size' s (s.smap_readDMA8Mem size).2 := by
  unfold smap_readDMA8Mem
  split
  · rename_i enabled
    have inside := inside enabled
    have masked : s.dev9Ru 4 SMAP_R_RXFIFO_RD_PTR % 16384 % 256 ^ 4 = s.dev9Ru 4 SMAP_R_RXFIFO_RD_PTR % 16384 := by
      omega
    refine (Frame.set s _ (.inl (by decide))).trans (Frame.trans (readDMALoop_frame ((size + 3) / 4) ?_ ?_)
      (Frame.set _ _ (.inl (by decide))))
    · rw [dev9Ru_setDev9Ru]
      omega
    · rw [dev9Ru_setDev9Ru, masked]
      exact inside
  · exact Frame.refl s

theorem smap_writeDMA8Mem_frame (s : Smap) (words : List Nat)
    (inside : (s.dev9Ru 2 SMAP_R_TXFIFO_CTRL).testBit 1 = true →
      TransferInside (s.dev9Ru 4 SMAP_R_TXFIFO_WR_PTR % 16384) words.length) :
    Frame place size s (s.smap_writeDMA8Mem words) := by
  unfold smap_writeDMA8Mem
  split
  · rename_i enabled
    have inside := inside enabled
    have masked : s.dev9Ru 4 SMAP_R_TXFIFO_WR_PTR % 16384 % 256 ^ 4 = s.dev9Ru 4 SMAP_R_TXFIFO_WR_PTR % 16384 := by
      omega
    refine (Frame.set s _ (.inl (by decide))).trans (Frame.trans (writeDMALoop_frame words ?_ ?_)
      (Frame.set _ _ (.inl (by decide))))
    · rw [dev9Ru_setDev9Ru]
      omega
    · rw [dev9Ru_setDev9Ru, masked]
      exact inside
  · exact Frame.refl s

end Smap

end Pcsx2.Dev9
