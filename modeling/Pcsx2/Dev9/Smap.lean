import Pcsx2.Foundation.Memory

/-!
# The network adapter's FIFOs

Packets that are received go to one FIFO of 16 KiB, those to be sent come from another. The guest reads and
writes both through registers and DMA, and exchanges packets through two tables of descriptors; the
registers and the tables are bytes of one register file.
-/

namespace Pcsx2.Dev9
open Foundation

/-! ## Registers -/

def SMAP_REGBASE : Nat := 0x10000100
def FLASH_REGBASE : Nat := 0x10004800

def SMAP_R_BD_MODE : Nat := SMAP_REGBASE + 0x02
def SMAP_R_INTR_CLR : Nat := SMAP_REGBASE + 0x28

def SMAP_R_TXFIFO_CTRL : Nat := SMAP_REGBASE + 0xf00
def SMAP_R_TXFIFO_WR_PTR : Nat := SMAP_REGBASE + 0xf04
def SMAP_R_TXFIFO_SIZE : Nat := SMAP_REGBASE + 0xf08
def SMAP_R_TXFIFO_FRAME_CNT : Nat := SMAP_REGBASE + 0xf0c
def SMAP_R_TXFIFO_FRAME_INC : Nat := SMAP_REGBASE + 0xf10
def SMAP_R_TXFIFO_DATA : Nat := SMAP_REGBASE + 0x1000

def SMAP_R_RXFIFO_CTRL : Nat := SMAP_REGBASE + 0xf30
def SMAP_R_RXFIFO_RD_PTR : Nat := SMAP_REGBASE + 0xf34
def SMAP_R_RXFIFO_SIZE : Nat := SMAP_REGBASE + 0xf38
def SMAP_R_RXFIFO_FRAME_CNT : Nat := SMAP_REGBASE + 0xf3c
def SMAP_R_RXFIFO_FRAME_DEC : Nat := SMAP_REGBASE + 0xf40
def SMAP_R_RXFIFO_DATA : Nat := SMAP_REGBASE + 0x1100

def SMAP_EMAC3_REGBASE : Nat := SMAP_REGBASE + 0x1f00
def SMAP_EMAC3_REGEND : Nat := SMAP_EMAC3_REGBASE + 0x6c + 4
def SMAP_R_EMAC3_MODE0_L : Nat := SMAP_EMAC3_REGBASE + 0x00
def SMAP_R_EMAC3_TxMODE0_L : Nat := SMAP_EMAC3_REGBASE + 0x08
def SMAP_R_EMAC3_STA_CTRL_L : Nat := SMAP_EMAC3_REGBASE + 0x5c
def SMAP_R_EMAC3_STA_CTRL_H : Nat := SMAP_EMAC3_REGBASE + 0x5e

/-- The registers of `EMAC3_H_WRITE` -/
def emac3H : List Nat :=
  [0x02, 0x06, 0x0a, 0x0e, 0x12, 0x16, 0x1a, 0x1e, 0x22, 0x26, 0x2e, 0x32, 0x36, 0x3a, 0x3e, 0x42, 0x46, 0x4a,
    0x4e, 0x52, 0x56, 0x5a, 0x5e, 0x62, 0x66, 0x6a, 0x6e].map (SMAP_EMAC3_REGBASE + ·)

def SMAP_BD_TX_BASE : Nat := SMAP_REGBASE + 0x2f00
def SMAP_BD_RX_BASE : Nat := SMAP_REGBASE + 0x3100
def SMAP_BD_SIZE : Nat := 512

def SMAP_INTR_RXEND : Nat := 0x20
def SMAP_INTR_TXEND : Nat := 0x10
def SMAP_INTR_TXDNV : Nat := 0x04

/-! ## The adapter -/

inductive SmapFifo
  | rx | tx
  deriving DecidableEq, Repr

structure Access where
  fifo : SmapFifo
  position : Nat
  length : Nat
  deriving DecidableEq, Repr

structure Smap where
  dev9R : Nat → UInt8
  rxbdi : Nat := 0
  rxfifo : Nat → UInt8
  rxfifo_wr_ptr : Nat := 0
  txbdi : Nat := 0
  txfifo : Nat → UInt8
  bd_swap : Bool := false
  phyregs : Nat → Nat
  irqcause : Nat := 0
  fireIntR : Bool := false
  /-- The accesses to the FIFOs so far. -/
  accesses : List Access := []
  /-- What was sent so far. -/
  sent : List (List UInt8) := []

structure NetPacket where
  size : Nat
  buffer : Nat → UInt8

/-- The size in the FIFO. -/
def NetPacket.bytes (pk : NetPacket) : Nat := (pk.size + 3) / 4 * 4

namespace Smap

/-- `dev9Ru8`, `dev9Ru16` and `dev9Ru32`, by their size -/
def dev9Ru (size mem : Nat) (s : Smap) : Nat := readBytes s.dev9R (mem % 0x10000) size

def setDev9Ru (size mem value : Nat) (s : Smap) : Smap :=
  { s with dev9R := writeBytes s.dev9R (mem % 0x10000) size value }

def access (fifo : SmapFifo) (position length : Nat) (s : Smap) : Smap :=
  { s with accesses := s.accesses ++ [⟨fifo, position, length⟩] }

/-- `*(u32*)(dev9.rxfifo + position)` -/
def rxfifo32 (position : Nat) (s : Smap) : Nat × Smap :=
  (readBytes s.rxfifo position 4, s.access .rx position 4)

def txfifo32 (position : Nat) (s : Smap) : Nat × Smap :=
  (readBytes s.txfifo position 4, s.access .tx position 4)

def setTxfifo32 (position value : Nat) (s : Smap) : Smap :=
  { s.access .tx position 4 with txfifo := writeBytes s.txfifo position 4 value }

def irq (cause : Nat) (s : Smap) : Smap := { s with irqcause := s.irqcause ||| cause }

/-! ## Receiving -/

def rx_fifo_can_rx (s : Smap) : Bool :=
  if s.dev9Ru 1 SMAP_R_RXFIFO_FRAME_CNT = 64 then false
  else
    let rd_ptr := s.dev9Ru 4 SMAP_R_RXFIFO_RD_PTR
    let space := 16384 - (s.rxfifo_wr_ptr + 0x100000000 - rd_ptr) % 16384
    let space := if space = 0 then 16384 else space
    1514 ≤ space

/-- `dev9_rxfifo_write`, and the pointer is masked. -/
def rxfifoWrite (x : UInt8) (s : Smap) : Smap :=
  { s.access .rx s.rxfifo_wr_ptr 1 with
    rxfifo := Function.update s.rxfifo s.rxfifo_wr_ptr x
    rxfifo_wr_ptr := (s.rxfifo_wr_ptr + 1) % 0x10000 % 16384 }

def rxLoop (buffer : Nat → UInt8) : Nat → Nat → Smap → Smap
  | 0, _, s => s
  | left + 1, i, s => rxLoop buffer left (i + 1) (s.rxfifoWrite (buffer i))

/-- `pbd` of the descriptor that is next -/
def rxbd (s : Smap) : Nat := SMAP_BD_RX_BASE + 8 * s.rxbdi

def txbd (s : Smap) : Nat := SMAP_BD_TX_BASE + 8 * s.txbdi

def rx_process (pk : NetPacket) (s : Smap) : Smap :=
  let pbd := s.rxbd
  if !(s.dev9Ru 2 pbd).testBit 15 then s
  else
    let pstart := s.rxfifo_wr_ptr % 16384
    let s := rxLoop pk.buffer pk.bytes 0 s
    let s := { s with rxbdi := (s.rxbdi + 1) % (SMAP_BD_SIZE / 8) }
    let s := s.setDev9Ru 2 (pbd + 4) pk.size
    let s := s.setDev9Ru 2 (pbd + 6) (0x4000 + pstart)
    let s := s.setDev9Ru 2 pbd (s.dev9Ru 2 pbd &&& 0x7fff)
    let s := s.setDev9Ru 1 SMAP_R_RXFIFO_FRAME_CNT (s.dev9Ru 1 SMAP_R_RXFIFO_FRAME_CNT + 1)
    { s with fireIntR := true }

/-! ## Sending -/

def detection (base : Nat) : Nat → Nat → Smap → Bool × Smap
  | 0, _, s => (true, s)
  | left + 1, i, s =>
      let (word, s) := s.txfifo32 (base + i)
      if word ≠ i then (false, s) else detection base left (i + 4) s

def sendPacket (base length : Nat) (s : Smap) : Smap :=
  if 16384 < base + length then
    let was := 16384 - base
    let s := (s.access .tx base was).access .tx 0 (length - was)
    { s with
      sent := s.sent ++
        [(List.range was).map (fun i => s.txfifo (base + i)) ++ (List.range (length - was)).map s.txfifo] }
  else
    let s := s.access .tx base length
    { s with sent := s.sent ++ [(List.range length).map fun i => s.txfifo (base + i)] }

def txPacket (pbd : Nat) (s : Smap) : Smap :=
  let length := s.dev9Ru 2 (pbd + 4)
  let pointer := s.dev9Ru 2 (pbd + 6)
  if 1514 < length then s
  else
    let base := (pointer + 0x100000000 - 0x1000) % 16384
    let s :=
      if length = 0x5ea ∧ pointer = 0x1000 then
        let (test, s) := detection base 379 0 s
        if test then s.irq (SMAP_INTR_RXEND ||| SMAP_INTR_TXDNV) else s
      else s
    s.sendPacket base length

def txLoop : Nat → Smap → Nat → Smap × Nat
  | 0, s, cnt => (s, cnt)
  | fuel + 1, s, cnt =>
      let pbd := s.txbd
      if !(s.dev9Ru 2 pbd).testBit 15 then (s, cnt)
      else
        let s := s.txPacket pbd
        let s := s.setDev9Ru 2 pbd (s.dev9Ru 2 pbd &&& 0x7fff)
        let s := { s with txbdi := (s.txbdi + 1) % (SMAP_BD_SIZE / 8) }
        let s := s.setDev9Ru 1 SMAP_R_TXFIFO_FRAME_CNT (s.dev9Ru 1 SMAP_R_TXFIFO_FRAME_CNT + 255)
        txLoop fuel s (cnt + 1)

def tx_process (s : Smap) : Smap :=
  let (s, cnt) := txLoop 65 s 0
  s.irq (if cnt ≠ 0 then SMAP_INTR_TXEND else SMAP_INTR_TXDNV)

/-! ## Registers of the MAC -/

def wswap (d : Nat) : Nat := d / 0x10000 + d % 0x10000 * 0x10000

def SMAP_DsPHYTER_BMCR : Nat := 0x00
def SMAP_DsPHYTER_BMSR : Nat := 0x01
def SMAP_DsPHYTER_PHYSTS : Nat := 0x10

def phyRead (value : Nat) (s : Smap) : Nat :=
  let value := value ||| 0x8000
  let reg := value % 0x20
  let val := s.phyregs reg
  let val :=
    if reg = SMAP_DsPHYTER_BMSR then val ||| 0x24
    else if reg = SMAP_DsPHYTER_PHYSTS then val ||| 0x15
    else val
  value % 0x10000 + val * 0x10000

def phyWrite (value : Nat) (s : Smap) : Nat × Smap :=
  let value := value ||| 0x8000
  let reg := value % 0x20
  let val := value / 0x10000
  let val := if reg = SMAP_DsPHYTER_BMCR then (val &&& 0x7fff) ||| 1 else val
  (value, { s with phyregs := Function.update s.phyregs reg val })

def emac3Value (addr value : Nat) (s : Smap) : Nat × Smap :=
  if addr = SMAP_R_EMAC3_MODE0_L then
    ((value &&& 0xdfffffff) ||| 0xc0000000,
      s.setDev9Ru 2 SMAP_R_EMAC3_STA_CTRL_H (s.dev9Ru 2 SMAP_R_EMAC3_STA_CTRL_H ||| 0x8000))
  else if addr = SMAP_R_EMAC3_TxMODE0_L then (value &&& 0x7fffffff, s.tx_process)
  else if addr = SMAP_R_EMAC3_STA_CTRL_L then
    let value := if value.testBit 12 then s.phyRead value else value
    if value.testBit 13 then s.phyWrite value else (value, s)
  else (value, s)

def emac3_write (addr : Nat) (s : Smap) : Smap :=
  let (value, s) := s.emac3Value addr (wswap (s.dev9Ru 4 addr))
  s.setDev9Ru 4 addr (wswap value)

/-! ## Reads -/

def smap_read8 (addr : Nat) (s : Smap) : Nat :=
  if addr = SMAP_R_BD_MODE then (if s.bd_swap then 1 else 0) else s.dev9Ru 1 addr

def InTable (addr base : Nat) : Prop := base ≤ addr ∧ addr < base + SMAP_BD_SIZE

instance (addr base : Nat) : Decidable (InTable addr base) := inferInstanceAs (Decidable (_ ∧ _))

def swap16 (value : Nat) : Nat := value / 0x100 + value % 0x100 * 0x100

def smap_read16 (addr : Nat) (s : Smap) : Nat :=
  let rv := s.dev9Ru 2 addr
  if InTable addr SMAP_BD_TX_BASE ∨ InTable addr SMAP_BD_RX_BASE then (if s.bd_swap then swap16 rv else rv) else rv

def smap_read32 (addr : Nat) (s : Smap) : Nat × Smap :=
  if SMAP_EMAC3_REGBASE ≤ addr ∧ addr < SMAP_EMAC3_REGEND then
    (s.smap_read16 addr + s.smap_read16 (addr + 2) * 0x10000, s)
  else if addr = SMAP_R_RXFIFO_DATA then
    let rd_ptr := s.dev9Ru 4 SMAP_R_RXFIFO_RD_PTR % 16384
    let (rv, s) := s.rxfifo32 rd_ptr
    (rv, s.setDev9Ru 4 SMAP_R_RXFIFO_RD_PTR ((rd_ptr + 4) % 16384))
  else (s.dev9Ru 4 addr, s)

/-! ## Writes -/

def resetTx (s : Smap) : Smap :=
  (({ s with txbdi := 0 }.setDev9Ru 1 SMAP_R_TXFIFO_FRAME_CNT 0).setDev9Ru 4 SMAP_R_TXFIFO_WR_PTR 0).setDev9Ru 4
    SMAP_R_TXFIFO_SIZE 16384

def resetRx (s : Smap) : Smap :=
  (({ s with rxbdi := 0, rxfifo_wr_ptr := 0 }.setDev9Ru 1 SMAP_R_RXFIFO_FRAME_CNT 0).setDev9Ru 4
    SMAP_R_RXFIFO_RD_PTR 0).setDev9Ru 4 SMAP_R_RXFIFO_SIZE 16384

def smap_write8 (addr value : Nat) (s : Smap) : Smap :=
  if addr = SMAP_R_TXFIFO_FRAME_INC then
    s.setDev9Ru 1 SMAP_R_TXFIFO_FRAME_CNT (s.dev9Ru 1 SMAP_R_TXFIFO_FRAME_CNT + 1)
  else if addr = SMAP_R_RXFIFO_FRAME_DEC then
    let s := s.setDev9Ru 1 addr value
    s.setDev9Ru 1 SMAP_R_RXFIFO_FRAME_CNT (s.dev9Ru 1 SMAP_R_RXFIFO_FRAME_CNT + 255)
  else if addr = SMAP_R_TXFIFO_CTRL then
    (if value.testBit 0 then s.resetTx else s).setDev9Ru 1 addr (value &&& 0xfe)
  else if addr = SMAP_R_RXFIFO_CTRL then
    (if value.testBit 0 then s.resetRx else s).setDev9Ru 1 addr (value &&& 0xfe)
  else if addr = SMAP_R_BD_MODE then { s with bd_swap := value.testBit 0 }
  else s.setDev9Ru 1 addr value

def smap_write16 (addr value : Nat) (s : Smap) : Smap :=
  if InTable addr SMAP_BD_TX_BASE ∨ InTable addr SMAP_BD_RX_BASE then
    s.setDev9Ru 2 addr (if s.bd_swap then swap16 value else value)
  else if addr = SMAP_R_INTR_CLR then { s with irqcause := s.irqcause &&& (0xffff - value) }
  else if addr ∈ emac3H then (s.setDev9Ru 2 addr value).emac3_write (addr - 2)
  else s.setDev9Ru 2 addr value

def smap_write32 (addr value : Nat) (s : Smap) : Smap :=
  if SMAP_EMAC3_REGBASE ≤ addr ∧ addr < SMAP_EMAC3_REGEND then
    (s.smap_write16 addr (value % 0x10000)).smap_write16 (addr + 2) (value / 0x10000)
  else if addr = SMAP_R_TXFIFO_DATA then
    let s := s.setTxfifo32 (s.dev9Ru 4 SMAP_R_TXFIFO_WR_PTR) value
    s.setDev9Ru 4 SMAP_R_TXFIFO_WR_PTR ((s.dev9Ru 4 SMAP_R_TXFIFO_WR_PTR + 4) % 16384)
  else s.setDev9Ru 4 addr value

/-! ## DMA -/

/-- The loop of `smap_readDMA8Mem` over the words of the transfer -/
def readDMALoop : Nat → Smap → List Nat × Smap
  | 0, s => ([], s)
  | words + 1, s =>
      let rd_ptr := s.dev9Ru 4 SMAP_R_RXFIFO_RD_PTR
      let (word, s) := s.rxfifo32 rd_ptr
      let (rest, s) := readDMALoop words (s.setDev9Ru 4 SMAP_R_RXFIFO_RD_PTR ((rd_ptr + 4) % 16384))
      (word :: rest, s)

def smap_readDMA8Mem (size : Nat) (s : Smap) : List Nat × Smap :=
  if (s.dev9Ru 2 SMAP_R_RXFIFO_CTRL).testBit 1 then
    let s := s.setDev9Ru 4 SMAP_R_RXFIFO_RD_PTR (s.dev9Ru 4 SMAP_R_RXFIFO_RD_PTR % 16384)
    let (words, s) := readDMALoop ((size + 3) / 4) s
    (words, s.setDev9Ru 2 SMAP_R_RXFIFO_CTRL (s.dev9Ru 2 SMAP_R_RXFIFO_CTRL &&& 0xfffd))
  else ([], s)

/-- The loop of `smap_writeDMA8Mem` over the words of the transfer -/
def writeDMALoop : List Nat → Smap → Smap
  | [], s => s
  | value :: words, s =>
      let wr_ptr := s.dev9Ru 4 SMAP_R_TXFIFO_WR_PTR
      let s := s.setTxfifo32 wr_ptr value
      writeDMALoop words (s.setDev9Ru 4 SMAP_R_TXFIFO_WR_PTR ((wr_ptr + 4) % 16384))

def smap_writeDMA8Mem (words : List Nat) (s : Smap) : Smap :=
  if (s.dev9Ru 2 SMAP_R_TXFIFO_CTRL).testBit 1 then
    let s := s.setDev9Ru 4 SMAP_R_TXFIFO_WR_PTR (s.dev9Ru 4 SMAP_R_TXFIFO_WR_PTR % 16384)
    let s := writeDMALoop words s
    s.setDev9Ru 2 SMAP_R_TXFIFO_CTRL (s.dev9Ru 2 SMAP_R_TXFIFO_CTRL &&& 0xfffd)
  else s

end Smap

end Pcsx2.Dev9
