import Mathlib.Algebra.Order.Ring.Int

/-!
# The bit stream of the IPU

Two quadwords of the input FIFO are buffered in front of the bit pointer. What asks for bits has them buffered
first, and the decoder then reads them at the pointer and moves it on.
-/

namespace Pcsx2.Ipu

abbrev Quad := Vector UInt8 16

/-- `ipu_fifo.in` and `g_BP`, with the flags of `IPUCoreStatus` that reading sets. `IFC` is the length of the FIFO. -/
structure Input where
  fifo : List Quad
  internal_qwc : Quad × Quad
  BP : Nat
  FP : Nat
  DataRequested : Bool
  WaitingOnIPUTo : Bool

namespace Input

def IFC (input : Input) : Nat := input.fifo.length

/-- `IPU_Fifo_Input::read`. -/
def read (input : Input) : Option Quad × Input :=
  match input.fifo with
  | [] => (none, { input with DataRequested := true })
  | value :: fifo => (some value, { input with fifo, DataRequested := input.DataRequested || fifo.isEmpty })

/-- `IPU_Fifo_Input::write`, with how many quadwords of `data` there was room for. -/
def write (input : Input) (data : List Quad) : Nat × Input :=
  let transfer_size := min data.length (8 - input.IFC)
  let fifo := input.fifo ++ data.take transfer_size
  if transfer_size = 0 then (0, input)
  else (transfer_size, { input with fifo, DataRequested := input.DataRequested && fifo.length != 8 })

/-- `internal_qwc[FP++] = value`. -/
def put (input : Input) (value : Quad) : Input :=
  if input.FP = 0 then { input with internal_qwc := (value, input.internal_qwc.2), FP := 1 }
  else { input with internal_qwc := (input.internal_qwc.1, value), FP := input.FP + 1 }

/-- The loop of `FillBuffer`. No caller asks for more bits than both quadwords have, so that two rounds are enough. -/
def fill : Nat → Input → Nat → Bool × Input
  | 0, input, _ => (true, input)
  | rounds + 1, input, bits =>
    if input.FP * 128 < input.BP + bits then
      match input.read with
      | (none, input) => (false, { input with WaitingOnIPUTo := true })
      | (some value, input) => fill rounds (input.put value) bits
    else
      (true, input)

def FillBuffer (input : Input) (bits : Nat) : Bool × Input := fill 2 input bits

def Advance (input : Input) (bits : Nat) : Input :=
  let input := (input.FillBuffer bits).2
  let input := { input with BP := input.BP + bits }
  if 128 ≤ input.BP then
    let input := { input with BP := input.BP - 128 }
    if input.FP = 2 then
      { input with internal_qwc := (input.internal_qwc.2, input.internal_qwc.2), FP := 1 }
    else
      -- The buffer is drained, or was before and a quadword of the FIFO is dropped.
      match input.read with
      | (none, input) => { input with FP := 0 }
      | (some value, input) => { input with internal_qwc := (value, input.internal_qwc.2), FP := 1 }
  else
    input

def Align (input : Input) : Input :=
  { input with BP := (input.BP + 7) / 8 * 8 }.Advance 0

/-- The `bits` bits at the position `pos` of the buffered quadwords. -/
def bitsAt (input : Input) (pos bits : Nat) : Nat :=
  let bytes := ((input.internal_qwc.1 ++ input.internal_qwc.2).toList.drop (pos / 8)).take ((pos % 8 + bits + 7) / 8)
  bytes.foldl (fun number byte => number * 256 + byte.toNat) 0 / 2 ^ (8 * bytes.length - pos % 8 - bits) % 2 ^ bits

def UBITS (input : Input) (bits : Nat) : Nat := input.bitsAt input.BP bits

def SBITS (input : Input) (bits : Nat) : Int :=
  if input.UBITS bits < 2 ^ (bits - 1) then input.UBITS bits else input.UBITS bits - 2 ^ bits

def available (input : Input) : Nat := input.FP * 128 + input.fifo.length * 128 - input.BP

end Input

end Pcsx2.Ipu

/-!
# Codes of variable length

The tables of `mpeg2_vlc.h`. An entry gives what a code stands for and how many bits it has, and there are as many
equal entries as bits behind the code leave open.
-/

namespace Pcsx2.Ipu

def MACROBLOCK_INTRA : Nat := 1
def MACROBLOCK_PATTERN : Nat := 2
def MACROBLOCK_MOTION_FORWARD : Nat := 8
def MACROBLOCK_QUANT : Nat := 16
def DCT_TYPE_INTERLACED : Nat := 32
def MOTION_TYPE_BASE : Nat := 64
def MC_FRAME : Nat := 128

structure MBtab where
  modes : Nat
  len : Nat

structure MVtab where
  delta : Nat
  len : Nat

structure DMVtab where
  dmv : Int
  len : Nat

structure CBPtab where
  cbp : Nat
  len : Nat

structure DCtab where
  size : Nat
  len : Nat

structure DCTtab where
  run : Nat
  level : Nat
  len : Nat
  deriving DecidableEq

structure MBAtab where
  mba : Nat
  len : Nat

def repeated {α : Type} (runs : List (Nat × α)) : List α :=
  runs.flatMap fun run => List.replicate run.1 run.2

def MB_I : List MBtab := repeated [
  (1, ⟨17, 2⟩), (1, ⟨1, 1⟩)]

def MB_P : List MBtab := repeated [
  (1, ⟨17, 6⟩), (1, ⟨18, 5⟩), (1, ⟨26, 5⟩), (1, ⟨1, 5⟩), (4, ⟨8, 3⟩), (8, ⟨2, 2⟩), (16, ⟨10, 1⟩)]

def MB_B : List MBtab := repeated [
  (1, ⟨0, 0⟩), (1, ⟨17, 6⟩), (1, ⟨22, 6⟩), (1, ⟨26, 6⟩), (2, ⟨30, 5⟩), (2, ⟨1, 5⟩), (4, ⟨8, 4⟩),
  (4, ⟨10, 4⟩), (8, ⟨4, 3⟩), (8, ⟨6, 3⟩), (16, ⟨12, 2⟩), (16, ⟨14, 2⟩)]

def MV_4 : List MVtab := repeated [
  (1, ⟨3, 6⟩), (1, ⟨2, 4⟩), (2, ⟨1, 3⟩), (4, ⟨0, 2⟩)]

def MV_10 : List MVtab := repeated [
  (12, ⟨0, 10⟩), (1, ⟨15, 10⟩), (1, ⟨14, 10⟩), (1, ⟨13, 10⟩), (1, ⟨12, 10⟩), (1, ⟨11, 10⟩), (1, ⟨10, 10⟩),
  (2, ⟨9, 9⟩), (2, ⟨8, 9⟩), (2, ⟨7, 9⟩), (8, ⟨6, 7⟩), (8, ⟨5, 7⟩), (8, ⟨4, 7⟩)]

def DMV_2 : List DMVtab := repeated [
  (2, ⟨0, 1⟩), (1, ⟨1, 2⟩), (1, ⟨-1, 2⟩)]

def CBP_7 : List CBPtab := repeated [
  (1, ⟨34, 7⟩), (1, ⟨18, 7⟩), (1, ⟨10, 7⟩), (1, ⟨6, 7⟩), (1, ⟨33, 7⟩), (1, ⟨17, 7⟩), (1, ⟨9, 7⟩),
  (1, ⟨5, 7⟩), (2, ⟨63, 6⟩), (2, ⟨3, 6⟩), (2, ⟨36, 6⟩), (2, ⟨24, 6⟩), (4, ⟨62, 5⟩), (4, ⟨2, 5⟩),
  (4, ⟨61, 5⟩), (4, ⟨1, 5⟩), (4, ⟨56, 5⟩), (4, ⟨52, 5⟩), (4, ⟨44, 5⟩), (4, ⟨28, 5⟩), (4, ⟨40, 5⟩),
  (4, ⟨20, 5⟩), (4, ⟨48, 5⟩), (4, ⟨12, 5⟩), (8, ⟨32, 4⟩), (8, ⟨16, 4⟩), (8, ⟨8, 4⟩), (8, ⟨4, 4⟩),
  (16, ⟨60, 3⟩)]

def CBP_9 : List CBPtab := repeated [
  (1, ⟨0, 0⟩), (1, ⟨0, 9⟩), (1, ⟨39, 9⟩), (1, ⟨27, 9⟩), (1, ⟨59, 9⟩), (1, ⟨55, 9⟩), (1, ⟨47, 9⟩),
  (1, ⟨31, 9⟩), (2, ⟨58, 8⟩), (2, ⟨54, 8⟩), (2, ⟨46, 8⟩), (2, ⟨30, 8⟩), (2, ⟨57, 8⟩), (2, ⟨53, 8⟩),
  (2, ⟨45, 8⟩), (2, ⟨29, 8⟩), (2, ⟨38, 8⟩), (2, ⟨26, 8⟩), (2, ⟨37, 8⟩), (2, ⟨25, 8⟩), (2, ⟨43, 8⟩),
  (2, ⟨23, 8⟩), (2, ⟨51, 8⟩), (2, ⟨15, 8⟩), (2, ⟨42, 8⟩), (2, ⟨22, 8⟩), (2, ⟨50, 8⟩), (2, ⟨14, 8⟩),
  (2, ⟨41, 8⟩), (2, ⟨21, 8⟩), (2, ⟨49, 8⟩), (2, ⟨13, 8⟩), (2, ⟨35, 8⟩), (2, ⟨19, 8⟩), (2, ⟨11, 8⟩),
  (2, ⟨7, 8⟩)]

namespace MBA

def mba5 : List MBAtab := repeated [
  (1, ⟨6, 5⟩), (1, ⟨5, 5⟩), (2, ⟨4, 4⟩), (2, ⟨3, 4⟩), (4, ⟨2, 3⟩), (4, ⟨1, 3⟩), (16, ⟨0, 1⟩)]

def mba11 : List MBAtab := repeated [
  (1, ⟨32, 11⟩), (1, ⟨31, 11⟩), (1, ⟨30, 11⟩), (1, ⟨29, 11⟩), (1, ⟨28, 11⟩), (1, ⟨27, 11⟩), (1, ⟨26, 11⟩),
  (1, ⟨25, 11⟩), (1, ⟨24, 11⟩), (1, ⟨23, 11⟩), (1, ⟨22, 11⟩), (1, ⟨21, 11⟩), (2, ⟨20, 10⟩), (2, ⟨19, 10⟩),
  (2, ⟨18, 10⟩), (2, ⟨17, 10⟩), (2, ⟨16, 10⟩), (2, ⟨15, 10⟩), (8, ⟨14, 8⟩), (8, ⟨13, 8⟩), (8, ⟨12, 8⟩),
  (8, ⟨11, 8⟩), (8, ⟨10, 8⟩), (8, ⟨9, 8⟩), (16, ⟨8, 7⟩), (16, ⟨7, 7⟩)]

end MBA

namespace DCtable

def lum0 : List DCtab := repeated [
  (8, ⟨1, 2⟩), (8, ⟨2, 2⟩), (4, ⟨0, 3⟩), (4, ⟨3, 3⟩), (4, ⟨4, 3⟩), (2, ⟨5, 4⟩), (1, ⟨6, 5⟩), (1, ⟨0, 0⟩)]

def lum1 : List DCtab := repeated [
  (8, ⟨7, 6⟩), (4, ⟨8, 7⟩), (2, ⟨9, 8⟩), (1, ⟨10, 9⟩), (1, ⟨11, 9⟩)]

def chrom0 : List DCtab := repeated [
  (8, ⟨0, 2⟩), (8, ⟨1, 2⟩), (8, ⟨2, 2⟩), (4, ⟨3, 3⟩), (2, ⟨4, 4⟩), (1, ⟨5, 5⟩), (1, ⟨0, 0⟩)]

def chrom1 : List DCtab := repeated [
  (16, ⟨6, 6⟩), (8, ⟨7, 7⟩), (4, ⟨8, 8⟩), (2, ⟨9, 9⟩), (1, ⟨10, 10⟩), (1, ⟨11, 10⟩)]

end DCtable

namespace DCT

def first : List DCTtab := repeated [
  (1, ⟨0, 2, 4⟩), (1, ⟨2, 1, 4⟩), (2, ⟨1, 1, 3⟩), (8, ⟨0, 1, 1⟩)]

def next : List DCTtab := repeated [
  (1, ⟨0, 2, 4⟩), (1, ⟨2, 1, 4⟩), (2, ⟨1, 1, 3⟩), (4, ⟨64, 0, 2⟩), (4, ⟨0, 1, 2⟩)]

def tab0 : List DCTtab := repeated [
  (4, ⟨65, 0, 6⟩), (2, ⟨2, 2, 7⟩), (2, ⟨9, 1, 7⟩), (2, ⟨0, 4, 7⟩), (2, ⟨8, 1, 7⟩), (4, ⟨7, 1, 6⟩),
  (4, ⟨6, 1, 6⟩), (4, ⟨1, 2, 6⟩), (4, ⟨5, 1, 6⟩), (1, ⟨13, 1, 8⟩), (1, ⟨0, 6, 8⟩), (1, ⟨12, 1, 8⟩),
  (1, ⟨11, 1, 8⟩), (1, ⟨3, 2, 8⟩), (1, ⟨1, 3, 8⟩), (1, ⟨0, 5, 8⟩), (1, ⟨10, 1, 8⟩), (8, ⟨0, 3, 5⟩),
  (8, ⟨4, 1, 5⟩), (8, ⟨3, 1, 5⟩)]

def tab0a : List DCTtab := repeated [
  (4, ⟨65, 0, 6⟩), (2, ⟨7, 1, 7⟩), (2, ⟨8, 1, 7⟩), (2, ⟨6, 1, 7⟩), (2, ⟨2, 2, 7⟩), (4, ⟨0, 7, 6⟩),
  (4, ⟨0, 6, 6⟩), (4, ⟨4, 1, 6⟩), (4, ⟨5, 1, 6⟩), (1, ⟨1, 5, 8⟩), (1, ⟨11, 1, 8⟩), (1, ⟨0, 11, 8⟩),
  (1, ⟨0, 10, 8⟩), (1, ⟨13, 1, 8⟩), (1, ⟨12, 1, 8⟩), (1, ⟨3, 2, 8⟩), (1, ⟨1, 4, 8⟩), (8, ⟨2, 1, 5⟩),
  (8, ⟨1, 2, 5⟩), (8, ⟨3, 1, 5⟩), (32, ⟨1, 1, 3⟩), (16, ⟨64, 0, 4⟩), (16, ⟨0, 3, 4⟩), (64, ⟨0, 1, 2⟩),
  (32, ⟨0, 2, 3⟩), (8, ⟨0, 4, 5⟩), (8, ⟨0, 5, 5⟩), (2, ⟨9, 1, 7⟩), (2, ⟨1, 3, 7⟩), (2, ⟨10, 1, 7⟩),
  (2, ⟨0, 8, 7⟩), (2, ⟨0, 9, 7⟩), (1, ⟨0, 12, 8⟩), (1, ⟨0, 13, 8⟩), (1, ⟨2, 3, 8⟩), (1, ⟨4, 2, 8⟩),
  (1, ⟨0, 14, 8⟩), (1, ⟨0, 15, 8⟩)]

def tab1 : List DCTtab := repeated [
  (1, ⟨16, 1, 10⟩), (1, ⟨5, 2, 10⟩), (1, ⟨0, 7, 10⟩), (1, ⟨2, 3, 10⟩), (1, ⟨1, 4, 10⟩), (1, ⟨15, 1, 10⟩),
  (1, ⟨14, 1, 10⟩), (1, ⟨4, 2, 10⟩)]

def tab1a : List DCTtab := repeated [
  (2, ⟨5, 2, 9⟩), (2, ⟨14, 1, 9⟩), (1, ⟨2, 4, 10⟩), (1, ⟨16, 1, 10⟩), (2, ⟨15, 1, 9⟩)]

def tab2 : List DCTtab := repeated [
  (1, ⟨0, 11, 12⟩), (1, ⟨8, 2, 12⟩), (1, ⟨4, 3, 12⟩), (1, ⟨0, 10, 12⟩), (1, ⟨2, 4, 12⟩), (1, ⟨7, 2, 12⟩),
  (1, ⟨21, 1, 12⟩), (1, ⟨20, 1, 12⟩), (1, ⟨0, 9, 12⟩), (1, ⟨19, 1, 12⟩), (1, ⟨18, 1, 12⟩), (1, ⟨1, 5, 12⟩),
  (1, ⟨3, 3, 12⟩), (1, ⟨0, 8, 12⟩), (1, ⟨6, 2, 12⟩), (1, ⟨17, 1, 12⟩)]

def tab3 : List DCTtab := repeated [
  (1, ⟨10, 2, 13⟩), (1, ⟨9, 2, 13⟩), (1, ⟨5, 3, 13⟩), (1, ⟨3, 4, 13⟩), (1, ⟨2, 5, 13⟩), (1, ⟨1, 7, 13⟩),
  (1, ⟨1, 6, 13⟩), (1, ⟨0, 15, 13⟩), (1, ⟨0, 14, 13⟩), (1, ⟨0, 13, 13⟩), (1, ⟨0, 12, 13⟩),
  (1, ⟨26, 1, 13⟩), (1, ⟨25, 1, 13⟩), (1, ⟨24, 1, 13⟩), (1, ⟨23, 1, 13⟩), (1, ⟨22, 1, 13⟩)]

def tab4 : List DCTtab := repeated [
  (1, ⟨0, 31, 14⟩), (1, ⟨0, 30, 14⟩), (1, ⟨0, 29, 14⟩), (1, ⟨0, 28, 14⟩), (1, ⟨0, 27, 14⟩),
  (1, ⟨0, 26, 14⟩), (1, ⟨0, 25, 14⟩), (1, ⟨0, 24, 14⟩), (1, ⟨0, 23, 14⟩), (1, ⟨0, 22, 14⟩),
  (1, ⟨0, 21, 14⟩), (1, ⟨0, 20, 14⟩), (1, ⟨0, 19, 14⟩), (1, ⟨0, 18, 14⟩), (1, ⟨0, 17, 14⟩),
  (1, ⟨0, 16, 14⟩)]

def tab5 : List DCTtab := repeated [
  (1, ⟨0, 40, 15⟩), (1, ⟨0, 39, 15⟩), (1, ⟨0, 38, 15⟩), (1, ⟨0, 37, 15⟩), (1, ⟨0, 36, 15⟩),
  (1, ⟨0, 35, 15⟩), (1, ⟨0, 34, 15⟩), (1, ⟨0, 33, 15⟩), (1, ⟨0, 32, 15⟩), (1, ⟨1, 14, 15⟩),
  (1, ⟨1, 13, 15⟩), (1, ⟨1, 12, 15⟩), (1, ⟨1, 11, 15⟩), (1, ⟨1, 10, 15⟩), (1, ⟨1, 9, 15⟩), (1, ⟨1, 8, 15⟩)]

def tab6 : List DCTtab := repeated [
  (1, ⟨1, 18, 16⟩), (1, ⟨1, 17, 16⟩), (1, ⟨1, 16, 16⟩), (1, ⟨1, 15, 16⟩), (1, ⟨6, 3, 16⟩),
  (1, ⟨16, 2, 16⟩), (1, ⟨15, 2, 16⟩), (1, ⟨14, 2, 16⟩), (1, ⟨13, 2, 16⟩), (1, ⟨12, 2, 16⟩),
  (1, ⟨11, 2, 16⟩), (1, ⟨31, 1, 16⟩), (1, ⟨30, 1, 16⟩), (1, ⟨29, 1, 16⟩), (1, ⟨28, 1, 16⟩),
  (1, ⟨27, 1, 16⟩)]

end DCT

end Pcsx2.Ipu
