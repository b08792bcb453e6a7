import Mathlib.Algebra.Order.Ring.Int
import Pcsx2.Foundation.Memory
import Pcsx2.Foundation.Run

/-!
# SPU2 RAM and the cache of decoded blocks

Addresses count 16-bit words. The places that write to the RAM differ in which lines of the cache they
invalidate.
-/

namespace Pcsx2.Spu2
open Foundation

def ramSize : Nat := 0x100000

def SPU2_DYN_MEMLINE : Nat := 0x2800

def pcm_WordsPerBlock : Nat := 8

structure PcmCacheEntry where
  Validated : Bool
  Sampledata : List Int
  Prev1 : Int
  Prev2 : Int

structure Ram where
  mem : Nat → UInt16
  cache : Nat → PcmCacheEntry

def Ram.init (mem : Nat → UInt16) : Ram :=
  { mem, cache := fun _ => ⟨false, List.replicate 28 0, 0, 0⟩ }

/-- Lines from `first` up to `last`, without the latter, are no longer valid. -/
def Ram.invalidate (r : Ram) (first last : Nat) : Ram :=
  { r with cache := fun line =>
      if first ≤ line ∧ line < last then { r.cache line with Validated := false } else r.cache line }

/-- `spu2M_Write`. -/
def Ram.write (r : Ram) (addr : Nat) (value : UInt16) : Ram :=
  let addr := addr % ramSize
  let line := addr / pcm_WordsPerBlock
  let r := if SPU2_DYN_MEMLINE ≤ addr then r.invalidate line (line + 1) else r
  { r with mem := Function.update r.mem addr value }

/-- A store with no invalidation: `spu2M_WriteFast`, and what reverb writes. -/
def Ram.writeFast (r : Ram) (addr : Nat) (value : UInt16) : Ram :=
  { r with mem := Function.update r.mem addr value }

/-- A `memcpy` to the RAM. -/
def Ram.copy (r : Ram) (addr : Nat) (words : List UInt16) : Ram :=
  { r with mem := perform r.mem (blockStores addr words) }

/-- The part of `FinishDMAwrite` that writes: `first` goes to `ActiveTSA`, after which the lines are
invalidated that it covers; what wraps goes to the start of the RAM. -/
def Ram.dmaWrite (r : Ram) (activeTSA : Nat) (first wrapped : List UInt16) : Ram :=
  let buff1end := activeTSA + first.length
  let r := r.invalidate (activeTSA / pcm_WordsPerBlock)
    ((buff1end + pcm_WordsPerBlock - 1) / pcm_WordsPerBlock)
  (r.copy activeTSA first).copy 0 wrapped

@[simp] theorem invalidate_mem (r : Ram) (first last : Nat) : (r.invalidate first last).mem = r.mem :=
  rfl

theorem dmaWrite_mem (r : Ram) (activeTSA : Nat) (first wrapped : List UInt16) :
    (r.dmaWrite activeTSA first wrapped).mem =
      perform (perform r.mem (blockStores activeTSA first)) (blockStores 0 wrapped) := rfl

end Pcsx2.Spu2

/-!
# Decoding of the voices

The 48 voices share the cache of decoded blocks. A voice that plays keeps the line it entered in `SBuffer`
and takes four samples from there for each word that `NextA` passes.
-/

namespace Pcsx2.Spu2
open Foundation

/-! ## ADPCM blocks -/

def tbl_XA_Factor : Nat → Int × Int
  | 0 => (0, 0)
  | 1 => (60, 0)
  | 2 => (115, -52)
  | 3 => (98, -55)
  | 4 => (122, -60)
  | _ => (0, 0)

def topNibble (nibble : Nat) : Int :=
  (if nibble < 8 then (nibble : Int) else nibble - 16) * 2 ^ 28

def clampS16 (pcm : Int) : Int := max (-0x8000) (min 0x7fff pcm)

structure Decoded where
  buffer : List Int
  prev1 : Int
  prev2 : Int

/-- The loop of `XA_decode_block`. -/
def decodeBytes (pred : Int × Int) (shift : Nat) : List Nat → Int → Int → Decoded
  | [], prev1, prev2 => ⟨[], prev1, prev2⟩
  | byte :: bytes, prev1, prev2 =>
      let pcm := clampS16 (topNibble (byte % 16) >>> shift +
        (pred.1 * prev1 + pred.2 * prev2 + 32) >>> (6 : Nat))
      let pcm2 := clampS16 (topNibble (byte / 16) >>> shift +
        (pred.1 * pcm + pred.2 * prev1 + 32) >>> (6 : Nat))
      let rest := decodeBytes pred shift bytes pcm2 pcm
      { rest with buffer := pcm :: pcm2 :: rest.buffer }

/-- `block` has the header and seven words with two bytes each. -/
def XA_decode_block (block : List UInt16) (prev1 prev2 : Int) : Decoded :=
  let header := (block.headD 0).toNat
  let shift := header % 16 + 16
  let id := header / 16 % 16
  decodeBytes (tbl_XA_Factor id) shift
    (block.tail.flatMap fun word => [word.toNat % 256, word.toNat / 256]) prev1 prev2

def pcm_DecodedSamplesPerBlock : Nat := 28

/-! ## Voices -/

/-- `playing` says that `ADSR.Phase` is above `PHASE_STOPPED`, `SBuffer` is the number of a cache line. -/
structure Voice where
  playing : Bool
  StartA : Nat
  LoopStartA : Nat
  NextA : Nat
  LoopMode : Bool
  LoopFlags : Nat
  Prev1 : Int
  Prev2 : Int
  SBuffer : Option Nat
  DecPosWrite : UInt32
  DecPosRead : UInt32
  DecodeFifo : Nat → Int

/-- `V_Core::Init`. -/
def Voice.init : Voice where
  playing := false
  StartA := 0x2800
  LoopStartA := 0x2800
  NextA := 0x2801
  LoopMode := false
  LoopFlags := 0
  Prev1 := 0
  Prev2 := 0
  SBuffer := none
  DecPosWrite := 0
  DecPosRead := 0
  DecodeFifo := fun _ => 0

/-- `V_Voice::Start`. -/
def Voice.start (vc : Voice) : Voice :=
  let StartA := if vc.StartA % 8 ≠ 0 then (vc.StartA + 0xFFFF8 + 0x8) % 2 ^ 32 else vc.StartA
  { vc with
    StartA, playing := true, LoopMode := false, LoopFlags := 0, NextA := StartA / 2 * 2 + 1
    Prev1 := 0, Prev2 := 0, SBuffer := none, DecPosRead := 0, DecPosWrite := 0 }

/-- `V_Voice::Stop`. -/
def Voice.stop (vc : Voice) : Voice := { vc with playing := false }

def Voice.consumeSamples (vc : Voice) (consumed : UInt32) : Voice :=
  { vc with DecPosRead := vc.DecPosRead + consumed }

/-! ## Address registers -/

def blockAddr (high low : Nat) : Nat := high % 16 * 0x10000 + low % 0x10000 / 8 * 8

inductive VoiceAddr
  | SSAH | SSAL | LSAH | LSAL | NAXH | NAXL
  deriving DecidableEq

/-- `RegWrite_VoiceAddr`. -/
def Voice.regWrite_VoiceAddr (vc : Voice) (address : VoiceAddr) (value : UInt16) : Voice :=
  match address with
  | .SSAH => { vc with StartA := blockAddr value.toNat vc.StartA }
  | .SSAL => { vc with StartA := blockAddr (vc.StartA / 0x10000) value.toNat }
  | .LSAH => { vc with LoopMode := true, LoopStartA := blockAddr value.toNat vc.LoopStartA }
  | .LSAL => { vc with LoopMode := true, LoopStartA := blockAddr (vc.LoopStartA / 0x10000) value.toNat }
  | .NAXH => { vc with NextA := blockAddr value.toNat vc.NextA + 1 }
  | .NAXL => { vc with NextA := blockAddr (vc.NextA / 0x10000) value.toNat + 1 }

def map_spu1to2 (addr : Nat) : Nat := addr * 4 + if 0x200 ≤ addr then 0xc0000 else 0

/-- The two addresses of a voice that `WriteRegPS1` sets. -/
def Voice.writeRegPS1 (vc : Voice) (loop : Bool) (value : UInt16) : Voice :=
  if loop then { vc with LoopStartA := map_spu1to2 value.toNat }
  else { vc with StartA := map_spu1to2 value.toNat }

/-! ## Taking samples -/

def cacheIdx (addr : Nat) : Nat := addr % ramSize / pcm_WordsPerBlock

def blockAt (mem : Nat → UInt16) (line : Nat) : List UInt16 :=
  load mem (line * pcm_WordsPerBlock) pcm_WordsPerBlock

def Voice.incrementNextA (vc : Voice) : Voice := { vc with NextA := (vc.NextA + 1) % ramSize }

def cacheHit (cacheLine : PcmCacheEntry) (vc : Voice) : Bool :=
  cacheLine.Validated && vc.Prev1 == cacheLine.Prev1 && vc.Prev2 == cacheLine.Prev2

/-- What `GetNextDataBuffered` does while `SBuffer` is null. -/
def enterBlock (ram : Ram) (vc : Voice) : Ram × Voice :=
  let line := cacheIdx vc.NextA
  let cacheLine := ram.cache line
  let entered := { vc with SBuffer := some line }
  if cacheHit cacheLine vc then
    (ram, { entered with
      Prev1 := cacheLine.Sampledata.getD 27 0, Prev2 := cacheLine.Sampledata.getD 26 0 })
  else
    let cacheLine :=
      if SPU2_DYN_MEMLINE ≤ vc.NextA then
        { cacheLine with Validated := true, Prev1 := vc.Prev1, Prev2 := vc.Prev2 }
      else cacheLine
    let decoded := XA_decode_block (blockAt ram.mem line) vc.Prev1 vc.Prev2
    ({ ram with
        cache := Function.update ram.cache line { cacheLine with Sampledata := decoded.buffer } },
      { entered with Prev1 := decoded.prev1, Prev2 := decoded.prev2 })

/-- The first of the four samples that come with a word. `NextA` is never at the header, see `Placed`. -/
def sampleIdx (NextA : Nat) : Nat := (NextA % pcm_WordsPerBlock - 1) * 4

def put (fifo : Nat → Int) (DecPosWrite : UInt32) (buffer : List Int) (sampleIdx : Nat) : Nat → Int :=
  (List.range 4).foldl (fun fifo i =>
    Function.update fifo ((DecPosWrite + .ofNat i) % 32).toNat (buffer.getD (sampleIdx + i) 0)) fifo

def getNextDataBuffered (ram : Ram) (vc : Voice) : Ram × Voice :=
  let (ram, vc) := if vc.SBuffer = none then enterBlock ram vc else (ram, vc)
  let buffer := (ram.cache (vc.SBuffer.getD 0)).Sampledata
  (ram, { vc with DecodeFifo := put vc.DecodeFifo vc.DecPosWrite buffer (sampleIdx vc.NextA) })

def XAFLAG_LOOP_END : Nat := 0

def XAFLAG_LOOP : Nat := 1

def XAFLAG_LOOP_START : Nat := 2

def updateBlockHeader (ram : Ram) (vc : Voice) : Voice :=
  let memptr := cacheIdx vc.NextA * pcm_WordsPerBlock
  let vc := { vc with LoopFlags := (ram.mem memptr).toNat / 256 }
  if vc.LoopFlags.testBit XAFLAG_LOOP_START && !vc.LoopMode then { vc with LoopStartA := memptr } else vc

def Voice.buffered (vc : Voice) : Bool := decide (12 < (vc.DecPosWrite - vc.DecPosRead).toInt32)

/-- What `DecodeSamples` does at the end of a block. -/
def Voice.leaveBlock (vc : Voice) : Voice :=
  let vc :=
    if vc.LoopFlags.testBit XAFLAG_LOOP_END then
      let vc := { vc with NextA := vc.LoopStartA }
      if vc.LoopFlags.testBit XAFLAG_LOOP then vc else vc.stop
    else vc
  { vc.incrementNextA with SBuffer := none }

/-- The end of `DecodeSamples`. -/
def Voice.advance (vc : Voice) : Voice :=
  let vc := { vc with DecPosWrite := vc.DecPosWrite + 4 }.incrementNextA
  if vc.NextA % 8 = 0 then vc.leaveBlock else vc

def decodeSamples (ram : Ram) (vc : Voice) : Ram × Voice :=
  let vc := updateBlockHeader ram vc
  if vc.buffered then (ram, vc)
  else
    let (ram, vc) := if vc.playing then getNextDataBuffered ram vc else (ram, vc)
    (ram, vc.advance)

end Pcsx2.Spu2
