import Mathlib.Algebra.Order.Ring.Int
import Pcsx2.Foundation.Ring

/-!
# The FIFO between the EE and the IOP

A ring of words. Counts of words are natural numbers: the callers never take more than there is
nor put more than there is room for.
-/

namespace Pcsx2.Sif

open Foundation

abbrev Word := BitVec 32

def FIFO_SIF_W : Nat := 128

structure SifFifo where
  data : Nat → Word
  readPos : Nat
  writePos : Nat
  size : Nat

namespace SifFifo

variable (fifo : SifFifo)

def sif_free : Nat := FIFO_SIF_W - fifo.size

def write (words : List Word) : SifFifo :=
  { fifo with
    data := copyIn FIFO_SIF_W fifo.data fifo.writePos words
    writePos := (fifo.writePos + words.length) % FIFO_SIF_W
    size := fifo.size + words.length }

def writeJunk (words : Nat) : SifFifo :=
  let transferredWords := 4 - words
  let prevQWPos := (fifo.writePos + FIFO_SIF_W - (4 + transferredWords)) % FIFO_SIF_W
  let junk := copyOut FIFO_SIF_W fifo.data prevQWPos 4
  let wP0 := min (FIFO_SIF_W - fifo.writePos) words
  let wP1 := words - wP0
  let data := perform fifo.data (blockStores fifo.writePos ((junk.drop (4 - wP0)).take wP0))
  { fifo with
    data := perform data (blockStores 0 ((junk.drop wP0).take wP1))
    writePos := (fifo.writePos + words) % FIFO_SIF_W
    size := fifo.size + words }

def read (words : Nat) : List Word × SifFifo :=
  (copyOut FIFO_SIF_W fifo.data fifo.readPos words,
    { fifo with readPos := (fifo.readPos + words) % FIFO_SIF_W, size := fifo.size - words })

def clear : SifFifo := ⟨fun _ => 0, 0, 0, 0⟩

end SifFifo

end Pcsx2.Sif
