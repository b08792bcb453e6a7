import Mathlib.Data.List.GetD
import Pcsx2.Foundation.BitStream
import Pcsx2.Foundation.Ring
import Pcsx2.Foundation.Run
import Pcsx2.Ipu.Worker

/-!
# The position in the bit stream of the IPU

The input FIFO is a ring of words and the window in front of it holds up to two quadwords. They behave as the queue of
`Input`, and the bits read are those of all the quadwords written, as long as no quadword has to be skipped that is not
there yet.
-/

namespace Pcsx2.Ipu
open Foundation

/-- `ipu_fifo.in` and `g_BP`, with the flags of `IPUCoreStatus` that reading sets. The words of the ring and of the
window are given by their bytes. -/
structure tIPU_BP where
  data : Nat → UInt8
  readpos : Nat
  writepos : Nat
  internal_qwc : Nat → UInt8
  BP : Nat
  IFC : Nat
  FP : Nat
  DataRequested : Bool
  WaitingOnIPUTo : Bool

def flat (quads : List Quad) : List UInt8 := quads.flatMap Vector.toList

namespace tIPU_BP

/-- `memcpy` and the index of the ring advance by words; `pMem` gives the quadwords. -/
def write (state : tIPU_BP) (pMem : List Quad) : Nat × tIPU_BP :=
  let transfer_size := min pMem.length (8 - state.IFC)
  if transfer_size = 0 then (0, state)
  else
    let first_words := min (32 - state.writepos) (4 * transfer_size)
    let bytes := flat (pMem.take transfer_size)
    let data := perform state.data (blockStores (4 * state.writepos) (bytes.take (4 * first_words)))
    let IFC := state.IFC + transfer_size
    (transfer_size, { state with
      data := perform data (blockStores 0 (bytes.drop (4 * first_words)))
      writepos := (state.writepos + 4 * transfer_size) % 32
      IFC
      DataRequested := if IFC = 8 then false else state.DataRequested })

/-- A quadword is copied to `internal_qwc[index]`, where there is one. -/
def CopyQWC (internal_qwc : Nat → UInt8) (index : Nat) (value : List UInt8) : Option (Nat → UInt8) :=
  if index ≤ 1 then some (perform internal_qwc (blockStores (16 * index) value)) else none

/-- `ipu_fifo.in.read(&internal_qwc[index])`. -/
def read (state : tIPU_BP) (index : Nat) : Option (Bool × tIPU_BP) :=
  let state := if state.IFC ≤ 1 then { state with DataRequested := true } else state
  if state.IFC = 0 then some (false, state)
  else (CopyQWC state.internal_qwc index (Foundation.load state.data (4 * state.readpos) 16)).map fun internal_qwc =>
    (true, { state with internal_qwc, readpos := (state.readpos + 4) % 32, IFC := state.IFC - 1 })

def fillLoop : Nat → tIPU_BP → Nat → Option (Bool × tIPU_BP)
  | 0, _, _ => none
  | rounds + 1, state, bits =>
    if state.FP * 128 < state.BP + bits then
      (state.read state.FP).bind fun got =>
        if got.1 then fillLoop rounds { got.2 with FP := got.2.FP + 1 } bits
        else some (false, { got.2 with WaitingOnIPUTo := true })
    else
      some (true, state)

def FillBuffer (state : tIPU_BP) (bits : Nat) : Option (Bool × tIPU_BP) := fillLoop 3 state bits

def Advance (state : tIPU_BP) (bits : Nat) : Option tIPU_BP :=
  (state.FillBuffer bits).bind fun filled =>
    let state := { filled.2 with BP := filled.2.BP + bits }
    if 256 < state.BP then none
    else if 128 ≤ state.BP then
      let state := { state with BP := state.BP - 128 }
      if state.FP = 2 then
        (CopyQWC state.internal_qwc 0 (Foundation.load state.internal_qwc 16 16)).map fun internal_qwc =>
          { state with internal_qwc, FP := 1 }
      else
        (state.read 0).map fun got => { got.2 with FP := if got.1 then 1 else 0 }
    else
      some state

def Align (state : tIPU_BP) : Option tIPU_BP := { state with BP := (state.BP + 7) / 8 * 8 }.Advance 0

def UBITS (state : tIPU_BP) (bits : Nat) : Option Nat :=
  let readpos8 := state.BP / 8
  if readpos8 + 4 ≤ 32 ∧ 0 < bits ∧ bits ≤ 32 then
    some (bigEndian state.internal_qwc readpos8 4 * 2 ^ (state.BP % 8) % 2 ^ 32 / 2 ^ (32 - bits))
  else
    none

/-- `ipuBCLR`. -/
def BCLR (state : tIPU_BP) (val : Nat) : tIPU_BP where
  data := fun _ => 0
  readpos := 0
  writepos := 0
  internal_qwc := fun _ => 0
  BP := val % 128
  IFC := 0
  FP := 0
  DataRequested := true
  WaitingOnIPUTo := state.WaitingOnIPUTo

end tIPU_BP

/-! ## The queue of quadwords -/

namespace Input

def window (input : Input) : List Quad := [input.internal_qwc.1, input.internal_qwc.2]

def held (input : Input) : List Quad := input.window.take input.FP ++ input.fifo

structure Filled (before : Input) (bits : Nat) (enough : Bool) (after : Input) : Prop where
  held : after.held = before.held
  BP : after.BP = before.BP
  FP : after.FP ≤ 2
  fifo : after.fifo.length ≤ before.fifo.length
  full : enough = true → before.BP + bits ≤ after.FP * 128
  empty : enough = false → after.fifo = [] ∧ after.FP * 128 < before.BP + bits

theorem read_none {input taken : Input} (got : input.read = (none, taken)) :
    input.fifo = [] ∧ taken = { input with DataRequested := true } := by
  unfold read at got
  split at got <;> cases got
  exact ⟨by assumption, rfl⟩

theorem read_some {input taken : Input} {value : Quad} (got : input.read = (some value, taken)) :
    ∃ fifo, input.fifo = value :: fifo ∧ taken = { input with fifo, DataRequested := input.DataRequested || fifo.isEmpty } := by
  unfold read at got
  split at got <;> cases got
  exact ⟨_, by assumption, rfl⟩

theorem put_taken {input taken : Input} {value : Quad} (got : input.read = (some value, taken)) (room : input.FP < 2) :
    (taken.put value).held = input.held ∧ (taken.put value).FP = input.FP + 1 ∧ (taken.put value).BP = input.BP ∧
      (taken.put value).fifo.length ≤ input.fifo.length := by
  obtain ⟨fifo, queued, rfl⟩ := read_some got
  cases input with
  | mk queue window BP FP _ _ =>
      obtain rfl : queue = value :: fifo := queued
      rcases (by simp only at room; omega : FP = 0 ∨ FP = 1) with rfl | rfl <;> simp [put, held, Input.window]

theorem fill_filled (rounds : Nat) {input : Input} {bits : Nat} (inside : input.FP ≤ 2) (small : input.BP + bits ≤ 256)
    (enough : 2 ≤ input.FP + rounds) :
    Filled input bits (fill rounds input bits).1 (fill rounds input bits).2 := by
  induction rounds generalizing input with
  | zero =>
      refine ⟨rfl, rfl, inside, Nat.le_refl _, fun _ => ?_, by simp [fill]⟩
      simp only [fill]
      omega
  | succ rounds ih =>
      by_cases missing : input.FP * 128 < input.BP + bits
      · simp only [fill, if_pos missing]
        cases got : input.read with
        | mk value taken =>
            cases value with
            | none =>
                obtain ⟨queued, rfl⟩ := read_none got
                exact ⟨rfl, rfl, inside, Nat.le_refl _, by simp, fun _ => ⟨queued, missing⟩⟩
            | some value =>
                obtain ⟨same, further, kept, shorter⟩ := put_taken got (by omega)
                have rest : Filled (taken.put value) bits _ _ := ih (by omega) (by omega) (by omega)
                refine ⟨rest.held.trans same, rest.BP.trans kept, rest.FP, rest.fifo.trans shorter, ?_, ?_⟩
                · simpa only [kept] using rest.full
                · simpa only [kept] using rest.empty
      · simp only [fill, if_neg missing]
        exact ⟨rfl, rfl, inside, Nat.le_refl _, fun _ => Nat.not_lt.1 missing, by simp⟩

theorem advance_held {input : Input} {bits : Nat} (inside : input.FP ≤ 2) (small : input.BP + bits < 256) :
    (input.Advance bits).held = input.held.drop ((input.BP + bits) / 128) ∧
      (input.Advance bits).BP = (input.BP + bits) % 128 ∧ (input.Advance bits).FP ≤ 2 ∧
      (input.Advance bits).fifo.length ≤ input.fifo.length := by
  have filled : Filled input bits _ _ := fill_filled 2 inside (by omega) (by omega)
  unfold Advance FillBuffer
  generalize (fill 2 input bits).1 = enough at filled ⊢
  generalize (fill 2 input bits).2 = after at filled ⊢
  obtain ⟨held, BP, FP, fifo, full, empty⟩ := filled
  rw [← held, ← BP]
  by_cases passed : 128 ≤ after.BP + bits
  · have one : (after.BP + bits) / 128 = 1 := by omega
    have rest : (after.BP + bits) % 128 = after.BP + bits - 128 := by omega
    simp only [if_pos passed, one, rest]
    by_cases two : after.FP = 2
    · simp only [if_pos two]
      refine ⟨?_, trivial, by omega, fifo⟩
      simp [Input.held, window, two]
    · simp only [if_neg two]
      cases got : Input.read { after with BP := after.BP + bits - 128 } with
      | mk value taken =>
          cases value with
          | none =>
              obtain ⟨queued, rfl⟩ := read_none got
              have drained : after.fifo = [] := queued
              refine ⟨?_, rfl, Nat.zero_le _, fifo⟩
              rcases (by omega : after.FP = 0 ∨ after.FP = 1) with none | one <;> simp [Input.held, window, *]
          | some value =>
              obtain ⟨rest, queued, rfl⟩ := read_some got
              have more : after.fifo = value :: rest := queued
              cases enough with
              | true =>
                  have one : after.FP = 1 := by
                    have := full rfl
                    omega
                  refine ⟨?_, rfl, by simp, ?_⟩
                  · simp [Input.held, window, more, one]
                  · rw [more] at fifo
                    exact Nat.le_of_succ_le fifo
              | false => simp [more] at empty
  · have none : (after.BP + bits) / 128 = 0 := by omega
    have rest : (after.BP + bits) % 128 = after.BP + bits := by omega
    simp only [if_neg passed, none, rest]
    exact ⟨rfl, trivial, FP, fifo⟩

theorem align_held {input : Input} (inside : input.FP ≤ 2) (small : input.BP < 128) :
    input.Align.held = input.held.drop ((input.BP + 7) / 8 * 8 / 128) ∧ input.Align.BP = (input.BP + 7) / 8 * 8 % 128 ∧
      input.Align.FP ≤ 2 ∧ input.Align.fifo.length ≤ input.fifo.length := by
  have below : (input.BP + 7) / 8 * 8 + 0 < 256 := by omega
  exact @advance_held { input with BP := (input.BP + 7) / 8 * 8 } 0 inside below

end Input

/-! ## The ring is the queue -/

section

variable {state : tIPU_BP} {input : Input} {quads : List Quad} {bits : Nat}

@[simp] theorem flat_length (quads : List Quad) : (flat quads).length = 16 * quads.length := by
  induction quads with
  | nil => rfl
  | cons quad quads ih =>
      rw [flat, List.flatMap_cons, List.length_append, Vector.length_toList, ← flat, ih, List.length_cons]
      omega

theorem flat_append (quads more : List Quad) : flat (quads ++ more) = flat quads ++ flat more := List.flatMap_append

theorem flat_drop (quads : List Quad) (count : Nat) : (flat quads).drop (16 * count) = flat (quads.drop count) := by
  induction count generalizing quads with
  | zero => rfl
  | succ count ih =>
      cases quads with
      | nil => simp [flat]
      | cons quad quads =>
          have passed : 16 * (count + 1) = quad.toList.length + 16 * count := by
            rw [Vector.length_toList]
            omega
          rw [List.drop_succ_cons, ← ih, flat, List.flatMap_cons, ← flat, passed, List.drop_length_add_append]

structure Refines (state : tIPU_BP) (input : Input) (quads : List Quad) : Prop where
  BP : state.BP = input.BP
  FP : state.FP = input.FP
  DataRequested : state.DataRequested = input.DataRequested
  WaitingOnIPUTo : state.WaitingOnIPUTo = input.WaitingOnIPUTo
  first : Foundation.load state.internal_qwc 0 16 = input.internal_qwc.1.toList
  second : Foundation.load state.internal_qwc 16 16 = input.internal_qwc.2.toList
  IFC : state.IFC = input.fifo.length
  room : input.fifo.length ≤ 8
  written : input.fifo.length ≤ quads.length
  unread : quads.drop (quads.length - input.fifo.length) = input.fifo
  keeps : Keeps 128 state.data (flat quads)
  writepos : state.writepos = 4 * quads.length % 32
  readpos : state.readpos = 4 * (quads.length - input.fifo.length) % 32

theorem flat_take (quad : Quad) (quads : List Quad) : (flat (quad :: quads)).take 16 = quad.toList := by
  have length : quad.toList.length = 16 := Vector.length_toList
  rw [flat, List.flatMap_cons, List.take_append_of_le_length (Nat.le_of_eq length.symm),
    List.take_of_length_le (Nat.le_of_eq length)]

theorem Refines.cleared (val : Nat) (same : state.WaitingOnIPUTo = input.WaitingOnIPUTo) :
    Refines (state.BCLR val) (input.clear (val % 128)) [] where
  BP := rfl
  FP := rfl
  DataRequested := rfl
  WaitingOnIPUTo := same
  first := rfl
  second := rfl
  IFC := rfl
  room := Nat.zero_le _
  written := Nat.le_refl _
  unread := rfl
  keeps := .nil
  writepos := rfl
  readpos := rfl

theorem Refines.write (refines : Refines state input quads) (pMem : List Quad) :
    Refines (state.write pMem).2 (input.write pMem).2 (quads ++ pMem.take (min pMem.length (8 - state.IFC))) := by
  have counts : input.IFC = state.IFC := refines.IFC.symm
  unfold tIPU_BP.write Input.write
  simp only [counts]
  generalize accepted : min pMem.length (8 - state.IFC) = transfer_size
  by_cases none : transfer_size = 0
  · simpa only [none, if_true, List.take_zero, List.append_nil] using refines
  · have taken : (pMem.take transfer_size).length = transfer_size := by
      rw [List.length_take]
      omega
    have queued := refines.IFC
    have written := refines.written
    have place : 4 * state.writepos = (flat quads).length % 128 := by
      rw [refines.writepos, flat_length]
      omega
    have pieces : 4 * min (32 - state.writepos) (4 * transfer_size) =
        min (128 - 4 * state.writepos) (flat (pMem.take transfer_size)).length := by
      rw [flat_length, taken]
      omega
    have keeps := refines.keeps.copyIn (by decide) (flat (pMem.take transfer_size)) (by rw [flat_length, taken]; omega)
    rw [← flat_append, ← place, copyIn, ← pieces] at keeps
    have gone : (quads ++ pMem.take transfer_size).length - (input.fifo ++ pMem.take transfer_size).length =
        quads.length - input.fifo.length := by
      rw [List.length_append, List.length_append]
      omega
    simp only [if_neg none]
    refine ⟨refines.BP, refines.FP, ?_, refines.WaitingOnIPUTo, refines.first, refines.second, ?_, ?_, ?_, ?_, keeps, ?_, ?_⟩
    · rw [List.length_append, taken, ← queued, refines.DataRequested]
      by_cases full : state.IFC + transfer_size = 8 <;> simp [full]
    · rw [List.length_append, taken, queued]
    · rw [List.length_append, taken]
      omega
    · rw [List.length_append, List.length_append]
      omega
    · rw [gone, List.drop_append_of_le_length (Nat.sub_le _ _), refines.unread]
    · rw [List.length_append, taken, Nat.mul_add, Nat.add_mod (4 * quads.length), ← refines.writepos, Nat.add_mod_mod]
    · rw [gone]
      exact refines.readpos

/-- What a read leaves when the quadword goes to the window's `index`. -/
def Input.store (input : Input) (index : Nat) (value : Quad) : Input :=
  { input with internal_qwc := if index = 0 then (value, input.internal_qwc.2) else (input.internal_qwc.1, value) }

theorem copyQWC_loads (internal_qwc : Nat → UInt8) {index : Nat} (inside : index ≤ 1) (value : Quad) :
    ∃ stored, tIPU_BP.CopyQWC internal_qwc index value.toList = some stored ∧
      Foundation.load stored 0 16 = (if index = 0 then value.toList else Foundation.load internal_qwc 0 16) ∧
      Foundation.load stored 16 16 = (if index = 0 then Foundation.load internal_qwc 16 16 else value.toList) := by
  have length : value.toList.length = 16 := Vector.length_toList
  refine ⟨_, if_pos inside, ?_⟩
  have inner := load_eq_iff.2 fun i (below : i < value.toList.length) => perform_blockStores internal_qwc (16 * index) _ i below
  rw [length] at inner
  rcases (by omega : index = 0 ∨ index = 1) with rfl | rfl
  · exact ⟨inner, load_congr fun i below => perform_blockStores_of_ge (by omega)⟩
  · exact ⟨load_congr fun i below => perform_blockStores_of_lt (by omega), inner⟩

theorem Refines.read_none {taken : Input} (refines : Refines state input quads) (got : input.read = (none, taken)) (index : Nat) :
    ∃ next, state.read index = some (false, next) ∧ Refines next taken quads := by
  obtain ⟨queued, rfl⟩ := Input.read_none got
  have empty : state.IFC = 0 := by rw [refines.IFC, queued, List.length_nil]
  refine ⟨{ state with DataRequested := true }, by simp [tIPU_BP.read, empty], ?_⟩
  exact { refines with DataRequested := rfl }

theorem Refines.read_some {taken : Input} {value : Quad} {index : Nat} (refines : Refines state input quads)
    (got : input.read = (some value, taken)) (inside : index ≤ 1) :
    ∃ next, state.read index = some (true, next) ∧ Refines next (taken.store index value) quads := by
  obtain ⟨fifo, queued, rfl⟩ := Input.read_some got
  obtain ⟨stored, copied, first, second⟩ := copyQWC_loads state.internal_qwc inside value
  have count : state.IFC = fifo.length + 1 := by rw [refines.IFC, queued, List.length_cons]
  have unread := refines.unread
  have written := refines.written
  have room := refines.room
  rw [queued, List.length_cons] at unread written room
  have loaded : Foundation.load state.data (4 * state.readpos) 16 = value.toList := by
    have place : 4 * state.readpos = 16 * (quads.length - (fifo.length + 1)) % 128 := by
      rw [refines.readpos, queued, List.length_cons]
      omega
    have whole : min (128 - 4 * state.readpos) 16 = 16 := by omega
    have copied := refines.keeps.copyOut (by decide) (16 * (quads.length - (fifo.length + 1))) 16
      (by rw [flat_length]; omega) (by rw [flat_length]; omega)
    rw [flat_drop, unread, flat_take, copyOut, ← place, whole, Nat.sub_self, load_zero, List.append_nil] at copied
    exact copied
  have requested : (if state.IFC ≤ 1 then { state with DataRequested := true } else state) =
      { state with DataRequested := state.DataRequested || fifo.isEmpty } := by
    cases fifo with
    | nil =>
        have last : state.IFC ≤ 1 := Nat.le_of_eq count
        rw [if_pos last]
        simp
    | cons next fifo =>
        rw [if_neg (by rw [count, List.length_cons]; omega)]
        simp
  refine ⟨{ state with
    internal_qwc := stored
    readpos := (state.readpos + 4) % 32
    IFC := state.IFC - 1
    DataRequested := state.DataRequested || fifo.isEmpty }, ?_, ?_⟩
  · unfold tIPU_BP.read
    rw [requested]
    simp only [loaded, copied, Option.map_some]
    exact if_neg (by omega)
  · refine { refines with DataRequested := ?_, first := ?_, second := ?_, IFC := ?_, room := ?_, written := ?_, unread := ?_, readpos := ?_ }
    · simp [Input.store, refines.DataRequested]
    · rw [first, refines.first]
      by_cases zero : index = 0 <;> simp [Input.store, zero]
    · rw [second, refines.second]
      by_cases zero : index = 0 <;> simp [Input.store, zero]
    · simp [Input.store, count]
    · exact Nat.le_of_succ_le room
    · exact Nat.le_of_succ_le written
    · have next : quads.length - fifo.length = quads.length - (fifo.length + 1) + 1 := by omega
      simp only [Input.store]
      rw [next, ← List.drop_drop, unread]
      rfl
    · rw [refines.readpos, queued, List.length_cons]
      simp only [Input.store]
      omega

theorem Refines.put {taken : Input} {value : Quad} (refines : Refines state input quads) (got : input.read = (some value, taken))
    (room : input.FP < 2) :
    ∃ next, state.read state.FP = some (true, next) ∧ Refines { next with FP := next.FP + 1 } (taken.put value) quads := by
  have place : state.FP ≤ 1 := by rw [refines.FP]; omega
  obtain ⟨next, read, refines'⟩ := refines.read_some got place
  refine ⟨next, read, ?_⟩
  obtain ⟨fifo, queued, rfl⟩ := Input.read_some got
  have same : next.FP = input.FP := refines'.FP
  have one : state.FP = input.FP := refines.FP
  rw [one] at refines'
  unfold Input.put
  by_cases none : input.FP = 0
  · simp only [Input.store, none, if_true] at refines' ⊢
    exact { refines' with FP := by rw [same, none] }
  · simp only [Input.store, none, if_false] at refines' ⊢
    exact { refines' with FP := by rw [same] }

theorem Refines.fillLoop (rounds : Nat) (refines : Refines state input quads) (small : input.BP + bits ≤ 256)
    (enough : 2 ≤ input.FP + rounds) :
    ∃ next, state.fillLoop (rounds + 1) bits = some ((input.fill rounds bits).1, next) ∧
      Refines next (input.fill rounds bits).2 quads := by
  induction rounds generalizing state input with
  | zero =>
      have full : ¬state.FP * 128 < state.BP + bits := by
        rw [refines.FP, refines.BP]
        omega
      exact ⟨state, if_neg full, refines⟩
  | succ rounds ih =>
      have same : (state.FP * 128 < state.BP + bits) = (input.FP * 128 < input.BP + bits) := by rw [refines.FP, refines.BP]
      by_cases missing : input.FP * 128 < input.BP + bits
      · rw [tIPU_BP.fillLoop]
        simp only [same, if_pos missing, Input.fill]
        cases got : input.read with
        | mk value taken =>
            cases value with
            | none =>
                obtain ⟨next, read, refines'⟩ := refines.read_none got state.FP
                exact ⟨{ next with WaitingOnIPUTo := true }, by simp [read], { refines' with WaitingOnIPUTo := rfl }⟩
            | some value =>
                obtain ⟨next, read, refines'⟩ := refines.put got (by omega)
                obtain ⟨-, further, kept, -⟩ := Input.put_taken got (by omega)
                rw [read]
                exact ih refines' (by omega) (by omega)
      · rw [tIPU_BP.fillLoop]
        simp only [same, if_neg missing, Input.fill]
        exact ⟨state, rfl, refines⟩

theorem Refines.fillBuffer (refines : Refines state input quads) (small : input.BP + bits ≤ 256) :
    ∃ next, state.FillBuffer bits = some ((input.FillBuffer bits).1, next) ∧ Refines next (input.FillBuffer bits).2 quads :=
  refines.fillLoop 2 small (by omega)

theorem Refines.advance (refines : Refines state input quads) (inside : input.FP ≤ 2) (small : input.BP + bits < 256) :
    ∃ next, state.Advance bits = some next ∧ Refines next (input.Advance bits) quads := by
  obtain ⟨filled, fill, refines'⟩ := refines.fillBuffer (by omega : input.BP + bits ≤ 256)
  have kept : (input.FillBuffer bits).2.BP = input.BP := (Input.fill_filled 2 inside (by omega) (by omega)).BP
  unfold tIPU_BP.Advance Input.Advance
  rw [fill, Option.bind_some]
  generalize (input.FillBuffer bits).2 = after at refines' kept ⊢
  have moved : filled.BP + bits = after.BP + bits := by rw [refines'.BP]
  simp only [moved, if_neg (by omega : ¬256 < after.BP + bits), refines'.FP]
  by_cases passed : 128 ≤ after.BP + bits
  · simp only [if_pos passed]
    by_cases two : after.FP = 2
    · simp only [if_pos two, refines'.second]
      obtain ⟨stored, copied, first, second⟩ := copyQWC_loads filled.internal_qwc (Nat.zero_le 1) after.internal_qwc.2
      rw [copied]
      exact ⟨_, rfl, { refines' with BP := rfl, FP := rfl, first := first, second := second.trans refines'.second }⟩
    · simp only [if_neg two]
      have moved' : Refines { filled with BP := after.BP + bits - 128, FP := after.FP }
          { after with BP := after.BP + bits - 128 } quads := { refines' with BP := rfl, FP := rfl }
      cases got : Input.read { after with BP := after.BP + bits - 128 } with
      | mk value taken =>
          cases value with
          | none =>
              obtain ⟨next, read, last⟩ := moved'.read_none got 0
              rw [read]
              exact ⟨_, rfl, { last with FP := rfl }⟩
          | some value =>
              obtain ⟨next, read, last⟩ := moved'.read_some got (Nat.zero_le 1)
              rw [read]
              exact ⟨_, rfl, { last with FP := rfl }⟩
  · simp only [if_neg passed]
    exact ⟨_, rfl, { refines' with BP := rfl, FP := rfl }⟩

theorem Refines.align (refines : Refines state input quads) (inside : input.FP ≤ 2) (small : input.BP < 128) :
    ∃ next, state.Align = some next ∧ Refines next input.Align quads := by
  have aligned : Refines { state with BP := (state.BP + 7) / 8 * 8 } { input with BP := (input.BP + 7) / 8 * 8 } quads :=
    { refines with BP := by rw [refines.BP] }
  have below : (input.BP + 7) / 8 * 8 + 0 < 256 := by omega
  exact aligned.advance inside below

end

/-! ## Runs -/

inductive Operation
  | write (pMem : List Quad)
  | BCLR (val : Nat)
  | FillBuffer (bits : Nat)
  | Advance (bits : Nat)
  | Align

def Operation.asked : Operation → Nat
  | .FillBuffer bits | .Advance bits => bits
  | _ => 0

def Operation.target (operation : Operation) (BP : Nat) : Nat :=
  match operation with
  | .Advance bits => BP + bits
  | .Align => (BP + 7) / 8 * 8
  | _ => 0

def tIPU_BP.apply (state : tIPU_BP) : Operation → Option tIPU_BP
  | .write pMem => some (state.write pMem).2
  | .BCLR val => some (state.BCLR val)
  | .FillBuffer bits => (state.FillBuffer bits).map Prod.snd
  | .Advance bits => state.Advance bits
  | .Align => state.Align

def Input.apply (input : Input) : Operation → Input
  | .write pMem => (input.write pMem).2
  | .BCLR val => input.clear (val % 128)
  | .FillBuffer bits => (input.FillBuffer bits).2
  | .Advance bits => input.Advance bits
  | .Align => input.Align

/-- All the quadwords written since the last `BCLR`, and the position that it and the bits advanced since make. -/
structure Stream where
  quads : List Quad
  position : Nat

/-- With `IFC` quadwords in the FIFO only some of those given are written. -/
def Stream.apply (stream : Stream) (IFC : Nat) : Operation → Stream
  | .write pMem => { stream with quads := stream.quads ++ pMem.take (min pMem.length (8 - IFC)) }
  | .BCLR val => ⟨[], val % 128⟩
  | .FillBuffer _ => stream
  | .Advance bits => { stream with position := stream.position + bits }
  | .Align => { stream with position := (stream.position + 7) / 8 * 8 }

def Stream.bytes (stream : Stream) (i : Nat) : UInt8 := (flat stream.quads).getD i 0

structure World where
  code : tIPU_BP
  queue : Input
  stream : Stream

def World.cleared (state : tIPU_BP) (val : Nat) : World where
  code := state.BCLR val
  queue := Input.clear ⟨[], (zeroQuad, zeroQuad), 0, 0, true, state.WaitingOnIPUTo⟩ (val % 128)
  stream := ⟨[], val % 128⟩

def World.next (world : World) (operation : Operation) : Option World :=
  if operation.asked ≤ 64 then
    (world.code.apply operation).map fun code =>
      ⟨code, world.queue.apply operation, world.stream.apply world.code.IFC operation⟩
  else
    none

def World.Step (world world' : World) : Prop := ∃ operation, world.next operation = some world'

def Operation.Supplied (operation : Operation) (state : tIPU_BP) : Prop :=
  ¬(state.FP = 0 ∧ state.IFC = 0 ∧ 128 ≤ operation.target state.BP)

def World.SuppliedStep (world world' : World) : Prop :=
  ∃ operation : Operation, operation.Supplied world.code ∧ world.next operation = some world'

/-- The counters stay in their ranges, the FIFO holds the quadwords that are unread, and nothing is written outside the window. -/
structure World.Bounded (world : World) : Prop where
  FP : world.code.FP ≤ 2
  BP : world.code.BP < 256
  IFC : world.code.IFC ≤ 8
  count : world.code.IFC = world.queue.fifo.length
  unread : world.stream.quads.drop (world.stream.quads.length - world.code.IFC) = world.queue.fifo
  inside : ∀ operation : Operation, operation.asked ≤ 64 → (world.code.apply operation).isSome

/-- What is read is what stands at the position in the stream. -/
def World.Reads (world : World) : Prop :=
  ∀ bits code, 1 ≤ bits → bits ≤ 25 → world.code.FillBuffer bits = some (true, code) →
    world.stream.position + bits ≤ 128 * world.stream.quads.length ∧
      code.UBITS bits = some (bitsFrom world.stream.bytes world.stream.position bits)

structure World.Inv (world : World) : Prop where
  refines : Refines world.code world.queue world.stream.quads
  FP : world.queue.FP ≤ 2
  BP : world.queue.BP < 128

structure World.InPlace (world : World) : Prop where
  held : world.stream.quads.drop (world.stream.position / 128) = world.queue.held
  passed : world.stream.position / 128 ≤ world.stream.quads.length
  BP : world.stream.position % 128 = world.queue.BP

variable {world world' : World} {operation : Operation}

theorem World.Inv.apply (inv : world.Inv) (small : operation.asked ≤ 64) :
    ∃ code, world.code.apply operation = some code ∧
      World.Inv ⟨code, world.queue.apply operation, world.stream.apply world.code.IFC operation⟩ := by
  obtain ⟨refines, FP, BP⟩ := inv
  cases operation with
  | write pMem =>
      refine ⟨_, rfl, refines.write pMem, ?_, ?_⟩ <;> simp only [Input.apply, Input.write] <;> split_ifs <;> assumption
  | BCLR val => exact ⟨_, rfl, .cleared val refines.WaitingOnIPUTo, Nat.zero_le _, Nat.mod_lt _ (by decide)⟩
  | FillBuffer bits =>
      have few : bits ≤ 64 := small
      obtain ⟨next, filled, refines'⟩ := refines.fillBuffer (by omega : world.queue.BP + bits ≤ 256)
      have after : Input.Filled world.queue bits _ _ := Input.fill_filled 2 FP (by omega) (by omega)
      exact ⟨next, by rw [tIPU_BP.apply, filled]; rfl, refines', after.FP, after.BP.trans_lt BP⟩
  | Advance bits =>
      have few : bits ≤ 64 := small
      obtain ⟨next, advanced, refines'⟩ := refines.advance FP (by omega : world.queue.BP + bits < 256)
      obtain ⟨-, moved, FP', -⟩ := Input.advance_held FP (by omega : world.queue.BP + bits < 256)
      exact ⟨next, advanced, refines', FP', by rw [Input.apply, moved]; exact Nat.mod_lt _ (by decide)⟩
  | Align =>
      obtain ⟨next, advanced, refines'⟩ := refines.align FP BP
      obtain ⟨-, moved, FP', -⟩ := Input.align_held FP BP
      exact ⟨next, advanced, refines', FP', by rw [Input.apply, moved]; exact Nat.mod_lt _ (by decide)⟩

theorem World.InPlace.apply (inv : world.Inv) (place : world.InPlace) (small : operation.asked ≤ 64)
    (supplied : operation.Supplied world.code) {code : tIPU_BP} :
    World.InPlace ⟨code, world.queue.apply operation, world.stream.apply world.code.IFC operation⟩ := by
  obtain ⟨held, passed, BP⟩ := place
  have some_held : ¬(world.code.FP = 0 ∧ world.code.IFC = 0) → world.stream.position / 128 + 1 ≤ world.stream.quads.length := by
    intro some_quad
    have count := congrArg List.length held
    rw [List.length_drop, Input.held, List.length_append, List.length_take] at count
    rw [inv.refines.FP, inv.refines.IFC] at some_quad
    simp only [Input.window, List.length_cons, List.length_nil] at count
    omega
  have small_BP := inv.BP
  have moved_BP := inv.refines.BP
  cases operation with
  | write pMem =>
      have counts : world.queue.IFC = world.code.IFC := inv.refines.IFC.symm
      refine ⟨?_, ?_, ?_⟩
      · simp only [Stream.apply, Input.apply, Input.write, counts]
        rw [List.drop_append_of_le_length passed, held]
        split_ifs with none
        · rw [none, List.take_zero, List.append_nil]
        · simp [Input.held, Input.window]
      · simp only [Stream.apply, List.length_append]
        omega
      · simp only [Stream.apply, Input.apply, Input.write]
        split_ifs <;> exact BP
  | BCLR val => exact ⟨by simp [Stream.apply, Input.apply, Input.held, Input.clear], by simp [Stream.apply], Nat.mod_mod _ _⟩
  | FillBuffer bits =>
      have few : bits ≤ 64 := small
      have after : Input.Filled world.queue bits _ _ := Input.fill_filled 2 inv.FP (by omega) (by omega)
      exact ⟨held.trans after.held.symm, passed, BP.trans after.BP.symm⟩
  | Advance bits =>
      have few : bits ≤ 64 := small
      obtain ⟨left, moved, -, -⟩ := Input.advance_held inv.FP (by omega : world.queue.BP + bits < 256)
      have quad : (world.stream.position + bits) / 128 = world.stream.position / 128 + (world.queue.BP + bits) / 128 := by omega
      simp only [Operation.Supplied, Operation.target] at supplied
      refine ⟨?_, ?_, ?_⟩ <;> simp only [Stream.apply, Input.apply]
      · rw [left, ← held, List.drop_drop, quad]
      · omega
      · rw [moved]
        omega
  | Align =>
      obtain ⟨left, moved, -, -⟩ := Input.align_held inv.FP inv.BP
      have quad : (world.stream.position + 7) / 8 * 8 / 128 = world.stream.position / 128 + (world.queue.BP + 7) / 8 * 8 / 128 := by omega
      simp only [Operation.Supplied, Operation.target] at supplied
      refine ⟨?_, ?_, ?_⟩ <;> simp only [Stream.apply, Input.apply]
      · rw [left, ← held, List.drop_drop, quad]
      · omega
      · rw [moved]
        omega

/-! ## The bits that are read -/

theorem Refines.window {state : tIPU_BP} {input : Input} {quads : List Quad} (refines : Refines state input quads) (inside : input.FP ≤ 2) :
    Foundation.load state.internal_qwc 0 (16 * input.FP) = flat (input.window.take input.FP) := by
  rcases (by omega : input.FP = 0 ∨ input.FP = 1 ∨ input.FP = 2) with none | one | two
  · simp [none, flat]
  · simp [one, flat, Input.window, refines.first]
  · rw [two, load_add _ 0 16 16, refines.first, Nat.zero_add, refines.second]
    simp [flat, Input.window]

theorem World.InPlace.reads (place : world.InPlace) (inv : world.Inv) : world.Reads := by
  intro bits next some_bits few filled
  obtain ⟨refines, FP, BP⟩ := inv
  obtain ⟨next', filled', refines'⟩ := refines.fillBuffer (by omega : world.queue.BP + bits ≤ 256)
  have after : Input.Filled world.queue bits _ _ := Input.fill_filled 2 FP (by omega) (by omega)
  obtain ⟨full, rfl⟩ := Prod.mk.inj (Option.some_inj.1 (filled.symm.trans filled'))
  change Input.Filled world.queue bits (world.queue.FillBuffer bits).1 (world.queue.FillBuffer bits).2 at after
  generalize (world.queue.FillBuffer bits).2 = queue at after refines'
  have reach := after.full full.symm
  have pointer : next.BP = world.stream.position % 128 := by rw [refines'.BP, after.BP, place.BP]
  have held : world.stream.quads.drop (world.stream.position / 128) = queue.held := place.held.trans after.held.symm
  have count := congrArg List.length held
  rw [Input.held, List.length_drop, List.length_append, List.length_take] at count
  have byte (i : Nat) (inside : i < 16 * queue.FP) :
      next.internal_qwc i = world.stream.bytes (16 * (world.stream.position / 128) + i) := by
    have cell : (Foundation.load next.internal_qwc 0 (16 * queue.FP)).getD i 0 = next.internal_qwc i := by
      rw [List.getD_eq_getElem _ _ (by rwa [load_length]), load_getElem, Nat.zero_add]
    have shown : i < (flat (queue.window.take queue.FP)).length := by
      rw [← refines'.window after.FP, load_length]
      exact inside
    have ahead : world.stream.bytes (16 * (world.stream.position / 128) + i) = (flat queue.held).getD i 0 := by
      rw [← held, ← flat_drop, List.getD_eq_getElem?_getD, List.getElem?_drop, ← List.getD_eq_getElem?_getD, Stream.bytes]
    rw [ahead, Input.held, flat_append, List.getD_append _ _ _ _ shown, ← refines'.window after.FP, cell]
  have place_BP := place.BP
  have passed := place.passed
  have FP' := after.FP
  simp only [Input.window, List.length_cons, List.length_nil] at count
  refine ⟨by omega, ?_⟩
  have word : bigEndian next.internal_qwc (next.BP / 8) 4 * 2 ^ (next.BP % 8) % 2 ^ 32 / 2 ^ (32 - bits) = _ :=
    word_shifts (next.BP / 8) (by omega : next.BP % 8 + bits ≤ 32) rfl
  have whole : 8 * (next.BP / 8) + next.BP % 8 = next.BP := Nat.div_add_mod _ 8
  have position : 8 * (16 * (world.stream.position / 128)) + next.BP = world.stream.position := by omega
  rw [tIPU_BP.UBITS]
  rw [if_pos (by omega), word, whole, bitsFrom_congr (16 * (world.stream.position / 128)) fun i inside => byte i (by omega), position]

theorem World.next_some (stepped : world.next operation = some world') : operation.asked ≤ 64 ∧
    ∃ code, world.code.apply operation = some code ∧
      world' = ⟨code, world.queue.apply operation, world.stream.apply world.code.IFC operation⟩ := by
  unfold World.next at stepped
  split_ifs at stepped with small
  obtain ⟨code, applied, rfl⟩ := Option.map_eq_some_iff.1 stepped
  exact ⟨small, code, applied, rfl⟩

theorem World.Inv.step (inv : world.Inv) (stepped : world.next operation = some world') : world'.Inv := by
  obtain ⟨small, code, applied, rfl⟩ := World.next_some stepped
  obtain ⟨code', applied', inv'⟩ := inv.apply small
  obtain rfl := Option.some_inj.1 (applied.symm.trans applied')
  exact inv'

theorem World.Inv.bounded (inv : world.Inv) : world.Bounded where
  FP := inv.refines.FP.trans_le inv.FP
  BP := by
    have below := inv.BP
    rw [inv.refines.BP]
    omega
  IFC := inv.refines.IFC.trans_le inv.refines.room
  count := inv.refines.IFC
  unread := by rw [inv.refines.IFC, inv.refines.unread]
  inside operation small := by
    obtain ⟨code, applied, -⟩ := inv.apply small
    rw [applied]
    rfl

theorem World.cleared_inv (state : tIPU_BP) (val : Nat) : (World.cleared state val).Inv :=
  ⟨.cleared val rfl, Nat.zero_le _, Nat.mod_lt _ (by decide)⟩

theorem World.cleared_inPlace (state : tIPU_BP) (val : Nat) : (World.cleared state val).InPlace :=
  ⟨by simp [World.cleared, Input.held, Input.clear], by simp [World.cleared], Nat.mod_mod _ _⟩

/-- The counters are right whatever is done, and the bits are the ones at the position where no quadword is passed
before it is there. -/
theorem bitPosition_law (state : tIPU_BP) (val : Nat) :
    (∀ world, Run World.Step (World.cleared state val) world → world.Bounded) ∧
      ∀ world, Run World.SuppliedStep (World.cleared state val) world → world.Reads := by
  constructor
  · intro world run
    refine (run.invariant (World.cleared_inv state val) ?_).bounded
    rintro before after inv ⟨operation, stepped⟩
    exact inv.step stepped
  · intro world run
    have both : world.Inv ∧ world.InPlace := by
      refine run.invariant (I := fun world => world.Inv ∧ world.InPlace) ⟨World.cleared_inv state val, World.cleared_inPlace state val⟩ ?_
      rintro before after ⟨inv, place⟩ ⟨operation, supplied, stepped⟩
      obtain ⟨small, code, -, rfl⟩ := World.next_some stepped
      exact ⟨inv.step stepped, place.apply inv small supplied⟩
    exact both.2.reads both.1

/-- From the bit 127 on, one bit is passed before any quadword is there: the first quadword is read in place of the second. -/
theorem passed_unread : ¬∀ state val world, Run World.Step (World.cleared state val) world → world.Reads := by
  intro law
  have runs : (([.Advance 1, .write [zeroQuad, Vector.replicate 16 255]] : List Operation).foldlM World.next
      (World.cleared ⟨fun _ => 0, 0, 0, fun _ => 0, 0, 0, 0, false, false⟩ 127)).map (fun world =>
        (((world.code.FillBuffer 8).bind fun filled => if filled.1 then filled.2.UBITS 8 else none),
          bitsFrom world.stream.bytes world.stream.position 8)) = some (some 0, 255) := by decide +kernel
  obtain ⟨world, ran, found⟩ := Option.map_eq_some_iff.1 runs
  obtain ⟨read, stands⟩ := Prod.mk.inj found
  have run : Run World.Step _ world := Run.of_actions (fun s operation t stepped => ⟨operation, stepped⟩) ran
  obtain ⟨⟨full, code⟩, filled, bits⟩ := Option.bind_eq_some_iff.1 read
  cases full with
  | false => cases bits
  | true =>
      have shown := (law _ _ world run 8 code (by decide) (by decide) filled).2
      rw [stands, show code.UBITS 8 = some 0 from bits] at shown
      cases shown

end Pcsx2.Ipu
