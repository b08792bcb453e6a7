import Pcsx2.Foundation.Triple
import Pcsx2.Ipu.InverseDct
import Pcsx2.Ipu.Worker

/-!
# Intra blocks

The blocks that come out of any bit stream, however often their decoding is suspended, and whether the samples of such
a block index the table.
-/

namespace Pcsx2.Ipu
open Foundation

/-! ## The block that is transformed -/

/-- `slice_intra_DCT` up to the transform, with the block for it unless bits are missing. -/
def intraBlock (cc : Fin 3) (skip : Bool) : IpuM (Option (Vector Int 64)) := do
  if !(← intraDC cc skip) then
    return none
  else
    match ← get_intra_block with
    | none => return none
    | some _ => return some (← reads (·.core.decoder.DCTblock))

/-- The rest of `slice_intra_DCT`. -/
def transformBlock (kernels : Kernels) (block : Block) : Option (Vector Int 64) → IpuM Bool
  | none => return false
  | some DCTblock => do
    onCore (modifyDecoder fun decoder => { decoder with
      mb8 := kernels.idctCopy DCTblock block.offset block.stride decoder.mb8
      DCTblock := zeroBlock })
    return true

theorem slice_intra_DCT_eq (kernels : Kernels) (block : Block) (skip : Bool) :
    slice_intra_DCT kernels block skip = intraBlock block.cc skip >>= transformBlock kernels block := by
  unfold slice_intra_DCT intraBlock
  rw [bind_assoc]
  congr 1
  funext ready
  cases ready with
  | false => rfl
  | true =>
      simp only [Bool.not_true, Bool.false_eq_true, if_false, bind_assoc]
      congr 1
      funext last
      cases last with
      | none => rfl
      | some last => rfl

/-- The decoding of a block of a component, from an empty block on. Between two parts of it the rest of the process may
change. -/
inductive Decoding (cc : Fin 3) : Process → Prop
  | fresh {p : Process} (zero : p.core.decoder.DCTblock = zeroBlock) : Decoding cc p
  | resumed {p p' q : Process} {skip : Bool} (before : Decoding cc p) (suspended : intraBlock cc skip p = some (none, p'))
      (kept : q.core.decoder.DCTblock = p'.core.decoder.DCTblock) : Decoding cc q

/-- A block that is transformed. -/
def Produced (DCTblock : Vector Int 64) : Prop :=
  ∃ cc skip p p', Decoding cc p ∧ intraBlock cc skip p = some (some DCTblock, p')

/-! ## Coefficients -/

def coefficientAt (DCTblock : Vector Int 64) (n : Nat) : Int := DCTblock[n]?.getD 0

structure Saturated (DCTblock : Vector Int 64) : Prop where
  dc : Within 0x8000 (coefficientAt DCTblock 0)
  ac : ∀ n ≠ 0, -2048 ≤ coefficientAt DCTblock n ∧ coefficientAt DCTblock n ≤ 2047

theorem Saturated.within {DCTblock : Vector Int 64} (saturated : Saturated DCTblock) (n : Nat) :
    Within 0x8000 (coefficientAt DCTblock n) := by
  by_cases first : n = 0
  · rw [first]
    exact saturated.dc
  · obtain ⟨low, high⟩ := saturated.ac n first
    exact ⟨by omega, by omega⟩

theorem zeroBlock_saturated : Saturated zeroBlock := by
  have zero (n : Nat) : coefficientAt zeroBlock n = 0 := by
    unfold coefficientAt zeroBlock
    rw [Vector.getElem?_replicate]
    split
    · rfl
    · rfl
  exact ⟨by rw [zero]; exact .zero (by decide), fun n _ => by rw [zero]; decide⟩

theorem saturate_range (val : Int) : -2048 ≤ saturate val ∧ saturate val ≤ 2047 := by
  unfold saturate
  omega

theorem Saturated.set {DCTblock : Vector Int 64} (saturated : Saturated DCTblock) (j : Nat) (val : Int) :
    Saturated (DCTblock.setIfInBounds j (saturate val)) := by
  have range := saturate_range val
  have each (n : Nat) : coefficientAt (DCTblock.setIfInBounds j (saturate val)) n = coefficientAt DCTblock n ∨
      coefficientAt (DCTblock.setIfInBounds j (saturate val)) n = saturate val := by
    unfold coefficientAt
    rw [Vector.getElem?_setIfInBounds]
    split_ifs
    · exact .inr rfl
    · next same outside =>
        rw [← same, Vector.getElem?_eq_none (by omega)]
        exact .inl rfl
    · exact .inl rfl
  constructor
  · rcases each 0 with same | same <;> rw [same]
    · exact saturated.dc
    · exact ⟨by omega, by omega⟩
  · intro n later
    rcases each n with same | same <;> rw [same]
    · exact saturated.ac n later
    · exact range

theorem Saturated.setDC {DCTblock : Vector Int 64} (saturated : Saturated DCTblock) (val : Int) :
    Saturated (DCTblock.set 0 (s16 val)) := by
  constructor
  · have same : coefficientAt (DCTblock.set 0 (s16 val)) 0 = s16 val := by simp [coefficientAt]
    rw [same]
    exact s16_within val
  · intro n later
    have same : coefficientAt (DCTblock.set 0 (s16 val)) n = coefficientAt DCTblock n := by
      simp [coefficientAt, later.symm]
    rw [same]
    exact saturated.ac n later

/-! ## What is read leaves the block alone -/

def Leaves {α : Type} (m : StateM Core α) : Prop := ∀ core, (m core).2.decoder.DCTblock = core.decoder.DCTblock

namespace Leaves

variable {α β : Type} {m : StateM Core α} {f : α → StateM Core β}

theorem pure (a : α) : Leaves (pure a : StateM Core α) := fun _ => rfl

theorem bind (first : Leaves m) (rest : ∀ a, Leaves (f a)) : Leaves (m >>= f) := fun core => (rest _ _).trans (first core)

theorem GETWORD : Leaves GETWORD := fun _ => rfl

theorem decoder : Leaves decoder := fun _ => rfl

theorem UBITS (bits : Nat) : Leaves (UBITS bits) := fun _ => rfl

theorem SBITS (bits : Nat) : Leaves (SBITS bits) := fun _ => rfl

theorem DUMPBITS (bits : Nat) : Leaves (DUMPBITS bits) := fun _ => rfl

theorem GETBITS (bits : Nat) : Leaves (GETBITS bits) := fun _ => rfl

theorem escapeLevel : Leaves escapeLevel := by
  refine (SBITS 8).bind fun val => (DUMPBITS 8).bind fun _ => ?_
  split
  · exact (GETBITS 8).bind fun _ => .pure _
  · exact .pure _

theorem intraValue (tab : DCTtab) (i : Nat) : Leaves (intraValue tab i) := by
  refine decoder.bind fun decoder => ?_
  dsimp only
  split
  · split
    · exact (SBITS 12).bind fun _ => (DUMPBITS 12).bind fun _ => .pure _
    · exact escapeLevel.bind fun _ => .pure _
  · exact (SBITS 1).bind fun _ => (DUMPBITS 1).bind fun _ => .pure _

end Leaves

/-! ## Blocks stay saturated -/

def Held (p : Process) : Prop := Saturated p.core.decoder.DCTblock

theorem onCore_keeps {α : Type} {m : StateM Core α}
    (keeps : ∀ core, Saturated core.decoder.DCTblock → Saturated (m core).2.decoder.DCTblock) :
    Ensures Held (onCore m) fun _ => Held := by
  intro p a q held ran
  obtain ⟨rfl, rfl⟩ := Prod.mk.inj (Option.some.inj ran)
  exact keeps p.core held

theorem onCore_held {α : Type} {m : StateM Core α} (leaves : Leaves m) : Ensures Held (onCore m) fun _ => Held :=
  onCore_keeps fun core held => (leaves core).symm ▸ held

theorem modifyCmd_held (update : IpuCmd → IpuCmd) : Ensures Held (modifyCmd update) fun _ => Held := .update fun _ held => held

theorem readCmd_held : Ensures Held readCmd fun _ => Held := Ensures.read.weaken (fun _ held => held) fun _ _ known => known.1

theorem fetch_held (lookup : Decoder → Nat → Option DCTtab) (pos4 i : Nat) : Ensures Held (fetch lookup pos4 i) fun _ => Held := by
  unfold fetch
  refine (onCore_held .GETWORD).andThen fun enough => .branch (fun _ => ?_) fun _ => ?_
  · exact (modifyCmd_held _).andThen fun _ => .result fun _ held => held
  · refine (onCore_held .decoder).andThen fun decoder => (onCore_held (.UBITS 16)).andThen fun code => ?_
    split
    · exact .result fun _ held => held
    · next tab _ =>
        have write : Ensures Held (modify fun p => { p with tab := some tab } : IpuM Unit) fun _ => Held := .update fun _ held => held
        refine write.andThen fun _ => (onCore_held (.DUMPBITS tab.len)).andThen fun _ => ?_
        refine .branch (fun _ => .result fun _ held => held) fun _ => .branch (fun _ => ?_) fun _ => ?_
        · exact (onCore_held (.GETBITS 6)).andThen fun _ => .result fun _ held => held
        · exact .result fun _ held => held

theorem store_held {value : DCTtab → Nat → StateM Core Int} (leaves : ∀ tab i, Leaves (value tab i)) (pos4 i : Nat) :
    Ensures Held (store value pos4 i) fun _ => Held := by
  unfold store
  refine (onCore_held .GETWORD).andThen fun enough => .branch (fun _ => ?_) fun _ => ?_
  · exact (modifyCmd_held _).andThen fun _ => .result fun _ held => held
  · refine (Ensures.read (P := Held)).andThen fun tab => ?_
    refine Ensures.weaken (P := Held) ?_ (fun _ known => known.1) fun _ _ held => held
    cases tab with
    | none => exact .wrong fun _ => rfl
    | some tab =>
        refine (onCore_held (leaves tab i)).andThen fun val => ?_
        refine (onCore_keeps fun core held => ?_).andThen fun _ => (modifyCmd_held _).andThen fun _ => .result fun _ held => held
        exact held.set _ val

theorem blockLoop_held {value : DCTtab → Nat → StateM Core Int} (leaves : ∀ tab i, Leaves (value tab i))
    (lookup : Nat → Decoder → Nat → Option DCTtab) (suspendAt : Nat → Nat) (rounds i : Nat) :
    Ensures Held (blockLoop lookup value suspendAt rounds i) fun _ => Held := by
  induction rounds generalizing i with
  | zero => exact .result fun _ held => held
  | succ rounds ih =>
      unfold blockLoop
      refine readCmd_held.andThen fun cmd => ?_
      have next : Ensures Held (if cmd.pos5 = 0 then fetch (lookup i) (suspendAt i) i else pure (.coefficient i)) fun _ => Held :=
        .branch (fun _ => fetch_held _ _ _) fun _ => .result fun _ held => held
      refine next.join fun fetched => ?_
      cases fetched with
      | suspended => exact .result fun _ held => held
      | finished last => exact (modifyCmd_held _).andThen fun _ => .result fun _ held => held
      | coefficient i =>
          refine (store_held leaves _ i).andThen fun stored => ?_
          exact .branch (fun _ => ih (i + 1)) fun _ => .result fun _ held => held

theorem get_intra_block_held : Ensures Held get_intra_block fun _ => Held := by
  unfold get_intra_block
  exact readCmd_held.andThen fun cmd => blockLoop_held .intraValue _ _ _ _

theorem dcDiff_leaves (tab : DCtab) : Leaves (dcDiff tab) := by
  refine (Leaves.DUMPBITS tab.len).bind fun _ => ?_
  split
  · exact .pure _
  · exact (Leaves.GETBITS _).bind fun _ => .pure _

theorem get_luma_leaves : Leaves get_luma_dc_dct_diff := by
  refine (Leaves.UBITS 5).bind fun code => ?_
  split
  · exact dcDiff_leaves _
  · exact (Leaves.UBITS 9).bind fun _ => dcDiff_leaves _

theorem get_chroma_leaves : Leaves get_chroma_dc_dct_diff := by
  refine (Leaves.UBITS 5).bind fun code => ?_
  split
  · exact dcDiff_leaves _
  · exact (Leaves.UBITS 10).bind fun _ => dcDiff_leaves _

theorem dcCoefficient_set (cc : Fin 3) (core : Core) :
    ∃ val, (dcCoefficient cc core).2.decoder.DCTblock = core.decoder.DCTblock.set 0 (s16 val) := by
  unfold dcCoefficient
  split
  · rw [← get_luma_leaves core]
    exact ⟨_, rfl⟩
  · rw [← get_chroma_leaves core]
    exact ⟨_, rfl⟩

theorem dcCoefficient_held (cc : Fin 3) : Ensures Held (onCore (dcCoefficient cc)) fun _ => Held := by
  refine onCore_keeps fun core held => ?_
  obtain ⟨val, written⟩ := dcCoefficient_set cc core
  rw [written]
  exact held.setDC val

theorem intraDC_held (cc : Fin 3) (skip : Bool) : Ensures Held (intraDC cc skip) fun _ => Held := by
  unfold intraDC
  refine readCmd_held.andThen fun cmd => .branch (fun _ => ?_) fun _ => .result fun _ held => held
  refine (modifyCmd_held _).andThen fun _ => (onCore_held .GETWORD).andThen fun enough => .branch (fun _ => ?_) fun _ => ?_
  · exact (modifyCmd_held _).andThen fun _ => .result fun _ held => held
  · exact (dcCoefficient_held cc).andThen fun _ => .result fun _ held => held

theorem intraBlock_held (cc : Fin 3) (skip : Bool) : Ensures Held (intraBlock cc skip) fun result p =>
    Held p ∧ ∀ DCTblock, result = some DCTblock → Saturated DCTblock := by
  unfold intraBlock
  refine (intraDC_held cc skip).andThen fun ready => .branch (fun _ => ?_) fun _ => ?_
  · exact .result fun _ held => ⟨held, nofun⟩
  · refine get_intra_block_held.andThen fun last => ?_
    cases last with
    | none => exact .result fun _ held => ⟨held, nofun⟩
    | some last =>
        refine Ensures.read.andThen fun DCTblock => .result fun p known => ⟨known.1, ?_⟩
        rintro _ ⟨⟩
        exact known.2 ▸ known.1

theorem Decoding.held {cc : Fin 3} {p : Process} (decoding : Decoding cc p) : Held p := by
  induction decoding with
  | fresh zero =>
      unfold Held
      rw [zero]
      exact zeroBlock_saturated
  | resumed before suspended kept ih =>
      unfold Held
      rw [kept]
      exact (intraBlock_held _ _ _ _ _ ih suspended).1

theorem Produced.saturated {DCTblock : Vector Int 64} (produced : Produced DCTblock) : Saturated DCTblock := by
  obtain ⟨cc, skip, p, p', decoding, ran⟩ := produced
  exact (intraBlock_held _ _ _ _ _ decoding.held ran).2 DCTblock rfl

/-! ## Clipping of intra blocks -/

/-- Just the products of the rows can overflow. Where the rows fit into 16 bits, the samples that the coefficients
describe tell whether the table is kept to, but for a band of an eighth at both ends of it. -/
theorem intra_clips {DCTblock : Vector Int 64} (produced : Produced DCTblock) :
    ((IDCT_Block (coefficientAt DCTblock)).isSome ↔ ∀ v < 8, Products (row (coefficientAt DCTblock) v)) ∧
      (RowsFit (coefficientAt DCTblock) ∧ Describes (coefficientAt DCTblock) 7 → Clips (coefficientAt DCTblock)) ∧
        (RowsFit (coefficientAt DCTblock) ∧ Clips (coefficientAt DCTblock) → Describes (coefficientAt DCTblock) 9) := by
  have small := produced.saturated.within
  refine ⟨overflow_iff small, ?_, ?_⟩
  · rintro ⟨fits, describes⟩
    exact clips_of_describes small fits describes
  · rintro ⟨fits, clips⟩
    exact describes_of_clips small fits clips

def Process.receiving (bytes : List UInt8) : Process :=
  let input := { Input.started with fifo := [Vector.ofFn fun i => bytes.getD i.val 0] }
  let decoder := { Decoder.started with dc_dct_pred := Vector.replicate 3 128 }
  { Process.started with core := { Process.started.core with input, decoder } }

theorem Produced.of_bytes (bytes : List UInt8) {DCTblock : Vector Int 64}
    (ran : (intraBlock 0 false (.receiving bytes)).map Prod.fst = some (some DCTblock)) : Produced DCTblock := by
  obtain ⟨⟨result, p'⟩, ran, rfl⟩ := Option.map_eq_some_iff.mp ran
  exact ⟨0, false, .receiving bytes, p', .fresh rfl, ran⟩

/-- A grey block: a difference of 0, and no other coefficients. -/
theorem intra_clips_grey : Clips (coefficientAt (zeroBlock.set 0 1024)) := by
  have produced : Produced (zeroBlock.set 0 1024) := .of_bytes [0x90] (by decide +kernel)
  refine (intra_clips produced).2.1 ⟨?_, ?_⟩
  · unfold RowsFit
    decide +kernel
  · unfold Describes
    decide +kernel

/-- The difference -640 makes the predictor -512, and each sample of the block. -/
theorem intra_outside : ¬ ∀ DCTblock, Produced DCTblock → Clips (coefficientAt DCTblock) := by
  intro inside
  have produced : Produced (zeroBlock.set 0 (-4096)) := .of_bytes [0xff, 0x2f, 0xf0] (by decide +kernel)
  have sample : (IDCT_Block (coefficientAt (zeroBlock.set 0 (-4096)))).map (fun samples => samples 0) = some (-512) := by
    decide
  obtain ⟨samples, transformed, range⟩ := inside _ produced
  rw [transformed, Option.map_some] at sample
  have low := (range 0 (by decide)).1
  rw [Option.some.inj sample] at low
  exact absurd low (by decide)

end Pcsx2.Ipu
