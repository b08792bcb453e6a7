import Pcsx2.Spu2.Voice

/-!
# The cache of decoded blocks is transparent

What the voices put into their fifos is compared with what they would put there if each one decoded the
block it enters by itself.
-/

namespace Pcsx2.Spu2
open Foundation

abbrev VoiceId : Type := Fin 2 × Fin 24

structure Spu where
  ram : Ram
  voices : VoiceId → Voice

def Spu.init (mem : Nat → UInt16) : Spu := ⟨.init mem, fun _ => .init⟩

/-- `consume`, `stop` and `decode` are what a voice does while it is mixed; `mix` is an output of the mixer,
`refill` the copy of `AutoDMAReadBuffer`, `kill` the end of an AutoDMA and `reverb` one of the words that
reverb writes, at an address that `RevbGetIndexer` wraps. -/
inductive Event
  | decode (v : VoiceId)
  | consume (v : VoiceId) (consumed : UInt32)
  | stop (v : VoiceId)
  | keyOn (v : VoiceId)
  | voiceAddr (v : VoiceId) (address : VoiceAddr) (value : UInt16)
  | writeRegPS1 (v : VoiceId) (loop : Bool) (value : UInt16)
  | write (addr : Nat) (value : UInt16)
  | mix (addr : Fin SPU2_DYN_MEMLINE) (value : UInt16)
  | refill (core : Fin 2) (spos : Fin 4) (source : Nat → UInt16)
  | kill (core : Fin 2)
  | dma (activeTSA : Fin ramSize) (words : List UInt16)
  | reverb (x : Nat) (value : UInt16)

def Spu.setVoice (s : Spu) (v : VoiceId) (vc : Voice) : Spu :=
  { s with voices := Function.update s.voices v vc }

def dmaFirst (activeTSA : Nat) (words : List UInt16) : List UInt16 := words.take (ramSize - activeTSA)

def dmaWrapped (activeTSA : Nat) (words : List UInt16) : List UInt16 := words.drop (ramSize - activeTSA)

def Spu.step (s : Spu) : Event → Spu
  | .decode v =>
      let (ram, vc) := decodeSamples s.ram (s.voices v)
      { s with ram }.setVoice v vc
  | .consume v consumed => s.setVoice v ((s.voices v).consumeSamples consumed)
  | .stop v => s.setVoice v (s.voices v).stop
  | .keyOn v => s.setVoice v (s.voices v).start
  | .voiceAddr v address value => s.setVoice v ((s.voices v).regWrite_VoiceAddr address value)
  | .writeRegPS1 v loop value => s.setVoice v ((s.voices v).writeRegPS1 loop value)
  | .write addr value => { s with ram := s.ram.write addr value }
  | .mix addr value => { s with ram := s.ram.writeFast addr value }
  | .refill core spos source =>
      { s with ram := s.ram.copy (0x2000 + core * 0x400 + spos * 0x100) (load source 0 0x100) }
  | .kill core => { s with ram := s.ram.copy (0x2000 + core * 0x400) (List.replicate 0x400 0) }
  | .dma activeTSA words =>
      { s with ram := s.ram.dmaWrite activeTSA (dmaFirst activeTSA words) (dmaWrapped activeTSA words) }
  | .reverb x value => { s with ram := s.ram.writeFast (x % ramSize) value }

/-! ## What is promised -/

structure Promise where
  block : VoiceId → List Int
  fifo : VoiceId → Nat → Int

def Promise.init : Promise := ⟨fun _ => [], fun _ _ => 0⟩

/-- The block at `NextA`, decoded from the predictors of the voice. -/
def ownBlock (ram : Ram) (vc : Voice) : List Int :=
  (XA_decode_block (blockAt ram.mem (cacheIdx vc.NextA)) vc.Prev1 vc.Prev2).buffer

/-- The voice takes samples in its next `DecodeSamples`. -/
def Voice.takes (vc : Voice) : Bool := !vc.buffered && vc.playing

/-- A voice enters a block when it takes the first samples there, or when `NextA` is set. -/
def Promise.observe (p : Promise) (s : Spu) : Event → Promise
  | .decode v =>
      let vc := s.voices v
      if vc.takes then
        let block := if vc.SBuffer = none then ownBlock s.ram vc else p.block v
        { block := Function.update p.block v block
          fifo := Function.update p.fifo v (put (p.fifo v) vc.DecPosWrite block (sampleIdx vc.NextA)) }
      else p
  | .voiceAddr v address value =>
      if address = .NAXH ∨ address = .NAXL then
        let vc := (s.voices v).regWrite_VoiceAddr address value
        { p with block := Function.update p.block v (ownBlock s.ram vc) }
      else p
  | _ => p

def Transparent (s : Spu) (p : Promise) : Prop := ∀ v, (s.voices v).DecodeFifo = p.fifo v

/-! ## Steps that keep the cache right -/

def StillTakes (vc : Voice) (line i : Nat) : Prop :=
  vc.playing = true ∧ vc.SBuffer = some line ∧ sampleIdx vc.NextA ≤ i

/-- What an event must not do. A block that is decoded into its line leaves the samples there that other
voices have still to take. What is stored without invalidation leaves valid lines as they are. `NextA` is
not set while the voice plays a block, and no voice starts at a misaligned address below the lines that
are kept valid. -/
def Harmless (s : Spu) : Event → Prop
  | .decode v =>
      let vc := s.voices v
      let line := cacheIdx vc.NextA
      vc.takes = true → vc.SBuffer = none → cacheHit (s.ram.cache line) vc = false →
        ∀ w i, w ≠ v → StillTakes (s.voices w) line i →
          (ownBlock s.ram vc).getD i 0 = (s.ram.cache line).Sampledata.getD i 0
  | .keyOn v => (s.voices v).StartA % 8 = 0 ∨ SPU2_DYN_MEMLINE ≤ (s.voices v).StartA % ramSize
  | .voiceAddr v address _ =>
      address = .NAXH ∨ address = .NAXL → (s.voices v).playing = true → (s.voices v).SBuffer = none
  | .dma activeTSA words =>
      ∀ i (bound : i < (dmaWrapped activeTSA words).length),
        i / pcm_WordsPerBlock < activeTSA / pcm_WordsPerBlock →
        (s.ram.cache (i / pcm_WordsPerBlock)).Validated = true →
          (dmaWrapped activeTSA words)[i] = s.ram.mem i
  | .reverb x value => (s.ram.cache (cacheIdx x)).Validated = true → value = s.ram.mem (x % ramSize)
  | _ => True

def Step (before after : Spu × Promise) : Prop :=
  ∃ event, Harmless before.1 event ∧ after = (before.1.step event, before.2.observe before.1 event)

/-! ## Where the addresses of a voice may be -/

/-- `NextA` is never at the header of a block. Only a voice that was started at a misaligned address can
have it above the RAM. -/
structure Placed (vc : Voice) : Prop where
  nextA : vc.NextA % 8 ≠ 0
  loop : vc.LoopStartA % 8 ≠ 7
  start : vc.StartA % 8 = 0 → vc.StartA < ramSize
  dyn : SPU2_DYN_MEMLINE ≤ vc.NextA → SPU2_DYN_MEMLINE ≤ vc.NextA % ramSize

section

variable {vc : Voice}

theorem ramSize_blocks (addr : Nat) : addr % ramSize % 8 = addr % 8 :=
  Nat.mod_mod_of_dvd addr (by decide)

theorem blockAddr_mod (high low : Nat) : blockAddr high low % 8 = 0 := by
  unfold blockAddr
  omega

theorem blockAddr_lt (high low : Nat) : blockAddr high low + 1 < ramSize := by
  unfold blockAddr ramSize
  omega

theorem placed_init : Placed .init := by
  constructor <;> decide

theorem placed_start (placed : Placed vc)
    (aligned : vc.StartA % 8 = 0 ∨ SPU2_DYN_MEMLINE ≤ vc.StartA % ramSize) : Placed vc.start := by
  have below := placed.start
  by_cases misaligned : vc.StartA % 8 ≠ 0
  · have start : vc.start.StartA = (vc.StartA + 0xFFFF8 + 0x8) % 2 ^ 32 := if_pos misaligned
    have next : vc.start.NextA = vc.start.StartA / 2 * 2 + 1 := rfl
    have line := aligned.resolve_left misaligned
    refine ⟨?_, placed.loop, ?_, ?_⟩
    · omega
    · omega
    · simp only [SPU2_DYN_MEMLINE, ramSize] at line ⊢
      omega
  · have start : vc.start.StartA = vc.StartA := if_neg misaligned
    have next : vc.start.NextA = vc.start.StartA / 2 * 2 + 1 := rfl
    rw [start] at next
    rw [not_not] at misaligned
    refine ⟨by omega, placed.loop, fun _ => start ▸ below misaligned, fun dyn => ?_⟩
    have inside : vc.start.NextA < ramSize := by
      have := below misaligned
      simp only [ramSize] at this ⊢
      omega
    rwa [Nat.mod_eq_of_lt inside]

theorem placed_voiceAddr (placed : Placed vc) (address : VoiceAddr) (value : UInt16) :
    Placed (vc.regWrite_VoiceAddr address value) := by
  have next (high low : Nat) : (blockAddr high low + 1) % 8 ≠ 0 := by
    have := blockAddr_mod high low
    omega
  have loop (high low : Nat) : blockAddr high low % 8 ≠ 7 := by
    rw [blockAddr_mod]
    decide
  have inside (high low : Nat) : blockAddr high low < ramSize := Nat.lt_of_succ_lt (blockAddr_lt high low)
  cases address with
  | SSAH => exact ⟨placed.nextA, placed.loop, fun _ => inside _ _, placed.dyn⟩
  | SSAL => exact ⟨placed.nextA, placed.loop, fun _ => inside _ _, placed.dyn⟩
  | LSAH => exact ⟨placed.nextA, loop _ _, placed.start, placed.dyn⟩
  | LSAL => exact ⟨placed.nextA, loop _ _, placed.start, placed.dyn⟩
  | NAXH =>
      refine ⟨next _ _, placed.loop, placed.start, fun dyn => ?_⟩
      exact (Nat.mod_eq_of_lt (blockAddr_lt _ _)).symm ▸ dyn
  | NAXL =>
      refine ⟨next _ _, placed.loop, placed.start, fun dyn => ?_⟩
      exact (Nat.mod_eq_of_lt (blockAddr_lt _ _)).symm ▸ dyn

theorem placed_writeRegPS1 (placed : Placed vc) (loop : Bool) (value : UInt16) :
    Placed (vc.writeRegPS1 loop value) := by
  have bound := value.toNat_lt
  have fourth : map_spu1to2 value.toNat % 4 = 0 ∧ map_spu1to2 value.toNat < ramSize := by
    unfold map_spu1to2 ramSize
    split <;> omega
  cases loop with
  | true =>
      refine ⟨placed.nextA, ?_, placed.start, placed.dyn⟩
      change map_spu1to2 value.toNat % 8 ≠ 7
      omega
  | false => exact ⟨placed.nextA, placed.loop, fun _ => fourth.2, placed.dyn⟩

theorem placed_updateBlockHeader (placed : Placed vc) (ram : Ram) : Placed (updateBlockHeader ram vc) := by
  have header : cacheIdx vc.NextA * pcm_WordsPerBlock % 8 ≠ 7 := by
    rw [pcm_WordsPerBlock, Nat.mul_mod_left]
    decide
  unfold updateBlockHeader
  dsimp only
  split
  · exact ⟨placed.nextA, header, placed.start, placed.dyn⟩
  · exact ⟨placed.nextA, placed.loop, placed.start, placed.dyn⟩

theorem placed_next (placed : Placed vc) {n : Nat} (last : n % 8 ≠ 7) :
    Placed { vc with NextA := (n + 1) % ramSize } := by
  refine ⟨?_, placed.loop, placed.start, fun dyn => ?_⟩
  · dsimp only
    rw [ramSize_blocks]
    omega
  · dsimp only at dyn ⊢
    rwa [Nat.mod_mod]

theorem advance_nextA (vc : Voice) : (vc.NextA + 1) % ramSize % 8 = (vc.NextA + 1) % 8 :=
  ramSize_blocks _

theorem placed_advance (placed : Placed vc) : Placed vc.advance := by
  unfold Voice.advance
  dsimp only
  split
  · rename_i ended
    have last : (vc.NextA + 1) % ramSize % 8 ≠ 7 := by
      change (vc.NextA + 1) % ramSize % 8 = 0 at ended
      omega
    have looped := placed_next placed placed.loop
    have onwards := placed_next placed last
    unfold Voice.leaveBlock
    dsimp only
    split
    · split
      · exact ⟨looped.nextA, looped.loop, looped.start, looped.dyn⟩
      · exact ⟨looped.nextA, looped.loop, looped.start, looped.dyn⟩
    · exact ⟨onwards.nextA, onwards.loop, onwards.start, onwards.dyn⟩
  · rename_i inside
    have last : vc.NextA % 8 ≠ 7 := by
      change (vc.NextA + 1) % ramSize % 8 ≠ 0 at inside
      rw [advance_nextA] at inside
      omega
    have next := placed_next placed last
    exact ⟨next.nextA, next.loop, next.start, next.dyn⟩

/-! ## What stays as it is -/

@[simp] theorem leaveBlock_fifo (vc : Voice) : vc.leaveBlock.DecodeFifo = vc.DecodeFifo := by
  unfold Voice.leaveBlock
  dsimp only
  split
  · split <;> rfl
  · rfl

@[simp] theorem advance_fifo (vc : Voice) : vc.advance.DecodeFifo = vc.DecodeFifo := by
  unfold Voice.advance
  dsimp only
  split
  · rw [leaveBlock_fifo]
    rfl
  · rfl

theorem stillTakes_advance {line i : Nat} (takes : StillTakes vc.advance line i) :
    StillTakes vc line i := by
  obtain ⟨playing, same, later⟩ := takes
  unfold Voice.advance at playing same later
  dsimp only at playing same later
  split at same
  · exact absurd same.symm (Option.some_ne_none line)
  · rename_i inside
    rw [if_neg inside] at playing later
    refine ⟨playing, same, Nat.le_trans ?_ later⟩
    change (vc.NextA + 1) % ramSize % 8 ≠ 0 at inside
    change (vc.NextA % 8 - 1) * 4 ≤ ((vc.NextA + 1) % ramSize % 8 - 1) * 4
    rw [advance_nextA] at inside ⊢
    omega

theorem updateBlockHeader_same (ram : Ram) (vc : Voice) :
    ∃ flags loop, updateBlockHeader ram vc = { vc with LoopFlags := flags, LoopStartA := loop } := by
  unfold updateBlockHeader
  dsimp only
  split
  · exact ⟨_, _, rfl⟩
  · exact ⟨_, _, rfl⟩

theorem put_congr {fifo : Nat → Int} {pos : UInt32} {buffer buffer' : List Int} {idx : Nat}
    (same : ∀ i, idx ≤ i → buffer.getD i 0 = buffer'.getD i 0) :
    put fifo pos buffer idx = put fifo pos buffer' idx := by
  unfold put
  simp only [same _ (Nat.le_add_right idx _)]

end

/-! ## Valid lines -/

def ValidLine (ram : Ram) (line : Nat) : Prop :=
  (ram.cache line).Validated = true →
    (SPU2_DYN_MEMLINE ≤ line * pcm_WordsPerBlock ∧ line * pcm_WordsPerBlock < ramSize) ∧
    (ram.cache line).Sampledata =
      (XA_decode_block (blockAt ram.mem line) (ram.cache line).Prev1 (ram.cache line).Prev2).buffer

structure Kept (ram ram' : Ram) : Prop where
  samples : ∀ line, (ram'.cache line).Sampledata = (ram.cache line).Sampledata
  still : ∀ line, (ram'.cache line).Validated = true → ram'.cache line = ram.cache line ∧
    ∀ a, a / pcm_WordsPerBlock = line → ram'.mem a = ram.mem a

section

variable {ram ram' : Ram}

theorem Kept.trans {ram'' : Ram} (first : Kept ram ram') (second : Kept ram' ram'') : Kept ram ram'' := by
  refine ⟨fun line => (second.samples line).trans (first.samples line), fun line valid => ?_⟩
  obtain ⟨cache', words'⟩ := second.still line valid
  obtain ⟨cache, words⟩ := first.still line (cache' ▸ valid)
  exact ⟨cache'.trans cache, fun a inside => (words' a inside).trans (words a inside)⟩

theorem Kept.validLine (kept : Kept ram ram') {line : Nat} (valid : ValidLine ram line) :
    ValidLine ram' line := by
  intro validated
  obtain ⟨cache, words⟩ := kept.still line validated
  have block : blockAt ram'.mem line = blockAt ram.mem line := by
    refine load_congr fun i below => words _ ?_
    rw [Nat.mul_comm, Nat.mul_add_div (by decide), Nat.div_eq_of_lt below, Nat.add_zero]
  rw [cache] at validated ⊢
  rw [block]
  exact valid validated

theorem invalidated (ram : Ram) {first last line : Nat} (low : first ≤ line) (high : line < last) :
    ((ram.invalidate first last).cache line).Validated = false := by
  have cleared : (ram.invalidate first last).cache line = { ram.cache line with Validated := false } :=
    if_pos ⟨low, high⟩
  rw [cleared]

theorem kept_invalidate (ram : Ram) (first last : Nat) : Kept ram (ram.invalidate first last) := by
  have line (line : Nat) : (ram.invalidate first last).cache line =
      if first ≤ line ∧ line < last then { ram.cache line with Validated := false } else ram.cache line := rfl
  refine ⟨fun n => ?_, fun n valid => ⟨?_, fun _ _ => rfl⟩⟩
  · rw [line]
    split <;> rfl
  · rw [line] at valid ⊢
    split at valid
    · exact absurd valid Bool.false_ne_true
    · rename_i other
      exact if_neg other

variable (ram) in
theorem kept_of_words (mem : Nat → UInt16)
    (same : ∀ a, (ram.cache (a / pcm_WordsPerBlock)).Validated = true → mem a = ram.mem a) :
    Kept ram { ram with mem } :=
  ⟨fun _ => rfl, fun _ valid => ⟨rfl, fun a inside => same a (inside ▸ valid)⟩⟩

theorem not_dyn (valid : ∀ line, ValidLine ram line) {a : Nat}
    (validated : (ram.cache (a / pcm_WordsPerBlock)).Validated = true) : SPU2_DYN_MEMLINE ≤ a :=
  Nat.le_trans (valid _ validated).1.1 (Nat.div_mul_le_self a _)

theorem kept_write (valid : ∀ line, ValidLine ram line) (addr : Nat) (value : UInt16) :
    Kept ram (ram.write addr value) := by
  have first : Kept ram (if SPU2_DYN_MEMLINE ≤ addr % ramSize then
      ram.invalidate (addr % ramSize / pcm_WordsPerBlock) (addr % ramSize / pcm_WordsPerBlock + 1)
      else ram) := by
    split
    · exact kept_invalidate _ _ _
    · exact ⟨fun _ => rfl, fun _ _ => ⟨rfl, fun _ _ => rfl⟩⟩
  refine first.trans (kept_of_words _ _ fun a validated => Function.update_of_ne ?_ _ _)
  rintro rfl
  by_cases dyn : SPU2_DYN_MEMLINE ≤ addr % ramSize
  · rw [if_pos dyn] at validated
    rw [invalidated ram (Nat.le_refl _) (Nat.lt_succ_self _)] at validated
    exact Bool.false_ne_true validated
  · rw [if_neg dyn] at validated
    exact dyn (not_dyn valid validated)

theorem kept_copy_low (valid : ∀ line, ValidLine ram line) {addr : Nat} {words : List UInt16}
    (low : addr + words.length ≤ SPU2_DYN_MEMLINE) : Kept ram (ram.copy addr words) :=
  kept_of_words _ _ fun _ validated =>
    perform_blockStores_of_ge (Nat.le_trans low (not_dyn valid validated))

theorem kept_writeFast {addr : Nat} {value : UInt16}
    (same : (ram.cache (addr / pcm_WordsPerBlock)).Validated = true → value = ram.mem addr) :
    Kept ram (ram.writeFast addr value) := by
  refine kept_of_words _ _ fun a validated => ?_
  rcases eq_or_ne a addr with rfl | other
  · rw [Function.update_self]
    exact same validated
  · exact Function.update_of_ne other _ _

theorem kept_dma {activeTSA : Nat} (inside : activeTSA < ramSize) (valid : ∀ line, ValidLine ram line)
    (words : List UInt16)
    (harmless : ∀ i (bound : i < (dmaWrapped activeTSA words).length),
      i / pcm_WordsPerBlock < activeTSA / pcm_WordsPerBlock →
      (ram.cache (i / pcm_WordsPerBlock)).Validated = true →
        (dmaWrapped activeTSA words)[i] = ram.mem i) :
    Kept ram (ram.dmaWrite activeTSA (dmaFirst activeTSA words) (dmaWrapped activeTSA words)) := by
  generalize atFirst : dmaFirst activeTSA words = first
  generalize atWrapped : dmaWrapped activeTSA words = wrapped at harmless ⊢
  obtain ⟨fits, whole⟩ : activeTSA + first.length ≤ ramSize ∧
      (wrapped ≠ [] → activeTSA + first.length = ramSize) := by
    subst atFirst atWrapped
    rw [dmaFirst, dmaWrapped, List.length_take, ne_eq, List.drop_eq_nil_iff]
    omega
  generalize atLast : (activeTSA + first.length + pcm_WordsPerBlock - 1) / pcm_WordsPerBlock = last
  have covered {a : Nat} (low : activeTSA / pcm_WordsPerBlock ≤ a / pcm_WordsPerBlock)
      (high : a < activeTSA + first.length)
      (validated : ((ram.invalidate (activeTSA / pcm_WordsPerBlock) last).cache
        (a / pcm_WordsPerBlock)).Validated = true) : False := by
    rw [invalidated ram low (by simp only [pcm_WordsPerBlock] at atLast ⊢; omega)] at validated
    exact Bool.false_ne_true validated
  have kept := kept_invalidate ram (activeTSA / pcm_WordsPerBlock) last
  have copied := kept_of_words (ram.invalidate (activeTSA / pcm_WordsPerBlock) last)
    (perform ram.mem (blockStores activeTSA first)) fun a validated => by
      rcases Nat.lt_or_ge a activeTSA with below | above
      · exact perform_blockStores_of_lt below
      · rcases Nat.lt_or_ge a (activeTSA + first.length) with inside | behind
        · exact (covered (Nat.div_le_div_right above) inside validated).elim
        · exact perform_blockStores_of_ge behind
  have wraps := kept_of_words ((ram.invalidate (activeTSA / pcm_WordsPerBlock) last).copy activeTSA first)
    (perform (perform ram.mem (blockStores activeTSA first)) (blockStores 0 wrapped)) fun a validated => by
      rcases Nat.lt_or_ge a wrapped.length with among | behind
      · have stored := perform_blockStores (perform ram.mem (blockStores activeTSA first)) 0 wrapped a among
        rw [Nat.zero_add] at stored
        rw [stored]
        have still := (kept.still _ validated).1
        have inRam := (valid _ (still ▸ validated)).1.2
        have all := whole (List.ne_nil_of_length_pos (Nat.zero_lt_of_lt among))
        rcases Nat.lt_or_ge (a / pcm_WordsPerBlock) (activeTSA / pcm_WordsPerBlock) with before | above
        · rw [harmless a among before (still ▸ validated)]
          exact (perform_blockStores_of_lt (by simp only [pcm_WordsPerBlock] at before; omega)).symm
        · refine (covered above ?_ validated).elim
          simp only [pcm_WordsPerBlock, ramSize] at inRam all ⊢
          omega
      · exact perform_blockStores_of_ge (by omega)
  subst atLast
  exact (kept.trans copied).trans wraps

end

/-! ## A voice enters a block -/

section

variable {ram : Ram} {vc : Voice}

theorem enterBlock_voice (ram : Ram) (vc : Voice) : ∃ Prev1 Prev2,
    (enterBlock ram vc).2 = { vc with SBuffer := some (cacheIdx vc.NextA), Prev1, Prev2 } := by
  unfold enterBlock
  dsimp only
  split
  · exact ⟨_, _, rfl⟩
  · exact ⟨_, _, rfl⟩

theorem enterBlock_hit (hit : cacheHit (ram.cache (cacheIdx vc.NextA)) vc = true) :
    (enterBlock ram vc).1 = ram := by
  unfold enterBlock
  dsimp only
  rw [if_pos hit]

theorem enterBlock_miss (miss : cacheHit (ram.cache (cacheIdx vc.NextA)) vc = false) :
    ∃ cacheLine : PcmCacheEntry,
      (enterBlock ram vc).1 = { ram with cache := Function.update ram.cache (cacheIdx vc.NextA) cacheLine } ∧
      cacheLine.Sampledata = ownBlock ram vc ∧
      (cacheLine.Validated = true → SPU2_DYN_MEMLINE ≤ vc.NextA ∧
        cacheLine.Prev1 = vc.Prev1 ∧ cacheLine.Prev2 = vc.Prev2 ∨
        vc.NextA < SPU2_DYN_MEMLINE ∧ (ram.cache (cacheIdx vc.NextA)).Validated = true) := by
  unfold enterBlock
  dsimp only
  rw [miss, if_neg Bool.false_ne_true]
  by_cases dyn : SPU2_DYN_MEMLINE ≤ vc.NextA
  · rw [if_pos dyn]
    exact ⟨_, rfl, rfl, fun _ => Or.inl ⟨dyn, rfl, rfl⟩⟩
  · rw [if_neg dyn]
    exact ⟨_, rfl, rfl, fun validated => Or.inr ⟨Nat.lt_of_not_le dyn, validated⟩⟩

theorem ownBlock_of_hit (valid : ∀ line, ValidLine ram line)
    (hit : cacheHit (ram.cache (cacheIdx vc.NextA)) vc = true) :
    (ram.cache (cacheIdx vc.NextA)).Sampledata = ownBlock ram vc := by
  simp only [cacheHit, Bool.and_eq_true, beq_iff_eq] at hit
  obtain ⟨⟨validated, prev1⟩, prev2⟩ := hit
  rw [(valid _ validated).2, ownBlock, prev1, prev2]

theorem enterBlock_own (valid : ∀ line, ValidLine ram line) :
    ((enterBlock ram vc).1.cache (cacheIdx vc.NextA)).Sampledata = ownBlock ram vc := by
  cases found : cacheHit (ram.cache (cacheIdx vc.NextA)) vc with
  | true => rw [enterBlock_hit found, ownBlock_of_hit valid found]
  | false =>
      obtain ⟨cacheLine, entered, samples, -⟩ := enterBlock_miss found
      rw [entered]
      dsimp only
      rw [Function.update_self, samples]

theorem enterBlock_other {line : Nat} (other : line ≠ cacheIdx vc.NextA) :
    (enterBlock ram vc).1.cache line = ram.cache line := by
  cases found : cacheHit (ram.cache (cacheIdx vc.NextA)) vc with
  | true => rw [enterBlock_hit found]
  | false =>
      obtain ⟨cacheLine, entered, -⟩ := enterBlock_miss found
      rw [entered]
      exact Function.update_of_ne other _ _

theorem cacheIdx_dyn (NextA : Nat) :
    SPU2_DYN_MEMLINE ≤ cacheIdx NextA * pcm_WordsPerBlock ↔ SPU2_DYN_MEMLINE ≤ NextA % ramSize := by
  simp only [cacheIdx, SPU2_DYN_MEMLINE, pcm_WordsPerBlock]
  omega

theorem cacheIdx_lt (NextA : Nat) : cacheIdx NextA * pcm_WordsPerBlock < ramSize :=
  Nat.lt_of_le_of_lt (Nat.div_mul_le_self _ _) (Nat.mod_lt _ (by decide))

theorem enterBlock_valid (placed : Placed vc) (valid : ∀ line, ValidLine ram line) (line : Nat) :
    ValidLine (enterBlock ram vc).1 line := by
  have mem : (enterBlock ram vc).1.mem = ram.mem := by
    unfold enterBlock
    dsimp only
    split <;> rfl
  rcases ne_or_eq line (cacheIdx vc.NextA) with other | rfl
  · have same := valid line
    unfold ValidLine at same ⊢
    rwa [enterBlock_other other, mem]
  · cases found : cacheHit (ram.cache (cacheIdx vc.NextA)) vc with
    | true =>
        rw [enterBlock_hit found]
        exact valid _
    | false =>
        obtain ⟨cacheLine, entered, samples, validates⟩ := enterBlock_miss found
        intro validated
        have now : (enterBlock ram vc).1.cache (cacheIdx vc.NextA) = cacheLine := by
          rw [entered]
          exact Function.update_self _ _ _
        rw [now] at validated ⊢
        rw [mem]
        rcases validates validated with ⟨dyn, prev1, prev2⟩ | ⟨low, before⟩
        · refine ⟨⟨(cacheIdx_dyn _).2 (placed.dyn dyn), cacheIdx_lt _⟩, ?_⟩
          rw [samples, prev1, prev2]
          rfl
        · have high := (cacheIdx_dyn _).1 (valid _ before).1.1
          exact absurd (Nat.le_trans high (Nat.mod_le _ _)) (Nat.not_le_of_lt low)

end

/-! ## The invariant -/

structure Inv (s : Spu) (p : Promise) : Prop where
  placed : ∀ v, Placed (s.voices v)
  valid : ∀ line, ValidLine s.ram line
  shared : ∀ v line i, StillTakes (s.voices v) line i →
    (s.ram.cache line).Sampledata.getD i 0 = (p.block v).getD i 0
  fifo : Transparent s p

section

variable {s : Spu} {p : Promise}

theorem inv_init (mem : Nat → UInt16) : Inv (.init mem) .init := by
  constructor
  · exact fun _ => placed_init
  · exact fun _ validated => absurd validated Bool.false_ne_true
  · exact fun _ _ _ takes => absurd takes.1 Bool.false_ne_true
  · exact fun _ => rfl

theorem inv_ram (inv : Inv s p) {ram : Ram} (kept : Kept s.ram ram) : Inv { s with ram } p := by
  refine ⟨inv.placed, fun line => kept.validLine (inv.valid line), fun v line i takes => ?_, inv.fifo⟩
  exact (kept.samples line).symm ▸ inv.shared v line i takes

theorem inv_voice (inv : Inv s p) (v : VoiceId) {vc : Voice} (ram : Ram) (block : List Int)
    (fifo : Nat → Int) (placed : Placed vc) (valid : ∀ line, ValidLine ram line)
    (own : ∀ line i, StillTakes vc line i → (ram.cache line).Sampledata.getD i 0 = block.getD i 0)
    (others : ∀ w line i, w ≠ v → StillTakes (s.voices w) line i →
      (ram.cache line).Sampledata.getD i 0 = (s.ram.cache line).Sampledata.getD i 0)
    (same : vc.DecodeFifo = fifo) :
    Inv ({ s with ram }.setVoice v vc)
      ⟨Function.update p.block v block, Function.update p.fifo v fifo⟩ := by
  refine ⟨fun w => ?_, valid, fun w line i takes => ?_, fun w => ?_⟩
  all_goals
    dsimp only [Spu.setVoice] at *
    rcases eq_or_ne w v with rfl | other
  · rwa [Function.update_self]
  · rw [Function.update_of_ne other]
    exact inv.placed w
  · rw [Function.update_self] at takes ⊢
    exact own line i takes
  · rw [Function.update_of_ne other] at takes ⊢
    rw [others w line i other takes]
    exact inv.shared w line i takes
  · rw [Function.update_self, Function.update_self, same]
  · rw [Function.update_of_ne other, Function.update_of_ne other]
    exact inv.fifo w

variable {v : VoiceId}

theorem inv_setVoice (inv : Inv s p) {vc : Voice} (placed : Placed vc)
    (takes : ∀ line i, StillTakes vc line i → StillTakes (s.voices v) line i)
    (same : vc.DecodeFifo = (s.voices v).DecodeFifo) : Inv (s.setVoice v vc) p := by
  have next := inv_voice inv v s.ram (p.block v) (p.fifo v) placed inv.valid
    (fun line i taking => inv.shared v line i (takes line i taking)) (fun _ _ _ _ _ => rfl)
    (same.trans (inv.fifo v))
  rwa [Function.update_eq_self, Function.update_eq_self] at next

theorem inv_nextA (inv : Inv s p) {vc : Voice} (block : List Int) (placed : Placed vc)
    (between : vc.playing = true → vc.SBuffer = none) (same : vc.DecodeFifo = (s.voices v).DecodeFifo) :
    Inv (s.setVoice v vc) { p with block := Function.update p.block v block } := by
  have next := inv_voice inv v s.ram block (p.fifo v) placed inv.valid
    (fun line i taking => absurd ((between taking.1).symm.trans taking.2.1) (Option.some_ne_none line).symm)
    (fun _ _ _ _ _ => rfl) (same.trans (inv.fifo v))
  rwa [Function.update_eq_self] at next

theorem inv_voiceAddr (inv : Inv s p) {address : VoiceAddr} {value : UInt16}
    (harmless : Harmless s (.voiceAddr v address value)) :
    Inv (s.step (.voiceAddr v address value)) (p.observe s (.voiceAddr v address value)) := by
  have placed := placed_voiceAddr (inv.placed v) address value
  cases address with
  | NAXH => exact inv_nextA inv _ placed (harmless (Or.inl rfl)) rfl
  | NAXL => exact inv_nextA inv _ placed (harmless (Or.inr rfl)) rfl
  | _ => exact inv_setVoice inv placed (fun _ _ takes => takes) rfl

theorem entered_own (inv : Inv s p) {vc : Voice}
    (same : ∀ line i, StillTakes vc line i → StillTakes (s.voices v) line i) (playing : vc.playing = true)
    {i : Nat} (later : sampleIdx vc.NextA ≤ i) :
    let entered := if vc.SBuffer = none then enterBlock s.ram vc else (s.ram, vc)
    (entered.1.cache (entered.2.SBuffer.getD 0)).Sampledata.getD i 0 =
      (if vc.SBuffer = none then ownBlock s.ram vc else p.block v).getD i 0 := by
  intro entered
  by_cases none : vc.SBuffer = Option.none
  · obtain ⟨Prev1, Prev2, voice⟩ := enterBlock_voice s.ram vc
    simp only [entered, if_pos none, voice, Option.getD_some, enterBlock_own inv.valid]
  · obtain ⟨line, atLine⟩ := Option.ne_none_iff_exists'.1 none
    simp only [entered, if_neg none, atLine, Option.getD_some]
    exact inv.shared v line i (same line i ⟨playing, atLine, later⟩)

theorem entered_voice (ram : Ram) (vc : Voice) : ∃ Prev1 Prev2 SBuffer,
    (if vc.SBuffer = none then enterBlock ram vc else (ram, vc)).2 =
      { vc with SBuffer := some SBuffer, Prev1, Prev2 } := by
  by_cases none : vc.SBuffer = Option.none
  · obtain ⟨Prev1, Prev2, voice⟩ := enterBlock_voice ram vc
    rw [if_pos none]
    exact ⟨Prev1, Prev2, _, voice⟩
  · obtain ⟨line, atLine⟩ := Option.ne_none_iff_exists'.1 none
    rw [if_neg none]
    exact ⟨vc.Prev1, vc.Prev2, line, by rw [← atLine]⟩

theorem inv_take (inv : Inv s p) {vc : Voice} (placed : Placed vc)
    (same : ∀ line i, StillTakes vc line i → StillTakes (s.voices v) line i) (playing : vc.playing = true)
    (fifo : vc.DecodeFifo = (s.voices v).DecodeFifo)
    (harmless : vc.SBuffer = none → cacheHit (s.ram.cache (cacheIdx vc.NextA)) vc = false →
      ∀ w i, w ≠ v → StillTakes (s.voices w) (cacheIdx vc.NextA) i →
        (ownBlock s.ram vc).getD i 0 = (s.ram.cache (cacheIdx vc.NextA)).Sampledata.getD i 0) :
    let block := if vc.SBuffer = none then ownBlock s.ram vc else p.block v
    Inv ({ s with ram := (getNextDataBuffered s.ram vc).1 }.setVoice v
        (getNextDataBuffered s.ram vc).2.advance)
      ⟨Function.update p.block v block,
        Function.update p.fifo v (put (p.fifo v) vc.DecPosWrite block (sampleIdx vc.NextA))⟩ := by
  intro block
  obtain ⟨Prev1, Prev2, SBuffer, voice⟩ := entered_voice s.ram vc
  have own := fun i later => entered_own inv same playing (i := i) later
  dsimp only at own
  unfold getNextDataBuffered
  dsimp only
  rw [voice] at own ⊢
  apply inv_voice inv
  · exact placed_advance ⟨placed.nextA, placed.loop, placed.start, placed.dyn⟩
  · by_cases none : vc.SBuffer = Option.none
    · rw [if_pos none]
      exact enterBlock_valid placed inv.valid
    · rw [if_neg none]
      exact inv.valid
  · intro line i takes
    obtain ⟨-, atLine, later⟩ := stillTakes_advance takes
    obtain rfl := Option.some_inj.1 atLine
    exact own i later
  · intro w line i other takes
    by_cases none : vc.SBuffer = Option.none
    · rw [if_pos none]
      rcases ne_or_eq line (cacheIdx vc.NextA) with apart | rfl
      · rw [enterBlock_other apart]
      · rw [enterBlock_own inv.valid]
        cases found : cacheHit (s.ram.cache (cacheIdx vc.NextA)) vc with
        | true => rw [ownBlock_of_hit inv.valid found]
        | false => exact harmless none found w i other takes
    · rw [if_neg none]
  · rw [advance_fifo]
    dsimp only
    rw [fifo, inv.fifo v]
    exact put_congr own

theorem inv_decode (inv : Inv s p) (harmless : Harmless s (.decode v)) :
    Inv (s.step (.decode v)) (p.observe s (.decode v)) := by
  have placed := placed_updateBlockHeader (inv.placed v) s.ram
  obtain ⟨flags, loop, header⟩ := updateBlockHeader_same s.ram (s.voices v)
  dsimp only [Spu.step, Promise.observe, decodeSamples, Harmless] at harmless ⊢
  rw [header] at placed ⊢
  by_cases buffered : (s.voices v).buffered = true
  · have waits : (s.voices v).takes = false := by simp [Voice.takes, buffered]
    rw [waits, if_pos (by exact buffered), if_neg Bool.false_ne_true]
    exact inv_setVoice inv placed (fun _ _ takes => takes) rfl
  · rw [if_neg (by exact buffered)]
    by_cases playing : (s.voices v).playing = true
    · have takes : (s.voices v).takes = true := by simp [Voice.takes, buffered, playing]
      rw [takes, if_pos (by exact playing), if_pos rfl]
      exact inv_take inv placed (fun _ _ takes => takes) playing rfl (harmless takes)
    · have silent : (s.voices v).takes = false := by simp [Voice.takes, playing]
      rw [silent, if_neg (by exact playing), if_neg Bool.false_ne_true]
      refine inv_setVoice inv (placed_advance placed) (fun _ _ takes => ?_) (advance_fifo _)
      have before := stillTakes_advance takes
      exact before

theorem inv_step (inv : Inv s p) (event : Event) (harmless : Harmless s event) :
    Inv (s.step event) (p.observe s event) := by
  cases event with
  | decode v => exact inv_decode inv harmless
  | consume v consumed =>
      have placed := inv.placed v
      exact inv_setVoice inv ⟨placed.nextA, placed.loop, placed.start, placed.dyn⟩
        (fun _ _ takes => takes) rfl
  | stop v =>
      have placed := inv.placed v
      exact inv_setVoice inv ⟨placed.nextA, placed.loop, placed.start, placed.dyn⟩
        (fun _ _ takes => absurd takes.1 Bool.false_ne_true) rfl
  | keyOn v =>
      exact inv_setVoice inv (placed_start (inv.placed v) harmless)
        (fun line _ takes => absurd takes.2.1.symm (Option.some_ne_none line)) rfl
  | voiceAddr v address value => exact inv_voiceAddr inv harmless
  | writeRegPS1 v loop value =>
      refine inv_setVoice inv (placed_writeRegPS1 (inv.placed v) loop value) (fun _ _ takes => ?_) ?_
      all_goals cases loop
      · exact takes
      · exact takes
      · rfl
      · rfl
  | write addr value => exact inv_ram inv (kept_write inv.valid addr value)
  | mix addr value =>
      refine inv_ram inv (kept_writeFast fun validated => ?_)
      exact absurd (not_dyn inv.valid validated) (Nat.not_le_of_lt addr.isLt)
  | refill core spos source =>
      refine inv_ram inv (kept_copy_low inv.valid ?_)
      rw [load_length, SPU2_DYN_MEMLINE]
      omega
  | kill core =>
      refine inv_ram inv (kept_copy_low inv.valid ?_)
      rw [List.length_replicate, SPU2_DYN_MEMLINE]
      omega
  | dma activeTSA words => exact inv_ram inv (kept_dma activeTSA.isLt inv.valid words harmless)
  | reverb x value => exact inv_ram inv (kept_writeFast harmless)

end

/-- In a run whose steps are all harmless, every voice takes the samples of its own decoding of the block
it entered. -/
theorem cache_transparent (mem : Nat → UInt16) (s : Spu) (p : Promise)
    (run : Run Step (Spu.init mem, Promise.init) (s, p)) : Transparent s p := by
  have inv : Inv s p :=
    run.invariant (I := fun state => Inv state.1 state.2) (inv_init mem)
      fun before after inv ⟨event, harmless, next⟩ => next ▸ inv_step inv event harmless
  exact inv.fifo

theorem cache_transparent_first_block :
    let s := (Spu.init fun _ => 0).step (.keyOn (0, 0))
    Transparent (s.step (.decode (0, 0))) (Promise.init.observe s (.decode (0, 0))) := by
  intro s
  refine cache_transparent (fun _ => 0) _ _ (.tail (.single ⟨.keyOn (0, 0), Or.inl rfl, rfl⟩)
    ⟨.decode (0, 0), fun _ _ _ w _ other takes => ?_, rfl⟩)
  have silent : s.voices w = .init := Function.update_of_ne other _ _
  exact absurd ((congrArg Voice.playing silent).symm.trans takes.1) Bool.false_ne_true

def Spu.after (mem : Nat → UInt16) (events : List Event) : Spu × Promise :=
  events.foldl (fun state event => (state.1.step event, state.2.observe state.1 event))
    (.init mem, .init)

/-- First, reverb writes to a block that was decoded, which is then read from the cache. Second, a block is
written to and another voice decodes it while the first one is still in there. -/
theorem cache_not_transparent :
    let reverb := Spu.after (fun _ => 0) [.keyOn (0, 0), .decode (0, 0), .keyOn (0, 0),
      .reverb 0x2801 1, .decode (0, 0)]
    let shared := Spu.after (fun _ => 0) [.keyOn (0, 0), .decode (0, 0), .write 0x2802 1,
      .keyOn (0, 1), .decode (0, 1), .decode (0, 0)]
    ¬ Transparent reverb.1 reverb.2 ∧ ¬ Transparent shared.1 shared.2 := by
  intro reverb shared
  constructor
  · intro transparent
    exact absurd (congrFun (transparent (0, 0)) 0) (by decide)
  · intro transparent
    exact absurd (congrFun (transparent (0, 0)) 4) (by decide)

end Pcsx2.Spu2
