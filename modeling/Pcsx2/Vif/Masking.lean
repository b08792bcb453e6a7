import Pcsx2.Vif.Lanes

/-!
# Masked writes

`doMaskWrite` writes the quadword that `writeXYZW` writes word by word.
-/

namespace Pcsx2.Vif

/-! ## The reference, word by word -/

namespace WriteMode

variable (w : WriteMode) (data : Quad) (s : Written)

/-- What is written to a word that takes data. -/
def taken (data row : Word) : Word := if w.mode = 0 then data else sum w.mode data row

def keeps (data row : Word) : Word := if w.mode = 0 then row else kept w.mode data row

def destWord (j : Fin 4) : Word :=
  if w.kind j = 0 then w.taken (data j) (s.row j)
  else if w.kind j = 1 then s.row j
  else if w.kind j = 2 then w.col w.cycle
  else s.dest j

def rowWord (j : Fin 4) : Word := if w.kind j = 0 then w.keeps (data j) (s.row j) else s.row j

theorem mode_cases (mode : BitVec 2) : mode = 0 ∨ mode = 1 ∨ mode = 2 ∨ mode = 3 := by
  revert mode
  decide

theorem kind_cases (j : Fin 4) : w.kind j = 0 ∨ w.kind j = 1 ∨ w.kind j = 2 ∨ w.kind j = 3 := by
  unfold kind
  split
  · have below : ((w.mask >>> (8 * w.cycle.val + 2 * j.val)) &&& 3).toNat ≤ 3 := by
      rw [BitVec.toNat_and]
      exact Nat.and_le_right
    simp only [← BitVec.toNat_inj]
    show _ = 0 ∨ _ = 1 ∨ _ = 2 ∨ _ = 3
    omega
  · exact .inl rfl

theorem writeXYZW_eq (j : Fin 4) :
    w.writeXYZW j (data j) s =
      ⟨Function.update s.dest j (w.destWord data s j), Function.update s.row j (w.rowWord data s j)⟩ := by
  unfold writeXYZW destWord rowWord taken keeps sum kept
  simp only
  split
  · rcases mode_cases w.mode with mode | mode | mode | mode
    · rw [mode]
      simp [Function.update_eq_self]
    · rw [mode]
      simp [Function.update_eq_self]
    · rw [mode]
      simp [sum, BitVec.add_comm]
    · rw [mode]
      simp [sum]
  · split
    · rw [Function.update_eq_self]
    · split
      · rw [Function.update_eq_self]
      · rw [Function.update_eq_self, Function.update_eq_self]

theorem writeQuad_eq : w.writeQuad data s = ⟨w.destWord data s, w.rowWord data s⟩ := by
  unfold writeQuad
  simp only [writeXYZW_eq]
  congr 1
  · funext j
    fin_cases j <;> simp [destWord, Function.update]
  · funext j
    fin_cases j <;> simp [rowWord, Function.update]

end WriteMode

/-! ## The bits of a mask -/

theorem byte_eq (x : Word) (n : Nat) : (x >>> n) &&& 0xff = (x.extractLsb' n 8).setWidth 32 := by
  apply BitVec.eq_of_toNat_eq
  have := x.isLt
  simp only [BitVec.toNat_and, BitVec.toNat_ushiftRight, BitVec.toNat_setWidth, BitVec.extractLsb'_toNat]
  show (x.toNat >>> n) &&& (2 ^ 8 - 1) = _
  rw [Nat.and_two_pow_sub_one_eq_mod]
  omega

theorem byte_kind (x : Word) (n : Nat) (j : Fin 4) :
    (x >>> (n + 2 * j.val)) &&& 3 = ((x >>> n &&& 0xff) >>> (2 * j.val)) &&& 3 := by
  rw [BitVec.ushiftRight_and_distrib, BitVec.and_assoc, ← BitVec.shiftRight_add]
  congr 1
  revert j
  decide

theorem mergeMasks_byte (y : BitVec 8) (j : Fin 4) :
    let m0 : Word := y.setWidth 32
    let m3 := ((m0 &&& 0xaa) >>> 1) &&& ~~~m0
    let m2 := (m0 &&& 0x55) &&& (~~~m0 >>> 1)
    let m4 := (m0 &&& ~~~((m3 <<< 1) ||| m2)) &&& 0x55
    (named (makeMergeMask m2) j = decide ((m0 >>> (2 * j.val)) &&& 3 = 1)) ∧
      (named (makeMergeMask m3) j = decide ((m0 >>> (2 * j.val)) &&& 3 = 2)) ∧
      (named (makeMergeMask m4) j = decide ((m0 >>> (2 * j.val)) &&& 3 = 3)) := by
  revert y j
  decide

theorem protected_byte (y : BitVec 8) :
    (y.setWidth 32 : Word) = 0xff ↔ ∀ j : Fin 4, ((y.setWidth 32 : Word) >>> (2 * j.val)) &&& 3 = 3 := by
  revert y
  decide

theorem masked_byte (y : BitVec 8) :
    (((y.setWidth 32 : Word) >>> 1) ||| y.setWidth 32) &&& 0x55 = 0x55 ↔
      ∀ j : Fin 4, ((y.setWidth 32 : Word) >>> (2 * j.val)) &&& 3 ≠ 0 := by
  revert y
  decide

structure WriteMode.Matches (w : WriteMode) (b : Block) (e : Emitter) : Prop where
  doMask : w.doMask = b.doMask
  mask : b.doMask = true → w.mask = b.mask
  mode : w.mode = b.doMode
  cycle : w.cycle = e.cc

namespace WriteMode.Matches

variable {w : WriteMode} {b : Block} {e : Emitter} (is : w.Matches b e)

include is

theorem kind_unmasked (unmasked : b.doMask = false) (j : Fin 4) : w.kind j = 0 := by
  unfold kind
  rw [is.doMask, unmasked, if_neg Bool.false_ne_true]

section

variable (masked : b.doMask = true)

include masked

theorem kind_byte : ∃ y : BitVec 8, e.fullMask b = y.setWidth 32 ∧
    ∀ j : Fin 4, w.kind j = ((y.setWidth 32 : Word) >>> (2 * j.val)) &&& 3 := by
  have byte := byte_eq b.mask (8 * e.cc.val)
  refine ⟨_, byte, fun j => ?_⟩
  unfold kind
  rw [is.doMask, masked, if_pos rfl, is.mask masked, is.cycle, byte_kind, byte]

theorem named_masks (j : Fin 4) :
    named (e.mergeMasks b).1 j = decide (w.kind j = 1) ∧
      named (e.mergeMasks b).2.1 j = decide (w.kind j = 2) ∧
      named (e.mergeMasks b).2.2 j = decide (w.kind j = 3) := by
  obtain ⟨y, byte, kind⟩ := is.kind_byte masked
  unfold Emitter.mergeMasks
  rw [byte, kind]
  exact mergeMasks_byte y j

theorem skipProcessing_iff : e.skipProcessing b = true ↔ ∀ j, w.kind j = 3 := by
  obtain ⟨y, byte, kind⟩ := is.kind_byte masked
  unfold Emitter.skipProcessing
  rw [masked, Bool.true_and, decide_eq_true_iff, byte, protected_byte]
  exact forall_congr' fun j => by rw [kind]

theorem inputMasked_iff : e.inputMasked b = true ↔ ∀ j, w.kind j ≠ 0 := by
  obtain ⟨y, byte, kind⟩ := is.kind_byte masked
  unfold Emitter.inputMasked
  rw [masked, Bool.true_and, decide_eq_true_iff, byte, masked_byte]
  exact forall_congr' fun j => by rw [kind]

end

theorem named_data (j : Fin 4) :
    named (if b.doMask then ~~~((e.mergeMasks b).1 ||| (e.mergeMasks b).2.1 ||| (e.mergeMasks b).2.2) else 0xf) j =
      decide (w.kind j = 0) := by
  cases masked : b.doMask with
  | false => rw [if_neg Bool.false_ne_true, named_all, is.kind_unmasked masked, decide_eq_true rfl]
  | true =>
    have not (x : BitVec 4) : named (~~~x) j = !named x j := by
      unfold named
      rw [BitVec.getLsbD_not, decide_eq_true (by omega), Bool.true_and]
    have or (x y : BitVec 4) : named (x ||| y) j = (named x j || named y j) := BitVec.getLsbD_or
    obtain ⟨row, col, protect⟩ := is.named_masks masked j
    rw [if_pos rfl, not, or, or, row, col, protect]
    rcases w.kind_cases j with kind | kind | kind | kind <;> rw [kind] <;> rfl

end WriteMode.Matches

/-! ## Writing a quadword -/

section

variable (start : Nat) (src : Source) (m : Machine)

theorem run_merge (condition : Bool) (source : Reg) (ne : .destReg ≠ source) (xyzw : BitVec 4) :
    m.run start src (if condition ∧ xyzw ≠ 0 then mVUmergeRegs .destReg source xyzw else []) =
      m.set .destReg (if condition then merged xyzw (m.xmm .destReg) (m.xmm source) else m.xmm .destReg) := by
  by_cases merges : condition ∧ xyzw ≠ 0
  · rw [if_pos merges, if_pos merges.1]
    exact run_mVUmergeRegs start src m ne xyzw
  · rw [if_neg merges]
    have same : (if condition then merged xyzw (m.xmm .destReg) (m.xmm source) else m.xmm .destReg) =
        m.xmm .destReg := by
      split
      · rename_i condition
        have none : xyzw = 0 := by
          by_contra some
          exact merges ⟨condition, some⟩
        rw [none, merged_zero]
      · rfl
    rw [same, Machine.set_same]
    rfl

theorem run_modes (b : Block) (m5 : BitVec 4) :
    ∃ tmp, m.run start src (if b.doMode ≠ 0 then Emitter.doModeWrite b .destReg m5 else []) =
      ((m.set .tmpReg tmp).set .destReg
        (if b.doMode = 0 then m.xmm .destReg
          else merged m5 (m.xmm .destReg) fun j => sum b.doMode (m.xmm .destReg j) (m.xmm .rowReg j))).set .rowReg
        (if b.doMode = 0 then m.xmm .rowReg
          else merged m5 (m.xmm .rowReg) fun j => kept b.doMode (m.xmm .destReg j) (m.xmm .rowReg j)) := by
  by_cases plain : b.doMode = 0
  · refine ⟨m.xmm .tmpReg, ?_⟩
    rw [if_neg (not_not.mpr plain), if_pos plain, if_pos plain, Machine.set_same, Machine.set_same, Machine.set_same]
    rfl
  · obtain ⟨tmp, run⟩ := run_doModeWrite start src m b plain m5
    refine ⟨tmp, ?_⟩
    rw [if_pos plain, if_neg plain, if_neg plain]
    exact run

end

structure Ready (w : WriteMode) (b : Block) (e : Emitter) (data : Quad) (s : Written) (start : Nat) (m : Machine) :
    Prop where
  row : b.doMode ≠ 0 ∨ (∃ j, w.kind j = 1) → m.xmm .rowReg = s.row
  col : (∃ j, w.kind j = 2) → m.xmm (.colRegs e.cc) = fun _ => w.col w.cycle
  data : ∀ j, w.kind j = 0 → m.xmm .destReg j = data j
  dest : m.mem (start + e.dst) = s.dest

structure Wrote (b : Block) (e : Emitter) (written : Written) (start : Nat) (m after : Machine) : Prop where
  mem : after.mem = Function.update m.mem (start + e.dst) written.dest
  mask : after.mask = m.mask
  row : b.doMode ≠ 0 → after.xmm .rowReg = written.row
  unused : b.doMode = 0 → after.xmm .rowReg = m.xmm .rowReg
  others : ∀ reg, reg ≠ .destReg → reg ≠ .rowReg → reg ≠ .tmpReg → after.xmm reg = m.xmm reg

section

variable {w : WriteMode} {b : Block} {e : Emitter} (is : w.Matches b e) {data : Quad} {s : Written} {start : Nat}
  {m : Machine} (ready : Ready w b e data s start m)

include is ready

theorem run_merges (src : Source) :
    (m.run start src (if b.doMask ∧ (e.mergeMasks b).1 ≠ 0 then
        mVUmergeRegs .destReg .rowReg (e.mergeMasks b).1 else [])).run start src
      (if b.doMask ∧ (e.mergeMasks b).2.1 ≠ 0 then
        mVUmergeRegs .destReg (.colRegs e.cc) (e.mergeMasks b).2.1 else []) =
    m.set .destReg fun j =>
      if w.kind j = 1 then s.row j else if w.kind j = 2 then w.col w.cycle else m.xmm .destReg j := by
  rw [run_merge start src m _ .rowReg (by decide), run_merge start src _ _ (.colRegs e.cc) (by rintro ⟨⟩),
    Machine.set_set, Machine.set_xmm, Machine.set_xmm_of_ne _ _ (by rintro ⟨⟩)]
  congr 1
  funext j
  cases masked : b.doMask with
  | false =>
    rw [is.kind_unmasked masked]
    rfl
  | true =>
    obtain ⟨row, col, -⟩ := is.named_masks masked j
    rw [if_pos rfl, if_pos rfl]
    unfold merged
    rw [row, col]
    rcases w.kind_cases j with kind | kind | kind | kind
    · rw [kind]
      rfl
    · rw [kind, ready.row (.inr ⟨j, kind⟩)]
      rfl
    · rw [kind, ready.col ⟨j, kind⟩]
      rfl
    · rw [kind]
      rfl

theorem run_data (src : Source) (before : Machine) (row : before.xmm .rowReg = m.xmm .rowReg)
    (mixed : before.xmm .destReg = fun j =>
      if w.kind j = 1 then s.row j else if w.kind j = 2 then w.col w.cycle else m.xmm .destReg j) :
    ∃ tmp dest last, before.run start src (if b.doMode ≠ 0 then Emitter.doModeWrite b .destReg
        (if b.doMask then ~~~((e.mergeMasks b).1 ||| (e.mergeMasks b).2.1 ||| (e.mergeMasks b).2.2) else 0xf)
        else []) = ((before.set .tmpReg tmp).set .destReg dest).set .rowReg last ∧
      (∀ j, w.kind j ≠ 3 → dest j = w.destWord data s j) ∧
      (b.doMode ≠ 0 → last = w.rowWord data s) ∧ (b.doMode = 0 → last = m.xmm .rowReg) := by
  obtain ⟨tmp, modes⟩ := run_modes start src before b
    (if b.doMask then ~~~((e.mergeMasks b).1 ||| (e.mergeMasks b).2.1 ||| (e.mergeMasks b).2.2) else 0xf)
  refine ⟨tmp, _, _, modes, ?_, ?_, ?_⟩
  · intro j unprotected
    rw [mixed, row]
    unfold WriteMode.destWord WriteMode.taken
    rw [is.mode]
    by_cases plain : b.doMode = 0
    · rw [if_pos plain, if_pos plain]
      rcases w.kind_cases j with kind | kind | kind | kind
      · rw [kind, ← ready.data j kind]
        rfl
      · rw [kind]
        rfl
      · rw [kind]
        rfl
      · exact absurd kind unprotected
    · rw [if_neg plain, if_neg plain, ready.row (.inl plain)]
      unfold merged
      rw [is.named_data]
      beta_reduce
      rcases w.kind_cases j with kind | kind | kind | kind
      · rw [kind, ← ready.data j kind]
        rfl
      · rw [kind]
        rfl
      · rw [kind]
        rfl
      · exact absurd kind unprotected
  · intro moded
    rw [if_neg moded, mixed, row, ready.row (.inl moded)]
    funext j
    unfold merged WriteMode.rowWord WriteMode.keeps
    rw [is.named_data, is.mode, if_neg moded]
    beta_reduce
    rcases w.kind_cases j with kind | kind | kind | kind
    · rw [kind, ← ready.data j kind]
      rfl
    · rw [kind]
      rfl
    · rw [kind]
      rfl
    · rw [kind]
      rfl
  · intro plain
    rw [if_pos plain, row]

theorem run_saves (src : Source) (skips : e.skipProcessing b = false) (after : Machine)
    (words : ∀ j, w.kind j ≠ 3 → after.xmm .destReg j = w.destWord data s j) (mem : after.mem = m.mem) :
    ∃ xmm, after.run start src (if b.doMask ∧ (e.mergeMasks b).2.2 ≠ 0 then
        mVUsaveReg .destReg e.dst ((e.mergeMasks b).2.2 ^^^ 0xf) else [.store e.dst 0 .destReg 0 4]) =
      ⟨xmm, Function.update m.mem (start + e.dst) (w.destWord data s), after.mask⟩ ∧
      ∀ reg, reg ≠ .destReg → xmm reg = after.xmm reg := by
  by_cases saves : b.doMask ∧ (e.mergeMasks b).2.2 ≠ 0
  · rw [if_pos saves]
    have named_xor (j : Fin 4) : named ((e.mergeMasks b).2.2 ^^^ 0xf) j = decide (w.kind j ≠ 3) := by
      rw [named_complement, (is.named_masks saves.1 j).2.2, decide_not]
    have some : (e.mergeMasks b).2.2 ^^^ 0xf ≠ 0 := by
      intro none
      have all : ∀ j, w.kind j = 3 := by
        intro j
        have unnamed := named_xor j
        rw [none, named_zero] at unnamed
        exact not_not.mp (of_decide_eq_false unnamed.symm)
      have skipped := (is.skipProcessing_iff saves.1).mpr all
      exact Bool.noConfusion (skips.symm.trans skipped)
    obtain ⟨saved, mask, others⟩ := run_mVUsaveReg start src after .destReg e.dst some
    refine ⟨_, ?_, others⟩
    rw [← mask]
    have lanes : merged ((e.mergeMasks b).2.2 ^^^ 0xf) (after.mem (start + e.dst)) (after.xmm .destReg) =
        w.destWord data s := by
      funext j
      unfold merged
      rw [named_xor]
      by_cases protect : w.kind j = 3
      · rw [decide_eq_false (not_not.mpr protect), if_neg Bool.false_ne_true, mem, ready.dest]
        unfold WriteMode.destWord
        rw [protect]
        rfl
      · rw [decide_eq_true protect, if_pos rfl]
        exact words j protect
    rw [← lanes, ← mem, ← saved]
  · rw [if_neg saves]
    refine ⟨after.xmm, ?_, fun _ _ => rfl⟩
    have unprotected (j : Fin 4) : w.kind j ≠ 3 := by
      intro protect
      cases masked : b.doMask with
      | false =>
        rw [is.kind_unmasked masked] at protect
        exact absurd protect (by decide)
      | true =>
        have named := (is.named_masks masked j).2.2
        have none : (e.mergeMasks b).2.2 = 0 := not_not.mp fun some => saves ⟨masked, some⟩
        rw [none, decide_eq_true protect, named_zero] at named
        exact Bool.noConfusion named
    rw [← mem]
    show Machine.mk after.xmm _ after.mask = _
    congr 2
    funext j
    rw [← words j (unprotected j), if_pos (by omega)]
    congr 1
    exact Fin.ext (by show (0 + (j.val - 0)) % 4 = j.val; omega)

theorem run_doMaskWrite (src : Source) (skips : e.skipProcessing b = false) :
    Wrote b e (w.writeQuad data s) start m (m.run start src (e.doMaskWrite b .destReg)) := by
  unfold Emitter.doMaskWrite
  simp only
  rw [Machine.run_append, Machine.run_append, Machine.run_append, run_merges is ready]
  obtain ⟨tmp, dest, last, run, words, moded, plain⟩ := run_data is ready src
    (m.set .destReg fun j =>
      if w.kind j = 1 then s.row j else if w.kind j = 2 then w.col w.cycle else m.xmm .destReg j)
    (Machine.set_xmm_of_ne _ _ (by decide)) (Machine.set_xmm _ _ _)
  rw [run]
  obtain ⟨xmm, run, others⟩ := run_saves is ready src skips
    ((((m.set .destReg fun j =>
      if w.kind j = 1 then s.row j else if w.kind j = 2 then w.col w.cycle else m.xmm .destReg j).set .tmpReg
        tmp).set .destReg dest).set .rowReg last)
    (fun j unprotected => by
      rw [Machine.set_xmm_of_ne _ _ (by decide), Machine.set_xmm]
      exact words j unprotected) rfl
  rw [run, WriteMode.writeQuad_eq]
  have row : xmm .rowReg = last := by rw [others _ (by decide), Machine.set_xmm]
  refine ⟨rfl, rfl, fun some => row.trans (moded some), fun none => row.trans (plain none), ?_⟩
  intro reg ne_dest ne_row ne_tmp
  show xmm reg = _
  rw [others reg ne_dest, Machine.set_xmm_of_ne _ _ ne_row, Machine.set_xmm_of_ne _ _ ne_dest,
    Machine.set_xmm_of_ne _ _ ne_tmp, Machine.set_xmm_of_ne _ _ ne_dest]

theorem run_xMovDest (src : Source) :
    Wrote b e (w.writeQuad data s) start m (m.run start src (e.xMovDest b)) := by
  unfold Emitter.xMovDest
  cases skips : e.skipProcessing b with
  | true =>
    -- every word is protected
    have masked : b.doMask = true := by
      unfold Emitter.skipProcessing at skips
      exact Bool.and_elim_left skips
    have kinds := (is.skipProcessing_iff masked).mp skips
    have dest : w.destWord data s = s.dest := by
      funext j
      unfold WriteMode.destWord
      rw [kinds]
      rfl
    have row : w.rowWord data s = s.row := by
      funext j
      unfold WriteMode.rowWord
      rw [kinds]
      rfl
    rw [if_pos rfl, WriteMode.writeQuad_eq, dest, row]
    refine ⟨?_, rfl, fun moded => ready.row (.inl moded), fun _ => rfl, fun _ _ _ _ => rfl⟩
    rw [← ready.dest, Function.update_eq_self]
    rfl
  | false =>
    rw [if_neg Bool.false_ne_true]
    split
    · rename_i plain
      obtain ⟨mode, unmasked⟩ := plain
      have unsaved : ¬ (b.doMask ∧ (e.mergeMasks b).2.2 ≠ 0) := by
        rw [unmasked]
        exact fun both => Bool.false_ne_true both.1
      obtain ⟨xmm, run, others⟩ := run_saves is ready src skips m (fun j _ => by
        have kind := is.kind_unmasked unmasked j
        unfold WriteMode.destWord WriteMode.taken
        rw [kind, is.mode, mode, ready.data j kind]
        rfl) rfl
      rw [if_neg unsaved] at run
      have row : w.rowWord data s = s.row := by
        funext j
        unfold WriteMode.rowWord WriteMode.keeps
        rw [is.kind_unmasked unmasked, is.mode, mode]
        rfl
      rw [run, WriteMode.writeQuad_eq, row]
      exact ⟨rfl, rfl, fun moded => absurd mode moded, fun _ => others _ (by decide), fun reg ne _ _ => others reg ne⟩
    · exact run_doMaskWrite is ready src skips

end

end Pcsx2.Vif
