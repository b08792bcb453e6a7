import Pcsx2.Foundation.Masks
import Pcsx2.Vif.Masking

/-!
# Loading masks and vectors

What `SetMasks` and `xUnpack` leave in the registers, for the formats of one or four elements.
-/

namespace Pcsx2.Vif

section

variable (start : Nat) (src : Source) (m : Machine)

theorem run_ite (condition : Prop) [Decidable condition] (instr : Instr) :
    m.run start src (if condition then [instr] else []) = if condition then m.exec start src instr else m := by
  split <;> rfl

theorem exec_pshufd (target source : Reg) (imm : BitVec 8) (c : Fin 4)
    (all : ∀ j : Fin 4, (imm.extractLsb' (2 * j.val) 2).toFin = c) :
    m.exec start src (.pshufd target source imm) = m.set target fun _ => m.xmm source c := by
  show m.set target _ = _
  congr 1
  funext j
  rw [all]

end

/-! ## Loading the masks -/

namespace Block

variable (b : Block)

def rowMask : Word := (b.mask &&& (0x55555555 : Word)) &&& (~~~b.mask >>> 1)

def colMask : Word := ((b.mask &&& (0xaaaaaaaa : Word)) >>> 1) &&& ~~~b.mask

def HasRow : Prop := (b.doMask ∧ b.rowMask ≠ 0) ∨ b.doMode ≠ 0

instance : Decidable b.HasRow := inferInstanceAs (Decidable (_ ∨ _))

def HasCol (c : Fin 4) : Prop :=
  b.doMask ∧ b.colMask &&& ((0xff : Word) <<< (8 * c.val)) ≠ 0 ∧ c.val + 1 ≤ b.cycle.writes

end Block

/-- What `SetMasks` leaves. -/
structure MasksSet (b : Block) (m after : Machine) : Prop where
  mem : after.mem = m.mem
  mask : after.mask = m.mask
  row : b.HasRow → after.xmm .rowReg = m.mask .row
  col : ∀ c, b.HasCol c → after.xmm (.colRegs c) = fun _ => m.mask .col c

theorem run_shuffle (start : Nat) (src : Source) (m : Machine) (condition : Prop) [Decidable condition] (c : Fin 4)
    (imm : BitVec 8) (all : ∀ j : Fin 4, (imm.extractLsb' (2 * j.val) 2).toFin = c) :
    ∃ after, m.run start src (if condition then [.pshufd (.colRegs c) (.colRegs 0) imm] else []) = after ∧
      (after.mem = m.mem ∧ after.mask = m.mask) ∧ (∀ reg, reg ≠ .colRegs c → after.xmm reg = m.xmm reg) ∧
      (condition → after.xmm (.colRegs c) = fun _ => m.xmm (.colRegs 0) c) := by
  refine ⟨_, rfl, ?_⟩
  rw [run_ite, exec_pshufd start src m _ _ _ c all]
  split
  · exact ⟨⟨rfl, rfl⟩, fun reg ne => Machine.set_xmm_of_ne _ _ ne, fun _ => Machine.set_xmm _ _ _⟩
  · rename_i no
    exact ⟨⟨rfl, rfl⟩, fun _ _ => rfl, fun yes => absurd yes no⟩

theorem run_setMasks (b : Block) (start : Nat) (src : Source) (m : Machine) :
    MasksSet b m (m.run start src (b.setMasks b.cycle.writes)) := by
  obtain ⟨rowed, load, ⟨mem, mask⟩, others, row⟩ : ∃ rowed,
      m.run start src (if b.HasRow then [.loadMask .rowReg .row] else []) = rowed ∧
      (rowed.mem = m.mem ∧ rowed.mask = m.mask) ∧ (∀ reg, reg ≠ .rowReg → rowed.xmm reg = m.xmm reg) ∧
      (b.HasRow → rowed.xmm .rowReg = m.mask .row) := by
    refine ⟨_, rfl, ?_⟩
    rw [run_ite]
    split
    · exact ⟨⟨rfl, rfl⟩, fun reg ne => Machine.set_xmm_of_ne _ _ ne, fun _ => Machine.set_xmm _ _ _⟩
    · rename_i no
      exact ⟨⟨rfl, rfl⟩, fun _ _ => rfl, fun yes => absurd yes no⟩
  have loaded : m.run start src (b.setMasks b.cycle.writes) =
      rowed.run start src (if b.doMask ∧ b.colMask ≠ 0 then
        [.loadMask (.colRegs 0) .col] ++
        (if 2 ≤ b.cycle.writes ∧ b.colMask &&& 0x0000ff00 ≠ 0 then [.pshufd (.colRegs 1) (.colRegs 0) 0x55] else []) ++
        (if 3 ≤ b.cycle.writes ∧ b.colMask &&& 0x00ff0000 ≠ 0 then [.pshufd (.colRegs 2) (.colRegs 0) 0xaa] else []) ++
        (if 4 ≤ b.cycle.writes ∧ b.colMask &&& 0xff000000 ≠ 0 then [.pshufd (.colRegs 3) (.colRegs 0) 0xff] else []) ++
        (if 1 ≤ b.cycle.writes ∧ b.colMask &&& 0x000000ff ≠ 0 then [.pshufd (.colRegs 0) (.colRegs 0) 0x00] else [])
        else []) := by
    rw [← load]
    exact Machine.run_append start src m _ _
  rw [loaded]
  by_cases cols : b.doMask ∧ b.colMask ≠ 0
  · rw [if_pos cols, Machine.run_append, Machine.run_append, Machine.run_append, Machine.run_append]
    obtain ⟨first, run, kept, others, col⟩ : ∃ first,
        rowed.run start src [.loadMask (.colRegs 0) .col] = first ∧
        (first.mem = m.mem ∧ first.mask = m.mask) ∧ (∀ reg, reg ≠ .colRegs 0 → first.xmm reg = rowed.xmm reg) ∧
        first.xmm (.colRegs 0) = m.mask .col :=
      ⟨_, rfl, ⟨mem, mask⟩, fun reg ne => Machine.set_xmm_of_ne _ _ ne,
        (Machine.set_xmm _ _ _).trans (by rw [mask])⟩
    rw [run]
    obtain ⟨second, run, kept₁, others₁, col₁⟩ := run_shuffle start src first
      (2 ≤ b.cycle.writes ∧ b.colMask &&& 0x0000ff00 ≠ 0) 1 0x55 (by decide)
    rw [run]
    obtain ⟨third, run, kept₂, others₂, col₂⟩ := run_shuffle start src second
      (3 ≤ b.cycle.writes ∧ b.colMask &&& 0x00ff0000 ≠ 0) 2 0xaa (by decide)
    rw [run]
    obtain ⟨fourth, run, kept₃, others₃, col₃⟩ := run_shuffle start src third
      (4 ≤ b.cycle.writes ∧ b.colMask &&& 0xff000000 ≠ 0) 3 0xff (by decide)
    rw [run]
    -- the first register is spread last
    obtain ⟨last, run, kept₀, others₀, col₀⟩ := run_shuffle start src fourth
      (1 ≤ b.cycle.writes ∧ b.colMask &&& 0x000000ff ≠ 0) 0 0x00 (by decide)
    rw [run]
    refine ⟨?_, ?_, ?_, ?_⟩
    · rw [kept₀.1, kept₃.1, kept₂.1, kept₁.1, kept.1]
    · rw [kept₀.2, kept₃.2, kept₂.2, kept₁.2, kept.2]
    · intro used
      rw [others₀ _ (by rintro ⟨⟩), others₃ _ (by rintro ⟨⟩), others₂ _ (by rintro ⟨⟩), others₁ _ (by rintro ⟨⟩),
        others _ (by rintro ⟨⟩), row used]
    · rintro c ⟨-, some, enough⟩
      fin_cases c
      · show last.xmm (.colRegs 0) = _
        rw [col₀ ⟨enough, some⟩, others₃ _ (by decide), others₂ _ (by decide), others₁ _ (by decide), col]
        rfl
      · show last.xmm (.colRegs 1) = _
        rw [others₀ _ (by decide), others₃ _ (by decide), others₂ _ (by decide), col₁ ⟨enough, some⟩, col]
        rfl
      · show last.xmm (.colRegs 2) = _
        rw [others₀ _ (by decide), others₃ _ (by decide), col₂ ⟨enough, some⟩, others₁ _ (by decide), col]
        rfl
      · show last.xmm (.colRegs 3) = _
        rw [others₀ _ (by decide), col₃ ⟨enough, some⟩, others₂ _ (by decide), others₁ _ (by decide), col]
        rfl
  · rw [if_neg cols]
    refine ⟨mem, mask, row, ?_⟩
    rintro c ⟨masked, some, -⟩
    refine absurd ⟨masked, ?_⟩ cols
    intro none
    rw [none] at some
    exact some BitVec.zero_and

/-! ### Where the row and the columns are used -/

theorem bits_of_kind {x : Word} {n : Nat} {kind : Word} (is : (x >>> n) &&& 3 = kind) :
    x.getLsbD n = kind.getLsbD 0 ∧ x.getLsbD (n + 1) = kind.getLsbD 1 := by
  rw [← is, BitVec.getLsbD_and, BitVec.getLsbD_and, BitVec.getLsbD_ushiftRight, BitVec.getLsbD_ushiftRight]
  exact ⟨(Bool.and_true _).symm, (Bool.and_true _).symm⟩

theorem ne_zero_of_bit {x : Word} {n : Nat} (bit : x.getLsbD n = true) : x ≠ 0 := by
  intro zero
  rw [zero] at bit
  exact Bool.noConfusion (BitVec.getLsbD_zero.symm.trans bit)

section

variable {w : WriteMode} {b : Block} {e : Emitter} (is : w.Matches b e)

include is

theorem masked_of_kind {j : Fin 4} (kind : w.kind j ≠ 0) : b.doMask = true := by
  by_contra unmasked
  exact kind (is.kind_unmasked (Bool.eq_false_iff.mpr unmasked) j)

theorem mask_of_kind {j : Fin 4} {kind : Word} (some : kind ≠ 0) (eq : w.kind j = kind) :
    (b.mask >>> (8 * e.cc.val + 2 * j.val)) &&& 3 = kind := by
  have masked := masked_of_kind is (eq ▸ some)
  unfold WriteMode.kind at eq
  rwa [is.doMask, masked, if_pos rfl, is.mask masked, is.cycle] at eq

theorem hasRow_of_kind (uses : b.doMode ≠ 0 ∨ ∃ j, w.kind j = 1) : b.HasRow := by
  rcases uses with moded | ⟨j, kind⟩
  · exact .inr moded
  · have masked := masked_of_kind is (by rw [kind]; decide)
    obtain ⟨low, high⟩ := bits_of_kind (mask_of_kind is (by decide) kind)
    have odd : ∀ c j : Fin 4, (0x55555555 : Word).getLsbD (8 * c.val + 2 * j.val) = true := by decide
    refine .inl ⟨masked, ne_zero_of_bit (n := 8 * e.cc.val + 2 * j.val) ?_⟩
    unfold Block.rowMask
    rw [BitVec.getLsbD_and, BitVec.getLsbD_and, BitVec.getLsbD_ushiftRight, BitVec.getLsbD_not, Nat.add_comm 1,
      low, high, odd, decide_eq_true (by omega)]
    rfl

theorem hasCol_of_kind (enough : e.cc.val + 1 ≤ b.cycle.writes) (uses : ∃ j, w.kind j = 2) : b.HasCol e.cc := by
  obtain ⟨j, kind⟩ := uses
  have masked := masked_of_kind is (by rw [kind]; decide)
  obtain ⟨low, high⟩ := bits_of_kind (mask_of_kind is (by decide) kind)
  have even : ∀ c j : Fin 4, (0xaaaaaaaa : Word).getLsbD (8 * c.val + 2 * j.val + 1) = true ∧
    ((0xff : Word) <<< (8 * c.val)).getLsbD (8 * c.val + 2 * j.val) = true := by decide
  refine ⟨masked, ne_zero_of_bit (n := 8 * e.cc.val + 2 * j.val) ?_, enough⟩
  unfold Block.colMask
  rw [BitVec.getLsbD_and, BitVec.getLsbD_and, BitVec.getLsbD_ushiftRight, BitVec.getLsbD_and, BitVec.getLsbD_not,
    Nat.add_comm 1, low, high, (even e.cc j).1, (even e.cc j).2, decide_eq_true (by omega)]
  rfl

end

/-! ## Unpacking -/

/-- S-32, S-16, S-8, V4-32, V4-16, V4-8 and V4-5. -/
def Covered (upkNum : BitVec 4) : Prop := upkNum ∈ [0, 1, 2, 12, 13, 14, 15]

instance (upkNum : BitVec 4) : Decidable (Covered upkNum) := inferInstanceAs (Decidable (_ ∈ _))

theorem Covered.cases {upkNum : BitVec 4} (covered : Covered upkNum) :
    upkNum = 0 ∨ upkNum = 1 ∨ upkNum = 2 ∨ upkNum = 12 ∨ upkNum = 13 ∨ upkNum = 14 ∨ upkNum = 15 := by
  revert upkNum
  decide

/-- What `xUnpack` leaves. -/
structure Unpacked (b : Block) (e : Emitter) (data : Quad) (m after : Machine) : Prop where
  mem : after.mem = m.mem
  mask : after.mask = m.mask
  dest : e.inputMasked b = false → after.xmm .destReg = data
  others : ∀ reg, reg ≠ .destReg → reg ≠ .workReg → after.xmm reg = m.xmm reg

def Window (b : Block) (e : Emitter) (src : Source) (m : Machine) : Prop :=
  ∃ pos, e.src = pos + nVifT b.upkNum * e.iteration ∧
    ∀ l, m.xmm .workReg l = src.element b.usn (b.upkNum.extractLsb' 0 2) pos l

section

variable (b : Block) (e : Emitter) (start : Nat) (src : Source) (m : Machine)

theorem element_of_window (small : b.upkNum.toNat < 3) {pos : Nat} (at_pos : e.src = pos + nVifT b.upkNum * e.iteration)
    (l : Fin 4) (now : l.val = e.iteration) :
    src.element b.usn (b.upkNum.extractLsb' 0 2) pos l = src.element b.usn (b.upkNum.extractLsb' 0 2) e.src 0 := by
  rw [at_pos, ← now]
  have formats : ∀ n : BitVec 4, n.toNat < 3 → n = 0 ∨ n = 1 ∨ n = 2 := by decide
  have sizes : nVifT 0 = 4 ∧ nVifT 1 = 2 ∧ nVifT 2 = 1 := by decide
  unfold Source.element
  rcases formats b.upkNum small with format | format | format <;> rw [format]
  · rw [if_pos (by decide), if_pos (by decide), sizes.1]
    rfl
  · rw [if_neg (by decide), if_pos (by decide), if_neg (by decide), if_pos (by decide), sizes.2.1]
    rfl
  · rw [if_neg (by decide), if_neg (by decide), if_neg (by decide), if_neg (by decide), sizes.2.2, Nat.one_mul]
    rfl

theorem run_xUPK_S (small : b.upkNum.toNat < 3) (load : Instr)
    (loads : ∀ m : Machine, m.exec start src load =
      m.set .workReg fun l => src.element b.usn (b.upkNum.extractLsb' 0 2) e.src l)
    (few : e.iteration < 4) (window : e.iteration ≠ 0 → Window b e src m) :
    Unpacked b e (unpackS src b.usn (b.upkNum.extractLsb' 0 2) e.src) m (m.run start src (e.xUPK_S b load)) ∧
      Window b e src (m.run start src (e.xUPK_S b load)) := by
  unfold Emitter.xUPK_S
  rw [Machine.run_append, run_ite, loads]
  obtain ⟨loaded, equal, ⟨mem, mask⟩, others, pos, at_pos, work⟩ : ∃ loaded : Machine,
      (if e.iteration = 0 then m.set .workReg fun l => src.element b.usn (b.upkNum.extractLsb' 0 2) e.src l else m) =
        loaded ∧ (loaded.mem = m.mem ∧ loaded.mask = m.mask) ∧ (∀ reg, reg ≠ .workReg → loaded.xmm reg = m.xmm reg) ∧
      Window b e src loaded := by
    refine ⟨_, rfl, ?_⟩
    split
    · rename_i first
      refine ⟨⟨rfl, rfl⟩, fun reg ne => Machine.set_xmm_of_ne _ _ ne, e.src, by rw [first]; rfl, fun l => ?_⟩
      rw [Machine.set_xmm]
    · rename_i later
      exact ⟨⟨rfl, rfl⟩, fun _ _ => rfl, window later⟩
  rw [equal]
  cases masked : e.inputMasked b with
  | true =>
    rw [if_pos rfl]
    exact ⟨⟨mem, mask, fun unmasked => Bool.noConfusion (masked.symm.trans unmasked), fun reg _ ne => others reg ne⟩,
      pos, at_pos, work⟩
  | false =>
    rw [if_neg Bool.false_ne_true]
    have shuffled (imm : BitVec 8) (l : Fin 4) (all : ∀ j : Fin 4, (imm.extractLsb' (2 * j.val) 2).toFin = l)
        (now : l.val = e.iteration) :
        Unpacked b e (unpackS src b.usn (b.upkNum.extractLsb' 0 2) e.src) m
          (loaded.run start src [.pshufd .destReg .workReg imm]) ∧
        Window b e src (loaded.run start src [.pshufd .destReg .workReg imm]) := by
      rw [Machine.run_cons, Machine.run_nil, exec_pshufd _ _ _ _ _ _ l all]
      refine ⟨⟨mem, mask, fun _ => ?_, fun reg ne_dest ne_work => ?_⟩, pos, at_pos, fun j => ?_⟩
      · rw [Machine.set_xmm, work, element_of_window b e src small at_pos l now]
        rfl
      · rw [Machine.set_xmm_of_ne _ _ ne_dest, others reg ne_work]
      · rw [Machine.set_xmm_of_ne _ _ (by decide), work]
    have iterations : e.iteration = 0 ∨ e.iteration = 1 ∨ e.iteration = 2 ∨ e.iteration = 3 := by omega
    rcases iterations with now | now | now | now <;> rw [now]
    · exact shuffled 0x00 0 (by decide) now.symm
    · exact shuffled 0x55 1 (by decide) now.symm
    · exact shuffled 0xaa 2 (by decide) now.symm
    · exact shuffled 0xff 3 (by decide) now.symm

theorem run_xUPK_V4 (load : Instr) {data : Quad} (loads : m.exec start src load = m.set .destReg data) :
    Unpacked b e data m (m.run start src (e.xUPK_V4 b load)) := by
  unfold Emitter.xUPK_V4
  split
  · rename_i masked
    exact ⟨rfl, rfl, fun unmasked => Bool.noConfusion (masked.symm.trans unmasked), fun _ _ _ => rfl⟩
  · rw [Machine.run_cons, Machine.run_nil, loads]
    exact ⟨rfl, rfl, fun _ => Machine.set_xmm _ _ _, fun reg ne _ => Machine.set_xmm_of_ne _ _ ne⟩

structure Unpacking (m after : Machine) (dest work : Quad) : Prop where
  mem : after.mem = m.mem
  mask : after.mask = m.mask
  dest : after.xmm .destReg = dest
  work : after.xmm .workReg = work
  others : ∀ reg, reg ≠ .destReg → reg ≠ .workReg → after.xmm reg = m.xmm reg

variable {m} in
theorem Unpacking.field {after : Machine} {dest work : Quad} (so : Unpacking m after dest work) (n : Nat)
    (xyzw : BitVec 4) :
    Unpacking m ((after.run start src [.psrld .workReg 8, .pslld .workReg n]).run start src
        (mVUmergeRegs .destReg .workReg xyzw))
      (merged xyzw dest fun j => work j >>> 8 <<< n) fun j => work j >>> 8 <<< n := by
  obtain ⟨mem, mask, dest_eq, work_eq, others⟩ := so
  have shifted : after.run start src [.psrld .workReg 8, .pslld .workReg n] =
      after.set .workReg fun j => work j >>> 8 <<< n := by
    rw [← work_eq]
    show (after.set .workReg _).set .workReg (fun j => (after.set .workReg _).xmm .workReg j <<< n) = _
    rw [Machine.set_set, Machine.set_xmm]
  rw [shifted, run_mVUmergeRegs start src _ (by decide), Machine.set_xmm, Machine.set_xmm_of_ne _ _ (by decide),
    dest_eq]
  refine ⟨mem, mask, Machine.set_xmm _ _ _, ?_, fun reg ne_dest ne_work => ?_⟩
  · rw [Machine.set_xmm_of_ne _ _ (by decide), Machine.set_xmm]
  · rw [Machine.set_xmm_of_ne _ _ ne_dest, Machine.set_xmm_of_ne _ _ ne_work, others reg ne_dest ne_work]

variable {m} in
theorem Unpacking.finish {after : Machine} {dest work data : Quad} (so : Unpacking m after dest work)
    (lanes : ∀ j, dest j <<< 24 >>> 24 = data j) :
    Unpacked b e data m (after.run start src [.pslld .destReg 24, .psrld .destReg 24]) := by
  have shifted : after.run start src [.pslld .destReg 24, .psrld .destReg 24] = after.set .destReg data := by
    show (after.set .destReg _).set .destReg (fun j => (after.set .destReg _).xmm .destReg j >>> 24) = _
    rw [Machine.set_set, Machine.set_xmm, so.dest]
    exact congrArg (after.set .destReg) (funext lanes)
  rw [shifted]
  refine ⟨so.mem, so.mask, fun _ => Machine.set_xmm _ _ _, fun reg ne_dest ne_work => ?_⟩
  rw [Machine.set_xmm_of_ne _ _ ne_dest, so.others reg ne_dest ne_work]

section

variable (x : Word)

theorem red_lane : x <<< 3 <<< 24 >>> 24 = (x &&& 0x001f) <<< 3 := by
  have small := x.isLt
  have red : x.toNat &&& (0x1f : Word).toNat = x.toNat / 2 ^ 0 % 2 ^ 5 * 2 ^ 0 := Foundation.and_high x.toNat 0 5
  apply BitVec.eq_of_toNat_eq
  simp only [BitVec.toNat_ushiftRight, BitVec.toNat_shiftLeft, BitVec.toNat_and, Nat.shiftLeft_eq,
    Nat.shiftRight_eq_div_pow]
  rw [red]
  omega

theorem green_lane : x <<< 3 >>> 8 <<< 3 <<< 24 >>> 24 = (x &&& 0x03e0) >>> 2 := by
  have small := x.isLt
  have green : x.toNat &&& (0x3e0 : Word).toNat = x.toNat / 2 ^ 5 % 2 ^ 5 * 2 ^ 5 := Foundation.and_high x.toNat 5 5
  apply BitVec.eq_of_toNat_eq
  simp only [BitVec.toNat_ushiftRight, BitVec.toNat_shiftLeft, BitVec.toNat_and, Nat.shiftLeft_eq,
    Nat.shiftRight_eq_div_pow]
  rw [green]
  omega

theorem blue_lane : x <<< 3 >>> 8 <<< 3 >>> 8 <<< 3 <<< 24 >>> 24 = (x &&& 0x7c00) >>> 7 := by
  have small := x.isLt
  have blue : x.toNat &&& (0x7c00 : Word).toNat = x.toNat / 2 ^ 10 % 2 ^ 5 * 2 ^ 10 :=
    Foundation.and_high x.toNat 10 5
  apply BitVec.eq_of_toNat_eq
  simp only [BitVec.toNat_ushiftRight, BitVec.toNat_shiftLeft, BitVec.toNat_and, Nat.shiftLeft_eq,
    Nat.shiftRight_eq_div_pow]
  rw [blue]
  omega

theorem alpha_lane : x <<< 3 >>> 8 <<< 3 >>> 8 <<< 3 >>> 8 <<< 7 <<< 24 >>> 24 = (x &&& 0x8000) >>> 8 := by
  have small := x.isLt
  have alpha : x.toNat &&& (0x8000 : Word).toNat = x.toNat / 2 ^ 15 % 2 ^ 1 * 2 ^ 15 :=
    Foundation.and_high x.toNat 15 1
  apply BitVec.eq_of_toNat_eq
  simp only [BitVec.toNat_ushiftRight, BitVec.toNat_shiftLeft, BitVec.toNat_and, Nat.shiftLeft_eq,
    Nat.shiftRight_eq_div_pow]
  rw [alpha]
  omega

end

theorem run_xUPK_V4_5 : Unpacked b e (unpackV4_5 src e.src) m (m.run start src (e.xUPK_V4_5 b)) := by
  unfold Emitter.xUPK_V4_5
  split
  · rename_i masked
    exact ⟨rfl, rfl, fun unmasked => Bool.noConfusion (masked.symm.trans unmasked), fun _ _ _ => rfl⟩
  · have first : m.run start src [.movsszx .workReg e.src, .pshufd .workReg .workReg 0x00, .pslld .workReg 3,
        .movaps .destReg .workReg] =
        (m.set .workReg fun _ => src.word e.src <<< 3).set .destReg fun _ => src.word e.src <<< 3 := by
      rw [Machine.run_cons, Machine.run_cons, exec_pshufd _ _ _ _ _ _ 0 (by decide)]
      have word : ∀ value : Quad, value 0 = src.word e.src →
          ((m.set .workReg value).set .workReg fun _ => (m.set .workReg value).xmm .workReg 0) =
            m.set .workReg fun _ => src.word e.src := by
        intro value first
        rw [Machine.set_set, Machine.set_xmm, first]
      show Machine.run start src (((m.set .workReg fun i => if i.val = 0 then src.word e.src else 0).set .workReg
        fun _ => (m.set .workReg fun i => if i.val = 0 then src.word e.src else 0).xmm .workReg 0)) _ = _
      rw [word _ rfl]
      show Machine.set ((m.set .workReg _).set .workReg fun j => (m.set .workReg _).xmm .workReg j <<< 3) .destReg
        (((m.set .workReg _).set .workReg fun j => (m.set .workReg _).xmm .workReg j <<< 3).xmm .workReg) = _
      rw [Machine.set_xmm, Machine.set_set, Machine.set_xmm]
    have red : Unpacking m (m.run start src [.movsszx .workReg e.src, .pshufd .workReg .workReg 0x00,
        .pslld .workReg 3, .movaps .destReg .workReg]) (fun _ => src.word e.src <<< 3)
        (fun _ => src.word e.src <<< 3) := by
      rw [first]
      refine ⟨rfl, rfl, Machine.set_xmm _ _ _, ?_, fun reg ne_dest ne_work => ?_⟩
      · rw [Machine.set_xmm_of_ne _ _ (by decide), Machine.set_xmm]
      · rw [Machine.set_xmm_of_ne _ _ ne_dest, Machine.set_xmm_of_ne _ _ ne_work]
    have green := red.field start src 3 0x4
    have blue := green.field start src 3 0x2
    have alpha := blue.field start src 7 0x1
    rw [Machine.run_append, Machine.run_append, Machine.run_append, Machine.run_append, Machine.run_append,
      Machine.run_append]
    refine Unpacking.finish b e start src alpha fun j => ?_
    fin_cases j
    · exact red_lane _
    · exact green_lane _
    · exact blue_lane _
    · exact alpha_lane _

theorem run_xUnpack (covered : Covered b.upkNum) (few : e.iteration < 4)
    (window : b.upkNum.toNat < 3 → e.iteration ≠ 0 → Window b e src m) :
    ∃ data, unpackVector src b.usn e.src b.upkNum = some data ∧
      Unpacked b e data m (m.run start src (e.xUnpack b)) ∧
      (b.upkNum.toNat < 3 → Window b e src (m.run start src (e.xUnpack b))) := by
  have code : e.xUnpack b = _ := Emitter.xUnpack.eq_1 b e
  have scalar (load : Instr) (small : b.upkNum.toNat < 3) (code : e.xUnpack b = e.xUPK_S b load)
      (loads : ∀ m : Machine, m.exec start src load =
        m.set .workReg fun l => src.element b.usn (b.upkNum.extractLsb' 0 2) e.src l)
      (vector : unpackVector src b.usn e.src b.upkNum =
        some (unpackS src b.usn (b.upkNum.extractLsb' 0 2) e.src)) :
      ∃ data, unpackVector src b.usn e.src b.upkNum = some data ∧
        Unpacked b e data m (m.run start src (e.xUnpack b)) ∧
        (b.upkNum.toNat < 3 → Window b e src (m.run start src (e.xUnpack b))) := by
    obtain ⟨unpacked, window⟩ := run_xUPK_S b e start src m small load loads few (window small)
    rw [code]
    exact ⟨_, vector, unpacked, fun _ => window⟩
  have quad {data : Quad} (large : ¬ b.upkNum.toNat < 3)
      (vector : unpackVector src b.usn e.src b.upkNum = some data)
      (unpacked : Unpacked b e data m (m.run start src (e.xUnpack b))) :
      ∃ data, unpackVector src b.usn e.src b.upkNum = some data ∧
        Unpacked b e data m (m.run start src (e.xUnpack b)) ∧
        (b.upkNum.toNat < 3 → Window b e src (m.run start src (e.xUnpack b))) :=
    ⟨data, vector, unpacked, fun small => absurd small large⟩
  rcases covered.cases with format | format | format | format | format | format | format
  all_goals rw [format] at code
  · exact scalar (.movups .workReg e.src) (by rw [format]; decide) code (fun m => by rw [format]; rfl)
      (by rw [format]; rfl)
  · exact scalar (.pmovxx b.usn 1 .workReg e.src) (by rw [format]; decide) code (fun m => by rw [format]; rfl)
      (by rw [format]; rfl)
  · exact scalar (.pmovxx b.usn 2 .workReg e.src) (by rw [format]; decide) code (fun m => by rw [format]; rfl)
      (by rw [format]; rfl)
  · refine quad (by rw [format]; decide) (by rw [format]; rfl) ?_
    rw [code]
    exact run_xUPK_V4 b e start src m (.movups .destReg e.src) rfl
  · refine quad (by rw [format]; decide) (by rw [format]; rfl) ?_
    rw [code]
    exact run_xUPK_V4 b e start src m (.pmovxx b.usn 1 .destReg e.src) rfl
  · refine quad (by rw [format]; decide) (by rw [format]; rfl) ?_
    rw [code]
    exact run_xUPK_V4 b e start src m (.pmovxx b.usn 2 .destReg e.src) rfl
  · refine quad (by rw [format]; decide) (by rw [format]; rfl) ?_
    rw [code]
    exact run_xUPK_V4_5 b e start src m

end

end Pcsx2.Vif
