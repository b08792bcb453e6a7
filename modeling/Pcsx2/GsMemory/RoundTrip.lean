import Mathlib.Algebra.BigOperators.Ring.List
import Mathlib.Tactic.Ring
import Pcsx2.GsMemory.Units

/-!
# Round trips

A rectangle that is written and read back, each in any number of calls.
-/

namespace Pcsx2.GsMemory

open GSOffset (PAHelper)
open Foundation (load)

/-! ## Transfers -/

section

variable (psm : Psm) (bp bw sx sy w h : Nat)

/-- The calls that write consecutive parts of `src`, each of the given length. -/
def writeCalls : List Nat → Vm → Nat → Nat → Bytes → Option Vm
  | [], vm, _, _, _ => some vm
  | len :: rest, vm, tx, ty, src =>
      (writeImageX vm tx ty src len (buffers psm bp bw) (positions sx sy) ⟨w, h⟩).bind fun (vm, tx, ty) =>
        writeCalls rest vm tx ty fun i => src (len + i)

def readCalls (vm : Vm) : List (List (BitVec 8)) → Nat → Nat → Option (List (BitVec 8))
  | [], _, _ => some []
  | dst :: rest, tx, ty =>
      (readImageX vm tx ty dst dst.length (buffers psm bp bw) (positions sx sy) ⟨w, h⟩).bind fun (dst, tx, ty) =>
        (readCalls vm rest tx ty).map (dst ++ ·)

def RoundTrips (vm : Vm) (src : Bytes) (lens : List Nat) (dsts : List (List (BitVec 8))) : Prop :=
  ((writeCalls psm bp bw sx sy w h lens vm sx sy src).bind fun vm => readCalls psm bp bw sx sy w h vm dsts sx sy) =
    some (load src 0 lens.sum)

/-- The pixels of the rectangle have addresses of their own. -/
def Distinct : Prop :=
  ∀ x < w, ∀ y < h, ∀ x' < w, ∀ y' < h, (x ≠ x' ∨ y ≠ y') →
    (getOffset bp bw psm).pa (sx + x) (sy + y) % psm.places ≠ (getOffset bp bw psm).pa (sx + x') (sy + y') % psm.places

set_option synthInstance.maxSize 1000 in
set_option synthInstance.maxHeartbeats 200000 in
instance : Decidable (Distinct psm bp bw sx sy w h) :=
  inferInstanceAs (Decidable (∀ x < w, ∀ y < h, ∀ x' < w, ∀ y' < h, (x ≠ x' ∨ y ≠ y') → _ ≠ _))

/-! ## The written rectangle -/

def firstAddr (j : Nat) : Nat := pixelAddr psm bp bw sx sy w (j * psm.xinc)

def secondAddr (j : Nat) : Nat :=
  (getOffset bp bw psm).pa (sx + j * psm.xinc % w + 1) (sy + j * psm.xinc / w)

def written (vm : Vm) (src : Bytes) : Nat → Vm
  | 0 => vm
  | j + 1 => putUnit psm src (written vm src j) (firstAddr psm bp bw sx sy w j) (secondAddr psm bp bw sx sy w j)
      (j * psm.unitBytes)

variable {psm bp bw sx sy w h} {vm : Vm} {src : Bytes}

theorem putUnit_shift {a b p q : Nat} :
    putUnit psm (fun i => src (q + i)) vm a b p = putUnit psm src vm a b (q + p) := by
  have halves (p : Nat) : Bytes.load16 (fun i => src (q + i)) p = src.load16 (q + p) := by
    unfold Bytes.load16
    rw [Nat.add_assoc]
  have words : Bytes.load32 (fun i => src (q + i)) p = src.load32 (q + p) := by
    unfold Bytes.load32
    rw [halves, halves, Nat.add_assoc]
  cases psm <;> simp only [putUnit, halves, words]

theorem visit_write {j n : Nat} :
    visit (writeStep psm fun i => src (j * psm.unitBytes + i)) (getOffset bp bw psm) psm.xinc sx sy w j n
      (written psm bp bw sx sy w vm src j, 0) =
      some (written psm bp bw sx sy w vm src (j + n), n * psm.unitBytes) := by
  induction n with
  | zero => rw [visit_zero, Nat.add_zero, Nat.zero_mul]
  | succ n ih =>
      rw [visit_add, ih, Option.bind_some, visit_one, unitAt, writeStep_paMulti, putUnit_shift, ← Nat.add_mul,
        ← Nat.add_assoc j, written, Nat.succ_mul n, Nat.add_zero]
      rfl

variable {lens : List Nat}

theorem writeCalls_eq (boundaries : ∀ len ∈ lens, psm.unitBytes ∣ len) (whole : psm.xinc ∣ w)
    (wide : 0 < w) (j : Nat) :
    writeCalls psm bp bw sx sy w h lens (written psm bp bw sx sy w vm src j) (sx + j * psm.xinc % w)
      (sy + j * psm.xinc / w) (fun i => src (j * psm.unitBytes + i)) =
      some (written psm bp bw sx sy w vm src (j + lens.sum / psm.unitBytes)) := by
  induction lens generalizing j with
  | nil => rw [writeCalls, List.sum_nil, Nat.zero_div, Nat.add_zero]
  | cons len rest ih =>
      obtain ⟨n, rfl⟩ := boundaries len List.mem_cons_self
      have pointer : (fun i => src (j * psm.unitBytes + (n * psm.unitBytes + i))) =
          fun i => src ((j + n) * psm.unitBytes + i) := by
        funext i
        rw [Nat.add_mul, Nat.add_assoc]
      have total : (n * psm.unitBytes + rest.sum) / psm.unitBytes = n + rest.sum / psm.unitBytes := by
        rw [Nat.mul_comm, Nat.mul_add_div psm.unitBytes_pos]
      rw [Nat.mul_comm, writeCalls, writeImageX_eq whole wide, visit_write, Option.map_some, Option.bind_some]
      dsimp only
      rw [pointer, ih (fun len member => boundaries len (List.mem_cons_of_mem _ member)), List.sum_cons, total,
        Nat.add_assoc]

/-! ## What the memory holds -/

theorem pixelAddr_ne (distinct : Distinct psm bp bw sx sy w h) {k l : Nat} (apart : k ≠ l) (left : k < w * h)
    (right : l < w * h) : pixelAddr psm bp bw sx sy w k % psm.places ≠ pixelAddr psm bp bw sx sy w l % psm.places := by
  have wide : 0 < w := Nat.pos_of_mul_pos_right (Nat.lt_of_le_of_lt (Nat.zero_le k) left)
  apply distinct _ (Nat.mod_lt k wide) _ (Nat.div_lt_of_lt_mul left) _ (Nat.mod_lt l wide) _ (Nat.div_lt_of_lt_mul right)
  by_contra same
  apply apart
  rw [not_or, not_not, not_not] at same
  rw [← Nat.div_add_mod k w, ← Nat.div_add_mod l w, same.1, same.2]

theorem getUnit_written (distinct : Distinct psm bp bw sx sy w h) (whole : psm.xinc ∣ w) {m i : Nat} (done : i < m)
    (inside : m * psm.xinc ≤ w * h) :
    getUnit psm (written psm bp bw sx sy w vm src m) (firstAddr psm bp bw sx sy w i) (secondAddr psm bp bw sx sy w i) =
      load src (i * psm.unitBytes) psm.unitBytes := by
  induction m with
  | zero => omega
  | succ m ih =>
      have positive := psm.xinc_pos
      rw [Nat.succ_mul] at inside
      have wide : 0 < w := Nat.pos_of_mul_pos_right (by omega : 0 < w * h)
      have second : ∀ j, psm.nibbles →
          secondAddr psm bp bw sx sy w j = pixelAddr psm bp bw sx sy w (j * psm.xinc + 1) :=
        fun j nibbles => second_addr whole nibbles wide
      have two : psm.nibbles → psm.xinc = 2 := fun nibbles => if_pos nibbles
      rw [written]
      by_cases last : i = m
      · subst last
        apply getUnit_putUnit
        intro nibbles
        rw [second i nibbles]
        have size := two nibbles
        exact pixelAddr_ne distinct (by omega) (by omega) (by omega)
      · have earlier : i < m := by omega
        have before : (i + 1) * psm.xinc ≤ m * psm.xinc := Nat.mul_le_mul_right _ earlier
        rw [Nat.succ_mul] at before
        rw [getUnit_putUnit_ne, ih earlier (by omega)]
        · exact pixelAddr_ne distinct (by omega) (by omega) (by omega)
        · intro nibbles
          have size := two nibbles
          rw [second i nibbles, second m nibbles]
          refine ⟨pixelAddr_ne distinct ?_ ?_ ?_, pixelAddr_ne distinct ?_ ?_ ?_, pixelAddr_ne distinct ?_ ?_ ?_⟩ <;> omega

/-! ## The rectangle read -/

theorem load_units (n j : Nat) : (List.range' j n).flatMap (fun i => load src (i * psm.unitBytes) psm.unitBytes) =
    load src (j * psm.unitBytes) (n * psm.unitBytes) := by
  induction n generalizing j with
  | zero => simp
  | succ n ih =>
      rw [List.range'_succ, List.flatMap_cons, ih, Nat.succ_mul n, Nat.add_comm (n * psm.unitBytes), Foundation.load_add,
        Nat.succ_mul j]

theorem store_full {dst bytes : List (BitVec 8)} (length : bytes.length = dst.length) : store dst 0 bytes = some bytes := by
  unfold store
  rw [Nat.zero_add, if_pos (Nat.le_of_eq length), List.take_zero, List.nil_append, length, List.drop_length,
    List.append_nil]

theorem visit_read {j n : Nat} {dst : List (BitVec 8)}
    (held : ∀ i, j ≤ i → i < j + n → getUnit psm vm (firstAddr psm bp bw sx sy w i) (secondAddr psm bp bw sx sy w i) =
      load src (i * psm.unitBytes) psm.unitBytes)
    (length : dst.length = n * psm.unitBytes) (short : psm = .PSMT4 → n ≤ 1) :
    (visit (readStep psm vm) (getOffset bp bw psm) psm.xinc sx sy w j n (dst, 0)).map Prod.fst =
      some (load src (j * psm.unitBytes) (n * psm.unitBytes)) := by
  cases n with
  | zero =>
      rw [Nat.zero_mul] at length
      rw [visit_zero, Nat.zero_mul, List.eq_nil_of_length_eq_zero length]
      rfl
  | succ n =>
      by_cases usual : psm = .PSMT4
      · subst usual
        have zero : n = 0 := by have := short rfl; omega
        subst zero
        have here := held j (Nat.le_refl j) (by omega)
        have unit : unitAt (readStep .PSMT4 vm) (getOffset bp bw .PSMT4) (Psm.xinc .PSMT4) sx sy w j (dst, 0) =
            (store dst 0 (getUnit .PSMT4 vm (firstAddr .PSMT4 bp bw sx sy w j) (secondAddr .PSMT4 bp bw sx sy w j))).map
              fun dst => (dst, 0) := read4_paMulti
        have bytes : (load src (j * Psm.unitBytes .PSMT4) (Psm.unitBytes .PSMT4)).length = dst.length := by
          rw [Foundation.load_length, length, Nat.zero_add, Nat.one_mul]
        rw [visit_one, unit, here, store_full bytes, Nat.zero_add, Nat.one_mul]
        rfl
      · have chunks : ∀ i ≤ n, ∀ s, unitAt (readStep psm vm) (getOffset bp bw psm) psm.xinc sx sy w (j + i) s =
            push (load src ((j + i) * psm.unitBytes) psm.unitBytes) s := by
          intro i bound s
          rw [← held (j + i) (by omega) (by omega), unitAt, readStep_paMulti usual]
          rfl
        have bytes : (load src (j * psm.unitBytes) ((n + 1) * psm.unitBytes)).length = dst.length := by
          rw [Foundation.load_length, length]
        rw [visit_push (fun i => load src (i * psm.unitBytes) psm.unitBytes) chunks, load_units, push, store_full bytes]
        rfl

variable {dsts : List (List (BitVec 8))}

theorem readCalls_eq (boundaries : ∀ dst ∈ dsts, psm.unitBytes ∣ dst.length)
    (whole : psm.xinc ∣ w) (wide : 0 < w) (short : psm = .PSMT4 → ∀ dst ∈ dsts, dst.length ≤ 1) (j : Nat)
    (held : ∀ i, j ≤ i → i < j + (dsts.map List.length).sum / psm.unitBytes →
      getUnit psm vm (firstAddr psm bp bw sx sy w i) (secondAddr psm bp bw sx sy w i) =
        load src (i * psm.unitBytes) psm.unitBytes) :
    readCalls psm bp bw sx sy w h vm dsts (sx + j * psm.xinc % w) (sy + j * psm.xinc / w) =
      some (load src (j * psm.unitBytes) (dsts.map List.length).sum) := by
  induction dsts generalizing j with
  | nil => rfl
  | cons dst rest ih =>
      obtain ⟨n, length⟩ := boundaries dst List.mem_cons_self
      rw [Nat.mul_comm] at length
      have total : (n * psm.unitBytes + (rest.map List.length).sum) / psm.unitBytes =
          n + (rest.map List.length).sum / psm.unitBytes := by
        rw [Nat.mul_comm, Nat.mul_add_div psm.unitBytes_pos]
      rw [List.map_cons, List.sum_cons, length, total] at held
      have single : psm = .PSMT4 → n ≤ 1 := by
        intro nibble
        have bound := short nibble dst List.mem_cons_self
        rw [length, nibble] at bound
        exact (Nat.mul_one n).symm.trans_le bound
      have here := visit_read (n := n)
        (fun i low high => held i low (Nat.lt_of_lt_of_le high (Nat.add_le_add_left (Nat.le_add_right n _) j))) length single
      have later := ih (fun dst member => boundaries dst (List.mem_cons_of_mem _ member))
        (fun nibble dst member => short nibble dst (List.mem_cons_of_mem _ member)) (j + n)
        (fun i low high => held i (by omega) (by rw [← Nat.add_assoc]; exact high))
      obtain ⟨s, visited, bytes⟩ := Option.map_eq_some_iff.1 here
      rw [readCalls, length, readImageX_eq whole wide, visited, Option.map_some, Option.bind_some]
      dsimp only
      rw [later, Option.map_some, bytes, Nat.add_mul, ← Foundation.load_add, List.map_cons, List.sum_cons, length]

theorem writeCalls_nothing (nothing : ∀ len ∈ lens, len = 0) {tx ty : Nat} :
    writeCalls psm bp bw sx sy w h lens vm tx ty src = some vm := by
  induction lens generalizing src with
  | nil => rfl
  | cons len rest ih =>
      rw [writeCalls, nothing len List.mem_cons_self]
      exact ih fun len member => nothing len (List.mem_cons_of_mem _ member)

theorem readCalls_nothing (nothing : ∀ dst ∈ dsts, dst = []) {tx ty : Nat} :
    readCalls psm bp bw sx sy w h vm dsts tx ty = some [] := by
  induction dsts with
  | nil => rfl
  | cons dst rest ih =>
      rw [readCalls, nothing dst List.mem_cons_self]
      exact congrArg (Option.map ([] ++ ·)) (ih fun dst member => nothing dst (List.mem_cons_of_mem _ member))

theorem roundTrips_of_nothing (nothing : lens.sum = 0)
    (read_whole : (dsts.map List.length).sum = lens.sum) : RoundTrips psm bp bw sx sy w h vm src lens dsts := by
  unfold RoundTrips
  rw [writeCalls_nothing (List.sum_eq_zero_iff_forall_eq_nat.1 nothing), Option.bind_some, nothing]
  apply readCalls_nothing
  intro dst member
  rw [nothing] at read_whole
  exact List.eq_nil_of_length_eq_zero (List.sum_eq_zero_iff_forall_eq_nat.1 read_whole _ (List.mem_map_of_mem member))

theorem roundTrips_of_whole (distinct : Distinct psm bp bw sx sy w h)
    (whole : psm.xinc ∣ w) (short : psm = .PSMT4 → ∀ dst ∈ dsts, dst.length ≤ 1)
    (written_whole : lens.sum * 8 = w * h * psm.trbpp) (read_whole : (dsts.map List.length).sum = lens.sum)
    (write_boundaries : ∀ len ∈ lens, psm.unitBytes ∣ len) (read_boundaries : ∀ dst ∈ dsts, psm.unitBytes ∣ dst.length) :
    RoundTrips psm bp bw sx sy w h vm src lens dsts := by
  rcases Nat.eq_zero_or_pos w with rfl | wide
  · exact roundTrips_of_nothing (by omega) read_whole
  · obtain ⟨m, units⟩ : psm.unitBytes ∣ lens.sum := List.dvd_sum write_boundaries
    have count : lens.sum / psm.unitBytes = m := by rw [units, Nat.mul_div_cancel_left m psm.unitBytes_pos]
    have pixels : m * psm.xinc = w * h := by
      have positive : 0 < psm.trbpp := by cases psm <;> decide
      apply Nat.eq_of_mul_eq_mul_right positive
      calc m * psm.xinc * psm.trbpp = m * (psm.unitBytes * 8) := by rw [psm.unitBytes_eq]; ring
        _ = lens.sum * 8 := by rw [units]; ring
        _ = w * h * psm.trbpp := written_whole
    have start : sx + 0 * psm.xinc % w = sx ∧ sy + 0 * psm.xinc / w = sy := by simp
    have pointer : (fun i => src (0 * psm.unitBytes + i)) = src := by
      funext i
      rw [Nat.zero_mul, Nat.zero_add]
    have writing : writeCalls psm bp bw sx sy w h lens (written psm bp bw sx sy w vm src 0) (sx + 0 * psm.xinc % w)
        (sy + 0 * psm.xinc / w) (fun i => src (0 * psm.unitBytes + i)) =
        some (written psm bp bw sx sy w vm src (0 + lens.sum / psm.unitBytes)) :=
      writeCalls_eq write_boundaries whole wide 0
    rw [start.1, start.2, pointer, Nat.zero_add, count] at writing
    have reading : readCalls psm bp bw sx sy w h (written psm bp bw sx sy w vm src m) dsts (sx + 0 * psm.xinc % w)
        (sy + 0 * psm.xinc / w) = some (load src (0 * psm.unitBytes) (dsts.map List.length).sum) := by
      apply readCalls_eq read_boundaries whole wide short
      intro i _ high
      rw [read_whole, count, Nat.zero_add] at high
      exact getUnit_written distinct whole high (Nat.le_of_eq pixels)
    rw [start.1, start.2, Nat.zero_mul, read_whole] at reading
    rw [written] at writing
    unfold RoundTrips
    rw [writing, Option.bind_some, reading]

end

end Pcsx2.GsMemory
