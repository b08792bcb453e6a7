import Pcsx2.GsMemory.RoundTrip

/-!
# Two pixels in a byte

What the calls do with the 4-bit formats where they do not return the bytes written.
-/

namespace Pcsx2.GsMemory

open GSOffset (PAHelper)
open Foundation (load)

/-! ## Invariants of the loop -/

variable {pa : PAHelper} {fuel len remX y : Nat}

section

variable {σ : Type} {fn : PAHelper → Nat → σ → Option σ} {off : GSOffset} {xinc sx w : Nat}

theorem forPixels_keeps {P : σ → Prop} (keeps : ∀ pa x s s', P s → fn pa x s = some s' → P s')
    {stop : Nat} {s s' : σ} (holds : P s) (done : forPixels fn pa stop xinc s = some s') : P s' := by
  unfold forPixels at done
  generalize List.range ((stop + xinc - 1) / xinc) = steps at done
  induction steps generalizing s with
  | nil =>
      cases done
      exact holds
  | cons i steps ih =>
      rw [List.foldlM_cons] at done
      obtain ⟨t, step, rest⟩ := Option.bind_eq_some_iff.1 done
      exact ih (keeps _ _ _ _ holds step) rest

variable {r : σ × Nat × Nat}

theorem readWriteLoop_keeps {P : σ → Prop} (keeps : ∀ pa x s s', P s → fn pa x s = some s' → P s')
    {s : σ} (holds : P s)
    (done : readWriteLoop fn xinc sx w off fuel len remX y pa s = some r) : P r.1 := by
  induction fuel generalizing len remX y pa s with
  | zero => cases done
  | succ fuel ih =>
      unfold readWriteLoop at done
      split at done
      · cases done
        exact holds
      · obtain ⟨t, row, rest⟩ := Option.bind_eq_some_iff.1 done
        have kept := forPixels_keeps keeps holds row
        split at rest
        · exact ih kept rest
        · exact ih kept rest

theorem forPixels_count {count : σ → Nat} (counts : ∀ pa x s s', fn pa x s = some s' → count s' = count s + 1)
    {stop : Nat} {s s' : σ} (done : forPixels fn pa stop xinc s = some s') :
    count s' = count s + (stop + xinc - 1) / xinc := by
  unfold forPixels at done
  have steps (n : Nat) : ∀ {s'}, (List.range n).foldlM (fun s i => fn pa (i * xinc) s) s = some s' →
      count s' = count s + n := by
    induction n with
    | zero =>
        intro s' done
        cases done
        rfl
    | succ n ih =>
        intro s' done
        rw [List.range_succ, List.foldlM_append] at done
        obtain ⟨t, first, last⟩ := Option.bind_eq_some_iff.1 done
        rw [List.foldlM_cons] at last
        obtain ⟨u, step, same⟩ := Option.bind_eq_some_iff.1 last
        cases same
        rw [counts _ _ _ _ step, ih first, Nat.add_assoc]
  exact steps _ done

/-- Two pixels at a time, a byte is counted for each pixel pair, and one more for a row that ends between two. -/
theorem readWriteLoop_count (count : σ → Nat) (counts : ∀ pa x s s', fn pa x s = some s' → count s' = count s + 1)
    {s : σ}
    (done : readWriteLoop fn 2 sx w off fuel len remX y pa s = some r) :
    2 * count s + len ≤ 2 * count r.1 ∧ (remX % 2 = 1 → remX ≤ len → 2 * count s + len + 1 ≤ 2 * count r.1) := by
  induction fuel generalizing len remX y pa s with
  | zero => cases done
  | succ fuel ih =>
      unfold readWriteLoop at done
      split at done
      · cases done
        dsimp only
        omega
      · obtain ⟨t, row, rest⟩ := Option.bind_eq_some_iff.1 done
        have here := forPixels_count counts row
        split at rest
        · have later := (ih rest).1
          omega
        · have later := (ih rest).1
          omega

theorem readWriteLoop_short {s : σ} (short : len < remX)
    (done : readWriteLoop fn xinc sx w off fuel len remX y pa s = some r) : r.2 = (remX - len, y) := by
  cases fuel with
  | zero => cases done
  | succ fuel =>
      unfold readWriteLoop at done
      split at done
      · next nothing =>
          cases done
          rw [nothing]
          rfl
      · obtain ⟨t, row, rest⟩ := Option.bind_eq_some_iff.1 done
        have stop : min remX len = len := by omega
        have unfinished : remX - len ≠ 0 := by omega
        rw [stop, if_neg unfinished, Nat.sub_self] at rest
        cases fuel with
        | zero => cases rest
        | succ fuel =>
            rw [readWriteLoop, if_pos rfl] at rest
            cases rest
            rfl

end

/-! ## Stores beyond the buffer -/

theorem push_fits {bytes : List (BitVec 8)} {s s' : Reading} (done : push bytes s = some s') :
    s'.1.length = s.1.length ∧ s'.2 = s.2 + bytes.length ∧ s'.2 ≤ s'.1.length := by
  obtain ⟨dst, p⟩ := s
  unfold push store at done
  dsimp only at done
  split at done
  · next fits =>
      cases done
      have same : (dst.take p ++ bytes ++ dst.drop (p + bytes.length)).length = dst.length := by
        rw [List.length_append, List.length_append, List.length_take, List.length_drop]
        omega
      exact ⟨same, rfl, same ▸ fits⟩
  · cases done

section

variable {psm : Psm} {bp bw sx sy w h : Nat} {vm : Vm}

theorem nibbles_two (nibbles : psm.nibbles) : psm.xinc = 2 ∧ psm.unitBytes = 1 ∧ psm.trbpp ≠ 32 := by
  have two : psm.xinc = 2 := if_pos nibbles
  refine ⟨two, ?_, fun wide => absurd (wide.symm.trans nibbles) (by decide)⟩
  unfold Psm.unitBytes
  rw [two, nibbles]

variable {dst : List (BitVec 8)}

theorem readImageX_nibbles {tx ty n : Nat} (nibbles : psm.nibbles) (bytes : n ≠ 0) :
    readImageX vm tx ty dst n (buffers psm bp bw) (positions sx sy) ⟨w, h⟩ =
      (readWriteHelper (readStep psm vm) tx ty (n * 2) 2 sx w (getOffset bp bw psm) (dst, 0)).map
        fun s => (s.1.1, s.2.1, s.2.2) := by
  obtain ⟨two, single, narrow⟩ := nibbles_two nibbles
  have call : readImageX vm tx ty dst (n * psm.unitBytes) (buffers psm bp bw) (positions sx sy) ⟨w, h⟩ =
      (readWriteHelper (readStep psm vm) tx ty (n * psm.xinc) psm.xinc sx w (getOffset bp bw psm) (dst, 0)).map
        fun s => (s.1.1, s.2.1, s.2.2) := readImageX_helper bytes narrow
  rw [single, Nat.mul_one, two] at call
  exact call

theorem readStep_byte (nibbles : psm.nibbles) (usual : psm ≠ .PSMT4) (pa : PAHelper) (x : Nat) :
    ∃ byte, readStep psm vm pa x = push [byte] := by
  cases psm with
  | PSMT4 => exact absurd rfl usual
  | PSMT4HL => exact ⟨_, rfl⟩
  | PSMT4HH => exact ⟨_, rfl⟩
  | _ => exact absurd nibbles (by decide)

variable {tx ty : Nat}

/-- A call that starts with an odd number of pixels left in the row and finishes it stores more than its length. -/
theorem readImageX_overflow (nibbles : psm.nibbles) (usual : psm ≠ .PSMT4)
    (odd : (sx + w - tx) % 2 = 1) (finishes : sx + w - tx ≤ dst.length * 2) :
    readImageX vm tx ty dst dst.length (buffers psm bp bw) (positions sx sy) ⟨w, h⟩ = none := by
  rw [readImageX_nibbles nibbles (by omega)]
  unfold readWriteHelper
  dsimp only
  cases loop : readWriteLoop (readStep psm vm) 2 sx w (getOffset bp bw psm) (dst.length * 2 + 2) (dst.length * 2)
    (sx + w - tx) ty ((getOffset bp bw psm).paMulti tx ty) (dst, 0) with
  | none => rfl
  | some r =>
      have step : ∀ pa x s s', readStep psm vm pa x s = some s' →
          s'.1.length = s.1.length ∧ s'.2 = s.2 + 1 ∧ s'.2 ≤ s'.1.length := by
        intro pa x s s' done
        obtain ⟨byte, stored⟩ := readStep_byte nibbles usual pa x
        rw [stored] at done
        exact push_fits done
      have counted := (readWriteLoop_count Prod.snd (fun pa x s s' done => (step pa x s s' done).2.1) loop).2
        odd finishes
      have bounded := readWriteLoop_keeps (P := fun s : Reading => s.1.length = dst.length ∧ s.2 ≤ s.1.length)
        (fun pa x s s' holds done => ⟨(step pa x s s' done).1.trans holds.1, (step pa x s s' done).2.2⟩)
        ⟨rfl, Nat.zero_le _⟩ loop
      dsimp only at counted bounded
      omega

theorem readImageX_within (nibbles : psm.nibbles)
    (short : dst.length * 2 < sx + w - tx) {r : List (BitVec 8) × Nat × Nat}
    (done : readImageX vm tx ty dst dst.length (buffers psm bp bw) (positions sx sy) ⟨w, h⟩ = some r) :
    r.2 = (tx + dst.length * 2, ty) := by
  by_cases bytes : dst.length = 0
  · rw [bytes] at done
    cases done
    rw [bytes]
    rfl
  · rw [readImageX_nibbles nibbles bytes] at done
    unfold readWriteHelper at done
    dsimp only at done
    rw [Option.map_map] at done
    obtain ⟨s, loop, same⟩ := Option.map_eq_some_iff.1 done
    have place := readWriteLoop_short short loop
    subst same
    have column : sx + w - (sx + w - tx - dst.length * 2) = tx + dst.length * 2 := by omega
    simp only [Function.comp_apply, place, column]

theorem readCalls_overflow {dsts : List (List (BitVec 8))} (nibbles : psm.nibbles) (usual : psm ≠ .PSMT4)
    (odd : (sx + w - tx) % 2 = 1) (finishes : sx + w - tx ≤ (dsts.map List.length).sum * 2) :
    readCalls psm bp bw sx sy w h vm dsts tx ty = none := by
  induction dsts generalizing tx with
  | nil =>
      rw [List.map_nil, List.sum_nil] at finishes
      omega
  | cons dst rest ih =>
      rw [List.map_cons, List.sum_cons] at finishes
      rw [readCalls]
      by_cases last : sx + w - tx ≤ dst.length * 2
      · rw [readImageX_overflow nibbles usual odd last]
        rfl
      · cases call : readImageX vm tx ty dst dst.length (buffers psm bp bw) (positions sx sy) ⟨w, h⟩ with
        | none => rfl
        | some r =>
            obtain ⟨bytes, x, y⟩ := r
            have place := readImageX_within nibbles (by omega) call
            cases place
            rw [Option.bind_some]
            dsimp only
            rw [ih (by omega) (by omega)]
            rfl

/-! ## The pointer that stays -/

theorem read4_keeps {x : Nat} {s s' : Reading}
    (holds : s.2 = 0 ∧ s.1.length = dst.length ∧ s.1.drop 1 = dst.drop 1) (done : read4 vm pa x s = some s') :
    s'.2 = 0 ∧ s'.1.length = dst.length ∧ s'.1.drop 1 = dst.drop 1 := by
  obtain ⟨buffer, pb⟩ := s
  obtain ⟨pointer, length, tail⟩ := holds
  dsimp only at pointer length tail
  subst pointer
  unfold read4 store at done
  dsimp only at done
  split at done
  · next fits =>
      cases done
      rw [List.length_singleton] at fits
      refine ⟨rfl, ?_, ?_⟩
      · dsimp only
        rw [List.take_zero, List.nil_append, List.length_append, List.length_singleton, List.length_drop]
        omega
      · dsimp only
        rw [List.take_zero, List.nil_append, List.length_singleton, List.drop_left' (List.length_singleton ..)]
        exact tail
  · cases done

theorem readImageX_first {r : List (BitVec 8) × Nat × Nat}
    (done : readImageX vm tx ty dst dst.length (buffers .PSMT4 bp bw) (positions sx sy) ⟨w, h⟩ = some r) :
    r.1.length = dst.length ∧ r.1.drop 1 = dst.drop 1 := by
  by_cases bytes : dst.length = 0
  · rw [bytes] at done
    cases done
    exact ⟨rfl, rfl⟩
  · rw [readImageX_nibbles (show Psm.nibbles .PSMT4 from rfl) bytes] at done
    unfold readWriteHelper at done
    dsimp only at done
    rw [Option.map_map] at done
    obtain ⟨s, loop, same⟩ := Option.map_eq_some_iff.1 done
    subst same
    exact (readWriteLoop_keeps (P := fun s : Reading => s.2 = 0 ∧ s.1.length = dst.length ∧ s.1.drop 1 = dst.drop 1)
      (fun _ _ _ _ holds done => read4_keeps holds done) ⟨rfl, rfl, rfl⟩ loop).2

variable (bp bw sx sy w h) in
theorem readCalls_stuck {dsts : List (List (BitVec 8))} (long : ∃ dst ∈ dsts, 2 ≤ dst.length) :
    ∃ p < (dsts.map List.length).sum, ∃ byte, ∀ vm tx ty bytes,
      readCalls .PSMT4 bp bw sx sy w h vm dsts tx ty = some bytes → bytes[p]? = some byte := by
  induction dsts with
  | nil =>
      obtain ⟨dst, member, _⟩ := long
      exact absurd member List.not_mem_nil
  | cons dst rest ih =>
      rw [List.map_cons, List.sum_cons]
      by_cases here : 2 ≤ dst.length
      · refine ⟨1, by omega, dst[1], ?_⟩
        intro vm tx ty bytes done
        obtain ⟨r, call, others⟩ := Option.bind_eq_some_iff.1 done
        obtain ⟨length, tail⟩ := readImageX_first call
        obtain ⟨later, _, same⟩ := Option.map_eq_some_iff.1 others
        subst same
        rw [List.getElem?_append_left (by omega)]
        have second := congrArg (·[0]?) tail
        simp only [List.getElem?_drop, Nat.add_zero] at second
        rw [second]
        exact List.getElem?_eq_getElem here
      · have further : ∃ dst ∈ rest, 2 ≤ dst.length := by
          obtain ⟨other, member, size⟩ := long
          rcases List.mem_cons.1 member with rfl | member
          · exact absurd size here
          · exact ⟨other, member, size⟩
        obtain ⟨p, bound, byte, stuck⟩ := ih further
        refine ⟨dst.length + p, by omega, byte, ?_⟩
        intro vm tx ty bytes done
        obtain ⟨r, call, others⟩ := Option.bind_eq_some_iff.1 done
        obtain ⟨length, _⟩ := readImageX_first call
        obtain ⟨later, rest_done, same⟩ := Option.map_eq_some_iff.1 others
        subst same
        rw [List.getElem?_append_right (by omega), length, Nat.add_sub_cancel_left]
        exact stuck _ _ _ _ rest_done

/-! ## Single bytes of an odd width -/

variable (bp bw) in
def pairAt (vm : Vm) (x y : Nat) : BitVec 8 :=
  (readPixel4 vm ((getOffset bp bw .PSMT4).pa x y)).setWidth 8 |||
    ((readPixel4 vm ((getOffset bp bw .PSMT4).pa (x + 1) y)).setWidth 8 <<< 4)

theorem read4_pairAt {x y : Nat} {byte : BitVec 8} :
    read4 vm ((getOffset bp bw .PSMT4).paMulti x y) 0 ([byte], 0) = some ([pairAt bp bw vm x y], 0) := by
  unfold read4
  rw [GSOffset.paMulti_value, GSOffset.paMulti_value]
  rfl

variable (bp bw sx sy w) in
/-- What a call for one byte leaves that starts at pixel `k`: where the row ends after one pixel, the second store is
the one that lasts. -/
def byteAt (vm : Vm) (k : Nat) : BitVec 8 :=
  if k % w + 1 < w then pairAt bp bw vm (sx + k % w) (sy + k / w) else pairAt bp bw vm sx (sy + k / w + 1)

theorem forPixels_single {σ : Type} {fn : PAHelper → Nat → σ → Option σ} {stop : Nat} {s : σ}
    (pair : stop = 1 ∨ stop = 2) : forPixels fn pa stop 2 s = fn pa 0 s := by
  have once : forPixels fn pa stop 2 s = (fn pa (0 * 2) s).bind some := by rcases pair with rfl | rfl <;> rfl
  rw [once, Nat.zero_mul, Option.bind_fun_some]

theorem readImageX_single {k : Nat} {byte : BitVec 8} (wide : 0 < w) :
    readImageX vm (sx + k % w) (sy + k / w) [byte] 1 (buffers .PSMT4 bp bw) (positions sx sy) ⟨w, h⟩ =
      some ([byteAt bp bw sx sy w vm k], sx + (k + 2) % w, sy + (k + 2) / w) := by
  have column := Nat.mod_lt k wide
  have number := Nat.div_add_mod k w
  have remaining : sx + w - (sx + k % w) = w - k % w := by omega
  rw [readImageX_nibbles (show Psm.nibbles .PSMT4 from rfl) Nat.one_ne_zero]
  unfold readWriteHelper byteAt
  dsimp only
  rw [remaining, readWriteLoop, if_neg (by decide)]
  change Option.map _ (Option.map _ ((forPixels (read4 vm) _ _ _ _).bind _)) = _
  by_cases inside : k % w + 1 < w
  · -- both pixels lie in the row
    have stop : min (w - k % w) (1 * 2) = 2 := by omega
    rw [stop, forPixels_single (.inr rfl), read4_pairAt, Option.bind_some, if_pos inside]
    by_cases ends : k % w + 2 = w
    · have next : k + 2 = w * (k / w + 1) := by
        rw [Nat.mul_succ]
        omega
      have finished : w - k % w - 2 = 0 := by omega
      have back : sx + w - w = sx := by omega
      rw [if_pos finished, readWriteLoop, if_pos (by decide), next, Nat.mul_mod_right, Nat.mul_div_cancel_left _ wide]
      simp only [Option.map_some, back]
      rfl
    · have next : k + 2 = w * (k / w) + (k % w + 2) := by omega
      have unfinished : w - k % w - 2 ≠ 0 := by omega
      have place : sx + w - (w - k % w - 2) = sx + (k % w + 2) := by omega
      have later : k % w + 2 < w := by omega
      have modulus : (k + 2) % w = k % w + 2 := by rw [next, Nat.mul_add_mod, Nat.mod_eq_of_lt later]
      have quotient : (k + 2) / w = k / w := by rw [next, Nat.mul_add_div wide, Nat.div_eq_of_lt later, Nat.add_zero]
      rw [if_neg unfinished, readWriteLoop, if_pos (by decide), modulus, quotient]
      simp only [Option.map_some, place]
  · -- the row ends after the first pixel
    have stop : min (w - k % w) (1 * 2) = 1 := by omega
    have finished : w - k % w - 1 = 0 := by omega
    have again : min w (1 * 2 - 1) = 1 := by omega
    rw [stop, forPixels_single (.inl rfl), read4_pairAt, Option.bind_some, if_pos finished, if_neg inside, readWriteLoop,
      if_neg (by decide)]
    change Option.map _ (Option.map _ ((forPixels (read4 vm) _ _ _ _).bind _)) = _
    rw [again, forPixels_single (.inl rfl), read4_pairAt, Option.bind_some]
    by_cases single : w = 1
    · subst single
      rw [if_pos (by decide), readWriteLoop, if_pos (by decide), Nat.mod_one, Nat.div_one, Nat.div_one]
      simp only [Option.map_some, Nat.add_sub_cancel]
      rfl
    · have next : k + 2 = w * (k / w + 1) + 1 := by
        rw [Nat.mul_succ]
        omega
      have unfinished : w - 1 ≠ 0 := by omega
      have place : sx + w - (w - 1) = sx + 1 := by omega
      have second : 1 < w := by omega
      have modulus : (k + 2) % w = 1 := by rw [next, Nat.mul_add_mod, Nat.mod_eq_of_lt second]
      have quotient : (k + 2) / w = k / w + 1 := by
        rw [next, Nat.mul_add_div wide, Nat.div_eq_of_lt second, Nat.add_zero]
      rw [if_neg unfinished, readWriteLoop, if_pos (by decide), modulus, quotient]
      simp only [Option.map_some, place, Nat.add_assoc]

theorem singleton_or_nil (short : dst.length ≤ 1) : dst = [] ∨ ∃ byte, dst = [byte] := by
  match dst, short with
  | [], _ => exact .inl rfl
  | [byte], _ => exact .inr ⟨byte, rfl⟩

variable (bp bw sx sy h vm) in
theorem readCalls_singles {dsts : List (List (BitVec 8))} (wide : 0 < w) (short : ∀ dst ∈ dsts, dst.length ≤ 1) (k : Nat) :
    readCalls .PSMT4 bp bw sx sy w h vm dsts (sx + k % w) (sy + k / w) =
      some ((List.range (dsts.map List.length).sum).map fun i => byteAt bp bw sx sy w vm (k + 2 * i)) := by
  induction dsts generalizing k with
  | nil => rfl
  | cons dst rest ih =>
      have others := fun dst member => short dst (List.mem_cons_of_mem _ member)
      rw [List.map_cons, List.sum_cons, readCalls]
      rcases singleton_or_nil (short dst List.mem_cons_self) with rfl | ⟨byte, rfl⟩
      · rw [List.length_nil, Nat.zero_add]
        exact congrArg (Option.map ([] ++ ·)) (ih others k)
      · have count : [byte].length + (rest.map List.length).sum = (rest.map List.length).sum + 1 := Nat.add_comm ..
        rw [List.length_singleton, readImageX_single wide, Option.bind_some]
        dsimp only
        rw [ih others (k + 2), Nat.add_comm 1, List.range_succ_eq_map, Option.map_some, List.map_cons, List.map_map]
        have step : (fun i => byteAt bp bw sx sy w vm (k + 2 + 2 * i)) =
            (fun i => byteAt bp bw sx sy w vm (k + 2 * i)) ∘ Nat.succ := by
          funext i
          have same : k + 2 + 2 * i = k + 2 * i.succ := by omega
          rw [Function.comp_apply, same]
        rw [step]
        rfl

theorem pairAt_low (x y : Nat) : (pairAt bp bw vm x y).getLsbD 0 =
    (readPixel4 vm ((getOffset bp bw .PSMT4).pa x y)).getLsbD 0 := by
  simp [pairAt]

theorem pairAt_high (x y : Nat) : (pairAt bp bw vm x y).getLsbD 4 =
    (readPixel4 vm ((getOffset bp bw .PSMT4).pa (x + 1) y)).getLsbD 0 := by
  simp [pairAt, readPixel4]

variable (bp bw sx sy vm) in
theorem byteAt_shared {n : Nat} (odd : w = 2 * n + 1) (several : 1 ≤ n) :
    (byteAt bp bw sx sy w vm (2 * n)).getLsbD 4 = (byteAt bp bw sx sy w vm (2 * (n + 1))).getLsbD 0 := by
  have last : 2 * n % w = 2 * n ∧ 2 * n / w = 0 := ⟨Nat.mod_eq_of_lt (by omega), Nat.div_eq_of_lt (by omega)⟩
  have next : 2 * (n + 1) = w * 1 + 1 := by omega
  have first : 2 * (n + 1) % w = 1 ∧ 2 * (n + 1) / w = 1 := by
    rw [next, Nat.mul_add_mod, Nat.mul_add_div (by omega), Nat.mod_eq_of_lt (by omega), Nat.div_eq_of_lt (by omega)]
    exact ⟨rfl, rfl⟩
  unfold byteAt
  rw [last.1, last.2, first.1, first.2, if_neg (by omega), if_pos (by omega), pairAt_high, pairAt_low]

/-! ### One pixel a row -/

theorem readWriteLoop_narrow {σ : Type} {fn : PAHelper → Nat → σ → Option σ} {off : GSOffset}
    {s : σ} (narrow : remX ≤ 1) : readWriteLoop fn 2 sx 1 off fuel len remX y pa s =
      readWriteLoop fn 1 sx 1 off fuel len remX y pa s := by
  induction fuel generalizing len remX y pa s with
  | zero => rfl
  | succ fuel ih =>
      have stop : min remX len = 0 ∨ min remX len = 1 := by omega
      have row : forPixels fn pa (min remX len) 2 s = forPixels fn pa (min remX len) 1 s := by
        rcases stop with none | one
        · rw [none]
          rfl
        · rw [one]
          rfl
      unfold readWriteLoop
      dsimp only
      rw [row]
      split
      · rfl
      · congr 1
        funext s
        split
        · exact ih (Nat.le_refl 1)
        · exact ih (by omega)

variable (bp bw sx sy h) in
theorem writeImageX_narrow (vm : Vm) (src : Bytes) (row : Nat) {n : Nat} (bytes : n ≠ 0) :
    ∃ before, writeImageX vm sx (sy + row) src n (buffers .PSMT4 bp bw) (positions sx sy) ⟨1, h⟩ =
      some (putUnit .PSMT4 src before ((getOffset bp bw .PSMT4).pa sx (sy + (row + (2 * n - 1))))
        ((getOffset bp bw .PSMT4).pa (sx + 1) (sy + (row + (2 * n - 1)))) (2 * n - 1), sx, sy + (row + 2 * n)) := by
  obtain ⟨two, unit, _⟩ := nibbles_two (show Psm.nibbles .PSMT4 from rfl)
  have call : writeImageX vm sx (sy + row) src (n * Psm.unitBytes .PSMT4) (buffers .PSMT4 bp bw) (positions sx sy)
      ⟨1, h⟩ = (readWriteHelper (writeStep .PSMT4 src) sx (sy + row) (n * Psm.xinc .PSMT4) (Psm.xinc .PSMT4) sx 1
        (getOffset bp bw .PSMT4) (vm, 0)).map fun s => (s.1.1, s.2.1, s.2.2) := writeImageX_helper bytes
  rw [two, unit, Nat.mul_one] at call
  have narrow : readWriteHelper (writeStep .PSMT4 src) sx (sy + row) (n * 2) 2 sx 1 (getOffset bp bw .PSMT4) (vm, 0) =
      readWriteHelper (writeStep .PSMT4 src) sx (sy + row) (n * 2) 1 sx 1 (getOffset bp bw .PSMT4) (vm, 0) := by
    unfold readWriteHelper
    dsimp only
    rw [readWriteLoop_narrow (by omega)]
  have start : sx + row * 1 % 1 = sx ∧ sy + row * 1 / 1 = sy + row ∧ n * 2 * 1 = n * 2 := by omega
  have rows : readWriteHelper (writeStep .PSMT4 src) (sx + row * 1 % 1) (sy + row * 1 / 1) (n * 2 * 1) 1 sx 1
      (getOffset bp bw .PSMT4) (vm, 0) =
      (visit (writeStep .PSMT4 src) (getOffset bp bw .PSMT4) 1 sx sy 1 row (n * 2) (vm, 0)).map
        fun s => (s, sx + (row + n * 2) * 1 % 1, sy + (row + n * 2) * 1 / 1) :=
    readWriteHelper_eq (writeStep_shifts _ _ _) Nat.one_pos (Nat.one_dvd 1) Nat.one_pos (vm, 0)
  have earlier (m : Nat) : ∃ before, visit (writeStep .PSMT4 src) (getOffset bp bw .PSMT4) 1 sx sy 1 row m (vm, 0) =
      some (before, m) := by
    induction m with
    | zero => exact ⟨vm, rfl⟩
    | succ m ih =>
        obtain ⟨before, visited⟩ := ih
        rw [visit_add, visited, Option.bind_some, visit_one, unitAt, writeStep_paMulti]
        exact ⟨_, rfl⟩
  obtain ⟨before, visited⟩ := earlier (2 * n - 1)
  have count : n * 2 = 2 * n - 1 + 1 := by omega
  have last : (row + (2 * n - 1)) * 1 % 1 = 0 ∧ (row + (2 * n - 1)) * 1 / 1 = row + (2 * n - 1) := by omega
  have place : sx + (row + n * 2) * 1 % 1 = sx ∧ sy + (row + n * 2) * 1 / 1 = sy + (row + 2 * n) := by omega
  rw [place.1, place.2, start.1, start.2.1, start.2.2] at rows
  refine ⟨before, ?_⟩
  rw [call, narrow, rows, count, visit_add, visited, Option.bind_some, visit_one, unitAt, last.1, last.2, writeStep_paMulti]
  rfl

theorem readPixel4_putUnit {a b p : Nat} {src : Bytes} (zero : src p = 0) :
    readPixel4 (putUnit .PSMT4 src vm a b p) a = 0 := by
  have first : ((src p &&& 0xf).setWidth 32 &&& 0x0f : BitVec 32) = 0 := by rw [zero]; rfl
  have second : ((src p >>> 4).setWidth 32 &&& 0x0f : BitVec 32) = 0 := by rw [zero]; rfl
  unfold putUnit
  dsimp only
  by_cases same : b % (2 * m_vmsize) = a % (2 * m_vmsize)
  · rw [readPixel4_writePixel4 same, second]
  · rw [readPixel4_writePixel4_ne same, readPixel4_writePixel4 rfl, first]

variable (bp bw sx sy h vm) in
theorem writeCalls_narrow {lens : List Nat} {src : Bytes} (row : Nat) {total : Nat} (sum : lens.sum = total) (bytes : total ≠ 0)
    (behind : ∀ i, total ≤ i → src i = 0) :
    ∃ after, writeCalls .PSMT4 bp bw sx sy 1 h lens vm sx (sy + row) src = some after ∧
      readPixel4 after ((getOffset bp bw .PSMT4).pa sx (sy + (row + (2 * total - 1)))) = 0 := by
  induction lens generalizing vm src row total with
  | nil => exact absurd sum.symm bytes
  | cons len rest ih =>
      rw [List.sum_cons] at sum
      by_cases none : len = 0
      · subst none
        obtain ⟨after, done, zero⟩ := ih vm row (by omega : rest.sum = total) bytes behind
        refine ⟨after, ?_, zero⟩
        have same : (fun i => src (0 + i)) = src := by
          funext i
          rw [Nat.zero_add]
        rw [writeCalls, same]
        exact done
      · obtain ⟨before, call⟩ := writeImageX_narrow bp bw sx sy h vm src row none
        rw [writeCalls, call, Option.bind_some]
        dsimp only
        by_cases last : rest.sum = 0
        · have nothing := List.sum_eq_zero_iff_forall_eq_nat.1 last
          have whole : len = total := by omega
          subst whole
          refine ⟨_, writeCalls_nothing nothing, readPixel4_putUnit (behind _ (by omega))⟩
        · obtain ⟨after, done, zero⟩ := ih _ (row + 2 * len)
            (by omega : rest.sum = total - len) (by omega) (fun i high => behind (len + i) (by omega))
          have place : row + 2 * len + (2 * (total - len) - 1) = row + (2 * total - 1) := by omega
          rw [place] at zero
          exact ⟨after, done, zero⟩

theorem byte_of_load {n i : Nat} {f : Nat → BitVec 8} {src : Bytes} (equal : some ((List.range n).map f) = some (load src 0 n))
    (bound : i < n) : f i = src i := by
  have same := List.map_inj_left.1 (Option.some.inj equal) i (List.mem_range.2 bound)
  rw [Nat.zero_add] at same
  exact same

variable (bp bw sx sy vm) in
theorem odd_width_fails {lens : List Nat} {dsts : List (List (BitVec 8))} (nibbles : psm.nibbles) (odd : w % 2 = 1)
    (tall : h ≠ 0) (written_whole : lens.sum * 8 = w * h * psm.trbpp)
    (read_whole : (dsts.map List.length).sum = lens.sum) (short : psm = .PSMT4 → ∀ dst ∈ dsts, dst.length ≤ 1) :
    ∃ src, ¬ RoundTrips psm bp bw sx sy w h vm src lens dsts := by
  have bits : psm.trbpp = 4 := nibbles
  have pixels : lens.sum * 2 = w * h := by
    rw [bits] at written_whole
    omega
  have wide : w ≤ w * h := Nat.le_mul_of_pos_right w (Nat.pos_of_ne_zero tall)
  have start : sx + 0 % w = sx ∧ sy + 0 / w = sy := by simp
  by_cases usual : psm = .PSMT4
  · subst usual
    have singles : ∀ vm, readCalls .PSMT4 bp bw sx sy w h vm dsts sx sy =
        some ((List.range lens.sum).map fun i => byteAt bp bw sx sy w vm (0 + 2 * i)) := by
      intro vm
      have reads := readCalls_singles bp bw sx sy h vm (by omega : 0 < w)
        (short rfl) 0
      rw [start.1, start.2, read_whole] at reads
      exact reads
    by_cases narrow : w = 1
    · -- the last byte is read from the last row, written from beyond the data
      subst narrow
      refine ⟨fun i => if i < lens.sum then 0xff else 0, ?_⟩
      intro trips
      obtain ⟨after, done, zero⟩ := writeCalls_narrow bp bw sx sy h vm 0 rfl (by omega : lens.sum ≠ 0) (fun i high => if_neg (Nat.not_lt.2 high))
      rw [Nat.add_zero] at done
      unfold RoundTrips at trips
      rw [done, Option.bind_some, singles] at trips
      have last := byte_of_load trips (by omega : lens.sum - 1 < lens.sum)
      have low := congrArg (·.getLsbD 0) last
      have row : 0 + 2 * (lens.sum - 1) = 0 + (2 * lens.sum - 1) - 1 := by omega
      have place : sy + (0 + (2 * lens.sum - 1) - 1) / 1 + 1 = sy + (0 + (2 * lens.sum - 1)) := by omega
      rw [byteAt, if_neg (by omega), pairAt_low, row, place, zero, if_pos (by omega)] at low
      exact absurd low (by decide)
    · -- the byte the first row ends in has its upper pixel in common with the next one
      refine ⟨fun _ => 0xf0, ?_⟩
      intro trips
      obtain ⟨after, done, reads⟩ := Option.bind_eq_some_iff.1 trips
      rw [singles] at reads
      obtain ⟨n, half⟩ : ∃ n, w = 2 * n + 1 := ⟨w / 2, by omega⟩
      have two_rows : 2 * w ≤ lens.sum * 2 := by
        have even : h ≠ 1 := by
          rintro rfl
          omega
        rw [pixels, Nat.mul_comm 2]
        exact Nat.mul_le_mul_left w (by omega)
      have first := byte_of_load reads (by omega : n < lens.sum)
      have second := byte_of_load reads (by omega : n + 1 < lens.sum)
      have shared := byteAt_shared bp bw sx sy after half (by omega)
      rw [Nat.zero_add] at first second
      rw [first, second] at shared
      exact absurd shared (by decide)
  · refine ⟨fun _ => 0, ?_⟩
    intro trips
    obtain ⟨after, done, reads⟩ := Option.bind_eq_some_iff.1 trips
    rw [readCalls_overflow nibbles usual (by omega) (by omega)] at reads
    cases reads

end

/-! ## When a rectangle comes back -/

/-- Writing a rectangle and reading it back returns every byte string if and only if the format is not a 4-bit one, or
the width is even and, for `PSMT4`, each call reads a byte at most. -/
theorem roundTrips_iff (psm : Psm) (bp bw sx sy w h : Nat) (vm : Vm) (lens : List Nat) (dsts : List (List (BitVec 8)))
    (distinct : Distinct psm bp bw sx sy w h) (written_whole : lens.sum * 8 = w * h * psm.trbpp)
    (read_whole : (dsts.map List.length).sum = lens.sum) (write_boundaries : ∀ len ∈ lens, psm.unitBytes ∣ len)
    (read_boundaries : ∀ dst ∈ dsts, psm.unitBytes ∣ dst.length) :
    (∀ src, RoundTrips psm bp bw sx sy w h vm src lens dsts) ↔
      (psm.nibbles → h = 0 ∨ 2 ∣ w) ∧ (psm = .PSMT4 → ∀ dst ∈ dsts, dst.length ≤ 1) := by
  constructor
  · intro trips
    have short : psm = .PSMT4 → ∀ dst ∈ dsts, dst.length ≤ 1 := by
      rintro rfl
      by_contra long
      have longer : ∃ dst ∈ dsts, 2 ≤ dst.length := by
        push Not at long
        exact long
      obtain ⟨p, bound, byte, stuck⟩ := readCalls_stuck bp bw sx sy w h longer
      obtain ⟨after, _, reads⟩ := Option.bind_eq_some_iff.1 (trips fun _ => byte + 1)
      have here := stuck _ _ _ _ reads
      rw [read_whole] at bound
      rw [List.getElem?_eq_getElem (by rw [Foundation.load_length]; exact bound), Foundation.load_getElem] at here
      have different : byte + 1 ≠ byte := by
        intro same
        simp at same
      exact different (Option.some.inj here)
    refine ⟨?_, short⟩
    intro nibbles
    by_contra neither
    obtain ⟨tall, odd⟩ := not_or.1 neither
    obtain ⟨src, fails⟩ := odd_width_fails bp bw sx sy vm nibbles (by omega) tall written_whole
      read_whole short
    exact fails (trips src)
  · rintro ⟨even, short⟩ src
    by_cases empty : psm.nibbles ∧ h = 0
    · rw [empty.2, Nat.mul_zero, Nat.zero_mul] at written_whole
      exact roundTrips_of_nothing (by omega) read_whole
    · have whole : psm.xinc ∣ w := by
        unfold Psm.xinc
        split
        · next nibbles => exact (even nibbles).resolve_left fun zero => empty ⟨nibbles, zero⟩
        · exact Nat.one_dvd w
      exact roundTrips_of_whole distinct whole short written_whole read_whole write_boundaries read_boundaries

/-- Two rows of bytes, written in two calls and read in one. -/
theorem roundTrips_iff_bytes :
    RoundTrips .PSMT8 0 1 0 0 4 2 (fun _ => 0) (fun i => BitVec.ofNat 8 i) [3, 5] [[0, 0, 0, 0, 0, 0, 0, 0]] :=
  (roundTrips_iff .PSMT8 0 1 0 0 4 2 (fun _ => 0) [3, 5] [[0, 0, 0, 0, 0, 0, 0, 0]] (by decide) rfl rfl
    (by decide) (by decide)).2 ⟨nofun, nofun⟩ _

/-- A row of four 4-bit pixels does not come back: both bytes are stored in the first place of the destination. -/
theorem roundTrip_fails : ¬ ∀ (psm : Psm) (bp bw sx sy w h : Nat) (vm : Vm) (lens : List Nat)
    (dsts : List (List (BitVec 8))) (src : Bytes), Distinct psm bp bw sx sy w h → lens.sum * 8 = w * h * psm.trbpp →
    (dsts.map List.length).sum = lens.sum → (∀ len ∈ lens, psm.unitBytes ∣ len) →
    (∀ dst ∈ dsts, psm.unitBytes ∣ dst.length) → RoundTrips psm bp bw sx sy w h vm src lens dsts := by
  intro claim
  have trips := claim .PSMT4 0 1 0 0 4 1 (fun _ => 0) [2] [[0, 0]] (fun i => if i = 0 then 0x21 else 0x43)
    (by decide) rfl rfl (by decide) (by decide)
  unfold RoundTrips at trips
  exact absurd trips (by decide)

end Pcsx2.GsMemory
