import Mathlib.Data.List.Range
import Mathlib.Algebra.Order.Ring.Nat
import Pcsx2.GsMemory.ImageX

/-!
# What the loops visit

The rows of a rectangle put one after the other number its pixels. Both loops visit consecutive units of them.
-/

namespace Pcsx2.GsMemory

open GSOffset (PAHelper)

section

variable {σ : Type} (fn : PAHelper → Nat → σ → Option σ) (off : GSOffset) (xinc sx sy w : Nat)

/-! ## Units -/

/-- The unit of `xinc` pixels with number `j`. -/
def unitAt (j : Nat) : σ → Option σ :=
  fn (off.paMulti (sx + j * xinc % w) (sy + j * xinc / w)) 0

/-- `n` units from number `j` on. -/
def visit (j n : Nat) (s : σ) : Option σ :=
  (List.range' j n).foldlM (fun s i => unitAt fn off xinc sx sy w i s) s

@[simp] theorem visit_zero (j : Nat) (s : σ) : visit fn off xinc sx sy w j 0 s = some s := rfl

theorem visit_succ (j n : Nat) (s : σ) : visit fn off xinc sx sy w j (n + 1) s =
    (unitAt fn off xinc sx sy w j s).bind (visit fn off xinc sx sy w (j + 1) n) := rfl

theorem visit_one (j : Nat) (s : σ) : visit fn off xinc sx sy w j 1 s = unitAt fn off xinc sx sy w j s := by
  rw [visit_succ]
  exact Option.bind_fun_some _

theorem visit_add (j m n : Nat) (s : σ) : visit fn off xinc sx sy w j (m + n) s =
    (visit fn off xinc sx sy w j m s).bind (visit fn off xinc sx sy w (j + m) n) := by
  induction m generalizing j s with
  | zero => rw [Nat.zero_add, visit_zero, Option.bind_some, Nat.add_zero]
  | succ m ih =>
      have next : j + (m + 1) = j + 1 + m := by omega
      rw [Nat.add_right_comm, visit_succ, visit_succ, Option.bind_assoc, next]
      congr 1
      funext s
      exact ih (j + 1) s

/-! ## Rows -/

def Shifts : Prop :=
  ∀ x y i s, fn (off.paMulti x y) i s = fn (off.paMulti (x + i) y) 0 s

variable {fn off xinc sx sy w}
variable (shifts : Shifts fn off)
include shifts

theorem unitAt_row {j row column i : Nat} (start : j * xinc = row * w + column) (inside : column + i * xinc < w) (s : σ) :
    unitAt fn off xinc sx sy w (j + i) s = fn (off.paMulti (sx + column) (sy + row)) (i * xinc) s := by
  have position : (j + i) * xinc = w * row + (column + i * xinc) := by
    rw [Nat.add_mul, start, Nat.mul_comm row]
    omega
  unfold unitAt
  rw [shifts (sx + column), position, Nat.mul_add_mod, Nat.mod_eq_of_lt inside, Nat.mul_add_div (by omega),
    Nat.div_eq_of_lt inside, Nat.add_zero, Nat.add_assoc sx]

theorem forPixels_eq_visit {j row column n : Nat} (positive : 0 < xinc) (start : j * xinc = row * w + column)
    (inside : column + n * xinc ≤ w) (s : σ) :
    forPixels fn (off.paMulti (sx + column) (sy + row)) (n * xinc) xinc s = visit fn off xinc sx sy w j n s := by
  have count : (n * xinc + xinc - 1) / xinc = n := by
    have shape : n * xinc + xinc - 1 = xinc * n + (xinc - 1) := by
      rw [Nat.mul_comm]
      omega
    rw [shape, Nat.mul_add_div positive, Nat.div_eq_of_lt (by omega), Nat.add_zero]
  unfold forPixels visit
  rw [count, List.range'_eq_map_range, List.foldlM_map]
  have agree : ∀ k ≤ n, ∀ s, (List.range k).foldlM
      (fun s i => fn (off.paMulti (sx + column) (sy + row)) (i * xinc) s) s =
      (List.range k).foldlM (fun s i => unitAt fn off xinc sx sy w (j + i) s) s := by
    intro k
    induction k with
    | zero => intro _ s; rfl
    | succ k ih =>
        intro le s
        have before : column + k * xinc < w := by
          have := Nat.mul_le_mul_right xinc le
          rw [Nat.succ_mul] at this
          omega
        rw [List.range_succ, List.foldlM_append, List.foldlM_append, ih (by omega)]
        congr 1
        funext s
        simp only [List.foldlM_cons, List.foldlM_nil, unitAt_row shifts start before]
  exact agree n (Nat.le_refl n) s

/-! ## The rectangle loop -/

theorem readWriteLoop_eq {fuel j row column n : Nat} (positive : 0 < xinc) (whole : xinc ∣ w)
    (start : j * xinc = row * w + column) (inside : column < w) (enough : n * xinc < fuel) (s : σ) :
    readWriteLoop fn xinc sx w off fuel (n * xinc) (w - column) (sy + row) (off.paMulti (sx + column) (sy + row)) s =
      (visit fn off xinc sx sy w j n s).map fun s => (s, w - (j + n) * xinc % w, sy + (j + n) * xinc / w) := by
  induction fuel generalizing j row column n s with
  | zero => omega
  | succ fuel ih =>
      unfold readWriteLoop
      have numbers : (j + n) * xinc = w * row + (column + n * xinc) := by
        rw [Nat.add_mul, start, Nat.mul_comm row]
        omega
      by_cases none : n * xinc = 0
      · have zero : n = 0 := by
          rcases Nat.mul_eq_zero.1 none with zero | zero
          · exact zero
          · omega
        subst zero
        rw [if_pos none, numbers, Nat.zero_mul, Nat.add_zero, Nat.mul_add_mod, Nat.mod_eq_of_lt inside,
          Nat.mul_add_div (by omega), Nat.div_eq_of_lt inside]
        rfl
      · rw [if_neg none]
        dsimp only
        by_cases last : column + n * xinc < w
        · -- the call ends in this row
          have stop : min (w - column) (n * xinc) = n * xinc := by omega
          rw [stop, forPixels_eq_visit shifts positive start (by omega), Nat.sub_self, numbers,
            Nat.mul_add_mod, Nat.mod_eq_of_lt last, Nat.mul_add_div (by omega), Nat.div_eq_of_lt last]
          cases visit fn off xinc sx sy w j n s with
          | none => rfl
          | some s =>
              have unfinished : w - column - n * xinc ≠ 0 := by omega
              rw [Option.bind_some, if_neg unfinished]
              cases fuel with
              | zero => omega
              | succ fuel =>
                  rw [readWriteLoop, if_pos rfl, Nat.sub_sub]
                  rfl
        · -- the call finishes the row and goes on with the next
          obtain ⟨units, rest⟩ : xinc ∣ w - column := by
            have whole_start : xinc ∣ row * w + column := start ▸ Nat.dvd_mul_left xinc j
            have column_whole := (Nat.dvd_add_right (Nat.dvd_mul_left_of_dvd whole row)).1 whole_start
            exact Nat.dvd_sub whole column_whole
          rw [Nat.mul_comm] at rest
          have stop : min (w - column) (n * xinc) = units * xinc := by omega
          have fits : units ≤ n := Nat.le_of_mul_le_mul_right (by omega : units * xinc ≤ n * xinc) positive
          obtain ⟨later, rfl⟩ := Nat.exists_eq_add_of_le fits
          have left : (units + later) * xinc - units * xinc = later * xinc := by
            rw [Nat.add_mul]
            omega
          have next : (j + units) * xinc = (row + 1) * w + 0 := by
            rw [Nat.add_mul, Nat.succ_mul, start]
            omega
          have progress : later * xinc < fuel := by
            rw [Nat.add_mul] at enough
            omega
          rw [stop, forPixels_eq_visit shifts positive start (by omega), left, visit_add]
          cases visit fn off xinc sx sy w j units s with
          | none => rfl
          | some s =>
              have finished : w - column - units * xinc = 0 := by omega
              have tail := ih next (by omega) progress s
              rw [Nat.sub_zero, Nat.add_zero sx] at tail
              rw [Option.bind_some, Option.bind_some, if_pos finished, Nat.add_assoc, tail, Nat.add_assoc]

theorem readWriteHelper_eq {j n : Nat} (positive : 0 < xinc) (whole : xinc ∣ w) (wide : 0 < w) (s : σ) :
    readWriteHelper fn (sx + j * xinc % w) (sy + j * xinc / w) (n * xinc) xinc sx w off s =
      (visit fn off xinc sx sy w j n s).map
        fun s => (s, sx + (j + n) * xinc % w, sy + (j + n) * xinc / w) := by
  have column := Nat.mod_lt (j * xinc) wide
  have start : j * xinc = j * xinc / w * w + j * xinc % w := (Nat.div_add_mod' (j * xinc) w).symm
  have remaining : sx + w - (sx + j * xinc % w) = w - j * xinc % w := by omega
  unfold readWriteHelper
  dsimp only
  rw [remaining, readWriteLoop_eq shifts positive whole start column (by omega)]
  cases visit fn off xinc sx sy w j n s with
  | none => rfl
  | some s =>
      have next := Nat.mod_lt ((j + n) * xinc) wide
      have back : sx + w - (w - (j + n) * xinc % w) = sx + (j + n) * xinc % w := by omega
      simp only [Option.map_some, back]

end

/-! ## Stores at the pointer -/

theorem store_append {dst xs ys : List (BitVec 8)} {p : Nat} : store dst p (xs ++ ys) =
    (store dst p xs).bind fun dst => store dst (p + xs.length) ys := by
  unfold store
  rw [List.length_append, ← Nat.add_assoc]
  by_cases first : p + xs.length ≤ dst.length
  · have head : (dst.take p ++ xs).length = p + xs.length := by
      rw [List.length_append, List.length_take]
      omega
    have total : (dst.take p ++ xs ++ dst.drop (p + xs.length)).length = dst.length := by
      rw [List.length_append, head, List.length_drop]
      omega
    have tail : (dst.take p ++ xs ++ dst.drop (p + xs.length)).drop (p + xs.length + ys.length) =
        dst.drop (p + xs.length + ys.length) := by
      rw [← List.drop_drop, List.drop_left' head, List.drop_drop]
    rw [if_pos first, Option.bind_some, total, List.take_left' head, tail, ← List.append_assoc (dst.take p) xs ys]
  · have second : ¬ p + xs.length + ys.length ≤ dst.length := by omega
    rw [if_neg first, if_neg second]
    rfl

theorem push_append (xs ys : List (BitVec 8)) (s : Reading) :
    push (xs ++ ys) s = (push xs s).bind (push ys) := by
  obtain ⟨dst, p⟩ := s
  simp only [push, store_append, List.length_append, ← Nat.add_assoc]
  cases store dst p xs with
  | none => rfl
  | some dst => rfl

theorem visit_push {fn : PAHelper → Nat → Reading → Option Reading} {off : GSOffset} {xinc sx sy w j n : Nat}
    (chunk : Nat → List (BitVec 8))
    (pushes : ∀ i ≤ n, ∀ s, unitAt fn off xinc sx sy w (j + i) s = push (chunk (j + i)) s) (s : Reading) :
    visit fn off xinc sx sy w j (n + 1) s = push ((List.range' j (n + 1)).flatMap chunk) s := by
  induction n with
  | zero =>
      rw [visit_one]
      have only := pushes 0 (Nat.le_refl 0) s
      simpa using only
  | succ n ih =>
      have last : List.range' j (n + 1 + 1) = List.range' j (n + 1) ++ [j + (n + 1)] := by
        rw [List.range'_concat, Nat.one_mul]
      rw [visit_add, ih fun i le => pushes i (by omega), last, List.flatMap_append, push_append]
      congr 1
      funext s
      rw [visit_one, pushes (n + 1) (Nat.le_refl _), List.flatMap_singleton]

/-! ## The 32-bit loop -/

section

variable (vm : Vm) {bp bw blockXor sx sy w : Nat}

theorem read32_shifts (off : GSOffset) : Shifts (read32 vm) off := by
  intro x y i s
  unfold read32
  rw [GSOffset.paMulti_value, GSOffset.paMulti_value, Nat.add_zero]

theorem read32_unitAt (off : GSOffset) {j row column : Nat} (start : j = row * w + column) (inside : column < w)
    (s : Reading) : read32 vm (off.paMulti 0 (sy + row)) (sx + column) s = unitAt (read32 vm) off 1 sx sy w j s := by
  have number : j * 1 = row * w + column := by rw [Nat.mul_one, start]
  have step : unitAt (read32 vm) off 1 sx sy w j s = read32 vm (off.paMulti (sx + column) (sy + row)) 0 s :=
    unitAt_row (i := 0) (read32_shifts vm off) number (by omega) s
  rw [step, read32_shifts vm off, Nat.zero_add]

variable (sx sy) in
theorem readPixels_eq (off : GSOffset) (more : Nat → Bool) (bounded : ∀ x, more x → x < sx + w) {j row column : Nat}
    (start : j = row * w + column) (inside : column ≤ w) (len : Nat) :
    ∃ n ≤ len, column + n ≤ w ∧ (n = len ∨ more (sx + column + n) = false) ∧
      ∀ s, readPixels vm more (off.paMulti 0 (sy + row)) len (sx + column) s =
        (visit (read32 vm) off 1 sx sy w j n s).map fun s => (len - n, sx + column + n, s) := by
  induction len generalizing j column with
  | zero => exact ⟨0, Nat.le_refl 0, inside, .inl rfl, fun s => rfl⟩
  | succ len ih =>
      by_cases go : more (sx + column) = true
      · have within := bounded _ go
        have next : j + 1 = row * w + (column + 1) := by omega
        obtain ⟨n, le, fits, ended, equal⟩ := ih next (by omega)
        rw [← Nat.add_assoc, Nat.add_right_comm _ 1 n] at ended
        refine ⟨n + 1, by omega, by omega, ended.imp (congrArg (· + 1)) id, ?_⟩
        intro s
        rw [readPixels, if_pos go, visit_succ, read32_unitAt vm off start (by omega)]
        cases unitAt (read32 vm) off 1 sx sy w j s with
        | none => rfl
        | some s =>
            have position : sx + column + (n + 1) = sx + (column + 1) + n := by omega
            have rest : len + 1 - (n + 1) = len - n := by omega
            rw [Option.bind_some, Option.bind_some, Nat.add_assoc sx, equal, position, rest]
      · refine ⟨0, Nat.zero_le _, by omega, .inr (by simpa using go), ?_⟩
        intro s
        rw [readPixels, if_neg go]
        rfl

theorem readColumn_eq {j row column : Nat} (start : j = row * w + column) (inside : column + 8 ≤ w)
    (aligned : (sx + column) % 8 = 0) (s : Reading) :
    readColumn vm ((offset32 bp bw blockXor).paMulti 0 (sy + row)) (sx + column) s =
      visit (read32 vm) (offset32 bp bw blockXor) 1 sx sy w j 8 s := by
  have pixel : ∀ i ≤ 7, ∀ s, unitAt (read32 vm) (offset32 bp bw blockXor) 1 sx sy w (j + i) s =
      push (bytes32 (vm.get32 ((offset32 bp bw blockXor).pa (sx + column) (sy + row) +
        columnTable32.entry 0 (j + i - j)))) s := by
    intro i bound s
    have place : j + i = row * w + (column + i) := by omega
    rw [← read32_unitAt vm _ place (by omega), Nat.add_sub_cancel_left,
      ← offset32_column _ _ _ _ aligned (by omega)]
    unfold read32
    rw [GSOffset.paMulti_value, Nat.zero_add, Nat.add_assoc]
  have units : List.range' j (7 + 1) = [j + 0, j + 1, j + 2, j + 3, j + 4, j + 5, j + 6, j + 7] := rfl
  rw [visit_push (fun i => bytes32 (vm.get32 ((offset32 bp bw blockXor).pa (sx + column) (sy + row) +
    columnTable32.entry 0 (i - j)))) pixel, readColumn, GSOffset.paMulti_value, Nat.zero_add, units]
  simp only [List.flatMap_cons, List.flatMap_nil, Nat.add_sub_cancel_left, List.append_nil, List.append_assoc]
  rfl

variable (bp bw blockXor sx sy) in
theorem readColumns_eq {j row column : Nat} (start : j = row * w + column) (inside : column ≤ w) (len : Nat)
    (aligned : column < w → 0 < len → (sx + column) % 8 = 0) :
    ∃ n ≤ len, column + n ≤ w ∧ ∀ s,
      readColumns vm (sx + w) ((offset32 bp bw blockXor).paMulti 0 (sy + row)) len (sx + column) s =
        (visit (read32 vm) (offset32 bp bw blockXor) 1 sx sy w j n s).map fun s => (len - n, sx + column + n, s) := by
  induction len using Nat.strongRecOn generalizing j column with
  | ind len ih =>
      by_cases fits : 8 ≤ len ∧ column + 8 ≤ w
      · obtain ⟨len, rfl⟩ := Nat.exists_eq_add_of_le' fits.1
        have next : j + 8 = row * w + (column + 8) := by omega
        have here := aligned (by omega) (by omega)
        obtain ⟨n, le, within, equal⟩ := ih len (by omega) next fits.2 (by omega)
        refine ⟨n + 8, by omega, by omega, ?_⟩
        intro s
        have room : sx + column + 8 ≤ sx + w := by omega
        rw [readColumns, if_pos room, readColumn_eq vm start fits.2 here, Nat.add_comm n 8, visit_add]
        cases visit (read32 vm) (offset32 bp bw blockXor) 1 sx sy w j 8 s with
        | none => rfl
        | some s =>
            have position : sx + column + (8 + n) = sx + (column + 8) + n := by omega
            have rest : len + 8 - (8 + n) = len - n := by omega
            rw [Option.bind_some, Option.bind_some, Nat.add_assoc sx, equal, position, rest]
      · refine ⟨0, Nat.zero_le _, inside, ?_⟩
        intro s
        have stopped : readColumns vm (sx + w) ((offset32 bp bw blockXor).paMulti 0 (sy + row)) len (sx + column) s =
            some (len, sx + column, s) := by
          unfold readColumns
          split
          · rw [if_neg (by omega)]
          · rfl
        rw [stopped]
        rfl

theorem readLoop32_eq {fuel j row column n : Nat} (start : j = row * w + column) (inside : column < w)
    (enough : n < fuel) (s : Reading) :
    readLoop32 vm sx (sx + w) (offset32 bp bw blockXor) fuel n (sx + column) (sy + row) s =
      (visit (read32 vm) (offset32 bp bw blockXor) 1 sx sy w j n s).map
        fun s => (s, sx + (j + n) % w, sy + (j + n) / w) := by
  induction fuel generalizing j row column n s with
  | zero => omega
  | succ fuel ih =>
      unfold readLoop32
      by_cases none : n = 0
      · subst none
        have number : j = w * row + column := by rw [start, Nat.mul_comm]
        rw [if_pos rfl, Nat.add_zero, number, Nat.mul_add_mod, Nat.mod_eq_of_lt inside, Nat.mul_add_div (by omega),
          Nat.div_eq_of_lt inside]
        rfl
      · rw [if_neg none]
        dsimp only
        -- up to a column, whole columns, and what is left of the row or of the call
        obtain ⟨a, leasta, withina, endeda, equala⟩ := readPixels_eq vm sx sy (offset32 bp bw blockXor)
          (fun x => x < sx + w && x &&& 7 != 0) (fun x more => by simp at more; exact more.1) start (Nat.le_of_lt inside) n
        have aligned : column + a < w → 0 < n - a → (sx + (column + a)) % 8 = 0 := by
          intro before left
          have stopped := endeda.resolve_left (by omega)
          have mask : (sx + column + a) &&& 7 = (sx + column + a) % 8 := Nat.and_two_pow_sub_one_eq_mod _ 3
          have room : sx + column + a < sx + w := by omega
          simp [room, mask] at stopped
          omega
        have starta : j + a = row * w + (column + a) := by omega
        obtain ⟨b, leb, withinb, equalb⟩ := readColumns_eq vm bp bw blockXor sx sy starta withina (n - a) aligned
        have startb : j + a + b = row * w + (column + a + b) := by omega
        obtain ⟨c, lec, withinc, endedc, equalc⟩ := readPixels_eq vm sx sy (offset32 bp bw blockXor)
          (fun x => x < sx + w) (by simp) startb withinb (n - a - b)
        obtain ⟨rest, rfl⟩ := Nat.exists_eq_add_of_le (by omega : a + (b + c) ≤ n)
        have ended : rest = 0 ∨ column + a + b + c = w := by
          rcases endedc with all | edge
          · left
            omega
          · right
            have reached := of_decide_eq_false edge
            omega
        have number : j + (a + (b + c) + rest) = j + (a + (b + c)) + rest := by omega
        have visits : visit (read32 vm) (offset32 bp bw blockXor) 1 sx sy w j (a + (b + c) + rest) s =
            (visit (read32 vm) (offset32 bp bw blockXor) 1 sx sy w j a s).bind fun s =>
            (visit (read32 vm) (offset32 bp bw blockXor) 1 sx sy w (j + a) b s).bind fun s =>
            (visit (read32 vm) (offset32 bp bw blockXor) 1 sx sy w (j + a + b) c s).bind
              (visit (read32 vm) (offset32 bp bw blockXor) 1 sx sy w (j + (a + (b + c))) rest) := by
          rw [visit_add, visit_add, Option.bind_assoc]
          congr 1
          funext s
          rw [visit_add, Option.bind_assoc]
        rw [visits, equala]
        cases visit (read32 vm) (offset32 bp bw blockXor) 1 sx sy w j a s with
        | none => rfl
        | some s =>
            simp only [Option.map_some, Option.bind_some]
            rw [Nat.add_assoc sx, equalb]
            cases visit (read32 vm) (offset32 bp bw blockXor) 1 sx sy w (j + a) b s with
            | none => rfl
            | some s =>
                simp only [Option.map_some, Option.bind_some]
                rw [Nat.add_assoc sx, equalc]
                cases visit (read32 vm) (offset32 bp bw blockXor) 1 sx sy w (j + a + b) c s with
                | none => rfl
                | some s =>
                    simp only [Option.map_some, Option.bind_some]
                    have left : a + (b + c) + rest - a - b - c = rest := by omega
                    rw [left]
                    by_cases finished : column + a + b + c = w
                    · have edge : sx + (column + a + b) + c = sx + w := by omega
                      have next : j + (a + (b + c)) = (row + 1) * w + 0 := by
                        rw [Nat.succ_mul]
                        omega
                      have tail := ih next (by omega) (by omega : rest < fuel) s
                      rw [if_pos edge, number, ← tail]
                      rfl
                    · have short : sx + (column + a + b) + c ≠ sx + w := by omega
                      have here : j + (a + (b + c)) = row * w + (column + (a + (b + c))) := by omega
                      have done := ended.resolve_right finished
                      have tail := ih here (by omega) (by omega : rest < fuel) s
                      have place : sx + (column + a + b) + c = sx + (column + (a + (b + c))) := by omega
                      rw [if_neg short, number, place, tail]

end

end Pcsx2.GsMemory
