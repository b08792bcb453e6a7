import Pcsx2.Foundation.Intervals
import Pcsx2.GsMemory.Blocks

/-!
# Pages of a rectangle

`GSOffset::pageLooperForRect` and `PageLooper::loopPagesWithBreak`.
-/

namespace Pcsx2.GsMemory
open Foundation

/-! ## The loop -/

structure PageLooper where
  firstRowPgXStart : Nat
  firstRowPgXEnd : Nat
  midRowPgXStart : Nat
  midRowPgXEnd : Nat
  lastRowPgXStart : Nat
  lastRowPgXEnd : Nat
  bp : Nat
  yInc : Nat
  yCnt : Nat
  slowPath : Bool

namespace PageLooper

variable (l : PageLooper)

/-- The offsets after the row `y`: those of the last row unless another one comes before it. -/
def nextOff (y : Nat) : Nat × Nat :=
  if y + 2 < l.yCnt then (l.midRowPgXStart, l.midRowPgXEnd) else (l.lastRowPgXStart, l.lastRowPgXEnd)

def slowLoop (l : PageLooper) : Nat → Nat → Nat → Nat × Nat → (Nat → Bool) → List Nat
  | 0, _, _, _, _ => []
  | rows + 1, y, lineBP, off, touched =>
      let first := lineBP + off.1
      let stop := lineBP + off.2
      let row := visit ((List.range' first (stop - first)).map (· % GS_MAX_PAGES)) touched
      row.1 ++ slowLoop l rows (y + 1) (lineBP + l.yInc) (l.nextOff y) row.2

def fastLoop (l : PageLooper) : Nat → Nat → Nat → Nat × Nat → Nat → List Nat
  | 0, _, _, _, _ => []
  | rows + 1, y, lineBP, off, nextMin =>
      let first := max nextMin (lineBP + off.1)
      let stop := lineBP + off.2
      (List.range' first (stop - first)).map (· % GS_MAX_PAGES) ++
        fastLoop l rows (y + 1) (lineBP + l.yInc) (l.nextOff y) stop

/-- The pages that `loopPages` calls its function on. -/
def loopPages : List Nat :=
  let off := (l.firstRowPgXStart, l.firstRowPgXEnd)
  if l.slowPath then l.slowLoop l.yCnt 0 l.bp off fun _ => false
  else l.fastLoop l.yCnt 0 l.bp off 0

end PageLooper

def PageLooper.rowOff (l : PageLooper) (r : Nat) : Nat × Nat :=
  if r = 0 then (l.firstRowPgXStart, l.firstRowPgXEnd)
  else if r + 1 < l.yCnt then (l.midRowPgXStart, l.midRowPgXEnd)
  else (l.lastRowPgXStart, l.lastRowPgXEnd)

namespace PageLooper

variable (l : PageLooper)

def first (r : Nat) : Nat := l.bp + r * l.yInc + (l.rowOff r).1

def stop (r : Nat) : Nat := l.bp + r * l.yInc + (l.rowOff r).2

theorem nextOff_eq (y : Nat) : l.nextOff y = l.rowOff (y + 1) := (if_neg (Nat.succ_ne_zero y)).symm

theorem fastLoop_eq {rows y lineBP nextMin : Nat} (line : lineBP = l.bp + y * l.yInc) :
    l.fastLoop rows y lineBP (l.rowOff y) nextMin = (sweep l.first l.stop rows y nextMin).map (· % GS_MAX_PAGES) := by
  induction rows generalizing y lineBP nextMin with
  | zero => rfl
  | succ rows ih =>
      have rest : l.fastLoop rows (y + 1) (lineBP + l.yInc) (l.rowOff (y + 1)) (l.stop y) =
          (sweep l.first l.stop rows (y + 1) (l.stop y)).map (· % GS_MAX_PAGES) :=
        ih (by rw [line, Nat.succ_mul, Nat.add_assoc])
      rw [fastLoop, sweep, List.map_append, nextOff_eq, ← rest]
      subst line
      rfl

theorem slowLoop_eq {rows y lineBP : Nat} {touched : Nat → Bool} (line : lineBP = l.bp + y * l.yInc) :
    l.slowLoop rows y lineBP (l.rowOff y) touched = (visit ((List.range' y rows).flatMap fun r =>
      (List.range' (l.first r) (l.stop r - l.first r)).map (· % GS_MAX_PAGES)) touched).1 := by
  induction rows generalizing y lineBP touched with
  | zero => rfl
  | succ rows ih =>
      rw [slowLoop, List.range'_succ, List.flatMap_cons, visit_append, nextOff_eq]
      dsimp only
      rw [ih (by rw [line, Nat.succ_mul, Nat.add_assoc])]
      subst line
      rfl

theorem loopPages_eq : l.loopPages = if l.slowPath then (visit ((List.range' 0 l.yCnt).flatMap fun r =>
      (List.range' (l.first r) (l.stop r - l.first r)).map (· % GS_MAX_PAGES)) fun _ => false).1
    else (sweep l.first l.stop l.yCnt 0 0).map (· % GS_MAX_PAGES) := by
  have line : l.bp = l.bp + 0 * l.yInc := by rw [Nat.zero_mul, Nat.add_zero]
  rw [← l.slowLoop_eq line, ← l.fastLoop_eq line]
  rfl

/-- A page that a row has. -/
def Covers (page : Nat) : Prop := ∃ r < l.yCnt, ∃ p, l.first r ≤ p ∧ p < l.stop r ∧ p % GS_MAX_PAGES = page

theorem slowPath_exact (slow : l.slowPath = true) : l.loopPages.Nodup ∧ ∀ page, page ∈ l.loopPages ↔ l.Covers page := by
  have range (low high b : Nat) : b ∈ List.range' low (high - low) ↔ low ≤ b ∧ b < high := by
    rw [List.mem_range'_1]
    omega
  rw [l.loopPages_eq, if_pos slow]
  refine ⟨visit_nodup _, fun page => ?_⟩
  simp only [mem_visit, and_true, List.mem_flatMap, List.mem_map, range, List.mem_range'_1, Nat.zero_le, true_and, Nat.zero_add,
    Covers, and_assoc]

theorem fastPath_exact (fast : l.slowPath = false) (order : InOrder l.first l.stop l.yCnt 0) {low : Nat}
    (span : ∀ r < l.yCnt, low ≤ l.first r ∧ l.stop r ≤ low + GS_MAX_PAGES) :
    l.loopPages.Nodup ∧ ∀ page, page ∈ l.loopPages ↔ l.Covers page := by
  rw [l.loopPages_eq, if_neg (Bool.eq_false_iff.mp fast)]
  constructor
  · refine (sweep_nodup order).map_on fun p member q member' same => ?_
    obtain ⟨i, -, inside, above, below⟩ := inside_of_mem_sweep member
    obtain ⟨j, -, inside', above', below'⟩ := inside_of_mem_sweep member'
    have bounds := span i (by omega)
    have bounds' := span j (by omega)
    rw [GS_MAX_PAGES] at same bounds bounds'
    omega
  · intro page
    simp only [List.mem_map, mem_sweep order fun _ => Nat.zero_le _, Nat.zero_le, true_and, Nat.zero_add, Covers]
    constructor
    · rintro ⟨p, ⟨r, inside, above, below⟩, same⟩
      exact ⟨r, inside, p, above, below, same⟩
    · rintro ⟨r, inside, p, above, below, same⟩
      exact ⟨p, ⟨r, inside, above, below⟩, same⟩

end PageLooper

/-! ## The loop for a rectangle -/

structure TextureAligned where
  ox1 : Nat
  oy1 : Nat
  ox2 : Nat
  oy2 : Nat
  ix1 : Nat
  iy1 : Nat
  ix2 : Nat
  iy2 : Nat

def andnot (n mask : Nat) : Nat := n - (n &&& mask)

/-- `ralign_presub<Align_Outside>`. -/
def Rect.ralignOutside (rect : Rect) (maskX maskY : Nat) : Rect :=
  { left := andnot rect.left maskX
    top := andnot rect.top maskY
    right := andnot (rect.right + maskX) maskX
    bottom := andnot (rect.bottom + maskY) maskY }

/-- `ralign_presub<Align_Inside>`. -/
def Rect.ralignInside (rect : Rect) (maskX maskY : Nat) : Rect :=
  { left := andnot (rect.left + maskX) maskX
    top := andnot (rect.top + maskY) maskY
    right := andnot rect.right maskX
    bottom := andnot rect.bottom maskY }

def staysWithinOnePage (o1 o2 i1 i2 : Nat) : Bool :=
  if i2 < i1 then true
  else if i2 = i1 then o1 == i1 || o2 == i1
  else false

namespace Offset

variable (o : Offset) (rect : Rect)

def align : TextureAligned :=
  let outer := rect.ralignOutside o.blockMaskX o.blockMaskY
  let inner := outer.ralignInside o.pageMaskX o.pageMaskY
  { ox1 := outer.left >>> o.blockShiftX
    oy1 := outer.top >>> o.blockShiftY
    ox2 := outer.right >>> o.blockShiftX
    oy2 := outer.bottom >>> o.blockShiftY
    ix1 := inner.left >>> o.blockShiftX
    iy1 := inner.top >>> o.blockShiftY
    ix2 := inner.right >>> o.blockShiftX
    iy2 := inner.bottom >>> o.blockShiftY }

def invBlockOff : Nat := 32 - (o.bp &&& 0x1f)

def rectUsesPage (x1 x2 y1 y2 : Nat) (lowPage : Bool) : Bool :=
  (List.range' y1 (y2 - y1)).any fun y => (List.range' x1 (x2 - x1)).any fun x =>
    decide (o.lookup x y < o.invBlockOff) == lowPage

/-- `startAdj1` and `startAdj2`. -/
def startAdj (a : TextureAligned) : Nat × Nat :=
  if staysWithinOnePage a.ox1 a.ox2 a.ix1 a.ix2 then (a.ox1, a.ox2)
  else if a.ox1 = a.ix1 then (0, 1 <<< (o.pageShiftX - o.blockShiftX)) else (a.ox1, a.ix1)

/-- `endAdj1` and `endAdj2`. -/
def endAdj (a : TextureAligned) : Nat × Nat :=
  if staysWithinOnePage a.ox1 a.ox2 a.ix1 a.ix2 then (a.ox1, a.ox2)
  else if a.ox2 = a.ix2 then (0, 1 <<< (o.pageShiftX - o.blockShiftX)) else (a.ix2, a.ox2)

def adjustStartEnd (a : TextureAligned) (off : Nat × Nat) (y1 y2 : Nat) : Nat × Nat :=
  (if o.rectUsesPage (o.startAdj a).1 (o.startAdj a).2 y1 y2 true then off.1 else off.1 + 1,
    if o.rectUsesPage (o.endAdj a).1 (o.endAdj a).2 y1 y2 false then off.2 else off.2 - 1)

def fullRow : Nat × Nat :=
  (rect.left >>> o.pageShiftX, (rect.right + o.pageMaskX) >>> o.pageShiftX + if o.bp &&& 0x1f = 0 then 0 else 1)

def looper (first mid last : Nat × Nat) : PageLooper :=
  let topPg := rect.top >>> o.pageShiftY
  let botPg := (rect.bottom + o.pageMaskY) >>> o.pageShiftY
  { firstRowPgXStart := first.1
    firstRowPgXEnd := first.2
    midRowPgXStart := mid.1
    midRowPgXEnd := mid.2
    lastRowPgXStart := last.1
    lastRowPgXEnd := last.2
    bp := o.bp >>> 5 + topPg * o.bwPg
    yInc := o.bwPg
    yCnt := botPg - topPg
    slowPath := decide ((botPg - topPg) * o.bwPg + (o.fullRow rect).2 - (o.fullRow rect).1 > GS_MAX_PAGES) }

def pageLooperForRect : PageLooper :=
  let off := o.fullRow rect
  if o.bp &&& 0x1f = 0 then o.looper rect off off off
  else
    let a := o.align rect
    let blkH := 1 <<< (o.pageShiftY - o.blockShiftY)
    if staysWithinOnePage a.oy1 a.oy2 a.iy1 a.iy2 then o.looper rect (o.adjustStartEnd a off a.oy1 a.oy2) off off
    else
      let mid := o.adjustStartEnd a off 0 blkH
      o.looper rect (if a.oy1 ≠ a.iy1 then o.adjustStartEnd a off a.oy1 a.iy1 else mid) mid
        (if a.oy2 ≠ a.iy2 then o.adjustStartEnd a off a.iy2 a.oy2 else mid)

end Offset

/-! ## Tiles of a stretch -/

theorem andnot_mask (n k : Nat) : andnot n (2 ^ k - 1) = 2 ^ k * (n / 2 ^ k) := by
  have parts := Nat.div_add_mod n (2 ^ k)
  rw [andnot, Nat.and_two_pow_sub_one_eq_mod]
  omega

theorem outer_shift (n w : Nat) : andnot n (2 ^ w - 1) >>> w = n / 2 ^ w := by
  rw [andnot_mask, Nat.shiftRight_eq_div_pow, Nat.mul_div_cancel_left _ (Nat.two_pow_pos w)]

theorem tile_shift (n w c : Nat) : (2 ^ (w + c) * n) >>> w = 2 ^ c * n := by
  rw [Nat.pow_add, Nat.mul_assoc, Nat.shiftRight_eq_div_pow, Nat.mul_div_cancel_left _ (Nat.two_pow_pos w)]

theorem up_div (n w c : Nat) : (n + (2 ^ (w + c) - 1)) / 2 ^ (w + c) = ((n + (2 ^ w - 1)) / 2 ^ w + (2 ^ c - 1)) / 2 ^ c := by
  have small := Nat.two_pow_pos w
  have few := Nat.two_pow_pos c
  have mask : 2 ^ (w + c) - 1 = 2 ^ w - 1 + 2 ^ w * (2 ^ c - 1) := by
    rw [Nat.mul_sub, Nat.mul_one, ← Nat.pow_add]
    have := Nat.pow_le_pow_right (n := 2) (by decide) (Nat.le_add_right w c)
    omega
  rw [Nat.pow_add, ← Nat.div_div_eq_div_mul, ← Nat.pow_add, mask, ← Nat.add_assoc, Nat.add_mul_div_left _ _ small]

theorem inner_start (n w c : Nat) : andnot (andnot n (2 ^ w - 1) + (2 ^ (w + c) - 1)) (2 ^ (w + c) - 1) >>> w =
    2 ^ c * ((n / 2 ^ w + (2 ^ c - 1)) / 2 ^ c) := by
  have small := Nat.two_pow_pos w
  have whole : (2 ^ w * (n / 2 ^ w) + (2 ^ w - 1)) / 2 ^ w = n / 2 ^ w := by
    rw [Nat.mul_add_div small, Nat.div_eq_of_lt (Nat.sub_one_lt small.ne'), Nat.add_zero]
  rw [andnot_mask, andnot_mask, tile_shift, up_div, whole]

theorem inner_stop (n w c : Nat) : andnot (andnot n (2 ^ w - 1)) (2 ^ (w + c) - 1) >>> w = 2 ^ c * (n / 2 ^ w / 2 ^ c) := by
  rw [andnot_mask, andnot_mask, tile_shift, Nat.pow_add, ← Nat.div_div_eq_div_mul,
    Nat.mul_div_cancel_left _ (Nat.two_pow_pos w)]

section
variable {a b size : Nat} (some : a < b) (sizes : size = 4 ∨ size = 8)
include some sizes

theorem stays_true (stays : staysWithinOnePage a b (size * ((a + (size - 1)) / size)) (size * (b / size)) = true) :
    a / size = (b - 1) / size := by
  simp only [staysWithinOnePage] at stays
  split_ifs at stays with inside same
  · rcases sizes with rfl | rfl <;> omega
  · simp only [Bool.or_eq_true, beq_iff_eq] at stays
    rcases sizes with rfl | rfl <;> omega

theorem stays_false (stays : staysWithinOnePage a b (size * ((a + (size - 1)) / size)) (size * (b / size)) = false) :
    size * ((a + (size - 1)) / size) ≤ size * (b / size) ∧
      (a = size * ((a + (size - 1)) / size) ∨ b = size * (b / size) → a + size ≤ b) := by
  simp only [staysWithinOnePage] at stays
  split_ifs at stays with inside same
  · simp only [Bool.or_eq_false_iff, beq_eq_false_iff_ne] at stays
    rcases sizes with rfl | rfl <;> omega
  · rcases sizes with rfl | rfl <;> omega

variable {P : Nat → Prop}

theorem tile_between {p : Nat} (after : a / size < p) (before : p ≤ (b - 1) / size) :
    a ≤ size * p - 1 ∧ size * p < b ∧ 0 < size * p ∧ (size * p - 1) / size = p - 1 ∧ size * p / size = p ∧
      size * p % size = 0 := by
  rcases sizes with rfl | rfl <;> omega

theorem first_tile (period : ∀ x, P (x % size) ↔ P x) (stays : staysWithinOnePage a b (size * ((a + (size - 1)) / size))
    (size * (b / size)) = false) {cols : Nat × Nat}
    (looked : cols = if a = size * ((a + (size - 1)) / size) then (0, size) else (a, size * ((a + (size - 1)) / size))) :
    (∃ x, cols.1 ≤ x ∧ x < cols.2 ∧ P x) ↔ ∃ x, a ≤ x ∧ x < b ∧ x / size = a / size ∧ P x := by
  obtain ⟨ordered, whole⟩ := stays_false some sizes stays
  subst looked
  split
  · next start =>
      have full := whole (Or.inl start)
      constructor
      · rintro ⟨x, -, small, holds⟩
        refine ⟨a + x, by omega, by omega, ?_, ?_⟩
        · rcases sizes with rfl | rfl <;> omega
        · rw [← period, show (a + x) % size = x by rcases sizes with rfl | rfl <;> omega]
          exact holds
      · rintro ⟨x, -, -, -, holds⟩
        exact ⟨x % size, Nat.zero_le _, Nat.mod_lt x (by omega), (period x).mpr holds⟩
  · constructor
    · rintro ⟨x, above, below, holds⟩
      exact ⟨x, above, by rcases sizes with rfl | rfl <;> omega, by rcases sizes with rfl | rfl <;> omega, holds⟩
    · rintro ⟨x, above, below, tile, holds⟩
      exact ⟨x, above, by rcases sizes with rfl | rfl <;> omega, holds⟩

theorem last_tile (period : ∀ x, P (x % size) ↔ P x) (stays : staysWithinOnePage a b (size * ((a + (size - 1)) / size))
    (size * (b / size)) = false) {cols : Nat × Nat}
    (looked : cols = if b = size * (b / size) then (0, size) else (size * (b / size), b)) :
    (∃ x, cols.1 ≤ x ∧ x < cols.2 ∧ P x) ↔ ∃ x, a ≤ x ∧ x < b ∧ x / size = (b - 1) / size ∧ P x := by
  obtain ⟨ordered, whole⟩ := stays_false some sizes stays
  subst looked
  split
  · next stop =>
      have full := whole (Or.inr stop)
      constructor
      · rintro ⟨x, -, small, holds⟩
        refine ⟨b - size + x, by omega, by omega, ?_, ?_⟩
        · rcases sizes with rfl | rfl <;> omega
        · rw [← period, show (b - size + x) % size = x by rcases sizes with rfl | rfl <;> omega]
          exact holds
      · rintro ⟨x, -, -, -, holds⟩
        exact ⟨x % size, Nat.zero_le _, Nat.mod_lt x (by omega), (period x).mpr holds⟩
  · constructor
    · rintro ⟨x, above, below, holds⟩
      exact ⟨x, by rcases sizes with rfl | rfl <;> omega, below, by rcases sizes with rfl | rfl <;> omega, holds⟩
    · rintro ⟨x, above, below, tile, holds⟩
      exact ⟨x, by rcases sizes with rfl | rfl <;> omega, below, holds⟩

omit some in
theorem middle_tile (period : ∀ x, P (x % size) ↔ P x) {k : Nat} (after : a / size < k) (before : k < (b - 1) / size) :
    (∃ x, 0 ≤ x ∧ x < size ∧ P x) ↔ ∃ x, a ≤ x ∧ x < b ∧ x / size = k ∧ P x := by
  constructor
  · rintro ⟨x, -, small, holds⟩
    refine ⟨k * size + x, by rcases sizes with rfl | rfl <;> omega, by rcases sizes with rfl | rfl <;> omega, ?_, ?_⟩
    · rcases sizes with rfl | rfl <;> omega
    · rw [← period, Nat.mul_add_mod_self_right, Nat.mod_eq_of_lt small]
      exact holds
  · rintro ⟨x, -, -, -, holds⟩
    exact ⟨x % size, Nat.zero_le _, Nat.mod_lt x (by omega), (period x).mpr holds⟩

omit some in
theorem tile_some {k : Nat} (some : a < b) (after : a / size ≤ k) (before : k ≤ (b - 1) / size) :
    ∃ x, a ≤ x ∧ x < b ∧ x / size = k := by
  refine ⟨max a (size * k), le_max_left _ _, ?_, ?_⟩
  · rcases sizes with rfl | rfl <;> omega
  · rcases sizes with rfl | rfl <;> omega

theorem tile_band (period : ∀ x, P (x % size) ↔ P x) (stays : staysWithinOnePage a b (size * ((a + (size - 1)) / size))
    (size * (b / size)) = false) {r : Nat} (inside : a / size + r ≤ (b - 1) / size) {rows : Nat × Nat}
    (looked : rows =
      if r = 0 then (if a = size * ((a + (size - 1)) / size) then (0, size) else (a, size * ((a + (size - 1)) / size)))
      else if a / size + r < (b - 1) / size then (0, size)
      else if b = size * (b / size) then (0, size) else (size * (b / size), b)) :
    (∃ x, rows.1 ≤ x ∧ x < rows.2 ∧ P x) ↔ ∃ x, a ≤ x ∧ x < b ∧ x / size = a / size + r ∧ P x := by
  by_cases first : r = 0
  · rw [if_pos first] at looked
    rw [first_tile some sizes period stays looked, first, Nat.add_zero]
  · rw [if_neg first] at looked
    by_cases middle : a / size + r < (b - 1) / size
    · rw [if_pos middle] at looked
      rw [looked, ← middle_tile sizes period (Nat.lt_add_of_pos_right (Nat.pos_of_ne_zero first)) middle]
    · rw [if_neg middle] at looked
      rw [last_tile some sizes period stays looked, Nat.le_antisymm inside (Nat.le_of_not_lt middle)]

end

theorem between_edges {A B : Prop} [Decidable A] [Decidable B] {first last p : Nat}
    (above : (if A then first else first + 1) ≤ p) (below : p < if B then last + 2 else last + 2 - 1) :
    (p = first ∧ A) ∨ (p = last + 1 ∧ B) ∨ (first < p ∧ p ≤ last) := by
  split at above
  · next start =>
      split at below
      · next stop =>
          have known : p = first ∨ p = last + 1 ∨ (first < p ∧ p ≤ last) := by omega
          exact known.imp (⟨·, start⟩) (Or.imp_left (⟨·, stop⟩))
      · have known : p = first ∨ (first < p ∧ p ≤ last) := by omega
        exact known.imp (⟨·, start⟩) Or.inr
  · split at below
    · next stop =>
        have known : p = last + 1 ∨ (first < p ∧ p ≤ last) := by omega
        exact Or.inr (known.imp_left (⟨·, stop⟩))
    · exact Or.inr (Or.inr ⟨above, by omega⟩)

end Pcsx2.GsMemory
