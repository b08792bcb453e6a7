import Pcsx2.EeCache.Coherence

/-!
# The cache is transparent

Reads give what was written last, and the memory after a write-back is the one without a cache.
-/

namespace Pcsx2.EeCache
open Foundation

section

variable {exist : Nat → Bool} {flat : Nat → UInt8} {s : State} (coherent : Coherent exist flat s)
include coherent

/-! ## Accesses -/

theorem Coherent.store {idx : Fin 64} {way : Bool} {page at_ n : Nat} (caches : s.Caches idx way page)
    (inside : at_ + n ≤ 64) (bytes : Nat → UInt8) :
    Coherent exist (if exist page then storeBytes flat (page * 4096 + idx.val * 64 + at_) n bytes else flat)
      (s.setLine idx way
        { tag := (s.lines idx way).tag.setDirty, data := storeBytes (s.lines idx way).data at_ n bytes }) := by
  have same {other : Fin 64} {way' : Bool} {page' : Nat} (holds : State.Caches (s.setLine idx way
      { tag := (s.lines idx way).tag.setDirty, data := storeBytes (s.lines idx way).data at_ n bytes }) other way' page') :
      s.Caches other way' page' := by
    by_cases here : other = idx ∧ way' = way
    · obtain ⟨rfl, rfl⟩ := here
      rw [caches_self, CacheTag.view_setDirty] at holds
      exact holds
    · exact (caches_other here).1 holds
  have index := idx.isLt
  refine ⟨fun other way' => ?_, fun other page' both => ?_, fun other way' page' holds => ?_,
    fun other way' page' holds real i below => ?_, fun a unowned => ?_⟩
  · by_cases here : other = idx ∧ way' = way
    · obtain ⟨rfl, rfl⟩ := here
      rw [setLine_self, CacheTag.view_setDirty]
      exact coherent.unlocked other way'
    · rw [setLine_other here]
      exact coherent.unlocked other way'
  · exact coherent.apart other page' ⟨same both.1, same both.2⟩
  · have old := coherent.pfn other way' page' (same holds)
    by_cases here : other = idx ∧ way' = way
    · obtain ⟨rfl, rfl⟩ := here
      rw [setLine_self, CacheTag.view_setDirty]
      exact old
    · rw [setLine_other here]
      exact old
  · have old := coherent.data other way' page' (same holds) real i below
    by_cases here : other = idx ∧ way' = way
    · obtain ⟨rfl, rfl⟩ := here
      obtain rfl : page = page' := caches.2.symm.trans (same holds).2
      rw [setLine_self, if_pos real]
      unfold storeBytes
      dsimp only
      by_cases written : at_ ≤ i ∧ i < at_ + n
      · rw [if_pos written, if_pos (by omega)]
        congr 1
        omega
      · rw [if_neg written, if_neg (by omega)]
        exact old
    · rw [setLine_other here]
      split
      next =>
        rw [storeBytes_outside]
        · exact old
        · intro written
          -- the other line is for another set or another page
          have index' := other.isLt
          obtain rfl : other = idx := Fin.ext (by omega)
          have equal : page' = page := by omega
          exact here ⟨rfl, coherent.one (same holds) (equal ▸ caches)⟩
      next => exact old
  · have dirty : CacheTag.isDirtyAndValid (s.lines idx way).tag.setDirty = true := by
      rw [CacheTag.isDirtyAndValid_eq, Bool.and_eq_true]
      show (CacheTag.view _).valid = true ∧ (CacheTag.view _).dirty = true
      rw [CacheTag.view_setDirty]
      exact ⟨caches.1, rfl⟩
    have owns (real : exist page = true) (lower : page * 4096 + idx.val * 64 ≤ a)
        (upper : a < page * 4096 + idx.val * 64 + 64) : False := by
      refine unowned idx way ⟨by rwa [setLine_self], ?_, ?_⟩
      · rw [setLine_self, CacheTag.view_setDirty]
        exact (coherent.pfn idx way page caches).trans real
      · rw [setLine_self, CacheLine.base, CacheTag.view_setDirty]
        dsimp only
        rw [caches.2]
        exact ⟨lower, upper⟩
    have before : s.memory a = flat a := by
      refine coherent.memory a fun other way' old => ?_
      by_cases here : other = idx ∧ way' = way
      · obtain ⟨rfl, rfl⟩ := here
        have pfn := (coherent.pfn other way' page caches).symm.trans old.2.1
        have bounds := old.2.2
        rw [CacheLine.base, caches.2] at bounds
        exact owns pfn bounds.1 bounds.2
      · exact unowned other way' ((owns_other here).2 old)
    show s.memory a = _
    split
    next real => rw [storeBytes_outside fun written => owns real (by omega) (by omega), before]
    next => exact before

variable {ppf : UInt64}

theorem writeCache_spec {width : Width} {mem : UInt32} {value : List UInt8}
    (translates : Translates exist mem ppf) :
    Coherent exist (uncached exist flat (.write width mem ppf value))
      (s.writeCache width mem ppf (exist (ppf.toNat / 4096)) value) := by
  obtain ⟨found, caches⟩ := getFreeCache_spec coherent translates
  rw [State.writeCache, State.prepareCacheAccess]
  generalize s.getFreeCache mem ppf (exist (ppf.toNat / 4096)) = r at found caches ⊢
  dsimp only
  rw [if_pos rfl, setLine_setLine, setLine_self, offset_toNat]
  have stored := found.store caches (offset_le width mem) fun k => value.getD k 0
  rw [uncached]
  split
  next real =>
    rw [if_pos real] at stored
    rwa [place_eq width (translates real)]
  next missing =>
    rw [if_neg missing] at stored
    exact stored

theorem readCache_spec (width : Width) {mem : UInt32} (translates : Translates exist mem ppf) :
    Coherent exist flat (s.readCache width mem ppf (exist (ppf.toNat / 4096))).2 ∧
      (exist (ppf.toNat / 4096) = true →
        (s.readCache width mem ppf (exist (ppf.toNat / 4096))).1 = loadBytes flat (place width ppf) width.bytes) := by
  obtain ⟨found, caches⟩ := getFreeCache_spec coherent translates
  rw [State.readCache, State.prepareCacheAccess]
  generalize s.getFreeCache mem ppf (exist (ppf.toNat / 4096)) = r at found caches ⊢
  dsimp only
  rw [if_neg nofun, offset_toNat]
  refine ⟨found, fun real => List.map_congr_left fun k member => ?_⟩
  have inside := List.mem_range.1 member
  have fits := offset_le width mem
  rw [found.data _ _ _ caches real _ (by omega), place_eq width (translates real)]
  simp only [Nat.add_assoc]

/-! ## The CACHE instruction -/

theorem Coherent.clearLine {idx : Fin 64} {way : Bool} (clean : (s.lines idx way).tag.isDirtyAndValid = false) :
    Coherent exist flat (s.clearLine idx way) := by
  have view : (s.lines idx way).clear.tag.view = _ := CacheTag.view_clear _
  refine coherent.setClean clean ?_ (clean_of_view ?_) ?_ ?_ ?_
  · rw [view]
  · rw [view]
    exact .inl rfl
  · rw [view]
    nofun
  · rw [view]
    nofun
  · rw [view]
    nofun

theorem Coherent.writeBackClear (idx : Fin 64) (way : Bool) :
    Coherent exist flat ((s.writeBackIfNeeded idx way).clearLine idx way) :=
  (coherent.writeBack idx way).clearLine (writeBack_clean _ _ _)

theorem Coherent.setTagLo (TagLo : UInt32) : Coherent exist flat { s with TagLo } := by
  obtain ⟨unlocked, apart, pfn, data, memory⟩ := coherent
  exact ⟨unlocked, apart, pfn, data, memory⟩

theorem Coherent.hitOp {addr : UInt32} {op : State → Fin 64 → Bool → State}
    (keeps : ∀ way, s.findInCache (setIdxFor addr) ppf = some way → Coherent exist flat (op s (setIdxFor addr) way)) :
    Coherent exist flat (s.doCacheHitOp addr ppf op) := by
  rw [State.doCacheHitOp]
  split
  next => exact coherent
  next way found => exact keeps way found

theorem CACHE_spec {rt : Nat} {addr : UInt32} (keeps : s.Keeps rt addr ppf) :
    Coherent exist flat (s.CACHE rt addr ppf) := by
  unfold State.CACHE
  dsimp only
  split
  · exact coherent.hitOp fun way found => coherent.clearLine (clean_of_view (.inr (keeps way found)))
  · exact coherent.hitOp fun way _ => coherent.writeBackClear _ way
  · exact coherent.hitOp fun way _ => coherent.writeBack _ way
  · exact coherent.clearLine keeps
  · exact coherent.setTagLo _
  · exact (coherent.writeBack _ _).setTagLo _
  · exact keeps.elim
  · exact keeps.elim
  · exact coherent.writeBackClear _ _
  · exact coherent

/-! ## Writing everything back -/

omit coherent in
theorem writeBackSets_spec (sets : List (Fin 64)) {s : State} (coherent : Coherent exist flat s) :
    Coherent exist flat (sets.foldl (fun s i => (s.writeBackIfNeeded i false).writeBackIfNeeded i true) s) ∧
      ∀ idx way, idx ∈ sets ∨ (s.lines idx way).tag.isDirtyAndValid = false →
        ((sets.foldl (fun s i => (s.writeBackIfNeeded i false).writeBackIfNeeded i true) s).lines idx way).tag.isDirtyAndValid
          = false := by
  induction sets generalizing s with
  | nil => exact ⟨coherent, fun idx way clean => clean.resolve_left nofun⟩
  | cons first rest ih =>
    obtain ⟨after, clean⟩ := ih ((coherent.writeBack first false).writeBack first true)
    refine ⟨after, fun idx way either => clean idx way ?_⟩
    have stays {s : State} (idx' : Fin 64) (way' : Bool) (before : (s.lines idx way).tag.isDirtyAndValid = false) :
        ((s.writeBackIfNeeded idx' way').lines idx way).tag.isDirtyAndValid = false := by
      by_cases same : idx = idx' ∧ way = way'
      · obtain ⟨rfl, rfl⟩ := same
        exact writeBack_clean _ _ _
      · rwa [writeBack_other same]
    rcases either with listed | before
    · rcases List.mem_cons.1 listed with rfl | listed
      · cases way
        · exact .inr (stays _ _ (writeBack_clean _ _ _))
        · exact .inr (writeBack_clean _ _ _)
      · exact .inl listed
    · exact .inr (stays _ _ (stays _ _ before))

theorem writebackCache_spec : (writebackCache s).memory = flat := by
  obtain ⟨after, clean⟩ := writeBackSets_spec (List.finRange 64) coherent
  funext a
  refine after.memory a fun idx way owns => ?_
  exact absurd ((clean idx way (.inl (List.mem_finRange idx))).symm.trans owns.1) nofun

end

/-! ## Runs -/

theorem coherent_reset (exist : Nat → Bool) (memory : Nat → UInt8) (TagLo : UInt32) :
    Coherent exist memory (resetCache memory TagLo) := by
  have view : (⟨0⟩ : CacheTag).view = { page := 0, valid := false, dirty := false, locked := false, validPFN := false } := rfl
  refine ⟨fun idx way => congrArg CacheTag.View.locked view, fun idx page both => ?_, fun idx way page caches => ?_,
    fun idx way page caches => ?_, fun a _ => rfl⟩
  · exact absurd (both.1.1.symm.trans (congrArg CacheTag.View.valid view)) nofun
  · exact absurd (caches.1.symm.trans (congrArg CacheTag.View.valid view)) nofun
  · exact absurd (caches.1.symm.trans (congrArg CacheTag.View.valid view)) nofun

theorem coherent_run {exist : Nat → Bool} {memory : Nat → UInt8} {TagLo : UInt32} {events : List Event} {s : State}
    (run : Trace (Step exist) (resetCache memory TagLo) events s) :
    Coherent exist (uncachedAll exist memory events) s := by
  refine run.invariant (I := fun events s => Coherent exist (uncachedAll exist memory events) s)
    (coherent_reset exist memory TagLo) ?_
  intro events s event t coherent step
  rw [uncachedAll, List.foldl_append]
  cases step with
  | @read _ _ width _ _ _ translates result =>
    have spec := (readCache_spec coherent width translates).1
    rw [result] at spec
    exact spec
  | write translates length => exact writeCache_spec coherent translates
  | cache translates keeps => exact CACHE_spec coherent keeps

/-- Over any sequence of accesses and write-backs: a read where there is memory gives the bytes that
the writes so far leave in a memory without a cache, no page is valid in both ways of a set, and a
write-back of everything makes the memory that one. -/
theorem dataCache_transparent {exist : Nat → Bool} {memory : Nat → UInt8} {TagLo : UInt32} {events : List Event} {s : State}
    (run : Trace (Step exist) (resetCache memory TagLo) events s) :
    (∀ width mem ppf value t, Step exist (.read width mem ppf value) s t → exist (ppf.toNat / 4096) = true →
      value = loadBytes (uncachedAll exist memory events) (place width ppf) width.bytes) ∧
    (∀ idx page, ¬ (s.Caches idx false page ∧ s.Caches idx true page)) ∧
    (writebackCache s).memory = uncachedAll exist memory events := by
  have coherent := coherent_run run
  refine ⟨fun width mem ppf value t step real => ?_, coherent.apart, writebackCache_spec coherent⟩
  cases step with
  | read translates result =>
    have spec := (readCache_spec coherent width translates).2 real
    rw [result] at spec
    exact spec

/-- A byte is written and the lines are written back. -/
theorem dataCache_transparent_oneByte :
    (writebackCache ((resetCache (fun _ => 0) 0).writeCache .w8 0x1004 0x1004 true [5])).memory 0x1004 = 5 := by
  have run : Trace (Step fun _ => true) (resetCache (fun _ => 0) 0) ([] ++ [.write .w8 0x1004 0x1004 [5]])
      ((resetCache (fun _ => 0) 0).writeCache .w8 0x1004 0x1004 true [5]) :=
    .snoc .nil (.write (fun _ => rfl) rfl)
  exact congrFun (dataCache_transparent run).2.2 0x1004

def clearedLine : State := ((resetCache (fun _ => 0) 0).writeCache .w8 0x1000 0x1000 false [5]).CACHE 0x18 0x1000 0x1000

/-- What was written where there is no memory is lost when its line leaves the cache. -/
theorem missing_page_lost :
    ∃ s, Trace (Step fun page => page != 1) (resetCache (fun _ => 0) 0)
      [.write .w8 0x1000 0x1000 [5], .cache 0x18 0x1000 0x1000, .read .w8 0x1000 0x1000 [0]] s := by
  have written : Trace (Step fun page => page != 1) (resetCache (fun _ => 0) 0) ([] ++ [.write .w8 0x1000 0x1000 [5]]) _ :=
    .snoc .nil (.write (fun _ => rfl) rfl)
  have cleared : Trace (Step fun page => page != 1) (resetCache (fun _ => 0) 0)
      ([.write .w8 0x1000 0x1000 [5]] ++ [.cache 0x18 0x1000 0x1000]) clearedLine :=
    written.snoc (.cache (fun _ => rfl) trivial)
  have lost : (clearedLine.readCache .w8 0x1000 0x1000 false).1 = [0] := by decide
  have last : Step (fun page => page != 1) (.read .w8 0x1000 0x1000 [0]) clearedLine
      (clearedLine.readCache .w8 0x1000 0x1000 false).2 := .read (fun _ => rfl) (Prod.ext lost rfl)
  exact ⟨_, cleared.snoc last⟩

end Pcsx2.EeCache
