import Mathlib.Data.UInt
import Pcsx2.Foundation.Memory
import Pcsx2.Foundation.Run
import Pcsx2.Jit.BlockArray

/-!
# The jump sites of the recompilers

`BaseBlocks` patches a registered jump site when the block it jumps to is linked, created or
removed. The clearing of removed blocks in a development build is left out.
-/

namespace Pcsx2.Jit
open Foundation

abbrev Memory := Nat → UInt8

/-- A jump registered by `Link`: the guest address it goes to and the address of its displacement. -/
abbrev Site := UInt32 × UInt64

structure BaseBlocks where
  /-- In the order of insertion, which `equal_range` keeps among equal keys. -/
  links : List Site
  recompiler : UInt64
  blocks : List BaseBlockEx
  /-- The code that holds the jump sites. -/
  code : Memory

def displacement (fnptr jumpptr : UInt64) : List UInt8 :=
  let d := (fnptr - (jumpptr + 4)).toUInt32
  [d.toUInt8, (d >>> 8).toUInt8, (d >>> 16).toUInt8, (d >>> 24).toUInt8]

@[simp] theorem displacement_length (fnptr jumpptr : UInt64) :
    (displacement fnptr jumpptr).length = 4 := rfl

/-- The stores of `*jumpptr = fnptr - (jumpptr + 4)`. -/
def patch (fnptr jumpptr : UInt64) : List (Nat × UInt8) :=
  blockStores jumpptr.toNat (displacement fnptr jumpptr)

/-- The loop over `links.equal_range(startpc)`. -/
def patchRange (links : List Site) (startpc : UInt32) (fnptr : UInt64) : List (Nat × UInt8) :=
  (links.filter fun link => link.1 = startpc).flatMap fun link => patch fnptr link.2

def BaseBlocks.new (s : BaseBlocks) (startpc : UInt32) (fnptr : UInt64) : BaseBlocks :=
  { s with
    code := perform s.code (patchRange s.links startpc fnptr)
    blocks := insert s.blocks startpc fnptr }

def BaseBlocks.link (s : BaseBlocks) (pc : UInt32) (jumpptr : UInt64) : BaseBlocks :=
  let target := match get s.blocks pc with
    | some targetblock => if targetblock.startpc = pc then targetblock.fnptr else s.recompiler
    | none => s.recompiler
  { s with
    code := perform s.code (patch target jumpptr)
    links := s.links ++ [(pc, jumpptr)] }

def BaseBlocks.remove (s : BaseBlocks) (first last : Nat) : BaseBlocks :=
  let removed := (s.blocks.drop first).take (last + 1 - first)
  { s with
    code := removed.foldl (fun code block =>
      perform code (patchRange s.links block.startpc s.recompiler)) s.code
    blocks := erase s.blocks first (last + 1) }

def BaseBlocks.reset (s : BaseBlocks) : BaseBlocks := { s with blocks := [], links := [] }

/-! ## Runs -/

inductive Op where
  | new (startpc : UInt32) (fnptr : UInt64)
  | link (pc : UInt32) (jumpptr : UInt64)
  | remove (first last : Nat)
  | reset

/-- Two displacements do not overlap. -/
def Apart (first second : Site) : Prop :=
  first.2.toNat + 4 ≤ second.2.toNat ∨ second.2.toNat + 4 ≤ first.2.toNat

instance : Std.Symm Apart where
  symm _ _ := Or.symm

inductive Step : Op → BaseBlocks → BaseBlocks → Prop
  | new {s startpc fnptr} (fresh : ∀ b ∈ s.blocks, b.startpc ≠ startpc) :
      Step (.new startpc fnptr) s (s.new startpc fnptr)
  | link {s pc jumpptr} (fresh : ∀ link ∈ s.links, Apart link (pc, jumpptr)) :
      Step (.link pc jumpptr) s (s.link pc jumpptr)
  | remove {s first last} (ordered : first ≤ last) (valid : last < s.blocks.length) :
      Step (.remove first last) s (s.remove first last)
  | reset {s} : Step .reset s s.reset

def BaseBlocks.initial (recompiler : UInt64) (code : Memory) : BaseBlocks :=
  { links := [], recompiler, blocks := [], code }

/-- The sites linked since the last reset. -/
def linkedSites (ops : List Op) : List Site :=
  ops.foldl (fun sites op => match op with
    | .link pc jumpptr => sites ++ [(pc, jumpptr)]
    | .reset => []
    | _ => sites) []

/-- The site jumps to the block that starts at its target, or to the recompiler if there is none. -/
def Linked (s : BaseBlocks) (site : Site) : Prop :=
  (∀ b ∈ s.blocks, b.startpc = site.1 →
    load s.code site.2.toNat 4 = displacement b.fnptr site.2) ∧
  ((∀ b ∈ s.blocks, b.startpc ≠ site.1) →
    load s.code site.2.toNat 4 = displacement s.recompiler site.2)

/-! ## Patches -/

section

variable {links : List Site} (apart : links.Pairwise Apart) {site : Site} (member : site ∈ links)
include apart member

theorem load_patchRange (code : Memory) (startpc : UInt32) (fnptr : UInt64) :
    load (perform code (patchRange links startpc fnptr)) site.2.toNat 4 =
      if site.1 = startpc then displacement fnptr site.2 else load code site.2.toNat 4 := by
  split
  · rename_i target
    have blocks : patchRange links startpc fnptr =
        ((links.filter fun link => link.1 = startpc).map fun link =>
          (link.2.toNat, displacement fnptr link.2)).flatMap fun b => blockStores b.1 b.2 := by
      rw [List.flatMap_map]
      rfl
    rw [blocks]
    refine load_perform_blocks (b := (site.2.toNat, displacement fnptr site.2)) ?_ ?_
    · exact (List.pairwise_map.2 (apart.filter _))
    · exact List.mem_map.2 ⟨site, List.mem_filter.2 ⟨member, by simpa using target⟩, rfl⟩
  · rename_i other
    refine load_perform_disjoint fun s stored => ?_
    obtain ⟨link, selected, stored⟩ := List.mem_flatMap.1 stored
    obtain ⟨linked, target⟩ := List.mem_filter.1 selected
    have bounds := blockStores_bounds stored
    rw [displacement_length] at bounds
    have ne : link ≠ site := fun equal => other (by simpa [equal] using target)
    have := apart.forall linked member ne
    unfold Apart at this
    omega

theorem load_removed (code : Memory) (recompiler : UInt64) (removed : List BaseBlockEx) :
    load (removed.foldl (fun code block =>
        perform code (patchRange links block.startpc recompiler)) code) site.2.toNat 4 =
      if ∃ b ∈ removed, b.startpc = site.1 then displacement recompiler site.2
      else load code site.2.toNat 4 := by
  induction removed generalizing code with
  | nil => simp
  | cons b rest ih =>
      rw [List.foldl_cons, ih, load_patchRange apart member]
      by_cases later : ∃ c ∈ rest, c.startpc = site.1
      · simp [later]
      · by_cases first : b.startpc = site.1
        · simp [later, first]
        · simp [later, first, Ne.symm first]

end

/-! ## The invariant -/

structure Inv (ops : List Op) (s : BaseBlocks) : Prop where
  links : s.links = linkedSites ops
  apart : s.links.Pairwise Apart
  sorted : Sorted s.blocks
  unsized : ∀ b ∈ s.blocks, b.size = 0
  linked : ∀ site ∈ s.links, Linked s site

theorem linkedSites_snoc (ops : List Op) (op : Op) :
    linkedSites (ops ++ [op]) = match op with
      | .link pc jumpptr => linkedSites ops ++ [(pc, jumpptr)]
      | .reset => []
      | _ => linkedSites ops := by
  rw [linkedSites, List.foldl_append]
  rfl

theorem inv_initial (recompiler : UInt64) (code : Memory) : Inv [] (.initial recompiler code) where
  links := rfl
  apart := .nil
  sorted := .nil
  unsized := fun _ member => absurd member List.not_mem_nil
  linked := fun _ member => absurd member List.not_mem_nil

section

variable {ops : List Op} {s : BaseBlocks} (inv : Inv ops s)
include inv

theorem inv_new {startpc : UInt32} {fnptr : UInt64} (fresh : ∀ b ∈ s.blocks, b.startpc ≠ startpc) :
    Inv (ops ++ [.new startpc fnptr]) (s.new startpc fnptr) where
  links := by rw [linkedSites_snoc]; exact inv.links
  apart := inv.apart
  sorted := insert_sorted inv.sorted fresh
  unsized := by
    intro b member
    rcases (mem_insert inv.sorted).1 member with rfl | member
    · rfl
    · exact inv.unsized b member
  linked := by
    intro site member
    have patched := load_patchRange inv.apart member s.code startpc fnptr
    constructor
    · intro b inserted target
      rcases (mem_insert inv.sorted).1 inserted with rfl | old
      · exact patched.trans (if_pos target.symm)
      · rw [if_neg fun equal => fresh b old (target.trans equal)] at patched
        exact patched.trans ((inv.linked site member).1 b old target)
    · intro none
      have new := none _ ((mem_insert inv.sorted).2 (.inl rfl))
      rw [if_neg (Ne.symm new)] at patched
      exact patched.trans
        ((inv.linked site member).2 fun b old => none b ((mem_insert inv.sorted).2 (.inr old)))

theorem link_target (pc : UInt32) :
    let target := match get s.blocks pc with
      | some targetblock => if targetblock.startpc = pc then targetblock.fnptr else s.recompiler
      | none => s.recompiler
    (∀ b ∈ s.blocks, b.startpc = pc → target = b.fnptr) ∧
    ((∀ b ∈ s.blocks, b.startpc ≠ pc) → target = s.recompiler) := by
  constructor
  · intro b member start
    have found := ((get_start inv.sorted inv.unsized pc b).2 ⟨member, start⟩).1
    simp [found, start]
  · intro none
    cases found : get s.blocks pc with
    | none => rfl
    | some b =>
        refine if_neg fun start => ?_
        exact none b ((get_start inv.sorted inv.unsized pc b).1 ⟨found, start⟩).1 start

theorem inv_link {pc : UInt32} {jumpptr : UInt64}
    (fresh : ∀ link ∈ s.links, Apart link (pc, jumpptr)) :
    Inv (ops ++ [.link pc jumpptr]) (s.link pc jumpptr) where
  links := by
    rw [linkedSites_snoc]
    exact congrArg (· ++ [(pc, jumpptr)]) inv.links
  apart := List.pairwise_append.2 ⟨inv.apart, List.pairwise_singleton _ _, fun link member other own =>
    List.mem_singleton.1 own ▸ fresh link member⟩
  sorted := inv.sorted
  unsized := inv.unsized
  linked := by
    intro site member
    rcases List.mem_append.1 member with member | member
    · have kept : load (s.link pc jumpptr).code site.2.toNat 4 = load s.code site.2.toNat 4 := by
        refine load_perform_disjoint fun st stored => ?_
        have bounds := blockStores_bounds stored
        rw [displacement_length] at bounds
        have apart := fresh site member
        simp only [Apart] at apart
        omega
      unfold Linked
      rw [kept]
      exact inv.linked site member
    · obtain rfl := List.mem_singleton.1 member
      have stored (target : UInt64) :
          load (perform s.code (patch target jumpptr)) jumpptr.toNat 4 =
            displacement target jumpptr :=
        load_perform_block _ _ (displacement target jumpptr)
      obtain ⟨found, none⟩ := link_target inv pc
      exact ⟨fun b member start => (stored _).trans (by rw [found b member start]),
        fun absent => (stored _).trans (by rw [none absent]; rfl)⟩

theorem inv_remove {first last : Nat} (ordered : first ≤ last) :
    Inv (ops ++ [.remove first last]) (s.remove first last) where
  links := by rw [linkedSites_snoc]; exact inv.links
  apart := inv.apart
  sorted := erase_sorted inv.sorted (by omega)
  unsized := fun b member => inv.unsized b ((mem_erase (by omega)).2 (.inr member))
  linked := by
    intro site member
    have le : first ≤ last + 1 := by omega
    have patched := load_removed inv.apart member s.code s.recompiler
      ((s.blocks.drop first).take (last + 1 - first))
    by_cases target : ∃ b ∈ (s.blocks.drop first).take (last + 1 - first), b.startpc = site.1
    · rw [if_pos target] at patched
      obtain ⟨b, erased, start⟩ := target
      refine ⟨fun c kept same => ?_, fun _ => patched⟩
      exact absurd (start.trans same.symm) (erased_ne inv.sorted le erased kept)
    · rw [if_neg target] at patched
      refine ⟨fun c kept start => ?_, fun absent => ?_⟩
      · exact patched.trans ((inv.linked site member).1 c ((mem_erase le).2 (.inr kept)) start)
      · refine patched.trans ((inv.linked site member).2 fun c old start => ?_)
        rcases (mem_erase le).1 old with erased | kept
        · exact target ⟨c, erased, start⟩
        · exact absent c kept start

end

theorem inv_reset (ops : List Op) (s : BaseBlocks) : Inv (ops ++ [.reset]) s.reset where
  links := by rw [linkedSites_snoc]; rfl
  apart := .nil
  sorted := .nil
  unsized := fun _ member => absurd member List.not_mem_nil
  linked := fun _ member => absurd member List.not_mem_nil

theorem inv_step {ops : List Op} {s t : BaseBlocks} {op : Op} (inv : Inv ops s)
    (step : Step op s t) : Inv (ops ++ [op]) t := by
  cases step with
  | new fresh => exact inv_new inv fresh
  | link fresh => exact inv_link inv fresh
  | remove ordered valid => exact inv_remove inv ordered
  | reset => exact inv_reset ops s

end Pcsx2.Jit
