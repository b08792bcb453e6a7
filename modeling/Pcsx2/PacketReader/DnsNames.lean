import Pcsx2.PacketReader.Dns

/-!
# DNS packets that are written
-/

namespace Pcsx2.PacketReader

open Foundation Foundation.Reader

/-- The start and the length of each segment that the loop writes, from the `i`-th character on. -/
def segments : List Byte → Nat → Nat → Nat → List (Nat × Nat)
  | [], _, segmentLength, segmentStart => if segmentLength ≠ 0 then [(segmentStart, segmentLength)] else []
  | c :: rest, i, segmentLength, segmentStart =>
    if c = dot then
      if segmentLength = 0 then segments rest (i + 1) segmentLength segmentStart
      else (segmentStart, segmentLength) :: segments rest (i + 1) 0 (i + 1)
    else segments rest (i + 1) (segmentLength + 1) segmentStart

def segmentBytes (value : List Byte) (segment : Nat × Nat) : List Byte := (value.drop segment.1).take segment.2

def writeDNSString (value : List Byte) : List Byte :=
  (segments value 0 0 0).flatMap (fun segment => BitVec.ofNat 8 segment.2 :: segmentBytes value segment) ++ [0]

/-- The labels that are written, in order. -/
def writtenLabels (value : List Byte) : List (List Byte) := (segments value 0 0 0).map (segmentBytes value)

namespace DNSQuestionEntry

def getLength (q : DNSQuestionEntry) : Nat := 1 + q.name.length + 1 + 4

def writeBytes (q : DNSQuestionEntry) : List Byte :=
  writeDNSString q.name ++ (writeUInt16 q.entryType ++ writeUInt16 q.entryClass)

end DNSQuestionEntry

namespace DNSResponseEntry

def getLength (r : DNSResponseEntry) : Nat := r.toDNSQuestionEntry.getLength + 4 + 2 + r.data.length

def writeBytes (r : DNSResponseEntry) : List Byte :=
  r.toDNSQuestionEntry.writeBytes ++ (writeUInt32 r.timeToLive ++ (writeUInt16 (BitVec.ofNat 16 r.data.length) ++ r.data))

end DNSResponseEntry

namespace DNSPacket

def getLength (p : DNSPacket) : Nat := 2 * 2 + 4 * 2 + (p.questions.map DNSQuestionEntry.getLength).sum +
  (p.answers.map DNSResponseEntry.getLength).sum + (p.authorities.map DNSResponseEntry.getLength).sum +
  (p.additional.map DNSResponseEntry.getLength).sum

def writeBytes (p : DNSPacket) : List Byte :=
  writeUInt16 p.id ++ ([p.flags1] ++ ([p.flags2] ++ (writeUInt16 (BitVec.ofNat 16 p.questions.length) ++
    (writeUInt16 (BitVec.ofNat 16 p.answers.length) ++ (writeUInt16 (BitVec.ofNat 16 p.authorities.length) ++
    (writeUInt16 (BitVec.ofNat 16 p.additional.length) ++ (p.questions.flatMap DNSQuestionEntry.writeBytes ++
    (p.answers.flatMap DNSResponseEntry.writeBytes ++ (p.authorities.flatMap DNSResponseEntry.writeBytes ++
    p.additional.flatMap DNSResponseEntry.writeBytes)))))))))

def responses (p : DNSPacket) : List DNSResponseEntry := p.answers ++ p.authorities ++ p.additional

def names (p : DNSPacket) : List (List Byte) := p.questions.map (·.name) ++ p.responses.map (·.name)

/-- As many bytes are written as the length tells, and the packet is parsed back from them. -/
def RoundTrips (p : DNSPacket) : Prop :=
  p.writeBytes.length = p.getLength ∧ ∃ fuel place, parse fuel p.writeBytes = some (p, place)

end DNSPacket

/-- A list of labels, joined by dots. -/
def WellNamed (name : List Byte) : Prop :=
  ∃ labels : List (List Byte), (∀ l ∈ labels, 1 ≤ l.length ∧ l.length ≤ 63 ∧ dot ∉ l ∧ 0 ∉ l) ∧ name = [dot].intercalate labels

/-! ## The labels that are written -/

variable {value front rest label name l : List Byte} {labels : List (List Byte)} {i k segmentLength segmentStart : Nat}

theorem segments_label (plain : dot ∉ label) :
    segments (label ++ rest) i segmentLength segmentStart =
      segments rest (i + label.length) (segmentLength + label.length) segmentStart := by
  induction label generalizing i segmentLength with
  | nil => rfl
  | cons c label ih =>
      rw [List.mem_cons, not_or] at plain
      rw [List.cons_append, segments, if_neg (Ne.symm plain.1), ih plain.2, List.length_cons]
      congr 1 <;> omega

/-- The labels that are written behind `k` dots in a row: a label is written from the first of them on. -/
def laggingLabels : Nat → List (List Byte) → List (List Byte)
  | _, [] => []
  | k, l :: labels =>
    if l = [] then laggingLabels (k + 1) labels else (List.replicate k dot ++ l).take l.length :: laggingLabels 0 labels

theorem segmentBytes_front : segmentBytes (front ++ value) (front.length, k) = value.take k := by
  rw [segmentBytes, List.drop_left]

theorem segments_dot : segments (dot :: rest) i segmentLength segmentStart =
    if segmentLength = 0 then segments rest (i + 1) 0 segmentStart
    else (segmentStart, segmentLength) :: segments rest (i + 1) 0 (i + 1) := by
  rw [segments, if_pos rfl]
  by_cases zero : segmentLength = 0
  · rw [if_pos zero, if_pos zero, zero]
  · rw [if_neg zero, if_neg zero]

theorem writtenLabels_from (plain : ∀ l ∈ labels, dot ∉ l) (some : labels ≠ []) :
    (segments ([dot].intercalate labels) (front.length + k) 0 front.length).map
        (segmentBytes (front ++ (List.replicate k dot ++ [dot].intercalate labels))) = laggingLabels k labels := by
  induction labels generalizing front k with
  | nil => exact absurd rfl some
  | cons l labels ih =>
      rw [List.forall_mem_cons] at plain
      have written (rest : List Byte) : segmentBytes (front ++ (List.replicate k dot ++ (l ++ rest))) (front.length, l.length) =
          (List.replicate k dot ++ l).take l.length := by
        rw [segmentBytes_front, ← List.append_assoc, List.take_append_of_le_length (by simp)]
      by_cases last : labels = []
      · subst last
        have whole := @segments_label [] l (front.length + k) 0 front.length plain.1
        rw [List.append_nil, Nat.zero_add] at whole
        rw [List.intercalate_singleton, whole, segments, laggingLabels]
        by_cases empty : l = []
        · subst empty
          rfl
        · have long : l.length ≠ 0 := fun zero => empty (List.length_eq_zero_iff.1 zero)
          have here := written []
          rw [List.append_nil] at here
          rw [if_pos long, if_neg empty, List.map_singleton, here]
          rfl
      · rw [List.intercalate_cons_of_ne_nil last, List.append_assoc, segments_label plain.1, List.singleton_append, segments_dot,
          Nat.zero_add, laggingLabels]
        by_cases empty : l = []
        · subst empty
          have dots : List.replicate k dot ++ ([] ++ dot :: [dot].intercalate labels) =
              List.replicate (k + 1) dot ++ [dot].intercalate labels := by
            rw [List.replicate_succ', List.append_assoc]
            rfl
          rw [if_pos List.length_nil, if_pos rfl, dots, List.length_nil, Nat.add_zero, Nat.add_assoc]
          exact ih plain.2 last
        · have long : l.length ≠ 0 := fun zero => empty (List.length_eq_zero_iff.1 zero)
          have behind := @ih (front ++ (List.replicate k dot ++ (l ++ [dot]))) 0 plain.2 last
          have place : (front ++ (List.replicate k dot ++ (l ++ [dot]))).length = front.length + k + l.length + 1 := by
            simp only [List.length_append, List.length_replicate, List.length_singleton]
            omega
          have whole : front ++ (List.replicate k dot ++ (l ++ [dot])) ++ (List.replicate 0 dot ++ [dot].intercalate labels) =
              front ++ (List.replicate k dot ++ (l ++ dot :: [dot].intercalate labels)) := by
            simp only [List.replicate_zero, List.nil_append, List.append_assoc, List.singleton_append]
          rw [place, whole, Nat.add_zero] at behind
          rw [if_neg long, if_neg empty, List.map_cons, written, behind]

theorem writtenLabels_join (plain : ∀ l ∈ labels, dot ∉ l) (some : labels ≠ []) :
    writtenLabels ([dot].intercalate labels) = laggingLabels 0 labels :=
  @writtenLabels_from [] labels 0 plain some

theorem laggingLabels_iff (plain : ∀ l ∈ labels, dot ∉ l) : laggingLabels k labels = labels.filter (· ≠ []) ↔
    if k = 0 then labels.Pairwise (fun l l' => l = [] → l' = []) else ∀ l ∈ labels, l = [] := by
  induction labels generalizing k with
  | nil => simp [laggingLabels]
  | cons l labels ih =>
      rw [List.forall_mem_cons] at plain
      by_cases empty : l = []
      · subst empty
        have tail : laggingLabels k ([] :: labels) = ([] :: labels).filter (· ≠ []) ↔ ∀ l ∈ labels, l = [] := by
          rw [laggingLabels, if_pos rfl, List.filter_cons_of_neg (by simp), ih plain.2, if_neg (Nat.succ_ne_zero k)]
        have later (all : ∀ l ∈ labels, l = []) : labels.Pairwise (fun l l' => l = [] → l' = []) :=
          List.pairwise_of_forall_mem_list fun _ _ l' mem _ => all l' mem
        rw [tail, List.pairwise_cons, List.forall_mem_cons, and_iff_right rfl]
        by_cases first : k = 0
        · rw [if_pos first]
          exact ⟨fun all => ⟨fun l mem _ => all l mem, later all⟩, fun pairs l mem => pairs.1 l mem rfl⟩
        · rw [if_neg first]
      · rw [laggingLabels, if_neg empty, List.filter_cons_of_pos (by simpa using empty), List.cons.injEq, ih plain.2, if_pos rfl]
        by_cases first : k = 0
        · subst first
          rw [if_pos rfl, List.replicate_zero, List.nil_append, List.take_length, and_iff_right rfl, List.pairwise_cons]
          exact (and_iff_right fun l' _ none => absurd none empty).symm
        · obtain ⟨k, rfl⟩ := Nat.exists_eq_succ_of_ne_zero first
          obtain ⟨c, l, rfl⟩ := List.exists_cons_of_ne_nil empty
          rw [if_neg first, List.forall_mem_cons]
          apply iff_of_false
          · rintro ⟨same, -⟩
            rw [List.replicate_succ, List.cons_append, List.length_cons, List.take_succ_cons, List.cons.injEq] at same
            exact plain.1 (same.1 ▸ List.mem_cons_self)
          · exact fun none => empty none.1

theorem not_mem_of_mem_splitOn : ∀ l ∈ name.splitOn dot, dot ∉ l := by
  induction name with
  | nil => simp
  | cons c name ih =>
      rw [List.splitOn_cons_eq_if_modifyHead]
      by_cases here : (c == dot) = true
      · rw [if_pos here]
        exact List.forall_mem_cons.2 ⟨List.not_mem_nil, ih⟩
      · rw [if_neg here]
        cases split : name.splitOn dot with
        | nil => simp
        | cons l labels =>
            rw [split, List.forall_mem_cons] at ih
            rw [List.modifyHead_cons, List.forall_mem_cons, List.mem_cons, not_or]
            exact ⟨⟨fun same => here (beq_iff_eq.2 same.symm), ih.1⟩, ih.2⟩

theorem writtenLabels_iff (name : List Byte) : writtenLabels name = (name.splitOn dot).filter (· ≠ []) ↔
    (name.splitOn dot).Pairwise fun l l' => l = [] → l' = [] := by
  have whole := writtenLabels_join (@not_mem_of_mem_splitOn name) (List.splitOn_ne_nil dot name)
  rw [List.intercalate_splitOn] at whole
  rw [whole, laggingLabels_iff not_mem_of_mem_splitOn, if_pos rfl]

/-! ## What is read back -/

def labelBytes (l : List Byte) : List Byte := BitVec.ofNat 8 l.length :: l

theorem laggingLabels_full (full : ∀ l ∈ labels, l ≠ []) : laggingLabels 0 labels = labels := by
  induction labels with
  | nil => rfl
  | cons l labels ih =>
      rw [List.forall_mem_cons] at full
      rw [laggingLabels, if_neg full.1, List.replicate_zero, List.nil_append, List.take_length, ih full.2]

theorem writtenLabels_full (plain : ∀ l ∈ labels, l ≠ [] ∧ dot ∉ l) : writtenLabels ([dot].intercalate labels) = labels := by
  by_cases some : labels = []
  · subst some
    rfl
  · rw [writtenLabels_join (fun l mem => (plain l mem).2) some, laggingLabels_full fun l mem => (plain l mem).1]

theorem segments_inside (behind : segmentStart + segmentLength ≤ i) :
    ∀ segment ∈ segments value i segmentLength segmentStart, segment.1 + segment.2 ≤ i + value.length := by
  induction value generalizing i segmentLength segmentStart with
  | nil =>
      rw [segments]
      split
      · simpa using behind
      · exact fun _ none => absurd none List.not_mem_nil
  | cons c value ih =>
      have later (segment : Nat × Nat) (inside : segment.1 + segment.2 ≤ i + 1 + value.length) :
          segment.1 + segment.2 ≤ i + (c :: value).length := by
        rw [List.length_cons]
        omega
      rw [segments]
      split
      · split
        · exact fun segment mem => later segment (ih (by omega) segment mem)
        · rw [List.forall_mem_cons]
          exact ⟨later _ (by omega), fun segment mem => later segment (ih (by omega) segment mem)⟩
      · exact fun segment mem => later segment (ih (by omega) segment mem)

theorem writeDNSString_eq (value : List Byte) : writeDNSString value = (writtenLabels value).flatMap labelBytes ++ [0] := by
  have length : ∀ segment ∈ segments value 0 0 0, (segmentBytes value segment).length = segment.2 := by
    intro segment mem
    have inside := segments_inside (Nat.le_refl 0) segment mem
    rw [segmentBytes, List.length_take, List.length_drop]
    omega
  rw [writeDNSString, writtenLabels, List.flatMap_map]
  congr 1
  apply List.flatMap_congr
  intro segment mem
  rw [labelBytes, length segment mem]

theorem writeDNSString_labels (plain : ∀ l ∈ labels, l ≠ [] ∧ dot ∉ l) :
    writeDNSString ([dot].intercalate labels) = labels.flatMap labelBytes ++ [0] := by
  rw [writeDNSString_eq, writtenLabels_full plain]

theorem length_labels : (labels.flatMap labelBytes).length = ([dot].intercalate labels).length + if labels = [] then 0 else 1 := by
  induction labels with
  | nil => rfl
  | cons l labels ih =>
      rw [List.flatMap_cons, List.length_append, ih, if_neg (List.cons_ne_nil l labels), labelBytes, List.length_cons]
      by_cases last : labels = []
      · subst last
        rw [if_pos rfl, List.intercalate_singleton]
        rfl
      · rw [if_neg last, List.intercalate_cons_of_ne_nil last, List.length_append, List.length_append, List.length_singleton]
        omega

theorem toNat_labelLength (short : l.length < 192) : (BitVec.ofNat 8 l.length).toNat = l.length := by
  rw [BitVec.toNat_ofNat, Nat.mod_eq_of_lt (by omega)]

theorem exists_next (plain : ∀ l ∈ labels, l ≠ [] ∧ l.length < 192) :
    ∃ next rest, labels.flatMap labelBytes ++ [0] = next :: rest ∧ (next = 0 ↔ labels = []) := by
  cases labels with
  | nil => exact ⟨0, [], rfl, iff_of_true rfl rfl⟩
  | cons l labels =>
      obtain ⟨some, short⟩ := plain l List.mem_cons_self
      refine ⟨BitVec.ofNat 8 l.length, _, rfl, iff_of_false (fun zero => ?_) (List.cons_ne_nil _ _)⟩
      have size := toNat_labelLength short
      rw [zero] at size
      exact some (List.length_eq_zero_iff.1 size.symm)

theorem reads_labels (plain : ∀ l ∈ labels, l ≠ [] ∧ l.length < 192) :
    Reads (readDNSString (labels.length + 1)) (labels.flatMap labelBytes ++ [0]) ([dot].intercalate labels) := by
  induction labels with
  | nil =>
      intro before after
      exact readSegment_null getElem?_front
  | cons l labels ih =>
      rw [List.forall_mem_cons] at plain
      intro before after
      obtain ⟨next, rest, split, last⟩ := exists_next plain.2
      have size := toNat_labelLength plain.1.2
      have nonzero : BitVec.ofNat 8 l.length ≠ 0 := by
        intro zero
        rw [zero] at size
        exact plain.1.1 (List.length_eq_zero_iff.1 size.symm)
      have small : (BitVec.ofNat 8 l.length).toNat < 192 := size.trans_lt plain.1.2
      have later := ih plain.2 (before ++ labelBytes l) after
      have place : (before ++ labelBytes l).length = before.length + 1 + l.length := by
        rw [List.length_append, labelBytes, List.length_cons]
        omega
      have whole : before ++ ((l :: labels).flatMap labelBytes ++ [0] ++ after) =
          before ++ labelBytes l ++ (labels.flatMap labelBytes ++ [0] ++ after) := by
        simp only [List.flatMap_cons, List.append_assoc]
      have here : (before ++ labelBytes l ++ (labels.flatMap labelBytes ++ [0] ++ after))[before.length]? =
          some (BitVec.ofNat 8 l.length) := by
        rw [List.append_assoc]
        exact getElem?_front
      have behind : (before ++ labelBytes l ++ (labels.flatMap labelBytes ++ [0] ++ after))[before.length + 1 +
          (BitVec.ofNat 8 l.length).toNat]? = some next := by
        rw [size, ← place, split, List.cons_append]
        exact getElem?_front
      have label : ((before ++ labelBytes l ++ (labels.flatMap labelBytes ++ [0] ++ after)).drop (before.length + 1)).take
          (BitVec.ofNat 8 l.length).toNat = l := by
        rw [size, List.append_assoc, ← List.drop_drop, List.drop_left]
        exact List.take_left
      rw [whole, List.length_cons, readDNSString, readSegment_label here nonzero small behind, label, size, ← place, later,
        Option.map_some, List.length_append, List.flatMap_cons, List.append_assoc (labelBytes l), @List.length_append _ (labelBytes l),
        ← Nat.add_assoc]
      by_cases done : labels = []
      · subst done
        rw [if_neg (not_not_intro (last.2 rfl)), List.append_nil, List.intercalate_singleton]
        simp
      · rw [if_pos (fun zero => done (last.1 zero)), List.intercalate_cons_of_ne_nil done]

theorem WellNamed.readsBack (named : WellNamed name) : ReadsBack readDNSString (writeDNSString name) name := by
  obtain ⟨labels, plain, rfl⟩ := named
  have full (l : List Byte) (mem : l ∈ labels) : l ≠ [] := by
    rintro rfl
    exact absurd (plain [] mem).1 (by decide)
  rw [writeDNSString_labels fun l mem => ⟨full l mem, (plain l mem).2.2.1⟩]
  exact ⟨labels.length + 1, reads_labels fun l mem => ⟨full l mem, by have := (plain l mem).2.1; omega⟩⟩

theorem WellNamed.length (named : WellNamed name) :
    (writeDNSString name).length + (if name = [] then 1 else 0) = 1 + name.length + 1 := by
  obtain ⟨labels, plain, rfl⟩ := named
  have full (l : List Byte) (mem : l ∈ labels) : l ≠ [] := by
    rintro rfl
    exact absurd (plain [] mem).1 (by decide)
  rw [writeDNSString_labels fun l mem => ⟨full l mem, (plain l mem).2.2.1⟩, List.length_append, List.length_singleton, length_labels]
  cases labels with
  | nil => rfl
  | cons l labels =>
      have some : [dot].intercalate (l :: labels) ≠ [] := by
        intro none
        have long := @length_labels (l :: labels)
        have first := full l List.mem_cons_self
        have positive : 0 < l.length := List.length_pos_iff.2 first
        rw [none, List.flatMap_cons, List.length_append, labelBytes, List.length_cons, if_neg (List.cons_ne_nil l labels)] at long
        simp only [List.length_nil] at long
        omega
      rw [if_neg some, if_neg (List.cons_ne_nil l labels)]
      omega

namespace DNSQuestionEntry

variable {q : DNSQuestionEntry}

theorem readsBack (named : WellNamed q.name) : ReadsBack read q.writeBytes q :=
  named.readsBack.bind grows_readDNSString (fun _ => Grows.const _)
    (.const ((reads_readUInt16 q.entryType).bind (reads_readUInt16 q.entryClass).map))

theorem length_writeBytes (named : WellNamed q.name) : q.writeBytes.length + (if q.name = [] then 1 else 0) = q.getLength := by
  have name := named.length
  rw [writeBytes, List.length_append, List.length_append, length_writeUInt16, length_writeUInt16, getLength]
  omega

end DNSQuestionEntry

namespace DNSResponseEntry

variable {r : DNSResponseEntry}

theorem readsBack (named : WellNamed r.name) (small : r.data.length ≤ 65535) : ReadsBack read r.writeBytes r := by
  have size : (BitVec.ofNat 16 r.data.length).toNat = r.data.length := by
    rw [BitVec.toNat_ofNat, Nat.mod_eq_of_lt (by omega)]
  exact (DNSQuestionEntry.readsBack named).bind grows_question (fun _ => Grows.const _)
    (.const ((reads_readUInt32 r.timeToLive).bind ((reads_readUInt16 (BitVec.ofNat 16 r.data.length)).bind
      (reads_items r.data size.symm).map)))

theorem length_writeBytes (named : WellNamed r.name) : r.writeBytes.length + (if r.name = [] then 1 else 0) = r.getLength := by
  have question := DNSQuestionEntry.length_writeBytes named
  rw [writeBytes, List.length_append, List.length_append, List.length_append, length_writeUInt32, length_writeUInt16, getLength]
  omega

end DNSResponseEntry

theorem length_flatMap_add {α : Type} {entries : List α} {write : α → List Byte} {length : α → Nat} {root : α → Prop} [DecidablePred root]
    (each : ∀ e ∈ entries, (write e).length + (if root e then 1 else 0) = length e) :
    (entries.flatMap write).length + entries.countP (fun e => root e) = (entries.map length).sum := by
  induction entries with
  | nil => rfl
  | cons e entries ih =>
      rw [List.forall_mem_cons] at each
      have here := each.1
      have there := ih each.2
      rw [List.flatMap_cons, List.length_append, List.countP_cons, List.map_cons, List.sum_cons]
      simp only [decide_eq_true_eq]
      omega

theorem length_questions {entries : List DNSQuestionEntry} (named : ∀ q ∈ entries, WellNamed q.name) :
    (entries.flatMap DNSQuestionEntry.writeBytes).length + entries.countP (fun q => q.name = []) =
      (entries.map DNSQuestionEntry.getLength).sum :=
  length_flatMap_add fun q mem => DNSQuestionEntry.length_writeBytes (named q mem)

theorem length_responses {entries : List DNSResponseEntry} (named : ∀ r ∈ entries, WellNamed r.name) :
    (entries.flatMap DNSResponseEntry.writeBytes).length + entries.countP (fun r => r.name = []) =
      (entries.map DNSResponseEntry.getLength).sum :=
  length_flatMap_add fun r mem => DNSResponseEntry.length_writeBytes (named r mem)

namespace DNSPacket

variable {p : DNSPacket}

theorem forall_names {motive : List Byte → Prop} : (∀ name ∈ p.names, motive name) ↔ (∀ q ∈ p.questions, motive q.name) ∧
    (∀ r ∈ p.answers, motive r.name) ∧ (∀ r ∈ p.authorities, motive r.name) ∧ ∀ r ∈ p.additional, motive r.name := by
  simp only [names, responses, List.map_append, List.forall_mem_append, List.forall_mem_map, and_assoc]

theorem forall_responses {motive : DNSResponseEntry → Prop} : (∀ r ∈ p.responses, motive r) ↔
    (∀ r ∈ p.answers, motive r) ∧ (∀ r ∈ p.authorities, motive r) ∧ ∀ r ∈ p.additional, motive r := by
  simp only [responses, List.forall_mem_append, and_assoc]

theorem length_writeBytes_iff (named : ∀ name ∈ p.names, WellNamed name) :
    p.writeBytes.length = p.getLength ↔ ∀ name ∈ p.names, name ≠ [] := by
  obtain ⟨questions, answers, authorities, additional⟩ := forall_names.1 named
  have none : (∀ name ∈ p.names, name ≠ []) ↔ p.questions.countP (fun q => q.name = []) = 0 ∧
      p.answers.countP (fun r => r.name = []) = 0 ∧ p.authorities.countP (fun r => r.name = []) = 0 ∧
      p.additional.countP (fun r => r.name = []) = 0 := by
    simp only [forall_names, List.countP_eq_zero, decide_eq_true_eq]
  rw [none, getLength, ← length_questions questions, ← length_responses answers, ← length_responses authorities,
    ← length_responses additional]
  simp only [writeBytes, List.length_append, length_writeUInt16, List.length_singleton]
  omega

/-- The counts of the entries fit their fields. -/
def Counted (p : DNSPacket) : Prop := p.questions.length ≤ 65535 ∧ p.answers.length ≤ 65535 ∧
  p.authorities.length ≤ 65535 ∧ p.additional.length ≤ 65535

instance (p : DNSPacket) : Decidable p.Counted := inferInstanceAs (Decidable (_ ∧ _ ∧ _ ∧ _))

theorem toNat_count {entries : Nat} (fits : entries ≤ 65535) : (BitVec.ofNat 16 entries).toNat = entries := by
  rw [BitVec.toNat_ofNat, Nat.mod_eq_of_lt (by omega)]

theorem readsBack (named : ∀ name ∈ p.names, WellNamed name) (small : ∀ r ∈ p.responses, r.data.length ≤ 65535)
    (counted : p.Counted) : ReadsBack read p.writeBytes p := by
  obtain ⟨questions, answers, authorities, additional⟩ := forall_names.1 named
  obtain ⟨answerData, authorityData, additionalData⟩ := forall_responses.1 small
  obtain ⟨qCount, aCount, auCount, adCount⟩ := counted
  have entries : ReadsBack (readEntries (DNSPacket.mk p.id p.flags1 p.flags2) (BitVec.ofNat 16 p.questions.length)
      (BitVec.ofNat 16 p.answers.length) (BitVec.ofNat 16 p.authorities.length) (BitVec.ofNat 16 p.additional.length))
      (p.questions.flatMap DNSQuestionEntry.writeBytes ++ (p.answers.flatMap DNSResponseEntry.writeBytes ++
        (p.authorities.flatMap DNSResponseEntry.writeBytes ++ p.additional.flatMap DNSResponseEntry.writeBytes))) p := by
    have q := ReadsBack.many grows_question _ fun q mem => DNSQuestionEntry.readsBack (questions q mem)
    have a := ReadsBack.many grows_response _ fun r mem => DNSResponseEntry.readsBack (answers r mem) (answerData r mem)
    have au := ReadsBack.many grows_response _ fun r mem => DNSResponseEntry.readsBack (authorities r mem) (authorityData r mem)
    have ad := ReadsBack.many grows_response _ fun r mem => DNSResponseEntry.readsBack (additional r mem) (additionalData r mem)
    unfold readEntries
    simp only [toNat_count qCount, toNat_count aCount, toNat_count auCount, toNat_count adCount]
    refine q.bind grows_question.many (fun _ => ?_) (a.bind grows_response.many (fun _ => ?_)
      (au.bind grows_response.many (fun _ => ?_) ad.map))
    · exact grows_response.many.bind fun _ => grows_response.many.bind fun _ => grows_response.many.bind fun _ => Grows.const _
    · exact grows_response.many.bind fun _ => grows_response.many.bind fun _ => Grows.const _
    · exact grows_response.many.bind fun _ => Grows.const _
  obtain ⟨fuel, entries⟩ := entries
  exact ⟨fuel, (reads_readUInt16 p.id).bind ((reads_readByte08 p.flags1).bind ((reads_readByte08 p.flags2).bind
    ((reads_readUInt16 (BitVec.ofNat 16 p.questions.length)).bind ((reads_readUInt16 (BitVec.ofNat 16 p.answers.length)).bind
    ((reads_readUInt16 (BitVec.ofNat 16 p.authorities.length)).bind ((reads_readUInt16 (BitVec.ofNat 16 p.additional.length)).bind
      entries))))))⟩

theorem counted_of_parse {fuel place : Nat} {bytes : List Byte} (parsed : parse fuel bytes = some (p, place)) : p.Counted := by
  obtain ⟨id, _, -, parsed⟩ := bind_eq_some parsed
  obtain ⟨flags1, _, -, parsed⟩ := bind_eq_some parsed
  obtain ⟨flags2, _, -, parsed⟩ := bind_eq_some parsed
  obtain ⟨qCount, _, -, parsed⟩ := bind_eq_some parsed
  obtain ⟨aCount, _, -, parsed⟩ := bind_eq_some parsed
  obtain ⟨auCount, _, -, parsed⟩ := bind_eq_some parsed
  obtain ⟨adCount, _, -, parsed⟩ := bind_eq_some parsed
  obtain ⟨questions, _, q, parsed⟩ := bind_eq_some parsed
  obtain ⟨answers, _, a, parsed⟩ := bind_eq_some parsed
  obtain ⟨authorities, _, au, parsed⟩ := bind_eq_some parsed
  obtain ⟨additional, _, ad, parsed⟩ := bind_eq_some parsed
  cases parsed
  have qBound := qCount.isLt
  have aBound := aCount.isLt
  have auBound := auCount.isLt
  have adBound := adCount.isLt
  rw [← length_of_many q] at qBound
  rw [← length_of_many a] at aBound
  rw [← length_of_many au] at auBound
  rw [← length_of_many ad] at adBound
  exact ⟨Nat.le_of_lt_succ qBound, Nat.le_of_lt_succ aBound, Nat.le_of_lt_succ auBound, Nat.le_of_lt_succ adBound⟩

theorem roundTrips_iff_of_named (named : ∀ name ∈ p.names, WellNamed name) (small : ∀ r ∈ p.responses, r.data.length ≤ 65535) :
    p.RoundTrips ↔ (∀ name ∈ p.names, name ≠ []) ∧ p.Counted := by
  apply and_congr (length_writeBytes_iff named)
  constructor
  · rintro ⟨fuel, place, parsed⟩
    exact counted_of_parse parsed
  · intro counted
    obtain ⟨fuel, reads⟩ := readsBack named small counted
    have here := reads [] []
    rw [List.nil_append, List.append_nil] at here
    exact ⟨fuel, _, here⟩

/-- Packets come back where no name is empty and the counts fit, and labels are written as they are
where no other label follows an empty one. -/
theorem dns_roundTrips_iff (p : DNSPacket) (named : ∀ name ∈ p.names, WellNamed name)
    (small : ∀ r ∈ p.responses, r.data.length ≤ 65535) (name : List Byte) :
    (p.RoundTrips ↔ (∀ name ∈ p.names, name ≠ []) ∧ p.Counted) ∧
      (writtenLabels name = (name.splitOn dot).filter (· ≠ []) ↔ (name.splitOn dot).Pairwise fun l l' => l = [] → l' = []) :=
  ⟨roundTrips_iff_of_named named small, writtenLabels_iff name⟩

/-- A question and its answer, with a name of two labels. -/
def answered : DNSPacket := ⟨7, 0x81, 0x80, [⟨[97, dot, 98], 1, 1⟩], [⟨⟨[97, dot, 98], 1, 1⟩, 60, [127, 0, 0, 1]⟩], [], []⟩

theorem answered_roundTrips : answered.RoundTrips ∧ writtenLabels [97, dot, dot] = [[97]] := by
  have named : ∀ name ∈ answered.names, WellNamed name := by
    have both : ∀ name ∈ answered.names, name = [97, dot, 98] := by decide
    intro name mem
    exact ⟨[[97], [98]], by decide, both name mem⟩
  have both := dns_roundTrips_iff answered named (by decide) [97, dot, dot]
  exact ⟨both.1.2 ⟨by decide, by decide⟩, (both.2.2 (by decide)).trans (by decide)⟩

def rootQuestion : DNSPacket := ⟨7, 1, 0, [⟨[], 2, 1⟩], [], [], []⟩

theorem rootQuestion_not_roundTrips : ((∀ name ∈ rootQuestion.names, WellNamed name) ∧ ¬rootQuestion.RoundTrips) ∧
    writtenLabels [dot, 97] ≠ ([dot, 97].splitOn dot).filter (· ≠ []) := by
  have named : ∀ name ∈ rootQuestion.names, WellNamed name := by
    have root : ∀ name ∈ rootQuestion.names, name = [] := by decide
    intro name mem
    exact ⟨[], by decide, root name mem⟩
  exact ⟨⟨named, fun trips => absurd trips.1 (by decide)⟩, by decide⟩

end DNSPacket

end Pcsx2.PacketReader
