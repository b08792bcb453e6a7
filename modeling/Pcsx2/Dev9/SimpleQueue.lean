import Mathlib.Data.List.Nodup
import Mathlib.Logic.Function.Basic
import Pcsx2.Foundation.Run

/-!
# A queue from one thread to another

One thread enqueues and the other one dequeues. Each access to the shared memory is a step of its own,
and the allocator may hand out any address that is not in use.
-/

namespace Pcsx2.Dev9
open Foundation Relation

structure SimpleQueueEntry (α : Type*) where
  ready : Bool
  next : Option Nat
  value : α

/-- Where the queue thread is in `Enqueue`. -/
inductive Enqueuing (α : Type*) where
  | idle
  | allocated (entry : α) (newHead : Nat)
  | exchanged (entry : α) (newHead newEntry : Nat)
  | filled (entry : α) (newHead newEntry : Nat)
  | linked (entry : α) (newHead newEntry : Nat)

/-- Where the worker thread is in `Dequeue`. -/
inductive Dequeuing (α : Type*) where
  | idle
  | ready
  | found (retEntry : Nat)
  | read (retEntry : Nat) (next : Option Nat)
  | moved (retEntry : Nat)
  | taken (retEntry : Nat) (value : α)

/-- The queue with both threads. `enqueued` has the entries that `Enqueue` was called with, the first
`completed` of these calls have returned, and `calls` counts the `Dequeue` calls that have returned. -/
structure SimpleQueue (α : Type*) where
  heap : Nat → Option (SimpleQueueEntry α)
  head : Nat
  tail : Option Nat
  queue : Enqueuing α
  worker : Dequeuing α
  enqueued : List α
  completed : Nat
  dequeued : List α
  calls : Nat

section

variable {α : Type*} [Inhabited α]

/-- `new SimpleQueueEntry()`. -/
def SimpleQueueEntry.new : SimpleQueueEntry α := ⟨false, none, default⟩

def SimpleQueue.init (node : Nat) : SimpleQueue α where
  heap := Function.update (fun _ => none) node (some .new)
  head := node
  tail := some node
  queue := .idle
  worker := .idle
  enqueued := []
  completed := 0
  dequeued := []
  calls := 0

def SimpleQueue.store (s : SimpleQueue α) (node : Nat) (e : SimpleQueueEntry α) : SimpleQueue α :=
  { s with heap := Function.update s.heap node (some e) }

inductive EnqueueStep : SimpleQueue α → SimpleQueue α → Prop
  | allocate {s} (entry : α) (newHead : Nat) (idle : s.queue = .idle) (free : s.heap newHead = none) :
      EnqueueStep s { s.store newHead .new with
        queue := .allocated entry newHead, enqueued := s.enqueued ++ [entry] }
  | exchange {s entry newHead} (allocated : s.queue = .allocated entry newHead) :
      EnqueueStep s { s with head := newHead, queue := .exchanged entry newHead s.head }
  | value {s entry newHead newEntry e} (exchanged : s.queue = .exchanged entry newHead newEntry)
      (live : s.heap newEntry = some e) :
      EnqueueStep s { s.store newEntry { e with value := entry } with
        queue := .filled entry newHead newEntry }
  | next {s entry newHead newEntry e} (filled : s.queue = .filled entry newHead newEntry)
      (live : s.heap newEntry = some e) :
      EnqueueStep s { s.store newEntry { e with next := some newHead } with
        queue := .linked entry newHead newEntry }
  | ready {s entry newHead newEntry e} (linked : s.queue = .linked entry newHead newEntry)
      (live : s.heap newEntry = some e) :
      EnqueueStep s { s.store newEntry { e with ready := true } with
        queue := .idle, completed := s.completed + 1 }

inductive DequeueStep : SimpleQueue α → SimpleQueue α → Prop
  | notReady {s tail e} (idle : s.worker = .idle) (atTail : s.tail = some tail)
      (live : s.heap tail = some e) (ready : e.ready = false) :
      DequeueStep s { s with calls := s.calls + 1 }
  | ready {s tail e} (idle : s.worker = .idle) (atTail : s.tail = some tail)
      (live : s.heap tail = some e) (ready : e.ready = true) :
      DequeueStep s { s with worker := .ready }
  | retEntry {s retEntry} (ready : s.worker = .ready) (atTail : s.tail = some retEntry) :
      DequeueStep s { s with worker := .found retEntry }
  | next {s retEntry e} (found : s.worker = .found retEntry) (live : s.heap retEntry = some e) :
      DequeueStep s { s with worker := .read retEntry e.next }
  | tail {s retEntry next} (read : s.worker = .read retEntry next) :
      DequeueStep s { s with tail := next, worker := .moved retEntry }
  | value {s retEntry e} (moved : s.worker = .moved retEntry) (live : s.heap retEntry = some e) :
      DequeueStep s { s with worker := .taken retEntry e.value }
  | delete {s retEntry value} (taken : s.worker = .taken retEntry value) :
      DequeueStep s { s with
        heap := Function.update s.heap retEntry none, worker := .idle
        dequeued := s.dequeued ++ [value], calls := s.calls + 1 }

def Step (s t : SimpleQueue α) : Prop := EnqueueStep s t ∨ DequeueStep s t

/-! ## What a thread can reach -/

def SimpleQueue.queueHolds (s : SimpleQueue α) : List Nat :=
  match s.queue with
  | .idle => [s.head]
  | .allocated _ newHead => [s.head, newHead]
  | .exchanged _ newHead newEntry | .filled _ newHead newEntry | .linked _ newHead newEntry =>
      [s.head, newHead, newEntry]

def SimpleQueue.workerHolds (s : SimpleQueue α) : List Nat :=
  match s.worker with
  | .idle | .ready => s.tail.toList
  | .found retEntry | .moved retEntry | .taken retEntry _ => retEntry :: s.tail.toList
  | .read retEntry next => retEntry :: next.toList ++ s.tail.toList

def SimpleQueue.Reaches (s : SimpleQueue α) (held : List Nat) (node : Nat) : Prop :=
  ∃ start ∈ held, ReflTransGen (fun a b => ∃ e, s.heap a = some e ∧ e.next = some b) start node

structure Fifo (s : SimpleQueue α) : Prop where
  order : s.dequeued <+: s.enqueued
  /-- Neither thread can reach a node that is not in use. -/
  queueLive : ∀ node, s.Reaches s.queueHolds node → s.heap node ≠ none
  workerLive : ∀ node, s.Reaches s.workerHolds node → s.heap node ≠ none
  /-- What the worker thread deletes is out of the queue thread's reach. -/
  freed : ∀ t, DequeueStep s t → ∀ node, s.Reaches s.queueHolds node → t.heap node ≠ none
  /-- A `Dequeue` that has begun is never stuck. -/
  goesOn : ∃ t, DequeueStep s t
  /-- Each further `Dequeue` returns an entry as long as one is left whose `Enqueue` has completed. -/
  returned : ∀ t, Run Step s t →
    min s.completed (s.dequeued.length + (t.calls - s.calls)) ≤ t.dequeued.length

end

/-! ## Ready nodes -/

variable {node : Nat}

section

variable {α : Type*} {s t : SimpleQueue α} {cells : List (Nat × α)}
  {heap : Nat → Option (SimpleQueueEntry α)}

def first (last : Nat) : List (Nat × α) → Nat
  | [] => last
  | (a, _) :: _ => a

def Full (heap : Nat → Option (SimpleQueueEntry α)) (last : Nat) : List (Nat × α) → Prop
  | [] => True
  | (a, v) :: rest => heap a = some ⟨true, some (first last rest), v⟩ ∧ Full heap last rest

theorem first_append (cells : List (Nat × α)) (node last : Nat) (v : α) :
    first last (cells ++ [(node, v)]) = first node cells := by
  cases cells with
  | nil => rfl
  | cons cell rest => rfl

theorem Full.update {last : Nat} (full : Full heap last cells) (node : Nat)
    (e : Option (SimpleQueueEntry α)) (apart : node ∉ cells.map (·.1)) :
    Full (Function.update heap node e) last cells := by
  induction cells with
  | nil => trivial
  | cons cell rest ih =>
      obtain ⟨a, v⟩ := cell
      simp only [List.map_cons, List.mem_cons, not_or] at apart
      refine ⟨?_, ih full.2 apart.2⟩
      rw [Function.update_of_ne (Ne.symm apart.1)]
      exact full.1

theorem Full.snoc {node next : Nat} {v : α} (full : Full heap node cells)
    (here : heap node = some ⟨true, some next, v⟩) : Full heap next (cells ++ [(node, v)]) := by
  induction cells with
  | nil => exact ⟨here, trivial⟩
  | cons cell rest ih =>
      obtain ⟨a, w⟩ := cell
      refine ⟨?_, ih full.2⟩
      exact (first_append rest node next v).symm ▸ full.1

theorem first_mem (last : Nat) (cells : List (Nat × α)) :
    first last cells ∈ cells.map (·.1) ∨ first last cells = last := by
  cases cells with
  | nil => exact .inr rfl
  | cons cell rest => exact .inl List.mem_cons_self

theorem Full.next {last a b : Nat} {e : SimpleQueueEntry α} (full : Full heap last cells)
    (mem : a ∈ cells.map (·.1)) (live : heap a = some e) (next : e.next = some b) : b ∈ cells.map (·.1) ∨ b = last := by
  induction cells with
  | nil => cases mem
  | cons cell rest ih =>
      obtain ⟨c, v⟩ := cell
      rcases List.mem_cons.1 mem with rfl | later
      · cases live.symm.trans full.1
        cases next
        exact (first_mem last rest).imp_left (List.mem_cons_of_mem _)
      · exact (ih full.2 later).imp_left (List.mem_cons_of_mem _)

theorem Full.live {last node : Nat} (full : Full heap last cells) (mem : node ∈ cells.map (·.1)) :
    heap node ≠ none := by
  induction cells with
  | nil => cases mem
  | cons cell rest ih =>
      obtain ⟨a, v⟩ := cell
      rcases List.mem_cons.1 mem with rfl | later
      · rw [full.1]
        exact Option.some_ne_none _
      · exact ih full.2 later

/-! ## The nodes in use -/

/-- The nodes that are not ready; `Dequeue` comes to the first of them after all that are. -/
def SimpleQueue.notReady (s : SimpleQueue α) : List Nat :=
  match s.queue with
  | .idle => [s.head]
  | .allocated _ newHead => [s.head, newHead]
  | .exchanged _ newHead newEntry | .filled _ newHead newEntry | .linked _ newHead newEntry =>
      [newEntry, newHead]

def SimpleQueue.last (s : SimpleQueue α) : Nat :=
  match s.queue with
  | .idle | .allocated .. => s.head
  | .exchanged _ _ newEntry | .filled _ _ newEntry | .linked _ _ newEntry => newEntry

def SimpleQueue.pending (s : SimpleQueue α) : List α :=
  match s.queue with
  | .idle => []
  | .allocated entry _ | .exchanged entry .. | .filled entry .. | .linked entry .. => [entry]

def WorkerOk (s : SimpleQueue α) (cells : List (Nat × α)) : Prop :=
  match s.worker with
  | .idle => s.tail = some (first s.last cells)
  | .ready => s.tail = some (first s.last cells) ∧ cells ≠ []
  | .found retEntry => s.tail = some retEntry ∧ ∃ v rest, cells = (retEntry, v) :: rest
  | .read retEntry next => s.tail = some retEntry ∧
      ∃ v rest, cells = (retEntry, v) :: rest ∧ next = some (first s.last rest)
  | .moved retEntry => ∃ v rest, cells = (retEntry, v) :: rest ∧ s.tail = some (first s.last rest)
  | .taken retEntry v => ∃ rest, cells = (retEntry, v) :: rest ∧ s.tail = some (first s.last rest)

theorem last_mem (s : SimpleQueue α) : s.last ∈ s.notReady := by
  unfold SimpleQueue.last SimpleQueue.notReady
  cases s.queue <;> simp

theorem WorkerOk.same (worker : WorkerOk s cells) (sameWorker : t.worker = s.worker)
    (sameTail : t.tail = s.tail) (sameLast : t.last = s.last) : WorkerOk t cells := by
  unfold WorkerOk
  rw [sameWorker, sameTail, sameLast]
  exact worker

theorem WorkerOk.snoc {v : α} (worker : WorkerOk s cells)
    (sameWorker : t.worker = s.worker) (sameTail : t.tail = s.tail) (last : s.last = node) :
    WorkerOk t (cells ++ [(node, v)]) := by
  have shift (rest : List (Nat × α)) : first t.last (rest ++ [(node, v)]) = first s.last rest := by
    rw [first_append, last]
  unfold WorkerOk at worker ⊢
  rw [sameWorker, sameTail]
  cases atWorker : s.worker with
  | idle =>
      simp only [atWorker] at worker ⊢
      rw [shift]
      exact worker
  | ready =>
      simp only [atWorker] at worker ⊢
      rw [shift]
      exact ⟨worker.1, by simp⟩
  | found retEntry =>
      simp only [atWorker] at worker ⊢
      obtain ⟨atTail, w, rest, rfl⟩ := worker
      exact ⟨atTail, w, rest ++ [(node, v)], rfl⟩
  | read retEntry next =>
      simp only [atWorker] at worker ⊢
      obtain ⟨atTail, w, rest, rfl, atNext⟩ := worker
      exact ⟨atTail, w, rest ++ [(node, v)], rfl, (shift rest).symm ▸ atNext⟩
  | moved retEntry =>
      simp only [atWorker] at worker ⊢
      obtain ⟨w, rest, rfl, atNext⟩ := worker
      exact ⟨w, rest ++ [(node, v)], rfl, (shift rest).symm ▸ atNext⟩
  | taken retEntry w =>
      simp only [atWorker] at worker ⊢
      obtain ⟨rest, rfl, atNext⟩ := worker
      exact ⟨rest ++ [(node, v)], rfl, (shift rest).symm ▸ atNext⟩

end

section

variable {α : Type*} [Inhabited α]

def QueueOk (s : SimpleQueue α) : Prop :=
  match s.queue with
  | .idle => s.heap s.head = some .new
  | .allocated _ newHead => s.heap s.head = some .new ∧ s.heap newHead = some .new
  | .exchanged _ newHead newEntry =>
      s.head = newHead ∧ s.heap newHead = some .new ∧ s.heap newEntry = some .new
  | .filled entry newHead newEntry =>
      s.head = newHead ∧ s.heap newHead = some .new ∧ s.heap newEntry = some ⟨false, none, entry⟩
  | .linked entry newHead newEntry =>
      s.head = newHead ∧ s.heap newHead = some .new ∧
        s.heap newEntry = some ⟨false, some newHead, entry⟩

structure Inv (s : SimpleQueue α) (cells : List (Nat × α)) : Prop where
  full : Full s.heap s.last cells
  distinct : (cells.map (·.1) ++ s.notReady).Nodup
  queue : QueueOk s
  worker : WorkerOk s cells
  enqueued : s.enqueued = s.dequeued ++ cells.map (·.2) ++ s.pending
  completed : s.completed = s.dequeued.length + cells.length

variable {s t : SimpleQueue α} {cells : List (Nat × α)}

theorem inv_init (node : Nat) : Inv (.init node : SimpleQueue α) [] where
  full := trivial
  distinct := List.nodup_singleton _
  queue := by simp [QueueOk, SimpleQueue.init]
  worker := rfl
  enqueued := rfl
  completed := rfl

theorem Inv.live (inv : Inv s cells) (mem : node ∈ cells.map (·.1) ++ s.notReady) :
    s.heap node ≠ none := by
  rcases List.mem_append.1 mem with ready | own
  · exact inv.full.live ready
  · have queue := inv.queue
    unfold QueueOk at queue
    unfold SimpleQueue.notReady at own
    cases atQueue : s.queue with
    | idle =>
        simp only [atQueue, List.mem_singleton] at queue own
        simp [own, queue]
    | allocated entry newHead =>
        simp only [atQueue, List.mem_cons, List.not_mem_nil, or_false] at queue own
        rcases own with rfl | rfl <;> simp [queue]
    | exchanged entry newHead newEntry | filled entry newHead newEntry
    | linked entry newHead newEntry =>
        simp only [atQueue, List.mem_cons, List.not_mem_nil, or_false] at queue own
        rcases own with rfl | rfl <;> simp [queue]

theorem Inv.apart (inv : Inv s cells) (node : Nat) (mem : node ∈ s.notReady) :
    node ∉ cells.map (·.1) :=
  fun ready => (List.nodup_append.1 inv.distinct).2.2 _ ready _ mem rfl

/-! ## Steps of the queue thread -/

theorem inv_allocate {entry : α} {newHead : Nat} (inv : Inv s cells) (idle : s.queue = .idle)
    (free : s.heap newHead = none) :
    Inv { s.store newHead .new with
      queue := .allocated entry newHead, enqueued := s.enqueued ++ [entry] } cells := by
  have fresh (node : Nat) (mem : node ∈ cells.map (·.1) ++ s.notReady) : node ≠ newHead := by
    rintro rfl
    exact inv.live mem free
  have queue := inv.queue
  have distinct := inv.distinct
  have full := inv.full
  simp only [QueueOk, SimpleQueue.notReady, SimpleQueue.last, idle] at queue distinct full fresh
  have atHead : s.head ≠ newHead := fresh _ (by simp)
  have sameLast : s.last = s.head := by simp only [SimpleQueue.last, idle]
  constructor
  · exact full.update newHead _ fun mem => fresh newHead (List.mem_append_left _ mem) rfl
  · have apart := List.nodup_append.2 ⟨distinct, List.nodup_singleton newHead,
      fun a mem b same => List.mem_singleton.1 same ▸ fresh a mem⟩
    rwa [List.append_assoc] at apart
  · simp [QueueOk, SimpleQueue.store, atHead, queue]
  · exact inv.worker.same rfl rfl sameLast.symm
  · simp [SimpleQueue.pending, inv.enqueued, idle, SimpleQueue.store]
  · exact inv.completed

theorem inv_exchange {entry : α} {newHead : Nat} (inv : Inv s cells)
    (allocated : s.queue = .allocated entry newHead) :
    Inv { s with head := newHead, queue := .exchanged entry newHead s.head } cells := by
  have queue := inv.queue
  have distinct := inv.distinct
  have full := inv.full
  have enqueued := inv.enqueued
  have sameLast : s.last = s.head := by simp only [SimpleQueue.last, allocated]
  simp only [QueueOk, SimpleQueue.notReady, SimpleQueue.last, SimpleQueue.pending, allocated]
    at queue distinct full enqueued
  exact ⟨full, distinct, ⟨rfl, queue.2, queue.1⟩, inv.worker.same rfl rfl sameLast.symm, enqueued,
    inv.completed⟩

variable {newHead newEntry : Nat}

theorem inv_value {entry : α} {e : SimpleQueueEntry α} (inv : Inv s cells)
    (exchanged : s.queue = .exchanged entry newHead newEntry) (live : s.heap newEntry = some e) :
    Inv { s.store newEntry { e with value := entry } with
      queue := .filled entry newHead newEntry } cells := by
  have apart := inv.apart newEntry (by simp [SimpleQueue.notReady, exchanged])
  have queue := inv.queue
  have distinct := inv.distinct
  have full := inv.full
  have enqueued := inv.enqueued
  have sameLast : s.last = newEntry := by simp only [SimpleQueue.last, exchanged]
  simp only [QueueOk, SimpleQueue.notReady, SimpleQueue.last, SimpleQueue.pending, exchanged]
    at queue distinct full enqueued
  have other : newHead ≠ newEntry := by
    have own := (List.nodup_append.1 distinct).2.1
    exact Ne.symm (by simpa using own)
  obtain ⟨atHead, new, blank⟩ := queue
  cases live.symm.trans blank
  refine ⟨full.update _ _ apart, distinct, ?_, inv.worker.same rfl rfl sameLast.symm, enqueued,
    inv.completed⟩
  simp [QueueOk, SimpleQueue.store, SimpleQueueEntry.new, atHead, other, new]

theorem inv_next {entry : α} {e : SimpleQueueEntry α} (inv : Inv s cells)
    (filled : s.queue = .filled entry newHead newEntry) (live : s.heap newEntry = some e) :
    Inv { s.store newEntry { e with next := some newHead } with
      queue := .linked entry newHead newEntry } cells := by
  have apart := inv.apart newEntry (by simp [SimpleQueue.notReady, filled])
  have queue := inv.queue
  have distinct := inv.distinct
  have full := inv.full
  have enqueued := inv.enqueued
  have sameLast : s.last = newEntry := by simp only [SimpleQueue.last, filled]
  simp only [QueueOk, SimpleQueue.notReady, SimpleQueue.last, SimpleQueue.pending, filled]
    at queue distinct full enqueued
  have other : newHead ≠ newEntry := by
    have own := (List.nodup_append.1 distinct).2.1
    exact Ne.symm (by simpa using own)
  obtain ⟨atHead, new, blank⟩ := queue
  cases live.symm.trans blank
  refine ⟨full.update _ _ apart, distinct, ?_, inv.worker.same rfl rfl sameLast.symm, enqueued,
    inv.completed⟩
  simp [QueueOk, SimpleQueue.store, atHead, other, new]

theorem inv_ready {entry : α} {e : SimpleQueueEntry α} (inv : Inv s cells)
    (linked : s.queue = .linked entry newHead newEntry) (live : s.heap newEntry = some e) :
    Inv { s.store newEntry { e with ready := true } with
      queue := .idle, completed := s.completed + 1 } (cells ++ [(newEntry, entry)]) := by
  have apart := inv.apart newEntry (by simp [SimpleQueue.notReady, linked])
  have queue := inv.queue
  have distinct := inv.distinct
  have full := inv.full
  have enqueued := inv.enqueued
  have sameLast : s.last = newEntry := by simp only [SimpleQueue.last, linked]
  simp only [QueueOk, SimpleQueue.notReady, SimpleQueue.last, SimpleQueue.pending, linked]
    at queue distinct full enqueued
  have other : newHead ≠ newEntry := by
    have own := (List.nodup_append.1 distinct).2.1
    exact Ne.symm (by simpa using own)
  obtain ⟨rfl, new, blank⟩ := queue
  cases live.symm.trans blank
  constructor
  · exact (full.update _ _ apart).snoc (Function.update_self ..)
  · simpa [SimpleQueue.notReady, SimpleQueue.store] using distinct
  · simp [QueueOk, SimpleQueue.store, other, new]
  · exact inv.worker.snoc rfl rfl sameLast
  · simp [SimpleQueue.pending, enqueued, SimpleQueue.store]
  · simp only [inv.completed, List.length_append, List.length_singleton, SimpleQueue.store]
    omega

theorem inv_enqueue (inv : Inv s cells) (step : EnqueueStep s t) :
    ∃ cells' : List (Nat × α), Inv t cells' ∧ t.dequeued = s.dequeued ∧ t.calls = s.calls ∧
      s.completed ≤ t.completed := by
  cases step with
  | allocate entry newHead idle free =>
      exact ⟨cells, inv_allocate inv idle free, rfl, rfl, Nat.le_refl _⟩
  | exchange allocated => exact ⟨cells, inv_exchange inv allocated, rfl, rfl, Nat.le_refl _⟩
  | value exchanged live => exact ⟨cells, inv_value inv exchanged live, rfl, rfl, Nat.le_refl _⟩
  | next filled live => exact ⟨cells, inv_next inv filled live, rfl, rfl, Nat.le_refl _⟩
  | ready linked live => exact ⟨_, inv_ready inv linked live, rfl, rfl, Nat.le_succ _⟩

/-! ## Steps of the worker thread -/
theorem Inv.last_notReady {e : SimpleQueueEntry α} (inv : Inv s cells) (live : s.heap s.last = some e) :
    e.ready = false := by
  have queue := inv.queue
  unfold QueueOk at queue
  unfold SimpleQueue.last at live
  cases atQueue : s.queue with
  | idle =>
      simp only [atQueue] at queue live
      cases queue.symm.trans live
      rfl
  | allocated entry newHead =>
      simp only [atQueue] at queue live
      cases queue.1.symm.trans live
      rfl
  | exchanged entry newHead newEntry | filled entry newHead newEntry
  | linked entry newHead newEntry =>
      simp only [atQueue] at queue live
      cases queue.2.2.symm.trans live
      rfl

theorem QueueOk.delete (queue : QueueOk s) (apart : node ∉ s.notReady)
    (sameQueue : t.queue = s.queue) (sameHead : t.head = s.head)
    (heap : t.heap = Function.update s.heap node none) : QueueOk t := by
  unfold QueueOk at queue ⊢
  unfold SimpleQueue.notReady at apart
  rw [sameQueue, sameHead, heap]
  cases atQueue : s.queue with
  | idle =>
      simp only [atQueue, List.mem_singleton] at queue apart ⊢
      rwa [Function.update_of_ne (Ne.symm apart)]
  | allocated entry newHead =>
      simp only [atQueue, List.mem_cons, List.not_mem_nil, or_false, not_or] at queue apart ⊢
      rwa [Function.update_of_ne (Ne.symm apart.1), Function.update_of_ne (Ne.symm apart.2)]
  | exchanged entry newHead newEntry | filled entry newHead newEntry
  | linked entry newHead newEntry =>
      simp only [atQueue, List.mem_cons, List.not_mem_nil, or_false, not_or] at queue apart ⊢
      rwa [Function.update_of_ne (Ne.symm apart.1), Function.update_of_ne (Ne.symm apart.2)]

theorem inv_delete {retEntry : Nat} {value : α} (inv : Inv s cells)
    (taken : s.worker = .taken retEntry value) :
    ∃ rest, cells = (retEntry, value) :: rest ∧ Inv { s with
      heap := Function.update s.heap retEntry none, worker := .idle
      dequeued := s.dequeued ++ [value], calls := s.calls + 1 } rest := by
  have worker := inv.worker
  simp only [WorkerOk, taken] at worker
  obtain ⟨rest, rfl, atNext⟩ := worker
  have distinct := inv.distinct
  rw [List.map_cons, List.cons_append, List.nodup_cons, List.mem_append, not_or] at distinct
  refine ⟨rest, rfl, ?_⟩
  constructor
  · exact inv.full.2.update _ _ distinct.1.1
  · exact distinct.2
  · exact inv.queue.delete distinct.1.2 rfl rfl rfl
  · exact atNext
  · simp [inv.enqueued, SimpleQueue.pending]
  · simp only [inv.completed, List.length_append, List.length_cons, List.length_nil]
    omega

/-- How far the worker thread gets with a step: a `Dequeue` that returns false leaves no entry behind
whose `Enqueue` has completed. -/
structure Dequeued (s t : SimpleQueue α) : Prop where
  completed : t.completed = s.completed
  calls : s.calls ≤ t.calls
  returned : t.dequeued.length + s.calls = s.dequeued.length + t.calls ∨
    t.calls = s.calls + 1 ∧ t.dequeued = s.dequeued ∧ s.completed = s.dequeued.length

theorem inv_dequeue (inv : Inv s cells) (step : DequeueStep s t) :
    ∃ cells' : List (Nat × α), Inv t cells' ∧ Dequeued s t := by
  have worker := inv.worker
  have full := inv.full
  cases step with
  | @notReady tail e idle atTail live ready =>
      simp only [WorkerOk, idle] at worker
      have empty : cells = [] := by
        cases cells with
        | nil => rfl
        | cons cell rest =>
            obtain ⟨a, v⟩ := cell
            cases worker.symm.trans atTail
            cases live.symm.trans full.1
            cases ready
      subst empty
      exact ⟨[], { inv with worker := inv.worker.same rfl rfl rfl }, rfl, Nat.le_succ _,
        .inr ⟨rfl, rfl, inv.completed⟩⟩
  | @ready tail e idle atTail live ready =>
      simp only [WorkerOk, idle] at worker
      have some : cells ≠ [] := by
        rintro rfl
        cases worker.symm.trans atTail
        exact absurd (inv.last_notReady live) (by simp [ready])
      exact ⟨cells, { inv with worker := ⟨worker, some⟩ }, rfl, Nat.le_refl _, .inl rfl⟩
  | @retEntry retEntry ready atTail =>
      simp only [WorkerOk, ready] at worker
      obtain ⟨cell, rest, rfl⟩ := List.exists_cons_of_ne_nil worker.2
      cases worker.1.symm.trans atTail
      exact ⟨_, { inv with worker := ⟨atTail, cell.2, rest, rfl⟩ }, rfl, Nat.le_refl _, .inl rfl⟩
  | @next retEntry e found live =>
      simp only [WorkerOk, found] at worker
      obtain ⟨atTail, v, rest, rfl⟩ := worker
      cases live.symm.trans full.1
      exact ⟨_, { inv with worker := ⟨atTail, v, rest, rfl, rfl⟩ }, rfl, Nat.le_refl _, .inl rfl⟩
  | @tail retEntry next read =>
      simp only [WorkerOk, read] at worker
      obtain ⟨-, v, rest, rfl, atNext⟩ := worker
      exact ⟨_, { inv with worker := ⟨v, rest, rfl, atNext⟩ }, rfl, Nat.le_refl _, .inl rfl⟩
  | @value retEntry e moved live =>
      simp only [WorkerOk, moved] at worker
      obtain ⟨v, rest, rfl, atNext⟩ := worker
      cases live.symm.trans full.1
      exact ⟨_, { inv with worker := ⟨rest, rfl, atNext⟩ }, rfl, Nat.le_refl _, .inl rfl⟩
  | delete taken =>
      obtain ⟨rest, -, inv'⟩ := inv_delete inv taken
      refine ⟨rest, inv', rfl, Nat.le_succ _, .inl ?_⟩
      simp only [List.length_append, List.length_singleton]
      omega
/-! ## What the threads can reach -/

theorem Inv.notReady_next {a b : Nat} {e : SimpleQueueEntry α} (inv : Inv s cells)
    (mem : a ∈ s.notReady) (live : s.heap a = some e) (next : e.next = some b) : b ∈ s.notReady := by
  have queue := inv.queue
  unfold QueueOk at queue
  unfold SimpleQueue.notReady at mem ⊢
  cases atQueue : s.queue with
  | idle =>
      simp only [atQueue, List.mem_singleton] at queue mem
      subst mem
      cases live.symm.trans queue
      cases next
  | allocated entry newHead =>
      simp only [atQueue, List.mem_cons, List.not_mem_nil, or_false] at queue mem
      rcases mem with rfl | rfl
      · cases live.symm.trans queue.1
        cases next
      · cases live.symm.trans queue.2
        cases next
  | exchanged entry newHead newEntry | filled entry newHead newEntry =>
      simp only [atQueue, List.mem_cons, List.not_mem_nil, or_false] at queue mem
      rcases mem with rfl | rfl
      · cases live.symm.trans queue.2.2
        cases next
      · cases live.symm.trans queue.2.1
        cases next
  | linked entry newHead newEntry =>
      simp only [atQueue, List.mem_cons, List.not_mem_nil, or_false] at queue mem ⊢
      rcases mem with rfl | rfl
      · cases live.symm.trans queue.2.2
        cases next
        exact .inr rfl
      · cases live.symm.trans queue.2.1
        cases next

theorem Inv.queueHolds (inv : Inv s cells) (held : node ∈ s.queueHolds) :
    node ∈ s.notReady := by
  have queue := inv.queue
  unfold QueueOk at queue
  unfold SimpleQueue.queueHolds at held
  unfold SimpleQueue.notReady
  cases atQueue : s.queue with
  | idle | allocated => simpa only [atQueue] using held
  | exchanged entry newHead newEntry | filled entry newHead newEntry
  | linked entry newHead newEntry =>
      simp only [atQueue, List.mem_cons, List.not_mem_nil, or_false] at queue held ⊢
      rcases held with rfl | rfl | rfl
      · exact .inr queue.1
      · exact .inr rfl
      · exact .inl rfl

theorem Inv.queueReaches (inv : Inv s cells) (reaches : s.Reaches s.queueHolds node) :
    node ∈ s.notReady := by
  obtain ⟨start, held, path⟩ := reaches
  induction path with
  | refl => exact inv.queueHolds held
  | tail _ last ih =>
      obtain ⟨e, live, next⟩ := last
      exact inv.notReady_next ih live next

theorem Inv.first_mem (inv : Inv s cells) (front : List (Nat × α)) {rest : List (Nat × α)} (split : cells = front ++ rest) :
    first s.last rest ∈ cells.map (·.1) ++ s.notReady := by
  subst split
  rcases Dev9.first_mem s.last rest with ready | last
  · simp [ready]
  · rw [last]
    exact List.mem_append_right _ (last_mem s)

theorem Inv.workerHolds (inv : Inv s cells) (held : node ∈ s.workerHolds) :
    node ∈ cells.map (·.1) ++ s.notReady := by
  have worker := inv.worker
  unfold WorkerOk at worker
  unfold SimpleQueue.workerHolds at held
  cases atWorker : s.worker with
  | idle =>
      simp only [atWorker] at worker held
      rw [worker] at held
      exact List.mem_singleton.1 held ▸ inv.first_mem [] rfl
  | ready =>
      simp only [atWorker] at worker held
      rw [worker.1] at held
      exact List.mem_singleton.1 held ▸ inv.first_mem [] rfl
  | found retEntry =>
      simp only [atWorker] at worker held
      obtain ⟨atTail, v, rest, rfl⟩ := worker
      simp only [atTail, Option.toList_some, List.mem_cons, List.not_mem_nil, or_false, or_self] at held
      simp [held]
  | read retEntry next =>
      simp only [atWorker] at worker held
      obtain ⟨atTail, v, rest, rfl, rfl⟩ := worker
      simp only [atTail, Option.toList_some, List.cons_append, List.nil_append, List.mem_cons,
        List.not_mem_nil, or_false] at held
      rcases held with rfl | rfl | rfl
      · simp
      · exact inv.first_mem [(retEntry, v)] rfl
      · simp
  | moved retEntry =>
      simp only [atWorker] at worker held
      obtain ⟨v, rest, rfl, atTail⟩ := worker
      simp only [atTail, Option.toList_some, List.mem_cons, List.not_mem_nil, or_false] at held
      rcases held with rfl | rfl
      · simp
      · exact inv.first_mem [(retEntry, v)] rfl
  | taken retEntry v =>
      simp only [atWorker] at worker held
      obtain ⟨rest, rfl, atTail⟩ := worker
      simp only [atTail, Option.toList_some, List.mem_cons, List.not_mem_nil, or_false] at held
      rcases held with rfl | rfl
      · simp
      · exact inv.first_mem [(retEntry, v)] rfl

theorem Inv.workerReaches (inv : Inv s cells) (reaches : s.Reaches s.workerHolds node) :
    node ∈ cells.map (·.1) ++ s.notReady := by
  obtain ⟨start, held, path⟩ := reaches
  induction path with
  | refl => exact inv.workerHolds held
  | tail _ last ih =>
      obtain ⟨e, live, next⟩ := last
      rcases List.mem_append.1 ih with ready | own
      · rcases inv.full.next ready live next with ready | rfl
        · exact List.mem_append_left _ ready
        · exact List.mem_append_right _ (last_mem s)
      · exact List.mem_append_right _ (inv.notReady_next own live next)
theorem Inv.goesOn (inv : Inv s cells) : ∃ t, DequeueStep s t := by
  have worker := inv.worker
  unfold WorkerOk at worker
  cases atWorker : s.worker with
  | idle =>
      simp only [atWorker] at worker
      have live := inv.live (inv.first_mem [] rfl)
      obtain ⟨e, live⟩ := Option.ne_none_iff_exists'.1 live
      cases ready : e.ready with
      | false => exact ⟨_, .notReady atWorker worker live ready⟩
      | true => exact ⟨_, .ready atWorker worker live ready⟩
  | ready =>
      simp only [atWorker] at worker
      exact ⟨_, .retEntry atWorker worker.1⟩
  | found retEntry =>
      simp only [atWorker] at worker
      obtain ⟨-, v, rest, rfl⟩ := worker
      exact ⟨_, .next atWorker inv.full.1⟩
  | read retEntry next => exact ⟨_, .tail atWorker⟩
  | moved retEntry =>
      simp only [atWorker] at worker
      obtain ⟨v, rest, rfl, -⟩ := worker
      exact ⟨_, .value atWorker inv.full.1⟩
  | taken retEntry v => exact ⟨_, .delete atWorker⟩

theorem Inv.freed (inv : Inv s cells) (step : DequeueStep s t)
    (reaches : s.Reaches s.queueHolds node) : t.heap node ≠ none := by
  have own := inv.queueReaches reaches
  have live := inv.live (List.mem_append_right _ own)
  cases step with
  | @delete retEntry value taken =>
      obtain ⟨rest, rfl, -⟩ := inv_delete inv taken
      have other : node ≠ retEntry := by
        rintro rfl
        exact inv.apart _ own List.mem_cons_self
      dsimp only
      rwa [Function.update_of_ne other]
  | _ => exact live

/-! ## The queue is first in, first out -/

theorem inv_step (inv : Inv s cells) (step : Step s t) : ∃ cells' : List (Nat × α), Inv t cells' := by
  rcases step with enqueue | dequeue
  · obtain ⟨cells', inv', -⟩ := inv_enqueue inv enqueue
    exact ⟨cells', inv'⟩
  · obtain ⟨cells', inv', -⟩ := inv_dequeue inv dequeue
    exact ⟨cells', inv'⟩

/-- From some state on, each `Dequeue` that returns brings an entry as long as one is left of those
that had been enqueued there. -/
theorem returned_run (inv : Inv s cells) (run : Run Step s t) :
    min s.completed (s.dequeued.length + (t.calls - s.calls)) ≤ t.dequeued.length := by
  have later : (∃ cells' : List (Nat × α), Inv t cells') ∧ s.completed ≤ t.completed ∧
      s.calls ≤ t.calls ∧
      min s.completed (s.dequeued.length + (t.calls - s.calls)) ≤ t.dequeued.length := by
    induction run with
    | refl => exact ⟨⟨cells, inv⟩, Nat.le_refl _, Nat.le_refl _, by omega⟩
    | @tail t u _ step ih =>
        obtain ⟨⟨cells, inv⟩, completed, calls, enough⟩ := ih
        rcases step with enqueue | dequeue
        · obtain ⟨cells', inv', dequeued, same, more⟩ := inv_enqueue inv enqueue
          rw [dequeued, same]
          exact ⟨⟨cells', inv'⟩, Nat.le_trans completed more, calls, enough⟩
        · obtain ⟨cells', inv', same, more, returned⟩ := inv_dequeue inv dequeue
          have total := inv'.completed
          have before := inv.completed
          refine ⟨⟨cells', inv'⟩, same ▸ completed, ?_⟩
          rcases returned with brought | ⟨once, none, all⟩
          · omega
          · rw [none, once]
            omega
  exact later.2.2.2

end

end Pcsx2.Dev9
