import WzyServer.Base.Fifo
import WzyServer.Base.Ring
import WzyServer.Base.Run

set_option autoImplicit false

namespace WzyServer.Log

open Run

inductive Fault where
  | outOfBounds
deriving DecidableEq, Repr

-- block_queue<T>, between the critical sections of m_mutex.
structure BlockQueue (α : Type) where
  maxSize : Int
  array : List α
  size : Int
  front : Int
  back : Int
deriving DecidableEq, Repr

namespace BlockQueue

variable {α : Type}

-- The constructor, which leaves the program for a size that is not positive.
-- `blank` is what `new T[max_size]` puts into the cells.
def new (maxSize : Int) (blank : α) : Option (BlockQueue α) :=
  if maxSize ≤ 0 then none else some ⟨maxSize, List.replicate maxSize.toNat blank, 0, -1, -1⟩

def clear (q : BlockQueue α) : BlockQueue α := { q with size := 0, front := -1, back := -1 }
def full (q : BlockQueue α) : Bool := decide (q.size ≥ q.maxSize)
def empty (q : BlockQueue α) : Bool := decide (q.size = 0)

def store (array : List α) (index : Int) (item : α) : Except Fault (List α) :=
  if 0 ≤ index ∧ index < array.length then .ok (array.set index.toNat item) else .error .outOfBounds

def load (array : List α) (index : Int) : Except Fault α :=
  match array[index.toNat]? with
  | some item => if 0 ≤ index then .ok item else .error .outOfBounds
  | none => .error .outOfBounds

def push (q : BlockQueue α) (item : α) : Except Fault (Bool × BlockQueue α) :=
  if q.size ≥ q.maxSize then .ok (false, q)
  else do
    let back := (q.back + 1).tmod q.maxSize
    let array ← store q.array back item
    return (true, { q with back := back, array := array, size := q.size + 1 })

-- pop from a test of its loop on: `none` is a wait on m_cond.
def pop (q : BlockQueue α) : Except Fault (Option (α × BlockQueue α)) :=
  if q.size ≤ 0 then .ok none
  else do
    let front := (q.front + 1).tmod q.maxSize
    let item ← load q.array front
    return some (item, { q with front := front, size := q.size - 1 })

def cells (q : BlockQueue α) : List (Option α) := Ring.window q.array (q.front + 1).toNat q.size.toNat

def items (q : BlockQueue α) : List α := q.cells.filterMap id

-- `first` and `last` are m_front and m_back moved up by one, so that the -1 of an
-- empty queue is no special case: both name a cell modulo the bound.
structure Holds (q : BlockQueue α) (bound first last : Nat) (items : List α) : Prop where
  positive : 0 < bound
  maxSize : q.maxSize = bound
  length : q.array.length = bound
  size : q.size = items.length
  room : items.length ≤ bound
  front : q.front + 1 = first
  back : q.back + 1 = last
  spans : last % bound = (first + items.length) % bound
  cells : Ring.window q.array first items.length = items.map some

def Stores (q : BlockQueue α) (bound : Nat) (items : List α) : Prop := ∃ first last, Holds q bound first last items

theorem new_positive (maxSize : Int) (blank : α) (q : BlockQueue α) (created : new maxSize blank = some q) : 0 < maxSize := by
  rw [new] at created
  split at created
  · cases created
  · exact not_le.mp ‹_›

theorem new_stores (maxSize : Int) (blank : α) (q : BlockQueue α) (created : new maxSize blank = some q) :
    Stores q maxSize.toNat [] ∧ q.maxSize = maxSize := by
  rw [new] at created
  by_cases exits : maxSize ≤ 0
  · rw [if_pos exits] at created
    cases created
  · rw [if_neg exits] at created
    cases created
    have counted : ((maxSize.toNat : Nat) : Int) = maxSize := Int.toNat_of_nonneg (by omega)
    exact ⟨⟨0, 0, by omega, counted.symm, List.length_replicate, rfl, Nat.zero_le _, rfl, rfl, rfl, rfl⟩, rfl⟩

theorem stores_cells (q : BlockQueue α) (bound : Nat) (items : List α) (stores : Stores q bound items) :
    q.cells = items.map some ∧ q.size = items.length ∧ items.length ≤ bound ∧ q.maxSize = bound := by
  obtain ⟨first, last, holds⟩ := stores
  refine ⟨?_, holds.size, holds.room, holds.maxSize⟩
  rw [BlockQueue.cells, holds.front, holds.size]
  exact holds.cells

theorem stores_items (q : BlockQueue α) (bound : Nat) (items : List α) (stores : Stores q bound items) : q.items = items := by
  rw [BlockQueue.items, (stores_cells q bound items stores).1]
  simp

theorem full_iff (q : BlockQueue α) (bound : Nat) (items : List α) (stores : Stores q bound items) :
    q.full = decide (items.length = bound) := by
  obtain ⟨_, size, room, maxSize⟩ := stores_cells q bound items stores
  rw [BlockQueue.full, size, maxSize]
  congr 1
  apply propext
  omega

theorem empty_iff (q : BlockQueue α) (bound : Nat) (items : List α) (stores : Stores q bound items) :
    q.empty = items.isEmpty := by
  rw [BlockQueue.empty, (stores_cells q bound items stores).2.1]
  cases items with
  | nil => rfl
  | cons item rest => exact decide_eq_false (Int.natCast_ne_zero.mpr (Nat.succ_ne_zero _))

theorem clear_stores (q : BlockQueue α) (bound : Nat) (items : List α) (stores : Stores q bound items) :
    Stores q.clear bound [] := by
  obtain ⟨first, last, holds⟩ := stores
  exact ⟨0, 0, holds.positive, holds.maxSize, holds.length, rfl, Nat.zero_le _, rfl, rfl, rfl, rfl⟩

theorem store_inside (array : List α) (index : Nat) (item : α) (inside : index < array.length) :
    store array index item = .ok (array.set index item) := by
  rw [store, if_pos ⟨Int.natCast_nonneg index, Int.ofNat_lt.mpr inside⟩, Int.toNat_natCast]

theorem load_inside (array : List α) (index : Nat) (item : α) (here : array[index]? = some item) :
    load array index = .ok item := by
  rw [load, Int.toNat_natCast, here]
  exact if_pos (Int.natCast_nonneg index)

theorem push_full (q : BlockQueue α) (bound : Nat) (items : List α) (item : α) (stores : Stores q bound items)
    (full : items.length = bound) : q.push item = .ok (false, q) := by
  obtain ⟨_, size, _, maxSize⟩ := stores_cells q bound items stores
  rw [push, if_pos (by omega)]

theorem push_room (q : BlockQueue α) (bound : Nat) (items : List α) (item : α) (stores : Stores q bound items)
    (room : items.length < bound) : ∃ next, q.push item = .ok (true, next) ∧ Stores next bound (items ++ [item]) := by
  obtain ⟨first, last, holds⟩ := stores
  have notFull : ¬ q.size ≥ q.maxSize := by
    rw [holds.size, holds.maxSize]
    omega
  have back : (q.back + 1).tmod q.maxSize = ((last % bound : Nat) : Int) := by
    rw [holds.back, holds.maxSize, Int.ofNat_tmod]
  have inside : last % bound < q.array.length := by
    rw [holds.length]
    exact Nat.mod_lt last holds.positive
  refine ⟨{ q with back := (last % bound : Nat), array := q.array.set (last % bound) item, size := q.size + 1 }, ?_, ?_⟩
  · rw [push, if_neg notFull]
    dsimp only
    rw [back, store_inside q.array _ item inside]
    rfl
  · refine ⟨first, last % bound + 1, holds.positive, holds.maxSize, ?_, ?_, ?_, holds.front, rfl, ?_, ?_⟩
    · rw [List.length_set, holds.length]
    · rw [holds.size, List.length_append, List.length_singleton]
      rfl
    · rw [List.length_append, List.length_singleton]
      exact room
    · rw [List.length_append, List.length_singleton, holds.spans, Nat.mod_add_mod, Nat.add_assoc]
    · have pushed := Ring.window_push q.array items first item (by rwa [holds.length]) holds.cells
      rwa [holds.length, ← holds.spans] at pushed

theorem pop_empty (q : BlockQueue α) (bound : Nat) (stores : Stores q bound []) : q.pop = .ok none := by
  have size : q.size = 0 := (stores_cells q bound [] stores).2.1
  rw [pop, if_pos (by omega)]

theorem pop_stored (q : BlockQueue α) (bound : Nat) (items : List α) (item : α) (stores : Stores q bound (item :: items)) :
    ∃ next, q.pop = .ok (some (item, next)) ∧ Stores next bound items := by
  obtain ⟨first, last, holds⟩ := stores
  have size : q.size = items.length + 1 := holds.size
  have front : (q.front + 1).tmod q.maxSize = ((first % bound : Nat) : Int) := by
    rw [holds.front, holds.maxSize, Int.ofNat_tmod]
  obtain ⟨here, later⟩ := Ring.window_pop q.array items first item holds.cells
  rw [holds.length] at here later
  refine ⟨{ q with front := (first % bound : Nat), size := q.size - 1 }, ?_, ?_⟩
  · rw [pop, if_neg (by omega)]
    dsimp only
    rw [front, load_inside q.array _ item here]
    rfl
  · refine ⟨first % bound + 1, last, holds.positive, holds.maxSize, holds.length, ?_, ?_, rfl, holds.back, ?_, later⟩
    · rw [size, Int.add_sub_cancel]
    · exact Nat.le_of_succ_le holds.room
    · rw [holds.spans, List.length_cons, Nat.add_assoc, Nat.mod_add_mod, Nat.add_comm items.length]

end BlockQueue

inductive Call (α : Type) where
  | push (item : α)
  | pop
  | clear
  | size
  | full
  | empty
deriving DecidableEq, Repr

-- The critical sections of a queue's callers in the order in which they take
-- m_mutex. `wake` is a return of pthread_cond_wait in a blocked pop, for whatever
-- cause, and `success` is the result that cond::wait makes of it.
inductive Label (α : Type) where
  | call (thread : Nat) (call : Call α)
  | wake (thread : Nat) (success : Bool)
deriving DecidableEq, Repr

structure Shared (α : Type) where
  queue : BlockQueue α
  waiting : Nat → Bool
  history : List (Fifo.Event α)

namespace Shared

variable {α : Type}

def start (queue : BlockQueue α) : Shared α := ⟨queue, fun _ => false, []⟩

def blocks (s : Shared α) (thread : Nat) (waits : Bool) : Shared α :=
  { s with waiting := fun other => if other = thread then waits else s.waiting other }

def did (s : Shared α) (queue : BlockQueue α) (event : Fifo.Event α) : Shared α :=
  { s with queue := queue, history := s.history ++ [event] }

def pop (s : Shared α) (thread : Nat) : Except Fault (Shared α) := do
  match ← s.queue.pop with
  | none => return s.blocks thread true
  | some (item, queue) => return (s.did queue (.popped item)).blocks thread false

def push (s : Shared α) (item : α) : Except Fault (Shared α) := do
  let (stored, queue) ← s.queue.push item
  return s.did queue (if stored then .pushed item else .refused item)

def call (s : Shared α) (thread : Nat) : Call α → Except Fault (Shared α)
  | .push item => s.push item
  | .pop => s.pop thread
  | .clear => .ok (s.did s.queue.clear (.cleared s.queue.items))
  | .size => .ok (s.did s.queue (.sized s.queue.size.toNat))
  | .full => .ok (s.did s.queue (.full s.queue.full))
  | .empty => .ok (s.did s.queue (.empty s.queue.empty))

def effect (s : Shared α) : Label α → Except Fault (Shared α)
  | .call thread call => s.call thread call
  | .wake thread success => if success then s.pop thread else .ok (s.blocks thread false)

end Shared

def queueMachine (α : Type) : Machine (Shared α) (Label α) Fault where
  guard := fun s label => match label with
    | .call thread _ => s.waiting thread = false
    | .wake thread _ => s.waiting thread = true
  effect := Shared.effect

section Refinement

variable {α : Type}

def Shared.Refines (bound : Nat) (s : Shared α) : Prop :=
  ∃ items, Fifo.Trace bound s.history items ∧ s.queue.Stores bound items

def Shared.RefusalIdle (s t : Shared α) : Prop := ∀ item, t.history = s.history ++ [.refused item] → t.queue = s.queue

theorem refines_did (bound : Nat) (s : Shared α) (items stored : List α) (queue : BlockQueue α) (event : Fifo.Event α)
    (earlier : Fifo.Trace bound s.history items) (step : Fifo.Step bound items event stored)
    (stores : queue.Stores bound stored) : (s.did queue event).Refines bound :=
  ⟨stored, .next s.history items stored event earlier step, stores⟩

theorem idle_did (s : Shared α) (queue : BlockQueue α) (event : Fifo.Event α) (succeeds : ∀ item, event ≠ .refused item) :
    s.RefusalIdle (s.did queue event) := by
  intro item refused
  have last : [event] = [.refused item] := List.append_cancel_left refused
  injection last with same
  exact absurd same (succeeds item)

theorem push_refines (bound : Nat) (s : Shared α) (item : α) (refines : s.Refines bound) :
    ∃ t, s.push item = .ok t ∧ t.Refines bound ∧ s.RefusalIdle t := by
  obtain ⟨items, trace, stores⟩ := refines
  have bounded := Fifo.trace_bounded bound s.history items trace
  rcases Nat.lt_or_eq_of_le bounded with room | full
  · obtain ⟨queue, pushed, now⟩ := BlockQueue.push_room s.queue bound items item stores room
    refine ⟨s.did queue (.pushed item), ?_, refines_did bound s items _ queue _ trace (.push items item room) now, ?_⟩
    · rw [Shared.push, pushed]
      rfl
    · exact idle_did s queue _ fun _ same => by cases same
  · have refused := BlockQueue.push_full s.queue bound items item stores full
    refine ⟨s.did s.queue (.refused item), ?_, refines_did bound s items _ s.queue _ trace (.refuse items item full) stores, ?_⟩
    · rw [Shared.push, refused]
      rfl
    · exact fun _ _ => rfl

theorem pop_refines (bound : Nat) (s : Shared α) (thread : Nat) (refines : s.Refines bound) :
    ∃ t, s.pop thread = .ok t ∧ t.Refines bound ∧ s.RefusalIdle t := by
  obtain ⟨items, trace, stores⟩ := refines
  cases items with
  | nil =>
      refine ⟨s.blocks thread true, ?_, ⟨[], trace, stores⟩, fun _ _ => rfl⟩
      rw [Shared.pop, BlockQueue.pop_empty s.queue bound stores]
      rfl
  | cons item rest =>
      obtain ⟨queue, popped, now⟩ := BlockQueue.pop_stored s.queue bound rest item stores
      refine ⟨(s.did queue (.popped item)).blocks thread false, ?_, ?_, ?_⟩
      · rw [Shared.pop, popped]
        rfl
      · exact refines_did bound s _ _ queue _ trace (.pop rest item) now
      · exact idle_did s queue _ fun _ same => by cases same

theorem call_refines (bound : Nat) (s : Shared α) (thread : Nat) (call : Call α) (refines : s.Refines bound) :
    ∃ t, s.call thread call = .ok t ∧ t.Refines bound ∧ s.RefusalIdle t := by
  cases call with
  | push item => exact push_refines bound s item refines
  | pop => exact pop_refines bound s thread refines
  | clear =>
      obtain ⟨items, trace, stores⟩ := refines
      refine ⟨_, rfl, ?_, idle_did s _ _ fun _ same => by cases same⟩
      rw [BlockQueue.stores_items s.queue bound items stores]
      exact refines_did bound s items [] _ _ trace (.clear items) (BlockQueue.clear_stores s.queue bound items stores)
  | size =>
      obtain ⟨items, trace, stores⟩ := refines
      refine ⟨_, rfl, ?_, fun _ _ => rfl⟩
      rw [(BlockQueue.stores_cells s.queue bound items stores).2.1, Int.toNat_natCast]
      exact refines_did bound s items items _ _ trace (.size items) stores
  | full =>
      obtain ⟨items, trace, stores⟩ := refines
      refine ⟨_, rfl, ?_, fun _ _ => rfl⟩
      rw [BlockQueue.full_iff s.queue bound items stores]
      exact refines_did bound s items items _ _ trace (.full items) stores
  | empty =>
      obtain ⟨items, trace, stores⟩ := refines
      refine ⟨_, rfl, ?_, fun _ _ => rfl⟩
      rw [BlockQueue.empty_iff s.queue bound items stores]
      exact refines_did bound s items items _ _ trace (.empty items) stores

theorem queue_step_refines (bound : Nat) (s : Shared α) (label : Label α) (refines : s.Refines bound) :
    ∃ t, (queueMachine α).effect s label = .ok t ∧ t.Refines bound ∧ s.RefusalIdle t := by
  cases label with
  | call thread call => exact call_refines bound s thread call refines
  | wake thread success =>
      cases success with
      | true => exact pop_refines bound s thread refines
      | false => exact ⟨s.blocks thread false, rfl, refines, fun _ _ => rfl⟩

structure Shared.Bounded (maxSize : Int) (s : Shared α) : Prop where
  trace : ∃ items, Fifo.Trace maxSize.toNat s.history items ∧ s.queue.cells = items.map some
  bounds : 0 ≤ s.queue.size ∧ s.queue.size ≤ maxSize ∧ s.queue.maxSize = maxSize

def Shared.Sound (s : Shared α) (label : Label α) : Prop :=
  ∃ t, (queueMachine α).effect s label = .ok t ∧ s.RefusalIdle t

theorem refines_bounded (maxSize : Int) (positive : 0 < maxSize) (s : Shared α) (refines : s.Refines maxSize.toNat) :
    s.Bounded maxSize := by
  obtain ⟨items, trace, stored⟩ := refines
  obtain ⟨cells, size, room, isMax⟩ := BlockQueue.stores_cells s.queue maxSize.toNat items stored
  refine ⟨⟨items, trace, cells⟩, ?_⟩
  rw [size, isMax]
  omega

theorem block_queue_refines (maxSize : Int) (blank : α) (queue : BlockQueue α)
    (created : BlockQueue.new maxSize blank = some queue) (labels : List (Label α)) :
    Always (queueMachine α) (Shared.Bounded maxSize) (Shared.start queue) labels ∧
      Along (queueMachine α) Shared.Sound (Shared.start queue) labels := by
  have stores := (BlockQueue.new_stores maxSize blank queue created).1
  have positive := BlockQueue.new_positive maxSize blank queue created
  have start : (Shared.start queue).Refines maxSize.toNat := ⟨[], .start, stores⟩
  have kept : ∀ s label t, s.Refines maxSize.toNat → Takes (queueMachine α) s label t → t.Refines maxSize.toNat := by
    intro s label t refines taken
    obtain ⟨next, effect, now, _⟩ := queue_step_refines maxSize.toNat s label refines
    have same := Except.ok.inj (taken.2.symm.trans effect)
    rwa [same]
  constructor
  · exact always_mono _ _ _ (refines_bounded maxSize positive) _ labels (always_invariant _ _ kept _ labels start)
  · refine along_of_invariant _ _ _ kept ?_ _ labels start
    intro s label refines _
    obtain ⟨t, effect, _, idle⟩ := queue_step_refines maxSize.toNat s label refines
    exact ⟨t, effect, idle⟩

end Refinement

def twoConsumers : List (Label Nat) :=
  [.call 0 .pop, .call 1 .pop, .call 2 (.push 10), .wake 1 true, .wake 0 true, .call 2 (.push 20), .call 2 (.push 30),
    .call 2 (.push 40), .wake 0 true, .call 1 .full, .call 1 .pop, .call 2 (.push 50), .call 1 .clear, .call 1 .empty]

theorem block_queue_refines_two_consumers :
    Always (queueMachine Nat) (Shared.Bounded 2) (Shared.start ⟨2, [0, 0], 0, -1, -1⟩) twoConsumers ∧
      Along (queueMachine Nat) Shared.Sound (Shared.start ⟨2, [0, 0], 0, -1, -1⟩) twoConsumers :=
  block_queue_refines 2 0 ⟨2, [0, 0], 0, -1, -1⟩ rfl twoConsumers

end WzyServer.Log
