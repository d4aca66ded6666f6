import WzyServer.Log.BlockQueue

set_option autoImplicit false

namespace WzyServer.Log

open Run

-- What front or back leaves behind; `none` is a value that was not assigned.
structure Look (α : Type) where
  result : Bool
  value : Option α
  queue : BlockQueue α
  locked : Bool
deriving DecidableEq, Repr

namespace Look

variable {α : Type}

-- Only the branch for an empty queue unlocks m_mutex.
def cell (q : BlockQueue α) (index : Int) : Except Fault (Look α) :=
  if q.size = 0 then .ok ⟨false, none, q, false⟩
  else do
    let value ← BlockQueue.load q.array index
    return ⟨true, some value, q, true⟩

def front (q : BlockQueue α) : Except Fault (Look α) := cell q q.front
def back (q : BlockQueue α) : Except Fault (Look α) := cell q q.back

end Look

structure Guarded (α : Type) where
  shared : Shared α
  locked : Bool

inductive LookLabel (α : Type) where
  | plain (label : Label α)
  | front (thread : Nat)
  | back (thread : Nat)
deriving DecidableEq, Repr

namespace Guarded

variable {α : Type}

def start (queue : BlockQueue α) : Guarded α := ⟨.start queue, false⟩

def looked (s : Guarded α) (look : Look α) : Guarded α := ⟨{ s.shared with queue := look.queue }, look.locked⟩

def effect (s : Guarded α) : LookLabel α → Except Fault (Guarded α)
  | .plain label => do return { s with shared := ← s.shared.effect label }
  | .front _ => do return s.looked (← Look.front s.shared.queue)
  | .back _ => do return s.looked (← Look.back s.shared.queue)

def allows (s : Guarded α) : LookLabel α → Prop
  | .plain label => (queueMachine α).guard s.shared label
  | .front thread => s.shared.waiting thread = false
  | .back thread => s.shared.waiting thread = false

end Guarded

-- Every operation takes m_mutex before anything else.
def lookMachine (α : Type) : Machine (Guarded α) (LookLabel α) Fault where
  guard := fun s label => s.locked = false ∧ s.allows label
  effect := Guarded.effect

section Looks

variable {α : Type}

def FrontTruthful (s : Shared α) : Prop :=
  ∃ item next, s.queue.pop = .ok (some (item, next)) ∧ Look.front s.queue = .ok ⟨true, some item, s.queue, false⟩

def BackTruthful (s : Shared α) : Prop :=
  ∃ item, (Fifo.accepted s.history).getLast? = some item ∧ Look.back s.queue = .ok ⟨true, some item, s.queue, false⟩

theorem items_counted (q : BlockQueue α) (stocked : q.items ≠ []) : q.size ≠ 0 := by
  intro zero
  apply stocked
  rw [BlockQueue.items, BlockQueue.cells, zero]
  rfl

theorem cell_locks (q : BlockQueue α) (index : Int) (look : Look α) (counted : q.size ≠ 0) (ok : Look.cell q index = .ok look) :
    look.locked = true := by
  rw [Look.cell, if_neg counted] at ok
  obtain ⟨value, _, returned⟩ := ok_of_bind _ _ look ok
  cases returned
  rfl

theorem cell_loads (q : BlockQueue α) (index : Nat) (item : α) (counted : q.size ≠ 0) (here : q.array[index]? = some item) :
    Look.cell q index = .ok ⟨true, some item, q, true⟩ := by
  rw [Look.cell, if_neg counted, BlockQueue.load_inside q.array index item here]
  rfl

-- m_front is the cell before the first item, and none at all until something is popped.
theorem front_unpopped (q : BlockQueue α) (counted : q.size ≠ 0) (unpopped : q.front = -1) :
    Look.front q = .error .outOfBounds := by
  rw [Look.front, Look.cell, if_neg counted, unpopped, BlockQueue.load]
  cases q.array[(-1 : Int).toNat]? <;> rfl

theorem look_blocks (s t : Guarded α) (thread : Nat) (stocked : s.shared.queue.items ≠ [])
    (taken : Takes (lookMachine α) s (.front thread) t ∨ Takes (lookMachine α) s (.back thread) t) (label : LookLabel α) :
    ¬ (lookMachine α).guard t label := by
  have counted := items_counted s.shared.queue stocked
  have locked : t.locked = true := by
    rcases taken with ⟨_, ok⟩ | ⟨_, ok⟩
    · obtain ⟨look, looked, returned⟩ := ok_of_bind (Look.front s.shared.queue) _ t ok
      cases returned
      exact cell_locks _ _ look counted looked
    · obtain ⟨look, looked, returned⟩ := ok_of_bind (Look.back s.shared.queue) _ t ok
      cases returned
      exact cell_locks _ _ look counted looked
  rintro ⟨free, _⟩
  rw [locked] at free
  cases free

theorem front_back_untruthful (queue : BlockQueue α) (labels : List (LookLabel α)) :
    Always (lookMachine α) (fun s => s.shared.queue.items ≠ [] → ¬ FrontTruthful s.shared ∧ ¬ BackTruthful s.shared)
      (Guarded.start queue) labels := by
  refine always_mono _ (fun _ => True) _ ?_ _ labels (always_invariant _ _ (fun _ _ _ _ _ => trivial) _ labels trivial)
  intro s _ stocked
  have counted := items_counted s.shared.queue stocked
  constructor
  · rintro ⟨item, next, _, look⟩
    cases cell_locks _ _ _ counted look
  · rintro ⟨item, _, look⟩
    cases cell_locks _ _ _ counted look

def LastAt (q : BlockQueue α) (last : α) : Prop := ∃ index : Nat, q.back = index ∧ q.array[index]? = some last

theorem push_last (q next : BlockQueue α) (item : α) (pushed : q.push item = .ok (true, next)) : LastAt next item := by
  rw [BlockQueue.push] at pushed
  split at pushed
  · cases pushed
  · obtain ⟨array, stored, returned⟩ := ok_of_bind _ _ _ pushed
    cases returned
    rw [BlockQueue.store] at stored
    split at stored
    · rename_i inside
      cases stored
      refine ⟨((q.back + 1).tmod q.maxSize).toNat, (Int.toNat_of_nonneg inside.1).symm, ?_⟩
      exact List.getElem?_set_self (by omega)
    · cases stored

theorem pop_last (q next : BlockQueue α) (item last : α) (popped : q.pop = .ok (some (item, next))) (at_back : LastAt q last) :
    LastAt next last := by
  rw [BlockQueue.pop] at popped
  split at popped
  · cases popped
  · obtain ⟨value, _, returned⟩ := ok_of_bind _ _ _ popped
    cases returned
    exact at_back

structure Tailed (bound : Nat) (s : Shared α) : Prop where
  refines : s.Refines bound
  last : ∀ item, s.queue.items.getLast? = some item → LastAt s.queue item

theorem tailed_pop (bound : Nat) (s t : Shared α) (thread : Nat) (inv : Tailed bound s) (now : t.Refines bound)
    (ok : s.pop thread = .ok t) : Tailed bound t := by
  obtain ⟨items, _, stores⟩ := inv.refines
  have here := BlockQueue.stores_items s.queue bound items stores
  cases items with
  | nil =>
      rw [Shared.pop, BlockQueue.pop_empty s.queue bound stores] at ok
      cases ok
      exact ⟨now, inv.last⟩
  | cons item rest =>
      obtain ⟨queue, popped, left⟩ := BlockQueue.pop_stored s.queue bound rest item stores
      rw [Shared.pop, popped] at ok
      cases ok
      refine ⟨now, fun last final => pop_last s.queue queue item last popped (inv.last last ?_)⟩
      rw [show (Shared.blocks (s.did queue (.popped item)) thread false).queue.items = rest from
        BlockQueue.stores_items queue bound rest left] at final
      rw [here, List.getLast?_cons, final]
      rfl

theorem tailed_push (bound : Nat) (s t : Shared α) (item : α) (inv : Tailed bound s) (now : t.Refines bound)
    (ok : s.push item = .ok t) : Tailed bound t := by
  obtain ⟨items, _, stores⟩ := inv.refines
  have bounded := (BlockQueue.stores_cells s.queue bound items stores).2.2.1
  rcases Nat.lt_or_eq_of_le bounded with room | full
  · obtain ⟨queue, pushed, stored⟩ := BlockQueue.push_room s.queue bound items item stores room
    rw [Shared.push, pushed] at ok
    cases ok
    refine ⟨now, fun last final => ?_⟩
    rw [show (s.did queue _).queue.items = items ++ [item] from BlockQueue.stores_items queue bound _ stored,
      List.getLast?_concat] at final
    cases final
    exact push_last s.queue queue item pushed
  · rw [Shared.push, BlockQueue.push_full s.queue bound items item stores full] at ok
    cases ok
    exact ⟨now, inv.last⟩

theorem tailed_step (bound : Nat) (s t : Shared α) (label : Label α) (inv : Tailed bound s) (ok : s.effect label = .ok t) :
    Tailed bound t := by
  have now : t.Refines bound := by
    obtain ⟨other, reached, refines, _⟩ := queue_step_refines bound s label inv.refines
    cases ok.symm.trans reached
    exact refines
  cases label with
  | call thread call =>
      cases call with
      | push item => exact tailed_push bound s t item inv now ok
      | pop => exact tailed_pop bound s t thread inv now ok
      | clear =>
          cases ok
          refine ⟨now, fun item final => ?_⟩
          rw [show (s.did s.queue.clear _).queue.items = [] from rfl] at final
          cases final
      | _ =>
          cases ok
          exact ⟨now, inv.last⟩
  | wake thread success =>
      cases success with
      | true => exact tailed_pop bound s t thread inv now ok
      | false =>
          cases ok
          exact ⟨now, inv.last⟩

def LastPushed (s : Guarded α) : Prop := s.shared.queue.items ≠ [] → ∃ item,
  (Fifo.accepted s.shared.history).getLast? = some item ∧
    Look.back s.shared.queue = .ok ⟨true, some item, s.shared.queue, true⟩

theorem tailed_last (bound : Nat) (s : Guarded α) (inv : Tailed bound s.shared) : LastPushed s := by
  intro stocked
  obtain ⟨items, trace, stores⟩ := inv.refines
  have here := BlockQueue.stores_items s.shared.queue bound items stores
  have some := List.getLast?_eq_some_getLast stocked
  obtain ⟨index, back, cell⟩ := inv.last _ some
  refine ⟨s.shared.queue.items.getLast stocked, ?_, ?_⟩
  · rw [Fifo.trace_conserves bound _ items trace, ← here, List.getLast?_append, some]
    rfl
  · rw [Look.back, back]
    exact cell_loads s.shared.queue index _ (items_counted s.shared.queue stocked) cell

theorem cell_queue (q : BlockQueue α) (index : Int) (look : Look α) (ok : Look.cell q index = .ok look) : look.queue = q := by
  rw [Look.cell] at ok
  split at ok
  · cases ok
    rfl
  · obtain ⟨value, _, returned⟩ := ok_of_bind _ _ look ok
    cases returned
    rfl

theorem looked_shared (s t : Guarded α) (index : Int)
    (ok : (do return s.looked (← Look.cell s.shared.queue index) : Except Fault (Guarded α)) = .ok t) : t.shared = s.shared := by
  obtain ⟨look, looked, returned⟩ := ok_of_bind _ _ t ok
  cases returned
  rw [Guarded.looked, cell_queue _ _ look looked]

theorem guarded_step (bound : Nat) (s t : Guarded α) (label : LookLabel α) (inv : Tailed bound s.shared)
    (ok : (lookMachine α).effect s label = .ok t) : Tailed bound t.shared := by
  cases label with
  | plain label =>
      obtain ⟨shared, inner, returned⟩ := ok_of_bind (s.shared.effect label) _ t ok
      cases returned
      exact tailed_step bound s.shared shared label inv inner
  | front thread =>
      rw [looked_shared s t s.shared.queue.front ok]
      exact inv
  | back thread =>
      rw [looked_shared s t s.shared.queue.back ok]
      exact inv

theorem back_last_pushed (maxSize : Int) (blank : α) (queue : BlockQueue α)
    (created : BlockQueue.new maxSize blank = some queue) (labels : List (LookLabel α)) :
    Always (lookMachine α) LastPushed (Guarded.start queue) labels := by
  have stores := (BlockQueue.new_stores maxSize blank queue created).1
  have start : Tailed maxSize.toNat (Shared.start queue) := by
    refine ⟨⟨[], .start, stores⟩, fun item final => ?_⟩
    rw [show (Shared.start queue).queue.items = [] from BlockQueue.stores_items queue _ [] stores] at final
    cases final
  exact always_mono _ _ _ (fun s inv => tailed_last maxSize.toNat s inv) _ labels
    (always_invariant _ (fun s => Tailed maxSize.toNat s.shared)
      (fun s label t inv taken => guarded_step maxSize.toNat s t label inv taken.2) _ labels start)

end Looks

theorem looks_untruthful_fresh : ¬ Always (lookMachine Nat) (fun s => s.shared.queue.items ≠ [] →
      FrontTruthful s.shared ∧ BackTruthful s.shared) (Guarded.start ⟨3, [0, 0, 0], 0, -1, -1⟩) [.plain (.call 0 (.push 10))] := by
  intro always
  have taken : Takes (lookMachine Nat) (Guarded.start ⟨3, [0, 0, 0], 0, -1, -1⟩) (.plain (.call 0 (.push 10)))
      ⟨⟨⟨3, [10, 0, 0], 1, -1, 0⟩, fun _ => false, [.pushed 10]⟩, false⟩ := ⟨⟨rfl, rfl⟩, rfl⟩
  obtain ⟨⟨item, next, _, front⟩, _⟩ := always.2 _ taken (by decide)
  cases front

end WzyServer.Log
