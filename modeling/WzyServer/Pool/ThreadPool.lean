import Mathlib.Data.List.ReduceOption
import WzyServer.Base.Fifo
import WzyServer.Base.Run
import WzyServer.Base.Threads

set_option autoImplicit false

namespace WzyServer.Pool

open Run

inductive Caller where
  | idle
  | posting
deriving DecidableEq, Repr

-- A worker in run(): before m_queuestat.wait(), behind it, and with a request
-- from the queue that it has not yet called process() on.
inductive Worker (α : Type) where
  | waiting
  | woken
  | serving (request : α)
deriving DecidableEq, Repr

-- threadpool<T>, where `none` is a null T*. `history` is what append_job and the
-- workers did with m_workqueue, `processed` the calls of process(), each with its
-- worker.
structure ThreadPool (α : Type) where
  maxRequests : Nat
  workqueue : List (Option α)
  queuestat : Nat
  callers : List Caller
  workers : List (Worker α)
  history : List (Fifo.Event (Option α))
  processed : List (Nat × α)
deriving DecidableEq, Repr

-- `interrupted` is a sem_wait that returned -1, which run() takes for a wake-up.
inductive PoolLabel (α : Type) where
  | append (caller : Nat) (request : Option α)
  | post (caller : Nat)
  | wait (worker : Nat) (interrupted : Bool)
  | take (worker : Nat)
  | process (worker : Nat)
deriving DecidableEq, Repr

namespace ThreadPool

variable {α : Type}

def start (maxRequests callers workers : Nat) : ThreadPool α :=
  ⟨maxRequests, [], 0, List.replicate callers .idle, List.replicate workers .waiting, [], []⟩

def sets (s : ThreadPool α) (worker : Nat) (now : Worker α) : ThreadPool α := { s with workers := s.workers.set worker now }

def appendJob (s : ThreadPool α) (caller : Nat) (request : Option α) : ThreadPool α :=
  if s.workqueue.length > s.maxRequests then { s with history := s.history ++ [.refused request] }
  else { s with
    workqueue := s.workqueue ++ [request], callers := s.callers.set caller .posting,
    history := s.history ++ [.pushed request] }

def post (s : ThreadPool α) (caller : Nat) : ThreadPool α :=
  { s with queuestat := s.queuestat + 1, callers := s.callers.set caller .idle }

def wait (s : ThreadPool α) (worker : Nat) (interrupted : Bool) : ThreadPool α :=
  { s.sets worker .woken with queuestat := if interrupted then s.queuestat else s.queuestat - 1 }

def take (s : ThreadPool α) (worker : Nat) : ThreadPool α :=
  match s.workqueue with
  | [] => s.sets worker .waiting
  | request :: rest =>
      { s.sets worker (match request with
          | none => .waiting
          | some request => .serving request) with
        workqueue := rest, history := s.history ++ [.popped request] }

def process (s : ThreadPool α) (worker : Nat) : ThreadPool α :=
  match s.workers[worker]? with
  | some (.serving request) => { s.sets worker .waiting with processed := s.processed ++ [(worker, request)] }
  | _ => s

def step (s : ThreadPool α) : PoolLabel α → ThreadPool α
  | .append caller request => s.appendJob caller request
  | .post caller => s.post caller
  | .wait worker interrupted => s.wait worker interrupted
  | .take worker => s.take worker
  | .process worker => s.process worker

def offers (s : ThreadPool α) : PoolLabel α → Bool
  | .append caller _ => s.callers[caller]? == some .idle
  | .post caller => s.callers[caller]? == some .posting
  | .wait worker interrupted => (interrupted || decide (0 < s.queuestat)) && match s.workers[worker]? with
      | some .waiting => true
      | _ => false
  | .take worker => match s.workers[worker]? with
      | some .woken => true
      | _ => false
  | .process worker => match s.workers[worker]? with
      | some (.serving _) => true
      | _ => false

end ThreadPool

def poolMachine (α : Type) : Machine (ThreadPool α) (PoolLabel α) Empty where
  guard := fun s label => s.offers label = true
  effect := fun s label => .ok (s.step label)

instance (α : Type) (s : ThreadPool α) (label : PoolLabel α) : Decidable ((poolMachine α).guard s label) :=
  inferInstanceAs (Decidable (s.offers label = true))

section Delivery

variable {α : Type}

def Caller.posts : Caller → Nat
  | .idle => 0
  | .posting => 1

def Worker.pastWait : Worker α → Nat
  | .woken => 1
  | _ => 0

def Worker.request : Worker α → List α
  | .serving request => [request]
  | _ => []

def ThreadPool.accepted (s : ThreadPool α) : List α := (Fifo.accepted s.history).reduceOption
def ThreadPool.taken (s : ThreadPool α) : List α := (Fifo.delivered s.history).reduceOption

def ThreadPool.processedBy (s : ThreadPool α) (worker : Nat) : List α :=
  (s.processed.filter fun call => call.1 = worker).map Prod.snd

def ThreadPool.held (s : ThreadPool α) (worker : Nat) : List α := ((s.workers[worker]?).map Worker.request).getD []

inductive PoolStep (s : ThreadPool α) : PoolLabel α → ThreadPool α → Prop where
  | refused (caller : Nat) (request : Option α) (full : s.workqueue.length > s.maxRequests) :
      PoolStep s (.append caller request) { s with history := s.history ++ [.refused request] }
  | accepted (caller : Nat) (request : Option α) (idle : s.callers[caller]? = some .idle)
      (room : s.workqueue.length ≤ s.maxRequests) : PoolStep s (.append caller request) { s with
        workqueue := s.workqueue ++ [request], callers := s.callers.set caller .posting,
        history := s.history ++ [.pushed request] }
  | posted (caller : Nat) (posting : s.callers[caller]? = some .posting) : PoolStep s (.post caller) (s.post caller)
  | woken (worker : Nat) (interrupted : Bool) (waiting : s.workers[worker]? = some .waiting)
      (positive : interrupted = true ∨ 0 < s.queuestat) : PoolStep s (.wait worker interrupted) (s.wait worker interrupted)
  | foundEmpty (worker : Nat) (woken : s.workers[worker]? = some .woken) (empty : s.workqueue = []) :
      PoolStep s (.take worker) (s.sets worker .waiting)
  | took (worker : Nat) (request : Option α) (rest : List (Option α)) (now : Worker α)
      (woken : s.workers[worker]? = some .woken) (front : s.workqueue = request :: rest)
      (serves : now.request = [request].reduceOption ∧ now.pastWait = 0) : PoolStep s (.take worker)
        { s.sets worker now with workqueue := rest, history := s.history ++ [.popped request] }
  | processed (worker : Nat) (request : α) (serving : s.workers[worker]? = some (.serving request)) :
      PoolStep s (.process worker) { s.sets worker .waiting with processed := s.processed ++ [(worker, request)] }

theorem take_step (s : ThreadPool α) (worker : Nat) (woken : s.workers[worker]? = some .woken) :
    PoolStep s (.take worker) (s.take worker) := by
  cases queue : s.workqueue with
  | nil =>
      rw [ThreadPool.take, queue]
      exact .foundEmpty worker woken queue
  | cons request rest =>
      rw [ThreadPool.take, queue]
      cases request with
      | none => exact .took worker none rest .waiting woken queue ⟨rfl, rfl⟩
      | some request => exact .took worker (some request) rest (.serving request) woken queue ⟨rfl, rfl⟩

theorem pool_step (s t : ThreadPool α) (label : PoolLabel α) (taken : Takes (poolMachine α) s label t) : PoolStep s label t := by
  obtain ⟨offered, ok⟩ := taken
  cases ok
  cases label with
  | append caller request =>
      have idle : s.callers[caller]? = some .idle := by simpa [poolMachine, ThreadPool.offers] using offered
      rw [ThreadPool.step, ThreadPool.appendJob]
      by_cases full : s.workqueue.length > s.maxRequests
      · rw [if_pos full]
        exact .refused caller request full
      · rw [if_neg full]
        exact .accepted caller request idle (Nat.le_of_not_lt full)
  | post caller => exact .posted caller (by simpa [poolMachine, ThreadPool.offers] using offered)
  | wait worker interrupted =>
      simp only [poolMachine, ThreadPool.offers, Bool.and_eq_true, Bool.or_eq_true, decide_eq_true_eq] at offered
      obtain ⟨positive, here⟩ := offered
      cases found : s.workers[worker]? with
      | none => simp [found] at here
      | some phase =>
          cases phase with
          | waiting => exact .woken worker interrupted found positive
          | _ => simp [found] at here
  | take worker =>
      cases found : s.workers[worker]? with
      | none => simp [poolMachine, ThreadPool.offers, found] at offered
      | some phase =>
          cases phase with
          | woken => exact take_step s worker found
          | _ => simp [poolMachine, ThreadPool.offers, found] at offered
  | process worker =>
      cases found : s.workers[worker]? with
      | none => simp [poolMachine, ThreadPool.offers, found] at offered
      | some phase =>
          cases phase with
          | serving request =>
              rw [ThreadPool.step, ThreadPool.process, found]
              exact .processed worker request found
          | _ => simp [poolMachine, ThreadPool.offers, found] at offered

theorem stranded_step (s t : ThreadPool α) (label : PoolLabel α) (step : PoolStep s label t)
    (before : s.workqueue.length ≤ s.queuestat + Threads.total Caller.posts s.callers + Threads.total Worker.pastWait s.workers) :
    t.workqueue.length ≤ t.queuestat + Threads.total Caller.posts t.callers + Threads.total Worker.pastWait t.workers := by
  cases step with
  | refused caller request full => exact before
  | accepted caller request idle room =>
      have posts := Threads.total_set Caller.posts s.callers caller .idle .posting idle
      simp only [Caller.posts] at posts
      simp only [List.length_append, List.length_singleton]
      omega
  | posted caller posting =>
      have posts := Threads.total_set Caller.posts s.callers caller .posting .idle posting
      simp only [Caller.posts] at posts
      simp only [ThreadPool.post]
      omega
  | woken worker interrupted waiting positive =>
      have pasts := Threads.total_set Worker.pastWait s.workers worker .waiting .woken waiting
      simp only [Worker.pastWait] at pasts
      cases interrupted with
      | true =>
          simp only [ThreadPool.wait, ThreadPool.sets, if_true]
          omega
      | false =>
          have decremented : 0 < s.queuestat := positive.resolve_left Bool.false_ne_true
          simp only [ThreadPool.wait, ThreadPool.sets, Bool.false_eq_true, if_false]
          omega
  | foundEmpty worker woken empty =>
      simp only [ThreadPool.sets, empty, List.length_nil]
      omega
  | took worker request rest now woken front serves =>
      have pasts := Threads.total_set Worker.pastWait s.workers worker .woken now woken
      rw [serves.2] at pasts
      simp only [Worker.pastWait] at pasts
      simp only [front, List.length_cons] at before
      simp only [ThreadPool.sets]
      omega
  | processed worker request serving =>
      have pasts := Threads.total_set Worker.pastWait s.workers worker (.serving request) .waiting serving
      simp only [Worker.pastWait] at pasts
      simp only [ThreadPool.sets]
      omega

structure Queued (maxRequests : Nat) (s : ThreadPool α) : Prop where
  limit : s.maxRequests = maxRequests
  trace : Fifo.Trace (maxRequests + 1) s.history s.workqueue
  uncleared : ∀ dropped, .cleared dropped ∉ s.history

theorem queued_next (maxRequests : Nat) (s t : ThreadPool α) (event : Fifo.Event (Option α)) (inv : Queued maxRequests s)
    (limit : t.maxRequests = s.maxRequests) (history : t.history = s.history ++ [event])
    (step : Fifo.Step (maxRequests + 1) s.workqueue event t.workqueue) (uncleared : ∀ dropped, event ≠ .cleared dropped) :
    Queued maxRequests t := by
  refine ⟨limit.trans inv.limit, ?_, ?_⟩
  · rw [history]
    exact .next s.history s.workqueue t.workqueue event inv.trace step
  · intro dropped member
    rw [history] at member
    rcases List.mem_append.mp member with older | last
    · exact inv.uncleared dropped older
    · exact uncleared dropped (List.mem_singleton.mp last).symm

theorem queued_step (maxRequests : Nat) (s t : ThreadPool α) (label : PoolLabel α) (inv : Queued maxRequests s)
    (step : PoolStep s label t) : Queued maxRequests t := by
  have bounded := Fifo.trace_bounded _ _ _ inv.trace
  have limit := inv.limit
  cases step with
  | refused caller request full =>
      exact queued_next maxRequests s _ _ inv rfl rfl (.refuse s.workqueue request (by omega)) fun _ same => by cases same
  | accepted caller request idle room =>
      exact queued_next maxRequests s _ _ inv rfl rfl (.push s.workqueue request (by omega)) fun _ same => by cases same
  | took worker request rest now woken front serves =>
      refine queued_next maxRequests s _ _ inv rfl rfl ?_ fun _ same => by cases same
      rw [front]
      exact .pop rest request
  | _ => exact ⟨inv.limit, inv.trace, inv.uncleared⟩

structure Handled (s : ThreadPool α) : Prop where
  once : (s.processed.map Prod.snd ++ s.workers.flatMap Worker.request).Perm s.taken
  order : ∀ worker, (s.processedBy worker ++ s.held worker).Sublist s.taken

theorem handled_same (s t : ThreadPool α) (inv : Handled s) (processed : t.processed = s.processed)
    (workers : t.workers = s.workers) (taken : t.taken = s.taken) : Handled t := by
  refine ⟨?_, ?_⟩
  · rw [processed, workers, taken]
    exact inv.once
  · intro worker
    rw [ThreadPool.processedBy, ThreadPool.held, processed, workers, taken]
    exact inv.order worker

theorem handled_set (s t : ThreadPool α) (inv : Handled s) (worker : Nat) (before after : Worker α) (called got : List α)
    (here : s.workers[worker]? = some before) (workers : t.workers = s.workers.set worker after)
    (processed : t.processed = s.processed ++ called.map fun request => (worker, request)) (taken : t.taken = s.taken ++ got)
    (balance : before.request ++ got = called ++ after.request) : Handled t := by
  have inside : worker < s.workers.length := (List.getElem?_eq_some_iff.mp here).1
  refine ⟨?_, ?_⟩
  · have moved := Threads.flatMap_set_perm Worker.request s.workers worker before after here
    rw [← workers] at moved
    have once := inv.once
    simp only [processed, taken, List.map_append, List.map_map, Function.comp_def, List.map_id']
    simp only [← Multiset.coe_eq_coe, ← Multiset.coe_add] at once moved ⊢
    have balanced : (before.request : Multiset α) + got = called + after.request := by
      rw [Multiset.coe_add, balance, Multiset.coe_add]
    have kept : (called : Multiset α) + t.workers.flatMap Worker.request = s.workers.flatMap Worker.request + got := by
      apply add_right_cancel (b := (after.request : Multiset α))
      rw [add_right_comm, ← balanced, add_right_comm, add_comm (before.request : Multiset α), moved, add_right_comm]
    rw [← once, add_assoc, kept, add_assoc]
  · intro i
    by_cases same : i = worker
    · subst same
      have heldBefore : s.held i = before.request := by rw [ThreadPool.held, here]; rfl
      have heldAfter : t.held i = after.request := by rw [ThreadPool.held, workers, List.getElem?_set_self inside]; rfl
      have by_now : t.processedBy i = s.processedBy i ++ called := by
        simp [ThreadPool.processedBy, processed, List.filter_map, Function.comp_def]
      rw [by_now, heldAfter, taken, List.append_assoc, ← balance, ← heldBefore, ← List.append_assoc]
      exact (inv.order i).append (List.Sublist.refl got)
    · have heldSame : t.held i = s.held i := by
        rw [ThreadPool.held, ThreadPool.held, workers, List.getElem?_set_ne (Ne.symm same)]
      have bySame : t.processedBy i = s.processedBy i := by
        simp [ThreadPool.processedBy, processed, List.filter_map, Function.comp_def, Ne.symm same]
      rw [bySame, heldSame, taken]
      exact (inv.order i).trans (List.sublist_append_left _ got)

theorem handled_step (s t : ThreadPool α) (label : PoolLabel α) (inv : Handled s) (step : PoolStep s label t) : Handled t := by
  cases step with
  | refused caller request full => exact handled_same s _ inv rfl rfl (by simp [ThreadPool.taken, Fifo.Event.delivered])
  | accepted caller request idle room =>
      exact handled_same s _ inv rfl rfl (by simp [ThreadPool.taken, Fifo.Event.delivered])
  | posted caller posting => exact handled_same s _ inv rfl rfl rfl
  | woken worker interrupted waiting positive =>
      exact handled_set s _ inv worker .waiting .woken [] [] waiting rfl (List.append_nil _).symm (List.append_nil _).symm rfl
  | foundEmpty worker woken empty =>
      exact handled_set s _ inv worker .woken .waiting [] [] woken rfl (List.append_nil _).symm (List.append_nil _).symm rfl
  | took worker request rest now woken front serves =>
      refine handled_set s _ inv worker .woken now [] [request].reduceOption woken rfl (List.append_nil _).symm ?_ serves.1.symm
      simp [ThreadPool.taken, Fifo.Event.delivered, List.reduceOption_append]
  | processed worker request serving =>
      exact handled_set s _ inv worker (.serving request) .waiting [request] [] serving rfl rfl (List.append_nil _).symm rfl

-- `queue` and `order` are about m_workqueue, null requests included; `once` and
-- `byWorker` about the calls of process().
structure Delivers (maxRequests : Nat) (s : ThreadPool α) : Prop where
  queue : Fifo.Trace (maxRequests + 1) s.history s.workqueue
  order : Fifo.accepted s.history = Fifo.delivered s.history ++ s.workqueue
  once : (s.processed.map Prod.snd ++ s.workers.flatMap Worker.request).Perm s.taken
  byWorker : ∀ worker, (s.processedBy worker ++ s.held worker).Sublist s.taken
  stranded : s.workqueue.length ≤ s.queuestat + Threads.total Caller.posts s.callers + Threads.total Worker.pastWait s.workers

theorem start_handled (maxRequests callers workers : Nat) : Handled (α := α) (.start maxRequests callers workers) := by
  have idle : (List.replicate workers (Worker.waiting (α := α))).flatMap Worker.request = [] :=
    List.flatMap_eq_nil_iff.mpr fun worker member => by rw [List.eq_of_mem_replicate member]; rfl
  refine ⟨?_, ?_⟩
  · rw [ThreadPool.start, idle]
    exact .refl _
  · intro worker
    have nothing : (ThreadPool.start (α := α) maxRequests callers workers).held worker = [] := by
      simp only [ThreadPool.held, ThreadPool.start, List.getElem?_replicate]
      split <;> rfl
    rw [nothing]
    exact .refl _

theorem thread_pool_delivers (maxRequests callers workers : Nat) (labels : List (PoolLabel α)) :
    Always (poolMachine α) (Delivers maxRequests) (ThreadPool.start maxRequests callers workers) labels := by
  refine always_mono _ (fun s => Queued maxRequests s ∧ Handled s ∧ s.workqueue.length ≤
    s.queuestat + Threads.total Caller.posts s.callers + Threads.total Worker.pastWait s.workers) _ ?_ _ labels
    (always_invariant _ _ ?_ _ labels ⟨?_, ?_, ?_⟩)
  · rintro s ⟨queued, handled, stranded⟩
    refine ⟨queued.trace, ?_, handled.once, handled.order, stranded⟩
    rw [Fifo.delivered_eq_removed s.history queued.uncleared]
    exact Fifo.trace_conserves _ _ _ queued.trace
  · rintro s label t ⟨queued, handled, stranded⟩ taken
    have step := pool_step s t label taken
    exact ⟨queued_step maxRequests s t label queued step, handled_step s t label handled step, stranded_step s t label step stranded⟩
  · exact ⟨rfl, .start, by simp [ThreadPool.start]⟩
  · exact start_handled maxRequests callers workers
  · exact Nat.zero_le _

def ThreadPool.InAcceptedOrder (s : ThreadPool α) : Prop := s.processed.map Prod.snd <+: s.accepted

end Delivery

def processedAcross : List (PoolLabel Nat) :=
  [.append 0 (some 10), .post 0, .append 0 (some 20), .post 0, .wait 0 false, .wait 1 false, .take 0, .take 1, .process 1]

theorem processed_out_of_order : ¬ Always (poolMachine Nat) ThreadPool.InAcceptedOrder (.start 1 1 2) processedAcross := by
  intro always
  have reached : ∃ s, replay (poolMachine Nat) (.start 1 1 2) processedAcross = some s ∧ s.processed = [(1, 20)] ∧
      s.accepted = [10, 20] := ⟨_, rfl, rfl, rfl⟩
  obtain ⟨s, run, processed, accepted⟩ := reached
  have inOrder := always_replay _ _ _ s _ run always
  rw [ThreadPool.InAcceptedOrder, processed, accepted] at inOrder
  exact absurd inOrder (by decide)

end WzyServer.Pool
