import WzyServer.Log.WriteLog

set_option autoImplicit false

namespace WzyServer.Log

open Run

section Drain

variable {α : Type}

theorem flush_ok (bound : Nat) (s : Logger α) (stores : s.Stores bound) : ∃ t, s.asyncWriteLog = .ok t := by
  rw [Logger.asyncWriteLog]
  cases s.flusher with
  | some record => exact ⟨_, rfl⟩
  | none =>
      cases stored : s.queue.items with
      | nil =>
          rw [Logger.Stores, stored] at stores
          exact ⟨s, by rw [BlockQueue.pop_empty s.queue bound stores]; rfl⟩
      | cons record rest =>
          rw [Logger.Stores, stored] at stores
          obtain ⟨queue, popped, _⟩ := BlockQueue.pop_stored s.queue bound rest record stores
          exact ⟨_, by rw [popped]; rfl⟩

theorem drained_iff (bound : Nat) (s : Logger α) (stores : s.Stores bound) : s.drained = true ↔ s.inFlight = [] := by
  rw [Logger.drained, BlockQueue.empty_iff s.queue bound _ stores, Logger.inFlight]
  cases s.flusher <;> simp

-- What the flush thread does to the log is to move the records in flight into it,
-- two of its steps for each record.
theorem flush_step (bound : Nat) (s t : Logger α) (step : Step bound s .flush t) :
    t.file ++ t.inFlight = s.file ++ s.inFlight ∧ t.completed = s.completed ∧ t.writers = s.writers ∧
      (s.inFlight ≠ [] → 2 * t.queue.items.length + t.flusher.toList.length <
        2 * s.queue.items.length + s.flusher.toList.length) := by
  cases step with
  | waiting nothing => exact ⟨rfl, rfl, rfl, fun some => absurd nothing some⟩
  | popped record queue free front =>
      refine ⟨?_, rfl, rfl, ?_⟩
      · simp only [Logger.inFlight, free, front, Option.toList_some, Option.toList_none, List.nil_append, List.singleton_append]
      · intro _
        simp only [free, front, List.length_cons, Option.toList_some, Option.toList_none, List.length_nil]
        omega
  | flushed record held =>
      refine ⟨?_, rfl, rfl, ?_⟩
      · simp only [Logger.inFlight, held, Option.toList_some, Option.toList_none, List.nil_append, List.append_assoc]
      · intro _
        simp only [held, Option.toList_some, Option.toList_none, List.length_cons, List.length_nil]
        omega

theorem flush_drains (bound steps : Nat) (s : Logger α) (stores : s.Stores bound)
    (enough : 2 * s.queue.items.length + s.flusher.toList.length ≤ steps) :
    ∃ flushes t, replay (logMachine α) s (List.replicate flushes .flush) = some t ∧ t.drained = true ∧
      t.file = s.file ++ s.inFlight ∧ t.completed = s.completed := by
  induction steps generalizing s with
  | zero =>
      have queueEmpty : s.queue.items = [] := List.eq_nil_of_length_eq_zero (by omega)
      have freeFlusher : s.flusher.toList = [] := List.eq_nil_of_length_eq_zero (by omega)
      have nothing : s.inFlight = [] := by rw [Logger.inFlight, queueEmpty, freeFlusher, List.append_nil]
      exact ⟨0, s, rfl, (drained_iff bound s stores).mpr nothing, by rw [nothing, List.append_nil], rfl⟩
  | succ steps ih =>
      by_cases nothing : s.inFlight = []
      · exact ⟨0, s, rfl, (drained_iff bound s stores).mpr nothing, by rw [nothing, List.append_nil], rfl⟩
      · obtain ⟨next, ok⟩ := flush_ok bound s stores
        obtain ⟨nextStores, step⟩ := async_write_log_step bound s next stores ok
        obtain ⟨same, completed, _, less⟩ := flush_step bound s next step
        obtain ⟨flushes, t, run, drained, file, sameCompleted⟩ := ih next nextStores (by have := less nothing; omega)
        refine ⟨flushes + 1, t, ?_, drained, by rw [file, same], by rw [sameCompleted, completed]⟩
        rw [List.replicate_succ, replay_cons (logMachine α) s next .flush _ rfl ok]
        exact run

theorem flushed_drained (bound : Nat) (s : Logger α) (good : Logger α → Prop) (stores : s.Stores bound)
    (flushed : Flushed good s) : ∃ t, good t ∧ t.drained = true ∧ t.file = s.file ++ s.inFlight ∧ t.completed = s.completed := by
  obtain ⟨flushes, t, run, drained, file, completed⟩ := flush_drains bound _ s stores (Nat.le_refl _)
  exact ⟨t, always_replay _ good s t _ run (flushed flushes), drained, file, completed⟩

theorem flushed_of_invariant (inv good : Logger α → Prop)
    (kept : ∀ s t, inv s → Takes (logMachine α) s .flush t → inv t) (weaker : ∀ s, inv s → good s)
    (s : Logger α) (start : inv s) : Flushed good s := by
  intro flushes
  induction flushes generalizing s with
  | zero => exact weaker s start
  | succ flushes ih => exact ⟨weaker s start, fun t taken => ih t (kept s t start taken)⟩

end Drain

section Delivery

variable {α : Type}

def Logger.Delivered (s : Logger α) : Prop := s.drained = true → s.file.Perm s.completed

def FindsRoom (s : Logger α) (label : LogLabel α) : Prop :=
  ∀ thread calls record, label = .advance thread → s.writers[thread]? = some ⟨calls, .queueing record⟩ → s.queue.full = false

structure Accounted (bound : Nat) (s : Logger α) : Prop where
  stores : s.Stores bound
  perm : (s.file ++ s.inFlight).Perm s.completed

theorem accounted_step (bound : Nat) (s t : Logger α) (label : LogLabel α) (inv : Accounted bound s)
    (room : FindsRoom s label) (taken : Takes (logMachine α) s label t) : Accounted bound t := by
  obtain ⟨stores, step⟩ := log_step bound s t label inv.stores taken
  refine ⟨stores, ?_⟩
  have perm := inv.perm
  cases step with
  | begin thread calls text idle => exact perm
  | tested thread calls record phase formatted answer => exact perm
  | queued thread calls record queue queueing notFull pushed =>
      have longer : (s.file ++ (s.flusher.toList ++ queue.items)) = (s.file ++ s.inFlight) ++ [record] := by
        rw [pushed, Logger.inFlight, List.append_assoc, List.append_assoc]
      exact (List.Perm.of_eq longer).trans (perm.append_right [record])
  | lost thread calls record queueing full =>
      have notFull := room thread calls record rfl queueing
      rw [full] at notFull
      cases notFull
  | written thread calls record direct =>
      have moved : (s.file ++ [record] ++ s.inFlight).Perm ((s.file ++ s.inFlight) ++ [record]) := by
        rw [List.append_assoc, List.append_assoc]
        exact List.perm_append_comm.append_left s.file
      exact moved.trans (perm.append_right [record])
  | waiting nothing => exact perm
  | popped record queue free front =>
      rw [(flush_step bound s _ (.popped record queue free front)).1]
      exact perm
  | flushed record held =>
      rw [(flush_step bound s _ (.flushed record held)).1]
      exact perm

theorem accounted_flushed (bound : Nat) (s : Logger α) (inv : Accounted bound s) : Flushed Logger.Delivered s := by
  refine flushed_of_invariant (Accounted bound) _ ?_ ?_ s inv
  · exact fun s t here taken => accounted_step bound s t .flush here (fun _ _ _ other => by cases other) taken
  · intro t accounted drained
    have perm := accounted.perm
    rwa [(drained_iff bound t accounted.stores).mp drained, List.append_nil] at perm

theorem lost_exposed (bound : Nat) (s : Logger α) (label : LogLabel α) (inv : Accounted bound s)
    (offered : (logMachine α).guard s label) (refused : ¬ FindsRoom s label) :
    ∃ t, (logMachine α).effect s label = .ok t ∧ ¬ Flushed Logger.Delivered t := by
  simp only [FindsRoom, not_forall] at refused
  obtain ⟨thread, calls, record, rfl, queueing, full⟩ := refused
  rw [BlockQueue.full_iff s.queue bound _ inv.stores, decide_eq_false_iff_not, not_not] at full
  have pushed := BlockQueue.push_full s.queue bound _ record inv.stores full
  refine ⟨s.completes thread calls record, ?_, ?_⟩
  · simp only [logMachine, Logger.effect, queueing, Logger.writeLog, pushed]
    rfl
  · intro flushed
    have stores : (s.completes thread calls record).Stores bound := inv.stores
    obtain ⟨t, delivered, drained, file, completed⟩ := flushed_drained bound _ _ stores flushed
    have counted := (delivered drained).length_eq
    have before := inv.perm.length_eq
    rw [file, completed] at counted
    simp only [Logger.completes, Logger.moves, Logger.inFlight, List.length_append, List.length_singleton] at counted before
    omega

theorem start_accounted (capacity : Int) (blank : Record α) (queue : BlockQueue (Record α)) (threads : Nat)
    (created : BlockQueue.new capacity blank = some queue) : Accounted capacity.toNat (Logger.start queue threads) := by
  have stores := (BlockQueue.new_stores capacity blank queue created).1
  refine ⟨stores_of _ _ [] stores, ?_⟩
  simp only [Logger.inFlight, Logger.start, BlockQueue.stores_items queue _ [] stores]
  exact .refl _

theorem records_delivered_iff (capacity : Int) (blank : Record α) (queue : BlockQueue (Record α)) (threads : Nat)
    (created : BlockQueue.new capacity blank = some queue) (labels : List (LogLabel α)) :
    Always (logMachine α) (Flushed Logger.Delivered) (Logger.start queue threads) labels ↔
      Along (logMachine α) FindsRoom (Logger.start queue threads) labels := by
  have start := start_accounted capacity blank queue threads created
  refine always_iff_along (logMachine α) FindsRoom (Accounted capacity.toNat) _ ?_ ?_ ?_ _ labels start
  · exact fun s label t inv room taken => accounted_step capacity.toNat s t label inv room taken
  · exact lost_exposed capacity.toNat
  · exact accounted_flushed capacity.toNat

end Delivery

def oneCell : BlockQueue (Record Nat) := ⟨1, [⟨0, 0, 0⟩], 0, -1, -1⟩

def takenInTurn : List (LogLabel Nat) :=
  [.begin 0 10, .begin 1 20, .advance 0, .advance 1, .advance 0, .flush, .advance 1]

theorem records_delivered_in_turn :
    Along (logMachine Nat) FindsRoom (Logger.start oneCell 2) takenInTurn ↔
      Always (logMachine Nat) (Flushed Logger.Delivered) (Logger.start oneCell 2) takenInTurn :=
  (records_delivered_iff 1 ⟨0, 0, 0⟩ oneCell 2 rfl takenInTurn).symm

def takenAtOnce : List (LogLabel Nat) := [.begin 0 10, .begin 1 20, .advance 0, .advance 1, .advance 0, .advance 1]

theorem record_lost : ¬ Always (logMachine Nat) (Flushed Logger.Delivered) (Logger.start oneCell 2) takenAtOnce := by
  intro always
  have reached : ∃ s t, replay (logMachine Nat) (Logger.start oneCell 2) takenAtOnce = some s ∧
      replay (logMachine Nat) s (List.replicate 2 .flush) = some t ∧ t.drained = true ∧ t.file = [⟨0, 0, 10⟩] ∧
      t.completed = [⟨0, 0, 10⟩, ⟨1, 0, 20⟩] := ⟨_, _, rfl, rfl, rfl, rfl, rfl⟩
  obtain ⟨s, t, calls, flushes, drained, file, completed⟩ := reached
  have delivered := always_replay _ _ s t _ flushes (always_replay _ _ _ s _ calls always 2)
  have counted := (delivered drained).length_eq
  rw [file, completed] at counted
  exact absurd counted (by decide)

end WzyServer.Log
