import WzyServer.Log.BlockQueue

set_option autoImplicit false

namespace WzyServer.Log

open Run

-- The text of one write_log call. The calling thread and the number of the call
-- are not in the source.
structure Record (α : Type) where
  thread : Nat
  number : Nat
  text : α
deriving DecidableEq, Repr

-- How far a thread has come with write_log: log_str is made, full() has answered
-- false, or has answered true.
inductive Phase (α : Type) where
  | idle
  | formatted (record : Record α)
  | queueing (record : Record α)
  | direct (record : Record α)
deriving DecidableEq, Repr

structure Writer (α : Type) where
  calls : Nat
  phase : Phase α
deriving DecidableEq, Repr

-- Log in asynchronous mode. `file` has what fputs wrote through m_fp, `flusher` the
-- single_log of the flush thread between pop and fputs, `completed` the calls of
-- write_log that are over.
structure Logger (α : Type) where
  queue : BlockQueue (Record α)
  file : List (Record α)
  flusher : Option (Record α)
  writers : List (Writer α)
  completed : List (Record α)
deriving DecidableEq, Repr

inductive LogLabel (α : Type) where
  | begin (thread : Nat) (text : α)
  | advance (thread : Nat)
  | flush
deriving DecidableEq, Repr

namespace Logger

variable {α : Type}

def start (queue : BlockQueue (Record α)) (threads : Nat) : Logger α := ⟨queue, [], none, List.replicate threads ⟨0, .idle⟩, []⟩

def moves (s : Logger α) (thread calls : Nat) (phase : Phase α) : Logger α :=
  { s with writers := s.writers.set thread ⟨calls, phase⟩ }

def completes (s : Logger α) (thread calls : Nat) (record : Record α) : Logger α :=
  { s.moves thread (calls + 1) .idle with completed := s.completed ++ [record] }

def writeLog (s : Logger α) (thread : Nat) : Writer α → Except Fault (Logger α)
  | ⟨_, .idle⟩ => .ok s
  | ⟨calls, .formatted record⟩ =>
      .ok (s.moves thread calls (if s.queue.full then .direct record else .queueing record))
  | ⟨calls, .queueing record⟩ => do
      let (_, queue) ← s.queue.push record
      return { s.completes thread calls record with queue := queue }
  | ⟨calls, .direct record⟩ => .ok { s.completes thread calls record with file := s.file ++ [record] }

def asyncWriteLog (s : Logger α) : Except Fault (Logger α) :=
  match s.flusher with
  | some record => .ok { s with file := s.file ++ [record], flusher := none }
  | none => do
      match ← s.queue.pop with
      | none => return s
      | some (record, queue) => return { s with queue := queue, flusher := some record }

def effect (s : Logger α) : LogLabel α → Except Fault (Logger α)
  | .begin thread text => match s.writers[thread]? with
      | some ⟨calls, .idle⟩ => .ok (s.moves thread calls (.formatted ⟨thread, calls, text⟩))
      | _ => .ok s
  | .advance thread => match s.writers[thread]? with
      | some writer => s.writeLog thread writer
      | none => .ok s
  | .flush => s.asyncWriteLog

def offers (s : Logger α) : LogLabel α → Bool
  | .begin thread _ => match s.writers[thread]? with
      | some ⟨_, .idle⟩ => true
      | _ => false
  | .advance thread => match s.writers[thread]? with
      | some ⟨_, .idle⟩ => false
      | some _ => true
      | none => false
  | .flush => true

def drained (s : Logger α) : Bool := s.queue.empty && s.flusher.isNone

def inFlight (s : Logger α) : List (Record α) := s.flusher.toList ++ s.queue.items

end Logger

def logMachine (α : Type) : Machine (Logger α) (LogLabel α) Fault where
  guard := fun s label => s.offers label = true
  effect := Logger.effect

instance (α : Type) (s : Logger α) (label : LogLabel α) : Decidable ((logMachine α).guard s label) :=
  inferInstanceAs (Decidable (s.offers label = true))

section Runs

variable {α : Type}

def Flushed (good : Logger α → Prop) (s : Logger α) : Prop :=
  ∀ flushes, Always (logMachine α) good s (List.replicate flushes .flush)

inductive Step (bound : Nat) (s : Logger α) : LogLabel α → Logger α → Prop where
  | begin (thread calls : Nat) (text : α) (idle : s.writers[thread]? = some ⟨calls, .idle⟩) :
      Step bound s (.begin thread text) (s.moves thread calls (.formatted ⟨thread, calls, text⟩))
  | tested (thread calls : Nat) (record : Record α) (phase : Phase α)
      (formatted : s.writers[thread]? = some ⟨calls, .formatted record⟩)
      (answer : phase = .queueing record ∨ phase = .direct record) : Step bound s (.advance thread) (s.moves thread calls phase)
  | queued (thread calls : Nat) (record : Record α) (queue : BlockQueue (Record α))
      (queueing : s.writers[thread]? = some ⟨calls, .queueing record⟩) (notFull : s.queue.full = false)
      (pushed : queue.items = s.queue.items ++ [record]) :
      Step bound s (.advance thread) { s.completes thread calls record with queue := queue }
  | lost (thread calls : Nat) (record : Record α) (queueing : s.writers[thread]? = some ⟨calls, .queueing record⟩)
      (full : s.queue.full = true) : Step bound s (.advance thread) (s.completes thread calls record)
  | written (thread calls : Nat) (record : Record α) (direct : s.writers[thread]? = some ⟨calls, .direct record⟩) :
      Step bound s (.advance thread) { s.completes thread calls record with file := s.file ++ [record] }
  | waiting (nothing : s.inFlight = []) : Step bound s .flush s
  | popped (record : Record α) (queue : BlockQueue (Record α)) (free : s.flusher = none)
      (front : s.queue.items = record :: queue.items) : Step bound s .flush { s with queue := queue, flusher := some record }
  | flushed (record : Record α) (held : s.flusher = some record) :
      Step bound s .flush { s with file := s.file ++ [record], flusher := none }

def Logger.Stores (s : Logger α) (bound : Nat) : Prop := s.queue.Stores bound s.queue.items

theorem stores_of (s : Logger α) (bound : Nat) (items : List (Record α)) (stores : s.queue.Stores bound items) :
    s.Stores bound := by
  rw [Logger.Stores, BlockQueue.stores_items s.queue bound items stores]
  exact stores

theorem write_log_step (bound : Nat) (s t : Logger α) (thread : Nat) (writer : Writer α) (stores : s.Stores bound)
    (here : s.writers[thread]? = some writer) (busy : writer.phase ≠ .idle) (ok : s.writeLog thread writer = .ok t) :
    t.Stores bound ∧ Step bound s (.advance thread) t := by
  obtain ⟨calls, phase⟩ := writer
  cases phase with
  | idle => exact absurd rfl busy
  | formatted record =>
      cases ok
      refine ⟨stores, .tested thread calls record _ here ?_⟩
      by_cases full : s.queue.full = true
      · exact .inr (if_pos full)
      · exact .inl (if_neg full)
  | queueing record =>
      have answer := BlockQueue.full_iff s.queue bound s.queue.items stores
      obtain ⟨_, _, room, _⟩ := BlockQueue.stores_cells s.queue bound s.queue.items stores
      rcases Nat.lt_or_eq_of_le room with less | full
      · obtain ⟨queue, pushed, now⟩ := BlockQueue.push_room s.queue bound s.queue.items record stores less
        rw [Logger.writeLog, pushed] at ok
        cases ok
        refine ⟨stores_of _ bound _ now, .queued thread calls record queue here ?_ ?_⟩
        · rw [answer]
          exact decide_eq_false (Nat.ne_of_lt less)
        · exact BlockQueue.stores_items queue bound _ now
      · have refused := BlockQueue.push_full s.queue bound s.queue.items record stores full
        rw [Logger.writeLog, refused] at ok
        cases ok
        refine ⟨stores, .lost thread calls record here ?_⟩
        rw [answer]
        exact decide_eq_true full
  | direct record =>
      cases ok
      exact ⟨stores, .written thread calls record here⟩

theorem async_write_log_step (bound : Nat) (s t : Logger α) (stores : s.Stores bound) (ok : s.asyncWriteLog = .ok t) :
    t.Stores bound ∧ Step bound s .flush t := by
  cases held : s.flusher with
  | some record =>
      rw [Logger.asyncWriteLog, held] at ok
      cases ok
      exact ⟨stores, .flushed record held⟩
  | none =>
      rw [Logger.asyncWriteLog, held] at ok
      cases stored : s.queue.items with
      | nil =>
          rw [Logger.Stores, stored] at stores
          rw [BlockQueue.pop_empty s.queue bound stores] at ok
          cases ok
          refine ⟨stores_of s bound [] stores, .waiting ?_⟩
          rw [Logger.inFlight, held, stored]
          rfl
      | cons record rest =>
          rw [Logger.Stores, stored] at stores
          obtain ⟨queue, popped, now⟩ := BlockQueue.pop_stored s.queue bound rest record stores
          rw [popped] at ok
          cases ok
          refine ⟨stores_of _ bound rest now, .popped record queue held ?_⟩
          rw [stored, BlockQueue.stores_items queue bound rest now]

theorem log_step (bound : Nat) (s t : Logger α) (label : LogLabel α) (stores : s.Stores bound)
    (taken : Takes (logMachine α) s label t) : t.Stores bound ∧ Step bound s label t := by
  obtain ⟨offered, ok⟩ := taken
  cases label with
  | begin thread text =>
      cases here : s.writers[thread]? with
      | none => simp [logMachine, Logger.offers, here] at offered
      | some writer =>
          obtain ⟨calls, phase⟩ := writer
          cases phase with
          | idle =>
              simp only [logMachine, Logger.effect, here] at ok
              cases ok
              exact ⟨stores, .begin thread calls text here⟩
          | _ => simp [logMachine, Logger.offers, here] at offered
  | advance thread =>
      cases here : s.writers[thread]? with
      | none => simp [logMachine, Logger.offers, here] at offered
      | some writer =>
          have busy : writer.phase ≠ .idle := by
            intro idle
            obtain ⟨calls, phase⟩ := writer
            cases idle
            simp [logMachine, Logger.offers, here] at offered
          simp only [logMachine, Logger.effect, here] at ok
          exact write_log_step bound s t thread writer stores here busy ok
  | flush => exact async_write_log_step bound s t stores ok

end Runs

end WzyServer.Log
