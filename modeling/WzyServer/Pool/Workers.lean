import WzyServer.Pool.Connections

set_option autoImplicit false

namespace WzyServer.Pool

open Run

-- A worker's turn in run() with a request in hand: the constructor of connectionRAII
-- (getConnection in its three steps), process() with request->mysql, the destructor
-- (releaseConnection of what the constructor got).
inductive Turn where
  | outside
  | checked
  | admitted
  | connected (mysql : Option Handle)
  | finished (conRAII : Option Handle)
  | pushed
deriving DecidableEq, Repr

structure Workforce where
  pool : ConnectionPool
  workers : List Turn
deriving DecidableEq, Repr

namespace Workforce

def start (pool : ConnectionPool) (threadNumber : Nat) : Workforce := ⟨pool, List.replicate threadNumber .outside⟩

def turns (s : Workforce) (worker : Nat) (now : Turn) : Workforce := { s with workers := s.workers.set worker now }

def step (s : Workforce) (worker : Nat) : Turn → Except PoolFault Workforce
  | .outside => .ok (s.turns worker (if s.pool.connList.length = 0 then .connected none else .checked))
  | .checked => .ok { s.turns worker .admitted with pool := s.pool.wait }
  | .admitted => do
      let (con, pool) ← s.pool.take
      return { s.turns worker (.connected (some con)) with pool := pool }
  | .connected mysql => .ok (s.turns worker (.finished mysql))
  | .finished none => .ok (s.turns worker .outside)
  | .finished (some conn) => .ok { s.turns worker .pushed with pool := s.pool.give conn }
  | .pushed => .ok { s.turns worker .outside with pool := s.pool.post }

end Workforce

-- A worker takes its next step, unless it waits for the semaphore.
def workforceMachine : Machine Workforce Nat PoolFault where
  guard := fun s worker => ∃ turn, s.workers[worker]? = some turn ∧ (turn = .checked → 0 < s.pool.reserve)
  effect := fun s worker => match s.workers[worker]? with
    | some turn => s.step worker turn
    | none => .ok s

def Turn.thread : Turn → Thread
  | .outside => ⟨.outside, []⟩
  | .checked => ⟨.checked, []⟩
  | .admitted => ⟨.admitted, []⟩
  | .connected mysql => ⟨.outside, mysql.toList⟩
  | .finished conRAII => ⟨.outside, conRAII.toList⟩
  | .pushed => ⟨.pushed, []⟩

def Workforce.connections (s : Workforce) : Connections := ⟨s.pool, s.workers.map Turn.thread⟩

def Turn.share (turn : Turn) : Nat := turn.thread.holding.length + turn.thread.place.isAdmitted + turn.thread.place.isPushed

theorem share_le_one (turn : Turn) : turn.share ≤ 1 := by
  cases turn with
  | connected mysql => cases mysql <;> simp [Turn.share, Turn.thread, Place.isAdmitted, Place.isPushed]
  | finished conRAII => cases conRAII <;> simp [Turn.share, Turn.thread, Place.isAdmitted, Place.isPushed]
  | _ => decide

theorem connections_turns (s : Workforce) (worker : Nat) (now : Turn) (pool : ConnectionPool) :
    Workforce.connections { s.turns worker now with pool := pool } =
      { s.connections.sets worker now.thread with pool := pool } := by
  simp only [Workforce.connections, Workforce.turns, Connections.sets, List.map_set]

theorem connections_same (s : Workforce) (worker : Nat) (before now : Turn) (here : s.workers[worker]? = some before)
    (same : now.thread = before.thread) : (s.turns worker now).connections = s.connections := by
  obtain ⟨inside, found⟩ := List.getElem?_eq_some_iff.mp here
  have bound : worker < (s.workers.map Turn.thread).length := by rwa [List.length_map]
  have mapped : (s.workers.map Turn.thread)[worker] = before.thread := by
    rw [List.getElem_map, found]
  simp only [Workforce.connections, Workforce.turns, List.map_set, same]
  rw [← mapped, List.set_getElem_self]

theorem workforce_share (s : Workforce) :
    Threads.total Turn.share s.workers = s.connections.held.length + s.connections.admitted + s.connections.pushed := by
  have split : Threads.total Turn.share s.workers = Threads.total (fun turn => turn.thread.holding.length) s.workers +
      Threads.total (fun turn => turn.thread.place.isAdmitted) s.workers +
      Threads.total (fun turn => turn.thread.place.isPushed) s.workers := by
    rw [← Threads.total_add, ← Threads.total_add]
    rfl
  rw [split]
  simp only [Connections.held, Connections.admitted, Connections.pushed, Workforce.connections, List.length_flatMap,
    Threads.total, List.map_map, Function.comp_def]

theorem workforce_refines (s t : Workforce) (worker : Nat) (turn : Turn) (here : s.workers[worker]? = some turn)
    (waits : turn = .checked → 0 < s.pool.reserve) (ok : s.step worker turn = .ok t) :
    t.connections = s.connections ∨ ∃ label, Takes connMachine s.connections label t.connections := by
  have found : s.connections.threads[worker]? = some turn.thread := by
    rw [Workforce.connections, List.getElem?_map, here]
    rfl
  have takes : ∀ label, label.thread = worker → s.connections.allows turn.thread label →
      s.connections.step turn.thread label = .ok t.connections → Takes connMachine s.connections label t.connections := by
    intro label same allowed effect
    subst same
    refine ⟨⟨turn.thread, found, allowed⟩, ?_⟩
    simp only [connMachine, found]
    exact effect
  cases turn with
  | outside =>
      rw [Workforce.step] at ok
      by_cases empty : s.pool.connList.length = 0
      · rw [if_pos empty] at ok
        cases ok
        exact .inl (connections_same s worker .outside _ here rfl)
      · rw [if_neg empty] at ok
        cases ok
        refine .inr ⟨.check worker, takes (.check worker) rfl rfl ?_⟩
        rw [Connections.step, Workforce.connections, if_neg empty]
        exact congrArg Except.ok (connections_turns s worker .checked s.pool).symm
  | checked =>
      cases ok
      refine .inr ⟨.wait worker, takes (.wait worker) rfl ⟨rfl, waits rfl⟩ ?_⟩
      rw [connections_turns]
      rfl
  | admitted =>
      refine .inr ⟨.pop worker, takes (.pop worker) rfl rfl ?_⟩
      cases front : s.pool.connList with
      | nil =>
          rw [Workforce.step, ConnectionPool.take, front] at ok
          cases ok
      | cons con rest =>
          rw [Workforce.step, ConnectionPool.take, front] at ok
          cases ok
          rw [Connections.step, ConnectionPool.take, Workforce.connections, front, connections_turns]
          rfl
  | connected mysql =>
      cases ok
      exact .inl (connections_same s worker _ _ here rfl)
  | finished conRAII =>
      cases conRAII with
      | none =>
          cases ok
          exact .inl (connections_same s worker _ _ here rfl)
      | some conn =>
          cases ok
          refine .inr ⟨.push worker (some conn), takes (.push worker (some conn)) rfl ⟨rfl, ?_⟩ ?_⟩
          · intro handle same
            cases same
            exact List.mem_singleton_self conn
          · rw [connections_turns, Connections.step]
            simp only [Turn.thread, Option.toList_some, List.erase_cons_head]
            rfl
  | pushed =>
      cases ok
      refine .inr ⟨.post worker, takes (.post worker) rfl rfl ?_⟩
      rw [connections_turns]
      rfl

structure Staffed (threadNumber count : Nat) (s : Workforce) : Prop where
  staff : s.workers.length = threadNumber
  enough : threadNumber ≤ count
  conserved : Conserved count s.connections
  handles : ∀ turn ∈ s.workers, turn ≠ .connected none ∧ turn ≠ .finished none

-- A worker that has nothing from the pool leaves a handle in the list, and a value
-- of the semaphore, over all that the others can have.
theorem pool_left (threadNumber count : Nat) (s : Workforce) (inv : Staffed threadNumber count s) (worker : Nat) (turn : Turn)
    (here : s.workers[worker]? = some turn) (nothing : turn.share = 0) : 0 < s.pool.reserve ∧ s.pool.connList.length ≠ 0 := by
  have shared := Threads.total_lt Turn.share share_le_one s.workers worker turn here nothing
  rw [workforce_share, inv.staff] at shared
  have counted := handles_counted count s.connections inv.conserved
  have admission := inv.conserved.admission
  have enough := inv.enough
  simp only [Workforce.connections] at counted admission shared
  constructor <;> omega

theorem turn_moves (threadNumber count : Nat) (s t : Workforce) (worker : Nat) (turn : Turn) (inv : Staffed threadNumber count s)
    (here : s.workers[worker]? = some turn) (ok : s.step worker turn = .ok t) :
    ∃ now, t.workers = s.workers.set worker now ∧ now ≠ .connected none ∧ now ≠ .finished none := by
  have mine := inv.handles turn (List.mem_of_getElem? here)
  cases turn with
  | outside =>
      rw [Workforce.step, if_neg (pool_left threadNumber count s inv worker .outside here rfl).2] at ok
      cases ok
      exact ⟨.checked, rfl, by decide⟩
  | checked =>
      cases ok
      exact ⟨.admitted, rfl, by decide⟩
  | admitted =>
      rw [Workforce.step, ConnectionPool.take] at ok
      cases front : s.pool.connList with
      | nil =>
          rw [front] at ok
          cases ok
      | cons con rest =>
          rw [front] at ok
          cases ok
          exact ⟨.connected (some con), rfl, by simp⟩
  | connected mysql =>
      cases ok
      refine ⟨.finished mysql, rfl, by simp, ?_⟩
      intro null
      cases null
      exact mine.1 rfl
  | finished conRAII =>
      cases conRAII with
      | none => exact absurd rfl mine.2
      | some conn =>
          cases ok
          exact ⟨.pushed, rfl, by decide⟩
  | pushed =>
      cases ok
      exact ⟨.outside, rfl, by decide⟩

theorem staffed_step (threadNumber count : Nat) (s t : Workforce) (worker : Nat) (inv : Staffed threadNumber count s)
    (taken : Takes workforceMachine s worker t) : Staffed threadNumber count t := by
  obtain ⟨⟨turn, here, waits⟩, ok⟩ := taken
  simp only [workforceMachine, here] at ok
  have conserved : Conserved count t.connections := by
    rcases workforce_refines s t worker turn here waits ok with same | ⟨label, step⟩
    · rw [same]
      exact inv.conserved
    · exact (conserved_step count s.connections label inv.conserved step.1).2 _ step.2
  obtain ⟨now, workers, connected, finished⟩ := turn_moves threadNumber count s t worker turn inv here ok
  refine ⟨by rw [workers, List.length_set]; exact inv.staff, inv.enough, conserved, ?_⟩
  intro other member
  rw [workers] at member
  rcases List.mem_or_eq_of_mem_set member with older | same
  · exact inv.handles other older
  · rw [same]
    exact ⟨connected, finished⟩

theorem staffed_runs (threadNumber count : Nat) (s : Workforce) (worker : Nat) (inv : Staffed threadNumber count s)
    (offered : workforceMachine.guard s worker) : ∃ t, workforceMachine.effect s worker = .ok t := by
  obtain ⟨turn, here, _⟩ := offered
  simp only [workforceMachine, here]
  cases turn with
  | admitted =>
      have thread : s.connections.threads[worker]? = some ⟨.admitted, []⟩ := by
        rw [Workforce.connections, List.getElem?_map, here]
        rfl
      obtain ⟨con, rest, front⟩ := admitted_finds count s.connections worker _ inv.conserved thread rfl
      refine ⟨_, by rw [Workforce.step, ConnectionPool.take, show s.pool.connList = con :: rest from front]; rfl⟩
  | finished conRAII => cases conRAII <;> exact ⟨_, rfl⟩
  | _ => exact ⟨_, rfl⟩

def Workforce.Holds (s : Workforce) (worker : Nat) (con : Handle) : Prop :=
  ∃ turn, s.workers[worker]? = some turn ∧ con ∈ turn.thread.holding

structure Served (s : Workforce) : Prop where
  check : ∀ worker : Nat, s.workers[worker]? = some Turn.outside → s.pool.connList.length ≠ 0
  wait : ∀ worker : Nat, s.workers[worker]? = some Turn.checked → 0 < s.pool.reserve
  handle : ∀ (worker : Nat) mysql, s.workers[worker]? = some (Turn.connected mysql) → mysql ≠ none
  own : ∀ i j con, s.Holds i con → s.Holds j con → i = j

theorem staffed_served (threadNumber count : Nat) (s : Workforce) (inv : Staffed threadNumber count s) : Served s := by
  refine ⟨?_, ?_, ?_, ?_⟩
  · intro worker here
    exact (pool_left threadNumber count s inv worker .outside here rfl).2
  · intro worker here
    exact (pool_left threadNumber count s inv worker .checked here rfl).1
  · rintro worker mysql here rfl
    exact (inv.handles _ (List.mem_of_getElem? here)).1 rfl
  · rintro i j con ⟨first, hereI, memberI⟩ ⟨second, hereJ, memberJ⟩
    have distinct := (List.nodup_append.mp (inv.conserved.handles.nodup_iff.mpr List.nodup_range)).2.1
    rw [Connections.held, Workforce.connections, List.flatMap_map] at distinct
    exact Threads.owner_eq (fun turn : Turn => turn.thread.holding) s.workers distinct i j first second con hereI hereJ memberI memberJ

theorem start_staffed (maxConn : UInt32) (pool : ConnectionPool) (created : ConnectionPool.init maxConn = some pool)
    (threadNumber : Nat) (enough : threadNumber ≤ maxConn.toNat) :
    Staffed threadNumber maxConn.toNat (.start pool threadNumber) := by
  refine ⟨List.length_replicate, enough, ?_, ?_⟩
  · have conserved := init_conserved maxConn pool created threadNumber
    rwa [Connections.start, show (⟨.outside, []⟩ : Thread) = Turn.outside.thread from rfl, ← List.map_replicate] at conserved
  · intro turn member
    rw [List.eq_of_mem_replicate member]
    decide

end WzyServer.Pool
