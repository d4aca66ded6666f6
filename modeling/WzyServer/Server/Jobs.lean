import WzyServer.Base.Threads
import WzyServer.Server.Sockets

set_option autoImplicit false

namespace WzyServer.Server

open Run Threads

-- Where a worker is between two requests and in process(). The connection whose data
-- process_read parsed goes with the rest of the call.
inductive Phase where
  | idle
  | taken (slot : Fd)
  | parsed (conn : Conn) (outcome : Finish)
  | removed (conn : Conn)
  | marked (conn : Conn)
deriving DecidableEq

namespace Phase

def slots : Phase → List Fd
  | .idle => []
  | .taken slot => [slot]
  | .parsed conn _ => [conn.fd]
  | .removed conn => [conn.fd]
  | .marked conn => [conn.fd]

def isTaken : Phase → Bool
  | .taken _ => true
  | _ => false

def conn : Phase → Option Conn
  | .idle | .taken _ => none
  | .parsed conn _ | .removed conn | .marked conn => some conn

theorem taken_of (phase : Phase) (isTaken : phase.isTaken = true) : ∃ slot, phase = .taken slot := by
  cases phase with
  | taken slot => exact ⟨slot, rfl⟩
  | idle | parsed conn outcome | removed conn | marked conn => cases isTaken

def untouched : Phase → List Fd
  | .taken slot => [slot]
  | .parsed conn _ => [conn.fd]
  | _ => []

-- The slot of a request on its way from close_conn's removefd to the end.
def leaving : Phase → List Fd
  | .removed conn => [conn.fd]
  | .marked conn => [conn.fd]
  | _ => []

end Phase

-- The server with its workers one by one; the jobs of the server are the queue.
structure Pooled where
  server : State
  workers : List Phase

inductive Move where
  | main (label : Label)
  | accept (connfd : Fd) (cur : Int)
  | take (worker : Nat)
  | parse (worker : Nat) (outcome : Finish)
  | proceed (worker : Nat)

namespace State

def occupant (s : State) (slot : Fd) : Conn := ⟨slot, s.accepts slot⟩

-- `m_sockfd = -1` and `m_user_count--`.
def mark (s : State) (slot : Fd) : State := { s with sockfd := set s.sockfd slot none, userCount := s.userCount - 1 }

-- What process() does next behind process_read and process_write, and where it is
-- then. close_conn tests m_sockfd before it calls removefd.
def proceed (s : State) : Phase → State × Phase
  | .parsed conn .moreInput => (s.modfd (s.sockfd conn.fd) .input, .idle)
  | .parsed conn .response => (s.modfd (s.sockfd conn.fd) .output, .idle)
  | .parsed conn .closed => match s.sockfd conn.fd with
      | none => (s, .marked conn)
      | some fd => (s.removefd fd, .removed conn)
  | .removed conn => (s.mark conn.fd, .marked conn)
  | .marked conn => (s.modfd (s.sockfd conn.fd) .output, .idle)
  | phase => (s, phase)

end State

namespace Pooled

def start (workers : Nat) : Pooled := ⟨.start, List.replicate workers .idle⟩

-- append_job compares the length of the queue with m_max_requests. An accept is a
-- step of its own, between which the workers may go on; the event is handled when
-- accept fails.
def offers (maxRequests : Nat) (s : Pooled) : Move → Prop
  | .main (.wait batch) => s.server.offers (.wait batch) ∧ ∀ event ∈ batch, event.heard = true
  | .main (.handle answers) => s.server.offers (.handle answers) ∧ answers.accepted = [] ∧
      answers.queued = !decide (maxRequests < s.server.jobs.length)
  | .main (.tick cur) => s.server.offers (.tick cur)
  | .main (.finish _ _) => False
  | .accept connfd _ => s.server.pending.head? = some .listen ∧ s.server.timeout = false ∧ connfd ∉ s.server.opened
  | .take worker => s.workers[worker]? = some .idle ∧ s.server.jobs ≠ []
  | .parse worker _ => s.workers[worker]?.any Phase.isTaken = true
  | .proceed worker => s.workers[worker]?.any (fun phase => phase.conn.isSome) = true

def effect (s : Pooled) : Move → Except Fault Pooled
  | .main label => do return { s with server := ← s.server.effect label }
  | .accept connfd cur => do return { s with server := ← s.server.acceptClients [(connfd, cur)] }
  | .take worker => match s.server.jobs with
      | [] => .ok s
      | slot :: rest => .ok ⟨{ s.server with jobs := rest }, s.workers.set worker (.taken slot)⟩
  | .parse worker outcome => match s.workers[worker]? with
      | some (.taken slot) => .ok { s with workers := s.workers.set worker (.parsed (s.server.occupant slot) outcome) }
      | _ => .ok s
  | .proceed worker => match s.workers[worker]? with
      | some phase =>
          let (server, phase) := s.server.proceed phase
          .ok ⟨server, s.workers.set worker phase⟩
      | none => .ok s

def outstanding (s : Pooled) : List Fd := s.server.jobs ++ s.workers.flatMap Phase.slots

end Pooled

def pooledMachine (maxRequests : Nat) : Machine Pooled Move Fault where
  guard := Pooled.offers maxRequests
  effect := Pooled.effect

theorem socket_mark (s : State) (slot other : Fd) : (s.mark slot).socket other =
    if other = slot then { s.socket other with sockfd := none } else s.socket other := by
  by_cases same : other = slot
  · subst same
    rw [if_pos rfl]
    exact congrArg (fun fd => ({ s.socket other with sockfd := fd } : Socket)) (set_here _ _ _)
  · rw [if_neg same]
    exact congrArg (fun fd => ({ s.socket other with sockfd := fd } : Socket)) (set_elsewhere _ _ _ _ same)

section WellFormedness

theorem well_formed_removefd (s : State) (wf : WellFormed s) (fd : Fd) : WellFormed (s.removefd fd) := by
  apply well_formed_shrinks s _ wf
  exact ⟨.refl _, rfl, rfl, fun _ _ => id, Finset.erase_subset _ _, removed_armed s wf fd, fun _ _ _ member _ => member⟩

theorem well_formed_mark (s : State) (wf : WellFormed s) (slot : Fd) : WellFormed (s.mark slot) := by
  apply well_formed_shrinks s _ wf
  refine ⟨.refl _, rfl, rfl, ?_, Finset.Subset.refl _, wf.armed, fun _ _ _ member _ => member⟩
  intro other held holds
  by_cases same : other = slot
  · simp [State.mark, same] at holds
  · simpa only [State.mark, set_elsewhere _ _ _ _ same] using holds

theorem well_formed_proceed (s : State) (wf : WellFormed s) (phase : Phase) : WellFormed (s.proceed phase).1 := by
  cases phase with
  | idle => exact wf
  | taken slot => exact wf
  | parsed conn outcome =>
      cases outcome with
      | moreInput => exact well_formed_modfd s wf _ _
      | response => exact well_formed_modfd s wf _ _
      | closed =>
          unfold State.proceed
          dsimp only
          split
          · exact wf
          · exact well_formed_removefd s wf _
  | removed conn => exact well_formed_mark s wf conn.fd
  | marked conn => exact well_formed_modfd s wf _ _

theorem accept_one (s t : State) (connfd : Fd) (cur : Int) (ok : s.acceptClients [(connfd, cur)] = .ok t) :
    (t = s ∧ (maxFd : Int) ≤ s.userCount) ∨ (t = s.initClient connfd cur ∧ s.userCount < (maxFd : Int)) := by
  unfold State.acceptClients at ok
  split at ok
  · rename_i full
    cases ok
    exact .inl ⟨rfl, full⟩
  · rename_i room
    split at ok
    · cases ok
    · cases ok
      exact .inr ⟨rfl, Int.not_le.mp room⟩

inductive Moved (s : Pooled) : Move → Pooled → Prop where
  | main (label : Label) (server : State) (effect : s.server.effect label = .ok server) :
      Moved s (.main label) ⟨server, s.workers⟩
  | busy (connfd : Fd) (cur : Int) : Moved s (.accept connfd cur) s
  | accept (connfd : Fd) (cur : Int) (room : s.server.userCount < (maxFd : Int)) :
      Moved s (.accept connfd cur) ⟨s.server.initClient connfd cur, s.workers⟩
  | take (worker : Nat) (slot : Fd) (rest : List Fd) (idle : s.workers[worker]? = some .idle) (jobs : s.server.jobs = slot :: rest) :
      Moved s (.take worker) ⟨{ s.server with jobs := rest }, s.workers.set worker (.taken slot)⟩
  | parse (worker : Nat) (slot : Fd) (outcome : Finish) (here : s.workers[worker]? = some (.taken slot)) :
      Moved s (.parse worker outcome) ⟨s.server, s.workers.set worker (.parsed (s.server.occupant slot) outcome)⟩
  | proceed (worker : Nat) (phase : Phase) (conn : Conn) (here : s.workers[worker]? = some phase) (known : phase.conn = some conn) :
      Moved s (.proceed worker) ⟨(s.server.proceed phase).1, s.workers.set worker (s.server.proceed phase).2⟩

theorem moved_of_takes (maxRequests : Nat) (s t : Pooled) (move : Move) (taken : Takes (pooledMachine maxRequests) s move t) :
    Moved s move t := by
  obtain ⟨offered, effect⟩ := taken
  change s.effect move = .ok t at effect
  cases move with
  | main label =>
      cases stepped : s.server.effect label with
      | error fault =>
          rw [Pooled.effect, stepped] at effect
          cases effect
      | ok server =>
          rw [Pooled.effect, stepped] at effect
          cases effect
          exact .main label server stepped
  | accept connfd cur =>
      cases stepped : s.server.acceptClients [(connfd, cur)] with
      | error fault =>
          rw [Pooled.effect, stepped] at effect
          cases effect
      | ok server =>
          rw [Pooled.effect, stepped] at effect
          cases effect
          rcases accept_one s.server server connfd cur stepped with ⟨rfl, _⟩ | ⟨rfl, room⟩
          · exact .busy connfd cur
          · exact .accept connfd cur room
  | take worker =>
      obtain ⟨idle, some⟩ := offered
      cases jobs : s.server.jobs with
      | nil => exact absurd jobs some
      | cons slot rest =>
          simp only [Pooled.effect, jobs] at effect
          cases effect
          exact .take worker slot rest idle jobs
  | parse worker outcome =>
      obtain ⟨phase, here, isTaken⟩ := (Option.any_eq_true _ _).mp offered
      obtain ⟨slot, rfl⟩ := phase.taken_of isTaken
      simp only [Pooled.effect, here] at effect
      cases effect
      exact .parse worker slot outcome here
  | proceed worker =>
      obtain ⟨phase, here, known⟩ := (Option.any_eq_true _ _).mp offered
      obtain ⟨conn, known⟩ := Option.isSome_iff_exists.mp known
      simp only [Pooled.effect, here] at effect
      cases effect
      exact .proceed worker phase conn here known

theorem main_offered (maxRequests : Nat) (s : Pooled) (label : Label) (offered : s.offers maxRequests (.main label)) :
    s.server.offers label := by
  cases label with
  | wait batch => exact offered.1
  | handle answers => exact offered.1
  | tick cur => exact offered
  | finish slot outcome => exact offered.elim

inductive MainStep (maxRequests : Nat) (s : Pooled) (server : State) : Label → Prop where
  | wait (batch : List Event) (empty : s.server.pending = []) (keys : (batch.map Event.key).Nodup)
      (reported : ∀ event ∈ batch, s.server.reports event = true) (heard : ∀ event ∈ batch, event.heard = true)
      (sockets : ∀ fd, server.socket fd = if fd ∈ clientFds batch then (s.server.socket fd).disarmed else s.server.socket fd)
      (jobs : server.jobs = s.server.jobs) (pending : server.pending = batch) : MainStep maxRequests s server (.wait batch)
  | handle (answers : Answers) (event : Event) (rest : List Event) (pending : s.server.pending = event :: rest)
      (after : server.pending = rest) (room : answers.queued = !decide (maxRequests < s.server.jobs.length))
      (handled : Handled s.server server answers event) : MainStep maxRequests s server (.handle answers)
  | tick (cur : Int) (sockets : ∀ fd, server.socket fd = s.server.socket fd ∨
        (server.socket fd = (s.server.socket fd).closed ∧ ∃ timer ∈ expired cur s.server.timers, timer.userData = fd))
      (jobs : server.jobs = s.server.jobs) (pending : server.pending = s.server.pending) : MainStep maxRequests s server (.tick cur)

theorem main_step (maxRequests : Nat) (s : Pooled) (wf : WellFormed s.server) (label : Label) (server : State)
    (offered : s.offers maxRequests (.main label)) (effect : s.server.effect label = .ok server) :
    MainStep maxRequests s server label := by
  cases label with
  | wait batch =>
      obtain ⟨⟨empty, _, _, keys, reported⟩, heard⟩ := offered
      cases effect
      exact .wait batch empty keys reported heard (socket_disarm batch s.server) (disarm_jobs batch s.server) rfl
  | handle answers =>
      obtain ⟨event, rest, pending, ok⟩ := handle_effect s.server server answers ⟨main_offered maxRequests s _ offered, effect⟩
      have wfHere : WellFormed (s.server.withPending rest) := well_formed_loop s.server wf _ rest _ _
      have handled := handled_of_pending s.server server rest answers event
        (handled_event _ server wfHere event answers offered.2.1 ok)
      exact .handle answers event rest pending (handle_pending _ server event answers ok) offered.2.2 handled
  | tick cur =>
      cases effect
      exact .tick cur (fun fd => socket_tick cur fd s.server.timers s.server wf rfl) (tick_jobs cur s.server.timers s.server)
        (tick_timers cur s.server.timers s.server rfl).2.2
  | finish slot outcome => exact offered.elim

theorem well_formed_moved (maxRequests : Nat) (s t : Pooled) (move : Move) (wf : WellFormed s.server)
    (taken : Takes (pooledMachine maxRequests) s move t) : WellFormed t.server := by
  cases moved_of_takes maxRequests s t move taken with
  | main label server effect =>
      exact well_formed_step s.server server label wf ⟨main_offered maxRequests s label taken.1, effect⟩
  | busy connfd cur => exact wf
  | accept connfd cur room => exact well_formed_init s.server wf connfd cur
  | take worker slot rest idle jobs => exact well_formed_loop s.server wf rest _ _ _
  | parse worker slot outcome here => exact wf
  | proceed worker phase conn here known => exact well_formed_proceed s.server wf phase

end WellFormedness

section Uninterrupted

instance (maxRequests : Nat) (s : Pooled) (move : Move) : Decidable ((pooledMachine maxRequests).guard s move) :=
  match move with
  | .main (.wait batch) => inferInstanceAs (Decidable (machine.guard s.server (.wait batch) ∧
      ∀ event ∈ batch, event.heard = true))
  | .main (.handle answers) => inferInstanceAs (Decidable (machine.guard s.server (.handle answers) ∧ answers.accepted = [] ∧
      answers.queued = !decide (maxRequests < s.server.jobs.length)))
  | .main (.tick cur) => inferInstanceAs (Decidable (machine.guard s.server (.tick cur)))
  | .main (.finish _ _) => inferInstanceAs (Decidable False)
  | .accept connfd _ => inferInstanceAs (Decidable (s.server.pending.head? = some .listen ∧ s.server.timeout = false ∧
      connfd ∉ s.server.opened))
  | .take worker => inferInstanceAs (Decidable (s.workers[worker]? = some .idle ∧ s.server.jobs ≠ []))
  | .parse worker _ => inferInstanceAs (Decidable (s.workers[worker]?.any Phase.isTaken = true))
  | .proceed worker => inferInstanceAs (Decidable (s.workers[worker]?.any (fun phase => phase.conn.isSome) = true))

theorem replay_proceed (maxRequests : Nat) (s : Pooled) (worker : Nat) (phase : Phase) (rest : List Move)
    (here : s.workers[worker]? = some phase) (known : phase.conn.isSome = true) :
    replay (pooledMachine maxRequests) s (.proceed worker :: rest) = replay (pooledMachine maxRequests)
      ⟨(s.server.proceed phase).1, s.workers.set worker (s.server.proceed phase).2⟩ rest := by
  apply replay_cons
  · exact (Option.any_eq_true _ _).mpr ⟨phase, here, known⟩
  · change s.effect (.proceed worker) = _
    simp only [Pooled.effect, here]

theorem set_back (workers : List Phase) (worker : Nat) (phase : Phase) (here : workers[worker]? = some phase) :
    workers.set worker phase = workers := by
  obtain ⟨inside, rfl⟩ := List.getElem?_eq_some_iff.mp here
  exact List.set_getElem_self inside

theorem process_end (maxRequests : Nat) (s : State) (workers : List Phase) (worker : Nat) (conn : Conn) (outcome : Finish)
    (here : workers[worker]? = some (.parsed conn outcome)) :
    ∃ moves, replay (pooledMachine maxRequests) ⟨s.takeJob conn.fd, workers⟩ moves =
      some ⟨s.finish conn.fd outcome, workers.set worker .idle⟩ := by
  have inside : worker < workers.length := (List.getElem?_eq_some_iff.mp here).1
  have behind : ∀ phase : Phase, (workers.set worker phase)[worker]? = some phase := fun phase => List.getElem?_set_self inside
  cases outcome with
  | moreInput =>
      refine ⟨[.proceed worker], ?_⟩
      rw [replay_proceed maxRequests _ worker _ _ here rfl, replay]
      rfl
  | response =>
      refine ⟨[.proceed worker], ?_⟩
      rw [replay_proceed maxRequests _ worker _ _ here rfl, replay]
      rfl
  | closed =>
      cases held : (s.takeJob conn.fd).sockfd conn.fd with
      | none =>
          refine ⟨[.proceed worker, .proceed worker], ?_⟩
          have first : (s.takeJob conn.fd).proceed (.parsed conn .closed) = (s.takeJob conn.fd, .marked conn) := by
            simp only [State.proceed, held]
          rw [replay_proceed maxRequests _ worker _ _ here rfl, first]
          rw [replay_proceed maxRequests _ worker (.marked conn) _ (behind _) rfl, replay, List.set_set]
          simp only [State.proceed, State.finish, State.closeConn, held]
          rfl
      | some fd =>
          refine ⟨[.proceed worker, .proceed worker, .proceed worker], ?_⟩
          have first : (s.takeJob conn.fd).proceed (.parsed conn .closed) = ((s.takeJob conn.fd).removefd fd, .removed conn) := by
            simp only [State.proceed, held]
          have gone : (((s.takeJob conn.fd).removefd fd).mark conn.fd).sockfd conn.fd = none := set_here _ _ _
          rw [replay_proceed maxRequests _ worker _ _ here rfl, first]
          rw [replay_proceed maxRequests _ worker (.removed conn) _ (behind _) rfl, List.set_set]
          rw [replay_proceed maxRequests _ worker (.marked conn) _ (behind _) rfl, replay, List.set_set]
          simp only [State.proceed, gone, State.modfd, State.finish, State.closeConn, held]
          rfl

-- A worker that takes the first job and runs process() with nothing in between does to
-- the server what `finish` does.
theorem finish_of_moves (maxRequests : Nat) (s : Pooled) (worker : Nat) (slot : Fd) (rest : List Fd) (outcome : Finish)
    (idle : s.workers[worker]? = some .idle) (jobs : s.server.jobs = slot :: rest) :
    ∃ moves, replay (pooledMachine maxRequests) s moves = some ⟨s.server.finish slot outcome, s.workers⟩ := by
  have inside : worker < s.workers.length := (List.getElem?_eq_some_iff.mp idle).1
  have behind : ∀ phase : Phase, (s.workers.set worker phase)[worker]? = some phase := fun phase =>
    List.getElem?_set_self inside
  have first : s.effect (.take worker) = .ok ⟨s.server.takeJob slot, s.workers.set worker (.taken slot)⟩ := by
    simp only [Pooled.effect, State.takeJob, jobs, List.erase_cons_head]
  have second : Pooled.effect ⟨s.server.takeJob slot, s.workers.set worker (.taken slot)⟩ (.parse worker outcome) =
      .ok ⟨s.server.takeJob slot, s.workers.set worker (.parsed (s.server.occupant slot) outcome)⟩ := by
    simp only [Pooled.effect, behind, List.set_set]
    rfl
  obtain ⟨moves, run⟩ := process_end maxRequests s.server _ worker (s.server.occupant slot) outcome (behind _)
  refine ⟨.take worker :: .parse worker outcome :: moves, ?_⟩
  have takes : s.offers maxRequests (.take worker) := ⟨idle, by simp [jobs]⟩
  have parses : Pooled.offers maxRequests ⟨s.server.takeJob slot, s.workers.set worker (.taken slot)⟩ (.parse worker outcome) :=
    (Option.any_eq_true _ _).mpr ⟨_, behind _, rfl⟩
  rw [replay_cons (pooledMachine maxRequests) s _ (.take worker) _ takes first]
  rw [replay_cons (pooledMachine maxRequests) _ _ (.parse worker outcome) _ parses second]
  rw [List.set_set, set_back s.workers worker .idle idle] at run
  exact run

end Uninterrupted

end WzyServer.Server
