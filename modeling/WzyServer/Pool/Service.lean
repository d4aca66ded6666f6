import WzyServer.Pool.ThreadPool
import WzyServer.Pool.Workers

set_option autoImplicit false

namespace WzyServer.Pool

open Run

-- threadpool::run on a connection_pool: `jobs` has the work queue and the workers
-- there, `staff` the connections and how far each worker is with its connectionRAII.
structure Service (α : Type) where
  jobs : ThreadPool α
  staff : Workforce
deriving DecidableEq, Repr

inductive ServiceLabel (α : Type) where
  | queue (job : PoolLabel α)
  | turn (worker : Nat)
deriving DecidableEq, Repr

def ServiceLabel.quiet {α : Type} : ServiceLabel α → Bool
  | .queue (.append _ _) => false
  | .queue (.wait _ interrupted) => !interrupted
  | _ => true

def Turn.processes : Turn → Bool
  | .connected _ => true
  | _ => false

def Turn.releasing : Turn → Bool
  | .finished _ => true
  | .pushed => true
  | _ => false

namespace Service

variable {α : Type}

def start (maxRequests callers workers : Nat) (pool : ConnectionPool) : Service α :=
  ⟨.start maxRequests callers workers, .start pool workers⟩

def turn (s : Service α) (worker : Nat) : Except PoolFault (Service α) :=
  match s.staff.workers[worker]? with
  | none => .ok s
  | some turn => do
      let staff ← s.staff.step worker turn
      return ⟨if turn.processes then s.jobs.process worker else s.jobs, staff⟩

def effect (s : Service α) : ServiceLabel α → Except PoolFault (Service α)
  | .queue job => .ok { s with jobs := s.jobs.step job }
  | .turn worker => s.turn worker

def free (s : Service α) : PoolLabel α → Bool
  | .wait worker _ => s.staff.workers[worker]? == some .outside
  | .process _ => false
  | _ => true

def offers (s : Service α) : ServiceLabel α → Bool
  | .queue job => s.jobs.offers job && s.free job
  | .turn worker => match s.staff.workers[worker]? with
      | none => false
      | some turn => (turn != .checked || decide (0 < s.staff.pool.reserve)) && (turn.releasing || s.jobs.offers (.process worker))

end Service

def serviceMachine (α : Type) : Machine (Service α) (ServiceLabel α) PoolFault where
  guard := fun s label => s.offers label = true
  effect := Service.effect

instance (α : Type) (s : Service α) (label : ServiceLabel α) : Decidable ((serviceMachine α).guard s label) :=
  inferInstanceAs (Decidable (s.offers label = true))

section Turns

inductive TurnMove (pool : ConnectionPool) : Turn → Turn → Prop where
  | refused : TurnMove pool .outside (.connected none)
  | checked (listed : pool.connList.length ≠ 0) : TurnMove pool .outside .checked
  | admitted : TurnMove pool .checked .admitted
  | connected (con : Handle) : TurnMove pool .admitted (.connected (some con))
  | processed (mysql : Option Handle) : TurnMove pool (.connected mysql) (.finished mysql)
  | dropped : TurnMove pool (.finished none) .outside
  | pushed (conn : Handle) : TurnMove pool (.finished (some conn)) .pushed
  | posted : TurnMove pool .pushed .outside

theorem turn_move (s t : Workforce) (worker : Nat) (turn : Turn) (ok : s.step worker turn = .ok t) :
    ∃ now, t.workers = s.workers.set worker now ∧ TurnMove s.pool turn now := by
  cases turn with
  | outside =>
      rw [Workforce.step] at ok
      by_cases empty : s.pool.connList.length = 0
      · rw [if_pos empty] at ok
        cases ok
        exact ⟨_, rfl, .refused⟩
      · rw [if_neg empty] at ok
        cases ok
        exact ⟨_, rfl, .checked empty⟩
  | checked =>
      cases ok
      exact ⟨_, rfl, .admitted⟩
  | admitted =>
      rw [Workforce.step] at ok
      obtain ⟨⟨con, pool⟩, _, ok⟩ := ok_of_bind _ _ _ ok
      cases ok
      exact ⟨_, rfl, .connected con⟩
  | connected mysql =>
      cases ok
      exact ⟨_, rfl, .processed mysql⟩
  | finished conRAII =>
      cases conRAII with
      | none =>
          cases ok
          exact ⟨_, rfl, .dropped⟩
      | some conn =>
          cases ok
          exact ⟨_, rfl, .pushed conn⟩
  | pushed =>
      cases ok
      exact ⟨_, rfl, .posted⟩

def Meets {α : Type} : Worker α → Turn → Prop
  | .waiting, turn => turn = .outside ∨ turn.releasing = true
  | .woken, turn => turn = .outside
  | .serving _, turn => turn.releasing = false

structure Together {α : Type} (phases : List (Worker α)) (turns : List Turn) : Prop where
  length : phases.length = turns.length
  meets : ∀ (worker : Nat) phase turn, phases[worker]? = some phase → turns[worker]? = some turn → Meets phase turn

variable {α : Type} (phases : List (Worker α)) (turns : List Turn) (worker : Nat)

theorem together_set (phase : Worker α) (turn : Turn) (together : Together phases turns) (meets : Meets phase turn) :
    Together (phases.set worker phase) (turns.set worker turn) := by
  refine ⟨?_, fun other before at_turn here there => ?_⟩
  · rw [List.length_set, List.length_set]
    exact together.length
  · by_cases same : worker = other
    · subst same
      rw [List.getElem?_set_self'] at here there
      obtain ⟨_, _, rfl⟩ := Option.map_eq_some_iff.mp here
      obtain ⟨_, _, rfl⟩ := Option.map_eq_some_iff.mp there
      exact meets
    · rw [List.getElem?_set_ne same] at here there
      exact together.meets other before at_turn here there

theorem together_turns (phase : Worker α) (together : Together phases turns) (here : phases[worker]? = some phase) :
    ∃ turn, turns[worker]? = some turn ∧ Meets phase turn := by
  have inside : worker < turns.length := by
    rw [← together.length]
    exact (List.getElem?_eq_some_iff.mp here).1
  have there := List.getElem?_eq_getElem inside
  exact ⟨turns[worker], there, together.meets worker phase _ here there⟩

theorem together_phases (turn : Turn) (together : Together phases turns) (here : turns[worker]? = some turn) :
    ∃ phase, phases[worker]? = some phase ∧ Meets phase turn := by
  have inside : worker < phases.length := by
    rw [together.length]
    exact (List.getElem?_eq_some_iff.mp here).1
  have there := List.getElem?_eq_getElem inside
  exact ⟨phases[worker], there, together.meets worker _ turn there here⟩

theorem together_phase (phase : Worker α) (turn : Turn) (together : Together phases turns) (here : turns[worker]? = some turn)
    (meets : Meets phase turn) : Together (phases.set worker phase) turns := by
  have moved := together_set phases turns worker phase turn together meets
  obtain ⟨inside, rfl⟩ := List.getElem?_eq_some_iff.mp here
  rwa [List.set_getElem_self] at moved

theorem together_turn (phase : Worker α) (turn : Turn) (together : Together phases turns) (here : phases[worker]? = some phase)
    (meets : Meets phase turn) : Together phases (turns.set worker turn) := by
  have moved := together_set phases turns worker phase turn together meets
  obtain ⟨inside, rfl⟩ := List.getElem?_eq_some_iff.mp here
  rwa [List.set_getElem_self] at moved

end Turns

section Steps

variable {α : Type}

inductive ServiceStep (s : Service α) : ServiceLabel α → Service α → Prop where
  | queue (job : PoolLabel α) (jobs : ThreadPool α) (step : PoolStep s.jobs job jobs) (free : s.free job = true) :
      ServiceStep s (.queue job) ⟨jobs, s.staff⟩
  | processed (worker : Nat) (request : α) (mysql : Option Handle) (serving : s.jobs.workers[worker]? = some (.serving request))
      (connected : s.staff.workers[worker]? = some (.connected mysql)) : ServiceStep s (.turn worker)
        ⟨{ s.jobs.sets worker .waiting with processed := s.jobs.processed ++ [(worker, request)] },
          s.staff.turns worker (.finished mysql)⟩
  | moved (worker : Nat) (turn : Turn) (staff : Workforce) (here : s.staff.workers[worker]? = some turn)
      (outside : turn.processes = false) (waits : turn = .checked → 0 < s.staff.pool.reserve)
      (inside : turn.releasing = true ∨ ∃ request, s.jobs.workers[worker]? = some (.serving request))
      (ok : s.staff.step worker turn = .ok staff) : ServiceStep s (.turn worker) ⟨s.jobs, staff⟩

theorem offers_process (jobs : ThreadPool α) (worker : Nat) :
    jobs.offers (.process worker) = true ↔ ∃ request, jobs.workers[worker]? = some (.serving request) := by
  rw [ThreadPool.offers]
  cases jobs.workers[worker]? with
  | none => simp
  | some phase => cases phase <;> simp

theorem offers_turn (s : Service α) (worker : Nat) : s.offers (.turn worker) = true ↔
    ∃ turn, s.staff.workers[worker]? = some turn ∧ (turn = .checked → 0 < s.staff.pool.reserve) ∧
      (turn.releasing = true ∨ ∃ request, s.jobs.workers[worker]? = some (.serving request)) := by
  rw [Service.offers]
  cases here : s.staff.workers[worker]? with
  | none => simp
  | some turn =>
      simp only [Bool.and_eq_true, Bool.or_eq_true, bne_iff_ne, decide_eq_true_eq, offers_process, Option.some.injEq, exists_eq_left',
        or_iff_not_imp_left, not_not, ne_eq]

theorem service_step (s t : Service α) (label : ServiceLabel α) (taken : Takes (serviceMachine α) s label t) :
    ServiceStep s label t := by
  obtain ⟨offered, ok⟩ := taken
  cases label with
  | queue job =>
      cases ok
      obtain ⟨allowed, free⟩ := Bool.and_eq_true_iff.mp offered
      exact .queue job _ (pool_step s.jobs _ job ⟨allowed, rfl⟩) free
  | turn worker =>
      obtain ⟨turn, here, waits, inside⟩ := (offers_turn s worker).mp offered
      change s.turn worker = .ok t at ok
      rw [Service.turn, here] at ok
      obtain ⟨staff, moved, ok⟩ := ok_of_bind _ _ _ ok
      cases ok
      by_cases processes : turn.processes = true
      · rw [if_pos processes]
        cases turn with
        | connected mysql =>
            obtain ⟨request, serving⟩ := inside.resolve_left Bool.false_ne_true
            cases moved
            rw [ThreadPool.process, serving]
            exact .processed worker request mysql serving here
        | _ => cases processes
      · rw [if_neg processes]
        exact .moved worker turn staff here (Bool.eq_false_iff.mpr processes) waits inside moved

end Steps

section Invariant

variable {α : Type}

structure Running (maxRequests workers count : Nat) (s : Service α) : Prop where
  queued : Queued maxRequests s.jobs
  handled : Handled s.jobs
  stranded : s.jobs.workqueue.length ≤
    s.jobs.queuestat + Threads.total Caller.posts s.jobs.callers + Threads.total Worker.pastWait s.jobs.workers
  size : s.jobs.workers.length = workers
  together : Together s.jobs.workers s.staff.workers
  conserved : Conserved count s.staff.connections
  listed : Turn.checked ∈ s.staff.workers → 0 < count

theorem pool_step_size (s t : ThreadPool α) (job : PoolLabel α) (step : PoolStep s job t) : t.workers.length = s.workers.length := by
  cases step with
  | woken worker interrupted waiting positive => exact List.length_set
  | foundEmpty worker woken empty => exact List.length_set
  | took worker request rest now woken front serves => exact List.length_set
  | processed worker request serving => exact List.length_set
  | _ => rfl

theorem queue_together (s : Service α) (job : PoolLabel α) (jobs : ThreadPool α) (step : PoolStep s.jobs job jobs)
    (free : s.free job = true) (together : Together s.jobs.workers s.staff.workers) : Together jobs.workers s.staff.workers := by
  cases step with
  | refused caller request full => exact together
  | accepted caller request idle room => exact together
  | posted caller posting => exact together
  | woken worker interrupted waiting positive =>
      exact together_phase _ _ worker .woken .outside together (beq_iff_eq.mp free) rfl
  | foundEmpty worker woken empty =>
      obtain ⟨turn, here, meets⟩ := together_turns _ _ worker .woken together woken
      exact together_phase _ _ worker .waiting turn together here (.inl meets)
  | took worker request rest now woken front serves =>
      obtain ⟨turn, here, meets⟩ := together_turns _ _ worker .woken together woken
      cases meets
      refine together_phase _ _ worker now .outside together here ?_
      cases now with
      | waiting => exact .inl rfl
      | woken => exact absurd serves.2 Nat.one_ne_zero
      | serving request => rfl
  | processed worker request serving => cases free

theorem move_meets (pool : ConnectionPool) (phase : Worker α) (turn now : Turn) (move : TurnMove pool turn now)
    (outside : turn.processes = false) (inside : turn.releasing = true ∨ ∃ request, phase = .serving request) (meets : Meets phase turn) :
    Meets phase now := by
  cases phase with
  | waiting =>
      have releasing : turn.releasing = true := inside.resolve_right fun ⟨_, other⟩ => by cases other
      cases move with
      | dropped => exact .inl rfl
      | pushed conn => exact .inr rfl
      | posted => exact .inl rfl
      | _ => cases releasing
  | woken =>
      cases meets
      rcases inside with releasing | ⟨_, other⟩
      · cases releasing
      · cases other
  | serving request =>
      cases move with
      | processed mysql => cases outside
      | dropped => cases meets
      | pushed conn => cases meets
      | posted => cases meets
      | _ => rfl

theorem workforce_conserved (count : Nat) (s t : Workforce) (worker : Nat) (turn : Turn) (conserved : Conserved count s.connections)
    (here : s.workers[worker]? = some turn) (waits : turn = .checked → 0 < s.pool.reserve) (ok : s.step worker turn = .ok t) :
    Conserved count t.connections := by
  rcases workforce_refines s t worker turn here waits ok with same | ⟨label, step⟩
  · rw [same]
    exact conserved
  · exact (conserved_step count s.connections label conserved step.1).2 _ step.2

theorem move_listed (count : Nat) (s t : Workforce) (worker : Nat) (turn : Turn) (conserved : Conserved count s.connections)
    (ok : s.step worker turn = .ok t) (listed : Turn.checked ∈ s.workers → 0 < count) (now_checked : Turn.checked ∈ t.workers) :
    0 < count := by
  obtain ⟨now, workers, move⟩ := turn_move s t worker turn ok
  rw [workers] at now_checked
  rcases List.mem_or_eq_of_mem_set now_checked with older | same
  · exact listed older
  · subst same
    cases move with
    | checked some_left =>
        have counted := handles_counted count s.connections conserved
        change s.pool.connList.length + _ = count at counted
        omega

theorem running_step (maxRequests workers count : Nat) (s t : Service α) (label : ServiceLabel α)
    (inv : Running maxRequests workers count s) (taken : Takes (serviceMachine α) s label t) : Running maxRequests workers count t := by
  obtain ⟨queued, handled, stranded, size, together, conserved, listed⟩ := inv
  cases service_step s t label taken with
  | queue job jobs step free =>
      exact ⟨queued_step maxRequests _ jobs job queued step, handled_step _ jobs job handled step, stranded_step _ jobs job step stranded,
        (pool_step_size _ jobs job step).trans size, queue_together s job jobs step free together, conserved, listed⟩
  | processed worker request mysql serving connected =>
      have step := PoolStep.processed worker request serving
      have ok : s.staff.step worker (.connected mysql) = .ok (s.staff.turns worker (.finished mysql)) := rfl
      exact ⟨queued_step maxRequests _ _ _ queued step, handled_step _ _ _ handled step, stranded_step _ _ _ step stranded,
        (pool_step_size _ _ _ step).trans size, together_set _ _ worker .waiting (.finished mysql) together (.inr rfl),
        workforce_conserved count _ _ worker _ conserved connected (fun other => by cases other) ok,
        move_listed count _ _ worker _ conserved ok listed⟩
  | moved worker turn staff here outside waits inside ok =>
      obtain ⟨now, workers, move⟩ := turn_move s.staff staff worker turn ok
      obtain ⟨phase, there, meets⟩ := together_phases _ _ worker turn together here
      refine ⟨queued, handled, stranded, size, ?_, workforce_conserved count _ _ worker turn conserved here waits ok,
        move_listed count _ _ worker turn conserved ok listed⟩
      rw [workers]
      refine together_turn _ _ worker phase now together there (move_meets s.staff.pool phase turn now move outside ?_ meets)
      exact inside.imp_right fun ⟨request, serving⟩ => ⟨request, Option.some.inj (there.symm.trans serving)⟩

theorem start_running (maxRequests callers workers : Nat) (maxConn : UInt32) (pool : ConnectionPool)
    (created : ConnectionPool.init maxConn = some pool) :
    Running maxRequests workers maxConn.toNat (Service.start (α := α) maxRequests callers workers pool) := by
  refine ⟨⟨rfl, .start, by simp [Service.start, ThreadPool.start]⟩, start_handled maxRequests callers workers, Nat.zero_le _,
    List.length_replicate, ⟨?_, fun worker phase turn here there => ?_⟩, ?_, fun member => ?_⟩
  · exact List.length_replicate.trans List.length_replicate.symm
  · rw [List.eq_of_mem_replicate (List.mem_of_getElem? here), List.eq_of_mem_replicate (List.mem_of_getElem? there)]
    exact .inl rfl
  · have conserved := init_conserved maxConn pool created workers
    rwa [Connections.start, show (⟨.outside, []⟩ : Thread) = Turn.outside.thread from rfl, ← List.map_replicate] at conserved
  · cases List.eq_of_mem_replicate member

theorem running_runs (maxRequests workers count : Nat) (s : Service α) (label : ServiceLabel α)
    (inv : Running maxRequests workers count s) (offered : (serviceMachine α).guard s label) :
    ∃ t, (serviceMachine α).effect s label = .ok t := by
  cases label with
  | queue job => exact ⟨_, rfl⟩
  | turn worker =>
      obtain ⟨turn, here, _, _⟩ := (offers_turn s worker).mp offered
      have runs : ∃ staff, s.staff.step worker turn = .ok staff := by
        cases turn with
        | admitted =>
            have thread : s.staff.connections.threads[worker]? = some ⟨.admitted, []⟩ := by
              rw [Workforce.connections, List.getElem?_map, here]
              rfl
            obtain ⟨con, rest, front⟩ := admitted_finds count s.staff.connections worker _ inv.conserved thread rfl
            exact ⟨_, by rw [Workforce.step, ConnectionPool.take, show s.staff.pool.connList = con :: rest from front]; rfl⟩
        | finished conRAII => cases conRAII <;> exact ⟨_, rfl⟩
        | _ => exact ⟨_, rfl⟩
      obtain ⟨staff, moved⟩ := runs
      refine ⟨⟨if turn.processes then s.jobs.process worker else s.jobs, staff⟩, ?_⟩
      change s.turn worker = _
      rw [Service.turn, here]
      dsimp only
      rw [moved]
      rfl

end Invariant

section Draining

variable {α : Type}

def Worker.left : Worker α → Nat
  | .waiting => 0
  | .woken => 1
  | .serving _ => 10

def Turn.left : Turn → Nat
  | .outside => 3
  | .checked => 2
  | .admitted => 1
  | .connected _ => 0
  | .finished _ => 5
  | .pushed => 4

def Service.left (s : Service α) : Nat :=
  12 * s.jobs.workqueue.length + 3 * Threads.total Caller.posts s.jobs.callers + 2 * s.jobs.queuestat +
    Threads.total Worker.left s.jobs.workers + Threads.total Turn.left s.staff.workers

theorem queue_left (s : Service α) (job : PoolLabel α) (jobs : ThreadPool α) (step : PoolStep s.jobs job jobs)
    (free : s.free job = true) (quiet : ServiceLabel.quiet (.queue job) = true) : Service.left ⟨jobs, s.staff⟩ < s.left := by
  unfold Service.left
  cases step with
  | refused caller request full => cases quiet
  | accepted caller request idle room => cases quiet
  | posted caller posting =>
      have posts := Threads.total_set Caller.posts s.jobs.callers caller .posting .idle posting
      simp only [Caller.posts] at posts
      simp only [ThreadPool.post]
      omega
  | woken worker interrupted waiting positive =>
      cases interrupted with
      | true => cases quiet
      | false =>
          have lefts := Threads.total_set Worker.left s.jobs.workers worker .waiting .woken waiting
          have decremented : 0 < s.jobs.queuestat := positive.resolve_left Bool.false_ne_true
          simp only [Worker.left] at lefts
          simp only [ThreadPool.wait, ThreadPool.sets, Bool.false_eq_true, if_false]
          omega
  | foundEmpty worker woken empty =>
      have lefts := Threads.total_set Worker.left s.jobs.workers worker .woken .waiting woken
      simp only [Worker.left] at lefts
      simp only [ThreadPool.sets]
      omega
  | took worker request rest now woken front serves =>
      have lefts := Threads.total_set Worker.left s.jobs.workers worker .woken now woken
      have atMost : now.left ≤ 10 := by cases now <;> simp [Worker.left]
      rw [show (Worker.woken : Worker α).left = 1 from rfl] at lefts
      simp only [ThreadPool.sets, front, List.length_cons]
      omega
  | processed worker request serving => cases free

theorem move_left (pool : ConnectionPool) (turn now : Turn) (move : TurnMove pool turn now) (outside : turn.processes = false) :
    now.left < turn.left := by
  cases move with
  | processed mysql => cases outside
  | connected con => exact Nat.zero_lt_one
  | pushed conn => exact Nat.lt_succ_self 4
  | _ => decide

theorem service_left (s t : Service α) (label : ServiceLabel α) (quiet : label.quiet = true)
    (taken : Takes (serviceMachine α) s label t) : t.left < s.left := by
  cases service_step s t label taken with
  | queue job jobs step free => exact queue_left s job jobs step free quiet
  | processed worker request mysql serving connected =>
      have workers := Threads.total_set Worker.left s.jobs.workers worker _ .waiting serving
      have turns := Threads.total_set Turn.left s.staff.workers worker _ (.finished mysql) connected
      simp only [Worker.left, Turn.left] at workers turns
      simp only [Service.left, ThreadPool.sets, Workforce.turns]
      omega
  | moved worker turn staff here outside waits inside ok =>
      obtain ⟨now, workers, move⟩ := turn_move s.staff staff worker turn ok
      have turns := Threads.total_set Turn.left s.staff.workers worker turn now here
      have less := move_left s.staff.pool turn now move outside
      simp only [Service.left, workers]
      omega

structure Drained (count : Nat) (s : Service α) : Prop where
  empty : s.jobs.workqueue = []
  processed : (s.jobs.processed.map Prod.snd).Perm s.jobs.accepted
  handles : s.staff.pool.connList.Perm (List.range count)
  reserve : s.staff.pool.reserve = count
  free : s.staff.pool.freeConn.toNat = count
  cur : s.staff.pool.curConn.toNat = 0

def Stuck (s : Service α) : Prop := ∀ label, label.quiet = true → ¬ (serviceMachine α).guard s label

theorem stuck_turn (s : Service α) (stuck : Stuck s) (worker : Nat) (turn : Turn) (here : s.staff.workers[worker]? = some turn)
    (waits : turn = .checked → 0 < s.staff.pool.reserve) :
    turn.releasing = false ∧ ∀ request, s.jobs.workers[worker]? ≠ some (.serving request) := by
  have closed : ¬ (turn.releasing = true ∨ ∃ request, s.jobs.workers[worker]? = some (.serving request)) :=
    fun inside => stuck (.turn worker) rfl ((offers_turn s worker).mpr ⟨turn, here, waits, inside⟩)
  exact ⟨Bool.eq_false_iff.mpr fun releasing => closed (.inl releasing), fun request serving => closed (.inr ⟨request, serving⟩)⟩

theorem stuck_share (maxRequests workers count : Nat) (s : Service α) (inv : Running maxRequests workers count s) (stuck : Stuck s)
    (turn : Turn) (member : turn ∈ s.staff.workers) : turn = .outside ∨ turn = .checked := by
  obtain ⟨worker, here⟩ := List.mem_iff_getElem?.mp member
  obtain ⟨phase, there, meets⟩ := together_phases _ _ worker turn inv.together here
  by_cases isChecked : turn = .checked
  · exact .inr isChecked
  · obtain ⟨still, idle⟩ := stuck_turn s stuck worker turn here fun same => absurd same isChecked
    cases phase with
    | waiting => exact .inl (meets.resolve_right (by rw [still]; decide))
    | woken => exact .inl meets
    | serving request => exact absurd there (idle request)

theorem stuck_reserve (maxRequests workers count : Nat) (s : Service α) (inv : Running maxRequests workers count s) (stuck : Stuck s) :
    s.staff.connections.held = [] ∧ s.staff.pool.reserve = count := by
  have nowhere := stuck_share maxRequests workers count s inv stuck
  have held : s.staff.connections.held = [] := by
    rw [Connections.held, Workforce.connections, List.flatMap_map]
    refine List.flatMap_eq_nil_iff.mpr fun turn member => ?_
    rcases nowhere turn member with rfl | rfl <;> rfl
  have admitted : s.staff.connections.admitted = 0 := by
    refine Threads.total_nothing _ _ (List.forall_mem_map.mpr fun turn member => ?_)
    rcases nowhere turn member with rfl | rfl <;> rfl
  have pushed : s.staff.connections.pushed = 0 := by
    refine Threads.total_nothing _ _ (List.forall_mem_map.mpr fun turn member => ?_)
    rcases nowhere turn member with rfl | rfl <;> rfl
  have admission := inv.conserved.admission
  have counted := handles_counted count s.staff.connections inv.conserved
  rw [held, List.length_nil] at counted
  exact ⟨held, by change s.staff.pool.reserve + _ + _ = _ at admission; omega⟩

theorem stuck_waiting (maxRequests workers count : Nat) (s : Service α) (inv : Running maxRequests workers count s) (stuck : Stuck s)
    (worker : Nat) (phase : Worker α) (here : s.jobs.workers[worker]? = some phase) :
    phase = .waiting ∧ s.staff.workers[worker]? = some .outside := by
  obtain ⟨turn, there, meets⟩ := together_turns _ _ worker phase inv.together here
  have member := List.mem_of_getElem? there
  have positive : turn = .checked → 0 < s.staff.pool.reserve := by
    rintro rfl
    rw [(stuck_reserve maxRequests workers count s inv stuck).2]
    exact inv.listed member
  obtain ⟨still, idle⟩ := stuck_turn s stuck worker turn there positive
  cases phase with
  | waiting =>
      refine ⟨rfl, ?_⟩
      rcases stuck_share maxRequests workers count s inv stuck turn member with rfl | rfl
      · exact there
      · rcases meets with other | other <;> cases other
  | woken =>
      refine absurd ?_ (stuck (.queue (.take worker)) rfl)
      change (s.jobs.offers (.take worker) && s.free (.take worker)) = true
      rw [ThreadPool.offers, here]
      rfl
  | serving request => exact absurd here (idle request)

theorem stuck_queue (maxRequests workers count : Nat) (s : Service α) (inv : Running maxRequests workers count s) (stuck : Stuck s)
    (some_worker : 0 < workers) : s.jobs.workqueue = [] := by
  have waiting := stuck_waiting maxRequests workers count s inv stuck
  have posts : Threads.total Caller.posts s.jobs.callers = 0 := by
    refine Threads.total_nothing _ _ fun caller member => ?_
    cases caller with
    | idle => rfl
    | posting =>
        obtain ⟨index, here⟩ := List.mem_iff_getElem?.mp member
        refine absurd ?_ (stuck (.queue (.post index)) rfl)
        change (s.jobs.offers (.post index) && s.free (.post index)) = true
        rw [ThreadPool.offers, here]
        rfl
  have pasts : Threads.total Worker.pastWait s.jobs.workers = 0 := by
    refine Threads.total_nothing _ _ fun phase member => ?_
    obtain ⟨index, here⟩ := List.mem_iff_getElem?.mp member
    rw [(waiting index phase here).1]
    rfl
  have none_posted : s.jobs.queuestat = 0 := by
    by_contra posted
    have inside : 0 < s.jobs.workers.length := by
      rw [inv.size]
      exact some_worker
    obtain ⟨isWaiting, outside⟩ := waiting 0 _ (List.getElem?_eq_getElem inside)
    refine stuck (.queue (.wait 0 false)) rfl ?_
    change (s.jobs.offers (.wait 0 false) && s.free (.wait 0 false)) = true
    rw [ThreadPool.offers, Service.free, List.getElem?_eq_getElem inside, isWaiting, outside]
    simpa using Nat.pos_of_ne_zero posted
  have stranded := inv.stranded
  exact List.eq_nil_of_length_eq_zero (by omega)

theorem stuck_drained (maxRequests workers count : Nat) (s : Service α) (inv : Running maxRequests workers count s) (stuck : Stuck s)
    (some_worker : 0 < workers) : Drained count s := by
  have empty := stuck_queue maxRequests workers count s inv stuck some_worker
  obtain ⟨held, reserve⟩ := stuck_reserve maxRequests workers count s inv stuck
  have handles := inv.conserved.handles
  rw [held, List.append_nil] at handles
  refine ⟨empty, ?_, handles, reserve, ?_, ?_⟩
  · have once := inv.handled.once
    have idle : s.jobs.workers.flatMap Worker.request = [] := by
      refine List.flatMap_eq_nil_iff.mpr fun phase member => ?_
      obtain ⟨index, here⟩ := List.mem_iff_getElem?.mp member
      rw [(stuck_waiting maxRequests workers count s inv stuck index phase here).1]
      rfl
    rw [idle, List.append_nil] at once
    have conserves := Fifo.trace_conserves _ _ _ inv.queued.trace
    rw [← Fifo.delivered_eq_removed s.jobs.history inv.queued.uncleared, empty, List.append_nil] at conserves
    rwa [ThreadPool.accepted, conserves]
  · exact inv.conserved.free.trans (handles.length_eq.trans List.length_range)
  · exact inv.conserved.cur.trans (congrArg List.length held)

def Service.Drains (count : Nat) (s : Service α) : Prop :=
  (∀ label, (serviceMachine α).guard s label → ∃ t, (serviceMachine α).effect s label = .ok t) ∧
    ∀ labels t, (∀ label ∈ labels, label.quiet = true) → replay (serviceMachine α) s labels = some t →
      labels.length ≤ s.left ∧ (Stuck t → Drained count t)

theorem service_drains (maxRequests callers workers : Nat) (maxConn : UInt32) (pool : ConnectionPool)
    (created : ConnectionPool.init maxConn = some pool) (some_worker : 0 < workers) (labels : List (ServiceLabel α)) :
    Always (serviceMachine α) (Service.Drains maxConn.toNat) (.start maxRequests callers workers pool) labels := by
  have kept := running_step (α := α) maxRequests workers maxConn.toNat
  have step : ∀ (s : Service α) label t, Running maxRequests workers maxConn.toNat s → Takes (serviceMachine α) s label t →
      Running maxRequests workers maxConn.toNat t := fun s label t inv taken => kept s t label inv taken
  refine always_mono _ (Running maxRequests workers maxConn.toNat) _ (fun s inv => ⟨?_, fun more t quiet run => ⟨?_, fun stuck => ?_⟩⟩) _
    labels (always_invariant _ _ step _ labels (start_running maxRequests callers workers maxConn pool created))
  · exact fun label offered => running_runs maxRequests workers maxConn.toNat s label inv offered
  · have bound := replay_measured (serviceMachine α) (fun label => label.quiet = true) _ Service.left step
      (fun s label t _ isQuiet taken => service_left s t label isQuiet taken) s t more inv quiet run
    omega
  · have reached := always_replay _ _ s t more run (always_invariant _ _ step s more inv)
    exact stuck_drained maxRequests workers maxConn.toNat t reached stuck some_worker

theorem service_drains_one_connection : Always (serviceMachine Nat) (Service.Drains 1)
    (.start 2 1 2 ⟨1, 0, 1, [0], 1⟩)
    [.queue (.append 0 (some 10)), .queue (.post 0), .queue (.append 0 (some 20)), .queue (.post 0), .queue (.wait 0 false),
      .queue (.wait 1 false), .queue (.take 0), .queue (.take 1), .turn 0, .turn 1, .turn 0] :=
  service_drains 2 1 2 1 ⟨1, 0, 1, [0], 1⟩ (by decide) (by decide) _

end Draining

end WzyServer.Pool
