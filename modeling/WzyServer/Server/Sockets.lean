import WzyServer.Server.Batch

set_option autoImplicit false

namespace WzyServer.Server

structure Socket where
  isOpen : Bool
  interest : Option Interest
  sockfd : Option Fd
  accepts : Nat

namespace Socket

def rearmed (socket : Socket) (interest : Interest) : Socket :=
  if socket.isOpen then { socket with interest := some interest } else socket

def disarmed (socket : Socket) : Socket := { socket with interest := none }

def closed (socket : Socket) : Socket := { socket with isOpen := false, interest := none }

@[simp] theorem rearmed_is_open (socket : Socket) (interest : Interest) :
    (socket.rearmed interest).isOpen = socket.isOpen := by
  unfold rearmed
  split <;> rfl

@[simp] theorem rearmed_sockfd (socket : Socket) (interest : Interest) :
    (socket.rearmed interest).sockfd = socket.sockfd := by
  unfold rearmed
  split <;> rfl

theorem rearmed_interest (socket : Socket) (interest : Interest) (isOpen : socket.isOpen = true) :
    (socket.rearmed interest).interest = some interest := by
  rw [rearmed, if_pos isOpen]

end Socket

def Event.fd : Event → Option Fd
  | .client ready => some ready.fd
  | _ => none

-- epoll reports no entry without a bit.
def Event.heard : Event → Bool
  | .client ready => ready.hangup || ready.input || ready.output
  | _ => true

def clientFds (events : List Event) : List Fd := events.filterMap Event.fd

theorem mem_client_fds (events : List Event) (fd : Fd) :
    fd ∈ clientFds events ↔ ∃ ready, .client ready ∈ events ∧ ready.fd = fd := by
  unfold clientFds
  rw [List.mem_filterMap]
  constructor
  · rintro ⟨event, member, found⟩
    cases event with
    | client ready => exact ⟨ready, member, Option.some.inj found⟩
    | listen => cases found
    | signals => cases found
  · rintro ⟨ready, member, same⟩
    exact ⟨.client ready, member, congrArg some same⟩

def State.socket (s : State) (fd : Fd) : Socket := ⟨decide (fd ∈ s.opened), s.interest fd, s.sockfd fd, s.accepts fd⟩

section Frames

theorem socket_open_iff (s : State) (fd : Fd) : (s.socket fd).isOpen = true ↔ fd ∈ s.opened := decide_eq_true_iff

theorem socket_modfd (s : State) (fd : Option Fd) (interest : Interest) (other : Fd) :
    (s.modfd fd interest).socket other = if fd = some other then (s.socket other).rearmed interest else s.socket other := by
  cases fd with
  | none => rfl
  | some fd =>
      simp only [State.modfd, Option.some.injEq]
      by_cases same : fd = other
      · subst same
        by_cases isOpen : fd ∈ s.opened
        · simp [State.socket, Socket.rearmed, isOpen]
        · simp [State.socket, Socket.rearmed, isOpen]
      · rw [if_neg same]
        split
        · simp [State.socket, set_elsewhere _ _ _ _ (Ne.symm same)]
        · rfl

theorem modfd_jobs (s : State) (fd : Option Fd) (interest : Interest) : (s.modfd fd interest).jobs = s.jobs := by
  unfold State.modfd
  split
  · rfl
  · split <;> rfl

theorem socket_removefd (s : State) (fd other : Fd) :
    (s.removefd fd).socket other = if other = fd then (s.socket other).closed else s.socket other := by
  by_cases same : other = fd
  · subst same
    simp [State.removefd, State.socket, Socket.closed]
  · simp [State.removefd, State.socket, set_elsewhere _ _ _ _ same, same]

theorem socket_cb_func (s : State) (userData other : Fd) : (s.cbFunc userData).socket other =
    if other = (s.usersTimer userData).sockfd then (s.socket other).closed else s.socket other :=
  socket_removefd s _ other

theorem socket_init (s : State) (connfd : Fd) (cur : Int) (other : Fd) : (s.initClient connfd cur).socket other =
    if other = connfd then ⟨true, some .input, some connfd, s.accepts connfd + 1⟩ else s.socket other := by
  by_cases same : other = connfd
  · subst same
    simp [State.initClient, State.socket]
  · simp [State.initClient, State.socket, set_elsewhere _ _ _ _ same, same]

theorem socket_disarm (batch : List Event) (s : State) (fd : Fd) : (s.disarm batch).socket fd =
    if fd ∈ clientFds batch then (s.socket fd).disarmed else s.socket fd := by
  induction batch generalizing s with
  | nil => rfl
  | cons event rest ih =>
      cases event with
      | listen => exact ih s
      | signals => exact ih s
      | client ready =>
          rw [State.disarm, ih]
          by_cases same : fd = ready.fd
          · subst same
            simp [State.socket, Socket.disarmed, clientFds, Event.fd]
          · simp [State.socket, clientFds, Event.fd, set_elsewhere _ _ _ _ same, same]

theorem disarm_jobs (batch : List Event) (s : State) : (s.disarm batch).jobs = s.jobs := by
  induction batch generalizing s with
  | nil => rfl
  | cons event rest ih => cases event <;> exact ih _

theorem socket_extend (s t : State) (fd : Fd) (cur : Int) (ok : s.extendTimer fd cur = .ok t) :
    (∀ other, t.socket other = s.socket other) ∧ t.jobs = s.jobs := by
  rcases extend_timer_ok s t fd cur ok with rfl | ⟨id, rfl⟩
  · exact ⟨fun _ => rfl, rfl⟩
  · exact ⟨fun _ => rfl, rfl⟩

theorem socket_drop (s t : State) (wf : WellFormed s) (fd other : Fd) (ok : s.dropClient fd = .ok t) :
    t.socket other = (if other = fd then (s.socket other).closed else s.socket other) ∧ t.jobs = s.jobs := by
  obtain ⟨link, _, pointer, rfl⟩ := drop_client_ok s t fd ok
  refine ⟨?_, rfl⟩
  have closed := socket_cb_func s fd other
  rw [wf.sockfd fd link.id pointer] at closed
  exact closed

theorem tick_jobs (cur : Int) (timers : TimerList) (s : State) : (State.tickFrom cur timers s).jobs = s.jobs := by
  induction timers generalizing s with
  | nil => rfl
  | cons timer rest ih =>
      unfold State.tickFrom
      split
      · rfl
      · exact ih _

theorem socket_tick (cur : Int) (fd : Fd) (timers : TimerList) (s : State) (wf : WellFormed s) (whole : s.timers = timers) :
    (State.tickFrom cur timers s).socket fd = s.socket fd ∨ ((State.tickFrom cur timers s).socket fd = (s.socket fd).closed ∧
      ∃ timer ∈ expired cur timers, timer.userData = fd) := by
  induction timers generalizing s with
  | nil => exact .inl rfl
  | cons timer rest ih =>
      unfold State.tickFrom expired
      by_cases early : cur < timer.expire
      · rw [if_pos early]
        exact .inl rfl
      · rw [if_neg early, List.takeWhile_cons_of_pos (by simpa using early)]
        have wfNext := well_formed_shrinks s _ wf (shrinks_expire s wf timer rest whole)
        have owned : (s.usersTimer timer.userData).sockfd = timer.userData :=
          (wf.userData timer.link (by rw [whole]; exact List.mem_cons_self ..)).2
        have head : (s.expireHead timer rest).socket fd = _ := socket_cb_func s timer.userData fd
        rw [owned] at head
        by_cases same : fd = timer.userData
        · rw [if_pos same] at head
          refine .inr ⟨?_, timer, List.mem_cons_self .., same.symm⟩
          rcases ih _ wfNext rfl with kept | ⟨closed, _⟩
          · rw [kept, head]
          · rw [closed, head]
            rfl
        · rw [if_neg same] at head
          rcases ih _ wfNext rfl with kept | ⟨closed, found, member, points⟩
          · exact .inl (kept.trans head)
          · exact .inr ⟨closed.trans (by rw [head]), found, List.mem_cons_of_mem _ member, points⟩

end Frames

section Inversion

def Appends (ready : Ready) (answers : Answers) : Prop := ready.hangup = false ∧ ready.input = true ∧ answers.read = true

inductive Handled (s t : State) (answers : Answers) : Event → Prop where
  | quiet (event : Event) (same : ∀ fd, t.socket fd = s.socket fd) (jobs : t.jobs = s.jobs)
      (silent : ∀ fd, event.fd = some fd → event.heard = false) : Handled s t answers event
  | dropped (ready : Ready) (closed : ∀ fd, t.socket fd = if fd = ready.fd then (s.socket fd).closed else s.socket fd)
      (jobs : t.jobs = s.jobs) : Handled s t answers (.client ready)
  | queued (ready : Ready) (same : ∀ fd, t.socket fd = s.socket fd) (jobs : t.jobs = s.jobs ++ [ready.fd]) :
      Handled s t answers (.client ready)
  | refused (ready : Ready) (appends : Appends ready answers) (full : answers.queued = false)
      (same : ∀ fd, t.socket fd = s.socket fd) (jobs : t.jobs = s.jobs) : Handled s t answers (.client ready)
  | armed (ready : Ready) (interest : Interest) (jobs : t.jobs = s.jobs)
      (same : ∀ fd, t.socket fd = if s.sockfd ready.fd = some fd then (s.socket fd).rearmed interest else s.socket fd) :
      Handled s t answers (.client ready)

theorem handled_dropped (s t : State) (wf : WellFormed s) (ready : Ready) (answers : Answers)
    (ok : s.dropClient ready.fd = .ok t) : Handled s t answers (.client ready) :=
  .dropped ready (fun fd => (socket_drop s t wf ready.fd fd ok).1) (socket_drop s t wf ready.fd ready.fd ok).2

theorem handled_client (s t : State) (wf : WellFormed s) (ready : Ready) (answers : Answers)
    (ok : s.handleClient ready answers = .ok t) : Handled s t answers (.client ready) := by
  unfold State.handleClient at ok
  by_cases hangup : ready.hangup = true
  · rw [if_pos hangup] at ok
    exact handled_dropped s t wf ready answers ok
  rw [if_neg hangup] at ok
  by_cases input : ready.input = true
  · rw [if_pos input] at ok
    by_cases read : answers.read = true
    · rw [if_pos read] at ok
      obtain ⟨same, jobs⟩ := socket_extend _ t ready.fd answers.cur ok
      cases room : answers.queued with
      | true =>
          rw [State.appendJob, if_pos room] at same jobs
          exact .queued ready same jobs
      | false =>
          rw [State.appendJob, if_neg (by simp [room])] at same jobs
          exact .refused ready ⟨by simpa using hangup, input, read⟩ room same jobs
    · rw [if_neg read] at ok
      exact handled_dropped s t wf ready answers ok
  rw [if_neg input] at ok
  by_cases output : ready.output = true
  · rw [if_pos output] at ok
    cases written : answers.write with
    | none =>
        rw [written] at ok
        exact handled_dropped s t wf ready answers ok
    | some interest =>
        rw [written] at ok
        obtain ⟨same, jobs⟩ := socket_extend _ t ready.fd answers.cur ok
        exact .armed ready interest (jobs.trans (modfd_jobs s _ interest)) fun fd => (same fd).trans (socket_modfd s _ interest fd)
  · rw [if_neg output] at ok
    cases ok
    exact .quiet _ (fun _ => rfl) rfl fun _ _ => by simp [Event.heard, hangup, input, output]

theorem handled_event (s t : State) (wf : WellFormed s) (event : Event) (answers : Answers) (closed : answers.accepted = [])
    (ok : s.handle event answers = .ok t) : Handled s t answers event := by
  cases event with
  | listen =>
      rw [State.handle, closed] at ok
      cases ok
      exact .quiet .listen (fun _ => rfl) rfl fun _ isClient => by cases isClient
  | signals =>
      cases ok
      exact .quiet .signals (fun _ => rfl) rfl fun _ isClient => by cases isClient
  | client ready => exact handled_client s t wf ready answers ok

theorem handled_of_pending (s t : State) (events : List Event) (answers : Answers) (event : Event)
    (handled : Handled (s.withPending events) t answers event) : Handled s t answers event := by
  cases handled with
  | quiet event same jobs silent => exact .quiet event same jobs silent
  | dropped ready closed jobs => exact .dropped ready closed jobs
  | queued ready same jobs => exact .queued ready same jobs
  | refused ready appends full same jobs => exact .refused ready appends full same jobs
  | armed ready interest jobs same => exact .armed ready interest jobs same

end Inversion

end WzyServer.Server
