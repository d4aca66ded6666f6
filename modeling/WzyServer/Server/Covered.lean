import WzyServer.Server.Ownership

set_option autoImplicit false

namespace WzyServer.Server

open Run Threads

def Covered (s : Pooled) : Prop := ∀ fd ∈ s.server.opened, s.server.interest fd ≠ none ∨
  fd ∈ clientFds s.server.pending ∨ fd ∈ s.server.jobs ∨ fd ∈ s.workers.flatMap Phase.slots

-- append_job finds room, and accept does not return the descriptor of a worker between
-- removefd and `m_sockfd = -1`.
def Admits (maxRequests : Nat) (s : Pooled) : Move → Prop
  | .main (.handle answers) => ∀ ready rest, s.server.pending = .client ready :: rest → Appends ready answers →
      s.server.jobs.length ≤ maxRequests
  | .accept connfd _ => ∀ conn, .removed conn ∈ s.workers → conn.fd ≠ connfd
  | _ => True

def Tended (s : Pooled) (fd : Fd) : Prop := (s.server.socket fd).isOpen = true →
  (s.server.socket fd).sockfd = some fd ∧ ((s.server.socket fd).interest ≠ none ∨ fd ∈ s.untouched)

structure Attended (s : Pooled) : Prop where
  wf : WellFormed s.server
  heard : ∀ event ∈ s.server.pending, event.heard = true
  tended : ∀ fd, Tended s fd
  removed : ∀ conn, .removed conn ∈ s.workers → (s.server.socket conn.fd).isOpen = false

section Tending

theorem tended_same (s t : Pooled) (fd : Fd) (same : t.server.socket fd = s.server.socket fd)
    (kept : fd ∈ s.untouched → fd ∈ t.untouched) (tended : Tended s fd) : Tended t fd := by
  intro isOpen
  rw [same] at isOpen ⊢
  exact ⟨(tended isOpen).1, (tended isOpen).2.imp_right kept⟩

theorem tended_closed (s : Pooled) (fd : Fd) (closed : (s.server.socket fd).isOpen = false) : Tended s fd := by
  intro isOpen
  cases closed.symm.trans isOpen

theorem untouched_cases (s : Pooled) (fd : Fd) : fd ∈ s.untouched ↔
    fd ∈ clientFds s.server.pending ∨ fd ∈ s.server.jobs ∨ ∃ phase ∈ s.workers, fd ∈ phase.untouched := by
  rw [Pooled.untouched, List.mem_append, List.mem_append, List.mem_flatMap]

theorem tended_cover (s : Pooled) (tended : ∀ fd, Tended s fd) : Covered s := by
  intro fd isOpen
  rcases (tended fd ((socket_open_iff _ fd).mpr isOpen)).2 with armed | untouched
  · exact .inl armed
  rcases (untouched_cases s fd).mp untouched with atHand | queued | ⟨phase, inside, has⟩
  · exact .inr (.inl atHand)
  · exact .inr (.inr (.inl queued))
  · exact .inr (.inr (.inr (List.mem_flatMap.mpr ⟨phase, inside, (slots_mem phase fd).mpr (.inl has)⟩)))

end Tending

theorem handled_closed (s t : State) (answers : Answers) (event : Event) (handled : Handled s t answers event) (fd : Fd)
    (closed : (s.socket fd).isOpen = false) : (t.socket fd).isOpen = false := by
  cases handled with
  | quiet event same jobs silent => rwa [same]
  | queued ready same jobs => rwa [same]
  | refused ready appends full same jobs => rwa [same]
  | dropped ready dropped jobs =>
      rw [dropped]
      split
      · rfl
      · exact closed
  | armed ready interest jobs same =>
      rw [same]
      split
      · rwa [Socket.rearmed_is_open]
      · exact closed

section Steps

theorem attended_wait (s : Pooled) (attended : Attended s) (server : State) (batch : List Event) (empty : s.server.pending = [])
    (heard : ∀ event ∈ batch, event.heard = true) (wf : WellFormed server)
    (sockets : ∀ fd, server.socket fd = if fd ∈ clientFds batch then (s.server.socket fd).disarmed else s.server.socket fd)
    (jobs : server.jobs = s.server.jobs) (pending : server.pending = batch) : Attended ⟨server, s.workers⟩ := by
  have isOpen : ∀ fd, (server.socket fd).isOpen = (s.server.socket fd).isOpen := by
    intro fd
    rw [sockets]
    split <;> rfl
  refine ⟨wf, fun event member => heard event (pending ▸ member), ?_, fun conn member => (isOpen _).trans (attended.removed conn member)⟩
  intro fd
  by_cases reported : fd ∈ clientFds batch
  · intro stillOpen
    rw [isOpen] at stillOpen
    refine ⟨?_, .inr ((untouched_cases _ fd).mpr (.inl (by rw [pending]; exact reported)))⟩
    rw [sockets, if_pos reported]
    exact (attended.tended fd stillOpen).1
  · refine tended_same s _ fd ((sockets fd).trans (if_neg reported)) ?_ (attended.tended fd)
    intro untouched
    rcases (untouched_cases s fd).mp untouched with atHand | queued | running
    · rw [empty] at atHand
      cases atHand
    · exact (untouched_cases _ fd).mpr (.inr (.inl (by rw [jobs]; exact queued)))
    · exact (untouched_cases _ fd).mpr (.inr (.inr running))

theorem attended_handle (maxRequests : Nat) (s : Pooled) (attended : Attended s) (server : State) (event : Event) (rest : List Event)
    (answers : Answers) (pending : s.server.pending = event :: rest) (after : server.pending = rest) (wf : WellFormed server)
    (room : answers.queued = !decide (maxRequests < s.server.jobs.length)) (admits : Admits maxRequests s (.main (.handle answers)))
    (handled : Handled s.server server answers event) : Attended ⟨server, s.workers⟩ := by
  have heard : event.heard = true := attended.heard event (by rw [pending]; exact List.mem_cons_self ..)
  have heardRest : ∀ event ∈ server.pending, event.heard = true := by
    intro event member
    rw [after] at member
    exact attended.heard event (by rw [pending]; exact List.mem_cons_of_mem _ member)
  have kept : ∀ fd, event.fd ≠ some fd → (∀ job ∈ s.server.jobs, job ∈ server.jobs) → fd ∈ s.untouched →
      fd ∈ Pooled.untouched ⟨server, s.workers⟩ := by
    intro fd other more untouched
    refine (untouched_cases _ fd).mpr ?_
    rcases (untouched_cases s fd).mp untouched with atHand | queued | running
    · rw [pending] at atHand
      obtain ⟨ready, member, rfl⟩ := (mem_client_fds _ fd).mp atHand
      rcases List.mem_cons.mp member with rfl | later
      · exact absurd rfl other
      · exact .inl ((mem_client_fds _ _).mpr ⟨ready, by rw [after]; exact later, rfl⟩)
    · exact .inr (.inl (more fd queued))
    · exact .inr (.inr running)
  refine ⟨wf, heardRest, ?_, fun conn member => handled_closed _ _ answers event handled _ (attended.removed conn member)⟩
  intro fd
  have tended := attended.tended fd
  cases handled with
  | quiet event same jobs silent =>
      have unheard : event.fd ≠ some fd := fun isClient => absurd (silent fd isClient) (by simp [heard])
      exact tended_same s _ fd (same fd) (kept fd unheard fun job member => by rwa [jobs]) tended
  | dropped ready dropped jobs =>
      by_cases own : fd = ready.fd
      · exact tended_closed _ fd (by rw [dropped, if_pos own]; rfl)
      · have other : (Event.client ready).fd ≠ some fd := fun same => own (Option.some.inj same).symm
        exact tended_same s _ fd ((dropped fd).trans (if_neg own)) (kept fd other fun job member => by rwa [jobs]) tended
  | queued ready same jobs =>
      by_cases own : fd = ready.fd
      · refine tended_same s _ fd (same fd) (fun _ => ?_) tended
        exact (untouched_cases _ fd).mpr (.inr (.inl (by rw [jobs, own]; exact List.mem_append_right _ (List.mem_singleton_self _))))
      · have other : (Event.client ready).fd ≠ some fd := fun same => own (Option.some.inj same).symm
        exact tended_same s _ fd (same fd) (kept fd other fun job member => by rw [jobs]; exact List.mem_append_left _ member) tended
  | refused ready appends full same jobs =>
      have space := admits ready rest pending appends
      rw [full] at room
      have tooMany : maxRequests < s.server.jobs.length := by simpa using room.symm
      omega
  | armed ready interest jobs same =>
      by_cases own : fd = ready.fd
      · subst own
        intro isOpen
        have wasOpen : (s.server.socket ready.fd).isOpen = true := by
          rw [same] at isOpen
          split at isOpen
          · rwa [Socket.rearmed_is_open] at isOpen
          · exact isOpen
        have sockfd : s.server.sockfd ready.fd = some ready.fd := (tended wasOpen).1
        rw [same, if_pos sockfd, Socket.rearmed_sockfd, Socket.rearmed_interest _ _ wasOpen]
        exact ⟨sockfd, .inl (Option.some_ne_none _)⟩
      · have other : (Event.client ready).fd ≠ some fd := fun same => own (Option.some.inj same).symm
        by_cases points : s.server.sockfd ready.fd = some fd
        · exact absurd (attended.wf.slot ready.fd fd points) own
        · exact tended_same s _ fd ((same fd).trans (if_neg points)) (kept fd other fun job member => by rwa [jobs]) tended

theorem attended_tick (s : Pooled) (attended : Attended s) (server : State) (wf : WellFormed server)
    (sockets : ∀ fd, server.socket fd = s.server.socket fd ∨ server.socket fd = (s.server.socket fd).closed)
    (jobs : server.jobs = s.server.jobs) (pending : server.pending = s.server.pending) : Attended ⟨server, s.workers⟩ := by
  refine ⟨wf, fun event member => attended.heard event (pending ▸ member), ?_, ?_⟩
  · intro fd
    rcases sockets fd with kept | closed
    · refine tended_same s _ fd kept (fun untouched => ?_) (attended.tended fd)
      rwa [Pooled.untouched, pending, jobs]
    · exact tended_closed _ fd (by rw [closed]; rfl)
  · intro conn member
    rcases sockets conn.fd with kept | closed
    · exact (congrArg Socket.isOpen kept).trans (attended.removed conn member)
    · rw [closed]
      rfl

theorem attended_accept (s : Pooled) (attended : Attended s) (connfd : Fd) (cur : Int)
    (apart : ∀ conn, .removed conn ∈ s.workers → conn.fd ≠ connfd) (wf : WellFormed (s.server.initClient connfd cur)) :
    Attended ⟨s.server.initClient connfd cur, s.workers⟩ := by
  have sockets := socket_init s.server connfd cur
  refine ⟨wf, attended.heard, ?_, ?_⟩
  · intro fd
    by_cases new : fd = connfd
    · intro _
      rw [sockets, if_pos new]
      exact ⟨congrArg some new.symm, .inl (Option.some_ne_none _)⟩
    · exact tended_same s _ fd ((sockets fd).trans (if_neg new)) id (attended.tended fd)
  · intro conn member
    rw [sockets, if_neg (apart conn member)]
    exact attended.removed conn member

theorem attended_take (s : Pooled) (attended : Attended s) (worker : Nat) (slot : Fd) (rest : List Fd)
    (idle : s.workers[worker]? = some .idle) (jobs : s.server.jobs = slot :: rest)
    (wf : WellFormed { s.server with jobs := rest }) :
    Attended ⟨{ s.server with jobs := rest }, s.workers.set worker (.taken slot)⟩ := by
  have inside : worker < s.workers.length := (List.getElem?_eq_some_iff.mp idle).1
  have busy : .taken slot ∈ s.workers.set worker (.taken slot) := List.mem_of_getElem? (List.getElem?_set_self inside)
  refine ⟨wf, attended.heard, ?_, ?_⟩
  · intro fd
    refine tended_same s _ fd rfl (fun untouched => ?_) (attended.tended fd)
    refine (untouched_cases _ fd).mpr ?_
    rcases (untouched_cases s fd).mp untouched with atHand | queued | ⟨phase, member, has⟩
    · exact .inl atHand
    · rw [jobs] at queued
      rcases List.mem_cons.mp queued with rfl | later
      · exact .inr (.inr ⟨_, busy, List.mem_singleton_self fd⟩)
      · exact .inr (.inl later)
    · rcases mem_or_mem_set s.workers worker .idle (.taken slot) phase idle member with rfl | still
      · cases has
      · exact .inr (.inr ⟨phase, still, has⟩)
  · intro conn member
    rcases List.mem_or_eq_of_mem_set member with older | new
    · exact attended.removed conn older
    · cases new

theorem attended_turn (s : Pooled) (attended : Attended s) (server : State) (worker : Nat) (before after : Phase)
    (here : s.workers[worker]? = some before) (wf : WellFormed server) (pending : server.pending = s.server.pending)
    (jobs : server.jobs = s.server.jobs) (same : ∀ fd, fd ∉ before.slots → server.socket fd = s.server.socket fd)
    (shrinks : ∀ fd, (s.server.socket fd).isOpen = false → (server.socket fd).isOpen = false)
    (own : ∀ fd ∈ before.slots, Tended ⟨server, s.workers.set worker after⟩ fd)
    (removed : ∀ conn, after = .removed conn → (server.socket conn.fd).isOpen = false) :
    Attended ⟨server, s.workers.set worker after⟩ := by
  refine ⟨wf, fun event member => attended.heard event (pending ▸ member), ?_, ?_⟩
  · intro fd
    by_cases has : fd ∈ before.slots
    · exact own fd has
    · refine tended_same s _ fd (same fd has) (fun untouched => ?_) (attended.tended fd)
      refine (untouched_cases _ fd).mpr ?_
      rcases (untouched_cases s fd).mp untouched with atHand | queued | ⟨phase, member, touches⟩
      · exact .inl (by rw [pending]; exact atHand)
      · exact .inr (.inl (by rw [jobs]; exact queued))
      · rcases mem_or_mem_set s.workers worker before after phase here member with rfl | still
        · exact absurd ((slots_mem phase fd).mpr (.inl touches)) has
        · exact .inr (.inr ⟨phase, still, touches⟩)
  · intro conn member
    rcases List.mem_or_eq_of_mem_set member with older | new
    · exact shrinks conn.fd (attended.removed conn older)
    · exact removed conn new.symm

theorem attended_return (s : Pooled) (attended : Attended s) (worker : Nat) (phase : Phase) (slot : Fd) (interest : Interest)
    (here : s.workers[worker]? = some phase) (slots : phase.slots = [slot])
    (wf : WellFormed (s.server.modfd (s.server.sockfd slot) interest)) :
    Attended ⟨s.server.modfd (s.server.sockfd slot) interest, s.workers.set worker .idle⟩ := by
  have sockets := socket_modfd s.server (s.server.sockfd slot) interest
  have isOpen : ∀ fd, ((s.server.modfd (s.server.sockfd slot) interest).socket fd).isOpen = (s.server.socket fd).isOpen := by
    intro fd
    rw [sockets]
    split
    · exact Socket.rearmed_is_open _ _
    · rfl
  apply attended_turn s attended _ worker phase .idle here wf (modfd_same _ _ _).pending (modfd_jobs _ _ _)
  · intro fd elsewhere
    refine (sockets fd).trans (if_neg fun points => elsewhere ?_)
    rw [slots, List.mem_singleton]
    exact attended.wf.slot slot fd points
  · exact fun fd closed => (isOpen fd).trans closed
  · intro fd has
    rw [slots, List.mem_singleton] at has
    subst has
    intro stillOpen
    rw [isOpen] at stillOpen
    have sockfd : s.server.sockfd fd = some fd := (attended.tended fd stillOpen).1
    rw [sockets, if_pos sockfd, Socket.rearmed_sockfd, Socket.rearmed_interest _ _ stillOpen]
    exact ⟨sockfd, .inl (Option.some_ne_none _)⟩
  · intro conn absent
    cases absent

theorem attended_remove (s : Pooled) (attended : Attended s) (worker : Nat) (conn : Conn)
    (here : s.workers[worker]? = some (.parsed conn .closed)) (wf : WellFormed (s.server.removefd conn.fd)) :
    Attended ⟨s.server.removefd conn.fd, s.workers.set worker (.removed conn)⟩ := by
  have sockets := socket_removefd s.server conn.fd
  have closed : ((s.server.removefd conn.fd).socket conn.fd).isOpen = false := by
    rw [sockets, if_pos rfl]
    rfl
  apply attended_turn s attended _ worker _ (.removed conn) here wf rfl rfl
  · intro fd elsewhere
    exact (sockets fd).trans (if_neg fun same => elsewhere (List.mem_singleton.mpr same))
  · intro fd wasClosed
    rw [sockets]
    split
    · rfl
    · exact wasClosed
  · intro fd has
    rw [List.mem_singleton.mp has]
    exact tended_closed _ conn.fd closed
  · rintro other ⟨⟩
    exact closed

theorem attended_mark (s : Pooled) (attended : Attended s) (server : State) (worker : Nat) (before : Phase) (conn : Conn)
    (here : s.workers[worker]? = some before) (slots : before.slots = [conn.fd]) (wf : WellFormed server)
    (pending : server.pending = s.server.pending) (jobs : server.jobs = s.server.jobs) (same : ∀ fd, fd ≠ conn.fd → server.socket fd = s.server.socket fd)
    (still : (server.socket conn.fd).isOpen = false) : Attended ⟨server, s.workers.set worker (.marked conn)⟩ := by
  apply attended_turn s attended server worker before (.marked conn) here wf pending jobs
  · intro fd elsewhere
    exact same fd fun equal => elsewhere (by rw [slots, equal]; exact List.mem_singleton_self _)
  · intro fd wasClosed
    by_cases equal : fd = conn.fd
    · rw [equal]
      exact still
    · rw [same fd equal]
      exact wasClosed
  · intro fd has
    rw [slots, List.mem_singleton] at has
    rw [has]
    exact tended_closed _ conn.fd still
  · intro other absent
    cases absent

theorem attended_proceed (s : Pooled) (attended : Attended s) (worker : Nat) (phase : Phase) (conn : Conn)
    (here : s.workers[worker]? = some phase) (known : phase.conn = some conn) (wf : WellFormed (s.server.proceed phase).1) :
    Attended ⟨(s.server.proceed phase).1, s.workers.set worker (s.server.proceed phase).2⟩ := by
  cases phase with
  | idle => cases known
  | taken slot => cases known
  | parsed own outcome =>
      cases outcome with
      | moreInput => exact attended_return s attended worker _ own.fd .input here rfl wf
      | response => exact attended_return s attended worker _ own.fd .output here rfl wf
      | closed =>
          rcases slot_or_closed s.server attended.wf own.fd with gone | held
          · have closed : (s.server.socket own.fd).isOpen = false := by
              by_contra isOpen
              have held : s.server.sockfd own.fd = some own.fd := (attended.tended own.fd (Bool.not_eq_false _ ▸ isOpen)).1
              cases gone.symm.trans held
            have next : s.server.proceed (.parsed own .closed) = (s.server, .marked own) := by
              simp only [State.proceed, gone]
            rw [next]
            exact attended_mark s attended s.server worker _ own here rfl attended.wf rfl rfl (fun _ _ => rfl) closed
          · have next : s.server.proceed (.parsed own .closed) = (s.server.removefd own.fd, .removed own) := by
              simp only [State.proceed, held]
            rw [next] at wf ⊢
            exact attended_remove s attended worker own here wf
  | removed own =>
      have sockets := socket_mark s.server own.fd
      have closed := attended.removed own (List.mem_of_getElem? here)
      have still : ((s.server.mark own.fd).socket own.fd).isOpen = false := by
        rw [sockets, if_pos rfl]
        exact closed
      exact attended_mark s attended _ worker _ own here rfl wf rfl rfl
        (fun fd other => (sockets fd).trans (if_neg other)) still
  | marked own => exact attended_return s attended worker _ own.fd .output here rfl wf

theorem attended_parse (s : Pooled) (attended : Attended s) (worker : Nat) (slot : Fd) (outcome : Finish)
    (here : s.workers[worker]? = some (.taken slot)) :
    Attended ⟨s.server, s.workers.set worker (.parsed (s.server.occupant slot) outcome)⟩ := by
  have inside : worker < s.workers.length := (List.getElem?_eq_some_iff.mp here).1
  apply attended_turn s attended s.server worker _ _ here attended.wf rfl rfl (fun _ _ => rfl) (fun _ closed => closed)
  · intro fd has isOpen
    have running : .parsed (s.server.occupant slot) outcome ∈ s.workers.set worker (.parsed (s.server.occupant slot) outcome) :=
      List.mem_of_getElem? (List.getElem?_set_self inside)
    exact ⟨(attended.tended fd isOpen).1, .inr ((untouched_cases _ fd).mpr (.inr (.inr ⟨_, running, has⟩)))⟩
  · intro conn absent
    cases absent

theorem attended_main (maxRequests : Nat) (s : Pooled) (attended : Attended s) (label : Label) (server : State)
    (wf : WellFormed server) (admits : Admits maxRequests s (.main label)) (step : MainStep maxRequests s server label) :
    Attended ⟨server, s.workers⟩ := by
  cases step with
  | wait batch empty keys reported heard sockets jobs pending =>
      exact attended_wait s attended server batch empty heard wf sockets jobs pending
  | handle answers event rest pending after room handled =>
      exact attended_handle maxRequests s attended server event rest answers pending after wf room admits handled
  | tick cur sockets jobs pending =>
      exact attended_tick s attended server wf (fun fd => (sockets fd).imp_right And.left) jobs pending

theorem attended_moved (maxRequests : Nat) (s t : Pooled) (move : Move) (attended : Attended s)
    (admits : Admits maxRequests s move) (taken : Takes (pooledMachine maxRequests) s move t) : Attended t := by
  have wf := well_formed_moved maxRequests s t move attended.wf taken
  cases moved_of_takes maxRequests s t move taken with
  | main label server effect =>
      exact attended_main maxRequests s attended label server wf admits (main_step maxRequests s attended.wf label server taken.1 effect)
  | busy connfd cur => exact attended
  | accept connfd cur room => exact attended_accept s attended connfd cur admits wf
  | take worker slot rest idle jobs => exact attended_take s attended worker slot rest idle jobs wf
  | parse worker slot outcome here => exact attended_parse s attended worker slot outcome here
  | proceed worker phase conn here known => exact attended_proceed s attended worker phase conn here known wf

theorem start_attended (workers : Nat) : Attended (.start workers) := by
  refine ⟨start_well_formed, fun event member => absurd member List.not_mem_nil, ?_, ?_⟩
  · exact fun fd => tended_closed _ fd rfl
  · exact fun conn _ => rfl

end Steps

section Runs

theorem open_connections_covered (maxRequests workers : Nat) (moves : List Move)
    (admits : Along (pooledMachine maxRequests) (Admits maxRequests) (.start workers) moves) :
    Always (pooledMachine maxRequests) Covered (.start workers) moves := by
  have kept : ∀ s move t, Attended s → Admits maxRequests s move → Takes (pooledMachine maxRequests) s move t → Attended t :=
    fun s move t => attended_moved maxRequests s t move
  have always := always_of_along _ (Admits maxRequests) Attended kept _ moves (start_attended workers) admits
  exact always_mono _ Attended Covered (fun s attended => tended_cover s attended.tended) _ moves always

theorem open_connections_covered_answered : Always (pooledMachine 10000) Covered (.start 8) answered := by
  apply open_connections_covered
  refine along_cons _ _ _ _ _ _ (fun _ => trivial) rfl ?_
  refine along_cons _ _ _ _ _ _ (fun _ => ?_) rfl ?_
  · intro conn member
    exact absurd member (by simp [Pooled.start])
  refine along_cons _ _ _ _ _ _ (fun _ => ?_) rfl ?_
  · intro ready rest pending
    cases pending
  refine along_cons _ _ _ _ _ _ (fun _ => trivial) rfl ?_
  refine along_cons _ _ _ _ _ _ (fun _ => ?_) rfl ?_
  · intro ready rest pending appends
    exact Nat.zero_le _
  refine along_cons _ _ _ _ _ _ (fun _ => trivial) rfl ?_
  refine along_cons _ _ _ _ _ _ (fun _ => trivial) rfl ?_
  refine along_cons _ _ _ _ _ _ (fun _ => trivial) rfl ?_
  refine along_cons _ _ _ _ _ _ (fun _ => trivial) rfl ?_
  refine along_cons _ _ _ _ _ _ (fun _ => ?_) rfl ?_
  · intro ready rest pending
    cases pending
  exact along_cons _ _ _ _ _ _ (fun _ => trivial) rfl trivial

end Runs

section Crowd

structure Crowd (n : Nat) (s : Pooled) : Prop where
  pending : s.server.pending = []
  timeout : s.server.timeout = false
  running : s.server.stopServer = false
  count : s.server.userCount = n
  opened : ∀ fd ∈ s.server.opened, fd < n
  jobs : s.server.jobs.length = n
  queued : ∀ fd ∈ s.server.jobs, fd < n
  idle : ∀ phase ∈ s.workers, phase = .idle

theorem extend_some (s : State) (fd : Fd) (cur : Int) (id : Nat) (pointer : (s.usersTimer fd).timer = some id)
    (linked : id ∈ s.timers.map Timer.id) :
    s.extendTimer fd cur = .ok { s with timers := refreshTimer id (cur + 3 * timeslot) s.timers } := by
  have found : s.designated fd = .ok id := by simp only [State.designated, pointer, if_pos linked]
  unfold State.extendTimer
  rw [pointer]
  dsimp only
  rw [found]
  rfl

def joining (maxRequests n : Nat) : List Move :=
  [.main (.wait [.listen]), .accept n 0, .main (.handle { noAnswers with queued := !decide (maxRequests < n) }),
    .main (.wait [.client ⟨n, false, true, false⟩]),
    .main (.handle { noAnswers with read := true, queued := !decide (maxRequests < n) })]

def State.joined (s : State) (n : Nat) (room : Bool) : State :=
  let init := (s.withPending [.listen]).initClient n 0
  let silent : State := { init with interest := set init.interest n none, pending := [] }
  let queued := silent.appendJob n room
  { queued with timers := refreshTimer s.nextTimer (0 + 3 * timeslot) queued.timers }

theorem accept_room (s : State) (connfd : Fd) (cur : Int) (room : s.userCount < (maxFd : Int)) (small : connfd < maxFd) :
    s.acceptClients [(connfd, cur)] = .ok (s.initClient connfd cur) := by
  rw [State.acceptClients, if_neg (Int.not_le.mpr room), if_neg (Nat.not_le.mpr small)]
  rfl

theorem joining_request (s : State) (n : Nat) (room : Bool) (answers : Answers) (read : answers.read = true)
    (queued : answers.queued = room) (now : answers.cur = 0) :
    State.handleClient { (s.withPending [.listen]).initClient n 0 with
      interest := set ((s.withPending [.listen]).initClient n 0).interest n none, pending := [] }
      ⟨n, false, true, false⟩ answers = .ok (s.joined n room) := by
  rw [State.handleClient, if_neg Bool.false_ne_true, if_pos rfl, if_pos read, queued, now]
  have member : s.nextTimer ∈ ((s.withPending [.listen]).initClient n 0).timers.map Timer.id := by
    rw [← link_id_eq]
    exact List.mem_map_of_mem ((init_links _ n 0).mem_iff.mpr (List.mem_cons_self ..))
  have pointer : (((s.withPending [.listen]).initClient n 0).usersTimer n).timer = some s.nextTimer := by
    rw [init_users_timer, if_pos rfl]
    rfl
  cases room with
  | true => exact extend_some _ n 0 s.nextTimer pointer member
  | false => exact extend_some _ n 0 s.nextTimer pointer member

theorem joining_run (maxRequests n : Nat) (s : Pooled) (crowd : Crowd n s) (small : n < maxFd) :
    replay (pooledMachine maxRequests) s (joining maxRequests n) =
      some ⟨s.server.joined n (!decide (maxRequests < n)), s.workers⟩ := by
  obtain ⟨pending, timeout, running, count, opened, jobs, _, _⟩ := crowd
  let machine := pooledMachine maxRequests
  let listening : State := s.server.withPending [.listen]
  let connected : State := listening.initClient n 0
  let silent : State := { connected with interest := set connected.interest n none, pending := [] }
  have room : listening.userCount < (maxFd : Int) := by
    change s.server.userCount < _
    rw [count]
    exact_mod_cast small
  have accepted : listening.acceptClients [(n, 0)] = .ok connected := accept_room listening n 0 room small
  have unseen : n ∉ listening.opened := fun isOpen => absurd (opened n isOpen) (Nat.lt_irrefl n)
  have armed : (connected.withPending []).interest n = some .input := set_here _ _ _
  have length : connected.jobs.length = n := jobs
  have listens : s.offers maxRequests (.main (.wait [.listen])) :=
    ⟨⟨pending, timeout, running, List.nodup_singleton _, by simp [State.reports]⟩, by simp [Event.heard]⟩
  have accepts : Pooled.offers maxRequests ⟨listening, s.workers⟩ (.accept n 0) := ⟨rfl, timeout, unseen⟩
  have ends : Pooled.offers maxRequests ⟨connected, s.workers⟩ (.main (.handle { noAnswers with queued := !decide (maxRequests < n) })) :=
    ⟨⟨List.cons_ne_nil _ _, timeout, List.nodup_nil, by simp [noAnswers]⟩, rfl, by rw [length]⟩
  have hears : Pooled.offers maxRequests ⟨connected.withPending [], s.workers⟩ (.main (.wait [.client ⟨n, false, true, false⟩])) :=
    ⟨⟨rfl, timeout, running, List.nodup_singleton _, by simp [State.reports, armed]⟩, by simp [Event.heard]⟩
  have serves : Pooled.offers maxRequests ⟨silent.withPending [.client ⟨n, false, true, false⟩], s.workers⟩
      (.main (.handle { noAnswers with read := true, queued := !decide (maxRequests < n) })) :=
    ⟨⟨List.cons_ne_nil _ _, timeout, List.nodup_nil, by simp [noAnswers]⟩, rfl, congrArg (fun jobs => !decide (maxRequests < jobs)) length.symm⟩
  have connects : Pooled.effect ⟨listening, s.workers⟩ (.accept n 0) = .ok ⟨connected, s.workers⟩ := by
    rw [Pooled.effect, accepted]
    rfl
  have request : State.effect (silent.withPending [.client ⟨n, false, true, false⟩])
      (.handle { noAnswers with read := true, queued := !decide (maxRequests < n) }) =
      .ok (s.server.joined n (!decide (maxRequests < n))) :=
    joining_request s.server n (!decide (maxRequests < n)) { noAnswers with read := true, queued := !decide (maxRequests < n) } rfl rfl rfl
  have requests : Pooled.effect ⟨silent.withPending [.client ⟨n, false, true, false⟩], s.workers⟩
      (.main (.handle { noAnswers with read := true, queued := !decide (maxRequests < n) })) =
      .ok ⟨s.server.joined n (!decide (maxRequests < n)), s.workers⟩ := by
    rw [Pooled.effect, request]
    rfl
  rw [joining, replay_cons machine s ⟨listening, s.workers⟩ (.main (.wait [.listen])) _ listens rfl]
  rw [replay_cons machine _ _ (.accept n 0) _ accepts connects]
  rw [replay_cons machine _ ⟨connected.withPending [], s.workers⟩ (.main (.handle _)) _ ends rfl]
  rw [replay_cons machine _ ⟨silent.withPending _, s.workers⟩ (.main (.wait _)) _ hears rfl]
  rw [replay_cons machine _ _ (.main (.handle _)) _ serves requests]
  rfl

theorem joined_opened (s : State) (n : Nat) (room : Bool) : (s.joined n room).opened = insert n s.opened := by
  cases room <;> rfl

theorem crowd_grows (n : Nat) (s : Pooled) (crowd : Crowd n s) : Crowd (n + 1) ⟨s.server.joined n true, s.workers⟩ := by
  have opened := joined_opened s.server n true
  have jobs : (s.server.joined n true).jobs = s.server.jobs ++ [n] := rfl
  refine ⟨rfl, crowd.timeout, crowd.running, ?_, ?_, ?_, ?_, crowd.idle⟩
  · change s.server.userCount + 1 = _
    rw [crowd.count]
    rfl
  · intro fd isOpen
    rw [opened] at isOpen
    rcases Finset.mem_insert.mp isOpen with rfl | older
    · exact Nat.lt_succ_self fd
    · exact Nat.lt_succ_of_lt (crowd.opened fd older)
  · rw [jobs, List.length_append, crowd.jobs]
    rfl
  · intro fd queued
    rw [jobs] at queued
    rcases List.mem_append.mp queued with older | new
    · exact Nat.lt_succ_of_lt (crowd.queued fd older)
    · rw [List.mem_singleton.mp new]
      exact Nat.lt_succ_self n

theorem crowd_start (workers : Nat) : Crowd 0 (.start workers) := by
  refine ⟨rfl, rfl, rfl, rfl, ?_, rfl, ?_, fun phase member => List.eq_of_mem_replicate member⟩
  · exact fun fd isOpen => absurd isOpen (Finset.notMem_empty fd)
  · exact fun fd queued => absurd queued List.not_mem_nil

theorem crowd_gathers (maxRequests workers n : Nat) (room : n ≤ maxRequests + 1) (small : n ≤ maxFd) :
    ∃ moves s, replay (pooledMachine maxRequests) (.start workers) moves = some s ∧ Crowd n s := by
  induction n with
  | zero => exact ⟨[], _, rfl, crowd_start workers⟩
  | succ n ih =>
      obtain ⟨moves, s, run, crowd⟩ := ih (by omega) (by omega)
      have queued : (!decide (maxRequests < n)) = true := by simp only [Bool.not_eq_true', decide_eq_false_iff_not]; omega
      have joins := joining_run maxRequests n s crowd (by omega)
      rw [queued] at joins
      refine ⟨moves ++ joining maxRequests n, _, ?_, crowd_grows n s crowd⟩
      rw [replay_append _ _ s _ _ run, joins]

-- append_job refuses the request behind the crowd, and nothing is left that would arm
-- the socket again.
theorem refused_uncovered (n : Nat) (s : Pooled) (crowd : Crowd n s) : ¬ Covered ⟨s.server.joined n false, s.workers⟩ := by
  intro covered
  have silent : (s.server.joined n false).interest n = none := set_here _ _ _
  rcases covered n (by rw [joined_opened]; exact Finset.mem_insert_self n _) with armed | atHand | queued | running
  · exact armed silent
  · cases atHand
  · exact absurd (crowd.queued n queued) (Nat.lt_irrefl n)
  · obtain ⟨phase, member, has⟩ := List.mem_flatMap.mp running
    rw [crowd.idle phase member] at has
    cases has

theorem overload_uncovered (maxRequests workers : Nat) (small : maxRequests + 1 < maxFd) :
    ∃ moves, ¬ Always (pooledMachine maxRequests) Covered (.start workers) moves := by
  obtain ⟨moves, s, run, crowd⟩ := crowd_gathers maxRequests workers (maxRequests + 1) (Nat.le_refl _) (by omega)
  have joins := joining_run maxRequests (maxRequests + 1) s crowd small
  have refused : (!decide (maxRequests < maxRequests + 1)) = false := by simp
  rw [refused] at joins
  refine ⟨moves ++ joining maxRequests (maxRequests + 1), fun always => ?_⟩
  have reached := (replay_append _ _ s moves _ run).trans joins
  exact refused_uncovered _ s crowd (always_replay _ Covered _ _ _ reached always)

theorem client_orphaned : ¬ ∀ moves, Always (pooledMachine 10000) Covered (.start 8) moves := by
  intro always
  obtain ⟨moves, uncovered⟩ := overload_uncovered 10000 8 (by decide)
  exact uncovered (always moves)

end Crowd

end WzyServer.Server
