import WzyServer.Server.Jobs

set_option autoImplicit false

namespace WzyServer.Server

open Run Threads

def State.reached (s : State) : Option Fd → List Conn
  | none => []
  | some fd => if fd ∈ s.opened then [s.occupant fd] else []

def State.touches (s : State) : Phase → List Conn
  | .idle | .taken _ => []
  | .parsed conn _ | .marked conn => s.reached (s.sockfd conn.fd)
  | .removed conn => [s.occupant conn.fd]

def OwnedStep (s : Pooled) : Move → Prop
  | .accept connfd _ => s.server.userCount < (maxFd : Int) → connfd ∉ s.outstanding
  | .proceed worker => ∀ phase conn, s.workers[worker]? = some phase → phase.conn = some conn →
      ∀ touched ∈ s.server.touches phase, touched = conn
  | _ => True

namespace Pooled

def engaged (s : Pooled) : List Fd := clientFds s.server.pending ++ s.outstanding

def untouched (s : Pooled) : List Fd := clientFds s.server.pending ++ (s.server.jobs ++ s.workers.flatMap Phase.untouched)

def leaving (s : Pooled) : List Fd := s.workers.flatMap Phase.leaving

end Pooled

def Spares (s : Pooled) : Move → Prop
  | .main (.tick cur) => ∀ timer ∈ expired cur s.server.timers, timer.userData ∉ s.untouched
  | .accept connfd _ => connfd ∉ s.leaving
  | _ => True

def Socket.held (socket : Socket) : Prop := socket.isOpen = true ∧ socket.interest = none

def Phase.holds (s : State) : Phase → Prop
  | .idle => True
  | .taken slot => (s.socket slot).held
  | .parsed conn _ => (s.socket conn.fd).held ∧ s.accepts conn.fd = conn.number
  | .removed conn | .marked conn => (s.socket conn.fd).isOpen = false ∧ s.accepts conn.fd = conn.number

structure Owns (s : Pooled) : Prop where
  wf : WellFormed s.server
  once : s.engaged.Nodup
  self : ∀ fd, (s.server.socket fd).isOpen = true → (s.server.socket fd).sockfd = some fd
  pending : ∀ fd ∈ clientFds s.server.pending, (s.server.socket fd).held
  jobs : ∀ fd ∈ s.server.jobs, (s.server.socket fd).held
  workers : ∀ phase ∈ s.workers, phase.holds s.server

section Standing

theorem client_fds_nodup (events : List Event) (keys : (events.map Event.key).Nodup) : (clientFds events).Nodup := by
  induction events with
  | nil => exact List.nodup_nil
  | cons event rest ih =>
      rw [List.map_cons, List.nodup_cons] at keys
      cases event with
      | listen => exact ih keys.2
      | signals => exact ih keys.2
      | client ready =>
          refine List.nodup_cons.mpr ⟨?_, ih keys.2⟩
          intro member
          obtain ⟨other, inside, same⟩ := (mem_client_fds rest ready.fd).mp member
          have key : (Event.client other).key = (Event.client ready).key := by rw [Event.key, Event.key, same]
          exact keys.1 (key ▸ List.mem_map_of_mem inside)

theorem holds_kept (s t : State) (phase : Phase) (same : ∀ fd ∈ phase.untouched, t.socket fd = s.socket fd)
    (gone : ∀ fd ∈ phase.leaving, ((s.socket fd).isOpen = false → (t.socket fd).isOpen = false) ∧ t.accepts fd = s.accepts fd)
    (holds : phase.holds s) : phase.holds t := by
  cases phase with
  | idle => trivial
  | taken slot => rwa [Phase.holds, same slot (List.mem_singleton_self slot)]
  | parsed conn outcome =>
      have kept := same conn.fd (List.mem_singleton_self conn.fd)
      have number : t.accepts conn.fd = s.accepts conn.fd := congrArg Socket.accepts kept
      rwa [Phase.holds, kept, number]
  | removed conn | marked conn =>
      obtain ⟨closed, number⟩ := gone conn.fd (List.mem_singleton_self conn.fd)
      exact ⟨closed holds.1, number.trans holds.2⟩

theorem slots_mem (phase : Phase) (fd : Fd) : fd ∈ phase.slots ↔ fd ∈ phase.untouched ∨ fd ∈ phase.leaving := by
  cases phase <;> simp [Phase.slots, Phase.untouched, Phase.leaving]

theorem holds_same (s t : State) (phase : Phase) (same : ∀ fd ∈ phase.slots, t.socket fd = s.socket fd)
    (holds : phase.holds s) : phase.holds t := by
  refine holds_kept s t phase (fun fd has => same fd ((slots_mem phase fd).mpr (.inl has))) ?_ holds
  intro fd has
  have kept := same fd ((slots_mem phase fd).mpr (.inr has))
  exact ⟨fun closed => by rwa [kept], congrArg Socket.accepts kept⟩

theorem untouched_held (s : Pooled) (owns : Owns s) (fd : Fd) (member : fd ∈ s.untouched) : (s.server.socket fd).held := by
  rcases List.mem_append.mp member with atHand | working
  · exact owns.pending fd atHand
  rcases List.mem_append.mp working with queued | running
  · exact owns.jobs fd queued
  obtain ⟨phase, inside, has⟩ := List.mem_flatMap.mp running
  have holds := owns.workers phase inside
  cases phase with
  | taken slot =>
      rw [List.mem_singleton.mp has]
      exact holds
  | parsed conn outcome =>
      rw [List.mem_singleton.mp has]
      exact holds.1
  | idle | removed conn | marked conn => cases has

theorem engaged_cases (s : Pooled) (fd : Fd) (member : fd ∈ s.engaged) : fd ∈ s.untouched ∨ fd ∈ s.leaving := by
  rcases List.mem_append.mp member with atHand | working
  · exact .inl (List.mem_append_left _ atHand)
  rcases List.mem_append.mp working with queued | running
  · exact .inl (List.mem_append_right _ (List.mem_append_left _ queued))
  obtain ⟨phase, inside, has⟩ := List.mem_flatMap.mp running
  rcases (slots_mem phase fd).mp has with untouched | leaving
  · exact .inl (List.mem_append_right _ (List.mem_append_right _ (List.mem_flatMap.mpr ⟨phase, inside, untouched⟩)))
  · exact .inr (List.mem_flatMap.mpr ⟨phase, inside, leaving⟩)

theorem leaving_closed (s : Pooled) (owns : Owns s) (fd : Fd) (member : fd ∈ s.leaving) : (s.server.socket fd).isOpen = false := by
  obtain ⟨phase, inside, has⟩ := List.mem_flatMap.mp member
  have holds := owns.workers phase inside
  cases phase with
  | removed conn | marked conn =>
      rw [List.mem_singleton.mp has]
      exact holds.1
  | idle | taken slot | parsed conn outcome => cases has

theorem engaged_unarmed (s : Pooled) (owns : Owns s) (fd : Fd) (member : fd ∈ s.engaged) : s.server.interest fd = none := by
  rcases engaged_cases s fd member with untouched | leaving
  · exact (untouched_held s owns fd untouched).2
  · by_contra armed
    have isOpen := (socket_open_iff s.server fd).mpr (owns.wf.armed fd armed)
    rw [leaving_closed s owns fd leaving] at isOpen
    cases isOpen

end Standing

section Steps

theorem self_changed (s : Pooled) (owns : Owns s) (server : State) (changes : Fd → Prop) [DecidablePred changes]
    (change : Fd → Socket) (sockets : ∀ fd, server.socket fd = if changes fd then change fd else s.server.socket fd)
    (own : ∀ fd, changes fd → (change fd).isOpen = true → (change fd).sockfd = some fd) (fd : Fd)
    (isOpen : (server.socket fd).isOpen = true) : (server.socket fd).sockfd = some fd := by
  rw [sockets] at isOpen ⊢
  by_cases here : changes fd
  · rw [if_pos here] at isOpen ⊢
    exact own fd here isOpen
  · rw [if_neg here] at isOpen ⊢
    exact owns.self fd isOpen

theorem owns_wait (s : Pooled) (owns : Owns s) (server : State) (batch : List Event) (empty : s.server.pending = [])
    (keys : (batch.map Event.key).Nodup) (reported : ∀ event ∈ batch, s.server.reports event = true) (wf : WellFormed server)
    (sockets : ∀ fd, server.socket fd = if fd ∈ clientFds batch then (s.server.socket fd).disarmed else s.server.socket fd)
    (jobs : server.jobs = s.server.jobs) (pending : server.pending = batch) : Owns ⟨server, s.workers⟩ := by
  have armed : ∀ fd ∈ clientFds batch, s.server.interest fd ≠ none := by
    intro fd member nothing
    obtain ⟨ready, inside, rfl⟩ := (mem_client_fds batch fd).mp member
    have here := reported _ inside
    simp [State.reports, nothing] at here
  have before : s.engaged = s.outstanding := by
    rw [Pooled.engaged, empty]
    rfl
  have apart : ∀ fd ∈ clientFds batch, fd ∉ s.outstanding := fun fd member working =>
    armed fd member (engaged_unarmed s owns fd (before ▸ working))
  have same : ∀ fd ∈ s.outstanding, server.socket fd = s.server.socket fd := fun fd working =>
    (sockets fd).trans (if_neg fun member => apart fd member working)
  refine ⟨wf, ?_, ?_, ?_, ?_, ?_⟩
  · rw [Pooled.engaged, Pooled.outstanding, jobs, pending]
    have once := owns.once
    rw [before] at once
    refine List.nodup_append.mpr ⟨client_fds_nodup batch keys, once, ?_⟩
    rintro fd member other working rfl
    exact apart fd member working
  · exact self_changed s owns server _ _ sockets fun fd _ isOpen => owns.self fd isOpen
  · intro fd member
    rw [pending] at member
    rw [sockets, if_pos member]
    exact ⟨(socket_open_iff s.server fd).mpr (owns.wf.armed fd (armed fd member)), rfl⟩
  · intro fd member
    rw [jobs] at member
    rw [same fd (List.mem_append_left _ member)]
    exact owns.jobs fd member
  · intro phase member
    refine holds_same s.server server phase (fun fd has => same fd ?_) (owns.workers phase member)
    exact List.mem_append_right _ (List.mem_flatMap.mpr ⟨phase, member, has⟩)

theorem owns_client (s : Pooled) (owns : Owns s) (server : State) (ready : Ready) (rest : List Event)
    (pending : s.server.pending = .client ready :: rest) (after : server.pending = rest) (wf : WellFormed server)
    (same : ∀ fd, fd ≠ ready.fd → server.socket fd = s.server.socket fd)
    (self : (server.socket ready.fd).isOpen = true → (server.socket ready.fd).sockfd = some ready.fd)
    (jobs : server.jobs = s.server.jobs ∨ server.jobs = s.server.jobs ++ [ready.fd] ∧ server.socket ready.fd = s.server.socket ready.fd) :
    Owns ⟨server, s.workers⟩ := by
  have whole : s.engaged = ready.fd :: (clientFds rest ++ s.outstanding) := by
    rw [Pooled.engaged, pending]
    rfl
  have once := owns.once
  rw [whole, List.nodup_cons] at once
  have apart : ∀ fd ∈ clientFds rest ++ s.outstanding, server.socket fd = s.server.socket fd := by
    intro fd member
    exact same fd fun equal => once.1 (equal ▸ member)
  have here : (s.server.socket ready.fd).held := owns.pending ready.fd (by rw [pending]; exact List.mem_cons_self ..)
  refine ⟨wf, ?_, ?_, ?_, ?_, ?_⟩
  · rw [Pooled.engaged, Pooled.outstanding, after]
    rcases jobs with kept | ⟨queued, _⟩
    · rw [kept]
      exact once.2
    · have perm : ((clientFds rest ++ s.server.jobs) ++ ready.fd :: s.workers.flatMap Phase.slots).Perm
          (ready.fd :: (clientFds rest ++ s.server.jobs ++ s.workers.flatMap Phase.slots)) := List.perm_middle
      rw [queued, List.append_assoc, List.singleton_append, ← List.append_assoc, perm.nodup_iff, List.nodup_cons,
        List.append_assoc]
      exact once
  · intro fd isOpen
    by_cases equal : fd = ready.fd
    · rw [equal] at isOpen ⊢
      exact self isOpen
    · rw [same fd equal] at isOpen ⊢
      exact owns.self fd isOpen
  · intro fd member
    rw [after] at member
    rw [apart fd (List.mem_append_left _ member)]
    exact owns.pending fd (by rw [pending]; exact List.mem_cons_of_mem _ member)
  · intro fd member
    have older : ∀ fd ∈ s.server.jobs, (server.socket fd).held := by
      intro fd member
      rw [apart fd (List.mem_append_right _ (List.mem_append_left _ member))]
      exact owns.jobs fd member
    rcases jobs with kept | ⟨queued, unchanged⟩
    · exact older fd (kept ▸ member)
    · rw [queued] at member
      rcases List.mem_append.mp member with old | new
      · exact older fd old
      · rw [List.mem_singleton.mp new, unchanged]
        exact here
  · intro phase member
    refine holds_same s.server server phase (fun fd has => apart fd ?_) (owns.workers phase member)
    exact List.mem_append_right _ (List.mem_append_right _ (List.mem_flatMap.mpr ⟨phase, member, has⟩))

theorem owns_steady (s : Pooled) (owns : Owns s) (server : State) (wf : WellFormed server)
    (pending : clientFds server.pending = clientFds s.server.pending) (jobs : server.jobs = s.server.jobs)
    (same : ∀ fd ∈ s.untouched, server.socket fd = s.server.socket fd)
    (gone : ∀ fd ∈ s.leaving, ((s.server.socket fd).isOpen = false → (server.socket fd).isOpen = false) ∧
      server.accepts fd = s.server.accepts fd)
    (self : ∀ fd, (server.socket fd).isOpen = true → (server.socket fd).sockfd = some fd) : Owns ⟨server, s.workers⟩ := by
  refine ⟨wf, ?_, self, ?_, ?_, ?_⟩
  · rw [Pooled.engaged, Pooled.outstanding, pending, jobs]
    exact owns.once
  · intro fd member
    rw [pending] at member
    rw [same fd (List.mem_append_left _ member)]
    exact owns.pending fd member
  · intro fd member
    rw [jobs] at member
    rw [same fd (List.mem_append_right _ (List.mem_append_left _ member))]
    exact owns.jobs fd member
  · intro phase member
    refine holds_kept s.server server phase ?_ ?_ (owns.workers phase member)
    · intro fd has
      exact same fd (List.mem_append_right _ (List.mem_append_right _ (List.mem_flatMap.mpr ⟨phase, member, has⟩)))
    · exact fun fd has => gone fd (List.mem_flatMap.mpr ⟨phase, member, has⟩)

theorem owns_take (s : Pooled) (owns : Owns s) (worker : Nat) (slot : Fd) (rest : List Fd)
    (idle : s.workers[worker]? = some .idle) (jobs : s.server.jobs = slot :: rest)
    (wf : WellFormed { s.server with jobs := rest }) :
    Owns ⟨{ s.server with jobs := rest }, s.workers.set worker (.taken slot)⟩ := by
  refine ⟨wf, ?_, owns.self, owns.pending, ?_, ?_⟩
  · have moved := flatMap_set_perm Phase.slots s.workers worker .idle (.taken slot) idle
    rw [Phase.slots, List.append_nil] at moved
    have perm : (rest ++ (s.workers.set worker (.taken slot)).flatMap Phase.slots).Perm s.outstanding := by
      rw [Pooled.outstanding, jobs]
      refine (moved.append_left rest).trans ?_
      rw [← List.append_assoc]
      exact List.perm_append_singleton slot (rest ++ s.workers.flatMap Phase.slots)
    exact (perm.append_left (clientFds s.server.pending)).nodup_iff.mpr owns.once
  · exact fun fd member => owns.jobs fd (by rw [jobs]; exact List.mem_cons_of_mem slot member)
  · intro phase member
    rcases List.mem_or_eq_of_mem_set member with older | rfl
    · exact owns.workers phase older
    · exact owns.jobs slot (by rw [jobs]; exact List.mem_cons_self ..)

theorem owns_turn (s : Pooled) (owns : Owns s) (server : State) (worker : Nat) (before after : Phase)
    (here : s.workers[worker]? = some before) (wf : WellFormed server) (pending : server.pending = s.server.pending)
    (jobs : server.jobs = s.server.jobs) (fewer : (after.slots).Subperm before.slots)
    (same : ∀ fd, fd ∉ before.slots → server.socket fd = s.server.socket fd)
    (self : ∀ fd, (server.socket fd).isOpen = true → (server.socket fd).sockfd = some fd) (holds : after.holds server) :
    Owns ⟨server, s.workers.set worker after⟩ := by
  have inside : before ∈ s.workers := List.mem_of_getElem? here
  have once := owns.once
  rw [Pooled.engaged, Pooled.outstanding, ← List.append_assoc] at once
  obtain ⟨_, workersOnce, apart⟩ := List.nodup_append.mp once
  have elsewhere : ∀ fd ∈ clientFds s.server.pending ++ s.server.jobs, server.socket fd = s.server.socket fd := by
    intro fd member
    exact same fd fun has => apart fd member fd (List.mem_flatMap.mpr ⟨before, inside, has⟩) rfl
  refine ⟨wf, ?_, self, ?_, ?_, ?_⟩
  · obtain ⟨kept, perm, sub⟩ := (flatMap_set_subperm Phase.slots s.workers worker before after here fewer)
    rw [Pooled.engaged, Pooled.outstanding, ← List.append_assoc, pending, jobs]
    exact (perm.append_left _).nodup_iff.mp (once.sublist (sub.append_left _))
  · intro fd member
    rw [pending] at member
    rw [elsewhere fd (List.mem_append_left _ member)]
    exact owns.pending fd member
  · intro fd member
    rw [jobs] at member
    rw [elsewhere fd (List.mem_append_right _ member)]
    exact owns.jobs fd member
  · intro phase member
    rcases mem_set_elsewhere s.workers worker after phase member with rfl | ⟨other, different, found⟩
    · exact holds
    · refine holds_same s.server server phase (fun fd has => same fd fun own => ?_) (owns.workers phase (List.mem_of_getElem? found))
      exact different (owner_eq Phase.slots s.workers workersOnce other worker phase before fd found here has own)

theorem owns_handle (s : Pooled) (owns : Owns s) (server : State) (event : Event) (rest : List Event) (answers : Answers)
    (pending : s.server.pending = event :: rest) (after : server.pending = rest) (wf : WellFormed server)
    (handled : Handled s.server server answers event) : Owns ⟨server, s.workers⟩ := by
  have atHand : ∀ ready, event = .client ready → (s.server.socket ready.fd).held := by
    rintro ready rfl
    exact owns.pending ready.fd (by rw [pending]; exact List.mem_cons_self ..)
  cases handled with
  | quiet event same jobs silent =>
      have self : ∀ fd, (server.socket fd).isOpen = true → (server.socket fd).sockfd = some fd := by
        intro fd isOpen
        rw [same fd] at isOpen ⊢
        exact owns.self fd isOpen
      have aside : clientFds server.pending = clientFds s.server.pending → Owns ⟨server, s.workers⟩ := by
        intro clients
        apply owns_steady s owns server wf clients jobs (fun fd _ => same fd) _ self
        exact fun fd _ => ⟨fun closed => by rwa [same fd], congrArg Socket.accepts (same fd)⟩
      cases event with
      | listen => exact aside (by rw [after, pending]; rfl)
      | signals => exact aside (by rw [after, pending]; rfl)
      | client ready =>
          exact owns_client s owns server ready rest pending after wf (fun fd _ => same fd) (self ready.fd) (.inl jobs)
  | dropped ready closed jobs =>
      apply owns_client s owns server ready rest pending after wf _ _ (.inl jobs)
      · exact fun fd other => (closed fd).trans (if_neg other)
      · intro isOpen
        rw [closed, if_pos rfl] at isOpen
        cases isOpen
  | queued ready same jobs =>
      apply owns_client s owns server ready rest pending after wf (fun fd _ => same fd) _ (.inr ⟨jobs, same ready.fd⟩)
      intro isOpen
      rw [same] at isOpen ⊢
      exact owns.self ready.fd isOpen
  | refused ready appends full same jobs =>
      apply owns_client s owns server ready rest pending after wf (fun fd _ => same fd) _ (.inl jobs)
      intro isOpen
      rw [same] at isOpen ⊢
      exact owns.self ready.fd isOpen
  | armed ready interest jobs same =>
      have own : s.server.sockfd ready.fd = some ready.fd := owns.self ready.fd (atHand ready rfl).1
      rw [own] at same
      apply owns_client s owns server ready rest pending after wf _ _ (.inl jobs)
      · exact fun fd other => (same fd).trans (if_neg fun equal => other (Option.some.inj equal).symm)
      · intro _
        rw [same, if_pos rfl, Socket.rearmed_sockfd]
        exact own

theorem owns_accept (s : Pooled) (owns : Owns s) (connfd : Fd) (cur : Int) (closed : connfd ∉ s.server.opened)
    (staying : connfd ∉ s.leaving) (wf : WellFormed (s.server.initClient connfd cur)) : Owns ⟨s.server.initClient connfd cur, s.workers⟩ := by
  have sockets := socket_init s.server connfd cur
  have apart : connfd ∉ s.untouched := fun member =>
    closed ((socket_open_iff s.server connfd).mp (untouched_held s owns connfd member).1)
  apply owns_steady s owns _ wf rfl rfl
  · intro fd member
    have other : fd ≠ connfd := fun same => apart (same ▸ member)
    exact (sockets fd).trans (if_neg other)
  · intro fd member
    have other : fd ≠ connfd := fun same => staying (same ▸ member)
    exact ⟨fun isClosed => by rwa [sockets, if_neg other], set_elsewhere _ _ _ _ other⟩
  · exact self_changed s owns _ _ _ sockets fun fd here _ => congrArg some here.symm

theorem owns_tick (s : Pooled) (owns : Owns s) (server : State) (cur : Int)
    (spared : ∀ timer ∈ expired cur s.server.timers, timer.userData ∉ s.untouched) (wf : WellFormed server)
    (sockets : ∀ fd, server.socket fd = s.server.socket fd ∨
      (server.socket fd = (s.server.socket fd).closed ∧ ∃ timer ∈ expired cur s.server.timers, timer.userData = fd))
    (jobs : server.jobs = s.server.jobs) (pending : server.pending = s.server.pending) : Owns ⟨server, s.workers⟩ := by
  apply owns_steady s owns _ wf (congrArg clientFds pending) jobs
  · intro fd member
    rcases sockets fd with kept | ⟨_, timer, due, points⟩
    · exact kept
    · exact absurd (points ▸ member) (spared timer due)
  · intro fd _
    have number : server.accepts fd = s.server.accepts fd := by
      rcases sockets fd with kept | ⟨closed, _⟩
      · exact congrArg Socket.accepts kept
      · exact congrArg Socket.accepts closed
    refine ⟨fun isClosed => ?_, number⟩
    rcases sockets fd with kept | ⟨closed, _⟩
    · rwa [kept]
    · rw [closed]
      rfl
  · intro fd isOpen
    rcases sockets fd with kept | ⟨closed, _⟩
    · rw [kept] at isOpen ⊢
      exact owns.self fd isOpen
    · rw [closed] at isOpen
      cases isOpen

theorem slot_or_closed (s : State) (wf : WellFormed s) (slot : Fd) : s.sockfd slot = none ∨ s.sockfd slot = some slot := by
  cases held : s.sockfd slot with
  | none => exact .inl rfl
  | some fd => exact .inr (congrArg some (wf.slot slot fd held))

theorem owns_return (s : Pooled) (owns : Owns s) (worker : Nat) (phase : Phase) (slot : Fd) (interest : Interest)
    (here : s.workers[worker]? = some phase) (slots : phase.slots = [slot])
    (wf : WellFormed (s.server.modfd (s.server.sockfd slot) interest)) :
    Owns ⟨s.server.modfd (s.server.sockfd slot) interest, s.workers.set worker .idle⟩ := by
  have sockets := socket_modfd s.server (s.server.sockfd slot) interest
  apply owns_turn s owns _ worker phase .idle here wf (modfd_same _ _ _).pending (modfd_jobs _ _ _) (List.nil_subperm)
  · intro fd elsewhere
    rw [slots, List.mem_singleton] at elsewhere
    refine (sockets fd).trans (if_neg fun points => ?_)
    rcases slot_or_closed s.server owns.wf slot with closed | own
    · cases closed.symm.trans points
    · exact elsewhere (Option.some.inj (own.symm.trans points)).symm
  · refine self_changed s owns _ _ _ sockets fun fd _ isOpen => ?_
    rw [Socket.rearmed_is_open] at isOpen
    rw [Socket.rearmed_sockfd]
    exact owns.self fd isOpen
  · trivial

theorem owns_remove (s : Pooled) (owns : Owns s) (worker : Nat) (conn : Conn)
    (here : s.workers[worker]? = some (.parsed conn .closed)) (wf : WellFormed (s.server.removefd conn.fd)) :
    Owns ⟨s.server.removefd conn.fd, s.workers.set worker (.removed conn)⟩ := by
  have sockets := socket_removefd s.server conn.fd
  have number := (owns.workers _ (List.mem_of_getElem? here)).2
  apply owns_turn s owns _ worker _ (.removed conn) here wf rfl rfl (.refl _)
  · intro fd elsewhere
    exact (sockets fd).trans (if_neg (fun same => elsewhere (List.mem_singleton.mpr same)))
  · exact self_changed s owns _ _ _ sockets fun fd _ isOpen => by cases isOpen
  · exact ⟨by rw [sockets, if_pos rfl]; rfl, number⟩

theorem owns_mark (s : Pooled) (owns : Owns s) (worker : Nat) (conn : Conn) (here : s.workers[worker]? = some (.removed conn))
    (wf : WellFormed (s.server.mark conn.fd)) : Owns ⟨s.server.mark conn.fd, s.workers.set worker (.marked conn)⟩ := by
  have sockets := socket_mark s.server conn.fd
  obtain ⟨closed, number⟩ := owns.workers _ (List.mem_of_getElem? here)
  apply owns_turn s owns _ worker _ (.marked conn) here wf rfl rfl (.refl _)
  · intro fd elsewhere
    exact (sockets fd).trans (if_neg (fun same => elsewhere (List.mem_singleton.mpr same)))
  · refine self_changed s owns _ _ _ sockets fun fd here isOpen => ?_
    rw [here] at isOpen
    cases closed.symm.trans isOpen
  · exact ⟨by rw [sockets, if_pos rfl]; exact closed, number⟩

theorem owns_proceed (s : Pooled) (owns : Owns s) (worker : Nat) (phase : Phase) (conn : Conn)
    (here : s.workers[worker]? = some phase) (known : phase.conn = some conn) (wf : WellFormed (s.server.proceed phase).1) :
    Owns ⟨(s.server.proceed phase).1, s.workers.set worker (s.server.proceed phase).2⟩ := by
  have holds := owns.workers phase (List.mem_of_getElem? here)
  cases phase with
  | idle => cases known
  | taken slot => cases known
  | parsed own outcome =>
      have held : s.server.sockfd own.fd = some own.fd := owns.self own.fd holds.1.1
      cases outcome with
      | moreInput => exact owns_return s owns worker _ own.fd .input here rfl wf
      | response => exact owns_return s owns worker _ own.fd .output here rfl wf
      | closed =>
          have next : s.server.proceed (.parsed own .closed) = (s.server.removefd own.fd, .removed own) := by
            simp only [State.proceed, held]
          rw [next] at wf ⊢
          exact owns_remove s owns worker own here wf
  | removed own => exact owns_mark s owns worker own here wf
  | marked own => exact owns_return s owns worker _ own.fd .output here rfl wf

theorem owns_parse (s : Pooled) (owns : Owns s) (worker : Nat) (slot : Fd) (outcome : Finish)
    (here : s.workers[worker]? = some (.taken slot)) :
    Owns ⟨s.server, s.workers.set worker (.parsed (s.server.occupant slot) outcome)⟩ := by
  have same : (Phase.parsed (s.server.occupant slot) outcome).slots.Subperm (Phase.taken slot).slots := .refl _
  apply owns_turn s owns s.server worker _ _ here owns.wf rfl rfl same (fun _ _ => rfl) owns.self
  exact ⟨owns.workers _ (List.mem_of_getElem? here), rfl⟩

theorem owns_main (maxRequests : Nat) (s : Pooled) (owns : Owns s) (label : Label) (server : State) (wf : WellFormed server)
    (spares : Spares s (.main label)) (step : MainStep maxRequests s server label) : Owns ⟨server, s.workers⟩ := by
  cases step with
  | wait batch empty keys reported heard sockets jobs pending =>
      exact owns_wait s owns server batch empty keys reported wf sockets jobs pending
  | handle answers event rest pending after room handled =>
      exact owns_handle s owns server event rest answers pending after wf handled
  | tick cur sockets jobs pending => exact owns_tick s owns server cur spares wf sockets jobs pending

theorem owns_moved (maxRequests : Nat) (s t : Pooled) (move : Move) (owns : Owns s) (spares : Spares s move)
    (taken : Takes (pooledMachine maxRequests) s move t) : Owns t := by
  have wf := well_formed_moved maxRequests s t move owns.wf taken
  cases moved_of_takes maxRequests s t move taken with
  | main label server effect =>
      exact owns_main maxRequests s owns label server wf spares (main_step maxRequests s owns.wf label server taken.1 effect)
  | busy connfd cur => exact owns
  | accept connfd cur room => exact owns_accept s owns connfd cur taken.1.2.2 spares wf
  | take worker slot rest idle jobs => exact owns_take s owns worker slot rest idle jobs wf
  | parse worker slot outcome here => exact owns_parse s owns worker slot outcome here
  | proceed worker phase conn here known => exact owns_proceed s owns worker phase conn here known wf

theorem start_owns (workers : Nat) : Owns (.start workers) := by
  have idle : ∀ phase ∈ (Pooled.start workers).workers, phase = .idle := fun phase member => List.eq_of_mem_replicate member
  refine ⟨start_well_formed, ?_, ?_, ?_, ?_, ?_⟩
  · have nothing : (Pooled.start workers).workers.flatMap Phase.slots = [] := by
      rw [List.flatMap_eq_nil_iff]
      intro phase member
      rw [idle phase member]
      rfl
    rw [Pooled.engaged, Pooled.outstanding, nothing]
    exact List.nodup_nil
  · intro fd isOpen
    exact absurd ((socket_open_iff _ fd).mp isOpen) (Finset.notMem_empty fd)
  · exact fun fd member => absurd member List.not_mem_nil
  · exact fun fd member => absurd member List.not_mem_nil
  · intro phase member
    rw [idle phase member]
    trivial

end Steps

section Runs

theorem touches_own (s : Pooled) (owns : Owns s) (phase : Phase) (conn touched : Conn) (member : phase ∈ s.workers)
    (known : phase.conn = some conn) (touches : touched ∈ s.server.touches phase) : touched = conn := by
  have holds := owns.workers phase member
  cases phase with
  | idle => cases known
  | taken slot => cases known
  | parsed own outcome =>
      cases known
      have own : s.server.sockfd conn.fd = some conn.fd := owns.self conn.fd holds.1.1
      rw [State.touches, own, State.reached, if_pos ((socket_open_iff _ _).mp holds.1.1)] at touches
      rw [List.mem_singleton.mp touches, State.occupant, holds.2]
  | removed own =>
      cases known
      rw [List.mem_singleton.mp touches, State.occupant, holds.2]
  | marked own =>
      cases known
      have closed : conn.fd ∉ s.server.opened := fun isOpen => by
        cases holds.1.symm.trans ((socket_open_iff _ _).mpr isOpen)
      rw [State.touches] at touches
      rcases slot_or_closed s.server owns.wf conn.fd with gone | same
      · rw [gone] at touches
        cases touches
      · rw [same, State.reached, if_neg closed] at touches
        cases touches

theorem owned_step (maxRequests : Nat) (s : Pooled) (move : Move) (owns : Owns s)
    (offered : (pooledMachine maxRequests).guard s move) (spares : Spares s move) : OwnedStep s move := by
  cases move with
  | accept connfd cur =>
      intro _ member
      rcases engaged_cases s connfd (List.mem_append_right _ member) with untouched | leaving
      · exact offered.2.2 ((socket_open_iff _ _).mp (untouched_held s owns connfd untouched).1)
      · exact spares leaving
  | proceed worker =>
      intro phase conn here known touched touches
      exact touches_own s owns phase conn touched (List.mem_of_getElem? here) known touches
  | main label => trivial
  | take worker => trivial
  | parse worker outcome => trivial

theorem jobs_own_connections (maxRequests workers : Nat) (moves : List Move)
    (spares : Along (pooledMachine maxRequests) Spares (.start workers) moves) :
    Along (pooledMachine maxRequests) OwnedStep (.start workers) moves ∧
    Always (pooledMachine maxRequests) (fun s => s.outstanding.Nodup) (.start workers) moves := by
  have kept : ∀ s move t, Owns s → Spares s move → Takes (pooledMachine maxRequests) s move t → Owns t :=
    fun s move t => owns_moved maxRequests s t move
  constructor
  · apply along_mono _ Spares OwnedStep Owns kept _ _ moves (start_owns workers) spares
    exact fun s move owns offered sparesHere => owned_step maxRequests s move owns offered sparesHere
  · have always := always_of_along _ Spares Owns kept _ moves (start_owns workers) spares
    exact always_mono _ Owns _ (fun s owns => (List.nodup_append.mp owns.once).2.1) _ moves always

def accepting : List Move := [.main (.wait [.listen]), .accept 7 0, .main (.handle { noAnswers with queued := true })]

def requested : List Move := accepting ++
  [.main (.wait [.client ⟨7, false, true, false⟩]), .main (.handle { noAnswers with read := true, queued := true, cur := 5 }),
    .take 0]

def answered : List Move := requested ++ [.parse 0 .response, .proceed 0, .main (.wait [.signals]),
  .main (.handle { noAnswers with signals := [.alarm], queued := true }), .main (.tick 400)]

theorem jobs_own_connections_answered : Along (pooledMachine 10000) OwnedStep (.start 8) answered ∧
    Always (pooledMachine 10000) (fun s => s.outstanding.Nodup) (.start 8) answered := by
  apply jobs_own_connections
  refine along_cons _ _ _ _ _ _ (fun _ => trivial) rfl ?_
  refine along_cons _ _ _ _ _ _ (fun _ => ?_) rfl ?_
  · exact List.not_mem_nil
  refine along_cons _ _ _ _ _ _ (fun _ => trivial) rfl ?_
  refine along_cons _ _ _ _ _ _ (fun _ => trivial) rfl ?_
  refine along_cons _ _ _ _ _ _ (fun _ => trivial) rfl ?_
  refine along_cons _ _ _ _ _ _ (fun _ => trivial) rfl ?_
  refine along_cons _ _ _ _ _ _ (fun _ => trivial) rfl ?_
  refine along_cons _ _ _ _ _ _ (fun _ => trivial) rfl ?_
  refine along_cons _ _ _ _ _ _ (fun _ => trivial) rfl ?_
  refine along_cons _ _ _ _ _ _ (fun _ => trivial) rfl ?_
  refine along_cons _ _ _ _ _ _ (fun _ => ?_) rfl trivial
  intro timer due
  exact List.not_mem_nil

def reconnected : List Move := requested ++ [.parse 0 .closed, .proceed 0, .main (.wait [.listen])]

theorem connection_taken_over : ¬ Along (pooledMachine 10000) OwnedStep (.start 8) (reconnected ++ [.accept 7 0]) := by
  intro along
  have reached : ∃ t, replay (pooledMachine 10000) (.start 8) reconnected = some t ∧ t.server.pending = [.listen] ∧
      t.server.timeout = false ∧ 7 ∉ t.server.opened ∧ t.server.userCount = 1 ∧ 7 ∈ t.outstanding :=
    ⟨_, rfl, rfl, rfl, by decide, rfl, by decide⟩
  obtain ⟨t, run, pending, timeout, closed, count, member⟩ := reached
  have offered : (pooledMachine 10000).guard t (.accept 7 0) := ⟨by rw [pending]; rfl, timeout, closed⟩
  exact along_replay _ OwnedStep _ t reconnected _ run offered along (by rw [count]; decide) member

end Runs

end WzyServer.Server
