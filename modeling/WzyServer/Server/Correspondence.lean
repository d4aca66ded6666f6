import WzyServer.Server.WellFormed

set_option autoImplicit false

namespace WzyServer.Server

open Run

-- The connection is open now: the one its descriptor was last handed out for.
def State.Current (s : State) (conn : Conn) : Prop := conn.fd ∈ s.opened ∧ conn.number = s.accepts conn.fd

def State.owners (s : State) : List Conn := (links s.timers).map Link.owner

structure Corresponds (s : State) : Prop where
  once : s.owners.Nodup
  matched : ∀ conn, conn ∈ s.owners ↔ s.Current conn

def ExpiresOwn (cur : Int) : TimerList → State → Prop
  | [], _ => True
  | timer :: rest, s => timer.expire ≤ cur →
      (s.Current timer.owner ∧ (s.usersTimer timer.userData).sockfd = timer.owner.fd) ∧
        ExpiresOwn cur rest (s.expireHead timer rest)

def ExpiryExact (s : State) : Label → Prop
  | .tick cur => ExpiresOwn cur s.timers s
  | _ => True

def WorkerKeepsOpen (s : State) : Label → Prop
  | .finish slot .closed => ∀ fd, s.sockfd slot = some fd → fd ∉ s.opened
  | _ => True

structure Tracked (s : State) : Prop where
  wf : WellFormed s
  corresponds : Corresponds s

theorem corresponds_same (s t : State) (corresponds : Corresponds s) (timers : (links t.timers).Perm (links s.timers))
    (opened : t.opened = s.opened) (accepts : t.accepts = s.accepts) : Corresponds t := by
  have perm : t.owners.Perm s.owners := timers.map Link.owner
  refine ⟨perm.nodup_iff.mpr corresponds.once, fun conn => ?_⟩
  rw [perm.mem_iff, corresponds.matched conn]
  unfold State.Current
  rw [opened, accepts]

theorem corresponds_close (s t : State) (corresponds : Corresponds s) (link : Link)
    (timers : (links s.timers).Perm (link :: links t.timers)) (opened : t.opened = s.opened.erase link.owner.fd)
    (accepts : t.accepts = s.accepts) : Corresponds t := by
  have perm : s.owners.Perm (link.owner :: t.owners) := timers.map Link.owner
  obtain ⟨gone, once⟩ := List.nodup_cons.mp (perm.nodup_iff.mp corresponds.once)
  have current : s.Current link.owner := (corresponds.matched link.owner).mp (perm.mem_iff.mpr (List.mem_cons_self ..))
  refine ⟨once, fun conn => ?_⟩
  unfold State.Current
  rw [opened, accepts, Finset.mem_erase]
  constructor
  · intro member
    have before := (corresponds.matched conn).mp (perm.mem_iff.mpr (List.mem_cons_of_mem _ member))
    refine ⟨⟨fun same => gone ?_, before.1⟩, before.2⟩
    have equal : conn = link.owner := by
      cases conn
      cases owner : link.owner
      simp_all [State.Current]
    rwa [← equal]
  · rintro ⟨⟨different, isOpen⟩, number⟩
    have before := perm.mem_iff.mp ((corresponds.matched conn).mpr ⟨isOpen, number⟩)
    rcases List.mem_cons.mp before with same | member
    · exact absurd (congrArg Conn.fd same) different
    · exact member

theorem del_timer_perm (timers : TimerList) (link : Link) (member : link ∈ links timers)
    (ids : ((links timers).map Link.id).Nodup) : (links timers).Perm (link :: links (delTimer link.id timers)) := by
  have nodup : (links timers).Nodup := List.Nodup.of_map Link.id ids
  have same : links (delTimer link.id timers) = (links timers).erase link := by
    rw [del_timer_links, nodup.erase_eq_filter]
    apply List.filter_congr
    intro other otherMember
    have unique := List.inj_on_of_nodup_map ids otherMember member
    by_cases equal : other = link
    · simp [equal]
    · have different : other.id ≠ link.id := fun sameId => equal (unique sameId)
      simp [equal, different]
  rw [same]
  exact List.perm_cons_erase member

theorem corresponds_drop (s t : State) (tracked : Tracked s) (fd : Fd) (ok : s.dropClient fd = .ok t) : Corresponds t := by
  obtain ⟨wf, corresponds⟩ := tracked
  obtain ⟨link, member, pointer, rfl⟩ := drop_client_ok s t fd ok
  have own := wf.own fd link member pointer
  have ownerFd := (wf.userData link member).1
  apply corresponds_close s _ corresponds link
  · exact del_timer_perm s.timers link member wf.ids
  · simp only [State.cbFunc, State.removefd]
    rw [wf.sockfd fd link.id pointer, ← ownerFd, own]
  · rfl

theorem corresponds_expire (s : State) (tracked : Tracked s) (timer : Timer) (rest : TimerList)
    (here : s.timers = timer :: rest) : Corresponds (s.expireHead timer rest) ∧ s.Current timer.owner ∧
      (s.usersTimer timer.userData).sockfd = timer.owner.fd := by
  obtain ⟨wf, corresponds⟩ := tracked
  have member : timer.link ∈ links s.timers := by simp [links, here]
  obtain ⟨ownerFd, points⟩ := wf.userData timer.link member
  have closes : (s.usersTimer timer.userData).sockfd = timer.owner.fd := points.trans ownerFd
  refine ⟨?_, (corresponds.matched timer.owner).mp (List.mem_map.mpr ⟨timer.link, member, rfl⟩), closes⟩
  apply corresponds_close s _ corresponds timer.link
  · rw [here]
    exact .refl _
  · simp only [State.expireHead, State.cbFunc, State.removefd]
    rw [closes]
    rfl
  · rfl

theorem tracked_expire (s : State) (tracked : Tracked s) (timer : Timer) (rest : TimerList)
    (here : s.timers = timer :: rest) : Tracked (s.expireHead timer rest) :=
  ⟨well_formed_shrinks s _ tracked.wf (shrinks_expire s tracked.wf timer rest here),
    (corresponds_expire s tracked timer rest here).1⟩

theorem expires_own (cur : Int) (timers : TimerList) (s : State) (whole : s.timers = timers) (tracked : Tracked s) :
    ExpiresOwn cur timers s := by
  induction timers generalizing s with
  | nil => trivial
  | cons timer rest ih =>
      intro _
      exact ⟨(corresponds_expire s tracked timer rest whole).2, ih _ rfl (tracked_expire s tracked timer rest whole)⟩

theorem corresponds_init (s : State) (corresponds : Corresponds s) (connfd : Fd) (cur : Int) (closed : connfd ∉ s.opened) :
    Corresponds (s.initClient connfd cur) := by
  have perm : (s.initClient connfd cur).owners.Perm (⟨connfd, s.accepts connfd + 1⟩ :: s.owners) :=
    (init_links s connfd cur).map Link.owner
  have notYet : ∀ conn ∈ s.owners, conn.fd ≠ connfd := by
    intro conn member same
    exact closed (same ▸ ((corresponds.matched conn).mp member).1)
  constructor
  · rw [perm.nodup_iff, List.nodup_cons]
    exact ⟨fun member => notYet _ member rfl, corresponds.once⟩
  · intro conn
    rw [perm.mem_iff, List.mem_cons, corresponds.matched conn]
    unfold State.Current State.initClient
    simp only [Finset.mem_insert]
    by_cases same : conn.fd = connfd
    · rw [same, set_here]
      constructor
      · rintro (rfl | ⟨isOpen, _⟩)
        · exact ⟨.inl rfl, rfl⟩
        · exact absurd isOpen closed
      · rintro ⟨_, number⟩
        left
        cases conn
        simp_all
    · rw [set_elsewhere _ _ _ _ same]
      constructor
      · rintro (rfl | ⟨isOpen, number⟩)
        · exact absurd rfl same
        · exact ⟨.inr isOpen, number⟩
      · rintro ⟨either, number⟩
        exact .inr ⟨either.resolve_left same, number⟩

theorem corresponds_accept (accepted : List (Fd × Int)) (s t : State) (corresponds : Corresponds s)
    (distinct : (accepted.map Prod.fst).Nodup) (closed : ∀ fd ∈ accepted.map Prod.fst, fd ∉ s.opened)
    (ok : s.acceptClients accepted = .ok t) : Corresponds t :=
  accept_new_invariant Corresponds (fun s connfd cur new here => corresponds_init s here connfd cur new) accepted s t distinct
    closed corresponds ok

theorem corresponds_of_same (s t : State) (corresponds : Corresponds s) (same : SameClients s t) : Corresponds t :=
  corresponds_same s t corresponds same.timers same.opened same.accepts

theorem corresponds_finish (s : State) (corresponds : Corresponds s) (slot : Fd) (outcome : Finish)
    (keeps : WorkerKeepsOpen s (.finish slot outcome)) : Corresponds (s.finish slot outcome) := by
  have taken : Corresponds (s.takeJob slot) := corresponds_same s _ corresponds (.refl _) rfl rfl
  cases outcome with
  | moreInput => exact corresponds_of_same _ _ taken (modfd_same (s.takeJob slot) _ .input)
  | response => exact corresponds_of_same _ _ taken (modfd_same (s.takeJob slot) _ .output)
  | closed =>
      apply corresponds_of_same _ _ taken
      unfold State.finish State.closeConn
      cases held : (s.takeJob slot).sockfd slot with
      | none => exact ⟨.refl _, rfl, rfl, rfl, rfl⟩
      | some fd => exact ⟨.refl _, rfl, Finset.erase_eq_of_notMem (keeps fd held), rfl, rfl⟩

theorem tracked_step (s t : State) (label : Label) (tracked : Tracked s) (keeps : WorkerKeepsOpen s label)
    (taken : Takes machine s label t) : Tracked t := by
  refine ⟨well_formed_step s t label tracked.wf taken, ?_⟩
  cases label with
  | wait batch =>
      cases taken.2
      have disarmed := corresponds_of_same s _ tracked.corresponds (disarm_same batch s)
      exact corresponds_same _ _ disarmed (.refl _) rfl rfl
  | handle answers =>
      obtain ⟨event, rest, _, ok⟩ := handle_effect s t answers taken
      have current : Tracked (s.withPending rest) :=
        ⟨well_formed_loop s tracked.wf _ rest _ _, corresponds_same s _ tracked.corresponds (.refl _) rfl rfl⟩
      cases event with
      | listen =>
          exact corresponds_accept answers.accepted _ t current.corresponds taken.1.2.2.1 taken.1.2.2.2 ok
      | signals =>
          cases ok
          exact corresponds_same s _ tracked.corresponds (.refl _) rfl rfl
      | client ready =>
          by_cases closes : closing ready answers = true
          · rw [State.handle, handle_client_closing _ ready answers closes] at ok
            exact corresponds_drop _ t current ready.fd ok
          · exact corresponds_of_same _ t current.corresponds (open_branch_same _ t ready answers closes ok)
  | tick cur =>
      cases taken.2
      have ticked : Tracked (State.tickFrom cur s.timers s) := by
        apply tick_induction Tracked cur _ s.timers s rfl tracked
        intro other timer rest inside here _
        exact tracked_expire other inside timer rest here
      exact corresponds_same _ _ ticked.corresponds (.refl _) rfl rfl
  | finish slot outcome =>
      cases taken.2
      exact corresponds_finish s tracked.corresponds slot outcome keeps

theorem start_tracked : Tracked State.start :=
  ⟨start_well_formed, ⟨List.nodup_nil, by simp [State.owners, links, State.start, State.Current]⟩⟩

theorem forgotten_timer (s : State) (slot fd : Fd) (corresponds : Corresponds s) (held : s.sockfd slot = some fd)
    (isOpen : fd ∈ s.opened) : ¬ Corresponds (s.finish slot .closed) := by
  intro after
  have owned : (⟨fd, s.accepts fd⟩ : Conn) ∈ s.owners := (corresponds.matched _).mpr ⟨isOpen, rfl⟩
  have closed : s.finish slot .closed =
      { (s.takeJob slot).removefd fd with sockfd := set s.sockfd slot none, userCount := s.userCount - 1 } := by
    have stillHeld : (s.takeJob slot).sockfd slot = some fd := held
    unfold State.finish State.closeConn
    dsimp only
    rw [stillHeld]
    rfl
  rw [closed] at after
  have current := (after.matched ⟨fd, s.accepts fd⟩).mp owned
  exact absurd current.1 (Finset.notMem_erase fd _)

theorem forgetting_exposed (s : State) (label : Label) (tracked : Tracked s) (broken : ¬ WorkerKeepsOpen s label) :
    ∃ t, s.effect label = .ok t ∧ ¬ Corresponds t := by
  cases label with
  | finish slot outcome =>
      cases outcome with
      | closed =>
          unfold WorkerKeepsOpen at broken
          push Not at broken
          obtain ⟨fd, held, isOpen⟩ := broken
          exact ⟨_, rfl, forgotten_timer s slot fd tracked.corresponds held isOpen⟩
      | moreInput => exact absurd trivial broken
      | response => exact absurd trivial broken
  | wait batch => exact absurd trivial broken
  | handle answers => exact absurd trivial broken
  | tick cur => exact absurd trivial broken

theorem tracked_expiry (s : State) (label : Label) (tracked : Tracked s) : ExpiryExact s label := by
  cases label with
  | tick cur => exact expires_own cur s.timers s rfl tracked
  | wait batch => trivial
  | handle answers => trivial
  | finish slot outcome => trivial

theorem timers_correspond_iff (labels : List Label) :
    Always machine Corresponds State.start labels ∧ Along machine ExpiryExact State.start labels ↔
      Along machine WorkerKeepsOpen State.start labels := by
  apply always_and_along_iff machine WorkerKeepsOpen ExpiryExact Tracked Corresponds _ _ _ _ State.start labels start_tracked
  · exact fun s label t tracked keeps taken => tracked_step s t label tracked keeps taken
  · exact fun s label tracked _ broken => forgetting_exposed s label tracked broken
  · exact fun s tracked => tracked.corresponds
  · exact fun s label tracked _ _ => tracked_expiry s label tracked

def closedThenReused : List Label :=
  closedByWorker ++ [.wait [.listen], .handle { noAnswers with accepted := [(7, 200)] },
    .wait [.signals], .handle { noAnswers with signals := [.alarm] }]

theorem forgotten_timer_closes_another :
    ¬ Always machine Corresponds State.start closedByWorker ∧
      ¬ Along machine ExpiryExact State.start (closedThenReused ++ [.tick 300]) := by
  constructor
  · intro always
    have reached : ∃ t, replay machine State.start closedByWorker = some t ∧ t.owners = [⟨7, 1⟩] ∧ t.opened = ∅ :=
      ⟨_, rfl, rfl, rfl⟩
    obtain ⟨t, run, owners, opened⟩ := reached
    have corresponds := always_replay machine Corresponds State.start t closedByWorker run always
    have current := (corresponds.matched ⟨7, 1⟩).mp (by simp [owners])
    simp [State.Current, opened] at current
  · intro along
    have reached : ∃ t, replay machine State.start closedThenReused = some t ∧ t.timeout = true ∧
        t.timers = [⟨0, 300, 7, ⟨7, 1⟩⟩, ⟨1, 500, 7, ⟨7, 2⟩⟩] ∧ t.accepts 7 = 2 := ⟨_, rfl, rfl, rfl, rfl⟩
    obtain ⟨t, run, timeout, timers, accepts⟩ := reached
    have exact_expiry : ExpiresOwn 300 t.timers t := along_replay machine ExpiryExact State.start t closedThenReused
      (.tick 300) run timeout along
    rw [timers] at exact_expiry
    have current := (exact_expiry (by decide)).1.1.2
    simp [accepts] at current

end WzyServer.Server
