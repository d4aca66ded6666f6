import WzyServer.Server.WellFormed

set_option autoImplicit false

namespace WzyServer.Server

open Run

def State.Linked (s : State) (fd : Fd) : Prop := ∃ link ∈ links s.timers, (s.usersTimer fd).timer = some link.id

def UsesLinked (s : State) : Label → Prop
  | .handle _ => ∀ ready rest, s.pending = .client ready :: rest →
      ready.hangup = true ∨ ready.input = true ∨ ready.output = true → s.Linked ready.fd
  | _ => True

def expired (cur : Int) (timers : TimerList) : TimerList := timers.takeWhile fun timer => timer.expire ≤ cur

def TickSparesBatch (s : State) : Label → Prop
  | .tick cur => ∀ ready, .client ready ∈ s.pending → ∀ timer ∈ expired cur s.timers,
      (s.usersTimer ready.fd).timer ≠ some timer.id
  | _ => True

structure BatchLinked (s : State) : Prop where
  wf : WellFormed s
  distinct : (s.pending.map Event.key).Nodup
  pending : ∀ ready, .client ready ∈ s.pending → s.Linked ready.fd

theorem linked_same (s t : State) (fd : Fd) (timers : (links t.timers).Perm (links s.timers))
    (users : t.usersTimer = s.usersTimer) (linked : s.Linked fd) : t.Linked fd := by
  obtain ⟨link, member, pointer⟩ := linked
  exact ⟨link, timers.mem_iff.mpr member, by rwa [users]⟩

theorem linked_of_same (s t : State) (fd : Fd) (same : SameClients s t) (linked : s.Linked fd) : t.Linked fd :=
  linked_same s t fd same.timers same.users linked

theorem linked_init (s : State) (connfd fd : Fd) (cur : Int) (linked : s.Linked fd) : (s.initClient connfd cur).Linked fd := by
  obtain ⟨link, member, pointer⟩ := linked
  have perm := init_links s connfd cur
  unfold State.Linked
  rw [init_users_timer]
  split
  · exact ⟨s.newLink connfd, perm.mem_iff.mpr (List.mem_cons_self ..), rfl⟩
  · exact ⟨link, perm.mem_iff.mpr (List.mem_cons_of_mem _ member), pointer⟩

theorem linked_accept (accepted : List (Fd × Int)) (s t : State) (fd : Fd) (linked : s.Linked fd)
    (ok : s.acceptClients accepted = .ok t) : t.Linked fd :=
  accept_invariant (fun s => s.Linked fd) (fun s connfd cur here => linked_init s connfd fd cur here) accepted s t linked ok

theorem linked_drop (s t : State) (wf : WellFormed s) (fd other : Fd) (different : other ≠ fd) (linked : s.Linked other)
    (ok : s.dropClient fd = .ok t) : t.Linked other := by
  obtain ⟨link, _, pointer, rfl⟩ := drop_client_ok s t fd ok
  obtain ⟨found, member, points⟩ := linked
  refine ⟨found, ?_, points⟩
  rw [del_timer_links]
  refine List.mem_filter.mpr ⟨member, ?_⟩
  simp only [ne_eq, decide_eq_true_eq]
  intro same
  have here := wf.own fd found member (by rw [same]; exact pointer)
  have there := wf.own other found member points
  exact different (there.symm.trans here)

theorem tick_timers (cur : Int) (timers : TimerList) (s : State) (whole : s.timers = timers) :
    (State.tickFrom cur timers s).timers = timers.dropWhile (fun timer => timer.expire ≤ cur) ∧
      (State.tickFrom cur timers s).usersTimer = s.usersTimer ∧ (State.tickFrom cur timers s).pending = s.pending := by
  induction timers generalizing s with
  | nil => exact ⟨whole, rfl, rfl⟩
  | cons timer rest ih =>
      unfold State.tickFrom
      by_cases early : cur < timer.expire
      · rw [if_pos early, List.dropWhile_cons_of_neg (by simpa using early)]
        exact ⟨whole, rfl, rfl⟩
      · rw [if_neg early, List.dropWhile_cons_of_pos (by simpa using early)]
        exact ih _ rfl

theorem linked_tick (s : State) (cur : Int) (fd : Fd) (linked : s.Linked fd)
    (spared : ∀ timer ∈ expired cur s.timers, (s.usersTimer fd).timer ≠ some timer.id) : (s.timerHandler cur).Linked fd := by
  obtain ⟨link, member, pointer⟩ := linked
  obtain ⟨timer, inside, rfl⟩ := List.mem_map.mp member
  obtain ⟨timers, users, _⟩ := tick_timers cur s.timers s rfl
  refine ⟨timer.link, ?_, ?_⟩
  · apply List.mem_map_of_mem
    change timer ∈ (State.tickFrom cur s.timers s).timers
    rw [timers]
    rw [← List.takeWhile_append_dropWhile (p := fun timer => decide (timer.expire ≤ cur)) (l := s.timers)] at inside
    rcases List.mem_append.mp inside with due | later
    · exact absurd pointer (spared timer due)
    · exact later
  · change ((State.tickFrom cur s.timers s).usersTimer fd).timer = _
    rw [users]
    exact pointer

theorem linked_reported (s : State) (wf : WellFormed s) (ready : Ready) (reported : s.reports (.client ready) = true) :
    s.Linked ready.fd := by
  apply wf.linked
  apply wf.armed
  intro nothing
  simp [State.reports, nothing] at reported

theorem linked_handle (s t : State) (wf : WellFormed s) (event : Event) (answers : Answers) (fd : Fd)
    (different : event.key ≠ (some fd, false)) (linked : s.Linked fd) (ok : s.handle event answers = .ok t) :
    t.Linked fd := by
  cases event with
  | listen => exact linked_accept answers.accepted s t fd linked ok
  | signals =>
      cases ok
      exact linked
  | client ready =>
      rw [State.handle] at ok
      by_cases closes : closing ready answers = true
      · rw [handle_client_closing s ready answers closes] at ok
        have other : fd ≠ ready.fd := fun same => different (by rw [same]; rfl)
        exact linked_drop s t wf ready.fd fd other linked ok
      · exact linked_of_same s t fd (open_branch_same s t ready answers closes ok) linked

theorem accept_pending (accepted : List (Fd × Int)) (s t : State) (ok : s.acceptClients accepted = .ok t) :
    t.pending = s.pending :=
  accept_invariant (fun after => after.pending = s.pending) (fun _ _ _ same => same) accepted s t rfl ok

theorem handle_pending (s t : State) (event : Event) (answers : Answers) (ok : s.handle event answers = .ok t) :
    t.pending = s.pending := by
  cases event with
  | listen => exact accept_pending answers.accepted s t ok
  | signals =>
      cases ok
      rfl
  | client ready =>
      rw [State.handle] at ok
      by_cases closes : closing ready answers = true
      · rw [handle_client_closing s ready answers closes] at ok
        obtain ⟨link, _, _, rfl⟩ := drop_client_ok s t ready.fd ok
        rfl
      · exact (open_branch_same s t ready answers closes ok).pending

theorem finish_users (s : State) (slot : Fd) (outcome : Finish) : (s.finish slot outcome).timers = s.timers ∧
    (s.finish slot outcome).usersTimer = s.usersTimer ∧ (s.finish slot outcome).pending = s.pending := by
  have rearmed : ∀ fd interest, ((s.takeJob slot).modfd fd interest).timers = s.timers ∧
      ((s.takeJob slot).modfd fd interest).usersTimer = s.usersTimer ∧
      ((s.takeJob slot).modfd fd interest).pending = s.pending := by
    intro fd interest
    unfold State.modfd
    split
    · exact ⟨rfl, rfl, rfl⟩
    · split <;> exact ⟨rfl, rfl, rfl⟩
  cases outcome with
  | moreInput => exact rearmed _ _
  | response => exact rearmed _ _
  | closed =>
      unfold State.finish State.closeConn
      dsimp only
      split <;> exact ⟨rfl, rfl, rfl⟩

theorem batch_linked_step (s t : State) (label : Label) (inv : BatchLinked s) (spares : TickSparesBatch s label)
    (taken : Takes machine s label t) : BatchLinked t := by
  obtain ⟨wf, distinct, pending⟩ := inv
  have wfNext := well_formed_step s t label wf taken
  cases label with
  | wait batch =>
      obtain ⟨_, _, _, once, reported⟩ := taken.1
      cases taken.2
      refine ⟨wfNext, once, fun ready member => ?_⟩
      have linked := linked_reported s wf ready (reported _ member)
      obtain ⟨timers, users, _, _, _⟩ := disarm_same batch s
      exact linked_same s _ ready.fd timers users linked
  | handle answers =>
      obtain ⟨event, rest, whole, ok⟩ := handle_effect s t answers taken
      have samePending : t.pending = rest := handle_pending _ t event answers ok
      rw [whole, List.map_cons, List.nodup_cons] at distinct
      refine ⟨wfNext, by rw [samePending]; exact distinct.2, fun ready member => ?_⟩
      rw [samePending] at member
      have linked := pending ready (by rw [whole]; exact List.mem_cons_of_mem _ member)
      have different : event.key ≠ (some ready.fd, false) := fun same => distinct.1 (same ▸ List.mem_map_of_mem member)
      have wfHere : WellFormed (s.withPending rest) := well_formed_loop s wf _ rest _ _
      exact linked_handle _ t wfHere event answers ready.fd different linked ok
  | tick cur =>
      cases taken.2
      obtain ⟨_, _, samePending⟩ := tick_timers cur s.timers s rfl
      change (s.timerHandler cur).pending = s.pending at samePending
      refine ⟨wfNext, by rw [samePending]; exact distinct, fun ready member => ?_⟩
      rw [samePending] at member
      exact linked_tick s cur ready.fd (pending ready member) (spares ready member)
  | finish slot outcome =>
      cases taken.2
      obtain ⟨timers, users, samePending⟩ := finish_users s slot outcome
      refine ⟨wfNext, by rw [samePending]; exact distinct, fun ready member => ?_⟩
      rw [samePending] at member
      exact linked_same s _ ready.fd (by rw [timers]) users (pending ready member)

theorem uses_linked_of_batch_linked (s : State) (label : Label) (inv : BatchLinked s) : UsesLinked s label := by
  cases label with
  | handle answers =>
      intro ready rest pending _
      exact inv.pending ready (by simp [pending])
  | wait batch => trivial
  | tick cur => trivial
  | finish slot outcome => trivial

theorem start_batch_linked : BatchLinked State.start :=
  ⟨start_well_formed, List.nodup_nil, by simp [State.start]⟩

theorem batch_uses_linked (labels : List Label) (spares : Along machine TickSparesBatch State.start labels) :
    Along machine UsesLinked State.start labels :=
  along_mono machine TickSparesBatch UsesLinked BatchLinked
    (fun s label t inv sparesHere taken => batch_linked_step s t label inv sparesHere taken)
    (fun s label inv _ _ => uses_linked_of_batch_linked s label inv) State.start labels start_batch_linked spares

def hangupBesideAlarm : List Label :=
  [.wait [.listen], .handle { noAnswers with accepted := [(7, 0), (8, 100)] }, .wait [.signals, .client ⟨8, true, false, false⟩],
    .handle { noAnswers with signals := [.alarm] }, .tick 300, .handle noAnswers]

theorem batch_uses_linked_beside_alarm : Along machine UsesLinked State.start hangupBesideAlarm := by
  apply batch_uses_linked
  refine along_cons _ _ _ _ _ _ (fun _ => trivial) rfl ?_
  refine along_cons _ _ _ _ _ _ (fun _ => trivial) rfl ?_
  refine along_cons _ _ _ _ _ _ (fun _ => trivial) rfl ?_
  refine along_cons _ _ _ _ _ _ (fun _ => trivial) rfl ?_
  refine along_cons _ _ _ _ _ _ (fun _ => ?_) rfl ?_
  · intro ready member timer due
    have client : ready = ⟨8, true, false, false⟩ := by
      have inside : Event.client ready ∈ [Event.client ⟨8, true, false, false⟩] := member
      simpa using inside
    have first : timer.id = 0 := by
      have inside : timer ∈ [(⟨0, 300, 7, ⟨7, 1⟩⟩ : Timer)] := due
      simpa using congrArg Timer.id (List.mem_singleton.mp inside)
    rw [client, first]
    change some 1 ≠ some 0
    decide
  · exact along_cons _ _ _ _ _ _ (fun _ => trivial) rfl trivial

def hangupBehindAlarm : List Label :=
  [.wait [.listen], .handle { noAnswers with accepted := [(7, 0)] }, .wait [.signals, .client ⟨7, true, false, false⟩],
    .handle { noAnswers with signals := [.alarm] }, .tick 300]

theorem dead_timer_followed : ¬ Along machine UsesLinked State.start (hangupBehindAlarm ++ [.handle noAnswers]) := by
  intro along
  have reached : ∃ t, replay machine State.start hangupBehindAlarm = some t ∧ t.timeout = false ∧
      t.pending = [.client ⟨7, true, false, false⟩] ∧ t.timers = [] := ⟨_, rfl, rfl, rfl, rfl⟩
  obtain ⟨t, run, timeout, pending, timers⟩ := reached
  have offered : machine.guard t (.handle noAnswers) := ⟨by simp [pending], timeout, List.nodup_nil, by simp [noAnswers]⟩
  obtain ⟨link, member, _⟩ := along_replay machine UsesLinked State.start t hangupBehindAlarm _ run offered along
    ⟨7, true, false, false⟩ [] pending (.inl rfl)
  simp [links, timers] at member

end WzyServer.Server
