import WzyServer.Server.TimerExpiry
import WzyServer.Server.Batch

set_option autoImplicit false

namespace WzyServer.Server

open Run

-- The server with its clock, the SIGALRM that alarm(TIMESLOT) asked for, and the
-- bytes sig_handler left in the pipe. `active` (the time a client connected or was
-- last served) and `lastTick` are not in the source.
structure Clocked where
  server : State
  now : Int
  lastTick : Int
  active : Fd → Int
  armed : Bool
  pipe : List Signal

-- The handlers run between any two steps of the main thread.
inductive Beat where
  | main (label : Label)
  | alarm
  | term

-- What one recv takes from the pipe at most.
def signalBuffer : Nat := 1024

namespace Clocked

def start (now : Int) : Clocked := ⟨.start, now, now, fun _ => now, true, []⟩

-- sig_handler's send on the non-blocking end of the pipe.
def send (s : Clocked) (capacity : Nat) (signal : Signal) : Clocked :=
  if s.pipe.length < capacity then { s with pipe := s.pipe ++ [signal] } else s

def times (answers : Answers) : List Int := answers.accepted.map Prod.snd ++ [answers.cur]

def signalsReady (s : Clocked) (answers : Answers) : Event → Prop
  | .signals => answers.signals.length ≤ signalBuffer ∧ answers.signals <+: s.pipe
  | _ => True

def offers (s : Clocked) : Beat → Prop
  | .main (.wait batch) => s.server.offers (.wait batch) ∧ (.signals ∈ batch → s.pipe ≠ [])
  | .main (.handle answers) => s.server.offers (.handle answers) ∧ (s.now :: times answers).Pairwise (· ≤ ·) ∧
      ∀ event ∈ s.server.pending.head?, s.signalsReady answers event
  | .main (.tick cur) => s.server.offers (.tick cur) ∧ s.now ≤ cur
  | .main (.finish slot outcome) => s.server.offers (.finish slot outcome)
  | .alarm => s.armed = true
  | .term => True

def acceptTimes : List (Fd × Int) → Int → (Fd → Int) → Fd → Int
  | [], _, active => active
  | (connfd, cur) :: rest, userCount, active =>
      if (maxFd : Int) ≤ userCount then active else acceptTimes rest (userCount + 1) (set active connfd cur)

def clientTime (ready : Ready) (answers : Answers) (active : Fd → Int) : Fd → Int :=
  if !closing ready answers && (ready.input || ready.output) then set active ready.fd answers.cur else active

def heard (s : Clocked) (answers : Answers) : Event → Fd → Int
  | .listen => acceptTimes answers.accepted s.server.userCount s.active
  | .signals => s.active
  | .client ready => clientTime ready answers s.active

def served (s : Clocked) (answers : Answers) (server : State) : Clocked :=
  match s.server.pending with
  | [] => { s with server := server }
  | event :: _ => { s with
      server := server, now := answers.cur, active := s.heard answers event,
      pipe := if event = .signals then s.pipe.drop answers.signals.length else s.pipe }

-- timer_handler ends with alarm(TIMESLOT).
def moved (s : Clocked) (server : State) : Label → Clocked
  | .handle answers => s.served answers server
  | .tick cur => { s with server := server, now := cur, lastTick := cur, armed := true }
  | .wait _ | .finish _ _ => { s with server := server }

def effect (capacity : Nat) (s : Clocked) : Beat → Except Fault Clocked
  | .main label => do
      let server ← s.server.effect label
      return s.moved server label
  | .alarm => .ok ({ s with armed := false }.send capacity .alarm)
  | .term => .ok (s.send capacity .term)

end Clocked

def clockedMachine (capacity : Nat) : Machine Clocked Beat Fault where
  guard := Clocked.offers
  effect := Clocked.effect capacity

section Punctual

structure Punctual (s : State) (now last : Int) (active : Fd → Int) : Prop where
  wf : WellFormed s
  sorted : Sorted s.timers
  soon : ∀ timer ∈ s.timers, timer.expire ≤ now + 3 * timeslot
  own : ∀ fd ∈ s.opened, ∀ timer ∈ s.timers, (s.usersTimer fd).timer = some timer.id → timer.expire = active fd + 3 * timeslot
  recent : ∀ fd ∈ s.opened, last < active fd + 3 * timeslot
  past : last ≤ now

theorem punctual_shrinks (s t : State) (now later last : Int) (active : Fd → Int) (punctual : Punctual s now last active)
    (wf : WellFormed t) (timers : t.timers.Sublist s.timers) (users : t.usersTimer = s.usersTimer)
    (opened : t.opened ⊆ s.opened) (time : now ≤ later) : Punctual t later last active := by
  refine ⟨wf, punctual.sorted.sublist timers, ?_, ?_, ?_, Int.le_trans punctual.past time⟩
  · intro timer member
    have soon := punctual.soon timer (timers.subset member)
    omega
  · intro fd isOpen timer member
    rw [users]
    exact punctual.own fd (opened isOpen) timer (timers.subset member)
  · exact fun fd isOpen => punctual.recent fd (opened isOpen)

theorem punctual_elsewhere (s : State) (now last cur : Int) (active : Fd → Int) (fd : Fd) (punctual : Punctual s now last active)
    (closed : fd ∉ s.opened) : Punctual s now last (set active fd cur) := by
  have same : ∀ other ∈ s.opened, set active fd cur other = active other := by
    intro other isOpen
    exact set_elsewhere _ _ _ _ fun same => closed (same ▸ isOpen)
  refine ⟨punctual.wf, punctual.sorted, punctual.soon, ?_, ?_, punctual.past⟩
  · intro other isOpen timer member points
    rw [same other isOpen]
    exact punctual.own other isOpen timer member points
  · intro other isOpen
    rw [same other isOpen]
    exact punctual.recent other isOpen

theorem recent_set (opened : Finset Fd) (now last cur : Int) (active : Fd → Int) (fd : Fd) (past : last ≤ now) (time : now ≤ cur)
    (recent : ∀ other ∈ opened, other ≠ fd → last < active other + 3 * timeslot) (other : Fd) (isOpen : other ∈ opened) :
    last < set active fd cur other + 3 * timeslot := by
  by_cases same : other = fd
  · rw [same, set_here, timeslot]
    omega
  · rw [set_elsewhere _ _ _ _ same]
    exact recent other isOpen same

theorem link_member (s : State) (timer : Timer) (member : timer ∈ s.timers) : timer.link ∈ links s.timers :=
  List.mem_map_of_mem member

theorem refreshed_punctual (s : State) (now last cur : Int) (active : Fd → Int) (fd : Fd) (id : Nat)
    (punctual : Punctual s now last active) (time : now ≤ cur) (pointer : (s.usersTimer fd).timer = some id)
    (inside : id ∈ s.timers.map Timer.id) (wf : WellFormed { s with timers := refreshTimer id (cur + 3 * timeslot) s.timers }) :
    Punctual { s with timers := refreshTimer id (cur + 3 * timeslot) s.timers } cur last (set active fd cur) := by
  obtain ⟨front, timer, rear, whole, rfl⟩ := split_at s.timers id inside
  have ids : (s.timers.map Timer.id).Nodup := by
    rw [← link_id_eq]
    exact punctual.wf.ids
  rw [whole] at ids
  have old : timer ∈ s.timers := by simp [whole]
  have later : timer.expire ≤ cur + 3 * timeslot := by
    have soon := punctual.soon timer old
    omega
  have refreshed : refreshTimer timer.id (cur + 3 * timeslot) s.timers =
      front ++ addTimer { timer with expire := cur + 3 * timeslot } rear := by
    rw [whole]
    exact refresh_timer_split front rear timer _ ids
  have members : ∀ other ∈ refreshTimer timer.id (cur + 3 * timeslot) s.timers,
      other = { timer with expire := cur + 3 * timeslot } ∨ (other ∈ s.timers ∧ other.id ≠ timer.id) := by
    obtain ⟨frontApart, rearApart, _⟩ := ids_apart front rear timer ids
    intro other member
    rw [refreshed, List.mem_append, (add_timer_perm _ rear).mem_iff, List.mem_cons] at member
    rw [whole]
    rcases member with inFront | same | inRear
    · exact .inr ⟨List.mem_append_left _ inFront, frontApart other inFront⟩
    · exact .inl same
    · exact .inr ⟨List.mem_append_right _ (List.mem_cons_of_mem _ inRear), rearApart other inRear⟩
  constructor
  · exact wf
  · change Sorted (refreshTimer timer.id _ s.timers)
    rw [refreshed]
    refine refresh_timer_sorted front rear timer _ later ?_
    rw [← whole]
    exact punctual.sorted
  · intro other member
    rcases members other member with rfl | ⟨kept, _⟩
    · exact Int.le_refl _
    · have soon := punctual.soon other kept
      omega
  · intro other isOpen found member points
    rcases members found member with rfl | ⟨kept, different⟩
    · have mine := punctual.wf.own fd timer.link (link_member s timer old) pointer
      have theirs := punctual.wf.own other timer.link (link_member s timer old) points
      rw [← theirs, mine, set_here]
    · have apart : other ≠ fd := by
        intro same
        have points : (s.usersTimer other).timer = some found.id := points
        rw [same, pointer] at points
        exact different (Option.some.inj points).symm
      rw [set_elsewhere _ _ _ _ apart]
      exact punctual.own other isOpen found kept points
  · exact recent_set s.opened now last cur active fd punctual.past time fun other isOpen _ => punctual.recent other isOpen
  · exact Int.le_trans punctual.past time

theorem punctual_extend (s t : State) (now last cur : Int) (active : Fd → Int) (fd : Fd) (punctual : Punctual s now last active)
    (time : now ≤ cur) (ok : s.extendTimer fd cur = .ok t) : Punctual t cur last (set active fd cur) := by
  have wf := well_formed_extend s t punctual.wf fd cur ok
  cases pointer : (s.usersTimer fd).timer with
  | none =>
      have closed : fd ∉ s.opened := by
        intro isOpen
        obtain ⟨link, _, points⟩ := punctual.wf.linked fd isOpen
        rw [pointer] at points
        cases points
      simp only [State.extendTimer, pointer, Except.ok.injEq] at ok
      subst ok
      exact punctual_elsewhere s cur last cur active fd
        (punctual_shrinks s s now cur last active punctual wf (.refl _) rfl (Finset.Subset.refl _) time) closed
  | some id =>
      unfold State.extendTimer at ok
      rw [pointer] at ok
      obtain ⟨found, designated, rest⟩ := ok_of_bind _ _ _ ok
      obtain ⟨same, link, member, rfl⟩ := designated_ok s fd found designated
      cases rest
      refine refreshed_punctual s now last cur active fd link.id punctual time same ?_ wf
      rw [← link_id_eq]
      exact List.mem_map_of_mem member

theorem punctual_init (s : State) (now last cur : Int) (active : Fd → Int) (connfd : Fd) (punctual : Punctual s now last active)
    (time : now ≤ cur) : Punctual (s.initClient connfd cur) cur last (set active connfd cur) := by
  have perm := add_timer_perm ⟨s.nextTimer, cur + 3 * timeslot, connfd, ⟨connfd, s.accepts connfd + 1⟩⟩ s.timers
  have older : ∀ timer ∈ s.timers, timer.id < s.nextTimer := fun timer member => punctual.wf.fresh _ (link_member s timer member)
  refine ⟨well_formed_init s punctual.wf connfd cur, add_timer_sorted _ _ punctual.sorted, ?_, ?_, ?_,
    Int.le_trans punctual.past time⟩
  · intro timer member
    rcases List.mem_cons.mp (perm.mem_iff.mp member) with rfl | inside
    · exact Int.le_refl _
    · have soon := punctual.soon timer inside
      omega
  · intro fd isOpen timer member points
    rw [init_users_timer] at points
    by_cases same : fd = connfd
    · rw [if_pos same] at points
      rw [same, set_here]
      rcases List.mem_cons.mp (perm.mem_iff.mp member) with rfl | inside
      · rfl
      · have below := older timer inside
        have equal : s.nextTimer = timer.id := Option.some.inj points
        omega
    · rw [if_neg same] at points
      rw [set_elsewhere _ _ _ _ same]
      rcases List.mem_cons.mp (perm.mem_iff.mp member) with rfl | inside
      · exact absurd (punctual.wf.bounded fd _ points) (Nat.lt_irrefl _)
      · exact punctual.own fd (Finset.mem_of_mem_insert_of_ne isOpen same) timer inside points
  · apply recent_set _ now last cur active connfd punctual.past time
    exact fun fd isOpen different => punctual.recent fd (Finset.mem_of_mem_insert_of_ne isOpen different)

theorem punctual_accept (accepted : List (Fd × Int)) (s t : State) (now last cur : Int) (active : Fd → Int)
    (punctual : Punctual s now last active) (times : (now :: (accepted.map Prod.snd ++ [cur])).Pairwise (· ≤ ·))
    (ok : s.acceptClients accepted = .ok t) : Punctual t cur last (Clocked.acceptTimes accepted s.userCount active) := by
  induction accepted generalizing s now active with
  | nil =>
      cases ok
      have time : now ≤ cur := (List.pairwise_cons.mp times).1 cur (by simp)
      exact punctual_shrinks _ _ now cur last active punctual punctual.wf (.refl _) rfl (Finset.Subset.refl _) time
  | cons connection rest ih =>
      obtain ⟨connfd, when⟩ := connection
      obtain ⟨least, later⟩ := List.pairwise_cons.mp times
      unfold State.acceptClients at ok
      unfold Clocked.acceptTimes
      split at ok
      · rename_i full
        cases ok
        rw [if_pos full]
        exact punctual_shrinks _ _ now cur last active punctual punctual.wf (.refl _) rfl (Finset.Subset.refl _)
          (least cur (by simp))
      · rename_i room
        rw [if_neg room]
        split at ok
        · cases ok
        · exact ih _ when _ (punctual_init s now last when active connfd punctual (least when (by simp))) later ok

theorem tick_shape (s : State) (wf : WellFormed s) (cur : Int) : WellFormed (State.tickFrom cur s.timers s) ∧
    (State.tickFrom cur s.timers s).timers.Sublist s.timers ∧ (State.tickFrom cur s.timers s).usersTimer = s.usersTimer ∧
    (State.tickFrom cur s.timers s).opened ⊆ s.opened := by
  apply tick_induction (fun t => WellFormed t ∧ t.timers.Sublist s.timers ∧ t.usersTimer = s.usersTimer ∧ t.opened ⊆ s.opened)
    cur _ s.timers s rfl ⟨wf, .refl _, rfl, Finset.Subset.refl _⟩
  rintro t timer rest ⟨inside, timers, users, opened⟩ here _
  refine ⟨well_formed_shrinks t _ inside (shrinks_expire t inside timer rest here), ?_, users, ?_⟩
  · rw [here] at timers
    exact (List.sublist_cons_self timer rest).trans timers
  · exact (Finset.erase_subset _ _).trans opened

-- The head of a list in order is due first, so tick stops at the first that is not.
theorem tick_leaves (cur : Int) (timers : TimerList) (s : State) (whole : s.timers = timers) (wf : WellFormed s)
    (sorted : Sorted timers) (fd : Fd) : fd ∈ (State.tickFrom cur timers s).opened ↔
      fd ∈ s.opened ∧ ∀ timer ∈ timers, timer.userData = fd → cur < timer.expire := by
  induction timers generalizing s with
  | nil => simp [State.tickFrom]
  | cons timer rest ih =>
      obtain ⟨least, restSorted⟩ := List.pairwise_cons.mp sorted
      have closes : (s.usersTimer timer.userData).sockfd = timer.userData :=
        (wf.userData timer.link (by simp [links, whole])).2
      unfold State.tickFrom
      by_cases early : cur < timer.expire
      · rw [if_pos early]
        refine ⟨fun isOpen => ⟨isOpen, ?_⟩, And.left⟩
        intro other member _
        rcases List.mem_cons.mp member with rfl | later
        · exact early
        · exact Int.lt_of_lt_of_le early (least other later)
      · rw [if_neg early, ih _ rfl (well_formed_shrinks s _ wf (shrinks_expire s wf timer rest whole)) restSorted]
        have erased : (s.expireHead timer rest).opened = s.opened.erase timer.userData := by
          simp only [State.expireHead, State.cbFunc, State.removefd, closes]
        rw [erased, Finset.mem_erase, List.forall_mem_cons]
        constructor
        · intro kept
          exact ⟨kept.1.2, fun same => absurd same.symm kept.1.1, kept.2⟩
        · intro kept
          exact ⟨⟨fun same => early (kept.2.1 same.symm), kept.1⟩, kept.2.2⟩

theorem punctual_tick (s : State) (now last cur : Int) (active : Fd → Int) (punctual : Punctual s now last active)
    (time : now ≤ cur) : Punctual (s.timerHandler cur) cur cur active := by
  obtain ⟨_, timers, users, opened⟩ := tick_shape s punctual.wf cur
  have kept := punctual_shrinks s (s.timerHandler cur) now cur last active punctual (well_formed_tick s punctual.wf cur) timers users
    opened time
  refine ⟨kept.wf, kept.sorted, kept.soon, kept.own, ?_, Int.le_refl _⟩
  intro fd isOpen
  obtain ⟨before, left⟩ := (tick_leaves cur s.timers s rfl punctual.wf punctual.sorted fd).mp isOpen
  obtain ⟨link, member, points⟩ := punctual.wf.linked fd before
  obtain ⟨timer, inside, rfl⟩ := List.mem_map.mp member
  rw [← punctual.own fd before timer inside points]
  exact left timer inside (punctual.wf.own fd timer.link member points)

theorem punctual_drop (s t : State) (now last cur : Int) (active : Fd → Int) (fd : Fd) (punctual : Punctual s now last active)
    (time : now ≤ cur) (ok : s.dropClient fd = .ok t) : Punctual t cur last active := by
  have wf := well_formed_drop s t punctual.wf fd ok
  obtain ⟨link, _, _, rfl⟩ := drop_client_ok s t fd ok
  exact punctual_shrinks s _ now cur last active punctual wf List.filter_sublist rfl (Finset.erase_subset _ _) time

theorem punctual_client (s t : State) (now last : Int) (active : Fd → Int) (ready : Ready) (answers : Answers)
    (punctual : Punctual s now last active) (time : now ≤ answers.cur) (ok : s.handleClient ready answers = .ok t) :
    Punctual t answers.cur last (Clocked.clientTime ready answers active) := by
  unfold Clocked.clientTime
  by_cases closes : closing ready answers = true
  · rw [handle_client_closing s ready answers closes] at ok
    rw [if_neg (by simp [closes])]
    exact punctual_drop s t now last answers.cur active ready.fd punctual time ok
  · have noHangup : ¬ ready.hangup = true := fun hangup => closes (by simp [closing, hangup])
    unfold State.handleClient at ok
    rw [if_neg noHangup] at ok
    by_cases input : ready.input = true
    · have read : answers.read = true := by simpa [closing, noHangup, input] using closes
      rw [if_pos input, if_pos read] at ok
      rw [if_pos (by simp [closes, input])]
      have queued := punctual_shrinks s _ now now last active punctual (well_formed_append s punctual.wf ready.fd answers.queued)
        (by unfold State.appendJob; split <;> exact .refl _) (append_same s _ _).users
        (append_same s _ _).opened.subset (Int.le_refl _)
      exact punctual_extend _ t now last answers.cur active ready.fd queued time ok
    · rw [if_neg input] at ok
      by_cases output : ready.output = true
      · rw [if_pos output] at ok
        rw [if_pos (by simp [closes, output])]
        cases written : answers.write with
        | none => exact absurd (by simp [closing, noHangup, input, output, written]) closes
        | some interest =>
            rw [written] at ok
            have kept := modfd_same s (s.sockfd ready.fd) interest
            have timers := modfd_timers s (s.sockfd ready.fd) interest
            have watched := punctual_shrinks s _ now now last active punctual
              (well_formed_modfd s punctual.wf (s.sockfd ready.fd) interest) (by rw [timers]) kept.users kept.opened.subset
              (Int.le_refl _)
            exact punctual_extend _ t now last answers.cur active ready.fd watched time ok
      · rw [if_neg output] at ok
        cases ok
        rw [if_neg (by simp [input, output])]
        exact punctual_shrinks s _ now answers.cur last active punctual punctual.wf (.refl _) rfl (Finset.Subset.refl _) time

end Punctual

section Steps

theorem main_moved (capacity : Nat) (s t : Clocked) (label : Label) (taken : Takes (clockedMachine capacity) s (.main label) t) :
    ∃ server, Takes machine s.server label server ∧ t = s.moved server label := by
  obtain ⟨offered, effect⟩ := taken
  obtain ⟨server, stepped, rest⟩ := ok_of_bind _ _ _ effect
  refine ⟨server, ⟨?_, stepped⟩, (Except.ok.inj rest).symm⟩
  cases label with
  | wait batch => exact offered.1
  | handle answers => exact offered.1
  | tick cur => exact offered.1
  | finish slot outcome => exact offered

def Clocked.Keeping (s : Clocked) : Prop := Punctual s.server s.now s.lastTick s.active

theorem send_keeping (s : Clocked) (capacity : Nat) (signal : Signal) (armed : Bool) (keeping : s.Keeping) :
    ({ s with armed := armed }.send capacity signal).Keeping := by
  unfold Clocked.send
  split <;> exact keeping

theorem keeping_wait (s : Clocked) (batch : List Event) (server : State) (keeping : s.Keeping)
    (taken : Takes machine s.server (.wait batch) server) : Punctual server s.now s.lastTick s.active := by
  have wf := well_formed_step s.server server _ keeping.wf taken
  cases taken.2
  have same := disarm_same batch s.server
  refine punctual_shrinks s.server _ s.now s.now s.lastTick s.active keeping wf ?_ same.users same.opened.subset (Int.le_refl _)
  rw [State.withPending, disarm_timers]

theorem keeping_finish (s : Clocked) (slot : Fd) (outcome : Finish) (keeping : s.Keeping) :
    Punctual (s.server.finish slot outcome) s.now s.lastTick s.active := by
  have wf := well_formed_finish s.server keeping.wf slot outcome
  obtain ⟨timers, users, _⟩ := finish_users s.server slot outcome
  have opened : (s.server.finish slot outcome).opened ⊆ s.server.opened := by
    cases outcome with
    | moreInput => exact (modfd_same (s.server.takeJob slot) _ .input).opened.subset
    | response => exact (modfd_same (s.server.takeJob slot) _ .output).opened.subset
    | closed =>
        dsimp only [State.finish, State.closeConn]
        split
        · exact Finset.Subset.refl _
        · exact Finset.erase_subset _ _
  exact punctual_shrinks s.server _ s.now s.now s.lastTick s.active keeping wf (by rw [timers]) users opened (Int.le_refl _)

theorem keeping_handle (s : Clocked) (answers : Answers) (server : State) (keeping : s.Keeping)
    (times : (s.now :: Clocked.times answers).Pairwise (· ≤ ·)) (taken : Takes machine s.server (.handle answers) server) :
    (s.served answers server).Keeping := by
  obtain ⟨event, rest, pending, ok⟩ := handle_effect s.server server answers taken
  have time : s.now ≤ answers.cur := (List.pairwise_cons.mp times).1 answers.cur (by simp [Clocked.times])
  have handled : Punctual (s.server.withPending rest) s.now s.lastTick s.active :=
    punctual_shrinks s.server _ s.now s.now s.lastTick s.active keeping (well_formed_loop s.server keeping.wf _ rest _ _) (.refl _)
      rfl (Finset.Subset.refl _) (Int.le_refl _)
  unfold Clocked.served
  rw [pending]
  cases event with
  | listen => exact punctual_accept answers.accepted (s.server.withPending rest) server s.now s.lastTick answers.cur s.active handled times ok
  | signals =>
      cases ok
      exact punctual_shrinks _ _ s.now answers.cur s.lastTick s.active handled (well_formed_loop _ handled.wf _ _ _ _) (.refl _) rfl
        (Finset.Subset.refl _) time
  | client ready => exact punctual_client _ server s.now s.lastTick s.active ready answers handled time ok

theorem keeping_step (capacity : Nat) (s t : Clocked) (beat : Beat) (keeping : s.Keeping)
    (taken : Takes (clockedMachine capacity) s beat t) : t.Keeping := by
  cases beat with
  | alarm =>
      cases taken.2
      exact send_keeping s capacity .alarm false keeping
  | term =>
      cases taken.2
      exact send_keeping s capacity .term s.armed keeping
  | main label =>
      obtain ⟨server, stepped, rfl⟩ := main_moved capacity s t label taken
      cases label with
      | wait batch => exact keeping_wait s batch server keeping stepped
      | handle answers => exact keeping_handle s answers server keeping taken.1.2.1 stepped
      | finish slot outcome =>
          cases stepped.2
          exact keeping_finish s slot outcome keeping
      | tick cur =>
          cases stepped.2
          exact punctual_tick s.server s.now s.lastTick cur s.active keeping taken.1.2

theorem start_keeping (now : Int) : (Clocked.start now).Keeping :=
  ⟨start_well_formed, List.Pairwise.nil, by simp [Clocked.start, State.start], by simp [Clocked.start, State.start],
    by simp [Clocked.start, State.start], Int.le_refl _⟩

def ClosesIdle (s : Clocked) : Beat → Prop
  | .main (.tick cur) => ∀ fd, fd ∈ (s.server.timerHandler cur).opened ↔ fd ∈ s.server.opened ∧
      cur < s.active fd + 3 * timeslot ∧ ∀ timer ∈ s.server.timers, timer.userData = fd →
        (s.server.usersTimer fd).timer ≠ some timer.id → cur < timer.expire
  | _ => True

theorem keeping_closes_idle (s : Clocked) (cur : Int) (keeping : s.Keeping) : ClosesIdle s (.main (.tick cur)) := by
  intro fd
  have opened : fd ∈ (s.server.timerHandler cur).opened ↔ _ :=
    tick_leaves cur s.server.timers s.server rfl keeping.wf keeping.sorted fd
  rw [opened]
  constructor
  · rintro ⟨isOpen, left⟩
    refine ⟨isOpen, ?_, fun timer member here _ => left timer member here⟩
    obtain ⟨link, member, points⟩ := keeping.wf.linked fd isOpen
    obtain ⟨timer, inside, rfl⟩ := List.mem_map.mp member
    rw [← keeping.own fd isOpen timer inside points]
    exact left timer inside (keeping.wf.own fd timer.link member points)
  · rintro ⟨isOpen, served, forgotten⟩
    refine ⟨isOpen, fun timer member here => ?_⟩
    by_cases points : (s.server.usersTimer fd).timer = some timer.id
    · rw [keeping.own fd isOpen timer member points]
      exact served
    · exact forgotten timer member here points

theorem ticks_close_idle (capacity : Nat) (now : Int) (beats : List Beat) :
    Along (clockedMachine capacity) ClosesIdle (.start now) beats := by
  apply along_of_invariant (clockedMachine capacity) ClosesIdle Clocked.Keeping _ _ (.start now) beats (start_keeping now)
  · exact fun s beat t keeping taken => keeping_step capacity s t beat keeping taken
  · intro s beat keeping _
    cases beat with
    | alarm => trivial
    | term => trivial
    | main label =>
        cases label with
        | tick cur => exact keeping_closes_idle s cur keeping
        | wait batch => trivial
        | handle answers => trivial
        | finish slot outcome => trivial

end Steps

end WzyServer.Server
