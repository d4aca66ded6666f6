import WzyServer.Server.WellFormed

set_option autoImplicit false

namespace WzyServer.Server

open Run

def Counted (s : State) : Prop := s.userCount = s.opened.card

def State.drift (s : State) : Int := s.userCount - s.opened.card

theorem counted_iff_drift (s : State) : Counted s ↔ s.drift = 0 := by
  unfold Counted State.drift
  omega

def ExpiresOpen (cur : Int) : TimerList → State → Prop
  | [], _ => True
  | timer :: rest, s => timer.expire ≤ cur → (s.usersTimer timer.userData).sockfd ∈ s.opened ∧
      ExpiresOpen cur rest (s.expireHead timer rest)

def ClosesOpen (s : State) : Label → Prop
  | .wait _ => True
  | .handle answers => ∀ ready rest id, s.pending = .client ready :: rest → closing ready answers = true →
      s.designated ready.fd = .ok id → (s.usersTimer ready.fd).sockfd ∈ s.opened
  | .tick cur => ExpiresOpen cur s.timers s
  | .finish slot .closed => ∀ fd, s.sockfd slot = some fd → fd ∈ s.opened
  | .finish _ _ => True

theorem erase_drift (s : State) (fd : Fd) :
    (s.userCount - 1 - (s.opened.erase fd).card : Int) = if fd ∈ s.opened then s.drift else s.drift - 1 := by
  unfold State.drift
  split
  · rename_i isOpen
    have smaller := Finset.card_erase_add_one isOpen
    omega
  · rename_i notOpen
    rw [Finset.erase_eq_of_notMem notOpen]
    omega

theorem cb_func_drift (s : State) (userData : Fd) : (s.cbFunc userData).drift =
    if (s.usersTimer userData).sockfd ∈ s.opened then s.drift else s.drift - 1 :=
  erase_drift s _

theorem modfd_drift (s : State) (fd : Option Fd) (interest : Interest) : (s.modfd fd interest).drift = s.drift := by
  unfold State.modfd
  split
  · rfl
  · split <;> rfl

theorem append_drift (s : State) (slot : Fd) (room : Bool) : (s.appendJob slot room).drift = s.drift := by
  unfold State.appendJob
  split <;> rfl

theorem close_conn_drift (s : State) (slot : Fd) : (s.closeConn slot).drift ≤ s.drift ∧
    ((s.closeConn slot).drift = s.drift ↔ ∀ fd, s.sockfd slot = some fd → fd ∈ s.opened) := by
  unfold State.closeConn
  cases held : s.sockfd slot with
  | none => simp
  | some fd =>
      have closed : State.drift { s.removefd fd with sockfd := set s.sockfd slot none, userCount := s.userCount - 1 } = _ :=
        erase_drift s fd
      simp only [closed, Option.some.injEq, forall_eq']
      by_cases isOpen : fd ∈ s.opened
      · simp [isOpen]
      · simp only [isOpen, if_false, iff_false]
        omega

theorem disarm_drift (batch : List Event) (s : State) : (s.disarm batch).drift = s.drift :=
  disarm_keeps State.drift (fun _ _ => rfl) batch s

theorem extend_drift (s t : State) (fd : Fd) (cur : Int) (ok : s.extendTimer fd cur = .ok t) : t.drift = s.drift := by
  rcases extend_timer_ok s t fd cur ok with rfl | ⟨id, rfl⟩
  · rfl
  · rfl

theorem drop_drift (s t : State) (fd : Fd) (ok : s.dropClient fd = .ok t) :
    t.drift = if (s.usersTimer fd).sockfd ∈ s.opened then s.drift else s.drift - 1 := by
  obtain ⟨link, _, _, rfl⟩ := drop_client_ok s t fd ok
  exact cb_func_drift s fd

theorem init_drift (s : State) (connfd : Fd) (cur : Int) (new : connfd ∉ s.opened) : (s.initClient connfd cur).drift = s.drift := by
  simp only [State.drift, State.initClient, Finset.card_insert_of_notMem new]
  omega

theorem accept_drift (accepted : List (Fd × Int)) (s t : State) (distinct : (accepted.map Prod.fst).Nodup)
    (closed : ∀ fd ∈ accepted.map Prod.fst, fd ∉ s.opened) (ok : s.acceptClients accepted = .ok t) :
    t.drift = s.drift :=
  accept_new_invariant (fun after => after.drift = s.drift)
    (fun before connfd cur new same => (init_drift before connfd cur new).trans same) accepted s t distinct closed rfl ok

theorem tick_drift (cur : Int) (timers : TimerList) (s : State) :
    (State.tickFrom cur timers s).drift ≤ s.drift ∧
      ((State.tickFrom cur timers s).drift = s.drift ↔ ExpiresOpen cur timers s) := by
  induction timers generalizing s with
  | nil => exact ⟨Int.le_refl _, fun _ => trivial, fun _ => rfl⟩
  | cons timer rest ih =>
      unfold State.tickFrom ExpiresOpen
      by_cases early : cur < timer.expire
      · simp only [if_pos early]
        exact ⟨Int.le_refl _, fun _ due => absurd due (by omega), fun _ => trivial⟩
      · simp only [if_neg early, show timer.expire ≤ cur by omega, true_imp_iff]
        obtain ⟨bound, exact_iff⟩ := ih (s.expireHead timer rest)
        have closed : (s.expireHead timer rest).drift = _ := cb_func_drift s timer.userData
        by_cases isOpen : (s.usersTimer timer.userData).sockfd ∈ s.opened
        · rw [if_pos isOpen] at closed
          rw [closed] at bound exact_iff
          exact ⟨bound, by simpa only [isOpen, true_and] using exact_iff⟩
        · rw [if_neg isOpen] at closed
          exact ⟨by omega, fun same => by omega, fun both => absurd both.1 isOpen⟩

theorem client_drift (s t : State) (ready : Ready) (answers : Answers) (ok : s.handleClient ready answers = .ok t) :
    t.drift ≤ s.drift ∧
      (t.drift = s.drift ↔ (closing ready answers = true → (s.usersTimer ready.fd).sockfd ∈ s.opened)) := by
  by_cases closes : closing ready answers = true
  · rw [handle_client_closing s ready answers closes] at ok
    rw [drop_drift s t ready.fd ok]
    by_cases isOpen : (s.usersTimer ready.fd).sockfd ∈ s.opened
    · simp [isOpen]
    · simp only [isOpen, closes, if_false]
      exact ⟨by omega, fun same => by omega, fun miss => (miss trivial).elim⟩
  · have same : t.drift = s.drift := by
      rcases handle_client_open s t ready answers closes ok with rfl | ⟨room, extended⟩ | ⟨interest, extended⟩
      · rfl
      · rw [extend_drift _ t _ _ extended, append_drift]
      · rw [extend_drift _ t _ _ extended, modfd_drift]
    simp [same, closes]

theorem finish_drift (s : State) (slot : Fd) (outcome : Finish) : (s.finish slot outcome).drift ≤ s.drift ∧
    ((s.finish slot outcome).drift = s.drift ↔ ClosesOpen s (.finish slot outcome)) := by
  cases outcome with
  | moreInput =>
      have same : (s.finish slot .moreInput).drift = s.drift := modfd_drift _ _ _
      simp [same, ClosesOpen]
  | response =>
      have same : (s.finish slot .response).drift = s.drift := modfd_drift _ _ _
      simp [same, ClosesOpen]
  | closed => exact close_conn_drift (s.takeJob slot) slot

-- One step: m_user_count only ever falls behind, and does so exactly when a
-- descriptor is closed that was closed already.
theorem drift_step (s t : State) (label : Label) (taken : Takes machine s label t) :
    t.drift ≤ s.drift ∧ (t.drift = s.drift ↔ ClosesOpen s label) := by
  cases label with
  | wait batch =>
      cases taken.2
      have same : ((s.disarm batch).withPending batch).drift = s.drift := disarm_drift batch s
      simp [same, ClosesOpen]
  | handle answers =>
      obtain ⟨event, rest, pending, ok⟩ := handle_effect s t answers taken
      cases event with
      | listen =>
          have same := accept_drift answers.accepted (s.withPending rest) t taken.1.2.2.1 taken.1.2.2.2 ok
          change t.drift = s.drift at same
          simp [same, ClosesOpen, pending]
      | signals =>
          cases ok
          have same : ∀ flag stop : Bool,
              State.drift { s.withPending rest with timeout := flag, stopServer := stop } = s.drift := fun _ _ => rfl
          simp [same, ClosesOpen, pending]
      | client ready =>
          change (s.withPending rest).handleClient ready answers = .ok t at ok
          have closes : ClosesOpen s (.handle answers) ↔
              (closing ready answers = true → (s.usersTimer ready.fd).sockfd ∈ s.opened) := by
            constructor
            · intro isOpen closes
              rw [handle_client_closing _ ready answers closes] at ok
              obtain ⟨id, found⟩ := drop_designated _ t ready.fd ok
              exact isOpen ready rest id pending closes found
            · rintro isOpen other later id same closes _
              rw [pending] at same
              cases same
              exact isOpen closes
          rw [closes]
          exact client_drift (s.withPending rest) t ready answers ok
  | tick cur =>
      cases taken.2
      exact tick_drift cur s.timers s
  | finish slot outcome =>
      cases taken.2
      exact finish_drift s slot outcome

theorem miss_effect (s : State) (label : Label) (miss : ¬ ClosesOpen s label) : ∃ t, s.effect label = .ok t := by
  cases label with
  | wait batch => exact ⟨_, rfl⟩
  | handle answers =>
      unfold ClosesOpen at miss
      push Not at miss
      obtain ⟨ready, rest, id, pending, closes, found, _⟩ := miss
      refine ⟨{ (s.withPending rest).cbFunc ready.fd with timers := delTimer id s.timers }, ?_⟩
      unfold State.effect
      rw [pending]
      change (s.withPending rest).handleClient ready answers = _
      rw [handle_client_closing _ ready answers closes, State.dropClient]
      change (s.designated ready.fd).bind _ = _
      rw [found]
      rfl
  | tick cur => exact ⟨_, rfl⟩
  | finish slot outcome => exact ⟨_, rfl⟩

theorem start_counted : Counted State.start := by
  simp [Counted, State.start]

theorem user_count_iff (labels : List Label) :
    Always machine Counted State.start labels ↔ Along machine ClosesOpen State.start labels := by
  have kept : ∀ s label t, Counted s → ClosesOpen s label → Takes machine s label t → Counted t := by
    intro s label t counted closes taken
    rw [counted_iff_drift] at counted ⊢
    rw [(drift_step s t label taken).2.mpr closes, counted]
  apply always_iff_along machine ClosesOpen Counted Counted kept _ (fun _ counted => counted) State.start labels start_counted
  intro s label counted offered miss
  obtain ⟨t, effect⟩ := miss_effect s label miss
  refine ⟨t, effect, fun countedAfter => ?_⟩
  rw [counted_iff_drift] at counted countedAfter
  exact miss ((drift_step s t label ⟨offered, effect⟩).2.mp (countedAfter.trans counted.symm))

def closedThenExpired : List Label :=
  closedByWorker ++ [.wait [.signals], .handle { noAnswers with signals := [.alarm] }, .tick 300]

theorem user_count_drifts : ¬ Always machine Counted State.start closedThenExpired := by
  intro always
  have reached : ∃ t, replay machine State.start closedThenExpired = some t ∧ t.userCount = -1 := ⟨_, rfl, rfl⟩
  obtain ⟨t, run, count⟩ := reached
  have counted := always_replay machine Counted State.start t closedThenExpired run always
  unfold Counted at counted
  omega

end WzyServer.Server
