import WzyServer.Server.Loop

set_option autoImplicit false

namespace WzyServer.Server

open Run

-- What the main loop and the workers keep in every run: a timer knows its slot, an
-- open client's pointer designates a linked timer, epoll watches open clients only.
structure WellFormed (s : State) : Prop where
  ids : ((links s.timers).map Link.id).Nodup
  fresh : ∀ link ∈ links s.timers, link.id < s.nextTimer
  bounded : ∀ fd id, (s.usersTimer fd).timer = some id → id < s.nextTimer
  own : ∀ fd, ∀ link ∈ links s.timers, (s.usersTimer fd).timer = some link.id → link.userData = fd
  userData : ∀ link ∈ links s.timers, link.userData = link.owner.fd ∧ (s.usersTimer link.userData).sockfd = link.userData
  sockfd : ∀ fd id, (s.usersTimer fd).timer = some id → (s.usersTimer fd).sockfd = fd
  slot : ∀ slot fd, s.sockfd slot = some fd → fd = slot
  linked : ∀ fd ∈ s.opened, ∃ link ∈ links s.timers, (s.usersTimer fd).timer = some link.id
  armed : ∀ fd, s.interest fd ≠ none → fd ∈ s.opened

structure Shrinks (s t : State) : Prop where
  timers : (links t.timers).Subperm (links s.timers)
  users : t.usersTimer = s.usersTimer
  next : t.nextTimer = s.nextTimer
  slots : ∀ slot fd, t.sockfd slot = some fd → s.sockfd slot = some fd
  opened : t.opened ⊆ s.opened
  armed : ∀ fd, t.interest fd ≠ none → fd ∈ t.opened
  linked : ∀ fd ∈ t.opened, ∀ link ∈ links s.timers, (s.usersTimer fd).timer = some link.id → link ∈ links t.timers

theorem well_formed_shrinks (s t : State) (wf : WellFormed s) (shrinks : Shrinks s t) : WellFormed t := by
  obtain ⟨timers, users, next, slots, opened, armed, linked⟩ := shrinks
  have within := timers.subset
  constructor
  · obtain ⟨kept, perm, sub⟩ := timers
    exact (perm.map Link.id).nodup_iff.mp (wf.ids.sublist (sub.map Link.id))
  · intro link member
    rw [next]
    exact wf.fresh link (within member)
  · rw [users, next]
    exact wf.bounded
  · intro fd link member
    rw [users]
    exact wf.own fd link (within member)
  · intro link member
    rw [users]
    exact wf.userData link (within member)
  · rw [users]
    exact wf.sockfd
  · intro slot fd holds
    exact wf.slot slot fd (slots slot fd holds)
  · intro fd isOpen
    rw [users]
    obtain ⟨link, member, points⟩ := wf.linked fd (opened isOpen)
    exact ⟨link, linked fd isOpen link member points, points⟩
  · exact armed

theorem start_well_formed : WellFormed State.start :=
  ⟨List.nodup_nil, by simp [links, State.start], by simp [State.start], by simp [links, State.start],
    by simp [links, State.start], by simp [State.start], by simp [State.start], by simp [State.start], by simp [State.start]⟩

theorem shrinks_interest (s : State) (interest : Fd → Option Interest) (jobs : List Fd)
    (pending : List Event) (timeout stopServer : Bool) (armed : ∀ fd, interest fd ≠ none → fd ∈ s.opened) :
    Shrinks s { s with interest := interest, jobs := jobs, pending := pending, timeout := timeout, stopServer := stopServer } :=
  ⟨.refl _, rfl, rfl, fun _ _ => id, Finset.Subset.refl _, armed, fun _ _ _ member _ => member⟩

theorem link_id_eq (timers : TimerList) : (links timers).map Link.id = timers.map Timer.id := by
  simp [links, Timer.link, Function.comp_def]

theorem designated_ok (s : State) (fd : Fd) (id : Nat) (ok : s.designated fd = .ok id) :
    (s.usersTimer fd).timer = some id ∧ ∃ link ∈ links s.timers, link.id = id := by
  unfold State.designated at ok
  split at ok
  · cases ok
  · rename_i found pointer
    split at ok
    · rename_i member
      cases ok
      rw [← link_id_eq] at member
      exact ⟨pointer, List.mem_map.mp member⟩
    · cases ok

theorem well_formed_modfd (s : State) (wf : WellFormed s) (fd : Option Fd) (interest : Interest) :
    WellFormed (s.modfd fd interest) := by
  unfold State.modfd
  cases fd with
  | none => exact wf
  | some fd =>
      dsimp only
      split
      · rename_i isOpen
        apply well_formed_shrinks s _ wf
        refine shrinks_interest s (set s.interest fd (some interest)) s.jobs s.pending s.timeout s.stopServer ?_
        intro other watched
        by_cases same : other = fd
        · rwa [same]
        · rw [set_elsewhere _ _ _ _ same] at watched
          exact wf.armed other watched
      · exact wf

theorem removed_armed (s : State) (wf : WellFormed s) (fd other : Fd) (watched : (s.removefd fd).interest other ≠ none) :
    other ∈ (s.removefd fd).opened := by
  simp only [State.removefd] at watched ⊢
  by_cases same : other = fd
  · rw [same, set_here] at watched
    exact absurd rfl watched
  · rw [set_elsewhere _ _ _ _ same] at watched
    exact Finset.mem_erase.mpr ⟨same, wf.armed other watched⟩

theorem well_formed_close_conn (s : State) (wf : WellFormed s) (slot : Fd) : WellFormed (s.closeConn slot) := by
  unfold State.closeConn
  split
  · exact wf
  · rename_i fd _
    apply well_formed_shrinks s _ wf
    refine ⟨.refl _, rfl, rfl, ?_, Finset.erase_subset _ _, removed_armed s wf fd, fun _ _ _ member _ => member⟩
    intro other held holds
    by_cases same : other = slot
    · simp [same, set] at holds
    · simpa only [set_elsewhere _ _ _ _ same] using holds

theorem drop_client_ok (s t : State) (fd : Fd) (ok : s.dropClient fd = .ok t) :
    ∃ link ∈ links s.timers, (s.usersTimer fd).timer = some link.id ∧
      t = { s.cbFunc fd with timers := delTimer link.id s.timers } := by
  unfold State.dropClient at ok
  cases found : s.designated fd with
  | error fault =>
      rw [found] at ok
      cases ok
  | ok id =>
      rw [found] at ok
      cases ok
      obtain ⟨pointer, link, member, rfl⟩ := designated_ok s fd id found
      exact ⟨link, member, pointer, rfl⟩

theorem drop_designated (s t : State) (fd : Fd) (ok : s.dropClient fd = .ok t) : ∃ id, s.designated fd = .ok id := by
  unfold State.dropClient at ok
  cases found : s.designated fd with
  | error fault =>
      rw [found] at ok
      cases ok
  | ok id => exact ⟨id, rfl⟩

theorem shrinks_drop (s : State) (wf : WellFormed s) (fd : Fd) (link : Link)
    (pointer : (s.usersTimer fd).timer = some link.id) :
    Shrinks s { s.cbFunc fd with timers := delTimer link.id s.timers } := by
  have closes : (s.usersTimer fd).sockfd = fd := wf.sockfd fd link.id pointer
  constructor
  · rw [del_timer_links]
    exact List.filter_sublist.subperm
  · rfl
  · rfl
  · exact fun _ _ => id
  · exact Finset.erase_subset _ _
  · exact removed_armed s wf _
  · intro other isOpen found foundMember points
    rw [del_timer_links]
    refine List.mem_filter.mpr ⟨foundMember, ?_⟩
    simp only [ne_eq, decide_eq_true_eq]
    intro same
    have here := wf.own fd found foundMember (by rw [same]; exact pointer)
    have there := wf.own other found foundMember points
    simp only [State.cbFunc, State.removefd, closes] at isOpen
    exact Finset.ne_of_mem_erase isOpen (there.symm.trans here)

theorem shrinks_expire (s : State) (wf : WellFormed s) (timer : Timer) (rest : TimerList)
    (here : s.timers = timer :: rest) : Shrinks s (s.expireHead timer rest) := by
  have closes : (s.usersTimer timer.userData).sockfd = timer.userData :=
    (wf.userData timer.link (by simp [links, here])).2
  constructor
  · rw [here]
    exact (List.sublist_cons_self timer.link (links rest)).subperm
  · rfl
  · rfl
  · exact fun _ _ => id
  · exact Finset.erase_subset _ _
  · exact removed_armed s wf _
  · intro other isOpen found member points
    simp only [State.expireHead, State.cbFunc, State.removefd, closes] at isOpen
    have there := wf.own other found member points
    rw [here] at member
    rcases List.mem_cons.mp member with head | later
    · rw [head] at there
      exact absurd there.symm (Finset.ne_of_mem_erase isOpen)
    · exact later

theorem tick_induction (inv : State → Prop) (cur : Int)
    (expire : ∀ s timer rest, inv s → s.timers = timer :: rest → timer.expire ≤ cur →
      inv (s.expireHead timer rest))
    (timers : TimerList) (s : State) (whole : s.timers = timers) (start : inv s) : inv (State.tickFrom cur timers s) := by
  induction timers generalizing s with
  | nil => exact start
  | cons timer rest ih =>
      unfold State.tickFrom
      split
      · exact start
      · rename_i due
        exact ih _ rfl (expire s timer rest start whole (by omega))

theorem extend_timer_ok (s t : State) (fd : Fd) (cur : Int) (ok : s.extendTimer fd cur = .ok t) :
    t = s ∨ ∃ id, t = { s with timers := refreshTimer id (cur + 3 * timeslot) s.timers } := by
  unfold State.extendTimer at ok
  split at ok
  · cases ok
    exact .inl rfl
  · cases found : s.designated fd with
    | error fault =>
        rw [found] at ok
        cases ok
    | ok id =>
        rw [found] at ok
        cases ok
        exact .inr ⟨id, rfl⟩

theorem well_formed_extend (s t : State) (wf : WellFormed s) (fd : Fd) (cur : Int) (ok : s.extendTimer fd cur = .ok t) :
    WellFormed t := by
  rcases extend_timer_ok s t fd cur ok with rfl | ⟨id, rfl⟩
  · exact wf
  · have same := refresh_timer_links id (cur + 3 * timeslot) s.timers
    apply well_formed_shrinks s _ wf
    exact ⟨same.subperm, rfl, rfl, fun _ _ held => held, Finset.Subset.refl _, wf.armed,
      fun _ _ link member _ => same.mem_iff.mpr member⟩

def State.newLink (s : State) (connfd : Fd) : Link := ⟨s.nextTimer, connfd, ⟨connfd, s.accepts connfd + 1⟩⟩

theorem init_links (s : State) (connfd : Fd) (cur : Int) :
    (links (s.initClient connfd cur).timers).Perm (s.newLink connfd :: links s.timers) :=
  add_timer_links _ _

theorem init_users_timer (s : State) (connfd fd : Fd) (cur : Int) : (s.initClient connfd cur).usersTimer fd =
    if fd = connfd then ⟨connfd, some s.nextTimer⟩ else s.usersTimer fd := rfl

theorem well_formed_init (s : State) (wf : WellFormed s) (connfd : Fd) (cur : Int) :
    WellFormed (s.initClient connfd cur) := by
  have perm := init_links s connfd cur
  have users := init_users_timer s connfd
  have isNew : s.newLink connfd ∉ links s.timers := fun member => absurd (wf.fresh _ member) (Nat.lt_irrefl _)
  have next : (s.initClient connfd cur).nextTimer = s.nextTimer + 1 := rfl
  have cases_of : ∀ link, link ∈ links (s.initClient connfd cur).timers → link = s.newLink connfd ∨ link ∈ links s.timers :=
    fun link member => List.mem_cons.mp (perm.mem_iff.mp member)
  constructor
  · rw [(perm.map Link.id).nodup_iff, List.map_cons, List.nodup_cons]
    refine ⟨?_, wf.ids⟩
    intro member
    obtain ⟨link, inside, same⟩ := List.mem_map.mp member
    have older := wf.fresh link inside
    rw [same] at older
    exact absurd older (Nat.lt_irrefl _)
  · intro link member
    rw [next]
    rcases cases_of link member with rfl | older
    · exact Nat.lt_succ_self _
    · exact Nat.lt_succ_of_lt (wf.fresh link older)
  · intro fd id pointer
    rw [next]
    rw [users] at pointer
    split at pointer
    · cases pointer
      exact Nat.lt_succ_self _
    · exact Nat.lt_succ_of_lt (wf.bounded fd id pointer)
  · intro fd link member pointer
    rw [users] at pointer
    rcases cases_of link member with rfl | older
    · split at pointer
      · rename_i same
        exact same.symm
      · exact absurd (wf.bounded fd _ pointer) (Nat.lt_irrefl _)
    · split at pointer
      · have same : s.nextTimer = link.id := Option.some.inj pointer
        have below := wf.fresh link older
        omega
      · exact wf.own fd link older pointer
  · intro link member
    rw [users]
    rcases cases_of link member with rfl | older
    · exact ⟨rfl, by simp [State.newLink]⟩
    · obtain ⟨owned, points⟩ := wf.userData link older
      refine ⟨owned, ?_⟩
      split
      · rename_i same
        exact same.symm
      · exact points
  · intro fd id pointer
    rw [users] at pointer ⊢
    split
    · rename_i same
      exact same.symm
    · rename_i other
      rw [if_neg other] at pointer
      exact wf.sockfd fd id pointer
  · intro slot fd holds
    by_cases same : slot = connfd
    · simp only [State.initClient, same, set_here, Option.some.injEq] at holds
      rw [same, holds]
    · simp only [State.initClient, set_elsewhere _ _ _ _ same] at holds
      exact wf.slot slot fd holds
  · intro fd isOpen
    rw [users]
    split
    · exact ⟨s.newLink connfd, perm.mem_iff.mpr (List.mem_cons_self ..), rfl⟩
    · rename_i other
      obtain ⟨link, member, points⟩ := wf.linked fd (Finset.mem_of_mem_insert_of_ne isOpen other)
      exact ⟨link, perm.mem_iff.mpr (List.mem_cons_of_mem _ member), points⟩
  · intro fd watched
    by_cases same : fd = connfd
    · rw [same]
      exact Finset.mem_insert_self _ _
    · simp only [State.initClient, set_elsewhere _ _ _ _ same] at watched
      exact Finset.mem_insert_of_mem (wf.armed fd watched)

-- `inv` is told the connections that are still to come; the loop may leave some.
theorem accept_clients_rule (inv : List (Fd × Int) → State → Prop)
    (init : ∀ s connfd cur rest, inv ((connfd, cur) :: rest) s → inv rest (s.initClient connfd cur))
    (accepted : List (Fd × Int)) (s t : State) (start : inv accepted s) (ok : s.acceptClients accepted = .ok t) :
    ∃ rest, inv rest t := by
  induction accepted generalizing s with
  | nil =>
      cases ok
      exact ⟨[], start⟩
  | cons connection rest ih =>
      obtain ⟨connfd, cur⟩ := connection
      unfold State.acceptClients at ok
      split at ok
      · cases ok
        exact ⟨_, start⟩
      · split at ok
        · cases ok
        · exact ih _ (init s connfd cur rest start) ok

theorem accept_invariant (inv : State → Prop) (init : ∀ s connfd cur, inv s → inv (s.initClient connfd cur))
    (accepted : List (Fd × Int)) (s t : State) (start : inv s) (ok : s.acceptClients accepted = .ok t) : inv t := by
  obtain ⟨_, kept⟩ := accept_clients_rule (fun _ => inv) (fun s connfd cur _ => init s connfd cur) accepted s t start ok
  exact kept

theorem accept_new_invariant (inv : State → Prop)
    (init : ∀ s connfd cur, connfd ∉ s.opened → inv s → inv (s.initClient connfd cur)) (accepted : List (Fd × Int))
    (s t : State) (distinct : (accepted.map Prod.fst).Nodup) (closed : ∀ fd ∈ accepted.map Prod.fst, fd ∉ s.opened)
    (start : inv s) (ok : s.acceptClients accepted = .ok t) : inv t := by
  let toCome : List (Fd × Int) → State → Prop := fun rest s =>
    inv s ∧ (rest.map Prod.fst).Nodup ∧ ∀ fd ∈ rest.map Prod.fst, fd ∉ s.opened
  have kept : ∀ s connfd cur rest, toCome ((connfd, cur) :: rest) s → toCome rest (s.initClient connfd cur) := by
    rintro s connfd cur rest ⟨here, distinct, closed⟩
    rw [List.map_cons, List.nodup_cons] at distinct
    refine ⟨init s connfd cur (closed connfd (by simp)) here, distinct.2, ?_⟩
    intro fd member isOpen
    rcases Finset.mem_insert.mp isOpen with same | older
    · exact distinct.1 (same ▸ member)
    · exact closed fd (List.mem_cons_of_mem _ member) older
  obtain ⟨_, final, _⟩ := accept_clients_rule toCome kept accepted s t ⟨start, distinct, closed⟩ ok
  exact final

theorem well_formed_accept (accepted : List (Fd × Int)) (s t : State) (wf : WellFormed s)
    (ok : s.acceptClients accepted = .ok t) : WellFormed t :=
  accept_invariant WellFormed (fun s connfd cur here => well_formed_init s here connfd cur) accepted s t wf ok

theorem well_formed_disarm (batch : List Event) (s : State) (wf : WellFormed s) : WellFormed (s.disarm batch) := by
  induction batch generalizing s with
  | nil => exact wf
  | cons event rest ih =>
      cases event with
      | listen => exact ih s wf
      | signals => exact ih s wf
      | client ready =>
          apply ih
          apply well_formed_shrinks s _ wf
          refine shrinks_interest s (set s.interest ready.fd none) s.jobs s.pending s.timeout s.stopServer ?_
          intro other watched
          by_cases same : other = ready.fd
          · rw [same, set_here] at watched
            exact absurd rfl watched
          · rw [set_elsewhere _ _ _ _ same] at watched
            exact wf.armed other watched

theorem well_formed_loop (s : State) (wf : WellFormed s) (jobs : List Fd) (pending : List Event) (timeout stopServer : Bool) :
    WellFormed { s with jobs := jobs, pending := pending, timeout := timeout, stopServer := stopServer } :=
  well_formed_shrinks s _ wf (shrinks_interest s s.interest jobs pending timeout stopServer wf.armed)

theorem well_formed_append (s : State) (wf : WellFormed s) (slot : Fd) (room : Bool) : WellFormed (s.appendJob slot room) := by
  unfold State.appendJob
  split
  · exact well_formed_loop s wf _ _ _ _
  · exact wf

theorem well_formed_drop (s t : State) (wf : WellFormed s) (fd : Fd) (ok : s.dropClient fd = .ok t) : WellFormed t := by
  obtain ⟨link, _, pointer, rfl⟩ := drop_client_ok s t fd ok
  exact well_formed_shrinks s _ wf (shrinks_drop s wf fd link pointer)

def closing (ready : Ready) (answers : Answers) : Bool :=
  ready.hangup || (if ready.input then !answers.read else ready.output && answers.write.isNone)

theorem handle_client_closing (s : State) (ready : Ready) (answers : Answers) (closes : closing ready answers = true) :
    s.handleClient ready answers = s.dropClient ready.fd := by
  unfold closing at closes
  unfold State.handleClient
  by_cases hangup : ready.hangup = true
  · rw [if_pos hangup]
  · by_cases input : ready.input = true
    · have failed : ¬ answers.read = true := by simpa [hangup, input] using closes
      rw [if_neg hangup, if_pos input, if_neg failed]
    · have failed : ready.output = true ∧ answers.write = none := by simpa [hangup, input] using closes
      rw [if_neg hangup, if_neg input, if_pos failed.1, failed.2]

theorem handle_client_open (s t : State) (ready : Ready) (answers : Answers) (opens : ¬ closing ready answers = true)
    (ok : s.handleClient ready answers = .ok t) : t = s ∨
      (∃ room, (s.appendJob ready.fd room).extendTimer ready.fd answers.cur = .ok t) ∨
      ∃ interest, (s.modfd (s.sockfd ready.fd) interest).extendTimer ready.fd answers.cur = .ok t := by
  unfold closing at opens
  unfold State.handleClient at ok
  have noHangup : ¬ ready.hangup = true := fun hangup => opens (by simp [hangup])
  rw [if_neg noHangup] at ok
  by_cases input : ready.input = true
  · have read : answers.read = true := by simpa [noHangup, input] using opens
    rw [if_pos input, if_pos read] at ok
    exact .inr (.inl ⟨answers.queued, ok⟩)
  · rw [if_neg input] at ok
    by_cases output : ready.output = true
    · rw [if_pos output] at ok
      cases written : answers.write with
      | some interest =>
          rw [written] at ok
          exact .inr (.inr ⟨interest, ok⟩)
      | none => exact absurd (by simp [noHangup, input, output, written]) opens
    · rw [if_neg output] at ok
      cases ok
      exact .inl rfl

structure SameClients (s t : State) : Prop where
  timers : (links t.timers).Perm (links s.timers)
  users : t.usersTimer = s.usersTimer
  opened : t.opened = s.opened
  accepts : t.accepts = s.accepts
  pending : t.pending = s.pending

theorem modfd_same (s : State) (fd : Option Fd) (interest : Interest) : SameClients s (s.modfd fd interest) := by
  unfold State.modfd
  split
  · exact ⟨.refl _, rfl, rfl, rfl, rfl⟩
  · split <;> exact ⟨.refl _, rfl, rfl, rfl, rfl⟩

theorem modfd_timers (s : State) (fd : Option Fd) (interest : Interest) : (s.modfd fd interest).timers = s.timers := by
  unfold State.modfd
  split
  · rfl
  · split <;> rfl

theorem disarm_keeps {β : Type} (part : State → β)
    (kept : ∀ (s : State) (fd : Fd), part { s with interest := set s.interest fd none } = part s) (batch : List Event) (s : State) :
    part (s.disarm batch) = part s := by
  induction batch generalizing s with
  | nil => rfl
  | cons event rest ih =>
      cases event with
      | listen => exact ih s
      | signals => exact ih s
      | client ready => exact (ih _).trans (kept s ready.fd)

theorem disarm_timers (batch : List Event) (s : State) : (s.disarm batch).timers = s.timers :=
  disarm_keeps State.timers (fun _ _ => rfl) batch s

theorem disarm_same (batch : List Event) (s : State) : SameClients s (s.disarm batch) := by
  refine ⟨?_, disarm_keeps State.usersTimer (fun _ _ => rfl) batch s, disarm_keeps State.opened (fun _ _ => rfl) batch s,
    disarm_keeps State.accepts (fun _ _ => rfl) batch s, disarm_keeps State.pending (fun _ _ => rfl) batch s⟩
  rw [disarm_timers]

theorem extend_same (s t : State) (fd : Fd) (cur : Int) (ok : s.extendTimer fd cur = .ok t) : SameClients s t := by
  rcases extend_timer_ok s t fd cur ok with rfl | ⟨id, rfl⟩
  · exact ⟨.refl _, rfl, rfl, rfl, rfl⟩
  · exact ⟨refresh_timer_links _ _ _, rfl, rfl, rfl, rfl⟩

theorem append_same (s : State) (slot : Fd) (room : Bool) : SameClients s (s.appendJob slot room) := by
  unfold State.appendJob
  split <;> exact ⟨.refl _, rfl, rfl, rfl, rfl⟩

theorem same_trans (s t u : State) (first : SameClients s t) (second : SameClients t u) : SameClients s u :=
  ⟨second.timers.trans first.timers, second.users.trans first.users, second.opened.trans first.opened,
    second.accepts.trans first.accepts, second.pending.trans first.pending⟩

theorem open_branch_same (s t : State) (ready : Ready) (answers : Answers) (opens : ¬ closing ready answers = true)
    (ok : s.handleClient ready answers = .ok t) : SameClients s t := by
  rcases handle_client_open s t ready answers opens ok with rfl | ⟨room, extended⟩ | ⟨interest, extended⟩
  · exact ⟨.refl _, rfl, rfl, rfl, rfl⟩
  · exact same_trans s _ t (append_same s _ room) (extend_same _ t _ _ extended)
  · exact same_trans s _ t (modfd_same s _ interest) (extend_same _ t _ _ extended)

theorem well_formed_client (s t : State) (wf : WellFormed s) (ready : Ready) (answers : Answers)
    (ok : s.handleClient ready answers = .ok t) : WellFormed t := by
  by_cases closes : closing ready answers = true
  · rw [handle_client_closing s ready answers closes] at ok
    exact well_formed_drop s t wf ready.fd ok
  · rcases handle_client_open s t ready answers closes ok with rfl | ⟨room, extended⟩ | ⟨interest, extended⟩
    · exact wf
    · exact well_formed_extend _ t (well_formed_append s wf _ room) ready.fd answers.cur extended
    · exact well_formed_extend _ t (well_formed_modfd s wf _ interest) ready.fd answers.cur extended

theorem well_formed_tick (s : State) (wf : WellFormed s) (cur : Int) : WellFormed (s.timerHandler cur) := by
  have ticked : WellFormed (State.tickFrom cur s.timers s) := by
    apply tick_induction WellFormed cur _ s.timers s rfl wf
    intro other timer rest inside here _
    exact well_formed_shrinks other _ inside (shrinks_expire other inside timer rest here)
  exact well_formed_loop _ ticked _ _ false _

theorem well_formed_finish (s : State) (wf : WellFormed s) (slot : Fd) (outcome : Finish) :
    WellFormed (s.finish slot outcome) := by
  have taken : WellFormed (s.takeJob slot) := well_formed_loop s wf _ _ _ _
  cases outcome with
  | moreInput => exact well_formed_modfd _ taken _ .input
  | response => exact well_formed_modfd _ taken _ .output
  | closed => exact well_formed_close_conn _ taken slot

theorem well_formed_handle (s t : State) (wf : WellFormed s) (event : Event) (answers : Answers)
    (ok : s.handle event answers = .ok t) : WellFormed t := by
  cases event with
  | listen => exact well_formed_accept answers.accepted s t wf ok
  | signals =>
      cases ok
      exact well_formed_loop s wf _ _ _ _
  | client ready => exact well_formed_client s t wf ready answers ok

theorem handle_effect (s t : State) (answers : Answers) (taken : Takes machine s (.handle answers) t) :
    ∃ event rest, s.pending = event :: rest ∧ (s.withPending rest).handle event answers = .ok t := by
  obtain ⟨offered, effect⟩ := taken
  change s.effect (.handle answers) = .ok t at effect
  unfold State.effect at effect
  cases pending : s.pending with
  | nil => exact absurd pending offered.1
  | cons event rest => exact ⟨event, rest, rfl, by simpa only [pending] using effect⟩

theorem well_formed_step (s t : State) (label : Label) (wf : WellFormed s) (taken : Takes machine s label t) :
    WellFormed t := by
  cases label with
  | wait batch =>
      cases taken.2
      exact well_formed_loop _ (well_formed_disarm batch s wf) _ batch _ _
  | handle answers =>
      obtain ⟨event, rest, _, ok⟩ := handle_effect s t answers taken
      exact well_formed_handle _ t (well_formed_loop s wf _ rest _ _) event answers ok
  | tick cur =>
      cases taken.2
      exact well_formed_tick s wf cur
  | finish slot outcome =>
      cases taken.2
      exact well_formed_finish s wf slot outcome

def noAnswers : Answers := ⟨[], [], false, false, none, 0⟩

def closedByWorker : List Label :=
  [.wait [.listen], .handle { noAnswers with accepted := [(7, 0)] },
    .wait [.client ⟨7, false, true, false⟩], .handle { noAnswers with read := true, queued := true }, .finish 7 .closed]

end WzyServer.Server
