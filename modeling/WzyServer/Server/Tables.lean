import WzyServer.Base.LowestFree
import WzyServer.Server.UserCount

set_option autoImplicit false

namespace WzyServer.Server

open Run LowestFree

def LowestFirst (held : Finset Fd) : List (Fd × Int) → Finset Fd → Prop
  | [], _ => True
  | (connfd, _) :: rest, opened => Lowest (held ∪ opened) connfd ∧ LowestFirst held rest (insert connfd opened)

def tableMachine (held : Finset Fd) : Machine State Label Fault where
  guard := fun s label => s.offers label ∧ ∀ answers, label = .handle answers → LowestFirst held answers.accepted s.opened
  effect := State.effect

def InTables (s : State) (label : Label) : Prop := s.effect label ≠ .error .outOfBounds

def Roomy (held : Finset Fd) : List (Fd × Int) → State → Prop
  | [], _ => True
  | (connfd, cur) :: rest, s => s.userCount < maxFd →
      (below held maxFd).card + s.opened.card < maxFd ∧ Roomy held rest (s.initClient connfd cur)

def LeavesRoom (held : Finset Fd) (s : State) (label : Label) : Prop :=
  ∀ answers rest, label = .handle answers → s.pending = .listen :: rest → Roomy held answers.accepted (s.withPending rest)

structure Apart (held : Finset Fd) (s : State) : Prop where
  disjoint : Disjoint held s.opened
  inside : ∀ fd ∈ s.opened, fd < maxFd

theorem apart_subset (held : Finset Fd) (s t : State) (apart : Apart held s) (fewer : t.opened ⊆ s.opened) : Apart held t :=
  ⟨Finset.disjoint_of_subset_right fewer apart.disjoint, fun fd isOpen => apart.inside fd (fewer isOpen)⟩

theorem apart_init (held : Finset Fd) (s : State) (connfd : Fd) (cur : Int) (apart : Apart held s)
    (lowest : Lowest (held ∪ s.opened) connfd) (inside : connfd < maxFd) : Apart held (s.initClient connfd cur) := by
  refine ⟨?_, ?_⟩
  · refine Finset.disjoint_insert_right.mpr ⟨?_, apart.disjoint⟩
    exact fun isHeld => lowest.1 (Finset.mem_union_left _ isHeld)
  · intro fd isOpen
    rcases Finset.mem_insert.mp isOpen with rfl | older
    · exact inside
    · exact apart.inside fd older

theorem lowest_first_new (held : Finset Fd) (accepted : List (Fd × Int)) (opened : Finset Fd)
    (lowest : LowestFirst held accepted opened) :
    (accepted.map Prod.fst).Nodup ∧ ∀ fd ∈ accepted.map Prod.fst, fd ∉ opened := by
  induction accepted generalizing opened with
  | nil => exact ⟨List.nodup_nil, fun _ member => absurd member List.not_mem_nil⟩
  | cons connection rest ih =>
      obtain ⟨connfd, cur⟩ := connection
      obtain ⟨distinct, new⟩ := ih (insert connfd opened) lowest.2
      have unused : connfd ∉ opened := fun isOpen => lowest.1.1 (Finset.mem_union_right _ isOpen)
      refine ⟨List.nodup_cons.mpr ⟨fun again => new connfd again (Finset.mem_insert_self _ _), distinct⟩, ?_⟩
      rintro fd (_ | ⟨_, later⟩) isOpen
      · exact unused isOpen
      · exact new fd later (Finset.mem_insert_of_mem isOpen)

theorem connfd_inside_iff (held : Finset Fd) (s : State) (connfd : Fd) (apart : Apart held s)
    (lowest : Lowest (held ∪ s.opened) connfd) : connfd < maxFd ↔ (below held maxFd).card + s.opened.card < maxFd := by
  rw [lowest_below_iff _ connfd maxFd lowest, below_union held s.opened maxFd apart.disjoint apart.inside]

theorem accept_in_tables_iff (held : Finset Fd) (accepted : List (Fd × Int)) (s : State) (apart : Apart held s)
    (lowest : LowestFirst held accepted s.opened) :
    s.acceptClients accepted ≠ .error .outOfBounds ↔ Roomy held accepted s := by
  induction accepted generalizing s with
  | nil => exact ⟨fun _ => trivial, fun _ failed => by cases failed⟩
  | cons connection rest ih =>
      obtain ⟨connfd, cur⟩ := connection
      obtain ⟨first, later⟩ := lowest
      have room := connfd_inside_iff held s connfd apart first
      rw [State.acceptClients, Roomy]
      by_cases busy : (maxFd : Int) ≤ s.userCount
      · rw [if_pos busy]
        exact ⟨fun _ free => absurd free (not_lt.mpr busy), fun _ failed => by cases failed⟩
      · rw [if_neg busy]
        by_cases inside : connfd < maxFd
        · rw [if_neg (Nat.not_le.mpr inside), ih _ (apart_init held s connfd cur apart first inside) later]
          exact ⟨fun roomy _ => ⟨room.mp inside, roomy⟩, fun roomy => (roomy (not_le.mp busy)).2⟩
        · rw [if_pos (Nat.not_lt.mp inside)]
          exact ⟨fun sound => absurd rfl sound, fun roomy => absurd (room.mpr (roomy (not_le.mp busy)).1) inside⟩

theorem apart_accept (held : Finset Fd) (accepted : List (Fd × Int)) (s t : State) (apart : Apart held s)
    (lowest : LowestFirst held accepted s.opened) (ok : s.acceptClients accepted = .ok t) : Apart held t := by
  induction accepted generalizing s with
  | nil =>
      cases ok
      exact apart
  | cons connection rest ih =>
      obtain ⟨connfd, cur⟩ := connection
      rw [State.acceptClients] at ok
      split at ok
      · cases ok
        exact apart
      · split at ok
        · cases ok
        · rename_i inside
          exact ih _ (apart_init held s connfd cur apart lowest.1 (Nat.not_le.mp inside)) lowest.2 ok

theorem drop_opened (s t : State) (fd : Fd) (ok : s.dropClient fd = .ok t) : t.opened ⊆ s.opened := by
  obtain ⟨_, _, _, rfl⟩ := drop_client_ok s t fd ok
  exact Finset.erase_subset _ _

theorem client_opened (s t : State) (ready : Ready) (answers : Answers) (ok : s.handleClient ready answers = .ok t) :
    t.opened ⊆ s.opened := by
  by_cases closes : closing ready answers = true
  · rw [handle_client_closing s ready answers closes] at ok
    exact drop_opened s t ready.fd ok
  · rw [(open_branch_same s t ready answers closes ok).opened]

theorem close_conn_opened (s : State) (slot : Fd) : (s.closeConn slot).opened ⊆ s.opened := by
  rw [State.closeConn]
  split
  · exact Finset.Subset.refl _
  · exact Finset.erase_subset _ _

theorem finish_opened (s : State) (slot : Fd) (outcome : Finish) : (s.finish slot outcome).opened ⊆ s.opened := by
  cases outcome with
  | moreInput => exact (modfd_same (s.takeJob slot) _ .input).opened.subset
  | response => exact (modfd_same (s.takeJob slot) _ .output).opened.subset
  | closed => exact close_conn_opened (s.takeJob slot) slot

theorem tick_opened (s : State) (cur : Int) : (State.tickFrom cur s.timers s).opened ⊆ s.opened := by
  apply tick_induction (fun t => t.opened ⊆ s.opened) cur _ s.timers s rfl (Finset.Subset.refl _)
  intro t timer rest fewer _ _
  exact (Finset.erase_subset _ _).trans fewer

theorem apart_step (held : Finset Fd) (s t : State) (label : Label) (apart : Apart held s)
    (taken : Takes (tableMachine held) s label t) : Apart held t := by
  obtain ⟨⟨offered, lowest⟩, ok⟩ := taken
  cases label with
  | wait batch =>
      cases ok
      exact apart_subset held s _ apart (disarm_same batch s).opened.subset
  | handle answers =>
      obtain ⟨event, rest, _, handled⟩ := handle_effect s t answers ⟨offered, ok⟩
      have pending : Apart held (s.withPending rest) := ⟨apart.disjoint, apart.inside⟩
      cases event with
      | listen => exact apart_accept held answers.accepted _ t pending (lowest answers rfl) handled
      | signals =>
          cases handled
          exact ⟨apart.disjoint, apart.inside⟩
      | client ready => exact apart_subset held _ t pending (client_opened _ t ready answers handled)
  | tick cur =>
      cases ok
      exact apart_subset held s _ apart (tick_opened s cur)
  | finish slot outcome =>
      cases ok
      exact apart_subset held s _ apart (finish_opened s slot outcome)

theorem designated_error (s : State) (fd : Fd) (fault : Fault) (failed : s.designated fd = .error fault) :
    fault ≠ .outOfBounds := by
  rw [State.designated] at failed
  split at failed
  · cases failed
    exact fun same => by cases same
  · split at failed
    · cases failed
    · cases failed
      exact fun same => by cases same

theorem drop_in_tables (s : State) (fd : Fd) : s.dropClient fd ≠ .error .outOfBounds := by
  intro failed
  rcases error_of_bind _ _ _ failed with designated | ⟨id, _, returned⟩
  · exact designated_error s fd _ designated rfl
  · cases returned

theorem extend_in_tables (s : State) (fd : Fd) (cur : Int) : s.extendTimer fd cur ≠ .error .outOfBounds := by
  intro failed
  rw [State.extendTimer] at failed
  split at failed
  · cases failed
  · rcases error_of_bind _ _ _ failed with designated | ⟨id, _, returned⟩
    · exact designated_error s fd _ designated rfl
    · cases returned

theorem client_in_tables (s : State) (ready : Ready) (answers : Answers) : s.handleClient ready answers ≠ .error .outOfBounds := by
  rw [State.handleClient]
  split
  · exact drop_in_tables s ready.fd
  · split
    · split
      · exact extend_in_tables _ ready.fd answers.cur
      · exact drop_in_tables s ready.fd
    · split
      · split
        · exact extend_in_tables _ ready.fd answers.cur
        · exact drop_in_tables s ready.fd
      · exact fun failed => by cases failed

theorem in_tables_iff (held : Finset Fd) (s : State) (label : Label) (apart : Apart held s)
    (offered : (tableMachine held).guard s label) : InTables s label ↔ LeavesRoom held s label := by
  have elsewhere : InTables s label → (∀ answers rest, label = .handle answers → s.pending ≠ .listen :: rest) →
      (InTables s label ↔ LeavesRoom held s label) := fun sound other =>
    ⟨fun _ answers rest isHandle listens => absurd listens (other answers rest isHandle), fun _ => sound⟩
  cases label with
  | handle answers =>
      cases pending : s.pending with
      | nil => exact absurd pending offered.1.1
      | cons event rest =>
          have effect : s.effect (.handle answers) = (s.withPending rest).handle event answers := by
            rw [State.effect, pending]
          cases event with
          | listen =>
              have decided := accept_in_tables_iff held answers.accepted (s.withPending rest) ⟨apart.disjoint, apart.inside⟩
                (offered.2 answers rfl)
              rw [InTables, effect]
              refine decided.trans ⟨?_, fun room => room answers rest rfl pending⟩
              rintro roomy other later ⟨⟩ same
              rw [pending] at same
              cases same
              exact roomy
          | signals =>
              apply elsewhere
              · rw [InTables, effect]
                exact fun failed => by cases failed
              · intro _ _ _ same
                rw [pending] at same
                cases same
          | client ready =>
              apply elsewhere
              · rw [InTables, effect]
                exact client_in_tables _ ready answers
              · intro _ _ _ same
                rw [pending] at same
                cases same
  | _ => exact elsewhere (fun failed => by cases failed) fun _ _ same => by cases same

theorem connfd_in_tables_iff (held : Finset Fd) (labels : List Label) :
    Along (tableMachine held) InTables State.start labels ↔ Along (tableMachine held) (LeavesRoom held) State.start labels := by
  have kept : ∀ s label t, Apart held s → Takes (tableMachine held) s label t → Apart held t :=
    fun s label t apart taken => apart_step held s t label apart taken
  have start : Apart held State.start :=
    ⟨Finset.disjoint_empty_right held, fun fd isOpen => absurd isOpen (Finset.notMem_empty fd)⟩
  constructor
  · exact along_mono _ _ _ (Apart held) (fun s label t apart _ taken => kept s label t apart taken)
      (fun s label apart offered => (in_tables_iff held s label apart offered).mp) _ labels start
  · exact along_mono _ _ _ (Apart held) (fun s label t apart _ taken => kept s label t apart taken)
      (fun s label apart offered => (in_tables_iff held s label apart offered).mpr) _ labels start

def arriving (connfd : Fd) : Nat → List (Fd × Int)
  | 0 => []
  | count + 1 => (connfd, 0) :: arriving (connfd + 1) count

theorem arriving_lowest (held opened : Finset Fd) (bound count : Nat) (full : held ∪ opened = Finset.range bound) :
    LowestFirst held (arriving bound count) opened := by
  induction count generalizing bound opened with
  | zero => trivial
  | succ count ih =>
      refine ⟨by rw [full]; exact lowest_range bound, ih (insert bound opened) (bound + 1) ?_⟩
      rw [Finset.union_insert, full, Finset.range_add_one]

theorem arriving_overflows (count connfd : Nat) (s : State) (few : s.userCount + count ≤ maxFd) (first : connfd ≤ maxFd)
    (past : maxFd < connfd + count) : s.acceptClients (arriving connfd count) = .error .outOfBounds := by
  induction count generalizing connfd s with
  | zero => omega
  | succ count ih =>
      rw [arriving, State.acceptClients, if_neg (by omega)]
      by_cases last : maxFd ≤ connfd
      · rw [if_pos last]
      · rw [if_neg last]
        apply ih
        · simp only [State.initClient]
          omega
        · omega
        · omega

def crowding (bound count : Nat) : List Label := [.wait [.listen], .handle { noAnswers with accepted := arriving bound count }]

theorem crowding_overflows (bound count : Nat) (few : count ≤ maxFd) (small : bound ≤ maxFd) (past : maxFd < bound + count) :
    Always (tableMachine (Finset.range bound)) Counted State.start (crowding bound count) ∧
      ¬ Along (tableMachine (Finset.range bound)) InTables State.start (crowding bound count) := by
  have listens : Takes (tableMachine (Finset.range bound)) State.start (.wait [.listen]) (State.start.withPending [.listen]) :=
    ⟨⟨⟨rfl, rfl, rfl, List.nodup_singleton _, by simp [State.reports]⟩, fun _ same => by cases same⟩, rfl⟩
  have fails : (tableMachine (Finset.range bound)).effect (State.start.withPending [.listen])
      (.handle { noAnswers with accepted := arriving bound count }) = .error .outOfBounds := by
    apply arriving_overflows count bound _ _ small past
    change (0 : Int) + count ≤ maxFd
    omega
  have lowest := arriving_lowest (Finset.range bound) ∅ bound count (Finset.union_empty _)
  obtain ⟨distinct, new⟩ := lowest_first_new _ _ _ lowest
  constructor
  · refine ⟨start_counted, ?_⟩
    rintro next ⟨_, ok⟩
    cases listens.2.symm.trans ok
    refine ⟨start_counted, ?_⟩
    rintro last ⟨_, ok⟩
    cases fails.symm.trans ok
  · intro along
    have sound := (along.2 _ listens).1
    refine sound ⟨⟨List.cons_ne_nil _ _, rfl, distinct, new⟩, ?_⟩ fails
    rintro answers ⟨⟩
    exact lowest

-- The standard streams, the log, eight MySQL connections, listenfd, epollfd and the two
-- ends of the signal pipe hold the first sixteen descriptors.
theorem connfd_past_tables : ¬ ∀ labels, Always (tableMachine (Finset.range 16)) Counted State.start labels →
    Along (tableMachine (Finset.range 16)) InTables State.start labels := by
  intro inside
  obtain ⟨counted, outside⟩ := crowding_overflows 16 65521 (by decide) (by decide) (by decide)
  exact outside (inside _ counted)

end WzyServer.Server
