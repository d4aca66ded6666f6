import WzyServer.Base.Simulation
import WzyServer.Server.Batch
import WzyServer.Server.TimerRuns

set_option autoImplicit false

namespace WzyServer.Server

open Heap LinkedList Run

inductive MemoryFault where
  | outOfBounds
  | heap (fault : HeapFault)
deriving DecidableEq, Repr

def inHeap {α : Type} (step : Except HeapFault α) : Except MemoryFault α := step.mapError .heap

def State.bare (s : State) : State :=
  { s with timers := [], nextTimer := 0, usersTimer := fun fd => ⟨(s.usersTimer fd).sockfd, none⟩ }

-- The server with sort_timer_lst as it lies in memory; `timerOf` has the pointers
-- users_timer[fd].timer, which nothing resets when a timer is deleted.
structure HeapServer where
  server : State
  timerOf : Fd → Option Addr
  lst : SortTimerLst

-- `fresh` is what `new util_timer` returns for each client accepted in the step.
structure HeapLabel where
  label : Label
  fresh : Fd → Addr

namespace HeapServer

def start : HeapServer := ⟨State.start.bare, fun _ => none, .new⟩

def openClient (server : State) (connfd : Fd) : State :=
  { server with
    opened := insert connfd server.opened, interest := set server.interest connfd (some .input),
    accepts := set server.accepts connfd (server.accepts connfd + 1), sockfd := set server.sockfd connfd (some connfd),
    userCount := server.userCount + 1, usersTimer := set server.usersTimer connfd ⟨connfd, none⟩ }

def initClient (s : HeapServer) (connfd : Fd) (cur : Int) (addr : Addr) : Except MemoryFault HeapServer := do
  let timer : Timer := ⟨addr, cur + 3 * timeslot, connfd, ⟨connfd, s.server.accepts connfd + 1⟩⟩
  let lst ← inHeap ((s.lst.create timer).addTimer addr)
  return ⟨openClient s.server connfd, set s.timerOf connfd (some addr), lst⟩

def acceptClients (fresh : Fd → Addr) : List (Fd × Int) → HeapServer → Except MemoryFault HeapServer
  | [], s => .ok s
  | (connfd, cur) :: rest, s =>
      if (maxFd : Int) ≤ s.server.userCount then .ok s
      else if maxFd ≤ connfd then .error .outOfBounds
      else do
        let s ← s.initClient connfd cur (fresh connfd)
        acceptClients fresh rest s

def dropClient (s : HeapServer) (fd : Fd) : Except MemoryFault HeapServer := do
  let timer ← inHeap (deref (s.timerOf fd))
  let _ ← inHeap (s.lst.memory.read timer)
  let lst ← inHeap (s.lst.delTimer timer)
  return { s with server := s.server.cbFunc fd, lst := lst }

def extendTimer (s : HeapServer) (fd : Fd) (cur : Int) : Except MemoryFault HeapServer :=
  match s.timerOf fd with
  | none => .ok s
  | some timer => do
      let lst ← inHeap (s.lst.setExpire timer (cur + 3 * timeslot))
      let lst ← inHeap (lst.adjustTimer timer)
      return { s with lst := lst }

def handleClient (s : HeapServer) (ready : Ready) (answers : Answers) : Except MemoryFault HeapServer :=
  if ready.hangup then s.dropClient ready.fd
  else if ready.input then
    if answers.read then
      extendTimer { s with server := s.server.appendJob ready.fd answers.queued } ready.fd answers.cur
    else s.dropClient ready.fd
  else if ready.output then
    match answers.write with
    | some interest => extendTimer { s with server := s.server.modfd (s.server.sockfd ready.fd) interest } ready.fd answers.cur
    | none => s.dropClient ready.fd
  else .ok s

def handle (s : HeapServer) (event : Event) (answers : Answers) (fresh : Fd → Addr) : Except MemoryFault HeapServer :=
  match event with
  | .listen => acceptClients fresh answers.accepted s
  | .signals => .ok { s with server := { s.server with
      timeout := s.server.timeout || answers.signals.contains .alarm,
      stopServer := s.server.stopServer || answers.signals.contains .term } }
  | .client ready => s.handleClient ready answers

-- cb_func touches nothing of the list, so the calls may be read off when tick is done.
def timerHandler (s : HeapServer) (cur : Int) : Except MemoryFault HeapServer := do
  let (lst, called) ← inHeap (s.lst.tick cur)
  let closed := called.foldl (fun server timer => server.cbFunc timer.userData) s.server
  return { s with server := { closed with timeout := false }, lst := lst }

def offers (s : HeapServer) (step : HeapLabel) : Prop :=
  s.server.offers step.label ∧ match step.label with
    | .handle answers => (∀ fd ∈ answers.accepted.map Prod.fst, s.lst.memory.cells (step.fresh fd) = none) ∧
        ((answers.accepted.map Prod.fst).map step.fresh).Nodup
    | _ => True

def effect (s : HeapServer) (step : HeapLabel) : Except MemoryFault HeapServer :=
  match step.label with
  | .wait batch => .ok { s with server := (s.server.disarm batch).withPending batch }
  | .handle answers => match s.server.pending with
      | [] => .ok s
      | event :: rest => handle { s with server := s.server.withPending rest } event answers step.fresh
  | .tick cur => s.timerHandler cur
  | .finish slot outcome => .ok { s with server := s.server.finish slot outcome }

end HeapServer

def heapMachine : Machine HeapServer HeapLabel MemoryFault where
  guard := HeapServer.offers
  effect := HeapServer.effect

section Bare

theorem bare_disarm (batch : List Event) (s : State) : (s.disarm batch).bare = s.bare.disarm batch := by
  induction batch generalizing s with
  | nil => rfl
  | cons event rest ih =>
      cases event with
      | listen => exact ih s
      | signals => exact ih s
      | client ready => exact ih _

theorem bare_modfd (s : State) (fd : Option Fd) (interest : Interest) : (s.modfd fd interest).bare = s.bare.modfd fd interest := by
  cases fd with
  | none => rfl
  | some fd =>
      have same : fd ∈ s.bare.opened ↔ fd ∈ s.opened := Iff.rfl
      simp only [State.modfd, same]
      split <;> rfl

theorem bare_append (s : State) (slot : Fd) (room : Bool) : (s.appendJob slot room).bare = s.bare.appendJob slot room := by
  unfold State.appendJob
  split <;> rfl

theorem bare_finish (s : State) (slot : Fd) (outcome : Finish) : (s.finish slot outcome).bare = s.bare.finish slot outcome := by
  cases outcome with
  | moreInput => exact bare_modfd (s.takeJob slot) _ _
  | response => exact bare_modfd (s.takeJob slot) _ _
  | closed =>
      dsimp only [State.finish, State.closeConn]
      have same : (s.bare.takeJob slot).sockfd slot = (s.takeJob slot).sockfd slot := rfl
      rw [same]
      cases (s.takeJob slot).sockfd slot <;> rfl

theorem bare_open (s : State) (connfd : Fd) (cur : Int) : (s.initClient connfd cur).bare = HeapServer.openClient s.bare connfd := by
  have users : (s.initClient connfd cur).bare.usersTimer = (HeapServer.openClient s.bare connfd).usersTimer := by
    funext fd
    by_cases same : fd = connfd
    · subst same
      simp [State.bare, State.initClient, HeapServer.openClient, set]
    · simp [State.bare, State.initClient, HeapServer.openClient, set, same]
  have rest : HeapServer.openClient s.bare connfd =
      { HeapServer.openClient s.bare connfd with usersTimer := (s.initClient connfd cur).bare.usersTimer } := by rw [users]
  rw [rest]
  rfl

theorem bare_offers (s : State) (label : Label) (offered : s.bare.offers label) : s.offers label := by
  cases label with
  | wait batch => exact offered
  | handle answers => exact offered
  | tick cur => exact offered
  | finish slot outcome => exact offered

end Bare

section Relocation

-- The timers as they lie in memory: a timer that the list knows by its number has
-- the address `place` says.
def relocate (place : Nat → Addr) (timer : Timer) : Timer := { timer with id := place timer.id }

theorem relocate_add (place : Nat → Addr) (timer : Timer) (timers : TimerList) :
    addTimer (relocate place timer) (timers.map (relocate place)) = (addTimer timer timers).map (relocate place) := by
  induction timers with
  | nil => rfl
  | cons z zs ih =>
      have same : (relocate place timer).expire < (relocate place z).expire ↔ timer.expire < z.expire := Iff.rfl
      simp only [addTimer, List.map_cons, same]
      split
      · rfl
      · rw [ih, List.map_cons]

theorem relocate_same (place other : Nat → Addr) (timers : TimerList)
    (same : ∀ timer ∈ timers, other timer.id = place timer.id) : timers.map (relocate other) = timers.map (relocate place) := by
  apply List.map_congr_left
  intro timer member
  rw [relocate, relocate, same timer member]

structure Stores (place : Nat → Addr) (h : HeapServer) (s : State) : Prop where
  wf : WellFormed s
  rest : h.server = s.bare
  represents : Represents h.lst (s.timers.map (relocate place))
  pointer : ∀ fd id, (s.usersTimer fd).timer = some id → id ∈ s.timers.map Timer.id → h.timerOf fd = some (place id)
  null : ∀ fd, (s.usersTimer fd).timer = none → h.timerOf fd = none

theorem stores_same (place : Nat → Addr) (h : HeapServer) (s t : State) (server : State) (stores : Stores place h s)
    (wf : WellFormed t) (rest : server = t.bare) (timers : t.timers = s.timers) (users : t.usersTimer = s.usersTimer) :
    Stores place { h with server := server } t := by
  refine ⟨wf, rest, ?_, ?_, ?_⟩
  · rw [timers]
    exact stores.represents
  · rw [users, timers]
    exact stores.pointer
  · rw [users]
    exact stores.null

theorem list_ids (s : State) (wf : WellFormed s) : (s.timers.map Timer.id).Nodup := by
  rw [← link_id_eq]
  exact wf.ids

theorem stored_split (place : Nat → Addr) (h : HeapServer) (s : State) (fd : Fd) (id : Nat) (stores : Stores place h s)
    (found : s.designated fd = .ok id) : ∃ front timer rear, s.timers = front ++ timer :: rear ∧ timer.id = id ∧
      h.timerOf fd = some (place id) ∧
      Represents h.lst (front.map (relocate place) ++ relocate place timer :: rear.map (relocate place)) := by
  obtain ⟨points, link, member, same⟩ := designated_ok s fd id found
  have inside : id ∈ s.timers.map Timer.id := by
    rw [← link_id_eq, ← same]
    exact List.mem_map_of_mem member
  obtain ⟨front, timer, rear, whole, here⟩ := split_at s.timers id inside
  have represents := stores.represents
  rw [whole, List.map_append, List.map_cons] at represents
  exact ⟨front, timer, rear, whole, here, stores.pointer fd id points inside, represents⟩

theorem stores_drop (place : Nat → Addr) (h : HeapServer) (s t : State) (fd : Fd) (stores : Stores place h s)
    (ok : s.dropClient fd = .ok t) : ∃ g, h.dropClient fd = .ok g ∧ Stores place g t := by
  have wf := well_formed_drop s t stores.wf fd ok
  obtain ⟨id, found, rest⟩ := ok_of_bind _ _ _ ok
  cases rest
  obtain ⟨front, timer, rear, whole, rfl, points, represents⟩ := stored_split place h s fd id stores found
  obtain ⟨now, deleted, after⟩ := del_timer_represents h.lst _ _ _ represents
  have left : delTimer timer.id s.timers = front ++ rear := by
    rw [whole]
    exact del_timer_split front rear timer (whole ▸ list_ids s stores.wf)
  refine ⟨⟨h.server.cbFunc fd, h.timerOf, now⟩, ?_, wf, ?_, ?_, ?_, stores.null⟩
  · have cell := Memory.read_here _ _ _ (rep_cell h.lst _ _ _ represents)
    have here : (relocate place timer).id = place timer.id := rfl
    rw [here] at cell deleted
    simp only [HeapServer.dropClient, points, deref, inHeap, Except.mapError, bind, Except.bind, cell, deleted]
    rfl
  · rw [stores.rest]
    rfl
  · change Represents now ((delTimer timer.id s.timers).map _)
    rw [left, List.map_append]
    exact after
  · intro other id points member
    refine stores.pointer other id points ?_
    have kept : id ∈ (delTimer timer.id s.timers).map Timer.id := member
    obtain ⟨found, inside, same⟩ := List.mem_map.mp kept
    exact List.mem_map.mpr ⟨found, List.mem_of_mem_filter inside, same⟩

theorem stores_extend (place : Nat → Addr) (h : HeapServer) (s t : State) (fd : Fd) (cur : Int) (stores : Stores place h s)
    (ok : s.extendTimer fd cur = .ok t) : ∃ g, h.extendTimer fd cur = .ok g ∧ Stores place g t := by
  have wf := well_formed_extend s t stores.wf fd cur ok
  unfold State.extendTimer at ok
  unfold HeapServer.extendTimer
  cases pointer : (s.usersTimer fd).timer with
  | none =>
      rw [pointer] at ok
      cases ok
      rw [stores.null fd pointer]
      exact ⟨h, rfl, stores⟩
  | some number =>
      rw [pointer] at ok
      obtain ⟨id, found, rest⟩ := ok_of_bind _ _ _ ok
      cases rest
      obtain ⟨front, timer, rear, whole, rfl, points, represents⟩ := stored_split place h s fd id stores found
      obtain ⟨middle, expired, between⟩ := set_expire_represents h.lst _ _ _ (cur + 3 * timeslot) represents
      obtain ⟨now, adjusted, after⟩ := adjust_timer_represents middle _ _ _ between
      have moved : refreshTimer timer.id (cur + 3 * timeslot) s.timers =
          front ++ addTimer { timer with expire := cur + 3 * timeslot } rear := by
        rw [whole]
        exact refresh_timer_split front rear timer _ (whole ▸ list_ids s stores.wf)
      have sameIds := (refresh_timer_links timer.id (cur + 3 * timeslot) s.timers).map Link.id
      rw [link_id_eq, link_id_eq] at sameIds
      rw [points]
      refine ⟨{ h with lst := now }, ?_, wf, stores.rest, ?_, ?_, stores.null⟩
      · have here : (relocate place timer).id = place timer.id := rfl
        rw [here] at expired
        have there : ({ relocate place timer with expire := cur + 3 * timeslot } : Timer).id = place timer.id := rfl
        rw [there] at adjusted
        simp only [expired, inHeap, Except.mapError, bind, Except.bind, adjusted]
        rfl
      · change Represents now ((refreshTimer timer.id _ s.timers).map _)
        rw [moved, List.map_append, ← relocate_add]
        exact after
      · intro other id points member
        exact stores.pointer other id points (sameIds.mem_iff.mp member)

theorem stores_init (place : Nat → Addr) (h : HeapServer) (s : State) (connfd : Fd) (cur : Int) (addr : Addr)
    (stores : Stores place h s) (free : h.lst.memory.cells addr = none) :
    ∃ g, h.initClient connfd cur addr = .ok g ∧ Stores (Function.update place s.nextTimer addr) g (s.initClient connfd cur) ∧
      ∀ other, other ≠ addr → h.lst.memory.cells other = none → g.lst.memory.cells other = none := by
  have wf := well_formed_init s stores.wf connfd cur
  have older : ∀ timer ∈ s.timers, Function.update place s.nextTimer addr timer.id = place timer.id := by
    intro timer member
    have below := stores.wf.fresh timer.link (List.mem_map_of_mem member)
    exact Function.update_of_ne (Nat.ne_of_lt below) _ _
  let added : Timer := ⟨s.nextTimer, cur + 3 * timeslot, connfd, ⟨connfd, s.accepts connfd + 1⟩⟩
  have placed : relocate (Function.update place s.nextTimer addr) added = { added with id := addr } := by
    rw [relocate, Function.update_self]
  obtain ⟨now, inserted, after⟩ := add_timer_represents h.lst _ { added with id := addr } stores.represents free
  have number : h.server.accepts connfd = s.accepts connfd := by
    rw [stores.rest]
    rfl
  refine ⟨⟨HeapServer.openClient h.server connfd, set h.timerOf connfd (some addr), now⟩, ?_, ⟨wf, ?_, ?_, ?_, ?_⟩, ?_⟩
  · simp only [HeapServer.initClient, number]
    have step := inserted
    simp only [added] at step
    rw [step]
    rfl
  · rw [stores.rest, bare_open s connfd cur]
  · change Represents now ((addTimer added s.timers).map _)
    rw [← relocate_add, relocate_same place _ s.timers older, placed]
    exact after
  · intro fd id points member
    rw [init_users_timer] at points
    by_cases same : fd = connfd
    · rw [if_pos same] at points
      cases points
      change set h.timerOf connfd (some addr) fd = _
      rw [same, set_here, Function.update_self]
    · rw [if_neg same] at points
      have below := stores.wf.bounded fd id points
      change set h.timerOf connfd (some addr) fd = _
      rw [set_elsewhere _ _ _ _ same, Function.update_of_ne (Nat.ne_of_lt below)]
      refine stores.pointer fd id points ?_
      have perm := (add_timer_perm added s.timers).map Timer.id
      rcases List.mem_cons.mp (perm.mem_iff.mp member) with fresh | inside
      · exact absurd fresh (Nat.ne_of_lt below)
      · exact inside
  · intro fd points
    rw [init_users_timer] at points
    split at points
    · cases points
    · rename_i same
      change set h.timerOf connfd (some addr) fd = _
      rw [set_elsewhere _ _ _ _ same]
      exact stores.null fd points
  · intro other different absent
    by_contra present
    have inside := after.only other present
    have perm := (add_timer_perm { added with id := addr } (s.timers.map (relocate place))).map Timer.id
    rcases List.mem_cons.mp (perm.mem_iff.mp inside) with same | old
    · exact different same
    · obtain ⟨timer, member, same⟩ := List.mem_map.mp old
      exact shape_present h.lst _ stores.represents.toShape timer member (same ▸ absent)

end Relocation

section Steps

theorem stores_accept (fresh : Fd → Addr) (accepted : List (Fd × Int)) (place : Nat → Addr) (h : HeapServer) (s t : State)
    (stores : Stores place h s) (free : ∀ fd ∈ accepted.map Prod.fst, h.lst.memory.cells (fresh fd) = none)
    (distinct : ((accepted.map Prod.fst).map fresh).Nodup) (ok : s.acceptClients accepted = .ok t) :
    ∃ g, HeapServer.acceptClients fresh accepted h = .ok g ∧ ∃ later, Stores later g t := by
  induction accepted generalizing place h s with
  | nil =>
      cases ok
      exact ⟨h, rfl, place, stores⟩
  | cons connection rest ih =>
      obtain ⟨connfd, cur⟩ := connection
      obtain ⟨here, later⟩ := List.forall_mem_cons.mp free
      obtain ⟨apart, laterDistinct⟩ := List.nodup_cons.mp distinct
      have count : h.server.userCount = s.userCount := by
        rw [stores.rest]
        rfl
      unfold State.acceptClients at ok
      unfold HeapServer.acceptClients
      rw [count]
      split at ok
      · rename_i full
        cases ok
        rw [if_pos full]
        exact ⟨h, rfl, place, stores⟩
      · rename_i room
        split at ok
        · cases ok
        · rename_i small
          obtain ⟨g, opened, kept, untouched⟩ := stores_init place h s connfd cur (fresh connfd) stores here
          have still : ∀ fd ∈ rest.map Prod.fst, g.lst.memory.cells (fresh fd) = none := by
            intro fd member
            refine untouched (fresh fd) (fun same => apart ?_) (later fd member)
            rw [← same]
            exact List.mem_map_of_mem member
          obtain ⟨last, accepted, final⟩ := ih _ g _ kept still laterDistinct ok
          rw [if_neg room, if_neg small, opened]
          exact ⟨last, accepted, final⟩

theorem stores_client (place : Nat → Addr) (h : HeapServer) (s t : State) (ready : Ready) (answers : Answers)
    (stores : Stores place h s) (ok : s.handleClient ready answers = .ok t) :
    ∃ g, h.handleClient ready answers = .ok g ∧ Stores place g t := by
  unfold State.handleClient at ok
  unfold HeapServer.handleClient
  by_cases hangup : ready.hangup = true
  · rw [if_pos hangup] at ok ⊢
    exact stores_drop place h s t ready.fd stores ok
  · rw [if_neg hangup] at ok ⊢
    by_cases input : ready.input = true
    · rw [if_pos input] at ok ⊢
      by_cases read : answers.read = true
      · rw [if_pos read] at ok ⊢
        refine stores_extend place _ _ t ready.fd answers.cur ?_ ok
        refine stores_same place h s _ _ stores (well_formed_append s stores.wf ready.fd answers.queued) ?_ ?_
          (append_same s ready.fd answers.queued).users
        · rw [stores.rest, bare_append]
        · unfold State.appendJob
          split <;> rfl
      · rw [if_neg read] at ok ⊢
        exact stores_drop place h s t ready.fd stores ok
    · rw [if_neg input] at ok ⊢
      by_cases output : ready.output = true
      · rw [if_pos output] at ok ⊢
        cases written : answers.write with
        | none =>
            rw [written] at ok
            exact stores_drop place h s t ready.fd stores ok
        | some interest =>
            rw [written] at ok
            have held : h.server.sockfd ready.fd = s.sockfd ready.fd := by
              rw [stores.rest]
              rfl
            refine stores_extend place _ _ t ready.fd answers.cur ?_ ok
            refine stores_same place h s _ _ stores (well_formed_modfd s stores.wf (s.sockfd ready.fd) interest) ?_ ?_
              (modfd_same s (s.sockfd ready.fd) interest).users
            · rw [stores.rest, bare_modfd]
              rfl
            · exact modfd_timers s (s.sockfd ready.fd) interest
      · rw [if_neg output] at ok ⊢
        cases ok
        exact ⟨h, rfl, stores⟩

theorem stores_handle (fresh : Fd → Addr) (place : Nat → Addr) (h : HeapServer) (s t : State) (event : Event) (answers : Answers)
    (stores : Stores place h s) (free : ∀ fd ∈ answers.accepted.map Prod.fst, h.lst.memory.cells (fresh fd) = none)
    (distinct : ((answers.accepted.map Prod.fst).map fresh).Nodup) (ok : s.handle event answers = .ok t) :
    ∃ g, h.handle event answers fresh = .ok g ∧ ∃ later, Stores later g t := by
  cases event with
  | listen => exact stores_accept fresh answers.accepted place h s t stores free distinct ok
  | signals =>
      cases ok
      refine ⟨_, rfl, place, ?_⟩
      refine stores_same place h s _ _ stores (well_formed_loop s stores.wf _ _ _ _) ?_ rfl rfl
      rw [stores.rest]
      rfl
  | client ready =>
      obtain ⟨g, handled, kept⟩ := stores_client place h s t ready answers stores ok
      exact ⟨g, handled, place, kept⟩

theorem tick_from_called (cur : Int) (timers : TimerList) (s : State) (whole : s.timers = timers) :
    (State.tickFrom cur timers s).timers = timers.dropWhile (fun timer => decide (timer.expire ≤ cur)) ∧
      (State.tickFrom cur timers s).usersTimer = s.usersTimer ∧ (State.tickFrom cur timers s).bare =
        (timers.takeWhile fun timer => decide (timer.expire ≤ cur)).foldl (fun server timer => server.cbFunc timer.userData) s.bare := by
  induction timers generalizing s with
  | nil => exact ⟨whole, rfl, rfl⟩
  | cons timer rest ih =>
      unfold State.tickFrom
      by_cases early : cur < timer.expire
      · have notDue : decide (timer.expire ≤ cur) = false := decide_eq_false (by omega)
        rw [if_pos early, List.dropWhile_cons, List.takeWhile_cons, notDue]
        exact ⟨whole, rfl, rfl⟩
      · have due : decide (timer.expire ≤ cur) = true := decide_eq_true (by omega)
        obtain ⟨timers, users, bare⟩ := ih (s.expireHead timer rest) rfl
        rw [if_neg early, List.dropWhile_cons, List.takeWhile_cons, due]
        exact ⟨timers, users, bare⟩

theorem stores_tick (place : Nat → Addr) (h : HeapServer) (s : State) (cur : Int) (stores : Stores place h s) :
    ∃ g, h.timerHandler cur = .ok g ∧ Stores place g (s.timerHandler cur) := by
  obtain ⟨now, ticked, after⟩ := tick_from_represents h.lst.memory.allocated h.lst _ cur stores.represents
    (by rw [stores.represents.allocated])
  obtain ⟨left, users, bare⟩ := tick_from_called cur s.timers s rfl
  have due : (fun timer : Timer => decide (timer.expire ≤ cur)) ∘ relocate place = fun timer => decide (timer.expire ≤ cur) := rfl
  rw [List.takeWhile_map, due] at ticked
  rw [List.dropWhile_map, due] at after
  let called := s.timers.takeWhile fun timer => decide (timer.expire ≤ cur)
  let closed := called.foldl (fun server timer => server.cbFunc timer.userData) h.server
  refine ⟨⟨{ closed with timeout := false }, h.timerOf, now⟩, ?_, well_formed_tick s stores.wf cur, ?_, ?_, ?_, ?_⟩
  · rw [HeapServer.timerHandler, SortTimerLst.tick, ticked]
    dsimp only [inHeap, Except.mapError, bind, Except.bind]
    rw [List.foldl_map]
    rfl
  · change ({ closed with timeout := false } : State) = { (State.tickFrom cur s.timers s).bare with timeout := false }
    rw [bare, ← stores.rest]
  · change Represents now ((State.tickFrom cur s.timers s).timers.map _)
    rw [left]
    exact after
  · intro fd id points member
    have points : ((State.tickFrom cur s.timers s).usersTimer fd).timer = some id := points
    have member : id ∈ (State.tickFrom cur s.timers s).timers.map Timer.id := member
    rw [users] at points
    rw [left] at member
    exact stores.pointer fd id points (((List.dropWhile_sublist _).map Timer.id).subset member)
  · intro fd points
    have points : ((State.tickFrom cur s.timers s).usersTimer fd).timer = none := points
    rw [users] at points
    exact stores.null fd points

def Related (h : HeapServer) (s : State) : Prop := ∃ place, Stores place h s

theorem heap_step (h : HeapServer) (s : State) (step : HeapLabel) (related : Related h s) (offered : heapMachine.guard h step) :
    machine.guard s step.label ∧
      ∀ t, machine.effect s step.label = .ok t → ∃ g, heapMachine.effect h step = .ok g ∧ Related g t := by
  obtain ⟨place, stores⟩ := related
  obtain ⟨label, fresh⟩ := step
  obtain ⟨plain, memory⟩ := offered
  have guard : s.offers label := bare_offers s label (by rw [← stores.rest]; exact plain)
  refine ⟨guard, fun t effect => ?_⟩
  have wf := well_formed_step s t label stores.wf ⟨guard, effect⟩
  cases label with
  | wait batch =>
      cases effect
      have kept := disarm_same batch s
      refine ⟨_, rfl, place, stores_same place h s _ _ stores wf ?_ (disarm_timers batch s) kept.users⟩
      rw [stores.rest, ← bare_disarm]
      rfl
  | handle answers =>
      obtain ⟨event, rest, pending, ok⟩ := handle_effect s t answers ⟨guard, effect⟩
      have same : h.server.pending = event :: rest := by
        rw [stores.rest]
        exact pending
      have handled : Stores place { h with server := h.server.withPending rest } (s.withPending rest) := by
        refine stores_same place h s _ _ stores (well_formed_loop s stores.wf _ rest _ _) ?_ rfl rfl
        rw [stores.rest]
        rfl
      obtain ⟨g, reached, later, kept⟩ := stores_handle fresh place _ _ t event answers handled memory.1 memory.2 ok
      refine ⟨g, ?_, later, kept⟩
      change h.effect ⟨.handle answers, fresh⟩ = .ok g
      unfold HeapServer.effect
      dsimp only
      rw [same]
      exact reached
  | tick cur =>
      cases effect
      obtain ⟨g, ticked, kept⟩ := stores_tick place h s cur stores
      exact ⟨g, ticked, place, kept⟩
  | finish slot outcome =>
      cases effect
      obtain ⟨timers, users, _⟩ := finish_users s slot outcome
      refine ⟨_, rfl, place, stores_same place h s _ _ stores wf ?_ timers users⟩
      rw [stores.rest, bare_finish]

theorem start_related : Related .start .start := by
  refine ⟨id, start_well_formed, rfl, start_tracks.rep, ?_, fun _ _ => rfl⟩
  intro fd number points
  cases points

theorem heap_server_follows (steps : List HeapLabel) :
    Follows heapMachine machine HeapLabel.label Related .start .start steps :=
  follows_of_step heapMachine machine HeapLabel.label Related heap_step .start .start steps start_related

end Steps

section Faultless

def Fits : Label → Prop
  | .handle answers => ∀ fd ∈ answers.accepted.map Prod.fst, fd < maxFd
  | _ => True

def Spared (s : State) (label : Label) : Prop := TickSparesBatch s label ∧ Fits label

theorem linked_designated (s : State) (fd : Fd) (linked : s.Linked fd) : ∃ id, s.designated fd = .ok id := by
  obtain ⟨link, member, pointer⟩ := linked
  have inside : link.id ∈ s.timers.map Timer.id := by
    rw [← link_id_eq]
    exact List.mem_map_of_mem member
  exact ⟨link.id, by simp only [State.designated, pointer, if_pos inside]⟩

theorem linked_drops (s : State) (fd : Fd) (linked : s.Linked fd) : ∃ t, s.dropClient fd = .ok t := by
  obtain ⟨id, found⟩ := linked_designated s fd linked
  rw [State.dropClient, found]
  exact ⟨_, rfl⟩

theorem linked_extends (s : State) (fd : Fd) (cur : Int) (linked : s.Linked fd) : ∃ t, s.extendTimer fd cur = .ok t := by
  obtain ⟨id, found⟩ := linked_designated s fd linked
  obtain ⟨link, _, pointer⟩ := linked
  simp only [State.extendTimer, pointer]
  rw [found]
  exact ⟨_, rfl⟩

theorem fitting_accepts (accepted : List (Fd × Int)) (s : State) (small : ∀ fd ∈ accepted.map Prod.fst, fd < maxFd) :
    ∃ t, s.acceptClients accepted = .ok t := by
  induction accepted generalizing s with
  | nil => exact ⟨s, rfl⟩
  | cons connection rest ih =>
      obtain ⟨here, later⟩ := List.forall_mem_cons.mp small
      unfold State.acceptClients
      split
      · exact ⟨s, rfl⟩
      · rw [if_neg (Nat.not_le.mpr here)]
        exact ih _ later

theorem linked_client (s : State) (ready : Ready) (answers : Answers)
    (linked : ready.hangup = true ∨ ready.input = true ∨ ready.output = true → s.Linked ready.fd) :
    ∃ t, s.handleClient ready answers = .ok t := by
  unfold State.handleClient
  by_cases hangup : ready.hangup = true
  · rw [if_pos hangup]
    exact linked_drops s ready.fd (linked (.inl hangup))
  · rw [if_neg hangup]
    by_cases input : ready.input = true
    · have here := linked (.inr (.inl input))
      rw [if_pos input]
      split
      · exact linked_extends _ ready.fd answers.cur (linked_of_same s _ ready.fd (append_same s _ _) here)
      · exact linked_drops s ready.fd here
    · rw [if_neg input]
      by_cases output : ready.output = true
      · have here := linked (.inr (.inr output))
        rw [if_pos output]
        cases answers.write with
        | none => exact linked_drops s ready.fd here
        | some interest => exact linked_extends _ ready.fd answers.cur (linked_of_same s _ ready.fd (modfd_same s _ interest) here)
      · rw [if_neg output]
        exact ⟨s, rfl⟩

theorem spared_steps (s : State) (label : Label) (inv : BatchLinked s) (offered : s.offers label) (spared : Spared s label) :
    ∃ t, s.effect label = .ok t := by
  cases label with
  | wait batch => exact ⟨_, rfl⟩
  | tick cur => exact ⟨_, rfl⟩
  | finish slot outcome => exact ⟨_, rfl⟩
  | handle answers =>
      obtain ⟨event, rest, pending⟩ := List.exists_cons_of_ne_nil offered.1
      simp only [State.effect, pending]
      cases event with
      | listen => exact fitting_accepts answers.accepted _ spared.2
      | signals => exact ⟨_, rfl⟩
      | client ready => exact linked_client _ ready answers fun _ => inv.pending ready (by rw [pending]; exact List.mem_cons_self ..)

theorem spared_run (steps : List HeapLabel) (spared : Along machine Spared State.start (steps.map HeapLabel.label)) :
    Along heapMachine (fun h step => ∃ g, heapMachine.effect h step = .ok g) .start steps ∧
      Always heapMachine (fun h => ∃ s, Related h s) .start steps := by
  have follows := follows_of_step heapMachine machine HeapLabel.label Related heap_step .start .start steps start_related
  refine faultless_of_follows heapMachine machine HeapLabel.label Related Spared BatchLinked ?_ spared_steps .start .start steps
    start_batch_linked follows spared
  exact fun s label t inv ok taken => batch_linked_step s t label inv ok.1 taken

-- The allocator may hand out freed addresses again.
theorem heap_server_faultless (steps : List HeapLabel) (spared : Along machine Spared State.start (steps.map HeapLabel.label)) :
    Along heapMachine (fun h step => ∃ g, heapMachine.effect h step = .ok g) .start steps :=
  (spared_run steps spared).1

def addressReused : List HeapLabel :=
  [.wait [.listen], .handle { noAnswers with accepted := [(7, 0)] }, .wait [.signals],
    .handle { noAnswers with signals := [.alarm] }, .tick 300, .wait [.listen],
    .handle { noAnswers with accepted := [(8, 300)] }].map fun label => ⟨label, fun _ => 40⟩

theorem address_reused_spared : Along machine Spared State.start (addressReused.map HeapLabel.label) := by
  refine along_cons _ _ _ _ _ _ (fun _ => ⟨trivial, trivial⟩) rfl ?_
  refine along_cons _ _ _ _ _ _ (fun _ => ⟨trivial, by simp [Fits, maxFd]⟩) rfl ?_
  refine along_cons _ _ _ _ _ _ (fun _ => ⟨trivial, trivial⟩) rfl ?_
  refine along_cons _ _ _ _ _ _ (fun _ => ⟨trivial, by simp [Fits, noAnswers]⟩) rfl ?_
  refine along_cons _ _ _ _ _ _ (fun _ => ⟨?_, trivial⟩) rfl ?_
  · intro ready member
    cases member
  refine along_cons _ _ _ _ _ _ (fun _ => ⟨trivial, trivial⟩) rfl ?_
  refine along_cons _ _ _ _ _ _ (fun _ => ⟨trivial, by simp [Fits, maxFd]⟩) rfl ?_
  trivial

theorem heap_server_faultless_reused :
    Along heapMachine (fun h step => ∃ g, heapMachine.effect h step = .ok g) .start addressReused :=
  heap_server_faultless addressReused address_reused_spared

end Faultless

end WzyServer.Server
