import Mathlib.Data.Finset.Card
import WzyServer.Base.Run
import WzyServer.Server.Timer

set_option autoImplicit false

namespace WzyServer.Server

open Run

def maxFd : Nat := 65536
def timeslot : Int := 100

inductive Interest where
  | input | output
deriving DecidableEq, Repr

structure Ready where
  fd : Fd
  hangup : Bool
  input : Bool
  output : Bool
deriving DecidableEq, Repr

inductive Event where
  | listen
  | signals
  | client (ready : Ready)
deriving DecidableEq, Repr

inductive Signal where
  | alarm | term
deriving DecidableEq, Repr

inductive Fault where
  | nullTimer | deadTimer | outOfBounds
deriving DecidableEq, Repr

structure ClientData where
  sockfd : Fd
  timer : Option Nat
deriving DecidableEq, Repr

-- `opened`, `interest` and `accepts` are the kernel's: the open client sockets,
-- what epoll would report, how often each descriptor was handed out. The rest is
-- the program's: users[fd].m_sockfd (`none` is -1), m_user_count, users_timer,
-- timer_lst, the jobs given to the pool, the events still to be handled.
structure State where
  opened : Finset Fd
  interest : Fd → Option Interest
  accepts : Fd → Nat
  sockfd : Fd → Option Fd
  userCount : Int
  usersTimer : Fd → ClientData
  timers : TimerList
  nextTimer : Nat
  jobs : List Fd
  pending : List Event
  timeout : Bool
  stopServer : Bool

def set {α : Type} (table : Fd → α) (fd : Fd) (value : α) : Fd → α := fun other => if other = fd then value else table other

@[simp] theorem set_here {α : Type} (table : Fd → α) (fd : Fd) (value : α) : set table fd value fd = value := by
  simp [set]

theorem set_elsewhere {α : Type} (table : Fd → α) (fd other : Fd) (value : α) (different : other ≠ fd) :
    set table fd value other = table other := by
  simp [set, different]

namespace State

def start : State where
  opened := ∅
  interest := fun _ => none
  accepts := fun _ => 0
  sockfd := fun _ => none
  userCount := 0
  usersTimer := fun _ => ⟨0, none⟩
  timers := []
  nextTimer := 0
  jobs := []
  pending := []
  timeout := false
  stopServer := false

-- epoll_ctl refuses a descriptor that is not open.
def modfd (s : State) (fd : Option Fd) (interest : Interest) : State :=
  match fd with
  | none => s
  | some fd => if fd ∈ s.opened then { s with interest := set s.interest fd (some interest) } else s

-- EPOLL_CTL_DEL and close: nothing happens to a descriptor that is not open.
def removefd (s : State) (fd : Fd) : State :=
  { s with opened := s.opened.erase fd, interest := set s.interest fd none }

def closeConn (s : State) (slot : Fd) : State :=
  match s.sockfd slot with
  | none => s
  | some fd => { s.removefd fd with sockfd := set s.sockfd slot none, userCount := s.userCount - 1 }

def cbFunc (s : State) (userData : Fd) : State :=
  { s.removefd (s.usersTimer userData).sockfd with userCount := s.userCount - 1 }

def appendJob (s : State) (slot : Fd) (room : Bool) : State := if room then { s with jobs := s.jobs ++ [slot] } else s

def takeJob (s : State) (slot : Fd) : State := { s with jobs := s.jobs.erase slot }

def designated (s : State) (fd : Fd) : Except Fault Nat :=
  match (s.usersTimer fd).timer with
  | none => .error .nullTimer
  | some id => if id ∈ s.timers.map Timer.id then .ok id else .error .deadTimer

def dropClient (s : State) (fd : Fd) : Except Fault State := do
  let id ← s.designated fd
  let closed := s.cbFunc fd
  return { closed with timers := delTimer id closed.timers }

def extendTimer (s : State) (fd : Fd) (cur : Int) : Except Fault State :=
  match (s.usersTimer fd).timer with
  | none => .ok s
  | some _ => do
      let id ← s.designated fd
      return { s with timers := refreshTimer id (cur + 3 * timeslot) s.timers }

def initClient (s : State) (connfd : Fd) (cur : Int) : State :=
  let timer : Timer := ⟨s.nextTimer, cur + 3 * timeslot, connfd, ⟨connfd, s.accepts connfd + 1⟩⟩
  { s with
    opened := insert connfd s.opened, interest := set s.interest connfd (some .input),
    accepts := set s.accepts connfd (s.accepts connfd + 1), sockfd := set s.sockfd connfd (some connfd),
    userCount := s.userCount + 1, usersTimer := set s.usersTimer connfd ⟨connfd, some s.nextTimer⟩,
    timers := addTimer timer s.timers, nextTimer := s.nextTimer + 1 }

-- The accept loop, over the descriptors accept returns before it fails and the
-- time read after each. A refused one is closed again at once.
def acceptClients : List (Fd × Int) → State → Except Fault State
  | [], s => .ok s
  | (connfd, cur) :: rest, s =>
      if (maxFd : Int) ≤ s.userCount then .ok s
      else if maxFd ≤ connfd then .error .outOfBounds
      else acceptClients rest (s.initClient connfd cur)

def expireHead (s : State) (timer : Timer) (rest : TimerList) : State := { s.cbFunc timer.userData with timers := rest }

def tickFrom (cur : Int) : TimerList → State → State
  | [], s => s
  | timer :: rest, s => if cur < timer.expire then s else tickFrom cur rest (s.expireHead timer rest)

def timerHandler (s : State) (cur : Int) : State := { tickFrom cur s.timers s with timeout := false }

end State

-- What the system answers while an event is handled: the descriptors of accept,
-- the bytes on the signal pipe, the result of http_conn::read and whether the
-- queue has room, the result of http_conn::write (`none` is false, and true comes
-- with the events it asks for), and the time.
structure Answers where
  accepted : List (Fd × Int)
  signals : List Signal
  read : Bool
  queued : Bool
  write : Option Interest
  cur : Int

-- How http_conn::process ends: with modfd(EPOLLIN), with modfd(EPOLLOUT), or with
-- close_conn (and a modfd of descriptor -1).
inductive Finish where
  | moreInput | response | closed
deriving DecidableEq, Repr

def State.handleClient (s : State) (ready : Ready) (answers : Answers) : Except Fault State :=
  if ready.hangup then s.dropClient ready.fd
  else if ready.input then
    if answers.read then
      (s.appendJob ready.fd answers.queued).extendTimer ready.fd answers.cur
    else s.dropClient ready.fd
  else if ready.output then
    match answers.write with
    | some interest => (s.modfd (s.sockfd ready.fd) interest).extendTimer ready.fd answers.cur
    | none => s.dropClient ready.fd
  else .ok s

def State.handle (s : State) (event : Event) (answers : Answers) : Except Fault State :=
  match event with
  | .listen => s.acceptClients answers.accepted
  | .signals => .ok { s with
      timeout := s.timeout || answers.signals.contains .alarm, stopServer := s.stopServer || answers.signals.contains .term }
  | .client ready => s.handleClient ready answers

def State.finish (s : State) (slot : Fd) (outcome : Finish) : State :=
  match outcome with
  | .moreInput => (s.takeJob slot).modfd (s.sockfd slot) .input
  | .response => (s.takeJob slot).modfd (s.sockfd slot) .output
  | .closed => (s.takeJob slot).closeConn slot

-- The steps of the main thread and of the workers, in any interleaving. The test
-- of `timeout` stands behind every event, and `continue` skips it only where
-- timeout is false, so a tick comes exactly between the event that sets timeout
-- and the next one.
inductive Label where
  | wait (batch : List Event)
  | handle (answers : Answers)
  | tick (cur : Int)
  | finish (slot : Fd) (outcome : Finish)

-- The key by which epoll reports an entry at most once.
def Event.key : Event → Option Fd × Bool
  | .listen => (none, false)
  | .signals => (none, true)
  | .client ready => (some ready.fd, false)

def State.reports (s : State) : Event → Bool
  | .client ready => match s.interest ready.fd with
      | none => false
      | some .input => !ready.output
      | some .output => !ready.input
  | _ => true

def State.disarm (s : State) : List Event → State
  | [] => s
  | .client ready :: rest => ({ s with interest := set s.interest ready.fd none } : State).disarm rest
  | _ :: rest => s.disarm rest

def State.withPending (s : State) (events : List Event) : State := { s with pending := events }

def State.offers (s : State) : Label → Prop
  | .wait batch => s.pending = [] ∧ s.timeout = false ∧ s.stopServer = false ∧ (batch.map Event.key).Nodup ∧
      ∀ event ∈ batch, s.reports event = true
  | .handle answers => s.pending ≠ [] ∧ s.timeout = false ∧ (answers.accepted.map Prod.fst).Nodup ∧
      ∀ fd ∈ answers.accepted.map Prod.fst, fd ∉ s.opened
  | .tick _ => s.timeout = true
  | .finish slot _ => slot ∈ s.jobs

def State.effect (s : State) : Label → Except Fault State
  | .wait batch => .ok ((s.disarm batch).withPending batch)
  | .handle answers => match s.pending with
      | [] => .ok s
      | event :: rest => (s.withPending rest).handle event answers
  | .tick cur => .ok (s.timerHandler cur)
  | .finish slot outcome => .ok (s.finish slot outcome)

def machine : Machine State Label Fault where
  guard := State.offers
  effect := State.effect

instance (s : State) (label : Label) : Decidable (machine.guard s label) :=
  match label with
  | .wait batch => inferInstanceAs (Decidable (s.pending = [] ∧ s.timeout = false ∧ s.stopServer = false ∧
      (batch.map Event.key).Nodup ∧ ∀ event ∈ batch, s.reports event = true))
  | .handle answers => inferInstanceAs (Decidable (s.pending ≠ [] ∧ s.timeout = false ∧
      (answers.accepted.map Prod.fst).Nodup ∧ ∀ fd ∈ answers.accepted.map Prod.fst, fd ∉ s.opened))
  | .tick _ => inferInstanceAs (Decidable (s.timeout = true))
  | .finish slot _ => inferInstanceAs (Decidable (slot ∈ s.jobs))

end WzyServer.Server
