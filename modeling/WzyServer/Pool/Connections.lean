import Mathlib.Data.List.Range
import WzyServer.Base.Run
import WzyServer.Base.Threads

set_option autoImplicit false

namespace WzyServer.Pool

open Run

-- A MYSQL object, numbered by the mysql_init that allocated it.
abbrev Handle := Nat

inductive PoolFault where
  | emptyList
deriving DecidableEq, Repr

-- What sem_init accepts.
def semValueMax : Nat := 2147483647

-- connection_pool, whose counters are unsigned ints. `reserve` is the value of the
-- semaphore.
structure ConnectionPool where
  maxConn : UInt32
  curConn : UInt32
  freeConn : UInt32
  connList : List Handle
  reserve : Nat
deriving DecidableEq, Repr

namespace ConnectionPool

-- The loop of init, which leaves the program where no connection comes about.
def connect : Nat → ConnectionPool → ConnectionPool
  | 0, pool => pool
  | con + 1, pool =>
      let pool := connect con pool
      { pool with connList := pool.connList ++ [con], freeConn := pool.freeConn + 1 }

-- connection_pool::init on the static object. `none` is the exception of sem(m_freeConn).
def init (maxConn : UInt32) : Option ConnectionPool :=
  let pool := connect maxConn.toNat ⟨maxConn, 0, 0, [], 0⟩
  if pool.freeConn.toNat ≤ semValueMax then
    some { pool with reserve := pool.freeConn.toNat, maxConn := pool.freeConn }
  else none

def take (pool : ConnectionPool) : Except PoolFault (Handle × ConnectionPool) :=
  match pool.connList with
  | [] => .error .emptyList
  | con :: rest =>
      .ok (con, { pool with connList := rest, freeConn := pool.freeConn - 1, curConn := pool.curConn + 1 })

def give (pool : ConnectionPool) (conn : Handle) : ConnectionPool :=
  { pool with connList := pool.connList ++ [conn], freeConn := pool.freeConn + 1, curConn := pool.curConn - 1 }

def wait (pool : ConnectionPool) : ConnectionPool := { pool with reserve := pool.reserve - 1 }
def post (pool : ConnectionPool) : ConnectionPool := { pool with reserve := pool.reserve + 1 }

end ConnectionPool

-- A caller between two of its steps: in neither function, in getConnection behind
-- the size check or behind the wait, in releaseConnection behind the unlock.
inductive Place where
  | outside
  | checked
  | admitted
  | pushed
deriving DecidableEq, Repr

structure Thread where
  place : Place
  holding : List Handle
deriving DecidableEq, Repr

structure Connections where
  pool : ConnectionPool
  threads : List Thread
deriving DecidableEq, Repr

-- The steps of getConnection (the size check, the wait, the locked pop) and of
-- releaseConnection (the locked push, the post). A null handle is not released.
inductive ConnLabel where
  | check (thread : Nat)
  | wait (thread : Nat)
  | pop (thread : Nat)
  | push (thread : Nat) (conn : Option Handle)
  | post (thread : Nat)
deriving DecidableEq, Repr

namespace Connections

def start (pool : ConnectionPool) (threads : Nat) : Connections := ⟨pool, List.replicate threads ⟨.outside, []⟩⟩

def sets (s : Connections) (thread : Nat) (now : Thread) : Connections := { s with threads := s.threads.set thread now }

def step (s : Connections) (self : Thread) : ConnLabel → Except PoolFault Connections
  | .check thread => .ok (if s.pool.connList.length = 0 then s else s.sets thread { self with place := .checked })
  | .wait thread => .ok { s.sets thread { self with place := .admitted } with pool := s.pool.wait }
  | .pop thread => do
      let (con, pool) ← s.pool.take
      return { s.sets thread ⟨.outside, self.holding ++ [con]⟩ with pool := pool }
  | .push _ none => .ok s
  | .push thread (some conn) => .ok { s.sets thread ⟨.pushed, self.holding.erase conn⟩ with pool := s.pool.give conn }
  | .post thread => .ok { s.sets thread { self with place := .outside } with pool := s.pool.post }

def allows (s : Connections) (self : Thread) : ConnLabel → Prop
  | .check _ => self.place = .outside
  | .wait _ => self.place = .checked ∧ 0 < s.pool.reserve
  | .pop _ => self.place = .admitted
  | .push _ conn => self.place = .outside ∧ ∀ handle, conn = some handle → handle ∈ self.holding
  | .post _ => self.place = .pushed

instance decidableAllows (s : Connections) (self : Thread) (label : ConnLabel) : Decidable (s.allows self label) := match label with
  | .check _ => inferInstanceAs (Decidable (self.place = .outside))
  | .wait _ => inferInstanceAs (Decidable (self.place = .checked ∧ 0 < s.pool.reserve))
  | .pop _ => inferInstanceAs (Decidable (self.place = .admitted))
  | .push _ conn =>
      decidable_of_iff (self.place = .outside ∧ ∀ handle ∈ conn, handle ∈ self.holding) Iff.rfl
  | .post _ => inferInstanceAs (Decidable (self.place = .pushed))

end Connections

def ConnLabel.thread : ConnLabel → Nat
  | .check thread => thread
  | .wait thread => thread
  | .pop thread => thread
  | .push thread _ => thread
  | .post thread => thread

def connMachine : Machine Connections ConnLabel PoolFault where
  guard := fun s label => ∃ self, s.threads[label.thread]? = some self ∧ s.allows self label
  effect := fun s label => match s.threads[label.thread]? with
    | some self => s.step self label
    | none => .ok s

instance Connections.decidableGuard (s : Connections) (label : ConnLabel) : Decidable (connMachine.guard s label) :=
  decidable_of_iff (∃ self ∈ s.threads[label.thread]?, s.allows self label) Iff.rfl

def Place.isAdmitted : Place → Nat
  | .admitted => 1
  | _ => 0

def Place.isPushed : Place → Nat
  | .pushed => 1
  | _ => 0

def Connections.held (s : Connections) : List Handle := s.threads.flatMap Thread.holding
def Connections.admitted (s : Connections) : Nat := Threads.total (fun thread => thread.place.isAdmitted) s.threads
def Connections.pushed (s : Connections) : Nat := Threads.total (fun thread => thread.place.isPushed) s.threads

-- `admission` ties the semaphore to the list: a thread behind its wait is owed a
-- handle, a post that is still to come stands for one.
structure Conserved (count : Nat) (s : Connections) : Prop where
  small : count < 2 ^ 32
  handles : (s.pool.connList ++ s.held).Perm (List.range count)
  free : s.pool.freeConn.toNat = s.pool.connList.length
  cur : s.pool.curConn.toNat = s.held.length
  max : s.pool.maxConn.toNat = count
  admission : s.pool.reserve + s.admitted + s.pushed = s.pool.connList.length

theorem connect_loop (count : Nat) (maxConn : UInt32) (small : count < 2 ^ 32) :
    (ConnectionPool.connect count ⟨maxConn, 0, 0, [], 0⟩).connList = List.range count ∧
      (ConnectionPool.connect count ⟨maxConn, 0, 0, [], 0⟩).freeConn.toNat = count ∧
      (ConnectionPool.connect count ⟨maxConn, 0, 0, [], 0⟩).curConn = 0 := by
  induction count with
  | zero => exact ⟨rfl, rfl, rfl⟩
  | succ count ih =>
      obtain ⟨list, free, cur⟩ := ih (by omega)
      refine ⟨?_, ?_, cur⟩
      · rw [ConnectionPool.connect, List.range_succ, ← list]
      · rw [ConnectionPool.connect, UInt32.toNat_add, free]
        exact Nat.mod_eq_of_lt small

theorem threads_outside (pool : ConnectionPool) (threads : Nat) : (Connections.start pool threads).held = [] ∧
    (Connections.start pool threads).admitted = 0 ∧ (Connections.start pool threads).pushed = 0 := by
  refine ⟨?_, Threads.total_replicate_zero _ threads _ rfl, Threads.total_replicate_zero _ threads _ rfl⟩
  exact List.flatMap_eq_nil_iff.mpr fun thread member => by rw [List.eq_of_mem_replicate member]

theorem init_conserved (maxConn : UInt32) (pool : ConnectionPool) (created : ConnectionPool.init maxConn = some pool)
    (threads : Nat) : Conserved maxConn.toNat (.start pool threads) := by
  have small := maxConn.toNat_lt
  obtain ⟨held, admitted, pushed⟩ := threads_outside pool threads
  obtain ⟨list, free, cur⟩ := connect_loop maxConn.toNat maxConn small
  rw [ConnectionPool.init] at created
  generalize ConnectionPool.connect maxConn.toNat ⟨maxConn, 0, 0, [], 0⟩ = connected at list free cur created
  split at created
  · cases created
    refine ⟨small, ?_, ?_, ?_, free, ?_⟩
    · rw [held, List.append_nil, Connections.start, list]
    · rw [Connections.start, free, list, List.length_range]
    · rw [held, Connections.start, cur]
      rfl
    · rw [admitted, pushed, Connections.start, free, list, List.length_range]
      rfl
  · cases created

structure Moved (s t : Connections) (before after : Thread) : Prop where
  held : (t.held ++ before.holding).Perm (s.held ++ after.holding)
  admitted : t.admitted + before.place.isAdmitted = s.admitted + after.place.isAdmitted
  pushed : t.pushed + before.place.isPushed = s.pushed + after.place.isPushed

theorem moved_sets (s t : Connections) (thread : Nat) (before after : Thread) (here : s.threads[thread]? = some before)
    (threads : t.threads = s.threads.set thread after) : Moved s t before after := by
  refine ⟨?_, ?_, ?_⟩
  · rw [Connections.held, threads]
    exact Threads.flatMap_set_perm Thread.holding s.threads thread before after here
  · rw [Connections.admitted, threads]
    exact Threads.total_set (fun thread => thread.place.isAdmitted) s.threads thread before after here
  · rw [Connections.pushed, threads]
    exact Threads.total_set (fun thread => thread.place.isPushed) s.threads thread before after here

structure Booked (s : Connections) : Prop where
  free : s.pool.freeConn.toNat = s.pool.connList.length
  cur : s.pool.curConn.toNat = s.held.length
  small : s.pool.connList.length + s.held.length < 2 ^ 32

theorem walk_held (s t : Connections) (thread : Nat) (before : Thread) (place : Place) (here : s.threads[thread]? = some before)
    (threads : t.threads = s.threads.set thread { before with place := place }) : t.held.length = s.held.length := by
  have same := (moved_sets s t thread before _ here threads).held.length_eq
  rwa [List.length_append, List.length_append, Nat.add_right_cancel_iff] at same

theorem booked_walk (s t : Connections) (thread : Nat) (before : Thread) (place : Place) (reserve : Nat)
    (booked : Booked s) (here : s.threads[thread]? = some before)
    (threads : t.threads = s.threads.set thread { before with place := place })
    (pool : t.pool = { s.pool with reserve := reserve }) : Booked t := by
  have same := walk_held s t thread before place here threads
  refine ⟨?_, ?_, ?_⟩
  · rw [pool]
    exact booked.free
  · rw [pool, same]
    exact booked.cur
  · rw [pool, same]
    exact booked.small

theorem booked_pop (s t : Connections) (thread : Nat) (holding : List Handle) (con : Handle) (rest : List Handle)
    (booked : Booked s) (here : s.threads[thread]? = some ⟨.admitted, holding⟩) (front : s.pool.connList = con :: rest)
    (threads : t.threads = s.threads.set thread ⟨.outside, holding ++ [con]⟩)
    (pool : t.pool = { s.pool with
      connList := rest, freeConn := s.pool.freeConn - 1, curConn := s.pool.curConn + 1 }) :
    Booked t ∧ 0 < s.pool.freeConn.toNat ∧ s.pool.curConn.toNat + 1 < 2 ^ 32 := by
  have longer := (moved_sets s t thread _ _ here threads).held.length_eq
  simp only [List.length_append, List.length_singleton] at longer
  have free := booked.free
  have cur := booked.cur
  have small := booked.small
  rw [front, List.length_cons] at free small
  have below : s.pool.curConn.toNat + 1 < 2 ^ 32 := by omega
  have positive : (1 : UInt32) ≤ s.pool.freeConn := UInt32.le_iff_toNat_le.mpr (by rw [free]; exact Nat.le_add_left 1 _)
  refine ⟨⟨?_, ?_, ?_⟩, by omega, below⟩
  · rw [pool, UInt32.toNat_sub_of_le _ _ positive, free]
    rfl
  · rw [pool, UInt32.toNat_add, UInt32.toNat_one, Nat.mod_eq_of_lt below]
    omega
  · rw [pool]
    dsimp only
    omega

theorem booked_push (s t : Connections) (thread : Nat) (holding : List Handle) (conn : Handle)
    (booked : Booked s) (here : s.threads[thread]? = some ⟨.outside, holding⟩) (mine : conn ∈ holding)
    (threads : t.threads = s.threads.set thread ⟨.pushed, holding.erase conn⟩) (pool : t.pool = s.pool.give conn) :
    Booked t ∧ 0 < s.pool.curConn.toNat ∧ s.pool.freeConn.toNat + 1 < 2 ^ 32 := by
  have shorter := (moved_sets s t thread _ _ here threads).held.length_eq
  have erased := List.length_erase_of_mem mine
  have some := List.length_pos_of_mem mine
  simp only [List.length_append] at shorter
  have free := booked.free
  have cur := booked.cur
  have small := booked.small
  have below : s.pool.freeConn.toNat + 1 < 2 ^ 32 := by omega
  have positive : 0 < s.pool.curConn.toNat := by omega
  have least : (1 : UInt32) ≤ s.pool.curConn := UInt32.le_iff_toNat_le.mpr positive
  refine ⟨⟨?_, ?_, ?_⟩, positive, below⟩
  · rw [pool, ConnectionPool.give, UInt32.toNat_add, UInt32.toNat_one, Nat.mod_eq_of_lt below, free, List.length_append]
    rfl
  · rw [pool, ConnectionPool.give, UInt32.toNat_sub_of_le _ _ least, UInt32.toNat_one]
    omega
  · rw [pool, ConnectionPool.give, List.length_append, List.length_singleton]
    omega

theorem handles_counted (count : Nat) (s : Connections) (inv : Conserved count s) :
    s.pool.connList.length + s.held.length = count := by
  have counted := inv.handles.length_eq
  rwa [List.length_append, List.length_range] at counted

theorem conserved_booked (count : Nat) (s : Connections) (inv : Conserved count s) : Booked s :=
  ⟨inv.free, inv.cur, by rw [handles_counted count s inv]; exact inv.small⟩

theorem conserved_moved (count : Nat) (s t : Connections) (before after : Thread) (inv : Conserved count s)
    (moved : Moved s t before after) (trade : (t.pool.connList ++ after.holding).Perm (s.pool.connList ++ before.holding))
    (booked : Booked t) (max : t.pool.maxConn = s.pool.maxConn)
    (admission : t.pool.reserve + after.place.isAdmitted + after.place.isPushed + s.pool.connList.length =
      s.pool.reserve + before.place.isAdmitted + before.place.isPushed + t.pool.connList.length) : Conserved count t := by
  have handles := inv.handles
  have held := moved.held
  refine ⟨inv.small, ?_, booked.free, booked.cur, by rw [max]; exact inv.max, ?_⟩
  · simp only [← Multiset.coe_eq_coe, ← Multiset.coe_add] at handles held trade ⊢
    rw [← handles]
    apply add_right_cancel (b := (after.holding : Multiset Handle) + before.holding)
    calc (t.pool.connList : Multiset Handle) + t.held + (after.holding + before.holding)
        = (t.pool.connList + after.holding) + (t.held + before.holding) := add_add_add_comm _ _ _ _
      _ = (s.pool.connList + before.holding) + (s.held + after.holding) := by rw [trade, held]
      _ = s.pool.connList + s.held + (before.holding + after.holding) := add_add_add_comm _ _ _ _
      _ = s.pool.connList + s.held + (after.holding + before.holding) := by rw [add_comm (before.holding : Multiset Handle)]
  · have admitted := moved.admitted
    have pushed := moved.pushed
    have before := inv.admission
    omega

theorem admitted_finds (count : Nat) (s : Connections) (thread : Nat) (self : Thread) (inv : Conserved count s)
    (here : s.threads[thread]? = some self) (admitted : self.place = .admitted) : ∃ con rest, s.pool.connList = con :: rest := by
  have leaves := (moved_sets s (s.sets thread ⟨.outside, []⟩) thread self _ here rfl).admitted
  have admission := inv.admission
  cases list : s.pool.connList with
  | nil =>
      simp only [list, admitted, Place.isAdmitted, List.length_nil] at leaves admission
      omega
  | cons con rest => exact ⟨con, rest, rfl⟩

theorem conserved_walk (count : Nat) (s t : Connections) (thread : Nat) (before : Thread) (place : Place) (reserve : Nat)
    (inv : Conserved count s) (here : s.threads[thread]? = some before)
    (threads : t.threads = s.threads.set thread { before with place := place }) (pool : t.pool = { s.pool with reserve := reserve })
    (admission : reserve + place.isAdmitted + place.isPushed =
      s.pool.reserve + before.place.isAdmitted + before.place.isPushed) : Conserved count t := by
  have booked := booked_walk s t thread before place reserve (conserved_booked count s inv) here threads pool
  apply conserved_moved count s t _ _ inv (moved_sets s t thread before _ here threads) _ booked
  · rw [pool]
  · rw [pool]
    exact congrArg (· + s.pool.connList.length) admission
  · rw [pool]

theorem conserved_pop (count : Nat) (s t : Connections) (thread : Nat) (holding : List Handle) (con : Handle) (rest : List Handle)
    (inv : Conserved count s) (here : s.threads[thread]? = some ⟨.admitted, holding⟩) (front : s.pool.connList = con :: rest)
    (threads : t.threads = s.threads.set thread ⟨.outside, holding ++ [con]⟩)
    (pool : t.pool = { s.pool with
      connList := rest, freeConn := s.pool.freeConn - 1, curConn := s.pool.curConn + 1 }) :
    Conserved count t ∧ 0 < s.pool.freeConn.toNat ∧ s.pool.curConn.toNat + 1 < 2 ^ 32 := by
  obtain ⟨booked, positive, below⟩ := booked_pop s t thread holding con rest (conserved_booked count s inv) here front threads pool
  refine ⟨?_, positive, below⟩
  apply conserved_moved count s t _ _ inv (moved_sets s t thread _ _ here threads) _ booked
  · rw [pool]
  · rw [pool, front, List.length_cons]
    simp only [Place.isAdmitted, Place.isPushed]
    omega
  · rw [pool, front, ← List.append_assoc]
    exact List.perm_append_comm

theorem conserved_push (count : Nat) (s t : Connections) (thread : Nat) (holding : List Handle) (conn : Handle)
    (inv : Conserved count s) (here : s.threads[thread]? = some ⟨.outside, holding⟩) (mine : conn ∈ holding)
    (threads : t.threads = s.threads.set thread ⟨.pushed, holding.erase conn⟩) (pool : t.pool = s.pool.give conn) :
    Conserved count t ∧ 0 < s.pool.curConn.toNat ∧ s.pool.freeConn.toNat + 1 < 2 ^ 32 := by
  obtain ⟨booked, positive, below⟩ := booked_push s t thread holding conn (conserved_booked count s inv) here mine threads pool
  refine ⟨?_, positive, below⟩
  apply conserved_moved count s t _ _ inv (moved_sets s t thread _ _ here threads) _ booked
  · rw [pool, ConnectionPool.give]
  · rw [pool, ConnectionPool.give]
    simp only [Place.isAdmitted, Place.isPushed, List.length_append, List.length_singleton]
    omega
  · rw [pool, ConnectionPool.give, List.append_assoc]
    exact (List.perm_cons_erase mine).symm.append_left s.pool.connList

def Connections.Fits (s : Connections) : ConnLabel → Prop
  | .pop _ => 0 < s.pool.freeConn.toNat ∧ s.pool.curConn.toNat + 1 < 2 ^ 32
  | .push _ (some _) => 0 < s.pool.curConn.toNat ∧ s.pool.freeConn.toNat + 1 < 2 ^ 32
  | _ => True

def Unwrapped (s : Connections) (label : ConnLabel) : Prop := (∃ t, connMachine.effect s label = .ok t) ∧ s.Fits label

theorem conn_effect (s : Connections) (label : ConnLabel) (self : Thread) (here : s.threads[label.thread]? = some self) :
    connMachine.effect s label = s.step self label := by
  simp only [connMachine, here]

inductive ConnStep (s : Connections) : ConnLabel → Connections → Prop where
  | turnedAway (thread : Nat) (empty : s.pool.connList.length = 0) : ConnStep s (.check thread) s
  | checked (thread : Nat) (holding : List Handle) (here : s.threads[thread]? = some ⟨.outside, holding⟩) :
      ConnStep s (.check thread) (s.sets thread ⟨.checked, holding⟩)
  | waited (thread : Nat) (holding : List Handle) (here : s.threads[thread]? = some ⟨.checked, holding⟩)
      (positive : 0 < s.pool.reserve) :
      ConnStep s (.wait thread) { s.sets thread ⟨.admitted, holding⟩ with pool := s.pool.wait }
  | popped (thread : Nat) (holding : List Handle) (con : Handle) (rest : List Handle)
      (here : s.threads[thread]? = some ⟨.admitted, holding⟩) (front : s.pool.connList = con :: rest) :
      ConnStep s (.pop thread) { s.sets thread ⟨.outside, holding ++ [con]⟩ with
        pool := { s.pool with connList := rest, freeConn := s.pool.freeConn - 1, curConn := s.pool.curConn + 1 } }
  | refused (thread : Nat) : ConnStep s (.push thread none) s
  | pushed (thread : Nat) (holding : List Handle) (conn : Handle) (here : s.threads[thread]? = some ⟨.outside, holding⟩)
      (mine : conn ∈ holding) :
      ConnStep s (.push thread (some conn)) { s.sets thread ⟨.pushed, holding.erase conn⟩ with pool := s.pool.give conn }
  | posted (thread : Nat) (holding : List Handle) (here : s.threads[thread]? = some ⟨.pushed, holding⟩) :
      ConnStep s (.post thread) { s.sets thread ⟨.outside, holding⟩ with pool := s.pool.post }

theorem conn_step (s t : Connections) (label : ConnLabel) (taken : Takes connMachine s label t) : ConnStep s label t := by
  obtain ⟨⟨⟨place, holding⟩, here, allowed⟩, ok⟩ := taken
  rw [conn_effect s label _ here] at ok
  cases label with
  | check thread =>
      cases (show place = .outside from allowed)
      cases ok
      by_cases empty : s.pool.connList.length = 0
      · rw [if_pos empty]
        exact .turnedAway thread empty
      · rw [if_neg empty]
        exact .checked thread holding here
  | wait thread =>
      cases (show place = .checked from allowed.1)
      cases ok
      exact .waited thread holding here allowed.2
  | pop thread =>
      cases (show place = .admitted from allowed)
      rw [Connections.step, ConnectionPool.take] at ok
      cases front : s.pool.connList with
      | nil =>
          rw [front] at ok
          cases ok
      | cons con rest =>
          rw [front] at ok
          cases ok
          exact .popped thread holding con rest here front
  | push thread conn =>
      cases (show place = .outside from allowed.1)
      cases conn with
      | none =>
          cases ok
          exact .refused thread
      | some conn =>
          cases ok
          exact .pushed thread holding conn here (allowed.2 conn rfl)
  | post thread =>
      cases (show place = .pushed from allowed)
      cases ok
      exact .posted thread holding here

theorem conn_returns (s : Connections) (label : ConnLabel) (offered : connMachine.guard s label)
    (stocked : ∀ thread, label = .pop thread → s.pool.connList ≠ []) : ∃ t, connMachine.effect s label = .ok t := by
  obtain ⟨self, here, _⟩ := offered
  rw [conn_effect s label self here]
  cases label with
  | pop thread =>
      obtain ⟨con, rest, front⟩ := List.exists_cons_of_ne_nil (stocked thread rfl)
      rw [Connections.step, ConnectionPool.take, front]
      exact ⟨_, rfl⟩
  | push thread conn => cases conn <;> exact ⟨_, rfl⟩
  | _ => exact ⟨_, rfl⟩

theorem empty_pop_fails (s : Connections) (thread : Nat) (list : s.pool.connList = [])
    (offered : connMachine.guard s (.pop thread)) : connMachine.effect s (.pop thread) = .error .emptyList := by
  obtain ⟨self, here, _⟩ := offered
  rw [conn_effect s _ self here, Connections.step, ConnectionPool.take, list]
  rfl

theorem conserved_conn_step (count : Nat) (s t : Connections) (label : ConnLabel) (inv : Conserved count s)
    (step : ConnStep s label t) : s.Fits label ∧ Conserved count t := by
  cases step with
  | turnedAway thread empty => exact ⟨trivial, inv⟩
  | checked thread holding here => exact ⟨trivial, conserved_walk count s _ thread _ .checked s.pool.reserve inv here rfl rfl rfl⟩
  | waited thread holding here positive =>
      refine ⟨trivial, conserved_walk count s _ thread _ .admitted (s.pool.reserve - 1) inv here rfl rfl ?_⟩
      simp only [Place.isAdmitted, Place.isPushed]
      omega
  | popped thread holding con rest here front =>
      exact (conserved_pop count s _ thread holding con rest inv here front rfl rfl).symm
  | refused thread => exact ⟨trivial, inv⟩
  | pushed thread holding conn here mine =>
      exact (conserved_push count s _ thread holding conn inv here mine rfl rfl).symm
  | posted thread holding here => exact ⟨trivial, conserved_walk count s _ thread _ .outside (s.pool.reserve + 1) inv here rfl rfl rfl⟩

theorem conserved_step (count : Nat) (s : Connections) (label : ConnLabel) (inv : Conserved count s)
    (offered : connMachine.guard s label) :
    Unwrapped s label ∧ ∀ t, connMachine.effect s label = .ok t → Conserved count t := by
  have stepped : ∀ t, connMachine.effect s label = .ok t → s.Fits label ∧ Conserved count t := fun t ok =>
    conserved_conn_step count s t label inv (conn_step s t label ⟨offered, ok⟩)
  obtain ⟨t, ok⟩ := conn_returns s label offered (by
    rintro thread rfl
    obtain ⟨self, here, admitted⟩ := offered
    obtain ⟨con, rest, front⟩ := admitted_finds count s thread self inv here admitted
    rw [front]
    exact List.cons_ne_nil con rest)
  exact ⟨⟨⟨t, ok⟩, (stepped t ok).1⟩, fun next reached => (stepped next reached).2⟩

structure Conserves (count : Nat) (s : Connections) : Prop where
  handles : (s.pool.connList ++ s.threads.flatMap Thread.holding).Perm (List.range count)
  free : s.pool.freeConn.toNat = s.pool.connList.length
  total : s.pool.freeConn.toNat + s.pool.curConn.toNat = s.pool.maxConn.toNat
  max : s.pool.maxConn.toNat = count

theorem connections_conserved (maxConn : UInt32) (pool : ConnectionPool) (created : ConnectionPool.init maxConn = some pool)
    (threads : Nat) (labels : List ConnLabel) :
    Always connMachine (Conserves maxConn.toNat) (.start pool threads) labels ∧
      Along connMachine Unwrapped (.start pool threads) labels := by
  have start := init_conserved maxConn pool created threads
  have kept : ∀ s label t, Conserved maxConn.toNat s → Takes connMachine s label t → Conserved maxConn.toNat t :=
    fun s label t inv taken => (conserved_step maxConn.toNat s label inv taken.1).2 t taken.2
  constructor
  · refine always_mono _ _ _ ?_ _ labels (always_invariant _ _ kept _ labels start)
    intro s inv
    refine ⟨inv.handles, inv.free, ?_, inv.max⟩
    rw [inv.free, inv.cur, inv.max]
    exact handles_counted maxConn.toNat s inv
  · exact along_of_invariant _ _ _ kept (fun s label inv offered => (conserved_step maxConn.toNat s label inv offered).1) _ labels start

def twoConnections : ConnectionPool := ⟨2, 0, 2, [0, 1], 2⟩

def threeThreads : List ConnLabel :=
  [.check 0, .check 1, .check 2, .wait 1, .wait 0, .pop 0, .pop 1, .push 0 (some 0), .check 0, .post 0, .wait 2, .pop 2]

theorem connections_conserved_three_threads :
    Always connMachine (Conserves 2) (.start twoConnections 3) threeThreads ∧
      Along connMachine Unwrapped (.start twoConnections 3) threeThreads :=
  connections_conserved 2 twoConnections (by decide) 3 threeThreads

end WzyServer.Pool
