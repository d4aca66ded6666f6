import WzyServer.Pool.Connections

set_option autoImplicit false

namespace WzyServer.Pool

open Run

-- `failed` counts the calls of reserve.wait() that returned false so far.
structure Interrupted where
  base : Connections
  failed : Nat
deriving DecidableEq, Repr

-- getConnection drops the result of its wait: an interrupted sem_wait leaves the
-- semaphore alone, and the caller goes on to the pop all the same.
inductive WaitLabel where
  | step (label : ConnLabel)
  | interrupted (thread : Nat)
deriving DecidableEq, Repr

namespace Interrupted

def start (pool : ConnectionPool) (threads : Nat) : Interrupted := ⟨.start pool threads, 0⟩

def effect (s : Interrupted) : WaitLabel → Except PoolFault Interrupted
  | .step label => do return { s with base := ← connMachine.effect s.base label }
  | .interrupted thread => match s.base.threads[thread]? with
      | some self => .ok ⟨s.base.sets thread { self with place := .admitted }, s.failed + 1⟩
      | none => .ok s

def allows (s : Interrupted) : WaitLabel → Prop
  | .step label => connMachine.guard s.base label
  | .interrupted thread => ∃ self, s.base.threads[thread]? = some self ∧ self.place = .checked

end Interrupted

instance Interrupted.decidableAllows (s : Interrupted) (label : WaitLabel) : Decidable (s.allows label) := match label with
  | .step label => inferInstanceAs (Decidable (connMachine.guard s.base label))
  | .interrupted thread => decidable_of_iff (∃ self ∈ s.base.threads[thread]?, self.place = .checked) Iff.rfl

def waitMachine : Machine Interrupted WaitLabel PoolFault where
  guard := Interrupted.allows
  effect := Interrupted.effect

instance Interrupted.decidableGuard (s : Interrupted) (label : WaitLabel) : Decidable (waitMachine.guard s label) :=
  inferInstanceAs (Decidable (s.allows label))

def Interrupted.Honest (s : Interrupted) : Prop := s.base.pool.reserve ≤ s.base.pool.connList.length

def PopsOne (s : Interrupted) (label : WaitLabel) : Prop :=
  (∃ t, waitMachine.effect s label = .ok t) ∧ ∀ thread, label = .step (.pop thread) → 0 < s.base.pool.freeConn.toNat

def Backed (s : Interrupted) : WaitLabel → Prop
  | .step (.pop _) => s.failed < s.base.admitted + s.base.pushed
  | .step (.post _) => s.failed < s.base.admitted + s.base.pushed
  | _ => True

structure Overdrawn (s : Interrupted) : Prop where
  booked : Booked s.base
  admission : s.base.pool.reserve + s.base.admitted + s.base.pushed = s.base.pool.connList.length + s.failed
  covered : s.failed ≤ s.base.admitted + s.base.pushed

theorem overdrawn_honest (s : Interrupted) (inv : Overdrawn s) : s.Honest := by
  have admission := inv.admission
  have covered := inv.covered
  rw [Interrupted.Honest]
  omega

theorem start_overdrawn (maxConn : UInt32) (pool : ConnectionPool) (created : ConnectionPool.init maxConn = some pool)
    (threads : Nat) : Overdrawn (.start pool threads) := by
  have conserved := init_conserved maxConn pool created threads
  exact ⟨conserved_booked _ _ conserved, conserved.admission, Nat.zero_le _⟩

theorem overdrawn_walk (s t : Interrupted) (thread : Nat) (before : Thread) (place : Place) (reserve : Nat) (inv : Overdrawn s)
    (here : s.base.threads[thread]? = some before)
    (threads : t.base.threads = s.base.threads.set thread { before with place := place })
    (pool : t.base.pool = { s.base.pool with reserve := reserve })
    (admission : reserve + place.isAdmitted + place.isPushed + s.failed =
      s.base.pool.reserve + before.place.isAdmitted + before.place.isPushed + t.failed)
    (covered : t.failed + before.place.isAdmitted + before.place.isPushed ≤
      s.base.admitted + s.base.pushed + place.isAdmitted + place.isPushed) : Overdrawn t := by
  have moved := moved_sets s.base t.base thread before _ here threads
  have admitted := moved.admitted
  have pushed := moved.pushed
  have before := inv.admission
  refine ⟨booked_walk s.base t.base thread _ place reserve inv.booked here threads pool, ?_, ?_⟩
  · rw [pool]
    dsimp only at admitted pushed ⊢
    omega
  · dsimp only at admitted pushed
    omega

theorem overdrawn_pop (s t : Interrupted) (thread : Nat) (holding : List Handle) (con : Handle) (rest : List Handle)
    (inv : Overdrawn s) (here : s.base.threads[thread]? = some ⟨.admitted, holding⟩) (front : s.base.pool.connList = con :: rest)
    (threads : t.base.threads = s.base.threads.set thread ⟨.outside, holding ++ [con]⟩)
    (pool : t.base.pool = { s.base.pool with
      connList := rest, freeConn := s.base.pool.freeConn - 1, curConn := s.base.pool.curConn + 1 })
    (failed : t.failed = s.failed) (backed : s.failed < s.base.admitted + s.base.pushed) :
    Overdrawn t ∧ 0 < s.base.pool.freeConn.toNat := by
  obtain ⟨booked, positive, _⟩ := booked_pop s.base t.base thread holding con rest inv.booked here front threads pool
  have moved := moved_sets s.base t.base thread _ _ here threads
  have admitted := moved.admitted
  have pushed := moved.pushed
  have admission := inv.admission
  rw [front, List.length_cons] at admission
  simp only [Place.isAdmitted, Place.isPushed] at admitted pushed
  refine ⟨⟨booked, ?_, ?_⟩, positive⟩
  · rw [pool, failed]
    dsimp only
    omega
  · omega

theorem overdrawn_push (s t : Interrupted) (thread : Nat) (holding : List Handle) (conn : Handle)
    (inv : Overdrawn s) (here : s.base.threads[thread]? = some ⟨.outside, holding⟩) (mine : conn ∈ holding)
    (threads : t.base.threads = s.base.threads.set thread ⟨.pushed, holding.erase conn⟩)
    (pool : t.base.pool = s.base.pool.give conn) (failed : t.failed = s.failed) : Overdrawn t := by
  obtain ⟨booked, _, _⟩ := booked_push s.base t.base thread holding conn inv.booked here mine threads pool
  have moved := moved_sets s.base t.base thread _ _ here threads
  have admitted := moved.admitted
  have pushed := moved.pushed
  have admission := inv.admission
  have covered := inv.covered
  simp only [Place.isAdmitted, Place.isPushed] at admitted pushed
  refine ⟨booked, ?_, by omega⟩
  rw [pool, ConnectionPool.give, failed, List.length_append, List.length_singleton]
  dsimp only
  omega

theorem overdrawn_interrupted (s : Interrupted) (thread : Nat) (inv : Overdrawn s)
    (offered : waitMachine.guard s (.interrupted thread)) :
    ∃ t, waitMachine.effect s (.interrupted thread) = .ok t ∧ Overdrawn t := by
  obtain ⟨self, here, checked⟩ := offered
  have covered := inv.covered
  refine ⟨⟨s.base.sets thread { self with place := .admitted }, s.failed + 1⟩, ?_, ?_⟩
  · simp only [waitMachine, Interrupted.effect, here]
  · refine overdrawn_walk s _ thread self .admitted s.base.pool.reserve inv here rfl rfl ?_ ?_
    · simp only [checked, Place.isAdmitted, Place.isPushed]
      omega
    · simp only [checked, Place.isAdmitted, Place.isPushed]
      omega

theorem overdrawn_finds (s : Interrupted) (inv : Overdrawn s) (backed : s.failed < s.base.admitted + s.base.pushed) :
    s.base.pool.connList ≠ [] := by
  have admission := inv.admission
  apply List.ne_nil_of_length_pos
  omega

theorem overdrawn_conn_step (s : Interrupted) (t : Connections) (label : ConnLabel) (inv : Overdrawn s) (backed : Backed s (.step label))
    (step : ConnStep s.base label t) :
    Overdrawn { s with base := t } ∧ ∀ thread, label = .pop thread → 0 < s.base.pool.freeConn.toNat := by
  have covered := inv.covered
  cases step with
  | turnedAway thread empty => exact ⟨inv, fun _ same => by cases same⟩
  | checked thread holding here =>
      refine ⟨?_, fun _ same => by cases same⟩
      refine overdrawn_walk s _ thread _ .checked s.base.pool.reserve inv here rfl rfl ?_ ?_
      · rfl
      · simp only [Place.isAdmitted, Place.isPushed, covered, Nat.add_zero]
  | waited thread holding here positive =>
      refine ⟨?_, fun _ same => by cases same⟩
      refine overdrawn_walk s _ thread _ .admitted (s.base.pool.reserve - 1) inv here rfl rfl ?_ ?_
      · simp only [Place.isAdmitted, Place.isPushed]
        omega
      · simp only [Place.isAdmitted, Place.isPushed]
        omega
  | popped thread holding con rest here front =>
      refine And.imp_right (fun positive _ _ => positive) ?_
      exact overdrawn_pop s _ thread holding con rest inv here front rfl rfl rfl backed
  | refused thread => exact ⟨inv, fun _ same => by cases same⟩
  | pushed thread holding conn here mine =>
      exact ⟨overdrawn_push s _ thread holding conn inv here mine rfl rfl rfl, fun _ same => by cases same⟩
  | posted thread holding here =>
      have fewer : s.failed < s.base.admitted + s.base.pushed := backed
      refine ⟨?_, fun _ same => by cases same⟩
      refine overdrawn_walk s _ thread _ .outside (s.base.pool.reserve + 1) inv here rfl rfl ?_ ?_
      · rfl
      · simp only [Place.isAdmitted, Place.isPushed]
        omega

theorem waited_effect (s t : Interrupted) (label : ConnLabel) (ok : waitMachine.effect s (.step label) = .ok t) :
    ∃ base, connMachine.effect s.base label = .ok base ∧ t = { s with base := base } := by
  obtain ⟨base, inner, returned⟩ := ok_of_bind (connMachine.effect s.base label) _ t ok
  cases returned
  exact ⟨base, inner, rfl⟩

theorem overdrawn_step (s : Interrupted) (label : WaitLabel) (inv : Overdrawn s) (offered : waitMachine.guard s label)
    (backed : Backed s label) : PopsOne s label ∧ ∀ t, waitMachine.effect s label = .ok t → Overdrawn t := by
  cases label with
  | interrupted thread =>
      obtain ⟨t, effect, kept⟩ := overdrawn_interrupted s thread inv offered
      refine ⟨⟨⟨t, effect⟩, fun _ same => by cases same⟩, fun other ok => ?_⟩
      cases effect.symm.trans ok
      exact kept
  | step label =>
      have stepped : ∀ base, connMachine.effect s.base label = .ok base → _ := fun base ok =>
        overdrawn_conn_step s base label inv backed (conn_step s.base base label ⟨offered, ok⟩)
      obtain ⟨base, ok⟩ := conn_returns s.base label offered (by
        rintro thread rfl
        exact overdrawn_finds s inv backed)
      refine ⟨⟨⟨{ s with base := base }, ?_⟩, ?_⟩, ?_⟩
      · simp only [waitMachine, Interrupted.effect, ok]
        rfl
      · rintro thread ⟨⟩
        exact (stepped base ok).2 thread rfl
      · intro t reached
        obtain ⟨other, inner, rfl⟩ := waited_effect s t label reached
        exact (stepped other inner).1

-- Where as many waits have failed as threads are on their way, the pop takes the
-- handle of a promise, or finds none, and the post promises one that is not there.
theorem overdraft_exposed (s : Interrupted) (t : Connections) (label : ConnLabel) (inv : Overdrawn s)
    (unbacked : ¬ Backed s (.step label)) (step : ConnStep s.base label t) : ¬ Interrupted.Honest { s with base := t } := by
  have admission := inv.admission
  cases step with
  | popped thread holding con rest here front =>
      have spent : s.base.admitted + s.base.pushed ≤ s.failed := Nat.le_of_not_lt unbacked
      rw [front, List.length_cons] at admission
      simp only [Interrupted.Honest]
      omega
  | posted thread holding here =>
      have spent : s.base.admitted + s.base.pushed ≤ s.failed := Nat.le_of_not_lt unbacked
      simp only [Interrupted.Honest, ConnectionPool.post]
      omega
  | _ => exact absurd trivial unbacked

theorem unbacked_exposed (s : Interrupted) (label : WaitLabel) (inv : Overdrawn s) (offered : waitMachine.guard s label)
    (unbacked : ¬ Backed s label) : ¬ PopsOne s label ∨ ∃ t, waitMachine.effect s label = .ok t ∧ ¬ t.Honest := by
  cases label with
  | interrupted thread => exact absurd trivial unbacked
  | step label =>
      cases effect : connMachine.effect s.base label with
      | error fault =>
          left
          rintro ⟨⟨t, ok⟩, _⟩
          obtain ⟨base, inner, _⟩ := waited_effect s t label ok
          cases effect.symm.trans inner
      | ok base =>
          right
          refine ⟨{ s with base := base }, ?_, ?_⟩
          · simp only [waitMachine, Interrupted.effect, effect]
            rfl
          · exact overdraft_exposed s base label inv unbacked (conn_step s.base base label ⟨offered, effect⟩)

theorem on_the_way (s : Connections) (thread : Nat) (self : Thread) (here : s.threads[thread]? = some self) :
    self.place.isAdmitted + self.place.isPushed ≤ s.admitted + s.pushed := by
  have moved := moved_sets s (s.sets thread ⟨.outside, []⟩) thread self _ here rfl
  have admitted := moved.admitted
  have pushed := moved.pushed
  simp only [Place.isAdmitted, Place.isPushed] at admitted pushed ⊢
  omega

theorem uninterrupted_backed (maxConn : UInt32) (pool : ConnectionPool) (created : ConnectionPool.init maxConn = some pool)
    (threads : Nat) (labels : List ConnLabel) : Along waitMachine Backed (.start pool threads) (labels.map .step) := by
  have backs : ∀ s label, Overdrawn s ∧ s.failed = 0 → waitMachine.guard s label → (∃ inner, label = .step inner) →
      Backed s label := by
    rintro s label ⟨_, unfailed⟩ offered ⟨inner, rfl⟩
    obtain ⟨self, here, allowed⟩ := offered
    have way := on_the_way s.base inner.thread self here
    cases inner with
    | pop thread =>
        rw [show self.place = .admitted from allowed] at way
        rw [Backed, unfailed]
        exact way
    | post thread =>
        rw [show self.place = .pushed from allowed] at way
        rw [Backed, unfailed]
        exact way
    | _ => trivial
  refine along_mono waitMachine (fun _ label => ∃ inner, label = .step inner) Backed (fun s => Overdrawn s ∧ s.failed = 0)
    ?_ backs _ _ ⟨start_overdrawn maxConn pool created threads, rfl⟩ (along_labels waitMachine _ _ _ ?_)
  · intro s label t inv inner taken
    refine ⟨(overdrawn_step s label inv.1 taken.1 (backs s label inv taken.1 inner)).2 t taken.2, ?_⟩
    obtain ⟨inner, rfl⟩ := inner
    obtain ⟨base, _, rfl⟩ := waited_effect s t inner taken.2
    exact inv.2
  · intro label member
    obtain ⟨inner, _, same⟩ := List.mem_map.mp member
    exact ⟨inner, same.symm⟩

theorem interrupted_wait_iff (maxConn : UInt32) (pool : ConnectionPool) (created : ConnectionPool.init maxConn = some pool)
    (threads : Nat) (labels : List WaitLabel) :
    Always waitMachine Interrupted.Honest (.start pool threads) labels ∧
        Along waitMachine PopsOne (.start pool threads) labels ↔
      Along waitMachine Backed (.start pool threads) labels :=
  watched_iff_along waitMachine Backed PopsOne Overdrawn Interrupted.Honest
    (fun s label t inv backed taken => (overdrawn_step s label inv taken.1 backed).2 t taken.2)
    unbacked_exposed overdrawn_honest (fun s label inv offered backed => (overdrawn_step s label inv offered backed).1)
    _ labels (start_overdrawn maxConn pool created threads)

def interruptedFirst : List WaitLabel :=
  [.step (.check 0), .step (.check 1), .step (.wait 0), .interrupted 1, .step (.pop 1)]

theorem interrupted_pops_empty :
    ¬ Along waitMachine PopsOne (.start ⟨1, 0, 1, [0], 1⟩ 2) (interruptedFirst ++ [.step (.pop 0)]) := by
  intro along
  have reached : ∃ s, replay waitMachine (.start ⟨1, 0, 1, [0], 1⟩ 2) interruptedFirst = some s ∧
      waitMachine.guard s (.step (.pop 0)) ∧ waitMachine.effect s (.step (.pop 0)) = .error .emptyList :=
    ⟨_, rfl, by decide, rfl⟩
  obtain ⟨s, run, offered, fails⟩ := reached
  obtain ⟨⟨t, ok⟩, _⟩ := along_replay _ _ _ s _ _ run offered along
  rw [fails] at ok
  cases ok

theorem interrupted_wait_iff_two_threads :
    Always waitMachine Interrupted.Honest (.start twoConnections 3) interruptedFirst ∧
        Along waitMachine PopsOne (.start twoConnections 3) interruptedFirst ↔
      Along waitMachine Backed (.start twoConnections 3) interruptedFirst :=
  interrupted_wait_iff 2 twoConnections (by decide) 3 interruptedFirst

end WzyServer.Pool
