import WzyServer.Pool.Connections

set_option autoImplicit false

namespace WzyServer.Pool

open Run

def ConnectionPool.destroyPool (pool : ConnectionPool) : ConnectionPool :=
  if pool.connList.length > 0 then { pool with curConn := 0, freeConn := 0, connList := [] } else pool

structure Destroyable where
  base : Connections
  destroyed : Bool
deriving DecidableEq, Repr

inductive DestroyLabel where
  | step (label : ConnLabel)
  | destroyPool (thread : Nat)
deriving DecidableEq, Repr

namespace Destroyable

def start (pool : ConnectionPool) (threads : Nat) : Destroyable := ⟨.start pool threads, false⟩

def effect (s : Destroyable) : DestroyLabel → Except PoolFault Destroyable
  | .step label => do return { s with base := ← connMachine.effect s.base label }
  | .destroyPool _ => .ok
      ⟨{ s.base with pool := s.base.pool.destroyPool }, s.destroyed || decide (s.base.pool.connList.length > 0)⟩

def allows (s : Destroyable) : DestroyLabel → Prop
  | .step label => connMachine.guard s.base label
  | .destroyPool thread => ∃ self, s.base.threads[thread]? = some self ∧ self.place = .outside

end Destroyable

instance Destroyable.decidableAllows (s : Destroyable) (label : DestroyLabel) : Decidable (s.allows label) := match label with
  | .step label => inferInstanceAs (Decidable (connMachine.guard s.base label))
  | .destroyPool thread => decidable_of_iff (∃ self ∈ s.base.threads[thread]?, self.place = .outside) Iff.rfl

def destroyMachine : Machine Destroyable DestroyLabel PoolFault where
  guard := Destroyable.allows
  effect := Destroyable.effect

instance Destroyable.decidableGuard (s : Destroyable) (label : DestroyLabel) : Decidable (destroyMachine.guard s label) :=
  inferInstanceAs (Decidable (s.allows label))

structure KeepsBooks (s : Destroyable) : Prop where
  free : s.base.pool.freeConn.toNat = s.base.pool.connList.length
  cur : s.base.pool.curConn.toNat = s.base.held.length

def Obtains (s : Destroyable) (label : DestroyLabel) : Prop :=
  (∃ t, destroyMachine.effect s label = .ok t) ∧ ∀ inner, label = .step inner → s.base.Fits inner

-- destroyPool meets an empty connList or a moment when no handle is out, and no
-- caller is behind its size check when it empties the list and pops later.
def Orderly (s : Destroyable) : DestroyLabel → Prop
  | .destroyPool _ => s.base.pool.connList = [] ∨ s.base.held = []
  | .step (.pop _) => s.destroyed = false
  | _ => True

structure Emptied (s : Connections) : Prop where
  list : s.pool.connList = []
  held : s.held = []
  free : s.pool.freeConn = 0
  cur : s.pool.curConn = 0

def Intact (count : Nat) (s : Destroyable) : Prop :=
  s.destroyed = false ∧ Conserved count s.base ∨ s.destroyed = true ∧ Emptied s.base

theorem intact_books (count : Nat) (s : Destroyable) (inv : Intact count s) : KeepsBooks s := by
  rcases inv with ⟨_, conserved⟩ | ⟨_, emptied⟩
  · exact ⟨conserved.free, conserved.cur⟩
  · refine ⟨?_, ?_⟩
    · rw [emptied.list, emptied.free]
      rfl
    · rw [emptied.held, emptied.cur]
      rfl

theorem emptied_walk (s t : Connections) (thread : Nat) (before : Thread) (place : Place) (reserve : Nat) (emptied : Emptied s)
    (here : s.threads[thread]? = some before) (threads : t.threads = s.threads.set thread { before with place := place })
    (pool : t.pool = { s.pool with reserve := reserve }) : Emptied t := by
  have same := walk_held s t thread before place here threads
  rw [emptied.held] at same
  refine ⟨?_, List.eq_nil_of_length_eq_zero same, ?_, ?_⟩
  · rw [pool]
    exact emptied.list
  · rw [pool]
    exact emptied.free
  · rw [pool]
    exact emptied.cur

theorem emptied_unheld (s : Connections) (thread : Nat) (self : Thread) (emptied : Emptied s)
    (here : s.threads[thread]? = some self) : self.holding = [] :=
  List.flatMap_eq_nil_iff.mp emptied.held self (List.mem_of_getElem? here)

-- Nobody holds a handle that could come back, so the size check turns callers away
-- and only a caller already behind it can reach the pop.
theorem emptied_conn_step (s t : Connections) (label : ConnLabel) (emptied : Emptied s)
    (unpopped : ∀ thread, label ≠ .pop thread) (step : ConnStep s label t) : s.Fits label ∧ Emptied t := by
  cases step with
  | turnedAway thread empty => exact ⟨trivial, emptied⟩
  | checked thread holding here => exact ⟨trivial, emptied_walk s _ thread _ .checked s.pool.reserve emptied here rfl rfl⟩
  | waited thread holding here positive =>
      exact ⟨trivial, emptied_walk s _ thread _ .admitted (s.pool.reserve - 1) emptied here rfl rfl⟩
  | popped thread holding con rest here front => exact absurd rfl (unpopped thread)
  | refused thread => exact ⟨trivial, emptied⟩
  | pushed thread holding conn here mine =>
      rw [show holding = [] from emptied_unheld s thread _ emptied here] at mine
      cases mine
  | posted thread holding here => exact ⟨trivial, emptied_walk s _ thread _ .outside (s.pool.reserve + 1) emptied here rfl rfl⟩

theorem emptied_step (s : Connections) (label : ConnLabel) (emptied : Emptied s) (offered : connMachine.guard s label)
    (unpopped : ∀ thread, label ≠ .pop thread) :
    Unwrapped s label ∧ ∀ t, connMachine.effect s label = .ok t → Emptied t := by
  have stepped : ∀ t, connMachine.effect s label = .ok t → s.Fits label ∧ Emptied t := fun t ok =>
    emptied_conn_step s t label emptied unpopped (conn_step s t label ⟨offered, ok⟩)
  obtain ⟨t, ok⟩ := conn_returns s label offered fun thread same => absurd same (unpopped thread)
  exact ⟨⟨⟨t, ok⟩, (stepped t ok).1⟩, fun next reached => (stepped next reached).2⟩

theorem obtains_inner (s : Destroyable) (label : ConnLabel) (unwrapped : Unwrapped s.base label) : Obtains s (.step label) := by
  obtain ⟨⟨t, ok⟩, fits⟩ := unwrapped
  refine ⟨⟨{ s with base := t }, ?_⟩, ?_⟩
  · simp only [destroyMachine, Destroyable.effect, ok]
    rfl
  · intro inner same
    cases same
    exact fits

theorem inner_effect (s t : Destroyable) (label : ConnLabel) (ok : destroyMachine.effect s (.step label) = .ok t) :
    ∃ base, connMachine.effect s.base label = .ok base ∧ t = { s with base := base } := by
  obtain ⟨base, inner, returned⟩ := ok_of_bind (connMachine.effect s.base label) _ t ok
  cases returned
  exact ⟨base, inner, rfl⟩

theorem emptied_destroyed (s : Connections) (unheld : s.held = [])
    (some : s.pool.connList.length > 0) : Emptied { s with pool := s.pool.destroyPool } := by
  rw [ConnectionPool.destroyPool, if_pos some]
  exact ⟨rfl, unheld, rfl, rfl⟩

theorem intact_destroy (count : Nat) (s t : Destroyable) (thread : Nat) (inv : Intact count s)
    (orderly : s.base.pool.connList = [] ∨ s.base.held = []) (ok : destroyMachine.effect s (.destroyPool thread) = .ok t) :
    Intact count t := by
  cases ok
  by_cases some : s.base.pool.connList.length > 0
  · rcases inv with _ | ⟨_, emptied⟩
    · right
      have unheld := orderly.resolve_left (List.length_pos_iff.mp some)
      exact ⟨by rw [decide_eq_true some, Bool.or_true], emptied_destroyed s.base unheld some⟩
    · rw [emptied.list] at some
      exact absurd some (Nat.lt_irrefl 0)
  · rw [ConnectionPool.destroyPool, if_neg some, decide_eq_false some, Bool.or_false]
    exact inv

theorem intact_step (count : Nat) (s : Destroyable) (label : DestroyLabel) (inv : Intact count s)
    (offered : destroyMachine.guard s label) (orderly : Orderly s label) :
    Obtains s label ∧ ∀ t, destroyMachine.effect s label = .ok t → Intact count t := by
  cases label with
  | destroyPool thread =>
      refine ⟨⟨⟨_, rfl⟩, fun _ same => by cases same⟩, fun t ok => ?_⟩
      exact intact_destroy count s t thread inv orderly ok
  | step label =>
      rcases inv with ⟨alive, conserved⟩ | ⟨destroyed, emptied⟩
      · obtain ⟨unwrapped, kept⟩ := conserved_step count s.base label conserved offered
        refine ⟨obtains_inner s label unwrapped, fun t ok => ?_⟩
        obtain ⟨base, inner, rfl⟩ := inner_effect s t label ok
        exact .inl ⟨alive, kept base inner⟩
      · have unpopped : ∀ thread, label ≠ .pop thread := by
          rintro thread rfl
          rw [Orderly, destroyed] at orderly
          cases orderly
        obtain ⟨unwrapped, kept⟩ := emptied_step s.base label emptied offered unpopped
        refine ⟨obtains_inner s label unwrapped, fun t ok => ?_⟩
        obtain ⟨base, inner, rfl⟩ := inner_effect s t label ok
        exact .inr ⟨destroyed, kept base inner⟩

theorem early_destroy_miscounts (s : Destroyable) (thread : Nat) (stocked : s.base.pool.connList ≠ []) (out : s.base.held ≠ []) :
    ∃ t, destroyMachine.effect s (.destroyPool thread) = .ok t ∧ ¬ KeepsBooks t := by
  refine ⟨_, rfl, fun books => ?_⟩
  have cur := books.cur
  rw [ConnectionPool.destroyPool, if_pos (List.length_pos_iff.mpr stocked)] at cur
  exact out (List.eq_nil_of_length_eq_zero cur.symm)

theorem late_pop_fails (s : Destroyable) (thread : Nat) (list : s.base.pool.connList = [])
    (offered : destroyMachine.guard s (.step (.pop thread))) : ¬ Obtains s (.step (.pop thread)) := by
  rintro ⟨⟨t, ok⟩, _⟩
  obtain ⟨base, inner, _⟩ := inner_effect s t _ ok
  rw [empty_pop_fails s.base thread list offered] at inner
  cases inner

theorem disorder_exposed (count : Nat) (s : Destroyable) (label : DestroyLabel) (inv : Intact count s)
    (offered : destroyMachine.guard s label) (disorderly : ¬ Orderly s label) :
    ¬ Obtains s label ∨ ∃ t, destroyMachine.effect s label = .ok t ∧ ¬ KeepsBooks t := by
  cases label with
  | destroyPool thread =>
      obtain ⟨stocked, out⟩ := not_or.mp disorderly
      exact .inr (early_destroy_miscounts s thread stocked out)
  | step label =>
      cases label with
      | pop thread =>
          rcases inv with ⟨alive, _⟩ | ⟨_, emptied⟩
          · exact absurd alive disorderly
          · exact .inl (late_pop_fails s thread emptied.list offered)
      | _ => exact absurd trivial disorderly

theorem destroyed_pool_iff (maxConn : UInt32) (pool : ConnectionPool) (created : ConnectionPool.init maxConn = some pool)
    (threads : Nat) (labels : List DestroyLabel) :
    Always destroyMachine KeepsBooks (.start pool threads) labels ∧ Along destroyMachine Obtains (.start pool threads) labels ↔
      Along destroyMachine Orderly (.start pool threads) labels :=
  watched_iff_along destroyMachine Orderly Obtains (Intact maxConn.toNat) KeepsBooks
    (fun s label t inv orderly taken => (intact_step maxConn.toNat s label inv taken.1 orderly).2 t taken.2)
    (disorder_exposed maxConn.toNat) (intact_books maxConn.toNat)
    (fun s label inv offered orderly => (intact_step maxConn.toNat s label inv offered orderly).1)
    _ labels (.inl ⟨rfl, init_conserved maxConn pool created threads⟩)

def destroyedEarly : List DestroyLabel := [.step (.check 0), .step (.wait 0), .step (.pop 0), .destroyPool 1]

theorem destroyed_early_miscounts : ¬ Always destroyMachine KeepsBooks (.start twoConnections 2) destroyedEarly := by
  intro always
  have reached : ∃ s, replay destroyMachine (.start twoConnections 2) destroyedEarly = some s ∧
      s.base.pool.curConn = 0 ∧ s.base.held = [0] := ⟨_, rfl, rfl, rfl⟩
  obtain ⟨s, run, cur, held⟩ := reached
  have books := (always_replay _ _ _ s _ run always).cur
  rw [cur, held] at books
  cases books

theorem destroyed_pool_iff_two_threads :
    Always destroyMachine KeepsBooks (.start twoConnections 2) destroyedEarly ∧
        Along destroyMachine Obtains (.start twoConnections 2) destroyedEarly ↔
      Along destroyMachine Orderly (.start twoConnections 2) destroyedEarly :=
  destroyed_pool_iff 2 twoConnections (by decide) 2 destroyedEarly

end WzyServer.Pool
