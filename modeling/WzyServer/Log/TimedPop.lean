import Mathlib.Tactic.Linarith
import WzyServer.Log.BlockQueue

set_option autoImplicit false

namespace WzyServer.Log

open Run

-- `noReturn` is the end of pop(T &, int) reached with an item in the queue: no value
-- is returned, and m_mutex is still locked.
inductive TimedFault where
  | access (fault : Fault)
  | noReturn
deriving DecidableEq, Repr

structure Timeval where
  sec : Nat
  usec : Nat
  normal : usec < 1000000
deriving DecidableEq, Repr

structure Timespec where
  sec : Nat
  nsec : Nat
  normal : nsec < 1000000000
deriving DecidableEq, Repr

def Timeval.instant (now : Timeval) : Nat := now.sec * 1000000000 + now.usec * 1000
def Timespec.instant (t : Timespec) : Nat := t.sec * 1000000000 + t.nsec

-- What pop computes of gettimeofday and its argument, which is not negative.
def deadline (now : Timeval) (msTimeout : Nat) : Timespec where
  sec := now.sec + msTimeout % 1000
  nsec := msTimeout % 1000 * 1000
  normal := by omega

structure Sleeper where
  now : Timeval
  msTimeout : Nat
deriving DecidableEq, Repr

-- pthread_cond_timedwait can report a time-out at no instant before its deadline,
-- and pop does not return before it was called.
def Sleeper.TimesOut (sleeper : Sleeper) (instant : Nat) : Prop :=
  sleeper.now.instant ≤ instant ∧ (deadline sleeper.now sleeper.msTimeout).instant ≤ instant

def Sleeper.due (sleeper : Sleeper) : Nat := sleeper.now.instant + sleeper.msTimeout * 1000000

def BlockQueue.takeFront {α : Type} (q : BlockQueue α) : Except Fault (α × BlockQueue α) := do
  let front := (q.front + 1).tmod q.maxSize
  let item ← BlockQueue.load q.array front
  return (item, { q with front := front, size := q.size - 1 })

structure Timed (α : Type) where
  shared : Shared α
  sleepers : Nat → Option Sleeper

-- `enter` is a call of pop(T &, int) up to its wait, `woken` and `timedOut` are what
-- it does on a return of m_cond.timewait, true for whatever cause or false.
inductive TimedLabel (α : Type) where
  | plain (label : Label α)
  | enter (thread : Nat) (now : Timeval) (msTimeout : Nat)
  | woken (thread : Nat)
  | timedOut (thread : Nat)
deriving DecidableEq, Repr

namespace Timed

variable {α : Type}

def start (queue : BlockQueue α) : Timed α := ⟨.start queue, fun _ => none⟩

def sleeps (s : Timed α) (thread : Nat) (sleeper : Option Sleeper) : Timed α :=
  { s with sleepers := fun other => if other = thread then sleeper else s.sleepers other }

def enter (s : Timed α) (thread : Nat) (now : Timeval) (msTimeout : Nat) : Except TimedFault (Timed α) :=
  if s.shared.queue.size ≤ 0 then .ok (s.sleeps thread (some ⟨now, msTimeout⟩)) else .error .noReturn

def woken (s : Timed α) (thread : Nat) : Except TimedFault (Timed α) :=
  match s.shared.queue.takeFront with
  | .ok (item, queue) => .ok { s.sleeps thread none with shared := s.shared.did queue (.popped item) }
  | .error fault => .error (.access fault)

def effect (s : Timed α) : TimedLabel α → Except TimedFault (Timed α)
  | .plain label => match s.shared.effect label with
      | .ok shared => .ok { s with shared := shared }
      | .error fault => .error (.access fault)
  | .enter thread now msTimeout => s.enter thread now msTimeout
  | .woken thread => s.woken thread
  | .timedOut thread => .ok (s.sleeps thread none)

def allows (s : Timed α) : TimedLabel α → Prop
  | .plain (.call thread _) => s.shared.waiting thread = false ∧ s.sleepers thread = none
  | .plain (.wake thread _) => s.shared.waiting thread = true
  | .enter thread _ _ => s.shared.waiting thread = false ∧ s.sleepers thread = none
  | .woken thread => s.sleepers thread ≠ none
  | .timedOut thread => s.sleepers thread ≠ none

end Timed

instance Timed.decidableAllows {α : Type} (s : Timed α) (label : TimedLabel α) : Decidable (s.allows label) := match label with
  | .plain (.call thread _) => inferInstanceAs (Decidable (s.shared.waiting thread = false ∧ s.sleepers thread = none))
  | .plain (.wake thread _) => inferInstanceAs (Decidable (s.shared.waiting thread = true))
  | .enter thread _ _ => inferInstanceAs (Decidable (s.shared.waiting thread = false ∧ s.sleepers thread = none))
  | .woken thread => inferInstanceAs (Decidable (s.sleepers thread ≠ none))
  | .timedOut thread => inferInstanceAs (Decidable (s.sleepers thread ≠ none))

def timedMachine (α : Type) : Machine (Timed α) (TimedLabel α) TimedFault where
  guard := Timed.allows
  effect := Timed.effect

instance Timed.decidableGuard {α : Type} (s : Timed α) (label : TimedLabel α) : Decidable ((timedMachine α).guard s label) :=
  inferInstanceAs (Decidable (s.allows label))

section Timeouts

variable {α : Type}

def TimedSound (s : Timed α) (label : TimedLabel α) : Prop :=
  ∃ t, (timedMachine α).effect s label = .ok t ∧ ∀ thread, label = .timedOut thread → t.shared.queue = s.shared.queue ∧
    ∀ sleeper, s.sleepers thread = some sleeper → ∀ instant, sleeper.TimesOut instant → sleeper.due ≤ instant

-- The remainder in milliseconds, which the deadline takes for seconds as well,
-- covers the whole time-out.
def Sleeper.Covered (sleeper : Sleeper) : Prop :=
  sleeper.msTimeout = 0 ∨ sleeper.now.usec + sleeper.msTimeout * 1000 ≤ sleeper.msTimeout % 1000 * 1000001

def Favourable (s : Timed α) : TimedLabel α → Prop
  | .plain _ => True
  | .enter _ _ _ => s.shared.queue.size ≤ 0
  | .woken _ => 0 < s.shared.queue.size
  | .timedOut thread => ∀ sleeper, s.sleepers thread = some sleeper → sleeper.Covered

theorem covered_iff (sleeper : Sleeper) : sleeper.Covered ↔ ∀ instant, sleeper.TimesOut instant → sleeper.due ≤ instant := by
  obtain ⟨now, msTimeout⟩ := sleeper
  simp only [Sleeper.Covered, Sleeper.TimesOut, Sleeper.due, Timeval.instant, Timespec.instant, deadline]
  constructor
  · rintro (zero | enough) instant ⟨called, elapsed⟩
    · linarith
    · linarith
  · intro due
    rcases Nat.le_total (now.sec * 1000000000 + now.usec * 1000)
      ((now.sec + msTimeout % 1000) * 1000000000 + msTimeout % 1000 * 1000) with later | sooner
    · have earliest := due _ ⟨later, Nat.le_refl _⟩
      exact .inr (by linarith)
    · have earliest := due _ ⟨Nat.le_refl _, sooner⟩
      exact .inl (by linarith)

theorem take_front_loads (q : BlockQueue α) (bound first last : Nat) (items : List α) (item : α)
    (holds : BlockQueue.Holds q bound first last items) (here : q.array[first % bound]? = some item) :
    q.takeFront = .ok (item, { q with front := (first % bound : Nat), size := q.size - 1 }) := by
  have front : (q.front + 1).tmod q.maxSize = ((first % bound : Nat) : Int) := by
    rw [holds.front, holds.maxSize, Int.ofNat_tmod]
  rw [BlockQueue.takeFront, front, BlockQueue.load_inside q.array _ item here]
  rfl

theorem pop_takes (q : BlockQueue α) (stocked : 0 < q.size) : q.pop = (do return some (← q.takeFront)) := by
  rw [BlockQueue.pop, if_neg (not_le.mpr stocked), BlockQueue.takeFront]
  dsimp only
  cases BlockQueue.load q.array ((q.front + 1).tmod q.maxSize) <;> rfl

theorem take_front_stored (q : BlockQueue α) (bound : Nat) (items : List α) (stores : q.Stores bound items) (stocked : 0 < q.size) :
    ∃ item rest next, items = item :: rest ∧ q.takeFront = .ok (item, next) ∧ next.Stores bound rest := by
  have size := (BlockQueue.stores_cells q bound items stores).2.1
  cases items with
  | nil =>
      rw [size] at stocked
      cases stocked
  | cons item rest =>
      obtain ⟨next, popped, now⟩ := BlockQueue.pop_stored q bound rest item stores
      rw [pop_takes q stocked] at popped
      obtain ⟨taken, took, returned⟩ := ok_of_bind q.takeFront _ _ popped
      cases returned
      exact ⟨item, rest, next, rfl, took, now⟩

-- On an empty queue the stale cell behind m_front is delivered, and m_size passes zero.
theorem take_front_empty (q : BlockQueue α) (bound : Nat) (stores : q.Stores bound []) :
    ∃ item next, q.takeFront = .ok (item, next) ∧ next.size = -1 := by
  obtain ⟨first, last, holds⟩ := stores
  have inside : first % bound < q.array.length := by
    rw [holds.length]
    exact Nat.mod_lt first holds.positive
  refine ⟨q.array[first % bound], _, take_front_loads q bound first last [] _ holds (List.getElem?_eq_getElem inside), ?_⟩
  rw [holds.size]
  rfl

theorem timed_step (bound : Nat) (s : Timed α) (label : TimedLabel α) (refines : s.shared.Refines bound)
    (favourable : Favourable s label) : TimedSound s label ∧
      ∀ t, (timedMachine α).effect s label = .ok t → t.shared.Refines bound := by
  cases label with
  | plain label =>
      obtain ⟨shared, ok, now, _⟩ := queue_step_refines bound s.shared label refines
      have effect : (timedMachine α).effect s (.plain label) = .ok { s with shared := shared } := by
        simp only [timedMachine, Timed.effect, show s.shared.effect label = .ok shared from ok]
      refine ⟨⟨_, effect, fun _ same => by cases same⟩, fun t reached => ?_⟩
      cases effect.symm.trans reached
      exact now
  | enter thread now msTimeout =>
      have effect : (timedMachine α).effect s (.enter thread now msTimeout) = .ok (s.sleeps thread (some ⟨now, msTimeout⟩)) :=
        if_pos favourable
      refine ⟨⟨_, effect, fun _ same => by cases same⟩, fun t reached => ?_⟩
      cases effect.symm.trans reached
      exact refines
  | woken thread =>
      obtain ⟨items, trace, stores⟩ := refines
      obtain ⟨item, rest, queue, rfl, took, now⟩ := take_front_stored s.shared.queue bound items stores favourable
      have effect : (timedMachine α).effect s (.woken thread) =
          .ok { s.sleeps thread none with shared := s.shared.did queue (.popped item) } := by
        simp only [timedMachine, Timed.effect, Timed.woken, took]
      refine ⟨⟨_, effect, fun _ same => by cases same⟩, fun t reached => ?_⟩
      cases effect.symm.trans reached
      exact refines_did bound s.shared _ rest queue _ trace (.pop rest item) now
  | timedOut thread =>
      refine ⟨⟨_, rfl, ?_⟩, fun t reached => ?_⟩
      · intro other same
        cases same
        exact ⟨rfl, fun sleeper asleep => (covered_iff sleeper).mp (favourable sleeper asleep)⟩
      · cases reached
        exact refines

theorem unfavourable_exposed (maxSize : Int) (s : Timed α) (label : TimedLabel α) (refines : s.shared.Refines maxSize.toNat)
    (unfavourable : ¬ Favourable s label) :
    ¬ TimedSound s label ∨ ∃ t, (timedMachine α).effect s label = .ok t ∧ ¬ t.shared.Bounded maxSize := by
  cases label with
  | plain label => exact absurd trivial unfavourable
  | enter thread now msTimeout =>
      left
      rintro ⟨t, effect, _⟩
      have falls : (timedMachine α).effect s (.enter thread now msTimeout) = .error .noReturn := if_neg unfavourable
      rw [falls] at effect
      cases effect
  | woken thread =>
      right
      obtain ⟨items, trace, stores⟩ := refines
      have size := (BlockQueue.stores_cells s.shared.queue _ items stores).2.1
      have nothing : items = [] := by
        apply List.eq_nil_of_length_eq_zero
        have below : s.shared.queue.size ≤ 0 := not_lt.mp unfavourable
        omega
      rw [nothing] at stores
      obtain ⟨item, queue, took, negative⟩ := take_front_empty s.shared.queue _ stores
      refine ⟨{ s.sleeps thread none with shared := s.shared.did queue (.popped item) }, ?_, ?_⟩
      · simp only [timedMachine, Timed.effect, Timed.woken, took]
      · intro bounded
        have least : 0 ≤ queue.size := bounded.bounds.1
        omega
  | timedOut thread =>
      left
      rintro ⟨t, _, sound⟩
      obtain ⟨_, due⟩ := sound thread rfl
      exact unfavourable fun sleeper asleep => (covered_iff sleeper).mpr (due sleeper asleep)

theorem timed_pop_iff (maxSize : Int) (blank : α) (queue : BlockQueue α)
    (created : BlockQueue.new maxSize blank = some queue) (labels : List (TimedLabel α)) :
    Always (timedMachine α) (fun s => s.shared.Bounded maxSize) (Timed.start queue) labels ∧
        Along (timedMachine α) TimedSound (Timed.start queue) labels ↔
      Along (timedMachine α) Favourable (Timed.start queue) labels := by
  have positive := BlockQueue.new_positive maxSize blank queue created
  apply watched_iff_along (timedMachine α) Favourable TimedSound (fun s => s.shared.Refines maxSize.toNat)
  · exact fun s label t refines favourable taken => (timed_step maxSize.toNat s label refines favourable).2 t taken.2
  · exact fun s label refines _ => unfavourable_exposed maxSize s label refines
  · exact fun s => refines_bounded maxSize positive s.shared
  · exact fun s label refines _ favourable => (timed_step maxSize.toNat s label refines favourable).1
  · exact ⟨[], .start, (BlockQueue.new_stores maxSize blank queue created).1⟩

end Timeouts

def poppedStocked : List (TimedLabel Nat) := [.plain (.call 0 (.push 10))]

theorem timed_pop_no_return : ¬ Along (timedMachine Nat) TimedSound (Timed.start ⟨2, [0, 0], 0, -1, -1⟩)
    (poppedStocked ++ [.enter 1 ⟨1000, 0, by decide⟩ 1000]) := by
  intro along
  have reached : ∃ s, replay (timedMachine Nat) (Timed.start ⟨2, [0, 0], 0, -1, -1⟩) poppedStocked = some s ∧
      (timedMachine Nat).guard s (.enter 1 ⟨1000, 0, by decide⟩ 1000) ∧
      (timedMachine Nat).effect s (.enter 1 ⟨1000, 0, by decide⟩ 1000) = .error .noReturn := ⟨_, rfl, by decide, rfl⟩
  obtain ⟨s, run, offered, falls⟩ := reached
  obtain ⟨t, effect, _⟩ := along_replay _ _ _ s _ _ run offered along
  rw [falls] at effect
  cases effect

theorem timed_pop_iff_woken :
    Always (timedMachine Nat) (fun s => s.shared.Bounded 2) (Timed.start ⟨2, [0, 0], 0, -1, -1⟩)
          [.enter 1 ⟨1000, 0, by decide⟩ 500, .plain (.call 0 (.push 10)), .woken 1] ∧
        Along (timedMachine Nat) TimedSound (Timed.start ⟨2, [0, 0], 0, -1, -1⟩)
          [.enter 1 ⟨1000, 0, by decide⟩ 500, .plain (.call 0 (.push 10)), .woken 1] ↔
      Along (timedMachine Nat) Favourable (Timed.start ⟨2, [0, 0], 0, -1, -1⟩)
        [.enter 1 ⟨1000, 0, by decide⟩ 500, .plain (.call 0 (.push 10)), .woken 1] :=
  timed_pop_iff 2 0 ⟨2, [0, 0], 0, -1, -1⟩ rfl _

end WzyServer.Log
