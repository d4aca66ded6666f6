import Mathlib.Data.Finset.Card
import Mathlib.Data.Finset.Range
import WzyServer.Log.BlockQueue

set_option autoImplicit false

namespace WzyServer.Log

open Run

-- A block_queue with what pthread_cond_wait does to its threads: one that waits is
-- asleep until a broadcast reaches it, and then on its way back to m_mutex.
structure Sleepers (α : Type) where
  shared : Shared α
  asleep : Nat → Bool

inductive SleepLabel (α : Type) where
  | call (thread : Nat) (call : Call α)
  | woken (thread : Nat)
  | spurious (thread : Nat) (success : Bool)
deriving DecidableEq, Repr

-- push calls m_cond.broadcast() on a full queue, too.
def Call.broadcasts {α : Type} : Call α → Bool
  | .push _ => true
  | _ => false

def SleepLabel.woke {α : Type} : SleepLabel α → Bool
  | .woken _ => true
  | _ => false

namespace Sleepers

variable {α : Type}

def start (queue : BlockQueue α) : Sleepers α := ⟨.start queue, fun _ => false⟩

def settles (s : Sleepers α) (shared : Shared α) (thread : Nat) : Sleepers α :=
  ⟨shared, fun other => if other = thread then shared.waiting thread else s.asleep other⟩

def effect (s : Sleepers α) : SleepLabel α → Except Fault (Sleepers α)
  | .call thread call => do
      let shared ← s.shared.call thread call
      return if call.broadcasts then ⟨shared, fun _ => false⟩ else s.settles shared thread
  | .woken thread => do return s.settles (← s.shared.pop thread) thread
  | .spurious thread success => do return s.settles (← s.shared.effect (.wake thread success)) thread

def offers (threads : Nat) (s : Sleepers α) : SleepLabel α → Bool
  | .call thread _ => decide (thread < threads) && !s.shared.waiting thread
  | .woken thread => decide (thread < threads) && s.shared.waiting thread && !s.asleep thread
  | .spurious thread _ => decide (thread < threads) && s.shared.waiting thread && s.asleep thread

def signalled (threads : Nat) (s : Sleepers α) : Nat :=
  ((Finset.range threads).filter fun thread => (s.shared.waiting thread && !s.asleep thread) = true).card

end Sleepers

def sleepMachine (α : Type) (threads : Nat) : Machine (Sleepers α) (SleepLabel α) Fault where
  guard := fun s label => s.offers threads label = true
  effect := Sleepers.effect

instance (α : Type) (threads : Nat) (s : Sleepers α) (label : SleepLabel α) : Decidable ((sleepMachine α threads).guard s label) :=
  inferInstanceAs (Decidable (s.offers threads label = true))

section WakeUps

variable {α : Type}

structure Rested (maxSize : Nat) (s : Sleepers α) : Prop where
  refines : s.shared.Refines maxSize
  empty : ∀ thread, s.asleep thread = true → s.shared.queue.items = []

theorem refines_items (bound : Nat) (s : Shared α) (refines : s.Refines bound) : s.queue.Stores bound s.queue.items := by
  obtain ⟨items, _, stores⟩ := refines
  rwa [BlockQueue.stores_items s.queue bound items stores]

structure Settled (s t : Shared α) (thread : Nat) : Prop where
  others : ∀ other, other ≠ thread → t.waiting other = s.waiting other
  own : t.waiting thread = true → t.queue.items = []
  empty : s.queue.items = [] → t.queue.items = []

theorem pop_settled (bound : Nat) (s t : Shared α) (thread : Nat) (refines : s.Refines bound) (ok : s.pop thread = .ok t) :
    Settled s t thread := by
  have stores := refines_items bound s refines
  cases stored : s.queue.items with
  | nil =>
      rw [stored] at stores
      rw [Shared.pop, BlockQueue.pop_empty s.queue bound stores] at ok
      cases ok
      exact ⟨fun other apart => if_neg apart, fun _ => stored, fun _ => stored⟩
  | cons item rest =>
      rw [stored] at stores
      obtain ⟨queue, popped, _⟩ := BlockQueue.pop_stored s.queue bound rest item stores
      rw [Shared.pop, popped] at ok
      cases ok
      refine ⟨fun other apart => if_neg apart, fun waiting => ?_, fun empty => by rw [stored] at empty; cases empty⟩
      simp [Shared.blocks] at waiting

theorem call_settled (bound : Nat) (s t : Shared α) (thread : Nat) (call : Call α) (refines : s.Refines bound)
    (idle : s.waiting thread = false) (quiet : call.broadcasts = false) (ok : s.call thread call = .ok t) : Settled s t thread := by
  have same : ∀ queue event, queue.items = s.queue.items → Settled s (s.did queue event) thread := fun queue event items =>
    ⟨fun _ _ => rfl, fun waiting => absurd (idle.symm.trans waiting) Bool.false_ne_true, fun empty => items.trans empty⟩
  cases call with
  | push item => cases quiet
  | pop => exact pop_settled bound s t thread refines ok
  | clear =>
      cases ok
      have cleared := BlockQueue.clear_stores s.queue bound _ (refines_items bound s refines)
      have nothing := BlockQueue.stores_items _ bound [] cleared
      exact ⟨fun _ _ => rfl, fun _ => nothing, fun _ => nothing⟩
  | size =>
      cases ok
      exact same s.queue _ rfl
  | full =>
      cases ok
      exact same s.queue _ rfl
  | empty =>
      cases ok
      exact same s.queue _ rfl

theorem settles_rested (bound : Nat) (s : Sleepers α) (t : Shared α) (thread : Nat) (inv : Rested bound s) (refines : t.Refines bound)
    (settled : Settled s.shared t thread) : Rested bound (s.settles t thread) := by
  refine ⟨refines, fun other sleeps => ?_⟩
  simp only [Sleepers.settles] at sleeps ⊢
  by_cases own : other = thread
  · rw [if_pos own] at sleeps
    exact settled.own sleeps
  · rw [if_neg own] at sleeps
    exact settled.empty (inv.empty other sleeps)

inductive SleepStep (bound : Nat) (s : Sleepers α) : SleepLabel α → Sleepers α → Prop where
  | broadcast (thread : Nat) (call : Call α) (shared : Shared α) (refines : shared.Refines bound) :
      SleepStep bound s (.call thread call) ⟨shared, fun _ => false⟩
  | settled (label : SleepLabel α) (thread : Nat) (shared : Shared α) (refines : shared.Refines bound)
      (settled : Settled s.shared shared thread)
      (woke : label.woke = true → label = .woken thread ∧ s.shared.waiting thread = true ∧ s.asleep thread = false) :
      SleepStep bound s label (s.settles shared thread)

theorem refines_effect (bound : Nat) (s t : Shared α) (label : Label α) (refines : s.Refines bound) (ok : s.effect label = .ok t) :
    t.Refines bound := by
  obtain ⟨next, effect, now, _⟩ := queue_step_refines bound s label refines
  cases Except.ok.inj (ok.symm.trans effect)
  exact now

theorem sleep_step (bound threads : Nat) (s t : Sleepers α) (label : SleepLabel α) (refines : s.shared.Refines bound)
    (taken : Takes (sleepMachine α threads) s label t) : SleepStep bound s label t := by
  obtain ⟨offered, ok⟩ := taken
  cases label with
  | call thread call =>
      obtain ⟨_, idle⟩ := Bool.and_eq_true_iff.mp offered
      obtain ⟨shared, called, ok⟩ := ok_of_bind _ _ _ ok
      cases ok
      have now := refines_effect bound s.shared shared (.call thread call) refines called
      cases quiet : call.broadcasts with
      | true => exact .broadcast thread call shared now
      | false =>
          exact .settled _ thread shared now (call_settled bound s.shared shared thread call refines (by simpa using idle) quiet called)
            fun woke => by cases woke
  | woken thread =>
      obtain ⟨shared, popped, ok⟩ := ok_of_bind _ _ _ ok
      cases ok
      have now := refines_effect bound s.shared shared (.wake thread true) refines popped
      simp only [sleepMachine, Sleepers.offers, Bool.and_eq_true, Bool.not_eq_true'] at offered
      exact .settled _ thread shared now (pop_settled bound s.shared shared thread refines popped) fun _ =>
        ⟨rfl, offered.1.2, offered.2⟩
  | spurious thread success =>
      obtain ⟨shared, woke, ok⟩ := ok_of_bind _ _ _ ok
      cases ok
      have now := refines_effect bound s.shared shared (.wake thread success) refines woke
      refine .settled _ thread shared now ?_ fun woke => by cases woke
      cases success with
      | true => exact pop_settled bound s.shared shared thread refines woke
      | false =>
          cases woke
          exact ⟨fun other apart => if_neg apart, fun waiting => by simp [Shared.blocks] at waiting, fun empty => empty⟩

theorem rested_step (bound threads : Nat) (s t : Sleepers α) (label : SleepLabel α) (inv : Rested bound s)
    (taken : Takes (sleepMachine α threads) s label t) : Rested bound t := by
  cases sleep_step bound threads s t label inv.refines taken with
  | broadcast thread call shared refines => exact ⟨refines, fun _ sleeps => by cases sleeps⟩
  | settled label thread shared refines settled woke => exact settles_rested bound s shared thread inv refines settled

theorem signalled_less (bound threads : Nat) (s t : Sleepers α) (label : SleepLabel α) (inv : Rested bound s) (woke : label.woke = true)
    (taken : Takes (sleepMachine α threads) s label t) : t.signalled threads < s.signalled threads := by
  have offered := taken.1
  cases sleep_step bound threads s t label inv.refines taken with
  | broadcast thread call shared refines => cases woke
  | settled label thread shared refines settled isWoken =>
      obtain ⟨rfl, waiting, awake⟩ := isWoken woke
      have inside : thread < threads := by
        simp only [sleepMachine, Sleepers.offers, Bool.and_eq_true, decide_eq_true_eq] at offered
        exact offered.1.1
      refine Finset.card_lt_card ((Finset.ssubset_iff_of_subset fun other member => ?_).mpr ⟨thread, ?_, ?_⟩)
      · obtain ⟨low, still⟩ := Finset.mem_filter.mp member
        refine Finset.mem_filter.mpr ⟨low, ?_⟩
        by_cases own : other = thread
        · rw [own, waiting, awake]
          rfl
        · simp only [Sleepers.settles, if_neg own, settled.others other own] at still
          exact still
      · exact Finset.mem_filter.mpr ⟨Finset.mem_range.mpr inside, by rw [waiting, awake]; rfl⟩
      · intro member
        have still := (Finset.mem_filter.mp member).2
        simp [Sleepers.settles] at still

def Hushed (threads : Nat) (s : Sleepers α) : Prop := ∀ thread, ¬ (sleepMachine α threads).guard s (.woken thread)

structure Attended (threads : Nat) (s : Sleepers α) : Prop where
  awake : ∀ thread, s.asleep thread = true → s.shared.queue.items = []
  served : ∀ wakes t, (∀ label ∈ wakes, label.woke = true) → replay (sleepMachine α threads) s wakes = some t →
    wakes.length ≤ s.signalled threads ∧
      (Hushed threads t → t.shared.queue.items = [] ∨ ∀ thread, thread < threads → t.shared.waiting thread = false)

theorem hushed_served (bound threads : Nat) (s : Sleepers α) (inv : Rested bound s) (hushed : Hushed threads s) :
    s.shared.queue.items = [] ∨ ∀ thread, thread < threads → s.shared.waiting thread = false := by
  by_cases sleeper : ∃ thread, s.asleep thread = true
  · obtain ⟨thread, sleeps⟩ := sleeper
    exact .inl (inv.empty thread sleeps)
  · refine .inr fun thread inside => Bool.eq_false_iff.mpr fun waiting => hushed thread ?_
    have awake : s.asleep thread = false := Bool.eq_false_iff.mpr fun sleeps => sleeper ⟨thread, sleeps⟩
    simp [sleepMachine, Sleepers.offers, inside, waiting, awake]

theorem no_wake_up_lost (maxSize : Int) (blank : α) (queue : BlockQueue α) (created : BlockQueue.new maxSize blank = some queue)
    (threads : Nat) (labels : List (SleepLabel α)) :
    Always (sleepMachine α threads) (Attended threads) (.start queue) labels := by
  have stores := (BlockQueue.new_stores maxSize blank queue created).1
  have start : Rested maxSize.toNat (Sleepers.start queue) :=
    ⟨⟨[], .start, stores⟩, fun _ sleeps => by cases sleeps⟩
  have kept : ∀ (s : Sleepers α) label t, Rested maxSize.toNat s → Takes (sleepMachine α threads) s label t → Rested maxSize.toNat t :=
    fun s label t inv taken => rested_step maxSize.toNat threads s t label inv taken
  refine always_mono _ (Rested maxSize.toNat) _ (fun s inv => ⟨inv.empty, fun wakes t woke run => ⟨?_, fun hushed => ?_⟩⟩) _ labels
    (always_invariant _ _ kept _ labels start)
  · have bound := replay_measured (sleepMachine α threads) (fun label => label.woke = true) _ (Sleepers.signalled threads) kept
      (fun s label t inv isWoken taken => signalled_less maxSize.toNat threads s t label inv isWoken taken) s t wakes inv woke run
    omega
  · have reached := always_replay _ _ s t wakes run (always_invariant _ _ kept s wakes inv)
    exact hushed_served maxSize.toNat threads t reached hushed

end WakeUps

theorem no_wake_up_lost_two_consumers : Always (sleepMachine Nat 3) (Attended 3) (.start ⟨2, [0, 0], 0, -1, -1⟩)
    [.call 0 .pop, .call 1 .pop, .spurious 0 true, .call 2 (.push 10), .woken 1, .woken 0] :=
  no_wake_up_lost 2 0 ⟨2, [0, 0], 0, -1, -1⟩ rfl 3 _

end WzyServer.Log
