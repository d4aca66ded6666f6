import WzyServer.Server.Loop
import WzyServer.Server.TimerExpiry

set_option autoImplicit false

namespace WzyServer.Server

open Heap LinkedList Run

-- The timer list and its callers again, with what is not in the source: how many
-- calls have been made, and which of them set each timer last.
structure TurnRun where
  run : TimerRun
  turn : Nat
  stamps : Addr → Nat

namespace TurnRun

def start : TurnRun := ⟨.start, 0, fun _ => 0⟩

def stamped (s : TurnRun) : TimerLabel → Addr → Nat
  | .add timer => set s.stamps timer.id s.turn
  | .adjust timer _ => set s.stamps timer s.turn
  | .del _ | .tick _ => s.stamps

def effect (s : TurnRun) (label : TimerLabel) : Except HeapFault TurnRun := do
  let run ← s.run.effect label
  return ⟨run, s.turn + 1, s.stamped label⟩

end TurnRun

def turnMachine : Machine TurnRun TimerLabel HeapFault where
  guard := fun s label => s.run.offers label
  effect := TurnRun.effect

def Precedes (stamps : Addr → Nat) (a b : Timer) : Prop :=
  a.expire < b.expire ∨ a.expire = b.expire ∧ stamps a.id < stamps b.id

def Queued (stamps : Addr → Nat) (timers : TimerList) : Prop := timers.Pairwise (Precedes stamps)

section Lists

theorem queued_same (stamps later : Addr → Nat) (timers : TimerList) (queued : Queued stamps timers)
    (same : ∀ timer ∈ timers, later timer.id = stamps timer.id) : Queued later timers := by
  refine queued.imp_of_mem fun {a b} inA inB precedes => ?_
  unfold Precedes
  rw [same a inA, same b inB]
  exact precedes

theorem add_timer_queued (stamps : Addr → Nat) (timer : Timer) (timers : TimerList) (queued : Queued stamps timers)
    (newest : ∀ other ∈ timers, stamps other.id < stamps timer.id) : Queued stamps (addTimer timer timers) := by
  induction timers with
  | nil => exact List.pairwise_singleton ..
  | cons tmp rest ih =>
      obtain ⟨first, others⟩ := List.pairwise_cons.mp queued
      obtain ⟨older, olderRest⟩ := List.forall_mem_cons.mp newest
      by_cases earlier : timer.expire < tmp.expire
      · rw [addTimer, if_pos earlier]
        refine List.pairwise_cons.mpr ⟨?_, queued⟩
        intro other member
        rcases List.mem_cons.mp member with rfl | later
        · exact .inl earlier
        · rcases first other later with less | ⟨same, _⟩
          · exact .inl (Int.lt_trans earlier less)
          · exact .inl (same ▸ earlier)
      · rw [addTimer, if_neg earlier]
        refine List.pairwise_cons.mpr ⟨?_, ih others olderRest⟩
        intro other member
        rcases List.mem_cons.mp ((add_timer_perm timer rest).mem_iff.mp member) with rfl | later
        · rcases Int.lt_or_eq_of_le (Int.not_lt.mp earlier) with less | same
          · exact .inl less
          · exact .inr ⟨same, older⟩
        · exact first other later

theorem refresh_timer_queued (stamps : Addr → Nat) (front rear : TimerList) (timer : Timer) (expire : Int) (later : timer.expire ≤ expire)
    (queued : Queued stamps (front ++ timer :: rear)) (turn : Nat) (ids : ((front ++ timer :: rear).map Timer.id).Nodup)
    (below : ∀ other ∈ front ++ timer :: rear, stamps other.id < turn) :
    Queued (set stamps timer.id turn) (front ++ addTimer { timer with expire := expire } rear) := by
  obtain ⟨frontQueued, restQueued, across⟩ := List.pairwise_append.mp queued
  obtain ⟨frontApart, rearApart, _⟩ := ids_apart front rear timer ids
  have elsewhere : ∀ other : Timer, other.id ≠ timer.id → set stamps timer.id turn other.id = stamps other.id :=
    fun other different => set_elsewhere _ _ _ _ different
  have olderFront : ∀ other ∈ front, stamps other.id < turn := fun other member => below other (List.mem_append_left _ member)
  have olderRear : ∀ other ∈ rear, set stamps timer.id turn other.id < set stamps timer.id turn timer.id := by
    intro other member
    rw [elsewhere other (rearApart other member), set_here]
    exact below other (List.mem_append_right _ (List.mem_cons_of_mem _ member))
  have rearQueued := queued_same stamps (set stamps timer.id turn) rear (List.pairwise_cons.mp restQueued).2
    fun other member => elsewhere other (rearApart other member)
  refine List.pairwise_append.mpr ⟨?_, add_timer_queued _ { timer with expire := expire } rear rearQueued olderRear, ?_⟩
  · exact queued_same stamps _ front frontQueued fun other member => elsewhere other (frontApart other member)
  · intro x inFront y inside
    have precedes := across x inFront
    unfold Precedes
    rw [elsewhere x (frontApart x inFront)]
    rcases List.mem_cons.mp ((add_timer_perm _ rear).mem_iff.mp inside) with rfl | inRear
    · dsimp only
      rw [set_here]
      have older := olderFront x inFront
      rcases precedes timer (List.mem_cons_self ..) with less | ⟨same, _⟩
      · exact .inl (Int.lt_of_lt_of_le less later)
      · rcases Int.lt_or_eq_of_le later with more | equal
        · exact .inl (same ▸ more)
        · exact .inr ⟨same.trans equal, older⟩
    · rw [elsewhere y (rearApart y inRear)]
      exact precedes y (List.mem_cons_of_mem _ inRear)

end Lists

section Runs

structure Turned (s : TurnRun) (timers : TimerList) : Prop where
  tracks : Tracks s.run timers
  queued : Queued s.stamps timers
  below : ∀ timer ∈ timers, s.stamps timer.id < s.turn

theorem turned_step (s t : TurnRun) (timers : TimerList) (label : TimerLabel) (turned : Turned s timers)
    (taken : Takes turnMachine s label t) : Turned t (listStep timers label) := by
  obtain ⟨offered, effect⟩ := taken
  obtain ⟨tracks, queued, below⟩ := turned
  obtain ⟨run, stepped, after⟩ := timer_step s.run timers label tracks offered
  have reached : t = ⟨run, s.turn + 1, s.stamped label⟩ := by
    simp only [turnMachine, TurnRun.effect, stepped] at effect
    exact (Except.ok.inj effect).symm
  subst reached
  have older : ∀ timer ∈ timers, s.stamps timer.id < s.turn + 1 := fun timer member => Nat.lt_succ_of_lt (below timer member)
  cases label with
  | add timer =>
      have perm := add_timer_perm timer timers
      have ids := (perm.map Timer.id).nodup_iff.mp after.rep.ids
      have apart : ∀ other ∈ timers, other.id ≠ timer.id :=
        fun other member same => (List.nodup_cons.mp ids).1 (same ▸ List.mem_map_of_mem member)
      have kept : ∀ other ∈ timers, set s.stamps timer.id s.turn other.id = s.stamps other.id :=
        fun other member => set_elsewhere _ _ _ _ (apart other member)
      refine ⟨after, add_timer_queued _ timer timers (queued_same _ _ timers queued kept) ?_, ?_⟩
      · intro other member
        change set s.stamps timer.id s.turn other.id < set s.stamps timer.id s.turn timer.id
        rw [kept other member, set_here]
        exact below other member
      · intro other member
        change set s.stamps timer.id s.turn other.id < s.turn + 1
        rcases List.mem_cons.mp (perm.mem_iff.mp member) with rfl | inside
        · rw [set_here]
          exact Nat.lt_succ_self _
        · rw [kept other inside]
          exact older other inside
  | adjust id expire =>
      obtain ⟨member, later⟩ := offered
      obtain ⟨front, timer, rear, rfl, rfl⟩ := split_at timers id ((tracks.live id).mp member)
      have least : timer.expire ≤ expire := later _ (rep_cell s.run.lst front rear timer tracks.rep)
      rw [listStep, refresh_timer_split front rear timer expire tracks.rep.ids] at after ⊢
      refine ⟨after, refresh_timer_queued s.stamps front rear timer expire least queued s.turn tracks.rep.ids below, ?_⟩
      intro other inside
      change set s.stamps timer.id s.turn other.id < s.turn + 1
      by_cases same : other.id = timer.id
      · rw [same, set_here]
        exact Nat.lt_succ_self _
      · rw [set_elsewhere _ _ _ _ same]
        rcases List.mem_append.mp inside with inFront | behind
        · exact older other (List.mem_append_left _ inFront)
        · rcases List.mem_cons.mp ((add_timer_perm _ rear).mem_iff.mp behind) with rfl | inRear
          · exact absurd rfl same
          · exact older other (List.mem_append_right _ (List.mem_cons_of_mem _ inRear))
  | del id =>
      exact ⟨after, queued.sublist List.filter_sublist, fun other member => older other (List.mem_of_mem_filter member)⟩
  | tick cur =>
      exact ⟨after, queued.sublist (List.dropWhile_sublist _), fun other member => older other ((List.dropWhile_sublist _).subset member)⟩

structure InTurn (s : TurnRun) (cur : Int) (path called : TimerList) (now : SortTimerLst) : Prop where
  walk : Walk Timer.id s.run.lst.memory.cells s.run.lst.head path
  ticked : s.run.lst.tick cur = .ok (now, called)
  due : ∀ timer, timer ∈ called ↔ timer ∈ path ∧ timer.expire ≤ cur
  order : Queued s.stamps called

theorem turned_in_turn (s : TurnRun) (timers : TimerList) (cur : Int) (turned : Turned s timers) :
    ∃ path called now, InTurn s cur path called now := by
  obtain ⟨⟨rep, _, sorted⟩, queued, _⟩ := turned
  obtain ⟨now, ticked, _⟩ := tick_from_represents s.run.lst.memory.allocated s.run.lst timers cur rep (by rw [rep.allocated])
  have walk := linked_walk Timer.id s.run.lst.memory.cells none timers rep.linked
  rw [← rep.head] at walk
  have due := take_while_due timers cur sorted
  have called : ∀ timer, timer ∈ timers.takeWhile (fun timer => decide (timer.expire ≤ cur)) ↔
      timer ∈ timers ∧ timer.expire ≤ cur := by
    intro timer
    rw [due, List.mem_filter, decide_eq_true_iff]
  exact ⟨timers, _, now, walk, ticked, called, queued.sublist (List.takeWhile_sublist _)⟩

theorem ticks_in_turn (labels : List TimerLabel) (cur : Int) :
    Always turnMachine (fun s => ∃ path called now, InTurn s cur path called now) .start labels := by
  have start : ∃ timers, Turned .start timers :=
    ⟨[], start_tracks, List.Pairwise.nil, fun timer member => absurd member List.not_mem_nil⟩
  have always := always_invariant turnMachine (fun s => ∃ timers, Turned s timers)
    (fun s label t ⟨timers, turned⟩ taken => ⟨_, turned_step s t timers label turned taken⟩) .start labels start
  exact always_mono turnMachine _ _ (fun s ⟨timers, turned⟩ => turned_in_turn s timers cur turned) .start labels always

end Runs

end WzyServer.Server
