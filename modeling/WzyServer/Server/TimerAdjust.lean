import WzyServer.Server.TimerRuns

set_option autoImplicit false

namespace WzyServer.Server

open Heap LinkedList

namespace SortTimerLst

-- A timer taken out of the list, with null links again. sort_timer_lst itself has no
-- such operation: adjust_timer is measured against it.
def unlink (lst : SortTimerLst) (timer : Addr) : Except HeapFault SortTimerLst := do
  let node ← lst.memory.read timer
  let lst ← match node.prev with
    | none => .ok { lst with head := node.next }
    | some prev => lst.setNext prev node.next
  let lst ← match node.next with
    | none => .ok { lst with tail := node.prev }
    | some next => lst.setPrev next node.prev
  let lst ← lst.setPrev timer none
  lst.setNext timer none

end SortTimerLst

section Reinsertion

theorem clear_links (lst : SortTimerLst) (timers : TimerList) (timer : Timer) (loose : Loose lst timers timer) :
    ∃ now, (do
        let lst ← lst.setPrev timer.id none
        lst.setNext timer.id none) = .ok now ∧ Loose now timers timer ∧
      now.memory.cells timer.id = some ⟨timer, none, none⟩ := by
  obtain ⟨p, n, here⟩ := loose.here
  have timerHere : lst.memory.cells timer.id ≠ none := by
    rw [here]
    exact Option.some_ne_none _
  rw [set_prev_ok lst timer.id _ timerHere]
  dsimp only [bind, Except.bind]
  rw [set_next_ok _ timer.id _ (by simpa using timerHere)]
  have cleared := loose_turn_own lst timers timer (fun node => { node with prev := none }) (fun _ => rfl) loose
  have both := loose_turn_own _ timers timer (fun node => { node with next := none }) (fun _ => rfl) cleared
  refine ⟨_, rfl, both, ?_⟩
  simp [Memory.turn, here]

theorem unlink_loose (lst : SortTimerLst) (front rear : TimerList) (timer : Timer) (rep : Represents lst (front ++ timer :: rear)) :
    ∃ now, lst.unlink timer.id = .ok now ∧ Loose now (front ++ rear) timer ∧
      now.memory.cells timer.id = some ⟨timer, none, none⟩ := by
  have cell := rep_cell lst front rear timer rep
  rw [SortTimerLst.unlink, Memory.read_here _ _ _ cell]
  rcases List.eq_nil_or_concat' front with rfl | ⟨front, p, rfl⟩
  · cases rear with
    | nil =>
        apply clear_links
        exact loose_unlink lst _ [] [] timer rep trivial trivial rfl (fun _ => Iff.rfl) rfl rfl fun nonempty => absurd rfl nonempty
    | cons z zs =>
        have zHere := shape_present lst _ rep.toShape z (by simp)
        dsimp only [bind, Except.bind, last, first]
        rw [set_prev_ok _ z.id _ (by simpa using zHere)]
        exact clear_links _ _ timer (unlink_head lst timer z zs rep)
  · have pHere := shape_present lst _ rep.toShape p (by simp)
    rw [last_snoc]
    cases rear with
    | nil =>
        rw [List.append_assoc] at rep
        dsimp only [bind, Except.bind, first]
        rw [set_next_ok _ p.id _ pHere, List.append_nil]
        exact clear_links _ _ timer (unlink_tail lst front p timer rep)
    | cons z zs =>
        have zHere := shape_present lst _ rep.toShape z (by simp)
        rw [List.append_assoc] at rep
        dsimp only [bind, Except.bind, first]
        rw [set_next_ok _ p.id _ pHere, List.append_assoc]
        dsimp only
        rw [set_prev_ok _ z.id _ (by simpa using zHere)]
        exact clear_links _ _ timer (unlink_inner lst front zs p timer z rep)

theorem add_timer_append (timer : Timer) (front rear : TimerList) (earlier : ∀ x ∈ front, x.expire ≤ timer.expire) :
    addTimer timer (front ++ rear) = front ++ addTimer timer rear := by
  induction front with
  | nil => rfl
  | cons x xs ih =>
      have notLater : ¬ timer.expire < x.expire := Int.not_lt.mpr (earlier x (List.mem_cons_self ..))
      rw [List.cons_append, addTimer, if_neg notLater, ih fun y member => earlier y (List.mem_cons_of_mem x member)]
      rfl

theorem add_timer_place (timer : Timer) (timers : TimerList) (sorted : Sorted timers) :
    ∃ before after, addTimer timer timers = before ++ timer :: after ∧ before ++ after = timers ∧
      (∀ x ∈ before, x.expire ≤ timer.expire) ∧ ∀ x ∈ after, timer.expire < x.expire := by
  induction timers with
  | nil => exact ⟨[], [], rfl, rfl, List.forall_mem_nil _, List.forall_mem_nil _⟩
  | cons z zs ih =>
      obtain ⟨least, rest⟩ := List.pairwise_cons.mp sorted
      by_cases earlier : timer.expire < z.expire
      · refine ⟨[], z :: zs, ?_, rfl, List.forall_mem_nil _, ?_⟩
        · rw [addTimer, if_pos earlier]
          rfl
        · intro x member
          rcases List.mem_cons.mp member with rfl | later
          · exact earlier
          · exact Int.lt_of_lt_of_le earlier (least x later)
      · obtain ⟨before, after, placed, whole, notLater, laterOnes⟩ := ih rest
        refine ⟨z :: before, after, ?_, ?_, ?_, laterOnes⟩
        · rw [addTimer, if_neg earlier, placed, List.cons_append]
        · rw [List.cons_append, whole]
        · exact List.forall_mem_cons.mpr ⟨Int.not_lt.mp earlier, notLater⟩

structure Reinserted (timers : TimerList) (timer : Timer) (lst : SortTimerLst) (sequence : TimerList) : Prop where
  represents : Represents lst sequence
  sorted : Sorted sequence
  place : ∃ before after, sequence = before ++ timer :: after ∧ before ++ after = delTimer timer.id timers ∧
    (∀ x ∈ before, x.expire ≤ timer.expire) ∧ ∀ x ∈ after, timer.expire < x.expire

theorem adjust_timer_reinserts (lst : SortTimerLst) (timers : TimerList) (rep : Represents lst timers) (sorted : Sorted timers)
    (timer : Timer) (member : timer ∈ timers) (expire : Int) (later : timer.expire ≤ expire) :
    ∃ refreshed adjusted unlinked added sequence,
      lst.setExpire timer.id expire = .ok refreshed ∧ refreshed.adjustTimer timer.id = .ok adjusted ∧
      refreshed.unlink timer.id = .ok unlinked ∧ unlinked.addTimer timer.id = .ok added ∧
      Reinserted timers { timer with expire := expire } adjusted sequence ∧
      Reinserted timers { timer with expire := expire } added sequence := by
  obtain ⟨front, rear, rfl⟩ := List.append_of_mem member
  obtain ⟨frontSorted, restSorted, across⟩ := List.pairwise_append.mp sorted
  have without : Sorted (front ++ rear) := sorted.sublist ((List.sublist_cons_self timer rear).append_left front)
  obtain ⟨refreshed, expired, between⟩ := set_expire_represents lst front rear timer expire rep
  obtain ⟨adjusted, adjust, inPlace⟩ := adjust_timer_represents refreshed front rear _ between
  obtain ⟨unlinked, unlink, loose, clear⟩ := unlink_loose refreshed front rear _ between
  obtain ⟨added, add, plain⟩ := add_unlinked_represents unlinked (front ++ rear) _ loose clear
  have passes : ∀ x ∈ front, x.expire ≤ expire :=
    fun x inside => Int.le_trans (across x inside timer (List.mem_cons_self ..)) later
  obtain ⟨before, after, placed, whole, notLater, laterOnes⟩ := add_timer_place { timer with expire := expire } (front ++ rear) without
  have sequenceSorted := add_timer_sorted { timer with expire := expire } (front ++ rear) without
  rw [← add_timer_append _ front rear passes] at inPlace
  have rest : before ++ after = delTimer timer.id (front ++ timer :: rear) := by
    rw [del_timer_split front rear timer rep.ids]
    exact whole
  refine ⟨refreshed, adjusted, unlinked, added, _, expired, adjust, unlink, add, ⟨inPlace, sequenceSorted, ?_⟩, plain,
    sequenceSorted, ?_⟩
  · exact ⟨before, after, placed, rest, notLater, laterOnes⟩
  · exact ⟨before, after, placed, rest, notLater, laterOnes⟩

def earlyTimer : Timer := ⟨1, 10, 5, ⟨5, 0⟩⟩
def lateTimer : Timer := ⟨2, 20, 6, ⟨6, 0⟩⟩

def twoTimers : SortTimerLst where
  memory :=
    { cells := fun addr =>
        if addr = 1 then some ⟨earlyTimer, none, some 2⟩ else if addr = 2 then some ⟨lateTimer, some 1, none⟩ else none,
      allocated := 2 }
  head := some 1
  tail := some 2

theorem two_timers_represented : Represents twoTimers [earlyTimer, lateTimer] := by
  refine ⟨⟨⟨rfl, rfl, trivial⟩, by decide, rfl, fun _ => rfl⟩, rfl, ?_⟩
  intro addr found
  by_cases one : addr = 1
  · simp [one, earlyTimer]
  · by_cases two : addr = 2
    · simp [two, lateTimer]
    · simp [twoTimers, one, two] at found

theorem adjust_timer_reinserts_tie :
    ∃ refreshed adjusted unlinked added sequence,
      twoTimers.setExpire 1 20 = .ok refreshed ∧ refreshed.adjustTimer 1 = .ok adjusted ∧
      refreshed.unlink 1 = .ok unlinked ∧ unlinked.addTimer 1 = .ok added ∧
      Reinserted [earlyTimer, lateTimer] { earlyTimer with expire := 20 } adjusted sequence ∧
      Reinserted [earlyTimer, lateTimer] { earlyTimer with expire := 20 } added sequence :=
  adjust_timer_reinserts twoTimers _ two_timers_represented (by simp [Sorted, earlyTimer, lateTimer]) earlyTimer (by simp) 20
    (by decide)

end Reinsertion

end WzyServer.Server
