import Mathlib.Data.Finset.SDiff
import Mathlib.Data.Finset.Erase
import WzyServer.Base.Run
import WzyServer.Server.TimerRemove

set_option autoImplicit false

namespace WzyServer.Server

open Heap LinkedList Run

-- A timer list and its callers: a fresh timer is added, a timer of the list gets a
-- later time and is adjusted, one is deleted, and time passes. `live` has the timers
-- added and not yet deleted or expired.
structure TimerRun where
  lst : SortTimerLst
  live : Finset Addr

inductive TimerLabel where
  | add (timer : Timer)
  | adjust (timer : Addr) (expire : Int)
  | del (timer : Addr)
  | tick (cur : Int)

namespace TimerRun

def start : TimerRun := ⟨.new, ∅⟩

def effect (s : TimerRun) : TimerLabel → Except HeapFault TimerRun
  | .add timer => do
      let lst ← (s.lst.create timer).addTimer timer.id
      return ⟨lst, insert timer.id s.live⟩
  | .adjust timer expire => do
      let lst ← s.lst.setExpire timer expire
      let lst ← lst.adjustTimer timer
      return ⟨lst, s.live⟩
  | .del timer => do
      let lst ← s.lst.delTimer timer
      return ⟨lst, s.live.erase timer⟩
  | .tick cur => do
      let (lst, called) ← s.lst.tick cur
      return ⟨lst, s.live \ (called.map Timer.id).toFinset⟩

-- `new` returns memory that is not in use.
def offers (s : TimerRun) : TimerLabel → Prop
  | .add timer => s.lst.memory.cells timer.id = none
  | .adjust timer expire => timer ∈ s.live ∧ ∀ node, s.lst.memory.cells timer = some node → node.value.expire ≤ expire
  | .del timer => timer ∈ s.live
  | .tick _ => True

end TimerRun

def timerMachine : Machine TimerRun TimerLabel HeapFault where
  guard := TimerRun.offers
  effect := TimerRun.effect

def listStep (timers : TimerList) : TimerLabel → TimerList
  | .add timer => addTimer timer timers
  | .adjust timer expire => refreshTimer timer expire timers
  | .del timer => delTimer timer timers
  | .tick cur => timers.dropWhile fun timer => decide (timer.expire ≤ cur)

section Lists

def Sorted (timers : TimerList) : Prop := timers.Pairwise fun earlier later => earlier.expire ≤ later.expire

theorem split_at (timers : TimerList) (id : Nat) (member : id ∈ timers.map Timer.id) :
    ∃ front timer rear, timers = front ++ timer :: rear ∧ timer.id = id := by
  obtain ⟨timer, inside, same⟩ := List.mem_map.mp member
  obtain ⟨front, rear, whole⟩ := List.append_of_mem inside
  exact ⟨front, timer, rear, whole, same⟩

theorem del_timer_split (front rear : TimerList) (timer : Timer) (ids : ((front ++ timer :: rear).map Timer.id).Nodup) :
    delTimer timer.id (front ++ timer :: rear) = front ++ rear := by
  obtain ⟨frontApart, rearApart, _⟩ := ids_apart front rear timer ids
  rw [delTimer, List.filter_append, List.filter_cons_of_neg (by simp)]
  congr 1
  · exact List.filter_eq_self.mpr fun x member => decide_eq_true (frontApart x member)
  · exact List.filter_eq_self.mpr fun x member => decide_eq_true (rearApart x member)

theorem refresh_timer_split (front rear : TimerList) (timer : Timer) (expire : Int)
    (ids : ((front ++ timer :: rear).map Timer.id).Nodup) :
    refreshTimer timer.id expire (front ++ timer :: rear) = front ++ addTimer { timer with expire := expire } rear := by
  obtain ⟨frontApart, rearApart, apart⟩ := ids_apart front rear timer ids
  have same : ∀ timers : TimerList, (∀ x ∈ timers, x.id ≠ timer.id) → setExpire timer.id expire timers = timers := by
    intro timers apart
    exact (List.map_congr_left fun x member => if_neg (apart x member)).trans (List.map_id timers)
  have whole : setExpire timer.id expire (front ++ timer :: rear) = front ++ { timer with expire := expire } :: rear := by
    rw [setExpire, List.map_append, List.map_cons, if_pos rfl, ← setExpire, ← setExpire, same front frontApart, same rear rearApart]
  rw [refreshTimer, whole]
  clear ids whole same apart
  induction front with
  | nil => rw [List.nil_append, adjustTimer, if_pos rfl, List.nil_append]
  | cons x rest ih =>
      rw [List.cons_append, adjustTimer, if_neg (frontApart x (List.mem_cons_self ..))]
      rw [ih fun y member => frontApart y (List.mem_cons_of_mem x member)]
      rfl

theorem add_timer_sorted (timer : Timer) (timers : TimerList) (sorted : Sorted timers) : Sorted (addTimer timer timers) := by
  induction timers with
  | nil => exact List.pairwise_singleton ..
  | cons z zs ih =>
      obtain ⟨least, rest⟩ := List.pairwise_cons.mp sorted
      by_cases earlier : timer.expire < z.expire
      · rw [addTimer, if_pos earlier]
        refine List.pairwise_cons.mpr ⟨?_, sorted⟩
        intro x member
        rcases List.mem_cons.mp member with rfl | later
        · exact Int.le_of_lt earlier
        · exact Int.le_trans (Int.le_of_lt earlier) (least x later)
      · rw [addTimer, if_neg earlier]
        refine List.pairwise_cons.mpr ⟨?_, ih rest⟩
        intro x member
        rcases List.mem_cons.mp ((add_timer_perm timer zs).mem_iff.mp member) with rfl | older
        · exact Int.not_lt.mp earlier
        · exact least x older

theorem refresh_timer_sorted (front rear : TimerList) (timer : Timer) (expire : Int) (later : timer.expire ≤ expire)
    (sorted : Sorted (front ++ timer :: rear)) : Sorted (front ++ addTimer { timer with expire := expire } rear) := by
  obtain ⟨frontSorted, restSorted, across⟩ := List.pairwise_append.mp sorted
  refine List.pairwise_append.mpr ⟨frontSorted, add_timer_sorted _ rear (List.pairwise_cons.mp restSorted).2, ?_⟩
  intro x member y inside
  rcases List.mem_cons.mp ((add_timer_perm _ rear).mem_iff.mp inside) with rfl | older
  · exact Int.le_trans (across x member timer (List.mem_cons_self ..)) later
  · exact across x member y (List.mem_cons_of_mem timer older)

end Lists

section Runs

structure Tracks (s : TimerRun) (timers : TimerList) : Prop where
  rep : Represents s.lst timers
  live : ∀ addr, addr ∈ s.live ↔ addr ∈ timers.map Timer.id
  sorted : Sorted timers

theorem set_expire_represents (lst : SortTimerLst) (front rear : TimerList) (timer : Timer) (expire : Int)
    (rep : Represents lst (front ++ timer :: rear)) :
    ∃ now, lst.setExpire timer.id expire = .ok now ∧ Represents now (front ++ { timer with expire := expire } :: rear) := by
  have cell := rep_cell lst front rear timer rep
  have here := shape_present lst _ rep.toShape timer (by simp)
  obtain ⟨frontLinked, _, rearLinked⟩ := (linked_append Timer.id _ none none front (timer :: rear)).mp rep.linked
  obtain ⟨frontApart, rearApart, _⟩ := ids_apart front rear timer rep.ids
  have ids : (front ++ { timer with expire := expire } :: rear).map Timer.id = (front ++ timer :: rear).map Timer.id := by
    simp
  rw [SortTimerLst.setExpire, Memory.write_here _ _ _ here]
  refine ⟨_, rfl, ⟨?_, by rw [ids]; exact rep.ids, ?_, ?_⟩, ?_, ?_⟩
  · refine (linked_append Timer.id _ none none front _).mpr ⟨?_, ?_, ?_⟩
    · exact linked_same Timer.id lst.memory.cells _ none _ front frontLinked
        fun x member => Memory.turn_elsewhere _ _ _ _ (frontApart x member)
    · exact (Memory.turn_here _ _ _).trans (by rw [cell]; rfl)
    · exact linked_same Timer.id lst.memory.cells _ _ none rear rearLinked
        fun x member => Memory.turn_elsewhere _ _ _ _ (rearApart x member)
  · change lst.head = _
    rw [rep.head, first_append, first_append]
    rfl
  · intro _
    change lst.tail = _
    rw [rep.tail (by simp), last_append, last_append]
    rfl
  · change lst.memory.allocated = _
    rw [rep.allocated, List.length_append, List.length_append, List.length_cons, List.length_cons]
  · intro addr found
    rw [ids]
    exact rep.only addr fun absent => found ((Memory.turn_none_iff _ _ _ _).mpr absent)

theorem ids_without (front : TimerList) (timer : Timer) (rear : TimerList)
    (ids : ((front ++ timer :: rear).map Timer.id).Nodup) (addr : Addr) :
    addr ∈ (front ++ rear).map Timer.id ↔ addr ≠ timer.id ∧ addr ∈ (front ++ timer :: rear).map Timer.id := by
  have perm : ((front ++ timer :: rear).map Timer.id).Perm (timer.id :: (front ++ rear).map Timer.id) :=
    (List.perm_middle : (front ++ timer :: rear).Perm _).map Timer.id
  rw [perm.nodup_iff, List.nodup_cons] at ids
  rw [perm.mem_iff, List.mem_cons]
  constructor
  · exact fun found => ⟨fun same => ids.1 (same ▸ found), .inr found⟩
  · exact fun ⟨different, found⟩ => found.resolve_left different

theorem ids_left (timers : TimerList) (due : Timer → Bool) (ids : (timers.map Timer.id).Nodup) (addr : Addr) :
    addr ∈ (timers.dropWhile due).map Timer.id ↔
      addr ∈ timers.map Timer.id ∧ addr ∉ (timers.takeWhile due).map Timer.id := by
  have parts : timers.map Timer.id = (timers.takeWhile due).map Timer.id ++ (timers.dropWhile due).map Timer.id := by
    rw [← List.map_append, List.takeWhile_append_dropWhile]
  rw [parts, List.nodup_append] at ids
  rw [parts, List.mem_append]
  constructor
  · exact fun found => ⟨.inr found, fun called => ids.2.2 addr called addr found rfl⟩
  · exact fun ⟨found, kept⟩ => found.resolve_left kept

theorem timer_step (s : TimerRun) (timers : TimerList) (label : TimerLabel) (tracks : Tracks s timers)
    (offered : s.offers label) : ∃ t, s.effect label = .ok t ∧ Tracks t (listStep timers label) := by
  obtain ⟨rep, live, sorted⟩ := tracks
  cases label with
  | add timer =>
      obtain ⟨now, added, represents⟩ := add_timer_represents s.lst timers timer rep offered
      refine ⟨⟨now, insert timer.id s.live⟩, ?_, represents, ?_, add_timer_sorted timer timers sorted⟩
      · rw [TimerRun.effect, added]
        rfl
      · intro addr
        have perm := (add_timer_perm timer timers).map Timer.id
        rw [listStep, perm.mem_iff, List.map_cons, List.mem_cons, Finset.mem_insert, live]
  | adjust id expire =>
      obtain ⟨member, later⟩ := offered
      obtain ⟨front, timer, rear, rfl, rfl⟩ := split_at timers id ((live id).mp member)
      have least : timer.expire ≤ expire := later _ (rep_cell s.lst front rear timer rep)
      obtain ⟨middle, expired, between⟩ := set_expire_represents s.lst front rear timer expire rep
      obtain ⟨now, adjusted, represents⟩ := adjust_timer_represents middle front rear _ between
      rw [listStep, refresh_timer_split front rear timer expire rep.ids]
      refine ⟨⟨now, s.live⟩, ?_, represents, ?_, refresh_timer_sorted front rear timer expire least sorted⟩
      · rw [TimerRun.effect, expired]
        dsimp only [bind, Except.bind]
        rw [adjusted]
        rfl
      · intro addr
        have perm := (add_timer_perm { timer with expire := expire } rear).map Timer.id
        rw [live, List.map_append, List.map_append, List.mem_append, List.mem_append, perm.mem_iff]
        rfl
  | del id =>
      obtain ⟨front, timer, rear, rfl, rfl⟩ := split_at timers id ((live id).mp offered)
      obtain ⟨now, deleted, represents⟩ := del_timer_represents s.lst front rear timer rep
      rw [listStep, del_timer_split front rear timer rep.ids]
      refine ⟨⟨now, s.live.erase timer.id⟩, ?_, represents, ?_, ?_⟩
      · rw [TimerRun.effect, deleted]
        rfl
      · intro addr
        rw [Finset.mem_erase, live]
        exact (ids_without front timer rear rep.ids addr).symm
      · exact sorted.sublist ((List.sublist_cons_self timer rear).append_left front)
  | tick cur =>
      let due := fun timer : Timer => decide (timer.expire ≤ cur)
      obtain ⟨now, ticked, represents⟩ := tick_from_represents s.lst.memory.allocated s.lst timers cur rep (by rw [rep.allocated])
      refine ⟨⟨now, s.live \ ((timers.takeWhile due).map Timer.id).toFinset⟩, ?_, represents, ?_, ?_⟩
      · rw [TimerRun.effect, SortTimerLst.tick, ticked]
        rfl
      · intro addr
        rw [Finset.mem_sdiff, live, List.mem_toFinset]
        exact (ids_left timers due rep.ids addr).symm
      · exact sorted.sublist (List.dropWhile_sublist _)

theorem start_tracks : Tracks .start [] := by
  refine ⟨⟨⟨trivial, List.nodup_nil, rfl, fun some => absurd rfl some⟩, rfl, ?_⟩, fun _ => Iff.rfl, List.Pairwise.nil⟩
  exact fun addr found => absurd rfl found

end Runs

section Invariant

structure WellLinked (s : TimerRun) : Prop where
  walk : ∃ path, Walk Timer.id s.lst.memory.cells s.lst.head path ∧ (path.map Timer.id).Nodup ∧
    (∀ addr, addr ∈ s.live ↔ addr ∈ path.map Timer.id) ∧ Sorted path ∧
    (s.lst.head ≠ none → s.lst.tail = last Timer.id none path)
  headPrev : ∀ head, s.lst.head = some head → ∃ node, s.lst.memory.cells head = some node ∧ node.prev = none
  tailNext : s.lst.head ≠ none →
    ∃ tail node, s.lst.tail = some tail ∧ s.lst.memory.cells tail = some node ∧ node.next = none
  nextPrev : ∀ timer ∈ s.live, ∀ node next, s.lst.memory.cells timer = some node → node.next = some next →
    ∃ other, s.lst.memory.cells next = some other ∧ other.prev = some timer
  prevNext : ∀ timer ∈ s.live, ∀ node prev, s.lst.memory.cells timer = some node → node.prev = some prev →
    ∃ other, s.lst.memory.cells prev = some other ∧ other.next = some timer

theorem tracks_well_linked (s : TimerRun) (timers : TimerList) (tracks : Tracks s timers) : WellLinked s := by
  obtain ⟨rep, live, sorted⟩ := tracks
  have occupied : s.lst.head ≠ none → timers ≠ [] := by
    rintro head rfl
    exact head rep.head
  refine ⟨?_, ?_, ?_, ?_, ?_⟩
  · have walk := linked_walk Timer.id s.lst.memory.cells none timers rep.linked
    rw [← rep.head] at walk
    exact ⟨timers, walk, rep.ids, live, sorted, fun head => rep.tail (occupied head)⟩
  · intro head points
    cases timers with
    | nil => cases points.symm.trans rep.head
    | cons timer rest =>
        cases points.symm.trans rep.head
        exact ⟨_, rep.linked.1, rfl⟩
  · intro head
    obtain ⟨front, timer, rfl⟩ := List.eq_nil_or_concat' timers |>.resolve_left (occupied head)
    have tail := rep.tail (occupied head)
    rw [last_snoc] at tail
    exact ⟨timer.id, _, tail, ((linked_append Timer.id _ none none front [timer]).mp rep.linked).2.1, rfl⟩
  · intro addr member node next here points
    obtain ⟨timer, inside, rfl⟩ := List.mem_map.mp ((live addr).mp member)
    exact linked_next_prev Timer.id _ timers rep.linked timer inside node here next points
  · intro addr member node prev here points
    obtain ⟨timer, inside, rfl⟩ := List.mem_map.mp ((live addr).mp member)
    exact linked_prev_next Timer.id _ timers rep.linked timer inside node here prev points

theorem timers_tracked (s : TimerRun) (label : TimerLabel) (tracked : ∃ timers, Tracks s timers) (offered : s.offers label) :
    ∃ t, s.effect label = .ok t ∧ ∃ timers, Tracks t timers := by
  obtain ⟨timers, tracks⟩ := tracked
  obtain ⟨t, effect, kept⟩ := timer_step s timers label tracks offered
  exact ⟨t, effect, _, kept⟩

theorem timers_tracked_kept (s : TimerRun) (label : TimerLabel) (t : TimerRun) (tracked : ∃ timers, Tracks s timers)
    (taken : Takes timerMachine s label t) : ∃ timers, Tracks t timers := by
  obtain ⟨u, effect, kept⟩ := timers_tracked s label tracked taken.1
  cases Except.ok.inj (effect.symm.trans taken.2)
  exact kept

theorem timer_list_invariant (labels : List TimerLabel) :
    Always timerMachine WellLinked .start labels ∧
    Along timerMachine (fun s label => ∃ t, s.effect label = .ok t) .start labels := by
  have start : ∃ timers, Tracks .start timers := ⟨[], start_tracks⟩
  constructor
  · have always := always_invariant timerMachine _ timers_tracked_kept .start labels start
    exact always_mono timerMachine _ _ (fun s ⟨timers, tracks⟩ => tracks_well_linked s timers tracks) .start labels always
  · refine along_of_invariant timerMachine _ _ timers_tracked_kept ?_ .start labels start
    intro s label tracked offered
    obtain ⟨t, effect, _⟩ := timers_tracked s label tracked offered
    exact ⟨t, effect⟩

end Invariant

end WzyServer.Server
