import WzyServer.Server.TimerInsert

set_option autoImplicit false

namespace WzyServer.Server

open Heap LinkedList

section Removal

theorem loose_unlink (lst now : SortTimerLst) (front rear : TimerList) (timer : Timer) (rep : Represents lst (front ++ timer :: rear))
    (frontLinked : Linked Timer.id now.memory.cells none front (first Timer.id rear none))
    (rearLinked : Linked Timer.id now.memory.cells (last Timer.id none front) rear none)
    (same : now.memory.cells timer.id = lst.memory.cells timer.id)
    (present : ∀ addr, now.memory.cells addr = none ↔ lst.memory.cells addr = none)
    (allocated : now.memory.allocated = lst.memory.allocated) (head : now.head = first Timer.id (front ++ rear) none)
    (tail : front ++ rear ≠ [] → now.tail = last Timer.id none (front ++ rear)) : Loose now (front ++ rear) timer := by
  have perm : (front ++ timer :: rear).Perm (timer :: (front ++ rear)) := List.perm_middle
  have ids := rep.ids
  rw [(perm.map Timer.id).nodup_iff, List.map_cons, List.nodup_cons] at ids
  refine ⟨⟨?_, ids.2, head, tail⟩, ?_, ids.1, ?_, ?_⟩
  · exact (linked_append Timer.id _ none none front rear).mpr ⟨frontLinked, rearLinked⟩
  · rw [same]
    exact linked_read Timer.id _ none none _ timer rep.linked (by simp)
  · rw [allocated, rep.allocated, perm.length_eq, List.length_cons]
  · intro addr found
    have inside := rep.only addr fun absent => found ((present addr).mpr absent)
    rwa [(perm.map Timer.id).mem_iff, List.map_cons, List.mem_cons] at inside

theorem free_represents (lst : SortTimerLst) (timers : TimerList) (timer : Timer) (loose : Loose lst timers timer) :
    ∃ now, lst.free timer.id = .ok now ∧ Represents now timers := by
  obtain ⟨p, n, here⟩ := loose.here
  have timerHere : lst.memory.cells timer.id ≠ none := by
    rw [here]
    exact Option.some_ne_none _
  rw [SortTimerLst.free, Memory.delete_here _ _ timerHere]
  refine ⟨_, rfl, ⟨?_, loose.ids, loose.head, loose.tail⟩, ?_, ?_⟩
  · apply linked_same Timer.id lst.memory.cells _ none none timers loose.linked
    intro x member
    exact if_neg (loose_apart lst timers timer loose x member)
  · change lst.memory.allocated - 1 = timers.length
    rw [loose.allocated, Nat.add_sub_cancel]
  · intro addr found
    by_cases same : addr = timer.id
    · exact absurd (if_pos same) found
    · exact (loose.only addr (by simpa [same] using found)).resolve_left same

theorem unlink_head (lst : SortTimerLst) (timer z : Timer) (zs : TimerList) (rep : Represents lst (timer :: z :: zs)) :
    Loose { lst with memory := lst.memory.turn z.id fun node => { node with prev := none }, head := some z.id }
      (z :: zs) timer := by
  obtain ⟨_, linked⟩ := rep.linked
  have apart := (ids_apart [] (z :: zs) timer rep.ids).2.1
  have zsApart := (ids_apart [timer] zs z rep.ids).2.1
  refine loose_unlink lst _ [] (z :: zs) timer rep trivial ?_ ?_ ?_ rfl rfl ?_
  · apply linked_turn_prev Timer.id lst.memory.cells _ _ none _ z zs linked (Memory.turn_here ..)
    exact fun x member => Memory.turn_elsewhere _ _ _ _ (zsApart x member)
  · exact Memory.turn_elsewhere _ _ _ _ (Ne.symm (apart z (List.mem_cons_self ..)))
  · exact fun addr => Memory.turn_none_iff _ _ _ _
  · exact fun _ => rep.tail (by simp)

theorem unlink_tail (lst : SortTimerLst) (front : TimerList) (p timer : Timer) (rep : Represents lst (front ++ [p, timer])) :
    Loose { lst with memory := lst.memory.turn p.id fun node => { node with next := none }, tail := some p.id }
      (front ++ [p]) timer := by
  have whole : front ++ [p, timer] = (front ++ [p]) ++ [timer] := by simp
  rw [whole] at rep
  obtain ⟨linked, _⟩ := (linked_append Timer.id _ none none (front ++ [p]) [timer]).mp rep.linked
  have apart := (ids_apart (front ++ [p]) [] timer rep.ids).1
  have frontApart := (ids_apart front [timer] p (by simpa using rep.ids)).1
  have loose := loose_unlink lst
    { lst with memory := lst.memory.turn p.id fun node => { node with next := none }, tail := some p.id }
    (front ++ [p]) [] timer rep ?_ trivial ?_ ?_ rfl ?_ ?_
  · rwa [List.append_nil] at loose
  · apply linked_turn_next Timer.id lst.memory.cells _ none _ _ front p linked (Memory.turn_here ..)
    exact fun x member => Memory.turn_elsewhere _ _ _ _ (frontApart x member)
  · exact Memory.turn_elsewhere _ _ _ _ (Ne.symm (apart p (by simp)))
  · exact fun addr => Memory.turn_none_iff _ _ _ _
  · rw [List.append_nil]
    change lst.head = _
    rw [rep.head, first_append, first_append, first_append]
    cases front <;> rfl
  · intro _
    rw [List.append_nil, last_snoc]

theorem unlink_inner (lst : SortTimerLst) (front zs : TimerList) (p timer z : Timer)
    (rep : Represents lst (front ++ p :: timer :: z :: zs)) :
    Loose { lst with
      memory := (lst.memory.turn p.id fun node => { node with next := some z.id }).turn z.id fun node =>
        { node with prev := some p.id } } (front ++ p :: z :: zs) timer := by
  have whole : front ++ p :: timer :: z :: zs = (front ++ [p]) ++ timer :: z :: zs := by simp
  have without : front ++ p :: z :: zs = (front ++ [p]) ++ z :: zs := by simp
  rw [whole] at rep
  rw [without]
  obtain ⟨frontLinked, _, rearLinked⟩ := (linked_append Timer.id _ none none (front ++ [p]) (timer :: z :: zs)).mp rep.linked
  obtain ⟨frontTimer, rearTimer, across⟩ := ids_apart (front ++ [p]) (z :: zs) timer rep.ids
  have frontApart := (ids_apart front (timer :: z :: zs) p (by simpa using rep.ids)).1
  have rearApart := (ids_apart (front ++ [p, timer]) zs z (by simpa using rep.ids)).2.1
  have inP : p ∈ front ++ [p] := by simp
  have inZ : z ∈ z :: zs := List.mem_cons_self ..
  refine loose_unlink lst _ (front ++ [p]) (z :: zs) timer rep ?_ ?_ ?_ ?_ rfl ?_ ?_
  · apply linked_turn_next Timer.id lst.memory.cells _ none _ _ front p frontLinked
    · simp [Memory.turn, across p inP z inZ]
    · intro x member
      simp [Memory.turn, frontApart x member, across x (List.mem_append_left _ member) z inZ]
  · rw [last_snoc]
    apply linked_turn_prev Timer.id lst.memory.cells _ _ none _ z zs rearLinked
    · simp [Memory.turn, Ne.symm (across p inP z inZ)]
    · intro x member
      simp [Memory.turn, rearApart x member, Ne.symm (across p inP x (List.mem_cons_of_mem z member))]
  · simp only [Memory.turn, if_neg (Ne.symm (rearTimer z inZ)), if_neg (Ne.symm (frontTimer p inP))]
  · intro addr
    simp
  · change lst.head = _
    rw [rep.head, first_append, first_append, first_append]
    cases front <;> rfl
  · intro _
    change lst.tail = _
    rw [rep.tail (by simp), last_append Timer.id none (front ++ [p]) (z :: zs),
      last_append Timer.id none (front ++ [p]) (timer :: z :: zs)]
    rfl

theorem head_elsewhere (lst : SortTimerLst) (front rear : TimerList) (timer : Timer) (rep : Represents lst (front ++ timer :: rear))
    (nonempty : front ≠ []) : lst.head ≠ some timer.id := by
  obtain ⟨x, member, found⟩ := first_mem Timer.id front (first Timer.id (timer :: rear) none) nonempty
  rw [rep.head, first_append, found]
  intro same
  exact (ids_apart front rear timer rep.ids).1 x member (Option.some.inj same)

theorem tail_elsewhere (lst : SortTimerLst) (front rear : TimerList) (timer : Timer) (rep : Represents lst (front ++ timer :: rear))
    (nonempty : rear ≠ []) : lst.tail ≠ some timer.id := by
  obtain ⟨x, member, found⟩ := last_mem Timer.id (some timer.id) rear nonempty
  rw [rep.tail (by simp), last_append, last, found]
  intro same
  exact (ids_apart front rear timer rep.ids).2.1 x member (Option.some.inj same)

theorem rep_cell (lst : SortTimerLst) (front rear : TimerList) (timer : Timer) (rep : Represents lst (front ++ timer :: rear)) :
    lst.memory.cells timer.id = some ⟨timer, last Timer.id none front, first Timer.id rear none⟩ :=
  ((linked_append Timer.id _ none none front (timer :: rear)).mp rep.linked).2.1

theorem del_timer_only (lst : SortTimerLst) (timer : Timer) (rep : Represents lst [timer]) :
    ∃ now, lst.delTimer timer.id = .ok now ∧ Represents now [] := by
  have cell := rep_cell lst [] [] timer rep
  have here : lst.memory.cells timer.id ≠ none := by
    rw [cell]
    exact Option.some_ne_none _
  have ends : some timer.id = lst.head ∧ some timer.id = lst.tail := ⟨rep.head.symm, (rep.tail (by simp)).symm⟩
  rw [SortTimerLst.delTimer, if_pos ends, SortTimerLst.free, Memory.delete_here _ _ here]
  refine ⟨_, rfl, ⟨trivial, List.nodup_nil, rfl, fun nonempty => absurd rfl nonempty⟩, ?_, ?_⟩
  · change lst.memory.allocated - 1 = 0
    rw [rep.allocated]
    rfl
  · intro addr found
    by_cases same : addr = timer.id
    · exact absurd (if_pos same) found
    · have inside := rep.only addr (by simpa [same] using found)
      exact absurd (by simpa using inside) same

theorem del_timer_represents (lst : SortTimerLst) (front rear : TimerList) (timer : Timer)
    (rep : Represents lst (front ++ timer :: rear)) :
    ∃ now, lst.delTimer timer.id = .ok now ∧ Represents now (front ++ rear) := by
  have cell := rep_cell lst front rear timer rep
  rcases List.eq_nil_or_concat' front with rfl | ⟨front, p, rfl⟩
  · cases rear with
    | nil => exact del_timer_only lst timer rep
    | cons z zs =>
        have notTail := tail_elsewhere lst [] (z :: zs) timer rep (by simp)
        have isHead : lst.head = some timer.id := rep.head
        have zHere := shape_present lst _ rep.toShape z (by simp)
        have loose := unlink_head lst timer z zs rep
        obtain ⟨now, freed, represents⟩ := free_represents _ _ timer loose
        refine ⟨now, ?_, represents⟩
        rw [SortTimerLst.delTimer, if_neg fun both => notTail both.2.symm, if_pos isHead, Memory.read_here _ _ _ cell]
        dsimp only [bind, Except.bind, first, deref]
        rw [set_prev_ok _ z.id _ (by simpa using zHere)]
        exact freed
  · have notHead := head_elsewhere lst (front ++ [p]) rear timer rep (by simp)
    have pHere := shape_present lst _ rep.toShape p (by simp)
    cases rear with
    | nil =>
        rw [List.append_assoc] at rep
        have isTail : lst.tail = some timer.id := by
          rw [rep.tail (by simp), last_append]
          rfl
        obtain ⟨now, freed, represents⟩ := free_represents _ _ timer (unlink_tail lst front p timer rep)
        refine ⟨now, ?_, by rwa [List.append_nil]⟩
        rw [SortTimerLst.delTimer, if_neg fun both => notHead both.1.symm, if_neg notHead, if_pos isTail,
          Memory.read_here _ _ _ cell, last_snoc]
        dsimp only [bind, Except.bind, deref]
        rw [set_next_ok _ p.id _ (by simpa using pHere)]
        exact freed
    | cons z zs =>
        have notTail := tail_elsewhere lst (front ++ [p]) (z :: zs) timer rep (by simp)
        have zHere := shape_present lst _ rep.toShape z (by simp)
        have pApart := (ids_apart (front ++ [p]) (z :: zs) timer rep.ids).1 p (by simp)
        rw [List.append_assoc] at rep
        obtain ⟨now, freed, represents⟩ := free_represents _ _ timer (unlink_inner lst front zs p timer z rep)
        refine ⟨now, ?_, by rw [List.append_assoc]; exact represents⟩
        have still : (lst.memory.turn p.id fun node => { node with next := some z.id }).cells timer.id = some
            ⟨timer, some p.id, some z.id⟩ := by
          rw [Memory.turn_elsewhere _ _ _ _ (Ne.symm pApart), cell, last_snoc]
          rfl
        rw [SortTimerLst.delTimer, if_neg fun both => notHead both.1.symm, if_neg notHead, if_neg notTail,
          Memory.read_here _ _ _ cell, last_snoc]
        dsimp only [bind, Except.bind, deref, first]
        rw [set_next_ok _ p.id _ (by simpa using pHere)]
        dsimp only
        rw [Memory.read_here _ _ _ still]
        dsimp only
        rw [set_prev_ok _ z.id _ (by simpa using zHere)]
        exact freed

theorem loose_turn_own (lst : SortTimerLst) (timers : TimerList) (timer : Timer) (turn : Node Timer → Node Timer)
    (keeps : ∀ node, (turn node).value = node.value) (loose : Loose lst timers timer) :
    Loose { lst with memory := lst.memory.turn timer.id turn } timers timer := by
  obtain ⟨p, n, here⟩ := loose.here
  have value : (turn ⟨timer, p, n⟩).value = timer := keeps _
  refine ⟨⟨?_, loose.ids, loose.head, loose.tail⟩, ⟨(turn ⟨timer, p, n⟩).prev, (turn ⟨timer, p, n⟩).next, ?_⟩, loose.apart,
    loose.allocated, ?_⟩
  · apply linked_same Timer.id lst.memory.cells _ none none timers loose.linked
    exact fun x member => Memory.turn_elsewhere _ _ _ _ (loose_apart lst timers timer loose x member)
  · rw [Memory.turn_here, here, Option.map_some]
    generalize turn ⟨timer, p, n⟩ = node at value
    cases node
    cases value
    rfl
  · exact fun addr found => loose.only addr fun absent => found ((Memory.turn_none_iff _ _ _ _).mpr absent)

theorem adjust_head_represents (lst : SortTimerLst) (timer z : Timer) (zs : TimerList) (rep : Represents lst (timer :: z :: zs)) :
    ∃ now, lst.adjustHead timer.id = .ok now ∧ Represents now (z :: addTimer timer zs) := by
  have cell := rep_cell lst [] (z :: zs) timer rep
  have zHere := shape_present lst _ rep.toShape z (by simp)
  have timerHere := shape_present lst _ rep.toShape timer (by simp)
  have loose := loose_turn_own _ _ timer (fun node => { node with next := none }) (fun _ => rfl) (unlink_head lst timer z zs rep)
  obtain ⟨now, added, represents⟩ := add_after_represents _ [] zs z timer loose
  refine ⟨now, ?_, represents⟩
  rw [SortTimerLst.adjustHead, Memory.read_here _ _ _ cell]
  dsimp only [bind, Except.bind, first, deref]
  rw [set_prev_ok _ z.id _ (by simpa using zHere)]
  dsimp only
  rw [set_next_ok _ timer.id _ (by simpa using timerHere)]
  exact added

theorem adjust_inner_represents (lst : SortTimerLst) (front zs : TimerList) (p timer z : Timer)
    (rep : Represents lst (front ++ p :: timer :: z :: zs)) :
    ∃ now, lst.adjustInner timer.id = .ok now ∧ Represents now (front ++ p :: z :: addTimer timer zs) := by
  have whole : front ++ p :: timer :: z :: zs = (front ++ [p]) ++ timer :: z :: zs := by simp
  have loose := unlink_inner lst front zs p timer z rep
  have pHere := shape_present lst _ rep.toShape p (by simp)
  have zHere := shape_present lst _ rep.toShape z (by simp)
  rw [whole] at rep
  have cell := rep_cell lst (front ++ [p]) (z :: zs) timer rep
  rw [last_snoc] at cell
  have pApart := (ids_apart (front ++ [p]) (z :: zs) timer rep.ids).1 p (by simp)
  have zApart := (ids_apart (front ++ [p]) (z :: zs) timer rep.ids).2.1 z (by simp)
  have still : (lst.memory.turn p.id fun node => { node with next := some z.id }).cells timer.id = some
      ⟨timer, some p.id, some z.id⟩ := by
    rw [Memory.turn_elsewhere _ _ _ _ (Ne.symm pApart), cell]
    rfl
  have again : ((lst.memory.turn p.id fun node => { node with next := some z.id }).turn z.id fun node =>
      { node with prev := some p.id }).cells timer.id = some ⟨timer, some p.id, some z.id⟩ := by
    rw [Memory.turn_elsewhere _ _ _ _ (Ne.symm zApart), still]
  rw [show front ++ p :: z :: zs = (front ++ [p]) ++ z :: zs by simp] at loose
  obtain ⟨now, added, represents⟩ := add_after_represents _ (front ++ [p]) zs z timer loose
  refine ⟨now, ?_, by simpa using represents⟩
  rw [SortTimerLst.adjustInner, Memory.read_here _ _ _ cell]
  dsimp only [bind, Except.bind, first, deref]
  rw [set_next_ok _ p.id _ (by simpa using pHere)]
  dsimp only
  rw [Memory.read_here _ _ _ still]
  dsimp only
  rw [set_prev_ok _ z.id _ (by simpa using zHere)]
  dsimp only
  rw [Memory.read_here _ _ _ again]
  exact added

theorem adjust_timer_represents (lst : SortTimerLst) (front rear : TimerList) (timer : Timer)
    (rep : Represents lst (front ++ timer :: rear)) :
    ∃ now, lst.adjustTimer timer.id = .ok now ∧ Represents now (front ++ addTimer timer rear) := by
  have cell := rep_cell lst front rear timer rep
  rw [SortTimerLst.adjustTimer, Memory.read_here _ _ _ cell]
  dsimp only [bind, Except.bind]
  cases rear with
  | nil => exact ⟨lst, rfl, rep⟩
  | cons z zs =>
      have zCell := ((linked_append Timer.id _ none none front (timer :: z :: zs)).mp rep.linked).2.2.1
      dsimp only [first]
      rw [Memory.read_here _ _ _ zCell]
      dsimp only
      by_cases earlier : timer.expire < z.expire
      · rw [if_pos earlier, addTimer, if_pos earlier]
        exact ⟨lst, rfl, rep⟩
      · rw [if_neg earlier, addTimer, if_neg earlier]
        rcases List.eq_nil_or_concat' front with rfl | ⟨front, p, rfl⟩
        · have isHead : lst.head = some timer.id := rep.head
          rw [if_pos isHead.symm]
          exact adjust_head_represents lst timer z zs rep
        · rw [if_neg fun same => head_elsewhere lst (front ++ [p]) (z :: zs) timer rep (by simp) same.symm]
          rw [List.append_assoc] at rep ⊢
          exact adjust_inner_represents lst front zs p timer z rep

theorem drop_head_represents (lst : SortTimerLst) (timer : Timer) (rest : TimerList) (rep : Represents lst (timer :: rest)) :
    ∃ now, lst.dropHead timer.id (first Timer.id rest none) = .ok now ∧ Represents now rest := by
  cases rest with
  | nil =>
      have loose := loose_unlink lst { lst with head := none } [] [] timer rep trivial trivial rfl (fun _ => Iff.rfl) rfl rfl
        fun nonempty => absurd rfl nonempty
      obtain ⟨now, freed, represents⟩ := free_represents _ _ timer loose
      exact ⟨now, freed, represents⟩
  | cons z zs =>
      have zHere := shape_present lst _ rep.toShape z (by simp)
      obtain ⟨now, freed, represents⟩ := free_represents _ _ timer (unlink_head lst timer z zs rep)
      refine ⟨now, ?_, represents⟩
      rw [SortTimerLst.dropHead]
      dsimp only [bind, Except.bind, first]
      rw [set_prev_ok _ z.id _ (by simpa using zHere)]
      exact freed

theorem tick_from_represents (rounds : Nat) (lst : SortTimerLst) (timers : TimerList) (cur : Int) (rep : Represents lst timers)
    (enough : timers.length ≤ rounds) :
    ∃ now, SortTimerLst.tickFrom rounds lst cur lst.head =
        .ok (now, timers.takeWhile fun timer => decide (timer.expire ≤ cur)) ∧
      Represents now (timers.dropWhile fun timer => decide (timer.expire ≤ cur)) := by
  induction timers generalizing lst rounds with
  | nil =>
      refine ⟨lst, ?_, rep⟩
      rw [rep.head, first]
      cases rounds <;> rfl
  | cons timer rest ih =>
      obtain ⟨rounds, rfl⟩ : ∃ less, rounds = less + 1 := ⟨rounds - 1, by simp only [List.length_cons] at enough; omega⟩
      have cell := rep_cell lst [] rest timer rep
      have isHead : lst.head = some timer.id := rep.head
      rw [isHead, SortTimerLst.tickFrom, Memory.read_here _ _ _ cell]
      dsimp only [bind, Except.bind]
      by_cases early : cur < timer.expire
      · have notDue : decide (timer.expire ≤ cur) = false := decide_eq_false (by omega)
        rw [if_pos early, List.takeWhile_cons, List.dropWhile_cons, notDue]
        exact ⟨lst, rfl, rep⟩
      · have due : decide (timer.expire ≤ cur) = true := decide_eq_true (by omega)
        obtain ⟨next, dropped, represents⟩ := drop_head_represents lst timer rest rep
        obtain ⟨now, ticked, result⟩ := ih rounds next represents (Nat.le_of_succ_le_succ enough)
        rw [if_neg early, List.takeWhile_cons, List.dropWhile_cons, due, dropped]
        refine ⟨now, ?_, result⟩
        dsimp only
        rw [ticked]
        rfl

end Removal

end WzyServer.Server
