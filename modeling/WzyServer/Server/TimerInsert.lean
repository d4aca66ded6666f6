import WzyServer.Server.TimerHeap

set_option autoImplicit false

namespace WzyServer.Server

open Heap LinkedList

section Shape

-- The list in memory is the list of its timers from head to tail. The tail of an
-- empty list may be anything.
structure Shape (lst : SortTimerLst) (timers : TimerList) : Prop where
  linked : Linked Timer.id lst.memory.cells none timers none
  ids : (timers.map Timer.id).Nodup
  head : lst.head = first Timer.id timers none
  tail : timers ≠ [] → lst.tail = last Timer.id none timers

structure Represents (lst : SortTimerLst) (timers : TimerList) : Prop extends Shape lst timers where
  allocated : lst.memory.allocated = timers.length
  only : ∀ addr, lst.memory.cells addr ≠ none → addr ∈ timers.map Timer.id

structure Loose (lst : SortTimerLst) (timers : TimerList) (timer : Timer) : Prop extends Shape lst timers where
  here : ∃ prev next, lst.memory.cells timer.id = some ⟨timer, prev, next⟩
  apart : timer.id ∉ timers.map Timer.id
  allocated : lst.memory.allocated = timers.length + 1
  only : ∀ addr, lst.memory.cells addr ≠ none → addr = timer.id ∨ addr ∈ timers.map Timer.id

theorem shape_present (lst : SortTimerLst) (timers : TimerList) (shape : Shape lst timers) (timer : Timer)
    (member : timer ∈ timers) : lst.memory.cells timer.id ≠ none := by
  obtain ⟨prev, next, found⟩ := linked_read Timer.id _ _ _ timers timer shape.linked member
  rw [found]
  exact Option.some_ne_none _

theorem set_next_ok (lst : SortTimerLst) (timer : Addr) (next : Option Addr) (here : lst.memory.cells timer ≠ none) :
    lst.setNext timer next =
      .ok { lst with memory := lst.memory.turn timer fun node => { node with next := next } } := by
  rw [SortTimerLst.setNext, Memory.write_here _ _ _ here]
  rfl

theorem set_prev_ok (lst : SortTimerLst) (timer : Addr) (prev : Option Addr) (here : lst.memory.cells timer ≠ none) :
    lst.setPrev timer prev =
      .ok { lst with memory := lst.memory.turn timer fun node => { node with prev := prev } } := by
  rw [SortTimerLst.setPrev, Memory.write_here _ _ _ here]
  rfl

theorem represents_insert (lst now : SortTimerLst) (front rear : TimerList) (timer : Timer)
    (loose : Loose lst (front ++ rear) timer)
    (frontLinked : Linked Timer.id now.memory.cells none front (some timer.id))
    (here : now.memory.cells timer.id = some ⟨timer, last Timer.id none front, first Timer.id rear none⟩)
    (rearLinked : Linked Timer.id now.memory.cells (some timer.id) rear none)
    (present : ∀ addr, now.memory.cells addr = none ↔ lst.memory.cells addr = none)
    (allocated : now.memory.allocated = lst.memory.allocated)
    (head : now.head = first Timer.id (front ++ timer :: rear) none)
    (tail : now.tail = last Timer.id none (front ++ timer :: rear)) : Represents now (front ++ timer :: rear) := by
  have perm : (front ++ timer :: rear).Perm (timer :: (front ++ rear)) := List.perm_middle
  refine ⟨⟨?_, ?_, head, fun _ => tail⟩, ?_, ?_⟩
  · exact (linked_append Timer.id _ none none front (timer :: rear)).mpr ⟨frontLinked, here, rearLinked⟩
  · rw [(perm.map Timer.id).nodup_iff, List.map_cons, List.nodup_cons]
    exact ⟨loose.apart, loose.ids⟩
  · rw [allocated, loose.allocated, perm.length_eq, List.length_cons]
  · intro addr found
    rw [(perm.map Timer.id).mem_iff, List.map_cons, List.mem_cons]
    exact loose.only addr fun absent => found ((present addr).mpr absent)

theorem ids_apart (front rear : TimerList) (middle : Timer) (ids : ((front ++ middle :: rear).map Timer.id).Nodup) :
    (∀ x ∈ front, x.id ≠ middle.id) ∧ (∀ x ∈ rear, x.id ≠ middle.id) ∧ ∀ x ∈ front, ∀ y ∈ rear, x.id ≠ y.id := by
  rw [List.map_append, List.map_cons, List.nodup_append, List.nodup_cons] at ids
  obtain ⟨_, ⟨middleOut, _⟩, across⟩ := ids
  refine ⟨?_, ?_, ?_⟩
  · intro x member
    exact across _ (List.mem_map_of_mem member) _ (List.mem_cons_self ..)
  · intro x member same
    exact middleOut (same ▸ List.mem_map_of_mem member)
  · intro x memberX y memberY
    exact across _ (List.mem_map_of_mem memberX) _ (List.mem_cons_of_mem _ (List.mem_map_of_mem memberY))

theorem loose_apart (lst : SortTimerLst) (timers : TimerList) (timer : Timer) (loose : Loose lst timers timer) (x : Timer)
    (member : x ∈ timers) : x.id ≠ timer.id :=
  fun same => loose.apart (same ▸ List.mem_map_of_mem member)

theorem represents_between (lst now : SortTimerLst) (front rear : TimerList) (prev timer : Timer)
    (loose : Loose lst (front ++ prev :: rear) timer)
    (turnedPrev : now.memory.cells prev.id = (lst.memory.cells prev.id).map fun node => { node with next := some timer.id })
    (here : now.memory.cells timer.id = some ⟨timer, some prev.id, first Timer.id rear none⟩)
    (turnedNext : ∀ z zs, rear = z :: zs →
      now.memory.cells z.id = (lst.memory.cells z.id).map fun node => { node with prev := some timer.id })
    (same : ∀ x ∈ front ++ rear.tail, now.memory.cells x.id = lst.memory.cells x.id)
    (present : ∀ addr, now.memory.cells addr = none ↔ lst.memory.cells addr = none)
    (allocated : now.memory.allocated = lst.memory.allocated) (head : now.head = lst.head)
    (tail : now.tail = if rear = [] then some timer.id else lst.tail) : Represents now (front ++ prev :: timer :: rear) := by
  have split : front ++ prev :: rear = (front ++ [prev]) ++ rear := by simp
  have whole : front ++ prev :: timer :: rear = (front ++ [prev]) ++ timer :: rear := by simp
  have linked := loose.linked
  rw [split] at loose linked
  obtain ⟨frontLinked, rearLinked⟩ := (linked_append Timer.id _ none none (front ++ [prev]) rear).mp linked
  rw [whole]
  refine represents_insert lst now (front ++ [prev]) rear timer loose ?_ ?_ ?_ present allocated ?_ ?_
  · apply linked_turn_next Timer.id lst.memory.cells now.memory.cells none _ _ front prev frontLinked turnedPrev
    exact fun x member => same x (List.mem_append_left _ member)
  · rw [last_snoc]
    exact here
  · cases rear with
    | nil => trivial
    | cons z zs =>
        apply linked_turn_prev Timer.id lst.memory.cells now.memory.cells _ none _ z zs rearLinked (turnedNext z zs rfl)
        exact fun x member => same x (List.mem_append_right _ member)
  · rw [head, loose.head, first_append, first_append, first_append]
    cases front <;> rfl
  · rw [tail]
    cases rear with
    | nil => rw [if_pos rfl, last_snoc]
    | cons z zs =>
        rw [if_neg (by simp), loose.tail (by simp), last_append Timer.id none (front ++ [prev]) (z :: zs),
          last_append Timer.id none (front ++ [prev]) (timer :: z :: zs)]
        rfl

theorem add_from_end (rounds : Nat) (lst : SortTimerLst) (front : TimerList) (prev timer : Timer)
    (loose : Loose lst (front ++ [prev]) timer) :
    ∃ now, SortTimerLst.addTimerFrom rounds lst timer.id prev.id none = .ok now ∧ Represents now (front ++ [prev, timer]) := by
  have unfolded : SortTimerLst.addTimerFrom rounds lst timer.id prev.id none = (do
      let lst ← lst.setNext prev.id (some timer.id)
      let lst ← lst.setPrev timer.id (some prev.id)
      let lst ← lst.setNext timer.id none
      return { lst with tail := some timer.id }) := by
    cases rounds <;> rfl
  obtain ⟨p, n, here⟩ := loose.here
  have prevHere := shape_present lst _ loose.toShape prev (by simp)
  have timerHere : lst.memory.cells timer.id ≠ none := by
    rw [here]
    exact Option.some_ne_none _
  have prevApart := loose_apart lst _ timer loose prev (by simp)
  rw [unfolded, set_next_ok lst prev.id _ prevHere]
  dsimp only [bind, Except.bind]
  rw [set_prev_ok _ timer.id _ (by simpa using timerHere)]
  dsimp only
  rw [set_next_ok _ timer.id _ (by simpa using timerHere)]
  refine ⟨_, rfl, ?_⟩
  apply represents_between lst _ front [] prev timer loose
  · simp [Memory.turn, prevApart]
  · simp [Memory.turn, Ne.symm prevApart, here]
  · intro z zs nothing
    cases nothing
  · intro x member
    have inFront : x ∈ front := by simpa using member
    have xTimer := loose_apart lst _ timer loose x (by simp [inFront])
    have xPrev := (ids_apart front [] prev loose.ids).1 x inFront
    simp [Memory.turn, xTimer, xPrev]
  · intro addr
    simp
  · rfl
  · rfl
  · rfl

theorem add_from_before (rounds : Nat) (lst : SortTimerLst) (front zs : TimerList) (prev timer z : Timer)
    (loose : Loose lst (front ++ prev :: z :: zs) timer) (earlier : timer.expire < z.expire) :
    ∃ now, SortTimerLst.addTimerFrom (rounds + 1) lst timer.id prev.id (some z.id) = .ok now ∧
      Represents now (front ++ prev :: timer :: z :: zs) := by
  obtain ⟨p, n, here⟩ := loose.here
  obtain ⟨zp, zn, zCell⟩ := linked_read Timer.id _ _ _ _ z loose.linked (by simp)
  have prevHere := shape_present lst _ loose.toShape prev (by simp)
  have zHere := shape_present lst _ loose.toShape z (by simp)
  have timerHere : lst.memory.cells timer.id ≠ none := by
    rw [here]
    exact Option.some_ne_none _
  have prevApart := loose_apart lst _ timer loose prev (by simp)
  have zApart := loose_apart lst _ timer loose z (by simp)
  obtain ⟨frontPrev, rearPrev, across⟩ := ids_apart front (z :: zs) prev loose.ids
  have zPrev := rearPrev z (List.mem_cons_self ..)
  rw [SortTimerLst.addTimerFrom, Memory.read_here _ _ _ here, Memory.read_here _ _ _ zCell]
  dsimp only [bind, Except.bind]
  rw [if_pos earlier, set_next_ok lst prev.id _ prevHere]
  dsimp only
  rw [set_next_ok _ timer.id _ (by simpa using timerHere)]
  dsimp only
  rw [set_prev_ok _ timer.id _ (by simpa using timerHere)]
  dsimp only
  rw [set_prev_ok _ z.id _ (by simpa using zHere)]
  refine ⟨_, rfl, ?_⟩
  apply represents_between lst _ front (z :: zs) prev timer loose
  · simp [Memory.turn, prevApart, Ne.symm zPrev]
  · simp [Memory.turn, Ne.symm prevApart, Ne.symm zApart, here]
  · intro y ys same
    cases same
    simp [Memory.turn, zApart, zPrev]
  · intro x member
    have inside : x ∈ front ++ prev :: z :: zs := by
      rcases List.mem_append.mp member with inFront | inRear
      · simp [inFront]
      · simp [show x ∈ zs from inRear]
    have xTimer := loose_apart lst _ timer loose x inside
    have xPrev : x.id ≠ prev.id := by
      rcases List.mem_append.mp member with inFront | inRear
      · exact frontPrev x inFront
      · exact rearPrev x (List.mem_cons_of_mem z inRear)
    have xNext : x.id ≠ z.id := by
      rcases List.mem_append.mp member with inFront | inRear
      · exact across x inFront z (List.mem_cons_self ..)
      · have ids := loose.ids
        rw [show front ++ prev :: z :: zs = (front ++ [prev]) ++ z :: zs by simp] at ids
        exact (ids_apart (front ++ [prev]) zs z ids).2.1 x inRear
    simp [Memory.turn, xTimer, xPrev, xNext]
  · intro addr
    simp
  · rfl
  · rfl
  · rfl

theorem add_from_represents (rounds : Nat) (lst : SortTimerLst) (front rear : TimerList) (prev timer : Timer)
    (loose : Loose lst (front ++ prev :: rear) timer) (enough : rear.length ≤ rounds) :
    ∃ now, SortTimerLst.addTimerFrom rounds lst timer.id prev.id (first Timer.id rear none) = .ok now ∧
      Represents now (front ++ prev :: addTimer timer rear) := by
  induction rear generalizing front prev rounds with
  | nil => exact add_from_end rounds lst front prev timer loose
  | cons z zs ih =>
      obtain ⟨rounds, rfl⟩ : ∃ less, rounds = less + 1 := ⟨rounds - 1, by simp only [List.length_cons] at enough; omega⟩
      by_cases earlier : timer.expire < z.expire
      · rw [addTimer, if_pos earlier]
        exact add_from_before rounds lst front zs prev timer z loose earlier
      · have split : front ++ prev :: z :: zs = (front ++ [prev]) ++ z :: zs := by simp
        obtain ⟨p, n, here⟩ := loose.here
        have linked := loose.linked
        rw [split] at loose linked
        have zCell := ((linked_append Timer.id _ none none (front ++ [prev]) (z :: zs)).mp linked).2.1
        obtain ⟨now, added, represents⟩ := ih rounds (front ++ [prev]) z loose (Nat.le_of_succ_le_succ enough)
        refine ⟨now, ?_, ?_⟩
        · rw [first_cons, SortTimerLst.addTimerFrom, Memory.read_here _ _ _ here, Memory.read_here _ _ _ zCell]
          dsimp only [bind, Except.bind]
          rw [if_neg earlier]
          exact added
        · rw [addTimer, if_neg earlier]
          simpa using represents

theorem add_after_represents (lst : SortTimerLst) (front rear : TimerList) (prev timer : Timer)
    (loose : Loose lst (front ++ prev :: rear) timer) :
    ∃ now, lst.addTimerAfter timer.id (some prev.id) = .ok now ∧ Represents now (front ++ prev :: addTimer timer rear) := by
  have prevCell := ((linked_append Timer.id _ none none front (prev :: rear)).mp loose.linked).2.1
  have enough : rear.length ≤ lst.memory.allocated := by
    rw [loose.allocated, List.length_append, List.length_cons]
    omega
  obtain ⟨now, added, represents⟩ := add_from_represents lst.memory.allocated lst front rear prev timer loose enough
  refine ⟨now, ?_, represents⟩
  rw [SortTimerLst.addTimerAfter, deref]
  dsimp only [bind, Except.bind]
  rw [Memory.read_here _ _ _ prevCell]
  exact added

theorem create_loose (lst : SortTimerLst) (timers : TimerList) (timer : Timer) (rep : Represents lst timers)
    (fresh : lst.memory.cells timer.id = none) : Loose (lst.create timer) timers timer := by
  have apart : ∀ x ∈ timers, x.id ≠ timer.id := by
    intro x member same
    exact shape_present lst timers rep.toShape x member (same ▸ fresh)
  refine ⟨⟨?_, rep.ids, rep.head, rep.tail⟩, ⟨none, none, if_pos rfl⟩, ?_, ?_, ?_⟩
  · apply linked_same Timer.id lst.memory.cells _ none none timers rep.linked
    intro x member
    exact if_neg (apart x member)
  · intro member
    obtain ⟨x, inside, same⟩ := List.mem_map.mp member
    exact apart x inside same
  · exact congrArg (· + 1) rep.allocated
  · intro addr found
    by_cases same : addr = timer.id
    · exact .inl same
    · refine .inr (rep.only addr ?_)
      simpa [SortTimerLst.create, Memory.new, same] using found

theorem add_timer_front (lst : SortTimerLst) (z timer : Timer) (zs : TimerList) (loose : Loose lst (z :: zs) timer)
    (unlinked : lst.memory.cells timer.id = some ⟨timer, none, none⟩) (earlier : timer.expire < z.expire) :
    ∃ now, lst.addTimer timer.id = .ok now ∧ Represents now (timer :: z :: zs) := by
  obtain ⟨zCell, zsLinked⟩ := loose.linked
  have zApart := loose_apart lst _ timer loose z (List.mem_cons_self ..)
  have zHere : lst.memory.cells z.id ≠ none := by
    rw [zCell]
    exact Option.some_ne_none _
  have timerHere : lst.memory.cells timer.id ≠ none := by
    rw [unlinked]
    exact Option.some_ne_none _
  rw [SortTimerLst.addTimer, loose.head, first_cons]
  dsimp only
  rw [Memory.read_here _ _ _ unlinked, Memory.read_here _ _ _ zCell]
  dsimp only [bind, Except.bind]
  rw [if_pos earlier, set_next_ok lst timer.id _ timerHere]
  dsimp only
  rw [set_prev_ok _ z.id _ (by simpa using zHere)]
  refine ⟨_, rfl, ?_⟩
  apply represents_insert lst _ [] (z :: zs) timer loose
  · trivial
  · simp [Memory.turn, Ne.symm zApart, unlinked]
  · apply linked_turn_prev Timer.id lst.memory.cells _ none none _ z zs loose.linked
    · simp [Memory.turn, zApart]
    · intro x member
      have xTimer := loose_apart lst _ timer loose x (List.mem_cons_of_mem z member)
      have xNext := (ids_apart [] zs z loose.ids).2.1 x member
      simp [Memory.turn, xTimer, xNext]
  · intro addr
    simp
  · rfl
  · rfl
  · exact loose.tail (by simp)

theorem add_unlinked_represents (lst : SortTimerLst) (timers : TimerList) (timer : Timer) (loose : Loose lst timers timer)
    (unlinked : lst.memory.cells timer.id = some ⟨timer, none, none⟩) :
    ∃ now, lst.addTimer timer.id = .ok now ∧ Represents now (addTimer timer timers) := by
  cases timers with
  | nil =>
      refine ⟨{ lst with head := some timer.id, tail := some timer.id }, ?_, ?_⟩
      · rw [SortTimerLst.addTimer, loose.head]
        rfl
      · exact represents_insert _ _ [] [] timer loose trivial unlinked trivial (fun _ => Iff.rfl) rfl rfl rfl
  | cons z zs =>
      by_cases earlier : timer.expire < z.expire
      · rw [addTimer, if_pos earlier]
        exact add_timer_front _ z timer zs loose unlinked earlier
      · obtain ⟨now, added, represents⟩ := add_after_represents _ [] zs z timer loose
        refine ⟨now, ?_, ?_⟩
        · rw [SortTimerLst.addTimer, loose.head, first_cons]
          dsimp only
          rw [Memory.read_here _ _ _ unlinked, Memory.read_here _ _ _ loose.linked.1]
          dsimp only [bind, Except.bind]
          rw [if_neg earlier]
          exact added
        · rw [addTimer, if_neg earlier]
          exact represents

theorem add_timer_represents (lst : SortTimerLst) (timers : TimerList) (timer : Timer) (rep : Represents lst timers)
    (fresh : lst.memory.cells timer.id = none) :
    ∃ now, (lst.create timer).addTimer timer.id = .ok now ∧ Represents now (addTimer timer timers) :=
  add_unlinked_represents _ timers timer (create_loose lst timers timer rep fresh) (if_pos rfl)

end Shape

end WzyServer.Server
