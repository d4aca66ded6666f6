import WzyServer.Server.TimerRuns

set_option autoImplicit false

namespace WzyServer.Server

open Heap LinkedList Run

section Expiry

theorem take_while_due (timers : TimerList) (cur : Int) (sorted : Sorted timers) :
    timers.takeWhile (fun timer => decide (timer.expire ≤ cur)) = timers.filter fun timer => decide (timer.expire ≤ cur) := by
  induction timers with
  | nil => rfl
  | cons timer rest ih =>
      obtain ⟨least, restSorted⟩ := List.pairwise_cons.mp sorted
      by_cases due : timer.expire ≤ cur
      · rw [List.takeWhile_cons_of_pos (by simpa using due), List.filter_cons_of_pos (by simpa using due), ih restSorted]
      · rw [List.takeWhile_cons_of_neg (by simpa using due), List.filter_cons_of_neg (by simpa using due), eq_comm,
          List.filter_eq_nil_iff]
        intro other member
        have later := least other member
        simp only [decide_eq_true_eq]
        omega

theorem drop_while_due (timers : TimerList) (cur : Int) (sorted : Sorted timers) :
    timers.dropWhile (fun timer => decide (timer.expire ≤ cur)) = timers.filter fun timer => decide (cur < timer.expire) := by
  induction timers with
  | nil => rfl
  | cons timer rest ih =>
      obtain ⟨least, restSorted⟩ := List.pairwise_cons.mp sorted
      by_cases due : timer.expire ≤ cur
      · rw [List.dropWhile_cons_of_pos (by simpa using due), List.filter_cons_of_neg (by simpa using due), ih restSorted]
      · rw [List.dropWhile_cons_of_neg (by simpa using due), eq_comm, List.filter_eq_self]
        intro other member
        have later : cur < other.expire := by
          rcases List.mem_cons.mp member with rfl | inside
          · exact Int.not_le.mp due
          · exact Int.lt_of_lt_of_le (Int.not_le.mp due) (least other inside)
        simpa using later

-- What tick(cur) does to the list that is walked along `path`: `called` are the
-- timers whose cb_func it calls, and `now` is the list it leaves.
structure Expired (s : TimerRun) (cur : Int) (path called : TimerList) (now : SortTimerLst) : Prop where
  walk : Walk Timer.id s.lst.memory.cells s.lst.head path
  once : (path.map Timer.id).Nodup
  whole : ∀ addr, addr ∈ s.live ↔ addr ∈ path.map Timer.id
  ticked : s.lst.tick cur = .ok (now, called)
  due : called = path.filter fun timer => decide (timer.expire ≤ cur)
  left : Walk Timer.id now.memory.cells now.head (path.filter fun timer => decide (cur < timer.expire))
  freed : ∀ timer ∈ called, now.memory.cells timer.id = none
  headPrev : ∀ head, now.head = some head → ∃ node, now.memory.cells head = some node ∧ node.prev = none
  next : ∀ timer : Timer, now.memory.cells timer.id = none →
    ∃ after, (now.create timer).addTimer timer.id = .ok after ∧
      WellLinked ⟨after, insert timer.id (s.live \ (called.map Timer.id).toFinset)⟩

theorem tracked_expired (s : TimerRun) (timers : TimerList) (cur : Int) (tracks : Tracks s timers) :
    ∃ path called now, Expired s cur path called now := by
  obtain ⟨rep, live, sorted⟩ := tracks
  obtain ⟨t, effect, tickTracks⟩ := timer_step s timers (.tick cur) ⟨rep, live, sorted⟩ trivial
  obtain ⟨now, ticked, represents⟩ := tick_from_represents s.lst.memory.allocated s.lst timers cur rep (by rw [rep.allocated])
  have walk := linked_walk Timer.id s.lst.memory.cells none timers rep.linked
  have left := linked_walk Timer.id now.memory.cells none _ represents.linked
  rw [← rep.head] at walk
  rw [← represents.head, drop_while_due timers cur sorted] at left
  have reached : t = ⟨now, s.live \ ((timers.takeWhile fun timer => decide (timer.expire ≤ cur)).map Timer.id).toFinset⟩ := by
    rw [TimerRun.effect, SortTimerLst.tick, ticked] at effect
    exact (Except.ok.inj effect).symm
  subst reached
  refine ⟨timers, _, now, walk, rep.ids, live, ticked, take_while_due timers cur sorted, left, ?_, ?_, ?_⟩
  · intro timer member
    by_contra present
    have kept := represents.only timer.id present
    have whole := List.takeWhile_append_dropWhile (p := fun timer : Timer => decide (timer.expire ≤ cur)) (l := timers)
    have ids := rep.ids
    rw [← whole, List.map_append, List.nodup_append] at ids
    exact ids.2.2 timer.id (List.mem_map_of_mem member) timer.id kept rfl
  · exact (tracks_well_linked _ _ tickTracks).headPrev
  · intro timer fresh
    obtain ⟨u, added, addTracks⟩ := timer_step _ _ (.add timer) tickTracks fresh
    obtain ⟨after, plain, same⟩ : ∃ after, (now.create timer).addTimer timer.id = .ok after ∧ u = ⟨after, _⟩ := by
      rw [TimerRun.effect] at added
      cases plain : (now.create timer).addTimer timer.id with
      | error fault =>
          rw [plain] at added
          cases added
      | ok after =>
          rw [plain] at added
          exact ⟨after, rfl, (Except.ok.inj added).symm⟩
    rw [same] at addTracks
    exact ⟨after, plain, tracks_well_linked _ _ addTracks⟩

theorem tick_expires_due (labels : List TimerLabel) (cur : Int) :
    Always timerMachine (fun s => ∃ path called now, Expired s cur path called now) .start labels := by
  have start : ∃ timers, Tracks .start timers := ⟨[], start_tracks⟩
  have always := always_invariant timerMachine _ timers_tracked_kept .start labels start
  exact always_mono timerMachine _ _ (fun s ⟨timers, tracks⟩ => tracked_expired s timers cur tracks) .start labels always

end Expiry

end WzyServer.Server
