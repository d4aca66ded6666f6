import WzyServer.Pool.ThreadPool

set_option autoImplicit false

namespace WzyServer.Pool

open Run

section Limit

variable {α : Type}

def Limited (maxRequests : Nat) (s : ThreadPool α) : Prop := s.workqueue.length ≤ maxRequests

def RefusesFull (maxRequests : Nat) (s : ThreadPool α) (label : PoolLabel α) : Prop :=
  ∀ t request, (poolMachine α).effect s label = .ok t → t.history = s.history ++ [.refused request] →
    s.workqueue.length = maxRequests ∧ t.workqueue = s.workqueue ∧ t.queuestat = s.queuestat

def OffLimit (maxRequests : Nat) (s : ThreadPool α) : PoolLabel α → Prop
  | .append _ _ => s.workqueue.length ≠ maxRequests
  | _ => True

structure WithinLimit (maxRequests : Nat) (s : ThreadPool α) : Prop where
  limit : s.maxRequests = maxRequests
  room : s.workqueue.length ≤ maxRequests

theorem within_limit_step (maxRequests : Nat) (s t : ThreadPool α) (label : PoolLabel α) (inv : WithinLimit maxRequests s)
    (off : OffLimit maxRequests s label) (step : PoolStep s label t) : WithinLimit maxRequests t := by
  have room := inv.room
  cases step with
  | accepted caller request idle below =>
      have less : s.workqueue.length < maxRequests := Nat.lt_of_le_of_ne room off
      refine ⟨inv.limit, ?_⟩
      rw [List.length_append, List.length_singleton]
      exact less
  | took worker request rest now woken front serves =>
      rw [front, List.length_cons] at room
      exact ⟨inv.limit, Nat.le_of_succ_le room⟩
  | _ => exact ⟨inv.limit, inv.room⟩

theorem append_over_limit (s : ThreadPool α) (caller : Nat) (request : Option α) (full : s.workqueue.length = s.maxRequests) :
    (s.appendJob caller request).workqueue = s.workqueue ++ [request] := by
  rw [ThreadPool.appendJob, if_neg (by omega)]

-- The comparison of append_job refuses no job before the queue holds one too many.
theorem within_limit_accepts (maxRequests : Nat) (s t : ThreadPool α) (label : PoolLabel α) (request : Option α)
    (inv : WithinLimit maxRequests s) (step : PoolStep s label t) : t.history ≠ s.history ++ [.refused request] := by
  have unchanged : s.history ≠ s.history ++ [.refused request] := fun same =>
    List.cons_ne_nil _ _ (List.append_right_eq_self.mp same.symm)
  have other : ∀ event : Fifo.Event (Option α), event ≠ .refused request → s.history ++ [event] ≠ s.history ++ [.refused request] :=
    fun event differs same => differs (List.singleton_inj.mp (List.append_cancel_left same))
  cases step with
  | refused caller request full =>
      have limit := inv.limit
      have room := inv.room
      omega
  | accepted caller request idle below => exact other _ fun same => by cases same
  | took worker request rest now woken front serves => exact other _ fun same => by cases same
  | _ => exact unchanged

theorem workqueue_limited_iff (maxRequests callers workers : Nat) (labels : List (PoolLabel α)) :
    Always (poolMachine α) (Limited maxRequests) (.start maxRequests callers workers) labels ∧
        Along (poolMachine α) (RefusesFull maxRequests) (.start maxRequests callers workers) labels ↔
      Along (poolMachine α) (OffLimit maxRequests) (.start maxRequests callers workers) labels := by
  apply watched_iff_along _ _ _ (WithinLimit maxRequests)
  · intro s label t inv off taken
    exact within_limit_step maxRequests s t label inv off (pool_step s t label taken)
  · intro s label inv offered at_limit
    right
    cases label with
    | append caller request =>
        have full : s.workqueue.length = s.maxRequests := (not_not.mp at_limit).trans inv.limit.symm
        refine ⟨s.appendJob caller request, rfl, ?_⟩
        rw [Limited, append_over_limit s caller request full, List.length_append, List.length_singleton, full, inv.limit]
        exact Nat.not_succ_le_self maxRequests
    | _ => exact absurd trivial at_limit
  · exact fun s inv => inv.room
  · intro s label inv offered off t request effect refused
    exact absurd refused (within_limit_accepts maxRequests s t label request inv (pool_step s t label ⟨offered, effect⟩))
  · exact ⟨rfl, Nat.zero_le maxRequests⟩

def twoJobs : List (PoolLabel Nat) := [.append 0 (some 10), .post 0, .append 0 (some 20)]

theorem workqueue_over_limit : ¬ Always (poolMachine Nat) (Limited 1) (.start 1 1 1) twoJobs := by
  intro always
  have reached : ∃ s, replay (poolMachine Nat) (.start 1 1 1) twoJobs = some s ∧
      s.workqueue = [some 10, some 20] := ⟨_, rfl, rfl⟩
  obtain ⟨s, run, queue⟩ := reached
  have limited := always_replay _ _ _ s _ run always
  rw [Limited, queue] at limited
  exact absurd limited (by decide)

end Limit

end WzyServer.Pool
