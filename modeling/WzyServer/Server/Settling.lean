import WzyServer.Server.Covered

set_option autoImplicit false

namespace WzyServer.Server

open Run Threads

def Move.quiet : Move → Bool
  | .main (.wait _) => false
  | .accept _ _ => false
  | _ => true

def Phase.left : Phase → Nat
  | .idle => 0
  | .taken _ => 4
  | .parsed _ _ => 3
  | .removed _ => 2
  | .marked _ => 1

-- An event may lead to a job, a tick or both.
def Pooled.left (s : Pooled) : Nat :=
  7 * s.server.pending.length + (if s.server.timeout then 1 else 0) + 5 * s.server.jobs.length + total Phase.left s.workers

def Pooled.Still (maxRequests : Nat) (s : Pooled) : Prop := ∀ move, move.quiet = true → ¬ s.offers maxRequests move

structure Settled (s : Pooled) : Prop where
  pending : s.server.pending = []
  timeout : s.server.timeout = false
  jobs : s.server.jobs = []
  idle : ∀ phase ∈ s.workers, phase = .idle
  armed : ∀ fd ∈ s.server.opened, s.server.interest fd ≠ none

section Measure

theorem proceed_left (s : State) (phase : Phase) (conn : Conn) (known : phase.conn = some conn) :
    (s.proceed phase).2.left < phase.left := by
  cases phase with
  | idle => cases known
  | taken slot => cases known
  | parsed conn outcome =>
      cases outcome with
      | moreInput => exact Nat.succ_pos 2
      | response => exact Nat.succ_pos 2
      | closed =>
          unfold State.proceed
          dsimp only
          split
          · exact Nat.one_lt_succ_succ 1
          · exact Nat.lt_succ_self 2
  | removed conn => exact Nat.lt_succ_self 1
  | marked conn => exact Nat.succ_pos 0

theorem proceed_loop (s : State) (phase : Phase) :
    (s.proceed phase).1.pending = s.pending ∧ (s.proceed phase).1.timeout = s.timeout ∧ (s.proceed phase).1.jobs = s.jobs := by
  have modfd : ∀ fd interest, (s.modfd fd interest).pending = s.pending ∧ (s.modfd fd interest).timeout = s.timeout ∧
      (s.modfd fd interest).jobs = s.jobs := by
    intro fd interest
    unfold State.modfd
    split
    · exact ⟨rfl, rfl, rfl⟩
    · split <;> exact ⟨rfl, rfl, rfl⟩
  cases phase with
  | idle => exact ⟨rfl, rfl, rfl⟩
  | taken slot => exact ⟨rfl, rfl, rfl⟩
  | parsed conn outcome =>
      cases outcome with
      | moreInput => exact modfd _ _
      | response => exact modfd _ _
      | closed =>
          unfold State.proceed
          dsimp only
          split <;> exact ⟨rfl, rfl, rfl⟩
  | removed conn => exact ⟨rfl, rfl, rfl⟩
  | marked conn => exact modfd _ _

theorem handled_jobs (s t : State) (answers : Answers) (event : Event) (handled : Handled s t answers event) :
    t.jobs.length ≤ s.jobs.length + 1 := by
  cases handled with
  | quiet event same jobs silent => rw [jobs]; exact Nat.le_succ _
  | dropped ready closed jobs => rw [jobs]; exact Nat.le_succ _
  | queued ready same jobs => rw [jobs, List.length_append, List.length_singleton]
  | refused ready appends full same jobs => rw [jobs]; exact Nat.le_succ _
  | armed ready interest jobs same => rw [jobs]; exact Nat.le_succ _

theorem pooled_left (maxRequests : Nat) (s t : Pooled) (move : Move) (wf : WellFormed s.server) (quiet : move.quiet = true)
    (taken : Takes (pooledMachine maxRequests) s move t) : t.left < s.left := by
  have moved := moved_of_takes maxRequests s t move taken
  obtain ⟨offered, _⟩ := taken
  cases moved with
  | main label server effect =>
      cases main_step maxRequests s wf label server offered effect with
      | wait batch _ _ _ _ _ _ _ => cases quiet
      | handle answers event rest pending after room handled =>
          have jobs := handled_jobs s.server server answers event handled
          simp only [Pooled.left, pending, after, List.length_cons]
          split <;> split <;> omega
      | tick cur sockets jobs pending =>
          have due : s.server.timeout = true := offered
          have cleared : server.timeout = false := by
            cases effect
            rfl
          simp only [Pooled.left, pending, jobs, due, cleared, if_true, Bool.false_eq_true, if_false]
          omega
  | busy connfd cur => cases quiet
  | accept connfd cur room => cases quiet
  | take worker slot rest idle jobs =>
      have turned := total_set Phase.left s.workers worker .idle (.taken slot) idle
      simp only [Pooled.left, jobs, List.length_cons, Phase.left] at turned ⊢
      omega
  | parse worker slot outcome here =>
      have turned := total_set Phase.left s.workers worker _ (.parsed (s.server.occupant slot) outcome) here
      simp only [Pooled.left, Phase.left] at turned ⊢
      omega
  | proceed worker phase conn here known =>
      have turned := total_set Phase.left s.workers worker _ (s.server.proceed phase).2 here
      have less := proceed_left s.server phase conn known
      obtain ⟨pending, timeout, jobs⟩ := proceed_loop s.server phase
      simp only [Pooled.left, pending, timeout, jobs]
      omega

end Measure

section Rest

theorem moved_workers (maxRequests : Nat) (s t : Pooled) (move : Move) (taken : Takes (pooledMachine maxRequests) s move t) :
    t.workers.length = s.workers.length := by
  cases moved_of_takes maxRequests s t move taken with
  | main label server effect => rfl
  | busy connfd cur => rfl
  | accept connfd cur room => rfl
  | take worker slot rest idle jobs => exact List.length_set
  | parse worker slot outcome here => exact List.length_set
  | proceed worker phase conn here known => exact List.length_set

-- Where a job is left and every worker is at the end of its request, one of them takes it.
theorem still_settled (maxRequests : Nat) (s : Pooled) (covered : Covered s) (some_worker : 0 < s.workers.length)
    (still : s.Still maxRequests) : Settled s := by
  have timeout : s.server.timeout = false := by
    by_contra due
    exact still (.main (.tick 0)) rfl (Bool.eq_true_of_not_eq_false due)
  have pending : s.server.pending = [] := by
    by_contra more
    let answers : Answers := ⟨[], [], true, !decide (maxRequests < s.server.jobs.length), none, 0⟩
    refine still (.main (.handle answers)) rfl ⟨⟨more, timeout, ?_, ?_⟩, rfl, rfl⟩
    · exact List.nodup_nil
    · exact fun fd member => absurd member List.not_mem_nil
  have idle : ∀ phase ∈ s.workers, phase = .idle := by
    intro phase member
    obtain ⟨worker, here⟩ := List.getElem?_of_mem member
    cases phase with
    | idle => rfl
    | taken slot => exact absurd (by rw [Pooled.offers, here]; rfl) (still (.parse worker .response) rfl)
    | parsed conn outcome => exact absurd (by rw [Pooled.offers, here]; rfl) (still (.proceed worker) rfl)
    | removed conn => exact absurd (by rw [Pooled.offers, here]; rfl) (still (.proceed worker) rfl)
    | marked conn => exact absurd (by rw [Pooled.offers, here]; rfl) (still (.proceed worker) rfl)
  have jobs : s.server.jobs = [] := by
    by_contra more
    have first : s.workers[0]? = some .idle := by
      rw [List.getElem?_eq_getElem some_worker, idle _ (List.getElem_mem some_worker)]
    exact still (.take 0) rfl ⟨first, more⟩
  refine ⟨pending, timeout, jobs, idle, fun fd isOpen => ?_⟩
  rcases covered fd isOpen with armed | atHand | queued | running
  · exact armed
  · rw [pending] at atHand
    cases atHand
  · rw [jobs] at queued
    cases queued
  · obtain ⟨phase, member, slot⟩ := List.mem_flatMap.mp running
    rw [idle phase member] at slot
    cases slot

def Settles (maxRequests : Nat) (s : Pooled) : Prop := ∀ moves t, (∀ move ∈ moves, move.quiet = true) →
  Along (pooledMachine maxRequests) (Admits maxRequests) s moves → replay (pooledMachine maxRequests) s moves = some t →
    moves.length ≤ s.left ∧ (t.Still maxRequests → Settled t)

theorem server_settles (maxRequests workers : Nat) (moves : List Move) (some_worker : 0 < workers)
    (admits : Along (pooledMachine maxRequests) (Admits maxRequests) (.start workers) moves) :
    Always (pooledMachine maxRequests) (Settles maxRequests) (.start workers) moves := by
  have kept : ∀ s move t, Attended s ∧ s.workers.length = workers → Admits maxRequests s move →
      Takes (pooledMachine maxRequests) s move t → Attended t ∧ t.workers.length = workers :=
    fun s move t both here taken => ⟨attended_moved maxRequests s t move both.1 here taken,
      (moved_workers maxRequests s t move taken).trans both.2⟩
  refine always_mono _ (fun s => Attended s ∧ s.workers.length = workers) _ (fun s both more t quiet along run => ?_) _ moves
    (always_of_along _ _ _ kept _ moves ⟨start_attended workers, List.length_replicate⟩ admits)
  refine ⟨?_, fun still => ?_⟩
  · have bound := replay_measured (pooledMachine maxRequests) (fun move => move.quiet = true) (fun s => WellFormed s.server) Pooled.left
      (fun s move t wf taken => well_formed_moved maxRequests s t move wf taken)
      (fun s move t wf isQuiet taken => pooled_left maxRequests s t move wf isQuiet taken) s t more both.1.wf quiet run
    omega
  · obtain ⟨attended, length⟩ := always_replay _ _ s t more run (always_of_along _ _ _ kept s more both along)
    exact still_settled maxRequests t (tended_cover t attended.tended) (length ▸ some_worker) still

end Rest

theorem server_settles_requested : Always (pooledMachine 10000) (Settles 10000) (.start 8) requested := by
  apply server_settles 10000 8 requested (by decide)
  refine along_cons _ _ _ _ _ _ (fun _ => trivial) rfl ?_
  refine along_cons _ _ _ _ _ _ (fun _ conn member => ?_) rfl ?_
  · exact absurd member (by simp [Pooled.start])
  refine along_cons _ _ _ _ _ _ (fun _ ready rest pending => ?_) rfl ?_
  · cases pending
  refine along_cons _ _ _ _ _ _ (fun _ => trivial) rfl ?_
  refine along_cons _ _ _ _ _ _ (fun _ ready rest pending appends => ?_) rfl ?_
  · exact Nat.zero_le _
  exact along_cons _ _ _ _ _ _ (fun _ => trivial) rfl trivial

end WzyServer.Server
