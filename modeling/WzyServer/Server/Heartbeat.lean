import WzyServer.Server.Clock

set_option autoImplicit false

namespace WzyServer.Server

open Run

section Tokens

def Clocked.alarms (s : Clocked) : Nat :=
  (if s.armed then 1 else 0) + s.pipe.count .alarm + if s.server.timeout then 1 else 0

structure Beats (s : Clocked) : Prop where
  once : s.alarms ≤ 1
  alive : s.alarms = 1 ∨ .term ∈ s.pipe ∨ s.server.stopServer = true

def SameFlags (s t : State) : Prop := t.timeout = s.timeout ∧ t.stopServer = s.stopServer

theorem accept_flags (accepted : List (Fd × Int)) (s t : State) (ok : s.acceptClients accepted = .ok t) : SameFlags s t := by
  apply accept_invariant (SameFlags s) _ accepted s t ⟨rfl, rfl⟩ ok
  exact fun u connfd cur same => same

theorem extend_flags (s t : State) (fd : Fd) (cur : Int) (ok : s.extendTimer fd cur = .ok t) : SameFlags s t := by
  rcases extend_timer_ok s t fd cur ok with rfl | ⟨id, rfl⟩ <;> exact ⟨rfl, rfl⟩

theorem modfd_flags (s : State) (fd : Option Fd) (interest : Interest) : SameFlags s (s.modfd fd interest) := by
  unfold State.modfd
  split
  · exact ⟨rfl, rfl⟩
  · split <;> exact ⟨rfl, rfl⟩

theorem client_flags (s t : State) (ready : Ready) (answers : Answers) (ok : s.handleClient ready answers = .ok t) :
    SameFlags s t := by
  by_cases closes : closing ready answers = true
  · rw [handle_client_closing s ready answers closes] at ok
    obtain ⟨link, _, _, rfl⟩ := drop_client_ok s t ready.fd ok
    exact ⟨rfl, rfl⟩
  · rcases handle_client_open s t ready answers closes ok with rfl | ⟨room, extended⟩ | ⟨interest, extended⟩
    · exact ⟨rfl, rfl⟩
    · obtain ⟨timeout, stopServer⟩ := extend_flags _ t ready.fd answers.cur extended
      rw [State.appendJob] at timeout stopServer
      split at timeout <;> exact ⟨timeout, by split at stopServer <;> exact stopServer⟩
    · have watched := modfd_flags s (s.sockfd ready.fd) interest
      obtain ⟨timeout, stopServer⟩ := extend_flags _ t ready.fd answers.cur extended
      exact ⟨timeout.trans watched.1, stopServer.trans watched.2⟩

theorem disarm_flags (batch : List Event) (s : State) : SameFlags s (s.disarm batch) :=
  ⟨disarm_keeps State.timeout (fun _ _ => rfl) batch s, disarm_keeps State.stopServer (fun _ _ => rfl) batch s⟩

theorem finish_flags (s : State) (slot : Fd) (outcome : Finish) : SameFlags s (s.finish slot outcome) := by
  cases outcome with
  | moreInput => exact modfd_flags (s.takeJob slot) (s.sockfd slot) .input
  | response => exact modfd_flags (s.takeJob slot) (s.sockfd slot) .output
  | closed =>
      unfold State.finish State.closeConn
      dsimp only
      split <;> exact ⟨rfl, rfl⟩

theorem beats_same (s t : Clocked) (beats : Beats s) (armed : t.armed = s.armed) (pipe : t.pipe = s.pipe)
    (flags : SameFlags s.server t.server) : Beats t := by
  have alarms : t.alarms = s.alarms := by rw [Clocked.alarms, Clocked.alarms, armed, pipe, flags.1]
  refine ⟨by rw [alarms]; exact beats.once, ?_⟩
  rw [alarms, pipe, flags.2]
  exact beats.alive

-- A byte is lost only where the pipe is full, and then of one kind or the other.
theorem beats_alarm (s : Clocked) (capacity : Nat) (room : 0 < capacity) (beats : Beats s) (armed : s.armed = true) :
    Beats ({ s with armed := false }.send capacity .alarm) := by
  have once := beats.once
  have none_left : s.pipe.count .alarm = 0 ∧ s.server.timeout = false := by
    rw [Clocked.alarms, if_pos armed] at once
    cases timeout : s.server.timeout with
    | false => exact ⟨by omega, rfl⟩
    | true =>
        rw [timeout, if_pos rfl] at once
        omega
  unfold Clocked.send
  split
  · have alarms : Clocked.alarms { s with armed := false, pipe := s.pipe ++ [.alarm] } = 1 := by
      simp [Clocked.alarms, none_left.1, none_left.2]
    exact ⟨by rw [alarms], .inl alarms⟩
  · rename_i full
    have alarms : Clocked.alarms { s with armed := false } = 0 := by
      simp [Clocked.alarms, none_left.1, none_left.2]
    refine ⟨by rw [alarms]; exact Nat.zero_le 1, .inr (.inl ?_)⟩
    have some_byte : s.pipe ≠ [] := by
      intro empty
      rw [empty] at full
      exact full room
    obtain ⟨signal, rest, pipe⟩ := List.exists_cons_of_ne_nil some_byte
    change Signal.term ∈ s.pipe
    have first : signal ∉ [Signal.alarm] := by
      intro same
      have absent := List.count_eq_zero.mp none_left.1
      rw [pipe] at absent
      exact absent (by simp_all)
    cases signal with
    | alarm => exact absurd (List.mem_singleton.mpr rfl) first
    | term =>
        rw [pipe]
        exact List.mem_cons_self ..

theorem beats_term (s : Clocked) (capacity : Nat) (beats : Beats s) : Beats (s.send capacity .term) := by
  unfold Clocked.send
  split
  · have alarms : Clocked.alarms { s with pipe := s.pipe ++ [.term] } = s.alarms := by
      simp [Clocked.alarms]
    exact ⟨by rw [alarms]; exact beats.once, .inr (.inl (by simp))⟩
  · exact beats

theorem beats_signals (s t : Clocked) (answers : Answers) (rest : List Signal) (beats : Beats s) (quiet : s.server.timeout = false)
    (pipe : s.pipe = answers.signals ++ rest) (armed : t.armed = s.armed) (left : t.pipe = rest)
    (timeout : t.server.timeout = answers.signals.contains .alarm)
    (stopServer : t.server.stopServer = (s.server.stopServer || answers.signals.contains .term)) : Beats t := by
  have once := beats.once
  have counted : s.pipe.count .alarm = answers.signals.count .alarm + rest.count .alarm := by rw [pipe, List.count_append]
  have read : answers.signals.count .alarm = if answers.signals.contains .alarm = true then 1 else 0 := by
    by_cases inside : Signal.alarm ∈ answers.signals
    · have some_read := List.count_pos_iff.mpr inside
      rw [if_pos (by simpa using inside)]
      rw [Clocked.alarms, counted] at once
      omega
    · rw [if_neg (by simpa using inside)]
      exact List.count_eq_zero.mpr inside
  have alarms : t.alarms = s.alarms := by
    rw [Clocked.alarms, Clocked.alarms, armed, left, timeout, counted, quiet, read, if_neg Bool.false_ne_true]
    omega
  refine ⟨by rw [alarms]; exact once, ?_⟩
  rw [alarms, stopServer, left]
  rcases beats.alive with one | waiting | stopped
  · exact .inl one
  · rw [pipe] at waiting
    rcases List.mem_append.mp waiting with taken | later
    · exact .inr (.inr (by simp [taken]))
    · exact .inr (.inl later)
  · exact .inr (.inr (by simp [stopped]))

theorem beats_handle (s : Clocked) (answers : Answers) (server : State) (beats : Beats s) (quiet : s.server.timeout = false)
    (ready : ∀ event ∈ s.server.pending.head?, s.signalsReady answers event)
    (taken : Takes machine s.server (.handle answers) server) : Beats (s.served answers server) := by
  obtain ⟨event, rest, pending, ok⟩ := handle_effect s.server server answers taken
  have offered := ready event (by rw [pending]; rfl)
  cases event with
  | listen =>
      have flags : SameFlags s.server server := accept_flags answers.accepted (s.server.withPending rest) server ok
      exact beats_same s _ beats (by simp only [Clocked.served, pending]) (by simp [Clocked.served, pending])
        (by simpa only [Clocked.served, pending] using flags)
  | client event =>
      have flags : SameFlags s.server server := client_flags (s.server.withPending rest) server event answers ok
      exact beats_same s _ beats (by simp only [Clocked.served, pending]) (by simp [Clocked.served, pending])
        (by simpa only [Clocked.served, pending] using flags)
  | signals =>
      cases ok
      obtain ⟨left, whole⟩ := offered.2
      refine beats_signals s _ answers left beats quiet whole.symm (by simp only [Clocked.served, pending]) ?_ ?_ ?_
      · simp [Clocked.served, pending, ← whole]
      · simp [Clocked.served, pending, State.withPending, quiet]
      · simp [Clocked.served, pending, State.withPending]

theorem beats_tick (s : Clocked) (cur : Int) (beats : Beats s) (timeout : s.server.timeout = true) :
    Beats { s with server := s.server.timerHandler cur, now := cur, lastTick := cur, armed := true } := by
  have once := beats.once
  rw [Clocked.alarms, if_pos timeout] at once
  have none_left : s.pipe.count .alarm = 0 := by omega
  have alarms : Clocked.alarms { s with server := s.server.timerHandler cur, now := cur, lastTick := cur, armed := true } = 1 := by
    simp [Clocked.alarms, none_left, State.timerHandler]
  exact ⟨by rw [alarms], .inl alarms⟩

theorem beats_step (capacity : Nat) (room : 0 < capacity) (s t : Clocked) (beat : Beat) (beats : Beats s)
    (taken : Takes (clockedMachine capacity) s beat t) : Beats t := by
  cases beat with
  | alarm =>
      cases taken.2
      exact beats_alarm s capacity room beats taken.1
  | term =>
      cases taken.2
      exact beats_term s capacity beats
  | main label =>
      obtain ⟨server, stepped, rfl⟩ := main_moved capacity s t label taken
      cases label with
      | wait batch =>
          cases stepped.2
          exact beats_same s _ beats rfl rfl (disarm_flags batch s.server)
      | handle answers => exact beats_handle s answers server beats taken.1.1.2.1 taken.1.2.2 stepped
      | finish slot outcome =>
          cases stepped.2
          exact beats_same s _ beats rfl rfl (finish_flags s.server slot outcome)
      | tick cur =>
          cases stepped.2
          exact beats_tick s cur beats taken.1.1

structure Guarded (s : Clocked) : Prop where
  beats : Beats s
  served : ∀ fd ∈ s.server.opened, s.lastTick < s.active fd + 3 * timeslot

theorem heartbeat_kept (capacity : Nat) (now : Int) (beats : List Beat) (room : 0 < capacity) :
    Always (clockedMachine capacity) Guarded (.start now) beats := by
  have start : Beats (.start now) := ⟨Nat.le_refl 1, .inl rfl⟩
  have always := always_invariant (clockedMachine capacity) (fun s => Beats s ∧ s.Keeping) (fun s beat t both taken =>
    ⟨beats_step capacity room s t beat both.1 taken, keeping_step capacity s t beat both.2 taken⟩) (.start now) beats
    ⟨start, start_keeping now⟩
  exact always_mono (clockedMachine capacity) _ _ (fun s both => ⟨both.1, both.2.recent⟩) (.start now) beats always

theorem heartbeat_kept_once : Always (clockedMachine 1) Guarded (.start 0)
    [.alarm, .main (.wait [.signals]), .main (.handle { noAnswers with signals := [.alarm], cur := 100 }), .main (.tick 100)] :=
  heartbeat_kept 1 0 _ (by decide)

end Tokens

end WzyServer.Server
