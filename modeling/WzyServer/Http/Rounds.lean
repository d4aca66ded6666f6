import Mathlib.Data.List.Induction
import WzyServer.Http.Target

set_option autoImplicit false

namespace WzyServer.Http

open CString Chunks Word

-- Where the loop of process_read stands each time it looks for the next line, after
-- these batches of the client's bytes.
inductive Round (slot : Request) : List (List UInt8) → LineStatus → Request → Prop where
  | first (bytes : List UInt8) : Round slot [bytes] .lineOk (slot.init.feed bytes)
  | again (batches : List (List UInt8)) (status after : LineStatus) (r next : Request) (round : Round slot batches status r)
      (ok : (nextLine status r).1 = .lineOk) (advanced : advance (nextLine status r).2 = .again after next) :
      Round slot batches after next
  | later (batches : List (List UInt8)) (status : LineStatus) (r : Request) (round : Round slot batches status r)
      (pending : (nextLine status r).1 ≠ .lineOk) (bytes : List UInt8) :
      Round slot (batches ++ [bytes]) .lineOk ((nextLine status r).2.feed bytes)

-- A line is complete, or the body is looked at: process_read goes into its switch.
def AtSwitch (slot : Request) (batches : List (List UInt8)) (r : Request) : Prop :=
  ∃ status before, Round slot batches status before ∧ nextLine status before = (.lineOk, r)

theorem round_ordered (slot r : Request) (batches : List (List UInt8)) (status : LineStatus)
    (round : Round slot batches status r) : Ordered r := by
  induction round with
  | first bytes => exact feed_ordered _ bytes (init_ordered slot)
  | again _ status after r next _ _ advanced ih => exact (advance_ordered after _ next (next_line_ordered status r ih) advanced).1
  | later _ status r _ _ bytes ih => exact feed_ordered _ bytes (next_line_ordered status r ih)

theorem at_switch_of_round (slot before : Request) (batches : List (List UInt8)) (status : LineStatus)
    (round : Round slot batches status before) (ok : (nextLine status before).1 = .lineOk) :
    AtSwitch slot batches (nextLine status before).2 :=
  ⟨status, before, round, Prod.ext ok rfl⟩

def roundAfter (slot : Request) (bytes : List UInt8) : Nat → Option (LineStatus × Request)
  | 0 => some (.lineOk, slot.init.feed bytes)
  | count + 1 =>
      match roundAfter slot bytes count with
      | none => none
      | some (status, r) =>
          if (nextLine status r).1 = .lineOk then
            match advance (nextLine status r).2 with
            | .again after next => some (after, next)
            | .stop _ _ => none
          else none

def switchAfter (slot : Request) (bytes : List UInt8) (count : Nat) : Option Request :=
  match roundAfter slot bytes count with
  | none => none
  | some (status, r) => if (nextLine status r).1 = .lineOk then some (nextLine status r).2 else none

theorem round_after_round (slot r : Request) (bytes : List UInt8) (count : Nat) (status : LineStatus)
    (reached : roundAfter slot bytes count = some (status, r)) : Round slot [bytes] status r := by
  induction count generalizing status r with
  | zero =>
      cases reached
      exact .first bytes
  | succ count ih =>
      unfold roundAfter at reached
      split at reached
      · cases reached
      · rename_i before earlier previous
        split at reached
        · rename_i ok
          split at reached
          · rename_i after next advanced
            cases reached
            exact (ih earlier before previous).again [bytes] before status earlier r ok advanced
          · cases reached
        · cases reached

theorem switch_after_reached (slot r : Request) (bytes : List UInt8) (count : Nat)
    (reached : switchAfter slot bytes count = some r) : AtSwitch slot [bytes] r := by
  unfold switchAfter at reached
  split at reached
  · cases reached
  · rename_i status before earlier
    split at reached
    · rename_i ok
      cases reached
      exact at_switch_of_round slot before [bytes] status (round_after_round slot before bytes count status earlier) ok
    · cases reached

inductive Ended (slot : Request) (batches : List (List UInt8)) : Outcome × Request → Prop where
  | waiting (status : LineStatus) (r : Request) (round : Round slot batches status r) (pending : (nextLine status r).1 ≠ .lineOk) :
      Ended slot batches (.code .noRequest, (nextLine status r).2)
  | stopped (r final : Request) (outcome : Outcome) (reached : AtSwitch slot batches r) (stop : advance r = .stop outcome final) :
      Ended slot batches (outcome, final)

theorem round_ends (slot r : Request) (batches : List (List UInt8)) (round : Round slot batches .lineOk r) :
    Ended slot batches (parseRead r) := by
  apply loop_induction (Round slot batches) (Ended slot batches)
  · exact fun status r after next _ round ok advanced => round.again batches status after r next ok advanced
  · exact fun status r _ round pending => .waiting status r round pending
  · exact fun status r outcome final _ round ok stop =>
      .stopped _ final outcome (at_switch_of_round slot r batches status round ok) stop
  · exact round_ordered slot r batches .lineOk round
  · exact round

theorem ended_waits (slot r : Request) (batches : List (List UInt8)) (ended : Ended slot batches (.code .noRequest, r))
    (bytes : List UInt8) : Round slot (batches ++ [bytes]) .lineOk (r.feed bytes) := by
  generalize result : (Outcome.code .noRequest, r) = pair at ended
  cases ended with
  | waiting status before round pending =>
      cases result
      exact round.later batches status before pending bytes
  | stopped before final outcome _ stop =>
      cases result
      exact absurd rfl (advance_stop before r _ stop)

theorem receive_ends (slot : Request) (batches : List (List UInt8)) (some_batch : batches ≠ []) :
    ∃ read, read <+: batches ∧ Ended slot read (receive slot.init batches) ∧
      ((receive slot.init batches).1 = .code .noRequest → read = batches) := by
  induction batches using List.reverseRecOn with
  | nil => exact absurd rfl some_batch
  | append_singleton early batch ih =>
      by_cases none_before : early = []
      · subst none_before
        refine ⟨[batch], by simp, ?_, fun _ => rfl⟩
        rw [receive, List.nil_append, deliver_singleton]
        exact round_ends slot _ _ (.first batch)
      · obtain ⟨read, within, ended, all⟩ := ih none_before
        by_cases waiting : (receive slot.init early).1 = .code .noRequest
        · cases all waiting
          refine ⟨early ++ [batch], List.prefix_rfl, ?_, fun _ => rfl⟩
          rw [receive_append slot.init early batch waiting]
          apply round_ends
          apply ended_waits
          generalize receive slot.init early = result at ended waiting ⊢
          obtain ⟨outcome, r⟩ := result
          cases waiting
          exact ended
        · have answered : receive slot.init (early ++ [batch]) = receive slot.init early := by
            unfold receive at waiting ⊢
            rw [deliver_append, if_neg waiting]
          rw [answered]
          exact ⟨read, within.trans (List.prefix_append _ _), ended, fun still => absurd still waiting⟩

inductive HeaderPassed (r : Request) : Request → Prop where
  | line (next : Request) (state : next.checkState = r.checkState)
      (length : next.contentLength = r.contentLength ∨ ∃ value, next.contentLength = toInt value) : HeaderPassed r next
  | blank (some_body : r.contentLength ≠ 0) : HeaderPassed r { r with checkState := .connect }

theorem parse_headers_again (r next : Request) (text : Nat) (again : parseHeaders r text = (.code .noRequest, next)) :
    HeaderPassed r next := by
  unfold parseHeaders at again
  dsimp only at again
  split at again
  · split at again
    · rename_i some_body
      cases again
      exact .blank some_body
    · cases again
  · repeat' split at again
    all_goals cases again
    · exact .line _ rfl (.inl rfl)
    · exact .line _ rfl (.inl rfl)
    · exact .line _ rfl (.inr ⟨_, rfl⟩)
    · exact .line _ rfl (.inl rfl)
    · exact .line _ rfl (.inl rfl)

inductive AdvancedAgain (r : Request) : LineStatus → Request → Prop where
  | requestLine (next : Request) (state : r.checkState = .requestLine) (read : LineRead (beginLine r) next) : AdvancedAgain r .lineOk next
  | header (next : Request) (state : r.checkState = .header) (read : HeaderPassed (beginLine r) next) : AdvancedAgain r .lineOk next
  | content (state : r.checkState = .connect)
      (incomplete : parseContent (beginLine r) r.startLine = (.code .noRequest, beginLine r)) : AdvancedAgain r .lineOpen (beginLine r)

theorem line_read_outside (r next : Request) (state : r.checkState = .requestLine) (read : LineRead (beginLine r) next) :
    next.checkState ≠ .connect := by
  rcases read.state with same | header
  · rw [same]
    simp [beginLine, state]
  · simp [header]

theorem header_line_outside (r next : Request) (state : r.checkState = .header)
    (same : next.checkState = (beginLine r).checkState) : next.checkState ≠ .connect := by
  rw [same]
  simp [beginLine, state]

theorem advance_again (r next : Request) (after : LineStatus) (again : advance r = .again after next) :
    AdvancedAgain r after next := by
  unfold advance at again
  cases state : r.checkState with
  | requestLine =>
      simp only [state] at again
      obtain ⟨rfl, result⟩ := advance_with_again _ _ _ _ again
      obtain ⟨read, _⟩ := request_line_reads (beginLine r) r.startLine
      rw [result] at read
      exact .requestLine next state read
  | header =>
      simp only [state] at again
      obtain ⟨rfl, result⟩ := advance_with_again _ _ _ _ again
      exact .header next state (parse_headers_again _ _ _ result)
  | connect =>
      simp only [state] at again
      obtain ⟨rfl, result⟩ := advance_with_again _ _ _ _ again
      have same : next = beginLine r := by
        unfold parseContent at result
        dsimp only at result
        repeat' split at result
        all_goals cases result
        rfl
      subst same
      exact .content state result

inductive Requested (r : Request) : Request → Prop where
  | header (state : r.checkState = .header) (bodiless : r.contentLength = 0) : Requested r (beginLine r)
  | content (final : Request) (state : r.checkState = .connect)
      (complete : parseContent (beginLine r) r.startLine = (.code .getRequest, final)) : Requested r final

theorem advance_requested (r final : Request) (stop : advance r = .stop (.code .getRequest) final) : Requested r final := by
  unfold advance at stop
  cases state : r.checkState with
  | requestLine =>
      simp only [state] at stop
      obtain ⟨_, unserved⟩ := request_line_reads (beginLine r) r.startLine
      rw [advance_with_stop _ _ _ _ stop] at unserved
      exact absurd rfl unserved
  | header =>
      simp only [state] at stop
      have result := advance_with_stop _ _ _ _ stop
      unfold parseHeaders at result
      dsimp only at result
      split at result
      · split at result
        · cases result
        · rename_i bodiless
          cases result
          exact .header state (by simpa [beginLine] using bodiless)
      · repeat' split at result
        all_goals cases result
  | connect =>
      simp only [state] at stop
      exact .content final state (advance_with_stop _ _ _ _ stop)

end WzyServer.Http
