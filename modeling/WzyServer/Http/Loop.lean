import WzyServer.Http.Scan

set_option autoImplicit false

namespace WzyServer.Http

open CString

structure FormKept (r s : Request) : Prop where
  cgi : s.cgi = r.cgi ∨ s.cgi = 1
  string : s.string = r.string ∨ s.string.isSome

theorem form_kept_same (r s : Request) (cgi : s.cgi = r.cgi) (string : s.string = r.string) : FormKept r s :=
  ⟨.inl cgi, .inl string⟩

theorem form_kept_trans (r s t : Request) (first : FormKept r s) (second : FormKept s t) : FormKept r t := by
  constructor
  · rcases second.cgi with same | set
    · rw [same]
      exact first.cgi
    · exact .inr set
  · rcases second.string with same | set
    · rw [same]
      exact first.string
    · exact .inr set

structure Kept (r s : Request) : Prop where
  readIdx : s.readIdx = r.readIdx
  checkIdx : s.checkIdx = r.checkIdx
  startLine : s.startLine = r.startLine
  realFile : s.realFile = r.realFile
  form : FormKept r s

theorem kept_refl (r : Request) : Kept r r := ⟨rfl, rfl, rfl, rfl, form_kept_same r r rfl rfl⟩

theorem line_read_kept (r s : Request) (read : LineRead r s) : Kept r s :=
  ⟨by rw [read.same], by rw [read.same], by rw [read.same], by rw [read.same], read.form, .inl (by rw [read.same])⟩

theorem parse_request_line_kept (r : Request) (text : Nat) : Kept r (parseRequestLine r text).2 :=
  line_read_kept r _ (request_line_reads r text).1

theorem parse_headers_kept (r : Request) (text : Nat) : Kept r (parseHeaders r text).2 := by
  unfold parseHeaders
  dsimp only
  repeat' split
  all_goals exact ⟨rfl, rfl, rfl, rfl, form_kept_same _ _ rfl rfl⟩

theorem parse_content_kept (r : Request) (text : Nat) : Kept r (parseContent r text).2 := by
  unfold parseContent
  split
  · dsimp only
    split
    · exact ⟨rfl, rfl, rfl, rfl, .inl rfl, .inr rfl⟩
    · exact kept_refl r
  · exact kept_refl r

def Advance.request : Advance → Request
  | .again _ r => r
  | .stop _ r => r

def Advance.feed (bytes : List UInt8) : Advance → Advance
  | .again status r => .again status (r.feed bytes)
  | .stop outcome r => .stop outcome (r.feed bytes)

@[simp] theorem advance_with_request (status : LineStatus) (result : Outcome × Request) :
    (advanceWith status result).request = result.2 := by
  obtain ⟨outcome, r⟩ := result
  cases outcome with
  | code value => cases value <;> rfl
  | fault kind => rfl

theorem advance_with_feed (status : LineStatus) (bytes : List UInt8) (result : Outcome × Request) :
    advanceWith status (fed bytes result) = (advanceWith status result).feed bytes := by
  obtain ⟨outcome, r⟩ := result
  cases outcome with
  | code value => cases value <;> rfl
  | fault kind => rfl

theorem advance_with_again (status after : LineStatus) (result : Outcome × Request) (next : Request)
    (again : advanceWith status result = .again after next) : after = status ∧ result = (.code .noRequest, next) := by
  unfold advanceWith at again
  split at again
  · cases again
    exact ⟨rfl, rfl⟩
  · cases again

theorem advance_with_stop (status : LineStatus) (result : Outcome × Request) (outcome : Outcome) (final : Request)
    (stopped : advanceWith status result = .stop outcome final) : result = (outcome, final) := by
  unfold advanceWith at stopped
  split at stopped
  · cases stopped
  · cases stopped
    rfl

theorem advance_kept (r : Request) : Kept (beginLine r) (advance r).request := by
  unfold advance
  cases r.checkState with
  | requestLine => simpa using parse_request_line_kept _ _
  | header => simpa using parse_headers_kept _ _
  | connect => simpa using parse_content_kept _ _

theorem advance_feed (r : Request) (bytes : List UInt8) (stop : Nat) (notBody : r.checkState ≠ .connect)
    (lined : Lined r.readBuf stop) (inside : stop + 1 < r.readIdx) (below : r.startLine ≤ stop + 1) :
    advance (r.feed bytes) = (advance r).feed bytes := by
  have line : beginLine (r.feed bytes) = (beginLine r).feed bytes := rfl
  unfold advance
  simp only [Request.feed_check_state, Request.feed_start_line, line]
  cases state : r.checkState with
  | requestLine =>
      rw [← advance_with_feed, parse_request_line_feed (beginLine r) bytes r.startLine stop lined inside below]
  | header =>
      rw [← advance_with_feed, parse_headers_feed (beginLine r) bytes r.startLine stop lined inside below]
  | connect => exact absurd state notBody

theorem advance_body (r : Request) (body : r.checkState = .connect) : (advance r).request.checkState = .connect := by
  unfold advance
  simp only [body, advance_with_request, parseContent]
  repeat' split
  all_goals exact body

theorem advance_stop (r final : Request) (outcome : Outcome) (stopped : advance r = .stop outcome final) :
    outcome ≠ .code .noRequest := by
  have settled : ∀ (status : LineStatus) (result : Outcome × Request),
      advanceWith status result = .stop outcome final → outcome ≠ .code .noRequest := by
    rintro status result same rfl
    cases advance_with_stop status result _ final same
    cases same
  unfold advance at stopped
  cases state : r.checkState with
  | requestLine => exact settled _ _ (by simpa only [state] using stopped)
  | header => exact settled _ _ (by simpa only [state] using stopped)
  | connect => exact settled _ _ (by simpa only [state] using stopped)

theorem advance_body_status (r next : Request) (status : LineStatus) (body : r.checkState = .connect)
    (again : advance r = .again status next) : status = .lineOpen := by
  rw [advance, body] at again
  exact (advance_with_again _ _ _ _ again).1

structure Ordered (r : Request) : Prop where
  start : r.startLine ≤ r.checkIdx
  check : r.checkIdx ≤ r.readIdx

def nextLine (status : LineStatus) (r : Request) : LineStatus × Request :=
  if r.checkState = .connect ∧ status = .lineOk then (.lineOk, r) else parseLine r

def rounds (status : LineStatus) (r : Request) : Nat :=
  2 * (r.readIdx - r.checkIdx) + if status = .lineOk then 2 else 1

theorem next_line_scanned (status : LineStatus) (r : Request) (ordered : Ordered r) :
    ∃ memory index, (nextLine status r).2 = { r with readBuf := memory, checkIdx := index } ∧
      r.checkIdx ≤ index ∧ index ≤ r.readIdx := by
  have check := ordered.check
  unfold nextLine
  split
  · exact ⟨r.readBuf, r.checkIdx, rfl, Nat.le_refl _, check⟩
  · by_cases ok : (parseLine r).1 = .lineOk
    · obtain ⟨stop, lower, upper, result⟩ := parse_line_ok r check ok
      exact ⟨_, stop + 2, result, by omega, upper⟩
    · obtain ⟨index, lower, upper, result⟩ := parse_line_pending r check ok
      exact ⟨r.readBuf, index, result, lower, upper⟩

theorem next_line_check_state (status : LineStatus) (r : Request) (ordered : Ordered r) :
    (nextLine status r).2.checkState = r.checkState := by
  obtain ⟨memory, index, result, _⟩ := next_line_scanned status r ordered
  rw [result]

theorem next_line_content_length (status : LineStatus) (r : Request) (ordered : Ordered r) :
    (nextLine status r).2.contentLength = r.contentLength := by
  obtain ⟨memory, index, result, _⟩ := next_line_scanned status r ordered
  rw [result]

theorem next_line_cursors (status : LineStatus) (r : Request) (ordered : Ordered r) :
    (nextLine status r).2.readIdx = r.readIdx ∧ r.checkIdx ≤ (nextLine status r).2.checkIdx := by
  obtain ⟨memory, index, result, lower, _⟩ := next_line_scanned status r ordered
  rw [result]
  exact ⟨rfl, lower⟩

theorem next_line_ordered (status : LineStatus) (r : Request) (ordered : Ordered r) : Ordered (nextLine status r).2 := by
  obtain ⟨memory, index, result, lower, upper⟩ := next_line_scanned status r ordered
  rw [result]
  exact ⟨Nat.le_trans ordered.start lower, upper⟩

theorem next_line_form (status : LineStatus) (r : Request) (ordered : Ordered r) : FormKept r (nextLine status r).2 := by
  obtain ⟨memory, index, result, _⟩ := next_line_scanned status r ordered
  rw [result]
  exact form_kept_same _ _ rfl rfl

theorem advance_ordered (status : LineStatus) (r next : Request) (ordered : Ordered r) (again : advance r = .again status next) :
    Ordered next ∧ next.checkIdx = r.checkIdx ∧ next.readIdx = r.readIdx := by
  have kept := advance_kept r
  rw [again] at kept
  obtain ⟨readSame, checkSame, startSame, _⟩ := kept
  simp only [Advance.request, beginLine] at readSame checkSame startSame
  have check := ordered.check
  exact ⟨⟨by omega, by omega⟩, checkSame, readSame⟩

-- Every round uses up a byte, except the one that looks at a body already begun.
theorem round_decreases (status after : LineStatus) (r next : Request) (ordered : Ordered r)
    (ok : (nextLine status r).1 = .lineOk) (again : advance (nextLine status r).2 = .again after next) :
    rounds after next < rounds status r := by
  have lineOrdered := next_line_ordered status r ordered
  obtain ⟨_, checkSame, readSame⟩ := advance_ordered after _ next lineOrdered again
  have check := ordered.check
  by_cases body : r.checkState = .connect ∧ status = .lineOk
  · have line : nextLine status r = (.lineOk, r) := if_pos body
    rw [line] at again checkSame readSame
    have pending := advance_body_status r next after body.1 again
    simp only at checkSame readSame
    simp [rounds, pending, body.2, checkSame, readSame]
  · have line : nextLine status r = parseLine r := if_neg body
    rw [line] at ok again checkSame readSame
    obtain ⟨stop, lower, upper, result⟩ := parse_line_ok r check ok
    rw [result] at checkSame readSame
    simp only at checkSame readSame
    simp only [rounds, checkSame, readSame]
    split <;> split <;> omega

theorem process_read_from_fuel (fuel other : Nat) (status : LineStatus) (r : Request) (ordered : Ordered r)
    (enough : rounds status r ≤ fuel) (enoughOther : rounds status r ≤ other) :
    processReadFrom fuel status r = processReadFrom other status r := by
  induction fuel generalizing other status r with
  | zero =>
      unfold rounds at enough
      split at enough <;> omega
  | succ fuel ih =>
      cases other with
      | zero =>
          unfold rounds at enoughOther
          split at enoughOther <;> omega
      | succ other =>
          unfold processReadFrom
          change (if (nextLine status r).1 = .lineOk then _ else _) = (if (nextLine status r).1 = .lineOk then _ else _)
          by_cases ok : (nextLine status r).1 = .lineOk
          · simp only [if_pos ok]
            change (match advance (nextLine status r).2 with | .again s n => _ | .stop o f => _) =
              (match advance (nextLine status r).2 with | .again s n => _ | .stop o f => _)
            cases step : advance (nextLine status r).2 with
            | again after next =>
                have smaller := round_decreases status after r next ordered ok step
                have nextOrdered := (advance_ordered after _ next (next_line_ordered status r ordered) step).1
                exact ih other after next nextOrdered (by omega) (by omega)
            | stop outcome final => rfl
          · simp only [if_neg ok]

theorem process_read_loop_step (status : LineStatus) (r : Request) (ordered : Ordered r) :
    processReadLoop status r =
      if (nextLine status r).1 = .lineOk then
        match advance (nextLine status r).2 with
        | .again after next => processReadLoop after next
        | .stop outcome final => (outcome, final)
      else (.code .noRequest, (nextLine status r).2) := by
  unfold processReadLoop
  rw [show 2 * (r.readIdx - r.checkIdx) + 3 = 2 * (r.readIdx - r.checkIdx) + 2 + 1 by omega, processReadFrom]
  change (if (nextLine status r).1 = .lineOk then _ else _) = _
  by_cases ok : (nextLine status r).1 = .lineOk
  · simp only [if_pos ok]
    change (match advance (nextLine status r).2 with | .again s n => _ | .stop o f => _) = _
    cases step : advance (nextLine status r).2 with
    | again after next =>
        have smaller := round_decreases status after r next ordered ok step
        have nextOrdered := (advance_ordered after _ next (next_line_ordered status r ordered) step).1
        apply process_read_from_fuel _ _ after next nextOrdered
        · unfold rounds at smaller ⊢
          split at smaller <;> split at smaller <;> split <;> omega
        · unfold rounds
          split <;> omega
    | stop outcome final => rfl
  · simp only [if_neg ok]
    rfl

theorem loop_induction (inv : LineStatus → Request → Prop) (post : Outcome × Request → Prop)
    (round : ∀ status r after next, Ordered r → inv status r → (nextLine status r).1 = .lineOk →
      advance (nextLine status r).2 = .again after next → inv after next)
    (pending : ∀ status r, Ordered r → inv status r → (nextLine status r).1 ≠ .lineOk →
      post (.code .noRequest, (nextLine status r).2))
    (stopped : ∀ status r outcome final, Ordered r → inv status r → (nextLine status r).1 = .lineOk →
      advance (nextLine status r).2 = .stop outcome final → post (outcome, final))
    (status : LineStatus) (r : Request) (ordered : Ordered r) (start : inv status r) : post (processReadLoop status r) := by
  generalize measure : rounds status r = count
  induction count using Nat.strong_induction_on generalizing status r with
  | _ count ih =>
      rw [process_read_loop_step status r ordered]
      by_cases ok : (nextLine status r).1 = .lineOk
      · rw [if_pos ok]
        cases step : advance (nextLine status r).2 with
        | again after next =>
            have smaller := round_decreases status after r next ordered ok step
            have nextOrdered := (advance_ordered after _ next (next_line_ordered status r ordered) step).1
            exact ih _ (by omega) after next nextOrdered (round status r after next ordered start ok step) rfl
        | stop outcome final => exact stopped status r outcome final ordered start ok step
      · rw [if_neg ok]
        exact pending status r ordered start ok

theorem loop_cursors (status : LineStatus) (r : Request) (ordered : Ordered r) :
    (processReadLoop status r).2.readIdx = r.readIdx ∧ r.checkIdx ≤ (processReadLoop status r).2.checkIdx ∧
      Ordered (processReadLoop status r).2 := by
  apply loop_induction (fun _ s => s.readIdx = r.readIdx ∧ r.checkIdx ≤ s.checkIdx)
    (fun result => result.2.readIdx = r.readIdx ∧ r.checkIdx ≤ result.2.checkIdx ∧ Ordered result.2)
  · rintro status s after next sOrdered ⟨readSame, lower⟩ _ again
    obtain ⟨lineRead, lineCheck⟩ := next_line_cursors status s sOrdered
    obtain ⟨_, checkSame, nextRead⟩ := advance_ordered after _ next (next_line_ordered status s sOrdered) again
    constructor <;> omega
  · rintro status s sOrdered ⟨readSame, lower⟩ _
    obtain ⟨lineRead, lineCheck⟩ := next_line_cursors status s sOrdered
    exact ⟨lineRead.trans readSame, Nat.le_trans lower lineCheck, next_line_ordered status s sOrdered⟩
  · rintro status s outcome final sOrdered ⟨readSame, lower⟩ _ stopped
    obtain ⟨lineRead, lineCheck⟩ := next_line_cursors status s sOrdered
    obtain ⟨start, check⟩ := next_line_ordered status s sOrdered
    have kept := advance_kept (nextLine status s).2
    rw [stopped] at kept
    obtain ⟨finalRead, finalCheck, finalStart, _⟩ := kept
    simp only [Advance.request, beginLine] at finalRead finalCheck finalStart
    have checkBound : final.startLine ≤ final.checkIdx := by omega
    have readBound : final.checkIdx ≤ final.readIdx := by omega
    exact ⟨by simp only; omega, by simp only; omega, ⟨checkBound, readBound⟩⟩
  · exact ordered
  · exact ⟨rfl, Nat.le_refl _⟩

end WzyServer.Http
