import WzyServer.Http.Rounds

set_option autoImplicit false

namespace WzyServer.Http

open CString

structure MalformedAt (r : Request) (index : Nat) : Prop where
  unread : r.checkIdx ≤ index ∧ index < r.readIdx
  first : ∀ before, r.checkIdx ≤ before → before < index → r.readBuf before ≠ carriageReturn ∧ r.readBuf before ≠ lineFeed
  bad : (r.readBuf index = carriageReturn ∧ index + 1 < r.readIdx ∧ r.readBuf (index + 1) ≠ lineFeed) ∨
    (r.readBuf index = lineFeed ∧ ¬ (1 < index ∧ r.readBuf (index - 1) = carriageReturn))

def Malformed (r : Request) : Prop := ∃ index, MalformedAt r index

section Scan

theorem malformed_here (r : Request) (index : Nat) (malformed : MalformedAt r index)
    (ends : r.readBuf r.checkIdx = carriageReturn ∨ r.readBuf r.checkIdx = lineFeed) : index = r.checkIdx := by
  by_contra other
  have unread := malformed.unread
  obtain ⟨notReturn, notFeed⟩ := malformed.first r.checkIdx (Nat.le_refl _) (by omega)
  rcases ends with isReturn | isFeed
  · exact notReturn isReturn
  · exact notFeed isFeed

theorem malformed_skip (r : Request) (notReturn : r.readBuf r.checkIdx ≠ carriageReturn) (notFeed : r.readBuf r.checkIdx ≠ lineFeed) :
    Malformed { r with checkIdx := r.checkIdx + 1 } ↔ Malformed r := by
  constructor
  · rintro ⟨index, ⟨lower, upper⟩, first, bad⟩
    simp only at lower upper first bad
    refine ⟨index, ⟨by omega, upper⟩, fun before above below => ?_, bad⟩
    by_cases here : before = r.checkIdx
    · exact here ▸ ⟨notReturn, notFeed⟩
    · exact first before (by omega) below
  · rintro ⟨index, ⟨lower, upper⟩, first, bad⟩
    have past : index ≠ r.checkIdx := by
      rintro rfl
      rcases bad with ⟨isReturn, _⟩ | ⟨isFeed, _⟩
      · exact notReturn isReturn
      · exact notFeed isFeed
    exact ⟨index, ⟨by simp only; omega, upper⟩, fun before above below => first before (by simp only at above; omega) below, bad⟩

theorem parse_line_from_malformed (unread : Nat) (r : Request) (fits : r.checkIdx + unread = r.readIdx) :
    (parseLineFrom unread r).1 = .lineBad ↔ Malformed r := by
  induction unread generalizing r with
  | zero =>
      have nothing : ¬ Malformed r := by
        rintro ⟨index, ⟨lower, upper⟩, _⟩
        omega
      simp [parseLineFrom, nothing]
  | succ unread ih =>
      have inside : r.checkIdx < r.readIdx := by omega
      by_cases isReturn : r.readBuf r.checkIdx = carriageReturn
      · have other : ¬ r.readBuf r.checkIdx = lineFeed := by
          rw [isReturn]
          decide
        have here : Malformed r ↔ r.checkIdx + 1 < r.readIdx ∧ r.readBuf (r.checkIdx + 1) ≠ lineFeed := by
          constructor
          · rintro ⟨index, malformed⟩
            cases malformed_here r index malformed (.inl isReturn)
            rcases malformed.bad with ⟨_, bad⟩ | ⟨isFeed, _⟩
            · exact bad
            · exact absurd isFeed other
          · exact fun bad => ⟨r.checkIdx, ⟨Nat.le_refl _, inside⟩, fun before above below => by omega, .inl ⟨isReturn, bad⟩⟩
        rw [here]
        by_cases last : r.checkIdx + 1 = r.readIdx
        · simp [parseLineFrom, isReturn, last]
        · by_cases feed : r.readBuf (r.checkIdx + 1) = lineFeed
          · simp [parseLineFrom, isReturn, last, feed]
          · simp [parseLineFrom, isReturn, last, feed, show r.checkIdx + 1 < r.readIdx by omega]
      · by_cases isFeed : r.readBuf r.checkIdx = lineFeed
        · have here : Malformed r ↔ ¬ (1 < r.checkIdx ∧ r.readBuf (r.checkIdx - 1) = carriageReturn) := by
            constructor
            · rintro ⟨index, malformed⟩
              cases malformed_here r index malformed (.inr isFeed)
              rcases malformed.bad with ⟨isReturn', _⟩ | ⟨_, bad⟩
              · exact absurd isReturn' isReturn
              · exact bad
            · exact fun bad => ⟨r.checkIdx, ⟨Nat.le_refl _, inside⟩, fun before above below => by omega, .inr ⟨isFeed, bad⟩⟩
          rw [here]
          by_cases after : 1 < r.checkIdx ∧ r.readBuf (r.checkIdx - 1) = carriageReturn
          · simp [parseLineFrom, isFeed, after, show ¬ lineFeed = carriageReturn by decide]
          · simp [parseLineFrom, isFeed, after, show ¬ lineFeed = carriageReturn by decide]
        · rw [parse_line_from_skip unread r isReturn isFeed, ih _ (by simp only; omega)]
          exact malformed_skip r isReturn isFeed

theorem parse_line_malformed (r : Request) (ordered : r.checkIdx ≤ r.readIdx) :
    (parseLine r).1 = .lineBad ↔ Malformed r :=
  parse_line_from_malformed (r.readIdx - r.checkIdx) r (by omega)

end Scan

theorem round_resumes (slot r : Request) (batches : List (List UInt8)) (status : LineStatus)
    (round : Round slot batches status r) : receive slot.init batches = processReadLoop status r := by
  induction round with
  | first bytes => exact Chunks.deliver_singleton Request.feed parseRead (.code .noRequest) slot.init bytes
  | again batches status after r next round ok advanced ih =>
      rw [ih, process_read_loop_step status r (round_ordered slot r batches status round), if_pos ok, advanced]
  | later batches status r round pending bytes ih =>
      rw [process_read_loop_step status r (round_ordered slot r batches status round), if_neg pending] at ih
      rw [receive_append slot.init batches bytes (by rw [ih]), ih]
      rfl

theorem malformed_round (slot r : Request) (batches : List (List UInt8)) (status : LineStatus)
    (round : Round slot batches status r) (outside : r.checkState ≠ .connect) (malformed : Malformed r) :
    (nextLine status r).1 = .lineBad ∧ (receive slot.init batches).1 = .code .noRequest := by
  have ordered := round_ordered slot r batches status round
  have bad : (nextLine status r).1 = .lineBad := by
    rw [next_line_outside status r outside]
    exact (parse_line_malformed r ordered.check).mpr malformed
  refine ⟨bad, ?_⟩
  rw [round_resumes slot r batches status round, process_read_loop_step status r ordered, if_neg (by rw [bad]; decide)]

theorem malformed_later (slot r : Request) (batches : List (List UInt8)) (status : LineStatus) (bytes : List UInt8)
    (round : Round slot batches status r) (outside : r.checkState ≠ .connect) (malformed : Malformed r) :
    ∃ next, Round slot (batches ++ [bytes]) .lineOk next ∧ next.checkState ≠ .connect ∧ Malformed next := by
  have ordered := round_ordered slot r batches status round
  obtain ⟨bad, _⟩ := malformed_round slot r batches status round outside malformed
  have pending : (nextLine status r).1 ≠ .lineOk := by
    rw [bad]
    decide
  refine ⟨_, round.later batches status r pending bytes, ?_, ?_⟩
  · rw [Request.feed_check_state, next_line_check_state status r ordered]
    exact outside
  · have left := next_line_ordered status r ordered
    apply (parse_line_malformed _ (feed_ordered _ bytes left).check).mp
    rw [next_line_outside status r outside] at bad left ⊢
    rw [parse_line_feed _ bytes left.check, parse_line_bad r ordered.check bad]
    rfl

-- process_read takes LINE_BAD for an unfinished line: no malformed line is answered,
-- at once or behind any later bytes.
theorem malformed_line_waits (slot r : Request) (batches later : List (List UInt8)) (status : LineStatus)
    (round : Round slot batches status r) (outside : r.checkState ≠ .connect) (malformed : Malformed r) :
    (receive slot.init (batches ++ later)).1 = .code .noRequest ∧ (receive slot.init (batches ++ later)).1 ≠ .code .badRequest := by
  induction later generalizing batches status r with
  | nil =>
      obtain ⟨_, waiting⟩ := malformed_round slot r batches status round outside malformed
      rw [List.append_nil, waiting]
      exact ⟨rfl, by decide⟩
  | cons bytes later ih =>
      obtain ⟨next, nextRound, nextOutside, nextMalformed⟩ := malformed_later slot r batches status bytes round outside malformed
      rw [List.append_cons]
      exact ih next (batches ++ [bytes]) .lineOk nextRound nextOutside nextMalformed

theorem malformed_line_waits_return :
    (receive (Request.fresh).init ([ascii "GET /\rlog.html"] ++ [ascii " HTTP/1.1\r\n\r\n"])).1 = .code .noRequest ∧
      (receive (Request.fresh).init ([ascii "GET /\rlog.html"] ++ [ascii " HTTP/1.1\r\n\r\n"])).1 ≠ .code .badRequest :=
  malformed_line_waits Request.fresh _ [ascii "GET /\rlog.html"] [ascii " HTTP/1.1\r\n\r\n"] .lineOk
    (.first (ascii "GET /\rlog.html")) (by decide +kernel)
    ((parse_line_malformed _ (by decide +kernel)).mp (by decide +kernel))

theorem bare_line_feed_waits :
    ¬ ∀ (slot r : Request) (batches : List (List UInt8)) (status : LineStatus), Round slot batches status r →
      r.checkState ≠ .connect → (parseLine r).1 = .lineBad → (receive slot.init batches).1 = .code .badRequest := by
  intro every
  have answered := every Request.fresh _ [ascii "GET / HTTP/1.1\n"] .lineOk (.first (ascii "GET / HTTP/1.1\n"))
    (by decide +kernel) (by decide +kernel)
  revert answered
  decide +kernel

end WzyServer.Http
