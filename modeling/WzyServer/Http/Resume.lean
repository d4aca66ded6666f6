import WzyServer.Http.Loop

set_option autoImplicit false

namespace WzyServer.Http

open CString

theorem next_line_outside (status : LineStatus) (r : Request) (notBody : r.checkState ≠ .connect) :
    nextLine status r = parseLine r := if_neg fun body => notBody body.1

theorem feed_ordered (r : Request) (bytes : List UInt8) (ordered : Ordered r) : Ordered (r.feed bytes) :=
  ⟨ordered.start, Nat.le_trans ordered.check (Nat.le_add_right _ _)⟩

theorem complete_line_feed (r : Request) (bytes : List UInt8) (ordered : Ordered r) (notBody : r.checkState ≠ .connect)
    (ok : (parseLine r).1 = .lineOk) :
    advance ((parseLine r).2.feed bytes) = (advance (parseLine r).2).feed bytes := by
  obtain ⟨stop, lower, upper, result⟩ := parse_line_ok r ordered.check ok
  have start := ordered.start
  have sameState := next_line_check_state .lineOpen r ordered
  rw [next_line_outside .lineOpen r notBody] at sameState
  apply advance_feed _ bytes stop
  · rw [sameState]
    exact notBody
  · rw [result]
    exact lined_after_line r.readBuf stop
  · rw [result]
    exact upper
  · rw [result]
    simp only
    omega

theorem loop_stays_in_body (status : LineStatus) (r : Request) (ordered : Ordered r) (body : r.checkState = .connect) :
    (processReadLoop status r).2.checkState = .connect := by
  apply loop_induction (fun _ s => s.checkState = .connect) (fun result => result.2.checkState = .connect)
  · intro status s after next sOrdered inside _ again
    have kept := advance_body _ ((next_line_check_state status s sOrdered).trans inside)
    rwa [again] at kept
  · intro status s sOrdered inside _
    exact (next_line_check_state status s sOrdered).trans inside
  · intro status s outcome final sOrdered inside _ stopped
    have kept := advance_body _ ((next_line_check_state status s sOrdered).trans inside)
    rwa [stopped] at kept
  · exact ordered
  · exact body

theorem pending_line_feed (r : Request) (bytes : List UInt8) (ordered : Ordered r) (notOk : (parseLine r).1 ≠ .lineOk) :
    parseLine (r.feed bytes) = parseLine ((parseLine r).2.feed bytes) := by
  obtain ⟨index, lower, upper, result⟩ := parse_line_pending r ordered.check notOk
  rw [parse_line_feed r bytes ordered.check]
  cases status : (parseLine r).1 with
  | lineOk => exact absurd status notOk
  | lineOpen => simp
  | lineBad =>
      have again := parse_line_bad r ordered.check status
      have within : (parseLine r).2.checkIdx ≤ (parseLine r).2.readIdx := by
        rw [result]
        exact upper
      rw [parse_line_feed (parseLine r).2 bytes within, again]
      simp

theorem loop_feed (count : Nat) (status : LineStatus) (r : Request) (bytes : List UInt8) (bound : rounds status r ≤ count)
    (ordered : Ordered r) (notBody : (processReadLoop status r).2.checkState ≠ .connect) :
    processReadLoop status (r.feed bytes) =
      if (processReadLoop status r).1 = .code .noRequest then parseRead ((processReadLoop status r).2.feed bytes)
      else fed bytes (processReadLoop status r) := by
  induction count generalizing status r with
  | zero =>
      unfold rounds at bound
      split at bound <;> omega
  | succ count ih =>
      have outside : r.checkState ≠ .connect := fun body => notBody (loop_stays_in_body status r ordered body)
      have line := next_line_outside status r outside
      have fedLine := next_line_outside status (r.feed bytes) outside
      have lineFeed := parse_line_feed r bytes ordered.check
      have fedOrdered := feed_ordered r bytes ordered
      have unfolded := process_read_loop_step status r ordered
      rw [line] at unfolded
      rw [process_read_loop_step status (r.feed bytes) fedOrdered, fedLine]
      by_cases ok : (parseLine r).1 = .lineOk
      · have complete : parseLine (r.feed bytes) = ((parseLine r).1, (parseLine r).2.feed bytes) := by
          rw [lineFeed, if_neg (by simp [ok])]
        rw [if_pos ok] at unfolded
        rw [complete]
        simp only [if_pos ok, complete_line_feed r bytes ordered outside ok]
        cases step : advance (parseLine r).2 with
        | again after next =>
            rw [step] at unfolded
            have okNext : (nextLine status r).1 = .lineOk := by rw [line]; exact ok
            have stepNext : advance (nextLine status r).2 = .again after next := by rw [line]; exact step
            have smaller := round_decreases status after r next ordered okNext stepNext
            have nextOrdered := (advance_ordered after _ next (next_line_ordered status r ordered) stepNext).1
            simp only [Advance.feed]
            rw [unfolded] at notBody ⊢
            exact ih after next (by omega) nextOrdered notBody
        | stop outcome final =>
            rw [step] at unfolded
            have settled := advance_stop _ final outcome step
            simp only [unfolded, if_neg settled, Advance.feed, fed]
      · rw [if_neg ok] at unfolded
        have pendingOrdered := next_line_ordered status r ordered
        have sameState := next_line_check_state status r ordered
        rw [line] at pendingOrdered sameState
        have pendingLine := next_line_outside .lineOk ((parseLine r).2.feed bytes) (by
          rw [Request.feed_check_state, sameState]
          exact outside)
        rw [unfolded, if_pos rfl, parseRead,
          process_read_loop_step .lineOk _ (feed_ordered _ bytes pendingOrdered), pendingLine,
          pending_line_feed r bytes ordered ok]

theorem parse_read_feed (r : Request) (bytes : List UInt8) (ordered : Ordered r)
    (notBody : (parseRead r).2.checkState ≠ .connect) :
    parseRead (r.feed bytes) =
      if (parseRead r).1 = .code .noRequest then parseRead ((parseRead r).2.feed bytes) else fed bytes (parseRead r) :=
  loop_feed _ .lineOk r bytes (Nat.le_refl _) ordered notBody

theorem loop_feed_body (count : Nat) (status : LineStatus) (r : Request) (bytes : List UInt8)
    (bound : rounds status r ≤ count) (ordered : Ordered r)
    (body : (processReadLoop status r).2.checkState = .connect) :
    (processReadLoop status (r.feed bytes)).2.checkState = .connect := by
  induction count generalizing status r with
  | zero =>
      unfold rounds at bound
      split at bound <;> omega
  | succ count ih =>
      have fedOrdered := feed_ordered r bytes ordered
      by_cases inside : r.checkState = .connect
      · exact loop_stays_in_body status (r.feed bytes) fedOrdered inside
      · have line := next_line_outside status r inside
        have sameState := next_line_check_state status r ordered
        have unfolded := process_read_loop_step status r ordered
        rw [line] at unfolded sameState
        by_cases ok : (parseLine r).1 = .lineOk
        · have complete : parseLine (r.feed bytes) = ((parseLine r).1, (parseLine r).2.feed bytes) := by
            rw [parse_line_feed r bytes ordered.check, if_neg (by simp [ok])]
          rw [if_pos ok] at unfolded
          rw [process_read_loop_step status (r.feed bytes) fedOrdered, next_line_outside status (r.feed bytes) inside, complete]
          simp only [if_pos ok, complete_line_feed r bytes ordered inside ok]
          cases step : advance (parseLine r).2 with
          | again after next =>
              rw [step] at unfolded
              have okNext : (nextLine status r).1 = .lineOk := by rw [line]; exact ok
              have stepNext : advance (nextLine status r).2 = .again after next := by rw [line]; exact step
              have smaller := round_decreases status after r next ordered okNext stepNext
              have nextOrdered := (advance_ordered after _ next (next_line_ordered status r ordered) stepNext).1
              rw [unfolded] at body
              exact ih after next (by omega) nextOrdered body
          | stop outcome final =>
              rw [step] at unfolded
              rw [unfolded] at body
              exact body
        · rw [unfolded, if_neg ok] at body
          exact absurd (sameState.symm.trans body) inside

theorem parse_read_feed_body (r : Request) (bytes : List UInt8) (ordered : Ordered r)
    (body : (parseRead r).2.checkState = .connect) : (parseRead (r.feed bytes)).2.checkState = .connect :=
  loop_feed_body _ .lineOk r bytes (Nat.le_refl _) ordered body

theorem parse_read_nothing (r : Request) (empty : r.checkIdx = r.readIdx) (ordered : Ordered r)
    (notBody : r.checkState ≠ .connect) : parseRead r = (.code .noRequest, r) := by
  have pending : parseLine r = (.lineOpen, r) := by simp [parseLine, empty, parseLineFrom]
  rw [parseRead, process_read_loop_step .lineOk r ordered, next_line_outside .lineOk r notBody, pending]
  simp

theorem init_ordered (r : Request) : Ordered r.init := ⟨Nat.le_refl 0, Nat.le_refl 0⟩

theorem part_waits (r : Request) (early late : List UInt8) (ordered : Ordered r) (some_left : late ≠ [])
    (notBody : (parseRead (r.feed early)).2.checkState ≠ .connect)
    (check : (parseRead (r.feed (early ++ late))).2.checkIdx = r.readIdx + (early ++ late).length) :
    (parseRead (r.feed early)).1 = .code .noRequest := by
  by_contra ended
  have fed := feed_ordered r early ordered
  have resumed := parse_read_feed (r.feed early) late fed notBody
  rw [if_neg ended, ← Request.feed_append] at resumed
  have looked : (parseRead (r.feed early)).2.checkIdx = r.readIdx + (early ++ late).length :=
    (congrArg (fun result : Outcome × Request => result.2.checkIdx) resumed).symm.trans check
  obtain ⟨received, _, _, bound⟩ := loop_cursors .lineOk (r.feed early) fed
  have some_bytes := List.length_pos_iff.mpr some_left
  rw [List.length_append] at looked
  change (parseRead (r.feed early)).2.readIdx = r.readIdx + early.length at received
  change (parseRead (r.feed early)).2.checkIdx ≤ (parseRead (r.feed early)).2.readIdx at bound
  omega

end WzyServer.Http
