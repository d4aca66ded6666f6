import WzyServer.Http.Resume

set_option autoImplicit false

namespace WzyServer.Http

open CString

def lineEnd : List UInt8 := [carriageReturn, lineFeed]

structure AtLine (r : Request) : Prop where
  check : r.checkIdx = r.readIdx
  start : r.startLine = r.readIdx

theorem at_line_ordered (r : Request) (at_line : AtLine r) : Ordered r := by
  obtain ⟨check, start⟩ := at_line
  exact ⟨by omega, by omega⟩

def lineFound (s : Request) (line : List UInt8) : Request :=
  { s with
    readBuf := store (store s.readBuf (s.checkIdx + line.length) 0) (s.checkIdx + line.length + 1) 0,
    checkIdx := s.checkIdx + line.length + 2 }

theorem parse_line_found (line : List UInt8) (s : Request) (clean : ∀ c ∈ line, c ∉ lineEnd)
    (bytes : ∀ offset (inside : offset < (line ++ lineEnd).length), s.readBuf (s.checkIdx + offset) = (line ++ lineEnd)[offset])
    (whole : s.readIdx = s.checkIdx + (line.length + 2)) : parseLineFrom (line.length + 2) s = (.lineOk, lineFound s line) := by
  induction line generalizing s with
  | nil =>
      have cr : s.readBuf s.checkIdx = carriageReturn := bytes 0 (by simp [lineEnd])
      have lf : s.readBuf (s.checkIdx + 1) = lineFeed := bytes 1 (by simp [lineEnd])
      have later : ¬ s.checkIdx + 1 = s.readIdx := by simp only [whole, List.length_nil]; omega
      rw [List.length_nil, Nat.zero_add, parseLineFrom]
      simp only [cr, lf, if_true, if_neg later]
      rfl
  | cons c rest ih =>
      have first : s.readBuf s.checkIdx = c := bytes 0 (by simp)
      have notEnd := clean c (List.mem_cons_self ..)
      simp only [lineEnd, List.mem_cons, List.not_mem_nil, or_false, not_or] at notEnd
      have skipped : parseLineFrom ((c :: rest).length + 2) s = parseLineFrom (rest.length + 2) { s with checkIdx := s.checkIdx + 1 } :=
        parse_line_from_skip (rest.length + 2) s (by rw [first]; exact notEnd.1) (by rw [first]; exact notEnd.2)
      rw [skipped, ih { s with checkIdx := s.checkIdx + 1 } (fun d member => clean d (List.mem_cons_of_mem c member))]
      · simp only [lineFound, List.length_cons, Prod.mk.injEq, true_and]
        rw [show s.checkIdx + 1 + rest.length = s.checkIdx + (rest.length + 1) by omega]
      · intro offset inside
        have next := bytes (offset + 1) (by simpa using inside)
        rw [show s.checkIdx + (offset + 1) = s.checkIdx + 1 + offset by omega] at next
        exact next
      · simp only [whole, List.length_cons]
        omega

theorem line_found_text (r : Request) (line : List UInt8) (at_line : AtLine r) (clean : ∀ c ∈ line, c ≠ 0) :
    TextAt (lineFound (r.feed (line ++ lineEnd)) line).readBuf r.readIdx line := by
  have check := at_line.check
  refine ⟨clean, fun offset inside => ?_, ?_⟩
  · have stored := write_inside r.readBuf r.readIdx offset (line ++ lineEnd) (by simp only [List.length_append]; omega)
    simp only [lineFound, Request.feed_check_idx, Request.feed_read_buf, check]
    rw [store_elsewhere _ _ _ _ (by omega), store_elsewhere _ _ _ _ (by omega), stored, List.getElem_append_left inside]
  · simp only [lineFound, Request.feed_check_idx, check]
    rw [store_elsewhere _ _ _ _ (by omega), store_here]

theorem parse_line_received (r : Request) (line : List UInt8) (at_line : AtLine r) (clean : ∀ c ∈ line, c ∉ lineEnd) :
    parseLine (r.feed (line ++ lineEnd)) = (.lineOk, lineFound (r.feed (line ++ lineEnd)) line) := by
  have check := at_line.check
  have unread : (r.feed (line ++ lineEnd)).readIdx - (r.feed (line ++ lineEnd)).checkIdx = line.length + 2 := by
    simp only [Request.feed_read_idx, Request.feed_check_idx, check, List.length_append, lineEnd, List.length_cons, List.length_nil]
    omega
  rw [parseLine, unread]
  apply parse_line_found line _ clean
  · intro offset inside
    rw [Request.feed_check_idx, check]
    exact write_inside r.readBuf r.readIdx offset (line ++ lineEnd) inside
  · simp only [Request.feed_read_idx, Request.feed_check_idx, check, List.length_append, lineEnd, List.length_cons, List.length_nil]

theorem line_cursors (r : Request) (line : List UInt8) (at_line : AtLine r) (result : Outcome × Request)
    (advanced : advance (lineFound (r.feed (line ++ lineEnd)) line) = advanceWith .lineOk result) :
    AtLine result.2 ∧ result.2.readIdx = r.readIdx + (line.length + 2) := by
  have kept := advance_kept (lineFound (r.feed (line ++ lineEnd)) line)
  rw [advanced, advance_with_request] at kept
  have received : result.2.readIdx = r.readIdx + (line.length + 2) := by
    rw [kept.readIdx]
    simp only [beginLine, lineFound, Request.feed_read_idx, lineEnd, List.length_append, List.length_cons, List.length_nil]
  have check : result.2.checkIdx = result.2.readIdx := by
    have before := at_line.check
    rw [received, kept.checkIdx]
    simp only [beginLine, lineFound, Request.feed_check_idx, before]
    omega
  have start : result.2.startLine = result.2.checkIdx := by
    rw [kept.startLine, kept.checkIdx]
    rfl
  exact ⟨⟨check, start.trans check⟩, received⟩

theorem parse_read_line (r : Request) (line : List UInt8) (at_line : AtLine r) (clean : ∀ c ∈ line, c ∉ lineEnd)
    (outside : r.checkState ≠ .connect) (result : Outcome × Request)
    (advanced : advance (lineFound (r.feed (line ++ lineEnd)) line) = advanceWith .lineOk result)
    (still : result.2.checkState ≠ .connect) : parseRead (r.feed (line ++ lineEnd)) = result := by
  have ordered := feed_ordered r (line ++ lineEnd) (at_line_ordered r at_line)
  have step := process_read_loop_step .lineOk _ ordered
  rw [next_line_outside .lineOk (r.feed (line ++ lineEnd)) outside, parse_line_received r line at_line clean, advanced] at step
  rw [parseRead, step]
  simp only [if_true]
  have next_line := (line_cursors r line at_line result advanced).1
  obtain ⟨outcome, next⟩ := result
  cases outcome with
  | fault kind => rfl
  | code value =>
      cases value with
      | noRequest => exact parse_read_nothing next next_line.check (at_line_ordered next next_line) still
      | _ => rfl

theorem line_consumed (r next : Request) (line : List UInt8) (code : HttpCode) (at_line : AtLine r)
    (clean : ∀ c ∈ line, c ∉ lineEnd) (outside : r.checkState ≠ .connect)
    (advanced : advance (lineFound (r.feed (line ++ lineEnd)) line) = advanceWith .lineOk (.code code, next))
    (header : next.checkState = .header) :
    parseRead (r.feed (line ++ lineEnd)) = (.code code, next) ∧ AtLine next ∧ next.readIdx = r.readIdx + (line.length + 2) := by
  have still : next.checkState ≠ .connect := by
    rw [header]
    decide
  exact ⟨parse_read_line r line at_line clean outside _ advanced still, line_cursors r line at_line _ advanced⟩

theorem request_line_consumed (slot next : Request) (line : List UInt8) (clean : ∀ c ∈ line, c ∉ lineEnd)
    (accepted : parseRequestLine (beginLine (lineFound (slot.init.feed (line ++ lineEnd)) line)) 0 = (.code .noRequest, next))
    (header : next.checkState = .header) :
    parseRead (slot.init.feed (line ++ lineEnd)) = (.code .noRequest, next) ∧ AtLine next ∧ next.readIdx = line.length + 2 := by
  have advanced : advance (lineFound (slot.init.feed (line ++ lineEnd)) line) = advanceWith .lineOk (.code .noRequest, next) := by
    have state : (lineFound (slot.init.feed (line ++ lineEnd)) line).checkState = .requestLine := rfl
    have start : (lineFound (slot.init.feed (line ++ lineEnd)) line).startLine = 0 := rfl
    simp only [advance, state, start, accepted]
  obtain ⟨read, next_line, received⟩ := line_consumed slot.init next line .noRequest ⟨rfl, rfl⟩ clean
    (fun body => by cases body) advanced header
  exact ⟨read, next_line, received.trans (Nat.zero_add _)⟩

theorem header_line_consumed (r next : Request) (line : List UInt8) (code : HttpCode) (at_line : AtLine r)
    (state : r.checkState = .header) (clean : ∀ c ∈ line, c ∉ lineEnd)
    (accepted : parseHeaders (beginLine (lineFound (r.feed (line ++ lineEnd)) line)) r.readIdx = (.code code, next))
    (header : next.checkState = .header) :
    parseRead (r.feed (line ++ lineEnd)) = (.code code, next) ∧ AtLine next ∧ next.readIdx = r.readIdx + (line.length + 2) := by
  have advanced : advance (lineFound (r.feed (line ++ lineEnd)) line) = advanceWith .lineOk (.code code, next) := by
    have found : (lineFound (r.feed (line ++ lineEnd)) line).checkState = .header := state
    have start : (lineFound (r.feed (line ++ lineEnd)) line).startLine = r.readIdx := at_line.start
    simp only [advance, found, start, accepted]
  exact line_consumed r next line code at_line clean (by simp [state]) advanced header

theorem parse_read_then (r next : Request) (front rear : List UInt8) (ordered : Ordered r)
    (first : parseRead (r.feed front) = (.code .noRequest, next)) (outside : next.checkState ≠ .connect) :
    parseRead (r.feed (front ++ rear)) = parseRead (next.feed rear) := by
  have notBody : (parseRead (r.feed front)).2.checkState ≠ .connect := by rwa [first]
  rw [Request.feed_append, parse_read_feed (r.feed front) rear (feed_ordered r front ordered) notBody, first, if_pos rfl]

end WzyServer.Http
