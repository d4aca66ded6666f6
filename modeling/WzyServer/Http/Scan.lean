import WzyServer.Http.Frame

set_option autoImplicit false

namespace WzyServer.Http

open CString

theorem header_value_below (memory : Memory) (text stop : Nat) (name : List UInt8) (lined : Lined memory stop)
    (below : text ≤ stop + 1) (matching : strncasecmp (cstr memory text) name name.length = true) :
    text + name.length ≤ stop + 1 ∧ headerValue memory text name.length ≤ stop + 1 := by
  have long := strncasecmp_length _ _ matching
  have bound := lined_cstr_length memory text stop lined below
  have rest := lined_cstr_length memory (text + name.length) stop lined (by omega)
  have spanned := strspn_bound (cstr memory (text + name.length)) blanks
  unfold headerValue
  omega

theorem header_value_write (memory : Memory) (edge : Nat) (bytes : List UInt8) (text stop n : Nat)
    (lined : Lined memory stop) (inside : stop + 1 < edge) (below : text + n ≤ stop + 1) :
    headerValue (write memory edge bytes) text n = headerValue memory text n := by
  simp only [headerValue, lined_cstr_write memory edge bytes (text + n) stop lined inside below]

theorem parse_headers_feed (r : Request) (bytes : List UInt8) (text stop : Nat) (lined : Lined r.readBuf stop)
    (inside : stop + 1 < r.readIdx) (below : text ≤ stop + 1) :
    parseHeaders (r.feed bytes) text = fed bytes (parseHeaders r text) := by
  have sameByte : (r.feed bytes).readBuf text = r.readBuf text := r.feed_below bytes text (by omega)
  have sameLine : cstr (r.feed bytes).readBuf text = cstr r.readBuf text :=
    lined_cstr_write r.readBuf r.readIdx bytes text stop lined inside below
  have value : ∀ name : List UInt8, strncasecmp (cstr r.readBuf text) name name.length = true →
      headerValue (r.feed bytes).readBuf text name.length = headerValue r.readBuf text name.length ∧
        cstr (r.feed bytes).readBuf (headerValue r.readBuf text name.length) =
          cstr r.readBuf (headerValue r.readBuf text name.length) := by
    intro name matching
    obtain ⟨nameBelow, valueBelow⟩ := header_value_below r.readBuf text stop name lined below matching
    exact ⟨header_value_write r.readBuf r.readIdx bytes text stop _ lined inside nameBelow,
      lined_cstr_write r.readBuf r.readIdx bytes _ stop lined inside valueBelow⟩
  unfold parseHeaders
  simp only [sameByte, sameLine]
  by_cases blank : r.readBuf text = 0
  · by_cases body : r.contentLength = 0
    · simp [blank, body, fed]
    · simp [blank, body, fed, Request.feed]
  · simp only [if_neg blank]
    by_cases connection : strncasecmp (cstr r.readBuf text) (ascii "Connection:") 11 = true
    · obtain ⟨sameValue, sameText⟩ : headerValue (r.feed bytes).readBuf text 11 = headerValue r.readBuf text 11 ∧
          cstr (r.feed bytes).readBuf (headerValue r.readBuf text 11) = cstr r.readBuf (headerValue r.readBuf text 11) :=
        value (ascii "Connection:") connection
      simp only [if_pos connection, sameValue, sameText]
      split <;> rfl
    · simp only [if_neg connection]
      by_cases length : strncasecmp (cstr r.readBuf text) (ascii "Content-Length:") 15 = true
      · obtain ⟨sameValue, sameText⟩ : headerValue (r.feed bytes).readBuf text 15 = headerValue r.readBuf text 15 ∧
            cstr (r.feed bytes).readBuf (headerValue r.readBuf text 15) = cstr r.readBuf (headerValue r.readBuf text 15) :=
          value (ascii "Content-Length:") length
        simp only [if_pos length, sameValue, sameText]
        rfl
      · simp only [if_neg length]
        by_cases host : strncasecmp (cstr r.readBuf text) (ascii "Host:") 5 = true
        · have sameValue : headerValue (r.feed bytes).readBuf text 5 = headerValue r.readBuf text 5 :=
            (value (ascii "Host:") host).1
          simp only [if_pos host, sameValue]
          rfl
        · simp only [if_neg host]
          rfl

theorem parse_line_from_skip (unread : Nat) (r : Request) (notReturn : r.readBuf r.checkIdx ≠ carriageReturn)
    (notFeed : r.readBuf r.checkIdx ≠ lineFeed) :
    parseLineFrom (unread + 1) r = parseLineFrom unread { r with checkIdx := r.checkIdx + 1 } := by
  simp [parseLineFrom, notReturn, notFeed]

theorem parse_line_from_cases (unread : Nat) (r : Request) (fits : r.checkIdx + unread = r.readIdx) :
    (∃ status, status ≠ .lineOk ∧ ∃ index, r.checkIdx ≤ index ∧ index ≤ r.readIdx ∧
      parseLineFrom unread r = (status, { r with checkIdx := index })) ∨
    (∃ stop, r.checkIdx ≤ stop + 1 ∧ stop + 2 ≤ r.readIdx ∧ parseLineFrom unread r = (.lineOk,
      { r with readBuf := store (store r.readBuf stop 0) (stop + 1) 0, checkIdx := stop + 2 })) := by
  induction unread generalizing r with
  | zero => exact .inl ⟨.lineOpen, by decide, r.checkIdx, by omega, by omega, rfl⟩
  | succ unread ih =>
      unfold parseLineFrom
      by_cases isReturn : r.readBuf r.checkIdx = carriageReturn
      · simp only [if_pos isReturn]
        by_cases last : r.checkIdx + 1 = r.readIdx
        · exact .inl ⟨.lineOpen, by decide, r.checkIdx, by omega, by omega, by simp [last]⟩
        · by_cases feed : r.readBuf (r.checkIdx + 1) = lineFeed
          · exact .inr ⟨r.checkIdx, by omega, by omega, by simp [last, feed]⟩
          · exact .inl ⟨.lineBad, by decide, r.checkIdx, by omega, by omega, by simp [last, feed]⟩
      · simp only [if_neg isReturn]
        by_cases isFeed : r.readBuf r.checkIdx = lineFeed
        · simp only [if_pos isFeed]
          by_cases after : 1 < r.checkIdx ∧ r.readBuf (r.checkIdx - 1) = carriageReturn
          · refine .inr ⟨r.checkIdx - 1, by omega, by omega, ?_⟩
            have step : r.checkIdx - 1 + 1 = r.checkIdx := by omega
            simp [after, step, show r.checkIdx - 1 + 2 = r.checkIdx + 1 by omega]
          · exact .inl ⟨.lineBad, by decide, r.checkIdx, by omega, by omega, by simp [after]⟩
        · simp only [if_neg isFeed]
          rcases ih { r with checkIdx := r.checkIdx + 1 } (by simp only; omega) with
            ⟨status, notOk, index, lower, upper, result⟩ | ⟨stop, lower, upper, result⟩
          · exact .inl ⟨status, notOk, index, by simp only at lower; omega, upper, result⟩
          · exact .inr ⟨stop, by simp only at lower; omega, upper, result⟩

theorem parse_line_from_feed (unread : Nat) (r : Request) (bytes : List UInt8) (fits : r.checkIdx + unread = r.readIdx) :
    parseLineFrom (unread + bytes.length) (r.feed bytes) =
      if (parseLineFrom unread r).1 = .lineOpen then parseLine ((parseLineFrom unread r).2.feed bytes)
      else ((parseLineFrom unread r).1, (parseLineFrom unread r).2.feed bytes) := by
  induction unread generalizing r with
  | zero =>
      have none : (r.feed bytes).readIdx - (r.feed bytes).checkIdx = 0 + bytes.length := by
        simp only [Request.feed]
        omega
      simp only [parseLineFrom, parseLine, none, if_true]
  | succ unread ih =>
      have here := write_before r.readBuf r.readIdx r.checkIdx bytes (by omega)
      have whole : (r.feed bytes).readIdx - (r.feed bytes).checkIdx = unread + bytes.length + 1 := by
        simp only [Request.feed]
        omega
      rw [show unread + 1 + bytes.length = unread + bytes.length + 1 by omega]
      by_cases isReturn : r.readBuf r.checkIdx = carriageReturn
      · by_cases last : r.checkIdx + 1 = r.readIdx
        · have pending : parseLineFrom (unread + 1) r = (.lineOpen, r) := by simp [parseLineFrom, isReturn, last]
          simp only [pending, if_true, parseLine, whole]
        · have next := write_before r.readBuf r.readIdx (r.checkIdx + 1) bytes (by omega)
          have later : ¬ r.checkIdx + 1 = r.readIdx + bytes.length := by omega
          by_cases newline : r.readBuf (r.checkIdx + 1) = lineFeed
          · simp [parseLineFrom, here, next, isReturn, last, later, newline, Request.feed,
              store_write_comm _ r.readIdx (r.checkIdx + 1) 0 bytes (by omega),
              store_write_comm _ r.readIdx r.checkIdx 0 bytes (by omega)]
          · simp [parseLineFrom, here, next, isReturn, last, later, newline]
      · by_cases isFeed : r.readBuf r.checkIdx = lineFeed
        · have before := write_before r.readBuf r.readIdx (r.checkIdx - 1) bytes (by omega)
          have notReturn : ¬ lineFeed = carriageReturn := by decide
          by_cases after : 1 < r.checkIdx ∧ r.readBuf (r.checkIdx - 1) = carriageReturn
          · simp [parseLineFrom, here, before, isFeed, notReturn, after, Request.feed,
              store_write_comm _ r.readIdx r.checkIdx 0 bytes (by omega),
              store_write_comm _ r.readIdx (r.checkIdx - 1) 0 bytes (by omega)]
          · simp [parseLineFrom, here, before, isFeed, notReturn, after]
        · have stepped := ih { r with checkIdx := r.checkIdx + 1 } (by simp only; omega)
          rw [parse_line_from_skip unread r isReturn isFeed,
            parse_line_from_skip _ (r.feed bytes) (by simpa [here] using isReturn) (by simpa [here] using isFeed)]
          exact stepped

theorem parse_line_feed (r : Request) (bytes : List UInt8) (ordered : r.checkIdx ≤ r.readIdx) :
    parseLine (r.feed bytes) =
      if (parseLine r).1 = .lineOpen then parseLine ((parseLine r).2.feed bytes)
      else ((parseLine r).1, (parseLine r).2.feed bytes) := by
  have whole : (r.feed bytes).readIdx - (r.feed bytes).checkIdx = r.readIdx - r.checkIdx + bytes.length := by
    simp only [Request.feed]
    omega
  have resumed := parse_line_from_feed (r.readIdx - r.checkIdx) r bytes (by omega)
  rw [← whole] at resumed
  exact resumed

theorem parse_line_from_bad (unread : Nat) (r : Request) (fits : r.checkIdx + unread = r.readIdx)
    (bad : (parseLineFrom unread r).1 = .lineBad) :
    parseLine (parseLineFrom unread r).2 = (.lineBad, (parseLineFrom unread r).2) := by
  induction unread generalizing r with
  | zero => cases bad
  | succ unread ih =>
      have whole : r.readIdx - r.checkIdx = unread + 1 := by omega
      by_cases skipped : r.readBuf r.checkIdx ≠ carriageReturn ∧ r.readBuf r.checkIdx ≠ lineFeed
      · rw [parse_line_from_skip unread r skipped.1 skipped.2] at bad ⊢
        exact ih { r with checkIdx := r.checkIdx + 1 } (by simp only; omega) bad
      · have stuck : parseLineFrom (unread + 1) r = (.lineBad, r) := by
          revert bad
          simp only [parseLineFrom]
          split
          · split
            · simp
            · split <;> simp
          · split
            · split <;> simp
            · rename_i notReturn notFeed
              exact absurd ⟨notReturn, notFeed⟩ skipped
        rw [stuck, parseLine, whole, stuck]

theorem parse_line_bad (r : Request) (ordered : r.checkIdx ≤ r.readIdx) (bad : (parseLine r).1 = .lineBad) :
    parseLine (parseLine r).2 = (.lineBad, (parseLine r).2) :=
  parse_line_from_bad (r.readIdx - r.checkIdx) r (by omega) bad

theorem parse_line_ok (r : Request) (ordered : r.checkIdx ≤ r.readIdx) (ok : (parseLine r).1 = .lineOk) :
    ∃ stop, r.checkIdx ≤ stop + 1 ∧ stop + 2 ≤ r.readIdx ∧
      (parseLine r).2 = { r with readBuf := store (store r.readBuf stop 0) (stop + 1) 0, checkIdx := stop + 2 } := by
  rcases parse_line_from_cases (r.readIdx - r.checkIdx) r (by omega) with
    ⟨status, notOk, index, _, _, result⟩ | ⟨stop, lower, upper, result⟩
  · rw [parseLine, result] at ok
    exact absurd ok notOk
  · exact ⟨stop, lower, upper, by rw [parseLine, result]⟩

theorem parse_line_pending (r : Request) (ordered : r.checkIdx ≤ r.readIdx) (notOk : (parseLine r).1 ≠ .lineOk) :
    ∃ index, r.checkIdx ≤ index ∧ index ≤ r.readIdx ∧ (parseLine r).2 = { r with checkIdx := index } := by
  rcases parse_line_from_cases (r.readIdx - r.checkIdx) r (by omega) with
    ⟨status, _, index, lower, upper, result⟩ | ⟨stop, _, _, result⟩
  · exact ⟨index, lower, upper, by rw [parseLine, result]⟩
  · rw [parseLine, result] at notOk
    exact absurd rfl notOk

theorem lined_after_line (memory : Memory) (stop : Nat) : Lined (store (store memory stop 0) (stop + 1) 0) stop :=
  ⟨by rw [store_elsewhere _ _ _ _ (by omega), store_here], store_here _ _ _⟩

end WzyServer.Http
