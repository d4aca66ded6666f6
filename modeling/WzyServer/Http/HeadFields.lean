import WzyServer.Http.LineFields

set_option autoImplicit false

namespace WzyServer.Http

open CString Word

def headerLines (headers : List Text) : Text := headers.flatMap fun line => line ++ lineEnd

def behindScheme (scheme target : Text) : Option Text :=
  if strncasecmp target scheme scheme.length then
    (strchr (target.drop scheme.length) slash).map fun host => (target.drop scheme.length).drop host
  else some target

def urlOf (target : Text) : Option Text := (behindScheme (ascii "http://") target).bind (behindScheme (ascii "https://"))

section FirstLine

theorem skip_scheme_text (r : Request) (start : Nat) (scheme target path : Text) (points : r.url = some start)
    (here : TextAt r.readBuf start target) (room : start + target.length < readBufferSize)
    (left : behindScheme scheme target = some path) :
    ∃ url, skipScheme scheme r = .next { r with url := some url } ∧ TextAt r.readBuf url path ∧
      url + path.length = start + target.length := by
  have string := text_at_cstr r.readBuf start target here room
  unfold behindScheme at left
  unfold skipScheme
  by_cases named : strncasecmp target scheme scheme.length = true
  · rw [if_pos named] at left
    obtain ⟨host, found, rfl⟩ := Option.map_eq_some_iff.mp left
    have long := strncasecmp_length target scheme named
    obtain ⟨inside, _⟩ := strchr_found _ _ _ found
    have behind := text_at_drop_take r.readBuf start scheme.length target here long
    have rest := text_at_cstr r.readBuf _ _ behind (by rw [List.length_drop]; omega)
    refine ⟨start + scheme.length + host, ?_, text_at_drop_take r.readBuf _ host _ behind (by omega), ?_⟩
    · simp only [points, string, named, if_true, rest, found, Option.map_some]
    · rw [List.length_drop] at inside
      rw [List.length_drop, List.length_drop]
      omega
  · rw [if_neg named] at left
    cases left
    refine ⟨start, ?_, here, rfl⟩
    simp only [points, string, named, Bool.false_eq_true, if_false]
    rw [← points]

theorem skip_schemes (r : Request) (start : Nat) (target path : Text) (url_of : urlOf target = some path)
    (points : r.url = some start) (here : TextAt r.readBuf start target) (room : start + target.length < readBufferSize) :
    ∃ url, ((skipScheme (ascii "http://") r).bind (skipScheme (ascii "https://"))) = .next { r with url := some url } ∧
      TextAt r.readBuf url path ∧ url + path.length = start + target.length := by
  obtain ⟨middle, first, second⟩ := Option.bind_eq_some_iff.mp url_of
  obtain ⟨between, skipped, middleText, ends⟩ := skip_scheme_text r start _ target middle points here room first
  obtain ⟨url, skippedToo, pathText, endsToo⟩ :=
    skip_scheme_text { r with url := some between } between _ middle path rfl middleText (by omega) second
  exact ⟨url, by rw [skipped, Stage.bind, skippedToo], pathText, by omega⟩

theorem behind_other (scheme target : Text) (other : strncasecmp target scheme scheme.length = false) :
    behindScheme scheme target = some target := by
  rw [behindScheme, other]
  rfl

theorem behind_own (scheme spelled host rest : Text) (same : spelled.map tolower = scheme.map tolower) (single : slash ∉ host) :
    behindScheme scheme (spelled ++ (host ++ slash :: rest)) = some (slash :: rest) := by
  have long : spelled.length = scheme.length := by simpa using congrArg List.length same
  have named : strncasecmp (spelled ++ (host ++ slash :: rest)) scheme scheme.length = true := by
    rw [strncasecmp, ← long, List.take_left, long, List.take_length, same, beq_self_eq_true]
  rw [behindScheme, if_pos named, ← long, List.drop_left, strchr_first host rest slash single, Option.map_some, List.drop_left]

theorem not_scheme (rest scheme : Text) (h : scheme.head? = some 104) : strncasecmp (slash :: rest) scheme scheme.length = false := by
  cases scheme with
  | nil => cases h
  | cons c more =>
      cases Option.some.inj h
      rw [strncasecmp, List.length_cons, List.take_succ_cons, List.take_succ_cons, List.map_cons, List.map_cons]
      exact beq_eq_false_iff_ne.mpr fun same => absurd (List.cons.inj same).1 (by decide)

end FirstLine

section Headers

theorem header_value_at (memory : Memory) (text : Nat) (line name : Text) (here : TextAt memory text line)
    (named : strncasecmp line name name.length = true) (room : text + line.length < readBufferSize) :
    TextAt memory (headerValue memory text name.length)
        ((line.drop name.length).drop (strspn (line.drop name.length) blanks)) ∧
      headerValue memory text name.length + ((line.drop name.length).drop (strspn (line.drop name.length) blanks)).length =
        text + line.length := by
  have long := strncasecmp_length line name named
  have value := text_at_drop_take memory text name.length line here long
  have rest : (line.drop name.length).length = line.length - name.length := List.length_drop
  have string := text_at_cstr memory _ _ value (by omega)
  generalize line.drop name.length = content at value rest string ⊢
  have gap := strspn_bound content blanks
  have dropped := text_at_drop_take memory _ (strspn content blanks) content value gap
  rw [headerValue, string]
  refine ⟨dropped, ?_⟩
  rw [List.length_drop]
  omega

theorem header_value_text (memory : Memory) (text : Nat) (line name : Text) (here : TextAt memory text line)
    (named : strncasecmp line name name.length = true) (room : text + line.length < readBufferSize) :
    cstr memory (headerValue memory text name.length) =
      (line.drop name.length).drop (strspn (line.drop name.length) blanks) := by
  obtain ⟨there, ends⟩ := header_value_at memory text line name here named room
  exact text_at_cstr memory _ _ there (by omega)

structure HeaderText (line : Text) : Prop where
  some : line ≠ []
  clean : ∀ c ∈ line, c ≠ 0 ∧ c ∉ lineEnd

def lengthBehind (length : Int) (line : Text) : Int :=
  if strncasecmp line (ascii "Content-Length:") 15 then
    toInt (toLong (decimal ((line.drop 15).drop (strspn (line.drop 15) blanks))))
  else length

structure HeaderRead (r next : Request) (line : Text) : Prop where
  memory : next.readBuf = r.readBuf
  url : next.url = r.url
  state : next.checkState = r.checkState
  method : next.method = r.method
  length : next.contentLength = lengthBehind r.contentLength line
  linger : r.linger = true ∨ line = ascii "Connection: keep-alive" → next.linger = true
  form : next.cgi = r.cgi

theorem connection_no_length (line : Text) (connection : strncasecmp line (ascii "Connection:") 11 = true) :
    strncasecmp line (ascii "Content-Length:") 15 = false := by
  by_contra both
  rw [Bool.not_eq_false] at both
  unfold strncasecmp at connection both
  have named := congrArg (List.take 11) (eq_of_beq both)
  rw [← List.map_take, List.take_take, ← List.map_take, List.take_take] at named
  have same := (eq_of_beq connection).symm.trans named
  exact absurd same (by decide)

theorem header_text_read (r : Request) (text : Nat) (line : Text) (header : HeaderText line) (here : TextAt r.readBuf text line)
    (room : text + line.length < readBufferSize) :
    ∃ next, parseHeaders r text = (.code .noRequest, next) ∧ HeaderRead r next line := by
  have string := text_at_cstr r.readBuf text line here room
  have begun : r.readBuf text ≠ 0 := by
    have inside : 0 < line.length := List.length_pos_iff.mpr header.some
    have first := here.bytes 0 inside
    rw [Nat.add_zero] at first
    rw [first]
    exact here.clean _ (List.getElem_mem inside)
  unfold parseHeaders
  simp only [if_neg begun, string]
  by_cases connection : strncasecmp line (ascii "Connection:") 11 = true
  · have value := header_value_text r.readBuf text line (ascii "Connection:") here connection room
    have length : r.contentLength = lengthBehind r.contentLength line := by
      rw [lengthBehind, connection_no_length line connection]
      rfl
    change cstr r.readBuf (headerValue r.readBuf text 11) = _ at value
    rw [if_pos connection, value]
    split
    · exact ⟨_, rfl, rfl, rfl, rfl, rfl, length, fun _ => rfl, rfl⟩
    · rename_i other
      refine ⟨_, rfl, rfl, rfl, rfl, rfl, length, fun kept => ?_, rfl⟩
      rcases kept with before | rfl
      · exact before
      · exact absurd (by decide) other
  · have unlike : line ≠ ascii "Connection: keep-alive" := by
      rintro rfl
      exact connection (by decide)
    have lingers : r.linger = true ∨ line = ascii "Connection: keep-alive" → r.linger = true :=
      fun kept => kept.resolve_right unlike
    rw [if_neg connection]
    split
    · rename_i declared
      have value := header_value_text r.readBuf text line (ascii "Content-Length:") here declared room
      change cstr r.readBuf (headerValue r.readBuf text 15) = _ at value
      refine ⟨_, rfl, rfl, rfl, rfl, rfl, ?_, lingers, rfl⟩
      rw [value, lengthBehind, if_pos declared]
      rfl
    · rename_i other
      have length : r.contentLength = lengthBehind r.contentLength line := by
        rw [lengthBehind, if_neg other]
      split
      · exact ⟨_, rfl, rfl, rfl, rfl, rfl, length, lingers, rfl⟩
      · exact ⟨_, rfl, rfl, rfl, rfl, rfl, length, lingers, rfl⟩

theorem blank_line_accepted (r : Request) (text : Nat) (here : TextAt r.readBuf text []) (bodiless : r.contentLength = 0) :
    parseHeaders r text = (.code .getRequest, r) := by
  have ended : r.readBuf text = 0 := here.nul
  unfold parseHeaders
  simp only [if_pos ended, bodiless, ne_eq, not_true_eq_false, if_false]

end Headers

section Whole

theorem request_text_clean (method target : Text) (word : ∀ c ∈ method ++ ascii " HTTP/1.1", c ≠ 0 ∧ c ∉ lineEnd)
    (clean : ∀ c ∈ target, c ≠ 0 ∧ c ∉ lineEnd) : ∀ c ∈ method ++ (target ++ ascii " HTTP/1.1"), c ≠ 0 ∧ c ∉ lineEnd := by
  intro c member
  rcases List.mem_append.mp member with inMethod | rest
  · exact word c (List.mem_append_left _ inMethod)
  · rcases List.mem_append.mp rest with inTarget | inVersion
    · exact clean c inTarget
    · exact word c (List.mem_append_right _ inVersion)

-- `inv` is told the header lines read so far.
theorem header_lines_rule (inv : List Text → Request → Prop) (headers : List Text)
    (inside : ∀ seen r, inv seen r → AtLine r ∧ r.checkState = .header)
    (line_read : ∀ seen r line, line ∈ headers → inv seen r → r.readIdx + line.length < readBufferSize →
      ∃ next, parseRead (r.feed (line ++ lineEnd)) = (.code .noRequest, next) ∧ inv (seen ++ [line]) next ∧
        next.readIdx = r.readIdx + (line.length + 2))
    (seen : List Text) (r : Request) (start : inv seen r) (room : r.readIdx + (headerLines headers).length < readBufferSize) :
    ∃ last, parseRead (r.feed (headerLines headers)) = (.code .noRequest, last) ∧ inv (seen ++ headers) last ∧
      last.readIdx = r.readIdx + (headerLines headers).length := by
  induction headers generalizing seen r with
  | nil =>
      obtain ⟨at_line, state⟩ := inside seen r start
      refine ⟨r, ?_, by rwa [List.append_nil], rfl⟩
      change parseRead (r.feed []) = _
      rw [Request.feed_nil]
      exact parse_read_nothing r at_line.check (at_line_ordered r at_line) (by simp [state])
  | cons line rest ih =>
      have length : (headerLines (line :: rest)).length = (line.length + 2) + (headerLines rest).length := by
        simp only [headerLines, List.flatMap_cons, List.length_append, lineEnd, List.length_cons, List.length_nil]
      rw [length] at room
      obtain ⟨next, first, nextInside, received⟩ := line_read seen r line (List.mem_cons_self ..) start (by omega)
      obtain ⟨last, later, lastInside, all⟩ := ih
        (fun seen r other member => line_read seen r other (List.mem_cons_of_mem line member)) _ next nextInside (by omega)
      rw [List.append_assoc, List.singleton_append] at lastInside
      refine ⟨last, ?_, lastInside, by omega⟩
      rw [← later]
      exact parse_read_then r next _ _ (at_line_ordered r (inside seen r start).1) first (by simp [(inside _ next nextInside).2])

end Whole

end WzyServer.Http
