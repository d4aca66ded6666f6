import WzyServer.Http.RequestLine
import WzyServer.Http.PostRequest

set_option autoImplicit false

namespace WzyServer.Http

open CString Chunks Word

section HeaderLists

def named (name line : Text) : Bool := strncasecmp line name name.length

def fieldValue (name line : Text) : Text := (line.drop name.length).drop (strspn (line.drop name.length) blanks)

def asksKeepAlive (line : Text) : Bool :=
  named (ascii "Connection:") line && strcasecmp (fieldValue (ascii "Connection:") line) (ascii "keep-alive")

def lastNamed (name : Text) (headers : List Text) : Option Text := ((headers.filter (named name)).getLast?).map (fieldValue name)

def lengthOf (headers : List Text) : Int :=
  ((lastNamed (ascii "Content-Length:") headers).map fun value => toInt (toLong (decimal value))).getD 0

theorem last_named_snoc (name line : Text) (seen : List Text) :
    lastNamed name (seen ++ [line]) = if named name line then some (fieldValue name line) else lastNamed name seen := by
  unfold lastNamed
  rw [List.filter_append]
  by_cases here : named name line = true
  · rw [if_pos here, List.filter_cons_of_pos here, List.filter_nil, List.getLast?_concat, Option.map_some]
  · rw [if_neg here, List.filter_cons_of_neg here, List.filter_nil, List.append_nil]

theorem length_of_snoc (line : Text) (seen : List Text) : lengthOf (seen ++ [line]) =
    if named (ascii "Content-Length:") line then toInt (toLong (decimal (fieldValue (ascii "Content-Length:") line)))
    else lengthOf seen := by
  unfold lengthOf
  rw [last_named_snoc]
  split <;> rfl

theorem named_apart (a b line : Text) (count : Nat) (inA : count ≤ a.length) (inB : count ≤ b.length)
    (differ : (a.take count).map tolower ≠ (b.take count).map tolower) (first : named a line = true) : named b line = false := by
  by_contra both
  rw [Bool.not_eq_false] at both
  have sameA := congrArg (List.take count) (eq_of_beq first)
  have sameB := congrArg (List.take count) (eq_of_beq both)
  rw [← List.map_take, List.take_take, ← List.map_take, List.take_take, Nat.min_eq_left inA] at sameA
  rw [← List.map_take, List.take_take, ← List.map_take, List.take_take, Nat.min_eq_left inB] at sameB
  exact differ (sameA.symm.trans sameB)

theorem connection_apart (line : Text) (connection : named (ascii "Connection:") line = true) :
    named (ascii "Content-Length:") line = false ∧ named (ascii "Host:") line = false :=
  ⟨named_apart _ _ line 11 (by decide) (by decide) (by decide) connection,
    named_apart _ _ line 5 (by decide) (by decide) (by decide) connection⟩

theorem length_apart (line : Text) (declared : named (ascii "Content-Length:") line = true) : named (ascii "Host:") line = false :=
  named_apart _ _ line 5 (by decide) (by decide) (by decide) declared

theorem field_value_text (memory : Memory) (text : Nat) (name line : Text) (here : TextAt memory text line)
    (isNamed : named name line = true) (room : text + line.length < readBufferSize) :
    TextAt memory (headerValue memory text name.length) (fieldValue name line) ∧
      headerValue memory text name.length + (fieldValue name line).length = text + line.length :=
  header_value_at memory text line name here isNamed room

end HeaderLists

section HeaderLine

structure HeaderParsed (r next : Request) (text : Nat) (line : Text) : Prop where
  memory : next.readBuf = r.readBuf
  url : next.url = r.url
  state : next.checkState = r.checkState
  method : next.method = r.method
  form : next.cgi = r.cgi
  string : next.string = r.string
  linger : next.linger = (r.linger || asksKeepAlive line)
  length : next.contentLength =
    if named (ascii "Content-Length:") line then toInt (toLong (decimal (fieldValue (ascii "Content-Length:") line)))
    else r.contentLength
  host : next.host = if named (ascii "Host:") line then some (headerValue r.readBuf text (ascii "Host:").length) else r.host

theorem header_line_parsed (r : Request) (text : Nat) (line : Text) (header : HeaderText line) (here : TextAt r.readBuf text line)
    (room : text + line.length < readBufferSize) :
    ∃ next, parseHeaders r text = (.code .noRequest, next) ∧ HeaderParsed r next text line := by
  have string := text_at_cstr r.readBuf text line here room
  have begun : r.readBuf text ≠ 0 := by
    have inside : 0 < line.length := List.length_pos_iff.mpr header.some
    have first := here.bytes 0 inside
    rw [Nat.add_zero] at first
    rw [first]
    exact here.clean _ (List.getElem_mem inside)
  have value : ∀ name : Text, named name line = true →
      cstr r.readBuf (headerValue r.readBuf text name.length) = fieldValue name line := by
    intro name isNamed
    obtain ⟨there, ends⟩ := field_value_text r.readBuf text name line here isNamed room
    exact text_at_cstr r.readBuf _ _ there (by omega)
  have first : strncasecmp line (ascii "Connection:") 11 = named (ascii "Connection:") line := rfl
  have second : strncasecmp line (ascii "Content-Length:") 15 = named (ascii "Content-Length:") line := rfl
  have third : strncasecmp line (ascii "Host:") 5 = named (ascii "Host:") line := rfl
  unfold parseHeaders
  simp only [if_neg begun, string, first, second, third]
  by_cases connection : named (ascii "Connection:") line = true
  · obtain ⟨noLength, noHost⟩ := connection_apart line connection
    have asked := value _ connection
    change cstr r.readBuf (headerValue r.readBuf text 11) = _ at asked
    rw [if_pos connection, asked]
    by_cases keep : strcasecmp (fieldValue (ascii "Connection:") line) (ascii "keep-alive") = true
    · rw [if_pos keep]
      exact ⟨_, rfl, rfl, rfl, rfl, rfl, rfl, rfl, by simp [asksKeepAlive, connection, keep], by simp [noLength], by simp [noHost]⟩
    · rw [if_neg keep]
      exact ⟨_, rfl, rfl, rfl, rfl, rfl, rfl, rfl, by simp [asksKeepAlive, keep], by simp [noLength], by simp [noHost]⟩
  · have other : asksKeepAlive line = false := by simp [asksKeepAlive, connection]
    rw [if_neg connection]
    by_cases declared : named (ascii "Content-Length:") line = true
    · have noHost := length_apart line declared
      have length := value _ declared
      change cstr r.readBuf (headerValue r.readBuf text 15) = _ at length
      rw [if_pos declared, length]
      exact ⟨_, rfl, rfl, rfl, rfl, rfl, rfl, rfl, by simp [other], by simp [declared], by simp [noHost]⟩
    · rw [if_neg declared]
      by_cases host : named (ascii "Host:") line = true
      · rw [if_pos host]
        exact ⟨_, rfl, rfl, rfl, rfl, rfl, rfl, rfl, by simp [other], by simp [declared], by rw [if_pos host]; rfl⟩
      · rw [if_neg host]
        exact ⟨_, rfl, rfl, rfl, rfl, rfl, rfl, rfl, by simp [other], by simp [declared], by simp [host]⟩

end HeaderLine

section FirstLine

structure HeadUntouched (r s : Request) : Prop where
  linger : s.linger = r.linger
  length : s.contentLength = r.contentLength
  host : s.host = r.host
  string : s.string = r.string

theorem line_read_untouched (r s : Request) (read : LineRead r s) : HeadUntouched r s :=
  ⟨by rw [read.same], by rw [read.same], by rw [read.same], by rw [read.same]⟩

theorem method_next (r s : Request) (text : Nat) (read : parseMethod r text = .next s) :
    s.cgi = if s.method = .post then 1 else r.cgi := by
  unfold parseMethod at read
  dsimp only at read
  repeat' split at read
  all_goals cases read
  all_goals rfl

theorem method_done (r s : Request) (text : Nat) (outcome : Outcome) (refused : parseMethod r text = .done outcome s) :
    outcome = .code .badRequest := by
  unfold parseMethod at refused
  dsimp only at refused
  repeat' split at refused
  all_goals cases refused
  all_goals rfl

theorem request_line_form (r next : Request) (text : Nat) (accepted : parseRequestLine r text = (.code .noRequest, next)) :
    HeadUntouched r next ∧ next.cgi = if next.method = .post then 1 else r.cgi := by
  obtain ⟨read, _⟩ := request_line_reads r text
  rw [accepted] at read
  refine ⟨line_read_untouched r next read, ?_⟩
  rw [parseRequestLine, request_line_stages] at accepted
  cases method : parseMethod r text with
  | next s =>
      have url := (url_stages_read s).related
      rw [method, Stage.bind] at accepted
      rw [stage_request, accepted] at url
      rw [url.method, url.cgi]
      exact method_next r s text method
  | done outcome s =>
      rw [method, method_done r s text outcome method] at accepted
      cases accepted

-- The URL that m_url holds: "/" has become the first page.
def pageOf (path : Text) : Text := if path = [slash] then ascii "/judge.html" else path

theorem text_of_cstr (memory : Memory) (address : Nat) (text : Text) (string : cstr memory address = text)
    (room : address + text.length < readBufferSize) : TextAt memory address text := by
  subst string
  refine ⟨fun c member => ?_, fun offset inside => ?_, ?_⟩
  · obtain ⟨offset, inside, rfl⟩ := List.mem_iff_getElem.mp member
    have read := string_at_get memory address _ offset inside
    exact fun nul => read.2 (read.1.symm.trans nul)
  · exact (string_at_get memory address _ offset inside).1.symm
  · exact string_at_nul memory address _ (by unfold cstr at room; omega)

theorem grammar_read (r : Request) (text : Nat) (line path : Text) (method : Method) (parts : Grammar line method path)
    (here : TextAt r.readBuf text line) (room : text + line.length + 1 < readBufferSize) :
    ∃ next url, parseRequestLine r text = (.code .noRequest, next) ∧ next.checkState = .header ∧ next.method = method ∧
      next.url = some url ∧ TextAt next.readBuf url (pageOf path) ∧ url + (pageOf path).length ≤ text + line.length + 1 := by
  obtain ⟨next, url, accepted, header, isMethod, points, string, ends⟩ := grammar_accepted r text line method path parts here room
  have long : (pageOf path).length ≤ path.length + 10 := by
    unfold pageOf
    split
    · rename_i root
      rw [root]
      decide
    · omega
  exact ⟨next, url, accepted, header, isMethod, points, text_of_cstr _ url (pageOf path) string (by omega), by omega⟩

end FirstLine

section Head

structure TextBelow (memory : Memory) (address : Nat) (text : Text) (limit : Nat) : Prop where
  here : TextAt memory address text
  below : address + text.length < limit

theorem text_below_line (r : Request) (address : Nat) (text line : Text) (at_line : AtLine r)
    (stored : TextBelow r.readBuf address text r.readIdx) :
    TextBelow (lineFound (r.feed (line ++ lineEnd)) line).readBuf address text (r.readIdx + (line.length + 2)) := by
  obtain ⟨here, below⟩ := stored
  have check := at_line.check
  refine ⟨text_at_congr r.readBuf address _ text here fun index _ upper => ?_, by omega⟩
  simp only [lineFound, Request.feed_check_idx, Request.feed_read_buf, check]
  rw [store_elsewhere _ _ _ _ (by omega), store_elsewhere _ _ _ _ (by omega), write_before _ _ _ _ (by omega)]

def HostStored (r : Request) (name : Option Text) (limit : Nat) : Prop :=
  match name with
  | none => r.host = none
  | some name => ∃ host, r.host = some host ∧ TextBelow r.readBuf host name limit

structure InMessage (slot : Request) (asked : Method) (path : Text) (seen : List Text) (r : Request) : Prop extends AtLine r where
  state : r.checkState = .header
  method : r.method = asked
  form : r.cgi = if asked = .post then 1 else slot.cgi
  string : r.string = slot.string
  url : ∃ url, r.url = some url ∧ TextBelow r.readBuf url (pageOf path) r.readIdx
  linger : r.linger = seen.any asksKeepAlive
  length : r.contentLength = lengthOf seen
  host : HostStored r (lastNamed (ascii "Host:") seen) r.readIdx

theorem in_message_outside (slot r : Request) (method : Method) (path : Text) (seen : List Text)
    (inside : InMessage slot method path seen r) : r.checkState ≠ .connect := by
  rw [inside.state]
  decide

theorem message_line_read (slot : Request) (line path : Text) (method : Method) (parts : Grammar line method path)
    (clean : ∀ c ∈ line, c ≠ 0 ∧ c ∉ lineEnd) (room : line.length + 1 < readBufferSize) :
    ∃ next, parseRead (slot.init.feed (line ++ lineEnd)) = (.code .noRequest, next) ∧ InMessage slot method path [] next ∧
      next.readIdx = line.length + 2 := by
  have here := line_found_text slot.init line ⟨rfl, rfl⟩ fun c member => (clean c member).1
  obtain ⟨next, url, accepted, header, isMethod, points, pageText, below⟩ := grammar_read
    (beginLine (lineFound (slot.init.feed (line ++ lineEnd)) line)) 0 line path method parts here (by omega)
  obtain ⟨untouched, form⟩ := request_line_form _ next 0 accepted
  obtain ⟨read, next_line, received⟩ := request_line_consumed slot next line (fun c member => (clean c member).2) accepted header
  refine ⟨next, read, ⟨next_line, header, isMethod, ?_, untouched.string, ⟨url, points, pageText, by omega⟩, untouched.linger,
    untouched.length, untouched.host⟩, received⟩
  rw [form, isMethod]
  rfl

theorem message_header_read (slot r : Request) (method : Method) (path line : Text) (seen : List Text)
    (inside : InMessage slot method path seen r) (header : HeaderText line) (room : r.readIdx + line.length < readBufferSize) :
    ∃ next, parseRead (r.feed (line ++ lineEnd)) = (.code .noRequest, next) ∧ InMessage slot method path (seen ++ [line]) next ∧
      next.readIdx = r.readIdx + (line.length + 2) := by
  have at_line := inside.toAtLine
  have here := line_found_text r line at_line fun c member => (header.clean c member).1
  obtain ⟨next, accepted, parsed⟩ :=
    header_line_parsed (beginLine (lineFound (r.feed (line ++ lineEnd)) line)) r.readIdx line header here room
  have state := parsed.state.trans inside.state
  obtain ⟨read, next_line, received⟩ := header_line_consumed r next line .noRequest at_line inside.state
    (fun c member => (header.clean c member).2) accepted state
  have kept : ∀ address text, TextBelow r.readBuf address text r.readIdx → TextBelow next.readBuf address text next.readIdx := by
    intro address text stored
    rw [parsed.memory, received]
    exact text_below_line r address text line at_line stored
  obtain ⟨url, points, stored⟩ := inside.url
  refine ⟨next, read, ⟨next_line, state, parsed.method.trans inside.method, parsed.form.trans inside.form,
    parsed.string.trans inside.string, ⟨url, parsed.url.trans points, kept url _ stored⟩, ?_, ?_, ?_⟩, received⟩
  · rw [parsed.linger, List.any_append, List.any_cons, List.any_nil, Bool.or_false]
    exact congrArg (· || asksKeepAlive line) inside.linger
  · rw [parsed.length, length_of_snoc]
    split
    · rfl
    · exact inside.length
  · rw [last_named_snoc]
    have host := parsed.host
    by_cases isHost : named (ascii "Host:") line = true
    · rw [if_pos isHost] at host ⊢
      obtain ⟨there, ends⟩ := field_value_text _ r.readIdx (ascii "Host:") line here isHost room
      refine ⟨_, host, ?_, ?_⟩
      · rw [parsed.memory]
        exact there
      · rw [received]
        change headerValue (lineFound (r.feed (line ++ lineEnd)) line).readBuf r.readIdx (ascii "Host:").length + _ < _
        omega
    · rw [if_neg isHost] at host ⊢
      have before := inside.host
      cases last : lastNamed (ascii "Host:") seen with
      | none =>
          rw [last] at before
          exact host.trans before
      | some name =>
          rw [last] at before
          obtain ⟨address, stored, text⟩ := before
          exact ⟨address, host.trans stored, kept address name text⟩

theorem message_headers_read (slot r : Request) (method : Method) (path : Text) (headers : List Text)
    (inside : InMessage slot method path [] r) (lines : ∀ line ∈ headers, HeaderText line)
    (room : r.readIdx + (headerLines headers).length < readBufferSize) :
    ∃ last, parseRead (r.feed (headerLines headers)) = (.code .noRequest, last) ∧ InMessage slot method path headers last ∧
      last.readIdx = r.readIdx + (headerLines headers).length :=
  header_lines_rule (fun seen s => InMessage slot method path seen s) headers (fun _ _ kept => ⟨kept.toAtLine, kept.state⟩)
    (fun seen s line member kept fits => message_header_read slot s method path line seen kept (lines line member) fits)
    [] r inside room

end Head

-- A request as a client writes it. Only a POST has a body, of the length its last
-- Content-Length gives.
structure RequestMessage where
  line : Text
  method : Method
  path : Text
  headers : List Text
  body : Text
  parts : Grammar line method path
  clean : ∀ c ∈ line, c ≠ 0 ∧ c ∉ lineEnd
  lines : ∀ header ∈ headers, HeaderText header
  announced : lengthOf headers = body.length
  posted : body ≠ [] → method = .post
  short : (line ++ lineEnd ++ headerLines headers ++ (lineEnd ++ body)).length < readBufferSize

def RequestMessage.head (message : RequestMessage) : Text := message.line ++ lineEnd ++ headerLines message.headers

def RequestMessage.bytes (message : RequestMessage) : Text := message.head ++ (lineEnd ++ message.body)

structure Understood (slot : Request) (message : RequestMessage) (r : Request) : Prop where
  method : r.method = message.method
  form : r.cgi = if message.method = .post then 1 else slot.cgi
  url : ∃ url, r.url = some url ∧ TextAt r.readBuf url (pageOf message.path) ∧
    url + (pageOf message.path).length < message.head.length
  linger : r.linger = message.headers.any asksKeepAlive
  length : r.contentLength = message.body.length
  host : r.host.map (cstr r.readBuf) = lastNamed (ascii "Host:") message.headers
  body : if message.body = [] then r.string = slot.string else
    ∃ text, r.string = some text ∧ text + message.body.length < readBufferSize ∧
      read r.readBuf text message.body.length = message.body ∧ r.readBuf (text + message.body.length) = 0

-- How a message comes in: batches that leave it unfinished, and the last one. A body
-- must not be cut where parse_line would go on into it.
structure Delivery (message : RequestMessage) where
  batches : List Text
  last : Text
  some_left : last ≠ []
  whole : batches.flatten ++ last = message.bytes
  harmless : message.body ≠ [] → CutsHarmless message.head batches

section Whole

variable (slot : Request) (message : RequestMessage)

theorem message_length : message.bytes.length = message.head.length + 2 + message.body.length := by
  simp only [RequestMessage.bytes, List.length_append, lineEnd, List.length_cons, List.length_nil]
  omega

theorem message_short : message.head.length + 2 + message.body.length < readBufferSize := by
  rw [← message_length]
  exact message.short

theorem message_head_read : ∃ last, parseRead (slot.init.feed message.head) = (.code .noRequest, last) ∧
    InMessage slot message.method message.path message.headers last ∧ last.readIdx = message.head.length := by
  have short := message_short message
  have length : message.head.length = message.line.length + 2 + (headerLines message.headers).length := by
    simp only [RequestMessage.head, List.length_append, lineEnd, List.length_cons, List.length_nil]
  obtain ⟨first, lineRead, firstInside, firstReceived⟩ :=
    message_line_read slot message.line message.path message.method message.parts message.clean (by omega)
  obtain ⟨last, headersRead, lastInside, received⟩ :=
    message_headers_read slot first message.method message.path message.headers firstInside message.lines (by omega)
  refine ⟨last, ?_, lastInside, by omega⟩
  rw [RequestMessage.head, parse_read_then slot.init first _ _ (init_ordered slot) lineRead
    (in_message_outside slot first _ _ _ firstInside)]
  exact headersRead

theorem understood_behind (last r : Request) (inside : InMessage slot message.method message.path message.headers last)
    (received : last.readIdx = message.head.length)
    (memory : ∀ index, index < message.head.length → last.readBuf index = r.readBuf index)
    (method : r.method = last.method) (form : r.cgi = last.cgi) (url : r.url = last.url) (linger : r.linger = last.linger)
    (length : r.contentLength = last.contentLength) (host : r.host = last.host)
    (body : if message.body = [] then r.string = slot.string else
      ∃ text, r.string = some text ∧ text + message.body.length < readBufferSize ∧
        read r.readBuf text message.body.length = message.body ∧ r.readBuf (text + message.body.length) = 0) :
    Understood slot message r := by
  have short := message_short message
  have kept : ∀ address text, TextBelow last.readBuf address text last.readIdx → TextAt r.readBuf address text := by
    rintro address text ⟨here, below⟩
    exact text_at_congr last.readBuf address r.readBuf text here fun index _ upper => memory index (by omega)
  obtain ⟨address, points, stored⟩ := inside.url
  have limit := stored.below
  refine ⟨method.trans inside.method, form.trans inside.form, ⟨address, url.trans points, kept address _ stored, by omega⟩,
    linger.trans inside.linger, (length.trans inside.length).trans message.announced, ?_, body⟩
  have named := inside.host
  rw [host]
  cases hosts : lastNamed (ascii "Host:") message.headers with
  | none =>
      rw [hosts] at named
      rw [show last.host = none from named, Option.map_none]
  | some name =>
      rw [hosts] at named
      obtain ⟨at_host, hostPoints, hostStored⟩ := named
      have below := hostStored.below
      rw [hostPoints, Option.map_some, text_at_cstr r.readBuf at_host name (kept at_host name hostStored) (by omega)]

theorem bodiless_read (bodiless : message.body = []) : ∃ r, parseRead (slot.init.feed message.bytes) = (.code .getRequest, r) ∧
    r.checkIdx = message.bytes.length ∧ r.checkState = .header ∧ Understood slot message r := by
  obtain ⟨last, headRead, inside, received⟩ := message_head_read slot message
  have at_line := inside.toAtLine
  have here := line_found_text last [] at_line fun c member => absurd member List.not_mem_nil
  have noLength : last.contentLength = 0 := by
    rw [inside.length, message.announced, bodiless]
    rfl
  have accepted := blank_line_accepted (beginLine (lineFound (last.feed lineEnd) [])) last.readIdx here noLength
  obtain ⟨read, next_line, consumed⟩ := header_line_consumed last _ [] .getRequest at_line inside.state
    (fun c member => absurd member List.not_mem_nil) accepted inside.state
  have whole : message.bytes = message.head ++ lineEnd := by rw [RequestMessage.bytes, bodiless, List.append_nil]
  refine ⟨beginLine (lineFound (last.feed lineEnd) []), ?_, ?_, inside.state, ?_⟩
  · rw [whole, parse_read_then slot.init last _ _ (init_ordered slot) headRead (in_message_outside slot last _ _ _ inside)]
    exact read
  · rw [next_line.check, consumed, received, whole]
    simp only [List.length_append, lineEnd, List.length_cons, List.length_nil]
  · refine understood_behind slot message last _ inside received ?_ rfl rfl rfl rfl rfl rfl ?_
    · intro index before
      have check := at_line.check
      simp only [beginLine, lineFound, Request.feed_check_idx, Request.feed_read_buf, check]
      rw [store_elsewhere _ _ _ _ (by omega), store_elsewhere _ _ _ _ (by omega), write_before _ _ _ _ (by omega)]
    · rw [if_pos bodiless]
      exact inside.string

theorem message_post_head (some_body : message.body ≠ []) : PostHead slot message.head message.body.length := by
  obtain ⟨last, headRead, inside, received⟩ := message_head_read slot message
  constructor
  · rw [headRead]
  · rw [headRead]
    exact inside.state
  · rw [headRead]
    exact inside.start.trans received
  · rw [headRead]
    exact inside.method.trans (message.posted some_body)
  · rw [headRead]
    exact inside.length.trans message.announced

theorem body_read (some_body : message.body ≠ []) :
    ∃ r, parseRead (slot.init.feed message.bytes) = (.code .getRequest, r) ∧ Understood slot message r := by
  have post := message_post_head slot message some_body
  have short := message_short message
  have positive := List.length_pos_iff.mpr some_body
  obtain ⟨last, headRead, inside, received⟩ := message_head_read slot message
  have start := body_start_read_idx slot message.head message.body.length post []
  simp only [Request.feed_nil, List.length_nil, Nat.add_zero] at start
  have byte := body_start_byte slot message.head message.body.length post message.body
  rw [RequestMessage.bytes, blank_line_reached slot message.head message.body.length positive post,
    whole_body_read slot message.head message.body post short]
  refine ⟨_, rfl, understood_behind slot message last _ inside received ?_ ?_ ?_ ?_ ?_ ?_ ?_ ?_⟩
  · intro index before
    simp only
    rw [store_elsewhere _ _ _ _ (by omega), Request.feed_read_buf, start, write_before _ _ _ _ (by omega), bodyStart, headRead]
    simp only
    rw [store_elsewhere _ _ _ _ (by omega), store_elsewhere _ _ _ _ (by omega), Request.feed_read_buf, received,
      write_before _ _ _ _ before]
  all_goals try rw [bodyStart, headRead]; rfl
  rw [if_neg some_body]
  refine ⟨message.head.length + 2, rfl, short, ?_, store_here _ _ _⟩
  apply List.ext_getElem (read_length _ _ _)
  intro offset inBody _
  rw [read_length] at inBody
  simp only [CString.read, List.getElem_map, List.getElem_range]
  rw [store_elsewhere _ _ _ _ (by omega)]
  exact byte offset inBody

theorem message_read : ∃ r, parseRead (slot.init.feed message.bytes) = (.code .getRequest, r) ∧ Understood slot message r := by
  by_cases bodiless : message.body = []
  · obtain ⟨r, read, _, _, understood⟩ := bodiless_read slot message bodiless
    exact ⟨r, read, understood⟩
  · exact body_read slot message bodiless

theorem bodiless_outside (bodiless : message.body = []) (early late : Text) (whole : early ++ late = message.bytes) :
    (parseRead (slot.init.feed early)).2.checkState ≠ .connect := by
  intro inBody
  have still := parse_read_feed_body (slot.init.feed early) late (feed_ordered _ early (init_ordered slot)) inBody
  obtain ⟨r, answered, _, state, _⟩ := bodiless_read slot message bodiless
  rw [← Request.feed_append, whole, answered] at still
  exact absurd (state.symm.trans still) (by decide)

theorem bodiless_waits (bodiless : message.body = []) (early late : Text) (whole : early ++ late = message.bytes)
    (some_left : late ≠ []) : (parseRead (slot.init.feed early)).1 = .code .noRequest := by
  obtain ⟨r, answered, check, _, _⟩ := bodiless_read slot message bodiless
  refine part_waits slot.init early late (init_ordered slot) some_left
    (bodiless_outside slot message bodiless early late whole) ?_
  rw [whole, answered]
  exact check.trans (Nat.zero_add _).symm

theorem bodiless_resumes (bodiless : message.body = []) (batches : List Text) (late : Text) (some_left : late ≠ [])
    (whole : batches.flatten ++ late = message.bytes) : (receive slot.init batches).1 = .code .noRequest ∧
      ∀ more rest, more ++ rest = late →
        parseRead ((receive slot.init batches).2.feed more) = parseRead (slot.init.feed (batches.flatten ++ more)) := by
  induction batches using List.reverseRecOn generalizing late with
  | nil => exact ⟨rfl, fun _ _ _ => rfl⟩
  | append_singleton batches batch ih =>
      have flat : (batches ++ [batch]).flatten = batches.flatten ++ batch := by simp
      rw [flat, List.append_assoc] at whole
      obtain ⟨waiting, resumes⟩ := ih (batch ++ late) (by simp [some_left]) whole
      have reached : receive slot.init (batches ++ [batch]) = parseRead (slot.init.feed (batches.flatten ++ batch)) := by
        rw [receive_append slot.init batches batch waiting]
        exact resumes batch late rfl
      rw [← List.append_assoc] at whole
      have again := bodiless_waits slot message bodiless _ late whole some_left
      rw [reached, flat]
      refine ⟨again, fun more rest split => ?_⟩
      have outside := bodiless_outside slot message bodiless _ late whole
      have resumed := parse_read_feed _ more (feed_ordered _ (batches.flatten ++ batch) (init_ordered slot)) outside
      rw [if_pos again, ← Request.feed_append] at resumed
      exact resumed.symm

theorem delivery_resumes (delivery : Delivery message) : (receive slot.init delivery.batches).1 = .code .noRequest ∧
    parseRead ((receive slot.init delivery.batches).2.feed delivery.last) =
      parseRead (slot.init.feed (delivery.batches.flatten ++ delivery.last)) := by
  obtain ⟨batches, last, some_left, whole, harmless⟩ := delivery
  dsimp only
  by_cases bodiless : message.body = []
  · obtain ⟨waiting, resumes⟩ := bodiless_resumes slot message bodiless batches last some_left whole
    exact ⟨waiting, resumes last [] (List.append_nil last)⟩
  · obtain ⟨waiting, resumes, _⟩ := reception_of_batches slot message.head message.body (List.length_pos_iff.mpr bodiless)
      (message_post_head slot message bodiless) (message_short message) batches last some_left whole
    exact ⟨waiting, resumes (harmless bodiless) last⟩

theorem delivery_served (delivery : Delivery message) :
    ∃ r, receive slot.init (delivery.batches ++ [delivery.last]) = (.code .getRequest, r) ∧ Understood slot message r := by
  obtain ⟨waiting, resumes⟩ := delivery_resumes slot message delivery
  obtain ⟨r, read, understood⟩ := message_read slot message
  refine ⟨r, ?_, understood⟩
  rw [receive_append slot.init delivery.batches delivery.last waiting, resumes, delivery.whole, read]

theorem message_received (delivery : Delivery message) :
    (receive slot.init delivery.batches).1 = .code .noRequest ∧
      ∃ r, receive slot.init (delivery.batches ++ [delivery.last]) = (.code .getRequest, r) ∧ Understood slot message r :=
  ⟨(delivery_resumes slot message delivery).1, delivery_served slot message delivery⟩

end Whole

def loginMessage : RequestMessage where
  line := ascii "post \tHTTP://localhost/a/2 HTTP/1.1"
  method := .post
  path := ascii "/a/2"
  headers := [ascii "Host: first", ascii "content-length: 3", ascii "Connection:\tKEEP-ALIVE", ascii "Content-Length: 17",
    ascii "host:second"]
  body := ascii "user=1&password=2"
  parts := by
    refine ⟨ascii "HTTP://localhost/a/2", ⟨by decide +kernel, by decide +kernel, ascii "post", ascii " \t", ascii " ",
      ascii "HTTP/1.1", by decide +kernel, by decide +kernel, by decide +kernel, ⟨by decide, by decide +kernel⟩,
      ⟨by decide, by decide +kernel⟩, by decide +kernel⟩, ?_, by decide +kernel⟩
    exact .behind (ascii "HTTP://") (ascii "localhost") (ascii "/a/2") (by decide +kernel) (by decide +kernel) (by decide +kernel)
  clean := by decide +kernel
  lines := by
    intro header member
    simp only [List.mem_cons, List.not_mem_nil, or_false] at member
    rcases member with rfl | rfl | rfl | rfl | rfl <;> exact ⟨by decide +kernel, by decide +kernel⟩
  announced := by decide +kernel
  posted := fun _ => rfl
  short := by decide +kernel

def loginDelivery : Delivery loginMessage where
  batches := [loginMessage.bytes.take 40, (loginMessage.bytes.take 90).drop 40]
  last := loginMessage.bytes.drop 90
  some_left := by decide +kernel
  whole := by decide +kernel
  harmless := by
    intro _ early part within cut
    have long := congrArg List.length cut
    have short : early.flatten.length ≤ 90 := by
      obtain ⟨rest, all⟩ := within
      have inside := congrArg (fun batches : List Text => batches.flatten.length) all
      simp only [List.flatten_append, List.length_append] at inside
      have total : [loginMessage.bytes.take 40, (loginMessage.bytes.take 90).drop 40].flatten.length = 90 := by decide +kernel
      omega
    have head : loginMessage.head.length = 126 := by decide +kernel
    rw [List.length_append, head] at long
    omega

end WzyServer.Http
