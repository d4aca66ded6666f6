import WzyServer.Http.Body
import WzyServer.Http.HeadFields

set_option autoImplicit false

namespace WzyServer.Http

open CString Chunks Word

def postLine (target : Text) : Text := ascii "POST " ++ (target ++ ascii " HTTP/1.1")

def postHead (target : Text) (headers : List Text) : Text := postLine target ++ lineEnd ++ headerLines headers

structure PostTarget (target path : Text) : Prop where
  url : urlOf target = some path
  rooted : path.head? = some slash
  clean : ∀ c ∈ target, c ≠ 0 ∧ c ∉ lineEnd ∧ c ∉ blanks

def declared (headers : List Text) : Int := headers.foldl lengthBehind 0

section FirstLine

theorem post_line_length (target : Text) : (postLine target).length = 5 + (target.length + 9) := by
  have five : (ascii "POST ").length = 5 := by decide
  have nine : (ascii " HTTP/1.1").length = 9 := by decide
  rw [postLine, List.length_append, List.length_append, five, nine]

def postCut (r : Request) (start length : Nat) : Request :=
  { r with
    readBuf := store (store r.readBuf (start - 1) 0) (start + length) 0, url := some start,
    version := some (start + length + 1), method := .post, cgi := 1 }

theorem post_method_and_version (r : Request) (text : Nat) (target : Text) (some_target : target ≠ [])
    (clean : ∀ c ∈ target, c ∉ blanks) (here : TextAt r.readBuf text (postLine target))
    (room : text + (postLine target).length < readBufferSize) :
    (parseMethod r text).bind parseVersion = .next (postCut r (text + 5) target.length) ∧
      TextAt (postCut r (text + 5) target.length).readBuf (text + 5) target := by
  exact word_and_version r text (ascii "POST") target .post (by decide +kernel) (by decide) some_target clean here room

theorem parse_target_named (r : Request) (url : Nat) (path : Text) (points : r.url = some url) (here : TextAt r.readBuf url path)
    (rooted : r.readBuf url = slash) (named : path.length ≠ 1) (room : url + path.length < readBufferSize) :
    parseTarget r = .done (.code .noRequest) { r with checkState := .header } := by
  have text := text_at_cstr r.readBuf url path here room
  unfold parseTarget
  simp only [points, rooted, ne_eq, not_true_eq_false, if_false, text, if_neg named]

structure PostAccepted (r next : Request) (path : Text) (limit : Nat) : Prop where
  url : ∃ url, next.url = some url ∧ TextAt next.readBuf url path ∧ url + path.length < limit
  state : next.checkState = .header
  length : next.contentLength = r.contentLength
  method : next.method = .post
  form : next.cgi = 1

theorem post_line_accepted (r : Request) (text : Nat) (target path : Text) (accepted : PostTarget target path)
    (named : path.length ≠ 1) (here : TextAt r.readBuf text (postLine target))
    (room : text + (postLine target).length < readBufferSize) :
    ∃ next, parseRequestLine r text = (.code .noRequest, next) ∧ PostAccepted r next path (text + (postLine target).length) := by
  have some_target : target ≠ [] := by
    rintro rfl
    have empty : urlOf [] = some [] := by decide
    have rooted := accepted.rooted
    rw [← Option.some.inj (empty.symm.trans accepted.url)] at rooted
    cases rooted
  obtain ⟨cut, targetText⟩ := post_method_and_version r text target some_target (fun c member => (accepted.clean c member).2.2) here room
  have length := post_line_length target
  obtain ⟨url, skipped, pathText, ends⟩ := skip_schemes _ _ target path accepted.url rfl targetText (by omega)
  have slashed : (postCut r (text + 5) target.length).readBuf url = slash := by
    obtain ⟨rest, rfl⟩ := List.head?_eq_some_iff.mp accepted.rooted
    exact pathText.bytes 0 (Nat.succ_pos _)
  have done := parse_target_named { postCut r (text + 5) target.length with url := some url } url path rfl pathText slashed
    named (by omega)
  refine ⟨{ postCut r (text + 5) target.length with url := some url, checkState := .header },
    ?_, ⟨⟨url, rfl, pathText, by omega⟩, rfl, rfl, rfl, rfl⟩⟩
  rw [parseRequestLine, requestLineStages, cut, Stage.bind, skipped, Stage.bind, done]
  rfl

end FirstLine

section Head

structure InPost (path : Text) (length : Int) (r : Request) : Prop extends AtLine r where
  url : ∃ url, r.url = some url ∧ TextAt r.readBuf url path ∧ url + path.length < r.readIdx
  state : r.checkState = .header
  length : r.contentLength = length
  method : r.method = .post
  form : r.cgi = 1

theorem in_post_outside (path : Text) (length : Int) (r : Request) (inside : InPost path length r) : r.checkState ≠ .connect := by
  rw [inside.state]
  decide

theorem post_line_read (slot : Request) (target path : Text) (accepts : PostTarget target path) (named : path.length ≠ 1)
    (room : (postLine target).length < readBufferSize) :
    ∃ next, parseRead (slot.init.feed (postLine target ++ lineEnd)) = (.code .noRequest, next) ∧
      InPost path 0 next ∧ next.readIdx = (postLine target).length + 2 := by
  have clean : ∀ c ∈ postLine target, c ≠ 0 ∧ c ∉ lineEnd :=
    request_text_clean (ascii "POST ") target (by decide +kernel)
      fun c member => ⟨(accepts.clean c member).1, (accepts.clean c member).2.1⟩
  have here := line_found_text slot.init _ ⟨rfl, rfl⟩ fun c member => (clean c member).1
  obtain ⟨next, accepted, line⟩ := post_line_accepted
    (beginLine (lineFound (slot.init.feed (postLine target ++ lineEnd)) (postLine target))) 0
    target path accepts named here (by omega)
  obtain ⟨read, next_line, received⟩ := request_line_consumed slot next _ (fun c member => (clean c member).2) accepted line.state
  obtain ⟨url, points, pathText, below⟩ := line.url
  exact ⟨next, read, ⟨next_line, ⟨url, points, pathText, by omega⟩, line.state, line.length, line.method, line.form⟩, received⟩

theorem post_header_read (r : Request) (path line : Text) (length : Int) (inside : InPost path length r) (header : HeaderText line)
    (room : r.readIdx + line.length < readBufferSize) :
    ∃ next, parseRead (r.feed (line ++ lineEnd)) = (.code .noRequest, next) ∧ InPost path (lengthBehind length line) next ∧
      next.readIdx = r.readIdx + (line.length + 2) := by
  have at_line := inside.toAtLine
  have here := line_found_text r line at_line fun c member => (header.clean c member).1
  obtain ⟨next, accepted, kept⟩ := header_text_read (beginLine (lineFound (r.feed (line ++ lineEnd)) line)) r.readIdx line header here room
  have state := kept.state.trans inside.state
  obtain ⟨read, next_line, received⟩ := header_line_consumed r next line .noRequest at_line inside.state
    (fun c member => (header.clean c member).2) accepted state
  obtain ⟨url, points, pathText, below⟩ := inside.url
  have pathKept : TextAt next.readBuf url path := by
    have check := at_line.check
    rw [kept.memory]
    apply text_at_congr r.readBuf url _ path pathText
    intro index _ upper
    change _ = (lineFound (r.feed (line ++ lineEnd)) line).readBuf index
    simp only [lineFound, Request.feed_check_idx, Request.feed_read_buf, check]
    rw [store_elsewhere _ _ _ _ (by omega), store_elsewhere _ _ _ _ (by omega), write_before _ _ _ _ (by omega)]
  refine ⟨next, read, ⟨next_line, ⟨url, kept.url.trans points, pathKept, by omega⟩, state, ?_, kept.method.trans inside.method,
    kept.form.trans inside.form⟩, received⟩
  have before : (beginLine (lineFound (r.feed (line ++ lineEnd)) line)).contentLength = length := inside.length
  rw [kept.length, before]

theorem post_headers_read (r : Request) (path : Text) (length : Int) (headers : List Text) (inside : InPost path length r)
    (lines : ∀ line ∈ headers, HeaderText line) (room : r.readIdx + (headerLines headers).length < readBufferSize) :
    ∃ next, parseRead (r.feed (headerLines headers)) = (.code .noRequest, next) ∧
      InPost path (headers.foldl lengthBehind length) next ∧ next.readIdx = r.readIdx + (headerLines headers).length := by
  let inv : List Text → Request → Prop := fun seen s => InPost path (seen.foldl lengthBehind length) s
  have line_read : ∀ seen s line, line ∈ headers → inv seen s → s.readIdx + line.length < readBufferSize →
      ∃ next, parseRead (s.feed (line ++ lineEnd)) = (.code .noRequest, next) ∧ inv (seen ++ [line]) next ∧
        next.readIdx = s.readIdx + (line.length + 2) := by
    intro seen s line member sInside fits
    obtain ⟨next, read, nextInside, received⟩ := post_header_read s path line _ sInside (lines line member) fits
    refine ⟨next, read, ?_, received⟩
    change InPost path ((seen ++ [line]).foldl lengthBehind length) next
    rw [List.foldl_append]
    exact nextInside
  exact header_lines_rule inv headers (fun seen s kept => ⟨kept.toAtLine, kept.state⟩) line_read [] r inside room

theorem post_head_read (slot : Request) (target path : Text) (headers : List Text) (accepts : PostTarget target path)
    (named : path.length ≠ 1) (lines : ∀ line ∈ headers, HeaderText line)
    (room : (postHead target headers).length < readBufferSize) :
    ∃ last, parseRead (slot.init.feed (postHead target headers)) = (.code .noRequest, last) ∧
      InPost path (declared headers) last ∧ last.readIdx = (postHead target headers).length := by
  have length : (postHead target headers).length =
      (postLine target).length + 2 + (headerLines headers).length := by
    simp only [postHead, List.length_append, lineEnd, List.length_cons, List.length_nil]
  obtain ⟨first, lineRead, firstInside, firstReceived⟩ := post_line_read slot target path accepts named (by omega)
  obtain ⟨last, headersRead, lastInside, received⟩ := post_headers_read first path 0 headers firstInside lines (by omega)
  refine ⟨last, ?_, lastInside, by omega⟩
  rw [postHead, parse_read_then slot.init first _ _ (init_ordered slot) lineRead (in_post_outside path _ first firstInside)]
  exact headersRead

end Head

structure FormReceived (path body : Text) (r : Request) : Prop where
  form : r.cgi = 1
  texts : ∃ url text, r.url = some url ∧ TextAt r.readBuf url path ∧ url + path.length < text ∧
    r.string = some text ∧ TextAt r.readBuf text body ∧ text + body.length < readBufferSize

theorem post_request_read (slot : Request) (target path body : Text) (headers : List Text) (accepts : PostTarget target path)
    (named : path.length ≠ 1) (lines : ∀ line ∈ headers, HeaderText line) (announced : declared headers = body.length)
    (some_body : 0 < body.length) (clean : ∀ c ∈ body, c ≠ 0)
    (room : (postHead target headers).length + 2 + body.length < readBufferSize) :
    ∃ r, parseRead (slot.init.feed (postHead target headers ++ (lineEnd ++ body))) = (.code .getRequest, r) ∧
      FormReceived path body r := by
  obtain ⟨last, headRead, inside, received⟩ := post_head_read slot target path headers accepts named lines (by omega)
  obtain ⟨url, points, pathText, below⟩ := inside.url
  generalize postHead target headers = head at headRead received room
  have post : PostHead slot head body.length := by
    constructor
    · rw [headRead]
    · rw [headRead]
      exact inside.state
    · rw [headRead]
      exact inside.start.trans received
    · rw [headRead]
      exact inside.method
    · rw [headRead]
      exact inside.length.trans announced
  have kept : ∀ index, index < head.length → ((bodyStart slot head).feed body).readBuf index = last.readBuf index := by
    intro index before
    have start := body_start_read_idx slot head body.length post []
    simp only [Request.feed_nil, List.length_nil, Nat.add_zero] at start
    rw [Request.feed_read_buf, start, write_before _ _ _ _ (by omega), bodyStart, headRead]
    simp only
    rw [store_elsewhere _ _ _ _ (by omega), store_elsewhere _ _ _ _ (by omega), Request.feed_read_buf, received,
      write_before _ _ _ _ before]
  have urlSame : ((bodyStart slot head).feed body).url = last.url := by
    rw [bodyStart, headRead]
    rfl
  have formSame : ((bodyStart slot head).feed body).cgi = last.cgi := by
    rw [bodyStart, headRead]
    rfl
  have byte := body_start_byte slot head body.length post body
  rw [blank_line_reached slot head body.length some_body post, whole_body_read slot head body post room]
  generalize (bodyStart slot head).feed body = started at kept urlSame formSame byte
  refine ⟨_, rfl, formSame.trans inside.form, url, head.length + 2, urlSame.trans points, ?_, by omega, rfl, ?_, room⟩
  · apply text_at_congr last.readBuf url _ path pathText
    intro index _ upper
    simp only
    rw [store_elsewhere _ _ _ _ (by omega), kept index (by omega)]
  · refine ⟨clean, fun offset within => ?_, store_here _ _ _⟩
    simp only
    rw [store_elsewhere _ _ _ _ (by omega)]
    exact byte offset within

end WzyServer.Http
