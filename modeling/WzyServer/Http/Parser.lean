import WzyServer.Http.Request

set_option autoImplicit false

namespace WzyServer.Http

open CString Word

def carriageReturn : UInt8 := 13
def lineFeed : UInt8 := 10
def slash : UInt8 := 47
def blanks : List UInt8 := ascii " \t"

def parseLineFrom : Nat → Request → LineStatus × Request
  | 0, r => (.lineOpen, r)
  | unread + 1, r =>
      let temp := r.readBuf r.checkIdx
      if temp = carriageReturn then
        if r.checkIdx + 1 = r.readIdx then (.lineOpen, r)
        else if r.readBuf (r.checkIdx + 1) = lineFeed then
          (.lineOk, { r with
            readBuf := store (store r.readBuf r.checkIdx 0) (r.checkIdx + 1) 0, checkIdx := r.checkIdx + 2 })
        else (.lineBad, r)
      else if temp = lineFeed then
        if 1 < r.checkIdx ∧ r.readBuf (r.checkIdx - 1) = carriageReturn then
          (.lineOk, { r with
            readBuf := store (store r.readBuf (r.checkIdx - 1) 0) r.checkIdx 0, checkIdx := r.checkIdx + 1 })
        else (.lineBad, r)
      else parseLineFrom unread { r with checkIdx := r.checkIdx + 1 }

def parseLine (r : Request) : LineStatus × Request := parseLineFrom (r.readIdx - r.checkIdx) r

-- A part of parse_request_line: go on with the next part, or end the call here.
inductive Stage where
  | next (r : Request)
  | done (outcome : Outcome) (r : Request)

def Stage.bind : Stage → (Request → Stage) → Stage
  | .next r, rest => rest r
  | .done outcome r, _ => .done outcome r

def parseMethod (r : Request) (text : Nat) : Stage :=
  match strpbrk (cstr r.readBuf text) blanks with
  | none => .done (.code .badRequest) { r with url := none }
  | some blank =>
      let memory := store r.readBuf (text + blank) 0
      let cut := { r with readBuf := memory, url := some (text + blank + 1) }
      if strcasecmp (cstr memory text) (ascii "GET") then .next { cut with method := .get }
      else if strcasecmp (cstr memory text) (ascii "POST") then .next { cut with method := .post, cgi := 1 }
      else .done (.code .badRequest) cut

def parseVersion (r : Request) : Stage :=
  match r.url with
  | none => .done (.fault .nullPointer) r
  | some start =>
      let url := start + strspn (cstr r.readBuf start) blanks
      match strpbrk (cstr r.readBuf url) blanks with
      | none => .done (.code .badRequest) { r with url := some url, version := none }
      | some blank =>
          let memory := store r.readBuf (url + blank) 0
          let version := url + blank + 1 + strspn (cstr memory (url + blank + 1)) blanks
          let found := { r with readBuf := memory, url := some url, version := some version }
          if strcasecmp (cstr memory version) (ascii "HTTP/1.1") then .next found
          else .done (.code .badRequest) found

-- The two tests for `http://` and `https://`; strncasecmp on a null m_url faults.
def skipScheme (scheme : List UInt8) (r : Request) : Stage :=
  match r.url with
  | none => .done (.fault .nullPointer) r
  | some url =>
      if strncasecmp (cstr r.readBuf url) scheme scheme.length then
        .next { r with url := (strchr (cstr r.readBuf (url + scheme.length)) slash).map (url + scheme.length + ·) }
      else .next r

def parseTarget (r : Request) : Stage :=
  match r.url with
  | none => .done (.code .badRequest) r
  | some url =>
      if r.readBuf url ≠ slash then .done (.code .badRequest) r
      else if (cstr r.readBuf url).length = 1 then
        .done (.code .noRequest)
          { r with readBuf := write r.readBuf (url + 1) (ascii "judge.html" ++ [0]), checkState := .header }
      else .done (.code .noRequest) { r with checkState := .header }

def requestLineStages (r : Request) (text : Nat) : Stage :=
  ((((parseMethod r text).bind parseVersion).bind (skipScheme (ascii "http://"))).bind
    (skipScheme (ascii "https://"))).bind parseTarget

def Stage.result : Stage → Outcome × Request
  | .next r => (.code .noRequest, r)
  | .done outcome r => (outcome, r)

def parseRequestLine (r : Request) (text : Nat) : Outcome × Request := (requestLineStages r text).result

def headerValue (memory : Memory) (text nameLength : Nat) : Nat :=
  text + nameLength + strspn (cstr memory (text + nameLength)) blanks

def parseHeaders (r : Request) (text : Nat) : Outcome × Request :=
  let line := cstr r.readBuf text
  if r.readBuf text = 0 then
    if r.contentLength ≠ 0 then (.code .noRequest, { r with checkState := .connect })
    else (.code .getRequest, r)
  else if strncasecmp line (ascii "Connection:") 11 then
    if strcasecmp (cstr r.readBuf (headerValue r.readBuf text 11)) (ascii "keep-alive") then (.code .noRequest, { r with linger := true })
    else (.code .noRequest, r)
  else if strncasecmp line (ascii "Content-Length:") 15 then
    (.code .noRequest, { r with contentLength := toInt (toLong (decimal (cstr r.readBuf (headerValue r.readBuf text 15)))) })
  else if strncasecmp line (ascii "Host:") 5 then (.code .noRequest, { r with host := some (headerValue r.readBuf text 5) })
  else (.code .noRequest, r)

-- m_content_length is whatever the client sent, so the store may miss m_read_buf.
def parseContent (r : Request) (text : Nat) : Outcome × Request :=
  if toInt (r.contentLength + r.checkIdx) ≤ r.readIdx then
    let stop := (text : Int) + r.contentLength
    if 0 ≤ stop ∧ stop < readBufferSize then (.code .getRequest, { r with readBuf := store r.readBuf stop.toNat 0, string := some text })
    else (.fault .outOfBounds, r)
  else (.code .noRequest, r)

inductive Advance where
  | again (status : LineStatus) (r : Request)
  | stop (outcome : Outcome) (r : Request)

def advanceWith (status : LineStatus) : Outcome × Request → Advance
  | (.code .noRequest, r) => .again status r
  | (outcome, r) => .stop outcome r

-- `text = get_line(); m_start_line = m_check_idx;`
def beginLine (r : Request) : Request := { r with startLine := r.checkIdx }

def advance (r : Request) : Advance :=
  match r.checkState with
  | .requestLine => advanceWith .lineOk (parseRequestLine (beginLine r) r.startLine)
  | .header => advanceWith .lineOk (parseHeaders (beginLine r) r.startLine)
  | .connect => advanceWith .lineOpen (parseContent (beginLine r) r.startLine)

-- The while loop of process_read. The outcome GET_REQUEST is the call of
-- do_request; the loop never uses up the fuel processReadLoop gives it.
def processReadFrom : Nat → LineStatus → Request → Outcome × Request
  | 0, _, r => (.code .noRequest, r)
  | fuel + 1, status, r =>
      let scanned := if r.checkState = .connect ∧ status = .lineOk then (.lineOk, r) else parseLine r
      if scanned.1 = .lineOk then
        match advance scanned.2 with
        | .again status next => processReadFrom fuel status next
        | .stop outcome final => (outcome, final)
      else (.code .noRequest, scanned.2)

def processReadLoop (status : LineStatus) (r : Request) : Outcome × Request :=
  processReadFrom (2 * (r.readIdx - r.checkIdx) + 3) status r

def parseRead (r : Request) : Outcome × Request := processReadLoop .lineOk r

section Stages

def Stage.request : Stage → Request
  | .next r => r
  | .done _ r => r

-- What a request line can change of a request ...
structure LineRead (r s : Request) : Prop where
  same : s = { r with
    readBuf := s.readBuf, method := s.method, url := s.url, version := s.version, cgi := s.cgi, checkState := s.checkState }
  form : s.cgi = r.cgi ∨ s.cgi = 1
  state : s.checkState = r.checkState ∨ s.checkState = .header
  returns : ∀ index, r.readBuf index ≠ carriageReturn → s.readBuf index ≠ carriageReturn

-- ... and what it can change behind the method.
structure UrlRead (r s : Request) : Prop extends LineRead r s where
  method : s.method = r.method
  cgi : s.cgi = r.cgi

theorem line_read_trans (r s t : Request) (first : LineRead r s) (second : LineRead s t) : LineRead r t := by
  refine ⟨second.same.trans (by rw [first.same]), ?_, ?_, fun index clean => second.returns index (first.returns index clean)⟩
  · rcases second.form with same | set
    · rw [same]
      exact first.form
    · exact .inr set
  · rcases second.state with same | header
    · rw [same]
      exact first.state
    · exact .inr header

theorem url_read_trans (r s t : Request) (first : UrlRead r s) (second : UrlRead s t) : UrlRead r t :=
  ⟨line_read_trans r s t first.toLineRead second.toLineRead, second.method.trans first.method, second.cgi.trans first.cgi⟩

structure StageReads (rel : Request → Request → Prop) (r : Request) (stage : Stage) : Prop where
  related : rel r stage.request
  unserved : stage.result.1 ≠ .code .getRequest

theorem bind_reads (rel : Request → Request → Prop) (trans : ∀ r s t, rel r s → rel s t → rel r t) (r : Request) (stage : Stage)
    (rest : Request → Stage) (first : StageReads rel r stage) (later : ∀ s, StageReads rel s (rest s)) :
    StageReads rel r (stage.bind rest) := by
  cases stage with
  | next s => exact ⟨trans r s _ first.related (later s).related, (later s).unserved⟩
  | done outcome s => exact first

theorem no_returns_store (memory : Memory) (address index : Nat) (clean : memory index ≠ carriageReturn) :
    store memory address 0 index ≠ carriageReturn := by
  by_cases here : index = address
  · rw [here, store_here]
    decide
  · rwa [store_elsewhere _ _ _ _ here]

theorem no_returns_page (memory : Memory) (address index : Nat) (clean : memory index ≠ carriageReturn) :
    write memory address (ascii "judge.html" ++ [0]) index ≠ carriageReturn := by
  have page : ∀ c ∈ ascii "judge.html" ++ [0], c ≠ carriageReturn := by decide +kernel
  unfold write
  split
  · rename_i inside
    rw [List.getD_eq_getElem _ _ (by omega)]
    exact page _ (List.getElem_mem _)
  · exact clean

theorem parse_method_reads (r : Request) (text : Nat) : StageReads LineRead r (parseMethod r text) := by
  have cut : ∀ address, ∀ index, r.readBuf index ≠ carriageReturn → store r.readBuf address 0 index ≠ carriageReturn :=
    fun address index => no_returns_store r.readBuf address index
  unfold parseMethod
  dsimp only
  split
  · exact ⟨⟨rfl, .inl rfl, .inl rfl, fun _ => id⟩, by simp [Stage.result]⟩
  · split
    · exact ⟨⟨rfl, .inl rfl, .inl rfl, cut _⟩, by simp [Stage.result]⟩
    · split
      · exact ⟨⟨rfl, .inr rfl, .inl rfl, cut _⟩, by simp [Stage.result]⟩
      · exact ⟨⟨rfl, .inl rfl, .inl rfl, cut _⟩, by simp [Stage.result]⟩

theorem parse_version_reads (r : Request) : StageReads UrlRead r (parseVersion r) := by
  unfold parseVersion
  dsimp only
  split
  · exact ⟨⟨⟨rfl, .inl rfl, .inl rfl, fun _ => id⟩, rfl, rfl⟩, by simp [Stage.result]⟩
  · split
    · exact ⟨⟨⟨rfl, .inl rfl, .inl rfl, fun _ => id⟩, rfl, rfl⟩, by simp [Stage.result]⟩
    · split <;> exact ⟨⟨⟨rfl, .inl rfl, .inl rfl, no_returns_store _ _⟩, rfl, rfl⟩, by simp [Stage.result]⟩

theorem skip_scheme_reads (scheme : List UInt8) (r : Request) : StageReads UrlRead r (skipScheme scheme r) := by
  unfold skipScheme
  repeat' split
  all_goals exact ⟨⟨⟨rfl, .inl rfl, .inl rfl, fun _ => id⟩, rfl, rfl⟩, by simp [Stage.result]⟩

theorem parse_target_reads (r : Request) : StageReads UrlRead r (parseTarget r) := by
  unfold parseTarget
  split
  · exact ⟨⟨⟨rfl, .inl rfl, .inl rfl, fun _ => id⟩, rfl, rfl⟩, by simp [Stage.result]⟩
  · split
    · exact ⟨⟨⟨rfl, .inl rfl, .inl rfl, fun _ => id⟩, rfl, rfl⟩, by simp [Stage.result]⟩
    · split
      · exact ⟨⟨⟨rfl, .inl rfl, .inr rfl, no_returns_page _ _⟩, rfl, rfl⟩, by simp [Stage.result]⟩
      · exact ⟨⟨⟨rfl, .inl rfl, .inr rfl, fun _ => id⟩, rfl, rfl⟩, by simp [Stage.result]⟩

def urlStages (r : Request) : Stage :=
  (((parseVersion r).bind (skipScheme (ascii "http://"))).bind (skipScheme (ascii "https://"))).bind parseTarget

theorem url_stages_read (r : Request) : StageReads UrlRead r (urlStages r) := by
  apply bind_reads UrlRead url_read_trans
  · apply bind_reads UrlRead url_read_trans
    · exact bind_reads UrlRead url_read_trans r _ _ (parse_version_reads r) (skip_scheme_reads _)
    · exact skip_scheme_reads _
  · exact parse_target_reads

theorem request_line_stages (r : Request) (text : Nat) : requestLineStages r text = (parseMethod r text).bind urlStages := by
  unfold requestLineStages
  cases parseMethod r text <;> rfl

theorem stage_request (stage : Stage) : stage.request = stage.result.2 := by
  cases stage <;> rfl

theorem line_stages_read (r : Request) (text : Nat) : StageReads LineRead r (requestLineStages r text) := by
  rw [request_line_stages]
  refine bind_reads LineRead line_read_trans r _ _ (parse_method_reads r text) fun s => ?_
  exact ⟨(url_stages_read s).related.toLineRead, (url_stages_read s).unserved⟩

theorem request_line_reads (r : Request) (text : Nat) :
    LineRead r (parseRequestLine r text).2 ∧ (parseRequestLine r text).1 ≠ .code .getRequest := by
  obtain ⟨related, unserved⟩ := line_stages_read r text
  rw [stage_request] at related
  exact ⟨related, unserved⟩

end Stages

end WzyServer.Http
