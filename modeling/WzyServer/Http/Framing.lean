import WzyServer.Base.Decimal
import WzyServer.Http.Transmission

set_option autoImplicit false

namespace WzyServer.Http

open CString Word

section Messages

structure Message where
  status : Nat
  title : Text
  headers : List (Text × Text)
  body : Text

def headerLine (header : Text × Text) : Text := header.1 ++ ascii ":" ++ header.2 ++ ascii "\r\n"

def Message.text (m : Message) : Text :=
  statusLine m.status m.title ++ m.headers.flatMap headerLine ++ ascii "\r\n" ++ m.body

def Inline (text : Text) : Prop := ∀ c ∈ text, c ≠ 13 ∧ c ≠ 10

instance (text : Text) : Decidable (Inline text) := inferInstanceAs (Decidable (∀ c ∈ text, c ≠ 13 ∧ c ≠ 10))

structure CleanHeader (header : Text × Text) : Prop where
  nonempty : header.1 ≠ []
  name : Inline header.1
  colon : (58 : UInt8) ∉ header.1
  value : Inline header.2

structure Message.Clean (m : Message) : Prop where
  title : Inline m.title
  headers : ∀ header ∈ m.headers, CleanHeader header

structure Message.Proper (m : Message) : Prop extends m.Clean where
  length : (m.headers.filter fun header => header.1 = ascii "Content-Length") =
    [(ascii "Content-Length", ascii (toString m.body.length))]

def Framed (text : Text) : Prop := ∃ m : Message, m.Proper ∧ text = m.text

theorem inline_append (a b : Text) (first : Inline a) (second : Inline b) : Inline (a ++ b) := by
  intro c member
  rcases List.mem_append.mp member with left | right
  · exact first c left
  · exact second c right

theorem inline_number (n : Nat) : Inline (ascii (toString n)) := by
  intro c member
  have digit := printed_digits n c member
  constructor
  · rintro rfl
    exact absurd digit (by decide)
  · rintro rfl
    exact absurd digit (by decide)

theorem line_apart (a b restA restB : Text) (cleanA : Inline a) (cleanB : Inline b)
    (same : a ++ ascii "\r\n" ++ restA = b ++ ascii "\r\n" ++ restB) : a = b ∧ restA = restB := by
  have noReturn : ∀ text : Text, Inline text → (13 : UInt8) ∉ text := fun text clean member => (clean 13 member).1 rfl
  rw [List.append_assoc, List.append_assoc] at same
  obtain ⟨lines, rests⟩ := split_apart 13 a b _ _ (noReturn a cleanA) (noReturn b cleanB) same
  exact ⟨lines, (List.cons.inj rests).2⟩

theorem header_line_apart (a b : Text × Text) (restA restB : Text) (cleanA : CleanHeader a) (cleanB : CleanHeader b)
    (same : headerLine a ++ restA = headerLine b ++ restB) : a = b ∧ restA = restB := by
  have inline : ∀ header : Text × Text, CleanHeader header → Inline (header.1 ++ ascii ":" ++ header.2) :=
    fun header clean => inline_append _ _ (inline_append _ _ clean.name (by decide +kernel)) clean.value
  obtain ⟨lines, rests⟩ := line_apart _ _ restA restB (inline a cleanA) (inline b cleanB) same
  rw [List.append_assoc, List.append_assoc] at lines
  obtain ⟨names, values⟩ := split_apart 58 a.1 b.1 _ _ cleanA.colon cleanB.colon lines
  exact ⟨Prod.ext names values, rests⟩

theorem header_not_blank (header : Text × Text) (restA restB : Text) (clean : CleanHeader header) :
    headerLine header ++ restA ≠ ascii "\r\n" ++ restB := by
  intro same
  obtain ⟨name, value⟩ := header
  obtain ⟨nonempty, inline, _⟩ := clean
  cases name with
  | nil => exact nonempty rfl
  | cons c rest =>
      have first : c = 13 := (List.cons.inj same).1
      exact (inline c (List.mem_cons_self ..)).1 first

theorem headers_apart (a b : List (Text × Text)) (bodyA bodyB : Text) (cleanA : ∀ header ∈ a, CleanHeader header)
    (cleanB : ∀ header ∈ b, CleanHeader header)
    (same : a.flatMap headerLine ++ ascii "\r\n" ++ bodyA = b.flatMap headerLine ++ ascii "\r\n" ++ bodyB) :
    a = b ∧ bodyA = bodyB := by
  induction a generalizing b with
  | nil =>
      cases b with
      | nil => exact ⟨rfl, List.append_cancel_left same⟩
      | cons k ks =>
          rw [List.flatMap_nil, List.nil_append, List.flatMap_cons, List.append_assoc, List.append_assoc] at same
          exact absurd same.symm (header_not_blank k _ _ (cleanB k (List.mem_cons_self ..)))
  | cons h hs ih =>
      cases b with
      | nil =>
          rw [List.flatMap_nil, List.nil_append, List.flatMap_cons, List.append_assoc, List.append_assoc] at same
          exact absurd same (header_not_blank h _ _ (cleanA h (List.mem_cons_self ..)))
      | cons k ks =>
          obtain ⟨cleanH, cleanHs⟩ := List.forall_mem_cons.mp cleanA
          obtain ⟨cleanK, cleanKs⟩ := List.forall_mem_cons.mp cleanB
          simp only [List.flatMap_cons, List.append_assoc] at same
          obtain ⟨rfl, rest⟩ := header_line_apart h k _ _ cleanH cleanK same
          simp only [← List.append_assoc] at rest
          obtain ⟨rfl, bodies⟩ := ih ks cleanHs cleanKs rest
          exact ⟨rfl, bodies⟩

theorem message_apart (a b : Message) (cleanA : a.Clean) (cleanB : b.Clean) (same : a.text = b.text) :
    a.headers = b.headers ∧ a.body = b.body := by
  have inline : ∀ m : Message, m.Clean → Inline (ascii "HTTP/1.1 " ++ ascii (toString m.status) ++ ascii " " ++ m.title) :=
    fun m clean => inline_append _ _ (inline_append _ _ (inline_append _ _ (by decide +kernel) (inline_number _))
      (by decide +kernel)) clean.title
  have split : ∀ m : Message, m.text = ascii "HTTP/1.1 " ++ ascii (toString m.status) ++ ascii " " ++ m.title ++ ascii "\r\n" ++
      (m.headers.flatMap headerLine ++ ascii "\r\n" ++ m.body) := by
    intro m
    simp only [Message.text, statusLine, List.append_assoc]
  rw [split a, split b] at same
  obtain ⟨_, rests⟩ := line_apart _ _ _ _ (inline a cleanA) (inline b cleanB) same
  exact headers_apart a.headers b.headers a.body b.body cleanA.headers cleanB.headers rests

end Messages

section Printing

def headersOf (contentLen : Nat) (linger : Bool) : List (Text × Text) :=
  [(ascii "Content-Length", ascii (toString contentLen)), (ascii "Connection", if linger then ascii "keep-alive" else ascii "close")]

theorem header_clean (name value : Text) (named : name ≠ [] ∧ Inline name ∧ (58 : UInt8) ∉ name) (inline : Inline value) :
    CleanHeader (name, value) := ⟨named.1, named.2.1, named.2.2, inline⟩

theorem headers_of_clean (contentLen : Nat) (linger : Bool) : ∀ header ∈ headersOf contentLen linger, CleanHeader header := by
  intro header member
  rcases List.mem_cons.mp member with rfl | later
  · exact header_clean _ _ (by decide +kernel) (inline_number contentLen)
  · cases List.mem_singleton.mp later
    apply header_clean _ _ (by decide +kernel)
    cases linger <;> decide +kernel

theorem headers_of_length (contentLen : Nat) (linger : Bool) :
    ((headersOf contentLen linger).filter fun header => header.1 = ascii "Content-Length") =
      [(ascii "Content-Length", ascii (toString contentLen))] := by
  have other : ¬ (ascii "Connection" = ascii "Content-Length") := by decide +kernel
  simp [headersOf, other]

theorem add_response_frame (text : Text) (r : Response) :
    ∃ memory index, (addResponse text r).2 = { r with memory := memory, writeIdx := index } := by
  unfold addResponse
  dsimp only
  split
  · exact ⟨r.memory, r.writeIdx, rfl⟩
  · split
    · exact ⟨_, r.writeIdx, rfl⟩
    · exact ⟨_, _, rfl⟩

theorem add_headers_frame (contentLen : Int) (r : Response) :
    ∃ memory index, (addHeaders contentLen r).2 = { r with memory := memory, writeIdx := index } := by
  obtain ⟨_, _, first⟩ := add_response_frame (ascii "Content-Length:" ++ ascii (toString contentLen) ++ ascii "\r\n") r
  unfold addHeaders addContentLength addLinger addBlankLine
  rw [first]
  dsimp only
  obtain ⟨_, _, second⟩ := add_response_frame
    (ascii "Connection:" ++ (if r.linger then ascii "keep-alive" else ascii "close") ++ ascii "\r\n") { r with memory := _, writeIdx := _ }
  rw [second]
  exact add_response_frame _ _

theorem add_response_fits (text printed : Text) (r : Response) (here : Printed r printed)
    (fits : (printed ++ text).length < writeBufferSize - 1) :
    Printed (addResponse text r).2 (printed ++ text) ∧ (addResponse text r).1 = true := by
  obtain ⟨after, whole⟩ := add_response_printed text printed r here
  rw [extend, if_pos fits] at after
  exact ⟨after, whole.mpr fits⟩

theorem headers_printed (contentLen : Nat) (printed : Text) (r : Response) (here : Printed r printed)
    (fits : (printed ++ (headersOf contentLen r.linger).flatMap headerLine ++ ascii "\r\n").length < writeBufferSize - 1) :
    Printed (addHeaders contentLen r).2 (printed ++ (headersOf contentLen r.linger).flatMap headerLine ++ ascii "\r\n") := by
  let lengthLine := ascii "Content-Length:" ++ ascii (toString (contentLen : Int)) ++ ascii "\r\n"
  let lingerLine := ascii "Connection:" ++ (if r.linger then ascii "keep-alive" else ascii "close") ++ ascii "\r\n"
  have lines : (headersOf contentLen r.linger).flatMap headerLine = lengthLine ++ lingerLine := by
    simp only [headersOf, List.flatMap_cons, List.flatMap_nil, List.append_nil, headerLine]
    rfl
  rw [lines, ← List.append_assoc] at fits ⊢
  have lengthFits : (printed ++ lengthLine).length < writeBufferSize - 1 := by
    simp only [List.length_append] at fits ⊢
    omega
  have lingerFits : (printed ++ lengthLine ++ lingerLine).length < writeBufferSize - 1 := by
    simp only [List.length_append] at fits ⊢
    omega
  obtain ⟨memory, index, frame⟩ := add_response_frame lengthLine r
  have first := (add_response_fits lengthLine printed r here lengthFits).1
  have same : (addContentLength contentLen r).2.linger = r.linger := by
    rw [addContentLength, frame]
  have second := (add_response_fits lingerLine _ _ first lingerFits).1
  have lingered : addLinger (addContentLength contentLen r).2 = addResponse lingerLine (addResponse lengthLine r).2 := by
    rw [addLinger, same]
    rfl
  rw [addHeaders, lingered]
  exact (add_response_fits _ _ _ second fits).1

theorem headers_short (size : Nat) (linger : Bool) (small : size < 2 ^ 31) :
    ((headersOf size linger).flatMap headerLine ++ ascii "\r\n").length ≤ 52 := by
  have number := printed_length size 10 (by decide) (by omega)
  have length : (ascii "Content-Length").length = 14 := by decide +kernel
  have connection : (ascii "Connection").length = 10 := by decide +kernel
  have stays : (if linger then ascii "keep-alive" else ascii "close").length ≤ 10 := by cases linger <;> decide +kernel
  have colon : (ascii ":").length = 1 := rfl
  have line : (ascii "\r\n").length = 2 := rfl
  simp only [headersOf, headerLine, List.flatMap_cons, List.flatMap_nil, List.append_nil, List.length_append]
  omega

theorem status_line_printed (status : Nat) (title : Text) (r : Response) (start : r.writeIdx = 0)
    (fits : (statusLine status title).length < writeBufferSize - 1) :
    Printed (addStatusLine status title r).2 (statusLine status title) := by
  have printed := (add_response_fits (statusLine status title) [] r ⟨start, rfl⟩ fits).1
  rwa [List.nil_append] at printed

def page (status : Nat) (title announced content : Text) (linger : Bool) : Message :=
  ⟨status, title, headersOf announced.length linger, content⟩

theorem page_fits (status : Nat) (title announced content : Text) (linger : Bool)
    (short : (statusLine status title).length + announced.length + content.length ≤ 900) :
    (page status title announced content linger).text.length < writeBufferSize - 1 := by
  have headers := headers_short announced.length linger (by omega)
  have size : writeBufferSize - 1 = 1023 := rfl
  simp only [Message.text, page, List.append_assoc, List.length_append] at headers ⊢
  omega

theorem error_page_printed (status : Nat) (title announced content : Text) (r : Response) (start : r.writeIdx = 0)
    (fits : (page status title announced content r.linger).text.length < writeBufferSize - 1) :
    Printed (errorPage status title announced content r).2 (page status title announced content r.linger).text ∧
      (errorPage status title announced content r).1 = true := by
  have lengths := fits
  simp only [Message.text, page, List.length_append] at lengths
  obtain ⟨memory, index, frame⟩ := add_response_frame (statusLine status title) r
  have begun := status_line_printed status title r start (by omega)
  have same : (addStatusLine status title r).2.linger = r.linger := by
    rw [addStatusLine, frame]
  have headers := headers_printed announced.length _ _ begun (by rw [same]; simp only [List.length_append]; omega)
  rw [same] at headers
  exact add_response_fits content _ _ headers fits

theorem header_only_gather (r : Response) (text : Text) (printed : Printed r text) : (headerOnly r).gather = text := by
  obtain ⟨index, bytes⟩ := printed
  simp only [headerOnly, Response.gather, List.take_succ_cons, List.take_zero, List.flatMap_cons, List.flatMap_nil, List.append_nil]
  rw [index]
  exact bytes

theorem error_page_gather (status : Nat) (title announced content : Text) (r : Response) (start : r.writeIdx = 0)
    (short : (statusLine status title).length + announced.length + content.length ≤ 900) :
    (errorPage status title announced content r).1 = true ∧
      (headerOnly (errorPage status title announced content r).2).gather = (page status title announced content r.linger).text := by
  obtain ⟨printed, added⟩ := error_page_printed status title announced content r start (page_fits _ _ _ _ _ short)
  exact ⟨added, header_only_gather _ _ printed⟩

theorem page_clean (status : Nat) (title announced content : Text) (linger : Bool) (inline : Inline title) :
    (page status title announced content linger).Clean :=
  ⟨inline, headers_of_clean announced.length linger⟩

theorem page_framed_iff (status : Nat) (title announced content : Text) (linger : Bool) (inline : Inline title) :
    Framed (page status title announced content linger).text ↔
      ascii (toString announced.length) = ascii (toString content.length) := by
  have clean := page_clean status title announced content linger inline
  constructor
  · rintro ⟨m, ⟨mClean, length⟩, same⟩
    obtain ⟨headers, body⟩ := message_apart _ m clean mClean same
    rw [← headers, ← body] at length
    have lengths := (headers_of_length announced.length linger).symm.trans length
    exact congrArg Prod.snd (List.cons.inj lengths).1
  · intro same
    refine ⟨_, ⟨clean, ?_⟩, rfl⟩
    rw [page, headers_of_length, same]

end Printing

section Outcomes

theorem file_headers_fit (size : Nat) (linger : Bool) (small : size < 2 ^ 31) :
    (statusLine 200 ok200Title ++ (headersOf size linger).flatMap headerLine ++ ascii "\r\n").length < writeBufferSize - 1 := by
  have headers := headers_short size linger small
  have status : (statusLine 200 ok200Title).length = 17 := by decide +kernel
  have size : writeBufferSize - 1 = 1023 := rfl
  simp only [List.append_assoc, List.length_append] at headers ⊢
  omega

theorem file_response_gather (r : Response) (start : r.writeIdx = 0) (fits : r.fileSize < 2 ^ 31) :
    ∃ body : Text, body.length = r.fileSize ∧
      (headerAndFile (addHeaders r.fileSize (addStatusLine 200 ok200Title r).2).2).gather =
        Message.text ⟨200, ok200Title, headersOf r.fileSize r.linger, body⟩ := by
  obtain ⟨memory, index, first⟩ := add_response_frame (statusLine 200 ok200Title) r
  have begun := status_line_printed 200 ok200Title r start (by decide +kernel)
  have linger : (addStatusLine 200 ok200Title r).2.linger = r.linger := by
    rw [addStatusLine, first]
  have printed := headers_printed r.fileSize _ _ begun (by rw [linger]; exact file_headers_fit r.fileSize r.linger fits)
  obtain ⟨memory', index', second⟩ := add_headers_frame r.fileSize (addStatusLine 200 ok200Title r).2
  generalize whole : (addHeaders r.fileSize (addStatusLine 200 ok200Title r).2).2 = s at printed second ⊢
  have size : s.fileSize = r.fileSize := by
    rw [second, addStatusLine, first]
  obtain ⟨length, bytes⟩ := printed
  refine ⟨read s.memory s.fileAddress s.fileSize, by rw [read_length, size], ?_⟩
  simp only [headerAndFile, Response.gather, List.take_succ_cons, List.take_zero, List.flatMap_cons, List.flatMap_nil, List.append_nil]
  rw [length, bytes, linger]
  rfl

theorem file_response_framed (r : Response) (start : r.writeIdx = 0) (fits : r.fileSize < 2 ^ 31) :
    Framed (headerAndFile (addHeaders r.fileSize (addStatusLine 200 ok200Title r).2).2).gather := by
  obtain ⟨body, length, gathered⟩ := file_response_gather r start fits
  have title : Inline ok200Title := by decide +kernel
  refine ⟨_, ⟨⟨title, headers_of_clean r.fileSize r.linger⟩, ?_⟩, gathered⟩
  rw [headers_of_length, length]

theorem process_write_frames_iff (ret : HttpCode) (r : Response) (start : r.writeIdx = 0) (fits : r.fileSize < 2 ^ 31) :
    ((processWrite ret r).1 = true ∧ Framed (processWrite ret r).2.gather) ↔
      ret = .forbiddenRequest ∨ (ret = .fileRequest ∧ r.fileSize ≠ 0) := by
  cases ret with
  | forbiddenRequest =>
      obtain ⟨added, gathered⟩ := error_page_gather 403 error403Title error403Form error403Form r start (by decide +kernel)
      simp only [processWrite]
      rw [if_pos added, gathered, page_framed_iff _ _ _ _ _ (by decide +kernel)]
      exact ⟨fun _ => .inl trivial, fun _ => ⟨rfl, rfl⟩⟩
  | internalError =>
      obtain ⟨added, gathered⟩ := error_page_gather 500 error500Title error500Form error400Form r start (by decide +kernel)
      have apart : ¬ ascii (toString error500Form.length) = ascii (toString error400Form.length) := by decide +kernel
      simp only [processWrite]
      rw [if_pos added, gathered, page_framed_iff _ _ _ _ _ (by decide +kernel)]
      constructor
      · exact fun framed => absurd framed.2 apart
      · rintro (same | ⟨same, _⟩) <;> cases same
  | badRequest =>
      obtain ⟨added, _⟩ := error_page_gather 400 error400Title error400Form error400Form r start (by decide +kernel)
      simp only [processWrite]
      rw [if_pos added]
      simp
  | noResource =>
      obtain ⟨added, _⟩ := error_page_gather 404 error404Title error404Form error404Form r start (by decide +kernel)
      simp only [processWrite]
      rw [if_pos added]
      simp
  | fileRequest =>
      obtain ⟨memory, index, frame⟩ := add_response_frame (statusLine 200 ok200Title) r
      have size : (addStatusLine 200 ok200Title r).2.fileSize = r.fileSize := by
        rw [addStatusLine, frame]
      simp only [processWrite, size]
      by_cases empty : r.fileSize = 0
      · simp [empty]
      · rw [if_pos empty, to_int_small r.fileSize (by omega) (by omega)]
        exact ⟨fun _ => .inr ⟨trivial, empty⟩, fun _ => ⟨rfl, file_response_framed r start fits⟩⟩
  | noRequest => simp [processWrite]
  | getRequest => simp [processWrite]
  | closedConnection => simp [processWrite]

theorem process_write_frames_forbidden :
    ((processWrite .forbiddenRequest twoByteFile).1 = true ∧ Framed (processWrite .forbiddenRequest twoByteFile).2.gather) ↔
      HttpCode.forbiddenRequest = .forbiddenRequest ∨ (HttpCode.forbiddenRequest = .fileRequest ∧ twoByteFile.fileSize ≠ 0) :=
  process_write_frames_iff .forbiddenRequest twoByteFile rfl (by decide)

-- The 400 page is printed whole, and process_write says that it is not.
theorem bad_request_dropped : ¬ ((processWrite .badRequest twoByteFile).1 = true ∧
    Framed (processWrite .badRequest twoByteFile).2.gather) := by
  intro framed
  obtain ⟨added, _⟩ := error_page_gather 400 error400Title error400Form error400Form twoByteFile rfl (by decide +kernel)
  have ready := framed.1
  simp only [processWrite] at ready
  rw [if_pos added] at ready
  cases ready

end Outcomes

end WzyServer.Http
