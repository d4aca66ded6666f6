import WzyServer.Http.DoRequest

set_option autoImplicit false

namespace WzyServer.Http

open CString Word

structure Iovec where
  base : Nat
  len : Nat
deriving DecidableEq, Repr

-- The fields of http_conn that making and sending a response use. `memory` is the
-- address space: m_write_buf stands at `writeBuf`, the mapped file at `fileAddress`
-- (0 is the null pointer), and `fileSize` is m_file_stat.st_size.
structure Response where
  memory : Memory
  writeBuf : Nat
  writeIdx : Nat
  linger : Bool
  fileAddress : Nat
  fileSize : Nat
  iv0 : Iovec
  iv1 : Iovec
  ivCount : Nat
  bytesToSend : Int
  bytesHaveSend : Int

def ok200Title : Text := ascii "OK"
def error400Title : Text := ascii "Bad Request"
def error400Form : Text := ascii "Your request has bad sytex or is inherently impossible to satisfy.\n"
def error403Title : Text := ascii "Forbidden"
def error403Form : Text := ascii "You do not have permission to get file from this server.\n"
def error404Title : Text := ascii "Not Found"
def error404Form : Text := ascii "The requested file was not found on this server.\n"
def error500Title : Text := ascii "Internal Error"
def error500Form : Text := ascii "There was an unusual problem serving the requested file.\n"
def okString : Text := ascii "<html><body></body></html>"

-- add_response of a text already formatted. A text that does not fit is cut off
-- behind m_write_idx and not counted.
def addResponse (text : Text) (r : Response) : Bool × Response :=
  if writeBufferSize ≤ r.writeIdx then (false, r)
  else
    let size := writeBufferSize - 1 - r.writeIdx
    let memory := vsnprintf r.memory (r.writeBuf + r.writeIdx) size text
    if size ≤ text.length then (false, { r with memory := memory })
    else (true, { r with memory := memory, writeIdx := r.writeIdx + text.length })

def statusLine (status : Nat) (title : Text) : Text :=
  ascii "HTTP/1.1 " ++ ascii (toString status) ++ ascii " " ++ title ++ ascii "\r\n"

def addStatusLine (status : Nat) (title : Text) (r : Response) : Bool × Response := addResponse (statusLine status title) r

def addContentLength (contentLen : Int) (r : Response) : Bool × Response :=
  addResponse (ascii "Content-Length:" ++ ascii (toString contentLen) ++ ascii "\r\n") r

def addLinger (r : Response) : Bool × Response :=
  addResponse (ascii "Connection:" ++ (if r.linger then ascii "keep-alive" else ascii "close") ++ ascii "\r\n") r

def addBlankLine (r : Response) : Bool × Response := addResponse (ascii "\r\n") r

-- add_headers is true whatever its three lines come to.
def addHeaders (contentLen : Int) (r : Response) : Bool × Response :=
  (true, (addBlankLine (addLinger (addContentLength contentLen r).2).2).2)

def addContent (content : Text) (r : Response) : Bool × Response := addResponse content r

def errorPage (status : Nat) (title announced content : Text) (r : Response) : Bool × Response :=
  addContent content (addHeaders announced.length (addStatusLine status title r).2).2

def headerOnly (r : Response) : Response := { r with iv0 := ⟨r.writeBuf, r.writeIdx⟩, ivCount := 1 }

def headerAndFile (r : Response) : Response :=
  { r with
    iv0 := ⟨r.writeBuf, r.writeIdx⟩, iv1 := ⟨r.fileAddress, r.fileSize⟩, ivCount := 2,
    bytesToSend := toInt (r.writeIdx + r.fileSize) }

-- BAD_REQUEST and NO_RESOURCE give up where add_content succeeds; FILE_REQUEST on
-- an empty file falls through to `default`.
def processWrite (ret : HttpCode) (r : Response) : Bool × Response :=
  match ret with
  | .internalError =>
      let page := errorPage 500 error500Title error500Form error400Form r
      if page.1 then (true, headerOnly page.2) else (false, page.2)
  | .forbiddenRequest =>
      let page := errorPage 403 error403Title error403Form error403Form r
      if page.1 then (true, headerOnly page.2) else (false, page.2)
  | .badRequest =>
      let page := errorPage 400 error400Title error400Form error400Form r
      if page.1 then (false, page.2) else (true, headerOnly page.2)
  | .noResource =>
      let page := errorPage 404 error404Title error404Form error404Form r
      if page.1 then (false, page.2) else (true, headerOnly page.2)
  | .fileRequest =>
      let begun := (addStatusLine 200 ok200Title r).2
      if begun.fileSize ≠ 0 then (true, headerAndFile (addHeaders (toInt begun.fileSize) begun).2)
      else (false, (addContent okString (addHeaders okString.length begun).2).2)
  | _ => (false, r)

structure Printed (r : Response) (text : Text) : Prop where
  index : r.writeIdx = text.length
  bytes : read r.memory r.writeBuf text.length = text

def extend (printed text : Text) : Text := if (printed ++ text).length < writeBufferSize - 1 then printed ++ text else printed

theorem add_response_printed (text printed : Text) (r : Response) (here : Printed r printed) :
    Printed (addResponse text r).2 (extend printed text) ∧
      ((addResponse text r).1 = true ↔ (printed ++ text).length < writeBufferSize - 1) := by
  obtain ⟨index, bytes⟩ := here
  have size : writeBufferSize = 1024 := rfl
  have kept : ∀ limit, read (vsnprintf r.memory (r.writeBuf + r.writeIdx) limit text) r.writeBuf printed.length = printed := by
    intro limit
    rw [read_congr _ r.memory]
    · exact bytes
    · intro address _ below
      exact vsnprintf_before _ _ _ _ _ (by omega)
  unfold addResponse extend
  rw [List.length_append]
  by_cases full : writeBufferSize ≤ r.writeIdx
  · rw [if_pos full, if_neg (by omega)]
    exact ⟨⟨index, bytes⟩, by simp; omega⟩
  · rw [if_neg full]
    dsimp only
    by_cases tooLong : writeBufferSize - 1 - r.writeIdx ≤ text.length
    · rw [if_pos tooLong, if_neg (by omega)]
      exact ⟨⟨index, kept _⟩, by simp; omega⟩
    · rw [if_neg tooLong, if_pos (by omega)]
      have added := vsnprintf_whole r.memory (r.writeBuf + r.writeIdx) _ text (Nat.lt_of_not_le tooLong)
      refine ⟨⟨by simp [index], ?_⟩, by simp; omega⟩
      have before := kept (writeBufferSize - 1 - r.writeIdx)
      rw [List.length_append, read_append]
      dsimp only
      rw [before, ← index, added]

def Begins (r : Response) (line : Text) : Prop := ∃ rest, Printed r (line ++ rest)

theorem add_response_begins (text line : Text) (r : Response) (begun : Begins r line) : Begins (addResponse text r).2 line := by
  obtain ⟨rest, printed⟩ := begun
  have after := (add_response_printed text _ r printed).1
  unfold extend at after
  split at after
  · exact ⟨rest ++ text, by rwa [List.append_assoc] at after⟩
  · exact ⟨rest, after⟩

theorem status_line_begins (status : Nat) (title : Text) (r : Response) (start : r.writeIdx = 0)
    (short : (statusLine status title).length < writeBufferSize - 1) :
    Begins (addStatusLine status title r).2 (statusLine status title) := by
  have nothing : Printed r [] := ⟨start, rfl⟩
  have after := (add_response_printed (statusLine status title) [] r nothing).1
  rw [extend, List.nil_append, if_pos short] at after
  exact ⟨[], by rwa [List.append_nil]⟩

theorem headers_begin (contentLen : Int) (line : Text) (r : Response) (begun : Begins r line) :
    Begins (addHeaders contentLen r).2 line := by
  have lengthAdded : Begins (addContentLength contentLen r).2 line := add_response_begins _ line r begun
  have lingerAdded : Begins (addLinger (addContentLength contentLen r).2).2 line := add_response_begins _ line _ lengthAdded
  exact add_response_begins _ line _ lingerAdded

theorem error_page_begins (status : Nat) (title announced content : Text) (r : Response) (start : r.writeIdx = 0)
    (short : (statusLine status title).length < writeBufferSize - 1) :
    Begins (errorPage status title announced content r).2 (statusLine status title) :=
  add_response_begins _ _ _ (headers_begin _ _ _ (status_line_begins status title r start short))

structure Prepared (r : Response) : Prop where
  line : ∃ status title, Begins r (statusLine status title)
  header : r.iv0 = ⟨r.writeBuf, r.writeIdx⟩
  file : r.ivCount = 1 ∨ (r.ivCount = 2 ∧ r.iv1 = ⟨r.fileAddress, r.fileSize⟩)

theorem header_only_prepared (r : Response) (status : Nat) (title : Text) (begun : Begins r (statusLine status title)) :
    Prepared (headerOnly r) := by
  obtain ⟨rest, index, bytes⟩ := begun
  exact ⟨⟨status, title, rest, index, bytes⟩, rfl, .inl rfl⟩

theorem header_and_file_prepared (r : Response) (status : Nat) (title : Text) (begun : Begins r (statusLine status title)) :
    Prepared (headerAndFile r) := by
  obtain ⟨rest, index, bytes⟩ := begun
  exact ⟨⟨status, title, rest, index, bytes⟩, rfl, .inr ⟨rfl, rfl⟩⟩

inductive Written (r : Response) : Bool × Response → Prop where
  | page (status : Nat) (title announced content : Text) (short : (statusLine status title).length < writeBufferSize - 1) :
      Written r (true, headerOnly (errorPage status title announced content r).2)
  | dropped (status : Nat) (title announced content : Text) : Written r (false, (errorPage status title announced content r).2)
  | file (begun : Response) (line : (addStatusLine 200 ok200Title r).2 = begun) (notEmpty : begun.fileSize ≠ 0) :
      Written r (true, headerAndFile (addHeaders (toInt begun.fileSize) begun).2)
  | emptyFile (begun : Response) (line : (addStatusLine 200 ok200Title r).2 = begun) :
      Written r (false, (addContent okString (addHeaders okString.length begun).2).2)
  | nothing : Written r (false, r)

theorem process_write_written (ret : HttpCode) (r : Response) : Written r (processWrite ret r) := by
  cases ret with
  | internalError =>
      simp only [processWrite]
      split
      · exact .page 500 error500Title error500Form error400Form (by decide)
      · exact .dropped 500 error500Title error500Form error400Form
  | forbiddenRequest =>
      simp only [processWrite]
      split
      · exact .page 403 error403Title error403Form error403Form (by decide)
      · exact .dropped 403 error403Title error403Form error403Form
  | badRequest =>
      simp only [processWrite]
      split
      · exact .dropped 400 error400Title error400Form error400Form
      · exact .page 400 error400Title error400Form error400Form (by decide)
  | noResource =>
      simp only [processWrite]
      split
      · exact .dropped 404 error404Title error404Form error404Form
      · exact .page 404 error404Title error404Form error404Form (by decide)
  | fileRequest =>
      simp only [processWrite]
      split
      · rename_i notEmpty
        exact .file _ rfl notEmpty
      · exact .emptyFile _ rfl
  | noRequest => exact .nothing
  | getRequest => exact .nothing
  | closedConnection => exact .nothing

theorem process_write_prepared (ret : HttpCode) (r : Response) (start : r.writeIdx = 0)
    (ready : (processWrite ret r).1 = true) : Prepared (processWrite ret r).2 := by
  have written := process_write_written ret r
  generalize processWrite ret r = result at ready written ⊢
  cases written with
  | page status title announced content short =>
      exact header_only_prepared _ status title (error_page_begins status title announced content r start short)
  | file begun line notEmpty =>
      have lineBegun := status_line_begins 200 ok200Title r start (by decide)
      rw [line] at lineBegun
      exact header_and_file_prepared _ 200 ok200Title (headers_begin _ _ _ lineBegun)
  | dropped status title announced content => cases ready
  | emptyFile begun line => cases ready
  | nothing => cases ready

end WzyServer.Http
