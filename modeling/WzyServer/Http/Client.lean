import WzyServer.Base.Codec
import WzyServer.Http.Application

set_option autoImplicit false

namespace WzyServer.Http

open CString Codec

section Reading

def blankLine (text : Text) : Option Text :=
  match text with
  | 13 :: 10 :: rest => some rest
  | _ => none

def readLine (text : Text) : Option (Text × Text) :=
  (blankLine (text.dropWhile (· ≠ 13))).map fun rest => (text.takeWhile (· ≠ 13), rest)

def readHeader (text : Text) : Option ((Text × Text) × Text) := do
  let (line, rest) ← readLine text
  match line.dropWhile (· ≠ 58) with
  | 58 :: value => some ((line.takeWhile (· ≠ 58), value), rest)
  | _ => none

def readStatus (line : Text) : Option (Nat × Text) :=
  let version := ascii "HTTP/1.1 "
  if version.isPrefixOf line then
    match (line.drop version.length).dropWhile isDigit with
    | 32 :: title => some ((digits (line.drop version.length)).toNat, title)
    | _ => none
  else none

def bodyLength (headers : List (Text × Text)) : Option Nat :=
  match headers.filter fun header => header.1 = ascii "Content-Length" with
  | [header] => some (digits header.2).toNat
  | _ => none

def readMessage (text : Text) : Option (Message × Text) := do
  let (line, text) ← readLine text
  let (status, title) ← readStatus line
  let (headers, text) ← readSequence blankLine readHeader text
  let length ← bodyLength headers
  if length ≤ text.length then some (⟨status, title, headers, text.take length⟩, text.drop length) else none

def noBytes (text : Text) : Option Text := if text = [] then some [] else none

def readMessages (text : Text) : Option (List Message) := (readSequence noBytes readMessage text).map Prod.fst

theorem line_read (line rest : Text) (inline : Inline line) : readLine (line ++ (ascii "\r\n" ++ rest)) = some (line, rest) := by
  have shown : ∀ c ∈ line, decide (c ≠ 13) = true := fun c member => decide_eq_true (inline c member).1
  have ends : ascii "\r\n" ++ rest = 13 :: 10 :: rest := rfl
  rw [readLine, List.dropWhile_append_of_pos shown, List.takeWhile_append_of_pos shown, ends,
    List.dropWhile_cons_of_neg (by decide), List.takeWhile_cons_of_neg (by decide), List.append_nil]
  rfl

theorem header_read (header : Text × Text) (clean : CleanHeader header) : Reads readHeader headerLine header := by
  intro rest
  obtain ⟨name, value⟩ := header
  obtain ⟨_, inlineName, colon, inlineValue⟩ := clean
  have inline : Inline (name ++ ascii ":" ++ value) := inline_append _ _ (inline_append _ _ inlineName (by decide +kernel)) inlineValue
  have shown : ∀ c ∈ name, decide (c ≠ 58) = true := fun c member => decide_eq_true fun same => colon (same ▸ member)
  have parts : name ++ ascii ":" ++ value = name ++ 58 :: value := by
    rw [List.append_assoc]
    rfl
  rw [headerLine, readHeader, List.append_assoc, line_read _ rest inline, parts]
  simp only [Option.bind_eq_bind, Option.bind_some]
  rw [List.dropWhile_append_of_pos shown, List.takeWhile_append_of_pos shown, List.dropWhile_cons_of_neg (by decide),
    List.takeWhile_cons_of_neg (by decide), List.append_nil]
  rfl

theorem header_goes_on (header : Text × Text) (clean : CleanHeader header) (more : Text) : blankLine (headerLine header ++ more) = none := by
  obtain ⟨name, value⟩ := header
  obtain ⟨nonempty, inline, _⟩ := clean
  cases name with
  | nil => exact absurd rfl nonempty
  | cons c rest =>
      have visible := (inline c (List.mem_cons_self ..)).1
      unfold blankLine
      split
      · rename_i same
        exact absurd (List.cons.inj same).1 visible
      · rfl

theorem status_read (status : Nat) (title : Text) :
    readStatus (ascii "HTTP/1.1 " ++ ascii (toString status) ++ ascii " " ++ title) = some (status, title) := by
  have space : ascii " " ++ title = 32 :: title := rfl
  have number := digits_printed status (32 :: title) (by simp; decide)
  have shown := printed_digits status
  rw [List.append_assoc, List.append_assoc, space, readStatus]
  rw [if_pos (List.isPrefixOf_iff_prefix.mpr (List.prefix_append _ _)), List.drop_left, List.dropWhile_append_of_pos shown,
    List.dropWhile_cons_of_neg (by decide), number]
  rfl

theorem body_length_read (m : Message) (proper : m.Proper) : bodyLength m.headers = some m.body.length := by
  have number := digits_printed m.body.length [] (by simp)
  rw [List.append_nil] at number
  unfold bodyLength
  rw [proper.length]
  exact congrArg (fun length : Int => some length.toNat) number

theorem message_read_back (m : Message) (proper : m.Proper) : Reads readMessage Message.text m := by
  intro rest
  have inline : Inline (ascii "HTTP/1.1 " ++ ascii (toString m.status) ++ ascii " " ++ m.title) :=
    inline_append _ _ (inline_append _ _ (inline_append _ _ (by decide +kernel) (inline_number _)) (by decide +kernel)) proper.title
  have headers := read_sequence_written blankLine readHeader headerLine m.headers (ascii "\r\n" ++ (m.body ++ rest)) (m.body ++ rest)
    (fun header member => header_read header (proper.headers header member)) (fun header _ => by simp [headerLine, ascii])
    (fun header member => header_goes_on header (proper.headers header member)) rfl
  have split : m.text ++ rest = ascii "HTTP/1.1 " ++ ascii (toString m.status) ++ ascii " " ++ m.title ++
      (ascii "\r\n" ++ (m.headers.flatMap headerLine ++ (ascii "\r\n" ++ (m.body ++ rest)))) := by
    simp only [Message.text, statusLine, List.append_assoc]
  rw [split, readMessage, line_read _ _ inline]
  simp only [Option.bind_eq_bind, Option.bind_some, status_read, headers, body_length_read m proper]
  rw [if_pos (by simp), List.take_left, List.drop_left]

theorem messages_read_back (messages : List Message) (proper : ∀ m ∈ messages, m.Proper) :
    readMessages (messages.flatMap Message.text) = some messages := by
  have some_byte : ∀ m : Message, ∀ more, m.text ++ more ≠ [] := by
    intro m more
    simp [Message.text, statusLine, ascii]
  have read := read_sequence_written noBytes readMessage Message.text messages [] []
    (fun m member => message_read_back m (proper m member)) (fun m _ => by simpa using some_byte m [])
    (fun m _ more => if_neg (some_byte m more)) rfl
  rw [List.append_nil] at read
  rw [readMessages, read]
  rfl

end Reading

section Connection

variable {Db : Type} (mysqlQuery : Db → Text → Int × Db) (site : Site) (hand : Reply Db → Response)
  (hands : ∀ reply, Handed reply (hand reply)) (small : ∀ path file, site.stat path = some file → file.content.length < 2 ^ 31)

theorem sent_text (answers : List (Option Message)) :
    ((answers.map (Option.map Message.text)).flatMap fun answer => answer.getD []) = answers.reduceOption.flatMap Message.text := by
  induction answers with
  | nil => rfl
  | cons answer rest ih =>
      cases answer with
      | none => exact ih
      | some m => exact congrArg (m.text ++ ·) ih

include hands small in
theorem client_reads_answers (w : World Db) (exchanges : List Exchange) :
    ∃ answers final, serveAll mysqlQuery site hand w exchanges = .ok (answers, final) ∧
      readMessages (answers.flatMap fun answer => answer.getD []) = some (answerAll mysqlQuery site w exchanges).1.reduceOption := by
  refine ⟨_, _, exchanges_served mysqlQuery site hand hands small w exchanges, ?_⟩
  rw [sent_text]
  apply messages_read_back
  intro message member
  exact answers_proper mysqlQuery site w exchanges message (List.reduceOption_mem_iff.mp member)

end Connection

theorem client_reads_answers_login : ∃ answers final,
    serveAll oneRow welcomeSite beside ⟨loadUsers [], []⟩ [registerExchange, loginExchange] = .ok (answers, final) ∧
      readMessages (answers.flatMap fun answer => answer.getD []) =
        some (answerAll oneRow welcomeSite ⟨loadUsers [], []⟩ [registerExchange, loginExchange]).1.reduceOption :=
  client_reads_answers oneRow welcomeSite beside beside_handed welcome_small ⟨loadUsers [], []⟩ [registerExchange, loginExchange]

end WzyServer.Http
