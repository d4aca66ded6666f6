import Mathlib.Data.List.Lemmas
import WzyServer.Base.Quoted
import WzyServer.Http.Accounts

set_option autoImplicit false

namespace WzyServer.Http

open CString Quoted

def singleQuote : UInt8 := 39
def backslash : UInt8 := 92

-- One INSERT of two string literals, with nothing behind it. What a backslash makes of
-- the byte behind it is left to `unescape`.
def readInsert (unescape : UInt8 → UInt8) (statement : Text) : Option (Text × Text) :=
  (statement.dropPrefix? (ascii "INSERT INTO user(username, password) VALUES('")).bind fun values =>
    (literal singleQuote backslash unescape values).bind fun (name, afterName) =>
      (afterName.dropPrefix? (ascii ", '")).bind fun second =>
        (literal singleQuote backslash unescape second).bind fun (password, rest) =>
          if rest = ascii ")" then some (name, password) else none

def PlainField (field : Text) : Prop := Plain singleQuote backslash field

instance (field : Text) : Decidable (PlainField field) := inferInstanceAs (Decidable (Plain _ _ _))

def recording (answer : List Text → Text → Int) (sent : List Text) (statement : Text) : Int × List Text :=
  (answer sent statement, sent ++ [statement])

section Reading

theorem drop_front (front rest : Text) : (front ++ rest).dropPrefix? front = some rest :=
  List.dropPrefix?_eq_some_iff.mpr ⟨front, rfl, beq_self_eq_true front⟩

theorem dropped_front (front text rest : Text) (dropped : text.dropPrefix? front = some rest) : text = front ++ rest := by
  obtain ⟨start, whole, same⟩ := List.dropPrefix?_eq_some_iff.mp dropped
  rw [whole, eq_of_beq same]

theorem insert_statement_parts (name password : Text) :
    insertStatement name password = ascii "INSERT INTO user(username, password) VALUES('" ++
      (name ++ singleQuote :: (ascii ", '" ++ (password ++ singleQuote :: ascii ")"))) := by
  have front : ascii "INSERT INTO user(username, password) VALUES('" =
      ascii "INSERT INTO user(username, password) VALUES(" ++ ascii "'" := by decide +kernel
  have between : ascii "', '" = singleQuote :: ascii ", '" := by decide
  have close : ascii "')" = singleQuote :: ascii ")" := by decide
  rw [insertStatement, front, between, close]
  simp only [List.append_assoc, List.cons_append]

variable (unescape : UInt8 → UInt8)

theorem read_insert_some (statement name password : Text) (read : readInsert unescape statement = some (name, password)) :
    ∃ values second, statement = ascii "INSERT INTO user(username, password) VALUES('" ++ values ∧
      literal singleQuote backslash unescape values = some (name, ascii ", '" ++ second) ∧
      literal singleQuote backslash unescape second = some (password, ascii ")") := by
  obtain ⟨values, dropped, read⟩ := Option.bind_eq_some_iff.mp read
  obtain ⟨⟨first, afterName⟩, firstRead, read⟩ := Option.bind_eq_some_iff.mp read
  obtain ⟨second, between, read⟩ := Option.bind_eq_some_iff.mp read
  obtain ⟨⟨last, rest⟩, lastRead, read⟩ := Option.bind_eq_some_iff.mp read
  dsimp only at between read
  split at read
  · rename_i closed
    cases read
    rw [dropped_front _ _ _ between] at firstRead
    rw [closed] at lastRead
    exact ⟨values, second, dropped_front _ _ _ dropped, firstRead, lastRead⟩
  · cases read

theorem read_insert_plain (name password : Text) (plainName : PlainField name) (plainPassword : PlainField password) :
    readInsert unescape (insertStatement name password) = some (name, password) := by
  have comma : (ascii ", '" ++ (password ++ singleQuote :: ascii ")")).head? ≠ some singleQuote := by
    rw [show ascii ", '" = 44 :: ascii " '" by decide, List.cons_append, List.head?_cons]
    decide
  have first := literal_plain singleQuote backslash unescape name
    (ascii ", '" ++ (password ++ singleQuote :: ascii ")")) plainName comma
  have last := literal_plain singleQuote backslash unescape password (ascii ")") plainPassword (by decide)
  simp only [readInsert, insert_statement_parts, drop_front, Option.bind_some, first, last, if_true]

theorem read_insert_iff (name password : Text) :
    readInsert unescape (insertStatement name password) = some (name, password) ↔ PlainField name ∧ PlainField password := by
  constructor
  · intro read
    obtain ⟨values, second, whole, first, last⟩ := read_insert_some unescape _ name password read
    rw [insert_statement_parts, List.append_cancel_left_eq] at whole
    obtain ⟨bound, tight⟩ := literal_length _ _ unescape values name _ first
    obtain ⟨boundLast, tightLast⟩ := literal_length _ _ unescape second password _ last
    have length := congrArg List.length whole
    simp only [List.length_append, List.length_cons] at length bound tight
    exact ⟨tight (by omega), tightLast (by omega)⟩
  · exact fun ⟨plainName, plainPassword⟩ => read_insert_plain unescape name password plainName plainPassword

theorem insert_statement_count (c : UInt8) (name password : Text) :
    (insertStatement name password).count c = (insertStatement [] []).count c + (name.count c + password.count c) := by
  simp only [insertStatement, List.count_append, List.count_nil]
  omega

theorem plain_of_same (name password other word : Text) (plain : PlainField name ∧ PlainField password)
    (same : insertStatement name password = insertStatement other word) : PlainField other ∧ PlainField word := by
  obtain ⟨⟨noQuote, noEscape⟩, noQuoteLast, noEscapeLast⟩ := plain
  have none : ∀ c, c ∉ name → c ∉ password → c ∉ other ∧ c ∉ word := by
    intro c first last
    have counts := congrArg (List.count c) same
    rw [insert_statement_count c name password, insert_statement_count c other word, List.count_eq_zero.mpr first,
      List.count_eq_zero.mpr last] at counts
    exact ⟨List.count_eq_zero.mp (by omega), List.count_eq_zero.mp (by omega)⟩
  obtain ⟨quoteOther, quoteWord⟩ := none singleQuote noQuote noQuoteLast
  obtain ⟨escapeOther, escapeWord⟩ := none backslash noEscape noEscapeLast
  exact ⟨⟨quoteOther, escapeOther⟩, quoteWord, escapeWord⟩

theorem insert_statement_injective (name password other word : Text) (plain : PlainField name ∧ PlainField password)
    (same : insertStatement name password = insertStatement other word) : name = other ∧ password = word := by
  have plainOther := plain_of_same name password other word plain same
  have read := read_insert_plain id name password plain.1 plain.2
  rw [same, read_insert_plain id other word plainOther.1 plainOther.2] at read
  exact ⟨(Prod.mk.inj (Option.some.inj read)).1.symm, (Prod.mk.inj (Option.some.inj read)).2.symm⟩

end Reading

section Sent

variable (answer : List Text → Text → Int)

theorem registration_sends (site : Site) (r : Request) (w : World (List Text)) (name password : Text)
    (form : submittedForm r = some (51, name, password)) (absent : w.users name = none)
    (fits : ∀ kind, (doRequest (recording answer) site r w).outcome ≠ .fault kind) :
    (doRequest (recording answer) site r w).world.db = w.db ++ [insertStatement name password] := by
  rcases do_request_world (recording answer) site r w with ⟨kind, fault⟩ | ⟨none, _⟩ | ⟨route, user, word, page, found, page_of⟩
  · exact absurd fault (fits kind)
  · rw [form] at none
    cases none
  · cases form.symm.trans found
    generalize (doRequest (recording answer) site r w).world = after at page_of
    cases form_page_answer (recording answer) 51 name password page w after page_of with
    | registered _ _ _ _ => rfl
    | refused _ _ _ _ => rfl
    | duplicate _ _ present => exact absurd absent present
    | welcome _ _ _ other _ => exact absurd rfl other
    | logError _ _ _ other _ => exact absurd rfl other

theorem statement_unambiguous_iff (unescape : UInt8 → UInt8) (site : Site) (r : Request) (w : World (List Text))
    (name password : Text) (form : submittedForm r = some (51, name, password)) (absent : w.users name = none)
    (fits : ∀ kind, (doRequest (recording answer) site r w).outcome ≠ .fault kind) :
    ∃ statement, (doRequest (recording answer) site r w).world.db = w.db ++ [statement] ∧
      (readInsert unescape statement = some (name, password) ↔ PlainField name ∧ PlainField password) ∧
      (PlainField name ∧ PlainField password → ∀ other word, statement = insertStatement other word → name = other ∧ password = word) :=
  ⟨insertStatement name password, registration_sends answer site r w name password form absent fits,
    read_insert_iff unescape name password,
    fun plain other word same => insert_statement_injective name password other word plain same⟩

theorem statement_unambiguous_iff_registration :
    ∃ statement, (doRequest (recording fun _ _ => 0) emptySite registration ⟨fun _ => none, []⟩).world.db = [] ++ [statement] ∧
      (readInsert id statement = some (ascii "1", ascii "2") ↔ PlainField (ascii "1") ∧ PlainField (ascii "2")) ∧
      (PlainField (ascii "1") ∧ PlainField (ascii "2") → ∀ other word,
        statement = insertStatement other word → ascii "1" = other ∧ ascii "2" = word) := by
  have outcome : (doRequest (recording fun _ _ => 0) emptySite registration ⟨fun _ => none, []⟩).outcome = .code .noResource := by
    decide +kernel
  refine statement_unambiguous_iff (fun _ _ => 0) id emptySite registration ⟨fun _ => none, []⟩ _ _ (by decide +kernel) rfl ?_
  intro kind fault
  rw [outcome] at fault
  cases fault

def quotedName : Request :=
  (parseRead (Request.fresh.init.feed (ascii "POST /3 HTTP/1.1\r\nContent-Length: 22\r\n\r\nuser=a', 'b&password=c"))).2

theorem quote_ends_literal :
    submittedForm quotedName = some (51, ascii "a', 'b", ascii "c") ∧
      (doRequest (recording fun _ _ => 0) emptySite quotedName ⟨fun _ => none, []⟩).world.db =
        [insertStatement (ascii "a', 'b") (ascii "c")] ∧
      readInsert id (insertStatement (ascii "a', 'b") (ascii "c")) ≠ some (ascii "a', 'b", ascii "c") ∧
      insertStatement (ascii "a', 'b") (ascii "c") = insertStatement (ascii "a") (ascii "b', 'c") := by
  decide +kernel

end Sent

end WzyServer.Http
