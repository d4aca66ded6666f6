import WzyServer.Http.FormBounds
import WzyServer.Http.PostRequest

set_option autoImplicit false

namespace WzyServer.Http

open CString Accesses

def formBody (user password : Text) : Text := ascii "user=" ++ (user ++ (ascii "&password=" ++ password))

structure LoginRequest where
  target : Text
  dir : Text
  rest : Text
  headers : List Text
  user : Text
  password : Text
  accepted : PostTarget target (dir ++ slash :: 50 :: rest)
  lastSegment : slash ∉ rest
  urlShort : (dir ++ slash :: 50 :: rest).length < 200
  lines : ∀ line ∈ headers, HeaderText line
  announced : declared headers = (formBody user password).length
  userClean : ∀ c ∈ user, c ≠ 38 ∧ c ≠ 0
  userShort : user.length ≤ 99
  passwordClean : ∀ c ∈ password, c ≠ 0
  passwordShort : password.length ≤ 99
  short : (postHead target headers ++ (lineEnd ++ formBody user password)).length < readBufferSize

def LoginRequest.bytes (request : LoginRequest) : Text :=
  postHead request.target request.headers ++ (lineEnd ++ formBody request.user request.password)

theorem form_body_length (user password : Text) : (formBody user password).length = user.length + password.length + 15 := by
  have five : (ascii "user=").length = 5 := by decide
  have ten : (ascii "&password=").length = 10 := by decide
  simp only [formBody, List.length_append, five, ten]
  omega

theorem text_stops_at (memory : Memory) (address : Nat) (front rear : Text) (stop : UInt8) (single : stop ∉ front)
    (here : TextAt memory address (front ++ stop :: rear)) : StopsAt memory address stop front.length := by
  constructor
  · rw [here.bytes front.length (by simp), List.getElem_append_right (Nat.le_refl _)]
    simp
  · intro offset inside same
    rw [here.bytes offset (by simp only [List.length_append]; omega), List.getElem_append_left inside] at same
    exact single (same ▸ List.getElem_mem inside)

theorem text_stops_at_nul (memory : Memory) (address : Nat) (text : Text) (here : TextAt memory address text) :
    StopsAt memory address 0 text.length := by
  refine ⟨here.nul, fun offset inside => ?_⟩
  rw [here.bytes offset inside]
  exact here.clean _ (List.getElem_mem inside)

theorem read_front (memory : Memory) (address : Nat) (front rear : Text) (here : TextAt memory address (front ++ rear)) :
    read memory address front.length = front := by
  have whole := read_text_at memory address _ here
  rw [List.length_append, read_append] at whole
  exact (List.append_inj whole (read_length _ _ _)).1

-- The fixed offsets 5 and 10 are the lengths of `user=` and of `&password=`.
theorem form_fields (r : Request) (text : Nat) (user password : Text) (userClean : ∀ c ∈ user, c ≠ 38 ∧ c ≠ 0)
    (userShort : user.length ≤ 99) (passwordShort : password.length ≤ 99) (string : r.string = some text)
    (here : TextAt r.readBuf text (formBody user password)) (room : text + (formBody user password).length < readBufferSize) :
    readForm r = .ok (user, password) := by
  have length := form_body_length user password
  have userText : TextAt r.readBuf (text + 5) (user ++ (ascii "&password=" ++ password)) :=
    text_at_drop r.readBuf text (ascii "user=") _ here
  have passwordText : TextAt r.readBuf (text + 5 + user.length + 10) password :=
    text_at_drop r.readBuf _ (ascii "&password=") _ (text_at_drop r.readBuf _ user _ userText)
  have nameEnds : StopsAt r.readBuf (text + 5) 38 user.length :=
    text_stops_at r.readBuf _ user (ascii "password=" ++ password) 38 (fun member => (userClean 38 member).1 rfl) userText
  have passwordEnds := text_stops_at_nul r.readBuf _ password passwordText
  rw [read_form_ok_iff]
  refine ⟨text, user.length, password.length, string,
    ⟨nameEnds, by omega, by omega, passwordEnds, by omega, by omega, False.elim⟩, ?_, ?_⟩
  · rw [nameAt, read_front _ _ user _ userText, List.takeWhile_eq_self_iff.mpr]
    intro c member
    exact decide_eq_true (userClean c member).2
  · rw [read_text_at _ _ password passwordText]

section Database

variable {Db : Type} (mysqlQuery : Db → Text → Int × Db)

def loginPage (w : World Db) (user password : Text) : Text :=
  if w.users user = some password then ascii "/welcome.html" else ascii "/logError.html"

theorem login_page_length (w : World Db) (user password : Text) : (loginPage w user password).length ≤ 14 := by
  unfold loginPage
  split <;> decide

theorem login_page (w : World Db) (user password : Text) :
    formPage mysqlQuery 50 user password w = .ok (loginPage w user password, w) := by
  unfold formPage loginPage login
  simp

theorem form_answered (site : Site) (r : Request) (url slashAt : Nat) (w after : World Db) (user password page : Text)
    (form : readForm r = .ok (user, password))
    (answer : formPage mysqlQuery (r.readBuf (slashAt + 1)) user password w = .ok (page, after))
    (short : (cstr r.readBuf (url + 2)).length ≤ 198) (room : url + page.length + 1 ≤ readBufferSize) :
    ∃ answered, answerForm mysqlQuery site (rootFile site r) url slashAt w = .ok (answered, after) ∧ answered.linger = r.linger := by
  have fits : ¬ 200 ≤ (cstr (rootFile site r).readBuf (url + 2)).length + 1 := by
    change ¬ 200 ≤ (cstr r.readBuf (url + 2)).length + 1
    omega
  refine ⟨{ rootFile site r with
    realFile := strncpy (rootFile site r).realFile site.docRoot.path.length (slash :: cstr r.readBuf (url + 2))
      (fileNameLen - site.docRoot.path.length - 1),
    readBuf := write r.readBuf url (page ++ [0]) }, ?_, rfl⟩
  unfold answerForm
  dsimp only
  rw [if_neg fits]
  change (readForm r >>= _) = _
  rw [form]
  change (formPage mysqlQuery (r.readBuf (slashAt + 1)) user password w >>= _) = _
  rw [answer]
  change (if readBufferSize < url + page.length + 1 then _ else _) = _
  rw [if_neg (by omega)]
  rfl

theorem login_answered (site : Site) (r : Request) (url slashAt : Nat) (w : World Db) (user password : Text)
    (form : readForm r = .ok (user, password)) (route : r.readBuf (slashAt + 1) = 50)
    (short : (cstr r.readBuf (url + 2)).length ≤ 198) (room : url + 15 ≤ readBufferSize) :
    ∃ answered, answerForm mysqlQuery site (rootFile site r) url slashAt w = .ok (answered, w) := by
  have page := login_page_length w user password
  obtain ⟨answered, ok, _⟩ := form_answered mysqlQuery site r url slashAt w w user password (loginPage w user password) form
    (by rw [route, login_page]) short (by omega)
  exact ⟨answered, ok⟩

theorem login_received (site : Site) (r : Request) (dir rest user password : Text) (w : World Db) (lastSegment : slash ∉ rest)
    (urlShort : (dir ++ slash :: 50 :: rest).length < 200) (userClean : ∀ c ∈ user, c ≠ 38 ∧ c ≠ 0)
    (userShort : user.length ≤ 99) (passwordShort : password.length ≤ 99) (parsed : Parsed r)
    (received : FormReceived (dir ++ slash :: 50 :: rest) (formBody user password) r) :
    let reply := doRequest mysqlQuery site r w
    submittedForm r = some (50, user, password) ∧ (∃ value, reply.outcome = .code value) ∧ reply.world = w ∧
      realPath reply.request = site.docRoot.path ++ loginPage w user password := by
  obtain ⟨cgi, url, text, target, urlText, above, string, bodyText, room⟩ := received
  have bodyLength := form_body_length user password
  have form := form_fields r text user password userClean userShort passwordShort string bodyText room
  have urlString := text_at_cstr r.readBuf url _ urlText (by omega)
  have found : strrchr (cstr r.readBuf url) slash = some dir.length := by
    rw [urlString]
    exact strrchr_last dir (50 :: rest) slash (List.not_mem_cons_of_ne_of_not_mem (by decide) lastSegment)
  have route : r.readBuf (url + dir.length + 1) = 50 := by
    have behind := text_at_drop r.readBuf url dir _ urlText
    exact behind.bytes 1 (by simp)
  have tail : (cstr r.readBuf (url + 2)).length ≤ 198 := by
    have two : (List.take 2 (dir ++ slash :: 50 :: rest)).length = 2 := by
      simp only [List.length_take, List.length_append, List.length_cons]
      omega
    have whole := urlText
    rw [← List.take_append_drop 2 (dir ++ slash :: 50 :: rest)] at whole
    have behind := text_at_drop r.readBuf url _ _ whole
    rw [two] at behind
    rw [text_at_cstr r.readBuf _ _ behind (by simp only [List.length_drop]; omega), List.length_drop]
    omega
  have isForm : r.cgi = 1 ∧ (r.readBuf (url + dir.length + 1) = 50 ∨ r.readBuf (url + dir.length + 1) = 51) := ⟨cgi, .inl route⟩
  have submitted : submittedForm r = some (50, user, password) := by
    simp only [submittedForm, target, found, form]
    rw [if_pos isForm, route]
  obtain ⟨answered, ok⟩ := login_answered mysqlQuery site r url (url + dir.length) w user password form route tail (by omega)
  obtain ⟨name, word, page, sameForm, answer, _, path⟩ :=
    form_answer_path mysqlQuery site r answered url (url + dir.length) w w parsed.cleared isForm.2 ok
  rw [form] at sameForm
  cases sameForm
  rw [route, login_page] at answer
  cases answer
  dsimp only
  rw [do_request_slash mysqlQuery site r url dir.length w target found, if_pos isForm, ok]
  dsimp only
  rw [open_file_request, open_file_world]
  exact ⟨submitted, open_file_code site _ w, rfl, path⟩

theorem login_decided (site : Site) (slot : Request) (request : LoginRequest) (w : World Db) :
    let parsed := parseRead (slot.init.feed request.bytes)
    let reply := processRead mysqlQuery site (slot.init.feed request.bytes) w
    parsed.1 = .code .getRequest ∧ submittedForm parsed.2 = some (50, request.user, request.password) ∧
      (∃ value, reply.outcome = .code value) ∧ reply.world = w ∧
      realPath reply.request = site.docRoot.path ++
        if w.users request.user = some request.password then ascii "/welcome.html" else ascii "/logError.html" := by
  obtain ⟨target, dir, rest, headers, user, password, accepted, lastSegment, urlShort, lines, announced, userClean, userShort,
    passwordClean, passwordShort, short⟩ := request
  have bodyLength := form_body_length user password
  have named : (dir ++ slash :: 50 :: rest).length ≠ 1 := by
    simp only [List.length_append, List.length_cons]
    omega
  have word : ∀ c ∈ ascii "user=" ++ ascii "&password=", c ≠ 0 := by decide +kernel
  have clean : ∀ c ∈ formBody user password, c ≠ 0 := by
    intro c member
    simp only [formBody, List.mem_append] at member word
    rcases member with name | inUser | word_ | inPassword
    · exact word c (.inl name)
    · exact (userClean c inUser).2
    · exact word c (.inr word_)
    · exact passwordClean c inPassword
  have room : (postHead target headers).length + 2 + (formBody user password).length < readBufferSize := by
    rw [List.length_append, List.length_append] at short
    change _ + (2 + _) < _ at short
    omega
  obtain ⟨r, done, received⟩ := post_request_read slot target (dir ++ slash :: 50 :: rest) (formBody user password) headers accepted named
    lines announced (by omega) clean room
  have parsed := parsed_whole slot _ (by rw [done])
  rw [done] at parsed
  have decided := login_received mysqlQuery site r dir rest user password w lastSegment urlShort userClean userShort passwordShort
    parsed received
  dsimp only [LoginRequest.bytes]
  rw [process_read_parsed mysqlQuery site _ w (by rw [done]), done]
  exact ⟨rfl, decided⟩

end Database

def aliceLogin : LoginRequest where
  target := ascii "http://localhost/a/2x"
  dir := ascii "/a"
  rest := ascii "x"
  headers := [ascii "Content-Length: 26", ascii "Host: localhost"]
  user := ascii "alice"
  password := ascii "secret"
  accepted := ⟨by decide +kernel, rfl, by decide +kernel⟩
  lastSegment := by decide +kernel
  urlShort := by decide
  lines := fun line member => ⟨by revert line; decide +kernel, by revert line; decide +kernel⟩
  announced := by decide +kernel
  userClean := by decide +kernel
  userShort := by decide
  passwordClean := by decide +kernel
  passwordShort := by decide
  short := by decide +kernel

def onlyAlice : World Unit := ⟨fun name => if name = ascii "alice" then some (ascii "secret") else none, ()⟩

theorem login_decided_alice :
    realPath (processRead noRows ⟨srvRoot, anyFile⟩ (Request.fresh.init.feed aliceLogin.bytes) onlyAlice).request =
      ascii "/srv/root/welcome.html" :=
  (login_decided noRows ⟨srvRoot, anyFile⟩ Request.fresh aliceLogin onlyAlice).2.2.2.2.trans (by decide +kernel)

end WzyServer.Http
