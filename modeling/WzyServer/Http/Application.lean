import WzyServer.Http.Login
import WzyServer.Http.Message
import WzyServer.Http.OpenedPath
import WzyServer.Http.WriteBuffer

set_option autoImplicit false

namespace WzyServer.Http

open CString Word

section Asking

inductive Ask where
  | page (url : Text)
  | login (user password : Text)
  | registration (user password : Text)
deriving DecidableEq, Repr

def routeOf (url : Text) : UInt8 :=
  match strrchr url slash with
  | none => 0
  | some p => (url.drop (p + 1)).headD 0

structure FormAsked (message : RequestMessage) (route : UInt8) (user password : Text) : Prop where
  posted : message.method = .post
  route : routeOf (pageOf message.path) = route
  urlShort : (pageOf message.path).length < 200
  userClean : ∀ c ∈ user, c ≠ 38 ∧ c ≠ 0
  userShort : user.length ≤ 99
  passwordClean : ∀ c ∈ password, c ≠ 0
  passwordShort : password.length ≤ 99
  body : message.body = formBody user password

-- init leaves cgi as it was, so a GET is read as the slot's last request left it.
inductive Asks (slot : Request) (message : RequestMessage) : Ask → Prop where
  | page (plain : (message.method = .post ∨ slot.cgi = 1) →
        routeOf (pageOf message.path) ≠ 50 ∧ routeOf (pageOf message.path) ≠ 51) :
      Asks slot message (.page ((routePage (routeOf (pageOf message.path))).getD (pageOf message.path)))
  | login (user password : Text) (form : FormAsked message 50 user password) : Asks slot message (.login user password)
  | registration (user password : Text) (form : FormAsked message 51 user password)
      (fits : (insertStatement user password).length < 200) : Asks slot message (.registration user password)

end Asking

section Performing

variable {Db : Type} (mysqlQuery : Db → Text → Int × Db)

def Ask.perform (w : World Db) : Ask → Text × World Db
  | .page url => (url, w)
  | .login user password => (loginPage w user password, w)
  | .registration user password =>
      if w.users user = none then
        let (res, db) := mysqlQuery w.db (insertStatement user password)
        (if res = 0 then ascii "/log.html" else ascii "/registerError.html", { users := w.users.insert user password, db := db })
      else (ascii "/registerError.html", w)

-- The file a page's name stands for: m_real_file holds 199 characters.
def Site.fileOf (site : Site) (url : Text) : Option File :=
  site.stat (site.docRoot.path ++ url.take (fileNameLen - site.docRoot.path.length - 1))

def responseFor (linger : Bool) : Option File → Option Message
  | none => none
  | some file =>
      if ¬ file.othersRead then some (page 403 error403Title error403Form error403Form linger)
      else if file.directory ∨ file.content = [] then none
      else some ⟨200, ok200Title, headersOf file.content.length linger, file.content⟩

end Performing

section Reading

theorem route_read (memory : Memory) (address p : Nat) (url : Text) (here : TextAt memory address url)
    (found : strrchr url slash = some p) : memory (address + p + 1) = routeOf url := by
  obtain ⟨inside, _⟩ := strrchr_found url slash p found
  rw [routeOf, found]
  dsimp only
  by_cases last : p + 1 = url.length
  · rw [last, List.drop_length, Nat.add_assoc, last]
    exact here.nul
  · have behind : p + 1 < url.length := by omega
    rw [List.drop_eq_getElem_cons behind, List.headD_cons, Nat.add_assoc]
    exact here.bytes (p + 1) behind

theorem route_behind (url : Text) (p : Nat) (found : strrchr url slash = some p) (named : routeOf url ≠ 0) : p + 2 ≤ url.length := by
  by_contra last
  rw [routeOf, found] at named
  dsimp only at named
  rw [List.drop_eq_nil_of_le (by omega)] at named
  exact named rfl

theorem page_of_rooted (line path : Text) (method : Method) (parts : Grammar line method path) : (pageOf path).head? = some slash := by
  obtain ⟨_, _, _, rooted⟩ := parts
  unfold pageOf
  split
  · decide +kernel
  · exact rooted

variable {Db : Type} (mysqlQuery : Db → Text → Int × Db)

theorem registration_page (w : World Db) (user password : Text) (fits : (insertStatement user password).length < 200) :
    formPage mysqlQuery 51 user password w = .ok ((Ask.registration user password).perform mysqlQuery w) := by
  unfold formPage register Ask.perform
  rw [if_pos rfl, if_neg (by omega)]
  dsimp only
  by_cases absent : w.users user = none
  · rw [if_pos absent, if_pos absent]
    cases mysqlQuery w.db (insertStatement user password) with
    | mk res db =>
        by_cases accepted : res = 0 <;> simp [accepted]
  · rw [if_neg absent, if_neg absent]
    rfl

structure Opened (site : Site) (url : Text) (linger : Bool) (after : World Db) (reply : Reply Db) : Prop where
  opened : ∃ named, reply = openFile site named after ∧ named.linger = linger ∧
    realPath named = site.docRoot.path ++ url.take (fileNameLen - site.docRoot.path.length - 1)

theorem name_file_linger (site : Site) (r : Request) (url slashAt : Nat) : (nameFile site r url slashAt).linger = r.linger := by
  unfold nameFile
  dsimp only
  split <;> rfl

theorem page_taken (site : Site) (page : Text) (sitePage : SitePage page) :
    page.take (fileNameLen - site.docRoot.path.length - 1) = page := by
  have short := site.docRoot.short
  have pageShort := sitePage.short
  have size : fileNameLen = 200 := rfl
  exact List.take_of_length_le (by omega)

theorem page_opened (site : Site) (r : Request) (address : Nat) (url : Text) (w : World Db) (cleared : r.realFile = zeroed)
    (target : r.url = some address) (here : TextAt r.readBuf address url) (room : address + url.length < readBufferSize)
    (rooted : url.head? = some slash) (plain : r.cgi = 1 → routeOf url ≠ 50 ∧ routeOf url ≠ 51) :
    Opened site ((routePage (routeOf url)).getD url) r.linger w (doRequest mysqlQuery site r w) := by
  have string := text_at_cstr r.readBuf address url here room
  obtain ⟨p, found⟩ := strrchr_member url slash (List.mem_of_mem_head? (Option.mem_def.mpr rooted))
  have route := route_read r.readBuf address p url here found
  rw [← string] at found
  have noForm : ¬ (r.cgi = 1 ∧ (r.readBuf (address + p + 1) = 50 ∨ r.readBuf (address + p + 1) = 51)) := by
    rintro ⟨form, digit⟩
    rw [route] at digit
    exact digit.elim (plain form).1 (plain form).2
  have total := root_short site.docRoot
  have short := site.docRoot.short
  rw [do_request_slash mysqlQuery site r address p w target found, if_neg noForm]
  refine ⟨_, rfl, (name_file_linger site _ address _).trans rfl, ?_⟩
  cases routed : routePage (routeOf url) with
  | some page =>
      rw [routed_path site r address (address + p) page (by rw [route]; exact routed) cleared, Option.getD_some,
        page_taken site page (route_page_site _ page routed)]
  | none =>
      rw [url_path site (rootFile site r) address (address + p) (by rw [← routed, ← route]; rfl) (root_file_bytes site r)
        (root_file_behind site r 199 (by omega) cleared), Option.getD_none, ← string]
      rfl

theorem form_text (r : Request) (text : Nat) (user password : Text) (userClean : ∀ c ∈ user, c ≠ 38 ∧ c ≠ 0)
    (passwordClean : ∀ c ∈ password, c ≠ 0)
    (bytes : CString.read r.readBuf text (formBody user password).length = formBody user password)
    (nul : r.readBuf (text + (formBody user password).length) = 0) : TextAt r.readBuf text (formBody user password) := by
  have word : ∀ c ∈ ascii "user=" ++ ascii "&password=", c ≠ 0 := by decide +kernel
  refine ⟨fun c member => ?_, fun offset inside => ?_, nul⟩
  · simp only [formBody, List.mem_append] at member word
    rcases member with name | inUser | word_ | inPassword
    · exact word c (.inl name)
    · exact (userClean c inUser).2
    · exact word c (.inr word_)
    · exact passwordClean c inPassword
  · have byte := congrArg (fun bytes : Text => bytes[offset]?) bytes
    simp only [CString.read, List.getElem?_map, List.getElem?_range inside, Option.map_some, List.getElem?_eq_getElem inside] at byte
    exact Option.some.inj byte

theorem form_opened (site : Site) (slot r : Request) (message : RequestMessage) (route : UInt8) (w after : World Db)
    (user password page : Text) (asked : FormAsked message route user password) (understood : Understood slot message r)
    (cleared : r.realFile = zeroed) (digit : route = 50 ∨ route = 51)
    (answer : formPage mysqlQuery route user password w = .ok (page, after)) :
    Opened site page r.linger after (doRequest mysqlQuery site r w) := by
  obtain ⟨posted, isRoute, urlShort, userClean, userShort, passwordClean, passwordShort, isBody⟩ := asked
  obtain ⟨address, target, here, above⟩ := understood.url
  have cgi := understood.form
  rw [if_pos posted] at cgi
  have bodyLength := form_body_length user password
  have short := message_short message
  have some_body : message.body ≠ [] := by
    intro nothing
    rw [isBody] at nothing
    rw [nothing] at bodyLength
    cases bodyLength
  have stored := understood.body
  rw [if_neg some_body, isBody] at stored
  obtain ⟨text, string, room, bytes, nul⟩ := stored
  have body := form_text r text user password userClean passwordClean bytes nul
  rw [isBody] at short
  have fields := form_fields r text user password userClean userShort passwordShort string body room
  have urlString := text_at_cstr r.readBuf address _ here (by omega)
  have sitePage := form_page_site mysqlQuery _ user password page w after answer
  have pageShort := sitePage.short
  obtain ⟨p, found⟩ := strrchr_member _ slash
    (List.mem_of_mem_head? (Option.mem_def.mpr (page_of_rooted message.line message.path message.method message.parts)))
  have routed := route_read r.readBuf address p _ here found
  rw [isRoute] at routed
  have behind := route_behind _ p found (by rw [isRoute]; rcases digit with rfl | rfl <;> decide)
  rw [← urlString] at found
  have tail : (cstr r.readBuf (address + 2)).length ≤ 198 := by
    have dropped := text_at_drop_take r.readBuf address 2 _ here (by omega)
    rw [text_at_cstr r.readBuf _ _ dropped (by rw [List.length_drop]; omega), List.length_drop]
    omega
  rw [← routed] at digit answer
  obtain ⟨answered, ok, linger⟩ := form_answered mysqlQuery site r address (address + p) w after user password page fields answer tail
    (by omega)
  obtain ⟨name, word, other, sameForm, sameAnswer, _, path⟩ :=
    form_answer_path mysqlQuery site r answered address (address + p) w after cleared digit ok
  rw [fields] at sameForm
  cases sameForm
  rw [answer] at sameAnswer
  cases sameAnswer
  rw [do_request_slash mysqlQuery site r address p w target found, if_pos ⟨cgi, digit⟩, ok]
  refine ⟨_, rfl, (name_file_linger site _ address _).trans linger, ?_⟩
  rw [path, page_taken site page sitePage]

theorem ask_opened (site : Site) (slot r : Request) (message : RequestMessage) (ask : Ask) (w : World Db)
    (asks : Asks slot message ask) (understood : Understood slot message r) (cleared : r.realFile = zeroed) :
    Opened site (ask.perform mysqlQuery w).1 r.linger (ask.perform mysqlQuery w).2 (doRequest mysqlQuery site r w) := by
  cases asks with
  | page plain =>
      obtain ⟨address, target, here, above⟩ := understood.url
      have short := message_short message
      refine page_opened mysqlQuery site r address _ w cleared target here (by omega)
        (page_of_rooted message.line message.path message.method message.parts) fun form => plain ?_
      rw [understood.form] at form
      split at form
      · rename_i posted
        exact .inl posted
      · exact .inr form
  | login user password form =>
      exact form_opened mysqlQuery site slot r message 50 w w user password _ form understood cleared (.inl rfl)
        (login_page mysqlQuery w user password)
  | registration user password form fits =>
      exact form_opened mysqlQuery site slot r message 51 w _ user password _ form understood cleared (.inr rfl)
        (registration_page mysqlQuery w user password fits)

end Reading

section Writing

def sent (written : Bool × Response) : Option Text := if written.1 then some written.2.gather else none

theorem headers_within (contentLen : Int) (r : Response) (address : Nat)
    (outside : address < r.writeBuf ∨ r.writeBuf + writeBufferSize ≤ address) :
    (addHeaders contentLen r).2.memory address = r.memory address := by
  unfold addHeaders addContentLength addLinger addBlankLine
  dsimp only
  obtain ⟨_, _, first⟩ := add_response_frame (ascii "Content-Length:" ++ ascii (toString contentLen) ++ ascii "\r\n") r
  have firstKept := add_response_within (ascii "Content-Length:" ++ ascii (toString contentLen) ++ ascii "\r\n") r address outside
  generalize (addResponse (ascii "Content-Length:" ++ ascii (toString contentLen) ++ ascii "\r\n") r).2 = s at first firstKept ⊢
  have second := add_response_frame (ascii "Connection:" ++ (if s.linger then ascii "keep-alive" else ascii "close") ++ ascii "\r\n") s
  have secondKept := add_response_within
    (ascii "Connection:" ++ (if s.linger then ascii "keep-alive" else ascii "close") ++ ascii "\r\n") s address (by rw [first]; exact outside)
  obtain ⟨_, _, second⟩ := second
  generalize (addResponse (ascii "Connection:" ++ (if s.linger then ascii "keep-alive" else ascii "close") ++ ascii "\r\n") s).2 = t
    at second secondKept ⊢
  rw [add_response_within _ t address (by rw [second, first]; exact outside), secondKept, firstKept]

theorem file_sent (r : Response) (content : Text) (start : r.writeIdx = 0) (size : r.fileSize = content.length)
    (mapped : CString.read r.memory r.fileAddress content.length = content)
    (apart : r.fileAddress + r.fileSize ≤ r.writeBuf ∨ r.writeBuf + writeBufferSize ≤ r.fileAddress)
    (small : content.length < 2 ^ 31) : sent (processWrite .fileRequest r) =
      if content = [] then none else some (Message.text ⟨200, ok200Title, headersOf content.length r.linger, content⟩) := by
  obtain ⟨memory, index, frame⟩ := add_response_frame (statusLine 200 ok200Title) r
  have sameSize : (addStatusLine 200 ok200Title r).2.fileSize = r.fileSize := by
    rw [addStatusLine, frame]
  simp only [processWrite, sameSize]
  by_cases empty : content = []
  · rw [if_pos empty, if_neg (by simp [size, empty])]
    rfl
  · have positive := List.length_pos_iff.mpr empty
    rw [if_neg empty, if_pos (by omega), to_int_small r.fileSize (by omega) (by omega)]
    obtain ⟨body, length, gathered⟩ := file_response_gather r start (by omega)
    have kept : ∀ address, (address < r.writeBuf ∨ r.writeBuf + writeBufferSize ≤ address) →
        (addHeaders r.fileSize (addStatusLine 200 ok200Title r).2).2.memory address = r.memory address := by
      intro address outside
      rw [headers_within _ _ _ (by rw [addStatusLine, frame]; exact outside)]
      exact add_response_within _ r address outside
    obtain ⟨memory', index', second⟩ := add_headers_frame r.fileSize (addStatusLine 200 ok200Title r).2
    rw [sent, if_pos rfl, gathered, size]
    generalize (addHeaders r.fileSize (addStatusLine 200 ok200Title r).2).2 = s at gathered kept second
    have address : s.fileAddress = r.fileAddress := by rw [second, addStatusLine, frame]
    have long : s.fileSize = r.fileSize := by rw [second, addStatusLine, frame]
    have unchanged : CString.read s.memory s.fileAddress s.fileSize = content := by
      rw [address, long, size, read_congr s.memory r.memory]
      · exact mapped
      · intro byte low high
        exact kept byte (by omega)
    simp only [headerAndFile, Response.gather, List.take_succ_cons, List.take_zero, List.flatMap_cons, List.flatMap_nil,
      List.append_nil, unchanged, Message.text] at gathered
    rw [(List.append_inj_right' gathered (by rw [length, size])).symm]

variable {Db : Type}

structure Handed (reply : Reply Db) (r : Response) : Prop where
  start : r.writeIdx = 0
  linger : r.linger = reply.request.linger
  mapped : ∀ file, reply.outcome = .code .fileRequest → reply.file = some file → r.fileSize = file.content.length ∧
    CString.read r.memory r.fileAddress file.content.length = file.content ∧
    (r.fileAddress + r.fileSize ≤ r.writeBuf ∨ r.writeBuf + writeBufferSize ≤ r.fileAddress)

theorem opened_sent (site : Site) (url : Text) (linger : Bool) (after : World Db) (reply : Reply Db) (r : Response)
    (opened : Opened site url linger after reply) (handed : Handed reply r)
    (small : ∀ file, site.fileOf url = some file → file.content.length < 2 ^ 31) :
    reply.world = after ∧ ∃ code, reply.outcome = .code code ∧
      sent (processWrite code r) = (responseFor linger (site.fileOf url)).map Message.text := by
  obtain ⟨start, sameLinger, mapped⟩ := handed
  obtain ⟨named, rfl, isLinger, path⟩ := opened
  rw [open_file_request, isLinger] at sameLinger
  refine ⟨open_file_world site named after, ?_⟩
  unfold Site.fileOf at small ⊢
  rw [← path] at small ⊢
  unfold openFile at mapped ⊢
  cases found : site.stat (realPath named) with
  | none =>
      obtain ⟨added, _⟩ := error_page_gather 404 error404Title error404Form error404Form r start (by decide +kernel)
      refine ⟨.noResource, rfl, ?_⟩
      simp only [processWrite]
      rw [if_pos added]
      rfl
  | some file =>
      rw [found] at mapped small
      dsimp only at mapped ⊢
      unfold responseFor
      dsimp only
      by_cases unreadable : ¬ file.othersRead = true
      · obtain ⟨added, gathered⟩ := error_page_gather 403 error403Title error403Form error403Form r start (by decide +kernel)
        rw [if_pos unreadable]
        refine ⟨.forbiddenRequest, rfl, ?_⟩
        simp only [processWrite]
        rw [if_pos added, sent, if_pos rfl, gathered, if_pos unreadable, sameLinger]
        rfl
      · simp only [if_neg unreadable] at mapped ⊢
        by_cases directory : file.directory = true
        · obtain ⟨added, _⟩ := error_page_gather 400 error400Title error400Form error400Form r start (by decide +kernel)
          rw [if_pos directory]
          refine ⟨.badRequest, rfl, ?_⟩
          simp only [processWrite]
          rw [if_pos added, if_pos (.inl directory)]
          rfl
        · simp only [if_neg directory] at mapped ⊢
          obtain ⟨size, bytes, apart⟩ := mapped file trivial rfl
          refine ⟨.fileRequest, rfl, ?_⟩
          rw [file_sent r file.content start size bytes apart (small file rfl), sameLinger]
          by_cases empty : file.content = []
          · rw [if_pos empty, if_pos (.inr empty)]
            rfl
          · rw [if_neg empty, if_neg (by simp [directory, empty])]
            rfl

end Writing

section Exchanges

structure Exchange where
  slot : Request
  message : RequestMessage
  delivery : Delivery message
  ask : Ask
  asks : Asks slot message ask

variable {Db : Type} (mysqlQuery : Db → Text → Int × Db) (site : Site) (hand : Reply Db → Response)

def processBatches (slot : Request) (batches : List Text) (w : World Db) : Except Fault (Option Text × World Db) :=
  let reply := serveBatches mysqlQuery site slot batches w
  match reply.outcome with
  | .code code => .ok (sent (processWrite code (hand reply)), reply.world)
  | .fault kind => .error kind

def serveAll : World Db → List Exchange → Except Fault (List (Option Text) × World Db)
  | w, [] => .ok ([], w)
  | w, e :: rest => do
      let (answer, after) ← processBatches mysqlQuery site hand e.slot (e.delivery.batches ++ [e.delivery.last]) w
      let (answers, final) ← serveAll after rest
      return (answer :: answers, final)

def Exchange.linger (e : Exchange) : Bool := e.message.headers.any asksKeepAlive

def Exchange.answer (e : Exchange) (w : World Db) : Option Message × World Db :=
  let (url, after) := e.ask.perform mysqlQuery w
  (responseFor e.linger (site.fileOf url), after)

def answerAll : World Db → List Exchange → List (Option Message) × World Db
  | w, [] => ([], w)
  | w, e :: rest =>
      let (answer, after) := e.answer mysqlQuery site w
      let (answers, final) := answerAll after rest
      (answer :: answers, final)

variable (hands : ∀ reply, Handed reply (hand reply))
  (small : ∀ path file, site.stat path = some file → file.content.length < 2 ^ 31)

theorem exchange_opened (e : Exchange) (w : World Db) :
    ∃ r, receive e.slot.init (e.delivery.batches ++ [e.delivery.last]) = (.code .getRequest, r) ∧
      Opened site (e.ask.perform mysqlQuery w).1 e.linger (e.ask.perform mysqlQuery w).2 (doRequest mysqlQuery site r w) := by
  obtain ⟨slot, message, delivery, ask, asks⟩ := e
  obtain ⟨r, received, understood⟩ := delivery_served slot message delivery
  have parsed := parsed_of_batches slot (delivery.batches ++ [delivery.last]) (by rw [received])
  rw [received] at parsed
  refine ⟨r, received, ?_⟩
  have opened := ask_opened mysqlQuery site slot r message ask w asks understood parsed.cleared
  rwa [understood.linger] at opened

include hands small in
theorem exchange_served (e : Exchange) (w : World Db) :
    processBatches mysqlQuery site hand e.slot (e.delivery.batches ++ [e.delivery.last]) w =
      .ok ((e.answer mysqlQuery site w).1.map Message.text, (e.answer mysqlQuery site w).2) := by
  obtain ⟨r, received, opened⟩ := exchange_opened mysqlQuery site e w
  obtain ⟨world, code, outcome, written⟩ := opened_sent site _ e.linger _ _ (hand (doRequest mysqlQuery site r w)) opened
    (hands _) (fun file found => small _ file found)
  unfold processBatches serveBatches Exchange.answer
  dsimp only
  rw [received]
  dsimp only
  rw [outcome]
  dsimp only
  rw [written, world]

theorem response_proper (linger : Bool) (file : Option File) (message : Message) (answered : responseFor linger file = some message) :
    message.Proper := by
  unfold responseFor at answered
  cases file with
  | none => cases answered
  | some file =>
      dsimp only at answered
      split at answered
      · cases answered
        refine ⟨page_clean _ _ _ _ _ (by decide +kernel), ?_⟩
        rw [page, headers_of_length]
      · split at answered
        · cases answered
        · cases answered
          have title : Inline ok200Title := by decide +kernel
          refine ⟨⟨title, headers_of_clean _ _⟩, ?_⟩
          rw [headers_of_length]

theorem answers_proper (w : World Db) (exchanges : List Exchange) (message : Message)
    (answered : some message ∈ (answerAll mysqlQuery site w exchanges).1) : message.Proper := by
  induction exchanges generalizing w with
  | nil => exact absurd answered List.not_mem_nil
  | cons e rest ih =>
      rcases List.mem_cons.mp answered with first | later
      · exact response_proper _ _ message first.symm
      · exact ih (e.answer mysqlQuery site w).2 later

include hands small in
theorem exchanges_served (w : World Db) (exchanges : List Exchange) :
    serveAll mysqlQuery site hand w exchanges = .ok ((answerAll mysqlQuery site w exchanges).1.map (Option.map Message.text),
      (answerAll mysqlQuery site w exchanges).2) := by
  induction exchanges generalizing w with
  | nil => rfl
  | cons e rest ih =>
      rw [serveAll, exchange_served mysqlQuery site hand hands small e w]
      change (serveAll mysqlQuery site hand (e.answer mysqlQuery site w).2 rest >>= _) = _
      rw [ih]
      rfl

include hands small in
theorem application_refined (w : World Db) (exchanges : List Exchange) :
    serveAll mysqlQuery site hand w exchanges = .ok ((answerAll mysqlQuery site w exchanges).1.map (Option.map Message.text),
        (answerAll mysqlQuery site w exchanges).2) ∧
      ∀ message, some message ∈ (answerAll mysqlQuery site w exchanges).1 → message.Proper :=
  ⟨exchanges_served mysqlQuery site hand hands small w exchanges, answers_proper mysqlQuery site w exchanges⟩

theorem perform_kept (w : World Db) (ask : Ask) (user password : Text) (known : w.users user = some password) :
    (ask.perform mysqlQuery w).2.users user = some password := by
  cases ask with
  | page url => exact known
  | login other word => exact known
  | registration other word =>
      unfold Ask.perform
      dsimp only
      by_cases absent : w.users other = none
      · rw [if_pos absent]
        have apart : user ≠ other := by
          rintro rfl
          rw [absent] at known
          cases known
        exact (if_neg apart).trans known
      · rw [if_neg absent]
        exact known

theorem answer_all_kept (w : World Db) (exchanges : List Exchange) (user password : Text) (known : w.users user = some password) :
    (answerAll mysqlQuery site w exchanges).2.users user = some password := by
  induction exchanges generalizing w with
  | nil => exact known
  | cons e rest ih => exact ih _ (perform_kept mysqlQuery w e.ask user password known)

theorem answer_all_append (w : World Db) (exchanges more : List Exchange) :
    answerAll mysqlQuery site w (exchanges ++ more) =
      ((answerAll mysqlQuery site w exchanges).1 ++ (answerAll mysqlQuery site (answerAll mysqlQuery site w exchanges).2 more).1,
        (answerAll mysqlQuery site (answerAll mysqlQuery site w exchanges).2 more).2) := by
  induction exchanges generalizing w with
  | nil => rfl
  | cons e rest ih =>
      rw [List.cons_append, answerAll, answerAll]
      dsimp only
      rw [ih]
      rfl

theorem registration_known (w : World Db) (user password : Text) (free : w.users user = none) :
    ((Ask.registration user password).perform mysqlQuery w).2.users user = some password := by
  unfold Ask.perform
  dsimp only
  rw [if_pos free]
  exact if_pos rfl

theorem account_login (w : World Db) (login : Exchange) (user password word : Text) (logsIn : login.ask = .login user word)
    (known : w.users user = some password) : login.answer mysqlQuery site w =
      (responseFor login.linger (site.fileOf (if word = password then ascii "/welcome.html" else ascii "/logError.html")), w) := by
  simp only [Exchange.answer, logsIn, Ask.perform, loginPage, known, Option.some.injEq, eq_comm]

include hands small in
theorem registration_decides (w : World Db) (before between : List Exchange) (registration login : Exchange)
    (user password word : Text) (registers : registration.ask = .registration user password) (logsIn : login.ask = .login user word)
    (free : (answerAll mysqlQuery site w before).2.users user = none) :
    ∃ answers final, serveAll mysqlQuery site hand w (before ++ registration :: between ++ [login]) = .ok
      (answers ++ [(responseFor login.linger (site.fileOf
        (if word = password then ascii "/welcome.html" else ascii "/logError.html"))).map Message.text], final) := by
  have known : (answerAll mysqlQuery site w (before ++ registration :: between)).2.users user = some password := by
    rw [answer_all_append, answerAll, Exchange.answer, registers]
    exact answer_all_kept mysqlQuery site _ between user password (registration_known mysqlQuery _ user password free)
  have served := exchanges_served mysqlQuery site hand hands small w (before ++ registration :: between ++ [login])
  rw [answer_all_append] at served
  rw [answerAll, account_login mysqlQuery site _ login user password word logsIn known] at served
  simp only [answerAll, List.map_append, List.map_cons, List.map_nil] at served
  exact ⟨_, _, served⟩

end Exchanges

def beside {Db : Type} (reply : Reply Db) : Response :=
  let content := (reply.file.map File.content).getD []
  { twoByteFile with
    memory := write zeroed 8192 content, linger := reply.request.linger, fileAddress := 8192, fileSize := content.length }

theorem beside_handed {Db : Type} (reply : Reply Db) : Handed reply (beside reply) := by
  refine ⟨rfl, rfl, fun file _ found => ?_⟩
  unfold beside
  rw [found]
  have above : twoByteFile.writeBuf + writeBufferSize ≤ 8192 := by decide
  exact ⟨rfl, read_write _ _ _, .inr above⟩

theorem register_grammar : Grammar (ascii "POST http://localhost/3 HTTP/1.1") .post (ascii "/3") := by
  refine ⟨ascii "http://localhost/3", ⟨by decide +kernel, by decide +kernel, ascii "POST", ascii " ", ascii " ",
    ascii "HTTP/1.1", by decide +kernel, by decide +kernel, by decide +kernel, ⟨by decide, by decide +kernel⟩,
    ⟨by decide, by decide +kernel⟩, by decide +kernel⟩, ?_, by decide +kernel⟩
  exact .behind (ascii "http://") (ascii "localhost") (ascii "/3") (by decide +kernel) (by decide +kernel) (by decide +kernel)

theorem register_header : HeaderText (ascii "Content-Length: 17") := ⟨by decide +kernel, by decide +kernel⟩

def registerMessage : RequestMessage where
  line := ascii "POST http://localhost/3 HTTP/1.1"
  method := .post
  path := ascii "/3"
  headers := [ascii "Content-Length: 17"]
  body := formBody (ascii "1") (ascii "2")
  parts := register_grammar
  clean := by decide +kernel
  lines := List.forall_mem_singleton.mpr register_header
  announced := by decide +kernel
  posted := fun _ => rfl
  short := by decide +kernel

def registerExchange : Exchange where
  slot := Request.fresh
  message := registerMessage
  delivery :=
    { batches := []
      last := registerMessage.bytes
      some_left := by decide +kernel
      whole := rfl
      harmless := by
        intro _ early part within cut
        rw [List.prefix_nil.mp within] at cut
        have long := congrArg List.length cut
        rw [List.length_append, List.length_append] at long
        change 0 = _ + (2 + part.length) at long
        omega }
  ask := .registration (ascii "1") (ascii "2")
  asks := .registration _ _ ⟨rfl, by decide +kernel, by decide +kernel, by decide +kernel, by decide +kernel, by decide +kernel,
    by decide +kernel, rfl⟩ (by decide +kernel)

def loginExchange : Exchange where
  slot := Request.fresh
  message := loginMessage
  delivery := loginDelivery
  ask := .login (ascii "1") (ascii "2")
  asks := .login _ _ ⟨rfl, by decide +kernel, by decide +kernel, by decide +kernel, by decide +kernel, by decide +kernel,
    by decide +kernel, by decide +kernel⟩

def welcomeSite : Site := ⟨srvRoot, fun path => if path = ascii "/srv/root/welcome.html" then some ⟨true, false, ascii "hi"⟩ else none⟩

theorem welcome_file (path : Text) (file : File) (found : welcomeSite.stat path = some file) : file.content = ascii "hi" := by
  simp only [welcomeSite] at found
  split at found
  · cases found
    rfl
  · cases found

theorem welcome_small (path : Text) (file : File) (found : welcomeSite.stat path = some file) : file.content.length < 2 ^ 31 := by
  rw [welcome_file path file found]
  decide +kernel

theorem application_refined_login :
    serveAll oneRow welcomeSite beside ⟨loadUsers [], []⟩ [registerExchange, loginExchange] =
        .ok ((answerAll oneRow welcomeSite ⟨loadUsers [], []⟩ [registerExchange, loginExchange]).1.map (Option.map Message.text),
          (answerAll oneRow welcomeSite ⟨loadUsers [], []⟩ [registerExchange, loginExchange]).2) ∧
      ∀ message, some message ∈ (answerAll oneRow welcomeSite ⟨loadUsers [], []⟩ [registerExchange, loginExchange]).1 →
        message.Proper :=
  application_refined oneRow welcomeSite beside beside_handed welcome_small ⟨loadUsers [], []⟩ [registerExchange, loginExchange]

theorem registration_decides_welcome : ∃ answers final,
    serveAll readOnly welcomeSite beside ⟨loadUsers [], []⟩ ([] ++ registerExchange :: [] ++ [loginExchange]) = .ok (answers ++
      [(responseFor loginExchange.linger (welcomeSite.fileOf
        (if ascii "2" = ascii "2" then ascii "/welcome.html" else ascii "/logError.html"))).map Message.text], final) :=
  registration_decides readOnly welcomeSite beside beside_handed welcome_small ⟨loadUsers [], []⟩ [] [] registerExchange loginExchange
    (ascii "1") (ascii "2") (ascii "2") rfl rfl rfl

end WzyServer.Http
