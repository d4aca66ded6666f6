import WzyServer.Base.Session
import WzyServer.Http.Application
import WzyServer.Http.Isolation

set_option autoImplicit false

namespace WzyServer.Http

open CString Chunks

structure KeepAliveGet extends RequestMessage where
  isGet : method = .get
  keepAlive : headers.any asksKeepAlive = true

-- A slot with one client's connection, how many of its requests are processed, and
-- whether the last of them was answered.
structure Connection where
  request : Request
  response : Response
  served : Nat
  answered : Bool

structure Processed (Db : Type) where
  reply : Reply Db
  written : Bool

section Writing

variable {Db : Type}

def Response.handed (r : Response) (reply : Reply Db) (address : Nat) : Response :=
  let found := { r with
    linger := reply.request.linger, fileSize := (reply.file.map fun file => file.content.length).getD r.fileSize }
  match reply.outcome, reply.file with
  | .code .fileRequest, some file => { found with fileAddress := address, memory := write r.memory address file.content }
  | _, _ => found

-- Where C++ leaves do_request undefined there is no answer.
def Response.answer (r : Response) (reply : Reply Db) (address : Nat) : Bool × Response :=
  match reply.outcome with
  | .code code => processWrite code (r.handed reply address)
  | .fault _ => (false, r)

-- process_write gives up where there is no file, on a directory and on an empty file.
def Answerable (file : Option File) : Prop :=
  ∃ found, file = some found ∧ (found.othersRead = true → found.directory = false ∧ found.content ≠ [])

theorem handed_start (r : Response) (reply : Reply Db) (address : Nat) : (r.handed reply address).writeIdx = r.writeIdx := by
  unfold Response.handed
  dsimp only
  split <;> rfl

theorem handed_size (r : Response) (reply : Reply Db) (address : Nat) (file : File) (found : reply.file = some file) :
    (r.handed reply address).fileSize = file.content.length := by
  unfold Response.handed
  rw [found]
  dsimp only
  split <;> rfl

theorem open_file_answerable (site : Site) (named : Request) (w : World Db) (r : Response) (address : Nat) (start : r.writeIdx = 0) :
    (r.answer (openFile site named w) address).1 = true ↔ Answerable (openFile site named w).file := by
  have begun := (handed_start r (openFile site named w) address).trans start
  have size := handed_size r (openFile site named w) address
  rw [open_file_found] at size ⊢
  unfold Response.answer
  generalize r.handed (openFile site named w) address = handed at begun size ⊢
  unfold openFile
  cases found : site.stat (realPath named) with
  | none =>
      obtain ⟨added, _⟩ := error_page_gather 404 error404Title error404Form error404Form handed begun (by decide +kernel)
      simp [processWrite, added, Answerable]
  | some file =>
      by_cases readable : file.othersRead = true
      · by_cases directory : file.directory = true
        · obtain ⟨added, _⟩ := error_page_gather 400 error400Title error400Form error400Form handed begun (by decide +kernel)
          simp [processWrite, added, Answerable, readable, directory]
        · obtain ⟨memory, index, frame⟩ := add_response_frame (statusLine 200 ok200Title) handed
          have same : (addStatusLine 200 ok200Title handed).2.fileSize = file.content.length := by
            rw [addStatusLine, frame]
            exact size file found
          by_cases empty : file.content = []
          · simp [processWrite, same, Answerable, readable, directory, empty]
          · simp [processWrite, same, Answerable, readable, directory, empty]
      · obtain ⟨added, _⟩ := error_page_gather 403 error403Title error403Form error403Form handed begun (by decide +kernel)
        simp [processWrite, added, Answerable, readable]

variable (mysqlQuery : Db → Text → Int × Db)

theorem do_request_opens (site : Site) (r : Request) (w : World Db) :
    (∃ kind, (doRequest mysqlQuery site r w).outcome = .fault kind ∧ (doRequest mysqlQuery site r w).file = none) ∨
      ∃ named after, doRequest mysqlQuery site r w = openFile site named after := by
  unfold doRequest
  dsimp only
  split
  · exact .inl ⟨_, rfl, rfl⟩
  · split
    · exact .inl ⟨_, rfl, rfl⟩
    · split
      · split
        · exact .inl ⟨_, rfl, rfl⟩
        · exact .inr ⟨_, _, rfl⟩
      · exact .inr ⟨_, _, rfl⟩

theorem do_request_answers (site : Site) (r : Request) (w : World Db) :
    (doRequest mysqlQuery site r w).outcome ≠ .code .noRequest := by
  rcases do_request_opens mysqlQuery site r w with ⟨kind, fault, _⟩ | ⟨named, after, opens⟩
  · rw [fault]
    exact fun same => by cases same
  · rw [opens]
    unfold openFile
    split
    · exact fun same => by cases same
    · split
      · exact fun same => by cases same
      · split <;> exact fun same => by cases same

theorem do_request_answerable (site : Site) (r : Request) (w : World Db) (response : Response) (address : Nat)
    (start : response.writeIdx = 0) : (response.answer (doRequest mysqlQuery site r w) address).1 = true ↔
      Answerable (doRequest mysqlQuery site r w).file := by
  rcases do_request_opens mysqlQuery site r w with ⟨kind, fault, missing⟩ | ⟨named, after, opens⟩
  · rw [Response.answer, fault, missing]
    simp [Answerable]
  · rw [opens]
    exact open_file_answerable site named after response address start

end Writing

section Requests

variable (slot : Request) (request : KeepAliveGet)

theorem get_bodiless : request.body = [] := by
  by_contra some_body
  have posted := request.posted some_body
  rw [request.isGet] at posted
  cases posted

structure GetParsed (final : Request) : Prop extends Parsed final where
  read : parseRead (slot.init.feed request.bytes) = (.code .getRequest, final)
  check : final.checkIdx = request.bytes.length
  understood : Understood slot request.toRequestMessage final

theorem get_parsed : ∃ final, GetParsed slot request final := by
  obtain ⟨final, read, check, _, understood⟩ := bodiless_read slot request.toRequestMessage (get_bodiless request)
  have parsed := parsed_whole slot request.bytes (by rw [read])
  rw [read] at parsed
  exact ⟨final, parsed, read, check, understood⟩

theorem cut_request_waits (early late : Text) (whole : early ++ late = request.bytes) (some_left : late ≠ []) :
    (parseRead (slot.init.feed early)).1 = .code .noRequest :=
  bodiless_waits slot request.toRequestMessage (get_bodiless request) early late whole some_left

theorem cut_request_resumes (early late rest : Text) (whole : early ++ (late ++ rest) = request.bytes)
    (waiting : (parseRead (slot.init.feed early)).1 = .code .noRequest) :
    (parseRead (slot.init.feed early)).2.readIdx + late.length < readBufferSize ∧
      parseRead ((parseRead (slot.init.feed early)).2.feed late) = parseRead (slot.init.feed (early ++ late)) := by
  have ordered := feed_ordered _ early (init_ordered slot)
  have resumed := parse_read_feed _ late ordered
    (bodiless_outside slot request.toRequestMessage (get_bodiless request) early _ whole)
  rw [if_pos waiting, ← Request.feed_append] at resumed
  have received : (parseRead (slot.init.feed early)).2.readIdx = 0 + early.length := (loop_cursors .lineOk _ ordered).1
  have short : request.bytes.length < readBufferSize := request.short
  rw [← whole, List.length_append, List.length_append] at short
  exact ⟨by omega, resumed.symm⟩

variable {Db : Type} (mysqlQuery : Db → Text → Int × Db) (site : Site)

def replyAlone (w : World Db) : Reply Db := doRequest mysqlQuery site (parseRead (slot.init.feed request.bytes)).2 w

-- The file that the request is for. On a slot that a form was posted to before, /2 and
-- /3 are forms as well, and do_request chooses their page.
def requestedFile (w : World Db) : Option File :=
  let page := pageOf request.path
  if slot.cgi = 1 ∧ (routeOf page = 50 ∨ routeOf page = 51) then (replyAlone slot request mysqlQuery site w).file
  else site.fileOf ((routePage (routeOf page)).getD page)

theorem reply_alone_file (w : World Db) :
    (replyAlone slot request mysqlQuery site w).file = requestedFile slot request mysqlQuery site w := by
  unfold requestedFile
  dsimp only
  split
  · rfl
  · rename_i plain
    obtain ⟨final, ⟨_, cleared⟩, read, _, understood⟩ := get_parsed slot request
    obtain ⟨url, points, here, below⟩ := understood.url
    have short := message_short request.toRequestMessage
    have form := understood.form
    rw [request.isGet, if_neg (by decide)] at form
    obtain ⟨named, opens, _, path⟩ := page_opened mysqlQuery site final url _ w cleared points here (by omega)
      (page_of_rooted request.line request.path request.method request.parts) (by
        intro isForm
        rw [form] at isForm
        exact ⟨fun login => plain ⟨isForm, .inl login⟩, fun register => plain ⟨isForm, .inr register⟩⟩)
    rw [replyAlone, read, opens, open_file_found, path, Site.fileOf]

theorem reply_alone_init (w : World Db) : (replyAlone slot request mysqlQuery site w).request.init = slot.init := by
  obtain ⟨final, _, read, _, understood⟩ := get_parsed slot request
  obtain ⟨cgi, string⟩ := do_request_form mysqlQuery site final w
  have form := understood.form
  have kept := understood.body
  rw [request.isGet, if_neg (by decide)] at form
  rw [if_pos (get_bodiless request)] at kept
  rw [replyAlone, read, init_form _, cgi, string, form, kept, ← init_form slot]

theorem reply_alone_parsed (w : World Db) : (replyAlone slot request mysqlQuery site w).request.checkIdx = request.bytes.length ∧
    (replyAlone slot request mysqlQuery site w).request.linger = true := by
  obtain ⟨final, _, read, check, understood⟩ := get_parsed slot request
  obtain ⟨memory, file, same⟩ := do_request_frame mysqlQuery site final w
  rw [replyAlone, read, same]
  exact ⟨check, understood.linger.trans request.keepAlive⟩

end Requests

section Service

-- `worlds k` is what the server's tables hold when do_request serves the client's
-- k-th request: other connections change them in between. `mapped` is where mmap puts
-- the files, and `wrote` what write() leaves of a response that it has sent in full.
variable {Db : Type} (mysqlQuery : Db → Text → Int × Db) (site : Site) (worlds : Nat → World Db) (mapped : Nat → Nat)
  (wrote : Response → Response)

-- read(), process(), and the write() that sends the reply in full and ends in init().
-- A read() that finds no room returns false, and a process() without a response closes
-- the connection.
def connection : Service Connection UInt8 (Processed Db) where
  admits := fun c bytes => decide (c.request.readIdx < readBufferSize ∧ c.request.readIdx + bytes.length ≤ readBufferSize)
  feed := fun c bytes => { c with request := c.request.feed bytes }
  run := fun c =>
    let reply := processRead mysqlQuery site c.request (worlds c.served)
    if reply.outcome = .code .noRequest then (none, { c with request := reply.request })
    else
      let result := c.response.answer reply (mapped c.served)
      (some ⟨reply, result.1⟩, ⟨reply.request, result.2, c.served + 1, result.1⟩)
  taken := fun c => c.request.checkIdx
  next := fun c =>
    if c.answered ∧ c.request.linger then
      some { c with request := c.request.init, response := (wrote c.response).init }
    else none

def opened (slot : Request) (response : Response) : Connection := ⟨slot.init, response.init, 0, false⟩

def answersAlone (slot : Request) : Nat → List KeepAliveGet → List (Answer UInt8 (Processed Db))
  | _, [] => []
  | served, request :: later =>
      ⟨request.bytes, replyAlone slot request mysqlQuery site (worlds served), true⟩ :: answersAlone slot (served + 1) later

def EndsAtReads (requests : List KeepAliveGet) (batches : List Text) : Prop :=
  EndsAtChunks (requests.map fun request => request.bytes) batches

structure Cleared (slot : Request) (c : Connection) : Prop where
  request : c.request = slot.init
  response : c.response.writeIdx = 0

theorem connection_waits (c : Connection) (waiting : (parseRead c.request).1 = .code .noRequest) :
    (connection mysqlQuery site worlds mapped wrote).run c = (none, { c with request := (parseRead c.request).2 }) := by
  have reply : processRead mysqlQuery site c.request (worlds c.served) =
      ⟨.code .noRequest, (parseRead c.request).2, worlds c.served, none⟩ := by
    unfold processRead
    generalize parseRead c.request = result at waiting
    obtain ⟨outcome, parsed⟩ := result
    cases waiting
    rfl
  simp only [connection, reply, if_true]

theorem connection_parse (c : Connection) (r s : Request) (same : parseRead r = parseRead s) :
    (connection mysqlQuery site worlds mapped wrote).run { c with request := r } =
      (connection mysqlQuery site worlds mapped wrote).run { c with request := s } := by
  have reply : processRead mysqlQuery site r (worlds c.served) = processRead mysqlQuery site s (worlds c.served) := by
    unfold processRead
    rw [same]
  unfold connection
  dsimp only
  rw [reply]

structure RequestProcessed (slot : Request) (request : KeepAliveGet) (c after : Connection) (processed : Processed Db) : Prop where
  run : (connection mysqlQuery site worlds mapped wrote).run { c with request := slot.init.feed request.bytes } = (some processed, after)
  reply : processed.reply = replyAlone slot request mysqlQuery site (worlds c.served)
  written : processed.written = true ↔ Answerable (requestedFile slot request mysqlQuery site (worlds c.served))
  taken : (connection mysqlQuery site worlds mapped wrote).taken after = request.bytes.length
  cleared : ∀ start, (connection mysqlQuery site worlds mapped wrote).next after = some start →
    Cleared slot start ∧ start.served = c.served + 1
  keeps : processed.written = true → ∃ start, (connection mysqlQuery site worlds mapped wrote).next after = some start

theorem request_processed (slot : Request) (request : KeepAliveGet) (c : Connection) (cleared : Cleared slot c) :
    ∃ processed after, RequestProcessed mysqlQuery site worlds mapped wrote slot request c after processed := by
  obtain ⟨final, _, read, _, _⟩ := get_parsed slot request
  have reply : processRead mysqlQuery site (slot.init.feed request.bytes) (worlds c.served) =
      replyAlone slot request mysqlQuery site (worlds c.served) :=
    process_read_parsed mysqlQuery site _ (worlds c.served) (by rw [read])
  have replied : (replyAlone slot request mysqlQuery site (worlds c.served)).outcome ≠ .code .noRequest :=
    do_request_answers mysqlQuery site _ (worlds c.served)
  have written := do_request_answerable mysqlQuery site (parseRead (slot.init.feed request.bytes)).2 (worlds c.served) c.response
    (mapped c.served) cleared.response
  rw [← replyAlone, reply_alone_file] at written
  obtain ⟨check, linger⟩ := reply_alone_parsed slot request mysqlQuery site (worlds c.served)
  have again := reply_alone_init slot request mysqlQuery site (worlds c.served)
  generalize outcome : c.response.answer (replyAlone slot request mysqlQuery site (worlds c.served)) (mapped c.served) = result at written
  generalize alone : replyAlone slot request mysqlQuery site (worlds c.served) = answer at reply replied check linger again outcome
  refine ⟨⟨answer, result.1⟩, ⟨answer.request, result.2, c.served + 1, result.1⟩, ?_, alone.symm, written, check, ?_, ?_⟩
  · simp only [connection, reply, if_neg replied, outcome]
  · intro start goes
    simp only [connection] at goes
    split at goes
    · cases goes
      exact ⟨⟨again, rfl⟩, rfl⟩
    · cases goes
  · exact fun kept => ⟨_, if_pos ⟨kept, linger⟩⟩

theorem connection_serves (slot : Request) : Serves (connection mysqlQuery site worlds mapped wrote) (Cleared slot)
    (fun bytes => ∃ request : KeepAliveGet, bytes = request.bytes) fun processed => processed.written = true := by
  constructor
  · rintro ⟨_, response, served, answered⟩ ⟨rfl, _⟩
    have nothing := parse_read_nothing slot.init rfl (init_ordered slot) (by simp [Request.init])
    refine ⟨rfl, ?_⟩
    change (connection mysqlQuery site worlds mapped wrote).run ⟨slot.init.feed [], response, served, answered⟩ = _
    rw [Request.feed_nil, connection_waits mysqlQuery site worlds mapped wrote _ (by rw [nothing]), nothing]
  · rintro ⟨_, response, served, answered⟩ early late ⟨rfl, _⟩ ⟨request, whole⟩ some_left
    have waiting := cut_request_waits slot request early late whole some_left
    rw [connection_waits mysqlQuery site worlds mapped wrote _ waiting]
  · rintro ⟨_, response, served, answered⟩ early late rest ⟨rfl, start⟩ ⟨request, whole⟩ unanswered
    rw [List.append_assoc] at whole
    have waiting : (parseRead (slot.init.feed early)).1 = .code .noRequest := by
      by_cases ended : late ++ rest = []
      · rw [ended, List.append_nil] at whole
        obtain ⟨processed, after, run, _⟩ := request_processed mysqlQuery site worlds mapped wrote slot request
          ⟨slot.init, response, served, answered⟩ ⟨rfl, start⟩
        rw [← whole] at run
        exact absurd (unanswered.symm.trans (congrArg Prod.fst run)) (fun same => by cases same)
      · exact cut_request_waits slot request early _ whole ended
    obtain ⟨room, resumed⟩ := cut_request_resumes slot request early late rest whole waiting
    change (connection mysqlQuery site worlds mapped wrote).admits ((connection mysqlQuery site worlds mapped wrote).run
          ⟨slot.init.feed early, response, served, answered⟩).2 late = true ∧
      (connection mysqlQuery site worlds mapped wrote).run ((connection mysqlQuery site worlds mapped wrote).feed
        ((connection mysqlQuery site worlds mapped wrote).run ⟨slot.init.feed early, response, served, answered⟩).2 late) =
          (connection mysqlQuery site worlds mapped wrote).run ⟨slot.init.feed (early ++ late), response, served, answered⟩
    rw [connection_waits mysqlQuery site worlds mapped wrote ⟨slot.init.feed early, response, served, answered⟩ waiting]
    exact ⟨decide_eq_true ⟨Nat.lt_of_le_of_lt (Nat.le_add_right ..) room, Nat.le_of_lt room⟩,
      connection_parse mysqlQuery site worlds mapped wrote ⟨slot.init, response, served, answered⟩ _ _ resumed⟩
  · rintro ⟨_, response, served, answered⟩ _ ⟨rfl, start⟩ ⟨request, rfl⟩
    obtain ⟨processed, after, run, _, _, taken, cleared, keeps⟩ := request_processed mysqlQuery site worlds mapped wrote slot request
      ⟨slot.init, response, served, answered⟩ ⟨rfl, start⟩
    exact ⟨processed, after, run, taken, fun start goes => (cleared start goes).1, keeps⟩

theorem kept_iff (slot : Request) (requests : List KeepAliveGet) (c : Connection) (cleared : Cleared slot c) :
    GoesOn (connection mysqlQuery site worlds mapped wrote) (fun processed => processed.written = true) c
        (requests.map fun request => request.bytes) ↔
      ∀ index request, requests[index]? = some request →
        Answerable (requestedFile slot request mysqlQuery site (worlds (c.served + index))) := by
  induction requests generalizing c with
  | nil => simp [GoesOn]
  | cons request later ih =>
      obtain ⟨_, response, served, answered⟩ := c
      have start := cleared.request
      dsimp only at start
      subst start
      obtain ⟨processed, after, processes⟩ := request_processed mysqlQuery site worlds mapped wrote slot request _ cleared
      constructor
      · rintro ⟨reply, other, next, run, kept, goes, rest⟩
        cases processes.run.symm.trans run
        obtain ⟨ready, count⟩ := processes.cleared next goes
        intro index asked here
        cases index with
        | zero =>
            cases Option.some.inj here
            exact processes.written.mp kept
        | succ index =>
            have behind := (ih next ready).mp rest index asked here
            rwa [count, Nat.add_assoc, Nat.add_comm 1] at behind
      · intro all
        have kept := processes.written.mpr (all 0 request rfl)
        obtain ⟨next, goes⟩ := processes.keeps kept
        obtain ⟨ready, count⟩ := processes.cleared next goes
        refine ⟨processed, after, next, processes.run, kept, goes, (ih next ready).mpr fun index asked here => ?_⟩
        have behind := all (index + 1) asked here
        rwa [count, Nat.add_assoc, Nat.add_comm 1]

theorem session_alone (slot : Request) (requests : List KeepAliveGet) (c : Connection) (cleared : Cleared slot c)
    (kept : GoesOn (connection mysqlQuery site worlds mapped wrote) (fun processed => processed.written = true) c
      (requests.map fun request => request.bytes)) :
    session (connection mysqlQuery site worlds mapped wrote) c [] (requests.map fun request => request.bytes) =
      answersAlone mysqlQuery site worlds slot c.served requests := by
  induction requests generalizing c with
  | nil => rfl
  | cons request later ih =>
      obtain ⟨_, response, served, answered⟩ := c
      have start := cleared.request
      dsimp only at start
      subst start
      obtain ⟨processed, after, processes⟩ := request_processed mysqlQuery site worlds mapped wrote slot request _ cleared
      obtain ⟨reply, other, next, run, written, goes, rest⟩ := kept
      cases processes.run.symm.trans run
      obtain ⟨ready, count⟩ := processes.cleared next goes
      have room : (connection mysqlQuery site worlds mapped wrote).admits ⟨slot.init, response, served, answered⟩ request.bytes = true := by
        have short : 0 + request.bytes.length < readBufferSize := by
          rw [Nat.zero_add]
          exact request.short
        exact decide_eq_true ⟨Nat.lt_of_le_of_lt (Nat.le_add_right ..) short, Nat.le_of_lt short⟩
      have single := session_answered _ _ [] _ (later.map fun request => request.bytes) _ _ room processes.run
      rw [List.map_cons, single, goes, processes.taken, List.nil_append, List.take_length, Option.elim_some, ih next ready rest, count]
      obtain ⟨replied, _⟩ := processed
      cases processes.reply
      cases written
      rfl

theorem answers_alone_written (slot : Request) (requests : List KeepAliveGet) (served : Nat) :
    (answersAlone mysqlQuery site worlds slot served requests).map Answer.input = (requests.map fun request => request.bytes) ∧
      ∀ answer ∈ answersAlone mysqlQuery site worlds slot served requests, answer.reply.written = true := by
  induction requests generalizing served with
  | nil => exact ⟨rfl, fun answer member => absurd member List.not_mem_nil⟩
  | cons request later ih =>
      obtain ⟨same, written⟩ := ih (served + 1)
      exact ⟨congrArg (request.bytes :: ·) same, List.forall_mem_cons.mpr ⟨rfl, written⟩⟩

theorem keep_alive_iff (slot : Request) (response : Response) (requests : List KeepAliveGet) (batches : List Text)
    (whole : batches.flatten = (requests.map fun request => request.bytes).flatten) :
    (session (connection mysqlQuery site worlds mapped wrote) (opened slot response) [] batches =
        answersAlone mysqlQuery site worlds slot 0 requests ↔
      EndsAtReads requests batches ∧ ∀ index request, requests[index]? = some request →
        Answerable (requestedFile slot request mysqlQuery site (worlds index))) ∧
    ((inputs (connection mysqlQuery site worlds mapped wrote) (opened slot response) [] batches =
          (requests.map fun request => request.bytes) ∧
        ∀ answer ∈ session (connection mysqlQuery site worlds mapped wrote) (opened slot response) [] batches,
          answer.reply.written = true) ↔
      EndsAtReads requests batches ∧ ∀ index request, requests[index]? = some request →
        Answerable (requestedFile slot request mysqlQuery site (worlds index))) := by
  have cleared : Cleared slot (opened slot response) := ⟨rfl, rfl⟩
  have all : ∀ bytes ∈ requests.map fun request => request.bytes, ∃ request : KeepAliveGet, bytes = request.bytes := by
    intro bytes member
    obtain ⟨request, _, rfl⟩ := List.mem_map.mp member
    exact ⟨request, rfl⟩
  have serves := connection_serves mysqlQuery site worlds mapped wrote slot
  have kept := kept_iff mysqlQuery site worlds mapped wrote slot requests (opened slot response) cleared
  have start : ∀ index, (opened slot response).served + index = index := fun index => Nat.zero_add index
  simp only [start] at kept
  have answered := answered_in_turn_iff _ _ _ _ serves _ batches all (opened slot response) cleared whole
  rw [kept] at answered
  refine ⟨⟨fun same => answered.mp ?_, fun ⟨ends, served⟩ => ?_⟩, answered⟩
  · unfold inputs
    rw [same]
    exact answers_alone_written mysqlQuery site worlds slot requests 0
  · have inTurn := session_in_turn _ _ _ _ serves _ batches all (opened slot response) cleared whole ends (kept.mpr served)
    exact inTurn.1.trans (session_alone mysqlQuery site worlds mapped wrote slot requests _ cleared (kept.mpr served))

end Service

def keepAliveLines : List Text := [ascii "Host: a", ascii "Connection: keep-alive"]

theorem keep_alive_lines : ∀ line ∈ keepAliveLines, HeaderText line := by
  intro line member
  rcases List.mem_cons.mp member with rfl | member
  · exact ⟨by decide +kernel, by decide +kernel⟩
  · rcases List.mem_singleton.mp member with rfl
    exact ⟨by decide +kernel, by decide +kernel⟩

theorem page_grammar : Grammar (ascii "GET /a HTTP/1.1") .get (ascii "/a") := by
  refine ⟨ascii "/a", ⟨by decide +kernel, by decide +kernel, ascii "GET", ascii " ", ascii " ", ascii "HTTP/1.1", by decide +kernel,
    by decide +kernel, by decide +kernel, ⟨by decide, by decide +kernel⟩, ⟨by decide, by decide +kernel⟩, by decide +kernel⟩, ?_,
    by decide +kernel⟩
  refine .plain _ fun scheme rest split member => ?_
  have short := congrArg List.length split
  rw [List.length_append] at short
  change 2 = _ at short
  rcases List.mem_cons.mp member with http | https
  · have long := congrArg List.length http
    rw [List.length_map] at long
    change _ = 7 at long
    omega
  · have long := congrArg List.length (List.mem_singleton.mp https)
    rw [List.length_map] at long
    change _ = 8 at long
    omega

theorem picture_grammar : Grammar (ascii "GET http://b/c HTTP/1.1") .get (ascii "/c") := by
  refine ⟨ascii "http://b/c", ⟨by decide +kernel, by decide +kernel, ascii "GET", ascii " ", ascii " ", ascii "HTTP/1.1",
    by decide +kernel, by decide +kernel, by decide +kernel, ⟨by decide, by decide +kernel⟩, ⟨by decide, by decide +kernel⟩,
    by decide +kernel⟩, ?_, by decide +kernel⟩
  exact .behind (ascii "http://") (ascii "b") (ascii "/c") (by decide +kernel) (by decide +kernel) (by decide +kernel)

def getPage : KeepAliveGet where
  line := ascii "GET /a HTTP/1.1"
  method := .get
  path := ascii "/a"
  headers := keepAliveLines
  body := []
  parts := page_grammar
  clean := by decide +kernel
  lines := keep_alive_lines
  announced := by decide +kernel
  posted := fun some_body => absurd rfl some_body
  short := by decide +kernel
  isGet := rfl
  keepAlive := by decide +kernel

def getPicture : KeepAliveGet where
  line := ascii "GET http://b/c HTTP/1.1"
  method := .get
  path := ascii "/c"
  headers := keepAliveLines
  body := []
  parts := picture_grammar
  clean := by decide +kernel
  lines := keep_alive_lines
  announced := by decide +kernel
  posted := fun some_body => absurd rfl some_body
  short := by decide +kernel
  isGet := rfl
  keepAlive := by decide +kernel

def twoFileSite : Site :=
  ⟨srvRoot, fun path => if path = ascii "/srv/root/a" ∨ path = ascii "/srv/root/c" then some ⟨true, false, ascii "hi"⟩ else none⟩

def plainConnection (site : Site) : Service Connection UInt8 (Processed Unit) :=
  connection noRows site (fun _ => nobody) (fun _ => 8192) fun r => r.unmap

def pageOpened : Connection := opened Request.fresh twoByteFile

theorem keep_alive_iff_cut :
    (session (plainConnection twoFileSite) pageOpened [] [getPage.bytes.take 9, getPage.bytes.drop 9, getPicture.bytes] =
        answersAlone noRows twoFileSite (fun _ => nobody) Request.fresh 0 [getPage, getPicture] ↔
      EndsAtReads [getPage, getPicture] [getPage.bytes.take 9, getPage.bytes.drop 9, getPicture.bytes] ∧
        ∀ (index : Nat) request, [getPage, getPicture][index]? = some request →
          Answerable (requestedFile Request.fresh request noRows twoFileSite nobody)) ∧
    ((inputs (plainConnection twoFileSite) pageOpened [] [getPage.bytes.take 9, getPage.bytes.drop 9, getPicture.bytes] =
          ([getPage, getPicture].map fun request => request.bytes) ∧
        ∀ answer ∈ session (plainConnection twoFileSite) pageOpened [] [getPage.bytes.take 9, getPage.bytes.drop 9, getPicture.bytes],
          answer.reply.written = true) ↔
      EndsAtReads [getPage, getPicture] [getPage.bytes.take 9, getPage.bytes.drop 9, getPicture.bytes] ∧
        ∀ (index : Nat) request, [getPage, getPicture][index]? = some request →
          Answerable (requestedFile Request.fresh request noRows twoFileSite nobody)) :=
  keep_alive_iff noRows twoFileSite (fun _ => nobody) (fun _ => 8192) (fun r => r.unmap) Request.fresh twoByteFile
    [getPage, getPicture] _ (by decide +kernel)

-- Both requests come with one read(): the second is in m_read_buf when init() clears it.
-- Each in a read() of its own, the second is never read where the first has no file.
theorem pipelined_request_lost :
    [getPage.bytes ++ getPicture.bytes].flatten = ([getPage, getPicture].map fun request => request.bytes).flatten ∧
      inputs (plainConnection twoFileSite) pageOpened [] [getPage.bytes ++ getPicture.bytes] = [getPage.bytes] ∧
      session (plainConnection twoFileSite) pageOpened [] [getPage.bytes ++ getPicture.bytes] ≠
        answersAlone noRows twoFileSite (fun _ => nobody) Request.fresh 0 [getPage, getPicture] ∧
      inputs (plainConnection twoFileSite) pageOpened [] [getPage.bytes, getPicture.bytes] = [getPage.bytes, getPicture.bytes] ∧
      inputs (plainConnection emptySite) pageOpened [] [getPage.bytes, getPicture.bytes] = [getPage.bytes] := by
  have answered : inputs (plainConnection twoFileSite) pageOpened [] [getPage.bytes ++ getPicture.bytes] = [getPage.bytes] := by
    decide +kernel
  refine ⟨by decide +kernel, answered, fun same => ?_, by decide +kernel, by decide +kernel⟩
  unfold inputs at answered
  rw [same] at answered
  cases congrArg List.length answered

end WzyServer.Http
