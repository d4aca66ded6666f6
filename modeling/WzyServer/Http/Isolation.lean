import Mathlib
import WzyServer.Http.Confinement

set_option autoImplicit false

namespace WzyServer.Http

open CString Chunks

theorem advance_form (r : Request) : FormKept r (advance r).request :=
  ⟨(advance_kept r).form.cgi, (advance_kept r).form.string⟩

theorem parse_read_form (r : Request) (ordered : Ordered r) : FormKept r (parseRead r).2 := by
  apply loop_induction (fun _ s => FormKept r s) (fun result => FormKept r result.2)
  · intro status s after next sOrdered kept _ again
    have moved := advance_form (nextLine status s).2
    rw [again] at moved
    exact form_kept_trans r s next kept (form_kept_trans s _ next (next_line_form status s sOrdered) moved)
  · intro status s sOrdered kept _
    exact form_kept_trans r s _ kept (next_line_form status s sOrdered)
  · intro status s outcome final sOrdered kept _ stopped
    have moved := advance_form (nextLine status s).2
    rw [stopped] at moved
    exact form_kept_trans r s final kept (form_kept_trans s _ final (next_line_form status s sOrdered) moved)
  · exact ordered
  · exact form_kept_same _ _ rfl rfl

theorem receive_form (r : Request) (ordered : Ordered r) (batches : List (List UInt8)) : FormKept r (receive r batches).2 := by
  have whole : FormKept r (receive r batches).2 ∧ Ordered (receive r batches).2 := by
    unfold receive
    apply deliver_induction Request.feed parseRead _ (fun s => FormKept r s ∧ Ordered s)
      (fun result => FormKept r result.2 ∧ Ordered result.2)
    · exact fun s both => both
    · rintro s batch ⟨kept, sOrdered⟩
      have fedOrdered := feed_ordered s batch sOrdered
      have moved := form_kept_trans s (s.feed batch) _ (form_kept_same _ _ rfl rfl) (parse_read_form _ fedOrdered)
      exact ⟨form_kept_trans r s _ kept moved, (loop_cursors .lineOk _ fedOrdered).2.2⟩
    · exact fun result both => both
    · exact ⟨form_kept_same _ _ rfl rfl, ordered⟩
  exact whole.1

section Service

variable {Db : Type} (mysqlQuery : Db → Text → Int × Db)

theorem name_file_frame (site : Site) (r : Request) (url slashAt : Nat) :
    ∃ file, nameFile site r url slashAt = { r with realFile := file } := by
  unfold nameFile
  split <;> exact ⟨_, rfl⟩

theorem answer_form_frame (site : Site) (r answered : Request) (url slashAt : Nat) (w after : World Db)
    (ok : answerForm mysqlQuery site r url slashAt w = .ok (answered, after)) :
    ∃ memory file, answered = { r with readBuf := memory, realFile := file } := by
  unfold answerForm at ok
  dsimp only at ok
  split at ok
  · cases ok
  · obtain ⟨⟨_, _⟩, _, ok⟩ := Run.ok_of_bind _ _ _ ok
    obtain ⟨⟨page, final⟩, _, ok⟩ := Run.ok_of_bind _ _ _ ok
    dsimp only at ok
    split at ok
    · cases ok
    · cases ok
      exact ⟨_, _, rfl⟩

theorem do_request_frame (site : Site) (r : Request) (w : World Db) :
    ∃ memory file, (doRequest mysqlQuery site r w).request = { r with readBuf := memory, realFile := file } := by
  unfold doRequest
  dsimp only
  split
  · exact ⟨_, _, rfl⟩
  · rename_i url _
    split
    · exact ⟨_, _, rfl⟩
    · rename_i p _
      split
      · cases answered : answerForm mysqlQuery site (rootFile site r) url (url + p) w with
        | error kind => exact ⟨_, _, rfl⟩
        | ok result =>
            obtain ⟨answeredRequest, after⟩ := result
            obtain ⟨memory, file, same⟩ := answer_form_frame mysqlQuery site _ _ _ _ w after answered
            obtain ⟨named, name⟩ := name_file_frame site answeredRequest url (url + p)
            dsimp only
            rw [open_file_request, name, same]
            exact ⟨_, _, rfl⟩
      · obtain ⟨named, name⟩ := name_file_frame site (rootFile site r) url (url + p)
        rw [open_file_request, name]
        exact ⟨_, _, rfl⟩

theorem do_request_form (site : Site) (r : Request) (w : World Db) :
    (doRequest mysqlQuery site r w).request.cgi = r.cgi ∧ (doRequest mysqlQuery site r w).request.string = r.string := by
  obtain ⟨memory, file, same⟩ := do_request_frame mysqlQuery site r w
  rw [same]
  exact ⟨rfl, rfl⟩

def serveBatches (site : Site) (slot : Request) (batches : List (List UInt8)) (w : World Db) : Reply Db :=
  match receive slot.init batches with
  | (.code .getRequest, parsed) => doRequest mysqlQuery site parsed w
  | (outcome, parsed) => ⟨outcome, parsed, w, none⟩

def slotAfter (site : Site) : Request → List (List (List UInt8) × World Db) → Request
  | slot, [] => slot
  | slot, (batches, w) :: later => slotAfter site (serveBatches mysqlQuery site slot batches w).request later

structure SameService (a b : Reply Db) : Prop where
  outcome : a.outcome = b.outcome
  realFile : a.request.realFile = b.request.realFile
  users : a.world.users = b.world.users

def NoForm (r : Request) : Prop := r.cgi = 0 ∧ r.string = none

theorem serve_batches_form (site : Site) (slot : Request) (batches : List (List UInt8)) (w : World Db) :
    (serveBatches mysqlQuery site slot batches w).request.cgi = (receive slot.init batches).2.cgi ∧
      (serveBatches mysqlQuery site slot batches w).request.string = (receive slot.init batches).2.string := by
  unfold serveBatches
  generalize receive slot.init batches = result
  split
  · exact do_request_form mysqlQuery site _ w
  · exact ⟨rfl, rfl⟩

theorem serve_batches_no_form (site : Site) (slot : Request) (batches : List (List UInt8)) (w : World Db) :
    NoForm (serveBatches mysqlQuery site slot batches w).request ↔ NoForm (receive slot.init batches).2 := by
  obtain ⟨cgi, string⟩ := serve_batches_form mysqlQuery site slot batches w
  unfold NoForm
  rw [cgi, string]

theorem form_kept_no_form (r s : Request) (kept : FormKept r s) (noForm : NoForm s) : NoForm r := by
  obtain ⟨cgi, string⟩ := noForm
  constructor
  · rcases kept.cgi with same | set
    · exact same ▸ cgi
    · rw [set] at cgi
      cases cgi
  · rcases kept.string with same | set
    · exact same ▸ string
    · rw [string] at set
      cases set

theorem slot_after_form (site : Site) (slot : Request) (history : List (List (List UInt8) × World Db)) :
    FormKept slot (slotAfter mysqlQuery site slot history) := by
  induction history generalizing slot with
  | nil => exact form_kept_same _ _ rfl rfl
  | cons request later ih =>
      obtain ⟨batches, w⟩ := request
      obtain ⟨cgi, string⟩ := serve_batches_form mysqlQuery site slot batches w
      have parsed := form_kept_trans slot slot.init _ (form_kept_same _ _ rfl rfl) (receive_form slot.init (init_ordered slot) batches)
      have served := form_kept_trans slot _ _ parsed (form_kept_same _ _ cgi string)
      exact form_kept_trans slot _ _ served (ih _)

theorem slot_after_no_form (site : Site) (slot : Request) (clean : NoForm slot) (history : List (List (List UInt8) × World Db)) :
    NoForm (slotAfter mysqlQuery site slot history) ↔ ∀ request ∈ history, NoForm (receive Request.fresh request.1).2 := by
  induction history generalizing slot with
  | nil => simpa [slotAfter] using clean
  | cons request later ih =>
      obtain ⟨batches, w⟩ := request
      have first := serve_batches_no_form mysqlQuery site slot batches w
      rw [Request.init_fresh slot clean.1 clean.2] at first
      simp only [slotAfter, List.forall_mem_cons]
      by_cases noForm : NoForm (receive Request.fresh batches).2
      · rw [ih _ (first.mpr noForm)]
        exact ⟨fun rest => ⟨noForm, rest⟩, fun both => both.2⟩
      · constructor
        · intro still
          exact absurd (first.mp (form_kept_no_form _ _ (slot_after_form mysqlQuery site _ later) still)) noForm
        · intro both
          exact absurd both.1 noForm

theorem init_form (slot : Request) : slot.init = { Request.fresh with cgi := slot.cgi, string := slot.string } := rfl

def getForm : Text := ascii "GET /2 HTTP/1.1\r\n\r\n"
def postForm : Text := ascii "POST /2 HTTP/1.1\r\n\r\n"

theorem parse_get_form (cgi : Int) (string : Option Nat) :
    let result := parseRead (({ Request.fresh with cgi := cgi, string := string } : Request).feed getForm)
    result.1 = .code .getRequest ∧ result.2.url = some 4 ∧ cstr result.2.readBuf 4 = ascii "/2" ∧
      result.2.readBuf 5 = 50 ∧ result.2.cgi = cgi := by
  refine ⟨?_, ?_, ?_, ?_, ?_⟩
  · cbv
  · cbv
  · cbv
  · cbv
  · cbv

theorem parse_post_form (cgi : Int) (string : Option Nat) :
    let result := parseRead (({ Request.fresh with cgi := cgi, string := string } : Request).feed postForm)
    result.1 = .code .getRequest ∧ result.2.url = some 5 ∧ cstr result.2.readBuf 5 = ascii "/2" ∧
      result.2.readBuf 6 = 50 ∧ result.2.cgi = 1 ∧ result.2.string = string := by
  refine ⟨?_, ?_, ?_, ?_, ?_, ?_⟩
  · cbv
  · cbv
  · cbv
  · cbv
  · cbv
  · cbv

theorem process_read_parsed (site : Site) (r : Request) (w : World Db) (done : (parseRead r).1 = .code .getRequest) :
    processRead mysqlQuery site r w = doRequest mysqlQuery site (parseRead r).2 w := by
  unfold processRead
  generalize parseRead r = result at done
  obtain ⟨outcome, parsed⟩ := result
  cases done
  rfl

theorem open_file_code (site : Site) (r : Request) (w : World Db) : ∃ value, (openFile site r w).outcome = .code value := by
  unfold openFile
  split
  · exact ⟨_, rfl⟩
  · split
    · exact ⟨_, rfl⟩
    · split <;> exact ⟨_, rfl⟩

theorem parsed_whole (slot : Request) (bytes : List UInt8)
    (done : (parseRead (slot.init.feed bytes)).1 = .code .getRequest) : Parsed (parseRead (slot.init.feed bytes)).2 := by
  have single : receive slot.init [bytes] = parseRead (slot.init.feed bytes) := deliver_singleton _ _ _ _ _
  have parsed := parsed_of_batches slot [bytes]
  rw [single] at parsed
  exact parsed done

theorem last_slash_first : strrchr (ascii "/2") slash = some 0 := by decide

theorem get_form_plain (site : Site) (slot : Request) (w : World Db) (cgi : slot.cgi ≠ 1) :
    let reply := processRead mysqlQuery site (slot.init.feed getForm) w
    (∃ value, reply.outcome = .code value) ∧ realPath reply.request = site.docRoot.path ++ ascii "/2" := by
  obtain ⟨done, target, name, route, flag⟩ := parse_get_form slot.cgi slot.string
  rw [← init_form] at done target name route flag
  have parsed := parsed_whole slot getForm done
  have total := root_short site.docRoot
  have short := site.docRoot.short
  dsimp only
  rw [process_read_parsed mysqlQuery site _ w done]
  generalize (parseRead (slot.init.feed getForm)).2 = r at target name route flag parsed
  have plain : ¬ (r.cgi = 1 ∧ (r.readBuf (4 + 0 + 1) = 50 ∨ r.readBuf (4 + 0 + 1) = 51)) := fun isForm => cgi (flag ▸ isForm.1)
  rw [do_request_slash mysqlQuery site r 4 0 w target (by rw [name]; exact last_slash_first), if_neg plain, open_file_request]
  refine ⟨open_file_code site _ w, ?_⟩
  rw [url_path site (rootFile site r) 4 (4 + 0)]
  · change _ ++ (cstr r.readBuf 4).take _ = _
    rw [name, List.take_of_length_le (by simp [ascii]; omega)]
  · change routePage (r.readBuf 5) = none
    rw [route]
    decide
  · exact root_file_bytes site r
  · exact root_file_behind site r 199 (by omega) parsed.cleared

theorem get_form_taken (site : Site) (slot : Request) (w : World Db) (cgi : slot.cgi = 1) :
    let reply := processRead mysqlQuery site (slot.init.feed getForm) w
    (∃ kind, reply.outcome = .fault kind) ∨
      ∃ page, SitePage page ∧ realPath reply.request = site.docRoot.path ++ page := by
  obtain ⟨done, target, name, route, flag⟩ := parse_get_form slot.cgi slot.string
  rw [← init_form] at done target name route flag
  have parsed := parsed_whole slot getForm done
  dsimp only
  rw [process_read_parsed mysqlQuery site _ w done]
  generalize (parseRead (slot.init.feed getForm)).2 = r at target name route flag parsed
  have isForm : r.cgi = 1 ∧ (r.readBuf (4 + 0 + 1) = 50 ∨ r.readBuf (4 + 0 + 1) = 51) := ⟨flag.trans cgi, .inl route⟩
  rw [do_request_slash mysqlQuery site r 4 0 w target (by rw [name]; exact last_slash_first), if_pos isForm]
  cases answered : answerForm mysqlQuery site (rootFile site r) 4 (4 + 0) w with
  | error kind => exact .inl ⟨kind, rfl⟩
  | ok result =>
      obtain ⟨answeredRequest, after⟩ := result
      dsimp only
      rw [open_file_request]
      exact .inr (form_path mysqlQuery site r answeredRequest 4 (4 + 0) w after parsed.cleared isForm.2 answered)

theorem get_form_differs (site : Site) (slot : Request) (w : World Db) (cgi : slot.cgi = 1) :
    ¬ SameService (processRead mysqlQuery site (slot.init.feed getForm) w)
      (processRead mysqlQuery site (Request.fresh.feed getForm) w) := by
  intro same
  obtain ⟨⟨value, code⟩, path⟩ := get_form_plain mysqlQuery site Request.fresh w (by decide)
  rw [Request.init_fresh Request.fresh rfl rfl] at code path
  rcases get_form_taken mysqlQuery site slot w cgi with ⟨kind, fault⟩ | ⟨page, sitePage, taken⟩
  · have outcomes := same.outcome
    rw [fault, code] at outcomes
    cases outcomes
  · have files : realPath (processRead mysqlQuery site (slot.init.feed getForm) w).request =
        realPath (processRead mysqlQuery site (Request.fresh.feed getForm) w).request := by
      unfold realPath
      rw [same.realFile]
    rw [taken, path] at files
    have long := sitePage.long
    rw [List.append_cancel_left files] at long
    exact absurd long (by decide)

theorem scan_until_error (memory : Memory) (address : Nat) (stop : UInt8) (limit : Nat) (kind : Fault)
    (failed : scanUntil memory address stop limit = .error kind) : kind = .outOfBounds := by
  induction limit generalizing address with
  | zero =>
      cases failed
      rfl
  | succ limit ih =>
      unfold scanUntil at failed
      split at failed
      · cases failed
      · cases rest : scanUntil memory (address + 1) stop limit with
        | error other =>
            rw [rest] at failed
            cases failed
            exact ih _ rest
        | ok text =>
            rw [rest] at failed
            cases failed

theorem read_form_error (r : Request) (kind : Fault) (string : r.string ≠ none) (failed : readForm r = .error kind) :
    kind = .outOfBounds := by
  unfold readForm at failed
  split at failed
  · rename_i missing
    exact absurd missing string
  · rcases Run.error_of_bind _ _ _ failed with scan | ⟨name, _, failed⟩
    · exact scan_until_error _ _ _ _ _ scan
    · dsimp only at failed
      rcases Run.error_of_bind _ _ _ failed with scan | ⟨password, _, failed⟩
      · exact scan_until_error _ _ _ _ _ scan
      · cases failed

theorem form_page_error (route : UInt8) (name password : Text) (w : World Db) (kind : Fault)
    (failed : formPage mysqlQuery route name password w = .error kind) : kind = .outOfBounds := by
  unfold formPage at failed
  split at failed
  · rcases Run.error_of_bind _ _ _ failed with registered | ⟨_, _, failed⟩
    · unfold register at registered
      split at registered
      · cases registered
        rfl
      · split at registered <;> cases registered
    · cases failed
  · cases failed

theorem answer_form_error (site : Site) (r : Request) (url slashAt : Nat) (w : World Db) (kind : Fault) (string : r.string ≠ none)
    (failed : answerForm mysqlQuery site r url slashAt w = .error kind) : kind = .outOfBounds := by
  unfold answerForm at failed
  dsimp only at failed
  split at failed
  · cases failed
    rfl
  · rcases Run.error_of_bind _ _ _ failed with form | ⟨⟨name, password⟩, _, failed⟩
    · exact read_form_error _ kind string form
    · rcases Run.error_of_bind _ _ _ failed with answer | ⟨⟨page, after⟩, _, failed⟩
      · exact form_page_error mysqlQuery _ _ _ _ kind answer
      · dsimp only at failed
        split at failed
        · cases failed
          rfl
        · cases failed

theorem post_form_fault (site : Site) (slot : Request) (w : World Db) :
    (processRead mysqlQuery site (slot.init.feed postForm) w).outcome = .fault .nullPointer ↔ slot.string = none := by
  obtain ⟨done, target, name, route, flag, kept⟩ := parse_post_form slot.cgi slot.string
  rw [← init_form] at done target name route flag kept
  rw [process_read_parsed mysqlQuery site _ w done]
  generalize (parseRead (slot.init.feed postForm)).2 = r at target name route flag kept
  have isForm : r.cgi = 1 ∧ (r.readBuf (5 + 0 + 1) = 50 ∨ r.readBuf (5 + 0 + 1) = 51) := ⟨flag, .inl route⟩
  rw [do_request_slash mysqlQuery site r 5 0 w target (by rw [name]; exact last_slash_first), if_pos isForm, ← kept]
  by_cases missing : r.string = none
  · have behind : cstr r.readBuf (5 + 2) = [] := by
      have nul := string_at_nul r.readBuf 5 (readBufferSize - 5) (by
        change (cstr r.readBuf 5).length < _
        rw [name]
        decide)
      change r.readBuf (5 + (cstr r.readBuf 5).length) = 0 at nul
      rw [name] at nul
      exact string_at_eq _ _ _ [] (by decide) (by simp) (by simp) nul
    have fault : answerForm mysqlQuery site (rootFile site r) 5 (5 + 0) w = .error .nullPointer := by
      unfold answerForm
      simp only [rootFile, behind, readForm, missing]
      rfl
    rw [fault]
    exact ⟨fun _ => missing, fun _ => rfl⟩
  · refine ⟨fun faulted => ?_, fun absent => absurd absent missing⟩
    cases answered : answerForm mysqlQuery site (rootFile site r) 5 (5 + 0) w with
    | error kind =>
        rw [answered, answer_form_error mysqlQuery site (rootFile site r) 5 (5 + 0) w kind missing answered] at faulted
        cases faulted
    | ok result =>
        rw [answered] at faulted
        obtain ⟨value, code⟩ := open_file_code site (nameFile site result.1 5 (5 + 0)) result.2
        rw [code] at faulted
        cases faulted

theorem post_form_differs (site : Site) (slot : Request) (w : World Db) (string : slot.string ≠ none) :
    ¬ SameService (processRead mysqlQuery site (slot.init.feed postForm) w)
      (processRead mysqlQuery site (Request.fresh.feed postForm) w) := by
  intro same
  have fault := (post_form_fault mysqlQuery site Request.fresh w).mpr rfl
  rw [Request.init_fresh Request.fresh rfl rfl, ← same.outcome] at fault
  exact string ((post_form_fault mysqlQuery site slot w).mp fault)

theorem same_service_iff (site : Site) (slot : Request) (w : World Db) (flag : slot.cgi = 0 ∨ slot.cgi = 1) :
    (∀ bytes, SameService (processRead mysqlQuery site (slot.init.feed bytes) w)
      (processRead mysqlQuery site (Request.fresh.feed bytes) w)) ↔ NoForm slot := by
  constructor
  · intro same
    constructor
    · rcases flag with zero | one
      · exact zero
      · exact absurd (same getForm) (get_form_differs mysqlQuery site slot w one)
    · by_contra kept
      exact post_form_differs mysqlQuery site slot w kept (same postForm)
  · intro clean bytes
    rw [Request.init_fresh slot clean.1 clean.2]
    exact ⟨rfl, rfl, rfl⟩

theorem request_isolation_iff (site : Site) (history : List (List (List UInt8) × World Db)) (w : World Db) :
    (∀ bytes, SameService (processRead mysqlQuery site ((slotAfter mysqlQuery site Request.fresh history).init.feed bytes) w)
      (processRead mysqlQuery site (Request.fresh.feed bytes) w)) ↔
      ∀ request ∈ history, NoForm (receive Request.fresh request.1).2 := by
  have kept := slot_after_form mysqlQuery site Request.fresh history
  rw [same_service_iff mysqlQuery site _ w kept.cgi]
  exact slot_after_no_form mysqlQuery site Request.fresh ⟨rfl, rfl⟩ history

end Service

def oneByteForm : Text := ascii "POST /0 HTTP/1.1\r\nContent-Length: 1\r\n\r\nx"
def getWithLogin : Text := ascii "GET /2 HTTP/1.1\r\nX: aaaaaaaaaaaaaaaaaaauser=1&password=2\r\n\r\n"

def logErrorPage (path : Text) : Option File := if path = ascii "/srv/root/logError.html" then anyFile path else none

def nobody : World Unit := ⟨fun _ => none, ()⟩

theorem get_taken_for_login :
    (processRead noRows ⟨srvRoot, logErrorPage⟩ (Request.fresh.feed getWithLogin) nobody).outcome = .code .noResource ∧
      (processRead noRows ⟨srvRoot, logErrorPage⟩
        ((slotAfter noRows ⟨srvRoot, logErrorPage⟩ Request.fresh [([oneByteForm], nobody)]).init.feed getWithLogin) nobody).outcome =
          .code .fileRequest ∧
      ¬ ∀ bytes, SameService
        (processRead noRows ⟨srvRoot, logErrorPage⟩
          ((slotAfter noRows ⟨srvRoot, logErrorPage⟩ Request.fresh [([oneByteForm], nobody)]).init.feed bytes) nobody)
        (processRead noRows ⟨srvRoot, logErrorPage⟩ (Request.fresh.feed bytes) nobody) := by
  have plain : (processRead noRows ⟨srvRoot, logErrorPage⟩ (Request.fresh.feed getWithLogin) nobody).outcome = .code .noResource := by
    decide +kernel
  have taken : (processRead noRows ⟨srvRoot, logErrorPage⟩
      ((slotAfter noRows ⟨srvRoot, logErrorPage⟩ Request.fresh [([oneByteForm], nobody)]).init.feed getWithLogin) nobody).outcome =
        .code .fileRequest := by
    decide +kernel
  refine ⟨plain, taken, fun same => ?_⟩
  have outcomes := (same getWithLogin).outcome
  rw [taken, plain] at outcomes
  cases outcomes

end WzyServer.Http
