import WzyServer.Base.Run
import WzyServer.Http.DoRequest

set_option autoImplicit false

namespace WzyServer.Http

open CString Run

def submittedForm (r : Request) : Option (UInt8 × Text × Text) :=
  match r.url with
  | none => none
  | some url =>
      match strrchr (cstr r.readBuf url) slash with
      | none => none
      | some p =>
          let route := r.readBuf (url + p + 1)
          if r.cgi = 1 ∧ (route = 50 ∨ route = 51) then
            match readForm r with
            | .error _ => none
            | .ok (name, password) => some (route, name, password)
          else none

section Database

variable {Db : Type} (mysqlQuery : Db → Text → Int × Db)

theorem answer_form_ok (site : Site) (r answered : Request) (url slashAt : Nat) (w after : World Db)
    (ok : answerForm mysqlQuery site r url slashAt w = .ok (answered, after)) :
    ∃ name password page, readForm r = .ok (name, password) ∧
      formPage mysqlQuery (r.readBuf (slashAt + 1)) name password w = .ok (page, after) ∧
      url + page.length + 1 ≤ readBufferSize ∧ answered.readBuf = write r.readBuf url (page ++ [0]) ∧
      answered.realFile = strncpy r.realFile site.docRoot.path.length (slash :: cstr r.readBuf (url + 2))
        (fileNameLen - site.docRoot.path.length - 1) := by
  unfold answerForm at ok
  dsimp only at ok
  split at ok
  · cases ok
  · obtain ⟨⟨name, password⟩, form, ok⟩ := Run.ok_of_bind _ _ _ ok
    obtain ⟨⟨page, final⟩, answer, ok⟩ := Run.ok_of_bind _ _ _ ok
    dsimp only at ok
    split at ok
    · cases ok
    · rename_i room
      cases ok
      exact ⟨name, password, page, form, answer, by omega, rfl, rfl⟩

theorem open_file_world (site : Site) (r : Request) (w : World Db) : (openFile site r w).world = w := by
  unfold openFile
  split
  · rfl
  · split
    · rfl
    · split <;> rfl

theorem do_request_world (site : Site) (r : Request) (w : World Db) :
    (∃ kind, (doRequest mysqlQuery site r w).outcome = .fault kind) ∨
    (submittedForm r = none ∧ (doRequest mysqlQuery site r w).world = w) ∨
    ∃ route name password page, submittedForm r = some (route, name, password) ∧
      formPage mysqlQuery route name password w = .ok (page, (doRequest mysqlQuery site r w).world) := by
  unfold doRequest submittedForm
  cases r.url with
  | none => exact .inl ⟨_, rfl⟩
  | some url =>
      dsimp only
      cases strrchr (cstr r.readBuf url) slash with
      | none => exact .inl ⟨_, rfl⟩
      | some p =>
          dsimp only
          by_cases isForm : r.cgi = 1 ∧ (r.readBuf (url + p + 1) = 50 ∨ r.readBuf (url + p + 1) = 51)
          · simp only [if_pos isForm]
            cases answered : answerForm mysqlQuery site (rootFile site r) url (url + p) w with
            | error kind => exact .inl ⟨kind, rfl⟩
            | ok result =>
                obtain ⟨answeredRequest, after⟩ := result
                obtain ⟨name, password, page, form, answer, _⟩ := answer_form_ok mysqlQuery site _ _ _ _ w after answered
                change readForm r = .ok (name, password) at form
                refine .inr (.inr ⟨r.readBuf (url + p + 1), name, password, page, by rw [form], ?_⟩)
                dsimp only
                rw [open_file_world]
                exact answer
          · simp only [if_neg isForm]
            exact .inr (.inl ⟨trivial, open_file_world site _ w⟩)

theorem register_ok (name password : Text) (w after : World Db) (success : Bool)
    (ok : register mysqlQuery name password w = .ok (success, after)) :
    (w.users name = none ∧ success = decide ((mysqlQuery w.db (insertStatement name password)).1 = 0) ∧
      after = ⟨w.users.insert name password, (mysqlQuery w.db (insertStatement name password)).2⟩) ∨
    (w.users name ≠ none ∧ success = false ∧ after = w) := by
  unfold register at ok
  split at ok
  · cases ok
  · split at ok
    · rename_i absent
      cases ok
      exact .inl ⟨absent, rfl, rfl⟩
    · rename_i present
      cases ok
      exact .inr ⟨present, rfl, rfl⟩

inductive FormAnswer (w : World Db) : UInt8 → Text → Text → Text → World Db → Prop where
  | registered (name password : Text) (absent : w.users name = none)
      (res : (mysqlQuery w.db (insertStatement name password)).1 = 0) :
      FormAnswer w 51 name password (ascii "/log.html")
        ⟨w.users.insert name password, (mysqlQuery w.db (insertStatement name password)).2⟩
  | refused (name password : Text) (absent : w.users name = none)
      (res : (mysqlQuery w.db (insertStatement name password)).1 ≠ 0) :
      FormAnswer w 51 name password (ascii "/registerError.html")
        ⟨w.users.insert name password, (mysqlQuery w.db (insertStatement name password)).2⟩
  | duplicate (name password : Text) (present : w.users name ≠ none) :
      FormAnswer w 51 name password (ascii "/registerError.html") w
  | welcome (route : UInt8) (name password : Text) (notRegister : route ≠ 51) (matches_ : w.users name = some password) :
      FormAnswer w route name password (ascii "/welcome.html") w
  | logError (route : UInt8) (name password : Text) (notRegister : route ≠ 51) (differs : w.users name ≠ some password) :
      FormAnswer w route name password (ascii "/logError.html") w

theorem form_page_answer (route : UInt8) (name password page : Text) (w after : World Db)
    (ok : formPage mysqlQuery route name password w = .ok (page, after)) :
    FormAnswer mysqlQuery w route name password page after := by
  unfold formPage at ok
  split at ok
  · rename_i isRegister
    subst isRegister
    obtain ⟨⟨success, final⟩, answered, ok⟩ := Run.ok_of_bind _ _ _ ok
    cases ok
    rcases register_ok mysqlQuery name password w _ success answered with ⟨absent, rfl, rfl⟩ | ⟨present, rfl, rfl⟩
    · by_cases res : (mysqlQuery w.db (insertStatement name password)).1 = 0
      · simp only [res, decide_true, if_true]
        exact .registered name password absent res
      · simp only [res, decide_false, Bool.false_eq_true, if_false]
        exact .refused name password absent res
    · exact .duplicate name password present
  · rename_i notRegister
    cases ok
    by_cases same : w.users name = some password
    · simp only [login, same, decide_true, if_true]
      exact .welcome route name password notRegister same
    · simp only [login, same, decide_false, Bool.false_eq_true, if_false]
      exact .logError route name password notRegister same

end Database

def loadUsers (rows : List (Text × Text)) : Users :=
  rows.foldl (fun users row => users.insert row.1 row.2) fun _ => none

theorem load_users_append (rows : List (Text × Text)) (name password : Text) :
    loadUsers (rows ++ [(name, password)]) = (loadUsers rows).insert name password := by
  simp [loadUsers]

section History

variable {Db : Type} (mysqlQuery : Db → Text → Int × Db) (rows : Db → List (Text × Text)) (site : Site)

-- mysql_query on the INSERT returns 0 exactly when the row was added, and
-- otherwise leaves the table as it was.
structure InsertContract : Prop where
  added : ∀ db name password, (mysqlQuery db (insertStatement name password)).1 = 0 →
    rows (mysqlQuery db (insertStatement name password)).2 = rows db ++ [(name, password)]
  unchanged : ∀ db name password, (mysqlQuery db (insertStatement name password)).1 ≠ 0 →
    rows (mysqlQuery db (insertStatement name password)).2 = rows db

-- `granted`: the pairs loaded at the start and those whose registration was
-- answered with /log.html.
structure Accounts (Db : Type) where
  world : World Db
  granted : Text → Text → Prop

def openAccounts (db : Db) : Accounts Db where
  world := ⟨loadUsers (rows db), db⟩
  granted := fun name password => loadUsers (rows db) name = some password

structure Answered (w : World Db) (r : Request) (route : UInt8) (name password page : Text) (after : World Db) : Prop where
  form : submittedForm r = some (route, name, password)
  page : formPage mysqlQuery route name password w = .ok (page, after)
  sound : ∀ kind, (doRequest mysqlQuery site r w).outcome ≠ .fault kind

def serveRequest (s : Accounts Db) (r : Request) : Except Fault (Accounts Db) :=
  let reply := doRequest mysqlQuery site r s.world
  match reply.outcome with
  | .fault kind => .error kind
  | .code _ => .ok { world := reply.world, granted := fun name password => s.granted name password ∨
      ∃ after, Answered mysqlQuery site s.world r 51 name password (ascii "/log.html") after }

def accountMachine : Machine (Accounts Db) Request Fault where
  guard := fun _ _ => True
  effect := serveRequest mysqlQuery site

def Agrees (s : Accounts Db) : Prop := s.world.users = loadUsers (rows s.world.db)

def AnswersSound (s : Accounts Db) (r : Request) : Prop :=
  ∀ route name password page after, Answered mysqlQuery site s.world r route name password page after →
    (page = ascii "/registerError.html" → after.users = s.world.users) ∧
      (page = ascii "/welcome.html" → s.granted name password)

def InsertAccepted (s : Accounts Db) (r : Request) : Prop :=
  ∀ name password page after, Answered mysqlQuery site s.world r 51 name password page after →
    s.world.users name = none → (mysqlQuery s.world.db (insertStatement name password)).1 = 0

theorem serve_takes (s t : Accounts Db) (r : Request) (ok : serveRequest mysqlQuery site s r = .ok t) :
    Takes (accountMachine mysqlQuery site) s r t := ⟨trivial, ok⟩

theorem serve_ok (s t : Accounts Db) (r : Request) (ok : serveRequest mysqlQuery site s r = .ok t) :
    (∀ kind, (doRequest mysqlQuery site r s.world).outcome ≠ .fault kind) ∧
      t.world = (doRequest mysqlQuery site r s.world).world ∧
      ∀ name password, t.granted name password ↔ s.granted name password ∨
        ∃ after, Answered mysqlQuery site s.world r 51 name password (ascii "/log.html") after := by
  unfold serveRequest at ok
  dsimp only at ok
  split at ok
  · cases ok
  · rename_i code outcome
    cases ok
    refine ⟨fun kind fault => ?_, rfl, fun name password => Iff.rfl⟩
    rw [outcome] at fault
    cases fault

theorem serve_world (s t : Accounts Db) (r : Request) (ok : serveRequest mysqlQuery site s r = .ok t) :
    t.world = s.world ∨
      ∃ route name password page, Answered mysqlQuery site s.world r route name password page t.world := by
  obtain ⟨sound, world, _⟩ := serve_ok mysqlQuery site s t r ok
  rcases do_request_world mysqlQuery site r s.world with ⟨kind, fault⟩ | ⟨_, same⟩ | ⟨route, name, password, page, form, answer⟩
  · exact absurd fault (sound kind)
  · exact .inl (world.trans same)
  · rw [← world] at answer
    exact .inr ⟨route, name, password, page, form, answer, sound⟩

structure Consistent (s : Accounts Db) : Prop where
  agrees : Agrees rows s
  granted : ∀ name password, s.world.users name = some password → s.granted name password

theorem consistent_step (contract : InsertContract mysqlQuery rows) (s t : Accounts Db) (r : Request)
    (consistent : Consistent rows s) (accepted : InsertAccepted mysqlQuery site s r)
    (ok : serveRequest mysqlQuery site s r = .ok t) : Consistent rows t := by
  obtain ⟨agrees, granted⟩ := consistent
  obtain ⟨_, _, grants⟩ := serve_ok mysqlQuery site s t r ok
  have kept : ∀ name password, s.granted name password → t.granted name password :=
    fun name password before => (grants name password).mpr (.inl before)
  rcases serve_world mysqlQuery site s t r ok with same | ⟨route, name, password, page, answered⟩
  · refine ⟨by unfold Agrees at agrees ⊢; rw [same]; exact agrees, fun other word found => ?_⟩
    rw [same] at found
    exact kept other word (granted other word found)
  · have answer := form_page_answer mysqlQuery route name password page s.world t.world answered.page
    generalize after : t.world = world at answer answered
    have unmoved : world = s.world → Consistent rows t := by
      intro same
      refine ⟨by unfold Agrees at agrees ⊢; rw [after, same]; exact agrees, fun other word found => ?_⟩
      rw [after, same] at found
      exact kept other word (granted other word found)
    cases answer with
    | registered _ _ absent res =>
        constructor
        · unfold Agrees at agrees ⊢
          rw [after]
          simp only
          rw [contract.added s.world.db name password res, load_users_append, agrees]
        · intro other word found
          rw [after] at found
          simp only [Users.insert] at found
          split at found
          · rename_i same
            cases found
            rw [same]
            exact (grants name password).mpr (.inr ⟨_, answered⟩)
          · exact kept other word (granted other word found)
    | refused _ _ absent res => exact absurd (accepted name password _ _ answered absent) res
    | duplicate _ _ present => exact unmoved rfl
    | welcome _ _ _ notRegister same => exact unmoved rfl
    | logError _ _ _ notRegister differs => exact unmoved rfl

theorem answers_sound (s : Accounts Db) (r : Request) (consistent : Consistent rows s)
    (accepted : InsertAccepted mysqlQuery site s r) : AnswersSound mysqlQuery site s r := by
  intro route name password page after answered
  have answer := form_page_answer mysqlQuery route name password page s.world after answered.page
  cases answer with
  | registered _ _ absent res => exact ⟨fun page => absurd page (by decide), fun page => absurd page (by decide)⟩
  | refused _ _ absent res => exact absurd (accepted name password _ _ answered absent) res
  | duplicate _ _ present => exact ⟨fun _ => rfl, fun page => absurd page (by decide)⟩
  | welcome _ _ _ notRegister same =>
      exact ⟨fun page => absurd page (by decide), fun _ => consistent.granted name password same⟩
  | logError _ _ _ notRegister differs => exact ⟨fun _ => rfl, fun page => absurd page (by decide)⟩

theorem refused_disagrees (contract : InsertContract mysqlQuery rows) (s : Accounts Db) (r : Request)
    (agrees : Agrees rows s) (refused : ¬ InsertAccepted mysqlQuery site s r) :
    ∃ t, serveRequest mysqlQuery site s r = .ok t ∧ ¬ Agrees rows t := by
  unfold InsertAccepted at refused
  push Not at refused
  obtain ⟨name, password, page, after, answered, absent, res⟩ := refused
  have served : ∃ t, serveRequest mysqlQuery site s r = .ok t := by
    unfold serveRequest
    cases outcome : (doRequest mysqlQuery site r s.world).outcome with
    | code value =>
        simp only [outcome]
        exact ⟨_, rfl⟩
    | fault kind => exact absurd outcome (answered.sound kind)
  obtain ⟨t, ok⟩ := served
  refine ⟨t, ok, fun agreesAfter => ?_⟩
  have world : t.world = after := by
    obtain ⟨sound, reply, _⟩ := serve_ok mysqlQuery site s t r ok
    rcases do_request_world mysqlQuery site r s.world with ⟨kind, fault⟩ | ⟨noForm, _⟩ | ⟨route, n, p, other, form, answer⟩
    · exact absurd fault (sound kind)
    · exact absurd (answered.form.symm.trans noForm) (by simp)
    · have same := answered.form.symm.trans form
      cases same
      have result := answered.page.symm.trans answer
      cases result
      exact reply
  have answer := form_page_answer mysqlQuery 51 name password page s.world after answered.page
  unfold Agrees at agrees agreesAfter
  rw [world] at agreesAfter
  cases answer with
  | registered _ _ _ accepted => exact res accepted
  | refused _ _ _ _ =>
      simp only at agreesAfter
      rw [contract.unchanged s.world.db name password res, ← agrees] at agreesAfter
      have here := congrFun agreesAfter name
      simp [Users.insert, absent] at here
  | duplicate _ _ present => exact present absent
  | welcome _ _ _ notRegister _ => exact notRegister rfl
  | logError _ _ _ notRegister _ => exact notRegister rfl

theorem open_consistent (db : Db) : Consistent rows (openAccounts rows db) :=
  ⟨rfl, fun _ _ found => found⟩

theorem users_agree_iff (contract : InsertContract mysqlQuery rows) (db : Db) (requests : List Request) :
    Always (accountMachine mysqlQuery site) (Agrees rows) (openAccounts rows db) requests ∧
        Along (accountMachine mysqlQuery site) (AnswersSound mysqlQuery site) (openAccounts rows db) requests ↔
      Along (accountMachine mysqlQuery site) (InsertAccepted mysqlQuery site) (openAccounts rows db) requests := by
  apply always_and_along_iff _ (InsertAccepted mysqlQuery site) (AnswersSound mysqlQuery site) (Consistent rows) (Agrees rows)
    _ _ _ _ _ requests (open_consistent rows db)
  · exact fun s r t consistent accepted taken => consistent_step mysqlQuery rows site contract s t r consistent accepted taken.2
  · exact fun s r consistent _ refused => refused_disagrees mysqlQuery rows site contract s r consistent.agrees refused
  · exact fun s consistent => consistent.agrees
  · exact fun s r consistent _ here => answers_sound mysqlQuery rows site s r consistent here

end History

def registration : Request :=
  (parseRead (Request.fresh.init.feed (ascii "POST /3 HTTP/1.1\r\nContent-Length: 17\r\n\r\nuser=1&password=2"))).2

def srvRoot : DocRoot := ⟨ascii "/srv/root", by decide, by decide +kernel, by decide⟩

def emptySite : Site := ⟨srvRoot, fun _ => none⟩

def oneRow (db : List (Text × Text)) (statement : Text) : Int × List (Text × Text) :=
  if statement = insertStatement (ascii "1") (ascii "2") then (0, db ++ [(ascii "1", ascii "2")]) else (1, db)

def readOnly (db : List (Text × Text)) (_ : Text) : Int × List (Text × Text) := (1, db)

theorem insert_statement_one (name password : Text)
    (same : insertStatement name password = insertStatement (ascii "1") (ascii "2")) :
    name = ascii "1" ∧ password = ascii "2" := by
  have quote : ascii "'" = [39] := by decide
  have comma : ascii "', '" = [39, 44, 32, 39] := by decide
  have close : ascii "')" = [39, 41] := by decide
  have one : ascii "1" = [49] := by decide
  have two : ascii "2" = [50] := by decide
  simp only [insertStatement, List.append_assoc, List.append_cancel_left_eq, quote, comma, close, one, two] at same ⊢
  have total := congrArg List.length same
  simp only [List.length_append, List.length_cons, List.length_nil] at total
  match name with
  | [] => simp at same
  | [a] =>
      have parts : a = 49 ∧ password ++ [39, 41] = [50, 39, 41] := by simpa using same
      refine ⟨by rw [parts.1], ?_⟩
      exact List.append_cancel_right (parts.2.trans rfl : password ++ [39, 41] = [50] ++ [39, 41])
  | a :: b :: rest =>
      have nothing : rest = [] ∧ password = [] := by
        constructor
        · exact List.eq_nil_of_length_eq_zero (by simp at total; omega)
        · exact List.eq_nil_of_length_eq_zero (by simp at total; omega)
      simp [nothing.1, nothing.2] at same

theorem one_row_contract : InsertContract oneRow id := by
  constructor
  · intro db name password accepted
    unfold oneRow at accepted ⊢
    split at accepted
    · rename_i same
      obtain ⟨rfl, rfl⟩ := insert_statement_one name password same
      rfl
    · cases accepted
  · intro db name password refused
    unfold oneRow at refused ⊢
    split at refused
    · exact absurd rfl refused
    · rename_i other
      rw [if_neg other]

theorem users_agree_iff_registration :
    Always (accountMachine oneRow emptySite) (Agrees id) (openAccounts id []) [registration] ∧
        Along (accountMachine oneRow emptySite) (AnswersSound oneRow emptySite) (openAccounts id []) [registration] ↔
      Along (accountMachine oneRow emptySite) (InsertAccepted oneRow emptySite) (openAccounts id []) [registration] :=
  users_agree_iff oneRow id emptySite one_row_contract [] [registration]

theorem refused_insert_stays : InsertContract readOnly id ∧
    ¬ Always (accountMachine readOnly emptySite) (Agrees id) (openAccounts id []) [registration] := by
  have contract : InsertContract readOnly id := ⟨fun _ _ _ accepted => absurd accepted (by simp [readOnly]), fun _ _ _ _ => rfl⟩
  refine ⟨contract, fun always => ?_⟩
  have form : submittedForm registration = some (51, ascii "1", ascii "2") := by decide +kernel
  have outcome : (doRequest readOnly emptySite registration (openAccounts id []).world).outcome = .code .noResource := by
    decide +kernel
  have sound : ∀ kind, (doRequest readOnly emptySite registration (openAccounts id []).world).outcome ≠ .fault kind := by
    rw [outcome]
    intro kind same
    cases same
  have refused : ¬ InsertAccepted readOnly emptySite (openAccounts id []) registration := by
    intro accepted
    rcases do_request_world readOnly emptySite registration (openAccounts id []).world with
      ⟨kind, fault⟩ | ⟨noForm, _⟩ | ⟨route, name, password, page, found, answer⟩
    · exact sound kind fault
    · exact absurd (form.symm.trans noForm) (by simp)
    · have same := form.symm.trans found
      cases same
      have res := accepted (ascii "1") (ascii "2") page _ ⟨form, answer, sound⟩ rfl
      cases res
  obtain ⟨t, ok, disagrees⟩ := refused_disagrees readOnly id emptySite contract (openAccounts id []) registration
    (open_consistent id []).agrees refused
  exact disagrees (always_here _ (Agrees id) t [] (always.2 t (serve_takes readOnly emptySite _ t registration ok)))

end WzyServer.Http
