import WzyServer.Base.Accesses
import WzyServer.Http.Credentials

set_option autoImplicit false

namespace WzyServer.Http

open CString Accesses

inductive Buffer where
  | name | password | sqlInsert | urlReal | realFile | readBuf
deriving DecidableEq, Repr

def Buffer.size : Buffer → Nat
  | .name => 100
  | .password => 100
  | .sqlInsert => 200
  | .urlReal => 200
  | .realFile => fileNameLen
  | .readBuf => readBufferSize

def insertPieces (name password : Text) : List Text :=
  [ascii "INSERT INTO user(username, password) VALUES(", ascii "'", name, ascii "', '", password, ascii "')"]

-- `name` as strcat sees it: the bytes copied, up to a NUL among them.
def nameAt (r : Request) (start count : Nat) : Text := (read r.readBuf start count).takeWhile fun c => c ≠ 0

def sqlTrace (name password : Text) : List (Access Buffer) := copies Buffer.size .sqlInsert 0 (insertPieces name password)

def fieldsTrace (r : Request) (text : Nat) (route : UInt8) : List (Access Buffer) :=
  let nameStart := text + 5
  copyUntil Buffer.size r.readBuf .readBuf .name 38 (fun i =>
    copyUntil Buffer.size r.readBuf .readBuf .password 0 (fun j =>
      if route = 51 then
        sqlTrace (nameAt r nameStart (i - nameStart)) (read r.readBuf (i + 10) (j - (i + 10)))
      else []) (readBufferSize + 1) (i + 10) 0) (readBufferSize + 1) nameStart 0

def formTrace (site : Site) (r : Request) (url slashAt : Nat) : List (Access Buffer) :=
  let len := site.docRoot.path.length
  before Buffer.size (copies Buffer.size .urlReal 0 [[slash], cstr r.readBuf (url + 2)])
    (before Buffer.size (elements .realFile len (fileNameLen - len - 1))
      (match r.string with
      | none => [.stray]
      | some text => fieldsTrace r text (r.readBuf (slashAt + 1))))

def nameTrace (site : Site) (r : Request) (slashAt : Nat) : List (Access Buffer) :=
  let len := site.docRoot.path.length
  match routePage (r.readBuf (slashAt + 1)) with
  | some page => before Buffer.size (copies Buffer.size .urlReal 0 [page]) (elements .realFile len page.length)
  | none => elements .realFile len (fileNameLen - len - 1)

section Database

variable {Db : Type} (mysqlQuery : Db → Text → Int × Db)

def doRequestTrace (site : Site) (r : Request) (w : World Db) : List (Access Buffer) :=
  before Buffer.size (copies Buffer.size .realFile 0 [site.docRoot.path])
    (match r.url with
    | none => []
    | some url =>
        match strrchr (cstr r.readBuf url) slash with
        | none => []
        | some p =>
            let slashAt := url + p
            let route := r.readBuf (slashAt + 1)
            if r.cgi = 1 ∧ (route = 50 ∨ route = 51) then
              before Buffer.size (formTrace site r url slashAt)
                (match answerForm mysqlQuery site (rootFile site r) url slashAt w with
                | .error _ => []
                | .ok (answered, _) => nameTrace site answered slashAt)
            else nameTrace site r slashAt)

end Database

structure FieldsFit (r : Request) (register : Prop) (text name password : Nat) : Prop where
  nameEnds : StopsAt r.readBuf (text + 5) 38 name
  nameRoom : name < 100
  nameRead : text + 5 + name < readBufferSize
  passwordEnds : StopsAt r.readBuf (text + 5 + name + 10) 0 password
  passwordRoom : password < 100
  passwordRead : text + 5 + name + 10 + password < readBufferSize
  statement : register → (nameAt r (text + 5) name).length + password ≤ 148

structure FormFits (r : Request) : Prop where
  url : ∀ url, r.url = some url → (cstr r.readBuf (url + 2)).length ≤ 198
  fields : ∃ text name password, r.string = some text ∧ FieldsFit r (urlRoute r = some 51) text name password

theorem insert_pieces_length (name password : Text) : (insertPieces name password).flatten.length = name.length + password.length + 51 := by
  simp only [insertPieces, List.flatten_cons, List.flatten_nil, List.length_append, List.length_nil]
  rw [show (ascii "INSERT INTO user(username, password) VALUES(").length = 44 by decide,
    show (ascii "'").length = 1 by decide, show (ascii "', '").length = 4 by decide, show (ascii "')").length = 2 by decide]
  omega

theorem safe_sql_trace (name password : Text) : Safe Buffer.size (sqlTrace name password) ↔ name.length + password.length ≤ 148 := by
  unfold sqlTrace
  rw [safe_copies _ _ _ _ (by simp [insertPieces]), insert_pieces_length]
  simp only [Buffer.size]
  omega

theorem safe_statement (route : UInt8) (name password : Text) :
    Safe Buffer.size (if route = 51 then sqlTrace name password else []) ↔ (route = 51 → name.length + password.length ≤ 148) := by
  by_cases register : route = 51
  · rw [if_pos register, safe_sql_trace]
    simp [register]
  · simp [register]

theorem safe_fields_trace (r : Request) (text : Nat) (route : UInt8) :
    Safe Buffer.size (fieldsTrace r text route) ↔ ∃ name password, FieldsFit r (route = 51) text name password := by
  have enough : ∀ start, Buffer.size .readBuf < start + (readBufferSize + 1) := by
    intro start
    simp only [Buffer.size]
    omega
  unfold fieldsTrace
  dsimp only
  rw [safe_copy_until _ _ _ _ _ _ _ _ _ (enough _)]
  simp only [safe_copy_until _ _ _ _ _ _ _ _ _ (enough _), Nat.add_sub_cancel_left, safe_statement, read_length, Nat.zero_add]
  constructor
  · rintro ⟨name, nameEnds, nameRead, nameRoom, password, passwordEnds, passwordRead, passwordRoom, statement⟩
    exact ⟨name, password, nameEnds, nameRoom, nameRead, passwordEnds, passwordRoom, passwordRead, statement⟩
  · rintro ⟨name, password, nameEnds, nameRoom, nameRead, passwordEnds, passwordRoom, passwordRead, statement⟩
    exact ⟨name, nameEnds, nameRead, nameRoom, password, passwordEnds, passwordRead, passwordRoom, statement⟩

theorem safe_root (site : Site) : Safe Buffer.size (copies Buffer.size .realFile 0 [site.docRoot.path]) := by
  have short := site.docRoot.short
  rw [safe_copies _ _ _ _ (by simp)]
  simp only [List.flatten_cons, List.flatten_nil, List.append_nil, Buffer.size, fileNameLen]
  omega

theorem safe_real_file (site : Site) (count : Nat) (some_byte : 0 < count) (room : count ≤ 95) :
    Safe Buffer.size (elements .realFile site.docRoot.path.length count) := by
  have short := site.docRoot.short
  rw [safe_elements _ _ _ _ some_byte]
  simp only [Buffer.size, fileNameLen]
  omega

theorem safe_copied_name (site : Site) :
    Safe Buffer.size (elements .realFile site.docRoot.path.length (fileNameLen - site.docRoot.path.length - 1)) := by
  have short := site.docRoot.short
  rw [safe_elements _ _ _ _ (by simp only [fileNameLen]; omega)]
  simp only [Buffer.size, fileNameLen]
  omega

theorem safe_name_trace (site : Site) (r : Request) (slashAt : Nat) : Safe Buffer.size (nameTrace site r slashAt) := by
  unfold nameTrace
  cases routed : routePage (r.readBuf (slashAt + 1)) with
  | none => exact safe_copied_name site
  | some page =>
      have sitePage := route_page_site _ page routed
      have long := sitePage.long
      have short := sitePage.short
      simp only [safe_before]
      refine ⟨?_, safe_real_file site page.length (by omega) (by omega)⟩
      rw [safe_copies _ _ _ _ (by simp)]
      simp only [List.flatten_cons, List.flatten_nil, List.append_nil, Buffer.size]
      omega

theorem safe_form_trace (site : Site) (r : Request) (url slashAt : Nat) :
    Safe Buffer.size (formTrace site r url slashAt) ↔ (cstr r.readBuf (url + 2)).length ≤ 198 ∧
      ∃ text name password, r.string = some text ∧ FieldsFit r (r.readBuf (slashAt + 1) = 51) text name password := by
  have copied : Safe Buffer.size (copies Buffer.size .urlReal 0 [[slash], cstr r.readBuf (url + 2)]) ↔
      (cstr r.readBuf (url + 2)).length ≤ 198 := by
    rw [safe_copies _ _ _ _ (by simp)]
    simp only [List.flatten_cons, List.flatten_nil, List.append_nil, List.length_append, List.length_singleton, Buffer.size]
    omega
  unfold formTrace
  simp only [safe_before, copied, safe_copied_name, true_and]
  refine and_congr_right fun _ => ?_
  cases r.string with
  | none => simp
  | some text => simp [safe_fields_trace]

theorem form_fits_iff (site : Site) (r : Request) (url p : Nat) (target : r.url = some url)
    (found : strrchr (cstr r.readBuf url) slash = some p) :
    Safe Buffer.size (formTrace site r url (url + p)) ↔ FormFits r := by
  have route : urlRoute r = some 51 ↔ r.readBuf (url + p + 1) = 51 := by simp [urlRoute, target, found]
  rw [safe_form_trace, ← route]
  constructor
  · rintro ⟨short, fields⟩
    refine ⟨fun other same => ?_, fields⟩
    cases target.symm.trans same
    exact short
  · exact fun fits => ⟨fits.url url target, fits.fields⟩

section Database

variable {Db : Type} (mysqlQuery : Db → Text → Int × Db)

theorem fitting_form_safe (site : Site) (r : Request) (w : World Db) (fits : EntersForm r → FormFits r) :
    Safe Buffer.size (doRequestTrace mysqlQuery site r w) := by
  unfold doRequestTrace
  rw [safe_before, and_iff_right (safe_root site)]
  cases target : r.url with
  | none => exact safe_nil _
  | some url =>
      cases found : strrchr (cstr r.readBuf url) slash with
      | none =>
          simp only [found]
          exact safe_nil _
      | some p =>
          simp only [found]
          by_cases isForm : r.cgi = 1 ∧ (r.readBuf (url + p + 1) = 50 ∨ r.readBuf (url + p + 1) = 51)
          · rw [if_pos isForm, safe_before, form_fits_iff site r url p target found]
            refine ⟨fits ((enters_form_iff r url p target found).mpr isForm), ?_⟩
            cases answerForm mysqlQuery site (rootFile site r) url (url + p) w with
            | error kind => exact safe_nil _
            | ok result => exact safe_name_trace site result.1 (url + p)
          · rw [if_neg isForm]
            exact safe_name_trace site r (url + p)

theorem do_request_safe_iff (site : Site) (r : Request) (w : World Db) :
    Safe Buffer.size (doRequestTrace mysqlQuery site r w) ↔ (EntersForm r → FormFits r) := by
  refine ⟨fun safe enters => ?_, fitting_form_safe mysqlQuery site r w⟩
  unfold doRequestTrace at safe
  rw [safe_before, and_iff_right (safe_root site)] at safe
  cases target : r.url with
  | none => simp [EntersForm, urlRoute, target] at enters
  | some url =>
      cases found : strrchr (cstr r.readBuf url) slash with
      | none => simp [EntersForm, urlRoute, target, found] at enters
      | some p =>
          have isForm := (enters_form_iff r url p target found).mp enters
          simp only [target, found] at safe
          rw [if_pos isForm, safe_before, form_fits_iff site r url p target found] at safe
          exact safe.1

end Database

theorem scan_until_ok_iff (memory : Memory) (address : Nat) (stop : UInt8) (limit : Nat) (text : Text) :
    scanUntil memory address stop limit = .ok text ↔
      ∃ count, count < limit ∧ StopsAt memory address stop count ∧ text = read memory address count := by
  induction limit generalizing address text with
  | zero => simp [scanUntil]
  | succ limit ih =>
      unfold scanUntil
      by_cases here : memory address = stop
      · have now : StopsAt memory address stop 0 := ⟨here, fun offset inside => by omega⟩
        rw [if_pos here]
        constructor
        · intro same
          cases same
          exact ⟨0, by omega, now, rfl⟩
        · rintro ⟨count, _, stops, rfl⟩
          cases stops_at_unique memory address stop count 0 stops now
          rfl
      · rw [if_neg here]
        constructor
        · intro same
          cases rest : scanUntil memory (address + 1) stop limit with
          | error kind =>
              rw [rest] at same
              cases same
          | ok tail =>
              rw [rest] at same
              cases same
              obtain ⟨count, inside, stops, rfl⟩ := (ih (address + 1) tail).mp rest
              refine ⟨count + 1, by omega, (stops_at_succ memory address stop count here).mpr stops, ?_⟩
              rw [Nat.add_comm count 1, read_append]
              rfl
        · rintro ⟨count, inside, stops, rfl⟩
          cases count with
          | zero => exact absurd stops.1 here
          | succ count =>
              have rest := (ih (address + 1) _).mpr ⟨count, by omega, (stops_at_succ memory address stop count here).mp stops, rfl⟩
              rw [rest, Nat.add_comm count 1, read_append]
              rfl

theorem read_form_ok_iff (r : Request) (name password : Text) :
    readForm r = .ok (name, password) ↔ ∃ text nameCount passwordCount, r.string = some text ∧
      FieldsFit r False text nameCount passwordCount ∧ name = nameAt r (text + 5) nameCount ∧
      password = read r.readBuf (text + 5 + nameCount + 10) passwordCount := by
  unfold readForm
  cases r.string with
  | none => simp
  | some text =>
      dsimp only
      constructor
      · intro ok
        obtain ⟨first, scanned, ok⟩ := Run.ok_of_bind _ _ _ ok
        obtain ⟨second, found, ok⟩ := Run.ok_of_bind _ _ _ ok
        obtain ⟨nameCount, nameInside, nameEnds, rfl⟩ := (scan_until_ok_iff _ _ _ _ _).mp scanned
        rw [read_length] at found
        obtain ⟨passwordCount, passwordInside, passwordEnds, rfl⟩ := (scan_until_ok_iff _ _ _ _ _).mp found
        cases ok
        refine ⟨text, nameCount, passwordCount, rfl, ⟨nameEnds, by omega, by omega, passwordEnds, by omega, by omega, False.elim⟩, rfl, rfl⟩
      · rintro ⟨_, nameCount, passwordCount, same, ⟨nameEnds, nameRoom, nameRead, passwordEnds, passwordRoom, passwordRead, _⟩, rfl, rfl⟩
        cases same
        have scanned := (scan_until_ok_iff r.readBuf (text + 5) 38 (min 100 (readBufferSize - (text + 5))) _).mpr
          ⟨nameCount, by omega, nameEnds, rfl⟩
        have found := (scan_until_ok_iff r.readBuf (text + 5 + nameCount + 10) 0
          (min 100 (readBufferSize - (text + 5 + nameCount + 10))) _).mpr ⟨passwordCount, by omega, passwordEnds, rfl⟩
        rw [scanned]
        change (scanUntil r.readBuf (text + 5 + (read r.readBuf (text + 5) nameCount).length + 10) 0 _ >>= _) = _
        rw [read_length, found]
        rfl

section Database

variable {Db : Type} (mysqlQuery : Db → Text → Int × Db)

theorem answer_form_room (site : Site) (r answered : Request) (url slashAt : Nat) (w after : World Db)
    (ok : answerForm mysqlQuery site r url slashAt w = .ok (answered, after)) : (cstr r.readBuf (url + 2)).length ≤ 198 := by
  unfold answerForm at ok
  dsimp only at ok
  split at ok
  · cases ok
  · omega

theorem register_room (name password : Text) (w after : World Db) (success : Bool)
    (ok : register mysqlQuery name password w = .ok (success, after)) : name.length + password.length ≤ 148 := by
  unfold register at ok
  split at ok
  · cases ok
  · rename_i short
    have pieces := insert_pieces_length name password
    have same : (insertPieces name password).flatten = insertStatement name password := by simp [insertPieces, insertStatement]
    rw [same] at pieces
    omega

theorem answered_form_fits (site : Site) (r answered : Request) (url p : Nat) (w after : World Db) (target : r.url = some url)
    (found : strrchr (cstr r.readBuf url) slash = some p)
    (ok : answerForm mysqlQuery site (rootFile site r) url (url + p) w = .ok (answered, after)) : FormFits r := by
  have room := answer_form_room mysqlQuery site _ answered url (url + p) w after ok
  obtain ⟨name, password, page, form, answer, _⟩ := answer_form_ok mysqlQuery site _ _ _ _ w after ok
  obtain ⟨text, nameCount, passwordCount, string, fit, rfl, rfl⟩ := (read_form_ok_iff _ _ _).mp form
  refine ⟨fun other same => ?_, text, nameCount, passwordCount, string, { fit with statement := fun registers => ?_ }⟩
  · cases target.symm.trans same
    exact room
  · have route : (rootFile site r).readBuf (url + p + 1) = 51 := by
      change r.readBuf (url + p + 1) = 51
      simpa [urlRoute, target, found] using registers
    unfold formPage at answer
    rw [if_pos route] at answer
    obtain ⟨⟨success, final⟩, registered, _⟩ := Run.ok_of_bind _ _ _ answer
    have short := register_room mysqlQuery _ _ w final success registered
    rw [read_length] at short
    exact short

theorem do_request_code_safe (site : Site) (r : Request) (w : World Db) (value : HttpCode)
    (code : (doRequest mysqlQuery site r w).outcome = .code value) : Safe Buffer.size (doRequestTrace mysqlQuery site r w) := by
  refine fitting_form_safe mysqlQuery site r w fun enters => ?_
  cases target : r.url with
  | none => simp [EntersForm, urlRoute, target] at enters
  | some url =>
      cases found : strrchr (cstr r.readBuf url) slash with
      | none => simp [EntersForm, urlRoute, target, found] at enters
      | some p =>
          rw [do_request_slash mysqlQuery site r url p w target found, if_pos ((enters_form_iff r url p target found).mp enters)] at code
          cases answered : answerForm mysqlQuery site (rootFile site r) url (url + p) w with
          | error kind =>
              rw [answered] at code
              cases code
          | ok result => exact answered_form_fits mysqlQuery site r result.1 url p w result.2 target found answered

end Database

def formOfOneByte : Text := ascii "POST /2 HTTP/1.1\r\nContent-Length: 1\r\n\r\nx"

-- No '&' in the body: the first loop fills name[100] and goes on.
theorem form_leaves_name :
    (receive Request.fresh.init [formOfOneByte]).1 = .code .getRequest ∧
      .element .name 100 ∈ doRequestTrace noRows ⟨srvRoot, anyFile⟩ (receive Request.fresh.init [formOfOneByte]).2 nobody ∧
      ¬ ∀ batches, (receive Request.fresh.init batches).1 = .code .getRequest →
        Safe Buffer.size (doRequestTrace noRows ⟨srvRoot, anyFile⟩ (receive Request.fresh.init batches).2 nobody) := by
  have served : (receive Request.fresh.init [formOfOneByte]).1 = .code .getRequest := by decide +kernel
  have outside : .element .name 100 ∈ doRequestTrace noRows ⟨srvRoot, anyFile⟩ (receive Request.fresh.init [formOfOneByte]).2 nobody := by
    decide +kernel
  refine ⟨served, outside, fun all => ?_⟩
  have inside := all [formOfOneByte] served _ outside
  exact absurd inside (by decide)

end WzyServer.Http
