import WzyServer.Base.LexicalPath
import WzyServer.Http.Accounts
import WzyServer.Http.Target

set_option autoImplicit false

namespace WzyServer.Http

open CString LexicalPath

def component (name : Text) : Component Text :=
  if name = [] ∨ name = ascii "." then .stay else if name = ascii ".." then .up else .down name

def components (path : Text) : List (Component Text) := (path.splitOn slash).map component

def Inside (root : DocRoot) (path : Text) : Prop :=
  Below (resolve [] (components root.path)) (resolve [] (components path))

def ComesDownInside (root : DocRoot) (url : Text) : Prop :=
  let base := resolve [] (components root.path)
  Below (base.drop (base.length - (route (components url)).ups)) (route (components url)).names

instance (root : DocRoot) (path : Text) : Decidable (Inside root path) := inferInstanceAs (Decidable (Below _ _))

instance (root : DocRoot) (url : Text) : Decidable (ComesDownInside root url) := inferInstanceAs (Decidable (Below _ _))

theorem components_slash (path : Text) : components (slash :: path) = .stay :: components path := by
  have split : (slash :: path).splitOn slash = [] :: path.splitOn slash := by
    have appended := List.splitOn_append_cons_self (a := slash) [] path
    simpa using appended
  simp [components, split, component]

theorem components_append (root url : Text) : components (root ++ slash :: url) = components root ++ components url := by
  simp [components, List.splitOn_append_cons_self]

theorem inside_iff (root : DocRoot) (url : Text) (rooted : url.head? = some slash) :
    Inside root (root.path ++ url) ↔ ComesDownInside root url := by
  cases url with
  | nil => cases rooted
  | cons first rest =>
      cases rooted
      unfold Inside ComesDownInside
      rw [components_append, components_slash, resolve_append, resolve_route _ (components rest), below_route]
      rfl

theorem strncpy_filled (source : Text) (count : Nat) :
    (source.take count ++ List.replicate (count - source.length) 0).length = count := by
  simp only [List.length_append, List.length_take, List.length_replicate]
  omega

theorem path_of_copy (memory : Memory) (root name : Text) (count : Nat) (fits : root.length + count < fileNameLen)
    (rootClean : ∀ c ∈ root, c ≠ 0) (clean : ∀ c ∈ name, c ≠ 0)
    (holds : ∀ offset (inside : offset < root.length), memory offset = root[offset]) (last : memory (root.length + count) = 0) :
    stringAt (strncpy memory root.length name count) 0 fileNameLen = root ++ name.take count := by
  have filled := strncpy_filled name count
  have shorter : (name.take count).length ≤ count := by
    rw [List.length_take]
    exact Nat.min_le_left _ _
  unfold strncpy
  apply string_at_eq
  · rw [List.length_append]
    omega
  · intro c member
    rcases List.mem_append.mp member with inRoot | inName
    · exact rootClean c inRoot
    · exact clean c (List.mem_of_mem_take inName)
  · intro offset inside
    rw [Nat.zero_add]
    by_cases inRoot : offset < root.length
    · rw [write_before _ _ _ _ inRoot, List.getElem_append_left inRoot]
      exact holds offset inRoot
    · obtain ⟨index, rfl⟩ := Nat.exists_eq_add_of_le (Nat.le_of_not_lt inRoot)
      rw [List.length_append] at inside
      rw [write_inside _ _ index _ (by omega), List.getElem_append_left (by omega), List.getElem_append_right (by omega)]
      simp
  · rw [Nat.zero_add, List.length_append]
    by_cases padded : name.length < count
    · have taken : (name.take count).length = name.length := by
        rw [List.length_take]
        omega
      rw [write_inside _ _ _ _ (by omega), List.getElem_append_right (by omega)]
      simp
    · have taken : (name.take count).length = count := by
        rw [List.length_take]
        omega
      rw [write_after _ _ _ _ (by omega), taken, last]

-- A page is copied without its NUL, over bytes that are NUL already.
theorem path_of_page (memory : Memory) (root page : Text) (fits : root.length + page.length < fileNameLen)
    (rootClean : ∀ c ∈ root, c ≠ 0) (clean : ∀ c ∈ page, c ≠ 0)
    (holds : ∀ offset (inside : offset < root.length), memory offset = root[offset])
    (last : memory (root.length + page.length) = 0) :
    stringAt (write memory root.length page) 0 fileNameLen = root ++ page := by
  have copied := path_of_copy memory root page page.length fits rootClean clean holds last
  simpa [strncpy] using copied

theorem root_file_bytes (site : Site) (r : Request) (offset : Nat) (inside : offset < site.docRoot.path.length) :
    (rootFile site r).realFile offset = site.docRoot.path[offset] := by
  have written := write_inside r.realFile 0 offset (site.docRoot.path ++ [0]) (by simp; omega)
  rw [Nat.zero_add, List.getElem_append_left inside] at written
  exact written

theorem root_file_behind (site : Site) (r : Request) (index : Nat) (behind : site.docRoot.path.length ≤ index)
    (cleared : r.realFile = zeroed) : (rootFile site r).realFile index = 0 := by
  unfold rootFile
  simp only [cleared]
  by_cases last : index = site.docRoot.path.length
  · have written := write_inside zeroed 0 index (site.docRoot.path ++ [0]) (by simp [last])
    rw [Nat.zero_add] at written
    rw [written]
    simp [last]
  · rw [write_after _ _ _ _ (by simp; omega)]
    rfl

theorem cstr_clean (memory : Memory) (text : Nat) : ∀ c ∈ cstr memory text, c ≠ 0 := by
  intro c member
  obtain ⟨offset, inside, rfl⟩ := List.getElem_of_mem member
  obtain ⟨same, nonzero⟩ := string_at_get memory text _ offset inside
  exact same ▸ nonzero

def requestUrl (r : Request) : Text :=
  match r.url with
  | none => []
  | some url => cstr r.readBuf url

def urlRoute (r : Request) : Option UInt8 :=
  match r.url with
  | none => none
  | some url => (strrchr (cstr r.readBuf url) slash).map fun p => r.readBuf (url + p + 1)

def Confined (root : DocRoot) (r : Request) : Prop :=
  ∀ route, urlRoute r = some route → (r.cgi = 1 ∧ (route = 50 ∨ route = 51)) ∨ (routePage route).isSome ∨
    ComesDownInside root ((requestUrl r).take (fileNameLen - root.path.length - 1))

theorem page_comes_down (root : DocRoot) (page : Text) (ups : (route (components page)).ups = 0)
    (named : (route (components page)).names ≠ []) : ComesDownInside root page := by
  unfold ComesDownInside
  simp only [ups, Nat.sub_zero, List.drop_length]
  exact ⟨List.nil_prefix, fun same => named same.symm⟩

theorem page_inside (root : DocRoot) (page : Text) (rooted : page.head? = some slash)
    (ups : (route (components page)).ups = 0) (named : (route (components page)).names ≠ []) :
    Inside root (root.path ++ page) :=
  (inside_iff root page rooted).mpr (page_comes_down root page ups named)

structure SitePage (page : Text) : Prop where
  rooted : page.head? = some slash
  clean : ∀ c ∈ page, c ≠ 0
  long : 9 ≤ page.length
  short : page.length ≤ 19
  ups : (route (components page)).ups = 0
  named : (route (components page)).names ≠ []
  unrouted : ∀ c ∈ page ++ [0], routePage c = none

theorem route_page_site (route : UInt8) (page : Text) (found : routePage route = some page) : SitePage page := by
  unfold routePage at found
  split_ifs at found <;> cases found <;> constructor <;> decide +kernel

section Database

variable {Db : Type} (mysqlQuery : Db → Text → Int × Db)

theorem form_page_site (route : UInt8) (name password page : Text) (w after : World Db)
    (ok : formPage mysqlQuery route name password w = .ok (page, after)) : SitePage page := by
  cases form_page_answer mysqlQuery route name password page w after ok <;> constructor <;> decide +kernel

theorem open_file_request (site : Site) (r : Request) (w : World Db) : (openFile site r w).request = r := by
  unfold openFile
  split
  · rfl
  · split
    · rfl
    · split <;> rfl

theorem open_file_served (site : Site) (r : Request) (w : World Db) (file : File) (found : site.stat (realPath r) = some file)
    (readable : file.othersRead = true) (regular : file.directory = false) :
    (openFile site r w).outcome = .code .fileRequest := by
  simp [openFile, found, readable, regular]

theorem root_short (root : DocRoot) : root.path.length + (fileNameLen - root.path.length - 1) = 199 := by
  have short := root.short
  simp only [fileNameLen]
  omega

theorem url_path (site : Site) (r : Request) (url slashAt : Nat) (unrouted : routePage (r.readBuf (slashAt + 1)) = none)
    (holds : ∀ offset (inside : offset < site.docRoot.path.length), r.realFile offset = site.docRoot.path[offset])
    (last : r.realFile 199 = 0) : realPath (nameFile site r url slashAt) =
      site.docRoot.path ++ (cstr r.readBuf url).take (fileNameLen - site.docRoot.path.length - 1) := by
  have total := root_short site.docRoot
  unfold nameFile realPath
  rw [unrouted]
  apply path_of_copy _ _ _ _ _ site.docRoot.clean (cstr_clean _ _) holds
  · rw [total, last]
  · rw [total]
    decide

theorem routed_path (site : Site) (r : Request) (url slashAt : Nat) (page : Text)
    (routed : routePage (r.readBuf (slashAt + 1)) = some page) (cleared : r.realFile = zeroed) :
    realPath (nameFile site (rootFile site r) url slashAt) = site.docRoot.path ++ page := by
  have sitePage := route_page_site _ page routed
  have short := site.docRoot.short
  have pageShort := sitePage.short
  have route : routePage ((rootFile site r).readBuf (slashAt + 1)) = some page := routed
  unfold nameFile realPath
  rw [route]
  apply path_of_page _ _ _ _ site.docRoot.clean sitePage.clean (root_file_bytes site r)
  · exact root_file_behind site r _ (Nat.le_add_right _ _) cleared
  · simp only [fileNameLen]
    omega

theorem form_answer_path (site : Site) (r answered : Request) (url slashAt : Nat) (w after : World Db) (cleared : r.realFile = zeroed)
    (route : r.readBuf (slashAt + 1) = 50 ∨ r.readBuf (slashAt + 1) = 51)
    (ok : answerForm mysqlQuery site (rootFile site r) url slashAt w = .ok (answered, after)) :
    ∃ name password page, readForm r = .ok (name, password) ∧
      formPage mysqlQuery (r.readBuf (slashAt + 1)) name password w = .ok (page, after) ∧ SitePage page ∧
      realPath (nameFile site answered url slashAt) = site.docRoot.path ++ page := by
  obtain ⟨name, password, page, form, answer, room, buffer, file⟩ := answer_form_ok mysqlQuery site _ _ url slashAt w after ok
  have sitePage := form_page_site mysqlQuery _ name password page w after answer
  have total := root_short site.docRoot
  have short := site.docRoot.short
  have pageShort := sitePage.short
  have size : fileNameLen = 200 := rfl
  have unrouted : routePage (answered.readBuf (slashAt + 1)) = none := by
    rw [buffer]
    by_cases inside : url ≤ slashAt + 1 ∧ slashAt + 1 < url + (page ++ [0]).length
    · obtain ⟨offset, same⟩ := Nat.exists_eq_add_of_le inside.1
      rw [same, write_inside _ _ offset _ (by omega)]
      exact sitePage.unrouted _ (List.getElem_mem _)
    · have kept : write (rootFile site r).readBuf url (page ++ [0]) (slashAt + 1) = r.readBuf (slashAt + 1) := if_neg inside
      rw [kept]
      rcases route with two | three
      · rw [two]
        decide
      · rw [three]
        decide
  have name_copied : cstr answered.readBuf url = page := by
    rw [buffer]
    apply string_at_eq _ _ _ _ _ sitePage.clean
    · intro offset inside
      rw [write_inside _ _ offset _ (by simp; omega), List.getElem_append_left inside]
    · rw [write_inside _ _ _ _ (by simp), List.getElem_append_right (by omega)]
      simp
    · omega
  have copied : ∀ source, (strncpy (rootFile site r).realFile site.docRoot.path.length source
      (fileNameLen - site.docRoot.path.length - 1)) 199 = 0 := by
    intro source
    have filled := strncpy_filled source (fileNameLen - site.docRoot.path.length - 1)
    unfold strncpy
    rw [write_after _ _ _ _ (by omega)]
    exact root_file_behind site r 199 (by omega) cleared
  refine ⟨name, password, page, form, answer, sitePage, ?_⟩
  rw [url_path site answered url slashAt unrouted, name_copied, List.take_of_length_le (by omega)]
  · intro offset inside
    rw [file]
    unfold strncpy
    rw [write_before _ _ _ _ inside]
    exact root_file_bytes site r offset inside
  · rw [file]
    exact copied _

theorem form_path (site : Site) (r answered : Request) (url slashAt : Nat) (w after : World Db) (cleared : r.realFile = zeroed)
    (route : r.readBuf (slashAt + 1) = 50 ∨ r.readBuf (slashAt + 1) = 51)
    (ok : answerForm mysqlQuery site (rootFile site r) url slashAt w = .ok (answered, after)) :
    ∃ page, SitePage page ∧ realPath (nameFile site answered url slashAt) = site.docRoot.path ++ page := by
  obtain ⟨_, _, page, _, _, sitePage, path⟩ := form_answer_path mysqlQuery site r answered url slashAt w after cleared route ok
  exact ⟨page, sitePage, path⟩

theorem do_request_slash (site : Site) (r : Request) (url p : Nat) (w : World Db) (target : r.url = some url)
    (found : strrchr (cstr r.readBuf url) slash = some p) : doRequest mysqlQuery site r w =
      if r.cgi = 1 ∧ (r.readBuf (url + p + 1) = 50 ∨ r.readBuf (url + p + 1) = 51) then
        match answerForm mysqlQuery site (rootFile site r) url (url + p) w with
        | .error kind => ⟨.fault kind, rootFile site r, w, none⟩
        | .ok (answered, after) => openFile site (nameFile site answered url (url + p)) after
      else openFile site (nameFile site (rootFile site r) url (url + p)) w := by
  unfold doRequest
  rw [target]
  dsimp only
  generalize strrchr (cstr r.readBuf url) slash = last at found ⊢
  subst found
  rfl

theorem url_first (r : Request) (url : Nat) (slashed : r.readBuf url = slash ∨ r.readBuf url = 0) (p : Nat)
    (found : strrchr (cstr r.readBuf url) slash = some p) : (cstr r.readBuf url).head? = some slash := by
  obtain ⟨inside, _⟩ := strrchr_found _ _ _ found
  have first := string_at_get r.readBuf url (readBufferSize - url) 0 (by
    change 0 < (cstr r.readBuf url).length
    omega)
  rw [Nat.add_zero] at first
  rcases slashed with here | nul
  · rw [List.head?_eq_getElem?, List.getElem?_eq_getElem (by omega)]
    exact congrArg some (first.1.trans here)
  · exact absurd nul first.2

def anyFile (_ : Text) : Option File := some ⟨true, false, []⟩

theorem parsed_confined_iff (root : DocRoot) (r : Request) (w : World Db) (parsed : Parsed r) :
    (∀ stat, (doRequest mysqlQuery ⟨root, stat⟩ r w).outcome = .code .fileRequest →
      Inside root (realPath (doRequest mysqlQuery ⟨root, stat⟩ r w).request)) ↔ Confined root r := by
  obtain ⟨⟨url, target, _, slashed⟩, cleared⟩ := parsed
  unfold Confined urlRoute requestUrl
  rw [target]
  dsimp only
  cases found : strrchr (cstr r.readBuf url) slash with
  | none =>
      have fault : ∀ stat, (doRequest mysqlQuery ⟨root, stat⟩ r w).outcome = .fault .nullPointer := by
        intro stat
        unfold doRequest
        rw [target]
        dsimp only
        rw [found]
      constructor
      · intro _ route nothing
        cases nothing
      · intro _ stat served
        rw [fault] at served
        cases served
  | some p =>
      have first := url_first r url slashed p found
      have shape := fun stat => do_request_slash mysqlQuery ⟨root, stat⟩ r url p w target found
      simp only [Option.map_some, Option.some.injEq, forall_eq', shape]
      by_cases isForm : r.cgi = 1 ∧ (r.readBuf (url + p + 1) = 50 ∨ r.readBuf (url + p + 1) = 51)
      · refine ⟨fun _ => .inl isForm, fun _ stat served => ?_⟩
        rw [if_pos isForm] at served ⊢
        cases answered : answerForm mysqlQuery ⟨root, stat⟩ (rootFile ⟨root, stat⟩ r) url (url + p) w with
        | error kind =>
            rw [answered] at served
            cases served
        | ok result =>
            obtain ⟨page, sitePage, path⟩ := form_path mysqlQuery ⟨root, stat⟩ r result.1 url (url + p) w result.2
              cleared isForm.2 answered
            dsimp only
            rw [open_file_request, path]
            exact page_inside root page sitePage.rooted sitePage.ups sitePage.named
      · have served : (openFile ⟨root, anyFile⟩ (nameFile ⟨root, anyFile⟩ (rootFile ⟨root, anyFile⟩ r) url (url + p)) w).outcome =
            .code .fileRequest := open_file_served _ _ w ⟨true, false, []⟩ rfl rfl rfl
        simp only [isForm, if_false, false_or, open_file_request]
        cases routed : routePage (r.readBuf (url + p + 1)) with
        | some page =>
            have sitePage := route_page_site _ page routed
            refine ⟨fun _ => .inl rfl, fun _ stat _ => ?_⟩
            rw [routed_path ⟨root, stat⟩ r url (url + p) page routed cleared]
            exact page_inside root page sitePage.rooted sitePage.ups sitePage.named
        | none =>
            have path : ∀ stat, realPath (nameFile ⟨root, stat⟩ (rootFile ⟨root, stat⟩ r) url (url + p)) =
                root.path ++ (cstr r.readBuf url).take (fileNameLen - root.path.length - 1) := by
              intro stat
              have total := root_short root
              exact url_path ⟨root, stat⟩ (rootFile ⟨root, stat⟩ r) url (url + p) routed (root_file_bytes ⟨root, stat⟩ r)
                (root_file_behind ⟨root, stat⟩ r 199 (by simp only; omega) cleared)
            have rooted : ((cstr r.readBuf url).take (fileNameLen - root.path.length - 1)).head? = some slash := by
              have short := root.short
              rw [List.head?_take, if_neg (by simp only [fileNameLen]; omega)]
              exact first
            simp only [path, inside_iff root _ rooted, Option.isSome_none, Bool.false_eq_true, false_or]
            exact ⟨fun confined => confined anyFile served, fun inside stat _ => inside⟩

theorem file_confined_iff (root : DocRoot) (slot : Request) (batches : List (List UInt8)) (w : World Db)
    (served : (receive slot.init batches).1 = .code .getRequest) :
    (∀ stat, (doRequest mysqlQuery ⟨root, stat⟩ (receive slot.init batches).2 w).outcome = .code .fileRequest →
      Inside root (realPath (doRequest mysqlQuery ⟨root, stat⟩ (receive slot.init batches).2 w).request)) ↔
        Confined root (receive slot.init batches).2 :=
  parsed_confined_iff mysqlQuery root _ w (parsed_of_batches slot batches served)

end Database

def noRows (db : Unit) (_ : Text) : Int × Unit := (1, db)

theorem file_confined_iff_judge :
    (∀ stat, (doRequest noRows ⟨srvRoot, stat⟩ (receive Request.fresh.init [ascii "GET / HTTP/1.1\r\n\r\n"]).2 ⟨fun _ => none, ()⟩).outcome =
        .code .fileRequest →
      Inside srvRoot (realPath (doRequest noRows ⟨srvRoot, stat⟩
        (receive Request.fresh.init [ascii "GET / HTTP/1.1\r\n\r\n"]).2 ⟨fun _ => none, ()⟩).request)) ↔
      Confined srvRoot (receive Request.fresh.init [ascii "GET / HTTP/1.1\r\n\r\n"]).2 :=
  file_confined_iff noRows srvRoot Request.fresh _ _ (by decide +kernel)

def climbing : Request := (receive Request.fresh.init [ascii "GET /../passwd HTTP/1.1\r\n\r\n"]).2

theorem climbing_escapes :
    (receive Request.fresh.init [ascii "GET /../passwd HTTP/1.1\r\n\r\n"]).1 = .code .getRequest ∧
      (doRequest noRows ⟨srvRoot, anyFile⟩ climbing ⟨fun _ => none, ()⟩).outcome = .code .fileRequest ∧
      realPath (doRequest noRows ⟨srvRoot, anyFile⟩ climbing ⟨fun _ => none, ()⟩).request = ascii "/srv/root/../passwd" ∧
      ¬ Inside srvRoot (realPath (doRequest noRows ⟨srvRoot, anyFile⟩ climbing ⟨fun _ => none, ()⟩).request) := by
  have path : realPath (doRequest noRows ⟨srvRoot, anyFile⟩ climbing ⟨fun _ => none, ()⟩).request = ascii "/srv/root/../passwd" := by
    decide +kernel
  refine ⟨by decide +kernel, by decide +kernel, path, ?_⟩
  rw [path]
  decide +kernel

end WzyServer.Http
