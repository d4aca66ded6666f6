import WzyServer.Http.Confinement

set_option autoImplicit false

namespace WzyServer.Http

open CString

def requestedPath (root : DocRoot) (r : Request) : Text :=
  root.path ++ match (urlRoute r).bind routePage with
    | some page => page
    | none => requestUrl r

-- A routed page is copied whole; any other URL has the 199 characters of m_real_file
-- behind doc_root.
def PathFits (root : DocRoot) (r : Request) : Prop :=
  ((urlRoute r).bind routePage).isSome ∨ root.path.length + (requestUrl r).length < fileNameLen

section Database

variable {Db : Type} (mysqlQuery : Db → Text → Int × Db)

theorem open_file_found (site : Site) (r : Request) (w : World Db) : (openFile site r w).file = site.stat (realPath r) := by
  unfold openFile
  cases found : site.stat (realPath r) with
  | none => rfl
  | some file =>
      dsimp only
      split
      · rfl
      · split <;> rfl

theorem copied_path_iff (site : Site) (r : Request) (url slashAt : Nat) (unrouted : routePage (r.readBuf (slashAt + 1)) = none)
    (cleared : r.realFile = zeroed) :
    realPath (nameFile site (rootFile site r) url slashAt) = site.docRoot.path ++ cstr r.readBuf url ↔
      site.docRoot.path.length + (cstr r.readBuf url).length < fileNameLen := by
  have total := root_short site.docRoot
  have short := site.docRoot.short
  have size : fileNameLen = 200 := rfl
  have path : realPath (nameFile site (rootFile site r) url slashAt) =
      site.docRoot.path ++ (cstr r.readBuf url).take (fileNameLen - site.docRoot.path.length - 1) :=
    url_path site (rootFile site r) url slashAt unrouted (root_file_bytes site r) (root_file_behind site r 199 (by omega) cleared)
  rw [path, List.append_cancel_left_eq, List.take_eq_self_iff]
  omega

theorem plain_request_opens (site : Site) (r : Request) (url p : Nat) (w : World Db) (plain : r.cgi = 0) (target : r.url = some url)
    (found : strrchr (cstr r.readBuf url) slash = some p) :
    doRequest mysqlQuery site r w = openFile site (nameFile site (rootFile site r) url (url + p)) w := by
  have other : r.cgi ≠ 1 := by
    rw [plain]
    decide
  rw [do_request_slash mysqlQuery site r url p w target found, if_neg fun form => other form.1]

theorem opened_path_fits (site : Site) (r : Request) (w : World Db) (plain : r.cgi = 0) (cleared : r.realFile = zeroed)
    (accepted : (requestUrl r).head? = some slash) :
    (realPath (doRequest mysqlQuery site r w).request = requestedPath site.docRoot r ↔ PathFits site.docRoot r) ∧
      ((doRequest mysqlQuery site r w).outcome = .code .fileRequest →
        (doRequest mysqlQuery site r w).file = site.stat (realPath (doRequest mysqlQuery site r w).request)) := by
  cases target : r.url with
  | none => simp [requestUrl, target] at accepted
  | some url =>
      have string : requestUrl r = cstr r.readBuf url := by rw [requestUrl, target]
      rw [string] at accepted
      obtain ⟨p, found⟩ := strrchr_member (cstr r.readBuf url) slash (List.mem_of_mem_head? (Option.mem_def.mpr accepted))
      have route : urlRoute r = some (r.readBuf (url + p + 1)) := by simp only [urlRoute, target, found, Option.map_some]
      rw [plain_request_opens mysqlQuery site r url p w plain target found, open_file_request]
      refine ⟨?_, fun _ => open_file_found site _ w⟩
      rw [requestedPath, PathFits, route, string, Option.bind_some]
      cases routed : routePage (r.readBuf (url + p + 1)) with
      | some page =>
          have path := routed_path site r url (url + p) page routed cleared
          simp only [path, Option.isSome_some, true_or]
      | none =>
          have path := copied_path_iff site r url (url + p) routed cleared
          simp only [path, Option.isSome_none, Bool.false_eq_true, false_or]

theorem opened_path_iff (site : Site) (slot : Request) (batches : List (List UInt8)) (w : World Db)
    (received : (receive slot.init batches).1 = .code .getRequest) (plain : (receive slot.init batches).2.cgi = 0)
    (accepted : (requestUrl (receive slot.init batches).2).head? = some slash) :
    (realPath (doRequest mysqlQuery site (receive slot.init batches).2 w).request =
        requestedPath site.docRoot (receive slot.init batches).2 ∧
      ((doRequest mysqlQuery site (receive slot.init batches).2 w).outcome = .code .fileRequest →
        (doRequest mysqlQuery site (receive slot.init batches).2 w).file =
          site.stat (requestedPath site.docRoot (receive slot.init batches).2))) ↔
      PathFits site.docRoot (receive slot.init batches).2 := by
  obtain ⟨_, cleared⟩ := parsed_of_batches slot batches received
  obtain ⟨path, served⟩ := opened_path_fits mysqlQuery site (receive slot.init batches).2 w plain cleared accepted
  rw [← path]
  exact ⟨fun opened => opened.1, fun same => ⟨same, fun code => same ▸ served code⟩⟩

end Database

theorem opened_path_iff_picture :
    (realPath (doRequest noRows emptySite (receive Request.fresh.init [ascii "GET /a/5 HTTP/1.1\r\n\r\n"]).2 ⟨fun _ => none, ()⟩).request =
        requestedPath srvRoot (receive Request.fresh.init [ascii "GET /a/5 HTTP/1.1\r\n\r\n"]).2 ∧
      ((doRequest noRows emptySite (receive Request.fresh.init [ascii "GET /a/5 HTTP/1.1\r\n\r\n"]).2 ⟨fun _ => none, ()⟩).outcome =
          .code .fileRequest →
        (doRequest noRows emptySite (receive Request.fresh.init [ascii "GET /a/5 HTTP/1.1\r\n\r\n"]).2 ⟨fun _ => none, ()⟩).file =
          none)) ↔ PathFits srvRoot (receive Request.fresh.init [ascii "GET /a/5 HTTP/1.1\r\n\r\n"]).2 :=
  opened_path_iff noRows emptySite Request.fresh _ _ (by decide +kernel) (by decide +kernel) (by decide +kernel)

def fittingUrl : Text := slash :: List.replicate 189 97

def oneFileSite : Site := ⟨srvRoot, fun path => if path = srvRoot.path ++ fittingUrl then some ⟨true, false, ascii "kept"⟩ else none⟩

def longRequest : Text := ascii "GET " ++ fittingUrl ++ ascii "b HTTP/1.1\r\n\r\n"

theorem long_url_opens_other :
    (receive Request.fresh.init [longRequest]).1 = .code .getRequest ∧ (receive Request.fresh.init [longRequest]).2.cgi = 0 ∧
      requestUrl (receive Request.fresh.init [longRequest]).2 = fittingUrl ++ ascii "b" ∧
      oneFileSite.stat (requestedPath srvRoot (receive Request.fresh.init [longRequest]).2) = none ∧
      (doRequest noRows oneFileSite (receive Request.fresh.init [longRequest]).2 ⟨fun _ => none, ()⟩).outcome = .code .fileRequest ∧
      (doRequest noRows oneFileSite (receive Request.fresh.init [longRequest]).2 ⟨fun _ => none, ()⟩).file =
        some ⟨true, false, ascii "kept"⟩ := by
  decide +kernel

end WzyServer.Http
