import WzyServer.Http.Parser

set_option autoImplicit false

namespace WzyServer.Http

open CString

abbrev Text := List UInt8

-- doc_root: what getcwd(NULL, 100) returns, and "/root" behind it.
structure DocRoot where
  path : Text
  absolute : path.head? = some slash
  clean : ∀ c ∈ path, c ≠ 0
  short : path.length ≤ 104

-- What stat and mmap say about a path: S_IROTH, S_ISDIR, the bytes.
structure File where
  othersRead : Bool
  directory : Bool
  content : List UInt8
deriving DecidableEq, Repr

structure Site where
  docRoot : DocRoot
  stat : Text → Option File

abbrev Users := Text → Option Text

def Users.insert (users : Users) (name password : Text) : Users :=
  fun other => if other = name then some password else users other

structure World (Db : Type) where
  users : Users
  db : Db

def strncpy (memory : Memory) (address : Nat) (source : Text) (count : Nat) : Memory :=
  write memory address (source.take count ++ List.replicate (count - source.length) 0)

def scanUntil (memory : Memory) (address : Nat) (stop : UInt8) : Nat → Except Fault Text
  | 0 => .error .outOfBounds
  | limit + 1 =>
      if memory address = stop then .ok []
      else (scanUntil memory (address + 1) stop limit).map (memory address :: ·)

-- `user=NAME&password=WORD` at m_string. The arrays name and password have 100
-- bytes each, and name is used as a C string.
def readForm (r : Request) : Except Fault (Text × Text) :=
  match r.string with
  | none => .error .nullPointer
  | some text => do
      let name ← scanUntil r.readBuf (text + 5) 38 (min 100 (readBufferSize - (text + 5)))
      let start := text + 5 + name.length + 10
      let password ← scanUntil r.readBuf start 0 (min 100 (readBufferSize - start))
      return (name.takeWhile fun c => c ≠ 0, password)

def insertStatement (name password : Text) : Text :=
  ascii "INSERT INTO user(username, password) VALUES(" ++ ascii "'" ++ name ++ ascii "', '" ++ password ++ ascii "')"

section Database

variable {Db : Type} (mysqlQuery : Db → Text → Int × Db)

def register (name password : Text) (w : World Db) : Except Fault (Bool × World Db) :=
  if 200 ≤ (insertStatement name password).length then .error .outOfBounds
  else if w.users name = none then
    let (res, db) := mysqlQuery w.db (insertStatement name password)
    .ok (res = 0, { users := w.users.insert name password, db := db })
  else .ok (false, w)

def login (name password : Text) (w : World Db) : Bool := w.users name = some password

def formPage (route : UInt8) (name password : Text) (w : World Db) : Except Fault (Text × World Db) :=
  if route = 51 then do
    let (registered, after) ← register mysqlQuery name password w
    return (if registered then ascii "/log.html" else ascii "/registerError.html", after)
  else .ok (if login name password w then ascii "/welcome.html" else ascii "/logError.html", w)

def answerForm (site : Site) (r : Request) (url slashAt : Nat) (w : World Db) : Except Fault (Request × World Db) := do
  let rest := cstr r.readBuf (url + 2)
  if 200 ≤ rest.length + 1 then .error .outOfBounds
  else
    let len := site.docRoot.path.length
    let copied := { r with realFile := strncpy r.realFile len (slash :: rest) (fileNameLen - len - 1) }
    let (name, password) ← readForm copied
    let (page, after) ← formPage mysqlQuery (copied.readBuf (slashAt + 1)) name password w
    if readBufferSize < url + page.length + 1 then .error .outOfBounds
    else return ({ copied with readBuf := write copied.readBuf url (page ++ [0]) }, after)

def routePage (route : UInt8) : Option Text :=
  if route = 48 then some (ascii "/register.html")
  else if route = 49 then some (ascii "/log.html")
  else if route = 53 then some (ascii "/picture.html")
  else if route = 54 then some (ascii "/video.html")
  else if route = 55 then some (ascii "/fans.html")
  else none

-- The chain of tests of *(p + 1). A routed page is copied without its NUL.
def nameFile (site : Site) (r : Request) (url slashAt : Nat) : Request :=
  let len := site.docRoot.path.length
  match routePage (r.readBuf (slashAt + 1)) with
  | some page => { r with realFile := write r.realFile len page }
  | none => { r with realFile := strncpy r.realFile len (cstr r.readBuf url) (fileNameLen - len - 1) }

def realPath (r : Request) : Text := stringAt r.realFile 0 fileNameLen

-- What do_request leaves: m_file_stat and the mapping are `file`.
structure Reply (Db : Type) where
  outcome : Outcome
  request : Request
  world : World Db
  file : Option File

def openFile (site : Site) (r : Request) (w : World Db) : Reply Db :=
  match site.stat (realPath r) with
  | none => ⟨.code .noResource, r, w, none⟩
  | some file =>
      if ¬ file.othersRead then ⟨.code .forbiddenRequest, r, w, some file⟩
      else if file.directory then ⟨.code .badRequest, r, w, some file⟩
      else ⟨.code .fileRequest, r, w, some file⟩

def rootFile (site : Site) (r : Request) : Request := { r with realFile := write r.realFile 0 (site.docRoot.path ++ [0]) }

def doRequest (site : Site) (r : Request) (w : World Db) : Reply Db :=
  let rooted := rootFile site r
  match r.url with
  | none => ⟨.fault .nullPointer, rooted, w, none⟩
  | some url =>
      match strrchr (cstr r.readBuf url) slash with
      | none => ⟨.fault .nullPointer, rooted, w, none⟩
      | some p =>
          let slashAt := url + p
          let route := r.readBuf (slashAt + 1)
          if r.cgi = 1 ∧ (route = 50 ∨ route = 51) then
            match answerForm mysqlQuery site rooted url slashAt w with
            | .error kind => ⟨.fault kind, rooted, w, none⟩
            | .ok (answered, after) => openFile site (nameFile site answered url slashAt) after
          else openFile site (nameFile site rooted url slashAt) w

def processRead (site : Site) (r : Request) (w : World Db) : Reply Db :=
  match parseRead r with
  | (.code .getRequest, parsed) => doRequest mysqlQuery site parsed w
  | (outcome, parsed) => ⟨outcome, parsed, w, none⟩

end Database

end WzyServer.Http
