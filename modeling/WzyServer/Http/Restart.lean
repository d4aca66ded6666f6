import WzyServer.Http.Accounts
import WzyServer.Http.Application

set_option autoImplicit false

namespace WzyServer.Http

open CString

section Processes

variable {Db : Type} (mysqlQuery : Db → Text → Int × Db) (rows : Db → List (Text × Text)) (site : Site) (hand : Reply Db → Response)

def restart (db : Db) : World Db := ⟨loadUsers (rows db), db⟩

def serveProcesses : Db → List (List Exchange) → Except Fault (List (List (Option Text)) × Db)
  | db, [] => .ok ([], db)
  | db, exchanges :: rest => do
      let (answers, after) ← serveAll mysqlQuery site hand (restart rows db) exchanges
      let (later, final) ← serveProcesses after.db rest
      return (answers :: later, final)

def answerProcesses : Db → List (List Exchange) → List (List (Option Message)) × Db
  | db, [] => ([], db)
  | db, exchanges :: rest =>
      let (answers, after) := answerAll mysqlQuery site (restart rows db) exchanges
      let (later, final) := answerProcesses after.db rest
      (answers :: later, final)

theorem answer_processes_append (db : Db) (processes more : List (List Exchange)) :
    answerProcesses mysqlQuery rows site db (processes ++ more) =
      ((answerProcesses mysqlQuery rows site db processes).1 ++
          (answerProcesses mysqlQuery rows site (answerProcesses mysqlQuery rows site db processes).2 more).1,
        (answerProcesses mysqlQuery rows site (answerProcesses mysqlQuery rows site db processes).2 more).2) := by
  induction processes generalizing db with
  | nil => rfl
  | cons exchanges rest ih =>
      rw [List.cons_append, answerProcesses, answerProcesses]
      dsimp only
      rw [ih]
      rfl

variable (hands : ∀ reply, Handed reply (hand reply))
  (small : ∀ path file, site.stat path = some file → file.content.length < 2 ^ 31)

include hands small in
theorem processes_served (db : Db) (processes : List (List Exchange)) :
    serveProcesses mysqlQuery rows site hand db processes =
      .ok ((answerProcesses mysqlQuery rows site db processes).1.map (List.map (Option.map Message.text)),
        (answerProcesses mysqlQuery rows site db processes).2) := by
  induction processes generalizing db with
  | nil => rfl
  | cons exchanges rest ih =>
      rw [serveProcesses, exchanges_served mysqlQuery site hand hands small (restart rows db) exchanges]
      change (serveProcesses mysqlQuery rows site hand (answerAll mysqlQuery site (restart rows db) exchanges).2.db rest >>= _) = _
      rw [ih]
      rfl

def Loaded (w : World Db) : Prop := ∀ name password, loadUsers (rows w.db) name = some password → w.users name = some password

structure Stored (user password : Text) (w : World Db) : Prop where
  loaded : Loaded rows w
  row : loadUsers (rows w.db) user = some password

theorem stored_restart (db : Db) (user password : Text) (row : loadUsers (rows db) user = some password) :
    Stored rows user password (restart rows db) :=
  ⟨fun _ _ loaded => loaded, row⟩

variable (contract : InsertContract mysqlQuery rows)

include contract in
theorem registration_loaded (w : World Db) (user password : Text) (free : w.users user = none) (loaded : Loaded rows w) :
    Loaded rows ⟨w.users.insert user password, (mysqlQuery w.db (insertStatement user password)).2⟩ := by
  intro name word row
  dsimp only at row ⊢
  unfold Users.insert
  by_cases accepted : (mysqlQuery w.db (insertStatement user password)).1 = 0
  · rw [contract.added w.db user password accepted, load_users_append, Users.insert] at row
    by_cases here : name = user
    · rw [if_pos here] at row ⊢
      exact row
    · rw [if_neg here] at row ⊢
      exact loaded name word row
  · rw [contract.unchanged w.db user password accepted] at row
    have known := loaded name word row
    have apart : name ≠ user := by
      rintro rfl
      rw [free] at known
      cases known
    rw [if_neg apart]
    exact known

include contract in
theorem insert_row_kept (w : World Db) (user password other word : Text) (stored : Stored rows user password w)
    (free : w.users other = none) : loadUsers (rows (mysqlQuery w.db (insertStatement other word)).2) user = some password := by
  have apart : user ≠ other := by
    rintro rfl
    have known := stored.loaded user password stored.row
    rw [free] at known
    cases known
  by_cases accepted : (mysqlQuery w.db (insertStatement other word)).1 = 0
  · rw [contract.added w.db other word accepted, load_users_append, Users.insert, if_neg apart]
    exact stored.row
  · rw [contract.unchanged w.db other word accepted]
    exact stored.row

include contract in
theorem perform_loaded (w : World Db) (ask : Ask) (loaded : Loaded rows w) : Loaded rows (ask.perform mysqlQuery w).2 := by
  cases ask with
  | page url => exact loaded
  | login user password => exact loaded
  | registration user password =>
      unfold Ask.perform
      dsimp only
      by_cases free : w.users user = none
      · rw [if_pos free]
        exact registration_loaded mysqlQuery rows contract w user password free loaded
      · rw [if_neg free]
        exact loaded

include contract in
theorem perform_stored (w : World Db) (ask : Ask) (user password : Text) (stored : Stored rows user password w) :
    Stored rows user password (ask.perform mysqlQuery w).2 := by
  refine ⟨perform_loaded mysqlQuery rows contract w ask stored.loaded, ?_⟩
  cases ask with
  | page url => exact stored.row
  | login other word => exact stored.row
  | registration other word =>
      unfold Ask.perform
      dsimp only
      by_cases free : w.users other = none
      · rw [if_pos free]
        exact insert_row_kept mysqlQuery rows contract w user password other word stored free
      · rw [if_neg free]
        exact stored.row

include contract in
theorem answer_all_stored (w : World Db) (exchanges : List Exchange) (user password : Text) (stored : Stored rows user password w) :
    Stored rows user password (answerAll mysqlQuery site w exchanges).2 := by
  induction exchanges generalizing w with
  | nil => exact stored
  | cons e rest ih => exact ih _ (perform_stored mysqlQuery rows contract w e.ask user password stored)

include contract in
theorem answer_all_loaded (w : World Db) (exchanges : List Exchange) (loaded : Loaded rows w) :
    Loaded rows (answerAll mysqlQuery site w exchanges).2 := by
  induction exchanges generalizing w with
  | nil => exact loaded
  | cons e rest ih => exact ih _ (perform_loaded mysqlQuery rows contract w e.ask loaded)

include contract in
theorem answer_processes_row (db : Db) (processes : List (List Exchange)) (user password : Text)
    (row : loadUsers (rows db) user = some password) :
    loadUsers (rows (answerProcesses mysqlQuery rows site db processes).2) user = some password := by
  induction processes generalizing db with
  | nil => exact row
  | cons exchanges rest ih =>
      exact ih _ (answer_all_stored mysqlQuery rows site contract _ exchanges user password (stored_restart rows db user password row)).row

include contract in
theorem registered_stored (w : World Db) (user password : Text) (loaded : Loaded rows w)
    (told : ((Ask.registration user password).perform mysqlQuery w).1 = ascii "/log.html") :
    Stored rows user password ((Ask.registration user password).perform mysqlQuery w).2 := by
  refine ⟨perform_loaded mysqlQuery rows contract w _ loaded, ?_⟩
  have apart : ascii "/registerError.html" ≠ ascii "/log.html" := by decide +kernel
  unfold Ask.perform at told ⊢
  dsimp only at told ⊢
  by_cases free : w.users user = none
  · rw [if_pos free] at told ⊢
    dsimp only at told ⊢
    by_cases accepted : (mysqlQuery w.db (insertStatement user password)).1 = 0
    · rw [contract.added w.db user password accepted, load_users_append]
      exact if_pos rfl
    · rw [if_neg accepted] at told
      exact absurd told apart
  · rw [if_neg free] at told
    exact absurd told apart

include hands small contract in
theorem login_after (db : Db) (processes : List (List Exchange)) (again : List Exchange) (login : Exchange) (user password word : Text)
    (logsIn : login.ask = .login user word)
    (row : loadUsers (rows (answerProcesses mysqlQuery rows site db processes).2) user = some password) :
    ∃ answers last final, serveProcesses mysqlQuery rows site hand db (processes ++ [again ++ [login]]) = .ok
      (answers ++ [last ++ [(responseFor login.linger (site.fileOf
        (if word = password then ascii "/welcome.html" else ascii "/logError.html"))).map Message.text]], final) := by
  have served := processes_served mysqlQuery rows site hand hands small db (processes ++ [again ++ [login]])
  rw [answer_processes_append] at served
  generalize answerProcesses mysqlQuery rows site db processes = reached at row served
  have stored := answer_all_stored mysqlQuery rows site contract _ again user password (stored_restart rows reached.2 user password row)
  have known := stored.loaded user password stored.row
  rw [answerProcesses, answer_all_append, answerAll, account_login mysqlQuery site _ login user password word logsIn known] at served
  simp only [answerProcesses, answerAll, List.map_append, List.map_cons, List.map_nil] at served
  exact ⟨_, _, _, served⟩

include hands small contract in
theorem registration_survives_restarts (db : Db) (earlier later : List (List Exchange)) (before between again : List Exchange)
    (registration login : Exchange) (user password word : Text) (registers : registration.ask = .registration user password)
    (logsIn : login.ask = .login user word)
    (told : (registration.ask.perform mysqlQuery (answerAll mysqlQuery site
      (restart rows (answerProcesses mysqlQuery rows site db earlier).2) before).2).1 = ascii "/log.html") :
    ∃ answers last final, serveProcesses mysqlQuery rows site hand db
        (earlier ++ (before ++ registration :: between) :: later ++ [again ++ [login]]) = .ok
      (answers ++ [last ++ [(responseFor login.linger (site.fileOf
        (if word = password then ascii "/welcome.html" else ascii "/logError.html"))).map Message.text]], final) := by
  apply login_after mysqlQuery rows site hand hands small contract db _ again login user password word logsIn
  rw [answer_processes_append]
  apply answer_processes_row mysqlQuery rows site contract _ later
  rw [answer_all_append, answerAll, Exchange.answer]
  rw [registers] at told ⊢
  exact (answer_all_stored mysqlQuery rows site contract _ between user password
    (registered_stored mysqlQuery rows contract _ user password
      (answer_all_loaded mysqlQuery rows site contract _ before fun _ _ loaded => loaded) told)).row

end Processes

theorem registration_survives_restarts_welcome : ∃ answers last final,
    serveProcesses oneRow id welcomeSite beside [] ([] ++ ([] ++ registerExchange :: [loginExchange]) :: [[]] ++ [[] ++ [loginExchange]]) =
      .ok (answers ++ [last ++ [(responseFor loginExchange.linger (welcomeSite.fileOf
        (if ascii "2" = ascii "2" then ascii "/welcome.html" else ascii "/logError.html"))).map Message.text]], final) :=
  registration_survives_restarts oneRow id welcomeSite beside beside_handed welcome_small one_row_contract [] [] [[]] [] [loginExchange] []
    registerExchange loginExchange (ascii "1") (ascii "2") (ascii "2") rfl rfl (by decide +kernel)

end WzyServer.Http
