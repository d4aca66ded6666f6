import WzyServer.Http.Application
import WzyServer.Http.Registrations

set_option autoImplicit false

namespace WzyServer.Http

open CString Run

-- How far a worker has come with do_request, at the places where it reads or writes
-- what all workers share: users.find, users[name], m_lock and mysql_query.
inductive Handling where
  | started
  | known
  | registering (progress : Progress)
  | answered (page : Text)
deriving DecidableEq, Repr

-- `order` is not in the source: the workers, each with its page, as their requests
-- took effect.
structure Crew (Db : Type) extends Registry Db where
  handling : Nat → Handling
  order : List (Nat × Text)

def registrationPage (success : Bool) : Text := if success then ascii "/log.html" else ascii "/registerError.html"

-- The step of a registration with which it takes effect: the lookup that finds the
-- name, or the new entry of users.
def Progress.settles : Progress → Progress → Option Bool
  | .started, .decided success => some success
  | .inserted _, .stored res => some (res = 0)
  | _, _ => none

namespace Crew

variable {Db : Type} (mysqlQuery : Db → Text → Int × Db) (requests : Nat → Exchange)

def start (w : World Db) : Crew Db := ⟨⟨w.users, w.db, none⟩, fun _ => .started, []⟩

def report (s : Crew Db) (worker : Nat) (now : Handling) : Crew Db :=
  { s with handling := fun other => if other = worker then now else s.handling other }

def settle (s : Crew Db) (worker : Nat) (page : Text) (now : Handling) : Crew Db :=
  { s.report worker now with order := s.order ++ [(worker, page)] }

def registers (s : Crew Db) (worker : Nat) (user word : Text) (progress : Progress) : Crew Db :=
  let (shared, now) := s.register mysqlQuery worker user word progress
  let next : Crew Db := { s with toRegistry := shared }
  match progress.settles now with
  | some success => next.settle worker (registrationPage success) (.registering now)
  | none => next.report worker (.registering now)

-- A look at users is not under m_lock.
def step (s : Crew Db) (worker : Nat) : Crew Db :=
  match (requests worker).ask, s.handling worker with
  | .page url, .started => s.settle worker url (.answered url)
  | .login user _, .started =>
      if s.users user = none then s.settle worker (ascii "/logError.html") (.answered (ascii "/logError.html"))
      else s.report worker .known
  | .login user word, .known =>
      let page := loginPage ⟨s.users, s.db⟩ user word
      s.settle worker page (.answered page)
  | .registration user word, .started => s.registers mysqlQuery worker user word .started
  | .registration user word, .registering progress => s.registers mysqlQuery worker user word progress
  | _, _ => s

def ready (s : Crew Db) (worker : Nat) : Bool :=
  match s.handling worker with
  | .registering progress => s.admits progress
  | .answered _ => false
  | _ => true

end Crew

section Concurrency

variable {Db : Type} (mysqlQuery : Db → Text → Int × Db) (requests : Nat → Exchange)

def crewMachine : Machine (Crew Db) Nat Empty where
  guard := fun s worker => s.ready worker = true
  effect := fun s worker => .ok (s.step mysqlQuery requests worker)

def StillFree (s : Crew Db) (worker : Nat) : Prop :=
  ∀ user word, (requests worker).ask = .registration user word → s.handling worker = .registering .absent → s.users user = none

def Handling.holdsLock : Handling → Prop
  | .registering progress => progress.holdsLock
  | _ => False

def Handling.page : Handling → Option Text
  | .registering (.stored res) => some (registrationPage (res = 0))
  | .registering (.decided success) | .registering (.answered success) => some (registrationPage success)
  | .answered page => some page
  | _ => none

def Handling.reply : Handling → Option Text
  | .registering (.answered success) => some (registrationPage success)
  | .answered page => some page
  | _ => none

theorem reply_page (now : Handling) (page : Text) (reply : now.reply = some page) : now.page = some page := by
  cases now with
  | started | known => cases reply
  | answered text => exact reply
  | registering progress =>
      cases progress with
      | answered success => exact reply
      | started | absent | locked | inserted | stored | decided => cases reply

variable (site : Site)

-- The requests that have taken effect are answered as one after the other; the row of
-- the worker between its INSERT and its new entry of users is not counted yet.
structure Serial (w : World Db) (s : Crew Db) : Prop where
  history : ∃ db, answerAll mysqlQuery site w (s.order.map fun entry => requests entry.1) =
      (s.order.map fun entry => responseFor (requests entry.1).linger (site.fileOf entry.2), ⟨s.users, db⟩) ∧
    (∀ worker user word res, (requests worker).ask = .registration user word → s.handling worker = .registering (.inserted res) →
      mysqlQuery db (insertStatement user word) = (res, s.db)) ∧
    ((∀ worker res, s.handling worker ≠ .registering (.inserted res)) → db = s.db)
  lock : ∀ worker, (s.handling worker).holdsLock → s.holder = some worker
  free : ∀ worker user word, (requests worker).ask = .registration user word → (s.handling worker).holdsLock →
    (s.handling worker).page = none → s.users user = none
  once : (s.order.map Prod.fst).Nodup
  listed : ∀ worker, worker ∈ s.order.map Prod.fst ↔ (s.handling worker).page ≠ none
  pages : ∀ worker page, (s.handling worker).page = some page → (worker, page) ∈ s.order

structure Aside (s t : Crew Db) (worker : Nat) (now : Handling) : Prop where
  handling : t.handling = fun other => if other = worker then now else s.handling other
  order : t.order = s.order
  users : t.users = s.users
  page : now.page = (s.handling worker).page
  lockSelf : now.holdsLock → t.holder = some worker
  lockOther : ∀ other, other ≠ worker → (s.handling other).holdsLock → t.holder = some other
  free : ∀ user word, (requests worker).ask = .registration user word → now.holdsLock → now.page = none → s.users user = none
  -- The row goes into the table, or the table stays as it is.
  db : (∃ res, now = .registering (.inserted res) ∧ (∀ other res, s.handling other ≠ .registering (.inserted res)) ∧
      ∀ user word, (requests worker).ask = .registration user word → mysqlQuery s.db (insertStatement user word) = (res, t.db)) ∨
    ((∀ res, now ≠ .registering (.inserted res)) ∧ (∀ res, s.handling worker ≠ .registering (.inserted res)) ∧ t.db = s.db)

theorem serial_aside (w : World Db) (s t : Crew Db) (worker : Nat) (now : Handling) (serial : Serial mysqlQuery requests site w s)
    (aside : Aside mysqlQuery requests s t worker now) : Serial mysqlQuery requests site w t := by
  have self : t.handling worker = now := by rw [aside.handling]; exact if_pos rfl
  have other : ∀ i, i ≠ worker → t.handling i = s.handling i := fun i different => by rw [aside.handling]; exact if_neg different
  have samePage : ∀ i, (t.handling i).page = (s.handling i).page := by
    intro i
    by_cases same : i = worker
    · rw [same, self, aside.page]
    · rw [other i same]
  obtain ⟨db, answered, pending, settled⟩ := serial.history
  refine ⟨⟨db, ?_, ?_, ?_⟩, ?_, ?_, ?_, ?_, ?_⟩
  · rw [aside.order, aside.users]
    exact answered
  · intro i user word res asks inserted
    rcases aside.db with ⟨result, isNow, nobody, queried⟩ | ⟨notNow, _, same⟩
    · by_cases here : i = worker
      · subst here
        rw [self, isNow] at inserted
        cases inserted
        rw [settled nobody]
        exact queried user word asks
      · rw [other i here] at inserted
        exact absurd inserted (nobody i res)
    · by_cases here : i = worker
      · rw [here, self] at inserted
        exact absurd inserted (notNow res)
      · rw [other i here] at inserted
        rw [same]
        exact pending i user word res asks inserted
  · intro nobody
    rcases aside.db with ⟨result, isNow, _, _⟩ | ⟨_, notBefore, same⟩
    · exact absurd (self.trans isNow) (nobody worker result)
    · rw [same]
      refine settled fun i res inserted => ?_
      by_cases here : i = worker
      · exact notBefore res (here ▸ inserted)
      · exact nobody i res ((other i here).trans inserted)
  · intro i holds
    by_cases here : i = worker
    · rw [here, self] at holds
      rw [here]
      exact aside.lockSelf holds
    · rw [other i here] at holds
      exact aside.lockOther i here holds
  · intro i user word asks holds unsettled
    rw [aside.users]
    by_cases here : i = worker
    · subst here
      rw [self] at holds unsettled
      exact aside.free user word asks holds unsettled
    · rw [other i here] at holds unsettled
      exact serial.free i user word asks holds unsettled
  · rw [aside.order]
    exact serial.once
  · intro i
    rw [aside.order, samePage]
    exact serial.listed i
  · intro i page has
    rw [aside.order]
    exact serial.pages i page (samePage i ▸ has)

structure Effect (s t : Crew Db) (worker : Nat) (text : Text) (now : Handling) : Prop where
  handling : t.handling = fun other => if other = worker then now else s.handling other
  order : t.order = s.order ++ [(worker, text)]
  page : now.page = some text
  before : (s.handling worker).page = none
  holder : t.holder = s.holder
  lock : now.holdsLock → (s.handling worker).holdsLock
  db : t.db = s.db
  world : (t.users = s.users ∧ (∀ res, s.handling worker ≠ .registering (.inserted res)) ∧
      ∀ db, (requests worker).ask.perform mysqlQuery ⟨s.users, db⟩ = (text, ⟨s.users, db⟩)) ∨
    ∃ user word res, (requests worker).ask = .registration user word ∧ s.handling worker = .registering (.inserted res) ∧
      text = registrationPage (res = 0) ∧ t.users = s.users.insert user word

theorem alone_locked (w : World Db) (s : Crew Db) (worker other : Nat) (serial : Serial mysqlQuery requests site w s)
    (locked : (s.handling worker).holdsLock) (holds : (s.handling other).holdsLock) : other = worker :=
  Option.some.inj ((serial.lock other holds).symm.trans (serial.lock worker locked))

theorem history_extended (w : World Db) (s : Crew Db) (worker : Nat) (page : Text) (db : Db) (after : World Db)
    (answered : answerAll mysqlQuery site w (s.order.map fun entry => requests entry.1) =
      (s.order.map fun entry => responseFor (requests entry.1).linger (site.fileOf entry.2), ⟨s.users, db⟩))
    (performed : (requests worker).ask.perform mysqlQuery ⟨s.users, db⟩ = (page, after)) :
    answerAll mysqlQuery site w ((s.order ++ [(worker, page)]).map fun entry => requests entry.1) =
      ((s.order ++ [(worker, page)]).map fun entry => responseFor (requests entry.1).linger (site.fileOf entry.2), after) := by
  rw [List.map_append, List.map_append, answer_all_append, answered]
  simp only [List.map_cons, List.map_nil, answerAll, Exchange.answer, performed]

theorem serial_effect (w : World Db) (s t : Crew Db) (worker : Nat) (page : Text) (now : Handling)
    (serial : Serial mysqlQuery requests site w s) (effect : Effect mysqlQuery requests s t worker page now) :
    Serial mysqlQuery requests site w t := by
  have self : t.handling worker = now := by rw [effect.handling]; exact if_pos rfl
  have other : ∀ i, i ≠ worker → t.handling i = s.handling i := fun i different => by rw [effect.handling]; exact if_neg different
  have fresh : worker ∉ s.order.map Prod.fst := fun member => (serial.listed worker).mp member effect.before
  have notNow : ∀ res, now ≠ .registering (.inserted res) := by
    rintro res rfl
    cases effect.page
  obtain ⟨db, answered, pending, settled⟩ := serial.history
  refine ⟨?_, ?_, ?_, ?_, ?_, ?_⟩
  · rcases effect.world with ⟨sameUsers, notInserted, performed⟩ | ⟨user, word, res, asks, inserted, rfl, users⟩
    · refine ⟨db, ?_, ?_, ?_⟩
      · rw [effect.order, sameUsers]
        exact history_extended mysqlQuery requests site w s worker page db _ answered (performed db)
      · intro i user word res asks inserted
        by_cases here : i = worker
        · rw [here, self] at inserted
          exact absurd inserted (notNow res)
        · rw [other i here] at inserted
          rw [effect.db]
          exact pending i user word res asks inserted
      · intro nobody
        rw [effect.db]
        refine settled fun i res inserted => ?_
        by_cases here : i = worker
        · exact notInserted res (here ▸ inserted)
        · exact nobody i res ((other i here).trans inserted)
    · have holds : (s.handling worker).holdsLock := by
        rw [inserted]
        trivial
      have absent := serial.free worker user word asks holds effect.before
      have queried := pending worker user word res asks inserted
      refine ⟨s.db, ?_, ?_, fun _ => effect.db.symm⟩
      · rw [effect.order, users]
        refine history_extended mysqlQuery requests site w s worker _ db _ answered ?_
        rw [asks, Ask.perform]
        dsimp only
        rw [if_pos absent, queried, registrationPage]
        simp only [decide_eq_true_eq]
      · intro i otherUser otherWord result _ insertedToo
        by_cases here : i = worker
        · rw [here, self] at insertedToo
          exact absurd insertedToo (notNow result)
        · rw [other i here] at insertedToo
          refine absurd (alone_locked mysqlQuery requests site w s worker i serial holds ?_) here
          rw [insertedToo]
          trivial
  · intro i holds
    rw [effect.holder]
    by_cases here : i = worker
    · rw [here, self] at holds
      rw [here]
      exact serial.lock worker (effect.lock holds)
    · rw [other i here] at holds
      exact serial.lock i holds
  · intro i user word asks holds unsettled
    by_cases here : i = worker
    · rw [here, self, effect.page] at unsettled
      cases unsettled
    · rw [other i here] at holds unsettled
      rcases effect.world with ⟨sameUsers, _, _⟩ | ⟨_, _, res, _, inserted, _, _⟩
      · rw [sameUsers]
        exact serial.free i user word asks holds unsettled
      · refine absurd (alone_locked mysqlQuery requests site w s worker i serial ?_ holds) here
        rw [inserted]
        trivial
  · rw [effect.order, List.map_append]
    refine List.nodup_append.mpr ⟨serial.once, List.nodup_singleton _, ?_⟩
    intro i member last isLast same
    rw [List.mem_singleton.mp isLast] at same
    rw [same] at member
    exact fresh member
  · intro i
    rw [effect.order, List.map_append, List.mem_append, List.map_singleton, List.mem_singleton]
    by_cases here : i = worker
    · rw [here, self, effect.page]
      exact ⟨fun _ => by simp, fun _ => .inr rfl⟩
    · rw [other i here, serial.listed i]
      exact ⟨fun either => either.resolve_right here, .inl⟩
  · intro i text has
    rw [effect.order, List.mem_append, List.mem_singleton]
    by_cases here : i = worker
    · rw [here, self, effect.page] at has
      rw [here, Option.some.inj has]
      exact .inr rfl
    · rw [other i here] at has
      exact .inl (serial.pages i text has)

theorem aside_report (s : Crew Db) (worker : Nat) (now : Handling) (before : (s.handling worker).page = none) (page : now.page = none)
    (noLock : ¬ now.holdsLock) (unlocked : ¬ (s.handling worker).holdsLock)
    (lock : ∀ other, (s.handling other).holdsLock → s.holder = some other) :
    Aside mysqlQuery requests s (s.report worker now) worker now where
  handling := rfl
  order := rfl
  users := rfl
  page := page.trans before.symm
  lockSelf := fun holds => absurd holds noLock
  lockOther := fun other _ => lock other
  free := fun _ _ _ holds => absurd holds noLock
  db := .inr ⟨fun res same => noLock (by rw [same]; trivial), fun res same => unlocked (by rw [same]; trivial), rfl⟩

theorem effect_settle (s : Crew Db) (worker : Nat) (page : Text) (now : Handling) (before : (s.handling worker).page = none)
    (shown : now.page = some page) (noLock : ¬ now.holdsLock) (unlocked : ¬ (s.handling worker).holdsLock)
    (performed : ∀ db, (requests worker).ask.perform mysqlQuery ⟨s.users, db⟩ = (page, ⟨s.users, db⟩)) :
    Effect mysqlQuery requests s (s.settle worker page now) worker page now where
  handling := rfl
  order := rfl
  page := shown
  before := before
  holder := rfl
  lock := fun holds => absurd holds noLock
  db := rfl
  world := .inl ⟨rfl, fun res same => unlocked (by rw [same]; trivial), performed⟩

theorem serial_registers (w : World Db) (s : Crew Db) (worker : Nat) (user word : Text) (progress : Progress)
    (serial : Serial mysqlQuery requests site w s) (asks : (requests worker).ask = .registration user word)
    (stage : s.handling worker = .registering progress ∨ progress = .started ∧ s.handling worker = .started)
    (offered : s.admits progress = true) (stillFree : StillFree requests s worker) :
    Serial mysqlQuery requests site w (s.registers mysqlQuery worker user word progress) := by
  have aside := fun t now => serial_aside mysqlQuery requests site w s t worker now serial
  have effect := fun t page now => serial_effect mysqlQuery requests site w s t worker page now serial
  have page : progress ≠ .started → (s.handling worker).page = (Handling.registering progress).page := fun begun => by
    rw [stage.resolve_right fun fresh => begun fresh.1]
  have lock : (s.handling worker).holdsLock ↔ progress.holdsLock := by
    rcases stage with here | ⟨rfl, here⟩
    · rw [here]
      exact Iff.rfl
    · rw [here]
      exact Iff.rfl
  cases progress with
  | started =>
      have fresh : (s.handling worker).page = none := by
        rcases stage with here | ⟨_, here⟩
        · rw [here]
          rfl
        · rw [here]
          rfl
      have unlocked : ¬ (s.handling worker).holdsLock := fun holds => lock.mp holds
      unfold Crew.registers
      rw [Registry.register]
      by_cases unknown : s.users user = none
      · simp only [if_pos unknown, Progress.settles]
        exact aside _ _ (aside_report mysqlQuery requests s worker (.registering .absent) fresh rfl id unlocked serial.lock)
      · simp only [if_neg unknown, Progress.settles]
        refine effect _ _ _ (effect_settle mysqlQuery requests s worker _ (.registering (.decided false)) fresh rfl id unlocked
          fun db => ?_)
        rw [asks, Ask.perform, if_neg unknown]
        rfl
  | absent =>
      have here : s.handling worker = .registering .absent := stage.resolve_right fun fresh => by cases fresh.1
      have noHolder : s.holder = none := Option.isNone_iff_eq_none.mp offered
      refine aside _ (.registering .locked) ⟨rfl, rfl, rfl, by rw [here]; rfl, fun _ => rfl, fun i _ holds => ?_, ?_,
        .inr ⟨fun res => ?_, ?_, rfl⟩⟩
      · exact absurd (serial.lock i holds) (by rw [noHolder]; exact fun same => (by cases same))
      · intro otherUser otherWord asksToo _ _
        exact stillFree otherUser otherWord asksToo here
      · exact fun same => (by cases same)
      · rw [here]
        exact fun res same => (by cases same)
  | locked =>
      have here : s.handling worker = .registering .locked := stage.resolve_right fun fresh => by cases fresh.1
      have mine : (s.handling worker).holdsLock := lock.mpr trivial
      have alone : ∀ i, (s.handling i).holdsLock → i = worker :=
        fun i => alone_locked mysqlQuery requests site w s worker i serial mine
      refine aside _ (.registering (.inserted (mysqlQuery s.db (insertStatement user word)).1))
        ⟨rfl, rfl, rfl, by rw [here]; rfl, fun _ => serial.lock worker mine, fun i _ => serial.lock i, ?_, .inl ⟨_, rfl, ?_, ?_⟩⟩
      · intro otherUser otherWord asksToo _ _
        exact serial.free worker otherUser otherWord asksToo mine (by rw [here]; rfl)
      · intro i res inserted
        have isWorker := alone i (by rw [inserted]; trivial)
        rw [isWorker, here] at inserted
        cases inserted
      · intro otherUser otherWord asksToo
        rw [asks] at asksToo
        cases asksToo
        rfl
  | inserted res =>
      have here : s.handling worker = .registering (.inserted res) := stage.resolve_right fun fresh => by cases fresh.1
      exact effect _ (registrationPage (res = 0)) (.registering (.stored res))
        ⟨rfl, rfl, rfl, by rw [here]; rfl, rfl, fun _ => by rw [here]; trivial, rfl, .inr ⟨user, word, res, asks, here, rfl, rfl⟩⟩
  | stored res =>
      have here : s.handling worker = .registering (.stored res) := stage.resolve_right fun fresh => by cases fresh.1
      have mine : (s.handling worker).holdsLock := lock.mpr trivial
      refine aside _ (.registering (.decided (res = 0))) ⟨rfl, rfl, rfl, by rw [here]; rfl, False.elim, fun i different holds => ?_,
        fun _ _ _ => False.elim, .inr ⟨fun _ same => (by cases same), by rw [here]; exact fun _ same => (by cases same), rfl⟩⟩
      exact absurd (alone_locked mysqlQuery requests site w s worker i serial mine holds) different
  | decided success =>
      have here : s.handling worker = .registering (.decided success) := stage.resolve_right fun fresh => by cases fresh.1
      exact aside _ (.registering (.answered success)) ⟨rfl, rfl, rfl, by rw [here]; rfl, False.elim, fun i _ => serial.lock i,
        fun _ _ _ => False.elim, .inr ⟨fun _ same => (by cases same), by rw [here]; exact fun _ same => (by cases same), rfl⟩⟩
  | answered success => cases offered

theorem serial_step (w : World Db) (s : Crew Db) (worker : Nat) (serial : Serial mysqlQuery requests site w s)
    (offered : s.ready worker = true) (stillFree : StillFree requests s worker) :
    Serial mysqlQuery requests site w (s.step mysqlQuery requests worker) := by
  have aside := fun t now => serial_aside mysqlQuery requests site w s t worker now serial
  have effect := fun t page now => serial_effect mysqlQuery requests site w s t worker page now serial
  unfold Crew.step
  cases asks : (requests worker).ask with
  | page url =>
      cases here : s.handling worker with
      | started =>
          refine effect _ url _ (effect_settle mysqlQuery requests s worker url _ (by rw [here]; rfl) rfl id (by rw [here]; exact id)
            fun db => ?_)
          rw [asks]
          rfl
      | known | registering progress | answered page => exact serial
  | login user word =>
      cases here : s.handling worker with
      | started =>
          dsimp only
          by_cases unknown : s.users user = none
          · rw [if_pos unknown]
            refine effect _ _ _ (effect_settle mysqlQuery requests s worker _ _ (by rw [here]; rfl) rfl id (by rw [here]; exact id)
              fun db => ?_)
            have differs : s.users user ≠ some word := by
              rw [unknown]
              exact fun same => (by cases same)
            rw [asks, Ask.perform, loginPage, if_neg differs]
          · rw [if_neg unknown]
            exact aside _ _ (aside_report mysqlQuery requests s worker .known (by rw [here]; rfl) rfl id (by rw [here]; exact id)
              serial.lock)
      | known =>
          refine effect _ _ _ (effect_settle mysqlQuery requests s worker _ _ (by rw [here]; rfl) rfl id (by rw [here]; exact id)
            fun db => ?_)
          rw [asks]
          rfl
      | registering progress | answered page => exact serial
  | registration user word =>
      unfold Crew.ready at offered
      cases here : s.handling worker with
      | started =>
          exact serial_registers mysqlQuery requests site w s worker user word .started serial asks (.inr ⟨rfl, here⟩) rfl stillFree
      | registering progress =>
          rw [here] at offered
          exact serial_registers mysqlQuery requests site w s worker user word progress serial asks (.inl here) offered stillFree
      | known | answered page => exact serial

theorem start_serial (w : World Db) : Serial mysqlQuery requests site w (.start w) := by
  have noPage : ∀ worker, ((Crew.start w).handling worker).page = none := fun _ => rfl
  refine ⟨⟨w.db, rfl, fun _ _ _ _ _ inserted => (by cases inserted), fun _ => rfl⟩, fun _ => False.elim, fun _ _ _ _ => False.elim,
    List.nodup_nil, fun worker => ?_, fun worker page has => ?_⟩
  · exact ⟨fun member => absurd member List.not_mem_nil, fun some => absurd (noPage worker) some⟩
  · rw [noPage] at has
    cases has

theorem settle_order (s : Crew Db) (worker : Nat) (page : Text) (now : Handling) : s.order <+: (s.settle worker page now).order :=
  List.prefix_append _ _

theorem registers_order (s : Crew Db) (worker : Nat) (user word : Text) (progress : Progress) :
    s.order <+: (s.registers mysqlQuery worker user word progress).order := by
  unfold Crew.registers
  dsimp only
  split
  · exact List.prefix_append _ _
  · exact List.prefix_rfl

theorem step_order (s : Crew Db) (worker : Nat) : s.order <+: (s.step mysqlQuery requests worker).order := by
  unfold Crew.step
  split
  · exact settle_order s worker _ _
  · split
    · exact settle_order s worker _ _
    · exact List.prefix_rfl
  · exact settle_order s worker _ _
  · exact registers_order mysqlQuery s worker _ _ _
  · exact registers_order mysqlQuery s worker _ _ _
  · exact List.prefix_rfl

variable (hand : Reply Db → Response) (hands : ∀ reply, Handed reply (hand reply))
  (small : ∀ path file, site.stat path = some file → file.content.length < 2 ^ 31)

structure Linearized (w : World Db) (s : Crew Db) : Prop where
  answers : ∃ db, serveAll mysqlQuery site hand w (s.order.map fun entry => requests entry.1) =
      .ok (s.order.map fun entry => (responseFor (requests entry.1).linger (site.fileOf entry.2)).map Message.text, ⟨s.users, db⟩) ∧
    (s.holder = none → db = s.db)
  once : (s.order.map Prod.fst).Nodup
  pages : ∀ worker page, (s.handling worker).reply = some page → (worker, page) ∈ s.order
  begun : ∀ entry ∈ s.order, s.handling entry.1 ≠ .started

include hands small in
theorem serial_linearized (w : World Db) (s : Crew Db) (serial : Serial mysqlQuery requests site w s) :
    Linearized mysqlQuery requests site hand w s := by
  obtain ⟨db, answered, _, settled⟩ := serial.history
  refine ⟨⟨db, ?_, fun noHolder => settled fun worker res inserted => ?_⟩, serial.once, fun worker page isAnswered => ?_, ?_⟩
  · rw [exchanges_served mysqlQuery site hand hands small, answered, List.map_map]
    rfl
  · have holds := serial.lock worker (by rw [inserted]; trivial)
    rw [noHolder] at holds
    cases holds
  · exact serial.pages worker page (reply_page _ page isAnswered)
  · intro entry member fresh
    refine (serial.listed entry.1).mp (List.mem_map_of_mem member) ?_
    rw [fresh]
    rfl

end Concurrency

end WzyServer.Http
