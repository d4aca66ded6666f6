import WzyServer.Http.Accounts

set_option autoImplicit false

namespace WzyServer.Http

open CString Run

-- How far a worker has come with a registration in do_request. `res` is what
-- mysql_query returned, and an answer is /log.html or /registerError.html.
inductive Progress where
  | started
  | absent
  | locked
  | inserted (res : Int)
  | stored (res : Int)
  | decided (success : Bool)
  | answered (success : Bool)
deriving DecidableEq, Repr

namespace Progress

def holdsLock : Progress → Prop
  | .locked | .inserted _ | .stored _ => True
  | _ => False

def result : Progress → Option Int
  | .inserted res | .stored res => some res
  | _ => none

def accepted : Progress → Prop
  | .inserted res | .stored res => res = 0
  | .decided success | .answered success => success = true
  | _ => False

end Progress

-- What the workers share; `holder` has m_lock.
structure Registry (Db : Type) where
  users : Users
  db : Db
  holder : Option Nat

namespace Registry

variable {Db : Type} (mysqlQuery : Db → Text → Int × Db)

def register (s : Registry Db) (worker : Nat) (name password : Text) : Progress → Registry Db × Progress
  | .started => (s, if s.users name = none then .absent else .decided false)
  | .absent => ({ s with holder := some worker }, .locked)
  | .locked =>
      let (res, db) := mysqlQuery s.db (insertStatement name password)
      ({ s with db := db }, .inserted res)
  | .inserted res => ({ s with users := s.users.insert name password }, .stored res)
  | .stored res => ({ s with holder := none }, .decided (res = 0))
  | .decided success => (s, .answered success)
  | .answered success => (s, .answered success)

-- A worker moves until it has answered, and waits where m_lock is taken.
def admits (s : Registry Db) : Progress → Bool
  | .absent => s.holder.isNone
  | .answered _ => false
  | _ => true

end Registry

structure Workers (Db : Type) extends Registry Db where
  progress : Nat → Progress

section Registrations

variable {Db : Type} (mysqlQuery : Db → Text → Int × Db) (name : Text) (password : Nat → Text)

def Workers.report (s : Workers Db) (worker : Nat) (progress : Progress) : Workers Db :=
  { s with progress := fun other => if other = worker then progress else s.progress other }

def Workers.step (s : Workers Db) (worker : Nat) : Workers Db :=
  let (shared, now) := s.register mysqlQuery worker name (password worker) (s.progress worker)
  ({ s with toRegistry := shared } : Workers Db).report worker now

def Workers.ready (s : Workers Db) (worker : Nat) : Bool := s.admits (s.progress worker)

def workerMachine : Machine (Workers Db) Nat Empty where
  guard := fun s worker => s.ready worker = true
  effect := fun s worker => .ok (s.step mysqlQuery name password worker)

instance (s : Workers Db) (worker : Nat) : Decidable ((workerMachine mysqlQuery name password).guard s worker) :=
  inferInstanceAs (Decidable (s.ready worker = true))

def startWorkers (users : Users) (db : Db) : Workers Db := ⟨⟨users, db, none⟩, fun _ => .started⟩

def Workers.Won (s : Workers Db) (worker : Nat) : Prop := s.progress worker = .answered true

structure OneWinner (s : Workers Db) : Prop where
  once : ∀ i j, s.Won i → s.Won j → i = j
  holds : ∀ i, s.Won i → s.users name = some (password i)

def InsertHarmless (s : Workers Db) (worker : Nat) : Prop :=
  s.progress worker = .locked → ∀ winner, (s.progress winner).accepted →
    (mysqlQuery s.db (insertStatement name (password worker))).1 ≠ 0 ∧ password worker = password winner

structure Registering (s : Workers Db) : Prop where
  lock : ∀ i, (s.progress i).holdsLock → s.holder = some i
  once : ∀ i j, (s.progress i).accepted → (s.progress j).accepted → i = j
  late : ∀ i winner, (s.progress i).result ≠ none → (s.progress winner).accepted → password i = password winner
  holds : ∀ i, (s.progress i).accepted → (∀ res, s.progress i ≠ .inserted res) → s.users name = some (password i)

structure Moved (s t : Workers Db) (worker : Nat) (now : Progress) : Prop where
  progress : t.progress = fun other => if other = worker then now else s.progress other
  lockSelf : now.holdsLock → t.holder = some worker
  lockOther : ∀ i, i ≠ worker → (s.progress i).holdsLock → t.holder = some i
  accepts : now.accepted → (s.progress worker).accepted ∨
    ∀ i, i ≠ worker → ¬ (s.progress i).accepted ∧ (s.progress i).result = none
  late : now.result ≠ none → ∀ winner, winner ≠ worker → (s.progress winner).accepted → password worker = password winner
  holdsSelf : now.accepted → (∀ res, now ≠ .inserted res) → t.users name = some (password worker)
  holdsOther : ∀ i, i ≠ worker → (s.progress i).accepted → (∀ res, s.progress i ≠ .inserted res) →
    t.users name = some (password i)

theorem registering_moved (s t : Workers Db) (worker : Nat) (now : Progress) (inv : Registering name password s)
    (moved : Moved name password s t worker now) : Registering name password t := by
  have self : t.progress worker = now := by rw [moved.progress]; exact if_pos rfl
  have other : ∀ i, i ≠ worker → t.progress i = s.progress i := fun i different => by rw [moved.progress]; exact if_neg different
  refine ⟨fun i locked => ?_, fun i j first second => ?_, fun i winner result won => ?_, fun i won outside => ?_⟩
  · by_cases same : i = worker
    · rw [same, self] at locked
      rw [same]
      exact moved.lockSelf locked
    · rw [other i same] at locked
      exact moved.lockOther i same locked
  · by_cases sameI : i = worker
    · by_cases sameJ : j = worker
      · rw [sameI, sameJ]
      · rw [sameI, self] at first
        rw [other j sameJ] at second
        rcases moved.accepts first with before | nobody
        · rw [sameI]
          exact inv.once worker j before second
        · exact absurd second (nobody j sameJ).1
    · rw [other i sameI] at first
      by_cases sameJ : j = worker
      · rw [sameJ, self] at second
        rcases moved.accepts second with before | nobody
        · rw [sameJ]
          exact inv.once i worker first before
        · exact absurd first (nobody i sameI).1
      · rw [other j sameJ] at second
        exact inv.once i j first second
  · by_cases sameWinner : winner = worker
    · by_cases same : i = worker
      · rw [same, sameWinner]
      · rw [sameWinner, self] at won
        rw [other i same] at result
        rcases moved.accepts won with before | nobody
        · rw [sameWinner]
          exact inv.late i worker result before
        · exact absurd (nobody i same).2 result
    · rw [other winner sameWinner] at won
      by_cases same : i = worker
      · rw [same, self] at result
        rw [same]
        exact moved.late result winner sameWinner won
      · rw [other i same] at result
        exact inv.late i winner result won
  · by_cases same : i = worker
    · rw [same, self] at won outside
      rw [same]
      exact moved.holdsSelf won outside
    · rw [other i same] at won outside
      exact moved.holdsOther i same won outside

theorem result_holds_lock (now : Progress) (result : now.result ≠ none) : now.holdsLock := by
  cases now with
  | inserted | stored => trivial
  | started | absent | locked | decided | answered => exact absurd rfl result

theorem others_unlocked (s : Workers Db) (worker i : Nat) (inv : Registering name password s)
    (locked : (s.progress worker).holdsLock) (different : i ≠ worker) : ¬ (s.progress i).holdsLock := by
  intro otherLocked
  have mine := inv.lock worker locked
  have theirs := inv.lock i otherLocked
  exact different (Option.some.inj (theirs.symm.trans mine))

theorem registering_step (s : Workers Db) (worker : Nat) (inv : Registering name password s) (offered : s.ready worker = true)
    (harmless : InsertHarmless mysqlQuery name password s worker) :
    Registering name password (s.step mysqlQuery name password worker) := by
  have lockKept : ∀ i, i ≠ worker → (s.progress i).holdsLock → s.holder = some i := fun i _ => inv.lock i
  have holdsKept : ∀ i, i ≠ worker → (s.progress i).accepted → (∀ res, s.progress i ≠ .inserted res) →
      s.users name = some (password i) := fun i _ => inv.holds i
  unfold Workers.step
  unfold Workers.ready at offered
  unfold InsertHarmless at harmless
  have moved := fun t now => registering_moved name password s t worker now inv
  cases here : s.progress worker with
  | started =>
      rw [Registry.register]
      dsimp only
      by_cases unknown : s.users name = none
      · rw [if_pos unknown]
        exact moved _ .absent ⟨rfl, False.elim, lockKept, False.elim, fun some => absurd rfl some, False.elim, holdsKept⟩
      · rw [if_neg unknown]
        exact moved _ (.decided false) ⟨rfl, False.elim, lockKept, fun won => (by cases won), fun some => absurd rfl some,
          fun won => (by cases won), holdsKept⟩
  | absent =>
      have free : s.holder = none := by
        rw [here] at offered
        exact Option.isNone_iff_eq_none.mp offered
      refine moved _ .locked ⟨rfl, fun _ => rfl, fun i _ locked => ?_, False.elim, fun some => absurd rfl some, False.elim, holdsKept⟩
      have taken := inv.lock i locked
      rw [free] at taken
      cases taken
  | locked =>
      have mine : (s.progress worker).holdsLock := by
        rw [here]
        trivial
      have alone := fun i => others_unlocked name password s worker i inv mine
      refine moved _ (.inserted (mysqlQuery s.db (insertStatement name (password worker))).1)
        ⟨rfl, fun _ => inv.lock worker mine, lockKept, fun accepted => .inr fun i different => ⟨fun won => ?_, ?_⟩,
          fun _ winner _ won => (harmless here winner won).2, fun _ outside => absurd rfl (outside _), holdsKept⟩
      · exact (harmless here i won).1 accepted
      · by_contra some
        exact alone i different (result_holds_lock _ some)
  | inserted res =>
      have mine : (s.progress worker).holdsLock := by
        rw [here]
        trivial
      have result : (s.progress worker).result ≠ none := by
        rw [here]
        exact Option.some_ne_none res
      refine moved _ (.stored res) ⟨rfl, fun _ => inv.lock worker mine, lockKept, fun accepted => .inl ?_,
        fun _ winner _ won => inv.late worker winner result won, fun _ _ => if_pos rfl, fun i _ won _ => ?_⟩
      · rw [here]
        exact accepted
      · rw [← inv.late worker i result won]
        exact if_pos rfl
  | stored res =>
      have mine : (s.progress worker).holdsLock := by
        rw [here]
        trivial
      have same : (s.progress worker).accepted ↔ (Progress.decided (decide (res = 0))).accepted := by
        rw [here]
        change res = 0 ↔ decide (res = 0) = true
        exact decide_eq_true_iff.symm
      refine moved _ (.decided (res = 0)) ⟨rfl, False.elim, fun i different locked => ?_, fun accepted => .inl (same.mpr accepted),
        fun some => absurd rfl some, fun accepted _ => inv.holds worker (same.mpr accepted) ?_, holdsKept⟩
      · exact absurd locked (others_unlocked name password s worker i inv mine different)
      · rw [here]
        exact fun _ other => (by cases other)
  | decided success =>
      have same : (s.progress worker).accepted ↔ (Progress.answered success).accepted := by
        rw [here]
        exact Iff.rfl
      refine moved _ (.answered success) ⟨rfl, False.elim, lockKept, fun accepted => .inl (same.mpr accepted),
        fun some => absurd rfl some, fun accepted _ => inv.holds worker (same.mpr accepted) ?_, holdsKept⟩
      rw [here]
      exact fun _ other => (by cases other)
  | answered success =>
      rw [here] at offered
      cases offered

theorem start_registering (users : Users) (db : Db) : Registering name password (startWorkers users db) :=
  ⟨fun _ => False.elim, fun _ _ => False.elim, fun _ _ some => absurd rfl some, fun _ => False.elim⟩

theorem registering_one_winner (s : Workers Db) (inv : Registering name password s) : OneWinner name password s := by
  have accepted : ∀ i, s.Won i → (s.progress i).accepted := by
    intro i won
    rw [won]
    exact rfl
  refine ⟨fun i j first second => inv.once i j (accepted i first) (accepted j second), fun i won => ?_⟩
  refine inv.holds i (accepted i won) fun res other => ?_
  rw [won] at other
  cases other

theorem one_winner (users : Users) (db : Db) (workers : List Nat)
    (harmless : Along (workerMachine mysqlQuery name password) (InsertHarmless mysqlQuery name password)
      (startWorkers users db) workers) :
    Always (workerMachine mysqlQuery name password) (OneWinner name password) (startWorkers users db) workers := by
  apply always_mono _ (Registering name password) (OneWinner name password) (registering_one_winner name password)
  refine always_of_along _ (InsertHarmless mysqlQuery name password) (Registering name password) ?_ _ workers
    (start_registering name password users db) harmless
  rintro s worker t inv safe ⟨offered, effect⟩
  cases effect
  exact registering_step mysqlQuery name password s worker inv offered safe

theorem register_alone (s : Workers Db) (worker : Nat) (success : Bool) (after : World Db)
    (fresh : s.progress worker = .started) (free : s.holder = none)
    (ok : register mysqlQuery name (password worker) ⟨s.users, s.db⟩ = .ok (success, after)) :
    ∃ count t, replay (workerMachine mysqlQuery name password) s (List.replicate count worker) = some t ∧
      t.progress worker = .answered success ∧ t.users = after.users ∧ t.db = after.db := by
  rcases register_ok mysqlQuery name (password worker) _ after success ok with ⟨absent, rfl, rfl⟩ | ⟨present, rfl, rfl⟩
  · simp only at absent
    refine ⟨6, Workers.report ⟨⟨s.users.insert name (password worker),
      (mysqlQuery s.db (insertStatement name (password worker))).2, none⟩, s.progress⟩ worker
      (.answered (decide ((mysqlQuery s.db (insertStatement name (password worker))).1 = 0))), ?_, ?_, rfl, rfl⟩
    · simp [List.replicate, replay, workerMachine, Workers.ready, Workers.step, Workers.report, Registry.admits, Registry.register,
        fresh, free, absent]
      funext other
      by_cases same : other = worker <;> simp [same]
    · simp [Workers.report]
  · simp only at present
    refine ⟨2, s.report worker (.answered false), ?_, ?_, rfl, rfl⟩
    · simp [List.replicate, replay, workerMachine, Workers.ready, Workers.step, Workers.report, Registry.admits, Registry.register,
        fresh, present]
      funext other
      by_cases same : other = worker <;> simp [same]
    · simp [Workers.report]

end Registrations

def passwords (worker : Nat) : Text := if worker = 0 then ascii "a" else ascii "b"

def noUsers : Users := fun _ => none

def anyRow (db : Bool) (_ : Text) : Int × Bool := (0, db)
def uniqueRow (taken : Bool) (_ : Text) : Int × Bool := (if taken then 1062 else 0, true)

theorem one_winner_in_turn : Always (workerMachine uniqueRow (ascii "n") passwords) (OneWinner (ascii "n") passwords)
    (startWorkers noUsers false) [0, 0, 0, 0, 0, 1, 0] := by
  apply one_winner
  refine along_cons _ _ _ _ _ _ (fun _ locked => absurd locked (by decide)) rfl ?_
  refine along_cons _ _ _ _ _ _ (fun _ locked => absurd locked (by decide)) rfl ?_
  refine along_cons _ _ _ _ _ _ (fun _ _ winner won => ?_) rfl ?_
  · have nobody : ∀ other, ¬ (if other = 0 then Progress.locked else if other = 0 then .absent else .started).accepted := by
      intro other
      by_cases same : other = 0
      · rw [if_pos same]
        exact id
      · rw [if_neg same, if_neg same]
        exact id
    exact absurd won (nobody winner)
  refine along_cons _ _ _ _ _ _ (fun _ locked => absurd locked (by decide)) rfl ?_
  refine along_cons _ _ _ _ _ _ (fun _ locked => absurd locked (by decide)) rfl ?_
  refine along_cons _ _ _ _ _ _ (fun _ locked => absurd locked (by decide)) rfl ?_
  exact along_cons _ _ _ _ _ _ (fun _ locked => absurd locked (by decide)) rfl trivial

theorem two_registrations_overlap :
    ¬ Always (workerMachine anyRow (ascii "n") passwords) (OneWinner (ascii "n") passwords)
      (startWorkers noUsers false) [0, 1, 0, 0, 0, 0, 0, 1, 1, 1, 1, 1] ∧
    ¬ Always (workerMachine uniqueRow (ascii "n") passwords) (OneWinner (ascii "n") passwords)
      (startWorkers noUsers false) [0, 1, 0, 0, 0, 0, 0, 1, 1, 1, 1, 1] := by
  constructor
  · intro always
    have reached : ∃ t, replay (workerMachine anyRow (ascii "n") passwords) (startWorkers noUsers false)
        [0, 1, 0, 0, 0, 0, 0, 1, 1, 1, 1, 1] = some t ∧ t.Won 0 ∧ t.Won 1 := ⟨_, rfl, rfl, rfl⟩
    obtain ⟨t, run, first, second⟩ := reached
    have winner := always_replay _ (OneWinner (ascii "n") passwords) _ t _ run always
    exact absurd (winner.once 0 1 first second) (by decide)
  · intro always
    have reached : ∃ t, replay (workerMachine uniqueRow (ascii "n") passwords) (startWorkers noUsers false)
        [0, 1, 0, 0, 0, 0, 0, 1, 1, 1, 1, 1] = some t ∧ t.Won 0 ∧ t.users (ascii "n") = some (ascii "b") := ⟨_, rfl, rfl, rfl⟩
    obtain ⟨t, run, first, users⟩ := reached
    have winner := always_replay _ (OneWinner (ascii "n") passwords) _ t _ run always
    have holds := winner.holds 0 first
    rw [users] at holds
    exact absurd holds (by decide)

end WzyServer.Http
