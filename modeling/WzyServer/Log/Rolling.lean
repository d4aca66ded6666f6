import WzyServer.Log.Files
import WzyServer.Log.Order

set_option autoImplicit false

namespace WzyServer.Log

open CString Run

-- Log in asynchronous mode, with the file that it has open. `date` is that of the last
-- call in the first critical section of write_log, and `entered` has the dates of the
-- calls between the two sections. The files opened so far, each with the date of the
-- call that opened it, and the file that each fputs wrote to are not in the source.
structure Rolling (α : Type) where
  logger : Logger (Date × α)
  log : LogFile
  date : Date
  entered : Nat → Option Date
  files : List (Text × Date)
  written : List (Nat × Record (Date × α))

inductive RollLabel (α : Type) where
  | enter (thread : Nat) (date : Date)
  | begin (thread : Nat) (text : α)
  | advance (thread : Nat)
  | flush

namespace Rolling

variable {α : Type}

def start (queue : BlockQueue (Record (Date × α))) (threads : Nat) (fileName : Text) (splitLines : Nat) (first : Date) : Rolling α :=
  let log := LogFile.init fileName splitLines first
  ⟨.start queue threads, log, first, fun _ => none, [(log.file, first)], []⟩

def enter (s : Rolling α) (thread : Nat) (date : Date) : Rolling α :=
  let log := s.log.writeLog date
  { s with
    log := log, date := date, entered := fun other => if other = thread then some date else s.entered other,
    files := if s.log.today ≠ date.day ∨ (s.log.count + 1) % s.log.splitLines = 0 then s.files ++ [(log.file, date)] else s.files }

-- fputs writes through m_fp as it is by then.
def writes (s : Rolling α) (logger : Logger (Date × α)) : Rolling α :=
  { s with
    logger := logger,
    written := s.written ++ (logger.file.drop s.logger.file.length).map fun record => (s.files.length - 1, record) }

def effect (s : Rolling α) : RollLabel α → Except Fault (Rolling α)
  | .enter thread date => .ok (s.enter thread date)
  | .begin thread text => match s.entered thread with
      | none => .ok s
      | some date => do
          let logger ← s.logger.effect (.begin thread (date, text))
          return { s with logger := logger, entered := fun other => if other = thread then none else s.entered other }
  | .advance thread => do return s.writes (← s.logger.effect (.advance thread))
  | .flush => do return s.writes (← s.logger.effect .flush)

-- The calls come to the first critical section in the order of their dates.
def offers (s : Rolling α) : RollLabel α → Prop
  | .enter thread date =>
      (∃ calls, s.logger.writers[thread]? = some ⟨calls, .idle⟩) ∧ s.entered thread = none ∧ s.date.rank ≤ date.rank
  | .begin thread text => ∃ date, s.entered thread = some date ∧ s.logger.offers (.begin thread (date, text)) = true
  | .advance thread => s.logger.offers (.advance thread) = true
  | .flush => True

end Rolling

def rollMachine (α : Type) : Machine (Rolling α) (RollLabel α) Fault where
  guard := Rolling.offers
  effect := Rolling.effect

section Pending

variable {α : Type}

def Logger.pending (s : Logger α) : List (Record α) := s.inFlight ++ s.writers.filterMap fun writer => writer.phase.record

theorem writer_pending (s : Logger α) (thread calls : Nat) (phase : Phase α) (record : Record α)
    (here : s.writers[thread]? = some ⟨calls, phase⟩) (holds : phase.record = some record) : record ∈ s.pending :=
  List.mem_append_right _ (List.mem_filterMap.mpr ⟨_, List.mem_of_getElem? here, holds⟩)

theorem moved_pending (s : Logger α) (thread calls : Nat) (phase : Phase α) (record : Record α)
    (member : record ∈ (s.writers.set thread ⟨calls, phase⟩).filterMap fun writer => writer.phase.record) :
    record ∈ s.pending ∨ phase.record = some record := by
  obtain ⟨writer, inside, holds⟩ := List.mem_filterMap.mp member
  rcases List.mem_or_eq_of_mem_set inside with older | rfl
  · exact .inl (List.mem_append_right _ (List.mem_filterMap.mpr ⟨writer, older, holds⟩))
  · exact .inr holds

theorem step_pending (bound : Nat) (s t : Logger α) (label : LogLabel α) (step : Step bound s label t) :
    (∃ added, t.file = s.file ++ added ∧ ∀ record ∈ added, record ∈ s.pending) ∧
      ∀ record ∈ t.pending, record ∈ s.pending ∨ label = .begin record.thread record.text := by
  have nothing : ∃ added, s.file = s.file ++ added ∧ ∀ record ∈ added, record ∈ s.pending :=
    ⟨[], (List.append_nil _).symm, fun record member => absurd member List.not_mem_nil⟩
  cases step with
  | begin thread calls text idle =>
      refine ⟨nothing, fun record member => ?_⟩
      rcases List.mem_append.mp member with inFlight | made
      · exact .inl (List.mem_append_left _ inFlight)
      · refine (moved_pending s thread calls _ record made).imp_right fun holds => ?_
        cases holds
        rfl
  | tested thread calls record phase formatted answer =>
      refine ⟨nothing, fun other member => .inl ?_⟩
      rcases List.mem_append.mp member with inFlight | made
      · exact List.mem_append_left _ inFlight
      · rcases moved_pending s thread calls _ other made with older | holds
        · exact older
        · refine writer_pending s thread calls _ other formatted ?_
          rcases answer with rfl | rfl <;> exact holds
  | queued thread calls record queue queueing notFull pushed =>
      have mine := writer_pending s thread calls _ record queueing rfl
      refine ⟨nothing, fun other member => .inl ?_⟩
      rcases List.mem_append.mp member with inFlight | made
      · change other ∈ s.flusher.toList ++ queue.items at inFlight
        rw [pushed, ← List.append_assoc] at inFlight
        rcases List.mem_append.mp inFlight with older | last
        · exact List.mem_append_left _ older
        · exact List.mem_singleton.mp last ▸ mine
      · exact (moved_pending s thread (calls + 1) .idle other made).resolve_right fun holds => by cases holds
  | lost thread calls record queueing full =>
      refine ⟨nothing, fun other member => .inl ?_⟩
      rcases List.mem_append.mp member with inFlight | made
      · exact List.mem_append_left _ inFlight
      · exact (moved_pending s thread (calls + 1) .idle other made).resolve_right fun holds => by cases holds
  | written thread calls record direct =>
      refine ⟨⟨[record], rfl, fun other member => ?_⟩, fun other member => .inl ?_⟩
      · exact List.mem_singleton.mp member ▸ writer_pending s thread calls _ record direct rfl
      · rcases List.mem_append.mp member with inFlight | made
        · exact List.mem_append_left _ inFlight
        · exact (moved_pending s thread (calls + 1) .idle other made).resolve_right fun holds => by cases holds
  | waiting empty => exact ⟨nothing, fun record member => .inl member⟩
  | popped record queue free front =>
      refine ⟨nothing, fun other member => .inl ?_⟩
      rcases List.mem_append.mp member with inFlight | made
      · refine List.mem_append_left _ ?_
        rw [Logger.inFlight, free, front]
        exact inFlight
      · exact List.mem_append_right _ made
  | flushed record held =>
      refine ⟨⟨[record], rfl, fun other member => ?_⟩, fun other member => .inl ?_⟩
      · refine List.mem_append_left _ (List.mem_append_left _ ?_)
        rw [List.mem_singleton.mp member, held]
        exact List.mem_singleton_self _
      · rcases List.mem_append.mp member with inFlight | made
        · exact List.mem_append_left _ (List.mem_append_right _ inFlight)
        · exact List.mem_append_right _ made

end Pending

section Files

variable {α : Type}

def Suits (opened date : Date) : Prop := opened.day = date.day ∨ date.rank ≤ opened.rank

structure OpenFile (s : Rolling α) (opened : Date) : Prop where
  last : ∃ older, s.files = older ++ [(s.log.file, opened)]
  today : opened.day = s.log.today
  pending : ∀ record ∈ s.logger.pending, Suits opened record.text.1 ∧ record.text.1.rank ≤ s.date.rank
  entered : ∀ thread date, s.entered thread = some date → Suits opened date ∧ date.rank ≤ s.date.rank

def Named (log : LogFile) (name : Text) (opened : Date) : Prop :=
  name = log.dayName opened ∨ ∃ count, name = log.limitName opened count

structure Placed (s : Rolling α) : Prop where
  whole : s.written.map Prod.snd = s.logger.file
  order : (s.written.map Prod.fst).Pairwise (· ≤ ·)
  dated : ∀ entry ∈ s.written, ∃ name opened, s.files[entry.1]? = some (name, opened) ∧ Suits opened entry.2.text.1
  names : ∀ n name opened, s.files[n + 1]? = some (name, opened) → Named s.log name opened

structure Rolled (bound : Nat) (s : Rolling α) : Prop extends Placed s where
  stores : s.logger.Stores bound
  open_ : ∃ opened, OpenFile s opened
  below : ∀ entry ∈ s.written, entry.1 < s.files.length

theorem named_kept (log : LogFile) (date opened : Date) (name : Text) :
    Named (log.writeLog date) name opened ↔ Named log name opened := by
  obtain ⟨dir, base, lines⟩ := write_log_names log date
  unfold Named LogFile.dayName LogFile.limitName
  rw [dir, base, lines]

theorem enter_opens (s : Rolling α) (thread : Nat) (date opened : Date) (now : OpenFile s opened) :
    ∃ later, (∃ older, (s.enter thread date).files = older ++ [((s.enter thread date).log.file, later)]) ∧
      later.day = (s.enter thread date).log.today ∧ later.day = date.day ∧
      (((s.enter thread date).files = s.files ∧ later = opened) ∨
        (∃ name, (s.enter thread date).files = s.files ++ [(name, date)] ∧ Named s.log name date) ∧ later = date) := by
  have today := write_log_today s.log date
  by_cases changed : s.log.today = date.day
  · by_cases limit : (s.log.count + 1) % s.log.splitLines = 0
    · have files : (s.enter thread date).files = s.files ++ [((s.log.writeLog date).file, date)] := if_pos (.inr limit)
      refine ⟨date, ⟨_, files⟩, today.symm, rfl, .inr ⟨⟨_, files, ?_⟩, rfl⟩⟩
      rw [write_log_limit s.log date ⟨changed, limit⟩]
      exact .inr ⟨_, rfl⟩
    · have files : (s.enter thread date).files = s.files := if_neg fun either => either.elim (fun other => other changed) limit
      obtain ⟨older, last⟩ := now.last
      refine ⟨opened, ⟨older, ?_⟩, ?_, now.today.trans changed, .inl ⟨files, rfl⟩⟩
      · rw [files, last]
        change _ = older ++ [((s.log.writeLog date).file, opened)]
        rw [write_log_plain s.log date changed limit]
      · change opened.day = (s.log.writeLog date).today
        rw [today]
        exact now.today.trans changed
  · have files : (s.enter thread date).files = s.files ++ [((s.log.writeLog date).file, date)] := if_pos (.inl changed)
    refine ⟨date, ⟨_, files⟩, today.symm, rfl, .inr ⟨⟨_, files, ?_⟩, rfl⟩⟩
    rw [write_log_day s.log date changed]
    exact .inl rfl

theorem rolled_enter (bound : Nat) (s : Rolling α) (thread : Nat) (date : Date) (rolled : Rolled bound s)
    (forward : s.date.rank ≤ date.rank) : Rolled bound (s.enter thread date) := by
  obtain ⟨opened, now⟩ := rolled.open_
  obtain ⟨later, last, today, day, change_⟩ := enter_opens s thread date opened now
  have suits : ∀ other : Date, Suits opened other ∧ other.rank ≤ s.date.rank → Suits later other ∧ other.rank ≤ date.rank := by
    intro other ⟨suited, before⟩
    have least := Int.le_trans before forward
    rcases change_ with ⟨_, rfl⟩ | ⟨_, rfl⟩
    · exact ⟨suited, least⟩
    · exact ⟨(.inr least : Suits later other), least⟩
  have longer : ∀ (n : Nat) (entry : Text × Date), s.files[n]? = some entry → (s.enter thread date).files[n]? = some entry := by
    intro n entry found
    rcases change_ with ⟨same, _⟩ | ⟨⟨name, more, _⟩, _⟩
    · rw [same]
      exact found
    · rw [more, List.getElem?_append_left (List.getElem?_eq_some_iff.mp found).1]
      exact found
  refine ⟨⟨rolled.whole, rolled.order, fun entry member => ?_, fun n name file found => ?_⟩, rolled.stores,
    ⟨later, last, today, ?_, ?_⟩, ?_⟩
  · obtain ⟨name, file, found, suited⟩ := rolled.dated entry member
    exact ⟨name, file, longer entry.1 _ found, suited⟩
  · refine (named_kept s.log date file name).mpr ?_
    rcases change_ with ⟨same, _⟩ | ⟨⟨newName, more, named⟩, _⟩
    · rw [same] at found
      exact rolled.names n name file found
    · rw [more] at found
      by_cases older : n + 1 < s.files.length
      · rw [List.getElem?_append_left older] at found
        exact rolled.names n name file found
      · rw [List.getElem?_append_right (by omega)] at found
        obtain ⟨_, isLast⟩ := List.getElem?_eq_some_iff.mp found
        rw [List.getElem_singleton] at isLast
        cases isLast
        exact named
  · exact fun record member => suits _ (now.pending record member)
  · intro other entered isEntered
    by_cases same : other = thread
    · have isDate : some date = some entered := (if_pos same).symm.trans isEntered
      cases isDate
      exact ⟨.inl day, Int.le_refl _⟩
    · exact suits _ (now.entered other entered ((if_neg same).symm.trans isEntered))
  · intro entry member
    obtain ⟨name, file, found, _⟩ := rolled.dated entry member
    exact (List.getElem?_eq_some_iff.mp (longer entry.1 _ found)).1

theorem rolled_writes (bound : Nat) (s : Rolling α) (logger : Logger (Date × α)) (entered : Nat → Option Date)
    (label : LogLabel (Date × α)) (rolled : Rolled bound s) (stores : logger.Stores bound) (step : Step bound s.logger label logger)
    (fewer : ∀ thread date, entered thread = some date → s.entered thread = some date)
    (own : ∀ thread text, label = .begin thread text → s.entered thread = some text.1) :
    Rolled bound { s.writes logger with entered := entered } := by
  obtain ⟨opened, now⟩ := rolled.open_
  obtain ⟨older, last⟩ := now.last
  obtain ⟨⟨added, file, wasPending⟩, pending⟩ := step_pending bound s.logger logger label step
  have length : s.files.length = older.length + 1 := by rw [last, List.length_append, List.length_singleton]
  have current : s.files[older.length]? = some (s.log.file, opened) := by rw [last, List.getElem?_concat_length]
  have written : (s.writes logger).written = s.written ++ added.map fun record => (older.length, record) := by
    unfold Rolling.writes
    dsimp only
    rw [file, List.drop_left, length, Nat.add_sub_cancel]
  have before : ∀ entry ∈ s.written, entry.1 ≤ older.length := fun entry member => by
    have least := rolled.below entry member
    omega
  refine ⟨⟨?_, ?_, ?_, rolled.names⟩, stores, ⟨opened, now.last, now.today, ?_, ?_⟩, ?_⟩
  · change (s.writes logger).written.map Prod.snd = logger.file
    rw [written, List.map_append, rolled.whole, file, List.map_map]
    exact congrArg (s.logger.file ++ ·) (List.map_id added)
  · change ((s.writes logger).written.map Prod.fst).Pairwise (· ≤ ·)
    rw [written, List.map_append, List.map_map]
    refine List.pairwise_append.mpr ⟨rolled.order, ?_, ?_⟩
    · refine List.pairwise_map.mpr (List.pairwise_of_forall fun _ _ => Nat.le_refl _)
    · intro n earlier m later
      obtain ⟨entry, member, rfl⟩ := List.mem_map.mp earlier
      obtain ⟨record, _, rfl⟩ := List.mem_map.mp later
      exact before entry member
  · intro entry member
    change entry ∈ (s.writes logger).written at member
    rw [written] at member
    rcases List.mem_append.mp member with inside | new
    · exact rolled.dated entry inside
    · obtain ⟨record, isNew, rfl⟩ := List.mem_map.mp new
      exact ⟨s.log.file, opened, current, (now.pending record (wasPending record isNew)).1⟩
  · intro record member
    rcases pending record member with older | begins
    · exact now.pending record older
    · exact now.entered record.thread record.text.1 (own _ _ begins)
  · exact fun thread date isEntered => now.entered thread date (fewer thread date isEntered)
  · intro entry member
    change entry ∈ (s.writes logger).written at member
    rw [written] at member
    change entry.1 < s.files.length
    rcases List.mem_append.mp member with inside | new
    · exact rolled.below entry inside
    · obtain ⟨record, _, rfl⟩ := List.mem_map.mp new
      dsimp only
      omega

theorem rolled_step (bound : Nat) (s t : Rolling α) (label : RollLabel α) (rolled : Rolled bound s)
    (taken : Takes (rollMachine α) s label t) : Rolled bound t := by
  obtain ⟨offered, effect⟩ := taken
  cases label with
  | enter thread date =>
      cases effect
      exact rolled_enter bound s thread date rolled offered.2.2
  | begin thread text =>
      obtain ⟨date, isEntered, idle⟩ := offered
      simp only [rollMachine, Rolling.effect, isEntered] at effect
      obtain ⟨logger, begun, rest⟩ := ok_of_bind _ _ _ effect
      cases rest
      obtain ⟨stores, step⟩ := log_step bound s.logger logger (.begin thread (date, text)) rolled.stores ⟨idle, begun⟩
      have same : logger.file = s.logger.file := by
        cases step
        rfl
      have plain : s.writes logger = { s with logger := logger } := by
        rw [Rolling.writes, same, List.drop_length, List.map_nil, List.append_nil]
      have reached := rolled_writes bound s logger (fun other => if other = thread then none else s.entered other) _ rolled stores step
        (fun other later found => ?_) (fun other later begins => ?_)
      · rw [plain] at reached
        exact reached
      · by_cases mine : other = thread
        · have none_ : (none : Option Date) = some later := (if_pos mine).symm.trans found
          cases none_
        · exact (if_neg mine).symm.trans found
      · cases begins
        exact isEntered
  | advance thread =>
      obtain ⟨logger, advanced, rest⟩ := ok_of_bind _ _ _ effect
      cases rest
      obtain ⟨stores, step⟩ := log_step bound s.logger logger (.advance thread) rolled.stores ⟨offered, advanced⟩
      exact rolled_writes bound s logger s.entered _ rolled stores step (fun _ _ => id) fun _ _ other => by cases other
  | flush =>
      obtain ⟨logger, flushed, rest⟩ := ok_of_bind _ _ _ effect
      cases rest
      obtain ⟨stores, step⟩ := log_step bound s.logger logger .flush rolled.stores ⟨rfl, flushed⟩
      exact rolled_writes bound s logger s.entered _ rolled stores step (fun _ _ => id) fun _ _ other => by cases other

theorem start_rolled (capacity : Int) (blank : Record (Date × α)) (queue : BlockQueue (Record (Date × α))) (threads : Nat)
    (created : BlockQueue.new capacity blank = some queue) (fileName : Text) (splitLines : Nat) (first : Date) :
    Rolled capacity.toNat (Rolling.start queue threads fileName splitLines first) := by
  have stored := (BlockQueue.new_stores capacity blank queue created).1
  have nothing : (Logger.start queue threads).pending = [] := by
    refine List.append_eq_nil_iff.mpr ⟨?_, List.filterMap_eq_nil_iff.mpr fun writer member => ?_⟩
    · simp only [Logger.inFlight, Logger.start, BlockQueue.stores_items queue _ [] stored]
      rfl
    · rw [List.eq_of_mem_replicate member]
      rfl
  refine ⟨⟨rfl, .nil, fun entry member => absurd member List.not_mem_nil, fun n name opened found => ?_⟩,
    stores_of _ _ [] stored, ⟨first, ?_⟩, fun entry member => absurd member List.not_mem_nil⟩
  · cases found
  · refine ⟨⟨[], rfl⟩, (init_today fileName splitLines first).1.symm, ?_, fun _ _ entered => by cases entered⟩
    intro record member
    change record ∈ (Logger.start queue threads).pending at member
    rw [nothing] at member
    cases member

theorem records_placed (capacity : Int) (blank : Record (Date × α)) (queue : BlockQueue (Record (Date × α))) (threads : Nat)
    (created : BlockQueue.new capacity blank = some queue) (fileName : Text) (splitLines : Nat) (first : Date)
    (labels : List (RollLabel α)) : Always (rollMachine α) Placed (.start queue threads fileName splitLines first) labels := by
  refine always_mono (rollMachine α) (Rolled capacity.toNat) Placed (fun s rolled => rolled.toPlaced) _ labels ?_
  refine always_invariant (rollMachine α) (Rolled capacity.toNat) ?_ _ labels ?_
  · exact fun s label t rolled taken => rolled_step capacity.toNat s t label rolled taken
  · exact start_rolled capacity blank queue threads created fileName splitLines first

end Files

def datedCell : BlockQueue (Record (Date × Nat)) := ⟨1, [⟨0, 0, december.date, 0⟩], 0, -1, -1⟩

def overMidnight : List (RollLabel Nat) :=
  [.enter 0 december.date, .begin 0 10, .advance 0, .enter 1 nextDay, .advance 0, .begin 1 20, .advance 1, .advance 1, .flush, .flush]

theorem records_placed_midnight :
    Always (rollMachine Nat) Placed (.start datedCell 2 (ascii "log/web") 800000 december.date) overMidnight :=
  records_placed 1 ⟨0, 0, december.date, 0⟩ datedCell 2 rfl (ascii "log/web") 800000 december.date overMidnight

end WzyServer.Log
