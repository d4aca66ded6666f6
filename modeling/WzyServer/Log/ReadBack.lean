import Mathlib.Data.List.SplitBy
import WzyServer.Log.Delivery
import WzyServer.Log.Format

set_option autoImplicit false

namespace WzyServer.Log

open CString Run

def newline : UInt8 := 10

structure Stamp where
  year : Int
  month : Nat
  day : Nat
  hour : Nat
  minute : Nat
  second : Nat
  microsecond : Nat
  debug : Bool
deriving DecidableEq, Repr

structure LogEntry where
  stamp : Stamp
  lines : List Text
deriving DecidableEq, Repr

section Reading

def readNumber (text : Text) : Option (Nat × Text) :=
  if text.takeWhile isDigit = [] then none else some ((digits text).toNat, text.dropWhile isDigit)

def readYear (text : Text) : Option (Int × Text) :=
  match text with
  | 45 :: rest => (readNumber rest).map fun (n, rest) => (-(n : Int), rest)
  | text => (readNumber text).map fun (n, rest) => ((n : Int), rest)

def readMarked (mark : UInt8) (text : Text) : Option (Nat × Text) :=
  match text with
  | [] => none
  | c :: rest => if c = mark then readNumber rest else none

def readLevel (text : Text) : Option (Bool × Text) :=
  if (ascii " [debug]: ").isPrefixOf text then some (true, text.drop 10)
  else if (ascii " [info]: ").isPrefixOf text then some (false, text.drop 9)
  else none

def readStamp (text : Text) : Option (Stamp × Text) := do
  let (year, text) ← readYear text
  let (month, text) ← readMarked 45 text
  let (day, text) ← readMarked 45 text
  let (hour, text) ← readMarked 32 text
  let (minute, text) ← readMarked 58 text
  let (second, text) ← readMarked 58 text
  let (microsecond, text) ← readMarked 46 text
  let (debug, text) ← readLevel text
  return (⟨year, month, day, hour, minute, second, microsecond, debug⟩, text)

def readEntry (lines : List Text) : Option LogEntry :=
  match lines with
  | [] => none
  | first :: more => (readStamp first).map fun (stamp, head) => ⟨stamp, head :: more⟩

def readLog (text : Text) : Option (List LogEntry) :=
  ((text.splitOn newline).dropLast.splitBy fun _ next => (readStamp next).isNone).mapM readEntry

end Reading

section Stamps

theorem digits_zeros (count : Nat) (text : Text) : digits (List.replicate count 48 ++ text) = digits text := by
  induction count with
  | zero => rfl
  | succ count ih =>
      rw [← ih, List.replicate_succ, List.cons_append, digits, List.takeWhile_cons_of_pos (by decide)]
      rfl

theorem number_read (text rest : Text) (n : Nat) (shown : ∀ c ∈ text, isDigit c = true) (some_digit : text ≠ [])
    (number : digits (text ++ rest) = n) (ends : ∀ c ∈ rest.head?, isDigit c = false) : readNumber (text ++ rest) = some (n, rest) := by
  have stops : rest.takeWhile isDigit = [] ∧ rest.dropWhile isDigit = rest := by
    cases rest with
    | nil => exact ⟨rfl, rfl⟩
    | cons c more => exact ⟨List.takeWhile_cons_of_neg (by simp [ends c rfl]), List.dropWhile_cons_of_neg (by simp [ends c rfl])⟩
  rw [readNumber, List.takeWhile_append_of_pos shown, List.dropWhile_append_of_pos shown, stops.1, stops.2, List.append_nil,
    if_neg some_digit, number]
  rfl

theorem padded_read (width n : Nat) (rest : Text) (ends : ∀ c ∈ rest.head?, isDigit c = false) :
    readNumber (padded width n ++ rest) = some (n, rest) := by
  refine number_read _ rest n (padded_digits width n) (fun none => ?_) ?_ ends
  · exact printed_some n (List.append_eq_nil_iff.mp none).2
  · rw [padded, List.append_assoc, digits_zeros, digits_printed n rest ends]

theorem marked_read (mark : UInt8) (width n : Nat) (rest : Text) (ends : ∀ c ∈ rest.head?, isDigit c = false) :
    readMarked mark (mark :: (padded width n ++ rest)) = some (n, rest) := by
  rw [readMarked, if_pos rfl, padded_read width n rest ends]

theorem year_read (n : Int) (rest : Text) (ends : ∀ c ∈ rest.head?, isDigit c = false) :
    readYear (decimalText n ++ rest) = some (n, rest) := by
  cases n with
  | ofNat n =>
      have read := number_read _ rest n (printed_digits n) (printed_some n) (digits_printed n rest ends) ends
      obtain ⟨c, more, text⟩ := List.exists_cons_of_ne_nil (printed_some n)
      have digit := printed_digits n c (text ▸ List.mem_cons_self ..)
      change readYear (ascii (toString n) ++ rest) = _
      rw [text, List.cons_append] at read ⊢
      unfold readYear
      split
      · rename_i same
        exact absurd (List.cons.inj same).1 (digit_plain c digit).2.1
      · rw [read]
        rfl
  | negSucc n =>
      have read := number_read _ rest (n + 1) (printed_digits (n + 1)) (printed_some (n + 1)) (digits_printed (n + 1) rest ends) ends
      rw [decimal_text_negative, List.cons_append, readYear, read]
      rfl

def stampOf (now : LocalTime) (level : Int) : Stamp :=
  ⟨now.date.year, now.date.month, now.date.day, now.hour, now.minute, now.second, now.microsecond, level = 0⟩

theorem level_read (level : Int) (rest : Text) :
    readLevel (32 :: (levelText level ++ 32 :: rest)) = some (decide (level = 0), rest) := by
  unfold levelText
  by_cases debug : level = 0
  · rw [if_pos debug, decide_eq_true debug]
    rfl
  · rw [if_neg debug, decide_eq_false debug]
    rfl

-- The stamp that the reader finds is what the call printed, warnings and errors as info.
theorem stamp_read (now : LocalTime) (level : Int) (rest : Text) :
    readStamp (timeText now level ++ rest) = some (stampOf now level, rest) := by
  have marks : ascii "-" = [45] ∧ ascii ":" = [58] ∧ ascii "." = [46] := ⟨rfl, rfl, rfl⟩
  have blank : ∀ text : Text, ascii " " ++ text = 32 :: text := fun _ => rfl
  have dash : ∀ text : Text, ∀ c ∈ (45 :: text).head?, isDigit c = false := fun text c first => by cases first; rfl
  have space : ∀ text : Text, ∀ c ∈ (32 :: text).head?, isDigit c = false := fun text c first => by cases first; rfl
  have colon : ∀ text : Text, ∀ c ∈ (58 :: text).head?, isDigit c = false := fun text c first => by cases first; rfl
  have dot : ∀ text : Text, ∀ c ∈ (46 :: text).head?, isDigit c = false := fun text c first => by cases first; rfl
  simp only [timeText, marks, blank, List.append_assoc, List.cons_append, List.nil_append, readStamp, Option.bind_eq_bind,
    Option.bind_some, year_read _ _ (dash _), marked_read _ _ _ _ (dash _), marked_read _ _ _ _ (space _),
    marked_read _ _ _ _ (colon _), marked_read _ _ _ _ (dot _), level_read level rest]
  rfl

end Stamps

-- A call of write_log with what its format comes to: whole lines, which m_buf has room
-- for behind the stamp, and of which only the first one begins a record.
structure LogCall (bufSize : Nat) where
  level : Int
  now : LocalTime
  first : Text
  more : List Text
  clean : ∀ text ∈ first :: more, ∀ c ∈ text, c ≠ 0 ∧ c ≠ newline
  plain : ∀ text ∈ more, readStamp text = none
  fits : (timeText now level).length + ((first :: more).flatMap fun text => text ++ [newline]).length < bufSize

namespace LogCall

variable {bufSize : Nat}

def message (call : LogCall bufSize) : Text := (call.first :: call.more).flatMap fun text => text ++ [newline]

def lines (call : LogCall bufSize) : List Text := (timeText call.now call.level ++ call.first) :: call.more

def entry (call : LogCall bufSize) : LogEntry := ⟨stampOf call.now call.level, call.first :: call.more⟩

end LogCall

section Files

variable {bufSize : Nat}

def content (memory : Record (LogCall bufSize) → Memory) (records : List (Record (LogCall bufSize))) : Text :=
  records.flatMap fun record => logString bufSize record.text.level record.text.now record.text.message (memory record)

theorem time_text_line (now : LocalTime) (level : Int) : newline ∉ timeText now level :=
  fun member => absurd (time_text_chars now level newline member) (by decide +kernel)

theorem call_written (call : LogCall bufSize) (memory : Memory) :
    logString bufSize call.level call.now call.message memory = call.lines.flatMap fun text => text ++ [newline] := by
  have clean : ∀ c ∈ call.message, c ≠ 0 := by
    intro c member
    obtain ⟨text, inside, here⟩ := List.mem_flatMap.mp member
    rcases List.mem_append.mp here with shown | ended
    · exact (call.clean text inside c shown).1
    · rw [List.mem_singleton.mp ended]
      decide
  rw [log_string_whole bufSize call.level call.now call.message memory clean call.fits, LogCall.message, LogCall.lines,
    List.flatMap_cons, List.flatMap_cons, List.append_assoc, List.append_assoc, List.append_assoc]

theorem call_lines (call : LogCall bufSize) : ∀ text ∈ call.lines, newline ∉ text := by
  have shown : ∀ text ∈ call.first :: call.more, newline ∉ text :=
    fun text member inside => (call.clean text member newline inside).2 rfl
  obtain ⟨first, more⟩ := List.forall_mem_cons.mp shown
  have stamp := time_text_line call.now call.level
  refine List.forall_mem_cons.mpr ⟨fun inside => ?_, more⟩
  exact (List.mem_append.mp inside).elim stamp first

theorem lines_split (lines : List Text) (clean : ∀ text ∈ lines, newline ∉ text) :
    (lines.flatMap fun text => text ++ [newline]).splitOn newline = lines ++ [[]] := by
  induction lines with
  | nil => rfl
  | cons text rest ih =>
      obtain ⟨first, later⟩ := List.forall_mem_cons.mp clean
      rw [List.flatMap_cons, List.append_assoc, List.singleton_append, List.splitOn_append_cons_self_of_not_mem first, ih later,
        List.cons_append]

theorem stamped_line (call : LogCall bufSize) : (readStamp (timeText call.now call.level ++ call.first)).isNone = false := by
  rw [stamp_read]
  rfl

theorem plain_lines (first : Text) (more : List Text) (plain : ∀ text ∈ more, readStamp text = none) :
    (first :: more).IsChain fun _ next => (readStamp next).isNone := by
  induction more generalizing first with
  | nil => exact List.isChain_singleton first
  | cons next rest ih =>
      obtain ⟨here, later⟩ := List.forall_mem_cons.mp plain
      exact List.isChain_cons_cons.mpr ⟨by rw [here]; rfl, ih next later⟩

theorem records_split (calls : List (LogCall bufSize)) :
    ((calls.map LogCall.lines).flatten.splitBy fun _ next => (readStamp next).isNone) = calls.map LogCall.lines := by
  refine List.splitBy_flatten (fun member => ?_) (fun lines member => ?_) ?_
  · obtain ⟨call, _, none⟩ := List.mem_map.mp member
    cases none
  · obtain ⟨call, _, rfl⟩ := List.mem_map.mp member
    exact plain_lines _ call.more call.plain
  · refine (List.pairwise_map.mpr (List.pairwise_of_forall fun earlier later => ?_)).isChain
    exact ⟨List.cons_ne_nil _ _, List.cons_ne_nil _ _, stamped_line later⟩

theorem entries_read (calls : List (LogCall bufSize)) : (calls.map LogCall.lines).mapM readEntry = some (calls.map LogCall.entry) := by
  induction calls with
  | nil => rfl
  | cons call rest ih =>
      rw [List.map_cons, List.mapM_cons, ih, LogCall.lines, readEntry, stamp_read]
      rfl

theorem content_read (memory : Record (LogCall bufSize) → Memory) (records : List (Record (LogCall bufSize))) :
    readLog (content memory records) = some (records.map fun record => record.text.entry) := by
  have lines : content memory records =
      ((records.map fun record => record.text.lines).flatten).flatMap fun text => text ++ [newline] := by
    unfold content
    simp only [call_written]
    induction records with
    | nil => rfl
    | cons record rest ih => rw [List.flatMap_cons, List.map_cons, List.flatten_cons, List.flatMap_append, ih]
  have clean : ∀ text ∈ (records.map fun record => record.text.lines).flatten, newline ∉ text := by
    intro text member
    obtain ⟨group, inGroup, inside⟩ := List.mem_flatten.mp member
    obtain ⟨record, _, rfl⟩ := List.mem_map.mp inGroup
    exact call_lines record.text text inside
  have calls : (records.map fun record => record.text.lines) = (records.map Record.text).map LogCall.lines := by
    rw [List.map_map]
    rfl
  rw [readLog, lines, lines_split _ clean, List.dropLast_concat, calls, records_split, entries_read, List.map_map]
  rfl

def Recovered (memory : Record (LogCall bufSize) → Memory) (s : Logger (LogCall bufSize)) : Prop :=
  ∃ entries, readLog (content memory s.file) = some entries ∧
    (entries ++ s.inFlight.map fun record => record.text.entry).Perm (s.completed.map fun record => record.text.entry)

theorem log_read_back (capacity : Int) (blank : Record (LogCall bufSize)) (queue : BlockQueue (Record (LogCall bufSize))) (threads : Nat)
    (created : BlockQueue.new capacity blank = some queue) (memory : Record (LogCall bufSize) → Memory)
    (labels : List (LogLabel (LogCall bufSize)))
    (room : Along (logMachine (LogCall bufSize)) FindsRoom (Logger.start queue threads) labels) :
    Always (logMachine (LogCall bufSize)) (Recovered memory) (Logger.start queue threads) labels := by
  refine always_mono _ (Accounted capacity.toNat) _ (fun s accounted => ?_) _ labels ?_
  · refine ⟨_, content_read memory s.file, ?_⟩
    rw [← List.map_append]
    exact accounted.perm.map _
  · refine always_of_along _ FindsRoom _ ?_ _ labels (start_accounted capacity blank queue threads created) room
    exact fun s label t accounted here taken => accounted_step capacity.toNat s t label accounted here taken

end Files

def responseCall : LogCall 128 where
  level := 3
  now := december
  first := ascii "response : HTTP/1.1 200 OK"
  more := [ascii "Content-Length:586", []]
  clean := by decide +kernel
  plain := by decide +kernel
  fits := by decide +kernel

example : readLog (content (fun _ _ => 0) [⟨0, 0, responseCall⟩]) =
    some [⟨⟨2024, 12, 5, 23, 59, 0, 120, false⟩, [ascii "response : HTTP/1.1 200 OK", ascii "Content-Length:586", []]⟩] := by
  decide +kernel

def callCell : BlockQueue (Record (LogCall 128)) := ⟨1, [⟨0, 0, responseCall⟩], 0, -1, -1⟩

def writtenOnce : List (LogLabel (LogCall 128)) := [.begin 0 responseCall, .advance 0, .advance 0, .flush, .flush]

theorem log_read_back_response :
    Always (logMachine (LogCall 128)) (Recovered fun _ _ => 0) (Logger.start callCell 1) writtenOnce := by
  refine log_read_back 1 ⟨0, 0, responseCall⟩ callCell 1 rfl (fun _ _ => 0) writtenOnce ?_
  refine along_cons _ _ _ _ _ _ (fun _ _ _ _ other => by cases other) rfl ?_
  refine along_cons _ _ _ _ _ _ (fun _ _ _ _ _ _ => rfl) rfl ?_
  refine along_cons _ _ _ _ _ _ (fun _ _ _ _ _ _ => rfl) rfl ?_
  refine along_cons _ _ _ _ _ _ (fun _ _ _ _ other => by cases other) rfl ?_
  exact along_cons _ _ _ _ _ _ (fun _ _ _ _ other => by cases other) rfl trivial

end WzyServer.Log
