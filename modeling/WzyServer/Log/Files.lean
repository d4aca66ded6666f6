import WzyServer.Base.Run
import WzyServer.Log.Format

set_option autoImplicit false

namespace WzyServer.Log

open CString Run

def slash : UInt8 := 47

def printed (size : Nat) (text : Text) : Text := text.take (size - 1)

def dateText (date : Date) : Text :=
  decimalText date.year ++ ascii "_" ++ padded 2 date.month ++ ascii "_" ++ padded 2 date.day

def tail (date : Date) : Text := printed 16 (dateText date)

-- The fields of Log that name its file, and the name that m_fp was opened under. Every
-- fopen succeeds.
structure LogFile where
  dirName : Text
  logName : Text
  splitLines : Nat
  count : Nat
  today : Nat
  file : Text
deriving DecidableEq, Repr

namespace LogFile

-- Log::init. The Log is a static object, so the names it does not set are empty.
def init (fileName : Text) (splitLines : Nat) (date : Date) : LogFile :=
  match strrchr fileName slash with
  | none => ⟨[], [], splitLines, 0, date.day, printed 255 (dateText date ++ ascii "_" ++ fileName)⟩
  | some p =>
      ⟨fileName.take (p + 1), fileName.drop (p + 1), splitLines, 0, date.day,
        printed 255 (fileName.take (p + 1) ++ dateText date ++ ascii "_" ++ fileName.drop (p + 1))⟩

def dayName (s : LogFile) (date : Date) : Text := printed 255 (s.dirName ++ tail date ++ s.logName)

def limitName (s : LogFile) (date : Date) (count : Nat) : Text :=
  printed 255 (s.dirName ++ tail date ++ s.logName ++ ascii "." ++ decimalText ((count % s.splitLines : Nat) : Int))

-- The first critical section of Log::write_log.
def writeLog (s : LogFile) (date : Date) : LogFile :=
  let count := s.count + 1
  if s.today ≠ date.day ∨ count % s.splitLines = 0 then
    if s.today ≠ date.day then { s with file := s.dayName date, today := date.day, count := 0 }
    else { s with file := s.limitName date count, count := count }
  else { s with count := count }

def Limited (s : LogFile) (date : Date) : Prop := s.today = date.day ∧ (s.count + 1) % s.splitLines = 0

instance (s : LogFile) (date : Date) : Decidable (s.Limited date) := inferInstanceAs (Decidable (_ ∧ _))

def afterCalls (s : LogFile) (dates : List Date) : LogFile := dates.foldl writeLog s

end LogFile

section Naming

theorem write_log_day (s : LogFile) (date : Date) (changed : s.today ≠ date.day) :
    s.writeLog date = { s with file := s.dayName date, today := date.day, count := 0 } := by
  rw [LogFile.writeLog, if_pos (.inl changed), if_pos changed]

theorem write_log_limit (s : LogFile) (date : Date) (limited : s.Limited date) :
    s.writeLog date = { s with file := s.limitName date (s.count + 1), count := s.count + 1 } := by
  rw [LogFile.writeLog, if_pos (.inr limited.2), if_neg (fun changed => changed limited.1)]

theorem write_log_plain (s : LogFile) (date : Date) (same : s.today = date.day) (below : (s.count + 1) % s.splitLines ≠ 0) :
    s.writeLog date = { s with count := s.count + 1 } := by
  rw [LogFile.writeLog, if_neg]
  rintro (changed | limit)
  · exact changed same
  · exact below limit

theorem write_log_names (s : LogFile) (date : Date) : (s.writeLog date).dirName = s.dirName ∧
    (s.writeLog date).logName = s.logName ∧ (s.writeLog date).splitLines = s.splitLines := by
  unfold LogFile.writeLog
  dsimp only
  split
  · split <;> exact ⟨rfl, rfl, rfl⟩
  · exact ⟨rfl, rfl, rfl⟩

theorem write_log_today (s : LogFile) (date : Date) : (s.writeLog date).today = date.day := by
  by_cases changed : s.today = date.day
  · by_cases limit : (s.count + 1) % s.splitLines = 0
    · rw [write_log_limit s date ⟨changed, limit⟩]
      exact changed
    · rw [write_log_plain s date changed limit]
      exact changed
  · rw [write_log_day s date changed]

theorem after_calls_names (s : LogFile) (dates : List Date) :
    (s.afterCalls dates).dirName = s.dirName ∧ (s.afterCalls dates).logName = s.logName := by
  induction dates generalizing s with
  | nil => exact ⟨rfl, rfl⟩
  | cons date rest ih =>
      obtain ⟨dir, name⟩ := ih (s.writeLog date)
      obtain ⟨sameDir, sameName, _⟩ := write_log_names s date
      exact ⟨dir.trans sameDir, name.trans sameName⟩

theorem init_names (fileName : Text) (splitLines : Nat) (date : Date) :
    (LogFile.init fileName splitLines date).dirName.length + (LogFile.init fileName splitLines date).logName.length ≤ fileName.length := by
  unfold LogFile.init
  cases strrchr fileName slash with
  | none => exact Nat.zero_le _
  | some p =>
      dsimp only
      rw [List.length_take, List.length_drop]
      omega

theorem init_today (fileName : Text) (splitLines : Nat) (date : Date) :
    (LogFile.init fileName splitLines date).today = date.day ∧ (LogFile.init fileName splitLines date).splitLines = splitLines := by
  unfold LogFile.init
  cases strrchr fileName slash <;> exact ⟨rfl, rfl⟩

theorem init_file_length (fileName : Text) (splitLines : Nat) (date : Date) (fits : fileName.length + (dateText date).length + 1 < 255) :
    (LogFile.init fileName splitLines date).file.length = fileName.length + (dateText date).length + 1 := by
  have one : (ascii "_").length = 1 := rfl
  unfold LogFile.init printed
  cases strrchr fileName slash with
  | none =>
      simp only [List.length_take, List.length_append, one]
      omega
  | some p =>
      simp only [List.length_take, List.length_append, List.length_drop, one]
      omega

theorem day_name_length (s : LogFile) (date : Date) :
    (s.dayName date).length ≤ s.dirName.length + (dateText date).length + s.logName.length := by
  simp only [LogFile.dayName, tail, printed, List.length_take, List.length_append]
  omega

-- The rotation leaves out the underscore behind the date, and all of a name without a
-- directory.
theorem midnight_name_differs (fileName : Text) (splitLines : Nat) (first date : Date) (dates : List Date)
    (changed : ((LogFile.init fileName splitLines first).afterCalls dates).today ≠ date.day)
    (fits : fileName.length + (dateText date).length + 1 < 255) :
    (((LogFile.init fileName splitLines first).afterCalls dates).writeLog date).file ≠ (LogFile.init fileName splitLines date).file := by
  intro same
  obtain ⟨dir, name⟩ := after_calls_names (LogFile.init fileName splitLines first) dates
  have names := init_names fileName splitLines first
  have opened := day_name_length ((LogFile.init fileName splitLines first).afterCalls dates) date
  have length := congrArg List.length same
  rw [write_log_day _ date changed, init_file_length fileName splitLines date fits] at length
  dsimp only at length
  rw [dir, name] at opened
  omega

def nextDay : Date := { december.date with day := 6, in_month := by decide }

theorem midnight_name_differs_server :
    (((LogFile.init (ascii "ServerLog") 800000 december.date).afterCalls [december.date]).writeLog nextDay).file ≠
      (LogFile.init (ascii "ServerLog") 800000 nextDay).file :=
  midnight_name_differs (ascii "ServerLog") 800000 december.date nextDay [december.date] (by decide +kernel) (by decide +kernel)

theorem midnight_name_of_server :
    ((LogFile.init (ascii "ServerLog") 800000 december.date).writeLog nextDay).file ≠
        (LogFile.init (ascii "ServerLog") 800000 nextDay).file ∧
      ((LogFile.init (ascii "log/web") 800000 december.date).writeLog nextDay).file ≠
        (LogFile.init (ascii "log/web") 800000 nextDay).file := by
  decide +kernel

example : ((LogFile.init (ascii "log/web") 800000 december.date).writeLog nextDay).file = ascii "log/2024_12_06web" ∧
    (LogFile.init (ascii "log/web") 800000 nextDay).file = ascii "log/2024_12_06_web" := by
  decide +kernel

end Naming

section Letters

def underscore : UInt8 := 95
def dot : UInt8 := 46

theorem decimal_text_marks (n : Int) : underscore ∉ decimalText n ∧ dot ∉ decimalText n := by
  refine ⟨fun member => ?_, fun member => ?_⟩
  · rcases decimal_text_chars n _ member with digit | minus
    · exact absurd digit (by decide)
    · exact absurd minus (by decide)
  · rcases decimal_text_chars n _ member with digit | minus
    · exact absurd digit (by decide)
    · exact absurd minus (by decide)

theorem padded_marks (width n : Nat) : underscore ∉ padded width n ∧ dot ∉ padded width n :=
  ⟨fun member => absurd (padded_digits width n _ member) (by decide), fun member => absurd (padded_digits width n _ member) (by decide)⟩

theorem month_length (date : Date) : (padded 2 date.month).length = 2 := by
  have bound := date.in_year
  exact padded_length 2 date.month (by decide) (by omega)

theorem date_text_length (date : Date) : (dateText date).length ≤ 17 := by
  have year := year_length date
  have month := month_length date
  have day := padded_length 2 date.day (by decide) (by have := date.in_month; omega)
  have one : (ascii "_").length = 1 := by decide
  simp only [dateText, List.length_append, month, day, one]
  omega

theorem date_text_parts (date : Date) :
    dateText date = decimalText date.year ++ underscore :: (padded 2 date.month ++ underscore :: padded 2 date.day) := by
  have mark : ascii "_" = [underscore] := rfl
  simp only [dateText, mark, List.append_assoc, List.cons_append, List.nil_append]

-- The 15 characters of the array `tail` hold the year and the month of any date.
theorem tail_parts (date : Date) : tail date = decimalText date.year ++ underscore :: (padded 2 date.month ++
    underscore :: (padded 2 date.day).take (11 - (decimalText date.year).length)) := by
  have year := year_length date
  have month := month_length date
  obtain ⟨left, room⟩ := Nat.exists_eq_add_of_le year
  rw [tail, printed, date_text_parts, List.take_append, List.take_of_length_le (by omega),
    show 16 - 1 - (decimalText date.year).length = left + 2 + 1 + 1 by omega, List.take_succ_cons, List.take_append,
    List.take_of_length_le (by omega), month, show left + 2 + 1 - 2 = left + 1 by omega, List.take_succ_cons,
    show 11 - (decimalText date.year).length = left by omega]

theorem date_marks (date : Date) :
    (dateText date).count underscore = 2 ∧ (tail date).count underscore = 2 ∧ (tail date).count dot = 0 := by
  obtain ⟨year, yearDot⟩ := decimal_text_marks date.year
  obtain ⟨month, monthDot⟩ := padded_marks 2 date.month
  obtain ⟨day, dayDot⟩ := padded_marks 2 date.day
  have cut : ∀ count, underscore ∉ (padded 2 date.day).take count ∧ dot ∉ (padded 2 date.day).take count :=
    fun count => ⟨fun member => day (List.mem_of_mem_take member), fun member => dayDot (List.mem_of_mem_take member)⟩
  have apart : (underscore == dot) = false := by decide
  refine ⟨?_, ?_, ?_⟩
  · simp [date_text_parts, List.count_eq_zero.mpr year, List.count_eq_zero.mpr month, List.count_eq_zero.mpr day]
  · simp [tail_parts, List.count_eq_zero.mpr year, List.count_eq_zero.mpr month, List.count_eq_zero.mpr (cut _).1]
  · simp [tail_parts, List.count_cons, apart, List.count_eq_zero.mpr yearDot, List.count_eq_zero.mpr monthDot,
      List.count_eq_zero.mpr (cut _).2]

theorem months_apart : ∀ a ≤ 12, ∀ b ≤ 12, padded 2 a = padded 2 b → a = b := by decide +kernel

theorem tail_injective (a b : Date) (same : tail a = tail b) (day : a.day = b.day) : a = b := by
  rw [tail_parts, tail_parts] at same
  obtain ⟨years, rest⟩ := split_apart underscore _ _ _ _ (decimal_text_marks a.year).1 (decimal_text_marks b.year).1 same
  obtain ⟨months, _⟩ := split_apart underscore _ _ _ _ (padded_marks 2 a.month).1 (padded_marks 2 b.month).1 rest
  have year := decimal_text_injective _ _ years
  have month := months_apart _ a.in_year _ b.in_year months
  obtain ⟨_, _, _, _, _, _⟩ := a
  obtain ⟨_, _, _, _, _, _⟩ := b
  simp only at year month day
  subst year month day
  rfl

end Letters

-- What every rotation at the line limit opens: the suffix is m_count % m_split_lines.
def LogFile.zeroName (s : LogFile) (date : Date) : Text := s.dirName ++ (tail date ++ (s.logName ++ ascii ".0"))

def Date.rank (date : Date) : Int := (date.year * 13 + date.month) * 32 + date.day

structure Splitting where
  log : LogFile
  date : Date
  limits : List (Date × Text)
  records : List (Date × Text)

namespace Splitting

def start (log : LogFile) (date : Date) : Splitting := ⟨log, date, [], []⟩

def step (s : Splitting) (date : Date) : Splitting where
  log := s.log.writeLog date
  date := date
  limits := if s.log.Limited date then s.limits ++ [(date, (s.log.writeLog date).file)] else s.limits
  records := s.records ++ [(date, (s.log.writeLog date).file)]

end Splitting

-- Calls of write_log, whose dates do not go back.
def splitMachine : Machine Splitting Date Empty where
  guard := fun s date => s.date.rank ≤ date.rank
  effect := fun s date => .ok (s.step date)

instance (s : Splitting) (date : Date) : Decidable (splitMachine.guard s date) := inferInstanceAs (Decidable (_ ≤ _))

structure Split (s : Splitting) : Prop where
  distinct : s.limits.Pairwise fun a b => a.1 = b.1 → a.2 ≠ b.2
  bounded : ∀ entry, s.records.count entry ≤ s.log.splitLines

def Once (s : Splitting) (date : Date) : Prop := s.log.Limited date → ∀ rotation ∈ s.limits, rotation.1 ≠ date

structure Filed (s : Splitting) : Prop where
  today : s.log.today = s.date.day
  some_lines : 0 < s.log.splitLines
  room : s.log.dirName.length + s.log.logName.length ≤ 235
  recorded : ∀ entry ∈ s.records, entry.1.rank ≤ s.date.rank
  named : ∀ rotation ∈ s.limits, rotation.2 = s.log.zeroName rotation.1
  current : (∀ date, s.log.file ≠ s.log.zeroName date) ∨
    ∃ date, s.log.file = s.log.zeroName date ∧ date.day = s.log.today ∧ (date, s.log.zeroName date) ∈ s.limits
  listed : ∀ date, (date, s.log.zeroName date) ∈ s.records → (date, s.log.zeroName date) ∈ s.limits
  here : s.records.count (s.date, s.log.file) ≤ s.log.count % s.log.splitLines + 1
  split : Split s

section Names

theorem rank_injective (a b : Date) (same : a.rank = b.rank) : a = b := by
  have monthA := a.in_year
  have monthB := b.in_year
  have dayA := a.in_month
  have dayB := b.in_month
  simp only [Date.rank] at same
  have year : a.year = b.year := by omega
  have month : a.month = b.month := by omega
  have day : a.day = b.day := by omega
  obtain ⟨_, _, _, _, _, _⟩ := a
  obtain ⟨_, _, _, _, _, _⟩ := b
  simp only at year month day
  subst year month day
  rfl

theorem tail_length (date : Date) : (tail date).length ≤ 15 := by
  rw [tail, printed, List.length_take]
  omega

theorem zero_name_kept (s : LogFile) (date other : Date) : (s.writeLog date).zeroName other = s.zeroName other := by
  obtain ⟨dir, name, _⟩ := write_log_names s date
  rw [LogFile.zeroName, LogFile.zeroName, dir, name]

variable (s : LogFile) (room : s.dirName.length + s.logName.length ≤ 235)

theorem zero_name_injective (a b : Date) (same : s.zeroName a = s.zeroName b) (day : a.day = b.day) : a = b :=
  tail_injective a b (List.append_cancel_right (List.append_cancel_left same)) day

theorem zero_name_marks (date : Date) :
    (s.zeroName date).count underscore = s.dirName.count underscore + s.logName.count underscore + 2 ∧
      (s.zeroName date).count dot = s.dirName.count dot + s.logName.count dot + 1 := by
  obtain ⟨_, marks, dots⟩ := date_marks date
  have suffix : (ascii ".0").count underscore = 0 ∧ (ascii ".0").count dot = 1 := by decide
  simp only [LogFile.zeroName, List.count_append, marks, dots, suffix]
  omega

include room

theorem limit_name_zero (date : Date) (count : Nat) (zero : count % s.splitLines = 0) : s.limitName date count = s.zeroName date := by
  have short := tail_length date
  have suffix : ascii "." ++ decimalText ((0 : Nat) : Int) = ascii ".0" := by decide
  have two : (ascii ".0").length = 2 := by decide
  rw [LogFile.limitName, zero, printed, List.append_assoc, List.append_assoc, List.append_assoc, suffix,
    List.take_of_length_le (by simp only [List.length_append, two]; omega), LogFile.zeroName]

theorem day_name_apart (date other : Date) : s.dayName date ≠ s.zeroName other := by
  intro same
  have short := tail_length date
  obtain ⟨_, _, dots⟩ := date_marks date
  have marks := congrArg (List.count dot) same
  rw [(zero_name_marks s other).2, LogFile.dayName, printed,
    List.take_of_length_le (by simp only [List.length_append]; omega)] at marks
  simp only [List.count_append, dots] at marks
  omega

omit room in
theorem init_name_apart (fileName : Text) (splitLines : Nat) (first date : Date) (short : fileName.length ≤ 235) :
    (LogFile.init fileName splitLines first).file ≠ (LogFile.init fileName splitLines first).zeroName date := by
  intro same
  have length := date_text_length first
  have marks := congrArg (List.count underscore) same
  obtain ⟨dateMarks, _, _⟩ := date_marks first
  have one : (ascii "_").length = 1 ∧ (ascii "_").count underscore = 1 := by decide
  rw [(zero_name_marks _ date).1] at marks
  unfold LogFile.init printed at marks
  cases found : strrchr fileName slash with
  | none =>
      simp only [found] at marks
      rw [List.take_of_length_le (by simp only [List.length_append, one]; omega)] at marks
      simp only [List.count_append, List.count_nil, dateMarks, one] at marks
      omega
  | some p =>
      simp only [found] at marks
      rw [List.take_of_length_le (by simp only [List.length_append, List.length_take, List.length_drop, one]; omega)] at marks
      simp only [List.count_append, dateMarks, one] at marks
      omega

end Names

section Rotations

theorem later_none (s : Splitting) (filed : Filed s) (date : Date) (file : Text) (forward : s.date.rank ≤ date.rank)
    (new : s.date ≠ date) : s.records.count (date, file) = 0 := by
  refine List.count_eq_zero.mpr fun member => new ?_
  have backward : date.rank ≤ s.date.rank := filed.recorded _ member
  exact rank_injective _ _ (by omega)

theorem limits_step (s : Splitting) (date : Date)
    (fresh : s.log.Limited date → (s.log.writeLog date).file = s.log.zeroName date ∧ ∀ rotation ∈ s.limits, rotation.1 ≠ date) :
    (s.step date).limits = s.limits ∨
      (s.step date).limits = s.limits ++ [(date, s.log.zeroName date)] ∧ ∀ rotation ∈ s.limits, rotation.1 ≠ date := by
  dsimp only [Splitting.step]
  split
  · rename_i limited
    obtain ⟨opened, first⟩ := fresh limited
    exact .inr ⟨by rw [opened], first⟩
  · exact .inl rfl

theorem distinct_step (s : Splitting) (filed : Filed s) (date : Date)
    (limits : (s.step date).limits = s.limits ∨
      (s.step date).limits = s.limits ++ [(date, s.log.zeroName date)] ∧ ∀ rotation ∈ s.limits, rotation.1 ≠ date) :
    (s.step date).limits.Pairwise fun a b => a.1 = b.1 → a.2 ≠ b.2 := by
  rcases limits with same | ⟨more, first⟩
  · rw [same]
    exact filed.split.distinct
  · rw [more]
    refine List.pairwise_append.mpr ⟨filed.split.distinct, List.pairwise_singleton _ _, ?_⟩
    intro rotation member last new same
    rw [List.mem_singleton.mp new] at same
    exact absurd same (first rotation member)

theorem bounded_step (s : Splitting) (filed : Filed s) (date : Date)
    (here : s.records.count (date, (s.log.writeLog date).file) ≤ (s.log.writeLog date).count % s.log.splitLines)
    (entry : Date × Text) : (s.step date).records.count entry ≤ s.log.splitLines := by
  have bounded := filed.split.bounded entry
  have remainder := Nat.mod_lt (s.log.writeLog date).count filed.some_lines
  dsimp only [Splitting.step]
  rw [List.count_append, List.count_singleton]
  split
  · rename_i same
    rw [← eq_of_beq same]
    omega
  · omega

theorem filed_step (s : Splitting) (filed : Filed s) (date : Date) (forward : s.date.rank ≤ date.rank)
    (fresh : s.log.Limited date → (s.log.writeLog date).file = s.log.zeroName date ∧ ∀ rotation ∈ s.limits, rotation.1 ≠ date)
    (current : (∀ other, (s.log.writeLog date).file ≠ s.log.zeroName other) ∨ ∃ other,
      (s.log.writeLog date).file = s.log.zeroName other ∧ other.day = date.day ∧ (other, s.log.zeroName other) ∈ (s.step date).limits)
    (here : s.records.count (date, (s.log.writeLog date).file) ≤ (s.log.writeLog date).count % s.log.splitLines) :
    Filed (s.step date) := by
  obtain ⟨dir, name, lines⟩ := write_log_names s.log date
  have zero := zero_name_kept s.log date
  have today := write_log_today s.log date
  have limits := limits_step s date fresh
  refine { today := today, some_lines := lines.symm ▸ filed.some_lines, room := ?_, recorded := ?_, named := ?_, current := ?_,
           listed := ?_, here := ?_, split := ⟨distinct_step s filed date limits, fun entry => ?_⟩ }
  · dsimp only [Splitting.step]
    rw [dir, name]
    exact filed.room
  · intro entry member
    rcases List.mem_append.mp member with old | new
    · exact Int.le_trans (filed.recorded entry old) forward
    · rw [List.mem_singleton.mp new]
      exact Int.le_refl _
  · intro rotation member
    rw [show (s.step date).log.zeroName rotation.1 = s.log.zeroName rotation.1 from zero rotation.1]
    rcases limits with same | ⟨more, _⟩
    · exact filed.named rotation (same ▸ member)
    · rw [more] at member
      rcases List.mem_append.mp member with old | new
      · exact filed.named rotation old
      · rw [List.mem_singleton.mp new]
  · simp only [Splitting.step, zero, today] at current ⊢
    exact current
  · intro other member
    have member : (other, s.log.zeroName other) ∈ s.records ++ [(date, (s.log.writeLog date).file)] := zero other ▸ member
    rw [show (s.step date).log.zeroName other = s.log.zeroName other from zero other]
    rcases List.mem_append.mp member with old | new
    · rcases limits with same | ⟨more, _⟩
      · exact same.symm ▸ filed.listed other old
      · exact more.symm ▸ List.mem_append_left _ (filed.listed other old)
    · obtain ⟨rfl, file⟩ := Prod.mk.inj (List.mem_singleton.mp new)
      rcases current with never | ⟨opened, same, day, listed⟩
      · exact absurd file.symm (never other)
      · have whose := zero_name_injective s.log other opened (file.trans same) day.symm
        rwa [← whose] at listed
  · dsimp only [Splitting.step]
    rw [List.count_append, List.count_singleton_self, lines]
    omega
  · exact lines.symm ▸ bounded_step s filed date here entry

theorem filed_day (s : Splitting) (filed : Filed s) (date : Date) (forward : s.date.rank ≤ date.rank) (changed : s.log.today ≠ date.day) :
    Filed (s.step date) := by
  have opened := write_log_day s.log date changed
  have new : s.date ≠ date := by
    rintro rfl
    exact changed filed.today
  refine filed_step s filed date forward (fun limited => absurd limited.1 changed) (.inl fun other => ?_) ?_
  · rw [opened]
    exact day_name_apart s.log filed.room date other
  · rw [later_none s filed date _ forward new]
    exact Nat.zero_le _

theorem filed_limit (s : Splitting) (filed : Filed s) (date : Date) (forward : s.date.rank ≤ date.rank) (limited : s.log.Limited date)
    (first : ∀ rotation ∈ s.limits, rotation.1 ≠ date) : Filed (s.step date) := by
  have opened : (s.log.writeLog date).file = s.log.zeroName date := by
    rw [write_log_limit s.log date limited]
    exact limit_name_zero s.log filed.room date _ limited.2
  refine filed_step s filed date forward (fun _ => ⟨opened, first⟩) (.inr ⟨date, opened, rfl, ?_⟩) ?_
  · dsimp only [Splitting.step]
    rw [if_pos limited, opened]
    exact List.mem_append_right _ (List.mem_singleton_self _)
  · have none : s.records.count (date, (s.log.writeLog date).file) = 0 := by
      rw [opened]
      exact List.count_eq_zero.mpr fun member => first _ (filed.listed date member) rfl
    rw [none]
    exact Nat.zero_le _

theorem remainder_next (n k : Nat) (some_lines : 0 < k) (below : (n + 1) % k ≠ 0) : (n + 1) % k = n % k + 1 := by
  have remainder := Nat.mod_lt n some_lines
  rw [← Nat.mod_add_mod] at below ⊢
  have least : n % k + 1 ≠ k := by
    intro full
    rw [full, Nat.mod_self] at below
    exact below rfl
  exact Nat.mod_eq_of_lt (by omega)

theorem filed_plain (s : Splitting) (filed : Filed s) (date : Date) (forward : s.date.rank ≤ date.rank) (same : s.log.today = date.day)
    (below : (s.log.count + 1) % s.log.splitLines ≠ 0) : Filed (s.step date) := by
  have opened := write_log_plain s.log date same below
  have unlimited : ¬ s.log.Limited date := fun limited => below limited.2
  refine filed_step s filed date forward (fun limited => absurd limited unlimited) ?_ ?_
  · dsimp only [Splitting.step]
    rw [opened, if_neg unlimited, ← same]
    exact filed.current
  · rw [opened]
    dsimp only
    by_cases new : s.date = date
    · rw [remainder_next _ _ filed.some_lines below, ← new]
      exact filed.here
    · rw [later_none s filed date _ forward new]
      exact Nat.zero_le _

theorem filed_kept (s : Splitting) (date : Date) (next : Splitting) (filed : Filed s) (once : Once s date)
    (taken : Takes splitMachine s date next) : Filed next := by
  obtain ⟨forward, effect⟩ := taken
  rw [← Except.ok.inj effect]
  by_cases same : s.log.today = date.day
  · by_cases limit : (s.log.count + 1) % s.log.splitLines = 0
    · exact filed_limit s filed date forward ⟨same, limit⟩ (once ⟨same, limit⟩)
    · exact filed_plain s filed date forward same limit
  · exact filed_day s filed date forward same

theorem second_same (s : Splitting) (filed : Filed s) (date : Date) (again : ¬ Once s date) : ¬ Split (s.step date) := by
  intro split
  simp only [Once, Classical.not_imp, not_forall, not_not] at again
  obtain ⟨limited, rotation, member, day⟩ := again
  have distinct := split.distinct
  dsimp only [Splitting.step] at distinct
  rw [if_pos limited] at distinct
  refine (List.pairwise_append.mp distinct).2.2 rotation member _ (List.mem_singleton_self _) day ?_
  rw [write_log_limit s.log date limited, filed.named rotation member, day]
  exact (limit_name_zero s.log filed.room date _ limited.2).symm

theorem filed_start (fileName : Text) (splitLines : Nat) (first : Date) (some_lines : 0 < splitLines) (short : fileName.length ≤ 235) :
    Filed (Splitting.start (LogFile.init fileName splitLines first) first) where
  today := (init_today fileName splitLines first).1
  some_lines := (init_today fileName splitLines first).2.symm ▸ some_lines
  room := Nat.le_trans (init_names fileName splitLines first) short
  recorded := fun _ member => absurd member List.not_mem_nil
  named := fun _ member => absurd member List.not_mem_nil
  current := .inl fun date => init_name_apart fileName splitLines first date short
  listed := fun _ member => absurd member List.not_mem_nil
  here := Nat.zero_le _
  split := ⟨.nil, fun _ => Nat.zero_le _⟩

theorem rotations_distinct_iff (fileName : Text) (splitLines : Nat) (first : Date) (dates : List Date)
    (some_lines : 1 ≤ splitLines) (short : fileName.length ≤ 235) :
    Always splitMachine Split (Splitting.start (LogFile.init fileName splitLines first) first) dates ↔
      Along splitMachine Once (Splitting.start (LogFile.init fileName splitLines first) first) dates :=
  always_iff_along splitMachine Once Filed Split filed_kept
    (fun s date filed _ again => ⟨s.step date, rfl, second_same s filed date again⟩) (fun _ filed => filed.split) _ dates
    (filed_start fileName splitLines first some_lines short)

def twoLines : Splitting := Splitting.start (LogFile.init (ascii "ServerLog") 2 december.date) december.date

theorem rotations_distinct_iff_server :
    Always splitMachine Split twoLines [december.date, december.date, nextDay] ↔
      Along splitMachine Once twoLines [december.date, december.date, nextDay] :=
  rotations_distinct_iff (ascii "ServerLog") 2 december.date [december.date, december.date, nextDay] (by decide) (by decide)

theorem fourth_call_same_file :
    ¬ Always splitMachine Split twoLines [december.date, december.date, december.date, december.date] := by
  intro always
  have last := always_replay splitMachine Split _
    ((((twoLines.step december.date).step december.date).step december.date).step december.date) _ rfl always
  exact absurd last.distinct (by decide +kernel)

end Rotations

end WzyServer.Log
