import WzyServer.Base.Accesses
import WzyServer.Base.Decimal

set_option autoImplicit false

namespace WzyServer.Log

open CString Accesses

abbrev Text := List UInt8

-- What localtime makes of a day. tm_year is an int.
structure Date where
  year : Int
  month : Nat
  day : Nat
  int_year : -2 ^ 31 ≤ year ∧ year < 2 ^ 31
  in_year : month ≤ 12
  in_month : day ≤ 31
deriving DecidableEq, Repr

structure LocalTime where
  date : Date
  hour : Nat
  minute : Nat
  second : Nat
  microsecond : Nat
  in_day : hour < 24
  in_hour : minute < 60
  in_minute : second ≤ 60
  in_second : microsecond < 10 ^ 6

-- The cases for 2 and 3 have no break and run on into `default`.
def levelText (level : Int) : Text := if level = 0 then ascii "[debug]:" else ascii "[info]:"

def timeText (now : LocalTime) (level : Int) : Text :=
  decimalText now.date.year ++ ascii "-" ++ padded 2 now.date.month ++ ascii "-" ++ padded 2 now.date.day ++ ascii " " ++
    padded 2 now.hour ++ ascii ":" ++ padded 2 now.minute ++ ascii ":" ++ padded 2 now.second ++ ascii "." ++
    padded 6 now.microsecond ++ ascii " " ++ levelText level ++ ascii " "

-- m_buf behind the two prints and the last store, for a text that the caller's format
-- comes to. The '\n' is overwritten where it stands.
def writeBuffer (bufSize : Nat) (level : Int) (now : LocalTime) (message : Text) (memory : Memory) : Memory :=
  let n := (timeText now level).length
  let m := message.length
  let printed := vsnprintf (vsnprintf memory 0 48 (timeText now level)) n (bufSize - 1) message
  store (store printed (n + m) 10) (n + m) 0

def logString (bufSize : Nat) (level : Int) (now : LocalTime) (message : Text) (memory : Memory) : Text :=
  stringAt (writeBuffer bufSize level now message memory) 0 bufSize

def prints (start size : Nat) (text : Text) : List (Access Unit) := elements () start (min text.length (size - 1) + 1)

def writeTrace (bufSize : Nat) (level : Int) (now : LocalTime) (message : Text) : List (Access Unit) :=
  let n := (timeText now level).length
  let m := message.length
  let size := fun _ => bufSize
  before size (prints 0 48 (timeText now level))
    (before size (prints n (bufSize - 1) message) (before size [.element () (n + m)] [.element () (n + m)]))

theorem level_text_length (level : Int) : 7 ≤ (levelText level).length ∧ (levelText level).length ≤ 8 := by
  unfold levelText
  split <;> decide

theorem year_length (date : Date) : (decimalText date.year).length ≤ 11 :=
  decimal_text_length date.year 10 (by decide) (by have := date.int_year; omega) (by have := date.int_year; omega)

theorem time_text_length (now : LocalTime) (level : Int) :
    (timeText now level).length = (decimalText now.date.year).length + (levelText level).length + 24 := by
  have month := padded_length 2 now.date.month (by decide) (by have := now.date.in_year; omega)
  have day := padded_length 2 now.date.day (by decide) (by have := now.date.in_month; omega)
  have hour := padded_length 2 now.hour (by decide) (by have := now.in_day; omega)
  have minute := padded_length 2 now.minute (by decide) (by have := now.in_hour; omega)
  have second := padded_length 2 now.second (by decide) (by have := now.in_minute; omega)
  have microsecond := padded_length 6 now.microsecond (by decide) now.in_second
  have one : (ascii "-").length = 1 ∧ (ascii " ").length = 1 ∧ (ascii ":").length = 1 ∧ (ascii ".").length = 1 := by decide
  simp only [timeText, List.length_append, month, day, hour, minute, second, microsecond, one]
  omega

theorem safe_prints (bufSize start size : Nat) (text : Text) :
    Safe (fun _ => bufSize) (prints start size text) ↔ start + min text.length (size - 1) < bufSize := by
  rw [prints, safe_elements _ _ _ _ (Nat.succ_pos _)]
  omega

-- The bound of the second print does not know of the n bytes in front of it.
theorem safe_write_trace (bufSize : Nat) (level : Int) (now : LocalTime) (message : Text) (large : 64 ≤ bufSize) :
    Safe (fun _ => bufSize) (writeTrace bufSize level now message) ↔ (timeText now level).length + message.length < bufSize := by
  have year := year_length now.date
  have levels := level_text_length level
  have length := time_text_length now level
  simp only [writeTrace, safe_before, safe_prints, safe_element]
  omega

theorem write_log_safe_iff (bufSize : Nat) (level : Int) (now : LocalTime) (message : Text) (large : 64 ≤ bufSize) :
    Safe (fun _ => bufSize) (writeTrace bufSize level now message) ↔
      (decimalText now.date.year).length + (levelText level).length + 24 + message.length < bufSize := by
  rw [safe_write_trace bufSize level now message large, time_text_length]

theorem write_buffer_inside (bufSize : Nat) (level : Int) (now : LocalTime) (message : Text) (memory : Memory) (large : 64 ≤ bufSize)
    (safe : Safe (fun _ => bufSize) (writeTrace bufSize level now message)) (index : Nat) (behind : bufSize ≤ index) :
    writeBuffer bufSize level now message memory index = memory index := by
  have short := (safe_write_trace bufSize level now message large).mp safe
  have length := time_text_length now level
  have year := year_length now.date
  have levels := level_text_length level
  have printed : ∀ (memory : Memory) start size text, start + text.length < bufSize →
      vsnprintf memory start size text index = memory index := by
    intro memory start size text inside
    unfold vsnprintf
    split
    · rfl
    · refine write_after _ _ _ _ ?_
      simp only [List.length_append, List.length_take, List.length_singleton]
      omega
  rw [writeBuffer, store_elsewhere _ _ _ _ (by omega), store_elsewhere _ _ _ _ (by omega), printed _ _ _ _ (by omega),
    printed _ _ _ _ (by omega)]

def december : LocalTime where
  date := ⟨2024, 12, 5, by decide, by decide, by decide⟩
  hour := 23
  minute := 59
  second := 0
  microsecond := 120
  in_day := by decide
  in_hour := by decide
  in_minute := by decide
  in_second := by decide

example : timeText december 0 = ascii "2024-12-05 23:59:00.000120 [debug]: " := by decide +kernel

theorem write_log_safe_iff_short :
    Safe (fun _ => 64) (writeTrace 64 1 december (ascii "got a http line : GET\n")) ↔
      (decimalText december.date.year).length + (levelText 1).length + 24 + (ascii "got a http line : GET\n").length < 64 :=
  write_log_safe_iff 64 1 december (ascii "got a http line : GET\n") (by decide)

theorem long_line_leaves_buffer :
    ¬ Safe (fun _ => 2000) (writeTrace 2000 1 december (ascii "got a http line : " ++ List.replicate 1960 97 ++ ascii "\n")) := by
  decide +kernel

section Record

theorem time_text_chars (now : LocalTime) (level : Int) :
    ∀ c ∈ timeText now level, isDigit c = true ∨ c ∈ ascii "- :.[]debuginfo" := by
  have year : ∀ c ∈ decimalText now.date.year, isDigit c = true ∨ c ∈ ascii "- :.[]debuginfo" := by
    intro c member
    rcases decimal_text_chars _ c member with digit | rfl
    · exact .inl digit
    · exact .inr (by decide)
  have fields : ∀ width n, ∀ c ∈ padded width n, isDigit c = true ∨ c ∈ ascii "- :.[]debuginfo" :=
    fun width n c member => .inl (padded_digits width n c member)
  have levels : ∀ c ∈ levelText level, isDigit c = true ∨ c ∈ ascii "- :.[]debuginfo" := by
    unfold levelText
    split <;> decide +kernel
  have marks : ∀ c ∈ ascii "-" ++ ascii " " ++ ascii ":" ++ ascii ".", isDigit c = true ∨ c ∈ ascii "- :.[]debuginfo" := by
    decide +kernel
  simp only [List.forall_mem_append] at marks
  obtain ⟨⟨⟨dash, blank⟩, colon⟩, dot⟩ := marks
  simp only [timeText, List.forall_mem_append, and_assoc]
  exact ⟨year, dash, fields _ _, dash, fields _ _, blank, fields _ _, colon, fields _ _, colon, fields _ _, dot, fields _ _, blank,
    levels, blank⟩

theorem time_text_clean (now : LocalTime) (level : Int) : ∀ c ∈ timeText now level, c ≠ 0 := by
  rintro c member rfl
  exact absurd (time_text_chars now level 0 member) (by decide +kernel)

theorem log_string_whole (bufSize : Nat) (level : Int) (now : LocalTime) (message : Text) (memory : Memory)
    (clean : ∀ c ∈ message, c ≠ 0) (room : (timeText now level).length + message.length < bufSize) :
    logString bufSize level now message memory = timeText now level ++ message := by
  have year := year_length now.date
  have levels := level_text_length level
  have length := time_text_length now level
  have first : vsnprintf memory 0 48 (timeText now level) = write memory 0 (timeText now level ++ [0]) := by
    rw [vsnprintf, if_neg (by decide), List.take_of_length_le (by omega)]
  have second : vsnprintf (write memory 0 (timeText now level ++ [0])) (timeText now level).length (bufSize - 1) message =
      write (write memory 0 (timeText now level ++ [0])) (timeText now level).length (message ++ [0]) := by
    rw [vsnprintf, if_neg (by omega), List.take_of_length_le (by omega)]
  have behind := text_at_write (write memory 0 (timeText now level ++ [0])) (timeText now level).length message clean
  have front : ∀ offset (inside : offset < (timeText now level).length),
      write (write memory 0 (timeText now level ++ [0])) (timeText now level).length (message ++ [0]) (0 + offset) =
        (timeText now level)[offset] := by
    intro offset inside
    rw [write_before _ _ _ _ (by omega), write_inside _ _ _ _ (by simp; omega), List.getElem_append_left inside]
  have stored : writeBuffer bufSize level now message memory =
      write (write memory 0 (timeText now level ++ [0])) (timeText now level).length (message ++ [0]) := by
    rw [writeBuffer, first, second]
    exact store_again _ _ _ _ behind.nul.symm
  rw [logString, stored]
  exact text_at_string _ 0 _ bufSize
    (text_at_append _ 0 _ _ (time_text_clean now level) front (by rwa [Nat.zero_add])) (by rwa [List.length_append])

end Record

end WzyServer.Log
