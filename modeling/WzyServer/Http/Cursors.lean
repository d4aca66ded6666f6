import Mathlib.Logic.Relation
import WzyServer.Base.Run
import WzyServer.Http.Resume

set_option autoImplicit false

namespace WzyServer.Http

open Run CString

-- One turn of the loop of parse_line: the elements of m_read_buf that it reads and
-- writes, in order, and the status where the loop ends with it.
structure Turn where
  touched : List Nat
  status : Option LineStatus
  r : Request

def parseByte (r : Request) : Turn :=
  if r.checkIdx < r.readIdx then
    let temp := r.readBuf r.checkIdx
    if temp = carriageReturn then
      if r.checkIdx + 1 = r.readIdx then ⟨[r.checkIdx], some .lineOpen, r⟩
      else if r.readBuf (r.checkIdx + 1) = lineFeed then
        ⟨[r.checkIdx, r.checkIdx + 1, r.checkIdx, r.checkIdx + 1], some .lineOk, { r with
          readBuf := store (store r.readBuf r.checkIdx 0) (r.checkIdx + 1) 0, checkIdx := r.checkIdx + 2 }⟩
      else ⟨[r.checkIdx, r.checkIdx + 1], some .lineBad, r⟩
    else if temp = lineFeed then
      if 1 < r.checkIdx ∧ r.readBuf (r.checkIdx - 1) = carriageReturn then
        ⟨[r.checkIdx, r.checkIdx - 1, r.checkIdx - 1, r.checkIdx], some .lineOk, { r with
          readBuf := store (store r.readBuf (r.checkIdx - 1) 0) r.checkIdx 0, checkIdx := r.checkIdx + 1 }⟩
      else ⟨r.checkIdx :: (if 1 < r.checkIdx then [r.checkIdx - 1] else []), some .lineBad, r⟩
    else ⟨[r.checkIdx], none, { r with checkIdx := r.checkIdx + 1 }⟩
  else ⟨[], some .lineOpen, r⟩

-- Where a connection stands: outside process_read, with the outcome of its last call,
-- or inside, before the condition of its loop, before a turn of parse_line, at the
-- start of the loop's body, or at its switch.
inductive ReadPhase where
  | returned (outcome : Outcome)
  | condition (status : LineStatus)
  | scan
  | body
  | switch (text : Nat)
deriving DecidableEq, Repr

structure Reader where
  phase : ReadPhase
  r : Request

def switchOn (r : Request) (text : Nat) : Advance :=
  match r.checkState with
  | .requestLine => advanceWith .lineOk (parseRequestLine r text)
  | .header => advanceWith .lineOk (parseHeaders r text)
  | .connect => advanceWith .lineOpen (parseContent r text)

namespace Reader

def start (slot : Request) : Reader := ⟨.returned (.code .noRequest), slot.init⟩

def step (s : Reader) : Reader :=
  match s.phase with
  | .returned _ => s
  | .condition status => if s.r.checkState = .connect ∧ status = .lineOk then ⟨.body, s.r⟩ else ⟨.scan, s.r⟩
  | .scan =>
      let turn := parseByte s.r
      match turn.status with
      | none => ⟨.scan, turn.r⟩
      | some .lineOk => ⟨.body, turn.r⟩
      | some _ => ⟨.returned (.code .noRequest), turn.r⟩
  | .body => ⟨.switch s.r.startLine, beginLine s.r⟩
  | .switch text => match switchOn s.r text with
      | .again status next => ⟨.condition status, next⟩
      | .stop outcome final => ⟨.returned outcome, final⟩

def Returned (s : Reader) : Prop := ∃ outcome, s.phase = .returned outcome

def Steps (s t : Reader) : Prop := ¬ s.Returned ∧ s.step = t

end Reader

-- http_conn::init, bytes that recv delivers, a call of process_read, and its steps.
-- Only after NO_REQUEST does the connection go on without an init.
inductive ReaderLabel where
  | init
  | recv (bytes : List UInt8)
  | call
  | step
deriving DecidableEq, Repr

def readerMachine : Machine Reader ReaderLabel Empty where
  guard := fun s label => match label with
    | .init => s.Returned
    | .recv bytes => s.phase = .returned (.code .noRequest) ∧ s.r.readIdx + bytes.length ≤ readBufferSize
    | .call => s.phase = .returned (.code .noRequest)
    | .step => ¬ s.Returned
  effect := fun s label => match label with
    | .init => .ok ⟨.returned (.code .noRequest), s.r.init⟩
    | .recv bytes => .ok { s with r := s.r.feed bytes }
    | .call => .ok { s with phase := .condition .lineOk }
    | .step => .ok s.step

section Turns

inductive Turned (r : Request) : Turn → Prop where
  | ends (touched : List Nat) (inside : ∀ index ∈ touched, index < r.readIdx) (status : LineStatus) (notOk : status ≠ .lineOk) :
      Turned r ⟨touched, some status, r⟩
  | line (touched : List Nat) (inside : ∀ index ∈ touched, index < r.readIdx) (memory : Memory) (index : Nat)
      (lower : r.checkIdx < index) (upper : index ≤ r.readIdx) :
      Turned r ⟨touched, some .lineOk, { r with readBuf := memory, checkIdx := index }⟩
  | goes (touched : List Nat) (inside : ∀ index ∈ touched, index < r.readIdx) (unread : r.checkIdx < r.readIdx) :
      Turned r ⟨touched, none, { r with checkIdx := r.checkIdx + 1 }⟩

theorem parse_byte_turned (r : Request) : Turned r (parseByte r) := by
  unfold parseByte
  by_cases unread : r.checkIdx < r.readIdx
  · simp only [if_pos unread]
    by_cases isReturn : r.readBuf r.checkIdx = carriageReturn
    · simp only [if_pos isReturn]
      by_cases last : r.checkIdx + 1 = r.readIdx
      · simp only [if_pos last]
        exact .ends _ (by simpa using unread) .lineOpen (by decide)
      · simp only [if_neg last]
        have next : r.checkIdx + 1 < r.readIdx := by omega
        by_cases feed : r.readBuf (r.checkIdx + 1) = lineFeed
        · simp only [if_pos feed]
          exact .line _ (by simp [unread, next]) _ (r.checkIdx + 2) (by omega) (by omega)
        · simp only [if_neg feed]
          exact .ends _ (by simp [unread, next]) .lineBad (by decide)
    · simp only [if_neg isReturn]
      have previous : r.checkIdx - 1 < r.readIdx := by omega
      by_cases isFeed : r.readBuf r.checkIdx = lineFeed
      · simp only [if_pos isFeed]
        by_cases after : 1 < r.checkIdx ∧ r.readBuf (r.checkIdx - 1) = carriageReturn
        · simp only [if_pos after]
          exact .line _ (by simp [unread, previous]) _ (r.checkIdx + 1) (by omega) (by omega)
        · simp only [if_neg after]
          refine .ends _ ?_ .lineBad (by decide)
          split <;> simp [unread, previous]
      · simp only [if_neg isFeed]
        exact .goes _ (by simpa using unread) unread
  · simp only [if_neg unread]
    exact .ends [] (fun _ member => absurd member List.not_mem_nil) .lineOpen (by decide)

theorem parse_byte_touched (r : Request) (index : Nat) (member : index ∈ (parseByte r).touched) : index < r.readIdx := by
  have turned := parse_byte_turned r
  generalize parseByte r = turn at turned member
  cases turned with
  | ends touched inside => exact inside index member
  | line touched inside => exact inside index member
  | goes touched inside => exact inside index member

theorem parse_line_turn (r : Request) (check : r.checkIdx ≤ r.readIdx) : parseLine r =
    match (parseByte r).status with
    | some status => (status, (parseByte r).r)
    | none => parseLine (parseByte r).r := by
  by_cases unread : r.checkIdx < r.readIdx
  · have count : r.readIdx - r.checkIdx = r.readIdx - (r.checkIdx + 1) + 1 := by omega
    rw [parseLine, count, parseLineFrom, parseByte, if_pos unread]
    dsimp only
    split
    · split
      · rfl
      · split <;> rfl
    · split
      · split <;> rfl
      · rfl
  · have none : r.readIdx - r.checkIdx = 0 := by omega
    rw [parseLine, none, parseLineFrom, parseByte, if_neg unread]

end Turns

section Steps

theorem switch_on_kept (r : Request) (text : Nat) : Kept r (switchOn r text).request := by
  unfold switchOn
  cases r.checkState with
  | requestLine => simpa using parse_request_line_kept r text
  | header => simpa using parse_headers_kept r text
  | connect => simpa using parse_content_kept r text

theorem switch_on_advance (r : Request) : switchOn (beginLine r) r.startLine = advance r := by
  unfold switchOn advance beginLine
  cases r.checkState <;> rfl

theorem switch_on_body (r next : Request) (text : Nat) (status : LineStatus) (body : r.checkState = .connect)
    (again : switchOn r text = .again status next) : status = .lineOpen := by
  rw [switchOn, body] at again
  exact (advance_with_again _ _ _ _ again).1

inductive Stepped : Reader → Reader → Prop where
  | rests (outcome : Outcome) (r : Request) : Stepped ⟨.returned outcome, r⟩ ⟨.returned outcome, r⟩
  | resumes (r : Request) (body : r.checkState = .connect) : Stepped ⟨.condition .lineOk, r⟩ ⟨.body, r⟩
  | scans (status : LineStatus) (r : Request) : Stepped ⟨.condition status, r⟩ ⟨.scan, r⟩
  | leaves (r : Request) : Stepped ⟨.scan, r⟩ ⟨.returned (.code .noRequest), r⟩
  | line (r : Request) (memory : Memory) (index : Nat) (lower : r.checkIdx < index) (upper : index ≤ r.readIdx) :
      Stepped ⟨.scan, r⟩ ⟨.body, { r with readBuf := memory, checkIdx := index }⟩
  | byte (r : Request) (unread : r.checkIdx < r.readIdx) : Stepped ⟨.scan, r⟩ ⟨.scan, { r with checkIdx := r.checkIdx + 1 }⟩
  | begins (r : Request) : Stepped ⟨.body, r⟩ ⟨.switch r.startLine, beginLine r⟩
  | again (text : Nat) (r next : Request) (status : LineStatus) (kept : Kept r next)
      (body : r.checkState = .connect → status = .lineOpen) : Stepped ⟨.switch text, r⟩ ⟨.condition status, next⟩
  | stops (text : Nat) (r final : Request) (outcome : Outcome) (kept : Kept r final) :
      Stepped ⟨.switch text, r⟩ ⟨.returned outcome, final⟩

theorem scan_stepped (r : Request) : Stepped ⟨.scan, r⟩ (Reader.step ⟨.scan, r⟩) := by
  have turned := parse_byte_turned r
  unfold Reader.step
  generalize parseByte r = turn at turned
  cases turned with
  | ends touched inside status notOk =>
      cases status with
      | lineOk => exact absurd rfl notOk
      | lineBad => exact .leaves r
      | lineOpen => exact .leaves r
  | line touched inside memory index lower upper => exact .line r memory index lower upper
  | goes touched inside unread => exact .byte r unread

theorem step_stepped (s : Reader) : Stepped s s.step := by
  obtain ⟨phase, r⟩ := s
  cases phase with
  | returned outcome => exact .rests outcome r
  | condition status =>
      unfold Reader.step
      dsimp only
      by_cases body : r.checkState = .connect ∧ status = .lineOk
      · rw [if_pos body, body.2]
        exact .resumes r body.1
      · rw [if_neg body]
        exact .scans status r
  | scan => exact scan_stepped r
  | body => exact .begins r
  | switch text =>
      have kept := switch_on_kept r text
      simp only [Reader.step]
      cases switched : switchOn r text with
      | again status next =>
          rw [switched] at kept
          exact .again text r next status kept fun body => switch_on_body r next text status body switched
      | stop outcome final =>
          rw [switched] at kept
          exact .stops text r final outcome kept

theorem kept_cursors (r next : Request) (kept : Kept r next) (ordered : Ordered r) :
    Ordered next ∧ r.checkIdx ≤ next.checkIdx ∧ next.readIdx = r.readIdx := by
  refine ⟨⟨?_, ?_⟩, kept.checkIdx.ge, kept.readIdx⟩
  · rw [kept.startLine, kept.checkIdx]
    exact ordered.start
  · rw [kept.checkIdx, kept.readIdx]
    exact ordered.check

theorem stepped_cursors (s t : Reader) (stepped : Stepped s t) (ordered : Ordered s.r) :
    Ordered t.r ∧ s.r.checkIdx ≤ t.r.checkIdx ∧ t.r.readIdx = s.r.readIdx := by
  have begun := ordered.start
  cases stepped with
  | line r memory index lower upper =>
      exact ⟨⟨Nat.le_trans begun (Nat.le_of_lt lower), upper⟩, Nat.le_of_lt lower, rfl⟩
  | byte r unread => exact ⟨⟨Nat.le_succ_of_le begun, unread⟩, Nat.le_succ _, rfl⟩
  | begins r => exact ⟨⟨Nat.le_refl _, ordered.check⟩, Nat.le_refl _, rfl⟩
  | again text r next status kept body => exact kept_cursors r next kept ordered
  | stops text r final outcome kept => exact kept_cursors r final kept ordered
  | _ => exact ⟨ordered, Nat.le_refl _, rfl⟩

-- Eight for every byte to come; what is left orders the phases, and a body already
-- begun behind the lines, because its round looks for no line.
def Reader.work (s : Reader) : Nat :=
  let unread := 8 * (s.r.readIdx - s.r.checkIdx)
  match s.phase with
  | .returned _ => 0
  | .scan => unread + 1
  | .condition status => unread + if status = .lineOk then 5 else 2
  | .switch _ => unread + if s.r.checkState = .connect then 3 else 6
  | .body => unread + if s.r.checkState = .connect then 4 else 7

theorem stepped_decreases (s t : Reader) (stepped : Stepped s t) (running : ¬ s.Returned) : t.work < s.work := by
  cases stepped with
  | rests outcome r => exact absurd ⟨outcome, rfl⟩ running
  | resumes r body =>
      simp only [Reader.work, body, if_true]
      omega
  | scans status r =>
      simp only [Reader.work]
      split <;> omega
  | leaves r => exact Nat.succ_pos _
  | line r memory index lower upper =>
      simp only [Reader.work]
      split <;> omega
  | byte r unread =>
      simp only [Reader.work]
      omega
  | begins r =>
      have here : Reader.work ⟨.body, r⟩ = 8 * (r.readIdx - r.checkIdx) + if r.checkState = .connect then 4 else 7 := rfl
      have next : Reader.work ⟨.switch r.startLine, beginLine r⟩ =
          8 * (r.readIdx - r.checkIdx) + if r.checkState = .connect then 3 else 6 := rfl
      rw [here, next]
      split <;> omega
  | again text r next status kept body =>
      -- A body that is not complete leaves LINE_OPEN behind, so the next round scans.
      simp only [Reader.work, kept.readIdx, kept.checkIdx]
      by_cases connect : r.checkState = .connect
      · rw [body connect, if_pos connect, if_neg (by decide)]
        omega
      · rw [if_neg connect]
        split <;> omega
  | stops text r final outcome kept =>
      simp only [Reader.work]
      split <;> omega

def Reader.Returns (s : Reader) : Prop := ∃ t, Relation.ReflTransGen Reader.Steps s t ∧ t.Returned

theorem reader_returns (s : Reader) (ordered : Ordered s.r) : s.Returns := by
  generalize measure : s.work = work
  induction work using Nat.strong_induction_on generalizing s with
  | _ work ih =>
      by_cases done : s.Returned
      · exact ⟨s, .refl, done⟩
      · have smaller := stepped_decreases s s.step (step_stepped s) done
        obtain ⟨t, run, returned⟩ := ih s.step.work (by omega) s.step (stepped_cursors s s.step (step_stepped s) ordered).1 rfl
        exact ⟨t, .head ⟨done, rfl⟩ run, returned⟩

structure CursorsOrdered (s : Reader) : Prop where
  start : s.r.startLine ≤ s.r.checkIdx
  check : s.r.checkIdx ≤ s.r.readIdx
  read : s.r.readIdx ≤ readBufferSize
  returns : s.Returns

structure GoesForward (s : Reader) (label : ReaderLabel) : Prop where
  touched : label = .step → s.phase = .scan → ∀ index ∈ (parseByte s.r).touched, index < s.r.readIdx
  forward : label ≠ .init → ∀ t, readerMachine.effect s label = .ok t → s.r.checkIdx ≤ t.r.checkIdx

structure Bounded (s : Reader) : Prop where
  ordered : Ordered s.r
  read : s.r.readIdx ≤ readBufferSize

theorem bounded_step (s : Reader) (label : ReaderLabel) (t : Reader) (inv : Bounded s) (taken : Takes readerMachine s label t) : Bounded t := by
  obtain ⟨offered, ok⟩ := taken
  cases label with
  | init =>
      cases ok
      exact ⟨init_ordered s.r, Nat.zero_le _⟩
  | recv bytes =>
      cases ok
      exact ⟨feed_ordered s.r bytes inv.ordered, offered.2⟩
  | call =>
      cases ok
      exact ⟨inv.ordered, inv.read⟩
  | step =>
      cases ok
      obtain ⟨ordered, _, readSame⟩ := stepped_cursors s s.step (step_stepped s) inv.ordered
      exact ⟨ordered, readSame.trans_le inv.read⟩

theorem bounded_forward (s : Reader) (label : ReaderLabel) (inv : Bounded s) : GoesForward s label := by
  refine ⟨fun _ _ => parse_byte_touched s.r, fun moving t ok => ?_⟩
  cases label with
  | init => exact absurd rfl moving
  | step =>
      cases ok
      exact (stepped_cursors s s.step (step_stepped s) inv.ordered).2.1
  | _ =>
      cases ok
      exact Nat.le_refl _

theorem cursors_ordered (slot : Request) (labels : List ReaderLabel) :
    Always readerMachine CursorsOrdered (.start slot) labels ∧ Along readerMachine GoesForward (.start slot) labels := by
  have start : Bounded (.start slot) := ⟨init_ordered slot, Nat.zero_le _⟩
  constructor
  · refine always_mono _ _ _ ?_ _ labels (always_invariant _ _ bounded_step _ labels start)
    exact fun s inv => ⟨inv.ordered.start, inv.ordered.check, inv.read, reader_returns s inv.ordered⟩
  · exact along_of_invariant _ _ _ bounded_step (fun s label inv _ => bounded_forward s label inv) _ labels start

theorem scan_run (r : Request) (ordered : Ordered r) : Relation.ReflTransGen Reader.Steps ⟨.scan, r⟩
    (if (parseLine r).1 = .lineOk then ⟨.body, (parseLine r).2⟩ else ⟨.returned (.code .noRequest), (parseLine r).2⟩) := by
  generalize measure : r.readIdx - r.checkIdx = unread
  induction unread using Nat.strong_induction_on generalizing r with
  | _ unread ih =>
      have scanning : ¬ Reader.Returned ⟨.scan, r⟩ := by
        rintro ⟨outcome, phase⟩
        cases phase
      have stepped : Reader.Steps ⟨.scan, r⟩ (Reader.step ⟨.scan, r⟩) := ⟨scanning, rfl⟩
      have turned := parse_byte_turned r
      rw [parse_line_turn r ordered.check]
      unfold Reader.step at stepped
      generalize parseByte r = turn at turned stepped
      cases turned with
      | ends touched inside status notOk =>
          dsimp only at stepped ⊢
          rw [if_neg notOk]
          cases status with
          | lineOk => exact absurd rfl notOk
          | lineBad => exact .single stepped
          | lineOpen => exact .single stepped
      | line touched inside memory index lower upper => exact .single stepped
      | goes touched inside unscanned =>
          refine .head stepped (ih _ ?_ _ ⟨Nat.le_succ_of_le ordered.start, unscanned⟩ rfl)
          dsimp only
          omega

theorem condition_run (status : LineStatus) (r : Request) (ordered : Ordered r) :
    Relation.ReflTransGen Reader.Steps ⟨.condition status, r⟩ (if (nextLine status r).1 = .lineOk then ⟨.body, (nextLine status r).2⟩
      else ⟨.returned (.code .noRequest), (nextLine status r).2⟩) := by
  have deciding : ¬ Reader.Returned ⟨.condition status, r⟩ := by
    rintro ⟨outcome, phase⟩
    cases phase
  unfold nextLine
  by_cases body : r.checkState = .connect ∧ status = .lineOk
  · rw [if_pos body]
    exact .single ⟨deciding, if_pos body⟩
  · rw [if_neg body]
    exact .head ⟨deciding, if_neg body⟩ (scan_run r ordered)

theorem body_run (r : Request) : Relation.ReflTransGen Reader.Steps ⟨.body, r⟩
    (match advance r with
      | .again status next => ⟨.condition status, next⟩
      | .stop outcome final => ⟨.returned outcome, final⟩) := by
  have begins : Reader.Steps ⟨.body, r⟩ ⟨.switch r.startLine, beginLine r⟩ := by
    refine ⟨?_, rfl⟩
    rintro ⟨outcome, phase⟩
    cases phase
  have switches : Reader.Steps ⟨.switch r.startLine, beginLine r⟩ (Reader.step ⟨.switch r.startLine, beginLine r⟩) := by
    refine ⟨?_, rfl⟩
    rintro ⟨outcome, phase⟩
    cases phase
  unfold Reader.step at switches
  dsimp only at switches
  rw [switch_on_advance] at switches
  exact .head begins (.single switches)

theorem process_read_run (status : LineStatus) (r : Request) (ordered : Ordered r) :
    Relation.ReflTransGen Reader.Steps ⟨.condition status, r⟩
      ⟨.returned (processReadLoop status r).1, (processReadLoop status r).2⟩ := by
  apply loop_induction (fun after s => Relation.ReflTransGen Reader.Steps ⟨.condition status, r⟩ ⟨.condition after, s⟩)
    (fun result => Relation.ReflTransGen Reader.Steps ⟨.condition status, r⟩ ⟨.returned result.1, result.2⟩)
  · intro before s after next sOrdered run ok again
    have found := condition_run before s sOrdered
    have advanced := body_run (nextLine before s).2
    rw [if_pos ok] at found
    rw [again] at advanced
    exact (run.trans found).trans advanced
  · intro before s sOrdered run pending
    have found := condition_run before s sOrdered
    rw [if_neg pending] at found
    exact run.trans found
  · intro before s outcome final sOrdered run ok stopped
    have found := condition_run before s sOrdered
    have advanced := body_run (nextLine before s).2
    rw [if_pos ok] at found
    rw [stopped] at advanced
    exact (run.trans found).trans advanced
  · exact ordered
  · exact .refl

end Steps

end WzyServer.Http
