import Mathlib.Data.List.Induction
import WzyServer.Http.Lines
import WzyServer.Http.Segmentation

set_option autoImplicit false

namespace WzyServer.Http

open CString Chunks Word

-- The request line and the header lines of a POST, each ended by CR LF: the
-- parser, given them alone, accepts them all and waits for the next header line.
structure PostHead (slot : Request) (head : List UInt8) (length : Nat) : Prop where
  waiting : (parseRead (slot.init.feed head)).1 = .code .noRequest
  header : (parseRead (slot.init.feed head)).2.checkState = .header
  lineStart : (parseRead (slot.init.feed head)).2.startLine = head.length
  post : (parseRead (slot.init.feed head)).2.method = .post
  declared : (parseRead (slot.init.feed head)).2.contentLength = length

def bodyStart (slot : Request) (head : List UInt8) : Request :=
  let r := ((parseRead (slot.init.feed head)).2.feed lineEnd)
  { r with
    readBuf := store (store r.readBuf head.length 0) (head.length + 1) 0,
    checkIdx := head.length + 2, startLine := head.length + 2, checkState := .connect }

theorem head_cursors (slot : Request) (head : List UInt8) (length : Nat) (post : PostHead slot head length) :
    (parseRead (slot.init.feed head)).2.checkIdx = head.length ∧
      (parseRead (slot.init.feed head)).2.readIdx = head.length := by
  have lineStart := post.lineStart
  obtain ⟨readSame, _, start, check⟩ := loop_cursors .lineOk (slot.init.feed head) (feed_ordered _ head (init_ordered slot))
  have received : (slot.init.feed head).readIdx = head.length := by simp [Request.init]
  change (parseRead (slot.init.feed head)).2.readIdx = _ at readSame
  change (parseRead (slot.init.feed head)).2.startLine ≤ (parseRead (slot.init.feed head)).2.checkIdx at start
  change (parseRead (slot.init.feed head)).2.checkIdx ≤ (parseRead (slot.init.feed head)).2.readIdx at check
  constructor <;> omega

theorem head_resumes (slot : Request) (head : List UInt8) (length : Nat) (post : PostHead slot head length)
    (more : List UInt8) :
    parseRead (slot.init.feed (head ++ more)) = parseRead ((parseRead (slot.init.feed head)).2.feed more) := by
  have notBody : (parseRead (slot.init.feed head)).2.checkState ≠ .connect := by simp [post.header]
  rw [Request.feed_append, parse_read_feed _ more (feed_ordered _ head (init_ordered slot)) notBody, if_pos post.waiting]

theorem head_at_line (slot : Request) (head : List UInt8) (length : Nat) (post : PostHead slot head length) :
    AtLine (parseRead (slot.init.feed head)).2 := by
  obtain ⟨check, read⟩ := head_cursors slot head length post
  exact ⟨check.trans read.symm, post.lineStart.trans read.symm⟩

theorem body_announced (r : Request) (text : Nat) (nul : r.readBuf text = 0) (some_body : r.contentLength ≠ 0) :
    parseHeaders r text = (.code .noRequest, { r with checkState := .connect }) := by
  unfold parseHeaders
  dsimp only
  rw [if_pos nul, if_pos some_body]

theorem blank_line_advances (slot : Request) (head : List UInt8) (length : Nat) (positive : 0 < length)
    (post : PostHead slot head length) :
    advance (lineFound ((parseRead (slot.init.feed head)).2.feed lineEnd) []) = .again .lineOk (bodyStart slot head) := by
  obtain ⟨check, read⟩ := head_cursors slot head length post
  have nul := (line_found_text _ [] (head_at_line slot head length post) fun c member => absurd member List.not_mem_nil).nul
  have lineStart := post.lineStart
  have header := post.header
  have declared := post.declared
  unfold bodyStart
  rw [List.nil_append, read] at nul
  generalize (parseRead (slot.init.feed head)).2 = start at check read lineStart header declared nul ⊢
  have state : (lineFound (start.feed lineEnd) []).checkState = .header := header
  have text : (lineFound (start.feed lineEnd) []).startLine = head.length := lineStart
  have some_body : (lineFound (start.feed lineEnd) []).contentLength ≠ 0 := by
    change start.contentLength ≠ 0
    rw [declared]
    omega
  simp only [advance, state, text, body_announced (beginLine (lineFound (start.feed lineEnd) [])) head.length nul some_body]
  simp only [advanceWith, beginLine, lineFound, Request.feed_check_idx, check, List.length_nil, Nat.add_zero]

theorem blank_line_reached (slot : Request) (head : List UInt8) (length : Nat) (positive : 0 < length)
    (post : PostHead slot head length) (body : List UInt8) :
    parseRead (slot.init.feed (head ++ (lineEnd ++ body))) = parseRead ((bodyStart slot head).feed body) := by
  rw [head_resumes slot head length post]
  have at_line := head_at_line slot head length post
  have outside : (parseRead (slot.init.feed head)).2.checkState ≠ .connect := by simp [post.header]
  have advanced := blank_line_advances slot head length positive post
  generalize (parseRead (slot.init.feed head)).2 = start at at_line outside advanced ⊢
  have ordered := feed_ordered start lineEnd (at_line_ordered start at_line)
  have found : parseLine (start.feed lineEnd) = (.lineOk, lineFound (start.feed lineEnd) []) :=
    parse_line_received start [] at_line fun c member => absurd member List.not_mem_nil
  have line : parseLine (start.feed (lineEnd ++ body)) = (.lineOk, (lineFound (start.feed lineEnd) []).feed body) := by
    rw [Request.feed_append, parse_line_feed _ body ordered.check, if_neg (by simp [found]), found]
  have next := complete_line_feed (start.feed lineEnd) body ordered outside (by rw [found])
  rw [found, advanced] at next
  rw [parseRead, process_read_loop_step .lineOk _ (feed_ordered start _ (at_line_ordered start at_line)),
    next_line_outside .lineOk (start.feed (lineEnd ++ body)) outside, line]
  simp only [if_true, next]
  rfl

section Scanner

structure Ahead (r : Request) (part : List UInt8) : Prop where
  whole : r.readIdx = r.checkIdx + part.length
  bytes : ∀ offset (inside : offset < part.length), r.readBuf (r.checkIdx + offset) = part[offset]
  before : r.checkIdx ≠ 0 → r.readBuf (r.checkIdx - 1) ≠ carriageReturn

-- What of the body has been received leaves parse_line where the body begins.
def ScannerStays (part : List UInt8) : Prop :=
  part = [] ∨ part[0]? = some lineFeed ∨ (part[0]? = some carriageReturn ∧ part[1]? ≠ some lineFeed)

instance (part : List UInt8) : Decidable (ScannerStays part) :=
  inferInstanceAs (Decidable (part = [] ∨ part[0]? = some lineFeed ∨ (part[0]? = some carriageReturn ∧ part[1]? ≠ some lineFeed)))

def holdsLine : List UInt8 → Bool
  | [] => false
  | c :: rest => if c = carriageReturn then rest.head? = some lineFeed else if c = lineFeed then false else holdsLine rest

theorem stays_no_line (part : List UInt8) (stays : ScannerStays part) : holdsLine part = false := by
  have different : ¬ lineFeed = carriageReturn := by decide
  cases part with
  | nil => rfl
  | cons first rest =>
      rcases stays with nothing | lf | ⟨cr, notLf⟩
      · cases nothing
      · cases Option.some.inj lf
        simp [holdsLine, different]
      · cases Option.some.inj cr
        cases rest with
        | nil => rfl
        | cons second rest => simpa [holdsLine] using notLf

variable (r : Request) (part : List UInt8) (ahead : Ahead r part)

include ahead

theorem scanner_stays (stays : ScannerStays part) : (parseLine r).1 ≠ .lineOk ∧ (parseLine r).2 = r := by
  obtain ⟨whole, bytes, before⟩ := ahead
  rw [parseLine, show r.readIdx - r.checkIdx = part.length by omega]
  cases part with
  | nil => simp [parseLineFrom]
  | cons first rest =>
      have here := bytes 0 (by simp)
      simp only [Nat.add_zero, List.getElem_cons_zero] at here
      rcases stays with nothing | lf | ⟨cr, notLf⟩
      · simp at nothing
      · simp only [List.getElem?_cons_zero, Option.some.injEq] at lf
        have alone : ¬ (1 < r.checkIdx ∧ r.readBuf (r.checkIdx - 1) = carriageReturn) := fun found => before (by omega) found.2
        have different : ¬ lineFeed = carriageReturn := by decide
        simp [parseLineFrom, here, lf, alone, different]
      · simp only [List.getElem?_cons_zero, Option.some.injEq] at cr
        simp only [List.length_cons, parseLineFrom, here, cr, if_true]
        cases rest with
        | nil => simp [whole]
        | cons second rest =>
            have next := bytes 1 (by simp)
            have different : r.readBuf (r.checkIdx + 1) ≠ lineFeed := by
              rw [next]
              simpa using notLf
            have notLast : ¬ r.checkIdx + 1 = r.readIdx := by
              simp only [whole, List.length_cons]
              omega
            simp [if_neg notLast, if_neg different]

theorem scanner_moves (moves : ¬ ScannerStays part) : r.checkIdx < (parseLine r).2.checkIdx := by
  obtain ⟨whole, bytes, _⟩ := ahead
  rw [parseLine, show r.readIdx - r.checkIdx = part.length by omega]
  unfold ScannerStays at moves
  cases part with
  | nil => simp at moves
  | cons first rest =>
      have here := bytes 0 (by simp)
      simp only [Nat.add_zero, List.getElem_cons_zero] at here
      simp only [List.getElem?_cons_zero, Option.some.injEq, not_or, not_and, not_not] at moves
      obtain ⟨_, notLf, crLf⟩ := moves
      by_cases cr : first = carriageReturn
      · cases rest with
        | nil => simpa using crLf cr
        | cons second rest =>
            have next := bytes 1 (by simp)
            have lf : r.readBuf (r.checkIdx + 1) = lineFeed := by
              rw [next]
              simpa using crLf cr
            have notLast : ¬ r.checkIdx + 1 = r.readIdx := by
              simp only [whole, List.length_cons]
              omega
            simp [parseLineFrom, here, cr, lf, notLast]
      · rw [List.length_cons, parse_line_from_skip rest.length r (by rwa [here]) (by rwa [here])]
        have fits : r.checkIdx + 1 + rest.length = r.readIdx := by
          simp only [whole, List.length_cons]
          omega
        rcases parse_line_from_cases rest.length { r with checkIdx := r.checkIdx + 1 } fits with
          ⟨_, _, index, lower, _, result⟩ | ⟨stop, lower, _, result⟩
        · rw [result]
          simp only at lower ⊢
          omega
        · rw [result]
          simp only at lower ⊢
          omega

theorem parse_line_ok_iff : (parseLine r).1 = .lineOk ↔ holdsLine part = true := by
  obtain ⟨whole, bytes, before⟩ := ahead
  rw [parseLine, show r.readIdx - r.checkIdx = part.length by omega]
  induction part generalizing r with
  | nil => simp [parseLineFrom, holdsLine]
  | cons first rest ih =>
      have here := bytes 0 (by simp)
      simp only [Nat.add_zero, List.getElem_cons_zero] at here
      rw [List.length_cons] at whole ⊢
      by_cases cr : first = carriageReturn
      · cases rest with
        | nil =>
            have last : r.checkIdx + 1 = r.readIdx := whole.symm
            simp [parseLineFrom, holdsLine, here, cr, last]
        | cons second rest =>
            have next := bytes 1 (by simp)
            simp only [List.getElem_cons_succ, List.getElem_cons_zero] at next
            have notLast : ¬ r.checkIdx + 1 = r.readIdx := by
              rw [whole, List.length_cons]
              omega
            by_cases lf : second = lineFeed
            · simp [parseLineFrom, holdsLine, here, cr, notLast, next, lf]
            · simp [parseLineFrom, holdsLine, here, cr, notLast, next, lf]
      · by_cases lf : first = lineFeed
        · have alone : ¬ (1 < r.checkIdx ∧ r.readBuf (r.checkIdx - 1) = carriageReturn) := fun found => before (by omega) found.2
          simp [parseLineFrom, holdsLine, here, lf, alone, show lineFeed ≠ carriageReturn by decide]
        · rw [parse_line_from_skip rest.length r (by rwa [here]) (by rwa [here]), holdsLine, if_neg cr, if_neg lf]
          refine ih { r with checkIdx := r.checkIdx + 1 } ?_ (fun offset inside => ?_) fun _ => ?_
          · simp only
            omega
          · have byte := bytes (offset + 1) (by simpa using inside)
            rw [List.getElem_cons_succ] at byte
            rw [← byte]
            simp only [Nat.add_assoc, Nat.add_comm 1]
          · change r.readBuf (r.checkIdx + 1 - 1) ≠ carriageReturn
            rwa [Nat.add_sub_cancel, here]

end Scanner

structure InBody (start length : Nat) (r : Request) : Prop where
  body : r.checkState = .connect
  declared : r.contentLength = length
  ordered : Ordered r
  fits : start + length < readBufferSize

theorem short_body (r : Request) (start length : Nat) (inBody : InBody start length r)
    (short : r.readIdx < length + r.checkIdx) (unfinished : r.readIdx ≤ start + length) :
    advance r = .again .lineOpen (beginLine r) := by
  obtain ⟨body, declared, ⟨_, check⟩, fits⟩ := inBody
  have small : (toInt (r.contentLength + r.checkIdx) : Int) = length + r.checkIdx := by
    rw [declared]
    apply to_int_small <;> simp only [readBufferSize] at fits <;> omega
  have more : ¬ toInt ((beginLine r).contentLength + (beginLine r).checkIdx) ≤ ((beginLine r).readIdx : Int) := by
    simp only [beginLine, small]
    omega
  simp only [advance, body, parseContent, if_neg more, advanceWith]

structure Stale (start length : Nat) (r : Request) : Prop extends InBody start length r where
  moved : start < r.checkIdx
  unfinished : r.readIdx ≤ start + length

theorem next_line_stale (status : LineStatus) (r : Request) (start length : Nat) (inBody : InBody start length r)
    (moved : start < (nextLine status r).2.checkIdx) (unfinished : r.readIdx ≤ start + length) :
    Stale start length (nextLine status r).2 := by
  obtain ⟨body, declared, ordered, fits⟩ := inBody
  obtain ⟨readSame, _⟩ := next_line_cursors status r ordered
  exact ⟨⟨(next_line_check_state status r ordered).trans body, (next_line_content_length status r ordered).trans declared,
    next_line_ordered status r ordered, fits⟩, moved, by omega⟩

theorem stale_advance (r : Request) (start length : Nat) (stale : Stale start length r) :
    advance r = .again .lineOpen (beginLine r) ∧ Stale start length (beginLine r) := by
  have shortened := short_body r start length stale.toInBody
  obtain ⟨⟨body, declared, ⟨_, check⟩, fits⟩, moved, unfinished⟩ := stale
  exact ⟨shortened (by omega) unfinished, ⟨body, declared, ⟨Nat.le_refl _, check⟩, fits⟩, moved, unfinished⟩

theorem stale_loop (status : LineStatus) (r : Request) (start length : Nat) (stale : Stale start length r) :
    (processReadLoop status r).1 = .code .noRequest ∧ Stale start length (processReadLoop status r).2 := by
  have line_stale : ∀ status s, Stale start length s → Stale start length (nextLine status s).2 := by
    intro status s inside
    obtain ⟨_, checkMore⟩ := next_line_cursors status s inside.ordered
    exact next_line_stale status s start length inside.toInBody (by have := inside.moved; omega) inside.unfinished
  apply loop_induction (fun _ s => Stale start length s)
    (fun result => result.1 = .code .noRequest ∧ Stale start length result.2)
  · intro status s after next _ inside _ again
    obtain ⟨advanced, begun⟩ := stale_advance _ start length (line_stale status s inside)
    rw [advanced] at again
    cases again
    exact begun
  · intro status s _ inside _
    exact ⟨rfl, line_stale status s inside⟩
  · intro status s outcome final _ inside _ stopped
    rw [(stale_advance _ start length (line_stale status s inside)).1] at stopped
    cases stopped
  · exact stale.ordered
  · exact stale

theorem stale_feed (r : Request) (start length : Nat) (stale : Stale start length r) (bytes : List UInt8)
    (room : r.readIdx + bytes.length ≤ start + length) : Stale start length (r.feed bytes) :=
  ⟨⟨stale.body, stale.declared, feed_ordered r bytes stale.ordered, stale.fits⟩, stale.moved, room⟩

theorem body_start_in_body (slot : Request) (head : List UInt8) (length : Nat) (post : PostHead slot head length)
    (fits : head.length + 2 + length < readBufferSize) (part : List UInt8) :
    InBody (head.length + 2) length ((bodyStart slot head).feed part) := by
  obtain ⟨_, read⟩ := head_cursors slot head length post
  refine ⟨rfl, post.declared, ⟨Nat.le_refl _, ?_⟩, fits⟩
  change head.length + 2 ≤ (parseRead (slot.init.feed head)).2.readIdx + 2 + part.length
  omega

theorem body_start_read_idx (slot : Request) (head : List UInt8) (length : Nat) (post : PostHead slot head length)
    (part : List UInt8) : ((bodyStart slot head).feed part).readIdx = head.length + 2 + part.length := by
  obtain ⟨_, read⟩ := head_cursors slot head length post
  change (parseRead (slot.init.feed head)).2.readIdx + 2 + part.length = _
  omega

theorem body_start_byte (slot : Request) (head : List UInt8) (length : Nat) (post : PostHead slot head length)
    (part : List UInt8) (offset : Nat) (inside : offset < part.length) :
    ((bodyStart slot head).feed part).readBuf (head.length + 2 + offset) = part[offset] := by
  have start := body_start_read_idx slot head length post []
  simp only [Request.feed_nil, List.length_nil, Nat.add_zero] at start
  rw [Request.feed_read_buf, start]
  exact write_inside _ _ offset part inside

theorem body_start_before (slot : Request) (head : List UInt8) (length : Nat) (post : PostHead slot head length)
    (part : List UInt8) : ((bodyStart slot head).feed part).readBuf (head.length + 1) = 0 := by
  have start := body_start_read_idx slot head length post []
  simp only [Request.feed_nil, List.length_nil, Nat.add_zero] at start
  rw [Request.feed_read_buf, start, write_before _ _ _ _ (by omega)]
  exact store_here _ _ _

theorem body_start_ahead (slot : Request) (head : List UInt8) (length : Nat) (post : PostHead slot head length)
    (part : List UInt8) : Ahead ((bodyStart slot head).feed part) part := by
  refine ⟨body_start_read_idx slot head length post part, body_start_byte slot head length post part, fun _ => ?_⟩
  change ((bodyStart slot head).feed part).readBuf (head.length + 1) ≠ carriageReturn
  rw [body_start_before slot head length post part]
  decide

theorem unfinished_body (slot : Request) (head : List UInt8) (length : Nat) (post : PostHead slot head length)
    (fits : head.length + 2 + length < readBufferSize) (part : List UInt8) (unfinished : part.length < length) :
    parseRead ((bodyStart slot head).feed part) = processReadLoop .lineOpen ((bodyStart slot head).feed part) := by
  have inBody := body_start_in_body slot head length post fits part
  have read := body_start_read_idx slot head length post part
  have check : ((bodyStart slot head).feed part).checkIdx = head.length + 2 := rfl
  have round := short_body _ _ _ inBody (by omega) (by omega)
  have here : nextLine .lineOk ((bodyStart slot head).feed part) = (.lineOk, (bodyStart slot head).feed part) :=
    if_pos ⟨inBody.body, rfl⟩
  rw [parseRead, process_read_loop_step .lineOk _ inBody.ordered, here]
  simp only [if_true, round]
  rfl

theorem staying_body (slot : Request) (head : List UInt8) (length : Nat) (post : PostHead slot head length)
    (fits : head.length + 2 + length < readBufferSize) (part : List UInt8) (unfinished : part.length < length)
    (stays : ScannerStays part) :
    parseRead ((bodyStart slot head).feed part) = (.code .noRequest, (bodyStart slot head).feed part) := by
  have inBody := body_start_in_body slot head length post fits part
  obtain ⟨pending, unchanged⟩ := scanner_stays _ part (body_start_ahead slot head length post part) stays
  have line : nextLine .lineOpen ((bodyStart slot head).feed part) = parseLine ((bodyStart slot head).feed part) :=
    if_neg (by simp)
  rw [unfinished_body slot head length post fits part unfinished, process_read_loop_step .lineOpen _ inBody.ordered,
    line, if_neg pending, unchanged]

theorem moving_body (slot : Request) (head : List UInt8) (length : Nat) (post : PostHead slot head length)
    (fits : head.length + 2 + length < readBufferSize) (part : List UInt8) (unfinished : part.length < length)
    (moves : ¬ ScannerStays part) :
    (parseRead ((bodyStart slot head).feed part)).1 = .code .noRequest ∧
      Stale (head.length + 2) length (parseRead ((bodyStart slot head).feed part)).2 := by
  have inBody := body_start_in_body slot head length post fits part
  have read := body_start_read_idx slot head length post part
  have line : nextLine .lineOpen ((bodyStart slot head).feed part) = parseLine ((bodyStart slot head).feed part) :=
    if_neg (by simp)
  have moved : head.length + 2 < _ := scanner_moves _ part (body_start_ahead slot head length post part) moves
  rw [← line] at moved
  have lineStale := next_line_stale .lineOpen _ _ length inBody moved (by omega)
  rw [unfinished_body slot head length post fits part unfinished, process_read_loop_step .lineOpen _ inBody.ordered]
  by_cases ok : (nextLine .lineOpen ((bodyStart slot head).feed part)).1 = .lineOk
  · obtain ⟨advanced, begun⟩ := stale_advance _ _ length lineStale
    rw [if_pos ok, advanced]
    exact stale_loop .lineOpen _ _ length begun
  · rw [if_neg ok]
    exact ⟨rfl, lineStale⟩

theorem whole_body_read (slot : Request) (head body : List UInt8) (post : PostHead slot head body.length)
    (fits : head.length + 2 + body.length < readBufferSize) :
    parseRead ((bodyStart slot head).feed body) = (.code .getRequest,
      { beginLine ((bodyStart slot head).feed body) with
        readBuf := store ((bodyStart slot head).feed body).readBuf (head.length + 2 + body.length) 0,
        string := some (head.length + 2) }) := by
  have inBody := body_start_in_body slot head body.length post fits body
  have readAll := body_start_read_idx slot head body.length post body
  have check : ((bodyStart slot head).feed body).checkIdx = head.length + 2 := rfl
  have start : ((bodyStart slot head).feed body).startLine = head.length + 2 := rfl
  have here : nextLine .lineOk ((bodyStart slot head).feed body) = (.lineOk, (bodyStart slot head).feed body) :=
    if_pos ⟨inBody.body, rfl⟩
  have small : toInt (((bodyStart slot head).feed body).contentLength + ((bodyStart slot head).feed body).checkIdx) =
      (body.length + (head.length + 2) : Int) := by
    rw [inBody.declared, check]
    simp only [readBufferSize] at fits
    apply to_int_small <;> omega
  have enough : toInt (((bodyStart slot head).feed body).contentLength + ((bodyStart slot head).feed body).checkIdx) ≤
      (((bodyStart slot head).feed body).readIdx : Int) := by
    rw [small, readAll]
    omega
  have inside : (0 : Int) ≤ ((head.length + 2 : Nat) : Int) + ((bodyStart slot head).feed body).contentLength ∧
      ((head.length + 2 : Nat) : Int) + ((bodyStart slot head).feed body).contentLength < readBufferSize := by
    rw [inBody.declared]
    omega
  have stop : (((head.length + 2 : Nat) : Int) + ((bodyStart slot head).feed body).contentLength).toNat =
      head.length + 2 + body.length := by
    rw [inBody.declared]
    omega
  rw [parseRead, process_read_loop_step .lineOk _ inBody.ordered, here]
  simp only [if_true, advance, inBody.body, parseContent]
  simp only [beginLine, start, if_pos enough, if_pos inside, stop, advanceWith]

theorem whole_body (slot : Request) (head body : List UInt8) (post : PostHead slot head body.length)
    (fits : head.length + 2 + body.length < readBufferSize) :
    (parseRead ((bodyStart slot head).feed body)).1 = .code .getRequest ∧
      (parseRead ((bodyStart slot head).feed body)).2.string = some (head.length + 2) ∧
      read (parseRead ((bodyStart slot head).feed body)).2.readBuf (head.length + 2) body.length = body := by
  have nothing := body_start_read_idx slot head body.length post []
  simp only [Request.feed_nil, List.length_nil, Nat.add_zero] at nothing
  rw [whole_body_read slot head body post fits]
  refine ⟨rfl, rfl, ?_⟩
  rw [read_congr _ ((bodyStart slot head).feed body).readBuf, Request.feed_read_buf, nothing, read_write]
  intro index _ below
  exact store_elsewhere _ _ _ _ (by omega)

def CutsHarmless (head : List UInt8) (batches : List (List UInt8)) : Prop :=
  ∀ early part, early <+: batches → early.flatten = head ++ (lineEnd ++ part) → ScannerStays part

theorem cuts_harmless_append (head : List UInt8) (batches : List (List UInt8)) (batch : List UInt8) :
    CutsHarmless head (batches ++ [batch]) ↔ CutsHarmless head batches ∧
      ∀ part, (batches ++ [batch]).flatten = head ++ (lineEnd ++ part) → ScannerStays part := by
  constructor
  · intro harmless
    exact ⟨fun early part within => harmless early part (within.trans (List.prefix_append _ _)),
      fun part => harmless _ part (List.prefix_refl _)⟩
  · rintro ⟨harmless, last⟩ early part within whole
    rcases List.prefix_concat_iff.mp within with all | inside
    · exact last part (by rw [← List.concat_eq_append] at *; rw [← all]; exact whole)
    · exact harmless early part inside whole

theorem before_body (slot : Request) (head : List UInt8) (length : Nat) (post : PostHead slot head length)
    (part : List UInt8) (within : part <+: head ++ [carriageReturn]) :
    (parseRead (slot.init.feed part)).1 = .code .noRequest ∧ (parseRead (slot.init.feed part)).2.checkState ≠ .connect := by
  obtain ⟨check, read⟩ := head_cursors slot head length post
  have header := post.header
  have lineStart := post.lineStart
  have cr : (parseRead (slot.init.feed (head ++ [carriageReturn]))).1 = .code .noRequest ∧
      (parseRead (slot.init.feed (head ++ [carriageReturn]))).2.checkState = .header := by
    rw [head_resumes slot head length post]
    generalize (parseRead (slot.init.feed head)).2 = start at check read header lineStart
    have unread : (start.feed [carriageReturn]).readIdx - (start.feed [carriageReturn]).checkIdx = 0 + 1 := by
      simp [read, check]
    have byte : (start.feed [carriageReturn]).readBuf head.length = carriageReturn := by
      have inside := write_inside start.readBuf start.readIdx 0 [carriageReturn] (by simp)
      simpa [read] using inside
    have pending : parseLine (start.feed [carriageReturn]) = (.lineOpen, start.feed [carriageReturn]) := by
      rw [parseLine, unread]
      simp [parseLineFrom, check, byte, read]
    rw [parseRead, process_read_loop_step .lineOk _ (feed_ordered start _ ⟨by omega, by omega⟩),
      next_line_outside .lineOk _ (by simp [header]), pending]
    exact ⟨rfl, header⟩
  obtain ⟨rest, whole⟩ := within
  have ordered := feed_ordered slot.init part (init_ordered slot)
  rw [← whole, Request.feed_append] at cr
  have notBody : (parseRead (slot.init.feed part)).2.checkState ≠ .connect := by
    intro body
    have begun := parse_read_feed_body _ rest ordered body
    rw [cr.2] at begun
    cases begun
  refine ⟨?_, notBody⟩
  by_contra settled
  rw [parse_read_feed _ rest ordered notBody, if_neg settled] at cr
  exact settled cr.1

structure Reception (slot : Request) (head : List UInt8) (length : Nat) (batches : List (List UInt8)) : Prop where
  waiting : (receive slot.init batches).1 = .code .noRequest
  resumes : CutsHarmless head batches → ∀ more,
    parseRead ((receive slot.init batches).2.feed more) = parseRead (slot.init.feed (batches.flatten ++ more))
  lost : ¬ CutsHarmless head batches → Stale (head.length + 2) length (receive slot.init batches).2 ∧
    (receive slot.init batches).2.readIdx = batches.flatten.length

theorem reception_nil (slot : Request) (head : List UInt8) (length : Nat) : Reception slot head length [] := by
  refine ⟨rfl, fun _ more => rfl, fun harmful => absurd ?_ harmful⟩
  intro early part within flat
  have nothing := congrArg List.length flat
  simp [List.prefix_nil.mp within, lineEnd] at nothing

theorem reception_before_body (slot : Request) (head : List UInt8) (length : Nat) (post : PostHead slot head length)
    (batches : List (List UInt8)) (batch : List UInt8) (reception : Reception slot head length batches)
    (harmless : CutsHarmless head batches) (within : batches.flatten ++ batch <+: head ++ [carriageReturn]) :
    Reception slot head length (batches ++ [batch]) := by
  have flat : (batches ++ [batch]).flatten = batches.flatten ++ batch := by simp
  have received := receive_append slot.init batches batch reception.waiting
  rw [reception.resumes harmless batch] at received
  obtain ⟨waiting, notBody⟩ := before_body slot head length post _ within
  have stillHarmless : CutsHarmless head (batches ++ [batch]) := by
    rw [cuts_harmless_append]
    refine ⟨harmless, fun part cut => ?_⟩
    have bound := within.length_le
    rw [← flat, cut] at bound
    simp [lineEnd] at bound
  refine ⟨by rw [received, waiting], fun _ more => ?_, fun harmful => absurd stillHarmless harmful⟩
  have ordered := feed_ordered slot.init (batches.flatten ++ batch) (init_ordered slot)
  rw [received, flat, Request.feed_append _ (batches.flatten ++ batch), parse_read_feed _ more ordered notBody, if_pos waiting]

theorem reception_inside_body (slot : Request) (head : List UInt8) (length : Nat) (positive : 0 < length)
    (post : PostHead slot head length) (fits : head.length + 2 + length < readBufferSize)
    (batches : List (List UInt8)) (batch part : List UInt8) (reception : Reception slot head length batches)
    (harmless : CutsHarmless head batches) (cut : batches.flatten ++ batch = head ++ (lineEnd ++ part))
    (unfinished : part.length < length) : Reception slot head length (batches ++ [batch]) := by
  have flat : (batches ++ [batch]).flatten = batches.flatten ++ batch := by simp
  have received := receive_append slot.init batches batch reception.waiting
  rw [reception.resumes harmless batch, cut, blank_line_reached slot head length positive post] at received
  by_cases stays : ScannerStays part
  · rw [staying_body slot head length post fits part unfinished stays] at received
    refine ⟨by rw [received], fun _ more => ?_, fun harmful => absurd ?_ harmful⟩
    · rw [received, flat, cut, ← Request.feed_append, List.append_assoc, List.append_assoc,
        blank_line_reached slot head length positive post]
    · rw [cuts_harmless_append]
      refine ⟨harmless, fun other whole => ?_⟩
      rw [flat, cut] at whole
      have equal : part = other := by simpa using whole
      rwa [← equal]
  · obtain ⟨again, stale⟩ := moving_body slot head length post fits part unfinished stays
    obtain ⟨readSame, _, _⟩ := loop_cursors .lineOk _ (body_start_in_body slot head length post fits part).ordered
    have readAll := body_start_read_idx slot head length post part
    rw [← received] at again stale
    refine ⟨again, fun all => absurd ((cuts_harmless_append ..).mp all |>.2 part (flat.trans cut)) stays, fun _ => ⟨stale, ?_⟩⟩
    rw [received, flat, cut]
    refine (readSame.trans readAll).trans ?_
    simp [lineEnd]
    omega

theorem reception_lost (slot : Request) (head : List UInt8) (length : Nat) (batches : List (List UInt8)) (batch : List UInt8)
    (reception : Reception slot head length batches) (harmful : ¬ CutsHarmless head batches)
    (bound : batches.flatten.length + batch.length ≤ head.length + 2 + length) :
    Reception slot head length (batches ++ [batch]) := by
  have received := receive_append slot.init batches batch reception.waiting
  obtain ⟨stale, read⟩ := reception.lost harmful
  have fedStale := stale_feed _ _ length stale batch (by omega)
  obtain ⟨again, still⟩ := stale_loop .lineOk _ _ length fedStale
  obtain ⟨readSame, _, _⟩ := loop_cursors .lineOk _ fedStale.ordered
  refine ⟨by rw [received]; exact again, fun all => absurd ((cuts_harmless_append ..).mp all).1 harmful, fun _ => ?_⟩
  rw [received]
  refine ⟨still, readSame.trans ?_⟩
  simp [read]

theorem reception_of_batches (slot : Request) (head body : List UInt8) (positive : 0 < body.length)
    (post : PostHead slot head body.length) (fits : head.length + 2 + body.length < readBufferSize)
    (batches : List (List UInt8)) (last : List UInt8) (some_left : last ≠ [])
    (whole : batches.flatten ++ last = head ++ (lineEnd ++ body)) : Reception slot head body.length batches := by
  induction batches using List.reverseRecOn generalizing last with
  | nil => exact reception_nil slot head body.length
  | append_singleton batches batch ih =>
      have flat : (batches ++ [batch]).flatten = batches.flatten ++ batch := by simp
      have wholeBefore : batches.flatten ++ (batch ++ last) = head ++ (lineEnd ++ body) := by
        rw [← whole, flat, List.append_assoc]
      have reception := ih (batch ++ last) (by simp [some_left]) wholeBefore
      have lastLength : 0 < last.length := List.length_pos_iff.mpr some_left
      have total := congrArg List.length whole
      simp only [flat, List.length_append, lineEnd, List.length_cons, List.length_nil] at total
      by_cases harmless : CutsHarmless head batches
      · by_cases early : batches.flatten.length + batch.length ≤ head.length + 1
        · have within : batches.flatten ++ batch <+: head ++ [carriageReturn] := by
            have given : batches.flatten ++ batch <+: head ++ (lineEnd ++ body) := by
              rw [← whole, flat]
              exact List.prefix_append _ _
            have line : head ++ [carriageReturn] <+: head ++ (lineEnd ++ body) := by simp [lineEnd]
            exact List.prefix_of_prefix_length_le given line (by simpa using early)
          exact reception_before_body slot head body.length post batches batch reception harmless within
        · have begun : head ++ lineEnd <+: batches.flatten ++ batch := by
            have given : batches.flatten ++ batch <+: head ++ (lineEnd ++ body) := by
              rw [← whole, flat]
              exact List.prefix_append _ _
            have line : head ++ lineEnd <+: head ++ (lineEnd ++ body) := by simp
            apply List.prefix_of_prefix_length_le line given
            simp only [List.length_append, lineEnd, List.length_cons, List.length_nil]
            omega
          obtain ⟨part, cut⟩ := begun
          rw [List.append_assoc] at cut
          have partLength := congrArg List.length cut
          simp only [List.length_append, lineEnd, List.length_cons, List.length_nil] at partLength
          exact reception_inside_body slot head body.length positive post fits batches batch part reception harmless
            cut.symm (by omega)
      · exact reception_lost slot head body.length batches batch reception harmless (by omega)

def BodyReceived (slot : Request) (batches : List (List UInt8)) (last body : List UInt8) : Prop :=
  let result := parseRead ((receive slot.init batches).2.feed last)
  (receive slot.init batches).1 = .code .noRequest ∧ result.1 = .code .getRequest ∧
    ∃ text, result.2.string = some text ∧ read result.2.readBuf text body.length = body

theorem body_received_iff (slot : Request) (head body : List UInt8) (positive : 0 < body.length)
    (post : PostHead slot head body.length) (fits : head.length + 2 + body.length < readBufferSize)
    (batches : List (List UInt8)) (last : List UInt8) (some_left : last ≠ [])
    (whole : batches.flatten ++ last = head ++ (lineEnd ++ body)) :
    BodyReceived slot batches last body ↔ CutsHarmless head batches := by
  obtain ⟨waiting, resumes, lost⟩ := reception_of_batches slot head body positive post fits batches last some_left whole
  constructor
  · rintro ⟨_, complete, _⟩
    by_contra harmful
    obtain ⟨stale, readAll⟩ := lost harmful
    have total := congrArg List.length whole
    simp only [List.length_append, lineEnd, List.length_cons, List.length_nil] at total
    obtain ⟨again, _⟩ := stale_loop .lineOk _ _ body.length (stale_feed _ _ body.length stale last (by omega))
    rw [parseRead, again] at complete
    cases complete
  · intro harmless
    have same := resumes harmless last
    rw [whole, blank_line_reached slot head body.length positive post] at same
    obtain ⟨complete, text, stored⟩ := whole_body slot head body post fits
    unfold BodyReceived
    rw [same]
    exact ⟨waiting, complete, _, text, stored⟩

def loginHead : List UInt8 := ascii "POST /2 HTTP/1.1\r\nContent-Length: 17\r\n"
def loginBody : List UInt8 := ascii "user=1&password=2"

theorem login_head : PostHead Request.fresh loginHead 17 :=
  ⟨by decide +kernel, by decide +kernel, by decide +kernel, by decide +kernel, by decide +kernel⟩

theorem body_received_iff_login :
    BodyReceived Request.fresh [loginHead ++ (lineEnd ++ loginBody.take 6)] (loginBody.drop 6) loginBody ↔
      CutsHarmless loginHead [loginHead ++ (lineEnd ++ loginBody.take 6)] :=
  body_received_iff Request.fresh loginHead loginBody (by decide) login_head (by decide) _ _ (by decide) (by decide)

theorem cut_body_not_received :
    PostHead Request.fresh loginHead loginBody.length ∧ loginHead.length + 2 + loginBody.length < readBufferSize ∧
      [loginHead ++ (lineEnd ++ loginBody.take 6)].flatten ++ loginBody.drop 6 = loginHead ++ (lineEnd ++ loginBody) ∧
      ¬ BodyReceived Request.fresh [loginHead ++ (lineEnd ++ loginBody.take 6)] (loginBody.drop 6) loginBody := by
  refine ⟨login_head, by decide, by decide, ?_⟩
  rintro ⟨_, complete, _⟩
  revert complete
  decide +kernel

end WzyServer.Http
