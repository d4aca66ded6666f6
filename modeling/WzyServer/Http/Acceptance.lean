import WzyServer.Http.Confinement
import WzyServer.Http.ContentLength
import WzyServer.Http.LineFrame
import WzyServer.Http.Message
import WzyServer.Http.Rounds

set_option autoImplicit false

namespace WzyServer.Http

open CString Word

section Visible

-- What the string functions see of a line: a NUL in it is its end.
def visible (line : Text) : Text := line.takeWhile fun c => c ≠ 0

theorem visible_clean (line : Text) (clean : ∀ c ∈ line, c ∉ lineEnd) : ∀ c ∈ visible line, c ≠ 0 ∧ c ∉ lineEnd :=
  fun c member => ⟨of_decide_eq_true (List.all_eq_true.mp List.all_takeWhile c member),
    clean c ((List.takeWhile_sublist _).subset member)⟩

theorem visible_length (line : Text) : (visible line).length ≤ line.length := (List.takeWhile_sublist _).length_le

theorem text_at_visible (memory : Memory) (address : Nat) (text : Text)
    (bytes : ∀ offset (inside : offset < text.length), memory (address + offset) = text[offset])
    (nul : memory (address + text.length) = 0) : TextAt memory address (visible text) := by
  induction text generalizing address with
  | nil => exact ⟨List.forall_mem_nil _, fun _ inside => absurd inside (Nat.not_lt_zero _), nul⟩
  | cons c rest ih =>
      have first : memory address = c := bytes 0 (Nat.succ_pos _)
      by_cases ends : c = 0
      · subst ends
        exact ⟨List.forall_mem_nil _, fun _ inside => absurd inside (Nat.not_lt_zero _), first⟩
      · have behind : TextAt memory (address + 1) (visible rest) := by
          refine ih (address + 1) (fun offset inside => ?_) ?_
          · rw [Nat.add_assoc, Nat.add_comm 1]
            exact bytes (offset + 1) (by simpa using inside)
          · rw [Nat.add_assoc, Nat.add_comm 1]
            exact nul
        have shown : visible (c :: rest) = [c] ++ visible rest := List.takeWhile_cons_of_pos (by simpa using ends)
        rw [shown]
        refine text_at_append memory address [c] _ (List.forall_mem_singleton.mpr ends) (fun offset inside => ?_) behind
        cases Nat.lt_one_iff.mp inside
        exact first

end Visible

section Scan

def NoEnds (memory : Memory) (low high : Nat) : Prop := ∀ index, low ≤ index → index < high → memory index ∉ lineEnd

theorem not_end_iff (c : UInt8) : c ∉ lineEnd ↔ c ≠ carriageReturn ∧ c ≠ lineFeed := by
  simp only [lineEnd, List.mem_cons, List.not_mem_nil, or_false, not_or]

inductive LineScan (r : Request) (start : Nat) : LineStatus × Request → Prop where
  | pending (status : LineStatus) (index : Nat) (notOk : status ≠ .lineOk) (bounds : r.checkIdx ≤ index ∧ index ≤ r.readIdx)
      (clean : NoEnds r.readBuf start index) : LineScan r start (status, { r with checkIdx := index })
  | found (stop : Nat) (bounds : r.checkIdx ≤ stop ∧ stop + 2 ≤ r.readIdx) (clean : NoEnds r.readBuf start stop)
      (ends : r.readBuf stop = carriageReturn ∧ r.readBuf (stop + 1) = lineFeed) :
      LineScan r start (.lineOk, { r with readBuf := store (store r.readBuf stop 0) (stop + 1) 0, checkIdx := stop + 2 })

theorem line_scan_skip (r : Request) (start : Nat) (result : LineStatus × Request)
    (later : LineScan { r with checkIdx := r.checkIdx + 1 } start result) : LineScan r start result := by
  cases later with
  | pending status index notOk bounds clean => exact .pending status index notOk ⟨Nat.le_of_succ_le bounds.1, bounds.2⟩ clean
  | found stop bounds clean ends => exact .found stop ⟨Nat.le_of_succ_le bounds.1, bounds.2⟩ clean ends

theorem parse_line_from_scans (unread : Nat) (r : Request) (start : Nat) (fits : r.checkIdx + unread = r.readIdx)
    (begun : start ≤ r.checkIdx) (clean : NoEnds r.readBuf start r.checkIdx)
    (before : start ≠ 0 → r.readBuf (start - 1) ≠ carriageReturn) : LineScan r start (parseLineFrom unread r) := by
  induction unread generalizing r with
  | zero => exact .pending .lineOpen r.checkIdx (by decide) ⟨Nat.le_refl _, by omega⟩ clean
  | succ unread ih =>
      have stopped : ∀ status, status ≠ .lineOk → LineScan r start (status, r) := fun status notOk =>
        .pending status r.checkIdx notOk ⟨Nat.le_refl _, by omega⟩ clean
      by_cases isReturn : r.readBuf r.checkIdx = carriageReturn
      · unfold parseLineFrom
        simp only [if_pos isReturn]
        split
        · exact stopped .lineOpen (by decide)
        · split
          · rename_i notLast isFeed
            exact .found r.checkIdx ⟨Nat.le_refl _, by omega⟩ clean ⟨isReturn, isFeed⟩
          · exact stopped .lineBad (by decide)
      · by_cases isFeed : r.readBuf r.checkIdx = lineFeed
        · have alone : ¬ (1 < r.checkIdx ∧ r.readBuf (r.checkIdx - 1) = carriageReturn) := by
            rintro ⟨inside, behindReturn⟩
            by_cases here : start = r.checkIdx
            · subst here
              exact before (by omega) behindReturn
            · exact ((not_end_iff _).mp (clean (r.checkIdx - 1) (by omega) (by omega))).1 behindReturn
          unfold parseLineFrom
          simp only [if_neg isReturn, if_pos isFeed, if_neg alone]
          exact stopped .lineBad (by decide)
        · rw [parse_line_from_skip unread r isReturn isFeed]
          refine line_scan_skip r start _ (ih { r with checkIdx := r.checkIdx + 1 } ?_ ?_ ?_ before)
          · simp only
            omega
          · simp only
            omega
          · intro index low high
            by_cases last : index = r.checkIdx
            · rw [last]
              exact (not_end_iff _).mpr ⟨isReturn, isFeed⟩
            · exact clean index low (by simp only at high; omega)

end Scan

section Unread

structure Unread (r : Request) (rest : Text) : Prop where
  begun : r.startLine ≤ r.checkIdx
  scanned : r.checkIdx ≤ r.readIdx
  whole : r.startLine + rest.length = r.readIdx
  bytes : ∀ offset (inside : offset < rest.length), r.readBuf (r.startLine + offset) = rest[offset]
  clean : NoEnds r.readBuf r.startLine r.checkIdx
  before : r.startLine ≠ 0 → r.readBuf (r.startLine - 1) ≠ carriageReturn

theorem unread_scans (r : Request) (rest : Text) (unread : Unread r rest) : LineScan r r.startLine (parseLine r) := by
  have scanned := unread.scanned
  exact parse_line_from_scans _ r r.startLine (by omega) unread.begun unread.clean unread.before

theorem unread_feed (r : Request) (rest bytes : Text) (unread : Unread r rest) : Unread (r.feed bytes) (rest ++ bytes) := by
  obtain ⟨begun, scanned, whole, stored, clean, before⟩ := unread
  have kept : ∀ index, index < r.readIdx → (r.feed bytes).readBuf index = r.readBuf index :=
    fun index below => r.feed_below bytes index below
  refine ⟨begun, ?_, ?_, fun offset inside => ?_, fun index low high => ?_, fun some_before => ?_⟩
  · rw [Request.feed_check_idx, Request.feed_read_idx]
    omega
  · change r.startLine + _ = _
    rw [Request.feed_read_idx, List.length_append]
    omega
  · change (r.feed bytes).readBuf (r.startLine + offset) = _
    by_cases first : offset < rest.length
    · rw [kept _ (by omega), List.getElem_append_left first]
      exact stored offset first
    · rw [List.length_append] at inside
      rw [List.getElem_append_right (by omega), Request.feed_read_buf,
        show r.startLine + offset = r.readIdx + (offset - rest.length) by omega]
      exact write_inside _ _ _ _ (by omega)
  · rw [Request.feed_check_idx] at high
    rw [kept index (by omega)]
    exact clean index low high
  · change (r.feed bytes).readBuf (r.startLine - 1) ≠ _
    by_cases empty : r.readIdx ≤ r.startLine - 1
    · have some_before : r.startLine ≠ 0 := some_before
      omega
    · rw [kept _ (by omega)]
      exact before some_before

theorem unread_pending (r : Request) (rest : Text) (index : Nat) (unread : Unread r rest)
    (bounds : r.checkIdx ≤ index ∧ index ≤ r.readIdx) (clean : NoEnds r.readBuf r.startLine index) :
    Unread { r with checkIdx := index } rest := by
  obtain ⟨begun, scanned, whole, bytes, _, before⟩ := unread
  exact ⟨Nat.le_trans begun bounds.1, bounds.2, whole, bytes, clean, before⟩

structure LineTaken (r : Request) (rest : Text) (stop : Nat) (line after : Text) : Prop where
  whole : rest = line ++ (lineEnd ++ after)
  clean : ∀ c ∈ line, c ∉ lineEnd
  length : r.startLine + line.length = stop
  text : TextAt (store (store r.readBuf stop 0) (stop + 1) 0) r.startLine (visible line)
  left : stop + 2 + after.length = r.readIdx
  bytes : ∀ offset (inside : offset < after.length), r.readBuf (stop + 2 + offset) = after[offset]

theorem unread_line (r : Request) (rest : Text) (stop : Nat) (unread : Unread r rest)
    (bounds : r.checkIdx ≤ stop ∧ stop + 2 ≤ r.readIdx) (clean : NoEnds r.readBuf r.startLine stop)
    (ends : r.readBuf stop = carriageReturn ∧ r.readBuf (stop + 1) = lineFeed) : ∃ line after, LineTaken r rest stop line after := by
  obtain ⟨begun, scanned, whole, bytes, _, _⟩ := unread
  obtain ⟨length, rfl⟩ : ∃ length, stop = r.startLine + length := ⟨stop - r.startLine, by omega⟩
  have taken : (rest.take length).length = length := List.length_take_of_le (by omega)
  have first : length < rest.length := by omega
  have second : length + 1 < rest.length := by omega
  have cr : rest[length] = carriageReturn := (bytes length first).symm.trans ends.1
  have lf : rest[length + 1] = lineFeed := (bytes (length + 1) second).symm.trans ends.2
  refine ⟨rest.take length, rest.drop (length + 2), ?_, fun c member => ?_, by rw [taken], ?_, ?_, fun offset inside => ?_⟩
  · conv_lhs => rw [← List.take_append_drop length rest]
    rw [List.drop_eq_getElem_cons first, List.drop_eq_getElem_cons second, cr, lf]
    rfl
  · obtain ⟨offset, inside, rfl⟩ := List.getElem_of_mem member
    rw [List.getElem_take]
    rw [taken] at inside
    rw [← bytes offset (by omega)]
    exact clean _ (Nat.le_add_right _ _) (by omega)
  · refine text_at_visible _ _ _ (fun offset inside => ?_) ?_
    · rw [taken] at inside
      rw [store_elsewhere _ _ _ _ (by omega), store_elsewhere _ _ _ _ (by omega), List.getElem_take]
      exact bytes offset (by omega)
    · rw [taken, store_elsewhere _ _ _ _ (by omega), store_here]
  · rw [List.length_drop]
    omega
  · rw [List.length_drop] at inside
    rw [List.getElem_drop, show r.startLine + length + 2 + offset = r.startLine + (length + 2 + offset) by omega]
    exact bytes _ (by omega)

theorem line_taken_unread (r next : Request) (rest line after : Text) (stop : Nat) (taken : LineTaken r rest stop line after)
    (cursors : next.startLine = stop + 2 ∧ next.checkIdx = stop + 2 ∧ next.readIdx = r.readIdx)
    (same : ∀ index, stop + 2 ≤ index → next.readBuf index = r.readBuf index)
    (before : next.readBuf (stop + 1) ≠ carriageReturn) : Unread next after := by
  obtain ⟨start, check, received⟩ := cursors
  have left := taken.left
  refine ⟨by omega, by omega, by omega, fun offset inside => ?_, fun index low high => by omega, fun _ => ?_⟩
  · rw [start, same _ (by omega)]
    exact taken.bytes offset inside
  · rw [start]
    exact before

end Unread

section RequestLines

theorem lost_url_refused (s : Request) (start : Nat) (url : Text) (points : s.url = some start) (here : TextAt s.readBuf start url)
    (room : start + url.length < readBufferSize) (lost : ¬ AuthorityEnds url) :
    (((skipScheme (ascii "http://") s).bind (skipScheme (ascii "https://"))).bind parseTarget).result.1 ≠ .code .noRequest := by
  obtain ⟨scheme, member, named, missing⟩ : ∃ scheme ∈ schemes, strncasecmp url scheme scheme.length = true ∧
      slash ∉ url.drop scheme.length := by
    simpa only [AuthorityEnds, not_forall, exists_prop] using lost
  have none_left : behindScheme scheme url = none := by
    rw [behindScheme, if_pos named, Option.map_eq_none_iff]
    exact List.findIdx?_eq_none_iff.mpr fun c inside => decide_eq_false fun same => missing (same ▸ inside)
  have http_or_https : scheme = ascii "http://" ∨ scheme = ascii "https://" := by
    simpa only [schemes, List.mem_cons, List.not_mem_nil, or_false] using member
  rcases http_or_https with rfl | rfl
  · rw [skip_scheme_lost s start _ url points here room none_left]
    exact fun accepted => by cases accepted
  · obtain ⟨spelled, rest, split, same⟩ := (named_split _ url (lower_schemes _ member).1).mp named
    have plain : behindScheme (ascii "http://") url = some url :=
      other_scheme (ascii "http://") url (by decide) fun other more parts http => schemes_apart _ _ _ _ (parts.symm.trans split) http same
    obtain ⟨between, first, text, ends⟩ := skip_scheme_text s start _ url url points here room plain
    rw [first, Stage.bind, skip_scheme_lost { s with url := some between } between _ url rfl text (by omega) none_left]
    exact fun accepted => by cases accepted

theorem accepted_grammar (r : Request) (text : Nat) (line : Text) (here : TextAt r.readBuf text line)
    (room : text + line.length + 1 < readBufferSize) (accepted : (parseRequestLine r text).1 = .code .noRequest) :
    ∃ method path, Grammar line method path := by
  by_contra other
  by_cases authority : AuthorityEnds (urlField line)
  · obtain ⟨next, refused, _⟩ := grammar_refused r text line other authority here room
    rw [refused] at accepted
    cases accepted
  · by_cases parts : ∃ method url, LineOf line method url
    · obtain ⟨method, url, parts⟩ := parts
      obtain ⟨s, start, past, points, _, _, urlText, ends⟩ := line_of_stages r text line url method parts here (by omega)
      rw [url_field_of line method url parts] at authority
      rw [parseRequestLine, stages_past_version r text s past] at accepted
      exact lost_url_refused s start url points urlText (by omega) authority accepted
    · obtain ⟨next, refused, _⟩ := refused_outcome r text line (fun method url parsed => parts ⟨method, url, parsed⟩) here (by omega)
      rw [refused] at accepted
      cases accepted

end RequestLines

section Standing

-- What the parser has made of a request line and the header lines behind it. The
-- strings it keeps lie below `limit`.
structure HeadRead (slot : Request) (line : Text) (headers : List Text) (limit : Nat) (r : Request) : Prop where
  target : ∃ path url, Grammar (visible line) r.method path ∧ r.url = some url ∧ TextBelow r.readBuf url (pageOf path) limit
  form : r.cgi = if r.method = .post then 1 else slot.cgi
  named : ∀ header ∈ headers, visible header ≠ []
  linger : r.linger = (headers.map visible).any asksKeepAlive
  length : r.contentLength = lengthOf (headers.map visible)
  host : HostStored r (lastNamed (ascii "Host:") (headers.map visible)) limit

theorem text_below_kept (memory other : Memory) (address limit high : Nat) (text : Text) (stored : TextBelow memory address text limit)
    (same : ∀ index, index < limit → other index = memory index) (later : limit ≤ high) : TextBelow other address text high :=
  ⟨text_at_congr memory address other text stored.here fun index _ upper =>
    (same index (Nat.lt_of_le_of_lt upper stored.below)).symm, Nat.lt_of_lt_of_le stored.below later⟩

theorem host_kept (r s : Request) (name : Option Text) (limit high : Nat) (host : HostStored r name limit) (points : s.host = r.host)
    (same : ∀ index, index < limit → s.readBuf index = r.readBuf index) (later : limit ≤ high) : HostStored s name high := by
  cases name with
  | none => exact points.trans host
  | some name =>
      obtain ⟨address, here, stored⟩ := host
      exact ⟨address, points.trans here, text_below_kept _ _ _ limit high _ stored same later⟩

structure HeadKept (r s : Request) : Prop where
  method : s.method = r.method
  url : s.url = r.url
  cgi : s.cgi = r.cgi
  linger : s.linger = r.linger
  length : s.contentLength = r.contentLength
  host : s.host = r.host

theorem head_read_kept (slot r s : Request) (line : Text) (headers : List Text) (limit : Nat) (head : HeadRead slot line headers limit r)
    (kept : HeadKept r s) (same : ∀ index, index < limit → s.readBuf index = r.readBuf index) : HeadRead slot line headers limit s := by
  obtain ⟨method, url, cgi, linger, length, host⟩ := kept
  obtain ⟨path, address, grammar, points, stored⟩ := head.target
  refine ⟨⟨path, address, method ▸ grammar, url.trans points, text_below_kept _ _ _ limit limit _ stored same (Nat.le_refl _)⟩, ?_,
    head.named, linger.trans head.linger, length.trans head.length, host_kept r s _ limit limit head.host host same (Nat.le_refl _)⟩
  rw [cgi, method]
  exact head.form

inductive Standing (slot : Request) (bytes : Text) (r : Request) : Prop where
  | line (state : r.checkState = .requestLine) (unread : Unread r bytes) (fresh : HeadUntouched slot.init r) (form : r.cgi = slot.cgi) :
      Standing slot bytes r
  | header (line rest : Text) (headers : List Text) (state : r.checkState = .header)
      (whole : bytes = line ++ (lineEnd ++ (headerLines headers ++ rest))) (clean : ∀ text ∈ line :: headers, ∀ c ∈ text, c ∉ lineEnd)
      (unread : Unread r rest) (head : HeadRead slot line headers r.startLine r) : Standing slot bytes r
  | body (line blank rest : Text) (headers : List Text) (limit : Nat) (state : r.checkState = .connect)
      (whole : bytes = line ++ (lineEnd ++ (headerLines headers ++ (blank ++ (lineEnd ++ rest)))))
      (clean : ∀ text ∈ line :: blank :: headers, ∀ c ∈ text, c ∉ lineEnd) (ends : visible blank = [])
      (head : HeadRead slot line headers limit r) (behind : limit + 2 ≤ r.startLine ∧ r.startLine ≤ r.checkIdx)
      (some_body : r.contentLength ≠ 0) (left : r.readIdx ≤ r.startLine + rest.length) : Standing slot bytes r

theorem standing_start (slot : Request) (bytes : Text) : Standing slot bytes (slot.init.feed bytes) := by
  refine .line rfl ⟨Nat.le_refl _, Nat.zero_le _, rfl, fun offset inside => ?_, fun index _ high => absurd high (Nat.not_lt_zero _),
    fun behind => absurd rfl behind⟩ ⟨rfl, rfl, rfl, rfl⟩ rfl
  exact write_inside _ _ _ _ inside

theorem standing_feed (slot r : Request) (bytes more : Text) (ordered : Ordered r)
    (standing : Standing slot bytes r) : Standing slot (bytes ++ more) (r.feed more) := by
  have same : ∀ index, index < r.readIdx → (r.feed more).readBuf index = r.readBuf index :=
    fun index below => r.feed_below more index below
  have kept : HeadKept r (r.feed more) := ⟨rfl, rfl, rfl, rfl, rfl, rfl⟩
  have start : r.startLine ≤ r.readIdx := Nat.le_trans ordered.start ordered.check
  cases standing with
  | line state unread fresh form =>
      exact .line state (unread_feed r bytes more unread) ⟨fresh.linger, fresh.length, fresh.host, fresh.string⟩ form
  | header line rest headers state whole clean unread head =>
      refine .header line (rest ++ more) headers state ?_ clean (unread_feed r rest more unread)
        (head_read_kept slot r _ line headers _ head kept fun index below => same index (Nat.lt_of_lt_of_le below start))
      rw [whole]
      simp only [List.append_assoc]
  | body line blank rest headers limit state whole clean ends head behind some_body left =>
      refine .body line blank (rest ++ more) headers limit state ?_ clean ends
        (head_read_kept slot r _ line headers _ head kept fun index below => same index (by omega)) behind some_body ?_
      · rw [whole]
        simp only [List.append_assoc]
      · rw [Request.feed_read_idx, Request.feed_start_line, List.length_append]
        omega

theorem standing_pending (slot r : Request) (bytes : Text) (status : LineStatus) (standing : Standing slot bytes r) (ordered : Ordered r)
    (pending : (nextLine status r).1 ≠ .lineOk) : Standing slot bytes (nextLine status r).2 := by
  have kept : ∀ index, HeadKept r { r with checkIdx := index } := fun index => ⟨rfl, rfl, rfl, rfl, rfl, rfl⟩
  cases standing with
  | line state unread fresh form =>
      rw [next_line_outside status r (by rw [state]; decide)] at pending ⊢
      have scan := unread_scans r bytes unread
      generalize parseLine r = result at pending scan ⊢
      cases scan with
      | pending status index notOk bounds clean =>
          exact .line state (unread_pending r bytes index unread bounds clean)
            ⟨fresh.linger, fresh.length, fresh.host, fresh.string⟩ form
      | found stop bounds clean ends => exact absurd rfl pending
  | header line rest headers state whole clean unread head =>
      rw [next_line_outside status r (by rw [state]; decide)] at pending ⊢
      have scan := unread_scans r rest unread
      generalize parseLine r = result at pending scan ⊢
      cases scan with
      | pending status index notOk bounds scanned =>
          exact .header line rest headers state whole clean (unread_pending r rest index unread bounds scanned)
            (head_read_kept slot r _ line headers _ head (kept index) fun _ _ => rfl)
      | found stop bounds scanned ends => exact absurd rfl pending
  | body line blank rest headers limit state whole clean ends head behind some_body left =>
      have scanned : nextLine status r = parseLine r := by
        unfold nextLine at pending ⊢
        split at pending
        · exact absurd rfl pending
        · rename_i outside
          rw [if_neg outside]
      rw [scanned] at pending ⊢
      obtain ⟨index, lower, _, result⟩ := parse_line_pending r ordered.check pending
      rw [result]
      exact .body line blank rest headers limit state whole clean ends
        (head_read_kept slot r _ line headers limit head (kept index) fun _ _ => rfl) ⟨behind.1, Nat.le_trans behind.2 lower⟩ some_body
        left

theorem standing_request_line (slot r next : Request) (bytes line after : Text) (stop : Nat)
    (fresh : HeadUntouched slot.init r) (form : r.cgi = slot.cgi) (short : r.readIdx ≤ readBufferSize)
    (upper : stop + 2 ≤ r.readIdx) (taken : LineTaken r bytes stop line after)
    (accepted : parseRequestLine (beginLine { r with
      readBuf := store (store r.readBuf stop 0) (stop + 1) 0, checkIdx := stop + 2 }) r.startLine = (.code .noRequest, next)) :
    Standing slot bytes next := by
  let s := beginLine { r with readBuf := store (store r.readBuf stop 0) (stop + 1) 0, checkIdx := stop + 2 }
  change parseRequestLine s r.startLine = _ at accepted
  have length := taken.length
  have seen := visible_length line
  have here : TextAt s.readBuf r.startLine (visible line) := taken.text
  obtain ⟨method, path, parts⟩ := accepted_grammar s r.startLine (visible line) here (by omega) (by rw [accepted])
  obtain ⟨found, url, result, header, isMethod, points, pageText, below⟩ :=
    grammar_read s r.startLine (visible line) path method parts here (by omega)
  cases accepted.symm.trans result
  obtain ⟨untouched, isForm⟩ := request_line_form s next r.startLine accepted
  have kept := parse_request_line_kept s r.startLine
  have stores := request_line_within s r.startLine stop (lined_after_line r.readBuf stop) (by omega)
  obtain ⟨read, _⟩ := request_line_reads s r.startLine
  rw [accepted] at kept stores read
  obtain ⟨received, check, begun, _, _⟩ := kept
  have limit : next.startLine = stop + 2 := begun
  have behind : next.readBuf (stop + 1) ≠ carriageReturn := by
    refine read.returns (stop + 1) ?_
    change store (store r.readBuf stop 0) (stop + 1) 0 (stop + 1) ≠ carriageReturn
    rw [store_here]
    decide
  have same : ∀ index, stop + 2 ≤ index → next.readBuf index = r.readBuf index := by
    intro index above
    refine (stores index (.inr above)).trans ?_
    change store (store r.readBuf stop 0) (stop + 1) 0 index = r.readBuf index
    rw [store_elsewhere _ _ _ _ (by omega), store_elsewhere _ _ _ _ (by omega)]
  refine .header line after [] header ?_ ?_ (line_taken_unread r next bytes line after stop taken ⟨limit, check, received⟩ same behind)
    ⟨⟨path, url, isMethod ▸ parts, points, ⟨pageText, by omega⟩⟩, isForm.trans ?_, fun header member => absurd member List.not_mem_nil,
      untouched.linger.trans fresh.linger, untouched.length.trans fresh.length, untouched.host.trans fresh.host⟩
  · rw [taken.whole]
    rfl
  · exact List.forall_mem_singleton.mpr taken.clean
  · rw [show s.cgi = r.cgi from rfl, form]

theorem header_lines_snoc (headers : List Text) (line : Text) :
    headerLines (headers ++ [line]) = headerLines headers ++ (line ++ lineEnd) := by
  simp only [headerLines, List.flatMap_append, List.flatMap_cons, List.flatMap_nil, List.append_nil]

theorem host_behind (r next : Request) (text limit high : Nat) (line : Text) (seen : List Text) (parsed : HeaderParsed r next text line)
    (here : TextAt r.readBuf text line) (room : text + line.length < readBufferSize) (ends : text + line.length < high)
    (host : HostStored r (lastNamed (ascii "Host:") seen) limit) (later : limit ≤ high) :
    HostStored next (lastNamed (ascii "Host:") (seen ++ [line])) high := by
  have same : ∀ index, index < limit → next.readBuf index = r.readBuf index := fun _ _ => by rw [parsed.memory]
  have points := parsed.host
  rw [last_named_snoc]
  by_cases isHost : named (ascii "Host:") line = true
  · rw [if_pos isHost] at points ⊢
    obtain ⟨there, last⟩ := field_value_text r.readBuf text (ascii "Host:") line here isHost room
    refine ⟨_, points, ?_, by omega⟩
    rw [parsed.memory]
    exact there
  · rw [if_neg isHost] at points ⊢
    exact host_kept r next _ limit high host points same later

theorem standing_header_line (slot r next : Request) (bytes rest line field after : Text) (headers : List Text) (stop : Nat)
    (state : r.checkState = .header) (whole : bytes = line ++ (lineEnd ++ (headerLines headers ++ rest)))
    (clean : ∀ text ∈ line :: headers, ∀ c ∈ text, c ∉ lineEnd) (head : HeadRead slot line headers r.startLine r)
    (short : r.readIdx ≤ readBufferSize) (upper : stop + 2 ≤ r.readIdx) (taken : LineTaken r rest stop field after)
    (accepted : parseHeaders (beginLine { r with
      readBuf := store (store r.readBuf stop 0) (stop + 1) 0, checkIdx := stop + 2 }) r.startLine = (.code .noRequest, next)) :
    Standing slot bytes next := by
  let s := beginLine { r with readBuf := store (store r.readBuf stop 0) (stop + 1) 0, checkIdx := stop + 2 }
  change parseHeaders s r.startLine = _ at accepted
  have length := taken.length
  have seen := visible_length field
  have here : TextAt s.readBuf r.startLine (visible field) := taken.text
  have same : ∀ index, index < r.startLine → s.readBuf index = r.readBuf index := by
    intro index below
    change store (store r.readBuf stop 0) (stop + 1) 0 index = r.readBuf index
    rw [store_elsewhere _ _ _ _ (by omega), store_elsewhere _ _ _ _ (by omega)]
  have standing := head_read_kept slot r s line headers r.startLine head ⟨rfl, rfl, rfl, rfl, rfl, rfl⟩ same
  by_cases blank : visible field = []
  · have nul : s.readBuf r.startLine = 0 := by
      rw [blank] at here
      exact here.nul
    have ended : r.contentLength ≠ 0 ∧ next = { s with checkState := .connect } := by
      unfold parseHeaders at accepted
      simp only [if_pos nul] at accepted
      split at accepted
      · rename_i some_body
        cases accepted
        exact ⟨some_body, rfl⟩
      · cases accepted
    obtain ⟨some_body, rfl⟩ := ended
    refine .body line field after headers r.startLine rfl ?_ ?_ blank
      (head_read_kept slot s _ line headers r.startLine standing ⟨rfl, rfl, rfl, rfl, rfl, rfl⟩ fun _ _ => rfl) ?_ some_body
      (Nat.le_of_eq taken.left.symm)
    · rw [whole, taken.whole]
    · intro text member
      rcases List.mem_cons.mp member with rfl | later
      · exact clean text (List.mem_cons_self ..)
      · rcases List.mem_cons.mp later with rfl | inside
        · exact taken.clean
        · exact clean text (List.mem_cons_of_mem _ inside)
    · change r.startLine + 2 ≤ stop + 2 ∧ stop + 2 ≤ stop + 2
      omega
  · obtain ⟨found, result, parsed⟩ := header_line_parsed s r.startLine (visible field) ⟨blank, visible_clean field taken.clean⟩ here
      (by omega)
    cases accepted.symm.trans result
    have kept := parse_headers_kept s r.startLine
    rw [accepted] at kept
    obtain ⟨received, check, begun, _, _⟩ := kept
    have limit : next.startLine = stop + 2 := begun
    have memory : next.readBuf = store (store r.readBuf stop 0) (stop + 1) 0 := parsed.memory
    have behind : next.readBuf (stop + 1) ≠ carriageReturn := by
      rw [memory, store_here]
      decide
    have beyond : ∀ index, stop + 2 ≤ index → next.readBuf index = r.readBuf index := by
      intro index above
      rw [memory, store_elsewhere _ _ _ _ (by omega), store_elsewhere _ _ _ _ (by omega)]
    refine .header line after (headers ++ [field]) (parsed.state.trans state) ?_ ?_
      (line_taken_unread r next rest field after stop taken ⟨limit, check, received⟩ beyond behind) ⟨?_, ?_, ?_, ?_, ?_, ?_⟩
    · rw [whole, taken.whole, header_lines_snoc]
      simp only [List.append_assoc]
    · intro text member
      rcases List.mem_append.mp (List.cons_append ▸ member) with old | new
      · exact clean text old
      · rw [List.mem_singleton.mp new]
        exact taken.clean
    · obtain ⟨path, url, grammar, points, stored⟩ := standing.target
      refine ⟨path, url, parsed.method ▸ grammar, parsed.url.trans points, ?_⟩
      exact text_below_kept _ _ _ r.startLine next.startLine _ stored (fun _ _ => by rw [parsed.memory]) (by omega)
    · rw [parsed.form, parsed.method]
      exact standing.form
    · intro header member
      rcases List.mem_append.mp member with old | new
      · exact standing.named header old
      · rw [List.mem_singleton.mp new]
        exact blank
    · rw [parsed.linger, List.map_append, List.any_append, standing.linger, List.map_singleton, List.any_cons, List.any_nil,
        Bool.or_false]
    · rw [parsed.length, List.map_append, List.map_singleton, length_of_snoc, standing.length]
    · rw [List.map_append, List.map_singleton]
      exact host_behind s next r.startLine r.startLine next.startLine _ _ parsed here (by omega) (by omega) standing.host (by omega)

theorem standing_body (slot r : Request) (bytes line blank rest : Text) (headers : List Text) (limit : Nat) (status : LineStatus)
    (state : r.checkState = .connect) (whole : bytes = line ++ (lineEnd ++ (headerLines headers ++ (blank ++ (lineEnd ++ rest)))))
    (clean : ∀ text ∈ line :: blank :: headers, ∀ c ∈ text, c ∉ lineEnd) (ends : visible blank = [])
    (head : HeadRead slot line headers limit r) (behind : limit + 2 ≤ r.startLine ∧ r.startLine ≤ r.checkIdx)
    (some_body : r.contentLength ≠ 0) (left : r.readIdx ≤ r.startLine + rest.length) (ordered : Ordered r)
    (ok : (nextLine status r).1 = .lineOk) :
    Standing slot bytes (nextLine status r).2 := by
  have again : Standing slot bytes r := .body line blank rest headers limit state whole clean ends head behind some_body left
  by_cases begun : r.checkState = .connect ∧ status = .lineOk
  · rw [show nextLine status r = (.lineOk, r) from if_pos begun]
    exact again
  · have scanned : nextLine status r = parseLine r := if_neg begun
    rw [scanned] at ok ⊢
    obtain ⟨stop, lower, _, result⟩ := parse_line_ok r ordered.check ok
    rw [result]
    refine .body line blank rest headers limit state whole clean ends
      (head_read_kept slot r _ line headers limit head ⟨rfl, rfl, rfl, rfl, rfl, rfl⟩ fun index below => ?_) ⟨behind.1, ?_⟩ some_body
      left
    · change store (store r.readBuf stop 0) (stop + 1) 0 index = r.readBuf index
      rw [store_elsewhere _ _ _ _ (by omega), store_elsewhere _ _ _ _ (by omega)]
    · change r.startLine ≤ stop + 2
      omega

theorem request_line_again (r next : Request) (after : LineStatus) (again : advance r = .again after next)
    (state : r.checkState = .requestLine) : parseRequestLine (beginLine r) r.startLine = (.code .noRequest, next) := by
  unfold advance at again
  rw [state] at again
  exact (advance_with_again _ _ _ _ again).2

theorem headers_again (r next : Request) (after : LineStatus) (again : advance r = .again after next)
    (state : r.checkState = .header) : parseHeaders (beginLine r) r.startLine = (.code .noRequest, next) := by
  unfold advance at again
  rw [state] at again
  exact (advance_with_again _ _ _ _ again).2

theorem headers_stop (r final : Request) (outcome : Outcome) (stop : advance r = .stop outcome final)
    (state : r.checkState = .header) : parseHeaders (beginLine r) r.startLine = (outcome, final) := by
  unfold advance at stop
  rw [state] at stop
  exact advance_with_stop _ _ _ _ stop

theorem standing_again (slot r next : Request) (bytes : Text) (status after : LineStatus) (standing : Standing slot bytes r)
    (ordered : Ordered r) (short : r.readIdx ≤ readBufferSize) (ok : (nextLine status r).1 = .lineOk)
    (again : advance (nextLine status r).2 = .again after next) : Standing slot bytes next := by
  cases standing with
  | line state unread fresh form =>
      rw [next_line_outside status r (by rw [state]; decide)] at ok again
      have scan := unread_scans r bytes unread
      generalize parseLine r = result at ok again scan
      cases scan with
      | pending status index notOk bounds clean => exact absurd ok notOk
      | found stop bounds clean ends =>
          obtain ⟨line, after, taken⟩ := unread_line r bytes stop unread bounds clean ends
          have accepted := request_line_again _ next _ again state
          exact standing_request_line slot r next bytes line after stop fresh form short bounds.2 taken accepted
  | header line rest headers state whole clean unread head =>
      rw [next_line_outside status r (by rw [state]; decide)] at ok again
      have scan := unread_scans r rest unread
      generalize parseLine r = result at ok again scan
      cases scan with
      | pending status index notOk bounds clean => exact absurd ok notOk
      | found stop bounds scanned ends =>
          obtain ⟨field, after, taken⟩ := unread_line r rest stop unread bounds scanned ends
          have accepted := headers_again _ next _ again state
          exact standing_header_line slot r next bytes rest line field after headers stop state whole clean head short bounds.2 taken
            accepted
  | body line blank rest headers limit state whole clean ends head behind some_body left =>
      have looked := standing_body slot r bytes line blank rest headers limit status state whole clean ends head behind some_body left
        ordered ok
      have bodyState := next_line_check_state status r ordered
      have lineOrdered := next_line_ordered status r ordered
      rw [state] at bodyState
      generalize (nextLine status r).2 = s at again looked bodyState lineOrdered
      cases advance_again s next after again with
      | requestLine _ other => exact absurd (bodyState.symm.trans other) (by decide)
      | header _ other => exact absurd (bodyState.symm.trans other) (by decide)
      | content _ incomplete =>
          cases looked with
          | line other => exact absurd (bodyState.symm.trans other) (by decide)
          | header _ _ _ other => exact absurd (bodyState.symm.trans other) (by decide)
          | body line blank rest headers limit state whole clean ends head behind some_body left =>
              exact .body line blank rest headers limit state whole clean ends
                (head_read_kept slot s _ line headers limit head ⟨rfl, rfl, rfl, rfl, rfl, rfl⟩ fun _ _ => rfl)
                ⟨Nat.le_trans behind.1 behind.2, Nat.le_refl _⟩ some_body (Nat.le_trans left (Nat.add_le_add_right behind.2 _))

theorem round_received (slot r : Request) (batches : List Text) (status : LineStatus) (round : Round slot batches status r) :
    r.readIdx = batches.flatten.length := by
  induction round with
  | first bytes => exact Nat.zero_add _ |>.trans (by simp)
  | again batches status after r next round ok advanced ih =>
      have ordered := round_ordered slot r batches status round
      rw [(advance_ordered after _ next (next_line_ordered status r ordered) advanced).2.2, (next_line_cursors status r ordered).1, ih]
  | later batches status r round pending bytes ih =>
      rw [Request.feed_read_idx, (next_line_cursors status r (round_ordered slot r batches status round)).1, ih]
      simp

theorem round_stands (slot r : Request) (batches : List Text) (status : LineStatus) (round : Round slot batches status r)
    (short : batches.flatten.length ≤ readBufferSize) : Standing slot batches.flatten r := by
  induction round with
  | first bytes =>
      rw [List.flatten_singleton]
      exact standing_start slot bytes
  | again batches status after r next round ok advanced ih =>
      exact standing_again slot r next _ status after (ih short) (round_ordered slot r batches status round)
        (by rw [round_received slot r batches status round]; exact short) ok advanced
  | later batches status r round pending bytes ih =>
      have ordered := round_ordered slot r batches status round
      rw [List.flatten_append, List.length_append] at short
      rw [List.flatten_append, List.flatten_singleton]
      exact standing_feed slot _ _ bytes (next_line_ordered status r ordered)
        (standing_pending slot r _ status (ih (by omega)) ordered pending)

end Standing

section Accepting

-- What an answered request was: a request line, header lines, a blank line and a whole
-- body, and the fields of http_conn as they say. A negative length lets parse_content
-- store a NUL among the strings of the head.
structure AcceptedHead (slot : Request) (bytes line blank rest path : Text) (headers : List Text) (r : Request) : Prop where
  whole : bytes = line ++ (lineEnd ++ (headerLines headers ++ (blank ++ (lineEnd ++ rest))))
  clean : ∀ text ∈ line :: blank :: headers, ∀ c ∈ text, c ∉ lineEnd
  ends : visible blank = []
  named : ∀ header ∈ headers, visible header ≠ []
  grammar : Grammar (visible line) r.method path
  form : r.cgi = if r.method = .post then 1 else slot.cgi
  linger : r.linger = (headers.map visible).any asksKeepAlive
  length : r.contentLength = lengthOf (headers.map visible)
  body : r.contentLength ≤ rest.length
  strings : 0 ≤ r.contentLength → requestUrl r = pageOf path ∧
    r.host.map (cstr r.readBuf) = lastNamed (ascii "Host:") (headers.map visible)

theorem host_string (r : Request) (name : Option Text) (limit : Nat) (host : HostStored r name limit) (small : limit ≤ readBufferSize) :
    r.host.map (cstr r.readBuf) = name := by
  cases name with
  | none => rw [show r.host = none from host, Option.map_none]
  | some name =>
      obtain ⟨address, points, here, below⟩ := host
      rw [points, Option.map_some, text_at_cstr r.readBuf address name here (by omega)]

theorem accepted_head (slot r final : Request) (bytes line blank rest : Text) (headers : List Text) (limit : Nat)
    (whole : bytes = line ++ (lineEnd ++ (headerLines headers ++ (blank ++ (lineEnd ++ rest)))))
    (clean : ∀ text ∈ line :: blank :: headers, ∀ c ∈ text, c ∉ lineEnd) (ends : visible blank = [])
    (head : HeadRead slot line headers limit r) (kept : HeadKept r final) (small : limit ≤ readBufferSize)
    (same : 0 ≤ final.contentLength → ∀ index, index < limit → final.readBuf index = r.readBuf index)
    (body : final.contentLength ≤ rest.length) : ∃ path, AcceptedHead slot bytes line blank rest path headers final := by
  obtain ⟨path, url, grammar, points, stored⟩ := head.target
  refine ⟨path, whole, clean, ends, head.named, kept.method ▸ grammar, ?_, kept.linger.trans head.linger,
    kept.length.trans head.length, body, fun positive => ⟨?_, ?_⟩⟩
  · rw [kept.cgi, kept.method]
    exact head.form
  · obtain ⟨here, below⟩ := text_below_kept _ final.readBuf url limit limit _ stored (same positive) (Nat.le_refl _)
    rw [requestUrl, kept.url, points]
    exact text_at_cstr final.readBuf url _ here (by omega)
  · exact host_string final _ limit (host_kept r final _ limit limit head.host kept.host (same positive) (Nat.le_refl _)) small

theorem headers_served (r final : Request) (text : Nat) (served : parseHeaders r text = (.code .getRequest, final)) :
    r.readBuf text = 0 ∧ r.contentLength = 0 ∧ final = r := by
  unfold parseHeaders at served
  dsimp only at served
  split at served
  · rename_i nul
    split at served
    · cases served
    · rename_i bodiless
      cases served
      exact ⟨nul, not_not.mp bodiless, rfl⟩
  · repeat' split at served
    all_goals cases served

theorem body_served (slot r final : Request) (bytes line blank rest : Text) (headers : List Text) (limit : Nat)
    (whole : bytes = line ++ (lineEnd ++ (headerLines headers ++ (blank ++ (lineEnd ++ rest)))))
    (clean : ∀ text ∈ line :: blank :: headers, ∀ c ∈ text, c ∉ lineEnd) (ends : visible blank = [])
    (head : HeadRead slot line headers limit r) (behind : limit + 2 ≤ r.startLine ∧ r.startLine ≤ r.checkIdx)
    (left : r.readIdx ≤ r.startLine + rest.length) (ordered : Ordered r) (short : r.readIdx ≤ readBufferSize)
    (complete : parseContent (beginLine r) r.startLine = (.code .getRequest, final)) :
    ∃ path, AcceptedHead slot bytes line blank rest path headers final := by
  have enough := (content_complete_iff r).mp (by rw [complete]; simp)
  obtain ⟨rfl, lower, upper⟩ := content_stored r final complete
  have check := ordered.check
  unfold nulIndex at lower upper
  have size : readBufferSize = 2048 := rfl
  refine accepted_head slot r _ bytes line blank rest headers limit whole clean ends head ⟨rfl, rfl, rfl, rfl, rfl, rfl⟩ (by omega)
    (fun positive index below => ?_) ?_
  · have positive : 0 ≤ r.contentLength := positive
    change store r.readBuf _ 0 index = r.readBuf index
    rw [store_elsewhere _ _ _ _ (by unfold nulIndex; omega)]
  · change r.contentLength ≤ _
    rw [to_int_small _ (by omega) (by omega)] at enough
    omega

theorem standing_blank_line (slot r final : Request) (bytes rest line field after : Text) (headers : List Text) (stop : Nat)
    (whole : bytes = line ++ (lineEnd ++ (headerLines headers ++ rest)))
    (clean : ∀ text ∈ line :: headers, ∀ c ∈ text, c ∉ lineEnd) (head : HeadRead slot line headers r.startLine r)
    (short : r.readIdx ≤ readBufferSize) (upper : stop + 2 ≤ r.readIdx) (taken : LineTaken r rest stop field after)
    (served : parseHeaders (beginLine { r with
      readBuf := store (store r.readBuf stop 0) (stop + 1) 0, checkIdx := stop + 2 }) r.startLine = (.code .getRequest, final)) :
    ∃ path, AcceptedHead slot bytes line field after path headers final := by
  obtain ⟨nul, bodiless, rfl⟩ := headers_served _ final r.startLine served
  have length := taken.length
  have ends : visible field = [] := by
    have here := taken.text
    cases shown : visible field with
    | nil => rfl
    | cons c text =>
        rw [shown] at here
        have first := here.bytes 0 (Nat.succ_pos _)
        exact absurd (first.symm.trans nul) (here.clean c (List.mem_cons_self ..))
  refine accepted_head slot r _ bytes line field after headers r.startLine ?_ ?_ ends head ⟨rfl, rfl, rfl, rfl, rfl, rfl⟩ (by omega)
    (fun _ index below => ?_) ?_
  · rw [whole, taken.whole]
  · intro text member
    rcases List.mem_cons.mp member with rfl | later
    · exact clean text (List.mem_cons_self ..)
    · rcases List.mem_cons.mp later with rfl | inside
      · exact taken.clean
      · exact clean text (List.mem_cons_of_mem _ inside)
  · change store (store r.readBuf stop 0) (stop + 1) 0 index = r.readBuf index
    rw [store_elsewhere _ _ _ _ (by omega), store_elsewhere _ _ _ _ (by omega)]
  · have none_left : r.contentLength = 0 := bodiless
    change r.contentLength ≤ _
    omega

theorem standing_served (slot r final : Request) (bytes : Text) (status : LineStatus) (standing : Standing slot bytes r)
    (ordered : Ordered r) (short : r.readIdx ≤ readBufferSize) (ok : (nextLine status r).1 = .lineOk)
    (stop : advance (nextLine status r).2 = .stop (.code .getRequest) final) :
    ∃ line blank rest path headers, AcceptedHead slot bytes line blank rest path headers final := by
  have requested := advance_requested _ final stop
  cases standing with
  | line state unread fresh form =>
      have same := next_line_check_state status r ordered
      cases requested with
      | header other => exact absurd (state.symm.trans (same.symm.trans other)) (by decide)
      | content _ other => exact absurd (state.symm.trans (same.symm.trans other)) (by decide)
  | header line rest headers state whole clean unread head =>
      rw [next_line_outside status r (by rw [state]; decide)] at ok stop
      have scan := unread_scans r rest unread
      generalize parseLine r = result at ok stop scan
      cases scan with
      | pending status index notOk bounds clean => exact absurd ok notOk
      | found behind bounds scanned ends =>
          obtain ⟨field, after, taken⟩ := unread_line r rest behind unread bounds scanned ends
          obtain ⟨path, accepted⟩ := standing_blank_line slot r final bytes rest line field after headers behind whole clean head short
            bounds.2 taken (headers_stop _ final _ stop state)
          exact ⟨line, field, after, path, headers, accepted⟩
  | body line blank rest headers limit state whole clean ends head behind some_body left =>
      have looked := standing_body slot r bytes line blank rest headers limit status state whole clean ends head behind some_body left
        ordered ok
      have bodyState := next_line_check_state status r ordered
      have lineOrdered := next_line_ordered status r ordered
      have received := (next_line_cursors status r ordered).1
      rw [state] at bodyState
      generalize (nextLine status r).2 = s at requested looked bodyState lineOrdered received
      cases requested with
      | header other => exact absurd (bodyState.symm.trans other) (by decide)
      | content _ _ complete =>
          cases looked with
          | line other => exact absurd (bodyState.symm.trans other) (by decide)
          | header _ _ _ other => exact absurd (bodyState.symm.trans other) (by decide)
          | body line blank rest headers limit state whole clean ends head behind some_body left =>
              obtain ⟨path, accepted⟩ := body_served slot s final bytes line blank rest headers limit whole clean ends head behind left
                lineOrdered (received ▸ short) complete
              exact ⟨line, blank, rest, path, headers, accepted⟩

theorem accepted_well_formed (slot : Request) (batches : List Text) (short : batches.flatten.length ≤ readBufferSize)
    (accepted : (receive slot.init batches).1 = .code .getRequest) :
    ∃ read line blank rest path headers, read <+: batches ∧
      AcceptedHead slot read.flatten line blank rest path headers (receive slot.init batches).2 := by
  have some_batch : batches ≠ [] := by
    rintro rfl
    cases accepted
  obtain ⟨read, within, ended, _⟩ := receive_ends slot batches some_batch
  have fewer : read.flatten.length ≤ readBufferSize := by
    obtain ⟨later, rfl⟩ := within
    rw [List.flatten_append, List.length_append] at short
    omega
  generalize receive slot.init batches = result at accepted ended ⊢
  cases ended with
  | waiting => cases accepted
  | stopped r final outcome reached stop =>
      cases accepted
      obtain ⟨status, before, round, line⟩ := reached
      have standing := round_stands slot before read status round fewer
      obtain ⟨text, blank, rest, path, headers, head⟩ := standing_served slot before final _ status standing
        (round_ordered slot before read status round) (by rw [round_received slot before read status round]; exact fewer)
        (by rw [line]) (by rw [line]; exact stop)
      exact ⟨read, text, blank, rest, path, headers, within, head⟩

theorem accepted_well_formed_login :
    ∃ read line blank rest path headers,
      read <+: [ascii "POST /2CGISQL.cgi HTTP/1.1\r", ascii "\nContent-Length: 17\r\nHost: a\r\n\r\nuser=1&password=2"] ∧
        AcceptedHead Request.fresh read.flatten line blank rest path headers (receive Request.fresh.init
          [ascii "POST /2CGISQL.cgi HTTP/1.1\r", ascii "\nContent-Length: 17\r\nHost: a\r\n\r\nuser=1&password=2"]).2 :=
  accepted_well_formed Request.fresh _ (by decide +kernel) (by decide +kernel)

end Accepting

end WzyServer.Http
