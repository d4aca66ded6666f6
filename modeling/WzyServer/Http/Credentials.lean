import WzyServer.Http.Acceptance
import WzyServer.Http.Isolation

set_option autoImplicit false

namespace WzyServer.Http

open CString Chunks Word

-- do_request's test for the login and registration branch.
def EntersForm (r : Request) : Prop := r.cgi = 1 ∧ (urlRoute r = some 50 ∨ urlRoute r = some 51)

instance (r : Request) : Decidable (EntersForm r) := inferInstanceAs (Decidable (_ ∧ _))

theorem enters_form_iff (r : Request) (url p : Nat) (target : r.url = some url)
    (found : strrchr (cstr r.readBuf url) slash = some p) :
    EntersForm r ↔ r.cgi = 1 ∧ (r.readBuf (url + p + 1) = 50 ∨ r.readBuf (url + p + 1) = 51) := by
  simp [EntersForm, urlRoute, target, found]

section Heads

structure HeadLines (line : Text) (headers : List Text) (blank : Text) : Prop where
  clean : ∀ text ∈ line :: blank :: headers, ∀ c ∈ text, c ∉ lineEnd
  named : ∀ header ∈ headers, visible header ≠ []
  ends : visible blank = []

def headBytes (line : Text) (headers : List Text) (blank : Text) : Text :=
  line ++ (lineEnd ++ (headerLines headers ++ (blank ++ lineEnd)))

theorem line_end_split (line other rest more : Text) (clean : ∀ c ∈ line, c ∉ lineEnd) (otherClean : ∀ c ∈ other, c ∉ lineEnd)
    (same : line ++ (lineEnd ++ rest) = other ++ (lineEnd ++ more)) : line = other ∧ rest = more := by
  have ended : ∀ (text : Text) (c : UInt8), (∀ d ∈ c :: text, d ∉ lineEnd) → c ≠ carriageReturn :=
    fun text c all => ((not_end_iff c).mp (all c (List.mem_cons_self ..))).1
  induction line generalizing other with
  | nil =>
      cases other with
      | nil => exact ⟨rfl, List.append_cancel_left same⟩
      | cons c text => exact absurd (List.cons.inj same).1.symm (ended text c otherClean)
  | cons c text ih =>
      cases other with
      | nil => exact absurd (List.cons.inj same).1 (ended text c clean)
      | cons d more_text =>
          obtain ⟨rfl, behind⟩ := List.cons.inj same
          obtain ⟨rfl, equal⟩ := ih more_text (fun e member => clean e (List.mem_cons_of_mem _ member))
            (fun e member => otherClean e (List.mem_cons_of_mem _ member)) behind
          exact ⟨rfl, equal⟩

theorem header_lines_cons (header : Text) (headers : List Text) (rest : Text) :
    headerLines (header :: headers) ++ rest = header ++ (lineEnd ++ (headerLines headers ++ rest)) := by
  simp only [headerLines, List.flatMap_cons, List.append_assoc]

theorem headers_split (headers others : List Text) (blank rest more : Text)
    (clean : ∀ text ∈ headers, ∀ c ∈ text, c ∉ lineEnd) (othersClean : ∀ text ∈ blank :: others, ∀ c ∈ text, c ∉ lineEnd)
    (named : ∀ header ∈ headers, visible header ≠ []) (ends : visible blank = [])
    (same : headerLines headers ++ rest = headerLines others ++ (blank ++ (lineEnd ++ more))) :
    ∃ later, others = headers ++ later ∧ rest = headerLines later ++ (blank ++ (lineEnd ++ more)) := by
  induction headers generalizing others with
  | nil => exact ⟨others, rfl, same⟩
  | cons header headers ih =>
      obtain ⟨first, behind⟩ := List.forall_mem_cons.mp clean
      obtain ⟨firstNamed, behindNamed⟩ := List.forall_mem_cons.mp named
      obtain ⟨blankClean, linesClean⟩ := List.forall_mem_cons.mp othersClean
      rw [header_lines_cons] at same
      cases others with
      | nil =>
          obtain ⟨rfl, _⟩ := line_end_split header blank _ _ first blankClean same
          exact absurd ends firstNamed
      | cons other others =>
          obtain ⟨otherClean, restClean⟩ := List.forall_mem_cons.mp linesClean
          rw [header_lines_cons] at same
          obtain ⟨rfl, equal⟩ := line_end_split header other _ _ first otherClean same
          obtain ⟨later, rfl, left⟩ := ih others behind (List.forall_mem_cons.mpr ⟨blankClean, restClean⟩) behindNamed equal
          exact ⟨later, rfl, left⟩

theorem holds_line_behind (line rest : Text) (clean : ∀ c ∈ line, c ∉ lineEnd) : holdsLine (line ++ rest) = holdsLine rest := by
  induction line with
  | nil => rfl
  | cons c text ih =>
      obtain ⟨first, behind⟩ := List.forall_mem_cons.mp clean
      obtain ⟨notReturn, notFeed⟩ := (not_end_iff c).mp first
      rw [List.cons_append, holdsLine, if_neg notReturn, if_neg notFeed]
      exact ih behind

theorem holds_line_end (line rest : Text) (clean : ∀ c ∈ line, c ∉ lineEnd) : holdsLine (line ++ (lineEnd ++ rest)) = true := by
  rw [holds_line_behind line _ clean]
  rfl

variable (line other : Text) (headers others : List Text) (blank otherBlank : Text)

theorem head_length (rest : Text) : headBytes line headers blank ++ rest =
    line ++ (lineEnd ++ (headerLines headers ++ (blank ++ (lineEnd ++ rest)))) := by
  simp only [headBytes, List.append_assoc]

theorem head_unique (first : HeadLines line headers blank) (second : HeadLines other others otherBlank) (rest more : Text)
    (same : headBytes line headers blank ++ rest = headBytes other others otherBlank ++ more) :
    line = other ∧ headers = others ∧ blank = otherBlank ∧ rest = more := by
  obtain ⟨lineClean, behindClean⟩ := List.forall_mem_cons.mp first.clean
  obtain ⟨blankClean, linesClean⟩ := List.forall_mem_cons.mp behindClean
  obtain ⟨otherClean, othersClean⟩ := List.forall_mem_cons.mp second.clean
  rw [head_length, head_length] at same
  obtain ⟨rfl, behind⟩ := line_end_split line other _ _ lineClean otherClean same
  obtain ⟨later, rfl, left⟩ := headers_split headers others otherBlank _ more linesClean othersClean first.named second.ends behind
  obtain ⟨otherBlankClean, allClean⟩ := List.forall_mem_cons.mp othersClean
  cases later with
  | nil =>
      obtain ⟨rfl, equal⟩ := line_end_split blank otherBlank _ _ blankClean otherBlankClean left
      exact ⟨rfl, (List.append_nil _).symm, rfl, equal⟩
  | cons header later =>
      rw [header_lines_cons] at left
      have member : header ∈ headers ++ header :: later := List.mem_append_right _ (List.mem_cons_self ..)
      obtain ⟨rfl, _⟩ := line_end_split blank header _ _ blankClean (allClean header member) left
      exact absurd first.ends (second.named blank member)

theorem head_open (second : HeadLines other others otherBlank) (rest more : Text) (clean : ∀ text ∈ line :: headers, ∀ c ∈ text, c ∉ lineEnd)
    (named : ∀ header ∈ headers, visible header ≠ []) (unended : holdsLine rest = false) :
    line ++ (lineEnd ++ (headerLines headers ++ rest)) ≠ headBytes other others otherBlank ++ more := by
  intro same
  obtain ⟨lineClean, linesClean⟩ := List.forall_mem_cons.mp clean
  obtain ⟨otherClean, othersClean⟩ := List.forall_mem_cons.mp second.clean
  rw [head_length] at same
  obtain ⟨rfl, behind⟩ := line_end_split line other _ _ lineClean otherClean same
  obtain ⟨later, rfl, rfl⟩ := headers_split headers others otherBlank rest more linesClean othersClean named second.ends behind
  obtain ⟨blankClean, allClean⟩ := List.forall_mem_cons.mp othersClean
  cases later with
  | nil =>
      change holdsLine (otherBlank ++ (lineEnd ++ more)) = false at unended
      rw [holds_line_end otherBlank more blankClean] at unended
      cases unended
  | cons header later =>
      rw [header_lines_cons, holds_line_end header _ (allClean header (List.mem_append_right _ (List.mem_cons_self ..)))] at unended
      cases unended

end Heads

section Cuts

-- No batch that ends in the body has parse_line find a line there, and only behind the
-- last of them m_check_idx has left the place where the body begins.
def CutsKeepPlace (head : Text) (batches : List Text) : Prop :=
  ∀ early part, early <+: batches → early.flatten = head ++ part → holdsLine part = false ∧ (early ≠ batches → ScannerStays part)

def CutsStay (head : Text) (batches : List Text) : Prop :=
  ∀ early part, early <+: batches → early.flatten = head ++ part → ScannerStays part

variable (head rest : Text) (batches : List Text) (batch : Text) (whole : (batches ++ [batch]).flatten = head ++ rest)

include whole

theorem cuts_stay_snoc : CutsStay head (batches ++ [batch]) ↔ CutsStay head batches ∧ ScannerStays rest := by
  constructor
  · intro stay
    exact ⟨fun early part within => stay early part (within.trans (List.prefix_append _ _)), stay _ rest List.prefix_rfl whole⟩
  · rintro ⟨stay, last⟩ early part within cut
    rcases List.prefix_concat_iff.mp within with rfl | inside
    · rwa [List.append_cancel_left (cut.symm.trans whole)]
    · exact stay early part inside cut

theorem cuts_keep_place_snoc : CutsKeepPlace head (batches ++ [batch]) ↔ CutsStay head batches ∧ holdsLine rest = false := by
  constructor
  · intro keep
    refine ⟨fun early part within cut => (keep early part (within.trans (List.prefix_append _ _)) cut).2 fun same => ?_,
      (keep _ rest List.prefix_rfl whole).1⟩
    have length := within.length_le
    rw [same, List.length_append] at length
    exact absurd length (by simp)
  · rintro ⟨stay, last⟩ early part within cut
    rcases List.prefix_concat_iff.mp within with rfl | inside
    · rw [List.append_cancel_left (cut.symm.trans whole)]
      exact ⟨last, fun other => absurd rfl other⟩
    · exact ⟨stays_no_line part (stay early part inside cut), fun _ => stay early part inside cut⟩

end Cuts

section Rounds

theorem unread_ahead (r : Request) (rest : Text) (unread : Unread r rest) (begun : r.checkIdx = r.startLine) : Ahead r rest := by
  obtain ⟨_, _, whole, bytes, _, before⟩ := unread
  rw [← begun] at whole bytes before
  exact ⟨whole.symm, bytes, before⟩

theorem unread_ok_iff (r : Request) (rest : Text) (unread : Unread r rest) : (parseLine r).1 = .lineOk ↔ holdsLine rest = true := by
  obtain ⟨begun, scanned, whole, bytes, clean, before⟩ := unread
  obtain ⟨count, check⟩ : ∃ count, r.checkIdx = r.startLine + count := ⟨r.checkIdx - r.startLine, by omega⟩
  have seen : ∀ c ∈ rest.take count, c ∉ lineEnd := by
    intro c member
    obtain ⟨offset, inside, rfl⟩ := List.getElem_of_mem member
    rw [List.length_take] at inside
    rw [List.getElem_take, ← bytes offset (by omega)]
    exact clean _ (Nat.le_add_right _ _) (by omega)
  have ahead : Ahead r (rest.drop count) := by
    refine ⟨by rw [List.length_drop]; omega, fun offset inside => ?_, fun some_before => ?_⟩
    · rw [List.length_drop] at inside
      rw [List.getElem_drop, check, Nat.add_assoc]
      exact bytes (count + offset) (by omega)
    · by_cases first : count = 0
      · subst first
        rw [check] at some_before ⊢
        exact before some_before
      · exact ((not_end_iff _).mp (clean (r.checkIdx - 1) (by omega) (by omega))).1
  rw [parse_line_ok_iff r _ ahead, ← holds_line_behind (rest.take count) _ seen, List.take_append_drop]

theorem unread_stays_iff (r : Request) (rest : Text) (unread : Unread r rest) (begun : r.checkIdx = r.startLine) :
    (parseLine r).2.checkIdx = r.startLine ↔ ScannerStays rest := by
  have ahead := unread_ahead r rest unread begun
  constructor
  · intro still
    by_contra moves
    have moved := scanner_moves r rest ahead moves
    omega
  · intro stays
    exact (congrArg Request.checkIdx (scanner_stays r rest ahead stays).2).trans begun

theorem round_outside (slot r : Request) (batches : List Text) (status : LineStatus) (round : Round slot batches status r)
    (short : batches.flatten.length ≤ readBufferSize) (outside : r.checkState ≠ .connect) :
    ∃ before batch, batches = before ++ [batch] ∧ ∀ line headers blank part, HeadLines line headers blank →
      before.flatten ≠ headBytes line headers blank ++ part := by
  induction round with
  | first bytes =>
      refine ⟨[], bytes, rfl, fun line headers blank part _ same => ?_⟩
      have length := congrArg List.length same
      simp [headBytes, lineEnd] at length
  | again batches status after r next round ok advanced ih =>
      refine ih short fun body => outside ?_
      have kept := advance_body _ ((next_line_check_state status r (round_ordered slot r batches status round)).trans body)
      rwa [advanced] at kept
  | later batches status r round pending bytes ih =>
      rw [List.flatten_append, List.length_append] at short
      have ordered := round_ordered slot r batches status round
      have sameState := next_line_check_state status r ordered
      have open_ : r.checkState ≠ .connect := fun body => outside (sameState.trans body)
      rw [next_line_outside status r open_] at pending
      refine ⟨batches, bytes, rfl, fun line headers blank part heads => ?_⟩
      cases round_stands slot r batches status round (by omega) with
      | line state unread =>
          have unended : holdsLine batches.flatten = false := by
            rwa [Bool.eq_false_iff, ne_eq, ← unread_ok_iff r _ unread]
          intro same
          have first := (List.forall_mem_cons.mp heads.clean).1
          rw [same, head_length, holds_line_end line _ first] at unended
          cases unended
      | header begun rest seen state whole clean unread head =>
          have unended : holdsLine rest = false := by
            rwa [Bool.eq_false_iff, ne_eq, ← unread_ok_iff r _ unread]
          rw [whole]
          exact head_open begun line seen headers blank heads rest part clean head.named unended
      | body _ _ _ _ _ state => exact absurd state open_

-- Where the loop stands in the body: `rest` has come in behind the head, `before` in
-- the batches before the one at hand.
structure BodyRound (head rest : Text) (before : List Text) (status : LineStatus) (r : Request) : Prop where
  ordered : Ordered r
  state : r.checkState = .connect
  lower : head.length ≤ r.startLine
  unread : r.startLine = head.length → Unread r rest
  looks : status = .lineOk →
    (r.startLine = head.length ↔ CutsKeepPlace head before) ∧ (r.checkIdx = head.length ↔ CutsStay head before)
  scans : status ≠ .lineOk → r.checkIdx = r.startLine ∧ (r.startLine = head.length → CutsStay head before) ∧
    (CutsStay head before → r.startLine = head.length ∨ holdsLine rest = true)

variable (head rest : Text) (before : List Text) (batch : Text) (status : LineStatus) (r : Request)
  (round : BodyRound head rest before status r)

include round

theorem body_round_looks (ok : status = .lineOk) : BodyRound head rest before .lineOpen (beginLine r) := by
  obtain ⟨place, stay⟩ := round.looks ok
  obtain ⟨start, check⟩ := round.ordered
  have lower := round.lower
  refine ⟨⟨Nat.le_refl _, check⟩, round.state, Nat.le_trans lower start, fun here => ?_, (fun same => by cases same),
    fun _ => ⟨rfl, stay.mp, fun stays => .inl (stay.mpr stays)⟩⟩
  have here : r.checkIdx = head.length := here
  have begun : r.checkIdx = r.startLine := by omega
  have same : beginLine r = r := congrArg (fun line => { r with startLine := line }) begun
  rw [same]
  exact round.unread (by omega)

theorem body_round_scans (scanning : status ≠ .lineOk) (ok : (parseLine r).1 = .lineOk) :
    BodyRound head rest before .lineOpen (beginLine (parseLine r).2) := by
  obtain ⟨same, _, place⟩ := round.scans scanning
  have lower := round.lower
  obtain ⟨stop, bound, upper, result⟩ := parse_line_ok r round.ordered.check ok
  -- The line end is behind the place where the body begins.
  have moved : head.length < stop + 2 := by omega
  have kept : (beginLine (parseLine r).2).startLine = stop + 2 ∧ (beginLine (parseLine r).2).checkIdx = stop + 2 ∧
      (beginLine (parseLine r).2).readIdx = r.readIdx ∧ (beginLine (parseLine r).2).checkState = r.checkState := by
    rw [result]
    exact ⟨rfl, rfl, rfl, rfl⟩
  obtain ⟨start, check, received, state⟩ := kept
  refine ⟨⟨by omega, by omega⟩, state.trans round.state, by omega, fun here => by omega, (fun same => by cases same),
    fun _ => ⟨check.trans start.symm, fun here => by omega, fun stays => .inr ?_⟩⟩
  rcases place stays with here | line
  · exact (unread_ok_iff r rest (round.unread here)).mp ok
  · exact line

theorem body_round_later (whole : (before ++ [batch]).flatten = head ++ rest) (scanning : status ≠ .lineOk)
    (pending : (parseLine r).1 ≠ .lineOk) (bytes : Text) :
    BodyRound head (rest ++ bytes) (before ++ [batch]) .lineOk ((parseLine r).2.feed bytes) := by
  obtain ⟨same, stay, place⟩ := round.scans scanning
  have lower := round.lower
  have ordered := round.ordered
  obtain ⟨index, bound, upper, result⟩ := parse_line_pending r ordered.check pending
  have line : r.startLine = head.length → holdsLine rest = false := by
    intro here
    rwa [Bool.eq_false_iff, ne_eq, ← unread_ok_iff r rest (round.unread here)]
  have scanner : r.startLine = head.length → (index = head.length ↔ ScannerStays rest) := by
    intro here
    rw [← unread_stays_iff r rest (round.unread here) same, result, here]
  have placed : r.startLine = head.length ↔ CutsStay head before ∧ holdsLine rest = false := by
    constructor
    · exact fun here => ⟨stay here, line here⟩
    · rintro ⟨stays, none⟩
      refine (place stays).resolve_right fun found => ?_
      rw [none] at found
      cases found
  refine ⟨?_, ?_, ?_, fun here => ?_, fun _ => ⟨?_, ?_⟩, fun other => absurd rfl other⟩
  · rw [result]
    exact feed_ordered _ bytes ⟨Nat.le_trans ordered.start bound, upper⟩
  · rw [result]
    exact round.state
  · rw [result]
    exact lower
  · have here : r.startLine = head.length := by rwa [result] at here
    have scan := unread_scans r rest (round.unread here)
    generalize parseLine r = scanned at pending scan
    cases scan with
    | pending _ last _ bounds clean => exact unread_feed _ rest bytes (unread_pending r rest last (round.unread here) bounds clean)
    | found stop bounds clean ends => exact absurd rfl pending
  · rw [cuts_keep_place_snoc head rest before batch whole, result]
    exact placed
  · rw [cuts_stay_snoc head rest before batch whole, result]
    change index = head.length ↔ _
    constructor
    · intro still
      have here : r.startLine = head.length := by omega
      exact ⟨stay here, (scanner here).mp still⟩
    · rintro ⟨stays, last⟩
      exact (scanner (placed.mpr ⟨stays, stays_no_line rest last⟩)).mpr last

end Rounds

section Bodies

theorem blank_line_ends (s next : Request) (text : Nat) (field : Text) (clean : ∀ c ∈ field, c ∉ lineEnd)
    (here : TextAt s.readBuf text (visible field)) (room : text + field.length < readBufferSize) (state : s.checkState = .header)
    (accepted : parseHeaders s text = (.code .noRequest, next)) (body : next.checkState = .connect) :
    visible field = [] ∧ next = { s with checkState := .connect } := by
  have seen := visible_length field
  by_cases blank : visible field = []
  · refine ⟨blank, ?_⟩
    have nul : s.readBuf text = 0 := by
      rw [blank] at here
      exact here.nul
    unfold parseHeaders at accepted
    simp only [if_pos nul] at accepted
    split at accepted <;> cases accepted
    rfl
  · obtain ⟨other, read, parsed⟩ := header_line_parsed s text (visible field) ⟨blank, visible_clean field clean⟩ here (by omega)
    cases accepted.symm.trans read
    exact absurd (body.symm.trans (parsed.state.trans state)) (by decide)

theorem body_round_begins (slot r next : Request) (batches before : List Text) (status after : LineStatus)
    (round : Round slot batches status r) (short : batches.flatten.length ≤ readBufferSize)
    (outside : ∀ line headers blank part, HeadLines line headers blank → before.flatten ≠ headBytes line headers blank ++ part)
    (state : r.checkState = .header) (ok : (nextLine status r).1 = .lineOk) (advanced : advance (nextLine status r).2 = .again after next)
    (body : next.checkState = .connect) : ∃ line headers blank rest, HeadLines line headers blank ∧
      batches.flatten = headBytes line headers blank ++ rest ∧ BodyRound (headBytes line headers blank) rest before after next := by
  rw [next_line_outside status r (by rw [state]; decide)] at ok advanced
  have received := round_received slot r batches status round
  cases round_stands slot r batches status round short with
  | line other => exact absurd (state.symm.trans other) (by decide)
  | body _ _ _ _ _ other => exact absurd (state.symm.trans other) (by decide)
  | header line rest headers _ whole clean unread head =>
      have scan := unread_scans r rest unread
      generalize parseLine r = result at ok advanced scan
      cases scan with
      | pending _ _ notOk => exact absurd ok notOk
      | found stop bounds scanned ends =>
          obtain ⟨field, left, taken⟩ := unread_line r rest stop unread bounds scanned ends
          have length := taken.length
          have behind := taken.left
          obtain ⟨blank, rfl⟩ := blank_line_ends
            (beginLine { r with readBuf := store (store r.readBuf stop 0) (stop + 1) 0, checkIdx := stop + 2 }) next r.startLine field
            taken.clean taken.text (by omega) state (headers_again _ next _ advanced state) body
          have heads : HeadLines line headers field := by
            obtain ⟨first, others⟩ := List.forall_mem_cons.mp clean
            exact ⟨List.forall_mem_cons.mpr ⟨first, List.forall_mem_cons.mpr ⟨taken.clean, others⟩⟩, head.named, blank⟩
          have flat : batches.flatten = headBytes line headers field ++ left := by rw [whole, taken.whole, head_length]
          have cut : ∀ early part, early <+: before → early.flatten ≠ headBytes line headers field ++ part := by
            rintro early part ⟨later, rfl⟩ same
            refine outside line headers field (part ++ later.flatten) heads ?_
            rw [List.flatten_append, same, List.append_assoc]
          rw [flat, List.length_append] at received
          have start : (headBytes line headers field).length = stop + 2 := by omega
          have ended : after = .lineOk := by
            unfold advance at advanced
            simp only [state] at advanced
            exact (advance_with_again _ _ _ _ advanced).1
          refine ⟨line, headers, field, left, heads, flat, ⟨⟨Nat.le_refl _, bounds.2⟩, rfl, Nat.le_of_eq start, fun _ => ?_,
            fun _ => ⟨⟨fun _ early part within same => absurd same (cut early part within), fun _ => start.symm⟩,
              ⟨fun _ early part within same => absurd same (cut early part within), fun _ => start.symm⟩⟩,
            fun other => absurd ended other⟩⟩
          refine line_taken_unread r _ rest field left stop taken ⟨rfl, rfl, rfl⟩ (fun index above => ?_) ?_
          · change store (store r.readBuf stop 0) (stop + 1) 0 index = r.readBuf index
            rw [store_elsewhere _ _ _ _ (by omega), store_elsewhere _ _ _ _ (by omega)]
          · change store (store r.readBuf stop 0) (stop + 1) 0 (stop + 1) ≠ carriageReturn
            rw [store_here]
            decide

theorem round_in_body (slot r : Request) (batches : List Text) (status : LineStatus) (round : Round slot batches status r)
    (short : batches.flatten.length ≤ readBufferSize) (body : r.checkState = .connect) :
    ∃ before batch line headers blank rest, batches = before ++ [batch] ∧ HeadLines line headers blank ∧
      batches.flatten = headBytes line headers blank ++ rest ∧ BodyRound (headBytes line headers blank) rest before status r := by
  induction round with
  | first bytes => cases body
  | again batches status after r next round ok advanced ih =>
      have ordered := round_ordered slot r batches status round
      have sameState := next_line_check_state status r ordered
      by_cases inBody : r.checkState = .connect
      · obtain ⟨before, batch, line, headers, blank, rest, split, heads, flat, place⟩ := ih short inBody
        refine ⟨before, batch, line, headers, blank, rest, split, heads, flat, ?_⟩
        cases advance_again _ next after advanced with
        | requestLine _ other => exact absurd ((sameState.trans inBody).symm.trans other) (by decide)
        | header _ other => exact absurd ((sameState.trans inBody).symm.trans other) (by decide)
        | content _ _ =>
            by_cases looking : status = .lineOk
            · rw [show nextLine status r = (.lineOk, r) from if_pos ⟨inBody, looking⟩]
              exact body_round_looks _ rest before status r place looking
            · rw [show nextLine status r = parseLine r from if_neg fun look => looking look.2] at ok ⊢
              exact body_round_scans _ rest before status r place looking ok
      · obtain ⟨before, batch, split, outside⟩ := round_outside slot r batches status round short inBody
        have state : r.checkState = .header := by
          cases advance_again _ next after advanced with
          | requestLine _ other kept => exact absurd body (line_read_outside _ next other kept)
          | header _ other => exact sameState.symm.trans other
          | content other => exact absurd (sameState.symm.trans other) inBody
        obtain ⟨line, headers, blank, rest, heads, flat, place⟩ := body_round_begins slot r next batches before status after round
          short outside state ok advanced body
        exact ⟨before, batch, line, headers, blank, rest, split, heads, flat, place⟩
  | later batches status r round pending bytes ih =>
      rw [List.flatten_append, List.length_append] at short
      have sameState := next_line_check_state status r (round_ordered slot r batches status round)
      have inBody : r.checkState = .connect := sameState.symm.trans body
      have scanning : status ≠ .lineOk := fun ok => pending (by rw [nextLine, if_pos ⟨inBody, ok⟩])
      have scanned : nextLine status r = parseLine r := if_neg fun look => scanning look.2
      obtain ⟨before, batch, line, headers, blank, rest, rfl, heads, flat, place⟩ := ih (by omega) inBody
      rw [scanned] at pending ⊢
      refine ⟨before ++ [batch], bytes, line, headers, blank, rest ++ bytes, rfl, heads, ?_,
        body_round_later _ rest before batch status r place flat scanning pending bytes⟩
      rw [List.flatten_append, flat, List.flatten_singleton, List.append_assoc]

end Bodies

section Credentials

structure OwnBody (slot : Request) (batches : List Text) (r : Request) : Prop where
  returned : ∃ call, ContentCall slot batches call ∧ parseContent (beginLine call) call.startLine = (.code .getRequest, r)
  body : ∃ line headers blank body more, HeadLines line headers blank ∧
    batches.flatten = headBytes line headers blank ++ (body ++ more) ∧ body ≠ [] ∧ r.contentLength = body.length ∧
    r.string = some (headBytes line headers blank).length ∧
    read r.readBuf (headBytes line headers blank).length body.length = body ∧
    r.readBuf ((headBytes line headers blank).length + body.length) = 0

theorem content_first_look (slot r final : Request) (batches : List Text) (status : LineStatus) (round : Round slot batches status r)
    (fill : r.readIdx < readBufferSize) (body : (nextLine status r).2.checkState = .connect)
    (complete : parseContent (beginLine (nextLine status r).2) (nextLine status r).2.startLine = (.code .getRequest, final)) :
    status = .lineOk := by
  have ordered := round_ordered slot r batches status round
  obtain ⟨memory, index, result, lower, upper⟩ := next_line_scanned status r ordered
  by_contra scanning
  have short := (round_body_kept slot r batches status round fill).2 ((next_line_check_state status r ordered).symm.trans body) scanning
  have enough := (content_complete_iff (nextLine status r).2).mp (by rw [complete]; simp)
  obtain ⟨_, _, inside⟩ := content_stored _ final complete
  have start := ordered.start
  rw [result] at enough inside
  simp only [nulIndex, readBufferSize] at enough inside fill
  rw [to_int_small _ (by omega) (by omega)] at enough
  omega

variable (r final : Request) (head rest : Text) (before : List Text) (place : BodyRound head rest before .lineOk r)
  (complete : parseContent (beginLine r) r.startLine = (.code .getRequest, final))

include place complete

theorem content_place_iff : final.string = some head.length ↔ CutsKeepPlace head before := by
  obtain ⟨rfl, _⟩ := content_stored r final complete
  change some r.startLine = some head.length ↔ _
  rw [Option.some.injEq]
  exact (place.looks rfl).1

theorem content_read (received : r.readIdx = head.length + rest.length) (fill : r.readIdx < readBufferSize) (positive : 0 < r.contentLength)
    (keep : CutsKeepPlace head before) : ∃ body more, rest = body ++ more ∧ final.contentLength = body.length ∧
      read final.readBuf head.length body.length = body ∧ final.readBuf (head.length + body.length) = 0 := by
  have enough := (content_complete_iff r).mp (by rw [complete]; simp)
  have start := ((place.looks rfl).1).mpr keep
  obtain ⟨begun, scanned, whole, bytes, _, _⟩ := place.unread start
  obtain ⟨rfl, inside, bound⟩ := content_stored r final complete
  obtain ⟨length, same⟩ := Int.eq_ofNat_of_zero_le (Int.le_of_lt positive)
  have size : readBufferSize = 2048 := rfl
  unfold nulIndex at inside bound
  simp only [readBufferSize] at inside fill
  rw [to_int_small _ (by omega) (by omega)] at enough
  have taken : (rest.take length).length = length := List.length_take_of_le (by omega)
  have index : (nulIndex r).toNat = head.length + length := by
    unfold nulIndex
    omega
  refine ⟨rest.take length, rest.drop length, (List.take_append_drop length rest).symm, ?_, ?_, ?_⟩
  · rw [taken]
    exact same
  · rw [taken]
    apply List.ext_getElem (by rw [read_length, taken])
    intro offset low _
    rw [read_length] at low
    simp only [CString.read, List.getElem_map, List.getElem_range, List.getElem_take, index]
    rw [store_elsewhere _ _ _ _ (by omega), ← bytes offset (by omega), start]
  · rw [taken, index]
    exact store_here _ _ _

end Credentials

section Answered

variable (slot before final : Request) (batches : List Text) (last line blank rest path : Text) (headers : List Text) (status : LineStatus)
  (round : Round slot (batches ++ [last]) status before) (fill : before.readIdx < readBufferSize)
  (accepted : AcceptedHead slot (batches ++ [last]).flatten line blank rest path headers final)

include accepted

theorem accepted_head_lines : HeadLines line headers blank ∧ (batches ++ [last]).flatten = headBytes line headers blank ++ rest :=
  ⟨⟨accepted.clean, accepted.named, accepted.ends⟩, accepted.whole.trans (head_length line headers blank rest).symm⟩

theorem accepted_head_only (holds : Text → List Text → Text → Prop) :
    (∀ other others otherBlank, HeadLines other others otherBlank → headBytes other others otherBlank <+: (batches ++ [last]).flatten →
      holds other others otherBlank) ↔ holds line headers blank := by
  obtain ⟨heads, whole⟩ := accepted_head_lines slot final batches last line blank rest path headers accepted
  constructor
  · exact fun all => all line headers blank heads ⟨rest, whole.symm⟩
  · rintro this other others otherBlank second ⟨more, same⟩
    obtain ⟨rfl, rfl, rfl, _⟩ := head_unique line other headers others blank otherBlank heads second rest more (whole.symm.trans same.symm)
    exact this

theorem accepted_own_iff : OwnBody slot (batches ++ [last]) final ↔
    (∃ call, ContentCall slot (batches ++ [last]) call ∧ parseContent (beginLine call) call.startLine = (.code .getRequest, final)) ∧
      ∃ body more, rest = body ++ more ∧ body ≠ [] ∧ final.contentLength = body.length ∧
        final.string = some (headBytes line headers blank).length ∧ read final.readBuf (headBytes line headers blank).length body.length = body ∧
        final.readBuf ((headBytes line headers blank).length + body.length) = 0 := by
  obtain ⟨heads, whole⟩ := accepted_head_lines slot final batches last line blank rest path headers accepted
  constructor
  · rintro ⟨returned, other, others, otherBlank, body, more, second, same, own⟩
    obtain ⟨rfl, rfl, rfl, left⟩ := head_unique line other headers others blank otherBlank heads second rest _ (whole.symm.trans same)
    exact ⟨returned, body, more, left, own⟩
  · rintro ⟨returned, body, more, rfl, own⟩
    exact ⟨returned, line, headers, blank, body, more, heads, whole, own⟩

include round fill

theorem content_own_iff (ok : (nextLine status before).1 = .lineOk) (body : (nextLine status before).2.checkState = .connect)
    (complete : parseContent (beginLine (nextLine status before).2) (nextLine status before).2.startLine = (.code .getRequest, final)) :
    OwnBody slot (batches ++ [last]) final ↔
      0 < lengthOf (headers.map visible) ∧ CutsKeepPlace (headBytes line headers blank) batches := by
  have received := round_received slot before _ status round
  obtain ⟨heads, whole⟩ := accepted_head_lines slot final batches last line blank rest path headers accepted
  obtain rfl := content_first_look slot before final _ status round fill body complete
  have inBody := (next_line_check_state _ before (round_ordered slot before _ _ round)).symm.trans body
  have called := at_switch_of_round slot before _ _ round ok
  rw [show nextLine .lineOk before = (.lineOk, before) from if_pos ⟨inBody, rfl⟩] at complete called
  obtain ⟨others, batch, other, otherHeaders, otherBlank, more, split, second, same, place⟩ :=
    round_in_body slot before _ _ round (by omega) inBody
  obtain ⟨rfl, _⟩ := List.append_inj' split rfl
  obtain ⟨rfl, rfl, rfl, rfl⟩ := head_unique line other headers otherHeaders blank otherBlank heads second rest more (whole.symm.trans same)
  have length : before.contentLength = lengthOf (headers.map visible) := by
    rw [← accepted.length, (content_stored before final complete).1]
    rfl
  rw [accepted_own_iff slot final batches last line blank rest path headers accepted,
    ← content_place_iff before final _ rest batches place complete]
  constructor
  · rintro ⟨_, body, more, _, some_body, count, string, _⟩
    have positive := List.length_pos_iff.mpr some_body
    exact ⟨by rw [← accepted.length, count]; omega, string⟩
  · rintro ⟨positive, string⟩
    have keep := (content_place_iff before final _ rest batches place complete).mp string
    rw [whole, List.length_append] at received
    rw [← length] at positive
    obtain ⟨body, more, rfl, count, read, nul⟩ := content_read before final _ rest batches place complete received fill positive keep
    refine ⟨⟨before, ⟨called, inBody⟩, complete⟩, body, more, rfl, fun none => ?_, count, string, read, nul⟩
    rw [(content_stored before final complete).1] at count
    rw [none] at count
    change before.contentLength = 0 at count
    omega

end Answered

section Requests

variable (slot : Request) (batches : List Text) (last : Text) (waiting : (receive slot.init batches).1 = .code .noRequest)

include waiting

theorem receive_last_ends : Ended slot (batches ++ [last]) (receive slot.init (batches ++ [last])) := by
  rw [receive_append slot.init batches last waiting]
  apply round_ends
  by_cases none_before : batches = []
  · subst none_before
    exact Round.first last
  · obtain ⟨read, _, ended, all⟩ := receive_ends slot batches none_before
    cases all waiting
    apply ended_waits
    generalize receive slot.init batches = result at ended waiting ⊢
    obtain ⟨outcome, r⟩ := result
    cases waiting
    exact ended

variable (served : (receive slot.init (batches ++ [last])).1 = .code .getRequest)
  (fill : (receive slot.init (batches ++ [last])).2.readIdx < readBufferSize)

include served fill

theorem own_body_iff : OwnBody slot (batches ++ [last]) (receive slot.init (batches ++ [last])).2 ↔
    ∀ line headers blank, HeadLines line headers blank → headBytes line headers blank <+: (batches ++ [last]).flatten →
      0 < lengthOf (headers.map visible) ∧ CutsKeepPlace (headBytes line headers blank) batches := by
  have ended := receive_last_ends slot batches last waiting
  generalize receive slot.init (batches ++ [last]) = result at served fill ended ⊢
  cases ended with
  | waiting => cases served
  | stopped r final outcome reached stop =>
      cases served
      obtain ⟨status, before, round, next⟩ := reached
      have ordered := round_ordered slot before _ status round
      have received := round_received slot before _ status round
      have cursors := next_line_cursors status before ordered
      obtain ⟨ok, rfl⟩ : (nextLine status before).1 = .lineOk ∧ r = (nextLine status before).2 := by rw [next]; exact ⟨rfl, rfl⟩
      have requested := advance_requested _ final stop
      have short : before.readIdx < readBufferSize := by
        rw [← cursors.1]
        cases requested with
        | header => exact fill
        | content _ _ complete =>
            rw [(content_stored _ final complete).1] at fill
            exact fill
      obtain ⟨line, blank, rest, path, headers, accepted⟩ := standing_served slot before final _ status
        (round_stands slot before _ status round (by omega)) ordered (by omega) ok stop
      rw [accepted_head_only slot final batches last line blank rest path headers accepted]
      cases requested with
      | header state bodiless =>
          -- parse_headers has answered: there is no body.
          have length := accepted.length
          change (nextLine status before).2.contentLength = _ at length
          rw [bodiless] at length
          constructor
          · intro own
            obtain ⟨_, body, _, _, some_body, count, _⟩ :=
              (accepted_own_iff slot _ batches last line blank rest path headers accepted).mp own
            change (nextLine status before).2.contentLength = _ at count
            rw [bodiless] at count
            exact absurd (List.length_eq_zero_iff.mp (by omega)) some_body
          · rintro ⟨positive, _⟩
            omega
      | content _ state complete =>
          exact content_own_iff slot before final batches last line blank rest path headers status round short accepted ok state complete

end Requests

def formHead : Text := ascii "POST /2 HTTP/1.1\r\nContent-Length: 17\r\n\r\n"

-- A body in pieces, and more behind it: m_start_line has moved past the body when parse_content is content.
def cutLogin : List Text := [formHead ++ ascii "user=1", ascii "&password=2", ascii "GET ", ascii "/ HTTP/1.1\r\nHost: "]

example : ((receive Request.fresh.init cutLogin).1, (receive Request.fresh.init cutLogin).2.string, formHead.length) =
    (.code .getRequest, some 57, 40) := by decide +kernel

end WzyServer.Http
