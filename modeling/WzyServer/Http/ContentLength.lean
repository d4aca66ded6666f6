import WzyServer.Http.Rounds

set_option autoImplicit false

namespace WzyServer.Http

open CString Word

structure ContentCall (slot : Request) (batches : List (List UInt8)) (r : Request) : Prop where
  reached : AtSwitch slot batches r
  body : r.checkState = .connect

-- The index of `text[m_content_length] = '\0'` in m_read_buf.
def nulIndex (r : Request) : Int := r.startLine + r.contentLength

structure Contained (r : Request) : Prop where
  sum : -2 ^ 31 ≤ r.contentLength + r.checkIdx ∧ r.contentLength + r.checkIdx < 2 ^ 31
  stored : (parseContent (beginLine r) r.startLine).1 ≠ .code .noRequest →
    (r.checkIdx : Int) ≤ nulIndex r ∧ nulIndex r ≤ r.readIdx

-- The test of parse_content for a call: m_start_line has moved on to m_check_idx already.
theorem content_complete_iff (r : Request) :
    (parseContent (beginLine r) r.startLine).1 ≠ .code .noRequest ↔ toInt (r.contentLength + r.checkIdx) ≤ r.readIdx := by
  have test : toInt ((beginLine r).contentLength + (beginLine r).checkIdx) ≤ ((beginLine r).readIdx : Int) ↔
      toInt (r.contentLength + r.checkIdx) ≤ r.readIdx := Iff.rfl
  unfold parseContent
  dsimp only
  by_cases complete : toInt (r.contentLength + r.checkIdx) ≤ r.readIdx
  · rw [if_pos (test.mpr complete)]
    split <;> simp [complete]
  · rw [if_neg (fun passes => complete (test.mp passes))]
    simp [complete]

theorem content_stored (r final : Request) (done : parseContent (beginLine r) r.startLine = (.code .getRequest, final)) :
    final = { beginLine r with readBuf := store r.readBuf (nulIndex r).toNat 0, string := some r.startLine } ∧
      0 ≤ nulIndex r ∧ nulIndex r < readBufferSize := by
  unfold parseContent at done
  dsimp only at done
  split at done
  · split at done
    · rename_i inside
      cases done
      exact ⟨rfl, inside⟩
    · cases done
  · cases done

def Narrowed (r : Request) : Prop := -2 ^ 31 ≤ r.contentLength ∧ r.contentLength < 2 ^ 31

structure BodyKept (r : Request) : Prop where
  ordered : Ordered r
  narrowed : Narrowed r
  begun : r.checkState = .connect → r.checkIdx = r.startLine ∨ (r.checkIdx : Int) < r.contentLength + r.startLine

def Unfinished (status : LineStatus) (r : Request) : Prop :=
  r.checkState = .connect → status ≠ .lineOk → (r.readIdx : Int) < r.contentLength + r.startLine

theorem content_failed (r : Request) (incomplete : parseContent (beginLine r) r.startLine = (.code .noRequest, beginLine r))
    (narrowed : Narrowed r) (small : r.checkIdx < readBufferSize) : (r.readIdx : Int) < r.contentLength + r.checkIdx := by
  obtain ⟨lower, upper⟩ := narrowed
  unfold readBufferSize at small
  have failed : ¬ toInt (r.contentLength + r.checkIdx) ≤ r.readIdx := by
    rw [← content_complete_iff, incomplete]
    simp
  by_cases fits : r.contentLength + r.checkIdx < 2 ^ 31
  · rw [to_int_small _ (by omega) fits] at failed
    omega
  · rw [to_int_wrapped _ (by omega) (by omega)] at failed
    omega

theorem next_line_body_kept (status : LineStatus) (r : Request) (kept : BodyKept r) (unfinished : Unfinished status r) :
    BodyKept (nextLine status r).2 := by
  have ordered := next_line_ordered status r kept.ordered
  obtain ⟨memory, index, result, lower, upper⟩ := next_line_scanned status r kept.ordered
  by_cases looked : r.checkState = .connect ∧ status = .lineOk
  · rw [nextLine, if_pos looked]
    exact kept
  · rw [result] at ordered ⊢
    refine ⟨ordered, kept.narrowed, fun body => .inr ?_⟩
    have short := unfinished body fun ok => looked ⟨body, ok⟩
    simp only
    omega

theorem advanced_body_kept (r next : Request) (after : LineStatus) (kept : BodyKept r) (advanced : AdvancedAgain r after next)
    (ordered : Ordered next) (fill : r.readIdx < readBufferSize) : BodyKept next ∧ Unfinished after next := by
  obtain ⟨⟨_, check⟩, narrowed, _⟩ := kept
  cases advanced with
  | requestLine _ state lineRead =>
      have outside := line_read_outside r next state lineRead
      refine ⟨⟨ordered, ?_, fun body => absurd body outside⟩, fun body => absurd body outside⟩
      unfold Narrowed
      rw [lineRead.same]
      exact narrowed
  | header _ state read =>
      cases read with
      | line _ same length =>
          have outside := header_line_outside r next state same
          refine ⟨⟨ordered, ?_, fun body => absurd body outside⟩, fun body => absurd body outside⟩
          unfold Narrowed
          rcases length with kept | ⟨value, converted⟩
          · rw [kept]
            exact narrowed
          · rw [converted]
            exact to_int_bounds value
      | blank some_body => exact ⟨⟨ordered, narrowed, fun _ => .inl rfl⟩, fun _ pending => absurd rfl pending⟩
  | content state incomplete =>
      exact ⟨⟨ordered, narrowed, fun _ => .inl rfl⟩, fun _ _ => content_failed r incomplete narrowed (by omega)⟩

theorem round_body_kept (slot r : Request) (batches : List (List UInt8)) (status : LineStatus)
    (round : Round slot batches status r) (fill : r.readIdx < readBufferSize) : BodyKept r ∧ Unfinished status r := by
  induction round with
  | first bytes =>
      refine ⟨⟨feed_ordered _ bytes (init_ordered slot), ?_, fun body => by cases body⟩, fun body => by cases body⟩
      constructor <;> simp [Request.init, Request.feed]
  | again batches status after r next round ok advanced ih =>
      have before := round_ordered slot r batches status round
      obtain ⟨readSame, _⟩ := next_line_cursors status r before
      obtain ⟨ordered, _, nextRead⟩ := advance_ordered after _ next (next_line_ordered status r before) advanced
      obtain ⟨kept, unfinished⟩ := ih (by omega)
      exact advanced_body_kept _ next after (next_line_body_kept status r kept unfinished) (advance_again _ next after advanced)
        ordered (by omega)
  | later batches status r round pending bytes ih =>
      obtain ⟨readSame, _⟩ := next_line_cursors status r (round_ordered slot r batches status round)
      rw [Request.feed_read_idx] at fill
      obtain ⟨kept, unfinished⟩ := ih (by omega)
      obtain ⟨ordered, narrowed, begun⟩ := next_line_body_kept status r kept unfinished
      exact ⟨⟨feed_ordered _ bytes ordered, narrowed, begun⟩, fun _ pending => absurd rfl pending⟩

theorem content_call_kept (slot r : Request) (batches : List (List UInt8)) (call : ContentCall slot batches r)
    (fill : r.readIdx < readBufferSize) : BodyKept r := by
  obtain ⟨status, before, round, line⟩ := call.reached
  obtain ⟨readSame, _⟩ := next_line_cursors status before (round_ordered slot before batches status round)
  rw [line] at readSame
  obtain ⟨kept, unfinished⟩ := round_body_kept slot before batches status round (readSame ▸ fill)
  have after := next_line_body_kept status before kept unfinished
  rwa [line] at after

theorem content_contained_iff (slot r : Request) (batches : List (List UInt8)) (call : ContentCall slot batches r)
    (fill : r.readIdx < readBufferSize) : Contained r ↔ 0 ≤ r.contentLength ∧ r.contentLength + r.checkIdx < 2 ^ 31 := by
  obtain ⟨⟨start, check⟩, ⟨lower, upper⟩, begun⟩ := content_call_kept slot r batches call fill
  have body := begun call.body
  unfold readBufferSize at fill
  constructor
  · rintro ⟨⟨_, sum⟩, stored⟩
    refine ⟨?_, sum⟩
    by_contra negative
    have complete : toInt (r.contentLength + r.checkIdx) ≤ r.readIdx := by
      rw [to_int_small _ (by omega) sum]
      omega
    have inside := stored ((content_complete_iff r).mpr complete)
    unfold nulIndex at inside
    omega
  · rintro ⟨positive, sum⟩
    refine ⟨⟨by omega, sum⟩, fun complete => ?_⟩
    rw [content_complete_iff, to_int_small _ (by omega) sum] at complete
    unfold nulIndex
    omega

def announcing (length : String) : List UInt8 := ascii "POST /2 HTTP/1.1\r\nContent-Length: " ++ ascii length ++ ascii "\r\n\r\n"

def callOf (length : String) : Request := (switchAfter Request.fresh (announcing length) 3).getD Request.fresh

theorem call_of_length (length : String) (found : (switchAfter Request.fresh (announcing length) 3).isSome)
    (body : (callOf length).checkState = .connect) : ContentCall Request.fresh [announcing length] (callOf length) := by
  obtain ⟨r, reached⟩ := Option.isSome_iff_exists.mp found
  have same : callOf length = r := by rw [callOf, reached, Option.getD_some]
  rw [same] at body ⊢
  exact ⟨switch_after_reached _ r _ 3 reached, body⟩

theorem content_contained_iff_four :
    Contained (callOf "4") ↔ 0 ≤ (callOf "4").contentLength ∧ (callOf "4").contentLength + (callOf "4").checkIdx < 2 ^ 31 :=
  content_contained_iff Request.fresh (callOf "4") _ (call_of_length "4" (by decide +kernel) (by decide +kernel)) (by decide +kernel)

theorem content_length_overflows :
    ((callOf "2147483647").contentLength = 2147483647 ∧ (callOf "2147483647").checkIdx = 48 ∧ ¬ Contained (callOf "2147483647")) ∧
      ((callOf "-30").checkIdx = 41 ∧ nulIndex (callOf "-30") = 11 ∧ ¬ Contained (callOf "-30")) ∧
      ¬ ∀ batches r, ContentCall Request.fresh batches r → r.readIdx < readBufferSize → Contained r := by
  have length : (callOf "2147483647").contentLength = 2147483647 := by decide +kernel
  have check : (callOf "2147483647").checkIdx = 48 := by decide +kernel
  have over_int : ¬ Contained (callOf "2147483647") := by
    intro contained
    have sum := contained.sum.2
    rw [length, check] at sum
    omega
  have start : (callOf "-30").checkIdx = 41 := by decide +kernel
  have index : nulIndex (callOf "-30") = 11 := by decide +kernel
  have below : ¬ Contained (callOf "-30") := by
    intro contained
    have stored := (contained.stored (by decide +kernel)).1
    rw [start, index] at stored
    omega
  refine ⟨⟨length, check, over_int⟩, ⟨start, index, below⟩, fun all => ?_⟩
  exact below (all _ _ (call_of_length "-30" (by decide +kernel) (by decide +kernel)) (by decide +kernel))

end WzyServer.Http
