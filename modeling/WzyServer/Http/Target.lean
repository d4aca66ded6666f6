import WzyServer.Http.Segmentation

set_option autoImplicit false

namespace WzyServer.Http

open CString Chunks

-- What parsing leaves for do_request: an absolute URL (whose slash a later NUL may
-- have overwritten) and a cleared m_real_file.
def HasTarget (r : Request) : Prop :=
  ∃ url, r.url = some url ∧ url < r.readIdx ∧ (r.readBuf url = slash ∨ r.readBuf url = 0)

structure Parsed (r : Request) : Prop where
  target : HasTarget r
  cleared : r.realFile = zeroed

structure OnTarget (r : Request) : Prop where
  cleared : r.realFile = zeroed
  target : r.checkState ≠ .requestLine → HasTarget r

def Stage.Rejects : Stage → Prop
  | .next _ => True
  | .done outcome r => outcome ≠ .code .noRequest ∧ outcome ≠ .code .getRequest ∧ r.checkState = .requestLine

def Stage.Careful (stage : Stage) : Prop := stage.Rejects ∧ ∀ next, stage = .next next → next.checkState = .requestLine

theorem careful_done (outcome : Outcome) (r : Request) (waiting : outcome ≠ .code .noRequest)
    (served : outcome ≠ .code .getRequest) (state : r.checkState = .requestLine) : (Stage.done outcome r).Careful :=
  ⟨⟨waiting, served, state⟩, fun _ passed => by cases passed⟩

theorem careful_next (r : Request) (state : r.checkState = .requestLine) : (Stage.next r).Careful :=
  ⟨trivial, fun _ passed => by cases passed; exact state⟩

theorem parse_method_careful (r : Request) (text : Nat) (state : r.checkState = .requestLine) :
    (parseMethod r text).Careful := by
  unfold parseMethod
  split
  · exact careful_done _ _ (by decide) (by decide) state
  · dsimp only
    split
    · exact careful_next _ state
    · split
      · exact careful_next _ state
      · exact careful_done _ _ (by decide) (by decide) state

theorem parse_version_careful (r : Request) (state : r.checkState = .requestLine) :
    (parseVersion r).Careful := by
  unfold parseVersion
  split
  · exact careful_done _ _ (by decide) (by decide) state
  · dsimp only
    split
    · exact careful_done _ _ (by decide) (by decide) state
    · split
      · exact careful_next _ state
      · exact careful_done _ _ (by decide) (by decide) state

theorem skip_scheme_careful (scheme : List UInt8) (r : Request) (state : r.checkState = .requestLine) :
    (skipScheme scheme r).Careful := by
  unfold skipScheme
  split
  · exact careful_done _ _ (by decide) (by decide) state
  · split
    · exact careful_next _ state
    · exact careful_next _ state

theorem bind_careful (stage : Stage) (rest : Request → Stage)
    (first : stage.Careful) (later : ∀ r, r.checkState = .requestLine → (rest r).Careful) : (stage.bind rest).Careful := by
  cases stage with
  | next r => exact later r (first.2 r rfl)
  | done outcome r => exact first

theorem parse_request_line_target (r : Request) (text stop : Nat) (state : r.checkState = .requestLine)
    (lined : Lined r.readBuf stop) (inside : stop + 1 < r.readIdx) (below : text ≤ stop + 1) :
    ((parseRequestLine r text).1 = .code .noRequest ∧ HasTarget (parseRequestLine r text).2) ∨
      ((parseRequestLine r text).1 ≠ .code .noRequest ∧ (parseRequestLine r text).1 ≠ .code .getRequest ∧
        (parseRequestLine r text).2.checkState = .requestLine) := by
  have before := bind_careful _ (skipScheme (ascii "https://")) (bind_careful _ (skipScheme (ascii "http://"))
    (bind_careful _ parseVersion (parse_method_careful r text state) parse_version_careful)
    (skip_scheme_careful _)) (skip_scheme_careful _)
  have placed := fun s => https_stage_next r s text stop lined below
  unfold parseRequestLine requestLineStages
  generalize (((parseMethod r text).bind parseVersion).bind (skipScheme (ascii "http://"))).bind
    (skipScheme (ascii "https://")) = stage at before placed ⊢
  cases stage with
  | done outcome s => exact .inr before.1
  | next s =>
      have line := before.2 s rfl
      obtain ⟨⟨_, cut, _, room, within⟩, sameRead⟩ := placed s rfl
      simp only [Stage.bind]
      unfold parseTarget
      split
      · exact .inr ⟨by simp [Stage.result], by simp [Stage.result], line⟩
      · rename_i url target
        split
        · exact .inr ⟨by simp [Stage.result], by simp [Stage.result], line⟩
        · rename_i slashed
          have early : url < s.readIdx := by
            have bound := within url target
            omega
          have here : s.readBuf url = slash := by simpa using slashed
          split
          · refine .inl ⟨rfl, url, target, early, .inl ?_⟩
            change write s.readBuf (url + 1) _ url = slash
            rw [write_before _ _ _ _ (Nat.lt_succ_self url), here]
          · exact .inl ⟨rfl, url, target, early, .inl here⟩

theorem target_store (r : Request) (index : Nat) (target : HasTarget r) :
    HasTarget { r with readBuf := store r.readBuf index 0 } := by
  obtain ⟨url, found, early, first⟩ := target
  refine ⟨url, found, early, ?_⟩
  by_cases same : url = index
  · exact .inr (by simp [same])
  · simp only [store_elsewhere _ _ _ _ same]
    exact first

theorem target_feed (r : Request) (bytes : List UInt8) (target : HasTarget r) : HasTarget (r.feed bytes) := by
  obtain ⟨url, found, early, first⟩ := target
  refine ⟨url, found, Nat.lt_add_right _ early, ?_⟩
  rwa [Request.feed_below r bytes url early]

theorem next_line_on_target (status : LineStatus) (r : Request) (ordered : Ordered r) (onTarget : OnTarget r) :
    OnTarget (nextLine status r).2 := by
  unfold nextLine
  split
  · exact onTarget
  · by_cases ok : (parseLine r).1 = .lineOk
    · obtain ⟨stop, _, _, result⟩ := parse_line_ok r ordered.check ok
      rw [result]
      refine ⟨onTarget.cleared, fun state => ?_⟩
      exact target_store _ (stop + 1) (target_store r stop (onTarget.target state))
    · obtain ⟨index, _, _, result⟩ := parse_line_pending r ordered.check ok
      rw [result]
      exact ⟨onTarget.cleared, onTarget.target⟩

theorem next_line_lined (status : LineStatus) (r : Request) (ordered : Ordered r) (ok : (nextLine status r).1 = .lineOk)
    (state : (nextLine status r).2.checkState = .requestLine) : ∃ stop, Lined (nextLine status r).2.readBuf stop ∧
      stop + 1 < (nextLine status r).2.readIdx ∧ (nextLine status r).2.startLine ≤ stop + 1 := by
  have outside : r.checkState ≠ .connect := by
    rw [next_line_check_state status r ordered] at state
    simp [state]
  rw [next_line_outside status r outside] at ok ⊢
  obtain ⟨stop, lower, upper, result⟩ := parse_line_ok r ordered.check ok
  have start := ordered.start
  rw [result]
  exact ⟨stop, lined_after_line r.readBuf stop, upper, by simp only; omega⟩

theorem parse_headers_target (r : Request) (text : Nat) (target : HasTarget r) : HasTarget (parseHeaders r text).2 := by
  have same : (parseHeaders r text).2.url = r.url ∧ (parseHeaders r text).2.readBuf = r.readBuf := by
    unfold parseHeaders
    dsimp only
    repeat' split
    all_goals exact ⟨rfl, rfl⟩
  obtain ⟨url, found, early, first⟩ := target
  refine ⟨url, same.1.trans found, ?_, ?_⟩
  · rwa [(parse_headers_kept r text).readIdx]
  · rwa [same.2]

theorem parse_content_target (r : Request) (text : Nat) (target : HasTarget r) : HasTarget (parseContent r text).2 := by
  unfold parseContent
  dsimp only
  split
  · split
    · obtain ⟨url, found, early, first⟩ := target_store r ((text : Int) + r.contentLength).toNat target
      exact ⟨url, found, early, first⟩
    · exact target
  · exact target

theorem advance_on_target (r : Request) (onTarget : OnTarget r) (line : r.checkState = .requestLine →
      ∃ stop, Lined r.readBuf stop ∧ stop + 1 < r.readIdx ∧ r.startLine ≤ stop + 1) : OnTarget (advance r).request ∧
    ∀ final, advance r = .stop (.code .getRequest) final → HasTarget final := by
  have kept : (advance r).request.realFile = zeroed := (advance_kept r).realFile.trans onTarget.cleared
  have analysed : ∀ status result, advance r = advanceWith status result → HasTarget result.2 →
      OnTarget (advance r).request ∧ ∀ final, advance r = .stop (.code .getRequest) final → HasTarget final := by
    intro status result same target
    refine ⟨⟨kept, fun _ => by rwa [same, advance_with_request]⟩, fun final stopped => ?_⟩
    rw [same] at stopped
    have final_result := advance_with_stop status result _ final stopped
    rwa [final_result] at target
  cases state : r.checkState with
  | requestLine =>
      obtain ⟨stop, lined, inside, below⟩ := line state
      have accepts := parse_request_line_target (beginLine r) r.startLine stop state lined inside below
      have same : advance r = advanceWith .lineOk (parseRequestLine (beginLine r) r.startLine) := by
        simp only [advance, state]
      rcases accepts with ⟨_, target⟩ | ⟨_, served, still⟩
      · exact analysed _ _ same target
      · refine ⟨⟨kept, fun moved => ?_⟩, fun final stopped => ?_⟩
        · rw [same, advance_with_request] at moved
          exact absurd still moved
        · rw [same] at stopped
          rw [advance_with_stop _ _ _ final stopped] at served
          exact absurd rfl served
  | header =>
      have same : advance r = advanceWith .lineOk (parseHeaders (beginLine r) r.startLine) := by
        simp only [advance, state]
      exact analysed _ _ same (parse_headers_target (beginLine r) _ (onTarget.target (by simp [state])))
  | connect =>
      have same : advance r = advanceWith .lineOpen (parseContent (beginLine r) r.startLine) := by
        simp only [advance, state]
      exact analysed _ _ same (parse_content_target (beginLine r) _ (onTarget.target (by simp [state])))

theorem parse_read_on_target (r : Request) (ordered : Ordered r) (onTarget : OnTarget r) :
    OnTarget (parseRead r).2 ∧ ((parseRead r).1 = .code .getRequest → HasTarget (parseRead r).2) := by
  apply loop_induction (fun _ s => OnTarget s)
    (fun result => OnTarget result.2 ∧ (result.1 = .code .getRequest → HasTarget result.2))
  · intro status s after next sOrdered inv ok again
    have advanced := (advance_on_target _ (next_line_on_target status s sOrdered inv) (next_line_lined status s sOrdered ok)).1
    rwa [again] at advanced
  · intro status s sOrdered inv _
    exact ⟨next_line_on_target status s sOrdered inv, fun served => by cases served⟩
  · intro status s outcome final sOrdered inv ok stopped
    obtain ⟨advanced, served⟩ := advance_on_target _ (next_line_on_target status s sOrdered inv)
      (next_line_lined status s sOrdered ok)
    rw [stopped] at advanced
    refine ⟨advanced, fun isGet => ?_⟩
    simp only at isGet
    rw [isGet] at stopped
    exact served final stopped
  · exact ordered
  · exact onTarget

theorem parsed_of_batches (slot : Request) (batches : List (List UInt8))
    (served : (receive slot.init batches).1 = .code .getRequest) : Parsed (receive slot.init batches).2 := by
  have kept : (Ordered (receive slot.init batches).2 ∧ OnTarget (receive slot.init batches).2) ∧
      ((receive slot.init batches).1 = .code .getRequest → HasTarget (receive slot.init batches).2) := by
    apply deliver_induction Request.feed parseRead (.code .noRequest) (fun r => Ordered r ∧ OnTarget r)
      (fun result => (Ordered result.2 ∧ OnTarget result.2) ∧ (result.1 = .code .getRequest → HasTarget result.2))
    · exact fun r inv => ⟨inv, fun served => by cases served⟩
    · intro r bytes inv
      have fedOrdered := feed_ordered r bytes inv.1
      have fedTarget : OnTarget (r.feed bytes) := ⟨inv.2.cleared, fun moved => target_feed r bytes (inv.2.target moved)⟩
      obtain ⟨onTarget, target⟩ := parse_read_on_target _ fedOrdered fedTarget
      exact ⟨⟨(loop_cursors .lineOk _ fedOrdered).2.2, onTarget⟩, target⟩
    · exact fun _ inv => inv.1
    · exact ⟨init_ordered slot, rfl, fun moved => absurd rfl moved⟩
  exact ⟨kept.2 served, kept.1.2.cleared⟩

end WzyServer.Http
