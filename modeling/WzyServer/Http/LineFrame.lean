import WzyServer.Http.Loop

set_option autoImplicit false

namespace WzyServer.Http

open CString

def StoresWithin (low high : Nat) (memory other : Memory) : Prop :=
  ∀ index, index < low ∨ high ≤ index → other index = memory index

theorem stores_within_refl (low high : Nat) (memory : Memory) : StoresWithin low high memory memory := fun _ _ => rfl

theorem stores_within_trans (low high : Nat) (memory middle other : Memory) (first : StoresWithin low high memory middle)
    (second : StoresWithin low high middle other) : StoresWithin low high memory other :=
  fun index outside => (second index outside).trans (first index outside)

theorem stores_within_store (low high address : Nat) (memory : Memory) (value : UInt8) (lower : low ≤ address)
    (upper : address < high) : StoresWithin low high memory (store memory address value) := by
  intro index outside
  exact store_elsewhere _ _ _ _ (by omega)

theorem stores_within_write (low high address : Nat) (memory : Memory) (bytes : List UInt8) (lower : low ≤ address)
    (upper : address + bytes.length ≤ high) : StoresWithin low high memory (write memory address bytes) := by
  rintro index (before | after)
  · exact write_before _ _ _ _ (by omega)
  · exact write_after _ _ _ _ (by omega)

structure StageWithin (text stop : Nat) (r : Request) (stage : Stage) : Prop where
  stores : StoresWithin text (stop + 2) r.readBuf stage.request.readBuf
  behind : ∀ next, stage = .next next → ∀ url, next.url = some url → text ≤ url

theorem bind_within (text stop : Nat) (r : Request) (stage : Stage) (rest : Request → Stage) (first : StageWithin text stop r stage)
    (later : ∀ next, stage = .next next → StageWithin text stop next (rest next)) :
    StageWithin text stop r (stage.bind rest) := by
  cases stage with
  | next s =>
      have second := later s rfl
      exact ⟨stores_within_trans _ _ _ _ _ first.stores second.stores, second.behind⟩
  | done outcome s => exact ⟨first.stores, fun next same => by cases same⟩

theorem parse_method_within (r : Request) (text stop : Nat) (lined : Lined r.readBuf stop) (below : text ≤ stop + 1) :
    StageWithin text stop r (parseMethod r text) := by
  have bound := lined_cstr_length r.readBuf text stop lined below
  unfold parseMethod
  cases found : strpbrk (cstr r.readBuf text) blanks with
  | none => exact ⟨stores_within_refl _ _ _, fun next same => by cases same⟩
  | some blank =>
      have within := strpbrk_bound _ _ _ found
      have cut := stores_within_store text (stop + 2) (text + blank) r.readBuf 0 (Nat.le_add_right _ _) (by omega)
      have starts : ∀ url, some (text + blank + 1) = some url → text ≤ url := by
        intro url same
        cases same
        omega
      dsimp only
      split
      · refine ⟨cut, ?_⟩
        rintro next ⟨⟩
        exact starts
      · split
        · refine ⟨cut, ?_⟩
          rintro next ⟨⟩
          exact starts
        · exact ⟨cut, fun next same => by cases same⟩

theorem parse_version_within (r : Request) (text stop : Nat) (lined : Lined r.readBuf stop)
    (above : ∀ url, r.url = some url → text ≤ url) (below : ∀ url, r.url = some url → url ≤ stop + 1) :
    StageWithin text stop r (parseVersion r) := by
  unfold parseVersion
  cases target : r.url with
  | none => exact ⟨stores_within_refl _ _ _, fun next same => by cases same⟩
  | some start =>
      have startAbove := above start target
      have startBound := lined_cstr_length r.readBuf start stop lined (below start target)
      have spanned := strspn_bound (cstr r.readBuf start) blanks
      dsimp only
      generalize urlEq : start + strspn (cstr r.readBuf start) blanks = url
      have urlBound := lined_cstr_length r.readBuf url stop lined (by omega)
      cases found : strpbrk (cstr r.readBuf url) blanks with
      | none => exact ⟨stores_within_refl _ _ _, fun next same => by cases same⟩
      | some blank =>
          have within := strpbrk_bound _ _ _ found
          have cut := stores_within_store text (stop + 2) (url + blank) r.readBuf 0 (by omega) (by omega)
          dsimp only
          split
          · refine ⟨cut, ?_⟩
            rintro next ⟨⟩ other ⟨⟩
            omega
          · exact ⟨cut, fun next same => by cases same⟩

theorem skip_scheme_within (scheme : List UInt8) (r : Request) (text stop : Nat)
    (above : ∀ url, r.url = some url → text ≤ url) : StageWithin text stop r (skipScheme scheme r) := by
  unfold skipScheme
  cases target : r.url with
  | none => exact ⟨stores_within_refl _ _ _, fun next same => by cases same⟩
  | some url =>
      have urlAbove := above url target
      dsimp only
      split
      · refine ⟨stores_within_refl _ _ _, ?_⟩
        rintro next ⟨⟩ other found
        obtain ⟨k, _, rfl⟩ := Option.map_eq_some_iff.mp found
        omega
      · refine ⟨stores_within_refl _ _ _, ?_⟩
        rintro next ⟨⟩
        exact above

-- The NUL behind the URL, the eight characters of the version and the two NULs of
-- the line end make room for the eleven bytes.
theorem parse_target_within (r : Request) (text stop : Nat) (roomy : Roomy r stop)
    (above : ∀ url, r.url = some url → text ≤ url) : StageWithin text stop r (parseTarget r) := by
  obtain ⟨lined, cut, nul, room, below⟩ := roomy
  unfold parseTarget
  cases target : r.url with
  | none => exact ⟨stores_within_refl _ _ _, fun next same => by cases same⟩
  | some url =>
      have urlAbove := above url target
      have urlBound : url + (cstr r.readBuf url).length ≤ cut := string_at_length _ _ _ cut (below url target) nul
      dsimp only
      split
      · exact ⟨stores_within_refl _ _ _, fun next same => by cases same⟩
      · split
        · rename_i single
          have eleven : (ascii "judge.html" ++ [0]).length = 11 := by decide
          refine ⟨?_, fun next same => by cases same⟩
          exact stores_within_write text (stop + 2) (url + 1) r.readBuf _ (by omega) (by omega)
        · exact ⟨stores_within_refl _ _ _, fun next same => by cases same⟩

theorem request_line_within (r : Request) (text stop : Nat) (lined : Lined r.readBuf stop) (below : text ≤ stop + 1) :
    StoresWithin text (stop + 2) r.readBuf (parseRequestLine r text).2.readBuf := by
  have first := parse_method_within r text stop lined below
  have second := bind_within text stop r _ parseVersion first (by
    intro a passed
    obtain ⟨linedA, _, belowA⟩ := parse_method_next r a text stop lined below passed
    exact parse_version_within a text stop linedA (first.behind a passed) belowA)
  have third := bind_within text stop r _ (skipScheme (ascii "http://")) second fun b passed =>
    skip_scheme_within _ b text stop (second.behind b passed)
  have fourth := bind_within text stop r _ (skipScheme (ascii "https://")) third fun c passed =>
    skip_scheme_within _ c text stop (third.behind c passed)
  have stages := (bind_within text stop r _ parseTarget fourth fun d passed =>
    parse_target_within d text stop (https_stage_next r d text stop lined below passed).1 (fourth.behind d passed)).stores
  unfold parseRequestLine
  revert stages
  unfold requestLineStages
  generalize Stage.bind _ parseTarget = stage
  cases stage <;> exact id

theorem request_line_frame (r : Request) (ordered : Ordered r) (ended : (parseLine r).1 = .lineOk) :
    StoresWithin (parseLine r).2.startLine (parseLine r).2.checkIdx (parseLine r).2.readBuf
      (parseRequestLine (beginLine (parseLine r).2) (parseLine r).2.startLine).2.readBuf := by
  obtain ⟨stop, lower, _, result⟩ := parse_line_ok r ordered.check ended
  have start := ordered.start
  rw [result]
  exact request_line_within _ r.startLine stop (lined_after_line r.readBuf stop) (by omega)

theorem request_line_frame_tight :
    StoresWithin 0 16 (parseLine (Request.fresh.feed (ascii "GET / HTTP/1.1\r\n"))).2.readBuf
      (parseRequestLine (beginLine (parseLine (Request.fresh.feed (ascii "GET / HTTP/1.1\r\n"))).2) 0).2.readBuf :=
  request_line_frame (Request.fresh.feed (ascii "GET / HTTP/1.1\r\n")) ⟨by decide, by decide⟩ (by decide +kernel)

end WzyServer.Http
