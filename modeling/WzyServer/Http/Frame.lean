import WzyServer.Http.Parser

set_option autoImplicit false

namespace WzyServer.Http

open CString

-- The layout parse_line leaves behind: the two bytes of the line end are NUL.
structure Lined (memory : Memory) (stop : Nat) : Prop where
  first : memory stop = 0
  second : memory (stop + 1) = 0

theorem lined_store (memory : Memory) (index stop : Nat) (lined : Lined memory stop) : Lined (store memory index 0) stop := by
  have zero : ∀ address, memory address = 0 → store memory index 0 address = 0 := by
    intro address nul
    by_cases same : address = index
    · rw [same, store_here]
    · rw [store_elsewhere _ _ _ _ same, nul]
  exact ⟨zero stop lined.first, zero (stop + 1) lined.second⟩

theorem lined_cstr_write (memory : Memory) (edge : Nat) (bytes : List UInt8) (text stop : Nat)
    (lined : Lined memory stop) (inside : stop + 1 < edge) (below : text ≤ stop + 1) :
    cstr (write memory edge bytes) text = cstr memory text := by
  apply string_at_congr _ _ text _ (stop + 1) below
  · intro index _ upper
    exact write_before memory edge index bytes (by omega)
  · rw [write_before memory edge (stop + 1) bytes inside]
    exact lined.second

theorem lined_cstr_length (memory : Memory) (text stop : Nat) (lined : Lined memory stop) (below : text ≤ stop + 1) :
    text + (cstr memory text).length ≤ stop + 1 :=
  string_at_length memory text _ (stop + 1) below lined.second

theorem lined_cstr_first (memory : Memory) (text stop : Nat) (lined : Lined memory stop) (below : text ≤ stop + 1)
    (nonempty : 0 < (cstr memory text).length) : text + (cstr memory text).length ≤ stop := by
  have bound := lined_cstr_length memory text stop lined below
  have last := string_at_get memory text (readBufferSize - text) ((cstr memory text).length - 1) (by
    change (cstr memory text).length - 1 < (cstr memory text).length
    omega)
  have different : text + ((cstr memory text).length - 1) ≠ stop := fun same => last.2 (same ▸ lined.first)
  omega

def fed (bytes : List UInt8) (result : Outcome × Request) : Outcome × Request := (result.1, result.2.feed bytes)

def Stage.feed (bytes : List UInt8) : Stage → Stage
  | .next r => .next (r.feed bytes)
  | .done outcome r => .done outcome (r.feed bytes)

theorem parse_method_feed (r : Request) (bytes : List UInt8) (text stop : Nat) (lined : Lined r.readBuf stop)
    (inside : stop + 1 < r.readIdx) (below : text ≤ stop + 1) :
    parseMethod (r.feed bytes) text = (parseMethod r text).feed bytes := by
  have bound := lined_cstr_length r.readBuf text stop lined below
  simp only [parseMethod, Request.feed, lined_cstr_write r.readBuf r.readIdx bytes text stop lined inside below]
  cases found : strpbrk (cstr r.readBuf text) blanks with
  | none => rfl
  | some blank =>
      have within := strpbrk_bound _ _ _ found
      have stored := lined_store r.readBuf (text + blank) stop lined
      simp only [← store_write_comm r.readBuf r.readIdx (text + blank) 0 bytes (by omega),
        lined_cstr_write _ r.readIdx bytes text stop stored inside below]
      split
      · rfl
      · split <;> rfl

theorem parse_version_feed (r : Request) (bytes : List UInt8) (stop : Nat) (lined : Lined r.readBuf stop)
    (inside : stop + 1 < r.readIdx) (below : ∀ url, r.url = some url → url ≤ stop + 1) :
    parseVersion (r.feed bytes) = (parseVersion r).feed bytes := by
  cases target : r.url with
  | none => simp [parseVersion, Request.feed, target, Stage.feed]
  | some start =>
      have startBelow := below start target
      have startBound := lined_cstr_length r.readBuf start stop lined startBelow
      have spanned := strspn_bound (cstr r.readBuf start) blanks
      simp only [parseVersion, Request.feed, target,
        lined_cstr_write r.readBuf r.readIdx bytes start stop lined inside startBelow]
      generalize urlEq : start + strspn (cstr r.readBuf start) blanks = url
      have urlBelow : url ≤ stop + 1 := by omega
      have urlBound := lined_cstr_length r.readBuf url stop lined urlBelow
      rw [lined_cstr_write r.readBuf r.readIdx bytes url stop lined inside urlBelow]
      cases found : strpbrk (cstr r.readBuf url) blanks with
      | none => rfl
      | some blank =>
          have within := strpbrk_bound _ _ _ found
          have stored := lined_store r.readBuf (url + blank) stop lined
          have gapBound := lined_cstr_length _ (url + blank + 1) stop stored (by omega)
          have gap := strspn_bound (cstr (store r.readBuf (url + blank) 0) (url + blank + 1)) blanks
          simp only [← store_write_comm r.readBuf r.readIdx (url + blank) 0 bytes (by omega),
            lined_cstr_write _ r.readIdx bytes (url + blank + 1) stop stored inside (by omega),
            lined_cstr_write _ r.readIdx bytes
              (url + blank + 1 + strspn (cstr (store r.readBuf (url + blank) 0) (url + blank + 1)) blanks)
              stop stored inside (by omega)]
          split <;> rfl

-- Past the version test the URL ends at least nine bytes before the line does:
-- a NUL, then the eight characters of the version.
structure Roomy (r : Request) (stop : Nat) : Prop where
  lined : Lined r.readBuf stop
  room : ∃ cut, r.readBuf cut = 0 ∧ cut + 9 ≤ stop ∧ ∀ url, r.url = some url → url ≤ cut

theorem strcasecmp_length (a b : List UInt8) (same : strcasecmp a b = true) : a.length = b.length := by
  have lengths := congrArg List.length (beq_iff_eq.mp same)
  simpa using lengths

theorem strncasecmp_length (a b : List UInt8) (same : strncasecmp a b b.length = true) : b.length ≤ a.length := by
  have lengths := congrArg List.length (beq_iff_eq.mp same)
  simp only [List.length_map, List.length_take] at lengths
  omega

theorem parse_method_next (r next : Request) (text stop : Nat) (lined : Lined r.readBuf stop) (below : text ≤ stop + 1)
    (passed : parseMethod r text = .next next) :
    Lined next.readBuf stop ∧ next.readIdx = r.readIdx ∧ ∀ url, next.url = some url → url ≤ stop + 1 := by
  have bound := lined_cstr_length r.readBuf text stop lined below
  unfold parseMethod at passed
  cases found : strpbrk (cstr r.readBuf text) blanks with
  | none => simp [found] at passed
  | some blank =>
      have within := strpbrk_bound _ _ _ found
      simp only [found] at passed
      split at passed
      · cases passed
        exact ⟨lined_store _ _ _ lined, rfl, fun url same => by cases same; omega⟩
      · split at passed
        · cases passed
          exact ⟨lined_store _ _ _ lined, rfl, fun url same => by cases same; omega⟩
        · cases passed

theorem parse_version_next (r next : Request) (stop : Nat) (lined : Lined r.readBuf stop)
    (below : ∀ url, r.url = some url → url ≤ stop + 1) (passed : parseVersion r = .next next) :
    Roomy next stop ∧ next.readIdx = r.readIdx := by
  unfold parseVersion at passed
  cases target : r.url with
  | none => simp [target] at passed
  | some start =>
      have startBound := lined_cstr_length r.readBuf start stop lined (below start target)
      have spanned := strspn_bound (cstr r.readBuf start) blanks
      simp only [target] at passed
      generalize urlEq : start + strspn (cstr r.readBuf start) blanks = url at passed
      have urlBound := lined_cstr_length r.readBuf url stop lined (by omega)
      cases found : strpbrk (cstr r.readBuf url) blanks with
      | none => simp [found] at passed
      | some blank =>
          have within := strpbrk_bound _ _ _ found
          have stored := lined_store r.readBuf (url + blank) stop lined
          have gapBound := lined_cstr_length _ (url + blank + 1) stop stored (by omega)
          have gap := strspn_bound (cstr (store r.readBuf (url + blank) 0) (url + blank + 1)) blanks
          simp only [found] at passed
          generalize versionEq : url + blank + 1 +
            strspn (cstr (store r.readBuf (url + blank) 0) (url + blank + 1)) blanks = version at passed
          split at passed
          · rename_i accepted
            have eight := strcasecmp_length _ _ accepted
            change _ = 8 at eight
            have versionEnd := lined_cstr_first _ version stop stored (by omega) (by omega)
            cases passed
            refine ⟨⟨stored, url + blank, store_here _ _ _, by omega, ?_⟩, rfl⟩
            intro other same
            cases same
            omega
          · cases passed

theorem skip_scheme_url (scheme : List UInt8) (r : Request) (cut url : Nat) (nul : r.readBuf cut = 0)
    (below : url ≤ cut)
    (matching : strncasecmp (cstr r.readBuf url) scheme scheme.length = true) :
    url + scheme.length ≤ cut ∧ ∀ next, (strchr (cstr r.readBuf (url + scheme.length)) slash).map
      (url + scheme.length + ·) = some next → next ≤ cut := by
  have long := strncasecmp_length _ _ matching
  have urlBound : url + (cstr r.readBuf url).length ≤ cut := string_at_length _ _ _ cut below nul
  refine ⟨by omega, ?_⟩
  intro next found
  obtain ⟨k, hit, rfl⟩ := Option.map_eq_some_iff.mp found
  obtain ⟨within, _⟩ := strchr_found _ _ _ hit
  have restBound : url + scheme.length + (cstr r.readBuf (url + scheme.length)).length ≤ cut :=
    string_at_length _ _ _ cut (by omega) nul
  omega

theorem skip_scheme_next (scheme : List UInt8) (r next : Request) (stop : Nat) (roomy : Roomy r stop)
    (passed : skipScheme scheme r = .next next) : Roomy next stop ∧ next.readIdx = r.readIdx := by
  obtain ⟨lined, cut, nul, room, below⟩ := roomy
  unfold skipScheme at passed
  cases target : r.url with
  | none => simp [target] at passed
  | some url =>
      simp only [target] at passed
      split at passed
      · rename_i matching
        cases passed
        exact ⟨⟨lined, cut, nul, room, (skip_scheme_url scheme r cut url nul (below url target) matching).2⟩, rfl⟩
      · cases passed
        exact ⟨⟨lined, cut, nul, room, below⟩, rfl⟩

theorem skip_scheme_feed (scheme : List UInt8) (r : Request) (bytes : List UInt8) (stop : Nat) (roomy : Roomy r stop)
    (inside : stop + 1 < r.readIdx) : skipScheme scheme (r.feed bytes) = (skipScheme scheme r).feed bytes := by
  obtain ⟨lined, cut, nul, room, below⟩ := roomy
  cases target : r.url with
  | none => simp [skipScheme, Request.feed, target, Stage.feed]
  | some url =>
      have urlBelow := below url target
      simp only [skipScheme, Request.feed, target,
        lined_cstr_write r.readBuf r.readIdx bytes url stop lined inside (by omega)]
      split
      · rename_i matching
        have restBelow := (skip_scheme_url scheme r cut url nul urlBelow matching).1
        rw [lined_cstr_write r.readBuf r.readIdx bytes _ stop lined inside (by omega)]
        rfl
      · simp [Stage.feed, Request.feed, target]

-- `judge.html` and its NUL overwrite the version text and at most the first NUL after it.
theorem parse_target_feed (r : Request) (bytes : List UInt8) (stop : Nat) (roomy : Roomy r stop)
    (inside : stop + 1 < r.readIdx) : parseTarget (r.feed bytes) = (parseTarget r).feed bytes := by
  obtain ⟨lined, cut, nul, room, below⟩ := roomy
  cases target : r.url with
  | none => simp [parseTarget, Request.feed, target, Stage.feed]
  | some url =>
      have urlBelow := below url target
      have urlBound : url + (cstr r.readBuf url).length ≤ cut := string_at_length _ _ _ cut urlBelow nul
      simp only [parseTarget, Request.feed, target,
        lined_cstr_write r.readBuf r.readIdx bytes url stop lined inside (by omega),
        write_before r.readBuf r.readIdx url bytes (by omega)]
      split
      · simp [Stage.feed, Request.feed, target]
      · split
        · rename_i single
          have nameLength : (ascii "judge.html" ++ [0]).length = 11 := by decide
          rw [← write_write_comm r.readBuf (url + 1) r.readIdx _ bytes (by omega)]
          simp [Stage.feed, Request.feed]
        · simp [Stage.feed, Request.feed]

theorem bind_feed (stage fed : Stage) (rest : Request → Stage) (bytes : List UInt8) (first : fed = stage.feed bytes)
    (later : ∀ r, stage = .next r → rest (r.feed bytes) = (rest r).feed bytes) :
    fed.bind rest = (stage.bind rest).feed bytes := by
  rw [first]
  cases stage with
  | next r => exact later r rfl
  | done outcome r => rfl

theorem bind_next (stage : Stage) (rest : Request → Stage) (final : Request) (passed : stage.bind rest = .next final) :
    ∃ r, stage = .next r ∧ rest r = .next final := by
  cases stage with
  | next r => exact ⟨r, rfl, passed⟩
  | done outcome r => cases passed

theorem version_stage_next (r next : Request) (text stop : Nat) (lined : Lined r.readBuf stop) (below : text ≤ stop + 1)
    (passed : (parseMethod r text).bind parseVersion = .next next) : Roomy next stop ∧ next.readIdx = r.readIdx := by
  obtain ⟨a, methodPassed, versionPassed⟩ := bind_next _ _ _ passed
  obtain ⟨linedA, sameA, belowA⟩ := parse_method_next r a text stop lined below methodPassed
  obtain ⟨roomy, same⟩ := parse_version_next a next stop linedA belowA versionPassed
  exact ⟨roomy, same.trans sameA⟩

theorem http_stage_next (r next : Request) (text stop : Nat) (lined : Lined r.readBuf stop) (below : text ≤ stop + 1)
    (passed : ((parseMethod r text).bind parseVersion).bind (skipScheme (ascii "http://")) = .next next) :
    Roomy next stop ∧ next.readIdx = r.readIdx := by
  obtain ⟨b, before, skipped⟩ := bind_next _ _ _ passed
  obtain ⟨roomyB, sameB⟩ := version_stage_next r b text stop lined below before
  obtain ⟨roomy, same⟩ := skip_scheme_next _ b next stop roomyB skipped
  exact ⟨roomy, same.trans sameB⟩

theorem https_stage_next (r next : Request) (text stop : Nat) (lined : Lined r.readBuf stop) (below : text ≤ stop + 1)
    (passed : (((parseMethod r text).bind parseVersion).bind (skipScheme (ascii "http://"))).bind
      (skipScheme (ascii "https://")) = .next next) : Roomy next stop ∧ next.readIdx = r.readIdx := by
  obtain ⟨c, before, skipped⟩ := bind_next _ _ _ passed
  obtain ⟨roomyC, sameC⟩ := http_stage_next r c text stop lined below before
  obtain ⟨roomy, same⟩ := skip_scheme_next _ c next stop roomyC skipped
  exact ⟨roomy, same.trans sameC⟩

theorem parse_request_line_feed (r : Request) (bytes : List UInt8) (text stop : Nat) (lined : Lined r.readBuf stop)
    (inside : stop + 1 < r.readIdx) (below : text ≤ stop + 1) :
    parseRequestLine (r.feed bytes) text = fed bytes (parseRequestLine r text) := by
  have stages : requestLineStages (r.feed bytes) text = (requestLineStages r text).feed bytes := by
    have methodFeed := parse_method_feed r bytes text stop lined inside below
    have versionFeed := bind_feed _ _ parseVersion bytes methodFeed (by
      intro a passed
      obtain ⟨linedA, sameA, belowA⟩ := parse_method_next r a text stop lined below passed
      exact parse_version_feed a bytes stop linedA (by omega) belowA)
    have httpFeed := bind_feed _ _ (skipScheme (ascii "http://")) bytes versionFeed (by
      intro b passed
      obtain ⟨roomy, same⟩ := version_stage_next r b text stop lined below passed
      exact skip_scheme_feed _ b bytes stop roomy (by omega))
    have httpsFeed := bind_feed _ _ (skipScheme (ascii "https://")) bytes httpFeed (by
      intro c passed
      obtain ⟨roomy, same⟩ := http_stage_next r c text stop lined below passed
      exact skip_scheme_feed _ c bytes stop roomy (by omega))
    exact bind_feed _ _ parseTarget bytes httpsFeed (by
      intro d passed
      obtain ⟨roomy, same⟩ := https_stage_next r d text stop lined below passed
      exact parse_target_feed d bytes stop roomy (by omega))
  unfold parseRequestLine
  rw [stages]
  cases requestLineStages r text <;> rfl

end WzyServer.Http
