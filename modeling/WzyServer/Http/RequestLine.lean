import WzyServer.Http.HeadFields

set_option autoImplicit false

namespace WzyServer.Http

open CString Word

def Gap (gap : Text) : Prop := gap ≠ [] ∧ ∀ c ∈ gap, c ∈ blanks

-- METHOD (space|tab)+ URL (space|tab)+ HTTP/1.1
structure LineOf (line : Text) (method : Method) (url : Text) : Prop where
  some : url ≠ []
  whole : NoBlank url
  split : ∃ word gap behind version, line = word ++ (gap ++ (url ++ (behind ++ version))) ∧ NoBlank word ∧
    methodNamed word = .some method ∧ Gap gap ∧ Gap behind ∧ strcasecmp version (ascii "HTTP/1.1") = true

def schemes : List Text := [ascii "http://", ascii "https://"]

-- The path of a URL stands behind its scheme and authority; a URL without a scheme is a path.
inductive PathOf : Text → Text → Prop where
  | plain (url : Text) (bare : ∀ scheme rest, url = scheme ++ rest → scheme.map tolower ∉ schemes) : PathOf url url
  | behind (scheme host path : Text) (named : scheme.map tolower ∈ schemes) (authority : slash ∉ host)
      (rooted : path.head? = some slash) : PathOf (scheme ++ (host ++ path)) path

def Grammar (line : Text) (method : Method) (path : Text) : Prop :=
  ∃ url, LineOf line method url ∧ PathOf url path ∧ path.head? = some slash

def urlField (line : Text) : Text :=
  ((line.dropWhile fun c => c ∉ blanks).dropWhile fun c => c ∈ blanks).takeWhile fun c => c ∉ blanks

section Stages

theorem split_word (line : Text) :
    NoBlank line ∨ ∃ word c rest, line = word ++ c :: rest ∧ NoBlank word ∧ c ∈ blanks := by
  have word : NoBlank (line.takeWhile fun c => c ∉ blanks) := fun c member =>
    of_decide_eq_true (List.all_eq_true.mp List.all_takeWhile c member)
  have parts := List.takeWhile_append_dropWhile (p := fun c => decide (c ∉ blanks)) (l := line)
  have behind := List.head?_dropWhile_not (fun c => decide (c ∉ blanks)) line
  cases rear : line.dropWhile fun c => c ∉ blanks with
  | nil =>
      rw [rear, List.append_nil] at parts
      exact .inl (parts ▸ word)
  | cons c rest =>
      rw [rear] at parts behind
      exact .inr ⟨_, c, rest, parts.symm, word, by simpa using behind⟩

theorem split_gap (rest : Text) : ∃ gap field, rest = gap ++ field ∧ (∀ c ∈ gap, c ∈ blanks) ∧ ∀ c ∈ field.head?, c ∉ blanks := by
  refine ⟨rest.takeWhile fun c => c ∈ blanks, rest.dropWhile fun c => c ∈ blanks, ?_, fun c member => ?_, fun c first => ?_⟩
  · exact List.takeWhile_append_dropWhile.symm
  · exact of_decide_eq_true (List.all_eq_true.mp List.all_takeWhile c member)
  · have behind := List.head?_dropWhile_not (fun c => decide (c ∈ blanks)) rest
    rw [Option.mem_def.mp first] at behind
    simpa using behind

theorem line_of_stages (r : Request) (text : Nat) (line url : Text) (method : Method) (parts : LineOf line method url)
    (here : TextAt r.readBuf text line) (room : text + line.length < readBufferSize) :
    ∃ s start, (parseMethod r text).bind parseVersion = .next s ∧ s.url = some start ∧ s.method = method ∧
      s.checkState = r.checkState ∧ TextAt s.readBuf start url ∧ start + url.length + 9 ≤ text + line.length := by
  obtain ⟨some_url, whole, word, gap, behind, version, rfl, clean, named, ⟨some_gap, only⟩, ⟨some_behind, onlyBehind⟩, last⟩ := parts
  obtain ⟨c, gap, rfl⟩ := List.exists_cons_of_ne_nil some_gap
  obtain ⟨d, behind, rfl⟩ := List.exists_cons_of_ne_nil some_behind
  obtain ⟨eight, ends⟩ := version_plain version last
  have first : parseMethod r text = .next (methodCut r text word method) := by
    rw [parse_method_word r text word _ c clean (only c (List.mem_cons_self ..)) here room, named]
  have rest := text_at_behind r.readBuf text word _ c here
  simp only [List.length_append, List.length_cons, eight] at room
  have second := parse_version_field (methodCut r text word method) (text + word.length + 1) gap url behind version d rfl
    (fun e member => only e (List.mem_cons_of_mem _ member)) whole some_url (onlyBehind d (List.mem_cons_self ..))
    (fun e member => onlyBehind e (List.mem_cons_of_mem _ member)) ends rest
    (by simp only [List.length_append, List.length_cons, eight]; omega)
  rw [if_pos last] at second
  refine ⟨_, text + word.length + 1 + gap.length, (bind_of_next _ _ _ first).trans second, rfl, rfl, rfl, ?_, ?_⟩
  · exact text_at_cut _ _ url (behind ++ version) d (text_at_drop _ _ gap _ rest)
  · simp only [List.length_append, List.length_cons, eight]
    omega

theorem line_refused (r : Request) (text : Nat) (line : Text) (other : ∀ method url, ¬ LineOf line method url)
    (here : TextAt r.readBuf text line) (room : text + line.length < readBufferSize) :
    ∃ s, (parseMethod r text).bind parseVersion = .done (.code .badRequest) s ∧ s.checkState = r.checkState := by
  rcases split_word line with bare | ⟨word, c, rest, rfl, clean, blank⟩
  · exact ⟨_, bind_of_done _ _ _ _ (parse_method_bare r text line bare here room), rfl⟩
  have first := parse_method_word r text word rest c clean blank here room
  have behindWord := text_at_behind r.readBuf text word rest c here
  rw [List.length_append, List.length_cons] at room
  cases named : methodNamed word with
  | none =>
      rw [named] at first
      exact ⟨_, bind_of_done _ _ _ _ first, rfl⟩
  | some method =>
      have cut : parseMethod r text = .next (methodCut r text word method) := by rw [first, named]
      obtain ⟨gap, field, rfl, only, ends⟩ := split_gap rest
      rcases split_word field with bare | ⟨url, d, tail, rfl, whole, blankBehind⟩
      · have second := parse_version_bare (methodCut r text word method) (text + word.length + 1) gap field rfl only bare
          behindWord (by omega)
        exact ⟨_, (bind_of_next _ _ _ cut).trans second, rfl⟩
      · obtain ⟨behind, version, rfl, onlyBehind, endsVersion⟩ := split_gap tail
        have some_url : url ≠ [] := by
          rintro rfl
          exact ends d rfl blankBehind
        have second := parse_version_field (methodCut r text word method) (text + word.length + 1) gap url behind version d rfl
          only whole some_url blankBehind onlyBehind endsVersion behindWord (by omega)
        have mismatch : ¬ strcasecmp version (ascii "HTTP/1.1") = true := by
          intro last
          refine other method url ⟨some_url, whole, word, c :: gap, d :: behind, version, by simp, clean, named, ?_, ?_, last⟩
          · exact ⟨List.cons_ne_nil _ _, List.forall_mem_cons.mpr ⟨blank, only⟩⟩
          · exact ⟨List.cons_ne_nil _ _, List.forall_mem_cons.mpr ⟨blankBehind, onlyBehind⟩⟩
        rw [if_neg mismatch] at second
        exact ⟨_, (bind_of_next _ _ _ cut).trans second, rfl⟩

end Stages

section Urls

theorem named_split (scheme url : Text) (lower : scheme.map tolower = scheme) :
    strncasecmp url scheme scheme.length = true ↔ ∃ spelled rest, url = spelled ++ rest ∧ spelled.map tolower = scheme := by
  constructor
  · intro named
    refine ⟨url.take scheme.length, url.drop scheme.length, (List.take_append_drop _ _).symm, ?_⟩
    rw [strncasecmp, List.take_length, lower] at named
    exact eq_of_beq named
  · rintro ⟨spelled, rest, rfl, same⟩
    have long : spelled.length = scheme.length := by rw [← same, List.length_map]
    rw [strncasecmp, ← long, List.take_left, long, List.take_length, same, lower, beq_self_eq_true]

theorem lower_schemes : ∀ scheme ∈ schemes, scheme.map tolower = scheme ∧ scheme.head? = some 104 := by decide +kernel

theorem other_scheme (scheme url : Text) (member : scheme ∈ schemes)
    (bare : ∀ spelled rest, url = spelled ++ rest → spelled.map tolower ≠ scheme) : behindScheme scheme url = some url := by
  apply behind_other
  apply Bool.eq_false_iff.mpr
  intro named
  obtain ⟨spelled, rest, split, same⟩ := (named_split scheme url (lower_schemes scheme member).1).mp named
  exact bare spelled rest split same

theorem schemes_apart (a b x y : Text) (same : a ++ x = b ++ y) (plain : a.map tolower = ascii "http://")
    (secure : b.map tolower = ascii "https://") : False := by
  have seven : a.length = 7 := by rw [← List.length_map (f := tolower), plain]; decide
  have eight : b.length = 8 := by rw [← List.length_map (f := tolower), secure]; decide
  have front : a.take 5 = b.take 5 := by
    rw [← List.take_append_of_le_length (show 5 ≤ a.length by omega), same, List.take_append_of_le_length (by omega)]
  have lowered := congrArg (List.map tolower) front
  rw [List.map_take, List.map_take, plain, secure] at lowered
  exact absurd lowered (by decide)

theorem url_of_path (url path : Text) (parts : PathOf url path) : urlOf url = some path := by
  cases parts with
  | plain _ bare =>
      have other : ∀ scheme ∈ schemes, behindScheme scheme url = some url := fun scheme member =>
        other_scheme scheme url member fun spelled rest split same => bare spelled rest split (same ▸ member)
      rw [urlOf, other _ (by decide), Option.bind_some, other _ (by decide)]
  | behind spelled host _ named authority rooted =>
      obtain ⟨rest, rfl⟩ := List.head?_eq_some_iff.mp rooted
      have plain : behindScheme (ascii "https://") (slash :: rest) = some (slash :: rest) :=
        behind_other _ _ (not_scheme rest _ (by decide))
      have http_or_https : spelled.map tolower = ascii "http://" ∨ spelled.map tolower = ascii "https://" := by
        simpa only [schemes, List.mem_cons, List.not_mem_nil, or_false] using named
      rcases http_or_https with http | https
      · rw [urlOf, behind_own (ascii "http://") spelled host rest (http.trans (by decide +kernel)) authority, Option.bind_some, plain]
      · rw [urlOf, other_scheme (ascii "http://") _ (by decide) fun other more split same => schemes_apart _ _ _ _ split.symm same https,
          Option.bind_some, behind_own (ascii "https://") spelled host rest (https.trans (by decide +kernel)) authority]

def AuthorityEnds (url : Text) : Prop :=
  ∀ scheme ∈ schemes, strncasecmp url scheme scheme.length = true → slash ∈ url.drop scheme.length

instance (url : Text) : Decidable (AuthorityEnds url) := inferInstanceAs (Decidable (∀ scheme ∈ schemes, _))

theorem path_exists (url : Text) (authority : AuthorityEnds url) : ∃ path, PathOf url path := by
  by_cases bare : ∀ scheme rest, url = scheme ++ rest → scheme.map tolower ∉ schemes
  · exact ⟨url, .plain url bare⟩
  · obtain ⟨spelled, rest, rfl, named⟩ : ∃ spelled rest, url = spelled ++ rest ∧ spelled.map tolower ∈ schemes := by
      simpa only [not_forall, not_not, exists_prop] using bare
    have ends := authority _ named ((named_split _ _ (lower_schemes _ named).1).mpr ⟨spelled, rest, rfl, rfl⟩)
    rw [List.length_map, List.drop_left] at ends
    obtain ⟨host, path, rfl, single⟩ := List.eq_append_cons_of_mem ends
    exact ⟨slash :: path, .behind spelled host (slash :: path) named single rfl⟩

theorem skip_scheme_lost (r : Request) (start : Nat) (scheme target : Text) (points : r.url = some start)
    (here : TextAt r.readBuf start target) (room : start + target.length < readBufferSize) (lost : behindScheme scheme target = none) :
    skipScheme scheme r = .next { r with url := none } := by
  have string := text_at_cstr r.readBuf start target here room
  unfold behindScheme at lost
  by_cases named : strncasecmp target scheme scheme.length = true
  · rw [if_pos named, Option.map_eq_none_iff] at lost
    have long := strncasecmp_length target scheme named
    have behind := text_at_drop_take r.readBuf start scheme.length target here long
    have rest := text_at_cstr r.readBuf _ _ behind (by rw [List.length_drop]; omega)
    simp only [skipScheme, points, string, named, if_true, rest, lost, Option.map_none]
  · rw [if_neg named] at lost
    cases lost

end Urls

theorem parse_line_text (r : Request) (ordered : Ordered r) (full : r.readIdx ≤ readBufferSize) (ok : (parseLine r).1 = .lineOk) :
    ∃ line, TextAt (parseLine r).2.readBuf r.startLine line ∧
      (line = [] ∨ r.startLine + line.length + 1 < readBufferSize) := by
  obtain ⟨stop, lower, upper, found⟩ := parse_line_ok r ordered.check ok
  obtain ⟨first, second⟩ := lined_after_line r.readBuf stop
  rw [found]
  generalize store (store r.readBuf stop 0) (stop + 1) 0 = memory at first second
  have start := ordered.start
  by_cases past : r.startLine = stop + 1
  · exact ⟨[], ⟨List.forall_mem_nil _, fun _ inside => absurd inside (Nat.not_lt_zero _), past ▸ second⟩, .inl rfl⟩
  · have long := string_at_length memory r.startLine (stop + 1 - r.startLine) stop (by omega) first
    refine ⟨stringAt memory r.startLine (stop + 1 - r.startLine), ⟨fun c member => ?_, fun offset inside => ?_, ?_⟩, .inr (by omega)⟩
    · obtain ⟨offset, inside, rfl⟩ := List.getElem_of_mem member
      obtain ⟨same, nonzero⟩ := string_at_get memory _ _ offset inside
      rwa [same]
    · exact (string_at_get memory _ _ offset inside).1.symm
    · exact string_at_nul memory _ _ (by omega)

section Grammar

variable (r : Request) (text : Nat) (line : Text)

theorem stages_past_version (s : Request) (past : (parseMethod r text).bind parseVersion = .next s) :
    requestLineStages r text =
      (((skipScheme (ascii "http://") s).bind (skipScheme (ascii "https://"))).bind parseTarget) := by
  rw [requestLineStages, past]
  rfl

theorem refused_outcome (other : ∀ method url, ¬ LineOf line method url) (here : TextAt r.readBuf text line)
    (room : text + line.length < readBufferSize) :
    ∃ s, parseRequestLine r text = (.code .badRequest, s) ∧ s.checkState = r.checkState := by
  obtain ⟨s, refused, state⟩ := line_refused r text line other here room
  refine ⟨s, ?_, state⟩
  rw [parseRequestLine, requestLineStages, refused]
  rfl

-- A URL that is only a scheme and a host leaves the first of the two scheme tests with no m_url.
def HostOnly (url : Text) : Prop := ∃ scheme host, url = scheme ++ host ∧ scheme.map tolower = ascii "http://" ∧ slash ∉ host

theorem host_only_iff (url : Text) : HostOnly url ↔ behindScheme (ascii "http://") url = none := by
  have http : ascii "http://" ∈ schemes := List.mem_cons_self ..
  constructor
  · rintro ⟨scheme, host, rfl, same, single⟩
    have named := (named_split (ascii "http://") (scheme ++ host) (lower_schemes _ http).1).mpr ⟨scheme, host, rfl, same⟩
    have long : scheme.length = (ascii "http://").length := by rw [← same, List.length_map]
    rw [behindScheme, if_pos named, ← long, List.drop_left, Option.map_eq_none_iff]
    exact List.findIdx?_eq_none_iff.mpr fun c member => decide_eq_false fun same => single (same ▸ member)
  · intro lost
    unfold behindScheme at lost
    by_cases named : strncasecmp url (ascii "http://") (ascii "http://").length = true
    · rw [if_pos named, Option.map_eq_none_iff] at lost
      obtain ⟨scheme, host, rfl, same⟩ := (named_split _ _ (lower_schemes _ http).1).mp named
      have long : scheme.length = (ascii "http://").length := by rw [← same, List.length_map]
      rw [← long, List.drop_left] at lost
      exact ⟨scheme, host, rfl, same, fun member =>
        absurd rfl (of_decide_eq_false (List.findIdx?_eq_none_iff.mp lost slash member))⟩
    · rw [if_neg named] at lost
      cases lost

theorem parse_target_code (s : Request) :
    (parseTarget s).result.1 = .code .badRequest ∨ (parseTarget s).result.1 = .code .noRequest := by
  unfold parseTarget
  split
  · exact .inl rfl
  · split
    · exact .inl rfl
    · split
      · exact .inr rfl
      · exact .inr rfl

theorem host_only_faults (s : Request) (start : Nat) (url : Text) (points : s.url = some start) (here : TextAt s.readBuf start url)
    (room : start + url.length < readBufferSize) (host : HostOnly url) :
    (((skipScheme (ascii "http://") s).bind (skipScheme (ascii "https://"))).bind parseTarget).result.1 = .fault .nullPointer := by
  rw [skip_scheme_lost s start _ url points here room ((host_only_iff url).mp host)]
  rfl

theorem url_outcome (s : Request) (start : Nat) (url : Text) (points : s.url = some start) (here : TextAt s.readBuf start url)
    (room : start + url.length < readBufferSize) (path : ¬ HostOnly url) :
    (((skipScheme (ascii "http://") s).bind (skipScheme (ascii "https://"))).bind parseTarget).result.1 = .code .badRequest ∨
      (((skipScheme (ascii "http://") s).bind (skipScheme (ascii "https://"))).bind parseTarget).result.1 = .code .noRequest := by
  obtain ⟨middle, left⟩ := Option.ne_none_iff_exists'.mp (mt (host_only_iff url).mpr path)
  obtain ⟨between, first, middleText, ends⟩ := skip_scheme_text s start _ url middle points here room left
  rw [first, Stage.bind]
  cases second : behindScheme (ascii "https://") middle with
  | none =>
      rw [skip_scheme_lost { s with url := some between } between _ middle rfl middleText (by omega) second, Stage.bind]
      exact parse_target_code _
  | some rest =>
      obtain ⟨_, skipped, _, _⟩ :=
        skip_scheme_text { s with url := some between } between _ middle rest rfl middleText (by omega) second
      rw [skipped, Stage.bind]
      exact parse_target_code _

theorem url_field_of (method : Method) (url : Text) (parts : LineOf line method url) : urlField line = url := by
  obtain ⟨some_url, whole, word, gap, behind, version, rfl, clean, _, ⟨some_gap, only⟩, ⟨some_behind, onlyBehind⟩, _⟩ := parts
  obtain ⟨b, gap, rfl⟩ := List.exists_cons_of_ne_nil some_gap
  obtain ⟨c, url, rfl⟩ := List.exists_cons_of_ne_nil some_url
  obtain ⟨d, behind, rfl⟩ := List.exists_cons_of_ne_nil some_behind
  have first := only b (List.mem_cons_self ..)
  have last := onlyBehind d (List.mem_cons_self ..)
  have start := whole c (List.mem_cons_self ..)
  rw [urlField, List.dropWhile_append_of_pos (fun e member => decide_eq_true (clean e member)), List.cons_append,
    List.dropWhile_cons_of_neg (by simpa using first), ← List.cons_append,
    List.dropWhile_append_of_pos (fun e member => decide_eq_true (only e member)), List.cons_append,
    List.dropWhile_cons_of_neg (by simpa using start), ← List.cons_append,
    List.takeWhile_append_of_pos (fun e member => decide_eq_true (whole e member)), List.cons_append (a := d),
    List.takeWhile_cons_of_neg (by simpa using last), List.append_nil]

theorem target_of_path (s : Request) (url : Nat) (path : Text) (points : s.url = some url) (here : TextAt s.readBuf url path)
    (room : url + path.length + 10 < readBufferSize) :
    (path.head? = some slash ∧ ∃ memory,
      parseTarget s = .done (.code .noRequest) { s with readBuf := memory, checkState := .header } ∧
      cstr memory url = if path = [slash] then ascii "/judge.html" else path) ∨
    (path.head? ≠ some slash ∧ parseTarget s = .done (.code .badRequest) s) := by
  have string := text_at_cstr s.readBuf url path here (by omega)
  cases path with
  | nil =>
      have nul : s.readBuf url = 0 := here.nul
      refine .inr ⟨by simp, ?_⟩
      simp only [parseTarget, points, nul, ne_eq, show ¬ (0 : UInt8) = slash by decide, not_false_eq_true, if_true]
  | cons c rest =>
      have first : s.readBuf url = c := here.bytes 0 (Nat.succ_pos _)
      by_cases slashed : c = slash
      · subst slashed
        refine .inl ⟨rfl, ?_⟩
        cases rest with
        | nil =>
            refine ⟨write s.readBuf (url + 1) (ascii "judge.html" ++ [0]), ?_, ?_⟩
            · simp [parseTarget, points, first, string]
            · have page := text_at_write s.readBuf (url + 1) (ascii "judge.html") (by decide +kernel)
              have kept : ∀ offset (inside : offset < [slash].length),
                  write s.readBuf (url + 1) (ascii "judge.html" ++ [0]) (url + offset) = [slash][offset] := by
                intro offset inside
                cases Nat.lt_one_iff.mp inside
                exact (write_before _ _ _ _ (Nat.lt_succ_self url)).trans first
              have ten : (ascii "judge.html").length = 10 := by decide
              rw [if_pos rfl, show ascii "/judge.html" = [slash] ++ ascii "judge.html" by decide +kernel]
              refine text_at_cstr _ _ _ (text_at_append _ url [slash] (ascii "judge.html") (List.forall_mem_singleton.mpr (by decide)) kept page) ?_
              rw [List.length_append, ten]
              exact room
        | cons d more =>
            refine ⟨s.readBuf, ?_, ?_⟩
            · simp [parseTarget, points, first, string]
            · rw [string, if_neg (by simp)]
      · refine .inr ⟨by simpa using slashed, ?_⟩
        simp only [parseTarget, points, first, ne_eq, slashed, not_false_eq_true, if_true]

theorem grammar_accepted (method : Method) (path : Text) (parts : Grammar line method path) (here : TextAt r.readBuf text line)
    (room : text + line.length + 1 < readBufferSize) :
    ∃ next url, parseRequestLine r text = (.code .noRequest, next) ∧ next.checkState = .header ∧ next.method = method ∧
      next.url = some url ∧ cstr next.readBuf url = (if path = [slash] then ascii "/judge.html" else path) ∧
      url + path.length + 9 ≤ text + line.length := by
  obtain ⟨field, parts, path_of, rooted⟩ := parts
  obtain ⟨s, start, past, points, named, _, fieldText, ends⟩ := line_of_stages r text line field method parts here (by omega)
  obtain ⟨url, skipped, pathText, same⟩ := skip_schemes s start field path (url_of_path field path path_of) points fieldText (by omega)
  rcases target_of_path { s with url := some url } url path rfl pathText (by omega) with ⟨_, memory, done, string⟩ | ⟨other, _⟩
  · refine ⟨{ s with url := some url, readBuf := memory, checkState := .header }, url, ?_, rfl, named, rfl, string, by omega⟩
    rw [parseRequestLine, stages_past_version r text s past, skipped, Stage.bind, done]
    rfl
  · exact absurd rooted other

theorem grammar_refused (other : ¬ ∃ method path, Grammar line method path) (authority : AuthorityEnds (urlField line))
    (here : TextAt r.readBuf text line) (room : text + line.length + 1 < readBufferSize) :
    ∃ next, parseRequestLine r text = (.code .badRequest, next) ∧ next.checkState = r.checkState := by
  by_cases parts : ∃ method url, LineOf line method url
  · obtain ⟨method, field, parts⟩ := parts
    rw [url_field_of line method field parts] at authority
    obtain ⟨path, path_of⟩ := path_exists field authority
    obtain ⟨s, start, past, points, _, state, fieldText, ends⟩ := line_of_stages r text line field method parts here (by omega)
    obtain ⟨url, skipped, pathText, same⟩ := skip_schemes s start field path (url_of_path field path path_of) points fieldText (by omega)
    rcases target_of_path { s with url := some url } url path rfl pathText (by omega) with ⟨rooted, _⟩ | ⟨_, done⟩
    · exact absurd ⟨method, path, field, parts, path_of, rooted⟩ other
    · refine ⟨{ s with url := some url }, ?_, state⟩
      rw [parseRequestLine, stages_past_version r text s past, skipped, Stage.bind, done]
      rfl
  · exact refused_outcome r text line (fun method url parsed => parts ⟨method, url, parsed⟩) here (by omega)

theorem request_line_grammar (here : TextAt r.readBuf text line) (room : text + line.length + 1 < readBufferSize)
    (authority : AuthorityEnds (urlField line)) :
    (((parseRequestLine r text).1 = .code .noRequest ∧ (parseRequestLine r text).2.checkState = .header) ↔
      ∃ method path, Grammar line method path) ∧
    (∀ method path, Grammar line method path → (parseRequestLine r text).2.method = method ∧
      ∃ url, (parseRequestLine r text).2.url = some url ∧
        cstr (parseRequestLine r text).2.readBuf url = if path = [slash] then ascii "/judge.html" else path) ∧
    ((¬ ∃ method path, Grammar line method path) →
      (parseRequestLine r text).1 = .code .badRequest ∧ (parseRequestLine r text).2.checkState = r.checkState) := by
  have accepted := fun method path parts => grammar_accepted r text line method path parts here room
  have refused := fun other => grammar_refused r text line other authority here room
  refine ⟨⟨fun ⟨code, _⟩ => ?_, fun ⟨method, path, parts⟩ => ?_⟩, fun method path parts => ?_, fun other => ?_⟩
  · by_contra other
    obtain ⟨next, bad, _⟩ := refused other
    rw [bad] at code
    cases code
  · obtain ⟨next, url, good, state, _⟩ := accepted method path parts
    rw [good]
    exact ⟨rfl, state⟩
  · obtain ⟨next, url, good, _, named, points, string, _⟩ := accepted method path parts
    rw [good]
    exact ⟨named, url, points, string⟩
  · obtain ⟨next, bad, state⟩ := refused other
    rw [bad]
    exact ⟨rfl, state⟩

def holding (line : Text) : Request := { Request.fresh with readBuf := write zeroed 0 (line ++ [0]) }

theorem holding_text (clean : ∀ c ∈ line, c ≠ 0) : TextAt (holding line).readBuf 0 line := text_at_write zeroed 0 line clean

theorem request_line_grammar_root :
    ((parseRequestLine (holding (ascii "get \tHTTPS://host/ http/1.1")) 0).1 = .code .noRequest ∧
      (parseRequestLine (holding (ascii "get \tHTTPS://host/ http/1.1")) 0).2.checkState = .header) ↔
      ∃ method path, Grammar (ascii "get \tHTTPS://host/ http/1.1") method path :=
  (request_line_grammar (holding (ascii "get \tHTTPS://host/ http/1.1")) 0 (ascii "get \tHTTPS://host/ http/1.1")
    (holding_text _ (by decide +kernel)) (by decide +kernel) (by decide +kernel)).1

theorem request_line_safe_iff (here : TextAt r.readBuf text line) (room : text + line.length < readBufferSize) :
    ((parseRequestLine r text).1 = .code .badRequest ∨ (parseRequestLine r text).1 = .code .noRequest) ↔
      ¬ ∃ method url, LineOf line method url ∧ HostOnly url := by
  by_cases parts : ∃ method url, LineOf line method url
  · obtain ⟨method, url, parts⟩ := parts
    obtain ⟨s, start, past, points, _, _, urlText, ends⟩ := line_of_stages r text line url method parts here room
    rw [parseRequestLine, stages_past_version r text s past]
    constructor
    · rintro ended ⟨other, url', parts', host⟩
      obtain ⟨s', start', past', points', _, _, urlText', ends'⟩ := line_of_stages r text line url' other parts' here room
      have fault := host_only_faults s' start' url' points' urlText' (by omega) host
      rw [← stages_past_version r text s' past', stages_past_version r text s past] at fault
      rw [fault] at ended
      rcases ended with bad | good
      · cases bad
      · cases good
    · intro safe
      exact url_outcome s start url points urlText (by omega) fun host => safe ⟨method, url, parts, host⟩
  · obtain ⟨s, refused, _⟩ := refused_outcome r text line (fun method url other => parts ⟨method, url, other⟩) here room
    rw [refused]
    refine ⟨fun _ => ?_, fun _ => .inl rfl⟩
    rintro ⟨method, url, other, _⟩
    exact parts ⟨method, url, other⟩

theorem request_line_safe_path :
    ((parseRequestLine (holding (ascii "GET /log.html HTTP/1.1")) 0).1 = .code .badRequest ∨
      (parseRequestLine (holding (ascii "GET /log.html HTTP/1.1")) 0).1 = .code .noRequest) ↔
      ¬ ∃ method url, LineOf (ascii "GET /log.html HTTP/1.1") method url ∧ HostOnly url :=
  request_line_safe_iff (holding (ascii "GET /log.html HTTP/1.1")) 0 (ascii "GET /log.html HTTP/1.1")
    (holding_text _ (by decide +kernel)) (by decide +kernel)

theorem lone_host_faults :
    ¬ ∀ bytes : Text, (parseLine (Request.fresh.feed bytes)).1 = .lineOk →
      (parseRequestLine (parseLine (Request.fresh.feed bytes)).2 0).1 = .code .badRequest ∨
        (parseRequestLine (parseLine (Request.fresh.feed bytes)).2 0).1 = .code .noRequest := by
  intro every
  have ended := every (ascii "GET http://host HTTP/1.1\r\n") (by decide +kernel)
  revert ended
  decide +kernel

end Grammar

end WzyServer.Http
