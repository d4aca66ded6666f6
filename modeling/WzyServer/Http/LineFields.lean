import WzyServer.Http.DoRequest
import WzyServer.Http.Lines

set_option autoImplicit false

namespace WzyServer.Http

open CString

def NoBlank (field : Text) : Prop := ∀ c ∈ field, c ∉ blanks

instance (field : Text) : Decidable (NoBlank field) := inferInstanceAs (Decidable (∀ c ∈ field, c ∉ blanks))

def methodNamed (word : Text) : Option Method :=
  if strcasecmp word (ascii "GET") then some .get
  else if strcasecmp word (ascii "POST") then some .post
  else none

section Stages

theorem bind_of_next (stage : Stage) (s : Request) (rest : Request → Stage) (first : stage = .next s) : stage.bind rest = rest s := by
  rw [first, Stage.bind]

theorem bind_of_done (stage : Stage) (outcome : Outcome) (s : Request) (rest : Request → Stage) (first : stage = .done outcome s) :
    stage.bind rest = .done outcome s := by
  rw [first, Stage.bind]

theorem text_at_cstr (memory : Memory) (text : Nat) (line : Text) (here : TextAt memory text line)
    (room : text + line.length < readBufferSize) : cstr memory text = line :=
  text_at_string memory text line _ here (by omega)

theorem method_cut (r : Request) (text : Nat) (name rest : Text) (blank : UInt8) (clean : ∀ c ∈ name, c ∉ blanks)
    (first : blank ∈ blanks) (here : TextAt r.readBuf text (name ++ blank :: rest))
    (room : text + (name ++ blank :: rest).length < readBufferSize) :
    strpbrk (cstr r.readBuf text) blanks = some name.length ∧ cstr (store r.readBuf (text + name.length) 0) text = name := by
  have line := text_at_cstr r.readBuf text _ here room
  rw [List.length_append, List.length_cons] at room
  constructor
  · rw [line]
    exact strpbrk_first name rest blanks blank clean first
  · exact text_at_cstr _ _ _ (text_at_cut r.readBuf text name rest blank here) (by omega)

theorem strspn_gap (gap rest : Text) (only : ∀ c ∈ gap, c ∈ blanks) (ends : ∀ c ∈ rest.head?, c ∉ blanks) :
    strspn (gap ++ rest) blanks = gap.length := by
  rw [strspn, List.takeWhile_append_of_pos (fun c member => decide_eq_true (only c member))]
  cases rest with
  | nil => simp
  | cons c more =>
      rw [List.takeWhile_cons_of_neg (by simpa using ends c rfl), List.append_nil]

theorem strpbrk_missed (field : Text) (bare : NoBlank field) : strpbrk field blanks = none :=
  List.findIdx?_eq_none_iff.mpr fun c member => decide_eq_false (bare c member)

theorem parse_method_bare (r : Request) (text : Nat) (line : Text) (bare : NoBlank line) (here : TextAt r.readBuf text line)
    (room : text + line.length < readBufferSize) : parseMethod r text = .done (.code .badRequest) { r with url := none } := by
  have string := text_at_cstr r.readBuf text line here room
  simp only [parseMethod, string, strpbrk_missed line bare]

def wordCut (r : Request) (text : Nat) (word : Text) : Request :=
  { r with readBuf := store r.readBuf (text + word.length) 0, url := some (text + word.length + 1) }

def methodCut (r : Request) (text : Nat) (word : Text) (method : Method) : Request :=
  { wordCut r text word with method := method, cgi := if method = .post then 1 else r.cgi }

theorem parse_method_word (r : Request) (text : Nat) (word rest : Text) (c : UInt8) (clean : NoBlank word) (blank : c ∈ blanks)
    (here : TextAt r.readBuf text (word ++ c :: rest)) (room : text + (word ++ c :: rest).length < readBufferSize) :
    parseMethod r text = match methodNamed word with
      | none => .done (.code .badRequest) (wordCut r text word)
      | some method => .next (methodCut r text word method) := by
  obtain ⟨found, cut⟩ := method_cut r text word rest c clean blank here room
  simp only [parseMethod, found, cut, methodNamed]
  by_cases get : strcasecmp word (ascii "GET") = true
  · simp [get, methodCut, wordCut]
  · by_cases post : strcasecmp word (ascii "POST") = true
    · simp [get, post, methodCut, wordCut]
    · simp [get, post, wordCut]

theorem parse_version_bare (r : Request) (start : Nat) (gap field : Text) (points : r.url = some start)
    (only : ∀ c ∈ gap, c ∈ blanks) (bare : NoBlank field) (here : TextAt r.readBuf start (gap ++ field))
    (room : start + (gap ++ field).length < readBufferSize) :
    parseVersion r = .done (.code .badRequest) { r with url := some (start + gap.length), version := none } := by
  have string := text_at_cstr r.readBuf start _ here room
  have behind := text_at_drop r.readBuf start gap field here
  have ends : ∀ c ∈ field.head?, c ∉ blanks := fun c first => bare c (List.mem_of_mem_head? first)
  rw [List.length_append] at room
  have field_string := text_at_cstr r.readBuf _ field behind (by omega)
  simp only [parseVersion, points, string, strspn_gap gap field only ends, field_string, strpbrk_missed field bare]

def urlCut (r : Request) (start gap length : Nat) : Request :=
  { r with
    readBuf := store r.readBuf (start + length) 0, url := some start, version := some (start + length + 1 + gap) }

theorem parse_version_field (r : Request) (start : Nat) (gap url behind version : Text) (c : UInt8)
    (points : r.url = some start) (only : ∀ d ∈ gap, d ∈ blanks) (clean : NoBlank url) (some_url : url ≠ []) (blank : c ∈ blanks)
    (onlyBehind : ∀ d ∈ behind, d ∈ blanks) (ends : ∀ d ∈ version.head?, d ∉ blanks)
    (here : TextAt r.readBuf start (gap ++ (url ++ c :: (behind ++ version))))
    (room : start + (gap ++ (url ++ c :: (behind ++ version))).length < readBufferSize) :
    parseVersion r =
      if strcasecmp version (ascii "HTTP/1.1") then .next (urlCut r (start + gap.length) behind.length url.length)
      else .done (.code .badRequest) (urlCut r (start + gap.length) behind.length url.length) := by
  have string := text_at_cstr r.readBuf start _ here room
  have field := text_at_drop r.readBuf start gap _ here
  rw [List.length_append, List.length_append, List.length_cons, List.length_append] at room
  have field_string := text_at_cstr r.readBuf _ _ field (by simp only [List.length_append, List.length_cons]; omega)
  have first : ∀ d ∈ (url ++ c :: (behind ++ version)).head?, d ∉ blanks := by
    obtain ⟨d, more, rfl⟩ := List.exists_cons_of_ne_nil some_url
    intro e head
    cases Option.some.inj (Option.mem_def.mp head)
    exact clean _ (List.mem_cons_self ..)
  have found := strpbrk_first url (behind ++ version) blanks c clean blank
  have rest := text_at_behind r.readBuf (start + gap.length) url (behind ++ version) c field
  have rest_string := text_at_cstr _ _ _ rest (by simp only [List.length_append]; omega)
  have version_text := text_at_drop _ _ behind version rest
  have version_string := text_at_cstr _ _ _ version_text (by omega)
  simp only [parseVersion, points, string, strspn_gap gap _ only first, field_string, found, rest_string,
    strspn_gap behind version onlyBehind ends, version_string]
  rfl

theorem version_plain (version : Text) (same : strcasecmp version (ascii "HTTP/1.1") = true) :
    version.length = 8 ∧ ∀ c ∈ version.head?, c ∉ blanks := by
  have lower : version.map tolower = (ascii "HTTP/1.1").map tolower := eq_of_beq same
  have long : version.length = 8 := by
    have counted := congrArg List.length lower
    rwa [List.length_map, List.length_map] at counted
  refine ⟨long, fun c first => ?_⟩
  obtain ⟨rest, rfl⟩ := List.head?_eq_some_iff.mp (Option.mem_def.mp first)
  have letter : tolower c = 104 := (List.cons.inj lower).1
  have other : ∀ blank ∈ blanks, tolower blank ≠ 104 := by decide +kernel
  exact fun blank => other c blank letter

theorem word_and_version (r : Request) (text : Nat) (word target : Text) (method : Method) (clean : NoBlank word)
    (named : methodNamed word = some method) (some_target : target ≠ []) (whole : NoBlank target)
    (here : TextAt r.readBuf text (word ++ 32 :: (target ++ ascii " HTTP/1.1")))
    (room : text + (word ++ 32 :: (target ++ ascii " HTTP/1.1")).length < readBufferSize) :
    (parseMethod r text).bind parseVersion =
        .next (urlCut (methodCut r text word method) (text + word.length + 1) 0 target.length) ∧
      TextAt (urlCut (methodCut r text word method) (text + word.length + 1) 0 target.length).readBuf (text + word.length + 1)
        target := by
  have blank : ascii " HTTP/1.1" = 32 :: ([] ++ ascii "HTTP/1.1") := by decide
  rw [blank] at here room
  have first : parseMethod r text = .next (methodCut r text word method) := by
    rw [parse_method_word r text word _ 32 clean (by decide) here room, named]
  have behind := text_at_behind r.readBuf text word _ 32 here
  rw [List.length_append, List.length_cons] at room
  have second := parse_version_field (methodCut r text word method) (text + word.length + 1) [] target [] (ascii "HTTP/1.1") 32 rfl
    (fun _ member => absurd member List.not_mem_nil) whole some_target (by decide)
    (fun _ member => absurd member List.not_mem_nil) (version_plain _ (by decide)).2 behind (by rw [List.nil_append]; omega)
  rw [if_pos (by decide)] at second
  exact ⟨(bind_of_next _ _ _ first).trans second, text_at_cut _ _ target _ 32 behind⟩

end Stages

end WzyServer.Http
