import WzyServer.Base.Chunks

set_option autoImplicit false

namespace WzyServer.Chunks

-- A consumer that answers one message after another. `taken` is how much of its input
-- an answered run has used, and `next` the state it starts the next message from, if
-- it goes on at all.
structure Service (State Item Reply : Type) where
  admits : State → List Item → Bool
  feed : State → List Item → State
  run : State → Option Reply × State
  taken : State → Nat
  next : State → Option State

structure Answer (Item Reply : Type) where
  input : List Item
  reply : Reply

variable {State Item Reply : Type} (service : Service State Item Reply)

-- `since` is what has been fed since the state was last a start of a message.
def session : State → List Item → List (List Item) → List (Answer Item Reply)
  | _, _, [] => []
  | state, since, chunk :: rest =>
      if service.admits state chunk then
        let result := service.run (service.feed state chunk)
        match result.1 with
        | none => session result.2 (since ++ chunk) rest
        | some reply =>
            ⟨(since ++ chunk).take (service.taken result.2), reply⟩ ::
              (service.next result.2).elim [] fun start => session start [] rest
      else []

def inputs (state : State) (since : List Item) (chunks : List (List Item)) : List (List Item) :=
  (session service state since chunks).map Answer.input

def EndsAtChunks (messages chunks : List (List Item)) : Prop :=
  ∀ done, done <+: messages → ∃ front, front <+: chunks ∧ front.flatten = done.flatten

section Steps

variable (state : State) (since chunk : List Item) (rest : List (List Item))

theorem session_refused (refused : service.admits state chunk = false) : session service state since (chunk :: rest) = [] := by
  simp [session, refused]

theorem session_waiting (after : State) (admitted : service.admits state chunk = true)
    (waiting : service.run (service.feed state chunk) = (none, after)) :
    session service state since (chunk :: rest) = session service after (since ++ chunk) rest := by
  simp [session, admitted, waiting]

theorem session_answered (after : State) (reply : Reply) (admitted : service.admits state chunk = true)
    (answered : service.run (service.feed state chunk) = (some reply, after)) :
    session service state since (chunk :: rest) =
      ⟨(since ++ chunk).take (service.taken after), reply⟩ ::
        (service.next after).elim [] fun start => session service start [] rest := by
  simp [session, admitted, answered]

end Steps

theorem inputs_received (state : State) (since : List Item) (chunks : List (List Item)) :
    (inputs service state since chunks).flatten.length ≤ since.length + chunks.flatten.length := by
  induction chunks generalizing state since with
  | nil => exact Nat.zero_le _
  | cons chunk rest ih =>
      unfold inputs at ih ⊢
      simp only [List.flatten_cons, List.length_append]
      cases admitted : service.admits state chunk with
      | false =>
          rw [session_refused service state since chunk rest admitted]
          exact Nat.zero_le _
      | true =>
          rcases result : service.run (service.feed state chunk) with ⟨reply, after⟩
          cases reply with
          | none =>
              have later := ih after (since ++ chunk)
              rw [session_waiting service state since chunk rest after admitted result]
              rw [List.length_append] at later
              omega
          | some reply =>
              rw [session_answered service state since chunk rest after reply admitted result]
              have used : ((since ++ chunk).take (service.taken after)).length ≤ since.length + chunk.length := by
                rw [← List.length_append]
                rw [List.length_take]
                exact Nat.min_le_right _ _
              simp only [List.map_cons, List.flatten_cons, List.length_append]
              cases service.next after with
              | none =>
                  simp only [Option.elim_none, List.map_nil, List.flatten_nil, List.length_nil]
                  omega
              | some start =>
                  have later := ih start []
                  simp only [Option.elim_some, List.length_nil] at later ⊢
                  omega

theorem inputs_behind (after : State) (chunks : List (List Item)) :
    (((service.next after).elim [] fun start => session service start [] chunks).map Answer.input).flatten.length ≤
      chunks.flatten.length := by
  cases service.next after with
  | none => exact Nat.zero_le _
  | some start =>
      have bound := inputs_received service start [] chunks
      rw [List.length_nil, Nat.zero_add] at bound
      exact bound

theorem answered_whole (after : State) (since chunk message : List Item) (rest later : List (List Item))
    (whole : since ++ (chunk :: rest).flatten = (message :: later).flatten)
    (here : (since ++ chunk).take (service.taken after) = message)
    (behind : ((service.next after).elim [] fun start => session service start [] rest).map Answer.input = later) :
    since ++ chunk = message ∧ rest.flatten = later.flatten := by
  have bound := inputs_behind service after rest
  rw [behind] at bound
  have lengths := congrArg List.length whole
  simp only [List.flatten_cons, List.length_append] at lengths
  have ended : since ++ chunk = message := by
    have taken := congrArg List.length here
    simp only [List.length_take, List.length_append] at taken
    rw [← here, List.take_of_length_le]
    rw [List.length_append]
    omega
  rw [List.flatten_cons, List.flatten_cons, ← List.append_assoc, ended] at whole
  exact ⟨ended, List.append_cancel_left whole⟩

-- A session that answers everything it was sent, message by message, finds each
-- message's end at the end of a chunk: what the next message's first bytes came with
-- the answer has thrown away.
theorem ends_of_inputs (messages : List (List Item)) (state : State) (since : List Item) (chunks : List (List Item))
    (whole : since ++ chunks.flatten = messages.flatten) (answered : inputs service state since chunks = messages) (done : List (List Item))
    (within : done <+: messages) (some_done : done ≠ []) : ∃ front, front <+: chunks ∧ since ++ front.flatten = done.flatten := by
  have nothing : messages ≠ [] := by
    rintro rfl
    exact some_done (List.prefix_nil.mp within)
  induction chunks generalizing state since messages done with
  | nil => exact absurd answered.symm nothing
  | cons chunk rest ih =>
      unfold inputs at ih answered
      cases admitted : service.admits state chunk with
      | false =>
          rw [session_refused service state since chunk rest admitted] at answered
          exact absurd answered.symm nothing
      | true =>
          rcases result : service.run (service.feed state chunk) with ⟨reply, after⟩
          cases reply with
          | none =>
              rw [session_waiting service state since chunk rest after admitted result] at answered
              obtain ⟨front, first, ended⟩ := ih messages after (since ++ chunk) (by simpa using whole) answered done within some_done
                nothing
              exact ⟨chunk :: front, List.cons_prefix_cons.mpr ⟨rfl, first⟩, by simpa using ended⟩
          | some reply =>
              rw [session_answered service state since chunk rest after reply admitted result, List.map_cons] at answered
              obtain ⟨message, later, rfl⟩ := List.exists_cons_of_ne_nil nothing
              obtain ⟨here, behind⟩ := List.cons.inj answered
              obtain ⟨ended, rest_whole⟩ := answered_whole service after since chunk message rest later whole here behind
              obtain ⟨first, more, rfl⟩ := List.exists_cons_of_ne_nil some_done
              obtain ⟨rfl, inLater⟩ := List.cons_prefix_cons.mp within
              by_cases last : more = []
              · refine ⟨[chunk], List.cons_prefix_cons.mpr ⟨rfl, List.nil_prefix⟩, ?_⟩
                simpa [last] using ended
              · have some_later : later ≠ [] := by
                  rintro rfl
                  exact last (List.prefix_nil.mp inLater)
                cases goes : service.next after with
                | none =>
                    rw [goes] at behind
                    exact absurd behind.symm some_later
                | some start =>
                    rw [goes] at behind
                    obtain ⟨front, frontFirst, frontEnds⟩ := ih later start [] rest_whole behind more inLater last some_later
                    refine ⟨chunk :: front, List.cons_prefix_cons.mpr ⟨rfl, frontFirst⟩, ?_⟩
                    rw [List.flatten_cons, List.flatten_cons, ← List.append_assoc, ended, ← frontEnds, List.nil_append]

theorem ends_at_chunks_behind (input : List Item) (messages front rest : List (List Item)) (first : front.flatten = input)
    (ends : EndsAtChunks (input :: messages) (front ++ rest)) : EndsAtChunks messages rest := by
  intro done within
  obtain ⟨reached, inside, cut⟩ := ends (input :: done) (List.cons_prefix_cons.mpr ⟨rfl, within⟩)
  rw [List.flatten_cons, ← first] at cut
  rcases List.prefix_or_prefix_of_prefix inside (List.prefix_append front rest) with ⟨tail, rfl⟩ | ⟨tail, rfl⟩
  · have nothing : done.flatten = [] := by
      have lengths := congrArg List.length cut
      simp only [List.flatten_append, List.length_append] at lengths
      exact List.length_eq_zero_iff.mp (by omega)
    exact ⟨[], List.nil_prefix, by rw [nothing, List.flatten_nil]⟩
  · rw [List.flatten_append] at cut
    exact ⟨tail, (List.prefix_append_right_inj front).mp inside, List.append_cancel_left cut⟩

-- Started in a good state, the consumer waits through every message to its end,
-- however it comes, and answers it there; behind a reply with which it `keeps` on it is
-- in a good state again.
structure Serves (good : State → Prop) (message : List Item → Prop) (keeps : Reply → Prop) : Prop where
  idle : ∀ state, good state → service.admits state [] = true ∧ service.run (service.feed state []) = (none, state)
  waits : ∀ state early late, good state → message (early ++ late) → late ≠ [] →
    (service.run (service.feed state early)).1 = none
  resumes : ∀ state early late rest, good state → message (early ++ late ++ rest) →
    (service.run (service.feed state early)).1 = none →
    service.admits (service.run (service.feed state early)).2 late = true ∧
      service.run (service.feed (service.run (service.feed state early)).2 late) = service.run (service.feed state (early ++ late))
  answers : ∀ state input, good state → message input → ∃ reply after,
    service.run (service.feed state input) = (some reply, after) ∧ service.taken after = input.length ∧
      (∀ start, service.next after = some start → good start) ∧ (keeps reply → ∃ start, service.next after = some start)

def GoesOn (keeps : Reply → Prop) : State → List (List Item) → Prop
  | _, [] => True
  | state, input :: rest => ∃ reply after start, service.run (service.feed state input) = (some reply, after) ∧ keeps reply ∧
      service.next after = some start ∧ GoesOn keeps start rest

section InTurn

variable (good : State → Prop) (message : List Item → Prop) (keeps : Reply → Prop) (serves : Serves service good message keeps)

include serves

theorem session_idle (state : State) (start : good state) (front rest : List (List Item)) (nothing : front.flatten = []) :
    session service state [] (front ++ rest) = session service state [] rest := by
  induction front with
  | nil => rfl
  | cons chunk front ih =>
      obtain ⟨rfl, later⟩ := List.append_eq_nil_iff.mp nothing
      obtain ⟨admitted, waiting⟩ := serves.idle state start
      rw [List.cons_append, session_waiting service state [] [] _ state admitted waiting]
      exact ih later

theorem session_message (state after : State) (input since : List Item) (reply : Reply) (front rest : List (List Item))
    (begun : good state) (isMessage : message input) (answered : service.run (service.feed state input) = (some reply, after))
    (taken : service.taken after = input.length) (again : ∀ start, service.next after = some start → good start)
    (whole : since ++ front.flatten = input) (unfinished : since ≠ input) :
    session service (service.run (service.feed state since)).2 since (front ++ rest) =
      ⟨input, reply⟩ :: (service.next after).elim [] fun start => session service start [] rest := by
  induction front generalizing since with
  | nil => exact absurd (by simpa using whole) unfinished
  | cons chunk front ih =>
      have parts : since ++ chunk ++ front.flatten = input := by simpa using whole
      have waiting : (service.run (service.feed state since)).1 = none := by
        apply serves.waits state since (chunk ++ front.flatten) begun (by rwa [← List.append_assoc, parts])
        intro nothing
        rw [List.append_assoc, nothing, List.append_nil] at parts
        exact unfinished parts
      obtain ⟨admitted, resumed⟩ := serves.resumes state since chunk front.flatten begun (by rwa [parts]) waiting
      by_cases ended : since ++ chunk = input
      · have empty : front.flatten = [] := List.append_cancel_left (parts.trans (by rw [ended, List.append_nil]))
        rw [ended, answered] at resumed
        rw [List.cons_append, session_answered service _ since chunk _ after reply admitted resumed, ended, taken, List.take_length]
        congr 1
        cases goes : service.next after with
        | none => rfl
        | some start => exact session_idle service good message keeps serves start (again start goes) front rest empty
      · have still : (service.run (service.feed state (since ++ chunk))).1 = none := by
          apply serves.waits state (since ++ chunk) front.flatten begun (by rwa [parts])
          intro nothing
          rw [nothing, List.append_nil] at parts
          exact ended parts
        have split : service.run (service.feed state (since ++ chunk)) =
            (none, (service.run (service.feed state (since ++ chunk))).2) := by rw [← still]
        rw [split] at resumed
        rw [List.cons_append, session_waiting service _ since chunk _ _ admitted resumed]
        exact ih (since ++ chunk) parts ended

theorem session_first (state after : State) (input : List Item) (reply : Reply) (front rest : List (List Item)) (begun : good state)
    (isMessage : message input) (answered : service.run (service.feed state input) = (some reply, after))
    (taken : service.taken after = input.length) (again : ∀ start, service.next after = some start → good start)
    (cut : front.flatten = input) :
    session service state [] (front ++ rest) =
      ⟨input, reply⟩ :: (service.next after).elim [] fun start => session service start [] rest := by
  obtain ⟨_, idle⟩ := serves.idle state begun
  have some_input : [] ≠ input := by
    rintro rfl
    rw [answered] at idle
    cases idle
  have read := session_message service good message keeps serves state after input [] reply front rest begun isMessage answered taken
    again cut some_input
  rwa [idle] at read

theorem session_in_turn (messages chunks : List (List Item)) (all : ∀ input ∈ messages, message input) (state : State)
    (begun : good state) (whole : chunks.flatten = messages.flatten) (ends : EndsAtChunks messages chunks)
    (kept : GoesOn service keeps state messages) :
    session service state [] chunks = session service state [] messages ∧ inputs service state [] chunks = messages ∧
      ∀ answer ∈ session service state [] chunks, keeps answer.reply := by
  induction messages generalizing state chunks with
  | nil =>
      have empty := session_idle service good message keeps serves state begun chunks [] whole
      rw [List.append_nil] at empty
      refine ⟨empty, congrArg (List.map Answer.input) empty, ?_⟩
      rw [empty]
      exact fun answer member => absurd member List.not_mem_nil
  | cons input messages ih =>
      obtain ⟨front, ⟨rest, rfl⟩, cut⟩ := ends [input] (List.cons_prefix_cons.mpr ⟨rfl, List.nil_prefix⟩)
      rw [List.flatten_singleton] at cut
      have isMessage := all input (List.mem_cons_self ..)
      obtain ⟨reply, after, start, answered, keep, goes, later⟩ := kept
      obtain ⟨_, _, same, taken, again, _⟩ := serves.answers state input begun isMessage
      cases answered.symm.trans same
      rw [List.flatten_append, List.flatten_cons, cut] at whole
      obtain ⟨equal, inTurn, keepAll⟩ := ih rest (fun other member => all other (List.mem_cons_of_mem input member)) start
        (again start goes) (List.append_cancel_left whole) (ends_at_chunks_behind input messages front rest cut ends) later
      have first := fun front rest => session_first service good message keeps serves state after input reply front rest begun
        isMessage answered taken again
      have split := first front rest cut
      have single := first [input] messages (List.append_nil input)
      rw [goes, Option.elim_some] at split single
      rw [List.singleton_append] at single
      refine ⟨by rw [split, single, equal], ?_, ?_⟩
      · unfold inputs at inTurn ⊢
        rw [split, List.map_cons, inTurn]
      · rw [split]
        exact List.forall_mem_cons.mpr ⟨keep, keepAll⟩

theorem goes_on_of_answers (messages chunks : List (List Item)) (all : ∀ input ∈ messages, message input) (state : State)
    (begun : good state) (whole : chunks.flatten = messages.flatten) (ends : EndsAtChunks messages chunks)
    (inTurn : inputs service state [] chunks = messages) (keepAll : ∀ answer ∈ session service state [] chunks, keeps answer.reply) :
    GoesOn service keeps state messages := by
  induction messages generalizing state chunks with
  | nil => trivial
  | cons input messages ih =>
      obtain ⟨front, ⟨rest, rfl⟩, cut⟩ := ends [input] (List.cons_prefix_cons.mpr ⟨rfl, List.nil_prefix⟩)
      rw [List.flatten_singleton] at cut
      have isMessage := all input (List.mem_cons_self ..)
      obtain ⟨reply, after, answered, taken, again, goesOn⟩ := serves.answers state input begun isMessage
      have split := session_first service good message keeps serves state after input reply front rest begun isMessage answered taken
        again cut
      rw [split] at keepAll
      obtain ⟨keep, keepLater⟩ := List.forall_mem_cons.mp keepAll
      obtain ⟨start, goes⟩ := goesOn keep
      rw [goes, Option.elim_some] at split keepLater
      rw [List.flatten_append, List.flatten_cons, cut] at whole
      unfold inputs at inTurn
      rw [split, List.map_cons] at inTurn
      exact ⟨reply, after, start, answered, keep, goes, ih rest (fun other member => all other (List.mem_cons_of_mem input member)) start
        (again start goes) (List.append_cancel_left whole) (ends_at_chunks_behind input messages front rest cut ends)
        (List.cons.inj inTurn).2 keepLater⟩

theorem answered_in_turn_iff (messages chunks : List (List Item)) (all : ∀ input ∈ messages, message input) (state : State)
    (begun : good state) (whole : chunks.flatten = messages.flatten) :
    (inputs service state [] chunks = messages ∧ ∀ answer ∈ session service state [] chunks, keeps answer.reply) ↔
      EndsAtChunks messages chunks ∧ GoesOn service keeps state messages := by
  constructor
  · rintro ⟨inTurn, keepAll⟩
    have ends : EndsAtChunks messages chunks := by
      intro done within
      by_cases nothing : done = []
      · exact ⟨[], List.nil_prefix, by rw [nothing]⟩
      · exact ends_of_inputs service messages state [] chunks whole inTurn done within nothing
    exact ⟨ends, goes_on_of_answers service good message keeps serves messages chunks all state begun whole ends inTurn keepAll⟩
  · rintro ⟨ends, kept⟩
    exact (session_in_turn service good message keeps serves messages chunks all state begun whole ends kept).2

end InTurn

end WzyServer.Chunks
