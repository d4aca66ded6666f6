import Mathlib.Tactic.Common

set_option autoImplicit false

namespace WzyServer.Chunks

-- A consumer that is handed its input in chunks and run after each of them,
-- until a run answers something other than `more`.
section Delivery

variable {State Item Answer : Type} [DecidableEq Answer]
variable (feed : State → List Item → State) (run : State → Answer × State) (more : Answer)

def deliver : State → List (List Item) → Answer × State
  | state, [] => (more, state)
  | state, chunk :: rest =>
      let result := run (feed state chunk)
      if result.1 = more then deliver result.2 rest else result

def consumed : State → List (List Item) → Nat
  | _, [] => 0
  | state, chunk :: rest =>
      let result := run (feed state chunk)
      if result.1 = more then consumed result.2 rest + 1 else 1

theorem deliver_append (state : State) (early late : List (List Item)) :
    deliver feed run more state (early ++ late) =
      if (deliver feed run more state early).1 = more then deliver feed run more (deliver feed run more state early).2 late
      else deliver feed run more state early := by
  induction early generalizing state with
  | nil => simp [deliver]
  | cons chunk rest ih =>
      simp only [List.cons_append, deliver]
      by_cases again : (run (feed state chunk)).1 = more
      · simp only [if_pos again, ih]
      · simp only [if_neg again]

theorem deliver_singleton (state : State) (chunk : List Item) : deliver feed run more state [chunk] = run (feed state chunk) := by
  simp only [deliver]
  split
  · rename_i again
    rw [← again]
  · rfl

theorem deliver_induction (inv : State → Prop) (post : Answer × State → Prop)
    (nothing : ∀ state, inv state → post (more, state)) (one : ∀ state chunk, inv state → post (run (feed state chunk)))
    (again : ∀ result, post result → inv result.2) (state : State) (chunks : List (List Item)) (start : inv state) :
    post (deliver feed run more state chunks) := by
  induction chunks generalizing state with
  | nil => exact nothing state start
  | cons chunk rest ih =>
      have first := one state chunk start
      simp only [deliver]
      split
      · exact ih _ (again _ first)
      · exact first

def Resumable (state : State) (input : List Item) : Prop :=
  ∀ early late, early ++ late <+: input → (run (feed state early)).1 = more →
    run (feed (run (feed state early)).2 late) = run (feed state (early ++ late))

theorem deliver_from (origin : State) (input : List Item) (resumable : Resumable feed run more origin input)
    (early : List Item) (waiting : (run (feed origin early)).1 = more) (chunks : List (List Item))
    (whole : early ++ chunks.flatten <+: input) (some_left : chunks ≠ []) :
    deliver feed run more (run (feed origin early)).2 chunks =
      run (feed origin (early ++ (chunks.take (consumed feed run more (run (feed origin early)).2 chunks)).flatten)) := by
  induction chunks generalizing early with
  | nil => exact absurd rfl some_left
  | cons chunk rest ih =>
      have within : early ++ chunk <+: input := by
        refine List.IsPrefix.trans ⟨rest.flatten, ?_⟩ whole
        simp
      have same := resumable early chunk within waiting
      simp only [deliver, consumed, same]
      by_cases again : (run (feed origin (early ++ chunk))).1 = more
      · simp only [if_pos again, List.take_succ_cons, List.flatten_cons, ← List.append_assoc]
        cases rest with
        | nil => simp [deliver, consumed, ← again]
        | cons next later => exact ih (early ++ chunk) again (by simpa using whole) (by simp)
      · simp [again]

theorem deliver_eq_run (origin : State) (empty : feed origin [] = origin) (start : run origin = (more, origin))
    (chunks : List (List Item)) (resumable : Resumable feed run more origin chunks.flatten) :
    deliver feed run more origin chunks =
      run (feed origin (chunks.take (consumed feed run more origin chunks)).flatten) := by
  cases chunks with
  | nil => simp [deliver, consumed, empty, start]
  | cons chunk rest =>
      have begun : run (feed origin []) = (more, origin) := by rw [empty, start]
      have delivered := deliver_from feed run more origin _ resumable [] (by rw [begun]) (chunk :: rest) (by simp) (by simp)
      simpa only [begun, List.nil_append] using delivered

end Delivery

end WzyServer.Chunks
