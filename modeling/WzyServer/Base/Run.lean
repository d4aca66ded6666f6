import Mathlib.Tactic.Common

set_option autoImplicit false

namespace WzyServer.Run

theorem ok_of_bind {Error α β : Type} (step : Except Error α) (rest : α → Except Error β) (result : β)
    (ok : step >>= rest = .ok result) : ∃ value, step = .ok value ∧ rest value = .ok result := by
  cases step with
  | error fault => cases ok
  | ok value => exact ⟨value, rfl, ok⟩

theorem error_of_bind {Error α β : Type} (step : Except Error α) (rest : α → Except Error β) (fault : Error)
    (failed : step >>= rest = .error fault) : step = .error fault ∨ ∃ value, step = .ok value ∧ rest value = .error fault := by
  cases step with
  | error kind =>
      cases failed
      exact .inl rfl
  | ok value => exact .inr ⟨value, rfl, failed⟩

-- The environment may offer a label where `guard` holds; `effect` is what the
-- program then does. No run continues past a fault.
structure Machine (State Label Error : Type) where
  guard : State → Label → Prop
  effect : State → Label → Except Error State

section Rules

variable {State Label Error : Type} (machine : Machine State Label Error)

def Takes (state : State) (label : Label) (next : State) : Prop :=
  machine.guard state label ∧ machine.effect state label = .ok next

def Always (good : State → Prop) : State → List Label → Prop
  | state, [] => good state
  | state, label :: rest => good state ∧ ∀ next, Takes machine state label next → Always good next rest

-- `ok` holds of every step the run attempts, the step that faults included.
def Along (ok : State → Label → Prop) : State → List Label → Prop
  | _, [] => True
  | state, label :: rest => (machine.guard state label → ok state label) ∧
      ∀ next, Takes machine state label next → Along ok next rest

theorem always_here (good : State → Prop) (state : State) (labels : List Label)
    (always : Always machine good state labels) : good state := by
  cases labels with
  | nil => exact always
  | cons label rest => exact always.1

theorem along_any (state : State) (labels : List Label) : Along machine (fun _ _ => True) state labels := by
  induction labels generalizing state with
  | nil => trivial
  | cons label rest ih => exact ⟨fun _ => trivial, fun next _ => ih next⟩

theorem always_of_along (ok : State → Label → Prop) (inv : State → Prop)
    (kept : ∀ state label next, inv state → ok state label → Takes machine state label next → inv next)
    (state : State) (labels : List Label) (start : inv state)
    (along : Along machine ok state labels) : Always machine inv state labels := by
  induction labels generalizing state with
  | nil => exact start
  | cons label rest ih =>
      refine ⟨start, fun next taken => ?_⟩
      exact ih next (kept state label next start (along.1 taken.1) taken) (along.2 next taken)

theorem always_invariant (inv : State → Prop) (kept : ∀ state label next, inv state → Takes machine state label next → inv next)
    (state : State) (labels : List Label) (start : inv state) : Always machine inv state labels :=
  always_of_along machine (fun _ _ => True) inv (fun s label t here _ taken => kept s label t here taken) state labels start
    (along_any machine state labels)

theorem along_mono (weak strong : State → Label → Prop) (inv : State → Prop)
    (kept : ∀ state label next, inv state → weak state label → Takes machine state label next → inv next)
    (stronger : ∀ state label, inv state → machine.guard state label → weak state label → strong state label)
    (state : State) (labels : List Label) (start : inv state)
    (along : Along machine weak state labels) : Along machine strong state labels := by
  induction labels generalizing state with
  | nil => trivial
  | cons label rest ih =>
      refine ⟨fun offered => stronger state label start offered (along.1 offered), ?_⟩
      intro next taken
      exact ih next (kept state label next start (along.1 taken.1) taken) (along.2 next taken)

theorem along_of_invariant (ok : State → Label → Prop) (inv : State → Prop)
    (kept : ∀ state label next, inv state → Takes machine state label next → inv next)
    (enough : ∀ state label, inv state → machine.guard state label → ok state label)
    (state : State) (labels : List Label) (start : inv state) : Along machine ok state labels :=
  along_mono machine (fun _ _ => True) ok inv (fun s label t here _ taken => kept s label t here taken)
    (fun s label here offered _ => enough s label here offered) state labels start (along_any machine state labels)

theorem always_mono (inv good : State → Prop) (weaker : ∀ state, inv state → good state)
    (state : State) (labels : List Label) (always : Always machine inv state labels) :
    Always machine good state labels := by
  induction labels generalizing state with
  | nil => exact weaker state always
  | cons label rest ih => exact ⟨weaker state always.1, fun next taken => ih next (always.2 next taken)⟩

theorem along_of_watched (ok strong : State → Label → Prop) (inv good : State → Prop)
    (kept : ∀ state label next, inv state → ok state label → Takes machine state label next → inv next)
    (exposed : ∀ state label, inv state → machine.guard state label → ¬ ok state label →
      ¬ strong state label ∨ ∃ next, machine.effect state label = .ok next ∧ ¬ good next)
    (state : State) (labels : List Label) (start : inv state)
    (always : Always machine good state labels) (along : Along machine strong state labels) : Along machine ok state labels := by
  induction labels generalizing state with
  | nil => trivial
  | cons label rest ih =>
      have decided : machine.guard state label → ok state label := by
        intro offered
        by_contra broken
        rcases exposed state label start offered broken with weak | ⟨next, effect, bad⟩
        · exact weak (along.1 offered)
        · exact bad (always_here machine good next rest (always.2 next ⟨offered, effect⟩))
      refine ⟨decided, fun next taken => ?_⟩
      exact ih next (kept state label next start (decided taken.1) taken) (always.2 next taken) (along.2 next taken)

theorem watched_iff_along (ok strong : State → Label → Prop) (inv good : State → Prop)
    (kept : ∀ state label next, inv state → ok state label → Takes machine state label next → inv next)
    (exposed : ∀ state label, inv state → machine.guard state label → ¬ ok state label →
      ¬ strong state label ∨ ∃ next, machine.effect state label = .ok next ∧ ¬ good next)
    (weaker : ∀ state, inv state → good state)
    (stronger : ∀ state label, inv state → machine.guard state label → ok state label → strong state label)
    (state : State) (labels : List Label) (start : inv state) :
    Always machine good state labels ∧ Along machine strong state labels ↔ Along machine ok state labels := by
  constructor
  · exact fun both => along_of_watched machine ok strong inv good kept exposed state labels start both.1 both.2
  · intro along
    constructor
    · exact always_mono machine inv good weaker state labels (always_of_along machine ok inv kept state labels start along)
    · exact along_mono machine ok strong inv kept stronger state labels start along

theorem always_and_along_iff (ok strong : State → Label → Prop) (inv good : State → Prop)
    (kept : ∀ state label next, inv state → ok state label → Takes machine state label next → inv next)
    (exposed : ∀ state label, inv state → machine.guard state label → ¬ ok state label →
      ∃ next, machine.effect state label = .ok next ∧ ¬ good next)
    (weaker : ∀ state, inv state → good state)
    (stronger : ∀ state label, inv state → machine.guard state label → ok state label → strong state label)
    (state : State) (labels : List Label) (start : inv state) :
    Always machine good state labels ∧ Along machine strong state labels ↔ Along machine ok state labels :=
  watched_iff_along machine ok strong inv good kept (fun s label here offered broken => .inr (exposed s label here offered broken))
    weaker stronger state labels start

theorem always_iff_along (ok : State → Label → Prop) (inv good : State → Prop)
    (kept : ∀ state label next, inv state → ok state label → Takes machine state label next → inv next)
    (exposed : ∀ state label, inv state → machine.guard state label → ¬ ok state label →
      ∃ next, machine.effect state label = .ok next ∧ ¬ good next)
    (weaker : ∀ state, inv state → good state) (state : State) (labels : List Label) (start : inv state) :
    Always machine good state labels ↔ Along machine ok state labels := by
  have decided := always_and_along_iff machine ok (fun _ _ => True) inv good kept exposed weaker (fun _ _ _ _ _ => trivial)
    state labels start
  exact ⟨fun always => decided.mp ⟨always, along_any machine state labels⟩, fun along => (decided.mpr along).1⟩

theorem along_labels (ok : Label → Prop) (state : State) (labels : List Label) (every : ∀ label ∈ labels, ok label) :
    Along machine (fun _ label => ok label) state labels := by
  induction labels generalizing state with
  | nil => trivial
  | cons label rest ih =>
      obtain ⟨here, later⟩ := List.forall_mem_cons.mp every
      exact ⟨fun _ => here, fun next _ => ih next later⟩

theorem along_cons (ok : State → Label → Prop) (state next : State) (label : Label) (rest : List Label)
    (here : machine.guard state label → ok state label) (effect : machine.effect state label = .ok next)
    (later : Along machine ok next rest) : Along machine ok state (label :: rest) := by
  refine ⟨here, fun other taken => ?_⟩
  have same := Except.ok.inj (effect.symm.trans taken.2)
  rwa [← same]

def replay [∀ state label, Decidable (machine.guard state label)] : State → List Label → Option State
  | state, [] => some state
  | state, label :: rest =>
      if machine.guard state label then
        match machine.effect state label with
        | .ok next => replay next rest
        | .error _ => none
      else none

theorem replay_cons [∀ state label, Decidable (machine.guard state label)] (state next : State) (label : Label)
    (rest : List Label) (offered : machine.guard state label) (effect : machine.effect state label = .ok next) :
    replay machine state (label :: rest) = replay machine next rest := by
  rw [replay, if_pos offered, effect]

theorem replay_takes [∀ state label, Decidable (machine.guard state label)] (state last : State) (label : Label)
    (rest : List Label) (run : replay machine state (label :: rest) = some last) :
    ∃ next, Takes machine state label next ∧ replay machine next rest = some last := by
  unfold replay at run
  split at run
  · rename_i offered
    split at run
    · rename_i next effect
      exact ⟨next, ⟨offered, effect⟩, run⟩
    · cases run
  · cases run

theorem replay_append [∀ state label, Decidable (machine.guard state label)] (state next : State) (front rear : List Label)
    (run : replay machine state front = some next) : replay machine state (front ++ rear) = replay machine next rear := by
  induction front generalizing state with
  | nil =>
      cases run
      rfl
  | cons label rest ih =>
      obtain ⟨middle, taken, later⟩ := replay_takes machine state next label rest run
      rw [List.cons_append, replay_cons machine state middle label _ taken.1 taken.2]
      exact ih middle later

theorem always_replay [∀ state label, Decidable (machine.guard state label)] (good : State → Prop) (state last : State)
    (labels : List Label) (run : replay machine state labels = some last) (always : Always machine good state labels) :
    good last := by
  induction labels generalizing state with
  | nil =>
      cases run
      exact always
  | cons label rest ih =>
      obtain ⟨next, taken, later⟩ := replay_takes machine state last label rest run
      exact ih next later (always.2 next taken)

theorem along_replay [∀ state label, Decidable (machine.guard state label)] (ok : State → Label → Prop) (state last : State)
    (labels : List Label) (label : Label) (run : replay machine state labels = some last)
    (offered : machine.guard last label) (along : Along machine ok state (labels ++ [label])) : ok last label := by
  induction labels generalizing state with
  | nil =>
      cases run
      exact along.1 offered
  | cons first rest ih =>
      obtain ⟨next, taken, later⟩ := replay_takes machine state last first rest run
      exact ih next later (along.2 next taken)

theorem replay_measured [∀ state label, Decidable (machine.guard state label)] (quiet : Label → Prop) (inv : State → Prop)
    (measure : State → Nat) (kept : ∀ state label next, inv state → Takes machine state label next → inv next)
    (less : ∀ state label next, inv state → quiet label → Takes machine state label next → measure next < measure state)
    (state last : State) (labels : List Label) (start : inv state) (quietly : ∀ label ∈ labels, quiet label)
    (run : replay machine state labels = some last) : labels.length + measure last ≤ measure state := by
  induction labels generalizing state with
  | nil =>
      cases run
      exact Nat.le_of_eq (Nat.zero_add _)
  | cons label rest ih =>
      obtain ⟨next, taken, later⟩ := replay_takes machine state last label rest run
      have bound := ih next (kept state label next start taken) (fun label member => quietly label (List.mem_cons_of_mem _ member)) later
      have smaller := less state label next start (quietly label (List.mem_cons_self ..)) taken
      rw [List.length_cons]
      omega

end Rules

end WzyServer.Run
