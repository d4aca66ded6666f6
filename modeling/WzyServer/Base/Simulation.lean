import WzyServer.Base.Run

set_option autoImplicit false

namespace WzyServer.Run

section Simulation

variable {Low LowLabel LowError High HighLabel HighError : Type}
variable (low : Machine Low LowLabel LowError) (high : Machine High HighLabel HighError)
variable (view : LowLabel → HighLabel) (related : Low → High → Prop)

def Follows : Low → High → List LowLabel → Prop
  | here, there, [] => related here there
  | here, there, label :: rest => related here there ∧ (low.guard here label → high.guard there (view label) ∧
      ∀ next, high.effect there (view label) = .ok next → ∃ after, low.effect here label = .ok after ∧ Follows after next rest)

theorem follows_of_step
    (step : ∀ here there label, related here there → low.guard here label → high.guard there (view label) ∧
      ∀ next, high.effect there (view label) = .ok next → ∃ after, low.effect here label = .ok after ∧ related after next)
    (here : Low) (there : High) (labels : List LowLabel) (start : related here there) :
    Follows low high view related here there labels := by
  induction labels generalizing here there with
  | nil => exact start
  | cons label rest ih =>
      refine ⟨start, fun offered => ?_⟩
      obtain ⟨guard, forward⟩ := step here there label start offered
      refine ⟨guard, fun next effect => ?_⟩
      obtain ⟨after, taken, kept⟩ := forward next effect
      exact ⟨after, taken, ih after next kept⟩

theorem faultless_of_follows (ok : High → HighLabel → Prop) (inv : High → Prop)
    (kept : ∀ state label next, inv state → ok state label → Takes high state label next → inv next)
    (enough : ∀ state label, inv state → high.guard state label → ok state label → ∃ next, high.effect state label = .ok next)
    (here : Low) (there : High) (labels : List LowLabel) (start : inv there)
    (follows : Follows low high view related here there labels) (along : Along high ok there (labels.map view)) :
    Along low (fun state label => ∃ next, low.effect state label = .ok next) here labels ∧
      Always low (fun state => ∃ mirrored, related state mirrored) here labels := by
  induction labels generalizing here there with
  | nil => exact ⟨trivial, there, follows⟩
  | cons label rest ih =>
      obtain ⟨standing, forward⟩ := follows
      obtain ⟨good, later⟩ := along
      have further : ∀ after, Takes low here label after →
          Along low (fun state label => ∃ next, low.effect state label = .ok next) after rest ∧
            Always low (fun state => ∃ mirrored, related state mirrored) after rest := by
        intro after taken
        obtain ⟨guard, mirrored⟩ := forward taken.1
        obtain ⟨next, effect⟩ := enough there (view label) start guard (good guard)
        obtain ⟨reached, same, follows⟩ := mirrored next effect
        have equal : reached = after := Except.ok.inj (same.symm.trans taken.2)
        subst equal
        exact ih reached next (kept there (view label) next start (good guard) ⟨guard, effect⟩) follows (later next ⟨guard, effect⟩)
      refine ⟨⟨fun offered => ?_, fun after taken => (further after taken).1⟩, ⟨there, standing⟩,
        fun after taken => (further after taken).2⟩
      obtain ⟨guard, mirrored⟩ := forward offered
      obtain ⟨next, effect⟩ := enough there (view label) start guard (good guard)
      obtain ⟨after, taken, _⟩ := mirrored next effect
      exact ⟨after, taken⟩

end Simulation

end WzyServer.Run
