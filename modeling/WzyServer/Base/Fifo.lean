import Mathlib.Tactic.Common

set_option autoImplicit false

namespace WzyServer.Fifo

-- What one critical section of a bounded queue did. `cleared` carries the items
-- that were dropped.
inductive Event (α : Type) where
  | pushed (item : α)
  | refused (item : α)
  | popped (item : α)
  | cleared (dropped : List α)
  | sized (size : Nat)
  | full (answer : Bool)
  | empty (answer : Bool)
deriving DecidableEq, Repr

section Bounded

variable {α : Type}

inductive Step (bound : Nat) : List α → Event α → List α → Prop where
  | push (items : List α) (item : α) (room : items.length < bound) : Step bound items (.pushed item) (items ++ [item])
  | refuse (items : List α) (item : α) (full : items.length = bound) : Step bound items (.refused item) items
  | pop (items : List α) (item : α) : Step bound (item :: items) (.popped item) items
  | clear (items : List α) : Step bound items (.cleared items) []
  | size (items : List α) : Step bound items (.sized items.length) items
  | full (items : List α) : Step bound items (.full (decide (items.length = bound))) items
  | empty (items : List α) : Step bound items (.empty items.isEmpty) items

inductive Trace (bound : Nat) : List (Event α) → List α → Prop where
  | start : Trace bound [] []
  | next (history : List (Event α)) (items stored : List α) (event : Event α) (earlier : Trace bound history items)
      (step : Step bound items event stored) : Trace bound (history ++ [event]) stored

def Event.accepted : Event α → List α
  | .pushed item => [item]
  | _ => []

def Event.delivered : Event α → List α
  | .popped item => [item]
  | _ => []

def Event.removed : Event α → List α
  | .popped item => [item]
  | .cleared dropped => dropped
  | _ => []

def accepted (history : List (Event α)) : List α := history.flatMap Event.accepted
def delivered (history : List (Event α)) : List α := history.flatMap Event.delivered
def removed (history : List (Event α)) : List α := history.flatMap Event.removed

@[simp] theorem accepted_snoc (history : List (Event α)) (event : Event α) :
    accepted (history ++ [event]) = accepted history ++ event.accepted := by
  simp [accepted]

@[simp] theorem delivered_snoc (history : List (Event α)) (event : Event α) :
    delivered (history ++ [event]) = delivered history ++ event.delivered := by
  simp [delivered]

@[simp] theorem removed_snoc (history : List (Event α)) (event : Event α) :
    removed (history ++ [event]) = removed history ++ event.removed := by
  simp [removed]

theorem step_conserves (bound : Nat) (items stored : List α) (event : Event α) (step : Step bound items event stored) :
    items ++ event.accepted = event.removed ++ stored := by
  cases step with
  | push items item room => rfl
  | refuse items item full => simp [Event.accepted, Event.removed]
  | pop item => simp [Event.accepted, Event.removed]
  | clear => simp [Event.accepted, Event.removed]
  | size => simp [Event.accepted, Event.removed]
  | full => simp [Event.accepted, Event.removed]
  | empty => simp [Event.accepted, Event.removed]

theorem step_bounded (bound : Nat) (items stored : List α) (event : Event α) (step : Step bound items event stored)
    (bounded : items.length ≤ bound) : stored.length ≤ bound := by
  cases step with
  | push items item room =>
      rw [List.length_append, List.length_singleton]
      exact room
  | pop item => exact Nat.le_of_succ_le bounded
  | clear => exact Nat.zero_le bound
  | _ => exact bounded

theorem trace_bounded (bound : Nat) (history : List (Event α)) (items : List α) (trace : Trace bound history items) :
    items.length ≤ bound := by
  induction trace with
  | start => exact Nat.zero_le bound
  | next history items stored event _ step ih => exact step_bounded bound items stored event step ih

theorem trace_conserves (bound : Nat) (history : List (Event α)) (items : List α) (trace : Trace bound history items) :
    accepted history = removed history ++ items := by
  induction trace with
  | start => rfl
  | next history items stored event _ step ih =>
      rw [accepted_snoc, removed_snoc, ih, List.append_assoc, List.append_assoc, step_conserves bound items stored event step]

theorem delivered_eq_removed (history : List (Event α)) (uncleared : ∀ dropped, .cleared dropped ∉ history) :
    delivered history = removed history := by
  induction history with
  | nil => rfl
  | cons event rest ih =>
      have later := ih fun dropped member => uncleared dropped (List.mem_cons_of_mem event member)
      rw [delivered, removed, List.flatMap_cons, List.flatMap_cons, ← delivered, ← removed, later]
      congr 1
      cases event with
      | cleared dropped => exact absurd (List.mem_cons_self ..) (uncleared dropped)
      | _ => rfl

end Bounded

end WzyServer.Fifo
