import Mathlib.Data.List.Nodup
import WzyServer.Base.Heap

set_option autoImplicit false

namespace WzyServer.LinkedList

open Heap

structure Node (α : Type) where
  value : α
  prev : Option Addr
  next : Option Addr
deriving DecidableEq, Repr

section Chains

variable {α : Type} (address : α → Addr)

def first (chain : List α) (after : Option Addr) : Option Addr :=
  match chain with
  | [] => after
  | value :: _ => some (address value)

def last (before : Option Addr) : List α → Option Addr
  | [] => before
  | value :: rest => last (some (address value)) rest

-- The objects of the chain stand in memory with each other's addresses as links,
-- `before` in front of the first one and `after` behind the last one.
def Linked (cells : Addr → Option (Node α)) (before : Option Addr) : List α → Option Addr → Prop
  | [], _ => True
  | value :: rest, after => cells (address value) = some ⟨value, before, first address rest after⟩ ∧
      Linked cells (some (address value)) rest after

@[simp] theorem last_nil (before : Option Addr) : last address before [] = before := rfl

theorem first_mem (chain : List α) (after : Option Addr) (some : chain ≠ []) :
    ∃ value ∈ chain, first address chain after = .some (address value) := by
  cases chain with
  | nil => exact absurd rfl some
  | cons value rest => exact ⟨value, List.mem_cons_self .., rfl⟩

@[simp] theorem last_snoc (before : Option Addr) (chain : List α) (value : α) :
    last address before (chain ++ [value]) = some (address value) := by
  induction chain generalizing before with
  | nil => rfl
  | cons _ rest ih => exact ih _

theorem last_append (before : Option Addr) (front rear : List α) :
    last address before (front ++ rear) = last address (last address before front) rear := by
  induction front generalizing before with
  | nil => rfl
  | cons _ rest ih => exact ih _

theorem last_mem (before : Option Addr) (chain : List α) (some : chain ≠ []) :
    ∃ value ∈ chain, last address before chain = .some (address value) := by
  obtain ⟨front, value, rfl⟩ := List.eq_nil_or_concat' chain |>.resolve_left some
  exact ⟨value, by simp, last_snoc address before front value⟩

@[simp] theorem first_nil (after : Option Addr) : first address [] after = after := rfl

@[simp] theorem first_cons (value : α) (rest : List α) (after : Option Addr) :
    first address (value :: rest) after = some (address value) := rfl

theorem first_append (front rear : List α) (after : Option Addr) :
    first address (front ++ rear) after = first address front (first address rear after) := by
  cases front <;> rfl

theorem linked_append (cells : Addr → Option (Node α)) (before after : Option Addr) (front rear : List α) :
    Linked address cells before (front ++ rear) after ↔
      Linked address cells before front (first address rear after) ∧ Linked address cells (last address before front) rear after := by
  induction front generalizing before with
  | nil => exact (true_and _).to_iff.symm
  | cons value rest ih => rw [List.cons_append, Linked, Linked, last, ih, first_append, and_assoc]

theorem linked_read (cells : Addr → Option (Node α)) (before after : Option Addr) (chain : List α) (value : α)
    (linked : Linked address cells before chain after) (member : value ∈ chain) :
    ∃ prev next, cells (address value) = some ⟨value, prev, next⟩ := by
  induction chain generalizing before with
  | nil => cases member
  | cons head rest ih =>
      rcases List.mem_cons.mp member with rfl | later
      · exact ⟨_, _, linked.1⟩
      · exact ih _ linked.2 later

theorem linked_same (cells other : Addr → Option (Node α)) (before after : Option Addr) (chain : List α)
    (linked : Linked address cells before chain after) (same : ∀ value ∈ chain, other (address value) = cells (address value)) :
    Linked address other before chain after := by
  induction chain generalizing before with
  | nil => trivial
  | cons head rest ih =>
      refine ⟨?_, ih _ linked.2 fun value member => same value (List.mem_cons_of_mem head member)⟩
      rw [same head (List.mem_cons_self ..)]
      exact linked.1

theorem linked_turn_next (cells other : Addr → Option (Node α)) (before after next : Option Addr) (front : List α) (value : α)
    (linked : Linked address cells before (front ++ [value]) after)
    (turned : other (address value) = (cells (address value)).map fun node => { node with next := next })
    (same : ∀ x ∈ front, other (address x) = cells (address x)) : Linked address other before (front ++ [value]) next := by
  obtain ⟨frontLinked, here, _⟩ := (linked_append address cells before after front [value]).mp linked
  refine (linked_append address other before next front [value]).mpr ⟨?_, ?_, trivial⟩
  · exact linked_same address cells other before _ front frontLinked same
  · rw [turned, here]
    rfl

theorem linked_turn_prev (cells other : Addr → Option (Node α)) (before after prev : Option Addr) (value : α) (rear : List α)
    (linked : Linked address cells before (value :: rear) after)
    (turned : other (address value) = (cells (address value)).map fun node => { node with prev := prev })
    (same : ∀ x ∈ rear, other (address x) = cells (address x)) : Linked address other prev (value :: rear) after := by
  obtain ⟨here, rearLinked⟩ := linked
  refine ⟨?_, linked_same address cells other _ after rear rearLinked same⟩
  rw [turned, here]
  rfl

inductive Walk (cells : Addr → Option (Node α)) : Option Addr → List α → Prop where
  | done : Walk cells none []
  | step (value : α) (prev next : Option Addr) (rest : List α) (here : cells (address value) = some ⟨value, prev, next⟩)
      (further : Walk cells next rest) : Walk cells (some (address value)) (value :: rest)

theorem linked_walk (cells : Addr → Option (Node α)) (before : Option Addr) (chain : List α)
    (linked : Linked address cells before chain none) : Walk address cells (first address chain none) chain := by
  induction chain generalizing before with
  | nil => exact .done
  | cons value rest ih => exact .step value before _ rest linked.1 (ih _ linked.2)

theorem walk_same (cells other : Addr → Option (Node α)) (pointer : Option Addr) (path : List α)
    (walk : Walk address cells pointer path) (same : ∀ value ∈ path, other (address value) = cells (address value)) :
    Walk address other pointer path := by
  induction walk with
  | done => exact .done
  | step value prev next rest here further ih =>
      refine .step value prev next rest ?_ (ih fun later member => same later (List.mem_cons_of_mem value member))
      rw [same value (List.mem_cons_self ..)]
      exact here

theorem linked_next_prev (cells : Addr → Option (Node α)) (chain : List α) (linked : Linked address cells none chain none)
    (value : α) (member : value ∈ chain) (node : Node α) (here : cells (address value) = some node) (next : Addr)
    (points : node.next = some next) : ∃ other, cells next = some other ∧ other.prev = some (address value) := by
  obtain ⟨front, rear, rfl⟩ := List.append_of_mem member
  obtain ⟨cell, rearLinked⟩ := ((linked_append address cells none none front (value :: rear)).mp linked).2
  cases Option.some.inj (here.symm.trans cell)
  cases rear with
  | nil => cases points
  | cons z zs =>
      cases points
      exact ⟨_, rearLinked.1, rfl⟩

theorem linked_prev_next (cells : Addr → Option (Node α)) (chain : List α) (linked : Linked address cells none chain none)
    (value : α) (member : value ∈ chain) (node : Node α) (here : cells (address value) = some node) (prev : Addr)
    (points : node.prev = some prev) : ∃ other, cells prev = some other ∧ other.next = some (address value) := by
  obtain ⟨front, rear, rfl⟩ := List.append_of_mem member
  obtain ⟨frontLinked, cell, _⟩ := (linked_append address cells none none front (value :: rear)).mp linked
  cases Option.some.inj (here.symm.trans cell)
  rcases List.eq_nil_or_concat' front with rfl | ⟨front, p, rfl⟩
  · cases points
  · rw [last_snoc] at points
    cases points
    exact ⟨_, ((linked_append address cells none _ front [p]).mp frontLinked).2.1, rfl⟩

end Chains

end WzyServer.LinkedList
