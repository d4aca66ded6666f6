import Mathlib.Data.List.Basic
import WzyServer.Base.CString

set_option autoImplicit false

namespace WzyServer.Accesses

open CString

-- The array elements that a computation touches, in order. `stray` is an access
-- through a null pointer.
inductive Access (Block : Type) where
  | element (block : Block) (index : Nat)
  | stray
deriving DecidableEq, Repr

section Traces

variable {Block : Type} (size : Block → Nat)

def Within : Access Block → Prop
  | .element block index => index < size block
  | .stray => False

instance (access : Access Block) : Decidable (Within size access) :=
  match access with
  | .element _ _ => inferInstanceAs (Decidable (_ < _))
  | .stray => inferInstanceAs (Decidable False)

def Safe (trace : List (Access Block)) : Prop := ∀ access ∈ trace, Within size access

instance (trace : List (Access Block)) : Decidable (Safe size trace) := inferInstanceAs (Decidable (∀ access ∈ trace, _))

-- What C++ does behind an access outside its array is undefined: the trace ends there.
def before (first rest : List (Access Block)) : List (Access Block) := if Safe size first then first ++ rest else first

def elements (block : Block) (start count : Nat) : List (Access Block) :=
  (List.range count).map fun offset => .element block (start + offset)

def copies (block : Block) : Nat → List (List UInt8) → List (Access Block)
  | _, [] => []
  | start, text :: rest => before size (elements block start (text.length + 1)) (copies block (start + text.length) rest)

-- for(; memory[i] != stop; ++i, ++j) target[j] = memory[i]; target[j] = '\0'; and
-- behind it the rest, which goes on from where i has come to. A fuel of the source's
-- size is more than the loop can use inside the source.
def copyUntil (memory : Memory) (source target : Block) (stop : UInt8) (rest : Nat → List (Access Block)) :
    Nat → Nat → Nat → List (Access Block)
  | 0, _, _ => [.stray]
  | fuel + 1, i, j =>
      before size [.element source i]
        (if memory i = stop then before size [.element target j] (rest i)
        else before size [.element target j] (copyUntil memory source target stop rest fuel (i + 1) (j + 1)))

@[simp] theorem safe_nil : Safe size [] := by simp [Safe]

@[simp] theorem safe_element (block : Block) (index : Nat) : Safe size [.element block index] ↔ index < size block := by
  simp [Safe, Within]

@[simp] theorem safe_stray : ¬ Safe size [.stray] := by simp [Safe, Within]

@[simp] theorem safe_before (first rest : List (Access Block)) : Safe size (before size first rest) ↔ Safe size first ∧ Safe size rest := by
  unfold before
  by_cases safe : Safe size first
  · rw [if_pos safe]
    simp only [Safe, List.forall_mem_append]
  · rw [if_neg safe]
    exact ⟨fun first => absurd first safe, fun both => both.1⟩

theorem safe_elements (block : Block) (start count : Nat) (some_element : 0 < count) :
    Safe size (elements block start count) ↔ start + count ≤ size block := by
  simp only [Safe, elements, List.forall_mem_map, List.mem_range, Within]
  constructor
  · intro inside
    have last := inside (count - 1) (by omega)
    omega
  · intro room offset inside
    omega

theorem safe_copies (block : Block) (start : Nat) (texts : List (List UInt8)) (some_text : texts ≠ []) :
    Safe size (copies size block start texts) ↔ start + texts.flatten.length < size block := by
  induction texts generalizing start with
  | nil => exact absurd rfl some_text
  | cons text rest ih =>
      simp only [copies, safe_before, List.flatten_cons, List.length_append]
      rw [safe_elements size block start _ (Nat.succ_pos _)]
      by_cases last : rest = []
      · subst last
        simp only [copies, safe_nil, and_true, List.flatten_nil, List.length_nil]
        omega
      · rw [ih _ last]
        omega

def StopsAt (memory : Memory) (start : Nat) (stop : UInt8) (count : Nat) : Prop :=
  memory (start + count) = stop ∧ ∀ offset < count, memory (start + offset) ≠ stop

theorem stops_at_unique (memory : Memory) (start : Nat) (stop : UInt8) (count other : Nat)
    (first : StopsAt memory start stop count) (second : StopsAt memory start stop other) : count = other := by
  rcases Nat.lt_trichotomy count other with less | same | more
  · exact absurd first.1 (second.2 count less)
  · exact same
  · exact absurd second.1 (first.2 other more)

theorem stops_at_succ (memory : Memory) (start : Nat) (stop : UInt8) (count : Nat) (on : memory start ≠ stop) :
    StopsAt memory start stop (count + 1) ↔ StopsAt memory (start + 1) stop count := by
  unfold StopsAt
  rw [show start + (count + 1) = start + 1 + count by omega]
  refine and_congr_right fun _ => ⟨fun all offset inside => ?_, fun all offset inside => ?_⟩
  · have next := all (offset + 1) (by omega)
    rwa [show start + (offset + 1) = start + 1 + offset by omega] at next
  · cases offset with
    | zero => exact on
    | succ offset =>
        rw [show start + (offset + 1) = start + 1 + offset by omega]
        exact all offset (by omega)

theorem safe_copy_until (memory : Memory) (source target : Block) (stop : UInt8) (rest : Nat → List (Access Block))
    (fuel start index : Nat) (enough : size source < start + fuel) :
    Safe size (copyUntil size memory source target stop rest fuel start index) ↔
      ∃ count, StopsAt memory start stop count ∧ start + count < size source ∧ index + count < size target ∧
        Safe size (rest (start + count)) := by
  induction fuel generalizing start index with
  | zero =>
      simp only [copyUntil, safe_stray, false_iff, not_exists]
      rintro count ⟨_, inside, _⟩
      omega
  | succ fuel ih =>
      simp only [copyUntil, safe_before, safe_element]
      by_cases here : memory start = stop
      · have now : StopsAt memory start stop 0 := ⟨here, fun offset inside => by omega⟩
        simp only [if_pos here, safe_before, safe_element]
        constructor
        · rintro ⟨inside, room, safe⟩
          exact ⟨0, now, inside, room, safe⟩
        · rintro ⟨count, stops, inside, room, safe⟩
          cases stops_at_unique memory start stop count 0 stops now
          exact ⟨inside, room, safe⟩
      · simp only [if_neg here, safe_before, safe_element]
        rw [ih (start + 1) (index + 1) (by omega)]
        constructor
        · rintro ⟨_, _, count, stops, inside, room, safe⟩
          refine ⟨count + 1, (stops_at_succ memory start stop count here).mpr stops, by omega, by omega, ?_⟩
          rwa [show start + (count + 1) = start + 1 + count by omega]
        · rintro ⟨count, stops, inside, room, safe⟩
          cases count with
          | zero => exact absurd stops.1 here
          | succ count =>
              rw [show start + (count + 1) = start + 1 + count by omega] at safe
              exact ⟨by omega, by omega, count, (stops_at_succ memory start stop count here).mp stops, by omega, by omega, safe⟩

end Traces

end WzyServer.Accesses
