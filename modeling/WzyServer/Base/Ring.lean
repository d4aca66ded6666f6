import Mathlib.Data.Nat.ModEq

set_option autoImplicit false

namespace WzyServer.Ring

variable {α : Type}

-- `count` cells of a circular array, from index `first` on. `none` stands for an
-- index that the array does not have.
def window (array : List α) (first count : Nat) : List (Option α) :=
  (List.range count).map fun k => array[(first + k) % array.length]?

theorem offset_injective (first i j length : Nat) (iBound : i < length) (jBound : j < length)
    (same : (first + i) % length = (first + j) % length) : i = j := by
  have split := Nat.ModEq.add_left_cancel' first same
  rwa [Nat.ModEq, Nat.mod_eq_of_lt iBound, Nat.mod_eq_of_lt jBound] at split

theorem window_push (array items : List α) (first : Nat) (item : α) (room : items.length < array.length)
    (holds : window array first items.length = items.map some) :
    window (array.set ((first + items.length) % array.length) item) first (items ++ [item]).length =
      (items ++ [item]).map some := by
  have inside : (first + items.length) % array.length < array.length := Nat.mod_lt _ (by omega)
  rw [List.length_append, List.length_singleton, window, List.range_succ, List.map_append, List.map_append, List.length_set]
  congr 1
  · rw [← holds, window]
    apply List.map_congr_left
    intro k member
    have before : k < items.length := List.mem_range.mp member
    rw [List.getElem?_set_ne]
    intro same
    have meet := offset_injective first items.length k array.length room (by omega) same
    omega
  · simp [List.getElem?_set_self inside]

theorem window_pop (array items : List α) (first : Nat) (item : α)
    (holds : window array first (items.length + 1) = (item :: items).map some) :
    array[first % array.length]? = some item ∧ window array (first % array.length + 1) items.length = items.map some := by
  rw [window, List.range_succ_eq_map, List.map_cons, List.map_map, List.map_cons] at holds
  injection holds with here later
  refine ⟨here, ?_⟩
  rw [← later, window]
  apply List.map_congr_left
  intro k _
  rw [Function.comp_apply, Nat.add_assoc, Nat.mod_add_mod, Nat.add_comm 1 k]

end WzyServer.Ring
