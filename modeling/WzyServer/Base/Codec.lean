import Mathlib.Tactic.Common

set_option autoImplicit false

namespace WzyServer.Codec

section Sequences

variable {Sym α : Type}

def Reads (reader : List Sym → Option (α × List Sym)) (write : α → List Sym) (value : α) : Prop :=
  ∀ rest, reader (write value ++ rest) = some (value, rest)

variable (ends : List Sym → Option (List Sym)) (reader : List Sym → Option (α × List Sym))

def readUntil : Nat → List Sym → Option (List α × List Sym)
  | 0, _ => none
  | fuel + 1, input =>
      match ends input with
      | some rest => some ([], rest)
      | none => do
          let (value, input) ← reader input
          let (values, rest) ← readUntil fuel input
          return (value :: values, rest)

def readSequence (input : List Sym) : Option (List α × List Sym) := readUntil ends reader (input.length + 1) input

variable (write : α → List Sym)

theorem read_until_written (fuel : Nat) (values : List α) (tail rest : List Sym) (enough : values.length < fuel)
    (reads : ∀ value ∈ values, Reads reader write value) (goesOn : ∀ value ∈ values, ∀ more, ends (write value ++ more) = none)
    (closes : ends tail = some rest) : readUntil ends reader fuel (values.flatMap write ++ tail) = some (values, rest) := by
  induction values generalizing fuel with
  | nil =>
      obtain ⟨fuel, rfl⟩ := Nat.exists_eq_add_one_of_ne_zero (Nat.ne_of_gt enough)
      rw [readUntil, List.flatMap_nil, List.nil_append, closes]
  | cons value values ih =>
      obtain ⟨fuel, rfl⟩ := Nat.exists_eq_add_one_of_ne_zero (Nat.ne_zero_of_lt enough)
      obtain ⟨first, later⟩ := List.forall_mem_cons.mp reads
      obtain ⟨open_, others⟩ := List.forall_mem_cons.mp goesOn
      rw [readUntil, List.flatMap_cons, List.append_assoc, open_, first]
      simp only [Option.bind_eq_bind, Option.bind_some]
      rw [ih fuel (Nat.lt_of_succ_lt_succ enough) later others]
      rfl

theorem written_length (values : List α) (some_symbol : ∀ value ∈ values, write value ≠ []) :
    values.length ≤ (values.flatMap write).length := by
  induction values with
  | nil => exact Nat.zero_le _
  | cons value values ih =>
      obtain ⟨first, later⟩ := List.forall_mem_cons.mp some_symbol
      have positive := List.length_pos_iff.mpr first
      have others := ih later
      rw [List.flatMap_cons, List.length_append, List.length_cons]
      omega

theorem read_sequence_written (values : List α) (tail rest : List Sym) (reads : ∀ value ∈ values, Reads reader write value)
    (some_symbol : ∀ value ∈ values, write value ≠ []) (goesOn : ∀ value ∈ values, ∀ more, ends (write value ++ more) = none)
    (closes : ends tail = some rest) : readSequence ends reader (values.flatMap write ++ tail) = some (values, rest) := by
  apply read_until_written ends reader write _ values tail rest _ reads goesOn closes
  have long := written_length write values some_symbol
  rw [List.length_append]
  omega

end Sequences

end WzyServer.Codec
