import Mathlib.Tactic.Common

set_option autoImplicit false

namespace WzyServer.Quoted

variable {Byte : Type} (quote escape : Byte)

def Plain (text : List Byte) : Prop := quote ∉ text ∧ escape ∉ text

theorem plain_cons (c : Byte) (text : List Byte) (other : c ≠ quote) (unescaped : c ≠ escape) (plain : Plain quote escape text) :
    Plain quote escape (c :: text) :=
  ⟨List.not_mem_cons_of_ne_of_not_mem other.symm plain.1, List.not_mem_cons_of_ne_of_not_mem unescaped.symm plain.2⟩

variable [DecidableEq Byte] (unescape : Byte → Byte)

-- The text of a literal whose opening quote has been read, and what is behind its
-- closing quote. A doubled quote is a quote; an escape stands for the byte behind it.
def literal : List Byte → Option (List Byte × List Byte)
  | [] => none
  | [c] => if c = quote then some ([], []) else none
  | c :: d :: rest =>
      if c = quote then
        if d = quote then (literal rest).map fun (text, behind) => (quote :: text, behind)
        else some ([], d :: rest)
      else if c = escape then (literal rest).map fun (text, behind) => (unescape d :: text, behind)
      else (literal (d :: rest)).map fun (text, behind) => (c :: text, behind)

instance (text : List Byte) : Decidable (Plain quote escape text) := inferInstanceAs (Decidable (_ ∧ _))

theorem literal_plain (text rest : List Byte) (plain : Plain quote escape text) (closes : rest.head? ≠ some quote) :
    literal quote escape unescape (text ++ quote :: rest) = some (text, rest) := by
  induction text with
  | nil =>
      cases rest with
      | nil => simp [literal]
      | cons d more =>
          have other : d ≠ quote := fun same => closes (congrArg some same)
          simp [literal, other]
  | cons c text ih =>
      obtain ⟨unquoted, unescaped⟩ := plain
      have other : c ≠ quote := fun same => unquoted (same ▸ List.mem_cons_self ..)
      have notEscape : c ≠ escape := fun same => unescaped (same ▸ List.mem_cons_self ..)
      have read := ih ⟨fun member => unquoted (List.mem_cons_of_mem c member), fun member => unescaped (List.mem_cons_of_mem c member)⟩
      obtain ⟨d, behind, split⟩ := List.exists_cons_of_ne_nil (show text ++ quote :: rest ≠ [] by simp)
      rw [split] at read
      rw [List.cons_append, split]
      simp only [literal, if_neg other, if_neg notEscape, read, Option.map_some]

theorem literal_read (s text behind : List Byte) (read : literal quote escape unescape s = some (text, behind)) :
    ∃ used, s = used ++ quote :: behind ∧ (used = text ∧ Plain quote escape text ∨ text.length < used.length) := by
  fun_induction literal quote escape unescape s generalizing text behind with
  | case1 => cases read
  | case2 =>
      cases read
      exact ⟨[], rfl, .inl ⟨rfl, List.not_mem_nil, List.not_mem_nil⟩⟩
  | case3 => cases read
  | case4 rest ih =>
      obtain ⟨⟨inner, after⟩, found, same⟩ := Option.map_eq_some_iff.mp read
      cases same
      obtain ⟨used, rfl, shorter⟩ := ih inner behind found
      refine ⟨quote :: quote :: used, rfl, .inr ?_⟩
      rcases shorter with ⟨rfl, _⟩ | shorter
      · simp
      · simp only [List.length_cons]
        omega
  | case5 =>
      cases read
      exact ⟨[], rfl, .inl ⟨rfl, List.not_mem_nil, List.not_mem_nil⟩⟩
  | case6 d rest unquoted ih =>
      obtain ⟨⟨inner, after⟩, found, same⟩ := Option.map_eq_some_iff.mp read
      cases same
      obtain ⟨used, rfl, shorter⟩ := ih inner behind found
      refine ⟨escape :: d :: used, rfl, .inr ?_⟩
      rcases shorter with ⟨rfl, _⟩ | shorter
      · simp
      · simp only [List.length_cons]
        omega
  | case7 c d rest unquoted unescaped ih =>
      obtain ⟨⟨inner, after⟩, found, same⟩ := Option.map_eq_some_iff.mp read
      cases same
      obtain ⟨used, split, shorter⟩ := ih inner behind found
      refine ⟨c :: used, by rw [split, List.cons_append], ?_⟩
      rcases shorter with ⟨rfl, plain⟩ | shorter
      · exact .inl ⟨rfl, plain_cons quote escape c used unquoted unescaped plain⟩
      · refine .inr ?_
        simp only [List.length_cons]
        omega

theorem literal_length (s text behind : List Byte) (read : literal quote escape unescape s = some (text, behind)) :
    text.length + 1 + behind.length ≤ s.length ∧
      (s.length = text.length + 1 + behind.length → Plain quote escape text) := by
  obtain ⟨used, rfl, shorter⟩ := literal_read quote escape unescape s text behind read
  rw [List.length_append, List.length_cons]
  rcases shorter with ⟨rfl, plain⟩ | shorter
  · exact ⟨by omega, fun _ => plain⟩
  · exact ⟨by omega, fun same => by omega⟩

end WzyServer.Quoted
