import Mathlib.Algebra.Ring.Int.Defs
import Mathlib.Algebra.Ring.Nat
import WzyServer.Base.CString

set_option autoImplicit false

namespace WzyServer.CString

def decimalText (n : Int) : List UInt8 := ascii (toString n)

section Characters

theorem digit_char (c : Char) (digit : c.isDigit = true) :
    isDigit (UInt8.ofNat c.toNat) = true ∧ (UInt8.ofNat c.toNat).toNat = c.toNat ∧ 48 ≤ c.toNat := by
  have bounds : 48 ≤ c.toNat ∧ c.toNat ≤ 57 := Char.isDigit_iff_toNat.mp digit
  have number : (UInt8.ofNat c.toNat).toNat = c.toNat := Nat.mod_eq_of_lt (by omega)
  refine ⟨?_, number, bounds.1⟩
  simp only [isDigit, UInt8.le_iff_toNat_le, number, decide_eq_true_eq]
  exact bounds

theorem fold_digit_chars (chars : List Char) (every : ∀ c ∈ chars, c.isDigit = true) (start : Nat) :
    (chars.map fun c => UInt8.ofNat c.toNat).foldl (fun acc c => 10 * acc + ((c.toNat : Int) - 48)) (start : Int) =
      (Nat.ofDigitChars 10 chars start : Nat) := by
  induction chars generalizing start with
  | nil => rfl
  | cons c rest ih =>
      obtain ⟨first, later⟩ := List.forall_mem_cons.mp every
      obtain ⟨_, number, bound⟩ := digit_char c first
      have zero : '0'.toNat = 48 := rfl
      rw [List.map_cons, List.foldl_cons, Nat.ofDigitChars_cons, ← ih later, number, zero]
      congr 1
      omega

theorem printed_chars (n : Nat) : ascii (toString n) = (Nat.toDigits 10 n).map (fun c => UInt8.ofNat c.toNat) ∧
    ∀ c ∈ Nat.toDigits 10 n, c.isDigit = true := by
  refine ⟨?_, fun c member => Nat.isDigit_of_mem_toDigits (by decide) (by decide) member⟩
  rw [ascii, Nat.toString_eq_repr, Nat.repr, String.toList_ofList]

end Characters

theorem printed_digits (n : Nat) : ∀ c ∈ ascii (toString n), isDigit c = true := by
  obtain ⟨text, every⟩ := printed_chars n
  rw [text]
  intro c member
  obtain ⟨char, inside, rfl⟩ := List.mem_map.mp member
  exact (digit_char char (every char inside)).1

theorem printed_some (n : Nat) : ascii (toString n) ≠ [] := by
  rw [(printed_chars n).1]
  exact fun none => Nat.toDigits_ne_nil (List.map_eq_nil_iff.mp none)

theorem digits_printed (n : Nat) (rest : List UInt8) (ends : ∀ c ∈ rest.head?, isDigit c = false) :
    digits (ascii (toString n) ++ rest) = n := by
  have stops : rest.takeWhile isDigit = [] := by
    cases rest with
    | nil => rfl
    | cons c more => exact List.takeWhile_cons_of_neg (by simp [ends c rfl])
  obtain ⟨text, every⟩ := printed_chars n
  rw [digits, List.takeWhile_append_of_pos (printed_digits n), stops, List.append_nil, text]
  exact (fold_digit_chars _ every 0).trans (congrArg Int.ofNat Nat.ofDigitChars_ten_toDigits)

theorem digit_plain : ∀ c, isDigit c = true → isSpace c = false ∧ c ≠ 45 ∧ c ≠ 43 := by
  intro c digit
  simp only [isDigit, decide_eq_true_eq, UInt8.le_iff_toNat_le] at digit
  have bounds : 48 ≤ c.toNat ∧ c.toNat ≤ 57 := digit
  refine ⟨?_, fun same => ?_, fun same => ?_⟩
  · simp only [isSpace, decide_eq_false_iff_not, UInt8.le_iff_toNat_le, ← UInt8.toNat_inj]
    change ¬ (c.toNat = 32 ∨ (9 ≤ c.toNat ∧ c.toNat ≤ 13))
    omega
  · have number : c.toNat = 45 := congrArg UInt8.toNat same
    omega
  · have number : c.toNat = 43 := congrArg UInt8.toNat same
    omega

theorem decimal_unsigned (c : UInt8) (rest : List UInt8) (digit : isDigit c = true) : decimal (c :: rest) = digits (c :: rest) := by
  obtain ⟨notSpace, notMinus, notPlus⟩ := digit_plain c digit
  unfold decimal
  rw [List.dropWhile_cons_of_neg (by simp [notSpace])]
  split
  · rename_i same
    exact absurd (List.cons.inj same).1 notMinus
  · rename_i same
    exact absurd (List.cons.inj same).1 notPlus
  · rfl

theorem decimal_text_negative (n : Nat) : decimalText (Int.negSucc n) = 45 :: ascii (toString (n + 1)) := by
  change ascii ("-" ++ toString (n + 1)) = _
  simp [ascii]

theorem decimal_text_chars (n : Int) : ∀ c ∈ decimalText n, isDigit c = true ∨ c = 45 := by
  intro c member
  cases n with
  | ofNat n => exact .inl (printed_digits n c member)
  | negSucc n =>
      rw [decimal_text_negative] at member
      rcases List.mem_cons.mp member with rfl | inside
      · exact .inr rfl
      · exact .inl (printed_digits (n + 1) c inside)

theorem decimal_printed (n : Int) (rest : List UInt8) (ends : ∀ c ∈ rest.head?, isDigit c = false) :
    decimal (decimalText n ++ rest) = n := by
  cases n with
  | ofNat n =>
      have number := digits_printed n rest ends
      obtain ⟨c, more, text⟩ := List.exists_cons_of_ne_nil (printed_some n)
      have digit := printed_digits n c (text ▸ List.mem_cons_self ..)
      change decimal (ascii (toString n) ++ rest) = n
      rw [text, List.cons_append] at number ⊢
      rw [decimal_unsigned c _ digit, number]
  | negSucc n =>
      rw [decimal_text_negative, List.cons_append, decimal, List.dropWhile_cons_of_neg (by decide)]
      change - digits (ascii (toString (n + 1)) ++ rest) = _
      rw [digits_printed (n + 1) rest ends]
      rfl

theorem decimal_text_injective (a b : Int) (same : decimalText a = decimalText b) : a = b := by
  have read := decimal_printed a [] (by simp)
  rw [same, decimal_printed b [] (by simp)] at read
  exact read.symm

-- printf's %02d and %06ld.
def padded (width n : Nat) : List UInt8 := List.replicate (width - (ascii (toString n)).length) 48 ++ ascii (toString n)

theorem padded_digits (width n : Nat) : ∀ c ∈ padded width n, isDigit c = true := by
  intro c member
  rcases List.mem_append.mp member with zeros | digits
  · rw [List.eq_of_mem_replicate zeros]
    decide
  · exact printed_digits n c digits

theorem printed_length (n count : Nat) (some_digit : 0 < count) (small : n < 10 ^ count) : (ascii (toString n)).length ≤ count := by
  rw [(printed_chars n).1, List.length_map]
  exact (Nat.length_toDigits_le_iff (by decide) some_digit).mpr small

theorem padded_length (width n : Nat) (some_digit : 0 < width) (small : n < 10 ^ width) : (padded width n).length = width := by
  have digits := printed_length n width some_digit small
  rw [padded, List.length_append, List.length_replicate]
  omega

theorem decimal_text_length (n : Int) (count : Nat) (some_digit : 0 < count) (lower : -10 ^ count < n) (upper : n < 10 ^ count) :
    (decimalText n).length ≤ count + 1 := by
  cases n with
  | ofNat n =>
      have small : n < 10 ^ count := by
        have bound : (n : Int) < 10 ^ count := upper
        exact_mod_cast bound
      have digits := printed_length n count some_digit small
      change (ascii (toString n)).length ≤ count + 1
      omega
  | negSucc n =>
      have small : n + 1 < 10 ^ count := by
        have bound : ((n + 1 : Nat) : Int) < ((10 ^ count : Nat) : Int) := by
          rw [Int.negSucc_eq] at lower
          push_cast
          omega
        exact_mod_cast bound
      have digits := printed_length (n + 1) count some_digit small
      rw [decimal_text_negative, List.length_cons]
      omega

end WzyServer.CString
