import Mathlib.Tactic.Common
import Mathlib.Data.List.GetD

set_option autoImplicit false

namespace WzyServer.CString

-- A byte-addressed block. Addresses are offsets from its start; the block's
-- length is the caller's affair, so an access past it stays visible as such.
abbrev Memory := Nat → UInt8

def store (memory : Memory) (address : Nat) (value : UInt8) : Memory :=
  fun index => if index = address then value else memory index

def write (memory : Memory) (address : Nat) (bytes : List UInt8) : Memory :=
  fun index => if address ≤ index ∧ index < address + bytes.length then bytes.getD (index - address) 0 else memory index

def read (memory : Memory) (address count : Nat) : List UInt8 :=
  (List.range count).map fun offset => memory (address + offset)

def stringAt (memory : Memory) (address : Nat) : Nat → List UInt8
  | 0 => []
  | limit + 1 => if memory address = 0 then [] else memory address :: stringAt memory (address + 1) limit

def vsnprintf (memory : Memory) (address size : Nat) (text : List UInt8) : Memory :=
  if size = 0 then memory else write memory address (text.take (size - 1) ++ [0])

def ascii (text : String) : List UInt8 := text.toList.map fun c => UInt8.ofNat c.toNat

def strpbrk (s accept : List UInt8) : Option Nat := s.findIdx? fun c => c ∈ accept

def strspn (s accept : List UInt8) : Nat := (s.takeWhile fun c => c ∈ accept).length

def strchr (s : List UInt8) (c : UInt8) : Option Nat := s.findIdx? fun d => d = c

def strrchr (s : List UInt8) (c : UInt8) : Option Nat :=
  (s.reverse.findIdx? fun d => d = c).map fun fromEnd => s.length - 1 - fromEnd

def tolower (c : UInt8) : UInt8 := if 65 ≤ c ∧ c ≤ 90 then c + 32 else c

-- The comparison functions are used only as `== 0`.
def strcasecmp (a b : List UInt8) : Bool := a.map tolower == b.map tolower

def strncasecmp (a b : List UInt8) (n : Nat) : Bool := (a.take n).map tolower == (b.take n).map tolower

def isDigit (c : UInt8) : Bool := 48 ≤ c ∧ c ≤ 57

def isSpace (c : UInt8) : Bool := c = 32 ∨ (9 ≤ c ∧ c ≤ 13)

def digits (s : List UInt8) : Int :=
  (s.takeWhile isDigit).foldl (fun acc c => 10 * acc + ((c.toNat : Int) - 48)) 0

-- The value strtol reads before it is fitted into a long.
def decimal (s : List UInt8) : Int :=
  match s.dropWhile isSpace with
  | 45 :: rest => - digits rest
  | 43 :: rest => digits rest
  | rest => digits rest

@[simp] theorem store_here (memory : Memory) (address : Nat) (value : UInt8) : store memory address value address = value := by
  simp [store]

theorem store_elsewhere (memory : Memory) (address index : Nat) (value : UInt8) (different : index ≠ address) :
    store memory address value index = memory index := by
  simp [store, different]

theorem store_again (memory : Memory) (address : Nat) (first value : UInt8) (same : value = memory address) :
    store (store memory address first) address value = memory := by
  funext index
  by_cases here : index = address
  · rw [here, store_here, same]
  · rw [store_elsewhere _ _ _ _ here, store_elsewhere _ _ _ _ here]

theorem write_before (memory : Memory) (address index : Nat) (bytes : List UInt8) (before : index < address) :
    write memory address bytes index = memory index := by
  have outside : ¬ (address ≤ index ∧ index < address + bytes.length) := by omega
  simp [write, outside]

theorem write_inside (memory : Memory) (address offset : Nat) (bytes : List UInt8) (inside : offset < bytes.length) :
    write memory address bytes (address + offset) = bytes[offset] := by
  simp [write, inside]

theorem write_after (memory : Memory) (address index : Nat) (bytes : List UInt8) (after : address + bytes.length ≤ index) :
    write memory address bytes index = memory index := by
  have outside : ¬ (address ≤ index ∧ index < address + bytes.length) := by omega
  simp [write, outside]

@[simp] theorem write_nil (memory : Memory) (address : Nat) : write memory address [] = memory := by
  funext index
  simp only [write, List.length_nil, Nat.add_zero]
  rw [if_neg (by omega)]

theorem write_append (memory : Memory) (address : Nat) (a b : List UInt8) :
    write memory address (a ++ b) = write (write memory address a) (address + a.length) b := by
  funext index
  by_cases inA : index < address + a.length
  · rw [write_before _ (address + a.length) index b inA]
    simp only [write, List.length_append]
    by_cases above : address ≤ index
    · rw [if_pos (by omega), if_pos (by omega), List.getD_append _ _ _ _ (by omega)]
    · rw [if_neg (by omega), if_neg (by omega)]
  · simp only [write, List.length_append]
    by_cases inB : index < address + a.length + b.length
    · rw [if_pos (by omega), if_pos (by omega), List.getD_append_right _ _ _ _ (by omega)]
      congr 1
      omega
    · rw [if_neg (by omega), if_neg (by omega), if_neg (by omega)]

theorem store_write_comm (memory : Memory) (address index : Nat) (value : UInt8) (bytes : List UInt8)
    (before : index < address) :
    write (store memory index value) address bytes = store (write memory address bytes) index value := by
  funext other
  by_cases same : other = index
  · subst other
    rw [write_before _ _ _ _ before, store_here, store_here]
  · rw [store_elsewhere _ _ _ _ same]
    simp only [write]
    split
    · rfl
    · exact store_elsewhere _ _ _ _ same

theorem write_write_comm (memory : Memory) (low high : Nat) (a b : List UInt8) (apart : low + a.length ≤ high) :
    write (write memory low a) high b = write (write memory high b) low a := by
  funext index
  by_cases inHigh : high ≤ index ∧ index < high + b.length
  · rw [write_after _ low index a (by omega)]
    simp only [write, if_pos inHigh]
  · simp only [write, if_neg inHigh]

theorem read_length (memory : Memory) (address count : Nat) : (read memory address count).length = count := by
  simp [read]

theorem read_append (memory : Memory) (address low high : Nat) :
    read memory address (low + high) = read memory address low ++ read memory (address + low) high := by
  simp [read, List.range_add, Function.comp_def, Nat.add_assoc]

theorem read_congr (memory other : Memory) (address count : Nat)
    (agree : ∀ index, address ≤ index → index < address + count → memory index = other index) :
    read memory address count = read other address count := by
  simp only [read, List.map_inj_left, List.mem_range]
  intro offset inside
  exact agree (address + offset) (by omega) (by omega)

theorem read_write (memory : Memory) (address : Nat) (bytes : List UInt8) :
    read (write memory address bytes) address bytes.length = bytes := by
  apply List.ext_getElem
  · simp [read]
  · intro offset _ inside
    simp only [read, List.getElem_map, List.getElem_range]
    exact write_inside memory address offset bytes inside

theorem vsnprintf_before (memory : Memory) (address size index : Nat) (text : List UInt8) (before : index < address) :
    vsnprintf memory address size text index = memory index := by
  unfold vsnprintf
  split
  · rfl
  · exact write_before _ _ _ _ before

theorem vsnprintf_after (memory : Memory) (address size index : Nat) (text : List UInt8) (after : address + size ≤ index) :
    vsnprintf memory address size text index = memory index := by
  unfold vsnprintf
  split
  · rfl
  · apply write_after
    rw [List.length_append, List.length_take, List.length_singleton]
    omega

theorem vsnprintf_whole (memory : Memory) (address size : Nat) (text : List UInt8) (fits : text.length < size) :
    read (vsnprintf memory address size text) address text.length = text := by
  unfold vsnprintf
  rw [if_neg (by omega), List.take_of_length_le (by omega)]
  have whole := read_write memory address (text ++ [0])
  rw [List.length_append, read_append] at whole
  exact (List.append_inj whole (read_length _ _ _)).1

theorem string_at_congr (memory other : Memory) (address limit stop : Nat) (above : address ≤ stop)
    (agree : ∀ index, address ≤ index → index ≤ stop → memory index = other index) (nul : memory stop = 0) :
    stringAt memory address limit = stringAt other address limit := by
  induction limit generalizing address with
  | zero => rfl
  | succ limit ih =>
      have same := agree address (by omega) above
      by_cases zero : memory address = 0
      · simp [stringAt, ← same, zero]
      · have below : address ≠ stop := fun equal => zero (equal ▸ nul)
        have rest := ih (address + 1) (by omega) (fun index lower upper => agree index (by omega) upper)
        simp only [stringAt, ← same, if_neg zero, rest]

theorem string_at_length (memory : Memory) (address limit stop : Nat) (above : address ≤ stop) (nul : memory stop = 0) :
    address + (stringAt memory address limit).length ≤ stop := by
  induction limit generalizing address with
  | zero => simpa [stringAt] using above
  | succ limit ih =>
      by_cases zero : memory address = 0
      · simpa [stringAt, zero] using above
      · have below : address ≠ stop := fun equal => zero (equal ▸ nul)
        have rest := ih (address + 1) (by omega)
        simp only [stringAt, if_neg zero, List.length_cons]
        omega

theorem string_at_get (memory : Memory) (address limit offset : Nat)
    (inside : offset < (stringAt memory address limit).length) :
    (stringAt memory address limit)[offset] = memory (address + offset) ∧ memory (address + offset) ≠ 0 := by
  induction limit generalizing address offset with
  | zero => simp [stringAt] at inside
  | succ limit ih =>
      by_cases zero : memory address = 0
      · simp [stringAt, zero] at inside
      · have unfolded : stringAt memory address (limit + 1) = memory address :: stringAt memory (address + 1) limit := by
          simp [stringAt, zero]
        simp only [unfolded, List.length_cons] at inside ⊢
        cases offset with
        | zero => exact ⟨rfl, zero⟩
        | succ offset =>
            have rest := ih (address + 1) offset (by omega)
            simpa [Nat.add_assoc, Nat.add_comm 1] using rest

theorem string_at_nul (memory : Memory) (address limit : Nat)
    (short : (stringAt memory address limit).length < limit) :
    memory (address + (stringAt memory address limit).length) = 0 := by
  induction limit generalizing address with
  | zero => omega
  | succ limit ih =>
      by_cases zero : memory address = 0
      · simp [stringAt, zero]
      · simp only [stringAt, if_neg zero, List.length_cons] at short ⊢
        have rest := ih (address + 1) (by omega)
        rwa [show address + ((stringAt memory (address + 1) limit).length + 1) =
          address + 1 + (stringAt memory (address + 1) limit).length by omega]

theorem string_at_eq (memory : Memory) (address limit : Nat) (s : List UInt8) (room : s.length < limit)
    (clean : ∀ c ∈ s, c ≠ 0) (holds : ∀ offset (inside : offset < s.length), memory (address + offset) = s[offset])
    (nul : memory (address + s.length) = 0) : stringAt memory address limit = s := by
  induction s generalizing address limit with
  | nil =>
      cases limit with
      | zero => rfl
      | succ limit => simpa [stringAt] using nul
  | cons c rest ih =>
      cases limit with
      | zero => simp at room
      | succ limit =>
          have head : memory address = c := holds 0 (by simp)
          have nonzero : memory address ≠ 0 := by
            rw [head]
            exact clean c (by simp)
          rw [stringAt, if_neg nonzero, head]
          congr 1
          apply ih (address + 1) limit (by simpa using room) (fun d member => clean d (by simp [member]))
          · intro offset inside
            have next := holds (offset + 1) (by simpa using inside)
            rw [show address + 1 + offset = address + (offset + 1) by omega, next]
            simp
          · rw [show address + 1 + rest.length = address + (c :: rest).length by simp; omega]
            exact nul

theorem strpbrk_bound (s accept : List UInt8) (k : Nat) (found : strpbrk s accept = some k) : k < s.length := by
  unfold strpbrk at found
  obtain ⟨inside, _⟩ := List.findIdx?_eq_some_iff_getElem.mp found
  exact inside

theorem strspn_bound (s accept : List UInt8) : strspn s accept ≤ s.length :=
  (List.takeWhile_prefix _).length_le

theorem strchr_found (s : List UInt8) (c : UInt8) (k : Nat) (found : strchr s c = some k) :
    ∃ inside : k < s.length, s[k] = c := by
  unfold strchr at found
  obtain ⟨inside, hit, _⟩ := List.findIdx?_eq_some_iff_getElem.mp found
  exact ⟨inside, by simpa using hit⟩

theorem strrchr_found (s : List UInt8) (c : UInt8) (k : Nat) (found : strrchr s c = some k) :
    ∃ inside : k < s.length, s[k] = c := by
  unfold strrchr at found
  obtain ⟨fromEnd, hit, rfl⟩ := Option.map_eq_some_iff.mp found
  obtain ⟨inside, char, _⟩ := List.findIdx?_eq_some_iff_getElem.mp hit
  simp only [List.length_reverse] at inside
  refine ⟨by omega, ?_⟩
  rw [List.getElem_reverse] at char
  simpa using char

theorem strrchr_member (s : List UInt8) (c : UInt8) (member : c ∈ s) : ∃ k, strrchr s c = some k := by
  unfold strrchr
  cases hit : s.reverse.findIdx? fun d => d = c with
  | none =>
      have missed := List.findIdx?_eq_none_iff.mp hit c (List.mem_reverse.mpr member)
      exact absurd rfl (of_decide_eq_false missed)
  | some k => exact ⟨_, rfl⟩

theorem find_first (p : UInt8 → Bool) (front rest : List UInt8) (c : UInt8) (before : ∀ d ∈ front, p d = false)
    (here : p c = true) : (front ++ c :: rest).findIdx? p = some front.length := by
  rw [List.findIdx?_append, List.findIdx?_eq_none_iff.mpr before, List.findIdx?_cons, if_pos here]
  simp

theorem strpbrk_first (front rest accept : List UInt8) (c : UInt8) (before : ∀ d ∈ front, d ∉ accept) (here : c ∈ accept) :
    strpbrk (front ++ c :: rest) accept = some front.length :=
  find_first _ front rest c (fun d member => decide_eq_false (before d member)) (decide_eq_true here)

theorem strchr_first (front rest : List UInt8) (c : UInt8) (before : c ∉ front) :
    strchr (front ++ c :: rest) c = some front.length :=
  find_first _ front rest c (fun _ member => decide_eq_false fun same => before (same ▸ member)) (decide_eq_true rfl)

theorem strrchr_last (front rear : List UInt8) (c : UInt8) (single : c ∉ rear) :
    strrchr (front ++ c :: rear) c = some front.length := by
  have whole : (front ++ c :: rear).reverse = rear.reverse ++ c :: front.reverse := by simp
  have first := strchr_first rear.reverse front.reverse c (by simpa using single)
  unfold strchr at first
  rw [strrchr, whole, first, Option.map_some]
  simp only [List.length_append, List.length_reverse, List.length_cons, Option.some.injEq]
  omega

theorem split_apart (c : UInt8) (a b restA restB : List UInt8) (outA : c ∉ a) (outB : c ∉ b) (same : a ++ c :: restA = b ++ c :: restB) :
    a = b ∧ restA = restB := by
  induction a generalizing b with
  | nil =>
      cases b with
      | nil => exact ⟨rfl, (List.cons.inj same).2⟩
      | cons d rest => exact absurd ((List.cons.inj same).1 ▸ List.mem_cons_self ..) outB
  | cons d as ih =>
      cases b with
      | nil => exact absurd ((List.cons.inj same).1 ▸ List.mem_cons_self ..) outA
      | cons e bs =>
          obtain ⟨rfl, tails⟩ := List.cons.inj same
          obtain ⟨rfl, rests⟩ := ih bs (List.not_mem_of_not_mem_cons outA) (List.not_mem_of_not_mem_cons outB) tails
          exact ⟨rfl, rests⟩

section Texts

structure TextAt (memory : Memory) (address : Nat) (text : List UInt8) : Prop where
  clean : ∀ c ∈ text, c ≠ 0
  bytes : ∀ offset (inside : offset < text.length), memory (address + offset) = text[offset]
  nul : memory (address + text.length) = 0

variable (memory : Memory) (address : Nat)

theorem text_at_string (text : List UInt8) (limit : Nat) (here : TextAt memory address text) (room : text.length < limit) :
    stringAt memory address limit = text :=
  string_at_eq memory address limit text room here.clean here.bytes here.nul

theorem text_at_congr (other : Memory) (text : List UInt8) (here : TextAt memory address text)
    (agree : ∀ index, address ≤ index → index ≤ address + text.length → memory index = other index) : TextAt other address text := by
  obtain ⟨clean, bytes, nul⟩ := here
  refine ⟨clean, fun offset inside => ?_, ?_⟩
  · rw [← agree _ (by omega) (by omega)]
    exact bytes offset inside
  · rw [← agree _ (by omega) (Nat.le_refl _)]
    exact nul

theorem read_text_at (text : List UInt8) (here : TextAt memory address text) : read memory address text.length = text := by
  apply List.ext_getElem (read_length _ _ _)
  intro offset _ inside
  simpa [read] using here.bytes offset inside

theorem text_at_drop (front rear : List UInt8) (here : TextAt memory address (front ++ rear)) :
    TextAt memory (address + front.length) rear := by
  obtain ⟨clean, bytes, nul⟩ := here
  refine ⟨fun c member => clean c (List.mem_append_right front member), ?_, ?_⟩
  · intro offset inside
    have there := bytes (front.length + offset) (by simp only [List.length_append]; omega)
    rw [Nat.add_assoc, there, List.getElem_append_right (by omega)]
    simp
  · rw [Nat.add_assoc, ← List.length_append]
    exact nul

theorem text_at_drop_take (count : Nat) (text : List UInt8) (here : TextAt memory address text)
    (inside : count ≤ text.length) : TextAt memory (address + count) (text.drop count) := by
  rw [← List.take_append_drop count text] at here
  have behind := text_at_drop memory address _ _ here
  rwa [List.length_take_of_le inside] at behind

theorem text_at_cut (front rear : List UInt8) (c : UInt8) (here : TextAt memory address (front ++ c :: rear)) :
    TextAt (store memory (address + front.length) 0) address front := by
  obtain ⟨clean, bytes, _⟩ := here
  refine ⟨fun d member => clean d (List.mem_append_left _ member), ?_, store_here _ _ _⟩
  intro offset inside
  rw [store_elsewhere _ _ _ _ (by omega), bytes offset (by simp only [List.length_append]; omega), List.getElem_append_left inside]

theorem text_at_behind (front rear : List UInt8) (c : UInt8) (here : TextAt memory address (front ++ c :: rear)) :
    TextAt (store memory (address + front.length) 0) (address + front.length + 1) rear := by
  have behind : TextAt memory (address + front.length + 1) rear := by
    have whole : front ++ c :: rear = (front ++ [c]) ++ rear := by simp
    rw [whole] at here
    have dropped := text_at_drop memory address (front ++ [c]) rear here
    rwa [List.length_append, List.length_singleton, ← Nat.add_assoc] at dropped
  obtain ⟨clean, bytes, nul⟩ := behind
  refine ⟨clean, fun offset inside => ?_, ?_⟩
  · rw [store_elsewhere _ _ _ _ (by omega)]
    exact bytes offset inside
  · rw [store_elsewhere _ _ _ _ (by omega)]
    exact nul

theorem text_at_write (text : List UInt8) (clean : ∀ c ∈ text, c ≠ 0) : TextAt (write memory address (text ++ [0])) address text := by
  refine ⟨clean, fun offset inside => ?_, ?_⟩
  · rw [write_inside _ _ _ _ (by simp; omega), List.getElem_append_left inside]
  · rw [write_inside _ _ _ _ (by simp), List.getElem_append_right (Nat.le_refl _)]
    simp

theorem text_at_append (front rear : List UInt8) (clean : ∀ c ∈ front, c ≠ 0)
    (bytes : ∀ offset (inside : offset < front.length), memory (address + offset) = front[offset])
    (behind : TextAt memory (address + front.length) rear) : TextAt memory address (front ++ rear) := by
  refine ⟨List.forall_mem_append.mpr ⟨clean, behind.clean⟩, fun offset inside => ?_, ?_⟩
  · by_cases first : offset < front.length
    · rw [List.getElem_append_left first]
      exact bytes offset first
    · rw [List.length_append] at inside
      rw [List.getElem_append_right (by omega), show address + offset = address + front.length + (offset - front.length) by omega]
      exact behind.bytes _ (by omega)
  · rw [List.length_append, ← Nat.add_assoc]
    exact behind.nul

end Texts

end WzyServer.CString
