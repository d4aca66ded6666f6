import WzyServer.Http.Framing
import WzyServer.Http.Transmission

set_option autoImplicit false

namespace WzyServer.Http

open CString

def addResponses (texts : List Text) (r : Response) : Response := texts.foldl (fun r text => (addResponse text r).2) r

def completeTexts : List Text → Response → Text
  | [], _ => []
  | text :: rest, r => (if (addResponse text r).1 = true then text else []) ++ completeTexts rest (addResponse text r).2

structure AllOrNothing (r : Response) (printed text : Text) : Prop where
  limit : r.writeIdx ≤ writeBufferSize - 2
  bytes : read r.memory r.writeBuf r.writeIdx = printed
  fits : (addResponse text r).1 = true ↔ r.writeIdx + text.length ≤ writeBufferSize - 2
  refused : (addResponse text r).1 = false → (addResponse text r).2.writeIdx = r.writeIdx ∧
    read (addResponse text r).2.memory r.writeBuf r.writeIdx = printed
  within : ∀ address, address < r.writeBuf ∨ r.writeBuf + writeBufferSize ≤ address →
    (addResponse text r).2.memory address = r.memory address

theorem extend_eq_if (printed text : Text) (r : Response) (here : Printed r printed) :
    extend printed text = printed ++ if (addResponse text r).1 = true then text else [] := by
  have whole := (add_response_printed text printed r here).2
  by_cases fits : (printed ++ text).length < writeBufferSize - 1
  · rw [extend, if_pos fits, if_pos (whole.mpr fits)]
  · rw [extend, if_neg fits, if_neg fun added => fits (whole.mp added), List.append_nil]

theorem extend_short (printed text : Text) (short : printed.length ≤ writeBufferSize - 2) :
    (extend printed text).length ≤ writeBufferSize - 2 := by
  rw [extend]
  split
  · omega
  · exact short

theorem add_responses_printed (texts : List Text) (r : Response) (printed : Text) (here : Printed r printed)
    (short : printed.length ≤ writeBufferSize - 2) :
    Printed (addResponses texts r) (printed ++ completeTexts texts r) ∧
      (printed ++ completeTexts texts r).length ≤ writeBufferSize - 2 := by
  induction texts generalizing r printed with
  | nil =>
      rw [completeTexts, List.append_nil]
      exact ⟨here, short⟩
  | cons text rest ih =>
      have next := (add_response_printed text printed r here).1
      have step := ih (addResponse text r).2 (extend printed text) next (extend_short printed text short)
      rw [extend_eq_if printed text r here, List.append_assoc] at step
      exact step

theorem add_response_within (text : Text) (r : Response) (address : Nat)
    (outside : address < r.writeBuf ∨ r.writeBuf + writeBufferSize ≤ address) :
    (addResponse text r).2.memory address = r.memory address := by
  have untouched : ∀ size, size ≤ writeBufferSize - 1 - r.writeIdx → r.writeIdx < writeBufferSize →
      vsnprintf r.memory (r.writeBuf + r.writeIdx) size text address = r.memory address := by
    intro size bound room
    rcases outside with before | after
    · exact vsnprintf_before _ _ _ _ _ (by omega)
    · exact vsnprintf_after _ _ _ _ _ (by omega)
  unfold addResponse
  by_cases full : writeBufferSize ≤ r.writeIdx
  · rw [if_pos full]
  · rw [if_neg full]
    dsimp only
    split
    · exact untouched _ (Nat.le_refl _) (Nat.lt_of_not_le full)
    · exact untouched _ (Nat.le_refl _) (Nat.lt_of_not_le full)

theorem printed_all_or_nothing (r : Response) (printed text : Text) (here : Printed r printed)
    (short : printed.length ≤ writeBufferSize - 2) : AllOrNothing r printed text := by
  have size : writeBufferSize = 1024 := rfl
  obtain ⟨after, whole⟩ := add_response_printed text printed r here
  rw [List.length_append, ← here.index] at whole
  obtain ⟨_, _, frame⟩ := add_response_frame text r
  refine ⟨?_, ?_, ?_, ?_, add_response_within text r⟩
  · rw [here.index]
    exact short
  · rw [here.index]
    exact here.bytes
  · rw [whole]
    omega
  · intro failed
    have same := extend_eq_if printed text r here
    rw [failed, if_neg Bool.false_ne_true, List.append_nil] at same
    rw [same] at after
    have bytes := after.bytes
    rw [show (addResponse text r).2.writeBuf = r.writeBuf by rw [frame]] at bytes
    refine ⟨after.index.trans here.index.symm, ?_⟩
    rw [here.index]
    exact bytes

theorem add_response_all_or_nothing (texts : List Text) (r : Response) (start : r.writeIdx = 0) (text : Text) :
    AllOrNothing (addResponses texts r) (completeTexts texts r) text := by
  obtain ⟨printed, short⟩ := add_responses_printed texts r [] ⟨start, rfl⟩ (Nat.zero_le _)
  exact printed_all_or_nothing _ _ text printed short

theorem add_response_all_or_nothing_full :
    AllOrNothing (addResponses [statusLine 200 ok200Title, List.replicate 1006 97] twoByteFile)
      (completeTexts [statusLine 200 ok200Title, List.replicate 1006 97] twoByteFile) (List.replicate 1005 97) :=
  add_response_all_or_nothing [statusLine 200 ok200Title, List.replicate 1006 97] twoByteFile rfl (List.replicate 1005 97)

end WzyServer.Http
