import Mathlib.Algebra.BigOperators.Group.Multiset.Basic

set_option autoImplicit false

namespace WzyServer.Threads

section Shares

variable {Phase M : Type} [AddCommMonoid M] (share : Phase → M)

def total (threads : List Phase) : M := (threads.map share).sum

theorem total_set (threads : List Phase) (thread : Nat) (before after : Phase) (here : threads[thread]? = some before) :
    total share (threads.set thread after) + share before = total share threads + share after := by
  induction threads generalizing thread with
  | nil => simp at here
  | cons first rest ih =>
      cases thread with
      | zero =>
          cases here
          simp only [total, List.set_cons_zero, List.map_cons, List.sum_cons]
          rw [add_right_comm, add_comm (share after), add_right_comm]
      | succ thread =>
          simp only [total, List.set_cons_succ, List.map_cons, List.sum_cons] at ih ⊢
          rw [add_assoc, ih thread here, add_assoc]

theorem total_replicate_zero (count : Nat) (phase : Phase) (nothing : share phase = 0) :
    total share (List.replicate count phase) = 0 := by
  simp [total, nothing]

theorem total_nothing (threads : List Phase) (nothing : ∀ phase ∈ threads, share phase = 0) : total share threads = 0 := by
  exact List.sum_eq_zero (List.forall_mem_map.mpr nothing)

end Shares

theorem total_add {Phase M : Type} [AddCommMonoid M] (f g : Phase → M) (threads : List Phase) :
    total (fun phase => f phase + g phase) threads = total f threads + total g threads :=
  List.sum_map_add

theorem total_le {Phase : Type} (share : Phase → Nat) (atMost : ∀ phase, share phase ≤ 1) (threads : List Phase) :
    total share threads ≤ threads.length := by
  induction threads with
  | nil => exact Nat.le_refl _
  | cons first rest ih =>
      have one := atMost first
      simp only [total, List.map_cons, List.sum_cons, List.length_cons] at ih ⊢
      omega

theorem total_lt {Phase : Type} (share : Phase → Nat) (atMost : ∀ phase, share phase ≤ 1) (threads : List Phase) (thread : Nat)
    (phase : Phase) (here : threads[thread]? = some phase) (nothing : share phase = 0) : total share threads < threads.length := by
  induction threads generalizing thread with
  | nil => simp at here
  | cons first rest ih =>
      cases thread with
      | zero =>
          cases here
          have others := total_le share atMost rest
          simp only [total, List.map_cons, List.sum_cons, List.length_cons] at others ⊢
          omega
      | succ thread =>
          have one := atMost first
          have others := ih thread here
          simp only [total, List.map_cons, List.sum_cons, List.length_cons] at others ⊢
          omega

section Held

variable {Phase β : Type} (share : Phase → List β)

theorem mem_set_elsewhere (threads : List Phase) (thread : Nat) (after phase : Phase) (member : phase ∈ threads.set thread after) :
    phase = after ∨ ∃ other, other ≠ thread ∧ threads[other]? = some phase := by
  obtain ⟨other, found⟩ := List.mem_iff_getElem?.mp member
  by_cases same : other = thread
  · subst same
    rw [List.getElem?_set_self'] at found
    obtain ⟨_, _, rfl⟩ := Option.map_eq_some_iff.mp found
    exact .inl rfl
  · rw [List.getElem?_set_ne (Ne.symm same)] at found
    exact .inr ⟨other, same, found⟩

theorem mem_or_mem_set (threads : List Phase) (thread : Nat) (before after phase : Phase) (here : threads[thread]? = some before)
    (member : phase ∈ threads) : phase = before ∨ phase ∈ threads.set thread after := by
  obtain ⟨other, found⟩ := List.mem_iff_getElem?.mp member
  by_cases same : other = thread
  · subst same
    exact .inl (Option.some.inj (found.symm.trans here))
  · refine .inr (List.mem_of_getElem? (i := other) ?_)
    rw [List.getElem?_set_ne (Ne.symm same), found]

theorem total_coe (threads : List Phase) : total (fun phase => (share phase : Multiset β)) threads = threads.flatMap share := by
  induction threads with
  | nil => rfl
  | cons first rest ih =>
      rw [total, List.map_cons, List.sum_cons, ← total, ih, List.flatMap_cons, Multiset.coe_add]

theorem flatMap_set_perm (threads : List Phase) (thread : Nat) (before after : Phase) (here : threads[thread]? = some before) :
    ((threads.set thread after).flatMap share ++ share before).Perm (threads.flatMap share ++ share after) := by
  have moved := total_set (fun phase => (share phase : Multiset β)) threads thread before after here
  rwa [total_coe, total_coe, Multiset.coe_add, Multiset.coe_add, Multiset.coe_eq_coe] at moved

theorem flatMap_set_subperm (threads : List Phase) (thread : Nat) (before after : Phase) (here : threads[thread]? = some before)
    (fewer : (share after).Subperm (share before)) : ((threads.set thread after).flatMap share).Subperm (threads.flatMap share) := by
  have moved := (flatMap_set_perm share threads thread before after here).subperm
  rw [← Multiset.coe_le, ← Multiset.coe_add, ← Multiset.coe_add] at moved
  exact Multiset.coe_le.mp (le_of_add_le_add_right (moved.trans (by gcongr; exact Multiset.coe_le.mpr fewer)))

theorem owner_eq (threads : List Phase) (distinct : (threads.flatMap share).Nodup) (i j : Nat) (first second : Phase) (item : β)
    (hereI : threads[i]? = some first) (hereJ : threads[j]? = some second) (inFirst : item ∈ share first)
    (inSecond : item ∈ share second) : i = j := by
  have apart := (List.nodup_flatMap.mp distinct).2
  have ordered : ∀ k l : Nat, ∀ early late : Phase, threads[k]? = some early → threads[l]? = some late →
      item ∈ share early → item ∈ share late → ¬ k < l := by
    intro k l early late hereK hereL inEarly inLate less
    obtain ⟨insideK, rfl⟩ := List.getElem?_eq_some_iff.mp hereK
    obtain ⟨insideL, rfl⟩ := List.getElem?_eq_some_iff.mp hereL
    exact List.pairwise_iff_getElem.mp apart k l insideK insideL less inEarly inLate
  have notBefore := ordered i j first second hereI hereJ inFirst inSecond
  have notBehind := ordered j i second first hereJ hereI inSecond inFirst
  omega

end Held

end WzyServer.Threads
