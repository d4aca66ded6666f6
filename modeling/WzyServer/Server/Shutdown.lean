import WzyServer.Server.HeapServer

set_option autoImplicit false

namespace WzyServer.Server

open Heap LinkedList Run

section Destructor

def SortTimerLst.destroyFrom : Nat → SortTimerLst → Option Addr → Except HeapFault (SortTimerLst × List Addr)
  | _, lst, none => .ok (lst, [])
  | 0, _, some _ => .error .endless
  | rounds + 1, lst, some tmp => do
      let node ← lst.memory.read tmp
      let lst := { lst with head := node.next }
      let lst ← lst.free tmp
      let (lst, freed) ← destroyFrom rounds lst lst.head
      return (lst, tmp :: freed)

def SortTimerLst.destroy (lst : SortTimerLst) : Except HeapFault (SortTimerLst × List Addr) :=
  SortTimerLst.destroyFrom lst.memory.allocated lst lst.head

-- The links back are not followed: what is left of the list need only be walked.
theorem destroy_from_walk (rounds : Nat) (lst : SortTimerLst) (path : TimerList) (walk : Walk Timer.id lst.memory.cells lst.head path)
    (ids : (path.map Timer.id).Nodup) (enough : path.length ≤ rounds) :
    ∃ left, SortTimerLst.destroyFrom rounds lst lst.head = .ok (left, path.map Timer.id) ∧ left.head = none ∧
      left.memory.allocated = lst.memory.allocated - path.length ∧
      ∀ addr, left.memory.cells addr = if addr ∈ path.map Timer.id then none else lst.memory.cells addr := by
  induction path generalizing rounds lst with
  | nil =>
      generalize pointer : lst.head = head at walk ⊢
      cases walk
      refine ⟨lst, ?_, pointer, rfl, fun addr => rfl⟩
      cases rounds <;> rfl
  | cons timer rest ih =>
      generalize pointer : lst.head = head at walk ⊢
      cases walk with
      | step _ prev next _ here further =>
          obtain ⟨less, rfl⟩ : ∃ less, rounds = less + 1 := ⟨rounds - 1, by simp only [List.length_cons] at enough; omega⟩
          obtain ⟨apart, others⟩ := List.nodup_cons.mp ids
          let freed : Memory (Node Timer) :=
            ⟨fun other => if other = timer.id then none else lst.memory.cells other, lst.memory.allocated - 1⟩
          have kept : Walk Timer.id freed.cells next rest := by
            refine walk_same Timer.id lst.memory.cells freed.cells next rest further fun later member => if_neg ?_
            intro same
            exact apart (same ▸ List.mem_map_of_mem member)
          obtain ⟨left, destroyed, head, allocated, cells⟩ :=
            ih less { lst with head := next, memory := freed } kept others (Nat.le_of_succ_le_succ enough)
          refine ⟨left, ?_, head, ?_, fun addr => ?_⟩
          · rw [SortTimerLst.destroyFrom, Memory.read_here _ _ _ here]
            dsimp only [bind, Except.bind, SortTimerLst.free]
            rw [Memory.delete_here _ _ (by rw [here]; exact Option.some_ne_none _)]
            dsimp only [pure, Except.pure]
            rw [destroyed]
            rfl
          · rw [allocated, List.length_cons]
            change lst.memory.allocated - 1 - rest.length = _
            omega
          · rw [cells addr]
            by_cases same : addr = timer.id
            · simp [same, freed]
            · simp [same, freed]

end Destructor

section Leaks

structure FreesAll (lst : SortTimerLst) : Prop where
  destroyed : ∃ left freed, lst.destroy = .ok (left, freed) ∧ freed.Nodup ∧
    (∀ addr, addr ∈ freed ↔ lst.memory.cells addr ≠ none) ∧ left.memory.allocated = 0 ∧ ∀ addr, left.memory.cells addr = none

theorem represents_frees_all (lst : SortTimerLst) (timers : TimerList) (rep : Represents lst timers) : FreesAll lst := by
  have walk := linked_walk Timer.id lst.memory.cells none timers rep.linked
  rw [← rep.head] at walk
  obtain ⟨left, destroyed, _, allocated, cells⟩ :=
    destroy_from_walk lst.memory.allocated lst timers walk rep.ids (by rw [rep.allocated])
  have listed : ∀ addr, addr ∈ timers.map Timer.id ↔ lst.memory.cells addr ≠ none := by
    intro addr
    constructor
    · intro member
      obtain ⟨timer, inside, rfl⟩ := List.mem_map.mp member
      exact shape_present lst timers rep.toShape timer inside
    · exact rep.only addr
  refine ⟨left, timers.map Timer.id, destroyed, rep.ids, listed, by rw [allocated, rep.allocated, Nat.sub_self], fun addr => ?_⟩
  rw [cells addr]
  split
  · rfl
  · rename_i unlisted
    by_contra present
    exact unlisted ((listed addr).mpr present)

theorem shutdown_frees_timers (steps : List HeapLabel) (spared : Along machine Spared State.start (steps.map HeapLabel.label)) :
    Always heapMachine (fun h => FreesAll h.lst) .start steps :=
  always_mono heapMachine _ _ (fun h related => by
    obtain ⟨s, place, stores⟩ := related
    exact represents_frees_all h.lst _ stores.represents) .start steps (spared_run steps spared).2

theorem shutdown_frees_timers_reused : Always heapMachine (fun h => FreesAll h.lst) .start addressReused :=
  shutdown_frees_timers addressReused address_reused_spared

end Leaks

end WzyServer.Server
