import WzyServer.Log.Delivery

set_option autoImplicit false

namespace WzyServer.Log

open Run

section Order

variable {α : Type}

def Ordered (records : List (Record α)) : Prop :=
  records.Pairwise fun earlier later => earlier.thread = later.thread → earlier.number < later.number

def Logger.InOrder (s : Logger α) : Prop := Ordered s.file

def OvertakesNone (s : Logger α) (label : LogLabel α) : Prop :=
  ∀ thread calls record, label = .advance thread → s.writers[thread]? = some ⟨calls, .direct record⟩ →
    ∀ older ∈ s.inFlight, older.thread ≠ thread

def Phase.record : Phase α → Option (Record α)
  | .idle => none
  | .formatted record => some record
  | .queueing record => some record
  | .direct record => some record

structure Numbered (bound : Nat) (s : Logger α) : Prop where
  stores : s.Stores bound
  order : Ordered (s.file ++ s.inFlight)
  below : ∀ record ∈ s.file ++ s.inFlight, ∀ writer, s.writers[record.thread]? = some writer → record.number < writer.calls
  own : ∀ (thread : Nat) (writer : Writer α) (record : Record α), s.writers[thread]? = some writer →
    writer.phase.record = some record → record.thread = thread ∧ record.number = writer.calls

theorem numbered_set (bound : Nat) (s t : Logger α) (thread calls later : Nat) (before after : Phase α) (inv : Numbered bound s)
    (here : s.writers[thread]? = some ⟨calls, before⟩) (grown : calls ≤ later)
    (writers : t.writers = s.writers.set thread ⟨later, after⟩)
    (own : ∀ record, after.record = some record → record.thread = thread ∧ record.number = later)
    (stores : t.Stores bound) (order : Ordered (t.file ++ t.inFlight))
    (members : ∀ record ∈ t.file ++ t.inFlight, record ∈ s.file ++ s.inFlight ∨ record.thread = thread ∧ record.number < later) :
    Numbered bound t := by
  have inside : thread < s.writers.length := (List.getElem?_eq_some_iff.mp here).1
  have self : t.writers[thread]? = some ⟨later, after⟩ := by rw [writers, List.getElem?_set_self inside]
  have other : ∀ i, i ≠ thread → t.writers[i]? = s.writers[i]? := fun i different => by
    rw [writers, List.getElem?_set_ne different.symm]
  refine ⟨stores, order, ?_, ?_⟩
  · intro record member writer found
    by_cases same : record.thread = thread
    · rw [same, self] at found
      cases found
      rcases members record member with older | ⟨_, less⟩
      · exact Nat.lt_of_lt_of_le (inv.below record older _ (by rw [same]; exact here)) grown
      · exact less
    · rw [other _ same] at found
      rcases members record member with older | ⟨thisThread, _⟩
      · exact inv.below record older writer found
      · exact absurd thisThread same
  · intro i writer record found holds
    by_cases same : i = thread
    · subst same
      rw [self] at found
      cases found
      exact own record holds
    · rw [other i same] at found
      exact inv.own i writer record found holds

theorem numbered_moves (bound : Nat) (s : Logger α) (thread calls : Nat) (before after : Phase α) (inv : Numbered bound s)
    (here : s.writers[thread]? = some ⟨calls, before⟩)
    (own : ∀ record, after.record = some record → record.thread = thread ∧ record.number = calls) :
    Numbered bound (s.moves thread calls after) :=
  numbered_set bound s _ thread calls calls before after inv here (Nat.le_refl _) rfl own inv.stores inv.order
    fun _ member => .inl member

theorem numbered_flush (bound : Nat) (s t : Logger α) (inv : Numbered bound s) (stores : t.Stores bound)
    (step : Step bound s .flush t) : Numbered bound t := by
  obtain ⟨same, _, writers, _⟩ := flush_step bound s t step
  refine ⟨stores, by rw [same]; exact inv.order, ?_, ?_⟩
  · rw [same, writers]
    exact inv.below
  · rw [writers]
    exact inv.own

theorem numbered_step (bound : Nat) (s t : Logger α) (label : LogLabel α) (inv : Numbered bound s)
    (overtakes : OvertakesNone s label) (taken : Takes (logMachine α) s label t) : Numbered bound t := by
  obtain ⟨stores, step⟩ := log_step bound s t label inv.stores taken
  cases step with
  | begin thread calls text idle =>
      refine numbered_moves bound s thread calls _ _ inv idle ?_
      intro record made
      cases made
      exact ⟨rfl, rfl⟩
  | tested thread calls record phase formatted answer =>
      refine numbered_moves bound s thread calls _ _ inv formatted ?_
      rcases answer with rfl | rfl
      · exact fun other made => inv.own thread _ other formatted made
      · exact fun other made => inv.own thread _ other formatted made
  | queued thread calls record queue queueing notFull pushed =>
      obtain ⟨thisThread, number⟩ := inv.own thread _ record queueing rfl
      have longer : s.file ++ (s.flusher.toList ++ queue.items) = s.file ++ s.inFlight ++ [record] := by
        rw [pushed, Logger.inFlight, List.append_assoc, List.append_assoc]
      refine numbered_set bound s _ thread calls (calls + 1) _ .idle inv queueing (Nat.le_succ _) rfl (fun _ made => by cases made) stores ?_ ?_
      · change Ordered (s.file ++ (s.flusher.toList ++ queue.items))
        rw [longer]
        refine List.pairwise_append.mpr ⟨inv.order, List.pairwise_singleton .., ?_⟩
        intro older member last isLast same
        rw [List.mem_singleton.mp isLast] at same ⊢
        rw [number]
        exact inv.below older member _ (by rw [same, thisThread]; exact queueing)
      · change ∀ record ∈ s.file ++ (s.flusher.toList ++ queue.items), _
        rw [longer]
        intro other member
        rcases List.mem_append.mp member with older | last
        · exact .inl older
        · rw [List.mem_singleton.mp last, number]
          exact .inr ⟨thisThread, Nat.lt_succ_self _⟩
  | lost thread calls record queueing full =>
      exact numbered_set bound s _ thread calls (calls + 1) _ .idle inv queueing (Nat.le_succ _) rfl (fun _ made => by cases made) stores
        inv.order fun _ member => .inl member
  | written thread calls record direct =>
      obtain ⟨thisThread, number⟩ := inv.own thread _ record direct rfl
      obtain ⟨filed, flying, across⟩ := List.pairwise_append.mp inv.order
      refine numbered_set bound s _ thread calls (calls + 1) _ .idle inv direct (Nat.le_succ _) rfl (fun _ made => by cases made) stores ?_ ?_
      · change Ordered (s.file ++ [record] ++ s.inFlight)
        rw [List.append_assoc]
        refine List.pairwise_append.mpr ⟨filed, List.pairwise_cons.mpr ⟨?_, flying⟩, ?_⟩
        · intro later member same
          exact absurd (same.symm.trans thisThread) (overtakes thread calls record rfl direct later member)
        · intro older member later isLater same
          rcases List.mem_cons.mp isLater with rfl | inFlight
          · rw [number]
            exact inv.below older (List.mem_append_left _ member) _ (by rw [same, thisThread]; exact direct)
          · exact across older member later inFlight same
      · change ∀ other ∈ s.file ++ [record] ++ s.inFlight, _
        intro other member
        rw [List.append_assoc] at member
        rcases List.mem_append.mp member with older | later
        · exact .inl (List.mem_append_left _ older)
        · rcases List.mem_cons.mp later with rfl | inFlight
          · exact .inr ⟨thisThread, by rw [number]; exact Nat.lt_succ_self _⟩
          · exact .inl (List.mem_append_right _ inFlight)
  | waiting nothing => exact inv
  | popped record queue free front => exact numbered_flush bound s _ inv stores (.popped record queue free front)
  | flushed record held => exact numbered_flush bound s _ inv stores (.flushed record held)

theorem numbered_flushed (bound : Nat) (s : Logger α) (inv : Numbered bound s) : Flushed Logger.InOrder s := by
  refine flushed_of_invariant (Numbered bound) _ ?_ ?_ s inv
  · exact fun s t here taken => numbered_step bound s t .flush here (fun _ _ _ other => by cases other) taken
  · exact fun t numbered => (List.pairwise_append.mp numbered.order).1

theorem overtaking_exposed (bound : Nat) (s : Logger α) (label : LogLabel α) (inv : Numbered bound s)
    (offered : (logMachine α).guard s label) (overtakes : ¬ OvertakesNone s label) :
    ∃ t, (logMachine α).effect s label = .ok t ∧ ¬ Flushed Logger.InOrder t := by
  simp only [OvertakesNone, not_forall] at overtakes
  obtain ⟨thread, calls, record, rfl, direct, older, inFlight, mine⟩ := overtakes
  refine ⟨{ s.completes thread calls record with file := s.file ++ [record] }, ?_, ?_⟩
  · simp only [logMachine, Logger.effect, direct, Logger.writeLog]
  · intro flushed
    have stores : ({ s.completes thread calls record with file := s.file ++ [record] } : Logger α).Stores bound := inv.stores
    obtain ⟨t, ordered, _, file, _⟩ := flushed_drained bound _ _ stores flushed
    obtain ⟨thisThread, sameNumber⟩ := inv.own thread _ record direct rfl
    have number : record.number = calls := sameNumber
    have olderThread : older.thread = thread := not_not.mp mine
    have before : older.number < calls :=
      inv.below older (List.mem_append_right _ inFlight) _ (by rw [olderThread]; exact direct)
    rw [Logger.InOrder, file] at ordered
    have across := (List.pairwise_append.mp ordered).2.2 record (by simp) older inFlight (thisThread.trans olderThread.symm)
    omega

theorem start_numbered (capacity : Int) (blank : Record α) (queue : BlockQueue (Record α)) (threads : Nat)
    (created : BlockQueue.new capacity blank = some queue) : Numbered capacity.toNat (Logger.start queue threads) := by
  have stores := (BlockQueue.new_stores capacity blank queue created).1
  have nothing : (Logger.start queue threads).file ++ (Logger.start queue threads).inFlight = [] := by
    simp only [Logger.inFlight, Logger.start, BlockQueue.stores_items queue _ [] stores]
    rfl
  refine ⟨stores_of _ _ [] stores, ?_, ?_, ?_⟩
  · rw [nothing]
    exact List.Pairwise.nil
  · rw [nothing]
    intro record member
    cases member
  · intro thread writer record found holds
    have idle := List.eq_of_mem_replicate (List.mem_of_getElem? found)
    rw [idle] at holds
    cases holds

theorem records_in_order_iff (capacity : Int) (blank : Record α) (queue : BlockQueue (Record α)) (threads : Nat)
    (created : BlockQueue.new capacity blank = some queue) (labels : List (LogLabel α)) :
    Always (logMachine α) (Flushed Logger.InOrder) (Logger.start queue threads) labels ↔
      Along (logMachine α) OvertakesNone (Logger.start queue threads) labels := by
  have start := start_numbered capacity blank queue threads created
  refine always_iff_along (logMachine α) OvertakesNone (Numbered capacity.toNat) _ ?_ ?_ ?_ _ labels start
  · exact fun s label t inv overtakes taken => numbered_step capacity.toNat s t label inv overtakes taken
  · exact overtaking_exposed capacity.toNat
  · exact numbered_flushed capacity.toNat

end Order

def writtenInTurn : List (LogLabel Nat) := [.begin 0 10, .advance 0, .advance 0, .begin 0 20, .advance 0, .flush, .flush, .advance 0]

theorem records_in_order_in_turn :
    Along (logMachine Nat) OvertakesNone (Logger.start oneCell 1) writtenInTurn ↔
      Always (logMachine Nat) (Flushed Logger.InOrder) (Logger.start oneCell 1) writtenInTurn :=
  (records_in_order_iff 1 ⟨0, 0, 0⟩ oneCell 1 rfl writtenInTurn).symm

def writtenAtOnce : List (LogLabel Nat) := [.begin 0 10, .advance 0, .advance 0, .begin 0 20, .advance 0, .advance 0]

theorem record_overtaken : ¬ Always (logMachine Nat) (Flushed Logger.InOrder) (Logger.start oneCell 1) writtenAtOnce := by
  intro always
  have reached : ∃ s t, replay (logMachine Nat) (Logger.start oneCell 1) writtenAtOnce = some s ∧
      replay (logMachine Nat) s (List.replicate 2 .flush) = some t ∧ t.file = [⟨0, 1, 20⟩, ⟨0, 0, 10⟩] := ⟨_, _, rfl, rfl, rfl⟩
  obtain ⟨s, t, calls, flushes, file⟩ := reached
  have ordered := always_replay _ _ s t _ flushes (always_replay _ _ _ s _ calls always 2)
  rw [Logger.InOrder, file] at ordered
  exact absurd (List.rel_of_pairwise_cons ordered (List.mem_singleton_self _) rfl) (by decide)

end WzyServer.Log
