import WzyServer.Http.Sendable

set_option autoImplicit false

namespace WzyServer.Http

open CString Word Run

section Exposure

def RangeIn (base len : Nat) (iov : Iovec) : Prop := iov.len = 0 ∨ (base ≤ iov.base ∧ iov.base + iov.len ≤ base + len)

def Within (r : Response) (t : Transmission) : Prop :=
  t.phase = .writing → RangeIn r.writeBuf r.writeIdx t.response.iv0 ∧ RangeIn r.fileAddress r.fileSize t.response.iv1

theorem to_size_offset (base len offset : Nat) (shift : Int) (lower : -2 ^ 31 ≤ shift) (upper : shift < 2 ^ 31)
    (short : len < 2 ^ 32) (above : base ≤ toSize (base + shift)) (below : toSize (base + shift) + offset ≤ base + len) :
    0 ≤ shift ∧ shift + offset ≤ len := by
  unfold toSize at above below
  omega

def Unparked (r : Response) (t : Transmission) : Prop :=
  t.phase = .writing → t.response.iv0 = r.iv0 ∧ t.response.iv1 = r.iv1

theorem unparked_within (r : Response) (t : Transmission) (ready : Sendable r) (two : r.ivCount = 2) (unparked : Unparked r t) :
    Within r t := by
  intro writing
  obtain ⟨header, file⟩ := unparked writing
  have mapped := (sendable_mapped r ready two).1
  rw [header, file, ready.header, mapped]
  exact ⟨.inr ⟨Nat.le_refl _, Nat.le_refl _⟩, .inr ⟨Nat.le_refl _, Nat.le_refl _⟩⟩

theorem accept_unparked (r : Response) (t : Transmission) (count : Nat) (writing : t.phase = .writing) (unparked : Unparked r t) :
    Unparked r (t.accept count) := by
  intro still
  obtain ⟨newadd, accepted, same⟩ := t.accept_continues count (t.accept_writing count still)
  rw [same]
  exact unparked writing

theorem unparked_kept (r : Response) (t next : Transmission) (event : WriteEvent) (unparked : Unparked r t)
    (inside : event ≠ .epollout) (taken : Takes writeMachine t event next) : Unparked r next := by
  obtain ⟨offered, rfl⟩ := write_takes t next event taken
  cases event with
  | epollout => exact absurd rfl inside
  | accepted count => exact accept_unparked r t count offered.1 unparked
  | eagain => exact fun writing => by cases writing
  | error => exact fun writing => by cases writing

theorem call_within (r : Response) (t : Transmission) (events : List WriteEvent) (ready : Sendable r) (two : r.ivCount = 2)
    (unparked : Unparked r t) (inside : ∀ event ∈ events, event ≠ .epollout) : Always writeMachine (Within r) t events := by
  have always := always_of_along writeMachine (fun _ event => event ≠ .epollout) (Unparked r)
    (fun s event next here ok taken => unparked_kept r s next event here ok taken) t events unparked
    (along_labels writeMachine (fun event => event ≠ .epollout) t events inside)
  exact always_mono writeMachine _ _ (fun s here => unparked_within r s ready two here) t events always

theorem enter_unparked (r : Response) : Unparked r (Transmission.start r).enter := by
  by_cases nothing : r.announced = 0
  · rw [enter_nothing r nothing]
    exact fun writing => by cases writing
  · rw [enter_writing r nothing]
    intro _
    exact ⟨(recount_iovecs r).1, (recount_iovecs r).2.1⟩

theorem first_call_within (r : Response) (events : List WriteEvent) (ready : Sendable r) (two : r.ivCount = 2)
    (once : events.count .epollout ≤ 1) : Always writeMachine (Within r) (Transmission.start r) events := by
  have start : Within r (Transmission.start r) := fun writing => by cases writing
  cases events with
  | nil => exact start
  | cons event rest =>
      refine ⟨start, fun next taken => ?_⟩
      obtain ⟨offered, rfl⟩ := write_takes _ next event taken
      cases event with
      | epollout =>
          apply call_within r _ rest ready two (enter_unparked r)
          rintro other member rfl
          rw [List.count_cons_self] at once
          have again := List.count_pos_iff.mpr member
          omega
      | accepted count => cases offered.1
      | eagain => cases offered
      | error => cases offered

end Exposure

section Parking

structure FirstCall (r : Response) (t : Transmission) : Prop where
  writing : t.phase = .writing
  same : t.response = { r with bytesToSend := t.response.bytesToSend, bytesHaveSend := t.response.bytesHaveSend }
  total : t.response.bytesToSend + t.response.bytesHaveSend = 2 * r.writeIdx + r.fileSize
  left : 0 < t.response.bytesToSend
  sent : 0 ≤ t.response.bytesHaveSend
  newadd : (r.writeIdx : Int) ≤ t.response.bytesHaveSend → t.newadd = t.response.bytesHaveSend - r.writeIdx

theorem file_announced (r : Response) (ready : Sendable r) (two : r.ivCount = 2) :
    r.announced = toInt (2 * r.writeIdx + r.fileSize) := by
  have mapped := (sendable_mapped r ready two).1
  rw [announced_sum, ready.header, mapped, to_int_add_right]
  congr 1
  dsimp only
  omega

theorem first_call_begins (r : Response) (ready : Sendable r) (two : r.ivCount = 2) (small : 2 * r.writeIdx + r.fileSize < 2 ^ 31) :
    FirstCall r (Transmission.start r).enter := by
  have nonempty := ready.nonempty
  have announced : r.announced = 2 * r.writeIdx + r.fileSize := by
    rw [file_announced r ready two]
    exact to_int_small _ (by omega) (by omega)
  rw [enter_writing r (by omega)]
  refine ⟨rfl, ?_, ?_, ?_, ?_, ?_⟩ <;> simp only [Response.recount]
  · omega
  · omega
  · exact Int.le_refl 0
  · omega

theorem first_call_goes_on (r : Response) (t : Transmission) (count : Nat) (small : 2 * r.writeIdx + r.fileSize < 2 ^ 31)
    (call : FirstCall r t) (fits : count ≤ maxTransfer) (still : (t.accept count).phase = .writing) :
    FirstCall r (t.accept count) := by
  obtain ⟨writing, same, total, left, sent, _⟩ := call
  have most : maxTransfer = 2147479552 := rfl
  have more := t.accept_writing count still
  have rest : toInt (t.response.bytesToSend - count) = t.response.bytesToSend - count := to_int_small _ (by omega) (by omega)
  have have_ : toInt (t.response.bytesHaveSend + count) = t.response.bytesHaveSend + count :=
    to_int_small _ (by omega) (by omega)
  have past : toInt (t.response.bytesHaveSend + count - r.writeIdx) = t.response.bytesHaveSend + count - r.writeIdx :=
    to_int_small _ (by omega) (by omega)
  have index : t.response.writeIdx = r.writeIdx := by rw [same]
  have shape : t.accept count = ⟨{ t.response with
      bytesToSend := toInt (t.response.bytesToSend - count), bytesHaveSend := toInt (t.response.bytesHaveSend + count) },
      toInt (toInt (t.response.bytesHaveSend + count) - t.response.writeIdx), t.accepted ++ t.response.gather.take count, .writing⟩ := by
    unfold Transmission.accept
    dsimp only
    rw [if_neg (by omega)]
  rw [shape]
  refine ⟨rfl, ?_, ?_, more, ?_, fun _ => ?_⟩
  · dsimp only
    rw [same]
  · dsimp only
    omega
  · dsimp only
    omega
  · dsimp only
    rw [have_, index, past]

theorem parked_exposed (r : Response) (t : Transmission) (ready : Sendable r) (small : 2 * r.writeIdx + r.fileSize < 2 ^ 31)
    (mapped : r.iv1 = ⟨r.fileAddress, r.fileSize⟩) (call : FirstCall r t) : ¬ Within r (t.step .eagain).enter := by
  obtain ⟨writing, same, total, left, sent, newadd⟩ := call
  have size : writeBufferSize = 1024 := rfl
  have nonempty := ready.nonempty
  have fits := ready.fits
  have header : t.response.iv0 = ⟨r.writeBuf, r.writeIdx⟩ := by rw [same]; exact ready.header
  have file : t.response.iv1 = ⟨r.fileAddress, r.fileSize⟩ := by rw [same]; exact mapped
  have index : t.response.writeIdx = r.writeIdx := by rw [same]
  have buffer : t.response.writeBuf = r.writeBuf := by rw [same]
  have address : t.response.fileAddress = r.fileAddress := by rw [same]
  have haveSent := to_size_small t.response.bytesHaveSend sent (by omega)
  have toSend := to_size_small t.response.bytesToSend (by omega) (by omega)
  generalize parked : t.response.park t.newadd = p
  have entered : p.announced ≠ 0 → (t.step .eagain).enter = ⟨p.recount, 0, t.accepted, .writing⟩ := by
    intro nonzero
    have stepped : t.step .eagain = { t with response := p, phase := .waiting } := by
      rw [Transmission.step, parked]
    rw [stepped]
    exact Transmission.enter_writes _ nonzero
  unfold Response.park at parked
  rw [header, buffer, address] at parked
  generalize toSize t.response.bytesHaveSend = sentSize at haveSent parked
  generalize toSize t.response.bytesToSend = leftSize at toSend parked
  intro within
  by_cases whole : r.writeIdx ≤ sentSize
  · rw [if_pos whole] at parked
    have past := newadd (by omega)
    have announced : p.announced ≠ 0 := by
      rw [announced_sum, ← parked]
      dsimp only
      rw [index, toSend, to_int_small t.response.bytesToSend (by omega) (by omega), to_int_small _ (by omega) (by omega)]
      omega
    rw [entered announced] at within
    have range := (within rfl).2
    rw [(recount_iovecs p).2.1, ← parked] at range
    rcases range with empty | ⟨above, below⟩
    · dsimp only at empty
      omega
    · dsimp only at above below
      have offset := to_size_offset r.fileAddress r.fileSize _ t.newadd (by omega) (by omega) (by omega) above below
      omega
  · rw [if_neg whole] at parked
    have announced : p.announced ≠ 0 := by
      rw [announced_sum, ← parked]
      dsimp only
      rw [index, file, to_int_small r.fileSize (by omega) (by omega), to_int_small _ (by omega) (by omega)]
      omega
    rw [entered announced] at within
    have range := (within rfl).1
    rw [(recount_iovecs p).1, ← parked] at range
    rcases range with empty | ⟨above, below⟩
    · dsimp only at empty
      omega
    · dsimp only at above below
      have offset := to_size_offset r.writeBuf r.writeIdx _ t.response.bytesToSend (by omega) (by omega) (by omega) above below
      omega

theorem run_over (t last : Transmission) (events : List WriteEvent) (ended : t.phase = .sent ∨ t.phase = .failed)
    (run : replay writeMachine t events = some last) : events = [] := by
  cases events with
  | nil => rfl
  | cons event rest =>
      obtain ⟨next, taken, _⟩ := replay_takes writeMachine t last event rest run
      have offered := taken.1
      rcases ended with sent | failed <;> cases event <;> simp_all [writeMachine, Transmission.offers]

theorem call_ends (r : Response) (ready : Sendable r) (small : 2 * r.writeIdx + r.fileSize < 2 ^ 31)
    (mapped : r.iv1 = ⟨r.fileAddress, r.fileSize⟩) (t last : Transmission) (events : List WriteEvent) (call : FirstCall r t)
    (run : replay writeMachine t events = some last) (always : Always writeMachine (Within r) t events) :
    WriteEvent.epollout ∉ events := by
  induction events generalizing t with
  | nil => exact List.not_mem_nil
  | cons event rest ih =>
      obtain ⟨next, taken, later⟩ := replay_takes writeMachine t last event rest run
      have stays := always.2 next taken
      obtain ⟨offered, rfl⟩ := write_takes t next event taken
      cases event with
      | epollout => cases call.writing.symm.trans offered
      | accepted count =>
          rw [List.mem_cons, not_or]
          refine ⟨fun same => (by cases same), ?_⟩
          by_cases still : (t.accept count).phase = .writing
          · exact ih _ (first_call_goes_on r t count small call offered.2.2 still) later stays
          · have sent : (t.accept count).phase = .sent := (accept_gather t count).resolve_right fun both => still both.1
            rw [run_over _ last rest (.inl sent) later]
            exact List.not_mem_nil
      | eagain =>
          rw [List.mem_cons, not_or]
          refine ⟨fun same => (by cases same), ?_⟩
          cases rest with
          | nil => exact List.not_mem_nil
          | cons second more =>
              obtain ⟨again, entered, _⟩ := replay_takes writeMachine _ last second more later
              have within := always_here _ _ _ _ (stays.2 again entered)
              obtain ⟨offered, rfl⟩ := write_takes _ again second entered
              cases second with
              | epollout => exact absurd within (parked_exposed r t ready small mapped call)
              | accepted count => cases offered.1
              | eagain => cases offered
              | error => cases offered
      | error =>
          rw [run_over _ last rest (.inr rfl) later, List.mem_singleton]
          exact fun same => (by cases same)

theorem within_once (r : Response) (ready : Sendable r) (two : r.ivCount = 2) (small : 2 * r.writeIdx + r.fileSize < 2 ^ 31)
    (mapped : r.iv1 = ⟨r.fileAddress, r.fileSize⟩) (last : Transmission) (events : List WriteEvent)
    (run : replay writeMachine (Transmission.start r) events = some last)
    (always : Always writeMachine (Within r) (Transmission.start r) events) : events.count .epollout ≤ 1 := by
  cases events with
  | nil => exact Nat.zero_le 1
  | cons event rest =>
      obtain ⟨next, taken, later⟩ := replay_takes writeMachine _ last event rest run
      have stays := always.2 next taken
      obtain ⟨offered, rfl⟩ := write_takes _ next event taken
      cases event with
      | epollout =>
          have once := call_ends r ready small mapped _ last rest (first_call_begins r ready two small) later stays
          rw [List.count_cons_self, List.count_eq_zero.mpr once]
      | accepted count => cases offered.1
      | eagain => cases offered
      | error => cases offered

theorem refused_at_once (r : Response) (ready : Sendable r) (some_left : r.announced ≠ 0) :
    ¬ Always writeMachine (Within r) (Transmission.start r) [.epollout, .eagain, .epollout] := by
  intro always
  have size : writeBufferSize = 1024 := rfl
  have nonempty := ready.nonempty
  have fits := ready.fits
  have entered := enter_takes (Transmission.start r) rfl
  rw [enter_writing r some_left] at entered
  have refused : Takes writeMachine ⟨r.recount, 0, [], .writing⟩ .eagain ⟨r.recount.park 0, 0, [], .waiting⟩ := ⟨rfl, rfl⟩
  have within := always_here _ _ _ _ (((always.2 _ entered).2 _ refused).2 _ (enter_takes _ rfl))
  have parked : r.recount.park 0 = { r with
      bytesToSend := r.announced, bytesHaveSend := 0,
      iv0 := ⟨toSize (r.writeBuf + r.announced), r.writeIdx⟩ } := by
    unfold Response.park Response.recount
    dsimp only
    rw [ready.header]
    exact if_neg (Nat.not_le.mpr nonempty)
  have same : (r.recount.park 0).announced = r.announced := by
    rw [announced_sum, announced_sum, parked, ready.header]
  have bounds := announced_bounds r
  rw [Transmission.enter_writes _ (by rw [same]; exact some_left)] at within
  have range := (within rfl).1
  rw [(recount_iovecs _).1, parked] at range
  generalize r.announced = shift at some_left bounds range
  dsimp only [RangeIn] at range
  rcases range with empty | ⟨above, below⟩
  · omega
  · have offset := to_size_offset r.writeBuf r.writeIdx _ shift bounds.1 bounds.2 (by omega) above below
    omega

end Parking

section Results

theorem write_exposes_iff (ret : HttpCode) (r : Response) (fits : r.writeIdx < writeBufferSize)
    (ready : (processWrite ret r).1 = true) (two : (processWrite ret r).2.ivCount = 2) :
    ((∀ events, Always writeMachine (Within (processWrite ret r).2) (Transmission.start (processWrite ret r).2) events) ↔
      2 ^ 32 ∣ 2 * (processWrite ret r).2.writeIdx + (processWrite ret r).2.fileSize) ∧
    (∀ events, events.count .epollout ≤ 1 →
      Always writeMachine (Within (processWrite ret r).2) (Transmission.start (processWrite ret r).2) events) ∧
    (2 * (processWrite ret r).2.writeIdx + (processWrite ret r).2.fileSize < 2 ^ 31 →
      ∀ events last, replay writeMachine (Transmission.start (processWrite ret r).2) events = some last →
        (Always writeMachine (Within (processWrite ret r).2) (Transmission.start (processWrite ret r).2) events ↔
          events.count .epollout ≤ 1)) := by
  have sendable := (process_write_sendable ret r fits ready).1
  generalize (processWrite ret r).2 = response at two sendable ⊢
  have mapped := (sendable_mapped response sendable two).1
  have zero : response.announced = 0 ↔ 2 ^ 32 ∣ 2 * response.writeIdx + response.fileSize := by
    rw [file_announced response sendable two, to_int_eq_zero]
    omega
  refine ⟨?_, fun events once => first_call_within response events sendable two once, fun small events last run => ?_⟩
  · rw [← zero]
    constructor
    · intro always
      by_contra some_left
      exact refused_at_once response sendable some_left (always _)
    · intro nothing events
      refine always_mono writeMachine _ _ ?_ _ _ (nothing_entered response nothing events)
      rintro t (rfl | ⟨_, phase⟩) writing
      · cases writing
      · cases phase.symm.trans writing
  · exact ⟨within_once response sendable two small mapped last events run,
      fun once => first_call_within response events sendable two once⟩

theorem write_exposes_two_bytes :
    ((∀ events, Always writeMachine (Within twoByteResponse) (Transmission.start twoByteResponse) events) ↔
      2 ^ 32 ∣ 2 * twoByteResponse.writeIdx + twoByteResponse.fileSize) ∧
    (∀ events, events.count .epollout ≤ 1 →
      Always writeMachine (Within twoByteResponse) (Transmission.start twoByteResponse) events) ∧
    (2 * twoByteResponse.writeIdx + twoByteResponse.fileSize < 2 ^ 31 →
      ∀ events last, replay writeMachine (Transmission.start twoByteResponse) events = some last →
        (Always writeMachine (Within twoByteResponse) (Transmission.start twoByteResponse) events ↔ events.count .epollout ≤ 1)) :=
  write_exposes_iff .fileRequest twoByteFile (by decide) (by decide) (by decide)

theorem header_range_lost : (processWrite .fileRequest twoByteFile).1 = true ∧ twoByteResponse.ivCount = 2 ∧
    ¬ Always writeMachine (Within twoByteResponse) (Transmission.start twoByteResponse) [.epollout, .eagain, .epollout] := by
  refine ⟨by decide, by decide, refused_at_once twoByteResponse ?_ (by decide +kernel)⟩
  exact (process_write_sendable .fileRequest twoByteFile (by decide) (by decide)).1

end Results

end WzyServer.Http
