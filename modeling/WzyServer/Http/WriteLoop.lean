import WzyServer.Http.Sendable

set_option autoImplicit false

namespace WzyServer.Http

open CString Word Run

section Socket

namespace Transmission

-- writev takes nothing of nothing, and otherwise something or EAGAIN; what it
-- returns is kept in the int `temp`.
def answers (t : Transmission) : WriteEvent → Prop
  | .epollout => t.phase = .waiting
  | .accepted count => t.phase = .writing ∧ count ≤ t.response.gather.length ∧ count < 2 ^ 31 ∧
      (0 < t.response.gather.length → 0 < count)
  | .eagain => t.phase = .writing ∧ 0 < t.response.gather.length
  | .error => False

def Loops : Transmission → List Nat → Prop
  | t, [] => t.phase = .writing
  | t, count :: rest => t.answers (.accepted count) ∧ Loops (t.accept count) rest

def Returns (t : Transmission) : Prop := ∃ bound, ∀ counts, t.Loops counts → counts.length ≤ bound

def Decreases (t : Transmission) (event : WriteEvent) : Prop :=
  ∀ count, event = .accepted count → (t.accept count).phase = .writing →
    (t.accept count).response.bytesToSend < t.response.bytesToSend

end Transmission

def socketMachine : Machine Transmission WriteEvent Empty where
  guard := Transmission.answers
  effect := fun t event => .ok (t.step event)

theorem socket_takes (t next : Transmission) (event : WriteEvent) (taken : Takes socketMachine t event next) :
    t.answers event ∧ next = t.step event :=
  ⟨taken.1, (Except.ok.inj taken.2).symm⟩

theorem loops_measured (inv : Transmission → Prop) (measure : Transmission → Nat)
    (round : ∀ t count, inv t → t.answers (.accepted count) → (t.accept count).phase = .writing →
      inv (t.accept count) ∧ measure (t.accept count) < measure t)
    (t : Transmission) (counts : List Nat) (start : inv t) (loops : t.Loops counts) : counts.length ≤ measure t := by
  induction counts generalizing t with
  | nil => exact Nat.zero_le _
  | cons count rest ih =>
      obtain ⟨answered, later⟩ := loops
      have still : (t.accept count).phase = .writing := by
        cases rest with
        | nil => exact later
        | cons next more => exact later.1.1
      obtain ⟨kept, smaller⟩ := round t count start answered still
      have bound := ih _ kept later
      rw [List.length_cons]
      omega

theorem returns_elsewhere (t : Transmission) (outside : t.phase ≠ .writing) : t.Returns := by
  refine ⟨0, fun counts loops => ?_⟩
  cases counts with
  | nil => exact absurd loops outside
  | cons count rest => exact absurd loops.1.1 outside

-- Nothing is left to hand over and something left to send: writev answers 0 for ever.
theorem stuck_loops (t : Transmission) (writing : t.phase = .writing) (empty : t.response.gather.length = 0)
    (left : 0 < t.response.bytesToSend) (small : t.response.bytesToSend < 2 ^ 31) (rounds : Nat) :
    t.Loops (List.replicate rounds 0) := by
  induction rounds generalizing t with
  | zero => exact writing
  | succ rounds ih =>
      have same : toInt (t.response.bytesToSend - (0 : Nat)) = t.response.bytesToSend := by
        simpa using to_int_small t.response.bytesToSend (by omega) small
      obtain ⟨newadd, accepted, continues⟩ := t.accept_continues 0 (by rw [same]; exact left)
      refine ⟨⟨writing, Nat.zero_le _, by decide, fun some => by omega⟩, ?_⟩
      rw [continues, same]
      exact ih _ rfl empty left small

theorem stuck_never_returns (t : Transmission) (writing : t.phase = .writing) (empty : t.response.gather.length = 0)
    (left : 0 < t.response.bytesToSend) (small : t.response.bytesToSend < 2 ^ 31) : ¬ t.Returns := by
  rintro ⟨bound, finite⟩
  have longer := finite _ (stuck_loops t writing empty left small (bound + 1))
  rw [List.length_replicate] at longer
  omega

end Socket

section TwoIovecs

structure Fed (t : Transmission) : Prop where
  two : t.response.ivCount = 2
  some : 0 < t.response.iv0.len + t.response.iv1.len
  left : t.phase = .writing → t.response.bytesToSend ≠ 0
  fits : t.phase = .writing → -2 ^ 31 ≤ t.response.bytesToSend ∧ t.response.bytesToSend < 2 ^ 31

def Open (t : Transmission) : Prop := t.phase = .waiting ∨ t.phase = .writing

theorem open_step (inv : Transmission → Prop) (t next : Transmission) (event : WriteEvent)
    (enter : inv t → Open t.enter → inv t.enter)
    (accept : ∀ count, inv t → t.answers (.accepted count) → (t.accept count).phase = .writing → inv (t.accept count))
    (park : inv t → t.phase = .writing → inv (t.step .eagain))
    (kept : Open t → inv t) (taken : Takes socketMachine t event next) : Open next → inv next := by
  intro still
  obtain ⟨offered, rfl⟩ := socket_takes t next event taken
  cases event with
  | epollout => exact enter (kept (.inl offered)) still
  | accepted count =>
      have writing : (t.accept count).phase = .writing := by
        rcases accept_gather t count with sent | both
        · rcases still with still | still <;> cases sent.symm.trans still
        · exact both.1
      exact accept count (kept (.inr offered.1)) offered writing
  | eagain => exact park (kept (.inr offered.1)) offered.1
  | error => cases offered

theorem enter_fed (t : Transmission) (fed : Fed t) (still : Open t.enter) : Fed t.enter := by
  by_cases nothing : t.response.announced = 0
  · rw [t.enter_ends nothing] at still
    rcases still with still | still <;> cases still
  · obtain ⟨header, file, count⟩ := recount_iovecs t.response
    have sum := recount_bytes t.response
    rw [t.enter_writes nothing]
    refine ⟨count.trans fed.two, ?_, fun _ => ?_, fun _ => ?_⟩
    · change 0 < t.response.recount.iv0.len + t.response.recount.iv1.len
      rw [header, file]
      exact fed.some
    · change t.response.recount.bytesToSend ≠ 0
      rwa [sum]
    · change -2 ^ 31 ≤ t.response.recount.bytesToSend ∧ t.response.recount.bytesToSend < 2 ^ 31
      rw [sum]
      exact announced_bounds t.response

theorem accept_fed (t : Transmission) (count : Nat) (fed : Fed t) (still : (t.accept count).phase = .writing) :
    Fed (t.accept count) := by
  have left := t.accept_writing count still
  obtain ⟨newadd, accepted, continues⟩ := t.accept_continues count left
  rw [continues]
  exact ⟨fed.two, fed.some, fun _ => Int.ne_of_gt left, fun _ => to_int_bounds _⟩

theorem to_size_nonzero (value : Int) (nonzero : value ≠ 0) (lower : -2 ^ 31 ≤ value) (upper : value < 2 ^ 31) :
    0 < toSize value := by
  unfold toSize
  omega

theorem park_fed (t : Transmission) (fed : Fed t) (writing : t.phase = .writing) : Fed (t.step .eagain) := by
  obtain ⟨two, some, left, fits⟩ := fed
  have size := to_size_nonzero _ (left writing) (fits writing).1 (fits writing).2
  change Fed ⟨t.response.park t.newadd, t.newadd, t.accepted, .waiting⟩
  by_cases whole : t.response.iv0.len ≤ toSize t.response.bytesHaveSend
  · rw [park_file _ _ whole]
    exact ⟨two, Nat.lt_of_lt_of_le size (Nat.le_add_left _ _), fun same => (by cases same), fun same => (by cases same)⟩
  · rw [park_header _ _ whole]
    exact ⟨two, Nat.lt_of_lt_of_le (Nat.sub_pos_of_lt (Nat.not_le.mp whole)) (Nat.le_add_right _ _),
      fun same => (by cases same), fun same => (by cases same)⟩

theorem fed_kept (t next : Transmission) (event : WriteEvent) (fed : Open t → Fed t) (taken : Takes socketMachine t event next) :
    Open next → Fed next :=
  open_step Fed t next event (enter_fed t) (fun count here _ writing => accept_fed t count here writing) (park_fed t) fed taken

-- Entered with a negative bytes_to_send, the first round may wrap it round; from then on it falls.
theorem fed_returns (t : Transmission) (fed : Open t → Fed t) : t.Returns := by
  by_cases writing : t.phase = .writing
  · let measure (s : Transmission) : Nat := if 0 < s.response.bytesToSend then s.response.bytesToSend.toNat else 2 ^ 31
    refine ⟨measure t, fun counts loops => loops_measured (fun s => s.phase = .writing ∧ Fed s) measure ?_ t counts
      ⟨writing, fed (.inr writing)⟩ loops⟩
    rintro s count ⟨_, sFed⟩ answered still
    refine ⟨⟨still, accept_fed s count sFed still⟩, ?_⟩
    obtain ⟨_, _, small, progress⟩ := answered
    have more := progress (by rw [gather_two _ sFed.two]; exact sFed.some)
    have left := s.accept_writing count still
    obtain ⟨newadd, accepted, continues⟩ := s.accept_continues count left
    have bound := to_int_bounds (s.response.bytesToSend - count)
    simp only [measure, continues, if_pos left]
    split
    · rename_i positive
      have upper := (sFed.fits (by assumption)).2
      rw [to_int_small _ (by omega) (by omega)]
      omega
    · omega
  · exact returns_elsewhere t writing

end TwoIovecs

section OneIovec

-- bytes_to_send past the header, with what an earlier response left in m_iv[1].
def Response.stale (r : Response) : Int := toInt (r.writeIdx + toInt r.iv1.len)

structure Held (r : Response) (t : Transmission) : Prop where
  one : t.response.ivCount = 1
  stale : t.response.stale = r.stale
  some : 0 < t.response.iv0.len
  short : t.response.iv0.len < writeBufferSize
  call : t.phase = .writing → 0 ≤ t.response.bytesHaveSend ∧ t.response.bytesHaveSend < t.response.iv0.len ∧
    t.response.bytesToSend = r.stale + t.response.iv0.len - t.response.bytesHaveSend
  left : t.phase = .writing → 0 < t.response.bytesHaveSend → 0 < t.response.bytesToSend

theorem announced_stale (r : Response) : r.announced = toInt (r.stale + r.iv0.len) := by
  rw [announced_sum, Response.stale, to_int_add_left, Int.add_right_comm]

theorem enter_held (r : Response) (t : Transmission) (done : r.stale ≤ 0) (held : Held r t) (still : Open t.enter) :
    Held r t.enter := by
  by_cases nothing : t.response.announced = 0
  · rw [t.enter_ends nothing] at still
    rcases still with still | still <;> cases still
  · obtain ⟨header, file, count⟩ := recount_iovecs t.response
    obtain ⟨index, sent⟩ := recount_buffers t.response
    have sum := recount_bytes t.response
    have lower := (to_int_bounds (r.writeIdx + toInt r.iv1.len)).1
    have short := held.short
    have size : writeBufferSize = 1024 := rfl
    rw [← Response.stale] at lower
    rw [announced_stale, held.stale, to_int_small _ (by omega) (by omega)] at sum
    rw [t.enter_writes nothing]
    generalize t.response.recount = next at header file count index sent sum
    refine ⟨count.trans held.one, ?_, ?_, ?_, fun _ => ⟨?_, ?_, ?_⟩, fun _ more => ?_⟩
    · rw [← held.stale, Response.stale, Response.stale, index, file]
    · exact header ▸ held.some
    · exact header ▸ held.short
    · exact Int.le_of_eq sent.symm
    · have some := held.some
      simp only [sent, header]
      omega
    · simp only [sum, sent, header]
      omega
    · simp only [sent] at more
      omega

theorem accept_held (r : Response) (t : Transmission) (count : Nat) (done : r.stale ≤ 0) (held : Held r t)
    (writing : t.phase = .writing) (fits : count ≤ t.response.gather.length) (still : (t.accept count).phase = .writing) :
    Held r (t.accept count) ∧ (t.accept count).response.iv0.len = t.response.iv0.len ∧
      (t.accept count).response.bytesHaveSend = t.response.bytesHaveSend + count ∧
      (t.accept count).response.bytesToSend = t.response.bytesToSend - count := by
  have left := t.accept_writing count still
  obtain ⟨newadd, accepted, continues⟩ := t.accept_continues count left
  obtain ⟨one, stale, some, short, call, more⟩ := held
  obtain ⟨sent, part, sum⟩ := call writing
  have lower := (to_int_bounds (r.writeIdx + toInt r.iv1.len)).1
  have size : writeBufferSize = 1024 := rfl
  have begun := more writing
  rw [← Response.stale] at lower
  rw [gather_one _ one] at fits
  rw [to_int_small (t.response.bytesToSend - count) (by omega) (by omega)] at left continues
  rw [to_int_small (t.response.bytesHaveSend + count) (by omega) (by omega)] at continues
  rw [continues]
  refine ⟨⟨one, stale, some, short, fun _ => ⟨?_, ?_, ?_⟩, fun _ _ => left⟩, rfl, rfl, rfl⟩
  · dsimp only
    omega
  · dsimp only
    omega
  · dsimp only
    omega

theorem park_held (r : Response) (t : Transmission) (held : Held r t) (writing : t.phase = .writing) : Held r (t.step .eagain) := by
  obtain ⟨one, stale, some, short, call, more⟩ := held
  obtain ⟨sent, part, sum⟩ := call writing
  have size : writeBufferSize = 1024 := rfl
  have have_ := to_size_small t.response.bytesHaveSend sent (by omega)
  change Held r ⟨t.response.park t.newadd, t.newadd, t.accepted, .waiting⟩
  rw [park_header _ _ (by omega)]
  refine ⟨one, stale, ?_, ?_, fun same => (by cases same), fun same => (by cases same)⟩
  · dsimp only
    omega
  · dsimp only
    omega

theorem held_kept (r : Response) (done : r.stale ≤ 0) (t next : Transmission) (event : WriteEvent) (held : Open t → Held r t)
    (taken : Takes socketMachine t event next) : Open next → Held r next :=
  open_step (Held r) t next event (enter_held r t done)
    (fun count here offered writing => (accept_held r t count done here offered.1 offered.2.1 writing).1) (park_held r t) held taken

theorem held_returns (r : Response) (t : Transmission) (done : r.stale ≤ 0) (held : Open t → Held r t) : t.Returns := by
  by_cases writing : t.phase = .writing
  · let measure (s : Transmission) : Nat := (s.response.iv0.len - s.response.bytesHaveSend).toNat
    refine ⟨measure t, fun counts loops => loops_measured (fun s => s.phase = .writing ∧ Held r s) measure ?_ t counts
      ⟨writing, held (.inr writing)⟩ loops⟩
    rintro s count ⟨sWriting, sHeld⟩ ⟨_, fits, _, progress⟩ still
    obtain ⟨kept, header, sent, _⟩ := accept_held r s count done sHeld sWriting fits still
    have some := sHeld.some
    have more := progress (by rw [gather_one _ sHeld.one]; exact some)
    have part := (sHeld.call sWriting).2.1
    refine ⟨⟨still, kept⟩, ?_⟩
    simp only [measure, header, sent]
    omega
  · exact returns_elsewhere t writing

theorem held_decreases (r : Response) (t : Transmission) (event : WriteEvent) (done : r.stale ≤ 0) (held : Open t → Held r t)
    (offered : t.answers event) : t.Decreases event := by
  rintro count rfl still
  obtain ⟨writing, fits, _, progress⟩ := offered
  have here := held (.inr writing)
  have more := progress (by rw [gather_one _ here.one]; exact here.some)
  rw [(accept_held r t count done here writing fits still).2.2.2]
  omega

end OneIovec

section Runs

instance (t : Transmission) (event : WriteEvent) : Decidable (socketMachine.guard t event) :=
  match event with
  | .epollout => inferInstanceAs (Decidable (t.phase = .waiting))
  | .accepted count => inferInstanceAs (Decidable (t.phase = .writing ∧ count ≤ t.response.gather.length ∧ count < 2 ^ 31 ∧
      (0 < t.response.gather.length → 0 < count)))
  | .eagain => inferInstanceAs (Decidable (t.phase = .writing ∧ 0 < t.response.gather.length))
  | .error => inferInstanceAs (Decidable False)

theorem socket_replay (t : Transmission) (event : WriteEvent) (rest : List WriteEvent) (offered : t.answers event) :
    replay socketMachine t (event :: rest) = replay socketMachine (t.step event) rest :=
  replay_cons socketMachine t (t.step event) event rest offered rfl

structure Advanced (t u : Transmission) (left : Int) (count : Nat) : Prop where
  writing : u.phase = .writing
  ivCount : u.response.ivCount = t.response.ivCount
  header : u.response.iv0 = t.response.iv0
  index : u.response.writeIdx = t.response.writeIdx
  left : u.response.bytesToSend = left
  sent : u.response.bytesHaveSend = toInt (t.response.bytesHaveSend + count)

theorem header_taken (t : Transmission) (count : Nat) (left : Int) (writing : t.phase = .writing) (positive : 0 < count)
    (fits : count ≤ t.response.gather.length) (short : count < writeBufferSize)
    (sum : t.response.bytesToSend = toInt (left + count)) (some : 0 < left) (small : left < 2 ^ 31) :
    ∃ u, (∀ rest, replay socketMachine t (.accepted count :: rest) = replay socketMachine u rest) ∧ Advanced t u left count := by
  have size : writeBufferSize = 1024 := rfl
  have rest : toInt (t.response.bytesToSend - count) = left := by
    rw [sum, Int.sub_eq_add_neg, to_int_add_left, Int.add_neg_cancel_right]
    exact to_int_small left (by omega) small
  obtain ⟨newadd, accepted, continues⟩ := t.accept_continues count (by rw [rest]; exact some)
  rw [rest] at continues
  refine ⟨t.accept count, fun rest => socket_replay t _ rest ⟨writing, fits, by omega, fun _ => positive⟩, ?_⟩
  rw [continues]
  exact ⟨rfl, rfl, rfl, rfl, rfl, rfl⟩

-- EAGAIN behind the header: the first iovec is emptied, and the second gets all of bytes_to_send.
theorem refused_behind_header (t : Transmission) (whole : t.response.iv0.len ≤ toSize t.response.bytesHaveSend)
    (left : 0 ≤ t.response.bytesToSend) (small : t.response.bytesToSend < 2 ^ 31) :
    ∃ p, t.step .eagain = ⟨p, t.newadd, t.accepted, .waiting⟩ ∧ p.ivCount = t.response.ivCount ∧
      p.writeIdx = t.response.writeIdx ∧ p.iv0.len = 0 ∧ (p.iv1.len : Int) = t.response.bytesToSend := by
  have parked := park_file t.response t.newadd whole
  have full := to_size_small t.response.bytesToSend left (by omega)
  refine ⟨t.response.park t.newadd, rfl, ?_, ?_, ?_, ?_⟩ <;> rw [parked]
  exact full

theorem parked_stuck (t : Transmission) (writing : t.phase = .writing) (one : t.response.ivCount = 1)
    (header : 0 < t.response.iv0.len) (whole : t.response.iv0.len ≤ toSize t.response.bytesHaveSend)
    (left : 0 < t.response.bytesToSend) (small : t.response.writeIdx + t.response.bytesToSend < 2 ^ 31) :
    ∃ u, replay socketMachine t [.eagain, .epollout] = some u ∧ u.phase = .writing ∧ u.response.gather.length = 0 ∧
      0 < u.response.bytesToSend ∧ u.response.bytesToSend < 2 ^ 31 := by
  obtain ⟨p, stepped, count, index, empty, full⟩ := refused_behind_header t whole (by omega) (by omega)
  have positive : 0 < t.response.writeIdx + t.response.bytesToSend := by omega
  have announced : p.announced = t.response.writeIdx + t.response.bytesToSend := by
    rw [announced_sum, index, empty, full, to_int_small t.response.bytesToSend (by omega) (by omega), Int.natCast_zero, Int.add_zero]
    exact to_int_small _ (by omega) small
  have entered := Transmission.enter_writes ⟨p, t.newadd, t.accepted, .waiting⟩ (by rw [announced]; exact Int.ne_of_gt positive)
  obtain ⟨headerSame, fileSame, countSame⟩ := recount_iovecs p
  have sum := recount_bytes p
  rw [announced] at sum
  refine ⟨⟨p.recount, 0, t.accepted, .writing⟩, ?_, rfl, ?_, ?_, ?_⟩
  · have again : Transmission.answers ⟨p, t.newadd, t.accepted, .waiting⟩ .epollout := rfl
    rw [socket_replay t .eagain _ ⟨writing, by rwa [gather_one _ one]⟩, stepped, socket_replay _ .epollout _ again]
    exact congrArg Option.some entered
  · change p.recount.gather.length = 0
    rw [gather_one _ (countSame.trans (count.trans one)), headerSame, empty]
  · change 0 < p.recount.bytesToSend
    rw [sum]
    exact positive
  · change p.recount.bytesToSend < 2 ^ 31
    rw [sum]
    exact small

theorem header_counts (index : Nat) (fits : index < writeBufferSize) :
    toInt (0 + index) = index ∧ index ≤ toSize index ∧ toInt ((index : Int) + index) = index + index ∧
      index ≤ toSize ((index : Int) + index) := by
  have size : writeBufferSize = 1024 := rfl
  refine ⟨?_, ?_, ?_, ?_⟩
  · rw [Int.zero_add]
    exact to_int_small index (by omega) (by omega)
  · have same := to_size_small index (by omega) (by omega)
    omega
  · exact to_int_small _ (by omega) (by omega)
  · have same := to_size_small ((index : Int) + index) (by omega) (by omega)
    omega

structure Entered (r : Response) (q : Response) : Prop where
  begun : ∀ rest, replay socketMachine (Transmission.start r) (.epollout :: rest) =
    replay socketMachine ⟨q, 0, [], .writing⟩ rest
  ivCount : q.ivCount = r.ivCount
  header : q.iv0.len = r.writeIdx
  index : q.writeIdx = r.writeIdx
  file : q.iv1 = r.iv1
  sum : q.bytesToSend = toInt (r.stale + r.writeIdx)
  sent : q.bytesHaveSend = 0

theorem response_entered (r : Response) (ready : Sendable r) (nonzero : r.announced ≠ 0) : Entered r r.recount := by
  have length : r.iv0.len = r.writeIdx := by rw [ready.header]
  have announced := announced_stale r
  rw [length] at announced
  obtain ⟨header, file, count⟩ := recount_iovecs r
  obtain ⟨index, sent⟩ := recount_buffers r
  refine ⟨fun rest => ?_, count, ?_, index, file, (recount_bytes r).trans announced, sent⟩
  · rw [← enter_writing r nonzero]
    exact socket_replay _ .epollout rest rfl
  · rw [header, length]

theorem one_stuck (r : Response) (ready : Sendable r) (one : r.ivCount = 1) (left : 0 < r.stale) :
    ∃ events u, replay socketMachine (Transmission.start r) events = some u ∧ u.phase = .writing ∧
      u.response.gather.length = 0 ∧ 0 < u.response.bytesToSend ∧ u.response.bytesToSend < 2 ^ 31 := by
  have size : writeBufferSize = 1024 := rfl
  have nonempty := ready.nonempty
  have fits := ready.fits
  have upper : r.stale < 2 ^ 31 := (to_int_bounds _).2
  have nonzero : r.announced ≠ 0 := by
    rw [announced_stale, ready.header, Ne, to_int_eq_zero]
    dsimp only
    omega
  obtain ⟨begun, count, header, index, _, sum, sent⟩ := response_entered r ready nonzero
  generalize r.recount = q at begun count header index sum sent
  generalize r.stale = stale at left upper sum
  clear nonzero
  have qOne := count.trans one
  obtain ⟨t, second, round⟩ := header_taken ⟨q, 0, [], .writing⟩ r.writeIdx stale rfl nonempty
    (by rw [gather_one _ qOne, header]) fits sum left upper
  obtain ⟨sentOnce, onceSize, sentTwice, twiceSize⟩ := header_counts r.writeIdx fits
  obtain ⟨writing, tCount, tHeader, tIndex, tLeft, tSent⟩ := round
  dsimp only at tCount tHeader tIndex tSent
  rw [sent, sentOnce] at tSent
  clear sum sent sentOnce
  have tLength : t.response.iv0.len = r.writeIdx := by rw [tHeader, header]
  by_cases near : r.writeIdx + stale < 2 ^ 31
  · obtain ⟨u, run, stuck⟩ := parked_stuck t writing (tCount.trans qOne) (by rwa [tLength]) (by rwa [tLength, tSent])
      (by rwa [tLeft]) (by rwa [tIndex, index, tLeft])
    exact ⟨_, u, (begun _).trans ((second _).trans run), stuck⟩
  · obtain ⟨u, third, again⟩ := header_taken t r.writeIdx (stale - r.writeIdx) writing nonempty
      (by rw [gather_one _ (tCount.trans qOne), tLength]) fits
      (by rw [tLeft, Int.sub_add_cancel]; exact (to_int_small stale (by omega) upper).symm) (by omega) (by omega)
    obtain ⟨writingU, uCount, uHeader, uIndex, uLeft, uSent⟩ := again
    rw [tSent, sentTwice] at uSent
    have uLength : u.response.iv0.len = r.writeIdx := by rw [uHeader, tLength]
    obtain ⟨v, run, stuck⟩ := parked_stuck u writingU (uCount.trans (tCount.trans qOne)) (by rwa [uLength])
      (by rwa [uLength, uSent]) (by rw [uLeft]; omega) (by rw [uIndex, tIndex, index, uLeft]; omega)
    exact ⟨_, v, (begun _).trans ((second _).trans ((third _).trans run)), stuck⟩

-- bytes_to_send past the end of int: the sum of the lengths comes out negative, and the
-- next subtraction brings it back.
theorem overflow_increases (t : Transmission) (count long : Nat) (sum : t.response.bytesToSend = toInt (count + long))
    (positive : 0 < long) (fits : long < 2 ^ 31) (short : count < writeBufferSize) (wraps : 2 ^ 31 ≤ count + long) :
    ¬ t.Decreases (.accepted count) := by
  intro decreases
  have size : writeBufferSize = 1024 := rfl
  have wrapped : t.response.bytesToSend = count + long - 2 ^ 32 := by
    rw [sum, toInt, Int.bmod]
    omega
  have rest : toInt (t.response.bytesToSend - count) = long := by
    rw [sum, Int.sub_eq_add_neg, to_int_add_left, Int.add_comm (count : Int), Int.add_neg_cancel_right]
    exact to_int_small long (by omega) (by omega)
  obtain ⟨newadd, accepted, continues⟩ := t.accept_continues count (by rw [rest]; omega)
  have smaller := decreases count rfl (by rw [continues])
  rw [continues, rest, wrapped] at smaller
  dsimp only at smaller
  omega

-- With an empty header iovec each EAGAIN makes the second iovec longer by m_write_idx,
-- until bytes_to_send overflows.
theorem parked_overflows (index : Nat) (nonempty : 0 < index) (short : index < writeBufferSize) (t : Transmission)
    (waiting : t.phase = .waiting) (two : t.response.ivCount = 2) (indexed : t.response.writeIdx = index)
    (empty : t.response.iv0.len = 0) (long : index ≤ t.response.iv1.len) (fits : t.response.iv1.len < 2 ^ 31) :
    ∃ events u, replay socketMachine t events = some u ∧ u.answers (.accepted index) ∧ ¬ u.Decreases (.accepted index) := by
  generalize room : 2 ^ 31 - t.response.iv1.len = count
  induction count using Nat.strong_induction_on generalizing t with
  | _ count ih =>
      have size : writeBufferSize = 1024 := rfl
      have announced : t.response.announced = toInt (index + t.response.iv1.len) := by
        rw [announced_sum, indexed, empty, to_int_small t.response.iv1.len (by omega) (by omega), Int.natCast_zero, Int.add_zero]
      have nonzero : t.response.announced ≠ 0 := by
        rw [announced, Ne, to_int_eq_zero]
        omega
      obtain ⟨headerSame, fileSame, countSame⟩ := recount_iovecs t.response
      obtain ⟨indexSame, sent⟩ := recount_buffers t.response
      have sum := (recount_bytes t.response).trans announced
      have begun : ∀ rest, replay socketMachine t (.epollout :: rest) =
          replay socketMachine ⟨t.response.recount, 0, t.accepted, .writing⟩ rest := by
        intro rest
        rw [← t.enter_writes nonzero]
        exact socket_replay t .epollout rest waiting
      clear announced nonzero
      generalize t.response.recount = q at headerSame fileSame countSame indexSame sent sum begun
      have qTwo := countSame.trans two
      have given : q.gather.length = t.response.iv1.len := by
        rw [gather_two _ qTwo, headerSame, fileSame, empty, Nat.zero_add]
      generalize t.response.iv1.len = length at long fits room sum given
      by_cases wraps : 2 ^ 31 ≤ index + length
      · refine ⟨[.epollout], _, begun [], ⟨rfl, by rwa [given], by omega, fun _ => nonempty⟩, ?_⟩
        exact overflow_increases _ index length sum (by omega) fits short wraps
      · rw [to_int_small _ (by omega) (by omega)] at sum
        obtain ⟨p, refused, pCount, pIndex, pEmpty, pLength⟩ := refused_behind_header ⟨q, 0, t.accepted, .writing⟩
          (by dsimp only; rw [headerSame, empty]; exact Nat.zero_le _) (by dsimp only; omega) (by dsimp only; omega)
        dsimp only at pLength
        rw [sum] at pLength
        obtain ⟨events, u, run, worse⟩ := ih (2 ^ 31 - p.iv1.len) (by omega) ⟨p, 0, t.accepted, .waiting⟩ rfl (pCount.trans qTwo)
          (pIndex.trans (indexSame.trans indexed)) pEmpty (by dsimp only; omega) (by dsimp only; omega) rfl
        refine ⟨.epollout :: .eagain :: events, u, ?_, worse⟩
        rw [begun, socket_replay _ .eagain events ⟨rfl, by rw [given]; omega⟩, refused]
        exact run

theorem two_overflows (r : Response) (ready : Sendable r) (two : r.ivCount = 2) (small : r.fileSize < 2 ^ 30) :
    ∃ events u, replay socketMachine (Transmission.start r) events = some u ∧ u.answers (.accepted r.writeIdx) ∧
      ¬ u.Decreases (.accepted r.writeIdx) := by
  have size : writeBufferSize = 1024 := rfl
  have nonempty := ready.nonempty
  have fits := ready.fits
  have mapped := (sendable_mapped r ready two).1
  have stale : r.stale = r.writeIdx + r.fileSize := by
    rw [Response.stale, mapped, to_int_add_right]
    dsimp only
    exact to_int_small _ (by omega) (by omega)
  have nonzero : r.announced ≠ 0 := by
    rw [announced_stale, stale, ready.header, Ne, to_int_eq_zero]
    dsimp only
    omega
  obtain ⟨begun, count, header, index, file, sum, sent⟩ := response_entered r ready nonzero
  generalize r.recount = q at begun count header index file sum sent
  rw [stale] at sum
  clear nonzero stale
  have qTwo := count.trans two
  obtain ⟨t, second, round⟩ := header_taken ⟨q, 0, [], .writing⟩ r.writeIdx (r.writeIdx + r.fileSize) rfl nonempty
    (by rw [gather_two _ qTwo, header]; exact Nat.le_add_right _ _) fits sum (by omega) (by omega)
  obtain ⟨sentOnce, onceSize, _, _⟩ := header_counts r.writeIdx fits
  obtain ⟨writing, tCount, tHeader, tIndex, tLeft, tSent⟩ := round
  dsimp only at tCount tHeader tIndex tSent
  rw [sent, sentOnce] at tSent
  clear sum sent sentOnce
  have tLength : t.response.iv0.len = r.writeIdx := by rw [tHeader, header]
  obtain ⟨p, refused, pCount, pIndex, pEmpty, pLength⟩ := refused_behind_header t (by rwa [tLength, tSent])
    (by rw [tLeft]; omega) (by rw [tLeft]; omega)
  rw [tLeft] at pLength
  obtain ⟨events, u, run, worse⟩ := parked_overflows r.writeIdx nonempty fits ⟨p, t.newadd, t.accepted, .waiting⟩ rfl
    (pCount.trans (tCount.trans qTwo)) (pIndex.trans (tIndex.trans index)) pEmpty (by dsimp only; omega) (by dsimp only; omega)
  have given : 0 < t.response.gather.length := by
    rw [gather_two _ (tCount.trans qTwo), tLength]
    omega
  refine ⟨_, u, (begun (.accepted r.writeIdx :: .eagain :: events)).trans ((second _).trans ?_), worse⟩
  rw [socket_replay t .eagain events ⟨writing, given⟩, refused]
  exact run

end Runs

section Results

theorem start_fed (r : Response) (ready : Sendable r) (two : r.ivCount = 2) : Fed (Transmission.start r) := by
  refine ⟨two, ?_, fun same => (by cases same), fun same => (by cases same)⟩
  change 0 < r.iv0.len + r.iv1.len
  rw [ready.header]
  exact Nat.lt_of_lt_of_le ready.nonempty (Nat.le_add_right _ _)

theorem start_held (r : Response) (ready : Sendable r) (one : r.ivCount = 1) : Held r (Transmission.start r) := by
  refine ⟨one, rfl, ?_, ?_, fun same => (by cases same), fun same => (by cases same)⟩
  · change 0 < r.iv0.len
    rw [ready.header]
    exact ready.nonempty
  · change r.iv0.len < writeBufferSize
    rw [ready.header]
    exact ready.fits

theorem returns_iff (r : Response) (ready : Sendable r) :
    (∀ events, Always socketMachine Transmission.Returns (Transmission.start r) events) ↔ r.ivCount = 2 ∨ r.stale ≤ 0 := by
  constructor
  · intro always
    rcases ready.file with one | ⟨two, _⟩
    · right
      by_contra left
      obtain ⟨events, u, run, writing, empty, some, small⟩ := one_stuck r ready one (by omega)
      exact stuck_never_returns u writing empty some small (always_replay socketMachine _ _ u events run (always events))
    · exact .inl two
  · intro condition events
    by_cases two : r.ivCount = 2
    · exact always_mono socketMachine _ _ fed_returns _ _ (always_invariant socketMachine (fun t => Open t → Fed t)
        (fun t event next fed taken => fed_kept t next event fed taken) _ events fun _ => start_fed r ready two)
    · have one : r.ivCount = 1 := ready.file.resolve_right fun both => two both.1
      have done := condition.resolve_left two
      exact always_mono socketMachine _ _ (fun t held => held_returns r t done held) _ _ (always_invariant socketMachine
        (fun t => Open t → Held r t) (fun t event next held taken => held_kept r done t next event held taken) _ events
        fun _ => start_held r ready one)

theorem decreases_iff (r : Response) (ready : Sendable r) (small : r.ivCount = 2 → r.fileSize < 2 ^ 30) :
    (∀ events, Along socketMachine Transmission.Decreases (Transmission.start r) events) ↔ r.ivCount = 1 ∧ r.stale ≤ 0 := by
  constructor
  · intro along
    rcases ready.file with one | ⟨two, _⟩
    · refine ⟨one, ?_⟩
      by_contra left
      obtain ⟨events, u, run, writing, empty, some, below⟩ := one_stuck r ready one (by omega)
      have offered : u.answers (.accepted 0) := ⟨writing, Nat.zero_le _, by decide, fun given => by omega⟩
      have falls := along_replay socketMachine _ _ u events (.accepted 0) run offered (along _)
      have same : toInt (u.response.bytesToSend - (0 : Nat)) = u.response.bytesToSend := by
        simpa using to_int_small u.response.bytesToSend (by omega) below
      obtain ⟨newadd, accepted, continues⟩ := u.accept_continues 0 (by rw [same]; exact some)
      have smaller := falls 0 rfl (by rw [continues])
      rw [continues, same] at smaller
      exact Int.lt_irrefl _ smaller
    · obtain ⟨events, u, run, offered, worse⟩ := two_overflows r ready two (small two)
      exact absurd (along_replay socketMachine _ _ u events (.accepted r.writeIdx) run offered (along _)) worse
  · rintro ⟨one, done⟩ events
    exact along_of_invariant socketMachine _ (fun t => Open t → Held r t)
      (fun t event next held taken => held_kept r done t next event held taken)
      (fun t event held offered => held_decreases r t event done held offered) _ events fun _ => start_held r ready one

theorem write_returns_iff (ret : HttpCode) (r : Response) (fits : r.writeIdx < writeBufferSize) (small : r.fileSize < 2 ^ 30)
    (ready : (processWrite ret r).1 = true) :
    ((∀ events, Always socketMachine Transmission.Returns (Transmission.start (processWrite ret r).2) events) ↔
      (processWrite ret r).2.ivCount = 2 ∨ (processWrite ret r).2.stale ≤ 0) ∧
    ((∀ events, Along socketMachine Transmission.Decreases (Transmission.start (processWrite ret r).2) events) ↔
      (processWrite ret r).2.ivCount = 1 ∧ (processWrite ret r).2.stale ≤ 0) := by
  obtain ⟨sendable, size⟩ := process_write_sendable ret r fits ready
  exact ⟨returns_iff _ sendable, decreases_iff _ sendable fun two => by rw [size two]; exact small⟩

def forbiddenPage : Response := (processWrite .forbiddenRequest twoByteFile).2

theorem write_returns_forbidden :
    ((∀ events, Always socketMachine Transmission.Returns (Transmission.start forbiddenPage) events) ↔
      forbiddenPage.ivCount = 2 ∨ forbiddenPage.stale ≤ 0) ∧
    ((∀ events, Along socketMachine Transmission.Decreases (Transmission.start forbiddenPage) events) ↔
      forbiddenPage.ivCount = 1 ∧ forbiddenPage.stale ≤ 0) :=
  write_returns_iff .forbiddenRequest twoByteFile (by decide) (by decide) (by decide +kernel)

theorem forbidden_page_hangs : (processWrite .forbiddenRequest twoByteFile).1 = true ∧
    ¬ ∀ events, Always socketMachine Transmission.Returns (Transmission.start forbiddenPage) events := by
  refine ⟨by decide +kernel, fun always => ?_⟩
  have sendable := (process_write_sendable .forbiddenRequest twoByteFile (by decide) (by decide +kernel)).1
  have condition := (returns_iff forbiddenPage sendable).mp always
  exact absurd condition (by decide +kernel)

end Results

end WzyServer.Http
