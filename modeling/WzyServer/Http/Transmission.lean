import WzyServer.Base.Run
import WzyServer.Http.Response

set_option autoImplicit false

namespace WzyServer.Http

open CString Word Run

namespace Response

def gather (r : Response) : Text := ([r.iv0, r.iv1].take r.ivCount).flatMap fun iov => read r.memory iov.base iov.len

def whole (r : Response) : Text :=
  read r.memory r.writeBuf r.writeIdx ++ if r.ivCount = 2 then read r.memory r.fileAddress r.fileSize else []

-- bytes_to_send as each call of write computes it.
def announced (r : Response) : Int := toInt (toInt (r.writeIdx + toInt r.iv0.len) + toInt r.iv1.len)

def recount (r : Response) : Response := { r with bytesToSend := r.announced, bytesHaveSend := 0 }

def unmap (r : Response) : Response := { r with fileAddress := 0 }

def init (r : Response) : Response :=
  { r with linger := false, writeIdx := 0, memory := write r.memory r.writeBuf (List.replicate writeBufferSize 0) }

-- What EAGAIN makes of the iovecs. The tests and the lengths are size_t.
def park (r : Response) (newadd : Int) : Response :=
  if r.iv0.len ≤ toSize r.bytesHaveSend then
    { r with iv0 := { r.iv0 with len := 0 }, iv1 := ⟨toSize (r.fileAddress + newadd), toSize r.bytesToSend⟩ }
  else { r with iv0 := ⟨toSize (r.writeBuf + r.bytesToSend), r.iv0.len - toSize r.bytesHaveSend⟩ }

end Response

-- Where the connection stands: waiting for EPOLLOUT, in the loop of write, or out
-- of write by one of its other exits.
inductive Phase where
  | waiting | writing | nothingToSend | sent | failed
deriving DecidableEq, Repr

inductive WriteEvent where
  | epollout
  | accepted (count : Nat)
  | eagain
  | error
deriving DecidableEq, Repr

-- newadd is the local variable of write, `accepted` what the socket took so far.
structure Transmission where
  response : Response
  newadd : Int
  accepted : Text
  phase : Phase

-- The most bytes that one writev transfers.
def maxTransfer : Nat := 0x7ffff000

namespace Transmission

def start (r : Response) : Transmission := ⟨r, 0, [], .waiting⟩

def enter (t : Transmission) : Transmission :=
  let r := t.response.recount
  if r.bytesToSend = 0 then { t with response := r.init, phase := .nothingToSend }
  else { t with response := r, newadd := 0, phase := .writing }

def accept (t : Transmission) (count : Nat) : Transmission :=
  let r := { t.response with
    bytesToSend := toInt (t.response.bytesToSend - count), bytesHaveSend := toInt (t.response.bytesHaveSend + count) }
  let newadd := toInt (r.bytesHaveSend - r.writeIdx)
  let accepted := t.accepted ++ t.response.gather.take count
  if r.bytesToSend ≤ 0 then ⟨if r.linger then r.unmap.init else r.unmap, newadd, accepted, .sent⟩
  else ⟨r, newadd, accepted, .writing⟩

def step (t : Transmission) : WriteEvent → Transmission
  | .epollout => t.enter
  | .accepted count => t.accept count
  | .eagain => { t with response := t.response.park t.newadd, phase := .waiting }
  | .error => { t with response := t.response.unmap, phase := .failed }

def offers (t : Transmission) : WriteEvent → Prop
  | .epollout => t.phase = .waiting
  | .accepted count => t.phase = .writing ∧ count ≤ t.response.gather.length ∧ count ≤ maxTransfer
  | .eagain => t.phase = .writing
  | .error => t.phase = .writing

end Transmission

-- http_conn::write, called on every EPOLLOUT event, against a socket that takes
-- any part of what it is given.
def writeMachine : Machine Transmission WriteEvent Empty where
  guard := Transmission.offers
  effect := fun t event => .ok (t.step event)

instance (t : Transmission) (event : WriteEvent) : Decidable (writeMachine.guard t event) :=
  match event with
  | .epollout => inferInstanceAs (Decidable (t.phase = .waiting))
  | .accepted count => inferInstanceAs (Decidable (t.phase = .writing ∧ count ≤ t.response.gather.length ∧ count ≤ maxTransfer))
  | .eagain => inferInstanceAs (Decidable (t.phase = .writing))
  | .error => inferInstanceAs (Decidable (t.phase = .writing))

structure Exact (whole : Text) (t : Transmission) : Prop where
  begun : t.accepted <+: whole
  complete : t.phase = .sent → t.accepted = whole

theorem gather_prepared (r : Response) (prepared : Prepared r) : r.gather = r.whole := by
  unfold Response.gather Response.whole
  rw [prepared.header]
  rcases prepared.file with one | ⟨two, file⟩
  · simp [one]
  · simp [two, file]

theorem announced_zero_iff (r : Response) (prepared : Prepared r) :
    r.announced = 0 ↔ 2 ^ 32 ∣ 2 * r.writeIdx + r.iv1.len := by
  unfold Response.announced
  rw [prepared.header, to_int_add_left, to_int_add_right, Int.add_right_comm, to_int_add_right, to_int_eq_zero]
  dsimp only
  omega

theorem whole_begins (r : Response) (prepared : Prepared r) : ∃ rest, r.whole = 72 :: 84 :: rest := by
  obtain ⟨status, title, rest, index, bytes⟩ := prepared.line
  have first : ∃ line, statusLine status title = 72 :: 84 :: line := ⟨_, rfl⟩
  obtain ⟨line, same⟩ := first
  unfold Response.whole
  rw [index, bytes, same]
  exact ⟨_, rfl⟩

theorem recount_bytes (r : Response) : r.recount.bytesToSend = r.announced := by
  simp only [Response.recount]

theorem enter_writing (r : Response) (some_left : r.announced ≠ 0) :
    (Transmission.start r).enter = ⟨r.recount, 0, [], .writing⟩ := by
  unfold Transmission.enter Transmission.start
  dsimp only
  rw [recount_bytes, if_neg some_left]

theorem enter_nothing (r : Response) (nothing : r.announced = 0) :
    (Transmission.start r).enter = ⟨r.recount.init, 0, [], .nothingToSend⟩ := by
  unfold Transmission.enter Transmission.start
  dsimp only
  rw [recount_bytes, if_pos nothing]

theorem recount_gather (r : Response) : r.recount.gather = r.gather := by
  unfold Response.gather Response.recount
  rfl

theorem accept_accepted (t : Transmission) (count : Nat) :
    (t.accept count).accepted = t.accepted ++ t.response.gather.take count := by
  unfold Transmission.accept
  dsimp only
  split <;> rfl

theorem accept_gather (t : Transmission) (count : Nat) : (t.accept count).phase = .sent ∨
    ((t.accept count).phase = .writing ∧ (t.accept count).response.gather = t.response.gather) := by
  unfold Transmission.accept
  dsimp only
  split
  · exact .inl rfl
  · exact .inr ⟨rfl, rfl⟩

theorem enter_takes (t : Transmission) (waiting : t.phase = .waiting) : Takes writeMachine t .epollout t.enter := ⟨waiting, rfl⟩

theorem accept_takes (t : Transmission) (count : Nat) (writing : t.phase = .writing) (fits : count ≤ t.response.gather.length)
    (small : count ≤ maxTransfer) : Takes writeMachine t (.accepted count) (t.accept count) :=
  ⟨⟨writing, fits, small⟩, rfl⟩

theorem write_takes (t next : Transmission) (event : WriteEvent) (taken : Takes writeMachine t event next) :
    t.offers event ∧ next = t.step event :=
  ⟨taken.1, (Except.ok.inj taken.2).symm⟩

theorem byte_repeated (whole : Text) (t : Transmission) (writing : t.phase = .writing) (nothing : t.accepted = [])
    (gathered : t.response.gather = whole) (begins : ∃ rest, whole = 72 :: 84 :: rest) :
    ¬ Always writeMachine (Exact whole) t [.accepted 1, .accepted 1] := by
  intro always
  obtain ⟨rest, whole_eq⟩ := begins
  have enough : 1 ≤ t.response.gather.length := by simp [gathered, whole_eq]
  have first : (t.accept 1).accepted = [72] := by simp [accept_accepted, nothing, gathered, whole_eq]
  have afterOne := always.2 _ (accept_takes t 1 writing enough (by decide))
  rcases accept_gather t 1 with sent | ⟨still, same⟩
  · have complete := afterOne.1.complete sent
    rw [first, whole_eq] at complete
    cases complete
  · have again : ((t.accept 1).accept 1).accepted = [72, 72] := by
      simp [accept_accepted, nothing, gathered, whole_eq, same]
    have afterTwo := afterOne.2 _ (accept_takes _ 1 still (by rw [same]; exact enough) (by decide))
    have begun := (always_here _ _ _ _ afterTwo).begun
    rw [again, whole_eq] at begun
    simp at begun

theorem transmission_repeats (r : Response) (prepared : Prepared r) (some_left : r.announced ≠ 0) :
    ¬ Always writeMachine (Exact r.whole) (Transmission.start r) [.epollout, .accepted 1, .accepted 1] := by
  intro always
  have entered := enter_takes (Transmission.start r) rfl
  rw [enter_writing r some_left] at entered
  have gathered : r.recount.gather = r.whole := (recount_gather r).trans (gather_prepared r prepared)
  exact byte_repeated r.whole _ rfl rfl gathered (whole_begins r prepared) (always.2 _ entered)

theorem nothing_entered (r : Response) (nothing : r.announced = 0) (events : List WriteEvent) :
    Always writeMachine (fun t => t = Transmission.start r ∨ (t.accepted = [] ∧ t.phase = .nothingToSend))
      (Transmission.start r) events := by
  apply always_invariant
  · intro t event next inv taken
    obtain ⟨offered, rfl⟩ := write_takes t next event taken
    rcases inv with rfl | ⟨silent, phase⟩
    · cases event with
      | epollout =>
          rw [Transmission.step, enter_nothing r nothing]
          exact .inr ⟨rfl, rfl⟩
      | accepted count => cases offered.1
      | eagain => cases offered
      | error => cases offered
    · cases event with
      | epollout => cases phase.symm.trans offered
      | accepted count => cases phase.symm.trans offered.1
      | eagain => cases phase.symm.trans offered
      | error => cases phase.symm.trans offered
  · exact .inl rfl

theorem nothing_transmitted (r : Response) (nothing : r.announced = 0) (events : List WriteEvent) :
    Always writeMachine (Exact r.whole) (Transmission.start r) events := by
  refine always_mono writeMachine _ _ ?_ _ _ (nothing_entered r nothing events)
  rintro t (rfl | ⟨silent, phase⟩)
  · exact ⟨List.nil_prefix, fun sent => by cases sent⟩
  · refine ⟨by rw [silent]; exact List.nil_prefix, fun sent => ?_⟩
    rw [phase] at sent
    cases sent

theorem transmission_exact_iff (ret : HttpCode) (r : Response) (start : r.writeIdx = 0)
    (ready : (processWrite ret r).1 = true) :
    (∀ events, Always writeMachine (Exact (processWrite ret r).2.whole) (Transmission.start (processWrite ret r).2) events) ↔
      2 ^ 32 ∣ 2 * (processWrite ret r).2.writeIdx + (processWrite ret r).2.iv1.len := by
  have prepared := process_write_prepared ret r start ready
  rw [← announced_zero_iff _ prepared]
  constructor
  · intro exact_
    by_contra some_left
    exact transmission_repeats _ prepared some_left (exact_ _)
  · exact fun nothing events => nothing_transmitted _ nothing events

def twoByteFile : Response where
  memory := write (fun _ => 0) 8192 (ascii "hi")
  writeBuf := 4096
  writeIdx := 0
  linger := true
  fileAddress := 8192
  fileSize := 2
  iv0 := ⟨0, 0⟩
  iv1 := ⟨0, 0⟩
  ivCount := 0
  bytesToSend := 0
  bytesHaveSend := 0

def twoByteResponse : Response := (processWrite .fileRequest twoByteFile).2

theorem transmission_exact_iff_two_bytes :
    (∀ events, Always writeMachine (Exact twoByteResponse.whole) (Transmission.start twoByteResponse) events) ↔
      2 ^ 32 ∣ 2 * twoByteResponse.writeIdx + twoByteResponse.iv1.len :=
  transmission_exact_iff .fileRequest twoByteFile rfl (by decide)

theorem whole_response_again : (processWrite .fileRequest twoByteFile).1 = true ∧
    ¬ Always writeMachine (Exact twoByteResponse.whole) (Transmission.start twoByteResponse)
      [.epollout, .accepted twoByteResponse.whole.length, .accepted 1] := by
  refine ⟨by decide, fun always => ?_⟩
  have reached : (replay writeMachine (Transmission.start twoByteResponse)
      [.epollout, .accepted twoByteResponse.whole.length, .accepted 1]).map (fun t => t.accepted.length) =
        some (twoByteResponse.whole.length + 1) := by
    decide +kernel
  obtain ⟨t, run, longer⟩ := Option.map_eq_some_iff.mp reached
  have begun := (always_replay writeMachine _ _ t _ run always).begun.length_le
  omega

end WzyServer.Http
