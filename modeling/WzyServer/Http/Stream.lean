import WzyServer.Http.Client
import WzyServer.Http.WriteLoop

set_option autoImplicit false

namespace WzyServer.Http

open CString Word Run

section Pieces

def Smooth (event : WriteEvent) : Prop := event ≠ .eagain ∧ event ≠ .error

def returned (events : List WriteEvent) : List Nat :=
  events.filterMap fun event => match event with
    | .accepted count => some count
    | _ => none

structure Ends (t u : Transmission) (events : List WriteEvent) : Prop where
  bytes : u.accepted = t.accepted ++ (returned events).flatMap t.response.gather.take
  phase : (u.phase = .writing ∧ ((returned events).sum : Int) < t.response.bytesToSend) ∨
    (u.phase = .sent ∧ t.response.bytesToSend ≤ (returned events).sum ∧
      ((returned events).sum : Int) < t.response.bytesToSend + t.response.gather.length)

theorem ended_offers_nothing (t u : Transmission) (events : List WriteEvent) (ended : t.phase = .sent)
    (run : replay writeMachine t events = some u) : u = t ∧ events = [] := by
  cases events with
  | nil =>
      cases run
      exact ⟨rfl, rfl⟩
  | cons event rest =>
      obtain ⟨next, taken, _⟩ := replay_takes writeMachine t u event rest run
      obtain ⟨offered, _⟩ := write_takes t next event taken
      cases event with
      | epollout => cases ended.symm.trans offered
      | accepted count => cases ended.symm.trans offered.1
      | eagain => cases ended.symm.trans offered
      | error => cases ended.symm.trans offered

-- The iovecs stay as they were, so each writev starts over at the status line.
theorem pieces_written (t u : Transmission) (events : List WriteEvent) (writing : t.phase = .writing)
    (left : 0 < t.response.bytesToSend) (small : t.response.bytesToSend < 2 ^ 31) (smooth : ∀ event ∈ events, Smooth event)
    (run : replay writeMachine t events = some u) : Ends t u events := by
  induction events generalizing t with
  | nil =>
      cases run
      exact ⟨by simp [returned], .inl ⟨writing, by simpa [returned] using left⟩⟩
  | cons event rest ih =>
      obtain ⟨next, taken, later⟩ := replay_takes writeMachine t u event rest run
      obtain ⟨offered, rfl⟩ := write_takes t next event taken
      obtain ⟨quiet, others⟩ := List.forall_mem_cons.mp smooth
      cases event with
      | epollout => cases writing.symm.trans offered
      | eagain => exact absurd rfl quiet.1
      | error => exact absurd rfl quiet.2
      | accepted count =>
          obtain ⟨_, fits, transfer⟩ := offered
          have limit : maxTransfer = 0x7ffff000 := rfl
          have fewer : toInt (t.response.bytesToSend - count) = t.response.bytesToSend - count :=
            to_int_small _ (by omega) (by omega)
          have first : returned (.accepted count :: rest) = count :: returned rest := rfl
          have begun := accept_accepted t count
          change replay writeMachine (t.accept count) rest = some u at later
          by_cases done : t.response.bytesToSend ≤ count
          · have sent := t.accept_ends count (by omega)
            obtain ⟨rfl, rfl⟩ := ended_offers_nothing _ u rest sent later
            refine ⟨by rw [begun, first, List.flatMap_cons]; simp [returned], .inr ⟨sent, ?_, ?_⟩⟩
            · rw [first, List.sum_cons]
              omega
            · rw [first, List.sum_cons]
              simp only [returned, List.filterMap_nil, List.sum_nil]
              omega
          · obtain ⟨newadd, accepted, continues⟩ := t.accept_continues count (by omega)
            have same : (t.accept count).response.gather = t.response.gather := by
              rw [continues]
              rfl
            have fell : (t.accept count).response.bytesToSend = t.response.bytesToSend - count := by
              rw [continues]
              exact fewer
            obtain ⟨bytes, phase⟩ := ih (t.accept count) (by rw [continues]) (by omega) (by omega) others later
            rw [begun, same, List.append_assoc] at bytes
            rw [same, fell] at phase
            refine ⟨by rw [first, List.flatMap_cons]; exact bytes, ?_⟩
            rw [first, List.sum_cons]
            refine phase.imp (And.imp_right fun below => ?_) (And.imp_right fun both => ⟨?_, ?_⟩) <;> omega

theorem announced_whole (r : Response) (sendable : Sendable r) (small : r.iv1.len < 2 ^ 30) :
    r.announced = 2 * r.writeIdx + r.iv1.len ∧ r.announced ≠ 0 := by
  have size : writeBufferSize = 1024 := rfl
  have fits := sendable.fits
  have nonempty := sendable.nonempty
  rw [announced_sum, sendable.header, to_int_add_right, to_int_small _ (by omega) (by dsimp only; omega)]
  dsimp only
  omega

theorem write_pieces (r : Response) (t : Transmission) (events : List WriteEvent) (sendable : Sendable r) (small : r.iv1.len < 2 ^ 30)
    (smooth : ∀ event ∈ events, Smooth event) (run : replay writeMachine (Transmission.start r) (.epollout :: events) = some t) :
    t.accepted = (returned events).flatMap r.gather.take ∧
      ((t.phase = .writing ∧ (returned events).sum < 2 * r.writeIdx + r.iv1.len) ∨
        (t.phase = .sent ∧ 2 * r.writeIdx + r.iv1.len ≤ (returned events).sum ∧
          (returned events).sum < 2 * r.writeIdx + r.iv1.len + r.gather.length)) := by
  obtain ⟨sum, some_left⟩ := announced_whole r sendable small
  have entered := enter_takes (Transmission.start r) rfl
  rw [enter_writing r some_left] at entered
  rw [replay_cons writeMachine _ _ .epollout events entered.1 entered.2] at run
  have upper := (announced_bounds r).2
  have same := recount_bytes r
  have gathered := recount_gather r
  obtain ⟨bytes, phase⟩ := pieces_written _ t events rfl (by rw [same]; omega) (by rw [same]; exact upper) smooth run
  rw [gathered] at bytes phase
  rw [same, sum] at phase
  refine ⟨bytes, phase.imp (And.imp_right fun below => ?_) (And.imp_right fun both => ⟨?_, ?_⟩)⟩ <;> omega

-- Nothing that the socket takes moves the iovecs on: each writev hands over the beginning
-- of the response again, until header and iovecs, counted together, are used up.
theorem write_starts_over (ret : HttpCode) (r : Response) (start : r.writeIdx = 0) (ready : (processWrite ret r).1 = true)
    (small : (processWrite ret r).2.iv1.len < 2 ^ 30) (t : Transmission) (events : List WriteEvent)
    (smooth : ∀ event ∈ events, Smooth event)
    (run : replay writeMachine (Transmission.start (processWrite ret r).2) (.epollout :: events) = some t) :
    t.accepted = (returned events).flatMap (processWrite ret r).2.whole.take ∧
      (t.phase = .sent ↔ 2 * (processWrite ret r).2.writeIdx + (processWrite ret r).2.iv1.len ≤ (returned events).sum) := by
  obtain ⟨sendable, _⟩ := process_write_sendable ret r (by rw [start]; decide) ready
  obtain ⟨bytes, phase⟩ := write_pieces _ t events sendable small smooth run
  rw [gather_prepared _ (process_write_prepared ret r start ready)] at bytes
  refine ⟨bytes, ?_⟩
  rcases phase with ⟨writing, below⟩ | ⟨sent, enough, _⟩
  · rw [writing]
    exact ⟨fun same => (by cases same), fun enough => absurd enough (by omega)⟩
  · exact ⟨fun _ => enough, fun _ => sent⟩

theorem write_starts_over_cut : ∃ t,
    replay writeMachine (Transmission.start (processWrite .fileRequest twoByteFile).2) [.epollout, .accepted 3, .accepted 60] = some t ∧
      t.accepted = (returned [.accepted 3, .accepted 60]).flatMap (processWrite .fileRequest twoByteFile).2.whole.take ∧
      (t.phase = .sent ↔ 2 * (processWrite .fileRequest twoByteFile).2.writeIdx + (processWrite .fileRequest twoByteFile).2.iv1.len ≤
        (returned [.accepted 3, .accepted 60]).sum) := by
  obtain ⟨t, run⟩ := Option.isSome_iff_exists.mp (show (replay writeMachine
    (Transmission.start (processWrite .fileRequest twoByteFile).2) [.epollout, .accepted 3, .accepted 60]).isSome = true by decide +kernel)
  refine ⟨t, run, ?_⟩
  exact write_starts_over .fileRequest twoByteFile rfl (by decide) (by decide +kernel) t _ (by simp [Smooth]) run

end Pieces

section Rounds

def TakesWhole (r : Response) (events : List WriteEvent) : Prop := ∀ event ∈ events, event = .accepted r.gather.length

theorem whole_smooth (r : Response) (events : List WriteEvent) (whole : TakesWhole r events) : ∀ event ∈ events, Smooth event := by
  intro event member
  rw [whole event member]
  exact ⟨fun same => (by cases same), fun same => (by cases same)⟩

theorem whole_returned (r : Response) (events : List WriteEvent) (whole : TakesWhole r events) :
    returned events = List.replicate events.length r.gather.length := by
  induction events with
  | nil => rfl
  | cons event rest ih =>
      obtain ⟨here, others⟩ := List.forall_mem_cons.mp whole
      rw [here, List.length_cons, List.replicate_succ, ← ih others]
      rfl

theorem gather_bounds (r : Response) (sendable : Sendable r) (small : r.iv1.len < 2 ^ 30) :
    0 < r.gather.length ∧ r.gather.length ≤ r.writeIdx + r.iv1.len ∧ r.writeIdx ≤ r.gather.length ∧ r.gather.length ≤ maxTransfer ∧
      (r.ivCount = 2 → r.gather.length = r.writeIdx + r.iv1.len ∧ 0 < r.iv1.len) := by
  have size : writeBufferSize = 1024 := rfl
  have limit : maxTransfer = 0x7ffff000 := rfl
  have fits := sendable.fits
  have nonempty := sendable.nonempty
  have header := congrArg Iovec.len sendable.header
  dsimp only at header
  rcases sendable.file with one | ⟨two, mapped, notEmpty⟩
  · rw [gather_one r one, header]
    exact ⟨by omega, by omega, by omega, by omega, fun two => by omega⟩
  · have length := congrArg Iovec.len mapped
    dsimp only at length
    rw [gather_two r two, header]
    exact ⟨by omega, by omega, by omega, by omega, fun _ => ⟨rfl, by omega⟩⟩

-- Twice the header and once the file: two rounds of both.
theorem whole_written (r : Response) (t : Transmission) (events : List WriteEvent) (sendable : Sendable r) (small : r.iv1.len < 2 ^ 30)
    (whole : TakesWhole r events) (run : replay writeMachine (Transmission.start r) (.epollout :: events) = some t)
    (done : t.phase = .sent) : t.accepted = (List.replicate events.length r.gather).flatten ∧ 2 ≤ events.length ∧
      (r.ivCount = 2 → events.length = 2) := by
  obtain ⟨bytes, phase⟩ := write_pieces r t events sendable small (whole_smooth r events whole) run
  obtain ⟨_, upper, lower, _, two⟩ := gather_bounds r sendable small
  have some_header := sendable.nonempty
  rw [whole_returned r events whole, List.flatMap_replicate, List.take_length] at bytes
  rw [whole_returned r events whole, List.sum_replicate, done, smul_eq_mul] at phase
  obtain ⟨_, enough, last⟩ := phase.resolve_left fun writing => by cases writing.1
  have rounds : 2 ≤ events.length := by
    by_contra fewer
    have most := Nat.mul_le_mul_right r.gather.length (show events.length ≤ 1 by omega)
    omega
  refine ⟨bytes, rounds, fun isTwo => Nat.le_antisymm ?_ rounds⟩
  by_contra more
  have least := Nat.mul_le_mul_right r.gather.length (show 3 ≤ events.length by omega)
  obtain ⟨length, _⟩ := two isTwo
  omega

theorem rounds_end (t : Transmission) (rounds : Nat) (writing : t.phase = .writing) (nonempty : 0 < t.response.gather.length)
    (transfer : t.response.gather.length ≤ maxTransfer) (left : 0 < t.response.bytesToSend)
    (enough : t.response.bytesToSend ≤ rounds) (small : t.response.bytesToSend < 2 ^ 31) :
    ∃ events u, (∀ event ∈ events, event = .accepted t.response.gather.length) ∧ replay writeMachine t events = some u ∧
      u.phase = .sent := by
  induction rounds generalizing t with
  | zero => omega
  | succ rounds ih =>
      have limit : maxTransfer = 0x7ffff000 := rfl
      have accepted := accept_takes t t.response.gather.length writing (Nat.le_refl _) transfer
      have fewer : toInt (t.response.bytesToSend - t.response.gather.length) = t.response.bytesToSend - t.response.gather.length :=
        to_int_small _ (by omega) (by omega)
      by_cases done : t.response.bytesToSend ≤ t.response.gather.length
      · refine ⟨[.accepted t.response.gather.length], _, by simp, ?_, t.accept_ends t.response.gather.length (by omega)⟩
        rw [replay_cons writeMachine _ _ _ _ accepted.1 accepted.2]
        rfl
      · obtain ⟨newadd, bytes, continues⟩ := t.accept_continues t.response.gather.length (by omega)
        generalize length : t.response.gather.length = count at *
        have same : (t.accept count).response.gather = t.response.gather := by
          rw [continues]
          rfl
        have fell : (t.accept count).response.bytesToSend = t.response.bytesToSend - count := by
          rw [continues]
          exact fewer
        obtain ⟨events, u, whole, run, sent⟩ := ih (t.accept count) (by rw [continues]) (by rw [same]; omega) (by rw [same]; omega)
          (by omega) (by omega) (by omega)
        rw [same, length] at whole
        refine ⟨.accepted count :: events, u, List.forall_mem_cons.mpr ⟨rfl, whole⟩, ?_, sent⟩
        rw [replay_cons writeMachine _ _ _ _ accepted.1 accepted.2]
        exact run

theorem whole_written_once (r : Response) (sendable : Sendable r) (small : r.iv1.len < 2 ^ 30) :
    ∃ events t, TakesWhole r events ∧ replay writeMachine (Transmission.start r) (.epollout :: events) = some t ∧ t.phase = .sent := by
  obtain ⟨nonempty, _, _, transfer, _⟩ := gather_bounds r sendable small
  obtain ⟨sum, some_left⟩ := announced_whole r sendable small
  have entered := enter_takes (Transmission.start r) rfl
  rw [enter_writing r some_left] at entered
  have same := recount_bytes r
  have upper := (announced_bounds r).2
  have gathered := recount_gather r
  obtain ⟨events, t, whole, run, sent⟩ := rounds_end ⟨r.recount, 0, [], .writing⟩ r.announced.toNat rfl
    (by rw [gathered]; exact nonempty) (by rw [gathered]; exact transfer) (by rw [same]; omega) (by rw [same]; omega) (by rw [same]; exact upper)
  rw [gathered] at whole
  refine ⟨events, t, whole, ?_, sent⟩
  rw [replay_cons writeMachine _ _ _ _ entered.1 entered.2]
  exact run

end Rounds

section Preparing

def prepared (written : Bool × Response) : Option Response := if written.1 then some written.2 else none

theorem error_page_second (status : Nat) (title announced content : Text) (r : Response) :
    (errorPage status title announced content r).2.iv1 = r.iv1 := by
  obtain ⟨_, _, line⟩ := add_response_frame (statusLine status title) r
  obtain ⟨_, _, headers⟩ := add_headers_frame announced.length (addStatusLine status title r).2
  obtain ⟨_, _, body⟩ := add_response_frame content (addHeaders announced.length (addStatusLine status title r).2).2
  unfold errorPage addContent
  rw [body, headers, addStatusLine, line]

theorem process_write_second (ret : HttpCode) (r : Response) (ready : (processWrite ret r).1 = true) :
    ((processWrite ret r).2.ivCount = 2 ↔ ret = .fileRequest) ∧ (ret ≠ .fileRequest → (processWrite ret r).2.iv1 = r.iv1) := by
  have page : ∀ s : Response, (headerOnly s).ivCount ≠ 2 ∧ (headerOnly s).iv1 = s.iv1 := fun s => ⟨by simp [headerOnly], rfl⟩
  cases ret with
  | fileRequest =>
      simp only [processWrite] at ready ⊢
      split at ready
      · rename_i notEmpty
        rw [if_pos notEmpty]
        exact ⟨⟨fun _ => trivial, fun _ => rfl⟩, fun other => absurd rfl other⟩
      · cases ready
  | internalError | forbiddenRequest =>
      simp only [processWrite] at ready ⊢
      split at ready
      · rename_i added
        rw [if_pos added]
        refine ⟨⟨fun two => absurd two (page _).1, fun same => by cases same⟩, fun _ => ?_⟩
        exact (page _).2.trans (error_page_second ..)
      · cases ready
  | badRequest | noResource =>
      simp only [processWrite] at ready ⊢
      split at ready
      · cases ready
      · rename_i dropped
        rw [if_neg dropped]
        refine ⟨⟨fun two => absurd two (page _).1, fun same => by cases same⟩, fun _ => ?_⟩
        exact (page _).2.trans (error_page_second ..)
  | noRequest | getRequest | closedConnection => cases ready

inductive Fulfils : Option Message → Option Response → Prop where
  | closed : Fulfils none none
  | ready (message : Message) (r : Response) (sendable : Sendable r) (small : r.iv1.len < 2 ^ 30) (bytes : r.gather = message.text)
      (file : message.status = 200 → r.ivCount = 2) : Fulfils (some message) (some r)

variable {Db : Type} (mysqlQuery : Db → Text → Int × Db) (site : Site) (hand : Reply Db → Response)

def prepareBatches (slot : Request) (batches : List Text) (w : World Db) : Except Fault (Option Response × World Db) :=
  let reply := serveBatches mysqlQuery site slot batches w
  match reply.outcome with
  | .code code => .ok (prepared (processWrite code (hand reply)), reply.world)
  | .fault kind => .error kind

def prepareAll : World Db → List Exchange → Except Fault (List (Option Response) × World Db)
  | w, [] => .ok ([], w)
  | w, e :: rest => do
      let (response, after) ← prepareBatches mysqlQuery site hand e.slot (e.delivery.batches ++ [e.delivery.last]) w
      let (responses, final) ← prepareAll after rest
      return (response :: responses, final)

theorem opened_outcome (url : Text) (linger : Bool) (after : World Db) (reply : Reply Db)
    (opened : Opened site url linger after reply) :
    (reply.outcome = .code .fileRequest → ∃ path file, site.stat path = some file ∧ reply.file = some file) ∧
      ∀ message, responseFor linger (site.fileOf url) = some message → message.status = 200 → reply.outcome = .code .fileRequest := by
  obtain ⟨named, rfl, _, path⟩ := opened
  unfold Site.fileOf
  rw [← path]
  unfold openFile
  cases found : site.stat (realPath named) with
  | none =>
      exact ⟨fun other => (by cases other), fun message answered => (by cases answered)⟩
  | some file =>
      dsimp only
      refine ⟨fun isFile => ⟨realPath named, file, found, ?_⟩, fun message answered status => ?_⟩
      · split at isFile
        · cases isFile
        · split at isFile
          · cases isFile
          · rename_i readable plain
            rw [if_neg readable, if_neg plain]
      · unfold responseFor at answered
        dsimp only at answered
        split at answered
        · cases answered
          cases status
        · split at answered
          · cases answered
          · rename_i readable plain
            rw [if_neg readable, if_neg fun directory => plain (.inl directory)]

theorem answered_of_sent (code : HttpCode) (r : Response) (answer : Option Message) (start : r.writeIdx = 0)
    (bytes : sent (processWrite code r) = answer.map Message.text) (stale : r.iv1.len < 2 ^ 30)
    (size : code = .fileRequest → r.fileSize < 2 ^ 30) (file : ∀ message, answer = some message → message.status = 200 →
      code = .fileRequest) : Fulfils answer (prepared (processWrite code r)) := by
  unfold sent at bytes
  unfold prepared
  by_cases ready : (processWrite code r).1 = true
  · obtain ⟨sendable, sameSize⟩ := process_write_sendable code r (by rw [start]; decide) ready
    obtain ⟨two, second⟩ := process_write_second code r ready
    rw [if_pos ready] at bytes ⊢
    cases answer with
    | none => cases bytes
    | some message =>
        refine .ready message _ sendable ?_ (Option.some.inj bytes) fun status => two.mpr (file message rfl status)
        by_cases isFile : code = .fileRequest
        · rw [(sendable_mapped _ sendable (two.mpr isFile)).1]
          dsimp only
          rw [sameSize (two.mpr isFile)]
          exact size isFile
        · rw [second isFile]
          exact stale
  · rw [if_neg ready] at bytes ⊢
    cases answer with
    | none => exact .closed
    | some message => cases bytes

variable (hands : ∀ reply, Handed reply (hand reply)) (stale : ∀ reply, (hand reply).iv1.len < 2 ^ 30)
  (small : ∀ path file, site.stat path = some file → file.content.length < 2 ^ 30)

include hands stale small in
theorem exchange_prepared (e : Exchange) (w : World Db) :
    ∃ response, prepareBatches mysqlQuery site hand e.slot (e.delivery.batches ++ [e.delivery.last]) w =
      .ok (response, (e.answer mysqlQuery site w).2) ∧ Fulfils (e.answer mysqlQuery site w).1 response := by
  obtain ⟨r, received, opened⟩ := exchange_opened mysqlQuery site e w
  have handed := hands (doRequest mysqlQuery site r w)
  obtain ⟨world, code, outcome, written⟩ := opened_sent site _ e.linger _ _ (hand (doRequest mysqlQuery site r w)) opened handed
    (fun file found => Nat.lt_trans (small _ file found) (by decide))
  obtain ⟨isFile, status⟩ := opened_outcome site _ e.linger _ _ opened
  rw [outcome] at isFile status
  refine ⟨_, ?_, answered_of_sent code _ (e.answer mysqlQuery site w).1 handed.start written (stale _) ?_ ?_⟩
  · unfold prepareBatches serveBatches Exchange.answer
    dsimp only
    rw [received]
    dsimp only
    rw [outcome]
    dsimp only
    rw [world]
  · rintro rfl
    obtain ⟨path, file, found, opens⟩ := isFile rfl
    rw [(handed.mapped file outcome opens).1]
    exact small path file found
  · exact fun message answered isOk => Outcome.code.inj (status message answered isOk)

include hands stale small in
theorem exchanges_prepared (w : World Db) (exchanges : List Exchange) :
    ∃ responses, prepareAll mysqlQuery site hand w exchanges = .ok (responses, (answerAll mysqlQuery site w exchanges).2) ∧
      List.Forall₂ Fulfils (answerAll mysqlQuery site w exchanges).1 responses := by
  induction exchanges generalizing w with
  | nil => exact ⟨[], rfl, .nil⟩
  | cons e rest ih =>
      obtain ⟨response, ready, answered⟩ := exchange_prepared mysqlQuery site hand hands stale small e w
      obtain ⟨responses, later, others⟩ := ih (e.answer mysqlQuery site w).2
      refine ⟨response :: responses, ?_, .cons answered others⟩
      rw [prepareAll, ready]
      change (prepareAll mysqlQuery site hand (e.answer mysqlQuery site w).2 rest >>= _) = _
      rw [later]
      rfl

end Preparing

section Repeating

inductive Streamed : List (Option Response) → Text → Prop where
  | nil : Streamed [] []
  | closed (rest : List (Option Response)) (text : Text) (later : Streamed rest text) : Streamed (none :: rest) text
  | written (r : Response) (rest : List (Option Response)) (text : Text) (events : List WriteEvent) (t : Transmission)
      (whole : TakesWhole r events) (run : replay writeMachine (Transmission.start r) (.epollout :: events) = some t)
      (done : t.phase = .sent) (later : Streamed rest text) : Streamed (some r :: rest) (t.accepted ++ text)

inductive Repeated : List (Option Message) → List Message → Prop where
  | nil : Repeated [] []
  | closed (rest : List (Option Message)) (more : List Message) (later : Repeated rest more) : Repeated (none :: rest) more
  | again (message : Message) (rest : List (Option Message)) (more : List Message) (times : Nat) (twice : 2 ≤ times)
      (file : message.status = 200 → times = 2) (later : Repeated rest more) :
      Repeated (some message :: rest) (List.replicate times message ++ more)

theorem streamed_exists (answers : List (Option Message)) (responses : List (Option Response))
    (answered : List.Forall₂ Fulfils answers responses) : ∃ text, Streamed responses text := by
  induction answered with
  | nil => exact ⟨[], .nil⟩
  | cons here _ ih =>
      obtain ⟨text, later⟩ := ih
      cases here with
      | closed => exact ⟨text, .closed _ text later⟩
      | ready message r sendable small bytes file =>
          obtain ⟨events, t, whole, run, done⟩ := whole_written_once r sendable small
          exact ⟨t.accepted ++ text, .written r _ text events t whole run done later⟩

theorem streamed_repeated (answers : List (Option Message)) (responses : List (Option Response)) (text : Text)
    (answered : List.Forall₂ Fulfils answers responses) (streamed : Streamed responses text) :
    ∃ repeated, Repeated answers repeated ∧ text = repeated.flatMap Message.text := by
  induction streamed generalizing answers with
  | nil =>
      cases answered
      exact ⟨[], .nil, rfl⟩
  | closed rest text _ ih =>
      cases answered with
      | cons here others =>
          cases here
          obtain ⟨repeated, again, rfl⟩ := ih _ others
          exact ⟨repeated, .closed _ repeated again, rfl⟩
  | written r rest text events t whole run done _ ih =>
      cases answered with
      | cons here others =>
          cases here with
          | ready message r sendable small bytes file =>
              obtain ⟨repeated, again, rfl⟩ := ih _ others
              obtain ⟨accepted, twice, two⟩ := whole_written r t events sendable small whole run done
              refine ⟨_, .again message _ repeated events.length twice (fun isOk => two (file isOk)) again, ?_⟩
              rw [accepted, bytes, List.flatMap_append, List.flatMap_replicate]

theorem repeated_proper (answers : List (Option Message)) (repeated : List Message) (again : Repeated answers repeated)
    (message : Message) (member : message ∈ repeated) : some message ∈ answers := by
  induction again with
  | nil => cases member
  | closed rest more _ ih => exact List.mem_cons_of_mem _ (ih member)
  | again other rest more times _ _ _ ih =>
      rcases List.mem_append.mp member with here | later
      · rw [List.eq_of_mem_replicate here]
        exact List.mem_cons_self ..
      · exact List.mem_cons_of_mem _ (ih later)

variable {Db : Type} (mysqlQuery : Db → Text → Int × Db) (site : Site) (hand : Reply Db → Response)
  (hands : ∀ reply, Handed reply (hand reply)) (stale : ∀ reply, (hand reply).iv1.len < 2 ^ 30)
  (small : ∀ path file, site.stat path = some file → file.content.length < 2 ^ 30)

include hands stale small in
theorem client_reads_repeated (w : World Db) (exchanges : List Exchange) :
    ∃ responses final, prepareAll mysqlQuery site hand w exchanges = .ok (responses, final) ∧ (∃ text, Streamed responses text) ∧
      ∀ text, Streamed responses text → ∃ repeated, readMessages text = some repeated ∧
        Repeated (answerAll mysqlQuery site w exchanges).1 repeated := by
  obtain ⟨responses, ready, answered⟩ := exchanges_prepared mysqlQuery site hand hands stale small w exchanges
  refine ⟨responses, _, ready, streamed_exists _ responses answered, fun text streamed => ?_⟩
  obtain ⟨repeated, again, rfl⟩ := streamed_repeated _ responses text answered streamed
  refine ⟨repeated, messages_read_back repeated fun message member => ?_, again⟩
  exact answers_proper mysqlQuery site w exchanges message (repeated_proper _ repeated again message member)

end Repeating

theorem welcome_short (path : Text) (file : File) (found : welcomeSite.stat path = some file) : file.content.length < 2 ^ 30 := by
  rw [welcome_file path file found]
  decide +kernel

theorem client_reads_repeated_login : ∃ responses final,
    prepareAll oneRow welcomeSite beside ⟨loadUsers [], []⟩ [registerExchange, loginExchange] = .ok (responses, final) ∧
      (∃ text, Streamed responses text) ∧ ∀ text, Streamed responses text → ∃ repeated, readMessages text = some repeated ∧
        Repeated (answerAll oneRow welcomeSite ⟨loadUsers [], []⟩ [registerExchange, loginExchange]).1 repeated :=
  client_reads_repeated oneRow welcomeSite beside beside_handed (fun _ => by change 0 < 2 ^ 30; decide) welcome_short
    ⟨loadUsers [], []⟩ [registerExchange, loginExchange]

end WzyServer.Http
