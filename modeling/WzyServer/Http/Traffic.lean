import WzyServer.Http.Application
import WzyServer.Http.KeepAlive
import WzyServer.Http.Recv

set_option autoImplicit false

namespace WzyServer.Http

open CString Run

def Exchange.batches (e : Exchange) : List Text := e.delivery.batches ++ [e.delivery.last]

-- How a connection stands between client and server: it is closed, it is open and the
-- client has nothing on the way, these batches of a request are still to come, read()
-- has put one of them into the pool's queue, or this response waits for write().
inductive Dealing where
  | closed
  | idle
  | sending (e : Exchange) (rest : List Text)
  | queued (e : Exchange) (rest : List Text)
  | ready (e : Exchange) (response : Text)

-- The http_conn objects and what they share. `order` is not in the source: the requests
-- that process has answered, each with what process_write has prepared.
structure Traffic (Db : Type) where
  world : World Db
  slots : Nat → Request
  dealing : Nat → Dealing
  order : List (Exchange × Option Text)

inductive TrafficLabel where
  | accept (connection : Nat)
  | ask (connection : Nat) (e : Exchange)
  | readable (connection : Nat) (socket : Socket)
  | process (connection : Nat)
  | written (connection : Nat)
  | close (connection : Nat)

namespace Traffic

variable {Db : Type} (mysqlQuery : Db → Text → Int × Db) (site : Site) (hand : Reply Db → Response)

def start (w : World Db) (slots : Nat → Request) : Traffic Db := ⟨w, slots, fun _ => .closed, []⟩

def moves (s : Traffic Db) (connection : Nat) (slot : Request) (now : Dealing) : Traffic Db :=
  { s with
    slots := fun other => if other = connection then slot else s.slots other,
    dealing := fun other => if other = connection then now else s.dealing other }

-- write() may take many rounds; it ends in init() or in a closed connection.
def effect (s : Traffic Db) : TrafficLabel → Except Fault (Traffic Db)
  | .accept connection => .ok (s.moves connection (s.slots connection).init .idle)
  | .ask connection e => .ok (s.moves connection (s.slots connection) (.sending e e.batches))
  | .readable connection socket => match s.dealing connection with
      | .sending e (_ :: rest) =>
          let (received, slot, _) := (s.slots connection).read socket
          .ok (s.moves connection slot (if received then .queued e rest else .closed))
      | _ => .ok s
  | .process connection => match s.dealing connection with
      | .queued e rest =>
          let reply := processRead mysqlQuery site (s.slots connection) s.world
          match reply.outcome with
          | .fault kind => .error kind
          | .code code =>
              let s := { s with world := reply.world }
              if code = .noRequest then .ok (s.moves connection reply.request (.sending e rest))
              else
                let response := sent (processWrite code (hand reply))
                .ok { s.moves connection reply.request (response.elim .closed fun text => .ready e text) with
                  order := s.order ++ [(e, response)] }
      | _ => .ok s
  | .written connection =>
      if (s.slots connection).linger then .ok (s.moves connection (s.slots connection).init .idle)
      else .ok (s.moves connection (s.slots connection) .closed)
  | .close connection => .ok (s.moves connection (s.slots connection) .closed)

-- A client sends its next request when it has the answer to the last one. No connection
-- is closed between read() and the end of process().
def offers (s : Traffic Db) : TrafficLabel → Prop
  | .accept connection => s.dealing connection = .closed
  | .ask connection e => s.dealing connection = .idle ∧ s.slots connection = e.slot.init
  | .readable connection socket =>
      ∃ e rest, s.dealing connection = .sending e (socket.pending.flatten :: rest) ∧ socket.ending = .again
  | .process connection => ∃ e rest, s.dealing connection = .queued e rest
  | .written connection => ∃ e response, s.dealing connection = .ready e response
  | .close connection => s.dealing connection ≠ .closed ∧ ∀ e rest, s.dealing connection ≠ .queued e rest

end Traffic

section Serving

variable {Db : Type} (mysqlQuery : Db → Text → Int × Db) (site : Site) (hand : Reply Db → Response)

def trafficMachine : Machine (Traffic Db) TrafficLabel Fault where
  guard := Traffic.offers
  effect := Traffic.effect mysqlQuery site hand

theorem receive_fills (r : Request) (batches : List Text) (ordered : Ordered r) (waiting : (receive r batches).1 = .code .noRequest) :
    (receive r batches).2.readIdx = r.readIdx + batches.flatten.length := by
  induction batches generalizing r with
  | nil => rfl
  | cons batch rest ih =>
      obtain ⟨same, _, after⟩ := loop_cursors .lineOk (r.feed batch) (feed_ordered r batch ordered)
      change (parseRead (r.feed batch)).2.readIdx = r.readIdx + batch.length at same
      unfold receive Chunks.deliver at waiting ⊢
      dsimp only at waiting ⊢
      by_cases again : (parseRead (r.feed batch)).1 = .code .noRequest
      · rw [if_pos again] at waiting ⊢
        have behind := ih (parseRead (r.feed batch)).2 after waiting
        unfold receive at behind
        rw [behind, same, List.flatten_cons, List.length_append, Nat.add_assoc]
      · rw [if_neg again] at waiting
        exact absurd waiting again

theorem batch_waits (e : Exchange) (read rest : List Text) (batch : Text) (split : read ++ batch :: rest = e.batches) :
    (receive e.slot.init read).1 = .code .noRequest := by
  obtain ⟨waiting, _⟩ := delivery_resumes e.slot e.message e.delivery
  have early : read <+: e.delivery.batches := by
    have within : read <+: e.delivery.batches ++ [e.delivery.last] := ⟨batch :: rest, split⟩
    refine (List.prefix_concat_iff.mp within).resolve_left fun whole => ?_
    have length := congrArg List.length split
    rw [whole, Exchange.batches, List.length_append, List.length_cons] at length
    omega
  obtain ⟨later, whole⟩ := early
  by_contra answered
  unfold receive at waiting answered
  rw [← whole, Chunks.deliver_append, if_neg answered] at waiting
  exact answered waiting

theorem batch_fits (e : Exchange) (read rest : List Text) (batch : Text) (split : read ++ batch :: rest = e.batches) :
    read.flatten.length + batch.length < readBufferSize := by
  have whole := e.delivery.whole
  have short : (e.message.bytes).length < readBufferSize := by
    have bound := e.message.short
    rw [RequestMessage.bytes, RequestMessage.head]
    exact bound
  have flat := congrArg List.flatten split
  rw [Exchange.batches, List.flatten_append, List.flatten_append, List.flatten_singleton, whole, List.flatten_cons] at flat
  rw [← flat, List.length_append, List.length_append] at short
  omega

inductive Deals (order : List (Exchange × Option Text)) (slot : Request) : Dealing → Prop
  | closed : Deals order slot .closed
  | idle (before : Request) (cleared : slot = before.init) : Deals order slot .idle
  | sending (e : Exchange) (read rest : List Text) (split : read ++ rest = e.batches) (more : rest ≠ [])
      (state : slot = (receive e.slot.init read).2) : Deals order slot (.sending e rest)
  | queued (e : Exchange) (read rest : List Text) (batch : Text) (split : read ++ batch :: rest = e.batches)
      (state : slot = (receive e.slot.init read).2.feed batch) : Deals order slot (.queued e rest)
  | ready (e : Exchange) (response : Text) (answered : (e, some response) ∈ order) : Deals order slot (.ready e response)

theorem deals_longer (order : List (Exchange × Option Text)) (entry : Exchange × Option Text) (slot : Request) (now : Dealing)
    (deals : Deals order slot now) : Deals (order ++ [entry]) slot now := by
  cases deals with
  | closed => exact .closed
  | idle before cleared => exact .idle before cleared
  | sending e read rest split more state => exact .sending e read rest split more state
  | queued e read rest batch split state => exact .queued e read rest batch split state
  | ready e response answered => exact .ready e response (List.mem_append_left _ answered)

theorem batch_read (e : Exchange) (read rest : List Text) (batch : Text) (split : read ++ batch :: rest = e.batches) :
    parseRead ((receive e.slot.init read).2.feed batch) = receive e.slot.init (read ++ [batch]) :=
  (receive_append e.slot.init read batch (batch_waits e read rest batch split)).symm

theorem batch_processed (e : Exchange) (read rest : List Text) (batch : Text) (split : read ++ batch :: rest = e.batches)
    (more : rest ≠ []) (w : World Db) : processRead mysqlQuery site ((receive e.slot.init read).2.feed batch) w =
      ⟨.code .noRequest, (receive e.slot.init (read ++ [batch])).2, w, none⟩ := by
  obtain ⟨next, later, rfl⟩ := List.exists_cons_of_ne_nil more
  have waiting := batch_waits e (read ++ [batch]) later next (by rw [List.append_assoc]; exact split)
  unfold processRead
  rw [batch_read e read (next :: later) batch split]
  generalize receive e.slot.init (read ++ [batch]) = result at waiting
  obtain ⟨outcome, parsed⟩ := result
  cases waiting
  rfl

variable (hands : ∀ reply, Handed reply (hand reply))
  (small : ∀ path file, site.stat path = some file → file.content.length < 2 ^ 31)

include hands small in
theorem last_processed (e : Exchange) (read : List Text) (batch : Text) (split : read ++ [batch] = e.batches) (w : World Db) :
    ∃ code, (processRead mysqlQuery site ((receive e.slot.init read).2.feed batch) w).outcome = .code code ∧ code ≠ .noRequest ∧
      (processRead mysqlQuery site ((receive e.slot.init read).2.feed batch) w).world = (e.answer mysqlQuery site w).2 ∧
      sent (processWrite code (hand (processRead mysqlQuery site ((receive e.slot.init read).2.feed batch) w))) =
        (e.answer mysqlQuery site w).1.map Message.text := by
  obtain ⟨r, received, opened⟩ := exchange_opened mysqlQuery site e w
  have served : processRead mysqlQuery site ((receive e.slot.init read).2.feed batch) w = doRequest mysqlQuery site r w := by
    unfold processRead
    rw [batch_read e read [] batch split, split, Exchange.batches, received]
  rw [served]
  obtain ⟨world, code, outcome, written⟩ := opened_sent site _ e.linger _ _ (hand (doRequest mysqlQuery site r w)) opened
    (hands _) (fun file found => small _ file found)
  refine ⟨code, outcome, fun same => ?_, world, written⟩
  rw [same] at outcome
  exact do_request_answers mysqlQuery site r w outcome

theorem batch_received (e : Exchange) (read rest : List Text) (socket : Socket)
    (split : read ++ socket.pending.flatten :: rest = e.batches) (ending : socket.ending = .again) :
    ((receive e.slot.init read).2.read socket).1 = true ∧
      ((receive e.slot.init read).2.read socket).2.1 = (receive e.slot.init read).2.feed socket.pending.flatten := by
  have filled := receive_fills e.slot.init read (init_ordered e.slot) (batch_waits e read rest _ split)
  have fits := batch_fits e read rest _ split
  have start : e.slot.init.readIdx = 0 := rfl
  rw [start, Nat.zero_add] at filled
  exact read_all (receive e.slot.init read).2 socket (by omega) ending (by omega)

structure Dealt (w : World Db) (s : Traffic Db) : Prop where
  answers : answerAll mysqlQuery site w (s.order.map Prod.fst) =
    ((answerAll mysqlQuery site w (s.order.map Prod.fst)).1, s.world)
  sent : s.order.map Prod.snd = (answerAll mysqlQuery site w (s.order.map Prod.fst)).1.map (Option.map Message.text)
  deals : ∀ connection, Deals s.order (s.slots connection) (s.dealing connection)

theorem deals_moves (order : List (Exchange × Option Text)) (s : Traffic Db) (connection : Nat) (slot : Request) (now : Dealing)
    (deals : ∀ other, Deals order (s.slots other) (s.dealing other)) (here : Deals order slot now) (other : Nat) :
    Deals order ((s.moves connection slot now).slots other) ((s.moves connection slot now).dealing other) := by
  unfold Traffic.moves
  dsimp only
  by_cases same : other = connection
  · rw [if_pos same, if_pos same]
    exact here
  · rw [if_neg same, if_neg same]
    exact deals other

theorem dealt_moves (w : World Db) (s : Traffic Db) (connection : Nat) (slot : Request) (now : Dealing)
    (dealt : Dealt mysqlQuery site w s) (here : Deals s.order slot now) : Dealt mysqlQuery site w (s.moves connection slot now) :=
  ⟨dealt.answers, dealt.sent, deals_moves s.order s connection slot now dealt.deals here⟩

include hands small in
theorem dealt_process (w : World Db) (s : Traffic Db) (connection : Nat) (e : Exchange) (rest : List Text)
    (dealt : Dealt mysqlQuery site w s) (here : s.dealing connection = .queued e rest) :
    ∃ t, s.effect mysqlQuery site hand (.process connection) = .ok t ∧ Dealt mysqlQuery site w t := by
  have deals := dealt.deals connection
  rw [here] at deals
  obtain ⟨read, batch, split, state⟩ : ∃ read batch, read ++ batch :: rest = e.batches ∧
      s.slots connection = (receive e.slot.init read).2.feed batch := by
    cases deals with
    | queued e read rest batch split state => exact ⟨read, batch, split, state⟩
  unfold Traffic.effect
  simp only [here, state]
  by_cases last : rest = []
  · subst last
    obtain ⟨code, outcome, answered, world, written⟩ := last_processed mysqlQuery site hand hands small e read batch split s.world
    generalize processRead mysqlQuery site ((receive e.slot.init read).2.feed batch) s.world = reply at outcome world written ⊢
    simp only [outcome, if_neg answered]
    refine ⟨_, rfl, ?_, ?_, ?_⟩
    · rw [List.map_append, answer_all_append, dealt.answers, world]
      rfl
    · rw [List.map_append, List.map_append, answer_all_append, List.map_append, dealt.sent, dealt.answers, written]
      rfl
    · refine deals_moves _ _ connection _ _ (fun other => deals_longer s.order _ _ _ (dealt.deals other)) ?_
      cases sent (processWrite code (hand reply)) with
      | none => exact .closed
      | some response => exact .ready e response (List.mem_concat_self ..)
  · rw [batch_processed mysqlQuery site e read rest batch split last s.world]
    simp only [if_true]
    refine ⟨_, rfl, dealt_moves mysqlQuery site w s connection _ _ dealt ?_⟩
    exact .sending e (read ++ [batch]) rest (by rw [List.append_assoc]; exact split) last rfl

include hands small in
theorem dealt_step (w : World Db) (s : Traffic Db) (label : TrafficLabel) (dealt : Dealt mysqlQuery site w s)
    (offered : s.offers label) : ∃ t, s.effect mysqlQuery site hand label = .ok t ∧ Dealt mysqlQuery site w t := by
  cases label with
  | accept connection => exact ⟨_, rfl, dealt_moves mysqlQuery site w s connection _ _ dealt (.idle (s.slots connection) rfl)⟩
  | ask connection e =>
      obtain ⟨_, cleared⟩ := offered
      refine ⟨_, rfl, dealt_moves mysqlQuery site w s connection _ _ dealt (.sending e [] e.batches rfl (fun none => ?_) cleared)⟩
      have length := congrArg List.length none
      rw [Exchange.batches, List.length_append] at length
      cases length
  | readable connection socket =>
      obtain ⟨e, rest, here, ending⟩ := offered
      have deals := dealt.deals connection
      rw [here] at deals
      obtain ⟨read, split, state⟩ : ∃ read, read ++ socket.pending.flatten :: rest = e.batches ∧
          s.slots connection = (receive e.slot.init read).2 := by
        cases deals with
        | sending e read all split more state => exact ⟨read, split, state⟩
      obtain ⟨received, fed⟩ := batch_received e read rest socket split ending
      unfold Traffic.effect
      simp only [here, state, received, if_true, fed]
      exact ⟨_, rfl, dealt_moves mysqlQuery site w s connection _ _ dealt (.queued e read rest _ split rfl)⟩
  | process connection =>
      obtain ⟨e, rest, here⟩ := offered
      exact dealt_process mysqlQuery site hand hands small w s connection e rest dealt here
  | written connection =>
      by_cases linger : (s.slots connection).linger = true
      · exact ⟨_, if_pos linger, dealt_moves mysqlQuery site w s connection _ _ dealt (.idle (s.slots connection) rfl)⟩
      · exact ⟨_, if_neg linger, dealt_moves mysqlQuery site w s connection _ _ dealt .closed⟩
  | close connection => exact ⟨_, rfl, dealt_moves mysqlQuery site w s connection _ _ dealt .closed⟩

structure Orderly (w : World Db) (s : Traffic Db) : Prop where
  sent : s.order.map Prod.snd = (answerAll mysqlQuery site w (s.order.map Prod.fst)).1.map (Option.map Message.text)
  world : s.world = (answerAll mysqlQuery site w (s.order.map Prod.fst)).2
  unfinished : ∀ connection e rest, s.dealing connection = .sending e rest → rest ≠ []
  own : ∀ connection e response, s.dealing connection = .ready e response → (e, some response) ∈ s.order

theorem dealt_orderly (w : World Db) (s : Traffic Db) (dealt : Dealt mysqlQuery site w s) : Orderly mysqlQuery site w s := by
  refine ⟨dealt.sent, (congrArg Prod.snd dealt.answers).symm, fun connection e rest here => ?_,
    fun connection e response here => ?_⟩
  · have deals := dealt.deals connection
    rw [here] at deals
    cases deals with
    | sending e read rest split more state => exact more
  · have deals := dealt.deals connection
    rw [here] at deals
    cases deals with
    | ready e response answered => exact answered

end Serving

def handedOver (batch : Text) (some_bytes : batch ≠ []) : Socket := ⟨[batch], .again, List.forall_mem_singleton.mpr some_bytes⟩

theorem first_part_filled : loginMessage.bytes.take 40 ≠ [] := by
  decide +kernel

theorem second_part_filled : (loginMessage.bytes.take 90).drop 40 ≠ [] := by
  decide +kernel

theorem registration_filled : registerMessage.bytes ≠ [] := by
  decide +kernel

def loginAround : List TrafficLabel :=
  [.accept 0, .accept 1, .ask 0 registerExchange, .ask 1 loginExchange,
    .readable 1 (handedOver (loginMessage.bytes.take 40) first_part_filled), .process 1,
    .readable 0 (handedOver registerMessage.bytes registration_filled),
    .readable 1 (handedOver ((loginMessage.bytes.take 90).drop 40) second_part_filled), .process 1, .process 0,
    .readable 1 (handedOver loginDelivery.last loginDelivery.some_left), .process 1, .written 1]

end WzyServer.Http
