import Mathlib.Data.List.Lemmas
import WzyServer.Base.Decimal
import WzyServer.Http.Sendable

set_option autoImplicit false

namespace WzyServer.Http

open CString Word Run

section Header

def lengthStart : Text := statusLine 200 ok200Title ++ ascii "Content-Length:"

def announcedLength (printed : Text) : Option Int := (printed.dropPrefix? lengthStart).map decimal

def headerText (size : Nat) (linger : Bool) : Text :=
  statusLine 200 ok200Title ++ (headersOf size linger).flatMap headerLine ++ ascii "\r\n"

theorem file_written (r : Response) (some_bytes : r.fileSize ≠ 0) :
    (processWrite .fileRequest r).2 = headerAndFile (addHeaders (toInt r.fileSize) (addStatusLine 200 ok200Title r).2).2 := by
  obtain ⟨memory, index, frame⟩ := add_response_frame (statusLine 200 ok200Title) r
  have size : (addStatusLine 200 ok200Title r).2.fileSize = r.fileSize := by
    rw [addStatusLine, frame]
  simp only [processWrite, size]
  rw [if_pos some_bytes]

theorem header_and_file_counters (r : Response) : (headerAndFile r).fileSize = r.fileSize ∧
    (headerAndFile r).writeIdx = r.writeIdx ∧ (headerAndFile r).bytesToSend = toInt (r.writeIdx + r.fileSize) := by
  simp only [headerAndFile, and_self]

theorem length_line_printed (r : Response) (contentLen : Int) (start : r.writeIdx = 0) (lower : -2 ^ 31 ≤ contentLen)
    (upper : contentLen < 2 ^ 31) :
    Begins (addHeaders contentLen (addStatusLine 200 ok200Title r).2).2 (lengthStart ++ (decimalText contentLen ++ ascii "\r\n")) := by
  have status := status_line_printed 200 ok200Title r start (by decide)
  have number := decimal_text_length contentLen 10 (by decide) (by omega) (by omega)
  have lineStart : (statusLine 200 ok200Title).length = 17 := by decide
  have name : (ascii "Content-Length:").length = 15 := by decide
  have end_ : (ascii "\r\n").length = 2 := rfl
  have size : writeBufferSize - 1 = 1023 := rfl
  have added := (add_response_fits (ascii "Content-Length:" ++ decimalText contentLen ++ ascii "\r\n") _ _ status
    (by simp only [List.length_append]; omega)).1
  have begun : Begins (addContentLength contentLen (addStatusLine 200 ok200Title r).2).2
      (lengthStart ++ (decimalText contentLen ++ ascii "\r\n")) := by
    refine ⟨[], ?_⟩
    simp only [lengthStart, List.append_assoc, List.append_nil] at added ⊢
    exact added
  exact add_response_begins _ _ _ (add_response_begins _ _ _ begun)

theorem printed_announces (r : Response) (contentLen : Int) (begun : Begins r (lengthStart ++ (decimalText contentLen ++ ascii "\r\n"))) :
    announcedLength (read r.memory r.writeBuf r.writeIdx) = some contentLen := by
  obtain ⟨rest, index, bytes⟩ := begun
  rw [index, bytes, announcedLength, List.append_assoc, List.dropPrefix?_append_of_beq _ (beq_self_eq_true _), Option.map_some,
    List.append_assoc, decimal_printed contentLen _ (by intro c first; cases first; decide)]

theorem announced_narrowed (r : Response) (start : r.writeIdx = 0) (some_bytes : r.fileSize ≠ 0) :
    announcedLength (read (processWrite .fileRequest r).2.memory (processWrite .fileRequest r).2.writeBuf
      (processWrite .fileRequest r).2.writeIdx) = some (toInt r.fileSize) := by
  obtain ⟨lower, upper⟩ := to_int_bounds r.fileSize
  have begun := length_line_printed r (toInt r.fileSize) start lower upper
  rw [file_written r some_bytes]
  exact printed_announces (addHeaders (toInt r.fileSize) (addStatusLine 200 ok200Title r).2).2 _ begun

theorem announced_exact_iff (r : Response) (start : r.writeIdx = 0) (some_bytes : r.fileSize ≠ 0) :
    announcedLength (read (processWrite .fileRequest r).2.memory (processWrite .fileRequest r).2.writeBuf
      (processWrite .fileRequest r).2.writeIdx) = some (r.fileSize : Int) ↔ r.fileSize < 2 ^ 31 := by
  obtain ⟨_, upper⟩ := to_int_bounds r.fileSize
  rw [announced_narrowed r start some_bytes, Option.some.injEq]
  constructor
  · intro same
    omega
  · exact fun small => to_int_small _ (by omega) (by omega)

theorem file_header_length (r : Response) (start : r.writeIdx = 0) (some_bytes : r.fileSize ≠ 0) (small : r.fileSize < 2 ^ 31) :
    (processWrite .fileRequest r).2.writeIdx = (headerText r.fileSize r.linger).length := by
  obtain ⟨memory, index, frame⟩ := add_response_frame (statusLine 200 ok200Title) r
  have linger : (addStatusLine 200 ok200Title r).2.linger = r.linger := by
    rw [addStatusLine, frame]
  have begun := status_line_printed 200 ok200Title r start (by decide)
  have printed := headers_printed r.fileSize _ _ begun (by rw [linger]; exact file_headers_fit r.fileSize r.linger small)
  rw [linger] at printed
  rw [file_written r some_bytes, to_int_small r.fileSize (by omega) (by omega)]
  exact printed.index

end Header

-- The response on its way, and its two counters as they are without a width.
structure Counted where
  transmission : Transmission
  toSend : Int
  haveSent : Int

namespace Counted

def response (c : Counted) : Response := c.transmission.response

def start (r : Response) : Counted := ⟨.start r, r.writeIdx + r.fileSize, r.bytesHaveSend⟩

def step (c : Counted) : WriteEvent → Counted
  | .epollout => ⟨c.transmission.step .epollout, c.response.writeIdx + c.response.iv0.len + c.response.iv1.len, 0⟩
  | .accepted count => ⟨c.transmission.step (.accepted count), c.toSend - count, c.haveSent + count⟩
  | .eagain => { c with transmission := c.transmission.step .eagain }
  | .error => { c with transmission := c.transmission.step .error }

end Counted

def countedMachine : Machine Counted WriteEvent Empty where
  guard := fun c event => c.transmission.offers event
  effect := fun c event => .ok (c.step event)

structure Unwrapped (c : Counted) : Prop where
  toSend : c.response.bytesToSend = c.toSend
  haveSent : c.response.bytesHaveSend = c.haveSent

def SumFits (c : Counted) : WriteEvent → Prop
  | .epollout => c.response.writeIdx + c.response.iv0.len + c.response.iv1.len < 2 ^ 31
  | .accepted count => c.response.bytesHaveSend + count < 2 ^ 31
  | .eagain => True
  | .error => True

structure Counting (c : Counted) : Prop where
  unwrapped : Unwrapped c
  writing : c.transmission.phase = .writing →
    0 < c.response.bytesToSend ∧ c.response.bytesToSend < 2 ^ 31 ∧ 0 ≤ c.response.bytesHaveSend

section Steps

theorem counted_takes (c next : Counted) (event : WriteEvent) (taken : Takes countedMachine c event next) :
    c.transmission.offers event ∧ next = c.step event :=
  ⟨taken.1, (Except.ok.inj taken.2).symm⟩

theorem init_counters (r : Response) : r.init.bytesToSend = r.bytesToSend ∧ r.init.bytesHaveSend = r.bytesHaveSend := ⟨rfl, rfl⟩

theorem enter_counters (t : Transmission) :
    t.enter.response.bytesToSend = t.response.announced ∧ t.enter.response.bytesHaveSend = 0 := by
  by_cases nothing : t.response.announced = 0
  · obtain ⟨left, sent⟩ := init_counters t.response.recount
    rw [Transmission.enter_ends t nothing]
    exact ⟨left.trans (recount_bytes t.response), sent.trans (recount_buffers t.response).2⟩
  · rw [Transmission.enter_writes t nothing]
    exact ⟨recount_bytes t.response, (recount_buffers t.response).2⟩

theorem accept_counters (t : Transmission) (count : Nat) :
    (t.accept count).response.bytesToSend = toInt (t.response.bytesToSend - count) ∧
      (t.accept count).response.bytesHaveSend = toInt (t.response.bytesHaveSend + count) := by
  unfold Transmission.accept
  dsimp only
  split
  · dsimp only
    split <;> exact ⟨rfl, rfl⟩
  · exact ⟨rfl, rfl⟩

theorem park_counters (r : Response) (newadd : Int) :
    (r.park newadd).bytesToSend = r.bytesToSend ∧ (r.park newadd).bytesHaveSend = r.bytesHaveSend := by
  unfold Response.park
  split <;> exact ⟨rfl, rfl⟩

theorem announced_exact (r : Response) (fits : r.writeIdx + r.iv0.len + r.iv1.len < 2 ^ 31) :
    r.announced = r.writeIdx + r.iv0.len + r.iv1.len := by
  rw [announced_sum, to_int_add_right]
  exact to_int_small _ (by omega) (by omega)

theorem counting_at (t : Transmission) (toSend haveSent : Int) (left : t.response.bytesToSend = toSend)
    (sent : t.response.bytesHaveSend = haveSent)
    (writing : t.phase = .writing → 0 < t.response.bytesToSend ∧ t.response.bytesToSend < 2 ^ 31 ∧ 0 ≤ t.response.bytesHaveSend) :
    Counting ⟨t, toSend, haveSent⟩ := ⟨⟨left, sent⟩, writing⟩

theorem unwrapped_at (t : Transmission) (toSend haveSent : Int) (unwrapped : Unwrapped ⟨t, toSend, haveSent⟩) :
    t.response.bytesToSend = toSend ∧ t.response.bytesHaveSend = haveSent := ⟨unwrapped.toSend, unwrapped.haveSent⟩

theorem enter_counting (c : Counted) (fits : SumFits c .epollout) : Counting (c.step .epollout) := by
  obtain ⟨left, sent⟩ := enter_counters c.transmission
  have sum : c.transmission.response.announced = _ := announced_exact c.transmission.response fits
  apply counting_at c.transmission.enter _ _ (left.trans sum) sent
  intro writing
  have some_left : c.transmission.response.announced ≠ 0 := by
    intro nothing
    rw [Transmission.enter_ends _ nothing] at writing
    cases writing
  obtain ⟨_, upper⟩ := to_int_bounds c.transmission.response.announced
  have fit : (c.transmission.response.writeIdx : Int) + c.transmission.response.iv0.len + c.transmission.response.iv1.len < 2 ^ 31 := by
    simp only [SumFits, Counted.response] at fits
    omega
  omega

-- bytes_to_send is positive in the loop and writev takes less than 2 ^ 31, so only the
-- other counter can leave the range of an int.
theorem accept_counting (c : Counted) (count : Nat) (counting : Counting c) (fits : SumFits c (.accepted count))
    (offered : c.transmission.offers (.accepted count)) : Counting (c.step (.accepted count)) := by
  obtain ⟨⟨toSend, haveSent⟩, writing⟩ := counting
  obtain ⟨phase, _, small⟩ := offered
  obtain ⟨some_left, bounded, some_sent⟩ := writing phase
  obtain ⟨left, sent⟩ := accept_counters c.transmission count
  simp only [Counted.response, SumFits] at toSend haveSent some_left bounded some_sent fits
  have limit : maxTransfer = 2147479552 := rfl
  rw [to_int_small _ (by omega) (by omega)] at left sent
  apply counting_at (c.transmission.accept count) _ _ (by rw [left, toSend]) (by rw [sent, haveSent])
  intro still
  have some_more := Transmission.accept_writing c.transmission count still
  rw [to_int_small _ (by omega) (by omega)] at some_more
  omega

theorem park_counting (c : Counted) (counting : Counting c) : Counting (c.step .eagain) := by
  obtain ⟨left, sent⟩ := park_counters c.transmission.response c.transmission.newadd
  obtain ⟨⟨toSend, haveSent⟩, _⟩ := counting
  exact counting_at ⟨c.transmission.response.park c.transmission.newadd, c.transmission.newadd, c.transmission.accepted, .waiting⟩
    c.toSend c.haveSent (left.trans toSend) (sent.trans haveSent) (fun writing => by cases writing)

theorem counting_step (c : Counted) (event : WriteEvent) (next : Counted) (counting : Counting c) (fits : SumFits c event)
    (taken : Takes countedMachine c event next) : Counting next := by
  obtain ⟨offered, rfl⟩ := counted_takes c next event taken
  cases event with
  | epollout => exact enter_counting c fits
  | accepted count => exact accept_counting c count counting fits offered
  | eagain => exact park_counting c counting
  | error =>
      obtain ⟨toSend, haveSent⟩ := counting.unwrapped
      exact counting_at ⟨c.transmission.response.unmap, c.transmission.newadd, c.transmission.accepted, .failed⟩
        c.toSend c.haveSent toSend haveSent (fun writing => by cases writing)

theorem sum_wraps (c : Counted) (event : WriteEvent) (counting : Counting c) (offered : c.transmission.offers event)
    (exceeds : ¬ SumFits c event) : ¬ Unwrapped (c.step event) := by
  intro unwrapped
  cases event with
  | epollout =>
      obtain ⟨left, _⟩ := unwrapped_at c.transmission.enter _ _ unwrapped
      rw [(enter_counters c.transmission).1] at left
      have upper := (announced_bounds c.transmission.response).2
      simp only [SumFits, Counted.response] at exceeds left
      omega
  | accepted count =>
      obtain ⟨_, sent⟩ := unwrapped_at (c.transmission.accept count) _ _ unwrapped
      have before : c.transmission.response.bytesHaveSend = c.haveSent := counting.unwrapped.haveSent
      rw [(accept_counters c.transmission count).2] at sent
      have upper := (to_int_bounds (c.transmission.response.bytesHaveSend + count)).2
      simp only [SumFits, Counted.response] at exceeds
      omega
  | eagain => exact exceeds trivial
  | error => exact exceeds trivial

theorem counters_exact_iff (c : Counted) (events : List WriteEvent) (counting : Counting c) :
    Always countedMachine Unwrapped c events ↔ Along countedMachine SumFits c events :=
  always_iff_along countedMachine SumFits Counting Unwrapped counting_step
    (fun c event counting offered exceeds => ⟨c.step event, rfl, sum_wraps c event counting offered exceeds⟩)
    (fun _ counting => counting.unwrapped) c events counting

end Steps

section Files

variable (r : Response) (begun : r.writeIdx = 0) (some_bytes : r.fileSize ≠ 0)

include some_bytes

theorem file_counters : (processWrite .fileRequest r).2.fileSize = r.fileSize ∧ (processWrite .fileRequest r).2.bytesToSend =
    toInt ((processWrite .fileRequest r).2.writeIdx + r.fileSize) := by
  obtain ⟨memory, index, first⟩ := add_response_frame (statusLine 200 ok200Title) r
  obtain ⟨memory', index', second⟩ := add_headers_frame (toInt r.fileSize) (addStatusLine 200 ok200Title r).2
  have size : (addHeaders (toInt r.fileSize) (addStatusLine 200 ok200Title r).2).2.fileSize = r.fileSize := by
    rw [second, addStatusLine, first]
  rw [file_written r some_bytes]
  generalize (addHeaders (toInt r.fileSize) (addStatusLine 200 ok200Title r).2).2 = headed at size ⊢
  obtain ⟨sameSize, sameIndex, toSend⟩ := header_and_file_counters headed
  exact ⟨sameSize.trans size, by rw [toSend, sameIndex, size]⟩

include begun

theorem sizes_survive_iff (events : List WriteEvent) :
    (announcedLength (read (processWrite .fileRequest r).2.memory (processWrite .fileRequest r).2.writeBuf
        (processWrite .fileRequest r).2.writeIdx) = some (r.fileSize : Int) ∧
      Always countedMachine Unwrapped (Counted.start (processWrite .fileRequest r).2) events) ↔
    ((headerText r.fileSize r.linger).length + r.fileSize < 2 ^ 31 ∧
      Along countedMachine SumFits (Counted.start (processWrite .fileRequest r).2) events) := by
  have announced := announced_exact_iff r begun some_bytes
  obtain ⟨size, toSend⟩ := file_counters r some_bytes
  by_cases small : r.fileSize < 2 ^ 31
  · have header := file_header_length r begun some_bytes small
    have exact_length := announced.mpr small
    generalize (processWrite .fileRequest r).2 = s at exact_length size toSend header ⊢
    rw [header] at toSend
    have counters : Counted.start s = ⟨.start s, (headerText r.fileSize r.linger).length + r.fileSize, s.bytesHaveSend⟩ := by
      rw [Counted.start, header, size]
    by_cases room : (headerText r.fileSize r.linger).length + r.fileSize < 2 ^ 31
    · have counting : Counting (Counted.start s) := by
        rw [counters]
        exact counting_at (.start s) _ _ (toSend.trans (to_int_small _ (by omega) (by omega))) rfl fun writing => by cases writing
      rw [counters_exact_iff _ events counting]
      exact ⟨fun both => ⟨room, both.2⟩, fun both => ⟨exact_length, both.2⟩⟩
    · refine ⟨fun both => ?_, fun both => absurd both.1 room⟩
      have left := (always_here _ _ _ _ both.2).toSend
      rw [counters] at left
      have bytes : s.bytesToSend = (headerText r.fileSize r.linger).length + r.fileSize := left
      have upper := (to_int_bounds ((headerText r.fileSize r.linger).length + r.fileSize)).2
      omega
  · exact ⟨fun both => absurd (announced.mp both.1) small, fun both => absurd both.1 (by omega)⟩

end Files

theorem sizes_survive_iff_two_bytes :
    (announcedLength (read twoByteResponse.memory twoByteResponse.writeBuf twoByteResponse.writeIdx) = some 2 ∧
      Always countedMachine Unwrapped (Counted.start twoByteResponse) [.epollout, .accepted 1, .eagain, .epollout]) ↔
    ((headerText 2 true).length + 2 < 2 ^ 31 ∧
      Along countedMachine SumFits (Counted.start twoByteResponse) [.epollout, .accepted 1, .eagain, .epollout]) :=
  sizes_survive_iff twoByteFile rfl (by decide) [.epollout, .accepted 1, .eagain, .epollout]

def twoGibFile : Response := { twoByteFile with fileSize := 2 ^ 31 }

theorem two_gib_announced_negative :
    announcedLength (read (processWrite .fileRequest twoGibFile).2.memory (processWrite .fileRequest twoGibFile).2.writeBuf
        (processWrite .fileRequest twoGibFile).2.writeIdx) = some (-2147483648) ∧
      announcedLength (read (processWrite .fileRequest twoGibFile).2.memory (processWrite .fileRequest twoGibFile).2.writeBuf
        (processWrite .fileRequest twoGibFile).2.writeIdx) ≠ some (twoGibFile.fileSize : Int) ∧
      (processWrite .fileRequest twoGibFile).2.bytesToSend < 0 := by
  decide +kernel

end WzyServer.Http
