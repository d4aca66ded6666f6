import WzyServer.Http.Framing

set_option autoImplicit false

namespace WzyServer.Http

open CString Word

section Sendable

structure Sendable (r : Response) : Prop where
  header : r.iv0 = ⟨r.writeBuf, r.writeIdx⟩
  nonempty : 0 < r.writeIdx
  fits : r.writeIdx < writeBufferSize
  file : r.ivCount = 1 ∨ (r.ivCount = 2 ∧ r.iv1 = ⟨r.fileAddress, r.fileSize⟩ ∧ r.fileSize ≠ 0)

theorem sendable_mapped (r : Response) (ready : Sendable r) (two : r.ivCount = 2) :
    r.iv1 = ⟨r.fileAddress, r.fileSize⟩ ∧ r.fileSize ≠ 0 := by
  rcases ready.file with one | ⟨_, mapped⟩
  · omega
  · exact mapped

theorem add_response_index (text : Text) (r : Response) (fits : r.writeIdx < writeBufferSize) :
    r.writeIdx ≤ (addResponse text r).2.writeIdx ∧ (addResponse text r).2.writeIdx < writeBufferSize := by
  have size : writeBufferSize = 1024 := rfl
  unfold addResponse
  dsimp only
  split
  · exact ⟨Nat.le_refl _, fits⟩
  · split
    · exact ⟨Nat.le_refl _, fits⟩
    · exact ⟨Nat.le_add_right _ _, by dsimp only; omega⟩

theorem add_headers_index (contentLen : Int) (r : Response) (fits : r.writeIdx < writeBufferSize) :
    r.writeIdx ≤ (addHeaders contentLen r).2.writeIdx ∧ (addHeaders contentLen r).2.writeIdx < writeBufferSize := by
  obtain ⟨first, firstFits⟩ := add_response_index _ r fits
  obtain ⟨second, secondFits⟩ := add_response_index _ _ firstFits
  obtain ⟨third, thirdFits⟩ := add_response_index _ _ secondFits
  exact ⟨Nat.le_trans first (Nat.le_trans second third), thirdFits⟩

theorem status_line_index (status : Nat) (title : Text) (r : Response) (fits : r.writeIdx < writeBufferSize)
    (short : (statusLine status title).length < writeBufferSize - 1) :
    0 < (addStatusLine status title r).2.writeIdx ∧ (addStatusLine status title r).2.writeIdx < writeBufferSize := by
  obtain ⟨grows, below⟩ := add_response_index (statusLine status title) r fits
  refine ⟨?_, below⟩
  by_cases start : r.writeIdx = 0
  · rw [(status_line_printed status title r start short).index]
    simp [statusLine, ascii]
  · exact Nat.lt_of_lt_of_le (Nat.pos_of_ne_zero start) grows

theorem error_page_index (status : Nat) (title announced content : Text) (r : Response) (fits : r.writeIdx < writeBufferSize)
    (short : (statusLine status title).length < writeBufferSize - 1) :
    0 < (errorPage status title announced content r).2.writeIdx ∧
      (errorPage status title announced content r).2.writeIdx < writeBufferSize := by
  obtain ⟨some, lineFits⟩ := status_line_index status title r fits short
  obtain ⟨headers, headersFit⟩ := add_headers_index announced.length _ lineFits
  obtain ⟨body, bodyFits⟩ := add_response_index content _ headersFit
  exact ⟨Nat.lt_of_lt_of_le some (Nat.le_trans headers body), bodyFits⟩

theorem header_only_sendable (r : Response) (nonempty : 0 < r.writeIdx) (fits : r.writeIdx < writeBufferSize) :
    Sendable (headerOnly r) := ⟨rfl, nonempty, fits, .inl rfl⟩

theorem header_and_file_sendable (r : Response) (nonempty : 0 < r.writeIdx) (fits : r.writeIdx < writeBufferSize)
    (size : r.fileSize ≠ 0) : Sendable (headerAndFile r) := ⟨rfl, nonempty, fits, .inr ⟨rfl, rfl, size⟩⟩

theorem process_write_sendable (ret : HttpCode) (r : Response) (fits : r.writeIdx < writeBufferSize)
    (ready : (processWrite ret r).1 = true) :
    Sendable (processWrite ret r).2 ∧ ((processWrite ret r).2.ivCount = 2 → (processWrite ret r).2.fileSize = r.fileSize) := by
  have written := process_write_written ret r
  generalize processWrite ret r = result at ready written ⊢
  cases written with
  | page status title announced content short =>
      obtain ⟨some, below⟩ := error_page_index status title announced content r fits short
      exact ⟨header_only_sendable _ some below, fun two => absurd two (by simp [headerOnly])⟩
  | file begun line notEmpty =>
      obtain ⟨memory, index, frame⟩ := add_response_frame (statusLine 200 ok200Title) r
      obtain ⟨some, lineFits⟩ := status_line_index 200 ok200Title r fits (by decide)
      have same : begun.fileSize = r.fileSize := by
        rw [← line, addStatusLine, frame]
      rw [line] at some lineFits
      obtain ⟨headers, headersFit⟩ := add_headers_index (toInt begun.fileSize) begun lineFits
      obtain ⟨memory', index', headed⟩ := add_headers_frame (toInt begun.fileSize) begun
      have size : (addHeaders (toInt begun.fileSize) begun).2.fileSize = begun.fileSize := by rw [headed]
      clear headed
      generalize (addHeaders (toInt begun.fileSize) begun).2 = headed at headers headersFit size ⊢
      refine ⟨header_and_file_sendable headed (Nat.lt_of_lt_of_le some headers) headersFit ?_, fun _ => size.trans same⟩
      rwa [size]
  | dropped status title announced content => cases ready
  | emptyFile begun line => cases ready
  | nothing => cases ready

end Sendable

section Steps

namespace Transmission

theorem enter_writes (t : Transmission) (some_left : t.response.announced ≠ 0) :
    t.enter = ⟨t.response.recount, 0, t.accepted, .writing⟩ := by
  unfold enter
  dsimp only
  rw [recount_bytes, if_neg some_left]

theorem enter_ends (t : Transmission) (nothing : t.response.announced = 0) :
    t.enter = ⟨t.response.recount.init, t.newadd, t.accepted, .nothingToSend⟩ := by
  unfold enter
  dsimp only
  rw [recount_bytes, if_pos nothing]

theorem accept_continues (t : Transmission) (count : Nat) (left : 0 < toInt (t.response.bytesToSend - count)) :
    ∃ newadd accepted, t.accept count = ⟨{ t.response with
      bytesToSend := toInt (t.response.bytesToSend - count), bytesHaveSend := toInt (t.response.bytesHaveSend + count) },
      newadd, accepted, .writing⟩ := by
  unfold accept
  dsimp only
  rw [if_neg (by omega)]
  exact ⟨_, _, rfl⟩

theorem accept_ends (t : Transmission) (count : Nat) (done : toInt (t.response.bytesToSend - count) ≤ 0) :
    (t.accept count).phase = .sent := by
  unfold accept
  dsimp only
  rw [if_pos done]

theorem accept_writing (t : Transmission) (count : Nat) (writing : (t.accept count).phase = .writing) :
    0 < toInt (t.response.bytesToSend - count) := by
  by_contra done
  rw [accept_ends t count (by omega)] at writing
  cases writing

end Transmission

theorem recount_iovecs (r : Response) : r.recount.iv0 = r.iv0 ∧ r.recount.iv1 = r.iv1 ∧ r.recount.ivCount = r.ivCount := by
  unfold Response.recount
  exact ⟨rfl, rfl, rfl⟩

theorem recount_buffers (r : Response) : r.recount.writeIdx = r.writeIdx ∧ r.recount.bytesHaveSend = 0 := by
  unfold Response.recount
  exact ⟨rfl, rfl⟩

theorem park_file (r : Response) (newadd : Int) (whole : r.iv0.len ≤ toSize r.bytesHaveSend) : r.park newadd =
    { r with iv0 := { r.iv0 with len := 0 }, iv1 := ⟨toSize (r.fileAddress + newadd), toSize r.bytesToSend⟩ } :=
  if_pos whole

theorem park_header (r : Response) (newadd : Int) (part : ¬ r.iv0.len ≤ toSize r.bytesHaveSend) : r.park newadd =
    { r with iv0 := ⟨toSize (r.writeBuf + r.bytesToSend), r.iv0.len - toSize r.bytesHaveSend⟩ } :=
  if_neg part

theorem gather_one (r : Response) (one : r.ivCount = 1) : r.gather.length = r.iv0.len := by
  simp [Response.gather, one, read_length]

theorem gather_two (r : Response) (two : r.ivCount = 2) : r.gather.length = r.iv0.len + r.iv1.len := by
  simp [Response.gather, two, read_length]

theorem announced_bounds (r : Response) : -2 ^ 31 ≤ r.announced ∧ r.announced < 2 ^ 31 := to_int_bounds _

theorem announced_sum (r : Response) : r.announced = toInt (r.writeIdx + r.iv0.len + toInt r.iv1.len) := by
  unfold Response.announced
  rw [to_int_add_left, Int.add_right_comm, to_int_add_right, Int.add_right_comm]

end Steps

end WzyServer.Http
