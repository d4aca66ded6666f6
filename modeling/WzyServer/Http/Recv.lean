import WzyServer.Http.Request

set_option autoImplicit false

namespace WzyServer.Http

open CString

-- What recv answers once nothing is pending, whatever the length it is given.
inductive Ending where
  | again | closed | failed
deriving DecidableEq, Repr

-- The bytes that the following calls of recv find, a call's bytes at a time.
structure Socket where
  pending : List (List UInt8)
  ending : Ending
  some_bytes : ∀ data ∈ pending, data ≠ []

-- The return value of recv: bytes, none of them for 0, or -1 with its errno.
inductive Received where
  | bytes (data : List UInt8)
  | again
  | failed

def Socket.behind (s : Socket) (data : List UInt8) (rest : List (List UInt8)) (pending : s.pending = data :: rest) : Socket where
  pending := rest
  ending := s.ending
  some_bytes := fun _ member => s.some_bytes _ (pending ▸ List.mem_cons_of_mem data member)

def Socket.cut (s : Socket) (data : List UInt8) (rest : List (List UInt8)) (pending : s.pending = data :: rest) (room : Nat)
    (more : room < data.length) : Socket where
  pending := data.drop room :: rest
  ending := s.ending
  some_bytes := List.forall_mem_cons.mpr
    ⟨fun none => by simp at none; omega, fun _ member => s.some_bytes _ (pending ▸ List.mem_cons_of_mem data member)⟩

def recv (room : Nat) (s : Socket) : Received × Socket :=
  match pending : s.pending with
  | [] =>
      match s.ending with
      | .again => (.again, s)
      | .closed => (.bytes [], s)
      | .failed => (.failed, s)
  | data :: rest =>
      if more : room < data.length then (.bytes (data.take room), s.cut data rest pending room more)
      else (.bytes data, s.behind data rest pending)

namespace Request

-- The loop of http_conn::read, with fuel for every byte of the space (read_from_enough).
def readFrom : Nat → Request → Socket → Bool × Request × Socket
  | 0, r, s => (false, r, s)
  | fuel + 1, r, s =>
      match recv (readBufferSize - r.readIdx) s with
      | (.again, s) => (true, r, s)
      | (.failed, s) => (false, r, s)
      | (.bytes data, s) => if data = [] then (false, r, s) else readFrom fuel (r.feed data) s

def read (r : Request) (s : Socket) : Bool × Request × Socket :=
  if readBufferSize ≤ r.readIdx then (false, r, s)
  else readFrom (readBufferSize - r.readIdx + 1) r s

end Request

section Reading

theorem recv_waits (room : Nat) (s : Socket) (nothing : s.pending = []) (ending : s.ending = .again) :
    recv room s = (.again, s) := by
  obtain ⟨pending, last, some_bytes⟩ := s
  subst nothing ending
  rfl

theorem recv_next (room : Nat) (s : Socket) (data : List UInt8) (rest : List (List UInt8)) (pending : s.pending = data :: rest)
    (fits : data.length ≤ room) : recv room s = (.bytes data, s.behind data rest pending) := by
  obtain ⟨all, last, some_bytes⟩ := s
  cases pending
  exact dif_neg (by omega)

theorem recv_fits (room : Nat) (s next : Socket) (data : List UInt8) (received : recv room s = (.bytes data, next)) :
    data.length ≤ room := by
  unfold recv at received
  split at received
  · split at received <;> cases received
    exact Nat.zero_le _
  · split at received
    · cases received
      exact List.length_take_le ..
    · cases received
      omega

theorem read_from_enough (fuel more : Nat) (r : Request) (s : Socket) (enough : readBufferSize - r.readIdx < fuel)
    (enoughMore : readBufferSize - r.readIdx < more) : r.readFrom fuel s = r.readFrom more s := by
  induction fuel generalizing more r s with
  | zero => omega
  | succ fuel ih =>
      obtain ⟨less, rfl⟩ := Nat.exists_eq_succ_of_ne_zero (show more ≠ 0 by omega)
      rw [Request.readFrom, Request.readFrom]
      cases answered : recv (readBufferSize - r.readIdx) s with
      | mk received next =>
          cases received with
          | again => rfl
          | failed => rfl
          | bytes data =>
              have fits := recv_fits _ s next data answered
              dsimp only
              by_cases none : data = []
              · rw [if_pos none, if_pos none]
              · have long := List.length_pos_iff.mpr none
                rw [if_neg none, if_neg none]
                exact ih less (r.feed data) next (by rw [Request.feed_read_idx]; omega) (by rw [Request.feed_read_idx]; omega)

theorem pending_length (s : Socket) : s.pending.length ≤ s.pending.flatten.length := by
  obtain ⟨pending, _, some_bytes⟩ := s
  dsimp only
  induction pending with
  | nil => exact Nat.le_refl 0
  | cons data rest ih =>
      obtain ⟨first, later⟩ := List.forall_mem_cons.mp some_bytes
      have long := List.length_pos_iff.mpr first
      have behind := ih later
      rw [List.flatten_cons, List.length_append, List.length_cons]
      omega

-- Where the bytes fill the space, recv is called once more with length 0.
theorem read_from_all (fuel : Nat) (r : Request) (s : Socket) (ending : s.ending = .again)
    (fits : r.readIdx + s.pending.flatten.length ≤ readBufferSize) (enough : s.pending.length < fuel) :
    (r.readFrom fuel s).1 = true ∧ (r.readFrom fuel s).2.1 = r.feed s.pending.flatten := by
  induction fuel generalizing r s with
  | zero => omega
  | succ fuel ih =>
      cases pending : s.pending with
      | nil =>
          rw [Request.readFrom, recv_waits _ s pending ending, List.flatten_nil, Request.feed_nil]
          exact ⟨rfl, rfl⟩
      | cons data rest =>
          have some_data := s.some_bytes data (pending ▸ List.mem_cons_self ..)
          rw [pending, List.flatten_cons, List.length_append] at fits
          rw [pending, List.length_cons] at enough
          have room : (r.feed data).readIdx + rest.flatten.length ≤ readBufferSize := by
            rw [Request.feed_read_idx]
            omega
          obtain ⟨success, fed⟩ := ih (r.feed data) (s.behind data rest pending) ending room (Nat.lt_of_succ_lt_succ enough)
          rw [Request.readFrom, recv_next _ s data rest pending (by omega)]
          simp only [if_neg some_data]
          rw [List.flatten_cons, Request.feed_append]
          exact ⟨success, fed⟩

theorem read_all (r : Request) (s : Socket) (space : r.readIdx < readBufferSize) (ending : s.ending = .again)
    (fits : r.readIdx + s.pending.flatten.length ≤ readBufferSize) :
    (r.read s).1 = true ∧ (r.read s).2.1 = r.feed s.pending.flatten := by
  have short := pending_length s
  rw [Request.read, if_neg (by omega)]
  exact read_from_all (readBufferSize - r.readIdx + 1) r s ending fits (by omega)

theorem read_accepts (r : Request) (s : Socket) (space : r.readIdx < readBufferSize) (ending : s.ending = .again)
    (fits : r.readIdx + s.pending.flatten.length ≤ readBufferSize) :
    (r.read s).1 = true ∧ (r.read s).2.1 = r.feed s.pending.flatten ∧
      (r.read s).2.1.readIdx = r.readIdx + s.pending.flatten.length ∧
      CString.read (r.read s).2.1.readBuf r.readIdx s.pending.flatten.length = s.pending.flatten ∧
      ∀ index < r.readIdx, (r.read s).2.1.readBuf index = r.readBuf index := by
  obtain ⟨success, fed⟩ := read_all r s space ending fits
  rw [fed]
  exact ⟨success, rfl, rfl, read_write _ _ _, fun index below => write_before _ _ _ _ below⟩

def oneFree : Request := { Request.fresh with readIdx := 2047 }

theorem read_accepts_last_byte :
    (oneFree.read ⟨[[97]], .again, by decide⟩).1 = true ∧ (oneFree.read ⟨[[97]], .again, by decide⟩).2.1 = oneFree.feed [[97]].flatten ∧
      (oneFree.read ⟨[[97]], .again, by decide⟩).2.1.readIdx = 2047 + [[97]].flatten.length ∧
      CString.read (oneFree.read ⟨[[97]], .again, by decide⟩).2.1.readBuf 2047 [[97]].flatten.length = [[97]].flatten ∧
      ∀ index < 2047, (oneFree.read ⟨[[97]], .again, by decide⟩).2.1.readBuf index = oneFree.readBuf index :=
  read_accepts oneFree ⟨[[97]], .again, by decide⟩ (by decide) rfl (by decide)

end Reading

end WzyServer.Http
