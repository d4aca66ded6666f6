import WzyServer.Base.Chunks
import WzyServer.Http.Resume

set_option autoImplicit false

namespace WzyServer.Http

open CString Chunks

-- The client's bytes arrive in batches, process_read runs after each, and the
-- server waits for the next one as long as the answer is NO_REQUEST.
def receive : Request → List (List UInt8) → Outcome × Request := deliver Request.feed parseRead (.code .noRequest)

def received : Request → List (List UInt8) → Nat := consumed Request.feed parseRead (.code .noRequest)

theorem receive_append (r : Request) (batches : List (List UInt8)) (batch : List UInt8)
    (waiting : (receive r batches).1 = .code .noRequest) :
    receive r (batches ++ [batch]) = parseRead ((receive r batches).2.feed batch) := by
  unfold receive at waiting ⊢
  rw [deliver_append, if_pos waiting, deliver_singleton]

-- The header block, if it completes, leaves m_content_length = 0: only a nonzero
-- length makes parse_headers enter CHECK_STATE_CONNECT.
def Bodiless (r : Request) (bytes : List UInt8) : Prop := (parseRead (r.feed bytes)).2.checkState ≠ .connect

theorem bodiless_resumable (r : Request) (bytes : List UInt8) (ordered : Ordered r) (bodiless : Bodiless r bytes) :
    Resumable Request.feed parseRead (.code .noRequest) r bytes := by
  intro early late within waiting
  obtain ⟨rest, whole⟩ := within
  have fedOrdered := feed_ordered r early ordered
  have notBody : (parseRead (r.feed early)).2.checkState ≠ .connect := by
    intro body
    apply bodiless
    rw [← whole, List.append_assoc, Request.feed_append]
    exact parse_read_feed_body (r.feed early) (late ++ rest) fedOrdered body
  rw [Request.feed_append, parse_read_feed (r.feed early) late fedOrdered notBody, if_pos waiting]

theorem header_segmentation (r : Request) (batches : List (List UInt8)) (bodiless : Bodiless r.init batches.flatten) :
    receive r.init batches = parseRead (r.init.feed (batches.take (received r.init batches)).flatten) := by
  have ordered := init_ordered r
  exact deliver_eq_run Request.feed parseRead (.code .noRequest) r.init (Request.feed_nil _)
    (parse_read_nothing r.init rfl ordered (by simp [Request.init])) batches
    (bodiless_resumable r.init batches.flatten ordered bodiless)

theorem header_segmentation_cut :
    receive Request.fresh.init [ascii "GET / HT", ascii "TP/1.1\r", ascii "\nHost: a\r\n", ascii "\r\n"] =
      parseRead (Request.fresh.init.feed
        ([ascii "GET / HT", ascii "TP/1.1\r", ascii "\nHost: a\r\n", ascii "\r\n"].take
          (received Request.fresh.init [ascii "GET / HT", ascii "TP/1.1\r", ascii "\nHost: a\r\n", ascii "\r\n"])).flatten) :=
  header_segmentation Request.fresh _ (by unfold Bodiless; decide +kernel)

end WzyServer.Http
