import WzyServer.Http.Sendable
import WzyServer.Server.Loop

set_option autoImplicit false

namespace WzyServer.Http

open CString Word Run

structure Mapping where
  address : Nat
  size : Nat
deriving DecidableEq, Repr

def pageSize : Nat := 4096

def mapFailed : Nat := 2 ^ 64 - 1

def pages (length : Nat) : Nat := (length + (pageSize - 1)) / pageSize * pageSize

-- munmap fails for an address inside a page, as MAP_FAILED is, and for no bytes.
def Mapping.Released (address length : Nat) (m : Mapping) : Prop :=
  address % pageSize = 0 ∧ 0 < length ∧ address ≤ m.address ∧ m.address + m.size ≤ address + pages length

instance (address length : Nat) (m : Mapping) : Decidable (m.Released address length) := inferInstanceAs (Decidable (_ ∧ _))

theorem released_whole (m : Mapping) (aligned : m.address % pageSize = 0) (someByte : 0 < m.size) :
    m.Released m.address m.size := by
  refine ⟨aligned, someByte, Nat.le_refl _, Nat.add_le_add_left ?_ _⟩
  unfold pages pageSize
  omega

def munmap (address length : Nat) (live : List Mapping) : List Mapping := live.filter fun m => ¬ m.Released address length

structure MappedAt (address size : Nat) (live : List Mapping) : Prop where
  some_byte : 0 < size
  aligned : address % pageSize = 0
  above : 0 < address
  below : address + pages size < mapFailed
  apart : ∀ m ∈ live, address + pages size ≤ m.address ∨ m.address + pages m.size ≤ address

-- What process_read comes to once it is through with a request; do_request has looked
-- at the file for all but the first. `file` has been opened and passed to mmap, which
-- gives an address or MAP_FAILED.
inductive Answer where
  | badRequest
  | noResource
  | forbidden (size : Nat)
  | directory (size : Nat)
  | file (size : Nat) (address : Option Nat)
deriving DecidableEq, Repr

def Answer.code : Answer → HttpCode
  | .badRequest => .badRequest
  | .noResource => .noResource
  | .forbidden _ => .forbiddenRequest
  | .directory _ => .badRequest
  | .file _ _ => .fileRequest

inductive Work where
  | reading
  | answering (ret : HttpCode)
  | closing
  | leaving
deriving DecidableEq, Repr

inductive Report where
  | hangup | input | output
deriving DecidableEq, Repr

-- One http_conn of users, its descriptor, and the files mapped for it and not yet
-- unmapped. `fresh`: no request has been answered since init().
structure Slot where
  isOpen : Bool
  hasFd : Bool
  interest : Option Server.Interest
  reported : Option Report
  works : List Work
  send : Transmission
  fresh : Bool
  live : List Mapping

-- The main loop accepts, waits, handles what was reported and runs the timers; write
-- takes one answer of writev after the other; the workers go through process().
inductive SlotEvent where
  | accept
  | report (report : Report)
  | hangup
  | readFails
  | readData (queued : Bool)
  | timeout
  | epollout
  | accepted (count : Nat)
  | eagain
  | error
  | moreInput (worker : Nat) (linger : Bool)
  | request (worker : Nat) (linger : Bool) (answer : Answer)
  | processWrite (worker : Nat)
  | closeConn (worker : Nat)
  | rearm (worker : Nat)

namespace Slot

def response (s : Slot) : Response := s.send.response

def withResponse (s : Slot) (r : Response) : Slot := { s with send := { s.send with response := r } }

def modfd (s : Slot) (interest : Server.Interest) : Slot := if s.isOpen then { s with interest := some interest } else s

-- cb_func of the timer: m_sockfd and m_file_address stay.
def close (s : Slot) : Slot := { s with isOpen := false, interest := none }

def closeConn (s : Slot) : Slot := if s.hasFd then { s.close with hasFd := false } else s

def accept (s : Slot) : Slot :=
  { s.withResponse s.response.init with isOpen := true, hasFd := true, interest := some .input, fresh := true }

def unmapped (s : Slot) : List Mapping :=
  if s.response.fileAddress ≠ 0 then munmap s.response.fileAddress s.response.fileSize s.live else s.live

def wrote (s : Slot) (t : Transmission) : Slot :=
  match t.phase with
  | .writing => { s with send := t }
  | .waiting => { s with send := t }.modfd .output
  | .nothingToSend => { s with send := t, fresh := true }.modfd .input
  | .sent =>
      let sent := { s with send := t, live := s.unmapped }.modfd .input
      if s.response.linger then { sent with fresh := true } else sent.close
  | .failed => { s with send := t, live := s.unmapped }.close

def lingers (s : Slot) (linger : Bool) : Slot := s.withResponse { s.response with linger := s.response.linger || linger }

def answer (s : Slot) : Answer → Slot
  | .badRequest | .noResource => { s with fresh := false }
  | .forbidden size | .directory size => { s.withResponse { s.response with fileSize := size } with fresh := false }
  | .file size address =>
      { s.withResponse { s.response with fileSize := size, fileAddress := address.getD mapFailed } with
        fresh := false, live := address.toList.map (⟨·, size⟩) ++ s.live }

def processWrite (s : Slot) (worker : Nat) (ret : HttpCode) : Slot :=
  let result := Http.processWrite ret s.response
  { s.withResponse result.2 with works := s.works.set worker (if result.1 then .leaving else .closing) }

def step (s : Slot) : SlotEvent → Slot
  | .accept => s.accept
  | .report report => { s with interest := none, reported := some report }
  | .hangup => { s with reported := none }.close
  | .readFails => { s with reported := none }.close
  | .readData queued => { s with reported := none, works := if queued then s.works ++ [.reading] else s.works }
  | .timeout => s.close
  | .epollout => { s with reported := none }.wrote s.send.enter
  | .accepted count => s.wrote (s.send.accept count)
  | .eagain => s.wrote (s.send.step .eagain)
  | .error => s.wrote (s.send.step .error)
  | .moreInput worker linger => { (s.lingers linger).modfd .input with works := s.works.eraseIdx worker }
  | .request worker linger answer => { (s.lingers linger).answer answer with works := s.works.set worker (.answering answer.code) }
  | .processWrite worker =>
      match s.works[worker]? with
      | some (.answering ret) => s.processWrite worker ret
      | _ => s
  | .closeConn worker => { s.closeConn with works := s.works.set worker .leaving }
  | .rearm worker => { (if s.hasFd then s.modfd .output else s) with works := s.works.eraseIdx worker }

def Idle (s : Slot) : Prop := s.send.phase ≠ .writing

def offers (s : Slot) : SlotEvent → Prop
  | .accept => s.Idle ∧ s.isOpen = false
  | .report report => s.Idle ∧ s.isOpen = true ∧ s.reported = none ∧
      match report with
      | .hangup => s.interest.isSome = true
      | .input => s.interest = some .input
      | .output => s.interest = some .output
  | .hangup => s.Idle ∧ s.reported = some .hangup
  | .readFails => s.Idle ∧ s.reported = some .input
  | .readData _ => s.Idle ∧ s.reported = some .input ∧ s.isOpen = true
  | .timeout => s.Idle ∧ s.isOpen = true
  | .epollout => s.Idle ∧ s.reported = some .output
  | .accepted count => s.send.phase = .writing ∧ s.isOpen = true ∧ count ≤ s.response.gather.length ∧ count ≤ maxTransfer
  | .eagain => s.send.phase = .writing ∧ s.isOpen = true
  | .error => s.send.phase = .writing
  | .moreInput worker _ => s.works[worker]? = some .reading
  | .request worker _ answer => s.works[worker]? = some .reading ∧
      match answer with
      | .file size (some address) => MappedAt address size s.live
      | _ => True
  | .processWrite worker => ∃ ret, s.works[worker]? = some (.answering ret)
  | .closeConn worker => s.works[worker]? = some .closing
  | .rearm worker => s.works[worker]? = some .leaving

def start (response : Response) : Slot where
  isOpen := false
  hasFd := false
  interest := none
  reported := none
  works := []
  send := .start response
  fresh := false
  live := []

end Slot

def slotMachine : Machine Slot SlotEvent Empty where
  guard := Slot.offers
  effect := fun s event => .ok (s.step event)

-- At most one mapping, and m_file_address is where it is; none, and a null pointer,
-- where a request starts; none of a connection that is closed. While one is open, an
-- address that unmap would pass to munmap is one not yet unmapped.
structure MappingsReleased (s : Slot) : Prop where
  single : s.live.length ≤ 1
  designated : ∀ m ∈ s.live, m.address = s.response.fileAddress
  started : s.fresh = true → s.response.fileAddress = 0 ∧ s.live = []
  closed : s.isOpen = false → s.live = []
  once : s.isOpen = true → s.response.fileAddress ≠ 0 → s.response.fileAddress ≠ mapFailed → s.live ≠ []

def NothingMapped (s : Slot) : Prop := s.response.fileAddress = 0 ∨ s.response.fileAddress = mapFailed

-- m_file_stat.st_size still reaches over all that is mapped.
def Covers (s : Slot) : Prop := ∀ m ∈ s.live, m.Released s.response.fileAddress s.response.fileSize

def InTime (s : Slot) : SlotEvent → Prop
  | .accept => s.response.fileAddress = 0
  | .hangup | .readFails | .timeout => NothingMapped s
  | .closeConn _ => s.hasFd = true → NothingMapped s
  | .request _ _ (.file _ address) => NothingMapped s ∧ (address.isSome = true → s.isOpen = true)
  | .epollout => s.response.announced = 0 → s.response.fileAddress = 0
  | .accepted count => toInt (s.response.bytesToSend - count) ≤ 0 → Covers s
  | .error => Covers s
  | _ => True

inductive Holding : Nat → List Mapping → Prop where
  | nothing : Holding 0 []
  | failed : Holding mapFailed []
  | mapped (address size : Nat) (above : 0 < address) (below : address < mapFailed) : Holding address [⟨address, size⟩]

structure Tidy (s : Slot) : Prop where
  holding : Holding s.response.fileAddress s.live
  started : s.fresh = true → s.response.fileAddress = 0
  closed : s.isOpen = false → s.live = []

-- m_file_address has no value before the first connection.
structure Untouched (s : Slot) : Prop where
  closed : s.isOpen = false
  silent : s.reported = none
  unworked : s.works = []
  idle : s.Idle
  unused : s.fresh = false
  unmapped : s.live = []

theorem holding_nothing (address : Nat) (live : List Mapping) (holding : Holding address live)
    (nothing : address = 0 ∨ address = mapFailed) : live = [] := by
  cases holding with
  | nothing => rfl
  | failed => rfl
  | mapped size above below => omega

theorem holding_some (address : Nat) (live : List Mapping) (holding : Holding address live)
    (something : ¬ (address = 0 ∨ address = mapFailed)) : live ≠ [] := by
  cases holding with
  | nothing => exact absurd (.inl rfl) something
  | failed => exact absurd (.inr rfl) something
  | mapped size above below => exact List.cons_ne_nil _ _

theorem holding_one (address : Nat) (live : List Mapping) (holding : Holding address live) :
    live.length ≤ 1 ∧ ∀ m ∈ live, m.address = address := by
  cases holding <;> simp

theorem holding_unmapped_iff (address length : Nat) (live : List Mapping) (holding : Holding address live) :
    (if address ≠ 0 then munmap address length live else live) = [] ↔ ∀ m ∈ live, m.Released address length := by
  cases holding with
  | nothing => simp
  | failed => simp [munmap]
  | mapped size above below =>
      have present : address ≠ 0 := by omega
      simp [munmap, present]

theorem tidy_nothing_iff (s : Slot) (tidy : Tidy s) : NothingMapped s ↔ s.live = [] := by
  refine ⟨holding_nothing _ _ tidy.holding, fun unmapped => ?_⟩
  by_contra something
  exact holding_some _ _ tidy.holding something unmapped

theorem tidy_released (s : Slot) (tidy : Tidy s) : MappingsReleased s := by
  obtain ⟨single, designated⟩ := holding_one _ _ tidy.holding
  refine ⟨single, designated, ?_, tidy.closed, ?_⟩
  · intro fresh
    have null := tidy.started fresh
    exact ⟨null, (tidy_nothing_iff s tidy).mp (.inl null)⟩
  · intro _ present mapped
    exact holding_some _ _ tidy.holding (not_or_intro present mapped)

theorem untouched_released (s : Slot) (untouched : Untouched s) : MappingsReleased s := by
  obtain ⟨closed, silent, unworked, idle, unused, unmapped⟩ := untouched
  refine ⟨by simp [unmapped], by simp [unmapped], ?_, fun _ => unmapped, ?_⟩
  · simp [unused]
  · simp [closed]

theorem tidy_frame (s next : Slot) (tidy : Tidy s) (address : next.response.fileAddress = s.response.fileAddress)
    (live : next.live = s.live) (fresh : next.fresh = true → s.fresh = true)
    (opened : next.isOpen = false → s.isOpen = false) : Tidy next := by
  obtain ⟨holding, started, closed⟩ := tidy
  refine ⟨by rwa [address, live], ?_, ?_⟩
  · intro again
    rw [address]
    exact started (fresh again)
  · intro shut
    rw [live]
    exact closed (opened shut)

theorem tidy_unmapped_iff (s : Slot) (tidy : Tidy s) : s.unmapped = [] ↔ Covers s :=
  holding_unmapped_iff _ _ _ tidy.holding

theorem modfd_registers (s : Slot) (interest : Server.Interest) : ∃ registered, s.modfd interest = { s with interest := registered } := by
  unfold Slot.modfd
  split
  · exact ⟨_, rfl⟩
  · exact ⟨s.interest, rfl⟩

theorem tidy_modfd (s : Slot) (interest : Server.Interest) (tidy : Tidy s) : Tidy (s.modfd interest) := by
  obtain ⟨registered, same⟩ := modfd_registers s interest
  rw [same]
  exact tidy_frame s _ tidy rfl rfl id id

theorem tidy_closed (s : Slot) (tidy : Tidy s) (nothing : NothingMapped s) : Tidy s.close := by
  have unmapped := (tidy_nothing_iff s tidy).mp nothing
  exact ⟨tidy.holding, tidy.started, fun _ => unmapped⟩

theorem lost_closed (s next : Slot) (tidy : Tidy s) (something : ¬ NothingMapped s) (shut : next.isOpen = false)
    (live : next.live = s.live) : ¬ MappingsReleased next := by
  intro released
  have unmapped := released.closed shut
  rw [live] at unmapped
  exact something ((tidy_nothing_iff s tidy).mpr unmapped)

theorem tidy_accept (s : Slot) (tracked : Untouched s ∨ Tidy s) (null : s.response.fileAddress = 0) : Tidy s.accept := by
  have unmapped : s.live = [] := by
    rcases tracked with untouched | tidy
    · exact untouched.unmapped
    · exact (tidy_nothing_iff s tidy).mp (.inl null)
  refine ⟨?_, fun _ => null, fun _ => unmapped⟩
  change Holding s.response.fileAddress s.live
  rw [null, unmapped]
  exact .nothing

theorem untouched_accepts (s : Slot) (event : SlotEvent) (untouched : Untouched s) (offered : s.offers event) : event = .accept := by
  obtain ⟨closed, silent, unworked, idle, _, _⟩ := untouched
  unfold Slot.Idle at idle
  cases event <;> simp_all [Slot.offers]

def SameMapping (r after : Response) : Prop := after.fileAddress = r.fileAddress ∧ after.fileSize = r.fileSize

theorem add_response_mapping (text : Text) (r : Response) : SameMapping r (addResponse text r).2 := by
  obtain ⟨memory, index, frame⟩ := add_response_frame text r
  rw [frame]
  exact ⟨rfl, rfl⟩

theorem add_headers_mapping (contentLen : Int) (r : Response) : SameMapping r (addHeaders contentLen r).2 := by
  obtain ⟨memory, index, frame⟩ := add_headers_frame contentLen r
  rw [frame]
  exact ⟨rfl, rfl⟩

theorem same_mapping_trans (r middle after : Response) (first : SameMapping r middle) (second : SameMapping middle after) :
    SameMapping r after := ⟨second.1.trans first.1, second.2.trans first.2⟩

theorem error_page_mapping (status : Nat) (title announced content : Text) (r : Response) :
    SameMapping r (errorPage status title announced content r).2 := by
  have line := add_response_mapping (statusLine status title) r
  have headers := same_mapping_trans _ _ _ line (add_headers_mapping announced.length _)
  exact same_mapping_trans _ _ _ headers (add_response_mapping content _)

theorem header_only_mapping (r after : Response) (same : SameMapping r after) : SameMapping r (headerOnly after) := same

theorem header_and_file_mapping (r after : Response) (same : SameMapping r after) : SameMapping r (headerAndFile after) := same

theorem process_write_mapping (ret : HttpCode) (r : Response) : SameMapping r (Http.processWrite ret r).2 := by
  have written := process_write_written ret r
  have line := add_response_mapping (statusLine 200 ok200Title) r
  generalize Http.processWrite ret r = result at written ⊢
  cases written with
  | page status title announced content short => exact header_only_mapping r _ (error_page_mapping status title announced content r)
  | dropped status title announced content => exact error_page_mapping status title announced content r
  | file begun same notEmpty =>
      rw [← addStatusLine, same] at line
      exact header_and_file_mapping r _ (same_mapping_trans _ _ _ line (add_headers_mapping _ begun))
  | emptyFile begun same =>
      rw [← addStatusLine, same] at line
      have headers := same_mapping_trans _ _ _ line (add_headers_mapping okString.length begun)
      exact same_mapping_trans _ _ _ headers (add_response_mapping okString _)
  | nothing => exact ⟨rfl, rfl⟩

theorem recount_address (r : Response) : r.recount.fileAddress = r.fileAddress := by
  unfold Response.recount
  rfl

theorem init_address (r : Response) : r.init.fileAddress = r.fileAddress := by
  unfold Response.init
  rfl

theorem enter_mapping (t : Transmission) : t.enter.response.fileAddress = t.response.fileAddress := by
  by_cases nothing : t.response.announced = 0
  · rw [t.enter_ends nothing]
    exact (init_address _).trans (recount_address _)
  · rw [t.enter_writes nothing]
    exact recount_address _

theorem continued_mapping (t : Transmission) (count : Nat) (left : 0 < toInt (t.response.bytesToSend - count)) :
    (t.accept count).phase = .writing ∧ (t.accept count).response.fileAddress = t.response.fileAddress := by
  obtain ⟨newadd, accepted, same⟩ := t.accept_continues count left
  rw [same]
  exact ⟨rfl, rfl⟩

theorem sent_mapping (t : Transmission) (count : Nat) (done : toInt (t.response.bytesToSend - count) ≤ 0) :
    (t.accept count).response.fileAddress = 0 := by
  unfold Transmission.accept
  dsimp only
  rw [if_pos done]
  dsimp only
  split <;> rfl

theorem park_mapping (r : Response) (newadd : Int) : (r.park newadd).fileAddress = r.fileAddress := by
  unfold Response.park
  split <;> rfl

theorem wrote_writing (s : Slot) (t : Transmission) (phase : t.phase = .writing) : s.wrote t = { s with send := t } := by
  simp only [Slot.wrote, phase]

theorem wrote_waiting (s : Slot) (t : Transmission) (phase : t.phase = .waiting) : s.wrote t = { s with send := t }.modfd .output := by
  simp only [Slot.wrote, phase]

theorem wrote_nothing (s : Slot) (t : Transmission) (phase : t.phase = .nothingToSend) :
    s.wrote t = { s with send := t, fresh := true }.modfd .input := by
  simp only [Slot.wrote, phase]

theorem wrote_failed (s : Slot) (t : Transmission) (phase : t.phase = .failed) :
    s.wrote t = { s with send := t, live := s.unmapped }.close := by
  simp only [Slot.wrote, phase]

theorem wrote_sent (s : Slot) (t : Transmission) (phase : t.phase = .sent) :
    (s.wrote t).live = s.unmapped ∧ (s.wrote t).response = t.response ∧ ((s.wrote t).fresh = true ∨ (s.wrote t).isOpen = false) := by
  obtain ⟨registered, same⟩ := modfd_registers { s with send := t, live := s.unmapped } .input
  simp only [Slot.wrote, phase, same]
  split
  · exact ⟨rfl, rfl, .inl rfl⟩
  · exact ⟨rfl, rfl, .inr rfl⟩

theorem tidy_send (s : Slot) (t : Transmission) (tidy : Tidy s) (address : t.response.fileAddress = s.response.fileAddress) :
    Tidy { s with send := t } := tidy_frame s _ tidy address rfl id id

theorem tidy_wrote_nothing (s : Slot) (t : Transmission) (tidy : Tidy s) (phase : t.phase = .nothingToSend)
    (address : t.response.fileAddress = s.response.fileAddress) (null : s.response.fileAddress = 0) : Tidy (s.wrote t) := by
  have sent := tidy_send s t tidy address
  rw [wrote_nothing s t phase]
  apply tidy_modfd
  exact ⟨sent.holding, fun _ => address.trans null, sent.closed⟩

theorem lost_wrote_nothing (s : Slot) (t : Transmission) (phase : t.phase = .nothingToSend)
    (address : t.response.fileAddress = s.response.fileAddress) (present : s.response.fileAddress ≠ 0) :
    ¬ MappingsReleased (s.wrote t) := by
  obtain ⟨registered, same⟩ := modfd_registers { s with send := t, fresh := true } .input
  rw [wrote_nothing s t phase, same]
  exact fun released => present (address.symm.trans (released.started rfl).1)

theorem tidy_wrote_sent (s : Slot) (t : Transmission) (tidy : Tidy s) (phase : t.phase = .sent) (null : t.response.fileAddress = 0)
    (covers : Covers s) : Tidy (s.wrote t) := by
  obtain ⟨live, response, _⟩ := wrote_sent s t phase
  have unmapped := (tidy_unmapped_iff s tidy).mpr covers
  refine ⟨?_, ?_, ?_⟩
  · rw [response, live, null, unmapped]
    exact .nothing
  · exact fun _ => by rw [response, null]
  · exact fun _ => by rw [live, unmapped]

theorem lost_wrote_sent (s : Slot) (t : Transmission) (tidy : Tidy s) (phase : t.phase = .sent) (short : ¬ Covers s) :
    ¬ MappingsReleased (s.wrote t) := by
  obtain ⟨live, _, rests⟩ := wrote_sent s t phase
  intro released
  have unmapped : (s.wrote t).live = [] := by
    rcases rests with fresh | shut
    · exact (released.started fresh).2
    · exact released.closed shut
  rw [live] at unmapped
  exact short ((tidy_unmapped_iff s tidy).mp unmapped)

theorem tidy_answer (s : Slot) (answer : Answer) (tidy : Tidy s)
    (room : ∀ size address, answer = .file size address → NothingMapped s ∧ (address.isSome = true → s.isOpen = true))
    (promised : ∀ size address, answer = .file size (some address) → MappedAt address size s.live) : Tidy (s.answer answer) := by
  have lasts : ∀ next : Slot, next.response.fileAddress = s.response.fileAddress → next.live = s.live → next.fresh = false →
      next.isOpen = s.isOpen → Tidy next := by
    intro next address live fresh same
    refine tidy_frame s next tidy address live ?_ ?_
    · simp [fresh]
    · simp [same]
  cases answer with
  | badRequest => exact lasts _ rfl rfl rfl rfl
  | noResource => exact lasts _ rfl rfl rfl rfl
  | forbidden size => exact lasts _ rfl rfl rfl rfl
  | directory size => exact lasts _ rfl rfl rfl rfl
  | file size address =>
      obtain ⟨nothing, stays⟩ := room size address rfl
      have unmapped := (tidy_nothing_iff s tidy).mp nothing
      cases address with
      | none =>
          refine ⟨?_, fun fresh => Bool.noConfusion fresh, fun _ => unmapped⟩
          change Holding mapFailed ([] ++ s.live)
          rw [unmapped]
          exact .failed
      | some address =>
          have mapping := promised size address rfl
          refine ⟨?_, fun fresh => Bool.noConfusion fresh, ?_⟩
          · change Holding address (⟨address, size⟩ :: s.live)
            rw [unmapped]
            have below := mapping.below
            exact .mapped address size mapping.above (by omega)
          · intro shut
            exact absurd (stays rfl) (by simpa [Slot.answer, Slot.withResponse] using shut)

theorem lost_answer (s : Slot) (size : Nat) (address : Option Nat) (tidy : Tidy s)
    (refused : ¬ (NothingMapped s ∧ (address.isSome = true → s.isOpen = true))) : ¬ MappingsReleased (s.answer (.file size address)) := by
  intro released
  by_cases nothing : NothingMapped s
  · have shut : address.isSome = true ∧ s.isOpen = false := by
      simpa [nothing] using refused
    obtain ⟨place, rfl⟩ := Option.isSome_iff_exists.mp shut.1
    have unmapped := released.closed shut.2
    exact List.cons_ne_nil _ _ unmapped
  · obtain ⟨m, rest, mapped⟩ := List.exists_cons_of_ne_nil (fun unmapped => nothing ((tidy_nothing_iff s tidy).mpr unmapped))
    have member : m ∈ (s.answer (.file size address)).live := List.mem_append_right _ (by rw [mapped]; exact List.mem_cons_self)
    have led : m.address = address.getD mapFailed := released.designated m member
    cases address with
    | none =>
        have was := (holding_one _ _ tidy.holding).2 m (by rw [mapped]; exact List.mem_cons_self)
        exact nothing (.inr (was.symm.trans led))
    | some place =>
        have single : (⟨place, size⟩ :: s.live).length ≤ 1 := released.single
        rw [mapped] at single
        simp at single

theorem tidy_step (s : Slot) (event : SlotEvent) (tidy : Tidy s) (offered : s.offers event) (inTime : InTime s event) :
    Tidy (s.step event) := by
  cases event with
  | accept => exact tidy_accept s (.inr tidy) inTime
  | report report => exact tidy_frame s _ tidy rfl rfl id id
  | hangup => exact tidy_closed { s with reported := none } (tidy_frame s _ tidy rfl rfl id id) inTime
  | readFails => exact tidy_closed { s with reported := none } (tidy_frame s _ tidy rfl rfl id id) inTime
  | readData queued => exact tidy_frame s _ tidy rfl rfl id id
  | timeout => exact tidy_closed s tidy inTime
  | epollout =>
      have read : Tidy { s with reported := none } := tidy_frame s _ tidy rfl rfl id id
      have address := enter_mapping s.send
      by_cases nothing : s.response.announced = 0
      · have phase : s.send.enter.phase = .nothingToSend := by rw [s.send.enter_ends nothing]
        exact tidy_wrote_nothing { s with reported := none } s.send.enter read phase address (inTime nothing)
      · have phase : s.send.enter.phase = .writing := by rw [s.send.enter_writes nothing]
        change Tidy (Slot.wrote { s with reported := none } s.send.enter)
        rw [wrote_writing _ _ phase]
        exact tidy_send _ _ read address
  | accepted count =>
      change Tidy (s.wrote (s.send.accept count))
      by_cases done : toInt (s.response.bytesToSend - count) ≤ 0
      · exact tidy_wrote_sent s _ tidy (s.send.accept_ends count done) (sent_mapping s.send count done) (inTime done)
      · obtain ⟨phase, address⟩ := continued_mapping s.send count (by exact Int.not_le.mp done)
        rw [wrote_writing _ _ phase]
        exact tidy_send s _ tidy address
  | eagain =>
      change Tidy (s.wrote (s.send.step .eagain))
      rw [wrote_waiting _ _ rfl]
      apply tidy_modfd
      exact tidy_send s _ tidy (park_mapping _ _)
  | error =>
      have unmapped := (tidy_unmapped_iff s tidy).mpr inTime
      change Tidy (s.wrote (s.send.step .error))
      rw [wrote_failed _ _ rfl]
      refine ⟨?_, fun _ => rfl, fun _ => unmapped⟩
      change Holding 0 s.unmapped
      rw [unmapped]
      exact .nothing
  | moreInput worker linger =>
      have parsed : Tidy (s.lingers linger) := tidy_frame s _ tidy rfl rfl id id
      exact tidy_frame _ _ (tidy_modfd _ .input parsed) rfl rfl id id
  | request worker linger answer =>
      have parsed : Tidy (s.lingers linger) := tidy_frame s _ tidy rfl rfl id id
      have answered : Tidy ((s.lingers linger).answer answer) := by
        apply tidy_answer _ answer parsed
        · rintro size address rfl
          exact inTime
        · rintro size address rfl
          exact offered.2
      exact tidy_frame _ _ answered rfl rfl id id
  | processWrite worker =>
      obtain ⟨ret, answering⟩ := offered
      have address := (process_write_mapping ret s.response).1
      have same : s.step (.processWrite worker) = s.processWrite worker ret := by simp only [Slot.step, answering]
      rw [same]
      exact tidy_frame s _ tidy address rfl id id
  | closeConn worker =>
      change Tidy { s.closeConn with works := s.works.set worker .leaving }
      unfold Slot.closeConn
      split
      · rename_i connected
        exact tidy_frame s.close _ (tidy_closed s tidy (inTime connected)) rfl rfl id id
      · exact tidy_frame s _ tidy rfl rfl id id
  | rearm worker =>
      change Tidy { (if s.hasFd then s.modfd .output else s) with works := s.works.eraseIdx worker }
      split
      · exact tidy_frame _ _ (tidy_modfd s .output tidy) rfl rfl id id
      · exact tidy_frame s _ tidy rfl rfl id id

theorem lost_step (s : Slot) (event : SlotEvent) (tidy : Tidy s) (late : ¬ InTime s event) : ¬ MappingsReleased (s.step event) := by
  cases event with
  | accept => exact fun released => late (released.started rfl).1
  | report report => exact absurd trivial late
  | hangup => exact lost_closed s _ tidy late rfl rfl
  | readFails => exact lost_closed s _ tidy late rfl rfl
  | readData queued => exact absurd trivial late
  | timeout => exact lost_closed s _ tidy late rfl rfl
  | epollout =>
      obtain ⟨nothing, present⟩ := Classical.not_imp.mp late
      have phase : s.send.enter.phase = .nothingToSend := by rw [s.send.enter_ends nothing]
      exact lost_wrote_nothing { s with reported := none } s.send.enter phase (enter_mapping s.send) present
  | accepted count =>
      obtain ⟨done, short⟩ := Classical.not_imp.mp late
      exact lost_wrote_sent s _ tidy (s.send.accept_ends count done) short
  | eagain => exact absurd trivial late
  | error =>
      change ¬ MappingsReleased (s.wrote (s.send.step .error))
      rw [wrote_failed _ _ rfl]
      exact fun released => late ((tidy_unmapped_iff s tidy).mp (released.closed rfl))
  | moreInput worker linger => exact absurd trivial late
  | request worker linger answer =>
      have parsed : Tidy (s.lingers linger) := tidy_frame s _ tidy rfl rfl id id
      cases answer with
      | file size address =>
          intro released
          apply lost_answer (s.lingers linger) size address parsed late
          obtain ⟨single, designated, started, closed, once⟩ := released
          exact ⟨single, designated, started, closed, once⟩
      | badRequest => exact absurd trivial late
      | noResource => exact absurd trivial late
      | forbidden size => exact absurd trivial late
      | directory size => exact absurd trivial late
  | processWrite worker => exact absurd trivial late
  | closeConn worker =>
      obtain ⟨connected, something⟩ := Classical.not_imp.mp late
      have closes : s.closeConn = { s.close with hasFd := false } := if_pos connected
      change ¬ MappingsReleased { s.closeConn with works := s.works.set worker .leaving }
      rw [closes]
      exact lost_closed s _ tidy something rfl rfl
  | rearm worker => exact absurd trivial late

theorem start_untouched (response : Response) : Untouched (.start response) := by
  have idle : (Slot.start response).Idle := by simp [Slot.Idle, Slot.start, Transmission.start]
  exact ⟨rfl, rfl, rfl, idle, rfl, rfl⟩

theorem mappings_released_iff (response : Response) (events : List SlotEvent) :
    Always slotMachine MappingsReleased (.start response) events ↔ Along slotMachine InTime (.start response) events := by
  refine always_iff_along slotMachine InTime (fun s => Untouched s ∨ Tidy s) MappingsReleased ?_ ?_ ?_ _ events
    (.inl (start_untouched response))
  · rintro s event next tracked inTime ⟨offered, effect⟩
    cases effect
    refine .inr ?_
    rcases tracked with untouched | tidy
    · cases untouched_accepts s event untouched offered
      exact tidy_accept s (.inl untouched) inTime
    · exact tidy_step s event tidy offered inTime
  · rintro s event tracked offered late
    refine ⟨s.step event, rfl, ?_⟩
    rcases tracked with untouched | tidy
    · cases untouched_accepts s event untouched offered
      exact fun released => late (released.started rfl).1
    · exact lost_step s event tidy late
  · rintro s (untouched | tidy)
    · exact untouched_released s untouched
    · exact tidy_released s tidy

theorem file_request_ready (r : Response) (notEmpty : r.fileSize ≠ 0) : (Http.processWrite .fileRequest r).1 = true := by
  have size := (add_response_mapping (statusLine 200 ok200Title) r).2
  simp only [Http.processWrite]
  rw [if_pos (by rw [addStatusLine, size]; exact notEmpty)]

def unread : List SlotEvent :=
  [.accept, .report .input, .readData true, .request 0 false (.file 2 (some 8192)), .processWrite 0, .rearm 0, .report .hangup, .hangup]

theorem mapping_outlives_connection : ¬ Always slotMachine MappingsReleased (.start { twoByteFile with fileAddress := 0 }) unread := by
  intro always
  let accepted := (Slot.start { twoByteFile with fileAddress := 0 }).accept
  let parsing := { accepted with interest := none, works := [.reading] }
  let answered := { parsing.answer (.file 2 (some 8192)) with works := [.answering .fileRequest] }
  let prepared := answered.processWrite 0 .fileRequest
  have idle : Slot.Idle accepted := by simp [accepted, Slot.Idle, Slot.accept, Slot.withResponse, Slot.start, Transmission.start]
  have parsed := ((always.2 accepted ⟨⟨idle, rfl⟩, rfl⟩).2 _ ⟨⟨idle, rfl, rfl, rfl⟩, rfl⟩).2 parsing ⟨⟨idle, rfl, rfl⟩, rfl⟩
  have nothingBefore : parsing.live = [] := rfl
  have mapping : MappedAt 8192 2 parsing.live := ⟨by decide, by decide, by decide, by decide, by simp [nothingBefore]⟩
  have mapped := parsed.2 answered ⟨⟨rfl, mapping⟩, rfl⟩
  have written := mapped.2 prepared ⟨⟨.fileRequest, rfl⟩, rfl⟩
  have ready : prepared.works = [.leaving] := by
    simp only [prepared, Slot.processWrite]
    rw [file_request_ready _ (by decide)]
    rfl
  have leaving : prepared.works[0]? = some .leaving := by rw [ready]; rfl
  have armed := (written.2 _ ⟨leaving, rfl⟩).2 _ ⟨⟨idle, rfl, rfl, rfl⟩, rfl⟩
  have closed := always_here _ _ _ _ (armed.2 _ ⟨⟨idle, rfl⟩, rfl⟩)
  exact List.cons_ne_nil _ _ (closed.closed rfl)

end WzyServer.Http
