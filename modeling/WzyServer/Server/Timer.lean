import Mathlib.Data.List.Perm.Basic
import Mathlib.Data.List.Nodup

set_option autoImplicit false

namespace WzyServer.Server

abbrev Fd := Nat

-- An accepted connection: the descriptor, and which of the connections that the
-- descriptor was handed out for.
structure Conn where
  fd : Fd
  number : Nat
deriving DecidableEq, Repr

-- A util_timer without its links. `id` is the object, which no later `new`
-- returns again; `userData` is the index of the client_data in users_timer. The
-- connection the timer was created for is not in the source.
structure Timer where
  id : Nat
  expire : Int
  userData : Fd
  owner : Conn
deriving DecidableEq, Repr

abbrev TimerList := List Timer

def addTimer (timer : Timer) : TimerList → TimerList
  | [] => [timer]
  | tmp :: rest => if timer.expire < tmp.expire then timer :: tmp :: rest else tmp :: addTimer timer rest

-- The timer is taken out and inserted again behind its place, never before it.
def adjustTimer (id : Nat) : TimerList → TimerList
  | [] => []
  | timer :: rest => if timer.id = id then addTimer timer rest else timer :: adjustTimer id rest

def delTimer (id : Nat) (timers : TimerList) : TimerList := timers.filter fun timer => timer.id ≠ id

def setExpire (id : Nat) (expire : Int) (timers : TimerList) : TimerList :=
  timers.map fun timer => if timer.id = id then { timer with expire := expire } else timer

def refreshTimer (id : Nat) (expire : Int) (timers : TimerList) : TimerList := adjustTimer id (setExpire id expire timers)

structure Link where
  id : Nat
  userData : Fd
  owner : Conn
deriving DecidableEq

def Timer.link (timer : Timer) : Link := ⟨timer.id, timer.userData, timer.owner⟩

def links (timers : TimerList) : List Link := timers.map Timer.link

theorem add_timer_perm (timer : Timer) (timers : TimerList) : (addTimer timer timers).Perm (timer :: timers) := by
  induction timers with
  | nil => exact .refl _
  | cons tmp rest ih =>
      unfold addTimer
      split
      · exact .refl _
      · exact (ih.cons tmp).trans (.swap timer tmp rest)

theorem adjust_timer_perm (id : Nat) (timers : TimerList) : (adjustTimer id timers).Perm timers := by
  induction timers with
  | nil => exact .refl _
  | cons timer rest ih =>
      unfold adjustTimer
      split
      · exact add_timer_perm timer rest
      · exact ih.cons timer

theorem set_expire_links (id : Nat) (expire : Int) (timers : TimerList) : links (setExpire id expire timers) = links timers := by
  simp only [links, setExpire, List.map_map]
  apply List.map_congr_left
  intro timer _
  simp only [Function.comp_apply]
  split <;> rfl

theorem add_timer_links (timer : Timer) (timers : TimerList) :
    (links (addTimer timer timers)).Perm (timer.link :: links timers) :=
  (add_timer_perm timer timers).map Timer.link

theorem refresh_timer_links (id : Nat) (expire : Int) (timers : TimerList) :
    (links (refreshTimer id expire timers)).Perm (links timers) := by
  have same := (adjust_timer_perm id (setExpire id expire timers)).map Timer.link
  rwa [← links, ← links, set_expire_links] at same

theorem del_timer_links (id : Nat) (timers : TimerList) :
    links (delTimer id timers) = (links timers).filter fun link => link.id ≠ id := by
  simp only [links, delTimer, List.filter_map]
  rfl

end WzyServer.Server
