import WzyServer.Base.LinkedList
import WzyServer.Server.Timer

set_option autoImplicit false

namespace WzyServer.Server

open Heap LinkedList

-- sort_timer_lst and the util_timers in memory: a timer's id is its address.
structure SortTimerLst where
  memory : Memory (Node Timer)
  head : Option Addr
  tail : Option Addr

namespace SortTimerLst

def new : SortTimerLst := ⟨.empty, none, none⟩

def setNext (lst : SortTimerLst) (timer : Addr) (next : Option Addr) : Except HeapFault SortTimerLst := do
  return { lst with memory := ← lst.memory.write timer fun node => { node with next := next } }

def setPrev (lst : SortTimerLst) (timer : Addr) (prev : Option Addr) : Except HeapFault SortTimerLst := do
  return { lst with memory := ← lst.memory.write timer fun node => { node with prev := prev } }

-- The loop of the private add_timer. Its first argument bounds the rounds.
def addTimerFrom : Nat → SortTimerLst → Addr → Addr → Option Addr → Except HeapFault SortTimerLst
  | _, lst, timer, prev, none => do
      let lst ← lst.setNext prev (some timer)
      let lst ← lst.setPrev timer (some prev)
      let lst ← lst.setNext timer none
      return { lst with tail := some timer }
  | 0, _, _, _, some _ => .error .endless
  | rounds + 1, lst, timer, prev, some tmp => do
      let added ← lst.memory.read timer
      let node ← lst.memory.read tmp
      if added.value.expire < node.value.expire then
        let lst ← lst.setNext prev (some timer)
        let lst ← lst.setNext timer (some tmp)
        let lst ← lst.setPrev timer (some prev)
        lst.setPrev tmp (some timer)
      else addTimerFrom rounds lst timer tmp node.next

def addTimerAfter (lst : SortTimerLst) (timer : Addr) (lstHead : Option Addr) : Except HeapFault SortTimerLst := do
  let prev ← deref lstHead
  let node ← lst.memory.read prev
  addTimerFrom lst.memory.allocated lst timer prev node.next

def addTimer (lst : SortTimerLst) (timer : Addr) : Except HeapFault SortTimerLst :=
  match lst.head with
  | none => .ok { lst with head := some timer, tail := some timer }
  | some head => do
      let added ← lst.memory.read timer
      let node ← lst.memory.read head
      if added.value.expire < node.value.expire then
        let lst ← lst.setNext timer (some head)
        let lst ← lst.setPrev head (some timer)
        return { lst with head := some timer }
      else lst.addTimerAfter timer (some head)

def adjustHead (lst : SortTimerLst) (timer : Addr) : Except HeapFault SortTimerLst := do
  let node ← lst.memory.read timer
  let lst := { lst with head := node.next }
  let head ← deref lst.head
  let lst ← lst.setPrev head none
  let lst ← lst.setNext timer none
  lst.addTimerAfter timer lst.head

def adjustInner (lst : SortTimerLst) (timer : Addr) : Except HeapFault SortTimerLst := do
  let node ← lst.memory.read timer
  let prev ← deref node.prev
  let lst ← lst.setNext prev node.next
  let node ← lst.memory.read timer
  let next ← deref node.next
  let lst ← lst.setPrev next node.prev
  let node ← lst.memory.read timer
  lst.addTimerAfter timer node.next

def adjustTimer (lst : SortTimerLst) (timer : Addr) : Except HeapFault SortTimerLst := do
  let node ← lst.memory.read timer
  match node.next with
  | none => return lst
  | some tmp => do
      let after ← lst.memory.read tmp
      if node.value.expire < after.value.expire then return lst
      else if some timer = lst.head then lst.adjustHead timer
      else lst.adjustInner timer

def free (lst : SortTimerLst) (timer : Addr) : Except HeapFault SortTimerLst := do
  return { lst with memory := ← lst.memory.delete timer }

def delTimer (lst : SortTimerLst) (timer : Addr) : Except HeapFault SortTimerLst :=
  if some timer = lst.head ∧ some timer = lst.tail then do
    let lst ← lst.free timer
    return { lst with head := none, tail := none }
  else if lst.head = some timer then do
    let node ← lst.memory.read timer
    let lst := { lst with head := node.next }
    let head ← deref lst.head
    let lst ← lst.setPrev head none
    lst.free timer
  else if lst.tail = some timer then do
    let node ← lst.memory.read timer
    let lst := { lst with tail := node.prev }
    let tail ← deref lst.tail
    let lst ← lst.setNext tail none
    lst.free timer
  else do
    let node ← lst.memory.read timer
    let prev ← deref node.prev
    let lst ← lst.setNext prev node.next
    let node ← lst.memory.read timer
    let next ← deref node.next
    let lst ← lst.setPrev next node.prev
    lst.free timer

-- What tick does behind the call of cb_func. The tail stays as it is.
def dropHead (lst : SortTimerLst) (tmp : Addr) (next : Option Addr) : Except HeapFault SortTimerLst := do
  let lst := { lst with head := next }
  let lst ← match lst.head with
    | none => .ok lst
    | some head => lst.setPrev head none
  lst.free tmp

def tickFrom : Nat → SortTimerLst → Int → Option Addr → Except HeapFault (SortTimerLst × List Timer)
  | _, lst, _, none => .ok (lst, [])
  | 0, _, _, some _ => .error .endless
  | rounds + 1, lst, cur, some tmp => do
      let node ← lst.memory.read tmp
      if cur < node.value.expire then return (lst, [])
      else
        let lst ← lst.dropHead tmp node.next
        let (lst, called) ← tickFrom rounds lst cur lst.head
        return (lst, node.value :: called)

def tick (lst : SortTimerLst) (cur : Int) : Except HeapFault (SortTimerLst × List Timer) :=
  tickFrom lst.memory.allocated lst cur lst.head

def create (lst : SortTimerLst) (timer : Timer) : SortTimerLst :=
  { lst with memory := lst.memory.new timer.id ⟨timer, none, none⟩ }

def setExpire (lst : SortTimerLst) (timer : Addr) (expire : Int) : Except HeapFault SortTimerLst := do
  return { lst with memory := ← lst.memory.write timer fun node => { node with value := { node.value with expire := expire } } }

end SortTimerLst

end WzyServer.Server
