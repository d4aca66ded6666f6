import Mathlib.Tactic.Common

set_option autoImplicit false

namespace WzyServer.Heap

abbrev Addr := Nat

inductive HeapFault where
  | null
  | freed
  | endless
deriving DecidableEq, Repr

structure Memory (Cell : Type) where
  cells : Addr → Option Cell
  allocated : Nat

namespace Memory

variable {Cell : Type}

def empty : Memory Cell := ⟨fun _ => none, 0⟩

def read (m : Memory Cell) (addr : Addr) : Except HeapFault Cell :=
  match m.cells addr with
  | some cell => .ok cell
  | none => .error .freed

def turn (m : Memory Cell) (addr : Addr) (change : Cell → Cell) : Memory Cell :=
  { m with cells := fun other => if other = addr then (m.cells other).map change else m.cells other }

def write (m : Memory Cell) (addr : Addr) (change : Cell → Cell) : Except HeapFault (Memory Cell) :=
  match m.cells addr with
  | some _ => .ok (m.turn addr change)
  | none => .error .freed

def new (m : Memory Cell) (addr : Addr) (cell : Cell) : Memory Cell :=
  ⟨fun other => if other = addr then some cell else m.cells other, m.allocated + 1⟩

def delete (m : Memory Cell) (addr : Addr) : Except HeapFault (Memory Cell) :=
  match m.cells addr with
  | some _ => .ok ⟨fun other => if other = addr then none else m.cells other, m.allocated - 1⟩
  | none => .error .freed

@[simp] theorem turn_here (m : Memory Cell) (addr : Addr) (change : Cell → Cell) :
    (m.turn addr change).cells addr = (m.cells addr).map change :=
  if_pos rfl

theorem turn_elsewhere (m : Memory Cell) (addr other : Addr) (change : Cell → Cell) (different : other ≠ addr) :
    (m.turn addr change).cells other = m.cells other :=
  if_neg different

@[simp] theorem turn_none_iff (m : Memory Cell) (addr other : Addr) (change : Cell → Cell) :
    (m.turn addr change).cells other = none ↔ m.cells other = none := by
  rw [turn]
  dsimp only
  split
  · exact Option.map_eq_none_iff
  · exact Iff.rfl

theorem read_here (m : Memory Cell) (addr : Addr) (cell : Cell) (here : m.cells addr = some cell) : m.read addr = .ok cell := by
  rw [read, here]

theorem write_here (m : Memory Cell) (addr : Addr) (change : Cell → Cell) (here : m.cells addr ≠ none) :
    m.write addr change = .ok (m.turn addr change) := by
  obtain ⟨cell, found⟩ := Option.ne_none_iff_exists'.mp here
  rw [write, found]

theorem delete_here (m : Memory Cell) (addr : Addr) (here : m.cells addr ≠ none) :
    m.delete addr = .ok ⟨fun other => if other = addr then none else m.cells other, m.allocated - 1⟩ := by
  obtain ⟨cell, found⟩ := Option.ne_none_iff_exists'.mp here
  rw [delete, found]

end Memory

def deref (pointer : Option Addr) : Except HeapFault Addr :=
  match pointer with
  | some addr => .ok addr
  | none => .error .null

end WzyServer.Heap
