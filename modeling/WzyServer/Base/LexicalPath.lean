import Mathlib.Data.List.Infix

set_option autoImplicit false

namespace WzyServer.LexicalPath

inductive Component (Name : Type) where
  | stay
  | up
  | down (name : Name)
deriving DecidableEq, Repr

section Walk

variable {Name : Type}

def walk (start : List Name) : Component Name → List Name
  | .stay => start
  | .up => start.dropLast
  | .down name => start ++ [name]

def resolve (start : List Name) (path : List (Component Name)) : List Name := path.foldl walk start

structure Route (Name : Type) where
  ups : Nat
  names : List Name
deriving DecidableEq, Repr

def Route.extend (route : Route Name) : Component Name → Route Name
  | .stay => route
  | .up => if route.names = [] then ⟨route.ups + 1, []⟩ else ⟨route.ups, route.names.dropLast⟩
  | .down name => ⟨route.ups, route.names ++ [name]⟩

def route (path : List (Component Name)) : Route Name := path.foldl Route.extend ⟨0, []⟩

def Route.apply (start : List Name) (route : Route Name) : List Name :=
  start.take (start.length - route.ups) ++ route.names

theorem extend_apply (start : List Name) (route : Route Name) (component : Component Name) :
    (route.extend component).apply start = walk (route.apply start) component := by
  cases component with
  | stay => rfl
  | up =>
      unfold Route.extend walk
      by_cases empty : route.names = []
      · simp only [empty, if_true, Route.apply, List.append_nil]
        rw [List.dropLast_eq_take, List.take_take, List.length_take]
        congr 1
        omega
      · simp only [empty, if_false, Route.apply]
        exact (List.dropLast_append_of_ne_nil empty).symm
  | down name => simp [Route.extend, walk, Route.apply]

theorem resolve_route (start : List Name) (path : List (Component Name)) : resolve start path = (route path).apply start := by
  have general : ∀ (path : List (Component Name)) (before : Route Name),
      path.foldl walk (before.apply start) = (path.foldl Route.extend before).apply start := by
    intro path
    induction path with
    | nil => exact fun _ => rfl
    | cons component rest ih =>
        intro before
        rw [List.foldl_cons, List.foldl_cons, ← extend_apply, ih]
  have whole := general path ⟨0, []⟩
  simpa [Route.apply, resolve, route] using whole

theorem resolve_append (start : List Name) (first second : List (Component Name)) :
    resolve start (first ++ second) = resolve (resolve start first) second :=
  List.foldl_append

def Below (base place : List Name) : Prop := base <+: place ∧ base ≠ place

instance [DecidableEq Name] (base place : List Name) : Decidable (Below base place) :=
  inferInstanceAs (Decidable (base <+: place ∧ base ≠ place))

theorem below_route (base : List Name) (route : Route Name) :
    Below base (route.apply base) ↔ Below (base.drop (base.length - route.ups)) route.names := by
  have whole : base = base.take (base.length - route.ups) ++ base.drop (base.length - route.ups) :=
    (List.take_append_drop _ _).symm
  unfold Below Route.apply
  generalize base.take (base.length - route.ups) = kept at *
  generalize base.drop (base.length - route.ups) = left at *
  rw [whole, List.prefix_append_right_inj, ne_eq, List.append_cancel_left_eq]

end Walk

end WzyServer.LexicalPath
