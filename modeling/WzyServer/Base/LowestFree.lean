import Mathlib.Data.Finset.Card
import Mathlib.Order.Interval.Finset.Nat

set_option autoImplicit false

namespace WzyServer.LowestFree

def Lowest (used : Finset Nat) (n : Nat) : Prop := n ∉ used ∧ ∀ lower < n, lower ∈ used

def below (used : Finset Nat) (bound : Nat) : Finset Nat := used.filter (· < bound)

theorem below_range (used : Finset Nat) (bound : Nat) : below used bound ⊆ Finset.range bound := fun _ member =>
  Finset.mem_range.mpr (Finset.mem_filter.mp member).2

theorem lowest_below_iff (used : Finset Nat) (n bound : Nat) (lowest : Lowest used n) :
    n < bound ↔ (below used bound).card < bound := by
  constructor
  · intro inside
    have missing : n ∉ below used bound := fun member => lowest.1 (Finset.mem_filter.mp member).1
    have strict : below used bound ⊂ Finset.range bound :=
      Finset.ssubset_iff_subset_ne.mpr ⟨below_range used bound, fun same => missing (same ▸ Finset.mem_range.mpr inside)⟩
    have fewer := Finset.card_lt_card strict
    rwa [Finset.card_range] at fewer
  · intro fewer
    by_contra outside
    have whole : Finset.range bound ⊆ below used bound := by
      intro lower member
      have small := Finset.mem_range.mp member
      exact Finset.mem_filter.mpr ⟨lowest.2 lower (by omega), small⟩
    have full := Finset.card_le_card whole
    rw [Finset.card_range] at full
    omega

theorem below_union (held taken : Finset Nat) (bound : Nat) (apart : Disjoint held taken) (inside : ∀ n ∈ taken, n < bound) :
    (below (held ∪ taken) bound).card = (below held bound).card + taken.card := by
  have all : taken.filter (· < bound) = taken := Finset.filter_true_of_mem inside
  rw [below, Finset.filter_union, all, Finset.card_union_of_disjoint]
  · rfl
  · exact Finset.disjoint_of_subset_left (Finset.filter_subset _ _) apart

theorem lowest_range (bound : Nat) : Lowest (Finset.range bound) bound :=
  ⟨Finset.notMem_range_self, fun _ lower => Finset.mem_range.mpr lower⟩

end WzyServer.LowestFree
