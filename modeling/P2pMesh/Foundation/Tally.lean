import Mathlib.Algebra.BigOperators.Group.Finset.Piecewise
import Mathlib.Algebra.Order.BigOperators.Group.Finset

/-! # Totals over finitely many parties

Each of finitely many parties is at a place, and a place has a weight. When one party moves,
the total changes by the weights of its two places (`Foundation.total_update`), so a quantity
that the parties pass around is accounted for by one equation.
-/

namespace Foundation

variable {Party Place : Type*} [Fintype Party] (weight : Place → Nat)

/-- The weights of the places of all parties together. -/
def total (places : Party → Place) : Nat :=
  ∑ party, weight (places party)

variable {weight} {places : Party → Place}

/-- If all parties weigh the same, the total is that many times. -/
theorem total_const {n : Nat} (all : ∀ party, weight (places party) = n) :
    total weight places = Fintype.card Party * n :=
  Finset.sum_const_nat fun party _ => all party

/-- If no party weighs anything, the total is zero. -/
theorem total_eq_zero (none : ∀ party, weight (places party) = 0) : total weight places = 0 :=
  total_const none

variable [DecidableEq Party]

/-- A party that moves changes the total by the weights of its places. -/
theorem total_update (weight : Place → Nat) (places : Party → Place) (party : Party)
    (place : Place) :
    total weight (Function.update places party place) + weight (places party) =
      total weight places + weight place := by
  have member := Finset.mem_univ party
  have others : ∀ other ∈ Finset.univ.erase party,
      weight (Function.update places party place other) = weight (places other) :=
    fun other listed => by rw [Function.update_of_ne (Finset.ne_of_mem_erase listed)]
  rw [total, total, ← Finset.add_sum_erase _ _ member, ← Finset.add_sum_erase _ _ member,
    Finset.sum_congr rfl others, Function.update_self]
  omega

/-- Two parties with weight count as two. -/
theorem add_le_total {first second : Party} (different : first ≠ second) :
    weight (places first) + weight (places second) ≤ total weight places := by
  rw [← Finset.sum_pair (f := fun party => weight (places party)) different]
  exact Finset.sum_le_sum_of_subset (Finset.subset_univ _)

end Foundation
