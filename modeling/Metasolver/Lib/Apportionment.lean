import Mathlib.Algebra.BigOperators.Group.List.Basic
import Mathlib.Algebra.Order.Floor.Semiring
import Mathlib.Algebra.Order.Field.Basic
import Mathlib.Tactic.Linarith

/-!
# Shares of a whole

A whole number is divided into shares that add up to it, and each share is rounded
down.  Every share loses less than one, so together they lose less than their
number.
-/

namespace Apportionment

variable {K : Type} [Field K] [LinearOrder K] [IsStrictOrderedRing K] [FloorSemiring K]
  {shares : List K} {whole : Nat}

/-- The shares rounded down. -/
def roundDown (shares : List K) : List Nat := shares.map fun share => ⌊share⌋₊

theorem sum_roundDown_le (nonneg : ∀ share ∈ shares, 0 ≤ share) :
    ((roundDown shares).sum : K) ≤ shares.sum := by
  induction shares with
  | nil => simp [roundDown]
  | cons share shares ih =>
      have first := Nat.floor_le (nonneg share List.mem_cons_self)
      have rest := ih fun later member => nonneg later (List.mem_cons_of_mem share member)
      simp only [roundDown, List.map_cons, List.sum_cons, Nat.cast_add] at rest ⊢
      exact add_le_add first rest

theorem sum_le_sum_roundDown : shares.sum ≤ ((roundDown shares).sum : K) + shares.length := by
  induction shares with
  | nil => simp [roundDown]
  | cons share shares ih =>
      have first := (Nat.lt_floor_add_one share).le
      simp only [roundDown, List.map_cons, List.sum_cons, List.length_cons, Nat.cast_add,
        Nat.cast_one] at ih ⊢
      linarith

theorem sum_lt_sum_roundDown (nonempty : shares ≠ []) :
    shares.sum < ((roundDown shares).sum : K) + shares.length := by
  cases shares with
  | nil => exact absurd rfl nonempty
  | cons share shares =>
      have first := Nat.lt_floor_add_one share
      have rest := @sum_le_sum_roundDown K _ _ _ _ shares
      simp only [roundDown, List.map_cons, List.sum_cons, List.length_cons, Nat.cast_add,
        Nat.cast_one] at rest ⊢
      linarith

/-- Shares of a whole number, rounded down, make up for all of it but less than one
    for each of them. -/
theorem roundDown_of_sum_eq (nonneg : ∀ share ∈ shares, 0 ≤ share) (nonempty : shares ≠ [])
    (all : shares.sum = whole) :
    (roundDown shares).sum ≤ whole ∧ whole < (roundDown shares).sum + shares.length := by
  refine ⟨?_, ?_⟩
  · have le := sum_roundDown_le nonneg
    rw [all] at le
    exact_mod_cast le
  · have lt := sum_lt_sum_roundDown nonempty
    rw [all] at lt
    exact_mod_cast lt

end Apportionment
