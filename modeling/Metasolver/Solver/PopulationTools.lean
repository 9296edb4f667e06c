import Metasolver.Lib.Sorting
import Mathlib.Data.List.Range

/-!
# Selection of individuals

The functions of `population_tools.h` on the individuals and the fitnesses of all
islands, and the two functions of `distributed_solver` that call them.  `D` is
`double`; a decision vector and a fitness vector are a `pagmo::vector_double`.

The sorts come from outside: `std::sort`, which is given the comparison of the first
objectives, `pagmo::sort_population_con` and `pagmo::sort_population_mo`.  They are a
`Ranking`.  A NaN among the first objectives makes the comparison no strict weak order;
then `std::sort` is undefined by the standard, and here it permutes the indexes in a way
that nothing is known of.
-/

namespace Metasolver

open Sorting

/-- `pagmo::vector_double`. -/
abbrev VectorDouble (D : Type) := List D

/-- `pagmo::population`, as far as it is read: decision vectors and, at the same
    places, their fitness. -/
structure Population (D : Type) where
  x : List (VectorDouble D)
  f : List (VectorDouble D)
  sized : x.length = f.length
  deriving DecidableEq

/-- The individuals with their own fitness. -/
def Population.individuals {D : Type} (p : Population D) :
    List (VectorDouble D × VectorDouble D) :=
  p.x.zip p.f

/-- What the selection asks of `pagmo::problem`. -/
structure Problem where
  nobj : Nat
  nc : Nat
  deriving DecidableEq, Repr

/-- The sorts of indexes.  Those of pagmo are given the fitness vectors. -/
structure Ranking (D : Type) where
  sorter : Sorter Nat
  sortPopulationCon : List (VectorDouble D) → List Nat
  sortPopulationMo : List (VectorDouble D) → List Nat
  perm_con : ∀ fitness, (sortPopulationCon fitness).Perm (List.range fitness.length)
  perm_mo : ∀ fitness, (sortPopulationMo fitness).Perm (List.range fitness.length)

/-- `std::vector::resize`: new indexes are zero. -/
def resize (idx : List Nat) (N : Nat) : List Nat :=
  idx.take N ++ List.replicate (N - idx.length) 0

/-- `merge_populations` (`population_tools.h:16-30`) while no island changes. -/
def mergePopulations {D : Type} (archi : List (Population D)) :
    List (VectorDouble D) × List (VectorDouble D) :=
  archi.foldl (fun all isl => (all.1 ++ isl.x, all.2 ++ isl.f)) ([], [])

/-- A permutation of the indexes begins with one of them, and cutting it to one
    element keeps that. -/
theorem take_one_of_perm {n : Nat} {idx : List Nat} (perm : idx.Perm (List.range n))
    (some_ : n ≠ 0) : ∃ k, k < n ∧ idx.take 1 = [k] ∧ idx.length ≠ 0 := by
  cases idx with
  | nil =>
      have length := perm.length_eq
      rw [List.length_range, List.length_nil] at length
      exact absurd length.symm some_
  | cons k rest =>
      have member : k ∈ List.range n := perm.subset List.mem_cons_self
      exact ⟨k, List.mem_range.mp member, rfl, Nat.succ_ne_zero _⟩

theorem resize_one {idx : List Nat} (nonempty : idx.length ≠ 0) : resize idx 1 = idx.take 1 := by
  have enough : 1 - idx.length = 0 := by omega
  rw [resize, enough, List.replicate_zero, List.append_nil]

variable {D : Type} [LT D]

/-- `f[0] < g[0]`. -/
def FirstLess : VectorDouble D → VectorDouble D → Prop
  | a :: _, b :: _ => a < b
  | _, _ => False

/-- The comparison is a strict weak order of these fitnesses. -/
structure Ordered (fitness : List (VectorDouble D)) : Prop where
  asymm : ∀ f ∈ fitness, ∀ g ∈ fitness, FirstLess f g → ¬FirstLess g f
  cotrans : ∀ f ∈ fitness, ∀ g ∈ fitness, ∀ h ∈ fitness,
    FirstLess f h → FirstLess f g ∨ FirstLess g h

variable [DecidableLT D]

instance (f g : VectorDouble D) : Decidable (FirstLess f g) :=
  match f, g with
  | a :: _, b :: _ => inferInstanceAs (Decidable (a < b))
  | [], _ => isFalse id
  | _ :: _, [] => isFalse id

/-- The comparison that is handed to `std::sort` (`population_tools.h:46-49`). -/
def compareFirst (fitness : List (VectorDouble D)) (a b : Nat) : Bool :=
  decide (FirstLess (fitness[a]?.getD []) (fitness[b]?.getD []))

/-- The unconstrained version of `select_best_N_so`, up to the cut
    (`population_tools.h:42-50`). -/
def Ranking.sortByFirstObjective (ranking : Ranking D) (fitness : List (VectorDouble D)) :
    List Nat :=
  ranking.sorter.sort (compareFirst fitness) (List.range fitness.length)

theorem Ranking.perm_first (ranking : Ranking D) (fitness : List (VectorDouble D)) :
    (ranking.sortByFirstObjective fitness).Perm (List.range fitness.length) :=
  ranking.sorter.perm _ _

/-- Sorts that look at the first objective for every kind of problem. -/
def Ranking.byFirst : Ranking D where
  sorter := .insertion
  sortPopulationCon fitness := insertionSort (compareFirst fitness) (List.range fitness.length)
  sortPopulationMo fitness := insertionSort (compareFirst fitness) (List.range fitness.length)
  perm_con _ := insertionSort_perm _ _
  perm_mo _ := insertionSort_perm _ _

/-- `select_best_N_so` (`population_tools.h:36-60`). -/
def selectBestNSo (ranking : Ranking D) (prob : Problem) (fitness : List (VectorDouble D))
    (N : Nat) : List Nat :=
  if prob.nc = 0 then resize (ranking.sortByFirstObjective fitness) N
  else resize (ranking.sortPopulationCon fitness) N

/-- `get_best_N_individuals_indexes` (`population_tools.h:96-116`). -/
def getBestNIndividualsIndexes (ranking : Ranking D) (prob : Problem)
    (allFitness : List (VectorDouble D)) (N : Nat) : List Nat :=
  if prob.nobj > 1 then
    let sortedIndexes := ranking.sortPopulationMo allFitness
    sortedIndexes.take (min N sortedIndexes.length)
  else selectBestNSo ranking prob allFitness N

/-- `select_best_N_individuals` (`population_tools.h:148-164`); an index outside of
    `allPopulations` is undefined. -/
def selectBestNIndividuals (ranking : Ranking D) (prob : Problem)
    (allPopulations allFitness : List (VectorDouble D)) (N : Nat) :
    Option (List (VectorDouble D)) :=
  (getBestNIndividualsIndexes ranking prob allFitness N).mapM fun idx => allPopulations[idx]?

/-- `get_best_N_individuals` (`distributed_solver.cpp:250-266`). -/
def getBestNIndividuals (ranking : Ranking D) (prob : Problem) (archipelago : List (Population D))
    (N : Nat) : Option (List (VectorDouble D)) :=
  if archipelago.length = 0 then some []
  else
    let all := mergePopulations archipelago
    selectBestNIndividuals ranking prob all.1 all.2 N

/-- `get_best_individual` (`distributed_solver.cpp:238-242`). -/
def getBestIndividual (ranking : Ranking D) (prob : Problem) (archipelago : List (Population D)) :
    Option (VectorDouble D) :=
  (getBestNIndividuals ranking prob archipelago 1).map fun best => best.head?.getD []

variable {fitness : List (VectorDouble D)}

/-- The best of at least one individual is one of them, for every kind of problem. -/
theorem getBestNIndividualsIndexes_one (ranking : Ranking D) (prob : Problem)
    (some_ : fitness ≠ []) :
    ∃ k, k < fitness.length ∧ getBestNIndividualsIndexes ranking prob fitness 1 = [k] := by
  have some_ : fitness.length ≠ 0 := fun none => some_ (List.length_eq_zero_iff.mp none)
  unfold getBestNIndividualsIndexes selectBestNSo
  split_ifs with multi unconstrained
  · obtain ⟨k, bound, best, nonempty⟩ := take_one_of_perm (ranking.perm_mo fitness) some_
    refine ⟨k, bound, ?_⟩
    have one : min 1 (ranking.sortPopulationMo fitness).length = 1 := by omega
    simp only [one, best]
  · obtain ⟨k, bound, best, nonempty⟩ := take_one_of_perm (ranking.perm_first fitness) some_
    exact ⟨k, bound, by rw [resize_one nonempty, best]⟩
  · obtain ⟨k, bound, best, nonempty⟩ := take_one_of_perm (ranking.perm_con fitness) some_
    exact ⟨k, bound, by rw [resize_one nonempty, best]⟩

end Metasolver
