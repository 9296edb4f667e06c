import Metasolver.Lib.Picking
import Metasolver.Worker.SplitPopulation

/-!
# What is selected

The functions of `population_tools.h` on the merged islands: which indexes
`get_best_N_individuals_indexes` returns for every kind of problem and every `N`, and
which individuals of the islands `select_best_N_individuals` and
`select_best_N_into_new_population` make of them.

`std::sort` promises an order only where the comparison is a strict weak order (`Ordered`),
which a NaN among the first objectives would spoil, and it may place equal elements in
either way.
-/

namespace Metasolver

open Dealing Picking Sorting

variable {D : Type} [LT D] [DecidableLT D]

/-! ## The indexes -/

/-- The selection of `N` out of the individuals: as many as there are, up to `N`, each once,
    and to look them up finds one individual for each. -/
structure RealAndDistinct (ranking : Ranking D) (prob : Problem)
    (allFitness : List (VectorDouble D)) (N : Nat) : Prop where
  count : (getBestNIndividualsIndexes ranking prob allFitness N).length =
    min N allFitness.length
  distinct : (getBestNIndividualsIndexes ranking prob allFitness N).Nodup
  inside : ∀ k ∈ getBestNIndividualsIndexes ranking prob allFitness N, k < allFitness.length
  found : ∀ allPopulations : List (VectorDouble D), allPopulations.length = allFitness.length →
    selectBestNIndividuals ranking prob allPopulations allFitness N =
      some (pick allPopulations (getBestNIndividualsIndexes ranking prob allFitness N))

variable {ranking : Ranking D} {prob : Problem} {allFitness : List (VectorDouble D)} {N : Nat}

/-- The order the indexes are cut from. -/
def sortedIndexes (ranking : Ranking D) (prob : Problem) (allFitness : List (VectorDouble D)) :
    List Nat :=
  if prob.nobj > 1 then ranking.sortPopulationMo allFitness
  else if prob.nc = 0 then ranking.sortByFirstObjective allFitness
  else ranking.sortPopulationCon allFitness

theorem sortedIndexes_perm :
    (sortedIndexes ranking prob allFitness).Perm (List.range allFitness.length) := by
  unfold sortedIndexes
  split_ifs
  · exact ranking.perm_mo allFitness
  · exact ranking.perm_first allFitness
  · exact ranking.perm_con allFitness

theorem resize_of_le {idx : List Nat} (enough : N ≤ idx.length) : resize idx N = idx.take N := by
  rw [resize, Nat.sub_eq_zero_of_le enough, List.replicate_zero, List.append_nil]

theorem length_resize {idx : List Nat} : (resize idx N).length = N := by
  rw [resize, List.length_append, List.length_take, List.length_replicate]
  omega

/-- The multi-objective branch cuts at the end of the list, the other two do so only as long
    as the end is not reached. -/
theorem getBestNIndividualsIndexes_eq (enough : prob.nobj > 1 ∨ N ≤ allFitness.length) :
    getBestNIndividualsIndexes ranking prob allFitness N =
      (sortedIndexes ranking prob allFitness).take N := by
  have length : (sortedIndexes ranking prob allFitness).length = allFitness.length :=
    sortedIndexes_perm.length_eq.trans List.length_range
  unfold getBestNIndividualsIndexes selectBestNSo
  unfold sortedIndexes at length ⊢
  by_cases multi : prob.nobj > 1
  · simp only [if_pos multi]
    exact List.take_eq_take_min.symm
  · have enough := enough.resolve_left multi
    simp only [if_neg multi] at length ⊢
    by_cases unconstrained : prob.nc = 0
    · simp only [if_pos unconstrained] at length ⊢
      exact resize_of_le (length ▸ enough)
    · simp only [if_neg unconstrained] at length ⊢
      exact resize_of_le (length ▸ enough)

/-- With a single objective `resize` always makes `N` indexes. -/
theorem length_getBestNIndividualsIndexes_so (single : ¬prob.nobj > 1) :
    (getBestNIndividualsIndexes ranking prob allFitness N).length = N := by
  unfold getBestNIndividualsIndexes selectBestNSo
  rw [if_neg single]
  split_ifs
  · exact length_resize
  · exact length_resize

/-- The selection is real and without repetition exactly if the problem has several
    objectives or there are `N` individuals. -/
theorem realAndDistinct_iff (ranking : Ranking D) (prob : Problem)
    (allFitness : List (VectorDouble D)) (N : Nat) :
    RealAndDistinct ranking prob allFitness N ↔ prob.nobj > 1 ∨ N ≤ allFitness.length := by
  constructor
  · intro real
    by_contra neither
    rw [not_or] at neither
    have count := real.count
    rw [length_getBestNIndividualsIndexes_so neither.1] at count
    omega
  · intro enough
    have cut := @getBestNIndividualsIndexes_eq D _ _ ranking prob allFitness N enough
    obtain ⟨count, distinct, inside⟩ :=
      @first_of_perm _ N _ (@sortedIndexes_perm D _ _ ranking prob allFitness)
    rw [← cut] at count distinct inside
    refine ⟨count, distinct, inside, fun allPopulations sized => mapM_getElem? ?_⟩
    rw [sized]
    exact inside

/-- Three are selected of two individuals: the first is taken twice.  Of no individuals at
    all one is selected. -/
theorem selection_unreal :
    getBestNIndividualsIndexes .byFirst ⟨1, 0⟩ [[3], [1]] 3 = [1, 0, 0] ∧
      ¬RealAndDistinct .byFirst ⟨1, 0⟩ [[3], [1]] 3 ∧
      selectBestNIndividuals .byFirst ⟨1, 0⟩ ([] : List (VectorDouble Nat)) [] 1 = none := by
  refine ⟨by decide, fun real => ?_, by decide⟩
  have count := real.count
  revert count
  decide

/-! ## A new population from the selected individuals -/

/-- The loop of `build_new_population` (`population_tools.h:84-88`), with the indexes that
    are left; an index outside of `allPopulations` is undefined. -/
def setIndividuals (functions : ProblemFunctions D) (allPopulations : List (VectorDouble D)) :
    (selectedIndexes : List Nat) → (i : Nat) → (newPop : Population D) → Option (Population D)
  | [], _, newPop => some newPop
  | idx :: selectedIndexes, i, newPop => do
      let x ← allPopulations[idx]?
      setIndividuals functions allPopulations selectedIndexes (i + 1) (newPop.setX functions i x)

/-- `build_new_population` (`population_tools.h:70-91`); `next` is what
    `pagmo::random_device` yields. -/
def buildNewPopulation (functions : ProblemFunctions D) (allPopulations : List (VectorDouble D))
    (selectedIndexes : List Nat) (seed : Option UInt32) (next : UInt32) : Option (Population D) :=
  setIndividuals functions allPopulations selectedIndexes 0
    (.random functions (UInt64.ofNat selectedIndexes.length) (seed.getD next))

/-- `select_best_N_into_new_population` (`population_tools.h:133-142`). -/
def selectBestNIntoNewPopulation (ranking : Ranking D) (prob : Problem)
    (functions : ProblemFunctions D) (allPopulations allFitness : List (VectorDouble D)) (N : Nat)
    (seed : Option UInt32) (next : UInt32) : Option (Population D) :=
  buildNewPopulation functions allPopulations
    (getBestNIndividualsIndexes ranking prob allFitness N) seed next

variable {functions : ProblemFunctions D} {allPopulations : List (VectorDouble D)}
  {idx : List Nat}

omit [LT D] [DecidableLT D] in
theorem setIndividuals_x {i : Nat} {newPop : Population D}
    (inside : ∀ k ∈ idx, k < allPopulations.length) (sized : i + idx.length ≤ newPop.size) :
    ∃ pop, setIndividuals functions allPopulations idx i newPop = some pop ∧
      pop.x = overwrite newPop.x i (pick allPopulations idx) := by
  induction idx generalizing i newPop with
  | nil => exact ⟨newPop, rfl, by simp⟩
  | cons k idx ih =>
      obtain ⟨x, found⟩ : ∃ x, allPopulations[k]? = some x :=
        ⟨_, List.getElem?_eq_getElem (inside k List.mem_cons_self)⟩
      have room : i < newPop.x.length := by
        rw [List.length_cons, Population.size] at sized
        omega
      have resized : (newPop.setX functions i x).size = newPop.size :=
        List.length_set
      obtain ⟨pop, made, filled⟩ := @ih (i + 1) (newPop.setX functions i x)
        (fun j member => inside j (List.mem_cons_of_mem k member))
        (by rw [resized]; rw [List.length_cons] at sized; omega)
      refine ⟨pop, ?_, ?_⟩
      · rw [setIndividuals, found]
        exact made
      · rw [filled, pick_cons found]
        exact overwrite_set room

omit [LT D] [DecidableLT D] in
/-- The new population consists of the individuals at the indexes, in their order. -/
theorem buildNewPopulation_x (inside : ∀ k ∈ idx, k < allPopulations.length)
    (bounded : idx.length < 2 ^ 64) (seed : Option UInt32) (next : UInt32) :
    ∃ pop, buildNewPopulation functions allPopulations idx seed next = some pop ∧
      pop.x = pick allPopulations idx := by
  have size : (Population.random functions (UInt64.ofNat idx.length) (seed.getD next)).size =
      idx.length :=
    (functions.length_random _ _).trans (UInt64.toNat_ofNat_of_lt' bounded)
  obtain ⟨pop, made, filled⟩ := @setIndividuals_x D functions allPopulations idx 0
    (.random functions (UInt64.ofNat idx.length) (seed.getD next)) inside
    (by rw [size, Nat.zero_add])
  refine ⟨pop, made, ?_⟩
  rw [filled, overwrite_zero, List.drop_eq_nil_of_le, List.append_nil]
  rw [length_pick inside]
  exact Nat.le_of_eq size

/-! ## The best of the islands -/

omit [LT D] [DecidableLT D] in
/-- The merged vectors are the individuals of the islands, one island after the other. -/
theorem mergePopulations_eq (archi : List (Population D)) :
    mergePopulations archi = ((archi.map Population.individuals).flatten.map Prod.fst,
      (archi.map Population.individuals).flatten.map Prod.snd) := by
  have run : ∀ start : List (VectorDouble D) × List (VectorDouble D),
      archi.foldl (fun all isl => (all.1 ++ isl.x, all.2 ++ isl.f)) start =
        (start.1 ++ (archi.map Population.individuals).flatten.map Prod.fst,
          start.2 ++ (archi.map Population.individuals).flatten.map Prod.snd) := by
    induction archi with
    | nil => simp
    | cons isl archi ih =>
        intro start
        have xs : isl.individuals.map Prod.fst = isl.x :=
          List.map_fst_zip (Nat.le_of_eq isl.sized)
        have fs : isl.individuals.map Prod.snd = isl.f :=
          List.map_snd_zip (Nat.le_of_eq isl.sized.symm)
        rw [List.foldl_cons, ih, List.map_cons, List.flatten_cons, List.map_append,
          List.map_append, xs, fs, List.append_assoc, List.append_assoc]
  exact run ([], [])

theorem Ordered.strictWeak {fitness : List (VectorDouble D)} (ordered : Ordered fitness) :
    StrictWeak (compareFirst fitness) (List.range fitness.length) := by
  have found (k : Nat) (member : k ∈ List.range fitness.length) :
      fitness[k]?.getD [] ∈ fitness := by
    have bound : k < fitness.length := List.mem_range.mp member
    rw [List.getElem?_eq_getElem bound]
    exact List.getElem_mem bound
  constructor
  · intro a ha b hb less
    simp only [compareFirst, decide_eq_true_eq, decide_eq_false_iff_not] at less ⊢
    exact ordered.asymm _ (found a ha) _ (found b hb) less
  · intro a ha b hb c hc less
    simp only [compareFirst, decide_eq_true_eq] at less ⊢
    exact ordered.cotrans _ (found a ha) _ (found b hb) _ (found c hc) less

/-- No index comes after one with a larger first objective. -/
theorem Ranking.pairwise_sortByFirstObjective (ranking : Ranking D)
    {fitness : List (VectorDouble D)} (ordered : Ordered fitness) :
    (ranking.sortByFirstObjective fitness).Pairwise fun k j =>
      ∀ f g, fitness[k]? = some f → fitness[j]? = some g → ¬FirstLess g f := by
  have sorted := ranking.sorter.sorted (compareFirst fitness) (List.range fitness.length)
    ordered.strictWeak
  refine List.Pairwise.imp ?_ sorted
  intro k j notLess f g hf hg
  rw [compareFirst, hf, hg] at notLess
  exact of_decide_eq_false notLess

variable {archi : List (Population D)}

/-- On a single-objective problem without constraints the order is one by the first
    objective, between any two individuals. -/
theorem pairwise_sortedIndexes (ordered : Ordered allFitness)
    (single : ¬prob.nobj > 1) (unconstrained : prob.nc = 0) :
    (sortedIndexes ranking prob allFitness).Pairwise fun k j =>
      ∀ f g, allFitness[k]? = some f → allFitness[j]? = some g → ¬FirstLess g f := by
  unfold sortedIndexes
  rw [if_neg single, if_pos unconstrained]
  exact ranking.pairwise_sortByFirstObjective ordered

omit [DecidableLT D] in
/-- The individuals in `chosen` and only they are picked, so one that is left out comes
    later in the order. -/
theorem best_of_pairwise {individuals : List (VectorDouble D × VectorDouble D)}
    {slots : List (Nat × Nat)} {idx : List Nat} {at_ : Nat × Nat → Option _}
    (occupied : List.Forall₂ (fun slot p => at_ slot = some p) slots individuals)
    (perm : idx.Perm (List.range individuals.length))
    (sorted : idx.Pairwise fun k j => ∀ f g, (individuals.map Prod.snd)[k]? = some f →
      (individuals.map Prod.snd)[j]? = some g → ¬FirstLess g f)
    {slot : Nat × Nat} (member : slot ∈ slots) (leftOut : slot ∉ pick slots (idx.take N))
    {p q : VectorDouble D × VectorDouble D} (here : at_ slot = some p)
    (selected : q ∈ pick individuals (idx.take N)) : ¬FirstLess p.2 q.2 := by
  obtain ⟨j, bound, rfl⟩ := List.getElem_of_mem member
  have bound' : j < individuals.length := occupied.length_eq ▸ bound
  have same : at_ slots[j] = some individuals[j] := occupied.get bound bound'
  obtain rfl : p = individuals[j] := Option.some.inj (here.symm.trans same)
  obtain ⟨k, before, found⟩ := mem_pick.mp selected
  have ranked : j ∈ idx := perm.mem_iff.mpr (List.mem_range.mpr bound')
  rw [← List.take_append_drop N idx] at ranked
  have after : j ∈ idx.drop N := by
    refine (List.mem_append.mp ranked).resolve_left fun first => leftOut ?_
    exact mem_pick.mpr ⟨j, first, List.getElem?_eq_getElem bound⟩
  refine pairwise_take_drop sorted before after q.2 individuals[j].2 ?_ ?_
  · rw [List.getElem?_map, found]
    rfl
  · rw [List.getElem?_map, List.getElem?_eq_getElem bound']
    rfl

/-- Of islands that do not change and `N` no larger than their individuals, the selection
    yields `N` individuals from distinct slots, as the first `N` of the order for the kind of
    problem; on a single-objective problem without constraints they come best first, and
    none that is left out is better.  The new population consists of the same individuals in
    the same order. -/
theorem selection_keeps_best (ranking : Ranking D) (prob : Problem)
    (functions : ProblemFunctions D) (archi : List (Population D)) (N : UInt64)
    (seed : Option UInt32) (next : UInt32) (ordered : Ordered (mergePopulations archi).2)
    (enough : N.toNat ≤ (archi.map Population.size).sum) :
    ∃ (chosen : List (Nat × Nat)) (best : List (VectorDouble D × VectorDouble D)),
      (chosen.Nodup ∧ best.length = N.toNat ∧
        List.Forall₂ (fun slot p => entry (archi.map Population.individuals) slot = some p)
          chosen best) ∧
      selectBestNIndividuals ranking prob (mergePopulations archi).1 (mergePopulations archi).2
        N.toNat = some (best.map Prod.fst) ∧
      (∃ newPop, selectBestNIntoNewPopulation ranking prob functions (mergePopulations archi).1
          (mergePopulations archi).2 N.toNat seed next = some newPop ∧
        newPop.x = best.map Prod.fst) ∧
      (¬prob.nobj > 1 → prob.nc = 0 →
        best.Pairwise (fun p q => ¬FirstLess q.2 p.2) ∧
        ∀ slot p, entry (archi.map Population.individuals) slot = some p → slot ∉ chosen →
          ∀ q ∈ best, ¬FirstLess p.2 q.2) ∧
      (¬prob.nobj > 1 → prob.nc ≠ 0 → best.map Prod.fst = pick (mergePopulations archi).1
        ((ranking.sortPopulationCon (mergePopulations archi).2).take N.toNat)) ∧
      (prob.nobj > 1 → best.map Prod.fst = pick (mergePopulations archi).1
        ((ranking.sortPopulationMo (mergePopulations archi).2).take N.toNat)) := by
  have total := (length_mergePopulations archi).2
  rw [mergePopulations_eq] at ordered total ⊢
  have occupied := forall₂_slots (archi.map Population.individuals)
  generalize (archi.map Population.individuals).flatten = individuals at *
  simp only at ordered total ⊢
  rw [← total] at enough
  -- the indexes are the first `N` of an order of all of them
  have cut := @getBestNIndividualsIndexes_eq D _ _ ranking prob _ N.toNat (Or.inr enough)
  have perm := @sortedIndexes_perm D _ _ ranking prob (individuals.map Prod.snd)
  obtain ⟨count, distinct, inside⟩ := @first_of_perm _ N.toNat _ perm
  rw [Nat.min_eq_left enough] at count
  rw [List.length_map] at perm inside
  have insideX : ∀ k ∈ (sortedIndexes ranking prob (individuals.map Prod.snd)).take N.toNat,
      k < (individuals.map Prod.fst).length := by
    rwa [List.length_map]
  refine ⟨pick (slots (archi.map Population.individuals)) (List.take N.toNat _),
    pick individuals (List.take N.toNat _),
    ⟨nodup_pick nodup_slots distinct, ?_, forall₂_pick occupied⟩, ?_, ?_, ?_, ?_, ?_⟩
  · rw [length_pick inside, count]
  · rw [selectBestNIndividuals, cut, mapM_getElem? insideX, pick_map]
  · obtain ⟨newPop, made, x⟩ := @buildNewPopulation_x D functions _ _ insideX
      (count.trans_lt (UInt64.toNat_lt N)) seed next
    rw [selectBestNIntoNewPopulation, cut]
    exact ⟨newPop, made, x.trans (pick_map _)⟩
  · intro single unconstrained
    have sorted := @pairwise_sortedIndexes D _ _ ranking prob _ ordered single unconstrained
    constructor
    · refine pairwise_pick (sorted.sublist (List.take_sublist N.toNat _)) ?_
      intro k j p q later hp hq
      exact later p.2 q.2 (by rw [List.getElem?_map, hp]; rfl) (by rw [List.getElem?_map, hq]; rfl)
    · intro slot p here leftOut q selected
      exact best_of_pairwise occupied perm sorted (mem_slots here) leftOut here selected
  · intro single constrained
    rw [← pick_map, sortedIndexes, if_neg single, if_neg constrained]
  · intro multi
    rw [← pick_map, sortedIndexes, if_pos multi]

/-- Two islands with three individuals. -/
def threeIndividuals : List (Population Nat) :=
  [⟨[[1], [2]], [[30], [10]], rfl⟩, ⟨[[3]], [[20]], rfl⟩]

theorem selection_keeps_best_of_three :
    ∃ (chosen : List (Nat × Nat)) (best : List (VectorDouble Nat × VectorDouble Nat)),
      chosen.Nodup ∧ best.length = 2 ∧
      selectBestNIndividuals .byFirst ⟨1, 0⟩ (mergePopulations threeIndividuals).1
        (mergePopulations threeIndividuals).2 2 = some (best.map Prod.fst) ∧
      ∀ slot p, entry (threeIndividuals.map Population.individuals) slot = some p →
        slot ∉ chosen → ∀ q ∈ best, ¬FirstLess p.2 q.2 := by
  obtain ⟨chosen, best, ⟨distinct, count, -⟩, selected, -, order, -, -⟩ :=
    selection_keeps_best .byFirst ⟨1, 0⟩ sampleProblem threeIndividuals 2 none 7
      ⟨by decide, by decide⟩ (by decide)
  exact ⟨chosen, best, distinct, count, selected, (order (by decide) rfl).2⟩

end Metasolver
