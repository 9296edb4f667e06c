import Metasolver.Lib.Except
import Metasolver.Solver.Selection

/-!
# What the worker thread does with a job

`_single_threaded_worker` and `_archipelago_based_worker` (`distributed_worker.cpp:72-86`,
`159-203`), and `run_evolve` on the other side, which puts the results in the place of what it
has sent (`distributed_island.cpp:130-138`).  The worker splits the population among the islands
of an archipelago of its own, lets them evolve, and selects as many individuals as it has
been given.

Evolving is pagmo's and a parameter.  If it keeps the number of individuals, so does the
whole job, because the split gives out all individuals and the islands hold enough of them
for the selection.  If it loses no individual without putting one in its place that is as
good, neither does the job on a problem with one objective and without constraints.
-/

namespace Metasolver

open Dealing Picking

variable {D Algo : Type}

/-- `pagmo::island`, as far as the job needs it.  A population has a seed. -/
structure PagmoIsland (D Algo : Type) where
  algo : Algo
  pop : Population D
  seed : UInt32

/-- `algorithm::evolve`, and `archipelago::evolve` with `wait_check`. -/
structure Pagmo (D Algo : Type) where
  evolve : PagmoIsland D Algo → Except Exn (PagmoIsland D Algo)
  evolveArchipelago : List (PagmoIsland D Algo) → (cycles : Nat) →
    Except Exn (List (PagmoIsland D Algo))

/-- `worker_mode` (`distributed_worker.h:19-23`). -/
inductive WorkerMode where
  | singleThreaded
  | archipelagoBased
  deriving DecidableEq, Repr

/-- The worker a job has come to. -/
structure JobWorker (D Algo : Type) where
  workerMode : WorkerMode
  minIslandPopSize : UInt64
  hardwareConcurrency : UInt32
  pagmo : Pagmo D Algo
  /-- The next number of `pagmo::random_device`. -/
  next : UInt32

/-- A problem as the selection and the split see it, with the orders of its fitnesses. -/
structure JobProblem (D : Type) where
  prob : Problem
  functions : ProblemFunctions D
  ranking : Ranking D

/-- What throws or is undefined. -/
def orUndefined {α : Type} : Option α → Except Fault α
  | some a => .ok a
  | none => .error .undefinedBehaviour

def thrown {α : Type} : Except Exn α → Except Fault α
  | .ok a => .ok a
  | .error e => .error (.exception e)

/-- `_single_threaded_worker`: the results carry the algorithm that was received. -/
def singleThreadedWorker (pagmo : Pagmo D Algo) (job : PagmoIsland D Algo) :
    Except Fault (PagmoIsland D Algo) := do
  let evolved ← thrown (pagmo.evolve job)
  return { evolved with algo := job.algo }

/-- `_compute_optimal_island_count` (`distributed_worker.cpp:88-101`). -/
def computeOptimalIslandCount (hardwareConcurrency : UInt32) : UInt32 :=
  if hardwareConcurrency = 0 then 8 else hardwareConcurrency

section Thread

variable [LT D] [DecidableLT D]

/-- `_archipelago_based_worker` (`distributed_worker.cpp:159-203`). -/
def archipelagoBasedWorker (problem : JobProblem D) (worker : JobWorker D Algo)
    (job : PagmoIsland D Algo) (archiCycleCount : Nat) : Except Fault (PagmoIsland D Algo) := do
  let islandCount := computeOptimalIslandCount worker.hardwareConcurrency
  let islandPops ← thrown (splitPopulationForIslands problem.functions worker.minIslandPopSize
    job.seed job.pop islandCount.toUInt64)
  let archi ← (List.range islandCount.toNat).mapM fun i => do
    let pop ← orUndefined islandPops[i]?
    return (⟨job.algo, pop, (job.seed.toUInt64 + UInt64.ofNat i).toUInt32⟩ : PagmoIsland D Algo)
  let archi ← thrown (worker.pagmo.evolveArchipelago archi archiCycleCount)
  let all := mergePopulations (archi.map PagmoIsland.pop)
  match archi[0]? with
  | none => .error (.exception .outOfRange)
  | some first =>
      let newPop ← orUndefined (selectBestNIntoNewPopulation problem.ranking problem.prob
        problem.functions all.1 all.2 job.pop.size (some first.seed) worker.next)
      return ⟨first.algo, newPop, first.seed⟩

/-- The body of the worker thread (`distributed_worker.cpp:213-224`). -/
def workerThread (problem : JobProblem D) (worker : JobWorker D Algo) (job : PagmoIsland D Algo)
    (cycleCount : Nat) : Except Fault (PagmoIsland D Algo) :=
  match worker.workerMode with
  | .archipelagoBased => archipelagoBasedWorker problem worker job cycleCount
  | .singleThreaded => singleThreadedWorker worker.pagmo job

end Thread

/-! ## What is assumed of pagmo -/

/-- Evolving keeps the islands, the number of their individuals, and that each individual
    stands with its own fitness. -/
structure Pagmo.Keeps (functions : ProblemFunctions D) (pagmo : Pagmo D Algo) : Prop where
  evolve_size : ∀ isl isl', pagmo.evolve isl = .ok isl' → isl'.pop.size = isl.pop.size
  evolve_evaluated : ∀ isl isl', pagmo.evolve isl = .ok isl' →
    Evaluated functions isl.pop → Evaluated functions isl'.pop
  archipelago_sizes : ∀ archi archi' n, pagmo.evolveArchipelago archi n = .ok archi' →
    archi'.map (·.pop.size) = archi.map (·.pop.size)
  archipelago_evaluated : ∀ archi archi' n, pagmo.evolveArchipelago archi n = .ok archi' →
    (∀ isl ∈ archi, Evaluated functions isl.pop) → ∀ isl ∈ archi', Evaluated functions isl.pop

/-- For each of the fitnesses there is one among the others that is not worse. -/
def Matched [LT D] (before after : List (VectorDouble D)) : Prop :=
  ∀ f ∈ before, ∃ g ∈ after, ¬FirstLess f g

/-- Evolving does not lose the best individuals. -/
structure Pagmo.Elitist [LT D] (pagmo : Pagmo D Algo) : Prop where
  evolve : ∀ isl isl', pagmo.evolve isl = .ok isl' → Matched isl.pop.f isl'.pop.f
  archipelago : ∀ archi archi' n, pagmo.evolveArchipelago archi n = .ok archi' →
    Matched (mergePopulations (archi.map PagmoIsland.pop)).2
      (mergePopulations (archi'.map PagmoIsland.pop)).2

/-! ## The split -/

variable {functions : ProblemFunctions D} {pop : Population D} {archi : List (Population D)}

theorem mem_mergePopulations {x : VectorDouble D} {isl : Population D} (member : isl ∈ archi)
    (inside : x ∈ isl.x) : x ∈ (mergePopulations archi).1 := by
  have own : isl.individuals.map Prod.fst = isl.x := List.map_fst_zip (Nat.le_of_eq isl.sized)
  rw [← own] at inside
  obtain ⟨p, held, rfl⟩ := List.mem_map.mp inside
  rw [mergePopulations_eq]
  apply List.mem_map_of_mem
  exact List.mem_flatten.mpr ⟨isl.individuals, List.mem_map_of_mem member, held⟩

/-- Every individual of the merged islands stands with its own fitness. -/
theorem mergePopulations_evaluated (evaluated : ∀ isl ∈ archi, Evaluated functions isl) :
    (mergePopulations archi).2 = (mergePopulations archi).1.map functions.fitness := by
  rw [mergePopulations_eq]
  simp only [List.map_map]
  apply List.map_congr_left
  intro p member
  obtain ⟨individuals, listed, held⟩ := List.mem_flatten.mp member
  obtain ⟨isl, inside, rfl⟩ := List.mem_map.mp listed
  have own : isl.f = isl.x.map functions.fitness := evaluated isl inside
  rw [Population.individuals, own] at held
  obtain ⟨k, bound, rfl⟩ := List.getElem_of_mem held
  simp

/-- The islands hold all individuals of the job, each with its fitness, and enough of them. -/
theorem splitPopulationForIslands_deal (minIslandPopSize islandCount : UInt64) (seed : UInt32)
    (positive : 0 < islandCount.toNat) (sized : pop.size < 2 ^ 64) (quarters : 4 ∣ pop.size)
    (fits : (baseSize minIslandPopSize (UInt64.ofNat pop.size) islandCount).toNat *
      islandCount.toNat < 2 ^ 64) :
    ∃ islands, splitPopulationForIslands functions minIslandPopSize seed pop islandCount =
        .ok islands ∧
      islands.length = islandCount.toNat ∧ (∀ isl ∈ islands, Evaluated functions isl) ∧
      pop.size ≤ (islands.map Population.size).sum ∧
      ∀ x ∈ pop.x, x ∈ (mergePopulations islands).1 := by
  have total : (UInt64.ofNat pop.size).toNat = pop.size := UInt64.toNat_ofNat_of_lt' sized
  have some_ : islandCount ≠ 0 := by
    rintro rfl
    exact absurd positive (Nat.lt_irrefl 0)
  obtain ⟨multiple, notEmpty, share⟩ := @toNat_baseSize minIslandPopSize (UInt64.ofNat pop.size)
    islandCount
  rw [splitPopulationForIslands]
  simp only [if_neg some_]
  generalize baseSize minIslandPopSize (UInt64.ofNat pop.size) islandCount = base at *
  have remaining := @toNat_remainingPop (UInt64.ofNat pop.size) islandCount base fits
  rw [total] at share remaining
  generalize (if base * islandCount < UInt64.ofNat pop.size then
    UInt64.ofNat pop.size - base * islandCount else 0) = remainingPop at *
  have enough := (le_sum_islandSizes multiple positive share).2 quarters
  obtain ⟨filled, sizes⟩ := @fillIslands_deal D functions seed pop.x islandCount.toNat base 0
    remainingPop 0 fun more => by
      have one := Nat.le_mul_of_pos_right base.toNat positive
      omega
  rw [remaining] at filled sizes
  rw [List.drop_zero] at filled
  refine ⟨_, rfl, ?_, ?_, ?_, ?_⟩
  · have length := congrArg List.length sizes
    rwa [List.length_map, length_islandSizes] at length
  · exact forall_of_forall₂ (filled.flip.imp fun _ _ h => h.evaluated)
  · rw [sizes]
    exact enough
  · intro x member
    rw [← flatten_deal_of_le enough] at member
    obtain ⟨part, dealt, inside⟩ := List.mem_flatten.mp member
    obtain ⟨k, bound, rfl⟩ := List.getElem_of_mem dealt
    have bound' := filled.length_eq ▸ bound
    obtain ⟨-, -, size, random, -, holds⟩ := filled.get bound' bound
    apply mem_mergePopulations (List.get_mem _ ⟨k, bound'⟩)
    rw [holds]
    exact List.mem_append_left _ inside

/-! ## The selection -/

section Selection

variable {ranking : Ranking D} {prob : Problem} {allPopulations : List (VectorDouble D)}
  {N : Nat} {seed : Option UInt32} {next : UInt32}

theorem setIndividuals_evaluated {idx : List Nat} {i : Nat} {newPop pop : Population D}
    (evaluated : Evaluated functions newPop)
    (made : setIndividuals functions allPopulations idx i newPop = some pop) :
    Evaluated functions pop := by
  induction idx generalizing i newPop with
  | nil =>
      obtain rfl := Option.some.inj made
      exact evaluated
  | cons k idx ih =>
      rw [setIndividuals, Option.bind_eq_bind, Option.bind_eq_some_iff] at made
      obtain ⟨x, -, rest⟩ := made
      exact ih (evaluated.setX i x) rest

variable [LT D] [DecidableLT D]

/-- The new population is the first `N` individuals of the order, with their fitnesses. -/
theorem selectBestNIntoNewPopulation_first (enough : N ≤ allPopulations.length)
    (bounded : N < 2 ^ 64) :
    ∃ newPop, selectBestNIntoNewPopulation ranking prob functions allPopulations
        (allPopulations.map functions.fitness) N seed next = some newPop ∧
      newPop.size = N ∧ Evaluated functions newPop ∧
      newPop.f = pick (allPopulations.map functions.fitness)
        ((sortedIndexes ranking prob (allPopulations.map functions.fitness)).take N) := by
  have cut := @getBestNIndividualsIndexes_eq D _ _ ranking prob
    (allPopulations.map functions.fitness) N (Or.inr (by rwa [List.length_map]))
  have perm := @sortedIndexes_perm D _ _ ranking prob (allPopulations.map functions.fitness)
  rw [List.length_map] at perm
  obtain ⟨count, -, inside⟩ := @first_of_perm _ N _ perm
  rw [Nat.min_eq_left enough] at count
  obtain ⟨newPop, made, x⟩ := @buildNewPopulation_x D functions _ _ inside
    (count.trans_lt bounded) seed next
  have evaluated : Evaluated functions newPop := by
    apply setIndividuals_evaluated _ made
    rfl
  refine ⟨newPop, ?_, ?_, evaluated, ?_⟩
  · rw [selectBestNIntoNewPopulation, cut]
    exact made
  · rw [Population.size, x, length_pick inside, count]
  · rw [evaluated, x, pick_map]

end Selection

/-! ## No fitness gets lost -/

section Matched

variable [LT D] {before between after fitness : List (VectorDouble D)}

/-- The fitnesses of all individuals can be compared, so none of them is a NaN. -/
def ProblemFunctions.Comparable (functions : ProblemFunctions D) : Prop :=
  ∀ xs : List (VectorDouble D), Ordered (xs.map functions.fitness)

theorem not_firstLess_self (ordered : Ordered fitness) {f : VectorDouble D} (member : f ∈ fitness) :
    ¬FirstLess f f :=
  fun less => ordered.asymm f member f member less less

theorem Matched.of_subset (comparable : functions.Comparable) {xs ys : List (VectorDouble D)}
    (subset : ∀ x ∈ xs, x ∈ ys) :
    Matched (xs.map functions.fitness) (ys.map functions.fitness) := by
  intro f member
  refine ⟨f, ?_, not_firstLess_self (comparable xs) member⟩
  obtain ⟨x, inside, rfl⟩ := List.mem_map.mp member
  exact List.mem_map_of_mem (subset x inside)

/-- What is not worse than what is not worse is not worse. -/
theorem Matched.trans {xs ys zs : List (VectorDouble D)} (comparable : functions.Comparable)
    (first : Matched (xs.map functions.fitness) (ys.map functions.fitness))
    (second : Matched (ys.map functions.fitness) (zs.map functions.fitness)) :
    Matched (xs.map functions.fitness) (zs.map functions.fitness) := by
  have ordered := comparable (xs ++ ys ++ zs)
  rw [List.map_append, List.map_append] at ordered
  intro f hf
  obtain ⟨g, hg, notWorse⟩ := first f hf
  obtain ⟨h, hh, notWorse'⟩ := second g hg
  refine ⟨h, hh, fun less => ?_⟩
  have parts := ordered.cotrans f (by simp [hf]) g (by simp [hg]) h (by simp [hh]) less
  exact parts.elim notWorse notWorse'

/-- The first individuals of an order are as good as any other. -/
theorem matched_take {idx : List Nat} {N : Nat} (ordered : Ordered fitness)
    (perm : idx.Perm (List.range fitness.length)) (some_ : 0 < N)
    (sorted : idx.Pairwise fun k j => ∀ f g, fitness[k]? = some f → fitness[j]? = some g →
      ¬FirstLess g f) : Matched fitness (pick fitness (idx.take N)) := by
  intro f member
  obtain ⟨j, bound, rfl⟩ := List.getElem_of_mem member
  have listed : j ∈ idx := perm.mem_iff.mpr (List.mem_range.mpr bound)
  have here : fitness[j]? = some fitness[j] := List.getElem?_eq_getElem bound
  cases first : idx with
  | nil =>
      rw [first] at listed
      cases listed
  | cons k rest =>
      have kBound : k < fitness.length :=
        List.mem_range.mp (perm.subset (by rw [first]; exact List.mem_cons_self))
      have best : fitness[k]? = some fitness[k] := List.getElem?_eq_getElem kBound
      refine ⟨fitness[k], mem_pick.mpr ⟨k, ?_, best⟩, ?_⟩
      · obtain ⟨n, rfl⟩ := Nat.exists_eq_add_one.mpr some_
        exact List.mem_cons_self
      · rw [first] at listed sorted
        rcases List.mem_cons.mp listed with rfl | later
        · exact not_firstLess_self ordered member
        · exact List.rel_of_pairwise_cons sorted later _ _ best here

end Matched

/-! ## One job -/

/-- The number of individuals on the islands does not wrap around. -/
def JobWorker.Fits (worker : JobWorker D Algo) (size : Nat) : Prop :=
  (baseSize worker.minIslandPopSize (UInt64.ofNat size)
    (computeOptimalIslandCount worker.hardwareConcurrency).toUInt64).toNat *
    (computeOptimalIslandCount worker.hardwareConcurrency).toNat < 2 ^ 64

instance (worker : JobWorker D Algo) (size : Nat) : Decidable (worker.Fits size) :=
  inferInstanceAs (Decidable (_ < _))

theorem computeOptimalIslandCount_pos (hardwareConcurrency : UInt32) :
    0 < (computeOptimalIslandCount hardwareConcurrency).toNat := by
  unfold computeOptimalIslandCount
  split_ifs with unknown
  · decide
  · apply Nat.pos_of_ne_zero
    exact fun zero => unknown (UInt32.toNat_inj.mp zero)

/-- The results of a job are as many individuals as it had, each with its own fitness. -/
structure Kept (functions : ProblemFunctions D) (job results : PagmoIsland D Algo) : Prop where
  size : results.pop.size = job.pop.size
  evaluated : Evaluated functions results.pop

section Job

variable [LT D] [DecidableLT D]

/-- What an archipelago-based job has gone through: `archi` is the archipelago before it
    evolved and `after` the same afterwards. -/
structure Worked (problem : JobProblem D) (worker : JobWorker D Algo) (job : PagmoIsland D Algo)
    (cycles : Nat) (archi after : List (PagmoIsland D Algo)) (results : PagmoIsland D Algo) :
    Prop where
  kept : Kept problem.functions job results
  given : ∀ x ∈ job.pop.x, x ∈ (mergePopulations (archi.map PagmoIsland.pop)).1
  evaluated : ∀ isl ∈ archi, Evaluated problem.functions isl.pop
  evolved : worker.pagmo.evolveArchipelago archi cycles = .ok after
  evaluated' : ∀ isl ∈ after, Evaluated problem.functions isl.pop
  selected : results.pop.f = pick (mergePopulations (after.map PagmoIsland.pop)).2
    ((sortedIndexes problem.ranking problem.prob
      (mergePopulations (after.map PagmoIsland.pop)).2).take job.pop.size)

variable {problem : JobProblem D} {worker : JobWorker D Algo} {job results : PagmoIsland D Algo}
  {cycles : Nat}

omit [LT D] [DecidableLT D] in
/-- The loop that makes an island of each population (`distributed_worker.cpp:175-181`). -/
theorem makeIslands_ok (job : PagmoIsland D Algo) (islands : List (Population D)) :
    ∃ archi : List (PagmoIsland D Algo), (List.range islands.length).mapM (fun i => do
        let pop ← orUndefined islands[i]?
        return (⟨job.algo, pop, (job.seed.toUInt64 + UInt64.ofNat i).toUInt32⟩ :
          PagmoIsland D Algo)) = .ok archi ∧
      archi.map PagmoIsland.pop = islands := by
  refine ⟨islands.mapIdx fun i pop =>
    ⟨job.algo, pop, (job.seed.toUInt64 + UInt64.ofNat i).toUInt32⟩, ?_, ?_⟩
  · apply Except.mapM_of_forall₂
    apply List.forall₂_iff_get.mpr
    refine ⟨by simp, fun i bound bound' => ?_⟩
    have inside : i < islands.length := by simpa using bound
    simp [inside, orUndefined]
  · apply List.ext_getElem
    · simp
    · simp

theorem archipelagoBasedWorker_spec (keeps : worker.pagmo.Keeps problem.functions)
    (fits : worker.Fits job.pop.size) (sized : job.pop.size < 2 ^ 64)
    (quarters : 4 ∣ job.pop.size) :
    (∃ e, archipelagoBasedWorker problem worker job cycles = .error (.exception e)) ∨
      ∃ archi after results, archipelagoBasedWorker problem worker job cycles = .ok results ∧
        Worked problem worker job cycles archi after results := by
  have count : (computeOptimalIslandCount worker.hardwareConcurrency).toUInt64.toNat =
      (computeOptimalIslandCount worker.hardwareConcurrency).toNat := UInt32.toNat_toUInt64 _
  have positive := computeOptimalIslandCount_pos worker.hardwareConcurrency
  obtain ⟨islands, split, length, evaluated, enough, given⟩ :=
    @splitPopulationForIslands_deal D problem.functions job.pop worker.minIslandPopSize
      (computeOptimalIslandCount worker.hardwareConcurrency).toUInt64 job.seed
      (by rwa [count]) sized quarters (by rw [count]; exact fits)
  obtain ⟨archi, made, pops⟩ := makeIslands_ok job islands
  rw [length, count] at made
  have evaluated : ∀ isl ∈ archi, Evaluated problem.functions isl.pop := by
    intro isl member
    apply evaluated
    rw [← pops]
    exact List.mem_map_of_mem member
  simp only [bind, Except.bind] at made
  cases evolved : worker.pagmo.evolveArchipelago archi cycles with
  | error e =>
      refine Or.inl ⟨e, ?_⟩
      simp only [archipelagoBasedWorker, split, thrown, bind, Except.bind, made, evolved]
  | ok after =>
      have evaluated' := keeps.archipelago_evaluated archi after cycles evolved evaluated
      have sizes := keeps.archipelago_sizes archi after cycles evolved
      have merged : (mergePopulations (after.map PagmoIsland.pop)).2 =
          (mergePopulations (after.map PagmoIsland.pop)).1.map problem.functions.fitness := by
        apply mergePopulations_evaluated
        intro isl member
        obtain ⟨isl, inside, rfl⟩ := List.mem_map.mp member
        exact evaluated' isl inside
      have total : job.pop.size ≤ (mergePopulations (after.map PagmoIsland.pop)).1.length := by
        have before : archi.map (·.pop.size) = islands.map Population.size := by
          rw [← pops, List.map_map]
          rfl
        rw [(length_mergePopulations _).1, List.map_map]
        change _ ≤ (after.map (·.pop.size)).sum
        rw [sizes, before]
        exact enough
      obtain ⟨first, found⟩ : ∃ first, after[0]? = some first := by
        apply exists_getElem?
        have many := congrArg List.length sizes
        have many' := congrArg List.length pops
        rw [List.length_map, List.length_map] at many
        rw [List.length_map] at many'
        omega
      obtain ⟨newPop, made', size, evaluatedNew, selected⟩ :=
        @selectBestNIntoNewPopulation_first D problem.functions problem.ranking problem.prob
          (mergePopulations (after.map PagmoIsland.pop)).1 job.pop.size (some first.seed)
          worker.next _ _ total sized
      rw [← merged] at made' selected
      have chosen : orUndefined (selectBestNIntoNewPopulation problem.ranking problem.prob
          problem.functions (mergePopulations (after.map PagmoIsland.pop)).1
          (mergePopulations (after.map PagmoIsland.pop)).2 job.pop.size (some first.seed)
          worker.next) = .ok newPop := by
        rw [made']
        rfl
      refine Or.inr ⟨archi, after, ⟨first.algo, newPop, first.seed⟩, ?_,
        ⟨size, evaluatedNew⟩, ?_, evaluated, evolved, evaluated', selected⟩
      · simp only [archipelagoBasedWorker, split, thrown, bind, Except.bind, made, evolved, found,
          chosen]
        rfl
      · rw [pops]
        exact given

/-- A problem whose individuals are ordered by their first objective. -/
structure JobProblem.Ranked (problem : JobProblem D) : Prop where
  single : ¬problem.prob.nobj > 1
  unconstrained : problem.prob.nc = 0
  comparable : problem.functions.Comparable

/-- The split hands out every individual, evolving loses none of the best, and the first of
    those that are selected is as good as any. -/
theorem Worked.matched {archi after : List (PagmoIsland D Algo)}
    (worked : Worked problem worker job cycles archi after results) (ranked : problem.Ranked)
    (elitist : worker.pagmo.Elitist) (evaluated : Evaluated problem.functions job.pop) :
    Matched job.pop.f results.pop.f := by
  have merged : ∀ isls : List (PagmoIsland D Algo),
      (∀ isl ∈ isls, Evaluated problem.functions isl.pop) →
      (mergePopulations (isls.map PagmoIsland.pop)).2 =
        (mergePopulations (isls.map PagmoIsland.pop)).1.map problem.functions.fitness := by
    intro isls each
    apply mergePopulations_evaluated
    intro isl member
    obtain ⟨isl, inside, rfl⟩ := List.mem_map.mp member
    exact each isl inside
  cases empty : job.pop.x with
  | nil =>
      rw [evaluated, empty]
      exact fun f member => nomatch member
  | cons first rest =>
      have some_ : 0 < job.pop.size := by
        rw [Population.size, empty]
        exact Nat.succ_pos _
      have dealt := Matched.of_subset ranked.comparable worked.given
      have evolved := elitist.archipelago archi after cycles worked.evolved
      have ordered := ranked.comparable (mergePopulations (after.map PagmoIsland.pop)).1
      rw [← merged after worked.evaluated'] at ordered
      have sorted := @pairwise_sortedIndexes D _ _ problem.ranking _ _ ordered ranked.single
        ranked.unconstrained
      have best := matched_take ordered sortedIndexes_perm some_ sorted
      rw [← worked.selected] at best
      have results_f : results.pop.f = results.pop.x.map problem.functions.fitness :=
        worked.kept.evaluated
      rw [merged archi worked.evaluated, merged after worked.evaluated'] at evolved
      rw [merged after worked.evaluated', results_f] at best
      rw [evaluated, results_f]
      exact (dealt.trans ranked.comparable evolved).trans ranked.comparable best

/-- Every worker, in either mode. -/
theorem workerThread_spec (keeps : worker.pagmo.Keeps problem.functions)
    (fits : worker.Fits job.pop.size) (sized : job.pop.size < 2 ^ 64) (quarters : 4 ∣ job.pop.size)
    (evaluated : Evaluated problem.functions job.pop) :
    (∃ e, workerThread problem worker job cycles = .error (.exception e)) ∨
      ∃ results, workerThread problem worker job cycles = .ok results ∧
        Kept problem.functions job results ∧
        (problem.Ranked → worker.pagmo.Elitist → Matched job.pop.f results.pop.f) := by
  unfold workerThread
  cases worker.workerMode with
  | archipelagoBased =>
      rcases @archipelagoBasedWorker_spec D Algo _ _ problem worker job cycles keeps fits sized
        quarters with throws | ⟨archi, after, results, returned, worked⟩
      · exact Or.inl throws
      · refine Or.inr ⟨results, returned, worked.kept, fun ranked elitist => ?_⟩
        exact worked.matched ranked elitist evaluated
  | singleThreaded =>
      cases evolved : worker.pagmo.evolve job with
      | error e =>
          refine Or.inl ⟨e, ?_⟩
          simp only [singleThreadedWorker, evolved, thrown, bind, Except.bind]
      | ok isl =>
          refine Or.inr ⟨{ isl with algo := job.algo }, ?_, ⟨?_, ?_⟩, fun _ elitist => ?_⟩
          · simp only [singleThreadedWorker, evolved, thrown, bind, Except.bind]
            rfl
          · exact keeps.evolve_size job isl evolved
          · exact keeps.evolve_evaluated job isl evolved evaluated
          · exact elitist.evolve job isl evolved

/-! ## An island from cycle to cycle -/

/-- A cycle of an island: what it exchanges with the other islands, and the worker that serves
    its request. -/
structure EvolveCycle (D Algo : Type) where
  migrate : PagmoIsland D Algo → PagmoIsland D Algo
  worker : JobWorker D Algo

/-- What a migration is assumed to keep. -/
structure EvolveCycle.Migrates (functions : ProblemFunctions D) (c : EvolveCycle D Algo) :
    Prop where
  size : ∀ isl, (c.migrate isl).pop.size = isl.pop.size
  evaluated : ∀ isl, Evaluated functions isl.pop → Evaluated functions (c.migrate isl).pop

/-- Neither a migration nor the worker loses the best individuals. -/
structure EvolveCycle.Elitist (c : EvolveCycle D Algo) : Prop where
  migrate : ∀ isl, Matched isl.pop.f (c.migrate isl).pop.f
  evolve : c.worker.pagmo.Elitist

/-- `run_evolve` in each cycle: the algorithm and the population are sent to the worker and
    replaced by what it returns (`distributed_island.cpp:104-138`). -/
def runEvolves (problem : JobProblem D) (cycleCount : Nat) :
    List (EvolveCycle D Algo) → PagmoIsland D Algo → Except Fault (PagmoIsland D Algo)
  | [], isl => .ok isl
  | c :: cs, isl => do
      let results ← workerThread problem c.worker (c.migrate isl) cycleCount
      runEvolves problem cycleCount cs results

/-- Whatever workers serve it, an island keeps the size of its population over any number of
    cycles.  On a problem with one objective, no constraints and no NaN among its fitnesses,
    each of its individuals is matched by one that is not worse, if no algorithm and no
    migration loses the best.  It may throw, but nothing is read outside of a vector. -/
theorem evolution_keeps_population (problem : JobProblem D) (cycleCount : Nat)
    (cs : List (EvolveCycle D Algo)) (isl : PagmoIsland D Algo)
    (keeps : ∀ c ∈ cs, c.Migrates problem.functions ∧ c.worker.pagmo.Keeps problem.functions)
    (fits : ∀ c ∈ cs, c.worker.Fits isl.pop.size) (sized : isl.pop.size < 2 ^ 64)
    (quarters : 4 ∣ isl.pop.size) (evaluated : Evaluated problem.functions isl.pop) :
    (∃ e, runEvolves problem cycleCount cs isl = .error (.exception e)) ∨
      ∃ isl', runEvolves problem cycleCount cs isl = .ok isl' ∧
        Kept problem.functions isl isl' ∧
        (problem.Ranked → (∀ c ∈ cs, c.Elitist) → Matched isl.pop.f isl'.pop.f) := by
  induction cs generalizing isl with
  | nil =>
      refine Or.inr ⟨isl, rfl, ⟨rfl, evaluated⟩, fun ranked _ => ?_⟩
      rw [evaluated]
      exact Matched.of_subset ranked.comparable fun _ member => member
  | cons c cs ih =>
      obtain ⟨⟨migrates, kept⟩, keeps⟩ := List.forall_mem_cons.mp keeps
      obtain ⟨fits_c, fits⟩ := List.forall_mem_cons.mp fits
      have size := migrates.size isl
      have moved := migrates.evaluated isl evaluated
      rcases @workerThread_spec D Algo _ _ problem c.worker (c.migrate isl) cycleCount kept
        (by rwa [size]) (by rwa [size]) (by rwa [size]) moved with
        ⟨e, throws⟩ | ⟨results, returned, served, matched⟩
      · refine Or.inl ⟨e, ?_⟩
        rw [runEvolves, throws]
        rfl
      · have same : results.pop.size = isl.pop.size := served.size.trans size
        have goesOn : runEvolves problem cycleCount (c :: cs) isl =
            runEvolves problem cycleCount cs results := by
          rw [runEvolves, returned]
          rfl
        rw [goesOn]
        rcases ih results keeps (by rwa [same]) (by rwa [same]) (by rwa [same]) served.evaluated
          with throws | ⟨isl', rest, ⟨size', evaluated'⟩, later⟩
        · exact Or.inl throws
        · refine Or.inr ⟨isl', rest, ⟨size'.trans same, evaluated'⟩, fun ranked elitist => ?_⟩
          obtain ⟨now, elitist⟩ := List.forall_mem_cons.mp elitist
          have first := now.migrate isl
          have second := matched ranked now.evolve
          have third := later ranked elitist
          rw [evaluated, moved] at first
          rw [moved, served.evaluated] at second
          rw [served.evaluated, evaluated'] at third
          rw [evaluated, evaluated']
          exact (first.trans ranked.comparable second).trans ranked.comparable third

end Job

/-- The first component is to be made small. -/
def smallestFirst : JobProblem Nat where
  prob := ⟨1, 0⟩
  functions := { sampleProblem with fitness := fun x => [x.headD 0] }
  ranking := .byFirst

theorem smallestFirst_ranked : smallestFirst.Ranked where
  single := by decide
  unconstrained := rfl
  comparable xs := by
    constructor
    · simp only [smallestFirst, List.forall_mem_map, FirstLess]
      omega
    · simp only [smallestFirst, List.forall_mem_map, FirstLess]
      omega

/-- The individual one step further down, if that is better. -/
def descend (p : VectorDouble Nat × VectorDouble Nat) : VectorDouble Nat × VectorDouble Nat :=
  if FirstLess (smallestFirst.functions.fitness (p.1.map Nat.pred)) p.2 then
    (p.1.map Nat.pred, smallestFirst.functions.fitness (p.1.map Nat.pred))
  else p

def Population.descend (pop : Population Nat) : Population Nat where
  x := (pop.individuals.map Metasolver.descend).map Prod.fst
  f := (pop.individuals.map Metasolver.descend).map Prod.snd
  sized := by simp only [List.length_map]

/-- Each individual is moved down. -/
def Pagmo.descending : Pagmo Nat Unit where
  evolve isl := .ok { isl with pop := isl.pop.descend }
  evolveArchipelago archi _ := .ok (archi.map fun isl => { isl with pop := isl.pop.descend })

theorem descend_notWorse (p : VectorDouble Nat × VectorDouble Nat) :
    ¬FirstLess p.2 (descend p).2 := by
  have asymm : ∀ f g : VectorDouble Nat, FirstLess f g → ¬FirstLess g f
    | a :: _, b :: _ => Nat.lt_asymm
    | [], _ => fun less _ => less
    | _ :: _, [] => fun less _ => less
  unfold descend
  split_ifs with better
  · exact asymm _ _ better
  · exact fun less => asymm _ _ less less

theorem matched_descend (individuals : List (VectorDouble Nat × VectorDouble Nat)) :
    Matched (individuals.map Prod.snd) ((individuals.map descend).map Prod.snd) := by
  intro f member
  obtain ⟨p, inside, rfl⟩ := List.mem_map.mp member
  refine ⟨(descend p).2, ?_, descend_notWorse p⟩
  exact List.mem_map_of_mem (List.mem_map_of_mem inside)

theorem Population.individuals_descend (pop : Population Nat) :
    pop.descend.individuals = pop.individuals.map Metasolver.descend := by
  rw [individuals, Population.descend, List.zip_map']
  exact List.map_id _

theorem Population.size_descend (pop : Population Nat) : pop.descend.size = pop.size := by
  rw [size, Population.descend, List.length_map, List.length_map, individuals, List.length_zip,
    ← pop.sized, Nat.min_self]
  rfl

theorem Population.matched_descend (pop : Population Nat) : Matched pop.f pop.descend.f := by
  have own : pop.individuals.map Prod.snd = pop.f := List.map_snd_zip (Nat.le_of_eq pop.sized.symm)
  have matched := Metasolver.matched_descend pop.individuals
  rwa [own] at matched

theorem Population.evaluated_descend {pop : Population Nat}
    (evaluated : Evaluated smallestFirst.functions pop) :
    Evaluated smallestFirst.functions pop.descend := by
  have own : pop.f = pop.x.map smallestFirst.functions.fitness := evaluated
  show (pop.individuals.map Metasolver.descend).map Prod.snd =
    ((pop.individuals.map Metasolver.descend).map Prod.fst).map smallestFirst.functions.fitness
  rw [List.map_map, List.map_map, List.map_map]
  apply List.map_congr_left
  intro p member
  rw [individuals, own] at member
  obtain ⟨k, bound, rfl⟩ := List.getElem_of_mem member
  simp only [Function.comp_apply, Metasolver.descend]
  split_ifs
  · rfl
  · simp

theorem Pagmo.descending_keeps : Pagmo.descending.Keeps smallestFirst.functions where
  evolve_size isl _ returned := by
    rw [← Except.ok.inj returned]
    exact isl.pop.size_descend
  evolve_evaluated _ _ returned evaluated := by
    rw [← Except.ok.inj returned]
    exact Population.evaluated_descend evaluated
  archipelago_sizes archi _ _ returned := by
    rw [← Except.ok.inj returned, List.map_map]
    exact List.map_congr_left fun isl _ => isl.pop.size_descend
  archipelago_evaluated archi _ _ returned evaluated := by
    rw [← Except.ok.inj returned, List.forall_mem_map]
    exact fun isl member => Population.evaluated_descend (evaluated isl member)

theorem Pagmo.descending_elitist : Pagmo.descending.Elitist where
  evolve isl _ returned := by
    rw [← Except.ok.inj returned]
    exact isl.pop.matched_descend
  archipelago archi _ _ returned := by
    rw [← Except.ok.inj returned, mergePopulations_eq, mergePopulations_eq]
    have after : ((archi.map fun isl => { isl with pop := isl.pop.descend }).map
        PagmoIsland.pop).map Population.individuals =
        (archi.map fun isl => isl.pop.individuals).map (List.map descend) := by
      simp only [List.map_map]
      exact List.map_congr_left fun isl _ => isl.pop.individuals_descend
    simp only [after, ← List.map_flatten]
    rw [List.map_map]
    exact matched_descend _

/-- One cycle on a worker with two cores, and one on a worker with a single thread. -/
def twoCycles : List (EvolveCycle Nat Unit) :=
  [⟨id, ⟨.archipelagoBased, 4, 2, .descending, 0⟩⟩,
    ⟨id, ⟨.singleThreaded, 80, 8, .descending, 0⟩⟩]

def fourIndividuals : PagmoIsland Nat Unit where
  algo := ()
  pop := ⟨[[3], [1], [4], [2]], [[3], [1], [4], [2]], rfl⟩
  seed := 7

theorem evolution_keeps_population_two_cycles :
    ∃ isl', runEvolves smallestFirst 1 twoCycles fourIndividuals = .ok isl' ∧
      isl'.pop.size = 4 ∧ isl'.pop.f = [[0], [0], [0], [0]] ∧
      Matched fourIndividuals.pop.f isl'.pop.f := by
  have stays : ∀ fitness : List (VectorDouble Nat), Matched fitness fitness := by
    intro fitness f member
    refine ⟨f, member, ?_⟩
    cases f with
    | nil => exact id
    | cons a f => exact Nat.lt_irrefl a
  have keeps : ∀ c ∈ twoCycles, c.Migrates smallestFirst.functions ∧
      c.worker.pagmo.Keeps smallestFirst.functions := by
    simp only [twoCycles, List.forall_mem_cons]
    exact ⟨⟨⟨fun _ => rfl, fun _ => id⟩, Pagmo.descending_keeps⟩,
      ⟨⟨fun _ => rfl, fun _ => id⟩, Pagmo.descending_keeps⟩, nofun⟩
  have elitist : ∀ c ∈ twoCycles, c.Elitist := by
    simp only [twoCycles, List.forall_mem_cons]
    exact ⟨⟨fun _ => stays _, Pagmo.descending_elitist⟩,
      ⟨fun _ => stays _, Pagmo.descending_elitist⟩, nofun⟩
  obtain ⟨evolved, run, fitness⟩ : ∃ isl', runEvolves smallestFirst 1 twoCycles
      fourIndividuals = .ok isl' ∧ isl'.pop.f = [[0], [0], [0], [0]] := ⟨_, rfl, by decide⟩
  rcases evolution_keeps_population smallestFirst 1 twoCycles fourIndividuals keeps (by decide)
    (by decide) (by decide) rfl with ⟨e, throws⟩ | ⟨isl', run', kept, matched⟩
  · rw [run] at throws
    cases throws
  · rw [run] at run'
    obtain rfl := Except.ok.inj run'
    exact ⟨evolved, run, kept.size, fitness, matched smallestFirst_ranked elitist⟩

end Metasolver
