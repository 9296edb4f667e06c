import Metasolver.Lib.Dealing
import Metasolver.Solver.PopulationTools
import Metasolver.Solver.WorkPlan
import Mathlib.Data.UInt

/-!
# `distributed_worker::_split_population_for_islands`

A worker splits the population it has received among the islands of its own
archipelago (`distributed_worker.cpp:104-157`).  Every island gets a multiple of 4, first
the same for all and then 4 more for one island after the other while individuals
remain.  The islands are filled with random individuals, which the individuals of the input
replace in order.
-/

namespace Metasolver

open Dealing

variable {D : Type}

/-- What the split asks of `pagmo::problem`, which also draws the random decision vectors
    of a new population. -/
structure ProblemFunctions (D : Type) where
  fitness : VectorDouble D → VectorDouble D
  randomDecisionVectors : (size : UInt64) → (seed : UInt32) → List (VectorDouble D)
  length_random : ∀ size seed, (randomDecisionVectors size seed).length = size.toNat

namespace Population

def size (pop : Population D) : Nat := pop.x.length

/-- `pagmo::population{prob, size, seed}`. -/
def random (prob : ProblemFunctions D) (size : UInt64) (seed : UInt32) : Population D where
  x := prob.randomDecisionVectors size seed
  f := (prob.randomDecisionVectors size seed).map prob.fitness
  sized := List.length_map _ |>.symm

/-- `pagmo::population::set_x` of an individual that exists. -/
def setX (prob : ProblemFunctions D) (pop : Population D) (i : Nat) (x : VectorDouble D) :
    Population D where
  x := pop.x.set i x
  f := pop.f.set i (prob.fitness x)
  sized := by rw [List.length_set, List.length_set, pop.sized]

end Population

/-- The size of every island before the remaining individuals are handed out. -/
def baseSize (minIslandPopSize totalPopSize islandCount : UInt64) : UInt64 :=
  let baseSize := max minIslandPopSize (totalPopSize / islandCount)
  let baseSize := baseSize - baseSize % 4
  if baseSize = 0 then 4 else baseSize

/-- The inner loop (`distributed_worker.cpp:145-151`), with the slots that are left. -/
def fillIsland (prob : ProblemFunctions D) (x : List (VectorDouble D)) :
    (slots j mainPopIndex : Nat) → Population D → Population D × Nat
  | 0, _, mainPopIndex, islandPop => (islandPop, mainPopIndex)
  | slots + 1, j, mainPopIndex, islandPop =>
      match x[mainPopIndex]? with
      | none => (islandPop, mainPopIndex)
      | some individual =>
          fillIsland prob x slots (j + 1) (mainPopIndex + 1) (islandPop.setX prob j individual)

/-- The outer loop (`distributed_worker.cpp:132-155`), with the islands that are left. -/
def fillIslands (prob : ProblemFunctions D) (seed : UInt32) (x : List (VectorDouble D))
    (baseSize : UInt64) :
    (islands : Nat) → (i remainingPop : UInt64) → (mainPopIndex : Nat) → List (Population D)
  | 0, _, _, _ => []
  | islands + 1, i, remainingPop, mainPopIndex =>
      let (currentSize, remainingPop) :=
        if 4 ≤ remainingPop then (baseSize + 4, remainingPop - 4) else (baseSize, remainingPop)
      let (islandPop, mainPopIndex) := fillIsland prob x currentSize.toNat 0 mainPopIndex
        (.random prob currentSize (seed.toUInt64 + i).toUInt32)
      islandPop :: fillIslands prob seed x baseSize islands (i + 1) remainingPop mainPopIndex

/-- `_split_population_for_islands` (`distributed_worker.cpp:104-157`). -/
def splitPopulationForIslands (prob : ProblemFunctions D) (minIslandPopSize : UInt64)
    (seed : UInt32) (pop : Population D) (islandCount : UInt64) :
    Except Exn (List (Population D)) :=
  let totalPopSize := UInt64.ofNat pop.size
  if islandCount = 0 then
    .error (.runtimeError "_split_population_for_islands - Cannot split among 0 islands")
  else
    let baseSize := baseSize minIslandPopSize totalPopSize islandCount
    let assignedPop := baseSize * islandCount
    let remainingPop := if assignedPop < totalPopSize then totalPopSize - assignedPop else 0
    .ok (fillIslands prob seed pop.x baseSize islandCount.toNat 0 remainingPop 0)

/-! ## One island -/

variable {prob : ProblemFunctions D} {seed : UInt32} {x : List (VectorDouble D)}
  {islandPop : Population D}

/-- Every individual stands with its own fitness. -/
def Evaluated (prob : ProblemFunctions D) (pop : Population D) : Prop :=
  pop.f = pop.x.map prob.fitness

theorem Evaluated.setX (h : Evaluated prob islandPop) (i : Nat) (individual : VectorDouble D) :
    Evaluated prob (islandPop.setX prob i individual) := by
  rw [Evaluated, Population.setX, List.map_set, ← h]

theorem fillIsland_evaluated {slots j mainPopIndex : Nat} (h : Evaluated prob islandPop) :
    Evaluated prob (fillIsland prob x slots j mainPopIndex islandPop).1 := by
  induction slots generalizing j mainPopIndex islandPop with
  | zero => exact h
  | succ slots ih =>
      unfold fillIsland
      split
      · exact h
      · exact ih (h.setX j _)

/-- The slots from `j` on take the next individuals, as far as there are any. -/
theorem fillIsland_x {slots j mainPopIndex : Nat} (inside : j + slots ≤ islandPop.size) :
    (fillIsland prob x slots j mainPopIndex islandPop).1.x =
        overwrite islandPop.x j ((x.drop mainPopIndex).take slots) ∧
      (fillIsland prob x slots j mainPopIndex islandPop).2 =
        mainPopIndex + ((x.drop mainPopIndex).take slots).length := by
  induction slots generalizing j mainPopIndex islandPop with
  | zero => simp [fillIsland]
  | succ slots ih =>
      unfold fillIsland
      cases next : x[mainPopIndex]? with
      | none =>
          have ended : x.drop mainPopIndex = [] :=
            List.drop_eq_nil_of_le (List.getElem?_eq_none_iff.mp next)
          simp [ended]
      | some individual =>
          obtain ⟨some_, rfl⟩ := List.getElem?_eq_some_iff.mp next
          have resized : (islandPop.setX prob j x[mainPopIndex]).size = islandPop.size :=
            List.length_set
          obtain ⟨filled, moved⟩ := @ih (islandPop.setX prob j x[mainPopIndex]) (j + 1)
            (mainPopIndex + 1) (by omega)
          have first : j < islandPop.x.length := by
            unfold Population.size at inside
            omega
          rw [List.drop_eq_getElem_cons some_, List.take_succ_cons, ← overwrite_set first]
          refine ⟨filled, ?_⟩
          rw [List.length_cons, ← Nat.add_assoc, Nat.add_right_comm]
          exact moved

/-- An island whose first slots hold `part` and whose other slots are as random as the
    constructor made them. -/
structure FilledWith (prob : ProblemFunctions D) (isl : Population D)
    (part : List (VectorDouble D)) : Prop where
  evaluated : Evaluated prob isl
  fits : part.length ≤ isl.size
  slots : ∃ size seed, size.toNat = isl.size ∧
    isl.x = part ++ (prob.randomDecisionVectors size seed).drop part.length

/-- A new island takes the next individuals, as many as it has slots. -/
theorem fillIsland_random (currentSize : UInt64) (seed : UInt32) (mainPopIndex : Nat) :
    FilledWith prob (fillIsland prob x currentSize.toNat 0 mainPopIndex
        (.random prob currentSize seed)).1 ((x.drop mainPopIndex).take currentSize.toNat) ∧
      (fillIsland prob x currentSize.toNat 0 mainPopIndex
        (.random prob currentSize seed)).1.size = currentSize.toNat ∧
      x.drop (fillIsland prob x currentSize.toNat 0 mainPopIndex
        (.random prob currentSize seed)).2 = (x.drop mainPopIndex).drop currentSize.toNat := by
  have slots : (Population.random prob currentSize seed).x.length = currentSize.toNat :=
    prob.length_random currentSize seed
  have taken : ((x.drop mainPopIndex).take currentSize.toNat).length ≤
      (Population.random prob currentSize seed).x.length := by
    rw [slots]
    exact List.length_take_le _ _
  obtain ⟨filled, moved⟩ := @fillIsland_x D prob x (.random prob currentSize seed)
    currentSize.toNat 0 mainPopIndex (by rw [Population.size, slots]; omega)
  have size : (fillIsland prob x currentSize.toNat 0 mainPopIndex
      (.random prob currentSize seed)).1.size = currentSize.toNat := by
    rw [Population.size, filled, length_overwrite_zero taken, slots]
  refine ⟨⟨fillIsland_evaluated rfl, ?_, currentSize, seed, size.symm, ?_⟩, size, ?_⟩
  · rw [size]
    rwa [slots] at taken
  · rw [filled, overwrite_zero]
    rfl
  · rw [moved, ← List.drop_drop, drop_length_take]

/-! ## All islands -/

/-- The sizes of the islands, the larger ones first. -/
def islandSizes (base : Nat) : (islands remainingPop : Nat) → List Nat
  | 0, _ => []
  | islands + 1, remainingPop =>
      if 4 ≤ remainingPop then (base + 4) :: islandSizes base islands (remainingPop - 4)
      else base :: islandSizes base islands remainingPop

variable {base islands remainingPop : Nat}

@[simp] theorem length_islandSizes : (islandSizes base islands remainingPop).length = islands := by
  fun_induction islandSizes base islands remainingPop with
  | case1 => rfl
  | case2 islands remainingPop enough ih => rw [List.length_cons, ih]
  | case3 islands remainingPop few ih => rw [List.length_cons, ih]

theorem mem_islandSizes {size : Nat} (member : size ∈ islandSizes base islands remainingPop) :
    size = base ∨ size = base + 4 := by
  fun_induction islandSizes base islands remainingPop with
  | case1 => cases member
  | case2 islands remainingPop enough ih =>
      rcases List.mem_cons.mp member with rfl | later
      · exact Or.inr rfl
      · exact ih later
  | case3 islands remainingPop few ih =>
      rcases List.mem_cons.mp member with rfl | later
      · exact Or.inl rfl
      · exact ih later

/-- Groups of 4 are handed out until none is left or every island has one. -/
theorem sum_islandSizes :
    (islandSizes base islands remainingPop).sum =
      islands * base + 4 * min islands (remainingPop / 4) := by
  fun_induction islandSizes base islands remainingPop with
  | case1 => simp
  | case2 islands remainingPop enough ih =>
      rw [List.sum_cons, ih, Nat.succ_mul islands]
      omega
  | case3 islands remainingPop few ih =>
      rw [List.sum_cons, ih, Nat.succ_mul islands]
      omega

/-- One round of the outer loop: the size of the next island, and what remains after it. -/
theorem fillIslands_succ {base : UInt64} (i remaining : UInt64) (mainPopIndex : Nat)
    (fits : 4 ≤ remaining.toNat → base.toNat + 4 < 2 ^ 64) :
    ∃ currentSize rest : UInt64,
      (fillIslands prob seed x base (islands + 1) i remaining mainPopIndex =
        (fillIsland prob x currentSize.toNat 0 mainPopIndex
          (.random prob currentSize (seed.toUInt64 + i).toUInt32)).1 ::
        fillIslands prob seed x base islands (i + 1) rest (fillIsland prob x currentSize.toNat 0
          mainPopIndex (.random prob currentSize (seed.toUInt64 + i).toUInt32)).2) ∧
      islandSizes base.toNat (islands + 1) remaining.toNat =
        currentSize.toNat :: islandSizes base.toNat islands rest.toNat ∧
      rest.toNat ≤ remaining.toNat := by
  rw [fillIslands, islandSizes]
  by_cases enough : 4 ≤ remaining
  · have enough' : 4 ≤ remaining.toNat := UInt64.le_iff_toNat_le.mp enough
    have grown : (base + 4).toNat = base.toNat + 4 := by
      rw [UInt64.toNat_add]
      exact Nat.mod_eq_of_lt (fits enough')
    have less : (remaining - 4).toNat = remaining.toNat - 4 := UInt64.toNat_sub_of_le _ _ enough
    refine ⟨base + 4, remaining - 4, ?_, ?_, by omega⟩
    · rw [if_pos enough]
    · rw [if_pos enough', grown, less]
  · have few : ¬4 ≤ remaining.toNat := fun le => enough (UInt64.le_iff_toNat_le.mpr le)
    refine ⟨base, remaining, ?_, ?_, le_refl _⟩
    · rw [if_neg enough]
    · rw [if_neg few]

/-- The islands in order are dealt the input, each as much as its size. -/
theorem fillIslands_deal {base i remaining : UInt64} {mainPopIndex : Nat}
    (fits : 4 ≤ remaining.toNat → base.toNat + 4 < 2 ^ 64) :
    List.Forall₂ (FilledWith prob) (fillIslands prob seed x base islands i remaining mainPopIndex)
        (deal (islandSizes base.toNat islands remaining.toNat) (x.drop mainPopIndex)) ∧
      (fillIslands prob seed x base islands i remaining mainPopIndex).map Population.size =
        islandSizes base.toNat islands remaining.toNat := by
  induction islands generalizing i remaining mainPopIndex with
  | zero => exact ⟨.nil, rfl⟩
  | succ islands ih =>
      obtain ⟨currentSize, rest, round, sizes, fewer⟩ := @fillIslands_succ D prob seed x islands
        base i remaining mainPopIndex fits
      obtain ⟨filled, size, next⟩ := @fillIsland_random D prob x currentSize
        (seed.toUInt64 + i).toUInt32 mainPopIndex
      rw [round, sizes, deal, ← next, List.map_cons, size]
      obtain ⟨restFilled, restSizes⟩ := @ih (i + 1) rest _ fun more => fits (more.trans fewer)
      exact ⟨.cons filled restFilled, congrArg _ restSizes⟩

/-! ## The sizes -/

variable {minIslandPopSize totalPopSize islandCount : UInt64}

/-- The base size is a positive multiple of 4, and no more than 3 below an equal share. -/
theorem toNat_baseSize :
    4 ∣ (baseSize minIslandPopSize totalPopSize islandCount).toNat ∧
      0 < (baseSize minIslandPopSize totalPopSize islandCount).toNat ∧
      totalPopSize.toNat / islandCount.toNat ≤
        (baseSize minIslandPopSize totalPopSize islandCount).toNat + 3 := by
  have most : (max minIslandPopSize (totalPopSize / islandCount)).toNat =
      max minIslandPopSize.toNat (totalPopSize.toNat / islandCount.toNat) := by
    rw [UInt64.toNat_max, UInt64.toNat_div]
  have share := Nat.le_max_right minIslandPopSize.toNat (totalPopSize.toNat / islandCount.toNat)
  unfold baseSize
  generalize max minIslandPopSize (totalPopSize / islandCount) = size at most ⊢
  have rem : (size % 4).toNat = size.toNat % 4 := UInt64.toNat_mod size 4
  have rounded : (size - size % 4).toNat = size.toNat - size.toNat % 4 := by
    rw [UInt64.toNat_sub_of_le, rem]
    rw [UInt64.le_iff_toNat_le, rem]
    exact Nat.mod_le _ _
  by_cases zero : size - size % 4 = 0
  · simp only [if_pos zero]
    rw [zero] at rounded
    change 0 = _ at rounded
    change 4 ∣ 4 ∧ 0 < 4 ∧ _ ≤ 4 + 3
    omega
  · simp only [if_neg zero]
    have positive : (size - size % 4).toNat ≠ 0 := fun none_ => zero (UInt64.toNat_inj.mp none_)
    omega

/-- `remainingPop` before the first island. -/
theorem toNat_remainingPop {base : UInt64} (fits : base.toNat * islandCount.toNat < 2 ^ 64) :
    (if base * islandCount < totalPopSize then totalPopSize - base * islandCount else 0).toNat =
      totalPopSize.toNat - base.toNat * islandCount.toNat := by
  have assigned : (base * islandCount).toNat = base.toNat * islandCount.toNat := by
    rw [UInt64.toNat_mul]
    exact Nat.mod_eq_of_lt fits
  by_cases less : base * islandCount < totalPopSize
  · rw [if_pos less, UInt64.toNat_sub_of_le _ _ (UInt64.le_of_lt less), assigned]
  · rw [if_neg less]
    rw [UInt64.lt_iff_toNat_lt, assigned] at less
    change 0 = _
    omega

/-- The sizes add up to the population but for at most 3 individuals, and to all of it if it
    is a multiple of 4. -/
theorem le_sum_islandSizes {base islands total : Nat} (multiple : 4 ∣ base) (some_ : 0 < islands)
    (share : total / islands ≤ base + 3) :
    total ≤ (islandSizes base islands (total - base * islands)).sum + 3 ∧
      (4 ∣ total → total ≤ (islandSizes base islands (total - base * islands)).sum) := by
  have parts := Nat.div_add_mod total islands
  have rest := Nat.mod_lt total some_
  have grown := Nat.mul_le_mul_left islands share
  rw [Nat.mul_add, Nat.mul_comm islands base] at grown
  have groups : 4 ∣ base * islands := Dvd.dvd.mul_right multiple islands
  rw [sum_islandSizes, Nat.mul_comm islands base]
  generalize base * islands = assigned at grown groups ⊢
  have handed : min islands ((total - assigned) / 4) = (total - assigned) / 4 := by omega
  rw [handed]
  omega

/-- A population that is split keeps its individuals. -/
structure SplitOk (prob : ProblemFunctions D) (pop : Population D) (islandCount : UInt64)
    (islands : List (Population D)) (parts : List (List (VectorDouble D))) : Prop where
  count : islands.length = islandCount.toNat
  sizes : ∀ isl ∈ islands, 0 < isl.size ∧ 4 ∣ isl.size
  balanced : ∀ isl ∈ islands, ∀ isl' ∈ islands, isl.size ≤ isl'.size + 4
  filled : List.Forall₂ (FilledWith prob) islands parts
  inOrder : parts.flatten <+: pop.x
  leftOut : pop.size ≤ parts.flatten.length + 3

/-- Merging keeps the individuals of all islands. -/
theorem length_mergePopulations (archi : List (Population D)) :
    (mergePopulations archi).1.length = (archi.map Population.size).sum ∧
      (mergePopulations archi).2.length = (archi.map Population.size).sum := by
  have run : ∀ start : List (VectorDouble D) × List (VectorDouble D),
      (archi.foldl (fun all isl => (all.1 ++ isl.x, all.2 ++ isl.f)) start).1.length =
          start.1.length + (archi.map Population.size).sum ∧
        (archi.foldl (fun all isl => (all.1 ++ isl.x, all.2 ++ isl.f)) start).2.length =
          start.2.length + (archi.map Population.size).sum := by
    induction archi with
    | nil => simp
    | cons isl archi ih =>
        intro start
        have same : isl.f.length = isl.size := isl.sized.symm
        obtain ⟨xs, fs⟩ := ih (start.1 ++ isl.x, start.2 ++ isl.f)
        rw [List.foldl_cons, xs, fs, List.length_append, List.length_append, List.map_cons,
          List.sum_cons, same, Population.size]
        omega
  obtain ⟨xs, fs⟩ := run ([], [])
  rw [mergePopulations, xs, fs, List.length_nil, Nat.zero_add]
  exact ⟨rfl, rfl⟩

/-- The size of an entry of some work plan. -/
def PlannedSize (size : Nat) : Prop :=
  ∃ (E Algo : Type) (arith : DoubleArith E) (order : IterationOrder WorkerId)
    (strategy : LoadBalancingStrategy) (connectedWorkers : Finset WorkerId)
    (getWorkerInfo : Nat → WorkerId → Option WorkerInfo) (getName : Algo → String)
    (islandCount populationSize minIslandPopSize : UInt64) (algorithms : List Algo)
    (plan : List (PlanEntry Algo)),
    generateWorkPlan arith order strategy connectedWorkers getWorkerInfo getName islandCount
      populationSize algorithms minIslandPopSize = .ok plan ∧
    ∃ entry ∈ plan, entry.populationSize.toNat = size

theorem PlannedSize.multiple {size : Nat} (planned : PlannedSize size) : 4 ∣ size := by
  obtain ⟨_, _, _, _, _, _, _, _, _, _, _, _, plan, made, entry, member, rfl⟩ := planned
  exact generateWorkPlan_multiple made entry member

/-- A split loses no individual but at most the last 3, and none of a planned population or
    of another multiple of 4; then the merged islands hold enough for the selection of as
    many. -/
theorem splitPopulationForIslands_keeps (prob : ProblemFunctions D)
    (minIslandPopSize islandCount : UInt64) (seed : UInt32) (pop : Population D)
    (positive : 1 ≤ islandCount.toNat) (sized : pop.size < 2 ^ 64)
    (fits : (baseSize minIslandPopSize (UInt64.ofNat pop.size) islandCount).toNat *
      islandCount.toNat < 2 ^ 64) :
    ∃ islands parts, splitPopulationForIslands prob minIslandPopSize seed pop islandCount =
        .ok islands ∧
      SplitOk prob pop islandCount islands parts ∧
      (4 ∣ pop.size ∨ PlannedSize pop.size → parts.flatten = pop.x ∧ ∀ archi : List (Population D),
        archi.map Population.size = islands.map Population.size →
          pop.size ≤ (mergePopulations archi).1.length ∧
          pop.size ≤ (mergePopulations archi).2.length) := by
  have total : (UInt64.ofNat pop.size).toNat = pop.size := UInt64.toNat_ofNat_of_lt' sized
  have some_ : islandCount ≠ 0 := by
    intro zero
    rw [zero] at positive
    exact absurd positive (by decide)
  obtain ⟨multiple, notEmpty, share⟩ := @toNat_baseSize minIslandPopSize (UInt64.ofNat pop.size)
    islandCount
  rw [splitPopulationForIslands]
  simp only [if_neg some_]
  generalize baseSize minIslandPopSize (UInt64.ofNat pop.size) islandCount = base at *
  have remaining := @toNat_remainingPop (UInt64.ofNat pop.size) islandCount base fits
  rw [total] at share remaining
  generalize (if base * islandCount < UInt64.ofNat pop.size then
    UInt64.ofNat pop.size - base * islandCount else 0) = remainingPop at *
  obtain ⟨most, all⟩ := le_sum_islandSizes multiple positive share
  obtain ⟨filled, sizes⟩ := @fillIslands_deal D prob seed pop.x islandCount.toNat base 0
    remainingPop 0 fun more => by
      have one := Nat.le_mul_of_pos_right base.toNat positive
      omega
  rw [remaining] at filled sizes
  rw [List.drop_zero] at filled
  have size_mem : ∀ isl ∈ fillIslands prob seed pop.x base islandCount.toNat 0 remainingPop 0,
      isl.size = base.toNat ∨ isl.size = base.toNat + 4 := by
    intro isl inside
    have member := List.mem_map_of_mem (f := Population.size) inside
    rw [sizes] at member
    exact mem_islandSizes member
  refine ⟨_, _, rfl, ⟨?_, ?_, ?_, filled, ?_, ?_⟩, fun quarters => ?_⟩
  · have length := congrArg List.length sizes
    rwa [List.length_map, length_islandSizes] at length
  · intro isl inside
    have size := size_mem isl inside
    omega
  · intro isl inside isl' inside'
    have size := size_mem isl inside
    have size' := size_mem isl' inside'
    omega
  · rw [flatten_deal]
    exact List.take_prefix _ _
  · rw [flatten_deal, List.length_take, Population.size] at *
    omega
  · have enough := all (quarters.elim id PlannedSize.multiple)
    refine ⟨flatten_deal_of_le enough, fun archi sameSizes => ?_⟩
    obtain ⟨xs, fs⟩ := length_mergePopulations archi
    rw [xs, fs, sameSizes, sizes]
    exact ⟨enough, enough⟩

def sampleProblem : ProblemFunctions Nat where
  fitness := id
  randomDecisionVectors size _ := List.replicate size.toNat [0]
  length_random _ _ := List.length_replicate

/-- Twelve individuals. -/
def samplePopulation : Population Nat where
  x := (List.range 12).map fun k => [k + 1]
  f := (List.range 12).map fun k => [k + 1]
  sized := rfl

theorem splitPopulationForIslands_keeps_sample :
    ∃ islands parts, splitPopulationForIslands sampleProblem 4 7 samplePopulation 2 =
        .ok islands ∧
      SplitOk sampleProblem samplePopulation 2 islands parts ∧
      (4 ∣ samplePopulation.size ∨ PlannedSize samplePopulation.size →
        parts.flatten = samplePopulation.x ∧ ∀ archi : List (Population Nat),
          archi.map Population.size = islands.map Population.size →
            samplePopulation.size ≤ (mergePopulations archi).1.length ∧
            samplePopulation.size ≤ (mergePopulations archi).2.length) :=
  splitPopulationForIslands_keeps sampleProblem 4 2 7 samplePopulation (by decide) (by decide)
    (by decide)

end Metasolver
