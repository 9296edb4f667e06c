import Metasolver.Solver.Assignment
import Metasolver.Lib.Apportionment
import Mathlib.Algebra.BigOperators.Ring.List
import Mathlib.Algebra.Order.BigOperators.Group.List

/-!
# The population sizes of a plan

Both ways of dividing the work give each island a share of the population.  The shares
are rounded down, so together they fall short of the population by less than the
number of islands.  The minimum and the rounding up to a multiple of 4 then add at
most the minimum and 3 to each share.
-/

namespace Metasolver

open Apportionment

variable {Algo : Type} {populationSize : UInt64} {assigned : List (AssignedWorker ℚ Algo)}

/-- The size that is made of a share in the population. -/
def sizeOfShare (minIslandPopSize share : UInt64) : UInt64 :=
  ceilToMultiple (max minIslandPopSize share) 4

variable {m share share' : UInt64}

theorem toNat_sizeOfShare (fits : share.toNat + m.toNat + 3 < 2 ^ 64) :
    (sizeOfShare m share).toNat = (max m.toNat share.toNat + 3) / 4 * 4 := by
  rw [sizeOfShare, toNat_ceilToMultiple, UInt64.toNat_max]
  omega

/-- It is a multiple of 4, at least the minimum and the share, and no more than both
    and 3. -/
theorem sizeOfShare_spec (fits : share.toNat + m.toNat + 3 < 2 ^ 64) :
    4 ∣ (sizeOfShare m share).toNat ∧ m ≤ sizeOfShare m share ∧
      share.toNat ≤ (sizeOfShare m share).toNat ∧
      (sizeOfShare m share).toNat ≤ share.toNat + (m.toNat + 3) := by
  rw [UInt64.le_iff_toNat_le, toNat_sizeOfShare fits]
  exact ⟨Dvd.intro_left _ rfl, by omega, by omega, by omega⟩

theorem sizeOfShare_mono (fits : share'.toNat + m.toNat + 3 < 2 ^ 64) (le : share ≤ share') :
    sizeOfShare m share ≤ sizeOfShare m share' := by
  rw [UInt64.le_iff_toNat_le] at le ⊢
  rw [toNat_sizeOfShare fits, toNat_sizeOfShare (by omega)]
  omega

/-! ## The shares of all islands -/

/-- The sum of the population sizes. -/
def totalSize (sizes : List UInt64) : Nat := (sizes.map UInt64.toNat).sum

/-- The shares fall short of the population by less than the number of islands. -/
structure Shares (populationSize : UInt64) (shares : List UInt64) : Prop where
  most : totalSize shares ≤ populationSize.toNat
  short : populationSize.toNat < totalSize shares + shares.length

namespace Shares

variable {shares : List UInt64}

theorem nonempty (h : Shares populationSize shares) : 0 < shares.length := by
  have most := h.most
  have short := h.short
  omega

theorem le (h : Shares populationSize shares) (member : share ∈ shares) :
    share.toNat ≤ populationSize.toNat :=
  (List.single_le_sum (fun _ _ => Nat.zero_le _) _ (List.mem_map_of_mem member)).trans h.most

/-- No size wraps if the largest possible total does not. -/
theorem fits (h : Shares populationSize shares)
    (bounded : populationSize.toNat + shares.length * (m.toNat + 3) < 2 ^ 64)
    (member : share ∈ shares) : share.toNat + m.toNat + 3 < 2 ^ 64 := by
  have le := h.le member
  have one := Nat.le_mul_of_pos_left (m.toNat + 3) h.nonempty
  omega

/-- The sizes lie above their shares by at most the minimum and 3 for each island. -/
theorem totalSize_bounds (each : ∀ share ∈ shares, share.toNat + m.toNat + 3 < 2 ^ 64) :
    totalSize shares ≤ totalSize (shares.map (sizeOfShare m)) ∧
      totalSize (shares.map (sizeOfShare m)) ≤
        totalSize shares + shares.length * (m.toNat + 3) := by
  induction shares with
  | nil => simp [totalSize]
  | cons share shares ih =>
      obtain ⟨-, -, lower, upper⟩ := sizeOfShare_spec (each share List.mem_cons_self)
      obtain ⟨restLower, restUpper⟩ := ih fun later member =>
        each later (List.mem_cons_of_mem share member)
      simp only [totalSize, List.map_cons, List.sum_cons, List.length_cons] at *
      rw [Nat.succ_mul]
      omega

/-- The total of the sizes, from below and from above. -/
theorem sizes (h : Shares populationSize shares)
    (bounded : populationSize.toNat + shares.length * (m.toNat + 3) < 2 ^ 64) :
    populationSize.toNat ≤ totalSize (shares.map (sizeOfShare m)) + (shares.length - 1) ∧
      totalSize (shares.map (sizeOfShare m)) ≤
        populationSize.toNat + shares.length * (m.toNat + 3) := by
  obtain ⟨lower, upper⟩ := totalSize_bounds fun share member => h.fits bounded member
  have most := h.most
  have short := h.short
  omega

/-- Equal division. -/
theorem equal {islandCount : UInt64} (positive : 0 < islandCount.toNat) :
    Shares populationSize (List.replicate islandCount.toNat (populationSize / islandCount)) := by
  have total : totalSize (List.replicate islandCount.toNat (populationSize / islandCount)) =
      islandCount.toNat * (populationSize.toNat / islandCount.toNat) := by
    rw [totalSize, List.map_replicate, List.sum_replicate_nat, UInt64.toNat_div]
  have parts := Nat.div_add_mod populationSize.toNat islandCount.toNat
  have rest := Nat.mod_lt populationSize.toNat positive
  refine ⟨?_, ?_⟩
  · rw [total]
    omega
  · rw [total, List.length_replicate]
    omega

end Shares

/-! ## Division by performance -/

theorem totalPerformance_rational (assigned : List (AssignedWorker ℚ Algo)) :
    totalPerformance .rational assigned = (assigned.map AssignedWorker.perfMetric).sum := by
  have run : ∀ start : ℚ, assigned.foldl
      (fun total worker => DoubleArith.rational.add total worker.perfMetric) start =
        start + (assigned.map AssignedWorker.perfMetric).sum := by
    induction assigned with
    | nil => simp
    | cons worker assigned ih =>
        intro start
        rw [List.foldl_cons, ih, List.map_cons, List.sum_cons, ← add_assoc]
        rfl
  rw [totalPerformance, run, ofUInt64_zero, zero_add]

/-- No metric is negative. -/
theorem chosenWorker_nonneg {best : BestWorkers ℚ} {workers : List WorkerId} {algoName : String}
    {info : WorkerId → Option WorkerInfo}
    (h : findBestWorkers .rational algoName info workers = .ok best) :
    0 ≤ (chosenWorker .rational best).2 := by
  obtain ⟨total, algo⟩ := findBestWorkers_keepBest h
  have lowTotal : 0 ≤ best.total.1 := by
    rw [total]
    exact RunningMax.le_foldl (totalAvg info) (0, "") workers
  have lowAlgo : 0 ≤ best.algo.1 := by
    rw [algo]
    exact RunningMax.le_foldl (algoAvg algoName info) (0, "") workers
  rw [chosenWorker_rational]
  split_ifs
  · exact lowTotal
  · exact lowAlgo

theorem perfMetric_nonneg {getWorkerInfo : Nat → WorkerId → Option WorkerInfo}
    {order : IterationOrder WorkerId} {algorithms : List Algo} {getName : Algo → String}
    {islands i algorithmPtr : Nat} {connectedWorkers : Finset WorkerId}
    (h : assignWorkers .rational order getWorkerInfo algorithms getName islands i algorithmPtr
      connectedWorkers = .ok assigned) :
    ∀ worker ∈ assigned, 0 ≤ worker.perfMetric := by
  induction islands generalizing i algorithmPtr connectedWorkers assigned with
  | zero =>
      simp only [assignWorkers, Except.ok.injEq] at h
      subst h
      simp
  | succ islands ih =>
      obtain ⟨alg, next, best, rest, -, found, tail, rfl⟩ := assignWorkers_succ h
      intro worker member
      rcases List.mem_cons.mp member with rfl | later
      · exact chosenWorker_nonneg found
      · exact ih tail worker later

/-- The share of a worker before it is rounded down. -/
def performanceShare (populationSize : UInt64) (assigned : List (AssignedWorker ℚ Algo))
    (worker : AssignedWorker ℚ Algo) : ℚ :=
  populationSize.toNat *
    if 0 < totalPerformance .rational assigned then
      worker.perfMetric / totalPerformance .rational assigned
    else 1 / assigned.length

/-- The share of a worker as a `size_t`. -/
def roundedShare (populationSize : UInt64) (assigned : List (AssignedWorker ℚ Algo))
    (worker : AssignedWorker ℚ Algo) : UInt64 :=
  UInt64.ofNat ⌊performanceShare populationSize assigned worker⌋₊

variable {worker better worse : AssignedWorker ℚ Algo}

theorem populationSize_performanceEntry (countable : assigned.length < 2 ^ 64) :
    (performanceEntry .rational populationSize m (totalPerformance .rational assigned)
      assigned.length worker).populationSize =
        sizeOfShare m (roundedShare populationSize assigned worker) := by
  have number : DoubleArith.rational.ofUInt64 (UInt64.ofNat assigned.length) =
      (assigned.length : ℚ) := congrArg Nat.cast (UInt64.toNat_ofNat_of_lt' countable)
  have one : DoubleArith.rational.ofUInt64 1 = 1 := Nat.cast_one
  unfold performanceEntry sizeOfShare roundedShare performanceShare
  rw [number, one, ofUInt64_zero]
  generalize totalPerformance .rational assigned = total
  by_cases positive : 0 < total
  · simp only [DoubleArith.rational, decide_eq_true positive, if_true, if_pos positive,
      Int.floor_toNat]
  · simp only [DoubleArith.rational, decide_eq_false positive, Bool.false_eq_true, if_false,
      if_neg positive, Int.floor_toNat]

theorem performanceShare_nonneg (nonneg : 0 ≤ worker.perfMetric) :
    0 ≤ performanceShare populationSize assigned worker := by
  unfold performanceShare
  apply mul_nonneg (Nat.cast_nonneg _)
  split_ifs with positive
  · exact div_nonneg nonneg positive.le
  · exact div_nonneg zero_le_one (Nat.cast_nonneg _)

theorem performanceShare_mono (le : worse.perfMetric ≤ better.perfMetric) :
    performanceShare populationSize assigned worse ≤
      performanceShare populationSize assigned better := by
  unfold performanceShare
  apply mul_le_mul_of_nonneg_left _ (Nat.cast_nonneg _)
  split_ifs with positive
  · exact div_le_div_of_nonneg_right le positive.le
  · exact le_refl _

section

variable (nonempty : assigned ≠ [])
include nonempty

/-- The shares of all workers add up to the population. -/
theorem sum_performanceShare :
    (assigned.map (performanceShare populationSize assigned)).sum = populationSize.toNat := by
  unfold performanceShare
  rw [List.sum_map_mul_left]
  by_cases positive : 0 < totalPerformance .rational assigned
  · simp only [if_pos positive, div_eq_mul_inv]
    rw [List.sum_map_mul_right, ← totalPerformance_rational, mul_inv_cancel₀ positive.ne', mul_one]
  · have workers : (assigned.length : ℚ) ≠ 0 := by
      rw [Nat.cast_ne_zero]
      exact fun none_ => nonempty (List.length_eq_zero_iff.mp none_)
    simp only [if_neg positive, List.map_const', List.sum_replicate, nsmul_eq_mul]
    rw [mul_one_div_cancel workers, mul_one]

variable (nonneg : ∀ worker ∈ assigned, 0 ≤ worker.perfMetric)
include nonneg

/-- The shares of the workers apportion the population. -/
theorem roundDown_performanceShare (populationSize : UInt64) :
    (roundDown (assigned.map (performanceShare populationSize assigned))).sum ≤
        populationSize.toNat ∧
      populationSize.toNat <
        (roundDown (assigned.map (performanceShare populationSize assigned))).sum +
          assigned.length := by
  have sharesNonneg : ∀ share ∈ assigned.map (performanceShare populationSize assigned),
      0 ≤ share := by
    intro share member
    obtain ⟨worker, inside, rfl⟩ := List.mem_map.mp member
    exact performanceShare_nonneg (nonneg worker inside)
  obtain ⟨most, short⟩ := roundDown_of_sum_eq sharesNonneg
    (fun empty => nonempty (List.map_eq_nil_iff.mp empty)) (sum_performanceShare nonempty)
  rw [List.length_map] at short
  exact ⟨most, short⟩

/-- No share exceeds the population, so none is cut off at 64 bits. -/
theorem toNat_roundedShare (inside : worker ∈ assigned) :
    (roundedShare populationSize assigned worker).toNat =
      ⌊performanceShare populationSize assigned worker⌋₊ := by
  have most := (roundDown_performanceShare nonempty nonneg populationSize).1
  have part : ⌊performanceShare populationSize assigned worker⌋₊ ≤
      (roundDown (assigned.map (performanceShare populationSize assigned))).sum :=
    List.single_le_sum (fun _ _ => Nat.zero_le _) _
      (List.mem_map_of_mem (List.mem_map_of_mem inside))
  exact UInt64.toNat_ofNat_of_lt' ((part.trans most).trans_lt populationSize.toNat_lt)

/-- Division by performance. -/
theorem Shares.performance :
    Shares populationSize (assigned.map (roundedShare populationSize assigned)) := by
  have total : totalSize (assigned.map (roundedShare populationSize assigned)) =
      (roundDown (assigned.map (performanceShare populationSize assigned))).sum := by
    rw [totalSize, List.map_map, roundDown, List.map_map]
    congr 1
    apply List.map_congr_left
    intro worker inside
    exact toNat_roundedShare nonempty nonneg inside
  obtain ⟨most, short⟩ := roundDown_performanceShare nonempty nonneg populationSize
  refine ⟨?_, ?_⟩
  · rw [total]
    exact most
  · rw [total, List.length_map]
    exact short

/-- A worker with no smaller metric gets no smaller share. -/
theorem roundedShare_mono (betterIn : better ∈ assigned) (worseIn : worse ∈ assigned)
    (le : worse.perfMetric ≤ better.perfMetric) :
    roundedShare populationSize assigned worse ≤ roundedShare populationSize assigned better := by
  rw [UInt64.le_iff_toNat_le, toNat_roundedShare nonempty nonneg betterIn,
    toNat_roundedShare nonempty nonneg worseIn]
  exact Nat.floor_mono (performanceShare_mono le)

end

/-! ## The plan -/

/-- All entries have the same size. -/
def SameSizes (plan : List (PlanEntry Algo)) : Prop :=
  ∀ entry ∈ plan, ∀ entry' ∈ plan, entry.populationSize = entry'.populationSize

/-- The sizes of a plan by performance in relation to the metrics of the workers. -/
structure SizesFollow (assigned : List (AssignedWorker ℚ Algo)) (plan : List (PlanEntry Algo)) :
    Prop where
  workers : plan.map PlanEntry.preferredWorkerId = assigned.map AssignedWorker.workerId
  allZero : (∀ worker ∈ assigned, worker.perfMetric = 0) → SameSizes plan
  monotone : ∀ better ∈ assigned.zip plan, ∀ worse ∈ assigned.zip plan,
    worse.1.perfMetric ≤ better.1.perfMetric → worse.2.populationSize ≤ better.2.populationSize

/-- What holds of the sizes of a plan, however the work was divided. -/
structure SizesOk (islandCount populationSize minIslandPopSize : UInt64)
    (plan : List (PlanEntry Algo)) : Prop where
  length : plan.length = islandCount.toNat
  multiple : ∀ entry ∈ plan, 4 ∣ entry.populationSize.toNat
  minimum : ∀ entry ∈ plan, minIslandPopSize ≤ entry.populationSize
  lower : populationSize.toNat ≤
    totalSize (plan.map PlanEntry.populationSize) + (islandCount.toNat - 1)
  upper : totalSize (plan.map PlanEntry.populationSize) ≤
    populationSize.toNat + islandCount.toNat * (minIslandPopSize.toNat + 3)

/-- Sizes made of shares are in order. -/
theorem Shares.sizesOk {islandCount : UInt64} {shares : List UInt64}
    {plan : List (PlanEntry Algo)} (h : Shares populationSize shares)
    (length : shares.length = islandCount.toNat)
    (fits : populationSize.toNat + islandCount.toNat * (m.toNat + 3) < 2 ^ 64)
    (sizes : plan.map PlanEntry.populationSize = shares.map (sizeOfShare m)) :
    SizesOk islandCount populationSize m plan := by
  rw [← length] at fits
  have each : ∀ entry ∈ plan, 4 ∣ entry.populationSize.toNat ∧ m ≤ entry.populationSize := by
    intro entry inside
    have member := List.mem_map_of_mem (f := PlanEntry.populationSize) inside
    rw [sizes] at member
    obtain ⟨share, inside, same⟩ := List.mem_map.mp member
    obtain ⟨multiple, minimum, -⟩ := sizeOfShare_spec (h.fits fits inside)
    rw [← same]
    exact ⟨multiple, minimum⟩
  have planLength := congrArg List.length sizes
  rw [List.length_map, List.length_map] at planLength
  obtain ⟨lower, upper⟩ := h.sizes fits
  refine ⟨planLength.trans length, fun entry inside => (each entry inside).1,
    fun entry inside => (each entry inside).2, ?_, ?_⟩
  · rw [sizes, ← length]
    exact lower
  · rw [sizes, ← length]
    exact upper

/-- The entry of a worker is the one made for it. -/
theorem mem_zip_map {α β : Type} {f : α → β} {l : List α} {p : α × β}
    (member : p ∈ l.zip (l.map f)) :
    p.1 ∈ l ∧ p.2 = f p.1 := by
  have both : l.zip (l.map f) = l.map fun a => (a, f a) := by
    simpa using List.zip_map' (f := id) (g := f) (l := l)
  rw [both] at member
  obtain ⟨a, inside, rfl⟩ := List.mem_map.mp member
  exact ⟨inside, rfl⟩

/-- The sizes of a plan by performance follow the metrics. -/
theorem sizesFollow_performance (nonempty : assigned ≠ [])
    (nonneg : ∀ worker ∈ assigned, 0 ≤ worker.perfMetric)
    (fits : populationSize.toNat + assigned.length * (m.toNat + 3) < 2 ^ 64) :
    SizesFollow assigned (assigned.map (performanceEntry .rational populationSize m
      (totalPerformance .rational assigned) assigned.length)) := by
  have shares : Shares populationSize (assigned.map (roundedShare populationSize assigned)) :=
    Shares.performance nonempty nonneg
  have countable : assigned.length < 2 ^ 64 := by
    have three := Nat.le_mul_of_pos_right assigned.length (by omega : 0 < m.toNat + 3)
    omega
  refine ⟨by rw [List.map_map]; rfl, ?_, ?_⟩
  · intro zero entry inside entry' inside'
    obtain ⟨worker, -, rfl⟩ := List.mem_map.mp inside
    obtain ⟨worker', -, rfl⟩ := List.mem_map.mp inside'
    have none_ : ¬0 < totalPerformance .rational assigned := by
      rw [totalPerformance_rational, List.sum_eq_zero]
      · exact lt_irrefl _
      · intro metric member
        obtain ⟨worker, inside, rfl⟩ := List.mem_map.mp member
        exact zero worker inside
    rw [populationSize_performanceEntry countable, populationSize_performanceEntry countable]
    simp only [roundedShare, performanceShare, if_neg none_]
  · intro better betterIn worse worseIn le
    obtain ⟨betterWorker, betterEntry⟩ := mem_zip_map betterIn
    obtain ⟨worseWorker, worseEntry⟩ := mem_zip_map worseIn
    rw [betterEntry, worseEntry, populationSize_performanceEntry countable,
      populationSize_performanceEntry countable]
    have bounded : assigned.length = (assigned.map (roundedShare populationSize assigned)).length :=
      List.length_map _ |>.symm
    rw [bounded] at fits
    exact sizeOfShare_mono (shares.fits fits (List.mem_map_of_mem betterWorker))
      (roundedShare_mono nonempty nonneg betterWorker worseWorker le)

section

variable {strategy : LoadBalancingStrategy} {order : IterationOrder WorkerId}
  {connectedWorkers : Finset WorkerId} {getWorkerInfo : Nat → WorkerId → Option WorkerInfo}
  {getName : Algo → String} {islandCount populationSize minIslandPopSize : UInt64}
  {algorithms : List Algo}
  (some_ : algorithms ≠ []) (positive : 1 ≤ islandCount.toNat)
  (fits : populationSize.toNat + islandCount.toNat * (minIslandPopSize.toNat + 3) < 2 ^ 64)
include some_ positive fits

/-- Equal division makes the shares equal. -/
theorem generateWorkPlan_equally
    (equally : dividesEqually strategy islandCount connectedWorkers) :
    ∃ plan, generateWorkPlan .rational order strategy connectedWorkers getWorkerInfo getName
        islandCount populationSize algorithms minIslandPopSize = .ok plan ∧
      SizesOk islandCount populationSize minIslandPopSize plan ∧ SameSizes plan := by
  obtain ⟨chosen, run, length⟩ := chooseAlgorithms_turn islandCount.toNat some_ PointsTo.start
  have notZero : islandCount ≠ 0 := by
    intro zero
    rw [zero] at positive
    exact absurd positive (by decide)
  refine ⟨chosen.map fun alg =>
    ⟨sizeOfShare minIslandPopSize (populationSize / islandCount), 1, "", alg⟩, ?_, ?_, ?_⟩
  · rw [generateWorkPlan, if_pos equally, if_neg notZero, run]
    rfl
  · apply (Shares.equal positive).sizesOk List.length_replicate fits
    rw [List.map_map, List.map_replicate, ← length]
    exact List.map_const'
  · intro entry inside entry' inside'
    obtain ⟨alg, -, rfl⟩ := List.mem_map.mp inside
    obtain ⟨alg', -, rfl⟩ := List.mem_map.mp inside'
    rfl

/-- Division by performance takes the shares from the metrics. -/
theorem generateWorkPlan_follows
    (unequally : ¬dividesEqually strategy islandCount connectedWorkers)
    (records : ∀ i, ∀ w ∈ connectedWorkers, (getWorkerInfo i w).isSome) :
    ∃ plan, generateWorkPlan .rational order strategy connectedWorkers getWorkerInfo getName
        islandCount populationSize algorithms minIslandPopSize = .ok plan ∧
      SizesOk islandCount populationSize minIslandPopSize plan ∧
      ∃ assigned, assignWorkers .rational order getWorkerInfo algorithms getName
          islandCount.toNat 0 0 connectedWorkers = .ok assigned ∧
        SizesFollow assigned plan := by
  obtain ⟨assigned, run⟩ := assignWorkers_ok .rational order getName islandCount.toNat records
    some_ PointsTo.start
  obtain ⟨length, -, -⟩ := assignWorkers_distinct (not_dividesEqually.mp unequally).1 run
  have nonempty : assigned ≠ [] := List.ne_nil_of_length_pos (by omega)
  have nonneg := perfMetric_nonneg run
  have countable : assigned.length < 2 ^ 64 := length ▸ islandCount.toNat_lt
  refine ⟨_, generateWorkPlan_assigned populationSize minIslandPopSize unequally run, ?_,
    assigned, run, ?_⟩
  · apply (Shares.performance nonempty nonneg).sizesOk (by rw [List.length_map, length]) fits
    rw [List.map_map, List.map_map]
    apply List.map_congr_left
    intro worker _
    exact populationSize_performanceEntry countable
  · rw [← length] at fits
    exact sizesFollow_performance nonempty nonneg fits

end

/-- The sizes of a plan, for both strategies. -/
theorem generateWorkPlan_sizes (strategy : LoadBalancingStrategy)
    (order : IterationOrder WorkerId) (connectedWorkers : Finset WorkerId)
    (getWorkerInfo : Nat → WorkerId → Option WorkerInfo) (getName : Algo → String)
    (islandCount populationSize minIslandPopSize : UInt64) (algorithms : List Algo)
    (records : ∀ i, ∀ w ∈ connectedWorkers, (getWorkerInfo i w).isSome)
    (some_ : algorithms ≠ []) (positive : 1 ≤ islandCount.toNat)
    (fits : populationSize.toNat + islandCount.toNat * (minIslandPopSize.toNat + 3) < 2 ^ 64) :
    ∃ plan, generateWorkPlan .rational order strategy connectedWorkers getWorkerInfo getName
        islandCount populationSize algorithms minIslandPopSize = .ok plan ∧
      SizesOk islandCount populationSize minIslandPopSize plan ∧
      (dividesEqually strategy islandCount connectedWorkers → SameSizes plan) ∧
      (¬dividesEqually strategy islandCount connectedWorkers →
        ∃ assigned, assignWorkers .rational order getWorkerInfo algorithms getName
            islandCount.toNat 0 0 connectedWorkers = .ok assigned ∧
          SizesFollow assigned plan) := by
  by_cases equally : dividesEqually strategy islandCount connectedWorkers
  · obtain ⟨plan, made, sizes, same⟩ := generateWorkPlan_equally some_ positive fits equally
    exact ⟨plan, made, sizes, fun _ => same, fun unequally => absurd equally unequally⟩
  · obtain ⟨plan, made, sizes, follow⟩ :=
      generateWorkPlan_follows some_ positive fits equally records
    exact ⟨plan, made, sizes, fun equal => absurd equal equally, fun _ => follow⟩

theorem generateWorkPlan_sizes_sample :
    ∃ plan, generateWorkPlan .rational .ascending .byPerformance
        sampleRepository.getConnectedWorkers (fun _ => sampleRepository.getWorkerInfo) id 2 101
        ["de", "sade"] 20 = .ok plan ∧
      SizesOk 2 101 20 plan ∧
      (dividesEqually .byPerformance 2 sampleRepository.getConnectedWorkers → SameSizes plan) ∧
      (¬dividesEqually .byPerformance 2 sampleRepository.getConnectedWorkers →
        ∃ assigned, assignWorkers .rational .ascending (fun _ => sampleRepository.getWorkerInfo)
            ["de", "sade"] id (2 : UInt64).toNat 0 0 sampleRepository.getConnectedWorkers =
              .ok assigned ∧
          SizesFollow assigned plan) :=
  generateWorkPlan_sizes .byPerformance .ascending sampleRepository.getConnectedWorkers
    (fun _ => sampleRepository.getWorkerInfo) id 2 101 20 ["de", "sade"]
    (fun _ => by decide) (by decide) (by decide) (by decide)

end Metasolver
