import Metasolver.Worker.SplitPopulation

/-!
# The minimum of the island populations

`_minIslandPopSize` bounds the base size from below before that is rounded down to a
multiple of 4 (`distributed_worker.cpp:117-121`), so a minimum that is no multiple of 4 can
be lost again.  `MinimumKept` says when every island has the minimum all the same.
-/

namespace Metasolver

variable {D : Type} {prob : ProblemFunctions D} {seed : UInt32} {x : List (VectorDouble D)}

/-- Every island has the configured minimum `m`, for a population of `total` individuals
    split among `n` islands. -/
def MinimumKept (m total n : Nat) : Prop :=
  if m / 4 * 4 * n < 2 ^ 64 then m ≤ 4 ∨ 4 ∣ m ∨ m ≤ total / n / 4 * 4
  else
    -- the product of `assignedPop` wraps around, and what is left of it decides
    let remainingPop := total - m / 4 * 4 * n % 2 ^ 64
    (4 ∣ m ∨ 4 * n ≤ remainingPop) ∧ (remainingPop < 4 ∨ m < 2 ^ 64 - 4)

instance (m total n : Nat) : Decidable (MinimumKept m total n) := by
  unfold MinimumKept
  infer_instance

/-- The larger islands come first. -/
theorem map_size_fillIslands {base i remaining : UInt64} {islands mainPopIndex : Nat} :
    (fillIslands prob seed x base islands i remaining mainPopIndex).map Population.size =
      List.replicate (min islands (remaining.toNat / 4)) (base + 4).toNat ++
        List.replicate (islands - remaining.toNat / 4) base.toNat := by
  induction islands generalizing i remaining mainPopIndex with
  | zero => simp [fillIslands]
  | succ islands ih =>
      rw [fillIslands]
      by_cases enough : 4 ≤ remaining
      · have enough' : 4 ≤ remaining.toNat := UInt64.le_iff_toNat_le.mp enough
        have less : (remaining - 4).toNat = remaining.toNat - 4 :=
          UInt64.toNat_sub_of_le _ _ enough
        have more : min (islands + 1) (remaining.toNat / 4) =
            min islands ((remaining.toNat - 4) / 4) + 1 := by omega
        have rest : islands + 1 - remaining.toNat / 4 = islands - (remaining.toNat - 4) / 4 := by
          omega
        obtain ⟨-, size, -⟩ := @fillIsland_random D prob x (base + 4)
          (seed.toUInt64 + i).toUInt32 mainPopIndex
        simp only [if_pos enough, List.map_cons, size, ih, less, more, rest, List.replicate_succ,
          List.cons_append]
      · have few : ¬4 ≤ remaining.toNat := fun le => enough (UInt64.le_iff_toNat_le.mpr le)
        have none_ : remaining.toNat / 4 = 0 := by omega
        obtain ⟨-, size, -⟩ := @fillIsland_random D prob x base (seed.toUInt64 + i).toUInt32
          mainPopIndex
        simp only [if_neg enough, List.map_cons, size, ih, none_, Nat.min_zero, Nat.sub_zero,
          List.replicate_zero, List.nil_append, List.replicate_succ]

/-- Whichever of the two sizes occurs has the minimum. -/
def SizesKeep (m base remainingPop islands : Nat) : Prop :=
  (4 ≤ remainingPop → m ≤ (base + 4) % 2 ^ 64) ∧ (remainingPop / 4 < islands → m ≤ base)

theorem forall_size_fillIslands {base i remaining : UInt64} {islands mainPopIndex m : Nat}
    (some_ : 0 < islands) :
    (∀ isl ∈ fillIslands prob seed x base islands i remaining mainPopIndex, m ≤ isl.size) ↔
      SizesKeep m base.toNat remaining.toNat islands := by
  have sizes : (∀ isl ∈ fillIslands prob seed x base islands i remaining mainPopIndex,
      m ≤ isl.size) ↔ ∀ size ∈ (fillIslands prob seed x base islands i remaining
        mainPopIndex).map Population.size, m ≤ size := by
    simp only [List.forall_mem_map]
  rw [sizes, map_size_fillIslands, UInt64.toNat_add]
  simp only [List.mem_append, List.mem_replicate, SizesKeep]
  constructor
  · intro all
    exact ⟨fun enough => all _ (Or.inl ⟨by omega, rfl⟩),
      fun fewer => all _ (Or.inr ⟨by omega, rfl⟩)⟩
  · rintro ⟨larger, smaller⟩ size (⟨some_, rfl⟩ | ⟨some_, rfl⟩)
    · exact larger (by omega)
    · exact smaller (by omega)

/-- The larger of minimum and equal share, rounded down to a multiple of 4 but to at least 4. -/
def roundedBase (m total n : Nat) : Nat := max 4 (max m (total / n) / 4 * 4)

theorem toNat_baseSize_eq {minIslandPopSize totalPopSize islandCount : UInt64} :
    (baseSize minIslandPopSize totalPopSize islandCount).toNat =
      roundedBase minIslandPopSize.toNat totalPopSize.toNat islandCount.toNat := by
  have most : (max minIslandPopSize (totalPopSize / islandCount)).toNat =
      max minIslandPopSize.toNat (totalPopSize.toNat / islandCount.toNat) := by
    rw [UInt64.toNat_max, UInt64.toNat_div]
  unfold baseSize
  generalize max minIslandPopSize (totalPopSize / islandCount) = size at most ⊢
  have rem : (size % 4).toNat = size.toNat % 4 := UInt64.toNat_mod size 4
  have rounded : (size - size % 4).toNat = size.toNat / 4 * 4 := by
    rw [UInt64.toNat_sub_of_le, rem]
    · omega
    · rw [UInt64.le_iff_toNat_le, rem]
      exact Nat.mod_le _ _
  rw [roundedBase, ← most]
  by_cases zero : size - size % 4 = 0
  · simp only [if_pos zero]
    rw [zero] at rounded
    change 0 = _ at rounded
    rw [← rounded]
    rfl
  · simp only [if_neg zero]
    have positive : (size - size % 4).toNat ≠ 0 := fun none_ => zero (UInt64.toNat_inj.mp none_)
    omega

/-- `remainingPop` before the first island, also where the product wraps around. -/
theorem toNat_remainingPop_mod {base totalPopSize islandCount : UInt64} :
    (if base * islandCount < totalPopSize then totalPopSize - base * islandCount else 0).toNat =
      totalPopSize.toNat - base.toNat * islandCount.toNat % 2 ^ 64 := by
  have assigned := UInt64.toNat_mul base islandCount
  by_cases less : base * islandCount < totalPopSize
  · rw [if_pos less, UInt64.toNat_sub_of_le _ _ (UInt64.le_of_lt less), assigned]
  · rw [if_neg less]
    rw [UInt64.lt_iff_toNat_lt, assigned] at less
    change 0 = _
    omega

/-! ## When rounding keeps the minimum -/

section Arithmetic

variable {m total n : Nat}

/-- As long as the assigned population does not wrap around, some island has the base size. -/
theorem minimumKept_of_fits (positive : 0 < n) (bounded : total < 2 ^ 64)
    (fits : m / 4 * 4 * n < 2 ^ 64) :
    SizesKeep m (roundedBase m total n)
        (total - roundedBase m total n * n % 2 ^ 64) n ↔
      m ≤ 4 ∨ 4 ∣ m ∨ m ≤ total / n / 4 * 4 := by
  unfold SizesKeep roundedBase
  have parts := Nat.div_add_mod total n
  have rest := Nat.mod_lt total positive
  have shared : total / n / 4 * 4 * n ≤ total := by
    have rounded : total / n / 4 * 4 ≤ total / n := Nat.div_mul_le_self _ 4
    exact (Nat.mul_le_mul_right n rounded).trans (Nat.div_mul_le_self total n)
  by_cases low : m ≤ 4
  · -- the base size is at least 4, and larger only where it does not wrap around
    refine ⟨fun _ => Or.inl low, fun _ => ⟨fun enough => ?_, fun _ => by omega⟩⟩
    generalize share : total / n = q at *
    by_cases less : q < 8
    · omega
    · have base : max 4 (max m q / 4 * 4) = q / 4 * 4 := by omega
      rw [base] at enough ⊢
      have one := Nat.le_mul_of_pos_right (q / 4 * 4) positive
      omega
  · generalize share : total / n = q at *
    have product : max 4 (max m q / 4 * 4) * n < 2 ^ 64 := by
      rcases Nat.le_total m q with more | more
      · have base : max 4 (max m q / 4 * 4) = q / 4 * 4 := by omega
        rw [base]
        exact shared.trans_lt bounded
      · have base : max 4 (max m q / 4 * 4) = m / 4 * 4 := by omega
        rwa [base]
    have kept : m ≤ max 4 (max m q / 4 * 4) ↔ m ≤ 4 ∨ 4 ∣ m ∨ m ≤ q / 4 * 4 := by omega
    have near : q ≤ max 4 (max m q / 4 * 4) + 3 := by omega
    generalize max 4 (max m q / 4 * 4) = base at *
    have one := Nat.le_mul_of_pos_right base positive
    have grown := Nat.mul_le_mul_left n near
    rw [Nat.mul_add, Nat.mul_comm n base] at grown
    rw [Nat.mod_eq_of_lt product, ← kept]
    generalize base * n = assigned at *
    constructor
    · rintro ⟨-, smaller⟩
      exact smaller (by omega)
    · intro all
      exact ⟨fun enough => by omega, fun _ => all⟩

/-- Where it wraps around, the minimum is far above an equal share. -/
theorem minimumKept_of_wraps (positive : 0 < n) (bounded : total < 2 ^ 64) (small : m < 2 ^ 64)
    (wraps : 2 ^ 64 ≤ m / 4 * 4 * n) :
    SizesKeep m (roundedBase m total n)
        (total - roundedBase m total n * n % 2 ^ 64) n ↔
      (4 ∣ m ∨ 4 * n ≤ total - m / 4 * 4 * n % 2 ^ 64) ∧
        (total - m / 4 * 4 * n % 2 ^ 64 < 4 ∨ m < 2 ^ 64 - 4) := by
  have more : total / n < m / 4 * 4 :=
    (Nat.div_lt_iff_lt_mul positive).mpr (bounded.trans_le wraps)
  unfold SizesKeep roundedBase
  generalize total / n = share at more ⊢
  have base : max 4 (max m share / 4 * 4) = m / 4 * 4 := by omega
  rw [base]
  generalize total - m / 4 * 4 * n % 2 ^ 64 = remaining
  constructor
  · rintro ⟨larger, smaller⟩
    omega
  · rintro ⟨kept, room⟩
    omega

theorem minimumKept_iff (positive : 0 < n) (bounded : total < 2 ^ 64) (small : m < 2 ^ 64) :
    SizesKeep m (roundedBase m total n)
        (total - roundedBase m total n * n % 2 ^ 64) n ↔ MinimumKept m total n := by
  unfold MinimumKept
  by_cases fits : m / 4 * 4 * n < 2 ^ 64
  · rw [if_pos fits]
    exact minimumKept_of_fits positive bounded fits
  · rw [if_neg fits]
    exact minimumKept_of_wraps positive bounded small (Nat.le_of_not_lt fits)

end Arithmetic

/-- Splitting returns, and every island has the configured minimum exactly if rounding it
    down to a multiple of 4 is made up for. -/
theorem splitPopulationForIslands_minimum_iff (prob : ProblemFunctions D)
    (minIslandPopSize islandCount : UInt64) (seed : UInt32) (pop : Population D)
    (positive : 1 ≤ islandCount.toNat) :
    ∃ islands, splitPopulationForIslands prob minIslandPopSize seed pop islandCount =
        .ok islands ∧
      ((∀ isl ∈ islands, minIslandPopSize.toNat ≤ isl.size) ↔
        MinimumKept minIslandPopSize.toNat (UInt64.ofNat pop.size).toNat islandCount.toNat) := by
  have some_ : islandCount ≠ 0 := by
    intro zero
    rw [zero] at positive
    exact absurd positive (by decide)
  rw [splitPopulationForIslands]
  simp only [if_neg some_]
  refine ⟨_, rfl, ?_⟩
  rw [forall_size_fillIslands positive, toNat_remainingPop_mod, toNat_baseSize_eq]
  exact minimumKept_iff positive (UInt64.toNat_lt _) (UInt64.toNat_lt _)

theorem splitPopulationForIslands_minimum_iff_sample :
    ∃ islands, splitPopulationForIslands sampleProblem 8 7 samplePopulation 2 = .ok islands ∧
      ((∀ isl ∈ islands, 8 ≤ isl.size) ↔ MinimumKept 8 12 2) :=
  splitPopulationForIslands_minimum_iff sampleProblem 8 2 7 samplePopulation (by decide)

/-- Twelve individuals on two islands: 6 each, rounded down to 4, with a minimum of 5. -/
theorem splitPopulationForIslands_below_minimum :
    ∃ islands, splitPopulationForIslands sampleProblem 5 7 samplePopulation 2 = .ok islands ∧
      ∃ isl ∈ islands, isl.size < 5 := by
  refine ⟨_, rfl, ?_⟩
  decide

end Metasolver
