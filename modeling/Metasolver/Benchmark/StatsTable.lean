import Metasolver.Benchmark.BenchmarkStats

/-!
# The statistics as a table

What `_get_current_stats_csv` returns is read back as CSV.  The header and the rows are
made in separate places, and the ID of a point is written as it is: `stats_rectangular_iff`
says when they make up a table with the IDs in its first column.
-/

namespace Metasolver

open Csv Picking

variable {D : Type}

/-- A row as it is written: the ID as it is, and fields. -/
structure StatsRow where
  pointID : Text
  columns : List Field

namespace StatsRow

def text (r : StatsRow) : Text := r.pointID ++ ',' :: writeLine r.columns

def values (r : StatsRow) : List Text := r.pointID :: r.columns.map Field.value

theorem text_of_clean {r : StatsRow} (columns : r.columns ≠ []) (clean : Clean r.pointID) :
    r.text = writeLine (.plain r.pointID clean :: r.columns) := by
  obtain ⟨f, fs, split⟩ := List.exists_cons_of_ne_nil columns
  rw [text, split, writeLine_cons_cons]
  rfl

/-- A row with a clean ID is read as it is, whatever follows it. -/
theorem parse_append {r : StatsRow} (columns : r.columns ≠ []) (clean : Clean r.pointID)
    (rest : Text) : parse (r.text ++ rest) = r.values :: parse rest := by
  have line : write [.plain r.pointID clean :: r.columns] = r.text := by
    rw [text_of_clean columns clean, write, List.flatMap_cons, List.flatMap_nil, List.append_nil]
  rw [← line, parse_write_append _ (by simp)]
  rfl

theorem parse_of_clean (rows : List StatsRow) (columns : ∀ r ∈ rows, r.columns ≠ [])
    (clean : ∀ r ∈ rows, Clean r.pointID) :
    parse (rows.flatMap text) = rows.map values := by
  induction rows with
  | nil => rfl
  | cons r rows ih =>
      have others := ih (fun r member => columns r (List.mem_cons_of_mem _ member))
        fun r member => clean r (List.mem_cons_of_mem _ member)
      rw [List.flatMap_cons, parse_append (columns r List.mem_cons_self)
        (clean r List.mem_cons_self), others, List.map_cons]

/-- If the first column has the IDs they are clean. -/
theorem clean_of_parse (rows : List StatsRow) (columns : ∀ r ∈ rows, r.columns ≠ [])
    (first : (parse (rows.flatMap text)).map List.head? = rows.map fun r => some r.pointID) :
    ∀ r ∈ rows, Clean r.pointID := by
  induction rows with
  | nil => nofun
  | cons r rows ih =>
      rw [List.flatMap_cons, List.map_cons] at first
      have clean : Clean r.pointID := by
        obtain ⟨record, table, read, id, -⟩ := List.map_eq_cons_iff.mp first
        obtain ⟨line, rfl⟩ := List.head?_eq_some_iff.mp id
        rw [text, List.append_assoc, List.cons_append] at read
        exact Csv.clean_of_parse read
      rw [parse_append (columns r List.mem_cons_self) clean, List.map_cons] at first
      have others := ih (fun r member => columns r (List.mem_cons_of_mem _ member))
        (List.cons.inj first).2
      exact List.forall_mem_cons.mpr ⟨clean, others⟩

end StatsRow

/-! ## The header and the columns -/

section Columns

variable {functions : StatsFunctions D}

def headerFields (isMultiObjective : Bool) : List Field :=
  [.plain "ID".toList (by decide), .plain "Value".toList (by decide),
    .plain "Fitness".toList (by decide),
    .plain "Fitness increase over baseline".toList (by decide),
    .plain "ElapsedTime".toList (by decide)] ++
  if isMultiObjective then
    [.plain "Rank".toList (by decide), .plain "DomBy".toList (by decide),
      .plain "CrowdDist".toList (by decide), .plain "HVContribution".toList (by decide)]
  else []

theorem csvHeader_eq (isMultiObjective : Bool) :
    BenchmarkStats.csvHeader isMultiObjective = writeLine (headerFields isMultiObjective) := by
  cases isMultiObjective <;> rfl

theorem length_headerFields (isMultiObjective : Bool) :
    (headerFields isMultiObjective).length = if isMultiObjective then 9 else 5 := by
  cases isMultiObjective <;> rfl

theorem doubleVectorToCsv_eq (functions : StatsFunctions D) (vec : VectorDouble D) :
    ∃ t, doubleVectorToCsv functions vec = (Field.quoted t).write := by
  have clean : Clean ([';'].intercalate (vec.map functions.toString)) := by
    refine Clean.intercalate (by decide) fun t member => ?_
    obtain ⟨x, -, rfl⟩ := List.mem_map.mp member
    exact functions.clean_toString x
  exact ⟨_, (write_quoted_clean clean).symm⟩

/-- The metrics of at least two points have a column each. -/
theorem metricsColumns_eq {fitnesses : List (VectorDouble D)} (two : 2 ≤ fitnesses.length)
    {i : Nat} (inside : i < fitnesses.length) :
    ∃ f g h k : Field, BenchmarkStats.metricsColumns functions (functions.metrics fitnesses) i =
      some (',' :: f.write ++ ',' :: g.write ++ ',' :: h.write ++ ',' :: k.write) := by
  obtain ⟨rank, ranked⟩ := exists_getElem? (functions.length_ranks fitnesses two ▸ inside)
  obtain ⟨domCount, counted⟩ := exists_getElem? (functions.length_domCounts fitnesses two ▸ inside)
  obtain ⟨crowdDist, crowded⟩ :=
    exists_getElem? (functions.length_crowdDists fitnesses two ▸ inside)
  obtain ⟨hvContribution, contributed⟩ :=
    exists_getElem? (functions.length_hvContributions fitnesses two ▸ inside)
  have cleanDist : Clean (if functions.isinf crowdDist then "Inf".toList
      else functions.formatDouble crowdDist) := by
    split_ifs
    · decide
    · exact functions.clean_formatDouble crowdDist
  refine ⟨.plain _ (functions.clean_sizeToString rank),
    .plain _ (functions.clean_sizeToString domCount), .plain _ cleanDist,
    .plain _ (functions.clean_formatDouble hvContribution), ?_⟩
  rw [BenchmarkStats.metricsColumns, ranked, counted, crowded, contributed]
  rfl

/-- The vectors have one entry for each of `n` points, and the metrics are those of two
    points or more. -/
structure SortedPoints.Sized (functions : StatsFunctions D) (isMultiObjective : Bool)
    (sorted : SortedPoints D) (n nf : Nat) : Prop where
  points : sorted.points.length = n
  fitnesses : sorted.fitnesses.length = n
  pointIDs : sorted.pointIDs.length = n
  elapsedTimes : sorted.elapsedTimes.length = n
  fitness : ∀ f ∈ sorted.fitnesses, f.length = nf
  metrics : sorted.metrics =
    if isMultiObjective ∧ 2 ≤ n then functions.metrics sorted.fitnesses else {}

/-- How many fields a row has after the ID. -/
def columnCount (isMultiObjective : Bool) (n : Nat) : Nat :=
  if isMultiObjective ∧ 2 ≤ n then 8 else 4

variable {isMultiObjective : Bool} {sorted : SortedPoints D} {n nf i : Nat}

/-- The last columns, if there are any. -/
theorem multiColumns_eq (sized : sorted.Sized functions isMultiObjective n nf) (inside : i < n) :
    ∃ columns : List Field,
      BenchmarkStats.multiColumns functions isMultiObjective sorted.metrics i =
        some (columns.flatMap fun f => ',' :: f.write) ∧
      columns.length + 4 = columnCount isMultiObjective n := by
  have metrics := sized.metrics
  by_cases multi : isMultiObjective ∧ 2 ≤ n
  · rw [if_pos multi] at metrics
    have two : 2 ≤ sorted.fitnesses.length := sized.fitnesses ▸ multi.2
    have inside : i < sorted.fitnesses.length := sized.fitnesses ▸ inside
    obtain ⟨f, g, h, k, made⟩ := @metricsColumns_eq D functions _ two i inside
    have ranked : sorted.metrics.ranks.isEmpty = false := by
      have length := functions.length_ranks sorted.fitnesses two
      rw [metrics, List.isEmpty_eq_false_iff, ← List.length_pos_iff]
      omega
    refine ⟨[f, g, h, k], ?_, ?_⟩
    · rw [BenchmarkStats.multiColumns, multi.1, ranked, Bool.not_false, Bool.and_self,
        if_pos rfl, metrics, made]
      simp
    · rw [columnCount, if_pos multi]
      rfl
  · rw [if_neg multi] at metrics
    refine ⟨[], ?_, ?_⟩
    · rw [BenchmarkStats.multiColumns, metrics]
      simp
    · rw [columnCount, if_neg multi]
      rfl

variable [LT D] [DecidableLT D] {ranking : Ranking D} {stats : BenchmarkStats D}

theorem bestIndividualIndexes_perm :
    (stats.bestIndividualIndexes ranking).Perm (List.range stats.dataPoints.length) := by
  have length : (stats.dataPoints.map stats.problem.fitness).length = stats.dataPoints.length :=
    List.length_map _
  have perm := @sortedIndexes_perm D _ _ ranking stats.problem.toProblem
    (stats.dataPoints.map stats.problem.fitness)
  rw [BenchmarkStats.bestIndividualIndexes,
    getBestNIndividualsIndexes_eq (Or.inr (Nat.le_of_eq length.symm))]
  rw [length] at perm
  rw [List.take_of_length_le (Nat.le_of_eq (perm.length_eq.trans List.length_range))]
  exact perm

theorem sortedPoints_eq (functions : StatsFunctions D) (ranking : Ranking D)
    (stats : BenchmarkStats D) :
    ∃ sorted, stats.sortedPoints functions ranking = some sorted ∧
      sorted.Sized functions stats.isMultiObjective stats.dataPoints.length stats.problem.nf ∧
      sorted.pointIDs = pick stats.pointIDs (stats.bestIndividualIndexes ranking) := by
  have inside : ∀ k ∈ stats.bestIndividualIndexes ranking, k < stats.dataPoints.length :=
    fun k member => List.mem_range.mp (bestIndividualIndexes_perm.subset member)
  have count : (stats.bestIndividualIndexes ranking).length = stats.dataPoints.length :=
    bestIndividualIndexes_perm.length_eq.trans List.length_range
  have insideFitnesses : ∀ k ∈ stats.bestIndividualIndexes ranking,
      k < (stats.dataPoints.map stats.problem.fitness).length := by
    rwa [List.length_map]
  have insideIDs : ∀ k ∈ stats.bestIndividualIndexes ranking, k < stats.pointIDs.length := by
    rwa [stats.sized_ids]
  have insideTimes : ∀ k ∈ stats.bestIndividualIndexes ranking, k < stats.elapsedTimes.length := by
    rwa [stats.sized_times]
  have length := (length_pick insideFitnesses).trans count
  let fitnesses := pick (stats.dataPoints.map stats.problem.fitness)
    (stats.bestIndividualIndexes ranking)
  have made : stats.sortedPoints functions ranking = some
      { points := pick stats.dataPoints (stats.bestIndividualIndexes ranking)
        fitnesses
        pointIDs := pick stats.pointIDs (stats.bestIndividualIndexes ranking)
        elapsedTimes := pick stats.elapsedTimes (stats.bestIndividualIndexes ranking)
        metrics := if stats.isMultiObjective ∧ 2 ≤ fitnesses.length
          then functions.metrics fitnesses else {} } := by
    simp only [BenchmarkStats.sortedPoints, mapM_getElem? inside, mapM_getElem? insideFitnesses,
      mapM_getElem? insideIDs, mapM_getElem? insideTimes]
    rfl
  refine ⟨_, made, ⟨(length_pick inside).trans count, length, (length_pick insideIDs).trans count,
    (length_pick insideTimes).trans count, fun f member => ?_, ?_⟩, rfl⟩
  · obtain ⟨k, -, found⟩ := mem_pick.mp member
    obtain ⟨x, -, rfl⟩ := List.mem_map.mp (List.mem_of_getElem? found)
    exact stats.problem.length_fitness x
  · exact congrArg (fun n => if stats.isMultiObjective ∧ 2 ≤ n then functions.metrics fitnesses
      else {}) length

/-- The rows have the columns of the header unless there is one point and several
    objectives. -/
theorem columnCount_iff (isMultiObjective : Bool) (some_ : n ≠ 0) :
    columnCount isMultiObjective n + 1 = (headerFields isMultiObjective).length ↔
      ¬(isMultiObjective = true ∧ n = 1) := by
  rw [length_headerFields, columnCount]
  cases isMultiObjective with
  | false => simp
  | true =>
      simp only [if_true, true_and]
      split_ifs with two
      · exact iff_of_true rfl (by omega)
      · exact iff_of_false (by omega) (by omega)

/-- These are the rows of the points from best to worst. -/
structure StatsRows (ranking : Ranking D) (stats : BenchmarkStats D) (rows : List StatsRow) :
    Prop where
  ids : rows.map (fun r => some r.pointID) =
    (stats.bestIndividualIndexes ranking).map fun k => stats.pointIDs[k]?
  columns : ∀ r ∈ rows, r.columns.length =
    columnCount stats.isMultiObjective stats.dataPoints.length

namespace StatsRows

variable {rows : List StatsRow}

theorem length (made : StatsRows ranking stats rows) : rows.length = stats.dataPoints.length := by
  have length := congrArg List.length made.ids
  rw [List.length_map, List.length_map, bestIndividualIndexes_perm.length_eq,
    List.length_range] at length
  exact length

theorem nonempty (made : StatsRows ranking stats rows) : ∀ r ∈ rows, r.columns ≠ [] := by
  intro r member none_
  have count := made.columns r member
  rw [none_, List.length_nil, columnCount] at count
  split_ifs at count

/-- Every ID is that of a row. -/
theorem clean_iff (made : StatsRows ranking stats rows) :
    (∀ r ∈ rows, Clean r.pointID) ↔ ∀ id ∈ stats.pointIDs, Clean id := by
  constructor
  · intro clean id member
    obtain ⟨k, found⟩ := List.mem_iff_getElem?.mp member
    have inside : k < stats.dataPoints.length := by
      rw [← stats.sized_ids]
      exact (List.getElem?_eq_some_iff.mp found).1
    have best : k ∈ stats.bestIndividualIndexes ranking :=
      bestIndividualIndexes_perm.mem_iff.mpr (List.mem_range.mpr inside)
    have row : some id ∈ rows.map fun r => some r.pointID := by
      rw [made.ids]
      exact List.mem_map.mpr ⟨k, best, found⟩
    obtain ⟨r, row, same⟩ := List.mem_map.mp row
    rw [← Option.some.inj same]
    exact clean r row
  · intro clean r row
    have member : some r.pointID ∈
        (stats.bestIndividualIndexes ranking).map fun k => stats.pointIDs[k]? := by
      rw [← made.ids]
      exact List.mem_map.mpr ⟨r, row, rfl⟩
    obtain ⟨k, -, found⟩ := List.mem_map.mp member
    exact clean _ (List.mem_of_getElem? found)

theorem widths_iff (made : StatsRows ranking stats rows) (some_ : stats.dataPoints ≠ []) :
    (∀ row ∈ rows.map StatsRow.values,
      row.length = ((headerFields stats.isMultiObjective).map Field.value).length) ↔
        ¬(1 < stats.problem.nobj ∧ stats.dataPoints.length = 1) := by
  have some_ : stats.dataPoints.length ≠ 0 := mt List.length_eq_zero_iff.mp some_
  have multi : stats.isMultiObjective = true ↔ 1 < stats.problem.nobj := decide_eq_true_iff
  have width (r : StatsRow) (member : r ∈ rows) : r.values.length =
      columnCount stats.isMultiObjective stats.dataPoints.length + 1 := by
    rw [StatsRow.values, List.length_cons, List.length_map, made.columns r member]
  rw [List.length_map, ← multi, ← columnCount_iff stats.isMultiObjective some_,
    List.forall_mem_map]
  refine ⟨fun all => ?_, fun same r member => (width r member).trans same⟩
  obtain ⟨r, member⟩ := List.exists_mem_of_length_pos
    (made.length ▸ Nat.pos_of_ne_zero some_ : 0 < rows.length)
  rw [← width r member]
  exact all r member

end StatsRows

end Columns

/-! ## The text -/

/-- A header and one record for each point, each with as many fields as the header and the
    ID of the point in the first. -/
def IsStatsTable (n : Nat) (ids : List (Option Text)) : List (List Text) → Prop
  | [] => False
  | header :: rows => rows.length = n ∧ (∀ row ∈ rows, row.length = header.length) ∧
      rows.map List.head? = ids

section Text

variable [OfNat D 0] [OfNat D 100] [BEq D] [Sub D] [Div D] [Mul D] [LT D] [DecidableLT D]

/-- The text is made, and it is a table of the points from best to worst. -/
def StatsRectangular (functions : StatsFunctions D) (ranking : Ranking D)
    (stats : BenchmarkStats D) : Prop :=
  ∃ text, stats.getCurrentStatsCsv functions ranking = some text ∧
    IsStatsTable stats.dataPoints.length
      ((stats.bestIndividualIndexes ranking).map fun k => stats.pointIDs[k]?) (parse text)

variable {functions : StatsFunctions D} {ranking : Ranking D} {stats : BenchmarkStats D}
  {isMultiObjective : Bool} {sorted : SortedPoints D} {n nf i : Nat}

omit [LT D] [DecidableLT D] in
theorem percentages_eq {best fitness : VectorDouble D} (sized : best.length ≤ fitness.length) :
    ∃ t, percentages functions best fitness = some (Field.quoted t).write := by
  obtain ⟨values, made, clean⟩ : ∃ values,
      best.zipIdx.mapM (percentage functions fitness) = some (values.map id) ∧
        List.Forall₂ (fun _ t => Clean t) best.zipIdx values := by
    refine mapM_of_forall fun entry member => ?_
    have inside : entry.2 < fitness.length :=
      Nat.lt_of_lt_of_le (List.snd_lt_of_mem_zipIdx member) sized
    obtain ⟨value, found⟩ := exists_getElem? inside
    refine ⟨functions.formatDouble (percentageDecline value entry.1 * 100) ++ ['%'], ?_, ?_⟩
    · rw [percentage, found]
      rfl
    · exact (functions.clean_formatDouble _).append (by decide)
  have whole : Clean ([';'].intercalate values) :=
    Clean.intercalate (by decide) (forall_of_forall₂ clean)
  refine ⟨[';'].intercalate values, ?_⟩
  rw [write_quoted_clean whole, percentages, made, List.map_id]
  rfl

omit [LT D] [DecidableLT D] in
theorem csvRow_eq (sized : sorted.Sized functions isMultiObjective n nf)
    {best : VectorDouble D} (bestSized : best.length = nf) (inside : i < n) :
    ∃ r : StatsRow, BenchmarkStats.csvRow functions isMultiObjective sorted best i = some r.text ∧
      sorted.pointIDs[i]? = some r.pointID ∧
      r.columns.length = columnCount isMultiObjective n := by
  obtain ⟨point, pointAt⟩ := exists_getElem? (sized.points ▸ inside)
  obtain ⟨fitness, fitnessAt⟩ := exists_getElem? (sized.fitnesses ▸ inside)
  obtain ⟨pointID, idAt⟩ := exists_getElem? (sized.pointIDs ▸ inside)
  obtain ⟨elapsedTime, timeAt⟩ := exists_getElem? (sized.elapsedTimes ▸ inside)
  have fitnessSized := sized.fitness fitness (List.mem_of_getElem? fitnessAt)
  obtain ⟨value, valueIs⟩ := doubleVectorToCsv_eq functions point
  obtain ⟨fit, fitIs⟩ := doubleVectorToCsv_eq functions fitness
  have sameSize : best.length ≤ fitness.length := Nat.le_of_eq (bestSized.trans fitnessSized.symm)
  obtain ⟨increase, increaseIs⟩ : ∃ t, percentages functions best fitness = _ :=
    percentages_eq sameSize
  obtain ⟨columns, multi, count⟩ := multiColumns_eq sized inside
  refine ⟨⟨pointID, .quoted value :: .quoted fit :: .quoted increase ::
    .plain _ (functions.clean_formatDouble elapsedTime) :: columns⟩, ?_, idAt, ?_⟩
  · rw [BenchmarkStats.csvRow, pointAt, fitnessAt, idAt, timeAt, multi]
    simp only [Option.bind_eq_bind, Option.bind_some, increaseIs, valueIs, fitIs]
    rw [StatsRow.text, writeLine_cons]
    simp [Field.write]
  · exact count

/-- Without a point the best fitness is read from an empty vector. -/
theorem getCurrentStatsCsv_empty (empty : stats.dataPoints = []) :
    stats.getCurrentStatsCsv functions ranking = none := by
  obtain ⟨sorted, made, sized, -⟩ := sortedPoints_eq functions ranking stats
  have fitnesses := sized.fitnesses
  rw [empty, List.length_nil, List.length_eq_zero_iff] at fitnesses
  rw [BenchmarkStats.getCurrentStatsCsv, made]
  simp [fitnesses]

/-- With points there is a header and a row for each of them. -/
theorem getCurrentStatsCsv_eq (functions : StatsFunctions D) (ranking : Ranking D)
    (nonempty : stats.dataPoints ≠ []) :
    ∃ rows : List StatsRow, stats.getCurrentStatsCsv functions ranking =
        some (write [headerFields stats.isMultiObjective] ++ rows.flatMap StatsRow.text) ∧
      StatsRows ranking stats rows := by
  obtain ⟨sorted, made, sized, ids⟩ := sortedPoints_eq functions ranking stats
  have some_ : 0 < sorted.fitnesses.length := by
    rw [sized.fitnesses]
    exact List.length_pos_iff.mpr nonempty
  obtain ⟨best, bestAt⟩ := exists_getElem? some_
  have bestSized := sized.fitness best (List.mem_of_getElem? bestAt)
  obtain ⟨rows, rowsMade, each⟩ : ∃ rows : List StatsRow,
      (List.range sorted.points.length).mapM
        (BenchmarkStats.csvRow functions stats.isMultiObjective sorted best) =
          some (rows.map StatsRow.text) ∧
      List.Forall₂ (fun i r => sorted.pointIDs[i]? = some r.pointID ∧
        r.columns.length = columnCount stats.isMultiObjective stats.dataPoints.length)
        (List.range sorted.points.length) rows := by
    refine mapM_of_forall fun i member => csvRow_eq sized bestSized ?_
    rw [← sized.points]
    exact List.mem_range.mp member
  refine ⟨rows, ?_, ?_, ?_⟩
  · rw [BenchmarkStats.getCurrentStatsCsv, made]
    simp only [Option.bind_eq_bind, Option.bind_some, bestAt, rowsMade, csvHeader_eq]
    rw [write, List.flatMap_cons, List.flatMap_nil, List.append_nil, List.flatMap_def]
    rfl
  · have same : List.Forall₂ (· = ·)
        ((List.range sorted.points.length).map fun i => sorted.pointIDs[i]?)
        (rows.map fun r => some r.pointID) := by
      rw [List.forall₂_map_left_iff, List.forall₂_map_right_iff]
      exact each.imp fun _ _ row => row.1
    have inside : ∀ k ∈ stats.bestIndividualIndexes ranking, k < stats.pointIDs.length := by
      intro k member
      rw [stats.sized_ids]
      exact List.mem_range.mp (bestIndividualIndexes_perm.subset member)
    rw [List.forall₂_eq_eq_eq, sized.points, ← sized.pointIDs, map_getElem?_range, ids] at same
    rw [← same, map_getElem? inside]
  · exact forall_of_forall₂ (each.imp fun _ _ row => row.2)

/-- The text is a table exactly if there are points, not a single one for several objectives,
    and no ID has a character that is special in CSV.  The loops of the source count the
    points in an `int`, which asks for fewer than 2^31 of them. -/
theorem stats_rectangular_iff (functions : StatsFunctions D) (ranking : Ranking D)
    (stats : BenchmarkStats D) :
    StatsRectangular functions ranking stats ↔
      stats.dataPoints ≠ [] ∧ ¬(1 < stats.problem.nobj ∧ stats.dataPoints.length = 1) ∧
        ∀ id ∈ stats.pointIDs, Clean id := by
  by_cases empty : stats.dataPoints = []
  · refine iff_of_false ?_ fun conditions => conditions.1 empty
    rintro ⟨text, made, -⟩
    rw [getCurrentStatsCsv_empty empty] at made
    cases made
  obtain ⟨rows, made, ofStats⟩ := getCurrentStatsCsv_eq functions ranking empty
  have header : ∀ line ∈ [headerFields stats.isMultiObjective], line ≠ [] := by
    intro line member
    rw [List.mem_singleton.mp member]
    exact List.cons_ne_nil _ _
  have read := parse_write_append [headerFields stats.isMultiObjective] header
    (rows.flatMap StatsRow.text)
  constructor
  · rintro ⟨text, made', table⟩
    cases made.symm.trans made'
    rw [read] at table
    obtain ⟨-, sameLength, first⟩ := table
    have clean := StatsRow.clean_of_parse rows ofStats.nonempty (first.trans ofStats.ids.symm)
    rw [StatsRow.parse_of_clean rows ofStats.nonempty clean] at sameLength
    exact ⟨empty, (ofStats.widths_iff empty).mp sameLength, ofStats.clean_iff.mp clean⟩
  · rintro ⟨-, several, clean⟩
    have parsed := StatsRow.parse_of_clean rows ofStats.nonempty (ofStats.clean_iff.mpr clean)
    refine ⟨_, made, ?_⟩
    have heads : (rows.map StatsRow.values).map List.head? = rows.map fun r => some r.pointID :=
      List.map_map
    rw [read, parsed]
    exact ⟨(List.length_map _).trans ofStats.length, (ofStats.widths_iff empty).mpr several,
      heads.trans ofStats.ids⟩

instance (n : Nat) (ids : List (Option Text)) : DecidablePred (IsStatsTable n ids)
  | [] => isFalse not_false
  | _ :: _ => inferInstanceAs (Decidable (_ ∧ _ ∧ _))

instance (functions : StatsFunctions D) (ranking : Ranking D) (stats : BenchmarkStats D) :
    Decidable (StatsRectangular functions ranking stats) :=
  match made : stats.getCurrentStatsCsv functions ranking with
  | none => isFalse fun table => by
      obtain ⟨text, made', -⟩ := table
      cases made.symm.trans made'
  | some text => decidable_of_iff
      (IsStatsTable stats.dataPoints.length
        ((stats.bestIndividualIndexes ranking).map fun k => stats.pointIDs[k]?) (parse text))
      ⟨fun table => ⟨text, made, table⟩, fun table => by
        obtain ⟨text', made', table⟩ := table
        cases made.symm.trans made'
        exact table⟩

end Text

theorem clean_toDigits (n : Nat) : Clean (Nat.toDigits 10 n) := by
  intro c member special
  have digit := Nat.isDigit_of_mem_toDigits (by decide) (by decide) member
  have none_ : [',', '"', '\r', '\n'].all fun c => !c.isDigit := rfl
  have other := List.all_eq_true.mp none_ c special
  rw [digit] at other
  cases other

/-- Whole numbers, with the metrics of points of which none dominates another. -/
def sampleStatsFunctions : StatsFunctions Nat where
  toString := Nat.toDigits 10
  formatDouble := Nat.toDigits 10
  sizeToString := Nat.toDigits 10
  isinf _ := false
  metrics fs := ⟨fs.map fun _ => 0, fs.map fun _ => 0, fs.map fun _ => 1, fs.map fun _ => 1⟩
  clean_toString := clean_toDigits
  clean_formatDouble := clean_toDigits
  clean_sizeToString := clean_toDigits
  length_ranks _ _ := List.length_map _
  length_domCounts _ _ := List.length_map _
  length_crowdDists _ _ := List.length_map _
  length_hvContributions _ _ := List.length_map _

/-- A problem of which all objectives are the sum of the decision vector. -/
def sumProblem (nobj : Nat) : BenchmarkProblem Nat where
  nobj
  nc := 0
  name := "sum".toList
  nf := nobj
  fitness x := List.replicate nobj x.sum
  length_fitness _ := List.length_replicate

/-- No points, an ID with a comma, and a single point for two objectives. -/
theorem stats_not_rectangular :
    ¬StatsRectangular sampleStatsFunctions .byFirst { problem := sumProblem 1 } ∧
      ¬StatsRectangular sampleStatsFunctions .byFirst
        (BenchmarkStats.addDataPoint { problem := sumProblem 1 } [1, 2] "a,b".toList 7) ∧
      ¬StatsRectangular sampleStatsFunctions .byFirst
        (BenchmarkStats.addDataPoint { problem := sumProblem 2 } [1, 2] "a".toList 7) := by
  decide +kernel

end Metasolver
