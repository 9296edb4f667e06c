import Metasolver.Solver.PopulationTools
import Metasolver.Lib.Exec

/-!
# `merge_populations` during an evolution

`merge_populations` reads each island twice, `get_population().get_x()` and then
`get_population().get_f()`.  Each call copies the population as it is at that
moment; between the two calls an island thread may replace the population with
`isl.set_population` (`distributed_island.cpp:134-135`).  A step here is one of these
calls or one replacement.

`Untorn` says that no replacement falls between the two calls for the same island.
Then every fitness stands at the place of its own individual (`merge_keeps_fitness`).
-/

namespace Metasolver

open Exec

variable {D : Type}

/-- Where the loop of `merge_populations` is. -/
inductive MergePoint (D : Type) where
  /-- About to read the decision vectors of the `k`-th island. -/
  | getX (k : Nat)
  /-- The decision vectors have been read, the fitness has not. -/
  | getF (k : Nat) (islPop : List (VectorDouble D))
  | returned
  deriving DecidableEq

/-- The archipelago and a call of `merge_populations`. -/
structure Merge (D : Type) where
  archi : List (Population D)
  point : MergePoint D := .getX 0
  allPopulations : List (VectorDouble D) := []
  allFitnesses : List (VectorDouble D) := []
  deriving DecidableEq

inductive MergeEvent (D : Type) where
  | next
  /-- `set_population` on the `k`-th island. -/
  | setPopulation (k : Nat) (pop : Population D)
  deriving DecidableEq

namespace Merge

/-- `merge_populations` (`population_tools.h:16-30`), one read of an island at a time. -/
def step (s : Merge D) : MergeEvent D → Option (Merge D)
  | .next =>
      match s.point with
      | .getX k =>
          match s.archi[k]? with
          | none => some { s with point := .returned }
          | some isl => some { s with point := .getF k isl.x }
      | .getF k islPop =>
          match s.archi[k]? with
          | none => none
          | some isl => some { s with
              point := .getX (k + 1)
              allPopulations := s.allPopulations ++ islPop
              allFitnesses := s.allFitnesses ++ isl.f }
      | .returned => none
  | .setPopulation k pop =>
      if k < s.archi.length then some { s with archi := s.archi.set k pop } else none

/-- The island whose decision vectors have just been read keeps its population until
    its fitness has been read. -/
def Untorn (s : Merge D) : MergeEvent D → Prop
  | .next => True
  | .setPopulation k _ => ∀ islPop, s.point ≠ .getF k islPop

instance (s : Merge D) (e : MergeEvent D) : Decidable (Untorn s e) :=
  match e, h : s.point with
  | .next, _ => isTrue trivial
  | .setPopulation k _, .getF j islPop =>
      if same : k = j then isFalse fun untorn => untorn islPop (same ▸ h)
      else isTrue fun islPop' point => same (MergePoint.getF.inj (h ▸ point)).1.symm
  | .setPopulation _ _, .getX _ => isTrue fun _ point => by rw [h] at point; cases point
  | .setPopulation _ _, .returned => isTrue fun _ point => by rw [h] at point; cases point

/-- A population the `k`-th island had at some time of the run: the one it began with
    or one that a `set_population` gave it. -/
def Held (archi : List (Population D)) (es : List (MergeEvent D)) (k : Nat)
    (pop : Population D) : Prop :=
  archi[k]? = some pop ∨ .setPopulation k pop ∈ es

/-- The individual and the fitness belong together in one population of one island. -/
def Together (held : Nat → Population D → Prop) (x f : VectorDouble D) : Prop :=
  ∃ k pop, held k pop ∧ (x, f) ∈ pop.individuals

variable {held : Nat → Population D → Prop} {s t : Merge D} {e : MergeEvent D}

structure Paired (held : Nat → Population D → Prop) (s : Merge D) : Prop where
  current : ∀ k pop, s.archi[k]? = some pop → held k pop
  merged : List.Forall₂ (Together held) s.allPopulations s.allFitnesses
  read : ∀ k islPop, s.point = .getF k islPop → ∃ isl, s.archi[k]? = some isl ∧ islPop = isl.x

/-- The individuals of one population with its fitnesses. -/
theorem together_of_held {k : Nat} {pop : Population D} (h : held k pop) :
    List.Forall₂ (Together held) pop.x pop.f :=
  List.forall₂_iff_zip.mpr ⟨pop.sized, fun member => ⟨k, pop, h, member⟩⟩

/-- What a step of the call or a replacement does. -/
inductive Stepped (s : Merge D) : MergeEvent D → Merge D → Prop
  | readX (k : Nat) (isl : Population D) (point : s.point = .getX k)
      (found : s.archi[k]? = some isl) : Stepped s .next { s with point := .getF k isl.x }
  | atEnd (k : Nat) (point : s.point = .getX k) (past : s.archi.length ≤ k) :
      Stepped s .next { s with point := .returned }
  | readF (k : Nat) (islPop : List (VectorDouble D)) (isl : Population D)
      (point : s.point = .getF k islPop) (found : s.archi[k]? = some isl) :
      Stepped s .next { s with
        point := .getX (k + 1)
        allPopulations := s.allPopulations ++ islPop
        allFitnesses := s.allFitnesses ++ isl.f }
  | replaced (k : Nat) (pop : Population D) (inside : k < s.archi.length) :
      Stepped s (.setPopulation k pop) { s with archi := s.archi.set k pop }

theorem step_cases (h : s.step e = some t) : Stepped s e t := by
  cases e with
  | next =>
      simp only [Merge.step] at h
      split at h
      case h_1 k point =>
        split at h
        case h_1 found =>
          obtain rfl := Option.some.inj h
          exact .atEnd k point (List.getElem?_eq_none_iff.mp found)
        case h_2 isl found =>
          obtain rfl := Option.some.inj h
          exact .readX k isl point found
      case h_2 k islPop point =>
        split at h
        case h_1 => cases h
        case h_2 isl found =>
          obtain rfl := Option.some.inj h
          exact .readF k islPop isl point found
      case h_3 => cases h
  | setPopulation k pop =>
      simp only [Merge.step, Option.ite_none_right_eq_some, Option.some.injEq] at h
      obtain ⟨inside, rfl⟩ := h
      exact .replaced k pop inside

theorem Paired.step (paired : Paired held s) (untorn : Untorn s e)
    (given : ∀ k pop, e = .setPopulation k pop → held k pop) (h : s.step e = some t) :
    Paired held t := by
  cases step_cases h with
  | atEnd k point past =>
      exact ⟨paired.current, paired.merged, fun k islPop point => by cases point⟩
  | readX k isl point found =>
      refine ⟨paired.current, paired.merged, ?_⟩
      intro k' islPop point'
      obtain ⟨rfl, rfl⟩ := MergePoint.getF.inj point'
      exact ⟨isl, found, rfl⟩
  | readF k islPop isl point found =>
      refine ⟨paired.current, ?_, fun k' islPop' point' => by cases point'⟩
      -- the island still has the population whose decision vectors were read
      obtain ⟨isl', found', rfl⟩ := paired.read k islPop point
      rw [found] at found'
      obtain rfl := Option.some.inj found'
      exact List.rel_append paired.merged (together_of_held (paired.current k isl found))
  | replaced k pop inside =>
      refine ⟨?_, paired.merged, ?_⟩
      · intro k' pop' found
        by_cases same : k = k'
        · subst same
          have now : pop = pop' := by simpa [List.getElem?_set, inside] using found
          exact now ▸ given k pop rfl
        · rw [List.getElem?_set_ne same] at found
          exact paired.current k' pop' found
      · intro k' islPop point
        have same : k ≠ k' := by
          rintro rfl
          exact untorn islPop point
        obtain ⟨isl, found, rfl⟩ := paired.read k' islPop point
        exact ⟨isl, by rw [List.getElem?_set_ne same]; exact found, rfl⟩

/-! ## The call returns -/

/-- The steps that are left before `merge_populations` returns. -/
def remaining (s : Merge D) : Nat :=
  match s.point with
  | .getX k => 2 * (s.archi.length - k) + 1
  | .getF k _ => 2 * (s.archi.length - k)
  | .returned => 0

def isNext : MergeEvent D → Bool
  | .next => true
  | .setPopulation _ _ => false

/-- The island that is being read exists. -/
def Inside (s : Merge D) : Prop := ∀ k islPop, s.point = .getF k islPop → k < s.archi.length

/-- A step of the call is one step less to go; a replacement changes nothing of that. -/
theorem Inside.step (inside : Inside s) (h : s.step e = some t) :
    Inside t ∧ t.remaining + (if isNext e then 1 else 0) = s.remaining := by
  cases step_cases h with
  | atEnd k point past =>
      refine ⟨fun k' islPop point' => (by cases point'), ?_⟩
      simp only [remaining, point, isNext, ↓reduceIte]
      omega
  | readX k isl point found =>
      have bound : k < s.archi.length := (List.getElem?_eq_some_iff.mp found).1
      constructor
      · intro k' islPop point'
        obtain ⟨rfl, -⟩ := MergePoint.getF.inj point'
        exact bound
      · simp [remaining, point, isNext]
  | readF k islPop isl point found =>
      have bound := inside k islPop point
      refine ⟨fun k' islPop' point' => (by cases point'), ?_⟩
      simp only [remaining, point, isNext, ↓reduceIte]
      omega
  | replaced k pop exists_ =>
      constructor
      · intro k' islPop point
        rw [List.length_set]
        exact inside k' islPop point
      · simp [remaining, isNext]

/-- The call is never stuck. -/
theorem Inside.next (inside : Inside s) (notYet : s.point ≠ .returned) :
    ∃ t, s.step .next = some t := by
  cases point : s.point with
  | getX k =>
      cases found : s.archi[k]? with
      | none => exact ⟨{ s with point := .returned }, by simp only [Merge.step, point, found]⟩
      | some isl =>
          exact ⟨{ s with point := .getF k isl.x }, by simp only [Merge.step, point, found]⟩
  | getF k islPop =>
      have bound := inside k islPop point
      refine ⟨{ s with
        point := .getX (k + 1)
        allPopulations := s.allPopulations ++ islPop
        allFitnesses := s.allFitnesses ++ s.archi[k].f }, ?_⟩
      simp only [Merge.step, point, List.getElem?_eq_getElem bound]
  | returned => exact absurd point notYet

theorem Inside.returned_iff (inside : Inside s) : s.point = .returned ↔ s.remaining = 0 := by
  unfold remaining
  cases point : s.point with
  | getX k => simp
  | getF k islPop =>
      have bound := inside k islPop point
      simp only [reduceCtorEq, false_iff]
      omega
  | returned => simp

theorem remaining_run {es : List (MergeEvent D)} (inside : Inside s)
    (run : exec Merge.step s es = some t) :
    Inside t ∧ t.remaining + es.countP isNext = s.remaining := by
  induction es generalizing s with
  | nil =>
      obtain rfl : s = t := by simpa using run
      exact ⟨inside, rfl⟩
  | cons e es ih =>
      obtain ⟨r, hr, rest⟩ := exec_cons_some.mp run
      obtain ⟨inside', less⟩ := inside.step hr
      obtain ⟨last, counted⟩ := ih inside' rest
      refine ⟨last, ?_⟩
      rw [List.countP_cons]
      omega

/-- Whatever is replaced meanwhile, the call returns with its `2 n + 1`-st step on an
    archipelago of `n` islands, and until then it can go on. -/
theorem merge_returns {archi : List (Population D)} {es : List (MergeEvent D)}
    (run : exec Merge.step { archi } es = some t) :
    (t.point = .returned ↔ es.countP isNext = 2 * archi.length + 1) ∧
      (t.point ≠ .returned → ∃ u, t.step .next = some u) := by
  obtain ⟨inside, counted⟩ := remaining_run (fun k islPop point => by cases point) run
  refine ⟨?_, inside.next⟩
  have whole : remaining ({ archi } : Merge D) = 2 * archi.length + 1 := rfl
  rw [inside.returned_iff]
  omega

/-! ## The fitness that belongs to an individual -/

theorem paired_run {archi : List (Population D)} {es : List (MergeEvent D)}
    (untorn : Along Merge.step Untorn { archi } es)
    (run : exec Merge.step { archi } es = some t) : Paired (Held archi es) t := by
  have given : Along Merge.step (fun _ e => e ∈ es) { archi } es := along_mem es
  refine exec_invariant (I := Paired (Held archi es)) ?_ ?_ (along_and untorn given) run
  · intro s e t paired ok h
    refine paired.step ok.1 (fun k pop same => ?_) h
    exact Or.inr (same ▸ ok.2)
  · exact ⟨fun k pop found => Or.inl found, .nil, fun k islPop point => by cases point⟩

end Merge

open Merge

/-- If no population is replaced between the two reads of its island, then at any
    time, and so when the call has returned, each fitness stands at the place of an
    individual it belonged to in one population of one island; and the individual
    that is selected as the best is the one whose fitness was selected.  The call does
    return, with two steps for each island and one. -/
theorem merge_keeps_fitness (archi : List (Population D)) (es : List (MergeEvent D)) (t : Merge D)
    (untorn : Along Merge.step Untorn { archi } es)
    (run : exec Merge.step { archi } es = some t) :
    t.allPopulations.length = t.allFitnesses.length ∧
      (∀ (k : Nat) (x f : VectorDouble D),
        t.allPopulations[k]? = some x → t.allFitnesses[k]? = some f →
        ∃ j pop, Held archi es j pop ∧ (x, f) ∈ pop.individuals) ∧
      (∀ [LT D] [DecidableLT D] (ranking : Ranking D) (prob : Problem), t.allFitnesses ≠ [] →
        ∃ (k : Nat) (x f : VectorDouble D),
          getBestNIndividualsIndexes ranking prob t.allFitnesses 1 = [k] ∧
          t.allFitnesses[k]? = some f ∧
          selectBestNIndividuals ranking prob t.allPopulations t.allFitnesses 1 = some [x] ∧
          ∃ j pop, Held archi es j pop ∧ (x, f) ∈ pop.individuals) ∧
      (t.point = .returned ↔ es.countP isNext = 2 * archi.length + 1) ∧
      (t.point ≠ .returned → ∃ u, t.step .next = some u) := by
  have merged := (paired_run untorn run).merged
  have sized := merged.length_eq
  have together : ∀ (k : Nat) (x f : VectorDouble D),
      t.allPopulations[k]? = some x → t.allFitnesses[k]? = some f →
      ∃ j pop, Held archi es j pop ∧ (x, f) ∈ pop.individuals := by
    intro k x f hx hf
    apply (List.forall₂_iff_zip.mp merged).2
    exact List.mem_of_getElem? (List.getElem?_zip_eq_some.mpr ⟨hx, hf⟩)
  refine ⟨sized, together, ?_, merge_returns run⟩
  intro _ _ ranking prob some_
  obtain ⟨k, bound, best⟩ := getBestNIndividualsIndexes_one ranking prob some_
  have hf := List.getElem?_eq_getElem bound
  have hx := List.getElem?_eq_getElem (sized ▸ bound)
  refine ⟨k, _, _, best, hf, ?_, together k _ _ hx hf⟩
  simp [selectBestNIndividuals, best, hx]

/-- An archipelago of one island with one individual. -/
def oneIsland : List (Population Int) := [⟨[[3]], [[30]], rfl⟩]

/-- The island gets a new population before its decision vectors are read. -/
def replacedBeforeRun : List (MergeEvent Int) :=
  [.setPopulation 0 ⟨[[4]], [[40]], rfl⟩, .next, .next, .next]

theorem merge_keeps_fitness_replaced_before :
    ∃ t, exec Merge.step { archi := oneIsland } replacedBeforeRun = some t ∧
      t.point = .returned ∧ t.allPopulations.length = t.allFitnesses.length :=
  ⟨_, rfl, rfl, (merge_keeps_fitness oneIsland replacedBeforeRun _ (by decide) rfl).1⟩

/-- The island gets a new population between the two reads: the old decision vector
    is returned with the fitness of the new one. -/
def tornRun : List (MergeEvent Int) :=
  [.next, .setPopulation 0 ⟨[[4]], [[40]], rfl⟩, .next, .next]

theorem merge_tears_population :
    ∃ t, exec Merge.step { archi := oneIsland } tornRun = some t ∧ t.point = .returned ∧
      t.allPopulations = [[3]] ∧ t.allFitnesses = [[40]] ∧
      ¬∃ k pop, Held oneIsland tornRun k pop ∧ ([3], [40]) ∈ pop.individuals := by
  refine ⟨_, rfl, rfl, rfl, rfl, ?_⟩
  rintro ⟨k, pop, first | second, member⟩
  · have only : pop ∈ oneIsland := List.mem_of_getElem? first
    obtain rfl := List.mem_singleton.mp only
    revert member
    decide
  · have given : pop = ⟨[[4]], [[40]], rfl⟩ := by
      simp only [tornRun, List.mem_cons, reduceCtorEq, MergeEvent.setPopulation.injEq, false_or,
        List.not_mem_nil, or_false] at second
      exact second.2
    subst given
    revert member
    decide

end Metasolver
