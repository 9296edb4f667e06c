import Metasolver.Messages
import Metasolver.Solver.PopulationTools
import Metasolver.Lib.Exec

/-!
# `wait_until_completion`

The calling thread reads `_archipelago.status()` twice, once for each comparison,
and then calls `wait_check()` (`distributed_solver.cpp:213-236`), while the evolve tasks
of the islands end one by one.  A step is one status read, the return of
`wait_check()`, or the end of a task.

A status does not tell an evolution that is over from one that was never started.
The guard is meant for the latter and is met by both, so the call does what its
callers expect exactly when the tasks leave it time (`waitUntilCompletion_iff`).
-/

namespace Metasolver

open Exec

variable {D : Type}

/-- The evolve task of an island. -/
inductive Task where
  | running
  | finished
  | failed (what : String)
  deriving DecidableEq, Repr

/-- An island of the archipelago with its task. -/
structure EvolvingIsland (D : Type) where
  population : Population D
  task : Task
  deriving DecidableEq

/-- `pagmo::evolve_status`. -/
inductive EvolveStatus where
  | idle
  | busy
  | idleError
  | busyError
  deriving DecidableEq, Repr

def isRunning (isl : EvolvingIsland D) : Bool := isl.task = .running

def error? (isl : EvolvingIsland D) : Option String :=
  match isl.task with
  | .failed what => some what
  | _ => none

/-- A task of the archipelago is still running. -/
def anyRunning (archi : List (EvolvingIsland D)) : Bool := archi.any isRunning

/-- A task of the archipelago has failed. -/
def anyFailed (archi : List (EvolvingIsland D)) : Bool := archi.any fun isl => (error? isl).isSome

/-- `pagmo::archipelago::status`. -/
def status (archi : List (EvolvingIsland D)) : EvolveStatus :=
  match anyRunning archi, anyFailed archi with
  | false, false => .idle
  | false, true => .idleError
  | true, false => .busy
  | true, true => .busyError

/-- How `wait_until_completion` ends. -/
inductive Outcome (D : Type) where
  | returned (bestIndividual : Option (VectorDouble D))
  /-- The exception of the guard. -/
  | threw (e : Exn)
  /-- The exception of an island's task. -/
  | rethrew (what : String)
  deriving DecidableEq

/-- Where the calling thread is. -/
inductive WaitPoint (D : Type) where
  /-- About to evaluate `_archipelago.status() == idle`. -/
  | firstStatus
  /-- About to evaluate `_archipelago.status() == idle_error`. -/
  | secondStatus
  | waitCheck
  | ended (outcome : Outcome D)
  deriving DecidableEq

/-- The archipelago and a call of `wait_until_completion`. -/
structure Completion (D : Type) where
  archi : List (EvolvingIsland D)
  point : WaitPoint D
  deriving DecidableEq

inductive CompletionEvent (D : Type) where
  /-- The calling thread goes on. -/
  | next
  /-- The task of the `k`-th island ends, with its last population or an exception. -/
  | taskEnds (k : Nat) (result : Except String (Population D))

def noEvolution : Exn :=
  .runtimeError "Cannot wait until completion, no evolution is running at the moment."

namespace Completion

/-- `_archipelago.evolve(cycleCount)` has started one task for each island, and the
    call begins. -/
def afterEvolve (islands : List (Population D)) : Completion D :=
  ⟨islands.map fun pop => ⟨pop, .running⟩, .firstStatus⟩

/-- The island after its task. -/
def ended (isl : EvolvingIsland D) : Except String (Population D) → EvolvingIsland D
  | .ok pop => ⟨pop, .finished⟩
  | .error what => { isl with task := .failed what }

variable [LT D] [DecidableLT D]

/-- What follows when `wait_check()` returns: it has rethrown the first error, in the
    order of the islands, or the best individual is selected. -/
def afterWaitCheck (ranking : Ranking D) (prob : Problem) (archi : List (EvolvingIsland D)) :
    Outcome D :=
  match archi.findSome? error? with
  | some what => .rethrew what
  | none => .returned (getBestIndividual ranking prob (archi.map EvolvingIsland.population))

def step (ranking : Ranking D) (prob : Problem) (s : Completion D) :
    CompletionEvent D → Option (Completion D)
  | .next =>
      match s.point with
      | .firstStatus =>
          if status s.archi = .idle then some { s with point := .ended (.threw noEvolution) }
          else some { s with point := .secondStatus }
      | .secondStatus =>
          if status s.archi = .idleError then some { s with point := .ended (.threw noEvolution) }
          else some { s with point := .waitCheck }
      | .waitCheck =>
          if anyRunning s.archi then none
          else some { s with point := .ended (afterWaitCheck ranking prob s.archi) }
      | .ended _ => none
  | .taskEnds k result =>
      match s.archi[k]? with
      | none => none
      | some isl =>
          if isRunning isl then some { s with archi := s.archi.set k (ended isl result) } else none

/-- The tasks leave the calling thread time: when it reads the status first, one is
    running, and when it reads it again, one is running or none has failed. -/
def InTime (s : Completion D) : CompletionEvent D → Prop
  | .next => (s.point = .firstStatus → anyRunning s.archi = true) ∧
      (s.point = .secondStatus → anyRunning s.archi = true ∨ anyFailed s.archi = false)
  | .taskEnds _ _ => True

instance [DecidableEq D] (s : Completion D) (e : CompletionEvent D) : Decidable (InTime s e) := by
  unfold InTime
  split <;> infer_instance

/-- The best individual if no task has failed, and otherwise the error of one that has. -/
def AsPromised (ranking : Ranking D) (prob : Problem) (archi : List (EvolvingIsland D))
    (outcome : Outcome D) : Prop :=
  (anyFailed archi = false →
    outcome = .returned (getBestIndividual ranking prob (archi.map EvolvingIsland.population))) ∧
  (anyFailed archi = true →
    ∃ isl ∈ archi, ∃ what, isl.task = .failed what ∧ outcome = .rethrew what)

variable {ranking : Ranking D} {prob : Problem} {archi : List (EvolvingIsland D)}
  {s t : Completion D} {e : CompletionEvent D} {inTime : Prop}

omit [LT D] [DecidableLT D] in
theorem status_idle_iff :
    status archi = .idle ↔ anyRunning archi = false ∧ anyFailed archi = false := by
  unfold status
  cases anyRunning archi <;> cases anyFailed archi <;> simp

omit [LT D] [DecidableLT D] in
theorem status_idleError_iff :
    status archi = .idleError ↔ anyRunning archi = false ∧ anyFailed archi = true := by
  unfold status
  cases anyRunning archi <;> cases anyFailed archi <;> simp

theorem threw_not_asPromised (e : Exn) : ¬AsPromised ranking prob archi (.threw e) := by
  intro promised
  cases failed : anyFailed archi with
  | false => cases promised.1 failed
  | true =>
      obtain ⟨isl, member, what, task, same⟩ := promised.2 failed
      cases same

theorem afterWaitCheck_asPromised :
    AsPromised ranking prob archi (afterWaitCheck ranking prob archi) := by
  unfold afterWaitCheck
  cases first : archi.findSome? error? with
  | none =>
      refine ⟨fun _ => rfl, fun failed => ?_⟩
      obtain ⟨isl, member, some_⟩ := List.any_eq_true.mp failed
      rw [List.findSome?_eq_none_iff.mp first isl member] at some_
      cases some_
  | some what =>
      obtain ⟨isl, member, error⟩ := List.exists_of_findSome?_eq_some first
      have task : isl.task = .failed what := by
        unfold error? at error
        split at error
        case h_1 which => rw [which, Option.some.inj error]
        case h_2 => cases error
      refine ⟨fun none_ => ?_, fun _ => ⟨isl, member, what, task, rfl⟩⟩
      have failed : anyFailed archi = true :=
        List.any_eq_true.mpr ⟨isl, member, by rw [error]; rfl⟩
      rw [none_] at failed
      cases failed

/-- What the steps so far have decided, if they were `inTime`. -/
def Decided (ranking : Ranking D) (prob : Problem) (s : Completion D) (inTime : Prop) : Prop :=
  match s.point with
  | .firstStatus => inTime
  | .secondStatus => inTime ∨ (¬inTime ∧ status s.archi = .idleError)
  | .waitCheck => inTime
  | .ended outcome =>
      (AsPromised ranking prob s.archi outcome ↔ inTime) ∧ anyRunning s.archi = false

/-- What a step of the calling thread or the end of a task does. -/
inductive Stepped (ranking : Ranking D) (prob : Problem) (s : Completion D) :
    CompletionEvent D → Completion D → Prop
  | idle (point : s.point = .firstStatus) (is : status s.archi = .idle) :
      Stepped ranking prob s .next { s with point := .ended (.threw noEvolution) }
  | notIdle (point : s.point = .firstStatus) (isnt : status s.archi ≠ .idle) :
      Stepped ranking prob s .next { s with point := .secondStatus }
  | idleError (point : s.point = .secondStatus) (is : status s.archi = .idleError) :
      Stepped ranking prob s .next { s with point := .ended (.threw noEvolution) }
  | notIdleError (point : s.point = .secondStatus) (isnt : status s.archi ≠ .idleError) :
      Stepped ranking prob s .next { s with point := .waitCheck }
  | waited (point : s.point = .waitCheck) (ceased : anyRunning s.archi = false) :
      Stepped ranking prob s .next
        { s with point := .ended (afterWaitCheck ranking prob s.archi) }
  | taskEnds (k : Nat) (result : Except String (Population D)) (isl : EvolvingIsland D)
      (found : s.archi[k]? = some isl) (runs : isRunning isl = true) :
      Stepped ranking prob s (.taskEnds k result)
        { s with archi := s.archi.set k (ended isl result) }

theorem step_iff : s.step ranking prob e = some t ↔ Stepped ranking prob s e t := by
  constructor
  · intro h
    cases e with
    | next =>
        simp only [Completion.step] at h
        split at h
        case h_1 point =>
          split_ifs at h with is
          · exact Option.some.inj h ▸ .idle point is
          · exact Option.some.inj h ▸ .notIdle point is
        case h_2 point =>
          split_ifs at h with is
          · exact Option.some.inj h ▸ .idleError point is
          · exact Option.some.inj h ▸ .notIdleError point is
        case h_3 point =>
          split_ifs at h with running
          exact Option.some.inj h ▸ .waited point (Bool.eq_false_iff.mpr running)
        case h_4 => cases h
    | taskEnds k result =>
        simp only [Completion.step] at h
        split at h
        case h_1 => cases h
        case h_2 isl found =>
          split_ifs at h with runs
          exact Option.some.inj h ▸ .taskEnds k result isl found runs
  · intro h
    cases h with
    | idle point is => simp [Completion.step, point, is]
    | notIdle point isnt => simp [Completion.step, point, isnt]
    | idleError point is => simp [Completion.step, point, is]
    | notIdleError point isnt => simp [Completion.step, point, isnt]
    | waited point ceased => simp [Completion.step, point, ceased]
    | taskEnds k result isl found runs => simp [Completion.step, found, runs]

theorem Decided.next (decided : Decided ranking prob s inTime)
    (h : s.step ranking prob .next = some t) :
    Decided ranking prob t (inTime ∧ InTime s .next) := by
  cases step_iff.mp h with
  | idle point is =>
      have ceased := (status_idle_iff.mp is).1
      refine ⟨?_, ceased⟩
      simp [threw_not_asPromised, InTime, point, ceased]
  | notIdle point isnt =>
      simp only [Decided, point] at decided
      cases running : anyRunning s.archi with
      | true => exact Or.inl ⟨decided, by simp [InTime, point, running]⟩
      | false =>
          refine Or.inr ⟨by simp [InTime, point, running], ?_⟩
          refine status_idleError_iff.mpr ⟨running, ?_⟩
          by_contra failed
          exact isnt (status_idle_iff.mpr ⟨running, Bool.eq_false_iff.mpr failed⟩)
  | idleError point is =>
      obtain ⟨ceased, failed⟩ := status_idleError_iff.mp is
      refine ⟨?_, ceased⟩
      simp [threw_not_asPromised, InTime, point, ceased, failed]
  | notIdleError point isnt =>
      simp only [Decided, point] at decided
      have early : inTime := decided.resolve_right fun late => isnt late.2
      refine ⟨early, by simp [point], fun _ => ?_⟩
      by_contra late
      rw [not_or, Bool.not_eq_true, Bool.not_eq_false] at late
      exact isnt (status_idleError_iff.mpr late)
  | waited point ceased =>
      simp only [Decided, point] at decided
      refine ⟨?_, ceased⟩
      refine iff_of_true afterWaitCheck_asPromised ⟨decided, ?_⟩
      simp [InTime, point]

theorem Decided.taskEnds {k : Nat} {result : Except String (Population D)}
    (decided : Decided ranking prob s inTime)
    (h : s.step ranking prob (.taskEnds k result) = some t) : Decided ranking prob t inTime := by
  cases step_iff.mp h with
  | taskEnds k result isl found runs =>
      have running : anyRunning s.archi = true :=
        List.any_eq_true.mpr ⟨isl, List.mem_of_getElem? found, runs⟩
      cases point : s.point with
      | firstStatus => simpa only [Decided, point] using decided
      | secondStatus =>
          simp only [Decided, point] at decided ⊢
          refine Or.inl (decided.resolve_right fun late => ?_)
          rw [(status_idleError_iff.mp late.2).1] at running
          cases running
      | waitCheck => simpa only [Decided, point] using decided
      | ended outcome =>
          simp only [Decided, point] at decided
          rw [decided.2] at running
          cases running

theorem decided_run {islands : List (Population D)} {es : List (CompletionEvent D)}
    (run : exec (Completion.step ranking prob) (afterEvolve islands) es = some t) :
    Decided ranking prob t
      (Along (Completion.step ranking prob) InTime (afterEvolve islands) es) := by
  induction es using List.reverseRecOn generalizing t with
  | nil =>
      obtain rfl : afterEvolve islands = t := by simpa using run
      trivial
  | append_singleton es e ih =>
      obtain ⟨s, before, h⟩ := exec_snoc.mp run
      have decided := ih before
      cases e with
      | next =>
          have now := decided.next h
          rwa [← along_snoc before] at now
      | taskEnds k result =>
          have now := decided.taskEnds h
          have same : Along (Completion.step ranking prob) InTime (afterEvolve islands)
              (es ++ [.taskEnds k result]) ↔
              Along (Completion.step ranking prob) InTime (afterEvolve islands) es := by
            rw [along_snoc before]
            exact and_iff_left trivial
          rwa [same]

/-- The steps the calling thread is away from the end when no task is running. -/
def stepsLeft : WaitPoint D → Nat
  | .firstStatus => 3
  | .secondStatus => 2
  | .waitCheck => 1
  | .ended _ => 0

omit [LT D] [DecidableLT D] in
theorem stepsLeft_le (point : WaitPoint D) : stepsLeft point ≤ 3 := by
  cases point <;> simp [stepsLeft]

/-- Once no task is running, each step brings the calling thread nearer to the end. -/
theorem next_of_ceased (ceased : anyRunning s.archi = false)
    (notYet : ∀ outcome, s.point ≠ .ended outcome) :
    ∃ t, s.step ranking prob .next = some t ∧ t.archi = s.archi ∧
      stepsLeft t.point < stepsLeft s.point := by
  cases point : s.point with
  | firstStatus =>
      by_cases is : status s.archi = .idle
      · exact ⟨_, step_iff.mpr (.idle point is), rfl, by simp [stepsLeft]⟩
      · exact ⟨_, step_iff.mpr (.notIdle point is), rfl, by simp [stepsLeft]⟩
  | secondStatus =>
      by_cases is : status s.archi = .idleError
      · exact ⟨_, step_iff.mpr (.idleError point is), rfl, by simp [stepsLeft]⟩
      · exact ⟨_, step_iff.mpr (.notIdleError point is), rfl, by simp [stepsLeft]⟩
  | waitCheck => exact ⟨_, step_iff.mpr (.waited point ceased), rfl, by simp [stepsLeft]⟩
  | ended outcome => exact absurd point (notYet outcome)

/-- Once no task is running the call ends after at most three steps. -/
theorem ends (ceased : anyRunning s.archi = false) :
    ∃ n u outcome, n ≤ stepsLeft s.point ∧
      exec (Completion.step ranking prob) s (List.replicate n .next) = some u ∧
      u.point = .ended outcome := by
  induction bound : stepsLeft s.point using Nat.strong_induction_on generalizing s with
  | _ left ih =>
      by_cases done : ∃ outcome, s.point = .ended outcome
      · obtain ⟨outcome, point⟩ := done
        exact ⟨0, s, outcome, Nat.zero_le left, rfl, point⟩
      · obtain ⟨t, step, same, less⟩ := next_of_ceased ceased fun outcome point =>
          done ⟨outcome, point⟩
        rw [← same] at ceased
        obtain ⟨n, u, outcome, few, rest, point⟩ := ih _ (bound ▸ less) ceased rfl
        refine ⟨n + 1, u, outcome, by omega, ?_, point⟩
        exact exec_cons_some.mpr ⟨t, step, rest⟩

end Completion

open Completion

/-- After `evolve()`, whatever the order in which the tasks end and the calling thread
    goes on: the call ends once no task is running, and it has ended with the best
    individual, or the error of an island that failed, if and only if a task was
    still running at the first status read and, at the second, one was running or
    none had failed. -/
theorem waitUntilCompletion_iff [LT D] [DecidableLT D] (ranking : Ranking D) (prob : Problem)
    (islands : List (Population D)) (es : List (CompletionEvent D)) (t : Completion D)
    (run : exec (Completion.step ranking prob) (afterEvolve islands) es = some t) :
    (anyRunning t.archi = false → ∃ n u outcome, n ≤ 3 ∧
      exec (Completion.step ranking prob) t (List.replicate n .next) = some u ∧
      u.point = .ended outcome) ∧
    ∀ outcome, t.point = .ended outcome →
      (AsPromised ranking prob t.archi outcome ↔
        Along (Completion.step ranking prob) InTime (afterEvolve islands) es) := by
  constructor
  · intro ceased
    obtain ⟨n, u, outcome, few, rest, point⟩ := @ends _ _ _ ranking prob t ceased
    exact ⟨n, u, outcome, few.trans (stepsLeft_le t.point), rest, point⟩
  · intro outcome point
    have decided := decided_run run
    simp only [Decided, point] at decided
    exact decided.1

/-- An archipelago of one island with one individual, and the island's next population. -/
def oneStarted : Completion Int := afterEvolve [⟨[[1]], [[10]], rfl⟩]

def oneEvolved : Population Int := ⟨[[2]], [[20]], rfl⟩

/-- The task ends after both status reads. -/
def timelyRun : List (CompletionEvent Int) :=
  [.next, .next, .taskEnds 0 (.ok oneEvolved), .next]

theorem waitUntilCompletion_timely :
    ∃ t, exec (Completion.step .byFirst ⟨1, 0⟩) oneStarted timelyRun = some t ∧
      t.point = .ended (.returned (some [2])) ∧
      AsPromised .byFirst ⟨1, 0⟩ t.archi (.returned (some [2])) :=
  ⟨_, rfl, rfl, ((waitUntilCompletion_iff .byFirst ⟨1, 0⟩ [⟨[[1]], [[10]], rfl⟩] timelyRun
    _ rfl).2 _ rfl).mpr (by decide)⟩

/-- The only task ends, without an error, before the status is read for the first time. -/
theorem waitUntilCompletion_too_late :
    ∃ t, exec (Completion.step .byFirst ⟨1, 0⟩) oneStarted
        [.taskEnds 0 (.ok oneEvolved), .next] = some t ∧
      anyFailed t.archi = false ∧ t.point = .ended (.threw noEvolution) ∧
      ¬AsPromised .byFirst ⟨1, 0⟩ t.archi (.threw noEvolution) :=
  ⟨_, rfl, rfl, rfl, threw_not_asPromised noEvolution⟩

end Metasolver
