import Mathlib.Algebra.BigOperators.Group.List.Basic
import Metasolver.Controller.Statistics

/-!
# Accumulated work time

`worker_finished_work` subtracts two readings of `high_resolution_clock`, truncates the
difference to milliseconds and adds it to counters of type `uint64_t`
(`worker_info_repository.cpp:56-64`).  The clock may be set forward and back, so the calls
here also carry the time at which they really happen, which no code reads: a job has
really taken the time from the last `worker_started_work` of its worker to its end.

`Accurate` compares the two.  While every job is measured as no less than nothing and no more
than it has taken, the counters only grow and stay below the time really spent.
-/

namespace Metasolver

namespace WorkerInfoRepository

open Exec

/-- A finished job and the nanoseconds it has really taken. -/
structure Job where
  worker : WorkerId
  algoName : String
  elapsed : Nat
  deriving DecidableEq, Repr

/-- The time really spent on the jobs selected by `p`. -/
def spent (p : Job → Bool) (jobs : List Job) : Nat := ((jobs.filter p).map Job.elapsed).sum

/-- The jobs of `w`. -/
def ofWorker (w : WorkerId) (job : Job) : Bool := job.worker = w

/-- The jobs of `w` with algorithm `a`. -/
def ofAlgorithm (w : WorkerId) (a : String) (job : Job) : Bool :=
  job.worker = w ∧ job.algoName = a

/-- A call on the repository at a real time, in nanoseconds. -/
structure TimedCall where
  real : Nat
  call : Call

/-- The repository, the real times of the last starts, and the jobs that have been credited. -/
structure WorkClock where
  repo : WorkerInfoRepository := empty
  startedAt : UnorderedMap WorkerId Nat := ∅
  jobs : List Job := []

namespace WorkClock

/-- The time since `w` was started last. -/
def sinceStart (s : WorkClock) (w : WorkerId) (real : Nat) : Nat :=
  match s.startedAt.lookup w with
  | none => 0
  | some start => real - start

/-- A call that throws starts no job and finishes none. -/
def step (s : WorkClock) (e : TimedCall) : Option WorkClock :=
  let repo := s.repo.perform e.call
  match e.call with
  | .workerStartedWork w _ =>
      if w ∈ s.repo.workerRecords then
        some { s with repo, startedAt := s.startedAt.insert w e.real }
      else some { s with repo }
  | .workerFinishedWork w _ algoName _ =>
      if w ∈ s.repo.workerRecords then
        some { s with repo, jobs := s.jobs ++ [⟨w, algoName, s.sinceStart w e.real⟩] }
      else some { s with repo }
  | _ => some { s with repo }

/-- The whole milliseconds between the two readings a finished job is measured by. -/
def measured (wInfo : WorkerInfo) (now : TimePoint) : Int :=
  (now - wInfo.lastWorkStartTime).tdiv 1000000

/-- The readings of a job show no negative time, and no more than has really passed. -/
def Accurate (s : WorkClock) (e : TimedCall) : Prop :=
  match e.call with
  | .workerFinishedWork w _ _ now =>
      match s.repo.workerRecords.lookup w with
      | none => True
      | some wInfo =>
          0 ≤ measured wInfo now ∧ measured wInfo now * 1000000 ≤ s.sinceStart w e.real
  | _ => True

instance (s : WorkClock) (e : TimedCall) : Decidable (Accurate s e) := by
  unfold Accurate
  split
  · split <;> infer_instance
  · infer_instance

/-- A counter in milliseconds does not exceed a time in nanoseconds. -/
def Within (workTime : UInt64) (time : Nat) : Prop := workTime.toNat * 1000000 ≤ time

/-- The record of `w`, with all counters zero if there is none. -/
def recordOf (s : WorkClock) (w : WorkerId) : WorkerInfo :=
  (s.repo.workerRecords.lookup w).getD {}

/-- The counters of `w` do not exceed the time really spent. -/
def Covered (wInfo : WorkerInfo) (w : WorkerId) (jobs : List Job) : Prop :=
  Within wInfo.totalStats.workTime (spent (ofWorker w) jobs) ∧
  ∀ a, Within ((wInfo.statsByAlgorithm.lookup a).getD {}).workTime (spent (ofAlgorithm w a) jobs)

/-- No counter of a record has become smaller. -/
def Grown (wInfo wInfo' : WorkerInfo) : Prop :=
  wInfo.totalStats.workTime ≤ wInfo'.totalStats.workTime ∧
  ∀ a, ((wInfo.statsByAlgorithm.lookup a).getD {}).workTime ≤
    ((wInfo'.statsByAlgorithm.lookup a).getD {}).workTime

end WorkClock

/-! ## Sums of times -/

variable {p q : Job → Bool} {jobs : List Job} {job : Job}

theorem spent_snoc : spent p (jobs ++ [job]) = spent p jobs + if p job then job.elapsed else 0 := by
  by_cases counted : p job <;> simp [spent, counted]

theorem spent_le_snoc : spent p jobs ≤ spent p (jobs ++ [job]) := by
  rw [spent_snoc]
  exact Nat.le_add_right _ _

/-- What is spent on some jobs is not more than what is spent on all. -/
theorem spent_le_all : spent p jobs ≤ spent (fun _ => true) jobs := by
  induction jobs with
  | nil => exact le_refl _
  | cons job jobs ih =>
      by_cases counted : p job
      · simpa [spent, counted] using ih
      · have more := ih.trans (Nat.le_add_left _ job.elapsed)
        simpa [spent, counted] using more

/-- A time that is neither negative nor too long is added without wrapping around. -/
theorem add_workTime {stats : WorkStats} {ms : Int} {time elapsed : Nat}
    (within : WorkClock.Within stats.workTime time) (positive : 0 ≤ ms)
    (measured : ms * 1000000 ≤ elapsed) (bounded : time + elapsed < 2 ^ 64 * 1000000)
    {processed : Nat} : stats.workTime ≤ (stats.add ms processed).workTime ∧
      WorkClock.Within (stats.add ms processed).workTime (time + elapsed) := by
  obtain ⟨k, rfl⟩ := Int.eq_ofNat_of_zero_le positive
  unfold WorkClock.Within at within ⊢
  have fits : stats.workTime.toNat + k < 2 ^ 64 := by omega
  have added : (stats.add k processed).workTime.toNat = stats.workTime.toNat + k := by
    have small : (UInt64.ofInt (k : Int)).toNat = k := by
      have less : k < 2 ^ 64 := by omega
      have same : ((k : Int) % 2 ^ 64).toNat = k := by omega
      rw [UInt64.ofInt, same]
      exact UInt64.toNat_ofNat_of_lt' less
    rw [WorkStats.add, UInt64.toNat_add, small, Nat.mod_eq_of_lt fits]
  rw [UInt64.le_iff_toNat_le, added]
  omega

/-! ## One call -/

namespace WorkClock

variable {s t u : WorkClock} {e : TimedCall} {es later : List TimedCall} {w : WorkerId}

theorem Grown.refl (wInfo : WorkerInfo) : Grown wInfo wInfo :=
  ⟨UInt64.le_refl _, fun _ => UInt64.le_refl _⟩

theorem Grown.trans {wInfo₁ wInfo₂ wInfo₃ : WorkerInfo} (first : Grown wInfo₁ wInfo₂)
    (second : Grown wInfo₂ wInfo₃) : Grown wInfo₁ wInfo₃ :=
  ⟨UInt64.le_trans first.1 second.1, fun a => UInt64.le_trans (first.2 a) (second.2 a)⟩

theorem Within.mono {workTime : UInt64} {time time' : Nat} (h : Within workTime time)
    (more : time ≤ time') : Within workTime time' := Nat.le_trans h more

/-- A call credits a job, or no job at all. -/
theorem step_cases (h : step s e = some t) : t.repo = s.repo.perform e.call ∧
    ((t.jobs = s.jobs ∧ ∀ w processed a now, e.call = .workerFinishedWork w processed a now →
        s.repo.workerRecords.lookup w = none) ∨
      ∃ w processed a now wInfo, e.call = .workerFinishedWork w processed a now ∧
        s.repo.workerRecords.lookup w = some wInfo ∧
        t.jobs = s.jobs ++ [⟨w, a, s.sinceStart w e.real⟩]) := by
  obtain ⟨real, c⟩ := e
  cases c with
  | workerJoined v info =>
      obtain rfl := Option.some.inj h
      exact ⟨rfl, Or.inl ⟨rfl, fun w processed a now same => by cases same⟩⟩
  | workerLeft v =>
      obtain rfl := Option.some.inj h
      exact ⟨rfl, Or.inl ⟨rfl, fun w processed a now same => by cases same⟩⟩
  | workerStartedWork v now =>
      simp only [step] at h
      split at h
      all_goals
        obtain rfl := Option.some.inj h
        exact ⟨rfl, Or.inl ⟨rfl, fun w processed a now same => by cases same⟩⟩
  | workerFinishedWork v processed a now =>
      simp only [step] at h
      split at h
      case isTrue record =>
        obtain rfl := Option.some.inj h
        obtain ⟨wInfo, found⟩ := Finmap.mem_iff.mp record
        exact ⟨rfl, Or.inr ⟨v, processed, a, now, wInfo, rfl, found, rfl⟩⟩
      case isFalse none_ =>
        obtain rfl := Option.some.inj h
        refine ⟨rfl, Or.inl ⟨rfl, fun w processed a now same => ?_⟩⟩
        cases same
        exact Finmap.lookup_eq_none.mpr none_

/-- A call that credits nothing leaves the counters alone. -/
theorem recordAfter_quiet {record : Option WorkerInfo} {c : Call} (plain : c.Plain)
    (quiet : ∀ processed a now, c = .workerFinishedWork w processed a now → record = none) :
    ((recordAfter w record c).getD {}).totalStats = (record.getD {}).totalStats ∧
      ((recordAfter w record c).getD {}).statsByAlgorithm =
        (record.getD {}).statsByAlgorithm := by
  cases c with
  | workerLeft v => exact ⟨rfl, rfl⟩
  | workerJoined v info =>
      obtain rfl : info = {} := plain
      rw [recordAfter]
      split_ifs <;> exact ⟨rfl, rfl⟩
  | workerStartedWork v now =>
      rw [recordAfter]
      split_ifs
      · cases record <;> exact ⟨rfl, rfl⟩
      · exact ⟨rfl, rfl⟩
  | workerFinishedWork v processed a now =>
      rw [recordAfter]
      split_ifs with same
      · subst same
        obtain rfl := quiet processed a now rfl
        exact ⟨rfl, rfl⟩
      · exact ⟨rfl, rfl⟩

/-- An accurate job is added to the counters of its worker and algorithm. -/
theorem covered_finished {wInfo : WorkerInfo} {jobs : List Job} {a : String} {processed : Nat}
    {now : TimePoint} {elapsed : Nat} (covered : Covered wInfo w jobs)
    (positive : 0 ≤ measured wInfo now) (accurate : measured wInfo now * 1000000 ≤ elapsed)
    (bounded : spent (fun _ => true) (jobs ++ [⟨w, a, elapsed⟩]) < 2 ^ 64 * 1000000) :
    Grown wInfo (finished wInfo processed a now) ∧
      Covered (finished wInfo processed a now) w (jobs ++ [⟨w, a, elapsed⟩]) := by
  have own : ofWorker w ⟨w, a, elapsed⟩ = true := by simp [ofWorker]
  have ownAlgorithm : ofAlgorithm w a ⟨w, a, elapsed⟩ = true := by simp [ofAlgorithm]
  have total := (@spent_le_all (ofWorker w) (jobs ++ [⟨w, a, elapsed⟩])).trans_lt bounded
  have byAlgorithm :=
    (@spent_le_all (ofAlgorithm w a) (jobs ++ [⟨w, a, elapsed⟩])).trans_lt bounded
  rw [spent_snoc, if_pos own] at total
  rw [spent_snoc, if_pos ownAlgorithm] at byAlgorithm
  obtain ⟨totalGrown, totalWithin⟩ := add_workTime covered.1 positive accurate total
  obtain ⟨algoGrown, algoWithin⟩ := add_workTime (covered.2 a) positive accurate byAlgorithm
  refine ⟨⟨totalGrown, fun a' => ?_⟩, ?_, fun a' => ?_⟩
  · by_cases same : a' = a
    · subst same
      rw [finished, Finmap.lookup_insert]
      exact algoGrown
    · rw [finished, Finmap.lookup_insert_of_ne _ same]
      exact UInt64.le_refl _
  · rw [spent_snoc, if_pos own]
    exact totalWithin
  · by_cases same : a' = a
    · subst same
      rw [finished, Finmap.lookup_insert, spent_snoc, if_pos ownAlgorithm]
      exact algoWithin
    · rw [finished, Finmap.lookup_insert_of_ne _ same]
      exact (covered.2 a').mono spent_le_snoc

/-- One accurate call keeps the counters covered and lets none become smaller, for every
    worker. -/
theorem Covered.step (covered : ∀ w, Covered (s.recordOf w) w s.jobs) (plain : e.call.Plain)
    (accurate : Accurate s e) (bounded : spent (fun _ => true) t.jobs < 2 ^ 64 * 1000000)
    (h : s.step e = some t) :
    ∀ w, Grown (s.recordOf w) (t.recordOf w) ∧ Covered (t.recordOf w) w t.jobs := by
  intro w
  obtain ⟨repo, ⟨same, quiet⟩ | ⟨v, processed, a, now, wInfo, call, found, jobs⟩⟩ := step_cases h
  · obtain ⟨totals, algorithms⟩ := recordAfter_quiet plain (quiet w)
    have now : t.recordOf w = (recordAfter w (s.repo.workerRecords.lookup w) e.call).getD {} := by
      rw [recordOf, repo, lookup_perform]
    rw [now, same]
    constructor
    · rw [Grown, totals, algorithms]
      exact Grown.refl _
    · rw [Covered, totals, algorithms]
      exact covered w
  · have record : t.recordOf w =
        (recordAfter w (s.repo.workerRecords.lookup w) e.call).getD {} := by
      rw [recordOf, repo, lookup_perform]
    rw [jobs] at bounded ⊢
    rw [record, call, recordAfter]
    by_cases other : v = w
    · subst other
      rw [if_pos rfl, found, Option.map_some, Option.getD_some]
      simp only [Accurate, call, found] at accurate
      have own := covered v
      rw [recordOf, found, Option.getD_some] at own ⊢
      exact covered_finished own accurate.1 accurate.2 bounded
    · rw [if_neg other]
      exact ⟨Grown.refl _, (covered w).1.mono spent_le_snoc,
        fun a => ((covered w).2 a).mono spent_le_snoc⟩

/-- The time spent does not become less. -/
theorem spent_step (h : s.step e = some t) :
    spent (fun _ => true) s.jobs ≤ spent (fun _ => true) t.jobs := by
  obtain ⟨-, ⟨same, -⟩ | ⟨w, processed, a, now, wInfo, -, -, jobs⟩⟩ := step_cases h
  · rw [same]
  · rw [jobs]
    exact spent_le_snoc

theorem spent_exec (h : exec step s es = some t) :
    spent (fun _ => true) s.jobs ≤ spent (fun _ => true) t.jobs := by
  induction es generalizing s with
  | nil =>
      obtain rfl : s = t := by simpa using h
      exact le_refl _
  | cons e es ih =>
      obtain ⟨r, first, rest⟩ := exec_cons_some.mp h
      exact (spent_step first).trans (ih rest)

theorem Covered.exec (covered : ∀ w, Covered (s.recordOf w) w s.jobs)
    (plain : ∀ e ∈ es, e.call.Plain) (accurate : Along WorkClock.step Accurate s es)
    (bounded : spent (fun _ => true) t.jobs < 2 ^ 64 * 1000000)
    (h : Exec.exec WorkClock.step s es = some t) :
    ∀ w, Grown (s.recordOf w) (t.recordOf w) ∧ Covered (t.recordOf w) w t.jobs := by
  induction es generalizing s with
  | nil =>
      obtain rfl : s = t := by simpa using h
      exact fun w => ⟨Grown.refl _, covered w⟩
  | cons e es ih =>
      obtain ⟨r, first, rest⟩ := exec_cons_some.mp h
      rw [along_cons_some first] at accurate
      have now := Covered.step covered (plain e List.mem_cons_self) accurate.1
        ((spent_exec rest).trans_lt bounded) first
      have later := ih (fun w => (now w).2)
        (fun d member => plain d (List.mem_cons_of_mem e member)) accurate.2 rest
      exact fun w => ⟨(now w).1.trans (later w).1, (later w).2⟩

/-- The repository only becomes later. -/
theorem later_exec (h : exec step s es = some t) : s.repo.Later t.repo := by
  induction es generalizing s with
  | nil =>
      obtain rfl : s = t := by simpa using h
      exact Relation.ReflTransGen.refl
  | cons e es ih =>
      obtain ⟨r, first, rest⟩ := exec_cons_some.mp h
      have one : s.repo.Later (s.repo.after [e.call]) := later_after
      rw [after, List.foldl_cons, List.foldl_nil, ← (step_cases first).1] at one
      exact one.trans (ih rest)

end WorkClock

end WorkerInfoRepository

open Exec WorkerInfoRepository WorkClock

/-- As long as every finished job is measured accurately and less than `2^64` milliseconds
    are spent in total, no counter of work time ever decreases, and none exceeds the time
    really spent on the jobs it counts. -/
theorem workTime_accurate (es later : List TimedCall) (s t : WorkClock)
    (plain : ∀ e ∈ es ++ later, e.call.Plain)
    (accurate : Along WorkClock.step Accurate {} (es ++ later))
    (run : exec WorkClock.step {} es = some s) (onward : exec WorkClock.step s later = some t)
    (bounded : spent (fun _ => true) t.jobs < 2 ^ 64 * 1000000) :
    (∀ w wInfo, s.repo.getWorkerInfo w = some wInfo →
      ∃ wInfo', t.repo.getWorkerInfo w = some wInfo' ∧
        wInfo.totalStats.workTime ≤ wInfo'.totalStats.workTime ∧
        ∀ a, ((wInfo.statsByAlgorithm.lookup a).getD {}).workTime ≤
          ((wInfo'.statsByAlgorithm.lookup a).getD {}).workTime) ∧
    ∀ w wInfo, t.repo.getWorkerInfo w = some wInfo →
      wInfo.totalStats.workTime.toNat * 1000000 ≤ spent (ofWorker w) t.jobs ∧
      ∀ a, ((wInfo.statsByAlgorithm.lookup a).getD {}).workTime.toNat * 1000000 ≤
        spent (ofAlgorithm w a) t.jobs := by
  have start : ∀ w, Covered (recordOf {} w) w [] := by
    intro w
    simp [Covered, Within, recordOf, WorkerInfoRepository.empty, spent]
  rw [along_append run] at accurate
  have before := Covered.exec start (fun e member => plain e (List.mem_append_left later member))
    accurate.1 ((spent_exec onward).trans_lt bounded) run
  have after := Covered.exec (fun w => (before w).2)
    (fun e member => plain e (List.mem_append_right es member)) accurate.2 bounded onward
  constructor
  · intro w wInfo found
    have kept := (later_exec onward).keeps_record (Finmap.mem_of_lookup_eq_some found)
    obtain ⟨wInfo', found'⟩ := Finmap.mem_iff.mp kept
    have grown := (after w).1
    rw [recordOf, recordOf, found', show s.repo.workerRecords.lookup w = some wInfo from found]
      at grown
    exact ⟨wInfo', found', grown⟩
  · intro w wInfo found
    have covered := (after w).2
    rw [recordOf, show t.repo.workerRecords.lookup w = some wInfo from found] at covered
    exact covered

/-- A job of 3 milliseconds on a clock that is 7 nanoseconds slow at its end. -/
def accurateJob : List TimedCall :=
  [⟨0, .workerJoined "w" {}⟩, ⟨1000000, .workerStartedWork "w" 5000000⟩,
    ⟨4000000, .workerFinishedWork "w" 20 "de" 7999993⟩]

theorem workTime_accurate_job :
    ∃ t, exec WorkClock.step {} accurateJob = some t ∧
      ∀ w wInfo, t.repo.getWorkerInfo w = some wInfo →
        wInfo.totalStats.workTime.toNat * 1000000 ≤ spent (ofWorker w) t.jobs := by
  refine ⟨_, rfl, fun w wInfo found => ?_⟩
  exact ((workTime_accurate accurateJob [] _ _ (by decide) (by decide) rfl rfl (by decide)).2 w
    wInfo found).1

/-- The same job, and then one at whose end the clock has been set back by 6 milliseconds. -/
def clockSetBack : List TimedCall :=
  accurateJob ++ [⟨5000000, .workerStartedWork "w" 9000000⟩,
    ⟨6000000, .workerFinishedWork "w" 20 "de" 3999993⟩]

theorem workTime_wraps :
    ∃ s t, exec WorkClock.step {} accurateJob = some s ∧
      exec WorkClock.step {} clockSetBack = some t ∧
      (s.repo.getWorkerInfo "w").map (·.totalStats.workTime) = some 2 ∧
      (t.repo.getWorkerInfo "w").map (·.totalStats.workTime) = some (0 - 3) ∧
      spent (fun _ => true) t.jobs = 4000000 :=
  ⟨_, _, rfl, rfl, rfl, rfl, rfl⟩

end Metasolver
