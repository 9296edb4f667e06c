import Mathlib.Data.UInt
import Metasolver.Controller.RepositoryCalls

/-!
# The statistics of the workers

Any sequence of calls on the repository, of any workers and in any order.  A call that
throws is over for its caller, and the next one finds the repository as it was (`perform`).

A call changes the record of its own worker only, and what becomes of one record follows from
the calls alone (`recordAfter`, `lookup_after`).  The run lemmas about the counters are
inductions over the calls on one record.
-/

namespace Metasolver

namespace WorkerInfoRepository

variable {repo repo' : WorkerInfoRepository} {w v : WorkerId} {a : String} {c : Call}
  {cs : List Call}

/-- The repository after a call, whether it has returned or thrown. -/
def perform (repo : WorkerInfoRepository) (c : Call) : WorkerInfoRepository :=
  match repo.call c with
  | .ok repo' => repo'
  | .error _ => repo

/-- The repository after any number of calls. -/
def after (repo : WorkerInfoRepository) (cs : List Call) : WorkerInfoRepository :=
  cs.foldl perform repo

/-- A repository without records. -/
def empty : WorkerInfoRepository := ⟨∅, ∅⟩

/-- The worker a call is about. -/
def Call.worker : Call → WorkerId
  | .workerJoined workerID _ => workerID
  | .workerLeft workerID => workerID
  | .workerStartedWork workerID _ => workerID
  | .workerFinishedWork workerID _ _ _ => workerID

/-- `worker_joined` with its default argument, or another call. -/
def Call.Plain : Call → Prop
  | .workerJoined _ info => info = {}
  | _ => True

instance (c : Call) : Decidable c.Plain := by
  unfold Call.Plain
  split <;> infer_instance

/-- What a call does to the record of `w`, if there is one. -/
def recordAfter (w : WorkerId) (record : Option WorkerInfo) : Call → Option WorkerInfo
  | .workerJoined v info => if v = w then some (record.getD info) else record
  | .workerLeft _ => record
  | .workerStartedWork v now =>
      if v = w then record.map fun wInfo => { wInfo with lastWorkStartTime := now } else record
  | .workerFinishedWork v processedPopulation algoName now =>
      if v = w then record.map fun wInfo => finished wInfo processedPopulation algoName now
      else record

/-- A call that changes a record changes it in place, or throws because there is none. -/
theorem lookup_modifyRecord {function : String} {change : WorkerInfo → WorkerInfo} :
    (match repo.modifyRecord function v change with
      | .ok repo' => repo'
      | .error _ => repo).workerRecords.lookup w =
      if v = w then (repo.workerRecords.lookup w).map change else repo.workerRecords.lookup w := by
  unfold modifyRecord
  by_cases same : v = w
  · subst same
    rw [if_pos rfl]
    cases found : repo.workerRecords.lookup v with
    | none => exact found
    | some wInfo => exact Finmap.lookup_insert _
  · rw [if_neg same]
    cases repo.workerRecords.lookup v with
    | none => rfl
    | some wInfo => exact Finmap.lookup_insert_of_ne _ (Ne.symm same)

theorem lookup_perform : (repo.perform c).workerRecords.lookup w =
    recordAfter w (repo.workerRecords.lookup w) c := by
  cases c with
  | workerJoined v info =>
      by_cases same : v = w
      · subst same
        rw [recordAfter, if_pos rfl]
        exact UnorderedMap.lookup_emplace_self
      · rw [recordAfter, if_neg same]
        exact UnorderedMap.lookup_emplace_of_ne (Ne.symm same)
  | workerLeft v => rfl
  | workerStartedWork v now => exact lookup_modifyRecord
  | workerFinishedWork v processed algoName now => exact lookup_modifyRecord

theorem getWorkerInfo_of_call (h : repo.call c = .ok repo') :
    repo'.getWorkerInfo w = recordAfter w (repo.getWorkerInfo w) c := by
  rw [getWorkerInfo, getWorkerInfo, ← lookup_perform, perform, h]

theorem lookup_after : (repo.after cs).workerRecords.lookup w =
    cs.foldl (recordAfter w) (repo.workerRecords.lookup w) := by
  induction cs generalizing repo with
  | nil => rfl
  | cons c cs ih =>
      rw [after, List.foldl_cons, List.foldl_cons, ← lookup_perform]
      exact ih

/-- The record of another worker is left alone. -/
theorem recordAfter_of_ne {record : Option WorkerInfo} (other : c.worker ≠ w) :
    recordAfter w record c = record := by
  cases c with
  | workerLeft v => rfl
  | workerJoined v info => exact if_neg other
  | workerStartedWork v now => exact if_neg other
  | workerFinishedWork v processed algoName now => exact if_neg other

/-- Only calls about work without a record throw, and they leave everything as it was. -/
theorem call_error {e : Exn} (thrown : repo.call c = .error e) :
    c.worker ∉ repo.workerRecords ∧ repo.perform c = repo := by
  refine ⟨fun record => ?_, by rw [perform, thrown]⟩
  cases c with
  | workerJoined v info => cases thrown
  | workerLeft v => cases thrown
  | workerStartedWork v now =>
      obtain ⟨repo', returned⟩ := modifyRecord_of_mem record
      cases returned.symm.trans thrown
  | workerFinishedWork v processed algoName now =>
      obtain ⟨repo', returned⟩ := modifyRecord_of_mem record
      cases returned.symm.trans thrown

/-- A call that does not throw leads to a repository that is later. -/
theorem later_after : repo.Later (repo.after cs) := by
  induction cs generalizing repo with
  | nil => exact Relation.ReflTransGen.refl
  | cons c cs ih =>
      rw [after, List.foldl_cons]
      have rest : (repo.perform c).Later ((repo.perform c).after cs) := ih
      rw [perform] at rest ⊢
      cases run : repo.call c with
      | error e =>
          rw [run] at rest
          exact rest
      | ok repo' =>
          rw [run] at rest
          exact Relation.ReflTransGen.head ⟨c, run⟩ rest

/-! ## Sums of the counters -/

/-- The totals are the sums over all algorithms, in both fields. -/
structure Balanced (wInfo : WorkerInfo) : Prop where
  workTime : wInfo.totalStats.workTime =
    ((UnorderedMap.bag wInfo.statsByAlgorithm).map fun p => p.2.workTime).sum
  processedPopulation : wInfo.totalStats.processedPopulation =
    ((UnorderedMap.bag wInfo.statsByAlgorithm).map fun p => p.2.processedPopulation).sum

theorem Balanced.finished {wInfo : WorkerInfo} (h : Balanced wInfo) (processed : Nat)
    (algoName : String) (now : TimePoint) :
    Balanced (finished wInfo processed algoName now) where
  workTime := by
    rw [WorkerInfoRepository.finished]
    rw [UnorderedMap.sum_bag_insert (f := WorkStats.workTime) rfl rfl, ← h.workTime]
    rfl
  processedPopulation := by
    rw [WorkerInfoRepository.finished]
    rw [UnorderedMap.sum_bag_insert (f := WorkStats.processedPopulation) rfl rfl,
      ← h.processedPopulation]
    rfl

theorem Balanced.recordAfter {record : Option WorkerInfo} (h : ∀ wInfo ∈ record, Balanced wInfo)
    (plain : c.Plain) : ∀ wInfo ∈ recordAfter w record c, Balanced wInfo := by
  cases c with
  | workerLeft v => exact h
  | workerJoined v info =>
      obtain rfl : info = {} := plain
      rw [WorkerInfoRepository.recordAfter]
      split_ifs with same
      · intro wInfo is
        obtain rfl := Option.some.inj is
        cases record with
        | none => exact ⟨rfl, rfl⟩
        | some wInfo => exact h wInfo rfl
      · exact h
  | workerStartedWork v now =>
      rw [WorkerInfoRepository.recordAfter]
      split_ifs with same
      · intro wInfo is
        obtain ⟨old, found, rfl⟩ := Option.map_eq_some_iff.mp is
        exact ⟨(h old found).workTime, (h old found).processedPopulation⟩
      · exact h
  | workerFinishedWork v processed algoName now =>
      rw [WorkerInfoRepository.recordAfter]
      split_ifs with same
      · intro wInfo is
        obtain ⟨old, found, rfl⟩ := Option.map_eq_some_iff.mp is
        exact (h old found).finished processed algoName now
      · exact h

theorem Balanced.after {record : Option WorkerInfo} (h : ∀ wInfo ∈ record, Balanced wInfo)
    (plain : ∀ c ∈ cs, c.Plain) :
    ∀ wInfo ∈ cs.foldl (WorkerInfoRepository.recordAfter w) record, Balanced wInfo := by
  induction cs generalizing record with
  | nil => exact h
  | cons c cs ih =>
      exact ih (Balanced.recordAfter h (plain c List.mem_cons_self)) fun d member =>
        plain d (List.mem_cons_of_mem c member)

/-! ## What each algorithm has been credited -/

/-- The populations of the calls by which `w` has finished work with algorithm `a`.  The
    calls before `w` has `joined` for the first time are the ones that throw. -/
def finishedPopulations (w : WorkerId) (a : String) : (joined : Bool) → List Call → List Nat
  | _, [] => []
  | joined, .workerJoined v _ :: cs => finishedPopulations w a (joined || v = w) cs
  | joined, .workerFinishedWork v processedPopulation algoName _ :: cs =>
      if joined = true ∧ v = w ∧ algoName = a then
        processedPopulation :: finishedPopulations w a joined cs
      else finishedPopulations w a joined cs
  | joined, .workerLeft _ :: cs => finishedPopulations w a joined cs
  | joined, .workerStartedWork _ _ :: cs => finishedPopulations w a joined cs

/-- `statsByAlgorithm[a].processedPopulation`, zero without an entry. -/
def creditedPopulation (a : String) (record : Option WorkerInfo) : UInt64 :=
  ((record.bind fun wInfo => wInfo.statsByAlgorithm.lookup a).getD {}).processedPopulation

/-- A finished call is credited to its algorithm and no other. -/
theorem creditedPopulation_finished {wInfo : WorkerInfo} {algoName : String} {processed : Nat}
    {now : TimePoint} :
    creditedPopulation a (some (finished wInfo processed algoName now)) =
      creditedPopulation a (some wInfo) +
        UInt64.ofNat (if algoName = a then processed else 0) := by
  by_cases same : algoName = a
  · subst same
    rw [if_pos rfl]
    simp only [creditedPopulation, Option.bind_some, finished, Finmap.lookup_insert,
      Option.getD_some]
    rfl
  · rw [if_neg same]
    simp only [creditedPopulation, Option.bind_some, finished,
      Finmap.lookup_insert_of_ne _ (Ne.symm same)]
    exact (UInt64.add_zero _).symm

theorem creditedPopulation_after {record : Option WorkerInfo} (plain : ∀ c ∈ cs, c.Plain) :
    creditedPopulation a (cs.foldl (recordAfter w) record) = creditedPopulation a record +
      UInt64.ofNat (finishedPopulations w a record.isSome cs).sum := by
  induction cs generalizing record with
  | nil => exact (UInt64.add_zero _).symm
  | cons c cs ih =>
      rw [List.foldl_cons, ih fun d member => plain d (List.mem_cons_of_mem c member)]
      cases c with
      | workerLeft v => rfl
      | workerJoined v info =>
          obtain rfl : info = {} := plain _ List.mem_cons_self
          rw [recordAfter, finishedPopulations]
          by_cases same : v = w
          · cases record <;> simp [same, creditedPopulation]
          · simp [same]
      | workerStartedWork v now =>
          rw [recordAfter, finishedPopulations]
          by_cases same : v = w
          · cases record <;> simp [same, creditedPopulation]
          · simp [same]
      | workerFinishedWork v processed algoName now =>
          rw [recordAfter, finishedPopulations]
          by_cases same : v = w
          · subst same
            cases record with
            | none => simp
            | some wInfo =>
                rw [if_pos rfl, Option.map_some, creditedPopulation_finished]
                by_cases credited : algoName = a
                · simp [credited, UInt64.ofNat_add, UInt64.add_assoc]
                · simp [credited]
          · simp [same]

/-- A worker has a record from the time it has joined. -/
theorem isSome_after {record : Option WorkerInfo} :
    (cs.foldl (recordAfter w) record).isSome = true ↔
      record.isSome = true ∨ ∃ info, .workerJoined w info ∈ cs := by
  induction cs generalizing record with
  | nil => simp
  | cons c cs ih =>
      rw [List.foldl_cons, ih]
      cases c with
      | workerLeft v => simp [recordAfter]
      | workerJoined v info =>
          by_cases same : v = w
          · simp [recordAfter, same]
          · simp [recordAfter, same, Ne.symm same]
      | workerStartedWork v now => simp [recordAfter, apply_ite Option.isSome]
      | workerFinishedWork v processed algoName now =>
          simp [recordAfter, apply_ite Option.isSome]

end WorkerInfoRepository

open WorkerInfoRepository

/-- After any calls on an empty repository, each worker has been credited what it has
    finished, its totals are the sums over all algorithms, and the connected workers have
    records; a further call changes at most the record of its own worker, by leaving or
    joining again not even that, and if it throws nothing at all. -/
theorem statistics_conserved (cs : List Call) (plain : ∀ c ∈ cs, c.Plain) :
    (∀ w wInfo, (empty.after cs).getWorkerInfo w = some wInfo →
      (∀ a, ((wInfo.statsByAlgorithm.lookup a).getD {}).processedPopulation =
        UInt64.ofNat (finishedPopulations w a false cs).sum) ∧
      wInfo.totalStats.workTime =
        ((UnorderedMap.bag wInfo.statsByAlgorithm).map fun p => p.2.workTime).sum ∧
      wInfo.totalStats.processedPopulation =
        ((UnorderedMap.bag wInfo.statsByAlgorithm).map fun p => p.2.processedPopulation).sum) ∧
    (∀ w, w ∈ (empty.after cs).workerRecords ↔ ∃ info, .workerJoined w info ∈ cs) ∧
    (∀ w ∈ (empty.after cs).connectedWorkers, w ∈ (empty.after cs).workerRecords) ∧
    ∀ c : Call,
      (∀ w, c.worker ≠ w →
        ((empty.after cs).perform c).getWorkerInfo w = (empty.after cs).getWorkerInfo w) ∧
      (∀ v info, c = .workerLeft v ∨ c = .workerJoined v info →
        ∀ w ∈ (empty.after cs).workerRecords,
          ((empty.after cs).perform c).getWorkerInfo w = (empty.after cs).getWorkerInfo w) ∧
      (∀ e, (empty.after cs).call c = .error e →
        c.worker ∉ (empty.after cs).workerRecords ∧
          (empty.after cs).perform c = empty.after cs) := by
  have none_ : ∀ w, empty.workerRecords.lookup w = none := fun w => Finmap.lookup_empty w
  refine ⟨fun w wInfo found => ?_, fun w => ?_, later_after.recorded (recorded_start ∅),
    fun c => ⟨fun w other => ?_, fun v info quiet w record => ?_, fun e => call_error⟩⟩
  · rw [getWorkerInfo, lookup_after, none_] at found
    have fresh : ∀ wInfo ∈ (none : Option WorkerInfo), Balanced wInfo := by simp
    have balanced := Balanced.after fresh plain wInfo found
    refine ⟨fun a => ?_, balanced.workTime, balanced.processedPopulation⟩
    have credited := @creditedPopulation_after w a cs none plain
    rw [found] at credited
    exact credited.trans (UInt64.zero_add _)
  · rw [← Finmap.lookup_isSome, lookup_after, none_, isSome_after]
    simp
  · rw [getWorkerInfo, lookup_perform]
    exact recordAfter_of_ne other
  · obtain ⟨wInfo, found⟩ := Finmap.mem_iff.mp record
    rw [getWorkerInfo, lookup_perform, getWorkerInfo, found]
    rcases quiet with rfl | rfl
    · rfl
    · rw [recordAfter, Option.getD_some, ite_self]

/-- A call before the worker has joined, two jobs, and a departure with a return. -/
def twoJobs : List Call :=
  [.workerFinishedWork "w" 9 "de" 1, .workerJoined "w" {}, .workerStartedWork "w" 1000000,
    .workerFinishedWork "w" 20 "de" 5000000, .workerLeft "w", .workerJoined "w" {},
    .workerFinishedWork "w" 4 "de" 6000000]

theorem statistics_conserved_two_jobs :
    finishedPopulations "w" "de" false twoJobs = [20, 4] ∧
      ∀ w wInfo, (empty.after twoJobs).getWorkerInfo w = some wInfo →
        ∀ a, ((wInfo.statsByAlgorithm.lookup a).getD {}).processedPopulation =
          UInt64.ofNat (finishedPopulations w a false twoJobs).sum :=
  ⟨by decide, fun w wInfo found a =>
    ((statistics_conserved twoJobs (by decide)).1 w wInfo found).1 a⟩

end Metasolver
