import Metasolver.Controller.Statistics
import Metasolver.Settings.Journal

/-!
# The statistics of the workers over restarts

The controller keeps its repository in its settings (`controller_settings`), and reaches it
by `_settings().workerInfo` only.  The connected workers and the time at which a job has
started are not serialized.  What a worker has been credited is: it follows from the calls in
the journal alone, as if there had been one process (`statistics_survive_restarts`).
-/

namespace Metasolver

open WorkerInfoRepository

/-- What `worker_info::serialize` passes to an archive (`worker_info_repository.h:56-61`). -/
structure SavedInfo where
  totalStats : WorkStats
  statsByAlgorithm : UnorderedMap String WorkStats
  deriving DecidableEq

def WorkerInfo.saved (wInfo : WorkerInfo) : SavedInfo :=
  ⟨wInfo.totalStats, wInfo.statsByAlgorithm⟩

/-- A default-constructed `worker_info` that has been loaded. -/
def SavedInfo.loaded (x : SavedInfo) : WorkerInfo :=
  { totalStats := x.totalStats, statsByAlgorithm := x.statsByAlgorithm }

/-- `controller_settings` (`controller_settings.h:8-29`). -/
structure ControllerSettings where
  workerInfo : WorkerInfoRepository

namespace ControllerSettings

/-- Its `initialize` is empty (`controller_settings.cpp:3-5`), and `serialize` passes
    `_workerRecords`. -/
def struct : SettingsStruct ControllerSettings (UnorderedMap WorkerId SavedInfo) Unit where
  default := ⟨empty⟩
  initializeFields _ s := s
  output s := UnorderedMap.mapValues WorkerInfo.saved s.workerInfo.workerRecords
  input x s :=
    ⟨{ s.workerInfo with workerRecords := UnorderedMap.mapValues SavedInfo.loaded x }⟩

/-- A call on `_settings().workerInfo`. -/
def perform (s : ControllerSettings) (c : Call) : ControllerSettings :=
  ⟨s.workerInfo.perform c⟩

end ControllerSettings

namespace Settings

/-- An entry of the journal of the controller. -/
abbrev ControllerEntry := Entry (UnorderedMap WorkerId SavedInfo) Unit Call

/-- The record of `w` that the object has. -/
def recordOf (w : WorkerId) (v : ControllerSettings) : Option WorkerInfo :=
  v.workerInfo.workerRecords.lookup w

variable {w : WorkerId} {v : ControllerSettings} {record record' : Option WorkerInfo} {c : Call}
  {entries : List ControllerEntry}

theorem recordOf_perform : recordOf w (v.perform c) = recordAfter w (recordOf w v) c :=
  lookup_perform

theorem recordOf_reloaded : recordOf w (SettingsStruct.reloaded ControllerSettings.struct v) =
    (recordOf w v).map fun wInfo => wInfo.saved.loaded := by
  change (UnorderedMap.mapValues SavedInfo.loaded
    (UnorderedMap.mapValues WorkerInfo.saved v.workerInfo.workerRecords)).lookup w = _
  rw [UnorderedMap.lookup_mapValues, UnorderedMap.lookup_mapValues, Option.map_map]
  rfl

/-! ## What a record has been credited -/

/-- Both workers have a record or none has, with the same population for each algorithm. -/
def SameCredit (record record' : Option WorkerInfo) : Prop :=
  record.isSome = record'.isSome ∧
    ∀ a, creditedPopulation a record = creditedPopulation a record'

theorem SameCredit.recordAfter (same : SameCredit record record') (plain : c.Plain) :
    SameCredit (recordAfter w record c) (recordAfter w record' c) := by
  constructor
  · have left := @isSome_after w [c] record
    have right := @isSome_after w [c] record'
    rw [same.1, ← right] at left
    exact Bool.eq_iff_iff.mpr left
  · intro a
    have plain' : ∀ d ∈ [c], d.Plain := fun d member => List.mem_singleton.mp member ▸ plain
    have left := @creditedPopulation_after w a [c] record plain'
    have right := @creditedPopulation_after w a [c] record' plain'
    rw [List.foldl_cons, List.foldl_nil] at left right
    rw [left, right, same.1, same.2 a]

theorem SameCredit.reloaded (same : SameCredit record record') :
    SameCredit (record.map fun wInfo => wInfo.saved.loaded) record' := by
  constructor
  · rw [Option.isSome_map]
    exact same.1
  · intro a
    rw [← same.2 a]
    cases record <;> rfl

/-- A start of the controller leaves the totals as they are. -/
theorem balanced_reloaded (balanced : ∀ wInfo ∈ record, WorkerInfoRepository.Balanced wInfo) :
    ∀ wInfo ∈ record.map fun wInfo => wInfo.saved.loaded, WorkerInfoRepository.Balanced wInfo := by
  intro wInfo is
  obtain ⟨old, found, rfl⟩ := Option.map_eq_some_iff.mp is
  exact ⟨(balanced old found).workTime, (balanced old found).processedPopulation⟩

/-- Starts and calls behind the first entry. -/
theorem credited_entries (first : ∀ drawn, .initialized drawn ∉ entries)
    (whole : ∀ x, .salvaged x ∉ entries) (plain : ∀ c ∈ entries.filterMap Entry.op?, c.Plain)
    (same : SameCredit (recordOf w v) record)
    (balanced : ∀ wInfo ∈ recordOf w v, WorkerInfoRepository.Balanced wInfo) :
    SameCredit (recordOf w (entries.foldl
        (Entry.replay ControllerSettings.struct ControllerSettings.perform) v))
      ((entries.filterMap Entry.op?).foldl (recordAfter w) record) ∧
    ∀ wInfo ∈ recordOf w (entries.foldl
      (Entry.replay ControllerSettings.struct ControllerSettings.perform) v),
        WorkerInfoRepository.Balanced wInfo := by
  induction entries generalizing v record with
  | nil => exact ⟨same, balanced⟩
  | cons entry entries ih =>
      rw [List.foldl_cons]
      have first' := fun drawn member => first drawn (List.mem_cons_of_mem entry member)
      have whole' := fun x member => whole x (List.mem_cons_of_mem entry member)
      cases entry with
      | initialized drawn => exact absurd List.mem_cons_self (first drawn)
      | salvaged x => exact absurd List.mem_cons_self (whole x)
      | reloaded =>
          refine ih first' whole' plain ?_ ?_
          · rw [Entry.replay, recordOf_reloaded]
            exact same.reloaded
          · rw [Entry.replay, recordOf_reloaded]
            exact balanced_reloaded balanced
      | changed c =>
          have isPlain : c.Plain := plain c List.mem_cons_self
          refine ih first' whole' (fun d member => plain d (List.mem_cons_of_mem c member)) ?_ ?_
          · rw [Entry.replay, recordOf_perform]
            exact same.recordAfter isPlain
          · rw [Entry.replay, recordOf_perform]
            exact WorkerInfoRepository.Balanced.recordAfter balanced isPlain

/-- All entries of a journal: nobody has a record at first. -/
theorem credited_replay (begun : Begun entries) (whole : ∀ x, .salvaged x ∉ entries)
    (plain : ∀ c ∈ entries.filterMap Entry.op?, c.Plain) :
    SameCredit
      (recordOf w (replay ControllerSettings.struct ControllerSettings.perform entries))
      ((entries.filterMap Entry.op?).foldl (recordAfter w) none) ∧
    ∀ wInfo ∈ recordOf w (replay ControllerSettings.struct ControllerSettings.perform entries),
      WorkerInfoRepository.Balanced wInfo := by
  have nothing : recordOf w ControllerSettings.struct.default = none := Finmap.lookup_empty w
  have same : SameCredit (recordOf w ControllerSettings.struct.default) none := by
    rw [nothing]
    exact ⟨rfl, fun a => rfl⟩
  have balanced : ∀ wInfo ∈ recordOf w ControllerSettings.struct.default,
      WorkerInfoRepository.Balanced wInfo := by
    rw [nothing]
    intro wInfo impossible
    cases impossible
  rw [replay]
  cases entries with
  | nil => exact ⟨same, balanced⟩
  | cons entry entries =>
      have whole' := fun x member => whole x (List.mem_cons_of_mem entry member)
      have fresh := begun.head entry rfl
      cases entry with
      | initialized drawn =>
          rw [List.foldl_cons, List.filterMap_cons_none rfl] at *
          exact credited_entries begun.tail whole' plain same balanced
      | salvaged x => exact absurd List.mem_cons_self (whole x)
      | reloaded => exact fresh.elim
      | changed c => exact fresh.elim

end Settings

open Settings

/-- Over all processes with one settings file, none of which has come up on a torn file: the
    repository of the running controller has credited each worker exactly the populations of
    the calls in the journal, its totals are the sums over all algorithms, and it has a record
    of the workers that have joined.  These calls are the calls that were made, in their order,
    but for one for each process that has crashed or could not save at its end, and for those
    behind a save that has torn the file and told nobody. -/
theorem statistics_survive_restarts {β : Type}
    {archive : XmlArchive (UnorderedMap WorkerId SavedInfo) β} {settingsPath : String}
    {events : List (Event Call Unit β)} {t : Store ControllerSettings β}
    (roundTrips : archive.RoundTrips)
    (plain : ∀ c ∈ events.filterMap (Event.op? true), c.Plain)
    (whole : ∀ x, .salvaged x ∉ (History.after archive true events).journal.entries)
    (run : Exec.exec (step ControllerSettings.struct archive settingsPath true
      ControllerSettings.perform) Store.start events = some t) :
    ∃ kept : List Call, kept.Sublist (events.filterMap (Event.op? true)) ∧
      (events.filterMap (Event.op? true)).length ≤ kept.length + events.countP Event.spoils ∧
      ∀ v, t.object = some v → ∀ w,
        (w ∈ v.workerInfo.workerRecords ↔ ∃ info, .workerJoined w info ∈ kept) ∧
        ∀ wInfo, v.workerInfo.getWorkerInfo w = some wInfo →
          (∀ a, ((wInfo.statsByAlgorithm.lookup a).getD {}).processedPopulation =
            UInt64.ofNat (finishedPopulations w a false kept).sum) ∧
          wInfo.totalStats.workTime =
            ((UnorderedMap.bag wInfo.statsByAlgorithm).map fun p => p.2.workTime).sum ∧
          wInfo.totalStats.processedPopulation =
            ((UnorderedMap.bag wInfo.statsByAlgorithm).map fun p =>
              p.2.processedPopulation).sum := by
  have sub : ((History.after archive true events).journal.entries.filterMap Entry.op?).Sublist
      (events.filterMap (Event.op? true)) := ops_after
  have missing := missing_exec roundTrips run
  have begun := begun_exec roundTrips run
  have rep := represents_exec roundTrips run
  refine ⟨_, sub, Nat.le_trans (Nat.le_add_right _ _) missing, fun v is w => ?_⟩
  have plain' := fun c member => plain c (sub.subset member)
  obtain ⟨same, balanced⟩ := credited_replay (w := w) begun whole plain'
  rw [← rep.object v is] at same balanced
  constructor
  · rw [← Finmap.lookup_isSome, ← recordOf, same.1, isSome_after]
    simp
  · intro wInfo found
    have found : recordOf w v = some wInfo := found
    rw [found] at same balanced
    refine ⟨fun a => ?_, (balanced wInfo rfl).workTime, (balanced wInfo rfl).processedPopulation⟩
    have credited := @creditedPopulation_after w a _ none plain'
    exact (same.2 a).trans (credited.trans (UInt64.zero_add _))

/-- A job that is written out at the end of the first process, and one that a crash of the
    second loses. -/
def oneJobLost : List (Event Call Unit (UnorderedMap WorkerId SavedInfo)) :=
  [.starts true (), .changes .written (.workerJoined "w" {}),
    .changes .written (.workerFinishedWork "w" 20 "de" 5), .stops .written, .starts true (),
    .changes .written (.workerFinishedWork "w" 4 "de" 6), .crashes, .starts true ()]

theorem statistics_survive_restarts_crash :
    ∃ t, Exec.exec (step ControllerSettings.struct (plainArchive _) "controller.xml" true
        ControllerSettings.perform) Store.start oneJobLost = some t ∧
      ∃ kept : List Call, kept.Sublist (oneJobLost.filterMap (Event.op? true)) ∧
        3 ≤ kept.length + 1 ∧
        ∀ v, t.object = some v → ∀ w wInfo, v.workerInfo.getWorkerInfo w = some wInfo →
          ∀ a, ((wInfo.statsByAlgorithm.lookup a).getD {}).processedPopulation =
            UInt64.ofNat (finishedPopulations w a false kept).sum := by
  obtain ⟨t, run⟩ : ∃ t, Exec.exec (step ControllerSettings.struct (plainArchive _)
      "controller.xml" true ControllerSettings.perform) Store.start oneJobLost = some t := ⟨_, rfl⟩
  have entries : (History.after (plainArchive _) true oneJobLost).journal.entries =
      [.initialized (), .changed (.workerJoined "w" {}),
        .changed (.workerFinishedWork "w" 20 "de" 5), .reloaded, .reloaded] := rfl
  have whole : ∀ x, .salvaged x ∉
      (History.after (plainArchive _) true oneJobLost).journal.entries := by
    rw [entries]
    simp
  obtain ⟨kept, sub, missing, credits⟩ :=
    statistics_survive_restarts (fun _ => rfl) (by decide) whole run
  exact ⟨t, run, kept, sub, missing, fun v is w wInfo found => ((credits v is w).2 wInfo found).1⟩

end Metasolver
