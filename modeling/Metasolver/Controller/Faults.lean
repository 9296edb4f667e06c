import Metasolver.Controller.Outcome

/-!
# Handlers that throw

A handler changes the members of the controller one after another, and what it calls can
throw between two of them: `vector_deserialize` in `_allocate_worker_to_island`, the save
of the settings in `_settings()`, the two functions of the repository that look for a
record, and `at` on the allocation map (`distributed_controller.cpp:35-67`, `113-179`).
The repository looks first and writes later, and so does the lookup of `WORKER_LEAVE`; the
other paths do not.

`Kept` compares the members before and after.  `Safe` says for which messages nothing
throws after the first write.
-/

namespace Metasolver

namespace Controller

variable {β Algo Pop : Type} {archive : Archive β Algo Pop} {env : Surroundings}
  {c c' : Controller β} {i : IslandId} {d binary : β} {w : WorkerId} {e : Exn}

/-- No request is dropped, no worker lost and no work credited. -/
structure Kept (c c' : Controller β) : Prop where
  waiting : c'.islandsWaitingForAlloc = c.islandsWaitingForAlloc
  free : c'.freeWorkersPool = c.freeWorkersPool
  allocated : c'.workAllocationMap = c.workAllocationMap
  statistics : c'.workerInfo.workerRecords = c.workerInfo.workerRecords

theorem Kept.refl (c : Controller β) : Kept c c := ⟨rfl, rfl, rfl, rfl⟩

/-- The settings can be saved, and every worker that `_allocate_worker_to_island` can select
    has a record. -/
def Startable (archive : Archive β Algo Pop) (env : Surroundings) (d : β)
    (pool recorded : Finset WorkerId) : Prop :=
  ∀ wct, archive.workContainer d = .ok wct → env.startSave = .ok () ∧
    ∀ w, chooseWorker env wct.preferredWorkerId pool = some w → w ∈ recorded

/-- `_allocate_worker_to_island` throws nothing. -/
def Placeable (archive : Archive β Algo Pop) (env : Surroundings) (d : β)
    (pool recorded : Finset WorkerId) : Prop :=
  archive.Reads d ∧ Startable archive env d pool recorded

/-- Crediting the results would leave the record of the worker as it is. -/
def CreditsNothing (archive : Archive β Algo Pop) (env : Surroundings)
    (wct : WorkContainer Algo Pop) (wInfo : WorkerInfo) : Prop :=
  UInt64.ofInt ((env.finishTime - wInfo.lastWorkStartTime).tdiv 1000000) = 0 ∧
    UInt64.ofNat (archive.size wct.pop) = 0 ∧ archive.getName wct.algo ∈ wInfo.statsByAlgorithm

/-- The island that would be served next can be. -/
def NextPlaceable (archive : Archive β Algo Pop) (env : Surroundings) (c : Controller β)
    (pool recorded : Finset WorkerId) : Prop :=
  ∀ p, UnorderedMap.begin env.waitingOrder c.islandsWaitingForAlloc = some p →
    Placeable archive env p.2 pool recorded

/-- Nothing throws in the handler of the message once it has written. -/
def Safe (archive : Archive β Algo Pop) (env : Surroundings) (c : Controller β) :
    Incoming β → Prop
  | .fromWorker w .workerJoin =>
      w ∉ c.freeWorkersPool → env.noticeSave = .ok () →
        NextPlaceable archive env c (insert w c.freeWorkersPool)
          (insert w c.workerInfo.workerRecords.keys)
  | .fromWorker w .workerLeave =>
      -- the worker has been taken out of the pool before the save
      if env.noticeSave = .ok () then
        ∀ record, c.workAllocationMap.lookup w = some record →
          c.freeWorkersPool.erase w ≠ ∅ →
            Placeable archive env record.workData (c.freeWorkersPool.erase w)
              c.workerInfo.workerRecords.keys
      else w ∉ c.freeWorkersPool
  | .fromWorker w (.workResults binary) =>
      ∀ wct, archive.workContainer binary = .ok wct → env.noticeSave = .ok () →
        ∀ wInfo, c.workerInfo.workerRecords.lookup w = some wInfo →
          if w ∈ c.workAllocationMap then
            NextPlaceable archive env c (insert w c.freeWorkersPool)
              c.workerInfo.workerRecords.keys
          else CreditsNothing archive env wct wInfo
  | .fromIsland _ (.allocateWork d) =>
      c.freeWorkersPool ≠ ∅ →
        Startable archive env d c.freeWorkersPool c.workerInfo.workerRecords.keys
  | .fromWorker _ (.getDll _) => True
  | .fromWorker _ (.unhandled _ _) => True
  | .fromIsland _ (.unhandled _ _) => True

/-! ## Crediting -/

theorem add_eq_self {stats : WorkStats} {ms : Int} {processed : Nat} :
    stats.add ms processed = stats ↔ UInt64.ofInt ms = 0 ∧ UInt64.ofNat processed = 0 := by
  obtain ⟨workTime, population⟩ := stats
  simp [WorkStats.add]

theorem finished_eq_self {wInfo : WorkerInfo} {wct : WorkContainer Algo Pop} :
    WorkerInfoRepository.finished wInfo (archive.size wct.pop) (archive.getName wct.algo)
      env.finishTime = wInfo ↔ CreditsNothing archive env wct wInfo := by
  obtain ⟨total, byAlgorithm, start⟩ := wInfo
  rw [WorkerInfoRepository.finished, CreditsNothing, WorkerInfo.mk.injEq, add_eq_self,
    UnorderedMap.insert_eq_self, and_assoc]
  refine and_congr_right fun time => and_congr_right fun population => ?_
  rw [← Finmap.lookup_isSome]
  cases byAlgorithm.lookup (archive.getName wct.algo) with
  | none => simp
  | some stats =>
      have same : stats.add ((env.finishTime - start).tdiv 1000000) (archive.size wct.pop) =
        stats := add_eq_self.mpr ⟨time, population⟩
      simpa using same.symm

/-! ## Allocation -/

/-- With a free worker, an allocation goes through, finds an unreadable request before it has
    changed anything, or throws with a worker claimed that cannot be started. -/
theorem allocateWorkerToIsland_cases (someFree : c.freeWorkersPool ≠ ∅) :
    (Placeable archive env d c.freeWorkersPool c.workerInfo.workerRecords.keys ∧
      ∃ c', (allocateWorkerToIsland archive env i d).run c = .ok () c') ∨
    (¬archive.Reads d ∧ ∃ e,
      (allocateWorkerToIsland archive env i d).run c = .error (.exception e) c) ∨
    (archive.Reads d ∧
      ¬Startable archive env d c.freeWorkersPool c.workerInfo.workerRecords.keys ∧
      ∃ e, ∃ v ∈ c.freeWorkersPool,
        (allocateWorkerToIsland archive env i d).run c =
          .error (.exception e) (c.claimed v i d)) := by
  rw [allocateWorkerToIsland_run]
  cases hd : archive.workContainer d with
  | error e =>
      refine Or.inr (Or.inl ⟨?_, e, rfl⟩)
      rintro ⟨wct, readable⟩
      rw [hd] at readable
      cases readable
  | ok wct =>
      have reads : archive.Reads d := ⟨wct, hd⟩
      cases hw : chooseWorker env wct.preferredWorkerId c.freeWorkersPool with
      | none => exact absurd (chooseWorker_eq_none.mp hw) someFree
      | some v =>
          cases saved : env.startSave with
          | error e =>
              refine Or.inr (Or.inr ⟨reads, fun startable => ?_, e, v, mem_of_chooseWorker hw, ?_⟩)
              · cases saved.symm.trans (startable wct hd).1
              · simp [hw]
          | ok _ =>
              cases hs : c.workerInfo.workerStartedWork v env.startTime with
              | error e =>
                  refine Or.inr (Or.inr ⟨reads, fun startable => ?_, e, v,
                    mem_of_chooseWorker hw, ?_⟩)
                  · have record := Finmap.mem_keys.mp ((startable wct hd).2 v hw)
                    obtain ⟨repo, started⟩ := WorkerInfoRepository.modifyRecord_of_mem record
                    exact absurd (hs.symm.trans started) (by simp)
                  · simp [hw, hs]
              | ok repo =>
                  refine Or.inl ⟨⟨reads, fun wct' readable' => ⟨saved, fun v' chosen => ?_⟩⟩,
                    c.allocated v i d repo, ?_⟩
                  · obtain rfl : wct = wct' := Except.ok.inj (hd.symm.trans readable')
                    obtain rfl : v = v' := Option.some.inj (hw.symm.trans chosen)
                    exact Finmap.mem_keys.mpr (WorkerInfoRepository.modifyRecord_ok hs).1
                  · simp [hw, hs]

/-- A free worker is pooled or allocated, or the island it would have served has been
    dropped. -/
theorem addFreeWorker_cases :
    (NextPlaceable archive env c (insert w c.freeWorkersPool) c.workerInfo.workerRecords.keys ∧
      ∃ c', (addFreeWorker archive env w).run c = .ok () c') ∨
    (¬NextPlaceable archive env c (insert w c.freeWorkersPool) c.workerInfo.workerRecords.keys ∧
      ∃ e c', (addFreeWorker archive env w).run c = .error (.exception e) c' ∧
        c'.islandsWaitingForAlloc ≠ c.islandsWaitingForAlloc) := by
  rw [addFreeWorker_run]
  cases hb : UnorderedMap.begin env.waitingOrder c.islandsWaitingForAlloc with
  | none =>
      refine Or.inl ⟨fun p first => ?_, c.released w, rfl⟩
      rw [hb] at first
      cases first
  | some p =>
      have someFree : ((c.released w).popped p.1).freeWorkersPool ≠ ∅ :=
        Finset.insert_ne_empty w c.freeWorkersPool
      have dropped : c.islandsWaitingForAlloc.erase p.1 ≠ c.islandsWaitingForAlloc := by
        intro same
        have gone := Finmap.lookup_erase p.1 c.islandsWaitingForAlloc
        rw [same, UnorderedMap.lookup_of_begin hb] at gone
        cases gone
      rcases @allocateWorkerToIsland_cases _ _ _ archive env _ p.1 p.2 someFree with
        ⟨placeable, c', run⟩ | ⟨unreadable, e, run⟩ | ⟨-, unknown, e, v, -, run⟩
      · refine Or.inl ⟨fun q first => ?_, c', run⟩
        obtain rfl : p = q := Option.some.inj (hb.symm.trans first)
        exact placeable
      · exact Or.inr ⟨fun next => unreadable (next p hb).1, e, _, run, dropped⟩
      · exact Or.inr ⟨fun next => unknown (next p hb).2, e, _, run, dropped⟩

/-! ## One handler at a time -/

variable (archive env c)

/-- The handler of `msg` leaves the members as they were whenever it throws. -/
def Restores (msg : Incoming β) : Prop :=
  ∀ e c', (handle archive env msg).run c = .error (.exception e) c' → Kept c c'

variable {archive env c}

theorem restores_of_ok {msg : Incoming β} (h : (handle archive env msg).run c = .ok () c') :
    Restores archive env c msg := by
  intro e c'' thrown
  rw [h] at thrown
  cases thrown

theorem restores_iff_of_error {msg : Incoming β}
    (h : (handle archive env msg).run c = .error (.exception e) c') :
    Restores archive env c msg ↔ Kept c c' := by
  constructor
  · intro restores
    exact restores e c' h
  · intro kept e' c'' thrown
    rw [h] at thrown
    cases thrown
    exact kept

theorem restores_join :
    Restores archive env c (.fromWorker w .workerJoin) ↔
      Safe archive env c (.fromWorker w .workerJoin) := by
  rw [Safe]
  by_cases known : w ∈ c.freeWorkersPool
  · have run : (handle archive env (.fromWorker w .workerJoin)).run c = .ok () c := by
      rw [handle, workerJoin_run, if_pos known]
    exact iff_of_true (restores_of_ok run) fun unknown => absurd known unknown
  · have run : (handle archive env (.fromWorker w .workerJoin)).run c = _ := workerJoin_run
    rw [if_neg known] at run
    rw [forall_prop_of_true known]
    cases saved : env.noticeSave with
    | error e =>
        rw [saved] at run
        rw [restores_iff_of_error run]
        refine iff_of_true (Kept.refl c) fun impossible => ?_
        cases impossible
    | ok _ =>
        rw [saved] at run
        have keys : (c.joined w).workerInfo.workerRecords.keys =
            insert w c.workerInfo.workerRecords.keys := UnorderedMap.keys_emplace
        rw [forall_prop_of_true rfl]
        rcases @addFreeWorker_cases _ _ _ archive env (c.joined w) w with
          ⟨next, c', ends⟩ | ⟨stuck, e, c', ends, dropped⟩
        · rw [keys] at next
          exact iff_of_true (restores_of_ok (run.trans ends)) next
        · rw [keys] at stuck
          rw [restores_iff_of_error (run.trans ends)]
          exact iff_of_false (fun kept => dropped kept.waiting) stuck

/-- The worker has been taken out of the pool when the save throws. -/
theorem restores_unpooled (unsaved : env.noticeSave = .error e) :
    Restores archive env c (.fromWorker w .workerLeave) ↔ w ∉ c.freeWorkersPool := by
  have run : (handle archive env (.fromWorker w .workerLeave)).run c = _ := workerLeave_run
  rw [unsaved] at run
  rw [restores_iff_of_error run, ← Finset.erase_eq_self]
  exact ⟨fun kept => kept.free, fun same => ⟨rfl, same, rfl, rfl⟩⟩

theorem restores_reallocating (saved : env.noticeSave = .ok ()) :
    Restores archive env c (.fromWorker w .workerLeave) ↔
      ∀ record, c.workAllocationMap.lookup w = some record → c.freeWorkersPool.erase w ≠ ∅ →
        Placeable archive env record.workData (c.freeWorkersPool.erase w)
          c.workerInfo.workerRecords.keys := by
  cases busy : c.workAllocationMap.lookup w with
  | none =>
      have run : (handle archive env (.fromWorker w .workerLeave)).run c = .ok () (c.left w) := by
        rw [handle, workerLeave_run, saved, busy]
      refine iff_of_true (restores_of_ok run) fun record found => ?_
      cases found
  | some record =>
      have run : (handle archive env (.fromWorker w .workerLeave)).run c =
          (allocateIslandWork archive env record.islandId record.workData).run
            ((c.left w).cleared w) := by
        rw [handle, workerLeave_run, saved, busy]
      rw [allocateIslandWork_run] at run
      by_cases noneFree : c.freeWorkersPool.erase w = ∅
      · rw [if_pos (show ((c.left w).cleared w).freeWorkersPool = ∅ from noneFree)] at run
        exact iff_of_true (restores_of_ok run) fun record found someFree =>
          absurd noneFree someFree
      · have someFree : ((c.left w).cleared w).freeWorkersPool ≠ ∅ := noneFree
        rw [if_neg someFree] at run
        have gone : ((c.left w).cleared w).workAllocationMap.lookup w = none :=
          Finmap.lookup_erase w c.workAllocationMap
        rcases @allocateWorkerToIsland_cases _ _ _ archive env _ record.islandId record.workData
            someFree with ⟨placeable, c', ends⟩ | ⟨unreadable, e, ends⟩ |
            ⟨-, unknown, e, v, free, ends⟩
        · refine iff_of_true (restores_of_ok (run.trans ends)) fun record' found _ => ?_
          obtain rfl := Option.some.inj found
          exact placeable
        · rw [restores_iff_of_error (run.trans ends)]
          refine iff_of_false (fun kept => ?_) fun safe =>
            unreadable (safe record rfl noneFree).1
          rw [kept.allocated, busy] at gone
          cases gone
        · rw [restores_iff_of_error (run.trans ends)]
          refine iff_of_false (fun kept => ?_) fun safe => unknown (safe record rfl noneFree).2
          -- the worker that has been claimed is not the one that left
          have other : w ≠ v := (Finset.ne_of_mem_erase free).symm
          have claimed := kept.allocated
          rw [Controller.claimed] at claimed
          have same : (UnorderedMap.emplace v ⟨record.islandId, record.workData⟩
              ((c.left w).cleared w).workAllocationMap).lookup w =
                c.workAllocationMap.lookup w := by rw [← claimed]
          rw [UnorderedMap.lookup_emplace_of_ne other, gone, busy] at same
          cases same

theorem restores_leave :
    Restores archive env c (.fromWorker w .workerLeave) ↔
      Safe archive env c (.fromWorker w .workerLeave) := by
  rw [Safe]
  cases saved : env.noticeSave with
  | error e => exact restores_unpooled saved
  | ok _ => exact restores_reallocating saved

section Results

variable {wct : WorkContainer Algo Pop} {wInfo : WorkerInfo}
  (readable : archive.workContainer binary = .ok wct) (saved : env.noticeSave = .ok ())
  (record : c.workerInfo.workerRecords.lookup w = some wInfo)

include readable saved record

/-- Results that can be read, of a worker with a record, are credited first. -/
theorem workResults_run_of_record :
    (handle archive env (.fromWorker w (.workResults binary))).run c =
      let repo : WorkerInfoRepository := { c.workerInfo with
        workerRecords := c.workerInfo.workerRecords.insert w
          (WorkerInfoRepository.finished wInfo (archive.size wct.pop)
            (archive.getName wct.algo) env.finishTime) }
      match c.workAllocationMap.lookup w with
      | none => .error (.exception .outOfRange) { c with workerInfo := repo }
      | some allocation => (addFreeWorker archive env w).run
          (c.answered w allocation.islandId binary repo) := by
  have run : (handle archive env (.fromWorker w (.workResults binary))).run c = _ :=
    workResults_run binary
  rw [readable, saved] at run
  simp only [WorkerInfoRepository.workerFinishedWork, WorkerInfoRepository.modifyRecord,
    record] at run
  exact run

/-- `at` throws when the credit has been given. -/
theorem restores_lateResults (idle : c.workAllocationMap.lookup w = none) :
    Restores archive env c (.fromWorker w (.workResults binary)) ↔
      CreditsNothing archive env wct wInfo := by
  have run : (handle archive env (.fromWorker w (.workResults binary))).run c = _ :=
    workResults_run_of_record readable saved record
  rw [idle] at run
  rw [restores_iff_of_error run, ← finished_eq_self]
  constructor
  · intro kept
    have same := UnorderedMap.insert_eq_self.mp kept.statistics
    exact (Option.some.inj (record.symm.trans same)).symm
  · intro nothing
    refine ⟨rfl, rfl, rfl, UnorderedMap.insert_eq_self.mpr ?_⟩
    rw [nothing, record]

/-- The worker is freed, which may serve an island. -/
theorem restores_heldResults (held : w ∈ c.workAllocationMap) :
    Restores archive env c (.fromWorker w (.workResults binary)) ↔
      NextPlaceable archive env c (insert w c.freeWorkersPool)
        c.workerInfo.workerRecords.keys := by
  obtain ⟨allocation, busy⟩ := Finmap.mem_iff.mp held
  have run : (handle archive env (.fromWorker w (.workResults binary))).run c = _ :=
    workResults_run_of_record readable saved record
  rw [busy] at run
  have keys : (c.workerInfo.workerRecords.insert w
      (WorkerInfoRepository.finished wInfo (archive.size wct.pop) (archive.getName wct.algo)
        env.finishTime)).keys = c.workerInfo.workerRecords.keys :=
    UnorderedMap.keys_insert_of_mem (Finmap.mem_of_lookup_eq_some record)
  rw [← keys]
  rcases @addFreeWorker_cases _ _ _ archive env (c.answered w allocation.islandId binary
      ⟨c.workerInfo.connectedWorkers, _⟩) w with
    ⟨next, c', ends⟩ | ⟨stuck, e, c', ends, dropped⟩
  · exact iff_of_true (restores_of_ok (run.trans ends)) next
  · rw [restores_iff_of_error (run.trans ends)]
    exact iff_of_false (fun kept => dropped kept.waiting) stuck

end Results

theorem restores_results :
    Restores archive env c (.fromWorker w (.workResults binary)) ↔
      Safe archive env c (.fromWorker w (.workResults binary)) := by
  rw [Safe]
  have run : (handle archive env (.fromWorker w (.workResults binary))).run c = _ :=
    workResults_run binary
  cases readable : archive.workContainer binary with
  | error e =>
      rw [readable] at run
      rw [restores_iff_of_error run]
      refine iff_of_true (Kept.refl c) fun wct read => ?_
      cases read
  | ok wct =>
      rw [readable] at run
      cases saved : env.noticeSave with
      | error e =>
          rw [saved] at run
          rw [restores_iff_of_error run]
          refine iff_of_true (Kept.refl c) fun wct read impossible => ?_
          cases impossible
      | ok _ =>
          rw [saved] at run
          cases record : c.workerInfo.workerRecords.lookup w with
          | none =>
              simp only [WorkerInfoRepository.workerFinishedWork,
                WorkerInfoRepository.modifyRecord, record] at run
              rw [restores_iff_of_error run]
              refine iff_of_true (Kept.refl c) fun wct read _ wInfo found => ?_
              cases found
          | some wInfo =>
              have branch : Restores archive env c (.fromWorker w (.workResults binary)) ↔
                  if w ∈ c.workAllocationMap then
                    NextPlaceable archive env c (insert w c.freeWorkersPool)
                      c.workerInfo.workerRecords.keys
                  else CreditsNothing archive env wct wInfo := by
                split_ifs with held
                · exact restores_heldResults readable saved record held
                · exact restores_lateResults readable saved record (Finmap.lookup_eq_none.mpr held)
              refine branch.trans ⟨fun safe wct' read _ wInfo' found => ?_,
                fun safe => safe wct rfl rfl wInfo rfl⟩
              obtain rfl := Except.ok.inj read
              obtain rfl := Option.some.inj found
              exact safe

theorem restores_request :
    Restores archive env c (.fromIsland i (.allocateWork d)) ↔
      Safe archive env c (.fromIsland i (.allocateWork d)) := by
  rw [Safe]
  have run : (handle archive env (.fromIsland i (.allocateWork d))).run c = _ :=
    allocateIslandWork_run
  by_cases noneFree : c.freeWorkersPool = ∅
  · rw [if_pos noneFree] at run
    exact iff_of_true (restores_of_ok run) fun someFree => absurd noneFree someFree
  · rw [if_neg noneFree] at run
    rcases @allocateWorkerToIsland_cases _ _ _ archive env c i d noneFree with
      ⟨placeable, c', ends⟩ | ⟨unreadable, e, ends⟩ | ⟨-, unknown, e, v, free, ends⟩
    · exact iff_of_true (restores_of_ok (run.trans ends)) fun _ => placeable.2
    · rw [restores_iff_of_error (run.trans ends)]
      refine iff_of_true (Kept.refl c) fun _ wct read => ?_
      exact absurd ⟨wct, read⟩ unreadable
    · rw [restores_iff_of_error (run.trans ends)]
      refine iff_of_false (fun kept => ?_) fun safe => unknown (safe noneFree)
      have erased : c.freeWorkersPool.erase v = c.freeWorkersPool := kept.free
      exact Finset.erase_eq_self.mp erased free

theorem restores_getDll : Restores archive env c (.fromWorker w (.getDll binary)) := by
  have run : (handle archive env (.fromWorker w (.getDll binary))).run c = _ :=
    getDll_run binary
  cases readable : archive.getDllRequest binary with
  | error e =>
      rw [readable] at run
      exact (restores_iff_of_error run).mpr (Kept.refl c)
  | ok request =>
      rw [readable] at run
      cases found : env.getLibAsFile request.dllName with
      | error e =>
          simp only [found] at run
          exact (restores_iff_of_error run).mpr (Kept.refl c)
      | ok file =>
          simp only [found] at run
          exact restores_of_ok run

end Controller

open Controller

/-- A handler that throws leaves the waiting islands, the free pool, the allocation map and
    the statistics as they were if and only if nothing throws after its first write. -/
theorem handler_restores_iff {β Algo Pop : Type} (archive : Archive β Algo Pop)
    (env : Surroundings) (c : Controller β) (msg : Incoming β) :
    (∀ e c', (handle archive env msg).run c = .error (.exception e) c' → Kept c c') ↔
      Safe archive env c msg := by
  rcases msg with ⟨w, m⟩ | ⟨i, m⟩
  · cases m with
    | workerJoin => exact restores_join
    | workerLeave => exact restores_leave
    | workResults binary => exact restores_results
    | getDll binary => exact iff_of_true restores_getDll trivial
    | unhandled type binary => exact iff_of_true (restores_of_ok rfl) trivial
  · cases m with
    | allocateWork d => exact restores_request
    | unhandled type binary => exact iff_of_true (restores_of_ok rfl) trivial

/-- Results of 20 individuals from a worker that holds no work. -/
def lateResults : Incoming (PlainPayload String Nat) :=
  .fromWorker "w" (.workResults (.work ⟨"de", 20, "", 1⟩))

/-- A request that is no `work_container`. -/
def unreadableRequest : Incoming (PlainPayload String Nat) :=
  .fromIsland "i" (.allocateWork (.request ⟨"libde.so"⟩))

/-- After `WORKER_JOIN`, late results are credited before `at` throws; a worker that joins
    while an unreadable request waits makes the handler throw after it has dropped it; and a
    worker that leaves has been taken out of the pool when the settings cannot be saved. -/
theorem handler_throws_after_writing :
    (∃ c c' : Controller (PlainPayload String Nat),
      (handle Archive.plain default (.fromWorker "w" .workerJoin)).run (Controller.start ∅) =
        .ok () c ∧
      (handle Archive.plain default lateResults).run c = .error (.exception .outOfRange) c' ∧
      ¬Kept c c') ∧
    (∃ c c' : Controller (PlainPayload String Nat),
      (handle Archive.plain default unreadableRequest).run (Controller.start ∅) = .ok () c ∧
      (handle Archive.plain default (.fromWorker "w" .workerJoin)).run c =
        .error (.exception .archiveException) c' ∧
      ¬Kept c c') ∧
    ∃ c c' : Controller (PlainPayload String Nat),
      (handle Archive.plain default (.fromWorker "w" .workerJoin)).run (Controller.start ∅) =
        .ok () c ∧
      (handle Archive.plain { (default : Surroundings) with noticeSave := .error .iosFailure }
        (.fromWorker "w" .workerLeave)).run c = .error (.exception .iosFailure) c' ∧
      ¬Kept c c' := by
  refine ⟨⟨_, _, rfl, rfl, fun kept => ?_⟩, ⟨_, _, rfl, rfl, fun kept => ?_⟩,
    ⟨_, _, rfl, rfl, fun kept => ?_⟩⟩
  · have credited := congrArg (fun records =>
      (records.lookup "w").map (·.totalStats.processedPopulation)) kept.statistics
    exact absurd credited (by decide)
  · have dropped := congrArg (Finmap.lookup "i") kept.waiting
    exact absurd dropped (by decide)
  · exact absurd kept.free (by decide)

end Metasolver
