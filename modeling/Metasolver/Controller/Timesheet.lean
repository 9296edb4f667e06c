import Metasolver.Lib.Tickets
import Metasolver.Controller.Faults
import Metasolver.Controller.Statistics
import Metasolver.Controller.WorkerPartition

/-!
# The timesheet of the workers

`worker_finished_work` takes the start of the job from `lastWorkStartTime`, a field of the
worker's record, while the job itself is in the allocation map of the controller.  The
timesheet is kept outside both: a ticket for each `ALLOCATE_WORK` that is sent to a
worker, with the clock at that moment; settled by the `WORK_RESULTS` of that worker,
voided by its `WORKER_LEAVE`, unless the settings cannot be saved and the message stops
the server before the repository is told of it.

`Books` compares the timesheet with the controller.  It holds along every run in which
workers join and leave in turn and return work only while they hold some, up to and
including a handler that throws.  One exception is `BooksUpTo`: if the save before
`worker_started_work` throws, a worker is left in the allocation map without a start.
-/

namespace Metasolver

open Exec Tickets Effects

/-- Work that has been sent to a worker. -/
structure Allocation (β : Type) where
  worker : WorkerId
  workData : β
  startTime : TimePoint
  deriving DecidableEq, Repr

/-- The results of a worker, and the clock when they were handled. -/
structure Return (Algo Pop : Type) where
  results : WorkContainer Algo Pop
  finishTime : TimePoint
  deriving DecidableEq, Repr

abbrev Timesheet (β Algo Pop : Type) := Book (Allocation β) (Return Algo Pop)

namespace Timesheet

variable {β Algo Pop : Type}

def isOf (w : WorkerId) (a : Allocation β) : Bool := a.worker = w

/-- The allocations of `w` that have neither been completed nor ended. -/
def heldBy (sheet : Timesheet β Algo Pop) (w : WorkerId) : List (Ticket (Allocation β)) :=
  sheet.select (isOf w)

/-- What a message ends, if the repository is told of it. -/
def receive (archive : Archive β Algo Pop) (env : Surroundings) (sheet : Timesheet β Algo Pop) :
    Incoming β → Timesheet β Algo Pop
  | .fromWorker w .workerLeave =>
      match env.noticeSave with
      | .ok _ => sheet.void (isOf w)
      | .error _ => sheet
  | .fromWorker w (.workResults binary) =>
      match archive.workContainer binary, env.noticeSave with
      | .ok results, .ok _ => sheet.settle (isOf w) ⟨results, env.finishTime⟩
      | _, _ => sheet
  | _ => sheet

/-- What is begun by a message that the controller sends. -/
def send (env : Surroundings) (sheet : Timesheet β Algo Pop) : Sent β → Timesheet β Algo Pop
  | .toWorker w (.allocateWork workData) => sheet.issue ⟨w, workData, env.startTime⟩
  | _ => sheet

def sending (env : Surroundings) (sheet : Timesheet β Algo Pop) (messages : List (Sent β)) :
    Timesheet β Algo Pop :=
  messages.foldl (send env) sheet

/-- A record is credited with a completed allocation, timed from the start of that allocation. -/
def credit (archive : Archive β Algo Pop) (wInfo : WorkerInfo)
    (entry : Ticket (Allocation β) × Return Algo Pop) : WorkerInfo :=
  WorkerInfoRepository.finished
    { wInfo with lastWorkStartTime := entry.1.content.startTime }
    (archive.size entry.2.results.pop) (archive.getName entry.2.results.algo) entry.2.finishTime

/-- The completed allocations of `w`, in the order of their results. -/
def completedBy (sheet : Timesheet β Algo Pop) (w : WorkerId) :
    List (Ticket (Allocation β) × Return Algo Pop) :=
  sheet.settled.filter fun entry => isOf w entry.1.content

/-- A record that has been credited with exactly the completed allocations of `w`. -/
def credited (archive : Archive β Algo Pop) (sheet : Timesheet β Algo Pop) (w : WorkerId)
    (wInfo : WorkerInfo) : WorkerInfo :=
  (sheet.completedBy w).foldl (credit archive) wInfo

end Timesheet

/-- Two records show the same statistics; the time of the last start may differ. -/
structure SameStats (wInfo wInfo' : WorkerInfo) : Prop where
  total : wInfo.totalStats = wInfo'.totalStats
  byAlgorithm : wInfo.statsByAlgorithm = wInfo'.statsByAlgorithm

/-- The server with the timesheet. -/
structure Timed (β Algo Pop : Type) where
  session : Session β
  sheet : Timesheet β Algo Pop

namespace Timed

variable {β Algo Pop : Type}

def start (records : UnorderedMap WorkerId WorkerInfo) : Timed β Algo Pop where
  session := Session.start records
  sheet := Book.empty

/-- One message, and what it changes on the timesheet. -/
def step (archive : Archive β Algo Pop) (s : Timed β Algo Pop) (e : Delivery β) :
    Option (Timed β Algo Pop) :=
  (Session.step archive s.session e).map fun session =>
    ⟨session, (s.sheet.receive archive e.env e.msg).sending e.env session.server.sent⟩

/-- Workers join while they are away, leave while they are connected, and return work while
    they hold some. -/
def InTurn (s : Timed β Algo Pop) (e : Delivery β) : Prop :=
  Controller.Alternates s.session.log.connected e.msg ∧
    match e.msg with
    | .fromWorker w (.workResults _) => w ∈ s.session.log.holding
    | _ => True

instance (s : Timed β Algo Pop) (e : Delivery β) : Decidable (InTurn s e) := by
  unfold InTurn
  split <;> infer_instance

end Timed

/-! ## The timesheet and the controller -/

section Books

variable {β Algo Pop : Type} {archive : Archive β Algo Pop} {env : Surroundings}
  {c c' : Controller β} {i : IslandId} {d : β} {w : WorkerId}
  {records : UnorderedMap WorkerId WorkerInfo} {sheet : Timesheet β Algo Pop}

theorem SameStats.refl (wInfo : WorkerInfo) : SameStats wInfo wInfo := ⟨rfl, rfl⟩

/-- The same job adds the same to the same statistics. -/
theorem SameStats.finished {wInfo wInfo' : WorkerInfo} (same : SameStats wInfo wInfo')
    (started : wInfo.lastWorkStartTime = wInfo'.lastWorkStartTime) {processed : Nat} {a : String}
    {now : TimePoint} :
    SameStats (WorkerInfoRepository.finished wInfo processed a now)
      (WorkerInfoRepository.finished wInfo' processed a now) := by
  obtain ⟨total, byAlgorithm⟩ := same
  constructor
  · rw [WorkerInfoRepository.finished, WorkerInfoRepository.finished, total, started]
  · rw [WorkerInfoRepository.finished, WorkerInfoRepository.finished, byAlgorithm, started]

/-- The controller holds what the timesheet says, and each worker has been credited with
    exactly the allocations it has completed. -/
structure Books (archive : Archive β Algo Pop) (records : UnorderedMap WorkerId WorkerInfo)
    (sheet : Timesheet β Algo Pop) (c : Controller β) : Prop where
  idle : ∀ w, c.workAllocationMap.lookup w = none → sheet.heldBy w = []
  busy : ∀ w r, c.workAllocationMap.lookup w = some r →
    ∃ t wInfo, sheet.heldBy w = [t] ∧ t.content.workData = r.workData ∧
      c.workerInfo.getWorkerInfo w = some wInfo ∧ wInfo.lastWorkStartTime = t.content.startTime
  credited : ∀ w, SameStats ((c.workerInfo.getWorkerInfo w).getD {})
    (sheet.credited archive w ((records.lookup w).getD {}))

/-- `Books`, but when the handler has been halted a worker may have work without a start. -/
structure BooksUpTo (halted : Prop) (archive : Archive β Algo Pop)
    (records : UnorderedMap WorkerId WorkerInfo) (sheet : Timesheet β Algo Pop)
    (c : Controller β) : Prop where
  idle : ∀ w, c.workAllocationMap.lookup w = none → sheet.heldBy w = []
  busy : ∀ w r, c.workAllocationMap.lookup w = some r →
    (∃ t wInfo, sheet.heldBy w = [t] ∧ t.content.workData = r.workData ∧
      c.workerInfo.getWorkerInfo w = some wInfo ∧
      wInfo.lastWorkStartTime = t.content.startTime) ∨ halted ∧ sheet.heldBy w = []
  credited : ∀ w, SameStats ((c.workerInfo.getWorkerInfo w).getD {})
    (sheet.credited archive w ((records.lookup w).getD {}))

theorem BooksUpTo.books {halted : Prop} (h : BooksUpTo halted archive records sheet c)
    (goesOn : ¬halted) : Books archive records sheet c :=
  ⟨h.idle, fun w r found => (h.busy w r found).resolve_right fun stuck => goesOn stuck.1,
    h.credited⟩

theorem BooksUpTo.mono {halted halted' : Prop} (h : BooksUpTo halted archive records sheet c)
    (weaker : halted → halted') : BooksUpTo halted' archive records sheet c :=
  ⟨h.idle, fun w r found => (h.busy w r found).imp_right (And.imp_left weaker), h.credited⟩

/-- The books after a handler.  If it has thrown and the start of an allocation could not be
    saved, that may be what has halted it. -/
def BooksAfter (archive : Archive β Algo Pop) (records : UnorderedMap WorkerId WorkerInfo)
    (env : Surroundings) (sheet : Timesheet β Algo Pop)
    (r : EStateM.Result Fault (Controller β) Unit) : Prop :=
  BooksUpTo (env.startSave ≠ .ok () ∧ ∃ f c, r = .error f c) archive records
    (sheet.sending env (final r).sent) (final r)

namespace Books

theorem start : Books archive records Book.empty (Controller.start records) where
  idle _ _ := rfl
  busy w r found := by cases (Finmap.lookup_empty w).symm.trans found
  credited w := SameStats.refl _

theorem congr (books : Books archive records sheet c) (hw : c'.workerInfo = c.workerInfo)
    (ha : c'.workAllocationMap = c.workAllocationMap) : Books archive records sheet c' where
  idle := by rw [ha]; exact books.idle
  busy := by rw [hw, ha]; exact books.busy
  credited := by rw [hw]; exact books.credited

/-- A record that exists is kept when its worker joins. -/
theorem getWorkerInfo_joined (v : WorkerId) :
    (c.joined w).workerInfo.getWorkerInfo v =
      if w = v then some ((c.workerInfo.getWorkerInfo v).getD {})
      else c.workerInfo.getWorkerInfo v :=
  WorkerInfoRepository.lookup_perform (c := .workerJoined w {})

theorem joined (books : Books archive records sheet c) :
    Books archive records sheet (c.joined w) where
  idle := books.idle
  busy v r found := by
    obtain ⟨t, wInfo, held, same, record, started⟩ := books.busy v r found
    refine ⟨t, wInfo, held, same, ?_, started⟩
    rw [getWorkerInfo_joined, record, Option.getD_some, ite_self]
  credited v := by
    have same : ((c.joined w).workerInfo.getWorkerInfo v).getD {} =
        (c.workerInfo.getWorkerInfo v).getD {} := by
      rw [getWorkerInfo_joined]
      split_ifs
      · rfl
      · rfl
    rw [same]
    exact books.credited v

theorem heldBy_void_self : Timesheet.heldBy (sheet.void (Timesheet.isOf w)) w = [] :=
  Book.select_others_of_imp fun _ selected => selected

/-- The allocations of another worker are left alone. -/
theorem select_others_of_ne {v : WorkerId} (other : v ≠ w) :
    (sheet.others (Timesheet.isOf w)).filter (fun t => Timesheet.isOf v t.content) =
      sheet.heldBy v := by
  refine Book.select_others_of_disjoint fun a own => ?_
  rw [Timesheet.isOf, decide_eq_true_eq] at own
  rw [Timesheet.isOf, own]
  exact decide_eq_false other

theorem left (books : Books archive records sheet c) :
    Books archive records (sheet.void (Timesheet.isOf w)) ((c.left w).cleared w) where
  idle v found := by
    by_cases other : v = w
    · subst other
      exact heldBy_void_self
    · have unchanged := Finmap.lookup_erase_ne (s := c.workAllocationMap) other
      exact (select_others_of_ne other).trans (books.idle v (unchanged.symm.trans found))
  busy v r found := by
    have other : v ≠ w := by
      rintro rfl
      cases (Finmap.lookup_erase v c.workAllocationMap).symm.trans found
    have unchanged := Finmap.lookup_erase_ne (s := c.workAllocationMap) other
    obtain ⟨t, wInfo, held, rest⟩ := books.busy v r (unchanged.symm.trans found)
    exact ⟨t, wInfo, (select_others_of_ne other).trans held, rest⟩
  credited := books.credited

/-- The one allocation that `w` holds is credited to `w`. -/
theorem completedBy_settle {t : Ticket (Allocation β)} {entry : Return Algo Pop}
    (held : sheet.heldBy w = [t]) (v : WorkerId) :
    Timesheet.completedBy (sheet.settle (Timesheet.isOf w) entry) v =
      sheet.completedBy v ++ if v = w then [(t, entry)] else [] := by
  have own : t.content.worker = w := by
    have member : t ∈ sheet.heldBy w := by
      rw [held]
      exact List.mem_singleton_self t
    exact of_decide_eq_true (List.mem_filter.mp member).2
  have settled : (sheet.settle (Timesheet.isOf w) entry).settled =
      sheet.settled ++ [(t, entry)] := by
    exact congrArg (fun tickets => sheet.settled ++ tickets.map fun t => (t, entry)) held
  rw [Timesheet.completedBy, settled, List.filter_append, ← Timesheet.completedBy]
  by_cases same : v = w
  · simp [same, Timesheet.isOf, own]
  · simp [same, Timesheet.isOf, own, Ne.symm same]

theorem answered {r : WorkAllocationRecord β} {binary : β} {wct : WorkContainer Algo Pop}
    {repo : WorkerInfoRepository} (books : Books archive records sheet c)
    (busy : c.workAllocationMap.lookup w = some r)
    (finished : c.workerInfo.workerFinishedWork w (archive.size wct.pop)
      (archive.getName wct.algo) env.finishTime = .ok repo) :
    Books archive records (sheet.settle (Timesheet.isOf w) ⟨wct, env.finishTime⟩)
      (c.answered w i binary repo) := by
  obtain ⟨t, wInfo, held, -, record, started⟩ := books.busy w r busy
  have after : ∀ v, repo.getWorkerInfo v = WorkerInfoRepository.recordAfter v
      (c.workerInfo.getWorkerInfo v) (.workerFinishedWork w (archive.size wct.pop)
        (archive.getName wct.algo) env.finishTime) :=
    fun v => WorkerInfoRepository.getWorkerInfo_of_call finished
  -- the other workers hold what they held before
  have ended := (books.left (w := w))
  refine ⟨ended.idle, fun v r' found => ?_, fun v => ?_⟩
  · obtain ⟨t', wInfo', held', same, record', started'⟩ := ended.busy v r' found
    have other : w ≠ v := by
      rintro rfl
      cases (Finmap.lookup_erase w c.workAllocationMap).symm.trans found
    refine ⟨t', wInfo', held', same, ?_, started'⟩
    exact ((after v).trans (if_neg other)).trans record'
  · have before := books.credited v
    have now : (c.answered w i binary repo).workerInfo.getWorkerInfo v = _ := after v
    rw [Timesheet.credited, completedBy_settle held, List.foldl_append, ← Timesheet.credited, now,
      WorkerInfoRepository.recordAfter]
    by_cases same : w = v
    · subst same
      rw [if_pos rfl, if_pos rfl, record, Option.map_some, Option.getD_some]
      rw [record, Option.getD_some] at before
      have restarted : SameStats wInfo { sheet.credited archive w ((records.lookup w).getD {}) with
          lastWorkStartTime := t.content.startTime } := ⟨before.total, before.byAlgorithm⟩
      exact restarted.finished started
    · rw [if_neg same, if_neg (Ne.symm same)]
      exact before

theorem allocated {repo : WorkerInfoRepository} (books : Books archive records sheet c)
    (idle : w ∉ c.workAllocationMap)
    (started : c.workerInfo.workerStartedWork w env.startTime = .ok repo) :
    Books archive records (sheet.issue ⟨w, d, env.startTime⟩) (c.allocated w i d repo) := by
  obtain ⟨wInfo, found, -⟩ := WorkerInfoRepository.modifyRecord_eq started
  have after : ∀ v, (c.allocated w i d repo).workerInfo.getWorkerInfo v =
      WorkerInfoRepository.recordAfter v (c.workerInfo.getWorkerInfo v)
        (.workerStartedWork w env.startTime) :=
    fun v => WorkerInfoRepository.getWorkerInfo_of_call started
  have map : (c.allocated w i d repo).workAllocationMap =
      c.workAllocationMap.insert w ⟨i, d⟩ := UnorderedMap.emplace_of_notMem idle
  have held : ∀ v, Timesheet.heldBy (sheet.issue ⟨w, d, env.startTime⟩) v =
      sheet.heldBy v ++ if Timesheet.isOf v (⟨w, d, env.startTime⟩ : Allocation β) then
        [⟨sheet.next, ⟨w, d, env.startTime⟩⟩] else [] := fun v => Book.select_issue
  refine ⟨fun v none_ => ?_, fun v r found' => ?_, fun v => ?_⟩
  · rw [map] at none_
    have other : v ≠ w := by
      rintro rfl
      cases (Finmap.lookup_insert c.workAllocationMap).symm.trans none_
    rw [Finmap.lookup_insert_of_ne _ other] at none_
    rw [held, books.idle v none_, if_neg (by simpa [Timesheet.isOf] using Ne.symm other)]
    rfl
  · rw [map] at found'
    by_cases same : w = v
    · subst same
      obtain rfl := Option.some.inj ((Finmap.lookup_insert c.workAllocationMap).symm.trans found')
      refine ⟨⟨sheet.next, ⟨w, d, env.startTime⟩⟩,
        { wInfo with lastWorkStartTime := env.startTime }, ?_, rfl, ?_, rfl⟩
      · rw [held, books.idle w (Finmap.lookup_eq_none.mpr idle)]
        simp [Timesheet.isOf]
      · rw [after, WorkerInfoRepository.recordAfter, if_pos rfl,
          WorkerInfoRepository.getWorkerInfo, found, Option.map_some]
    · rw [Finmap.lookup_insert_of_ne _ (Ne.symm same)] at found'
      obtain ⟨t, wInfo', held', data, record, start⟩ := books.busy v r found'
      refine ⟨t, wInfo', ?_, data, ?_, start⟩
      · rw [held, held', if_neg (by simpa [Timesheet.isOf] using same)]
        rfl
      · rw [after, WorkerInfoRepository.recordAfter, if_neg same]
        exact record
  · have before := books.credited v
    rw [after, WorkerInfoRepository.recordAfter]
    split_ifs with same
    · subst same
      rw [WorkerInfoRepository.getWorkerInfo, found] at before ⊢
      exact ⟨before.total, before.byAlgorithm⟩
    · exact before

/-! ## One handler -/

theorem sending_snoc (messages : List (Sent β)) (m : Sent β) :
    sheet.sending env (messages ++ [m]) = (sheet.sending env messages).send env m := by
  rw [Timesheet.sending, List.foldl_append]
  rfl

/-- A worker that is claimed when the save throws has no ticket. -/
theorem claimed {halted : Prop} (books : Books archive records sheet c)
    (idle : w ∉ c.workAllocationMap) (unsaved : halted) :
    BooksUpTo halted archive records sheet (c.claimed w i d) := by
  have map : (c.claimed w i d).workAllocationMap = c.workAllocationMap.insert w ⟨i, d⟩ :=
    UnorderedMap.emplace_of_notMem idle
  refine ⟨fun v none_ => ?_, fun v r found => ?_, books.credited⟩
  · rw [map] at none_
    have other : v ≠ w := by
      rintro rfl
      cases (Finmap.lookup_insert c.workAllocationMap).symm.trans none_
    rw [Finmap.lookup_insert_of_ne _ other] at none_
    exact books.idle v none_
  · by_cases same : v = w
    · subst same
      exact Or.inr ⟨unsaved, books.idle v (Finmap.lookup_eq_none.mpr idle)⟩
    · rw [map, Finmap.lookup_insert_of_ne _ same] at found
      exact Or.inl (books.busy v r found)

theorem upTo {halted : Prop} (books : Books archive records sheet c) :
    BooksUpTo halted archive records sheet c :=
  ⟨books.idle, fun w r found => Or.inl (books.busy w r found), books.credited⟩

/-- A handler that has left the books in order. -/
theorem after {r : EStateM.Result Fault (Controller β) Unit}
    (books : Books archive records (sheet.sending env c.sent) c) (ends : final r = c) :
    BooksAfter archive records env sheet r := by
  subst ends
  exact books.upTo

/-- An allocation that throws has changed nothing, since all free workers have records, unless
    it has claimed a worker and the save has thrown. -/
theorem allocateWorkerToIsland (partition : Controller.Partition c)
    (someFree : c.freeWorkersPool ≠ ∅)
    (books : Books archive records (sheet.sending env c.sent) c) :
    BooksAfter archive records env sheet
      ((Controller.allocateWorkerToIsland archive env i d).run c) := by
  rcases @Controller.allocateWorkerToIsland_cases _ _ _ archive env c i d someFree with
    ⟨-, c₁, run⟩ | ⟨-, e, run⟩ | ⟨-, unknown, e, v, free, run⟩
  · obtain ⟨v, repo, ⟨wct, -, chosen⟩, started⟩ := Controller.allocateWorkerToIsland_ok run
    have free := Controller.mem_of_chooseWorker chosen
    rw [run]
    refine after ?_ (final_ok _ _)
    rw [show (c.allocated v i d repo).sent = c.sent ++ [.toWorker v (.allocateWork d)] from rfl,
      sending_snoc]
    exact books.allocated (partition.freeNotBusy v free) started
  · rw [run]
    exact books.after (final_error _ _)
  · rw [run]
    refine books.claimed (partition.freeNotBusy v free) ⟨fun saved => ?_, _, _, rfl⟩
    refine unknown fun wct _ => ⟨saved, fun u chosen => ?_⟩
    exact Finmap.mem_keys.mpr (partition.free_recorded (Controller.mem_of_chooseWorker chosen))

theorem allocateIslandWork (partition : Controller.Partition c)
    (books : Books archive records (sheet.sending env c.sent) c) :
    BooksAfter archive records env sheet
      ((Controller.allocateIslandWork archive env i d).run c) := by
  rw [Controller.allocateIslandWork_run]
  split_ifs with noneFree
  · have queued : Books archive records (sheet.sending env (c.queued i d).sent) (c.queued i d) :=
      books.congr rfl rfl
    exact queued.after (final_ok _ _)
  · exact books.allocateWorkerToIsland partition noneFree

theorem addFreeWorker (partition : Controller.PartitionWith {w} c)
    (books : Books archive records (sheet.sending env c.sent) c) :
    BooksAfter archive records env sheet ((Controller.addFreeWorker archive env w).run c) := by
  rw [Controller.addFreeWorker_run]
  cases first : UnorderedMap.begin env.waitingOrder c.islandsWaitingForAlloc with
  | none =>
      have released : Books archive records (sheet.sending env (c.released w).sent)
          (c.released w) := books.congr rfl rfl
      exact released.after (final_ok _ _)
  | some p =>
      have popped : Controller.Partition ((c.released w).popped p.1) :=
        partition.released.congr rfl rfl rfl
      have same : Books archive records
          (sheet.sending env ((c.released w).popped p.1).sent) ((c.released w).popped p.1) :=
        books.congr rfl rfl
      exact same.allocateWorkerToIsland popped (Finset.insert_ne_empty w c.freeWorkersPool)

/-! ## One message, whether its handler ends normally or throws -/

theorem sending_quiet (quiet : c.sent = []) : sheet.sending env c.sent = sheet := by
  rw [quiet]
  rfl

/-- A handler that has sent nothing and allocated nothing. -/
theorem unchanged {r : EStateM.Result Fault (Controller β) Unit} (quiet : c.sent = [])
    (books : Books archive records sheet c) (ends : final r = c) :
    BooksAfter archive records env sheet r := by
  refine after ?_ ends
  rw [sending_quiet quiet]
  exact books

theorem workerJoin (quiet : c.sent = []) (partition : Controller.Partition c)
    (away : w ∉ c.workerInfo.connectedWorkers) (books : Books archive records sheet c) :
    BooksAfter archive records env sheet
      ((Controller.handleWorkersSocketMsg archive env w .workerJoin).run c) := by
  rw [Controller.workerJoin_run]
  split_ifs with known
  · exact absurd ((partition.cover w).mpr (Or.inl known)) away
  · cases env.noticeSave with
    | error e => exact books.unchanged quiet (final_error _ _)
    | ok _ =>
        refine addFreeWorker (partition.joined away) ?_
        rw [sending_quiet (c := c.joined w) quiet]
        exact books.joined

theorem workerLeave (quiet : c.sent = []) (partition : Controller.Partition c)
    (books : Books archive records sheet c) :
    BooksAfter archive records env (sheet.receive archive env (.fromWorker w .workerLeave))
      ((Controller.handleWorkersSocketMsg archive env w .workerLeave).run c) := by
  rw [Controller.workerLeave_run, Timesheet.receive]
  cases env.noticeSave with
  | error e =>
      have unpooled : Books archive records sheet (c.unpooled w) := books.congr rfl rfl
      exact unchanged (c := c.unpooled w) quiet unpooled (final_error _ _)
  | ok _ =>
      have left : Books archive records (sheet.void (Timesheet.isOf w)) ((c.left w).cleared w) :=
        books.left
      cases busy : c.workAllocationMap.lookup w with
      | none =>
          have idle : Books archive records (sheet.void (Timesheet.isOf w)) (c.left w) :=
            left.congr rfl (UnorderedMap.erase_of_lookup_none busy).symm
          exact unchanged (c := c.left w) quiet idle (final_ok _ _)
      | some record =>
          refine allocateIslandWork partition.leave ?_
          rw [sending_quiet (c := (c.left w).cleared w) quiet]
          exact left

theorem workResults {binary : β} (quiet : c.sent = []) (partition : Controller.Partition c)
    (held : w ∈ c.workAllocationMap) (books : Books archive records sheet c) :
    BooksAfter archive records env
      (sheet.receive archive env (.fromWorker w (.workResults binary)))
      ((Controller.handleWorkersSocketMsg archive env w (.workResults binary)).run c) := by
  obtain ⟨record, busy⟩ := Finmap.mem_iff.mp held
  rw [Controller.workResults_run, Timesheet.receive]
  cases archive.workContainer binary with
  | error e => exact books.unchanged quiet (final_error _ _)
  | ok wct =>
      cases env.noticeSave with
      | error e => exact books.unchanged quiet (final_error _ _)
      | ok _ =>
          obtain ⟨repo, finished⟩ : ∃ repo, c.workerInfo.workerFinishedWork w
              (archive.size wct.pop) (archive.getName wct.algo) env.finishTime = .ok repo :=
            WorkerInfoRepository.modifyRecord_of_mem
              (partition.recorded w (partition.busy_connected busy))
          simp only [finished, busy]
          refine addFreeWorker (partition.answered busy finished) ?_
          rw [show (c.answered w record.islandId binary repo).sent =
            c.sent ++ [.toIsland record.islandId binary] from rfl, sending_snoc,
            sending_quiet quiet]
          exact books.answered busy finished

theorem getDll {binary : β} (quiet : c.sent = []) (books : Books archive records sheet c) :
    BooksAfter archive records env sheet
      ((Controller.handleWorkersSocketMsg archive env w (.getDll binary)).run c) := by
  rw [Controller.getDll_run]
  cases archive.getDllRequest binary with
  | error e => exact books.unchanged quiet (final_error _ _)
  | ok request =>
      dsimp only
      cases env.getLibAsFile request.dllName with
      | error e => exact books.unchanged quiet (final_error _ _)
      | ok file =>
          refine after ?_ (final_ok _ _)
          rw [sending_snoc, sending_quiet quiet]
          exact books.congr rfl rfl

theorem handle {msg : Incoming β} (quiet : c.sent = []) (partition : Controller.Partition c)
    (alternates : Controller.Alternates c.workerInfo.connectedWorkers msg)
    (held : ∀ w binary, msg = .fromWorker w (.workResults binary) → w ∈ c.workAllocationMap)
    (books : Books archive records sheet c) :
    BooksAfter archive records env (sheet.receive archive env msg)
      ((Controller.handle archive env msg).run c) := by
  rcases msg with ⟨w, m⟩ | ⟨i, m⟩
  · cases m with
    | workerJoin => exact books.workerJoin quiet partition alternates
    | workerLeave => exact books.workerLeave quiet partition
    | workResults binary => exact books.workResults quiet partition (held w binary rfl)
    | getDll binary => exact books.getDll quiet
    | unhandled type binary => exact books.unchanged quiet (final_ok _ _)
  · cases m with
    | allocateWork d =>
        refine allocateIslandWork partition ?_
        rw [sending_quiet quiet]
        exact books
    | unhandled type binary => exact books.unchanged quiet (final_ok _ _)

end Books

end Books

/-! ## Runs -/

namespace Timed

variable {β Algo Pop : Type} {archive : Archive β Algo Pop} {s t : Timed β Algo Pop}
  {e : Delivery β} {records : UnorderedMap WorkerId WorkerInfo}

/-- Each completed allocation has been returned by the worker it was sent to. -/
def Returned (archive : Archive β Algo Pop) (s : Timed β Algo Pop) : Prop :=
  ∀ entry ∈ s.sheet.settled, ∃ binary, archive.workContainer binary = .ok entry.2.results ∧
    .received (.fromWorker entry.1.content.worker (.workResults binary)) ∈ s.session.log

/-- What holds before every message. -/
structure Sound (archive : Archive β Algo Pop) (records : UnorderedMap WorkerId WorkerInfo)
    (s : Timed β Algo Pop) : Prop where
  inOrder : ∀ c, s.session.server = .running c →
    c.Partition ∧ Controller.Tracks s.session.log c ∧ Books archive records s.sheet c
  returned : Returned archive s

theorem Sound.start : Sound archive records (Timed.start records) where
  inOrder c running := by
    obtain rfl : Controller.start records = c := Server.running.inj running
    exact ⟨Controller.PartitionWith.start records, Controller.Tracks.start records, Books.start⟩
  returned entry member := by cases member

/-- The sends of a handler complete no allocation. -/
theorem settled_sending {env : Surroundings} (messages : List (Sent β))
    (sheet : Timesheet β Algo Pop) : (sheet.sending env messages).settled = sheet.settled := by
  induction messages generalizing sheet with
  | nil => rfl
  | cons m messages ih =>
      rw [Timesheet.sending, List.foldl_cons, ← Timesheet.sending, ih]
      rcases m with ⟨w, allocate | reply⟩ | ⟨i, binary⟩
      · rfl
      · rfl
      · rfl

/-- A message completes the allocations of its sender, if it carries results. -/
theorem mem_settled_receive {env : Surroundings} {sheet : Timesheet β Algo Pop}
    {msg : Incoming β} {entry : Ticket (Allocation β) × Return Algo Pop}
    (member : entry ∈ (sheet.receive archive env msg).settled) :
    entry ∈ sheet.settled ∨ ∃ binary, archive.workContainer binary = .ok entry.2.results ∧
      msg = .fromWorker entry.1.content.worker (.workResults binary) := by
  rcases msg with ⟨w, m⟩ | ⟨i, m⟩
  · cases m with
    | workResults binary =>
        rw [Timesheet.receive] at member
        cases readable : archive.workContainer binary with
        | error e =>
            rw [readable] at member
            exact Or.inl member
        | ok results =>
            rw [readable] at member
            cases saved : env.noticeSave with
            | error e =>
                rw [saved] at member
                exact Or.inl member
            | ok _ =>
                rw [saved] at member
                rcases List.mem_append.mp member with old | new
                · exact Or.inl old
                · obtain ⟨ticket, held, rfl⟩ := List.mem_map.mp new
                  obtain rfl : ticket.content.worker = w :=
                    of_decide_eq_true (List.mem_filter.mp held).2
                  exact Or.inr ⟨binary, readable, rfl⟩
    | workerLeave =>
        rw [Timesheet.receive] at member
        cases saved : env.noticeSave with
        | error e =>
            rw [saved] at member
            exact Or.inl member
        | ok _ =>
            rw [saved] at member
            exact Or.inl member
    | _ => exact Or.inl member
  · exact Or.inl member

theorem Sound.step (sound : Sound archive records s) (inTurn : InTurn s e)
    (h : Timed.step archive s e = some t) :
    Sound archive records t ∧ BooksUpTo (e.env.startSave ≠ .ok ()) archive records t.sheet
      t.session.server.controller := by
  obtain ⟨session, step, rfl⟩ := Option.map_eq_some_iff.mp h
  obtain ⟨c, running, ends, log, goesOn⟩ := Session.step_cases step
  obtain ⟨partition, tracks, books⟩ := sound.inOrder c running
  obtain ⟨alternates, held⟩ := inTurn
  have sent : session.server.sent = session.server.controller.sent := by
    cases session.server <;> rfl
  rw [tracks.connected] at alternates
  have after : BooksAfter archive records e.env (s.sheet.receive archive e.env e.msg)
      ((Controller.handle archive e.env e.msg).run { c with sent := [] }) := by
    refine Books.handle rfl partition.quiet alternates ?_ (books.congr rfl rfl)
    intro w binary same
    rw [same] at held
    exact (tracks.holding w).mp held
  refine ⟨⟨fun c' running' => ?_, fun entry member => ?_⟩, ?_⟩
  · have run := goesOn c' running'
    have handled := Controller.handle_ok run
    rw [running'] at log
    refine ⟨partition.quiet.handled handled alternates, ?_, ?_⟩
    · rw [log]
      exact tracks.quiet.handled handled rfl alternates partition.quiet
    · have now : session.server = .running c' := running'
      have told : session.server.sent = c'.sent := by
        rw [now]
        rfl
      rw [BooksAfter, run] at after
      show Books archive records (Timesheet.sending e.env _ session.server.sent) c'
      rw [told]
      refine after.books ?_
      rintro ⟨-, f, c'', threw⟩
      cases threw
  · rw [settled_sending] at member
    rw [log]
    rcases mem_settled_receive member with old | ⟨binary, readable, same⟩
    · obtain ⟨binary, readable, received⟩ := sound.returned entry old
      exact ⟨binary, readable, List.mem_append_left _ (List.mem_append_left _ received)⟩
    · refine ⟨binary, readable, List.mem_append_left _ (List.mem_append_right _ ?_)⟩
      rw [same]
      exact List.mem_singleton_self _
  · show BooksUpTo _ archive records (Timesheet.sending e.env _ session.server.sent)
      session.server.controller
    rw [sent, ends]
    exact after.mono And.left

/-- Along a run the books are in order, unless the save of its last message has thrown. -/
theorem booksUpTo_run {es : List (Delivery β)}
    (inTurn : Along (Timed.step archive) InTurn (Timed.start records) es)
    (run : exec (Timed.step archive) (Timed.start records) es = some s) :
    Returned archive s ∧
      BooksUpTo (∃ before e, es = before ++ [e] ∧ e.env.startSave ≠ .ok ()) archive records s.sheet
        s.session.server.controller := by
  rcases List.eq_nil_or_concat es with rfl | ⟨before, e, rfl⟩
  · obtain rfl := Option.some.inj run
    exact ⟨Sound.start.returned, Books.start.upTo⟩
  · rw [List.concat_eq_append] at run inTurn ⊢
    obtain ⟨r, first, last⟩ := exec_snoc.mp run
    obtain ⟨inTurnBefore, inTurnLast⟩ := (along_snoc first).mp inTurn
    have sound : Sound archive records r :=
      exec_invariant (fun s e t sound inTurn step => (sound.step inTurn step).1) Sound.start
        inTurnBefore first
    obtain ⟨next, books⟩ := sound.step inTurnLast last
    exact ⟨next.returned, books.mono fun unsaved => ⟨before, e, rfl, unsaved⟩⟩

/-- The timesheet does not change what the server does. -/
theorem session_exec {es : List (Delivery β)} (run : exec (Timed.step archive) s es = some t) :
    exec (Session.step archive) s.session es = some t.session := by
  have commutes : ∀ (s : Timed β Algo Pop) (e : Delivery β),
      Session.step archive s.session (id e) = (Timed.step archive s e).map Timed.session := by
    intro s e
    rw [Timed.step, Option.map_map]
    exact Option.map_id'.symm
  have followed : exec (Session.step archive) s.session (es.map id) =
      (exec (Timed.step archive) s es).map Timed.session := exec_map commutes
  rw [List.map_id, run] at followed
  exact followed

end Timed

/-- As long as workers join and leave in turn and return work only while they hold some: a
    worker that holds work has the start of that work in its record, unless the server has
    been stopped before by a save of the settings; whatever has happened, its statistics are
    those of the allocations it has completed, each timed from its own start and returned by
    it; no allocation is completed twice, and none that was ended by `WORKER_LEAVE`. -/
theorem work_timed_from_its_start {β Algo Pop : Type} (archive : Archive β Algo Pop)
    (records : UnorderedMap WorkerId WorkerInfo) (es : List (Delivery β)) (s : Timed β Algo Pop)
    (inTurn : Along (Timed.step archive) Timed.InTurn (Timed.start records) es)
    (run : exec (Timed.step archive) (Timed.start records) es = some s) :
    exec (Session.step archive) (Session.start records) es = some s.session ∧
    (∀ w, s.session.server.controller.workAllocationMap.lookup w = none →
      s.sheet.heldBy w = []) ∧
    (∀ w r, s.session.server.controller.workAllocationMap.lookup w = some r →
      (∃ ticket wInfo, s.sheet.heldBy w = [ticket] ∧ ticket.content.workData = r.workData ∧
        s.session.repository.getWorkerInfo w = some wInfo ∧
        wInfo.lastWorkStartTime = ticket.content.startTime) ∨
      (∃ before e, es = before ++ [e] ∧ e.env.startSave ≠ .ok ()) ∧ s.sheet.heldBy w = []) ∧
    (∀ w, SameStats ((s.session.repository.getWorkerInfo w).getD {})
      (s.sheet.credited archive w ((records.lookup w).getD {}))) ∧
    Timed.Returned archive s ∧
    (s.sheet.settled.map fun entry => entry.1.number).Nodup ∧
    ∀ ticket ∈ s.sheet.voided, ∀ entry ∈ s.sheet.settled, entry.1.number ≠ ticket.number := by
  obtain ⟨returned, books⟩ := Timed.booksUpTo_run inTurn run
  rw [Session.repository_eq]
  exact ⟨Timed.session_exec run, books.idle, books.busy, books.credited, returned,
    s.sheet.nodup_settled, fun ticket voided => s.sheet.ne_of_voided voided⟩

/-- A worker joins, takes a request, leaves with it, comes back and returns it; the clock goes
    from one to five. -/
def timedRejoinRun : List (Delivery (PlainPayload String Nat)) :=
  rejoinRun.mapIdx fun k e =>
    ⟨{ (default : Surroundings) with
      startTime := (k + 1) * 1000000, finishTime := (k + 1) * 1000000 }, e.msg⟩

theorem work_timed_rejoin :
    ∃ s : Timed (PlainPayload String Nat) String Nat,
      exec (Timed.step Archive.plain) (Timed.start ∅) timedRejoinRun = some s ∧
      s.sheet.settled.length = 1 ∧ s.sheet.voided.length = 1 ∧
      SameStats ((s.session.repository.getWorkerInfo "worker_a").getD {})
        (s.sheet.credited Archive.plain "worker_a" {}) := by
  refine ⟨_, rfl, rfl, rfl, ?_⟩
  exact (work_timed_from_its_start Archive.plain ∅ timedRejoinRun _ (by decide) rfl).2.2.2.1
    "worker_a"

end Metasolver
