import Metasolver.Controller.Session

/-!
# Workers over whole runs

The partition of the connected workers into free and busy ones, for every
sequence of messages in which each worker joins and leaves in turn, returns
results only while it holds an allocation, and every payload deserializes
(`Orderly`).  Each of these messages is handled, unless the settings cannot be
saved or the lookup of a library throws (`OrderlyState.step`).  `Tracks` says that
the log and the members of the controller agree on who is connected and who holds
an allocation; since `trail` follows the log through the sends of one handler, it
also says so at the moment of each send.

Without any condition on the messages there is still no idle worker while work
waits (`no_idle_worker`), and a repeated `WORKER_JOIN` is without effect exactly
for the workers in the free pool (`workerJoin_noop_iff`).
-/

namespace Metasolver

open Exec

variable {β Algo Pop : Type} {archive : Archive β Algo Pop} {env : Surroundings}

/-- What is asked of the messages about workers. -/
def Orderly (archive : Archive β Algo Pop) (s : Session β) (e : Delivery β) : Prop :=
  Controller.Alternates s.log.connected e.msg ∧ Controller.Deserializes archive e.msg ∧
    s.server.Running fun c => c.Expected e.msg

instance (archive : Archive β Algo Pop) (s : Session β) (e : Delivery β) :
    Decidable (Orderly archive s e) :=
  inferInstanceAs (Decidable (_ ∧ _ ∧ _))

namespace Controller

variable {c c' : Controller β} {i : IslandId} {d : β} {w : WorkerId} {log base : Log β}

structure Tracks (log : Log β) (c : Controller β) : Prop where
  connected : log.connected = c.workerInfo.connectedWorkers
  holding : ∀ w, w ∈ log.holding ↔ w ∈ c.workAllocationMap
  sound : History.EachAfter Log.AllocationOk log

/-- The log while a handler is running: what the handler has sent so far is in `sent`. -/
def trail (base : Log β) (c : Controller β) : Log β := base ++ c.sent.map .sent

theorem trail_quiet (quiet : c.sent = []) : trail base c = base := by
  simp [trail, quiet]

theorem trail_allocated {repo : WorkerInfoRepository} :
    trail base (c.allocated w i d repo) =
      trail base c ++ [.sent (.toWorker w (.allocateWork d))] := by
  simp [trail, Controller.allocated]

theorem trail_send (m : Sent β) :
    trail base { c with sent := c.sent ++ [m] } = trail base c ++ [.sent m] := by
  simp [trail]

theorem trail_answered {binary : β} {repo : WorkerInfoRepository} :
    trail base (c.answered w i binary repo) = trail base c ++ [.sent (.toIsland i binary)] := by
  simp [trail, Controller.answered, Controller.cleared]

namespace Tracks

theorem congr (h : Tracks log c) (hw : c'.workerInfo = c.workerInfo)
    (ha : c'.workAllocationMap = c.workAllocationMap) : Tracks log c' where
  connected := by rw [hw]; exact h.connected
  holding := by rw [ha]; exact h.holding
  sound := h.sound

theorem quiet (h : Tracks log c) : Tracks log { c with sent := [] } := h.congr rfl rfl

theorem start (records : UnorderedMap WorkerId WorkerInfo) :
    Tracks [] (Controller.start records : Controller β) where
  connected := rfl
  holding w := by simp [Log.holding, Controller.start, Finmap.notMem_empty]
  sound := .nil

theorem allocated {repo : WorkerInfoRepository} (tracks : Tracks (trail base c) c)
    (partition : Partition c) (free : w ∈ c.freeWorkersPool)
    (started : c.workerInfo.workerStartedWork w env.startTime = .ok repo) :
    Tracks (trail base (c.allocated w i d repo)) (c.allocated w i d repo) := by
  obtain ⟨-, connected, -⟩ := WorkerInfoRepository.modifyRecord_ok started
  rw [trail_allocated]
  constructor
  · rw [Log.connected_snoc]
    exact tracks.connected.trans connected.symm
  · intro v
    rw [Log.holding_snoc]
    simp only [Log.holdingStep, Finset.mem_insert, tracks.holding]
    exact UnorderedMap.mem_emplace.symm
  · refine History.eachAfter_snoc.mpr ⟨tracks.sound, ?_, ?_⟩
    · rw [tracks.connected]
      exact (partition.cover w).mpr (Or.inl free)
    · rw [tracks.holding]
      exact partition.freeNotBusy w free

theorem places (h : Places archive env i d c c') (partition : Partition c)
    (tracks : Tracks (trail base c) c) : Tracks (trail base c') c' := by
  cases h with
  | queue => exact tracks.congr rfl rfl
  | allocate someFree c' h =>
      obtain ⟨w, repo, ⟨wct, -, chosen⟩, started⟩ := h
      exact tracks.allocated partition (mem_of_chooseWorker chosen) started

theorem frees (h : Frees archive env w c c') (partition : PartitionWith {w} c)
    (tracks : Tracks (trail base c) c) : Tracks (trail base c') c' := by
  cases h with
  | release => exact tracks.congr rfl rfl
  | serve i d waiting c' h =>
      obtain ⟨v, repo, ⟨wct, -, chosen⟩, started⟩ := h
      have popped : Partition ((c.released w).popped i) := partition.released.congr rfl rfl rfl
      have same : Tracks (trail base ((c.released w).popped i)) ((c.released w).popped i) :=
        tracks.congr rfl rfl
      exact same.allocated popped (mem_of_chooseWorker chosen) started

/-- One more entry of the log, and what the controller does about it. -/
theorem next {a : Action β} (tracks : Tracks log c)
    (hc : Log.connectedStep log.connected a = c'.workerInfo.connectedWorkers)
    (hh : ∀ v, v ∈ Log.holdingStep log.holding a ↔ v ∈ c'.workAllocationMap)
    (ok : Log.AllocationOk log a) : Tracks (log ++ [a]) c' where
  connected := by rw [Log.connected_snoc]; exact hc
  holding := by rw [Log.holding_snoc]; exact hh
  sound := History.eachAfter_snoc.mpr ⟨tracks.sound, ok⟩

/-- A message that neither notifies of a worker nor returns work. -/
theorem received {m : Incoming β} (tracks : Tracks log c)
    (hc : Log.connectedStep log.connected (.received m) = log.connected)
    (hh : Log.holdingStep log.holding (.received m) = log.holding) :
    Tracks (log ++ [.received m]) c :=
  tracks.next (hc.trans tracks.connected) (by rw [hh]; exact tracks.holding) trivial

/-- A worker that leaves holds nothing any more. -/
theorem leave (tracks : Tracks log c) :
    Tracks (log ++ [.received (.fromWorker w .workerLeave)]) ((c.left w).cleared w) := by
  apply tracks.next
  · rw [Log.connectedStep, tracks.connected]
    rfl
  · intro v
    rw [Log.holdingStep, Finset.mem_erase, tracks.holding]
    exact Finmap.mem_erase.symm
  · trivial

/-- The log of one message agrees with the controller after it. -/
theorem handled {msg : Incoming β} (h : Handled archive env c msg c') (quiet : c.sent = [])
    (alternates : Alternates c.workerInfo.connectedWorkers msg) (partition : Partition c)
    (tracks : Tracks log c) : Tracks (Session.record log msg c') c' := by
  have before : ∀ base : Log β, trail base c = base := fun base => trail_quiet quiet
  change Tracks (trail (log ++ [.received msg]) c') c'
  cases h with
  | joinKnown w known => exact absurd ((partition.cover w).mpr (Or.inl known)) alternates
  | join w unknown c' h =>
      refine frees h (partition.joined alternates) ?_
      rw [show trail _ (c.joined w) = _ from before _]
      apply tracks.next
      · rw [Log.connectedStep, tracks.connected]
        rfl
      · exact tracks.holding
      · trivial
  | leaveIdle w idle =>
      rw [show trail _ (c.left w) = _ from before _]
      have unchanged : (c.left w).workAllocationMap = ((c.left w).cleared w).workAllocationMap :=
        (UnorderedMap.erase_of_lookup_none idle).symm
      exact tracks.leave.congr rfl unchanged
  | leaveBusy w record busy c' h =>
      refine places h partition.leave ?_
      rw [show trail _ ((c.left w).cleared w) = _ from before _]
      exact tracks.leave
  | results w binary wct repo record readable finished busy c' h =>
      refine frees h (partition.answered busy finished) ?_
      obtain ⟨-, connected, -⟩ := WorkerInfoRepository.modifyRecord_ok finished
      rw [trail_answered, before]
      have returned : Tracks (log ++ [.received (.fromWorker w (.workResults binary))])
          (c.answered w record.islandId binary repo) := by
        apply tracks.next
        · exact tracks.connected.trans connected.symm
        · intro v
          rw [Log.holdingStep, Finset.mem_erase, tracks.holding]
          exact Finmap.mem_erase.symm
        · trivial
      exact returned.next returned.connected returned.holding trivial
  | getDll w binary reply =>
      rw [trail_send, before]
      have got := tracks.received (m := .fromWorker w (.getDll binary)) rfl rfl
      exact got.next got.connected got.holding trivial
  | request i d c' h =>
      refine places h partition ?_
      rw [before]
      exact tracks.received rfl rfl
  | unhandledWorker =>
      rw [before]
      exact tracks.received rfl rfl
  | unhandledIsland =>
      rw [before]
      exact tracks.received rfl rfl

end Tracks

end Controller

/-! ## Runs -/

/-- What holds between two messages of an orderly run. -/
structure OrderlyState (archive : Archive β Algo Pop) (s : Session β) (c : Controller β) :
    Prop where
  running : s.server = .running c
  partition : c.Partition
  tracks : Controller.Tracks s.log c
  readable : ∀ x ∈ c.records, archive.Reads x.2

/-- The handler of the message throws on its way to `calm`, because the settings cannot be
    saved or the library cannot be looked up. -/
structure Halts (archive : Archive β Algo Pop) (s : Session β) (e : Delivery β)
    (c calm : Controller β) (t : Session β) : Prop where
  disturbed : ¬Controller.Undisturbed archive e.env e.msg
  step : Session.step archive s e = some t
  stopped : ∃ x c', t = ⟨.stopped (.exception x) c', Session.record s.log e.msg c'⟩ ∧
    Controller.Interrupted e.msg { c with sent := [] } c' calm

theorem Halts.not_running {s t u : Session β} {e : Delivery β} {c calm c' : Controller β}
    (h : Halts archive s e c calm t) (step : Session.step archive s e = some u) :
    u.server ≠ .running c' := by
  obtain rfl := Option.some.inj (step.symm.trans h.step)
  obtain ⟨x, c'', rfl, -⟩ := h.stopped
  intro running
  cases running

/-- An orderly message is handled, and the next one finds the controller in order, or the
    handler is interrupted on its way there. -/
theorem OrderlyState.step {s : Session β} {e : Delivery β} {c : Controller β}
    (state : OrderlyState archive s c) (orderly : Orderly archive s e) :
    ∃ c', Controller.Handled archive e.env.calm { c with sent := [] } e.msg c' ∧
      OrderlyState archive ⟨.running c', Session.record s.log e.msg c'⟩ c' ∧
      (Session.step archive s e = some ⟨.running c', Session.record s.log e.msg c'⟩ ∨
        ∃ t, Halts archive s e c c' t) := by
  obtain ⟨alternates, deserializes, expected⟩ := orderly
  rw [state.running] at expected
  rw [state.tracks.connected] at alternates
  have partition := state.partition.quiet
  obtain ⟨c', run⟩ : ∃ c', (Controller.handle archive e.env.calm e.msg).run
      { c with sent := [] } = .ok () c' :=
    Controller.handle_total partition state.readable alternates expected deserializes
      (Controller.undisturbed_calm e.msg)
  have handled := Controller.handle_ok run
  refine ⟨c', handled, ⟨rfl, partition.handled handled alternates,
    state.tracks.quiet.handled handled rfl alternates partition, ?_⟩, ?_⟩
  · intro x member
    rcases Controller.records_handled_subset handled alternates partition member with old | new
    · exact state.readable x old
    · rw [new] at deserializes
      exact deserializes
  · rcases Controller.handle_or_interrupted run with ends | ⟨x, c'', ends, interrupted⟩
    · refine Or.inl ?_
      simp only [Session.step, state.running, ends]
    · refine Or.inr ⟨_, fun undisturbed => ?_, ?_, x, c'', rfl, interrupted⟩
      · rw [Controller.handle_calm undisturbed, run] at ends
        cases ends
      · simp only [Session.step, state.running, ends]

theorem OrderlyState.start (archive : Archive β Algo Pop)
    (records : UnorderedMap WorkerId WorkerInfo) :
    OrderlyState archive (Session.start records) (Controller.start records) where
  running := rfl
  partition := Controller.PartitionWith.start records
  tracks := Controller.Tracks.start records
  readable x member := by simp [Controller.records, Controller.start] at member

/-- The message is orderly, and nothing interrupts its handler. -/
def OrderlyAndUndisturbed (archive : Archive β Algo Pop) (s : Session β) (e : Delivery β) : Prop :=
  Orderly archive s e ∧ Controller.Undisturbed archive e.env e.msg

instance (archive : Archive β Algo Pop) (s : Session β) (e : Delivery β) :
    Decidable (OrderlyAndUndisturbed archive s e) :=
  inferInstanceAs (Decidable (_ ∧ _))

/-- Every orderly run that nothing interrupts is handled to its end. -/
theorem orderly_run {records : UnorderedMap WorkerId WorkerInfo} {es : List (Delivery β)}
    (orderly : Along (Session.step archive) (OrderlyAndUndisturbed archive)
      (Session.start records) es) :
    ∃ s, exec (Session.step archive) (Session.start records) es = some s ∧
      ∃ c, OrderlyState archive s c := by
  refine exec_total (I := fun s => ∃ c, OrderlyState archive s c) ?_
    ⟨_, OrderlyState.start archive records⟩ orderly
  rintro s e ⟨c, state⟩ ⟨ok, undisturbed⟩
  obtain ⟨c', -, next, step | ⟨t, halts⟩⟩ := state.step ok
  · exact ⟨_, step, c', next⟩
  · exact absurd undisturbed halts.disturbed

/-- In an orderly run in which the settings can be saved and libraries can be looked up no
    handler faults; after each message the connected workers are the disjoint union of the
    free pool and the workers that hold an allocation, and have records; and work was only
    ever sent to a worker that was connected and held no other allocation at that moment. -/
theorem worker_partition (archive : Archive β Algo Pop)
    (records : UnorderedMap WorkerId WorkerInfo) (es : List (Delivery β))
    (orderly : Along (Session.step archive) (OrderlyAndUndisturbed archive)
      (Session.start records) es) :
    ∃ c log, exec (Session.step archive) (Session.start records) es =
        some ⟨.running c, log⟩ ∧
      c.workerInfo.connectedWorkers = c.freeWorkersPool ∪ c.workAllocationMap.keys ∧
      Disjoint c.freeWorkersPool c.workAllocationMap.keys ∧
      (∀ w ∈ c.workerInfo.connectedWorkers, w ∈ c.workerInfo.workerRecords) ∧
      log.connected = c.workerInfo.connectedWorkers ∧
      log.holding = c.workAllocationMap.keys ∧
      ∀ before after w workData,
        log = before ++ .sent (.toWorker w (.allocateWork workData)) :: after →
        w ∈ Log.connected before ∧ w ∉ Log.holding before := by
  obtain ⟨⟨server, log⟩, run, c, running, partition, tracks, -⟩ := orderly_run orderly
  obtain rfl : server = .running c := running
  refine ⟨c, log, run, ?_, ?_, partition.recorded, tracks.connected, ?_, ?_⟩
  · ext v
    rw [partition.cover, Finset.mem_union, Finmap.mem_keys]
    simp
  · rw [Finset.disjoint_left]
    intro v free busy
    exact partition.freeNotBusy v free (Finmap.mem_keys.mp busy)
  · ext v
    rw [tracks.holding, Finmap.mem_keys]
  · rintro before after w workData rfl
    exact tracks.sound.at_split

/-- A worker joins, takes a request, leaves with it, comes back and returns it. -/
def rejoinRun : List (Delivery (PlainPayload String Nat)) :=
  [⟨default, .fromWorker "worker_a" .workerJoin⟩,
    ⟨default, .fromIsland "island_1" (.allocateWork (.work ⟨"de", 100, "", 1⟩))⟩,
    ⟨default, .fromWorker "worker_a" .workerLeave⟩,
    ⟨default, .fromWorker "worker_a" .workerJoin⟩,
    ⟨default, .fromWorker "worker_a" (.workResults (.work ⟨"de", 100, "", 1⟩))⟩]

theorem worker_partition_rejoin :
    ∃ c log, exec (Session.step Archive.plain) (Session.start ∅) rejoinRun =
        some ⟨.running c, log⟩ ∧
      c.workerInfo.connectedWorkers = c.freeWorkersPool ∪ c.workAllocationMap.keys := by
  obtain ⟨c, log, run, cover, -⟩ := worker_partition Archive.plain ∅ rejoinRun (by decide)
  exact ⟨c, log, run, cover⟩

/-- A file name has at most 255 bytes; for a longer one `exists` throws. -/
def shortNames : Surroundings :=
  { (default : Surroundings) with
    getLibAsFile := fun libName =>
      if (libName ++ ".so").utf8ByteSize ≤ 255 then .ok none else .error .filesystemError }

/-- A worker asks for a library whose name has 300 characters. -/
def longNameRun : List (Delivery (PlainPayload String Nat)) :=
  [⟨shortNames, .fromWorker "worker_a" .workerJoin⟩,
    ⟨shortNames, .fromWorker "worker_a" (.getDll (.request ⟨.ofList (.replicate 300 'a')⟩))⟩]

/-- The disk is full. -/
def diskFull : Surroundings :=
  { (default : Surroundings) with
    noticeSave := .error .iosFailure
    startSave := .error .iosFailure }

/-- A worker leaves when the settings cannot be saved any more. -/
def diskFullRun : List (Delivery (PlainPayload String Nat)) :=
  [⟨default, .fromWorker "worker_a" .workerJoin⟩, ⟨diskFull, .fromWorker "worker_a" .workerLeave⟩]

/-- Both runs are orderly, and both stop the server.  The second one stops it when the worker
    is in neither of the two sets, but still connected. -/
theorem worker_partition_interrupted :
    (Along (Session.step Archive.plain) (Orderly Archive.plain) (Session.start ∅) longNameRun ∧
      (exec (Session.step Archive.plain) (Session.start ∅) longNameRun).map
        (fun s => s.server.fault) = some (some (.exception .filesystemError))) ∧
    Along (Session.step Archive.plain) (Orderly Archive.plain) (Session.start ∅) diskFullRun ∧
      ∃ c log, exec (Session.step Archive.plain) (Session.start ∅) diskFullRun =
          some ⟨.stopped (.exception .iosFailure) c, log⟩ ∧
        c.workerInfo.connectedWorkers ≠ c.freeWorkersPool ∪ c.workAllocationMap.keys := by
  refine ⟨⟨?_, ?_⟩, ?_, _, _, rfl, ?_⟩
  · decide +kernel
  · decide +kernel
  · decide
  · decide

/-! ## Arbitrary messages -/

/-- Whatever is received, in whatever order: as long as the server runs there is no
    free worker while an island waits, and `*begin()` is never evaluated on an
    empty container. -/
theorem no_idle_worker (archive : Archive β Algo Pop) (records : UnorderedMap WorkerId WorkerInfo)
    (es : List (Delivery β)) (s : Session β)
    (run : exec (Session.step archive) (Session.start records) es = some s) :
    (∀ c, s.server = .running c → c.freeWorkersPool = ∅ ∨ c.islandsWaitingForAlloc = ∅) ∧
      ∀ c, s.server ≠ .stopped .undefinedBehaviour c := by
  refine exec_invariant_of_step (I := fun s => (∀ c, s.server = .running c → c.NoIdle) ∧
    ∀ c, s.server ≠ .stopped .undefinedBehaviour c) ?_ ?_ run
  · rintro ⟨server, log⟩ e t ⟨idle, -⟩ step
    cases server with
    | stopped fault c => simp [Session.step] at step
    | running c =>
        simp only [Session.step] at step
        split at step
        case h_1 u c' handled =>
          simp only [Option.some.injEq] at step
          subst step
          refine ⟨?_, by simp⟩
          rintro c₂ ⟨⟩
          have before : Controller.NoIdle { c with sent := [] } := idle c rfl
          exact before.handled (Controller.handle_ok handled)
        case h_2 fault c' faulted =>
          simp only [Option.some.injEq] at step
          subst step
          refine ⟨by simp, ?_⟩
          rintro c₂ ⟨⟩
          exact (Controller.handle_error faulted).1 rfl
  · refine ⟨?_, by simp [Session.start]⟩
    rintro c ⟨⟩
    exact Or.inl rfl

/-- A leave of an unknown worker, two requests, and a worker that joins twice. -/
def repeatedJoinRun : List (Delivery (PlainPayload String Nat)) :=
  [⟨default, .fromWorker "worker_b" .workerLeave⟩,
    ⟨default, .fromIsland "island_1" (.allocateWork (.work ⟨"de", 100, "", 1⟩))⟩,
    ⟨default, .fromIsland "island_2" (.allocateWork (.work ⟨"pso", 80, "", 1⟩))⟩,
    ⟨default, .fromWorker "worker_a" .workerJoin⟩,
    ⟨default, .fromWorker "worker_a" .workerJoin⟩]

theorem no_idle_worker_repeated_join :
    ∃ s, exec (Session.step Archive.plain) (Session.start ∅) repeatedJoinRun = some s ∧
      ∀ c, s.server = .running c → c.freeWorkersPool = ∅ ∨ c.islandsWaitingForAlloc = ∅ := by
  have handled : (exec (Session.step Archive.plain) (Session.start ∅) repeatedJoinRun).isSome := by
    decide
  obtain ⟨s, run⟩ := Option.isSome_iff_exists.mp handled
  exact ⟨s, run, (no_idle_worker _ _ _ s run).1⟩

/-- A further `WORKER_JOIN` changes nothing and sends nothing exactly when the
    worker is in the free pool.  For a busy worker the test at the start of the
    handler, which looks in the free pool only, does not recognize it. -/
theorem workerJoin_noop_iff (archive : Archive β Algo Pop) (env : Surroundings)
    (c : Controller β) (w : WorkerId) :
    (Controller.handle archive env (.fromWorker w .workerJoin)).run { c with sent := [] } =
        .ok () { c with sent := [] } ↔
      w ∈ c.freeWorkersPool := by
  constructor
  · intro run
    by_contra busy
    rw [Controller.handle, Controller.workerJoin_run, if_neg busy] at run
    cases saved : env.noticeSave with
    | error e => simp [saved] at run
    | ok _ =>
        simp only [saved] at run
        rcases (Controller.addFreeWorker_ok run).free_or_sent with free | sent
        · exact busy free
        · exact sent rfl
  · intro free
    rw [Controller.handle, Controller.workerJoin_run, if_pos free]

/-- A busy worker joins again while an island waits.  The waiting island is popped
    for it, but `emplace` keeps the record of the first island: the second one is
    recorded nowhere, and the worker is sent a second job. -/
theorem workerJoin_busy_not_noop :
    ∃ c log c', exec (Session.step Archive.plain) (Session.start ∅)
        [⟨default, .fromWorker "worker_a" .workerJoin⟩,
          ⟨default, .fromIsland "island_1" (.allocateWork (.work ⟨"de", 100, "", 1⟩))⟩,
          ⟨default, .fromIsland "island_2" (.allocateWork (.work ⟨"pso", 80, "", 1⟩))⟩] =
        some ⟨.running c, log⟩ ∧
      "worker_a" ∈ log.connected ∧ "island_2" ∈ c.islandsWaitingForAlloc ∧
      (Controller.handle Archive.plain default (.fromWorker "worker_a" .workerJoin)).run
          { c with sent := [] } = .ok () c' ∧
      c'.islandsWaitingForAlloc ≠ c.islandsWaitingForAlloc ∧
      "island_2" ∉ c'.islandsWaitingForAlloc ∧
      c'.workAllocationMap = c.workAllocationMap ∧
      c'.sent = [.toWorker "worker_a" (.allocateWork (.work ⟨"pso", 80, "", 1⟩))] := by
  refine ⟨_, _, _, rfl, ?_, ?_, rfl, ?_, ?_, ?_, ?_⟩
  all_goals decide

end Metasolver
