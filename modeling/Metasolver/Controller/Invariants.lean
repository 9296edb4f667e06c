import Metasolver.Controller.Interruptions
import Metasolver.Lib.RequestReply

/-!
# Invariants of the controller

Three facts about a controller between two messages.

* `NoIdle`: there is no free worker while an island waits.  It holds under every
  message sequence.
* `Partition`: the connected workers are exactly the free ones and the ones that
  hold an allocation, and all of them have a record.  It needs `WORKER_JOIN` and
  `WORKER_LEAVE` to alternate.
* `records`: the requests the controller holds, waiting or allocated, as a
  multiset.  A handler moves requests between the two maps and keeps the sum.

Inside a handler a worker can be connected without being free or allocated, namely
between the moment it has joined or returned its results and the call of
`_add_free_worker`.  `PartitionWith limbo` allows for these workers.
-/

namespace Metasolver

namespace Controller

variable {β Algo Pop : Type} {archive : Archive β Algo Pop} {env : Surroundings}
  {c c' : Controller β} {i : IslandId} {d : β} {w : WorkerId} {limbo : Finset WorkerId}

/-! ## No idle worker while work waits -/

def NoIdle (c : Controller β) : Prop :=
  c.freeWorkersPool = ∅ ∨ c.islandsWaitingForAlloc = ∅

theorem NoIdle.places (h : Places archive env i d c c') (idle : NoIdle c) : NoIdle c' := by
  cases h with
  | queue noneFree => exact Or.inl noneFree
  | allocate someFree c' h =>
      obtain ⟨w, repo, -, -⟩ := h
      have noneWaiting : c.islandsWaitingForAlloc = ∅ := idle.resolve_left someFree
      exact Or.inr noneWaiting

theorem NoIdle.frees (h : Frees archive env w c c') (idle : NoIdle c) : NoIdle c' := by
  cases h with
  | release noneWaiting => exact Or.inr noneWaiting
  | serve i d waiting c' h =>
      obtain ⟨v, repo, ⟨wct, -, chosen⟩, -⟩ := h
      have someWaiting : c.islandsWaitingForAlloc ≠ ∅ := by
        intro empty
        rw [empty, Finmap.lookup_empty] at waiting
        cases waiting
      have noneFree : c.freeWorkersPool = ∅ := idle.resolve_right someWaiting
      -- so the pool holds the released worker alone, and that one is taken
      have member : v ∈ insert w c.freeWorkersPool := mem_of_chooseWorker chosen
      rw [noneFree] at member
      obtain rfl : v = w := by simpa using member
      refine Or.inl ?_
      change (insert v c.freeWorkersPool).erase v = ∅
      rw [noneFree]
      simp

theorem NoIdle.left (idle : NoIdle c) : NoIdle (c.left w) := by
  rcases idle with noneFree | noneWaiting
  · refine Or.inl ?_
    change c.freeWorkersPool.erase w = ∅
    rw [noneFree, Finset.erase_empty]
  · exact Or.inr noneWaiting

/-- One message keeps `NoIdle`, whatever the message. -/
theorem NoIdle.handled {msg : Incoming β} (h : Handled archive env c msg c') (idle : NoIdle c) :
    NoIdle c' := by
  cases h with
  | joinKnown => exact idle
  | join w unknown c' h =>
      have joined : NoIdle (c.joined w) := idle
      exact joined.frees h
  | leaveIdle => exact idle.left
  | leaveBusy w record busy c' h =>
      have cleared : NoIdle ((c.left w).cleared w) := idle.left
      exact cleared.places h
  | results w binary wct repo record readable finished busy c' h =>
      have answered : NoIdle (c.answered w record.islandId binary repo) := idle
      exact answered.frees h
  | getDll => exact idle
  | request i d c' h => exact idle.places h
  | unhandledWorker => exact idle
  | unhandledIsland => exact idle

/-! ## Free and busy workers -/

structure PartitionWith (limbo : Finset WorkerId) (c : Controller β) : Prop where
  cover : ∀ v, v ∈ c.workerInfo.connectedWorkers ↔
    v ∈ c.freeWorkersPool ∨ v ∈ c.workAllocationMap ∨ v ∈ limbo
  freeNotBusy : ∀ v ∈ c.freeWorkersPool, v ∉ c.workAllocationMap
  limboApart : ∀ v ∈ limbo, v ∉ c.freeWorkersPool ∧ v ∉ c.workAllocationMap
  recorded : ∀ v ∈ c.workerInfo.connectedWorkers, v ∈ c.workerInfo.workerRecords

abbrev Partition (c : Controller β) : Prop := PartitionWith ∅ c

namespace PartitionWith

theorem start (records : UnorderedMap WorkerId WorkerInfo) :
    Partition (Controller.start records : Controller β) where
  cover v := by simp [Controller.start, Finmap.notMem_empty]
  freeNotBusy v member := by simp [Controller.start] at member
  limboApart v member := by simp at member
  recorded v member := by simp [Controller.start] at member

/-- What `send` and the changes of the waiting islands leave alone. -/
theorem congr (h : PartitionWith limbo c) (hw : c'.workerInfo = c.workerInfo)
    (hf : c'.freeWorkersPool = c.freeWorkersPool)
    (ha : c'.workAllocationMap = c.workAllocationMap) : PartitionWith limbo c' where
  cover := by rw [hw, hf, ha]; exact h.cover
  freeNotBusy := by rw [hf, ha]; exact h.freeNotBusy
  limboApart := by rw [hf, ha]; exact h.limboApart
  recorded := by rw [hw]; exact h.recorded

/-- The next handler begins with nothing sent. -/
theorem quiet (h : PartitionWith limbo c) : PartitionWith limbo { c with sent := [] } :=
  h.congr rfl rfl rfl

theorem busy_connected {r : WorkAllocationRecord β} (h : PartitionWith limbo c)
    (busy : c.workAllocationMap.lookup w = some r) : w ∈ c.workerInfo.connectedWorkers :=
  (h.cover w).mpr (Or.inr (Or.inl (Finmap.mem_of_lookup_eq_some busy)))

theorem free_recorded (h : PartitionWith limbo c) (free : w ∈ c.freeWorkersPool) :
    w ∈ c.workerInfo.workerRecords :=
  h.recorded w ((h.cover w).mpr (Or.inl free))

theorem joined (h : Partition c) (away : w ∉ c.workerInfo.connectedWorkers) :
    PartitionWith {w} (c.joined w) where
  cover v := by
    have := h.cover v
    simp only [Finset.notMem_empty, or_false] at this
    simp only [Controller.joined, WorkerInfoRepository.connectedWorkers_workerJoined,
      Finset.mem_insert, this, Finset.mem_singleton]
    tauto
  freeNotBusy := h.freeNotBusy
  limboApart v member := by
    obtain rfl := Finset.mem_singleton.mp member
    rw [h.cover] at away
    exact ⟨fun free => away (Or.inl free), fun busy => away (Or.inr (Or.inl busy))⟩
  recorded v member := by
    change v ∈ insert w c.workerInfo.connectedWorkers at member
    refine WorkerInfoRepository.mem_workerRecords_workerJoined.mpr ?_
    rcases Finset.mem_insert.mp member with same | connected
    · exact Or.inl same
    · exact Or.inr (h.recorded v connected)

theorem leave (h : Partition c) : Partition ((c.left w).cleared w) where
  cover v := by
    have := h.cover v
    simp only [Finset.notMem_empty, or_false] at this
    simp only [Controller.left, Controller.cleared,
      WorkerInfoRepository.connectedWorkers_workerLeft, Finset.mem_erase, Finmap.mem_erase,
      Finset.notMem_empty, or_false, this]
    tauto
  freeNotBusy v free busy :=
    h.freeNotBusy v (Finset.mem_of_mem_erase free) (Finmap.mem_erase.mp busy).2
  limboApart v member := by simp at member
  recorded v member := h.recorded v (Finset.mem_of_mem_erase member)

/-- An idle worker that leaves: there is no allocation to clear. -/
theorem leaveIdle (h : Partition c) (idle : c.workAllocationMap.lookup w = none) :
    Partition (c.left w) := by
  have unchanged := UnorderedMap.erase_of_lookup_none idle
  exact (h.leave (w := w)).congr rfl rfl unchanged.symm

/-- The worker has been credited for its results and holds no allocation any more. -/
theorem answered {r : WorkAllocationRecord β} {binary : β} {repo : WorkerInfoRepository}
    {population : Nat} {algoName : String} {now : TimePoint} (h : Partition c)
    (busy : c.workAllocationMap.lookup w = some r)
    (finished : c.workerInfo.workerFinishedWork w population algoName now = .ok repo) :
    PartitionWith {w} (c.answered w i binary repo) := by
  obtain ⟨-, connected, kept⟩ := WorkerInfoRepository.modifyRecord_ok finished
  have present := Finmap.mem_of_lookup_eq_some busy
  constructor
  · intro v
    have := h.cover v
    simp only [Finset.notMem_empty, or_false] at this
    simp only [Controller.answered, Controller.cleared, connected, this, Finmap.mem_erase,
      Finset.mem_singleton]
    by_cases same : v = w
    · subst same
      simp [present]
    · simp [same]
  · intro v free busy
    exact h.freeNotBusy v free (Finmap.mem_erase.mp busy).2
  · intro v member
    obtain rfl := Finset.mem_singleton.mp member
    refine ⟨fun free => ?_, Finmap.notMem_erase_self⟩
    exact h.freeNotBusy v free present
  · intro v member
    change v ∈ repo.connectedWorkers at member
    rw [connected] at member
    exact (kept v).mpr (h.recorded v member)

theorem released (h : PartitionWith {w} c) : Partition (c.released w) where
  cover v := by
    rw [show (c.released w).workerInfo = c.workerInfo from rfl, h.cover]
    simp only [Controller.released, Finset.mem_insert, Finset.mem_singleton, Finset.notMem_empty,
      or_false]
    tauto
  freeNotBusy v free := by
    rcases Finset.mem_insert.mp free with rfl | free
    · exact (h.limboApart v (Finset.mem_singleton_self v)).2
    · exact h.freeNotBusy v free
  limboApart v member := by simp at member
  recorded := h.recorded

theorem allocated {repo : WorkerInfoRepository} (h : Partition c) (free : w ∈ c.freeWorkersPool)
    (started : c.workerInfo.workerStartedWork w env.startTime = .ok repo) :
    Partition (c.allocated w i d repo) := by
  obtain ⟨-, connected, kept⟩ := WorkerInfoRepository.modifyRecord_ok started
  constructor
  · intro v
    have := h.cover v
    simp only [Finset.notMem_empty, or_false] at this
    simp only [Controller.allocated, Controller.claimed, connected, this, Finset.mem_erase,
      UnorderedMap.mem_emplace, Finset.notMem_empty, or_false]
    by_cases same : v = w
    · subst same
      simp [free]
    · simp [same]
  · intro v member busy
    obtain ⟨other, member⟩ := Finset.mem_erase.mp member
    rcases UnorderedMap.mem_emplace.mp busy with same | busy
    · exact other same
    · exact h.freeNotBusy v member busy
  · intro v member
    simp at member
  · intro v member
    change v ∈ repo.connectedWorkers at member
    rw [connected] at member
    exact (kept v).mpr (h.recorded v member)

theorem places (h : Places archive env i d c c') (partition : Partition c) : Partition c' := by
  cases h with
  | queue => exact partition.congr rfl rfl rfl
  | allocate someFree c' h =>
      obtain ⟨w, repo, ⟨wct, -, chosen⟩, started⟩ := h
      exact partition.allocated (mem_of_chooseWorker chosen) started

theorem frees (h : Frees archive env w c c') (partition : PartitionWith {w} c) :
    Partition c' := by
  cases h with
  | release => exact partition.released
  | serve i d waiting c' h =>
      obtain ⟨v, repo, ⟨wct, -, chosen⟩, started⟩ := h
      have popped : Partition ((c.released w).popped i) := partition.released.congr rfl rfl rfl
      exact popped.allocated (mem_of_chooseWorker chosen) started

end PartitionWith

/-- The messages that keep the partition: a worker that joins is away, a worker
    that leaves is connected. -/
def Alternates (connected : Finset WorkerId) : Incoming β → Prop
  | .fromWorker w .workerJoin => w ∉ connected
  | .fromWorker w .workerLeave => w ∈ connected
  | _ => True

instance (connected : Finset WorkerId) : (msg : Incoming β) → Decidable (Alternates connected msg)
  | .fromWorker w .workerJoin => inferInstanceAs (Decidable (w ∉ connected))
  | .fromWorker w .workerLeave => inferInstanceAs (Decidable (w ∈ connected))
  | .fromWorker _ (.workResults _) => .isTrue trivial
  | .fromWorker _ (.getDll _) => .isTrue trivial
  | .fromWorker _ (.unhandled _ _) => .isTrue trivial
  | .fromIsland _ _ => .isTrue trivial

theorem PartitionWith.handled {msg : Incoming β} (h : Handled archive env c msg c')
    (alternates : Alternates c.workerInfo.connectedWorkers msg) (partition : Partition c) :
    Partition c' := by
  cases h with
  | joinKnown => exact partition
  | join w unknown c' h => exact (partition.joined alternates).frees h
  | leaveIdle w idle => exact partition.leaveIdle idle
  | leaveBusy w record busy c' h => exact partition.leave.places h
  | results w binary wct repo record readable finished busy c' h =>
      exact (partition.answered busy finished).frees h
  | getDll => exact partition.congr rfl rfl rfl
  | request i d c' h => exact partition.places h
  | unhandledWorker => exact partition
  | unhandledIsland => exact partition

/-! ## The requests the controller holds -/

def records (c : Controller β) : Multiset (IslandId × β) :=
  UnorderedMap.bag c.islandsWaitingForAlloc +
    (UnorderedMap.bag c.workAllocationMap).map fun p => (p.2.islandId, p.2.workData)

theorem mem_records_of_waiting (h : c.islandsWaitingForAlloc.lookup i = some d) :
    (i, d) ∈ records c :=
  Multiset.mem_add.mpr (Or.inl (UnorderedMap.mem_bag.mpr h))

theorem mem_records_of_busy {r : WorkAllocationRecord β}
    (h : c.workAllocationMap.lookup w = some r) : (r.islandId, r.workData) ∈ records c :=
  Multiset.mem_add.mpr (Or.inr (Multiset.mem_map.mpr ⟨(w, r), UnorderedMap.mem_bag.mpr h, rfl⟩))

theorem records_queued (fresh : i ∉ c.islandsWaitingForAlloc) :
    records (c.queued i d) = (i, d) ::ₘ records c := by
  simp only [records, queued, UnorderedMap.emplace_of_notMem fresh,
    UnorderedMap.bag_insert fresh, Multiset.cons_add]

theorem records_popped (waiting : c.islandsWaitingForAlloc.lookup i = some d) :
    records c = (i, d) ::ₘ records (c.popped i) := by
  simp only [records, popped, UnorderedMap.bag_erase waiting, Multiset.cons_add]

theorem records_allocated {repo : WorkerInfoRepository} (idle : w ∉ c.workAllocationMap) :
    records (c.allocated w i d repo) = (i, d) ::ₘ records c := by
  simp only [records, allocated, claimed, UnorderedMap.emplace_of_notMem idle,
    UnorderedMap.bag_insert idle, Multiset.map_cons, Multiset.add_cons]

theorem records_cleared {r : WorkAllocationRecord β}
    (busy : c.workAllocationMap.lookup w = some r) :
    records c = (r.islandId, r.workData) ::ₘ records (c.cleared w) := by
  simp only [records, cleared, UnorderedMap.bag_erase busy, Multiset.map_cons, Multiset.add_cons]

/-- A request that is placed is recorded, in one of the two maps. -/
theorem records_places (h : Places archive env i d c c') (partition : Partition c)
    (fresh : i ∉ c.islandsWaitingForAlloc) : records c' = (i, d) ::ₘ records c := by
  cases h with
  | queue => exact records_queued fresh
  | allocate someFree c' h =>
      obtain ⟨w, repo, ⟨wct, -, chosen⟩, -⟩ := h
      exact records_allocated (partition.freeNotBusy w (mem_of_chooseWorker chosen))

/-- Freeing a worker may move a waiting request to a worker, and loses none. -/
theorem records_frees (h : Frees archive env w c c') (partition : PartitionWith {w} c) :
    records c' = records c := by
  cases h with
  | release => rfl
  | serve i d waiting c' h =>
      obtain ⟨v, repo, ⟨wct, -, chosen⟩, -⟩ := h
      have idle := partition.released.freeNotBusy v (mem_of_chooseWorker chosen)
      rw [show records c = (i, d) ::ₘ records (c.popped i) from records_popped waiting]
      exact records_allocated idle

theorem records_handled_subset {msg : Incoming β} (h : Handled archive env c msg c')
    (alternates : Alternates c.workerInfo.connectedWorkers msg) (partition : Partition c)
    {x : IslandId × β} (member : x ∈ records c') :
    x ∈ records c ∨ msg = .fromIsland x.1 (.allocateWork x.2) := by
  have placed : ∀ {i d c₁}, Places archive env i d c₁ c' → Partition c₁ →
      x = (i, d) ∨ x ∈ records c₁ := by
    intro i d c₁ h partition
    by_cases fresh : i ∈ c₁.islandsWaitingForAlloc
    · cases h with
      | queue =>
          rw [records, queued, UnorderedMap.emplace_of_mem fresh] at member
          exact Or.inr member
      | allocate someFree c' h =>
          obtain ⟨w, repo, ⟨wct, -, chosen⟩, -⟩ := h
          rw [records_allocated (partition.freeNotBusy w (mem_of_chooseWorker chosen))] at member
          exact Multiset.mem_cons.mp member
    · rw [records_places h partition fresh] at member
      exact Multiset.mem_cons.mp member
  cases h with
  | joinKnown => exact Or.inl member
  | join w unknown c' h =>
      rw [records_frees h (partition.joined alternates)] at member
      exact Or.inl member
  | leaveIdle => exact Or.inl member
  | leaveBusy w record busy c' h =>
      rw [show records c = _ ::ₘ records ((c.left w).cleared w) from
        records_cleared (c := c.left w) busy, Multiset.mem_cons]
      exact Or.inl (placed h partition.leave)
  | results w binary wct repo record readable finished busy c' h =>
      rw [records_frees h (partition.answered busy finished)] at member
      rw [records_cleared busy, Multiset.mem_cons]
      exact Or.inl (Or.inr member)
  | getDll => exact Or.inl member
  | request i d c' h =>
      rcases placed h partition with rfl | old
      · exact Or.inr rfl
      · exact Or.inl old
  | unhandledWorker => exact Or.inl member
  | unhandledIsland => exact Or.inl member

/-- `i` is recorded in exactly one place, with work data `d`. -/
def RecordedOnce (c : Controller β) (i : IslandId) (d : β) : Prop :=
  (c.islandsWaitingForAlloc.lookup i = some d ∧
    ∀ w r, c.workAllocationMap.lookup w = some r → r.islandId ≠ i) ∨
  (i ∉ c.islandsWaitingForAlloc ∧ ∃ w, c.workAllocationMap.lookup w = some ⟨i, d⟩ ∧
    ∀ v r, c.workAllocationMap.lookup v = some r → r.islandId = i → v = w)

def NotRecorded (c : Controller β) (i : IslandId) : Prop :=
  i ∉ c.islandsWaitingForAlloc ∧ ∀ w r, c.workAllocationMap.lookup w = some r → r.islandId ≠ i

section Ledger

variable {open_ : UnorderedMap IslandId β}

theorem notRecorded_of_ledger (ledger : UnorderedMap.bag open_ = records c) (closed : i ∉ open_) :
    NotRecorded c i := by
  constructor
  · intro waiting
    obtain ⟨d, found⟩ := Finmap.mem_iff.mp waiting
    exact closed (Finmap.mem_of_lookup_eq_some
      (RequestReply.lookup_of_ledger ledger (mem_records_of_waiting found)))
  · rintro w r busy rfl
    exact closed (Finmap.mem_of_lookup_eq_some
      (RequestReply.lookup_of_ledger ledger (mem_records_of_busy busy)))

theorem recordedOnce_of_ledger (ledger : UnorderedMap.bag open_ = records c)
    (opened : open_.lookup i = some d) : RecordedOnce c i d := by
  have distinct := RequestReply.nodup_of_bag ledger
  simp only [records, Multiset.map_add, Multiset.map_map, Multiset.nodup_add] at distinct
  obtain ⟨-, oneWorker, apart⟩ := distinct
  rcases Multiset.mem_add.mp (RequestReply.mem_ledger ledger opened) with waiting | busy
  · refine Or.inl ⟨UnorderedMap.mem_bag.mp waiting, ?_⟩
    rintro w r busy rfl
    exact Multiset.disjoint_left.mp apart (Multiset.mem_map_of_mem Prod.fst waiting)
      (Multiset.mem_map.mpr ⟨(w, r), UnorderedMap.mem_bag.mpr busy, rfl⟩)
  · obtain ⟨⟨w, r⟩, member, same⟩ := Multiset.mem_map.mp busy
    obtain ⟨rfl, rfl⟩ := Prod.mk.inj same
    refine Or.inr ⟨?_, w, UnorderedMap.mem_bag.mp member, ?_⟩
    · intro waiting
      obtain ⟨d, found⟩ := Finmap.mem_iff.mp waiting
      exact Multiset.disjoint_left.mp apart
        (Multiset.mem_map_of_mem Prod.fst (UnorderedMap.mem_bag.mpr found))
        (Multiset.mem_map.mpr ⟨(w, r), member, rfl⟩)
    · intro v r' busy' same'
      have equal := Multiset.inj_on_of_nodup_map oneWorker (v, r')
        (UnorderedMap.mem_bag.mpr busy') (w, r) member same'
      exact congrArg Prod.fst equal

end Ledger

/-! ## Handlers that cannot fault -/

/-- The payload of the message deserializes. -/
def Deserializes (archive : Archive β Algo Pop) : Incoming β → Prop
  | .fromWorker _ (.workResults binary) => archive.Reads binary
  | .fromWorker _ (.getDll binary) => archive.ReadsRequest binary
  | .fromIsland _ (.allocateWork workData) => archive.Reads workData
  | _ => True

instance (archive : Archive β Algo Pop) : (msg : Incoming β) → Decidable (Deserializes archive msg)
  | .fromWorker _ (.workResults binary) => inferInstanceAs (Decidable (archive.Reads binary))
  | .fromWorker _ (.getDll binary) => inferInstanceAs (Decidable (archive.ReadsRequest binary))
  | .fromIsland _ (.allocateWork workData) => inferInstanceAs (Decidable (archive.Reads workData))
  | .fromWorker _ .workerJoin => .isTrue trivial
  | .fromWorker _ .workerLeave => .isTrue trivial
  | .fromWorker _ (.unhandled _ _) => .isTrue trivial
  | .fromIsland _ (.unhandled _ _) => .isTrue trivial

/-- The work in the message deserializes, if it carries any. -/
def ReadsWork (archive : Archive β Algo Pop) : Incoming β → Prop
  | .fromWorker _ (.workResults binary) => archive.Reads binary
  | .fromIsland _ (.allocateWork workData) => archive.Reads workData
  | _ => True

instance (archive : Archive β Algo Pop) : (msg : Incoming β) → Decidable (ReadsWork archive msg)
  | .fromWorker _ (.workResults binary) => inferInstanceAs (Decidable (archive.Reads binary))
  | .fromIsland _ (.allocateWork workData) => inferInstanceAs (Decidable (archive.Reads workData))
  | .fromWorker _ .workerJoin => .isTrue trivial
  | .fromWorker _ .workerLeave => .isTrue trivial
  | .fromWorker _ (.getDll _) => .isTrue trivial
  | .fromWorker _ (.unhandled _ _) => .isTrue trivial
  | .fromIsland _ (.unhandled _ _) => .isTrue trivial

/-- The name of a library that cannot be read. -/
def UnreadableDllRequest (archive : Archive β Algo Pop) : Incoming β → Prop
  | .fromWorker _ (.getDll binary) => ¬archive.ReadsRequest binary
  | _ => False

/-- The only payload that is not work is the name of a library. -/
theorem ReadsWork.deserializes {msg : Incoming β} (reads : ReadsWork archive msg) :
    Deserializes archive msg ∨ UnreadableDllRequest archive msg := by
  rcases msg with ⟨w, m⟩ | ⟨i, m⟩
  · cases m with
    | workResults binary => exact Or.inl reads
    | getDll binary => exact Classical.em (archive.ReadsRequest binary)
    | _ => exact Or.inl trivial
  · cases m with
    | allocateWork workData => exact Or.inl reads
    | unhandled type binary => exact Or.inl trivial

/-- Results come from a worker that holds an allocation. -/
def Expected (c : Controller β) : Incoming β → Prop
  | .fromWorker w (.workResults _) => w ∈ c.workAllocationMap
  | _ => True

instance (c : Controller β) : (msg : Incoming β) → Decidable (Expected c msg)
  | .fromWorker w (.workResults _) => inferInstanceAs (Decidable (w ∈ c.workAllocationMap))
  | .fromWorker _ .workerJoin => .isTrue trivial
  | .fromWorker _ .workerLeave => .isTrue trivial
  | .fromWorker _ (.getDll _) => .isTrue trivial
  | .fromWorker _ (.unhandled _ _) => .isTrue trivial
  | .fromIsland _ _ => .isTrue trivial

/-- An unreadable request stops the server before anything has changed. -/
theorem handle_unreadable {msg : Incoming β} (bad : UnreadableDllRequest archive msg) :
    ∃ f, (handle archive env msg).run c = .error f c := by
  rcases msg with ⟨w, m⟩ | ⟨i, m⟩
  · cases m with
    | getDll binary =>
        rw [handle, getDll_run]
        cases request : archive.getDllRequest binary with
        | error e => exact ⟨.exception e, rfl⟩
        | ok request' => exact absurd ⟨request', request⟩ bad
    | _ => exact bad.elim
  · exact bad.elim

theorem allocateWorkerToIsland_total (someFree : c.freeWorkersPool ≠ ∅) (reads : archive.Reads d)
    (saved : env.startSave = .ok ())
    (recorded : ∀ w ∈ c.freeWorkersPool, w ∈ c.workerInfo.workerRecords) :
    ∃ c', (allocateWorkerToIsland archive env i d).run c = .ok () c' := by
  obtain ⟨wct, hd⟩ := reads
  cases hw : chooseWorker env wct.preferredWorkerId c.freeWorkersPool with
  | none => exact absurd (chooseWorker_eq_none.mp hw) someFree
  | some w =>
      obtain ⟨repo, started⟩ : ∃ repo, c.workerInfo.workerStartedWork w env.startTime = .ok repo :=
        WorkerInfoRepository.modifyRecord_of_mem (recorded w (mem_of_chooseWorker hw))
      simp only [allocateWorkerToIsland_run, hd, hw, saved, started]
      exact ⟨_, rfl⟩

theorem allocateIslandWork_total (reads : archive.Reads d) (saved : env.startSave = .ok ())
    (recorded : ∀ w ∈ c.freeWorkersPool, w ∈ c.workerInfo.workerRecords) :
    ∃ c', (allocateIslandWork archive env i d).run c = .ok () c' := by
  rw [allocateIslandWork_run]
  split_ifs with noneFree
  · exact ⟨_, rfl⟩
  · exact allocateWorkerToIsland_total noneFree reads saved recorded

theorem addFreeWorker_total (reads : ∀ x ∈ records c, archive.Reads x.2)
    (saved : env.startSave = .ok ())
    (recorded : ∀ v ∈ insert w c.freeWorkersPool, v ∈ c.workerInfo.workerRecords) :
    ∃ c', (addFreeWorker archive env w).run c = .ok () c' := by
  rw [addFreeWorker_run]
  cases hb : UnorderedMap.begin env.waitingOrder c.islandsWaitingForAlloc with
  | none => exact ⟨_, rfl⟩
  | some p =>
      have waiting := mem_records_of_waiting (UnorderedMap.lookup_of_begin hb)
      exact allocateWorkerToIsland_total (c := (c.released w).popped p.1)
        (Finset.insert_ne_empty w c.freeWorkersPool) (reads _ waiting) saved recorded

/-- With the maps in order, payloads that deserialize, and results only from
    workers that hold an allocation, every handler ends normally if it is undisturbed. -/
theorem handle_total {msg : Incoming β} (partition : Partition c)
    (readable : ∀ x ∈ records c, archive.Reads x.2)
    (alternates : Alternates c.workerInfo.connectedWorkers msg)
    (expected : Expected c msg) (deserializes : Deserializes archive msg)
    (undisturbed : Undisturbed archive env msg) :
    ∃ c', (handle archive env msg).run c = .ok () c' := by
  rw [handle_calm undisturbed]
  rcases msg with ⟨w, m⟩ | ⟨i, m⟩
  · cases m with
    | workerJoin =>
        rw [handle, workerJoin_run]
        split_ifs with known
        · exact ⟨_, rfl⟩
        · refine addFreeWorker_total (c := c.joined w) readable rfl ?_
          have joined := partition.joined alternates
          intro v member
          exact joined.released.free_recorded member
    | workerLeave =>
        simp only [handle, workerLeave_run, Surroundings.calm]
        cases busy : c.workAllocationMap.lookup w with
        | none => exact ⟨_, rfl⟩
        | some record =>
            apply allocateIslandWork_total (readable _ (mem_records_of_busy busy)) rfl
            intro v member
            exact partition.leave.free_recorded (w := v) member
    | workResults binary =>
        obtain ⟨wct, hd⟩ := deserializes
        obtain ⟨record, busy⟩ := Finmap.mem_iff.mp expected
        obtain ⟨repo, finished⟩ : ∃ repo, c.workerInfo.workerFinishedWork w
            (archive.size wct.pop) (archive.getName wct.algo) env.finishTime = .ok repo :=
          WorkerInfoRepository.modifyRecord_of_mem
            (partition.recorded w (partition.busy_connected busy))
        simp only [handle, workResults_run, hd, Surroundings.calm, finished, busy]
        refine addFreeWorker_total ?_ rfl ?_
        · intro x member
          apply readable
          rw [records_cleared busy]
          exact Multiset.mem_cons_of_mem member
        · intro v member
          have answered : PartitionWith {w} (c.answered w record.islandId binary repo) :=
            partition.answered busy finished
          exact answered.released.free_recorded member
    | getDll binary =>
        obtain ⟨request, hr⟩ := deserializes
        rw [handle, getDll_run, hr]
        exact ⟨_, rfl⟩
    | unhandled type binary => exact ⟨c, rfl⟩
  · cases m with
    | allocateWork d =>
        exact allocateIslandWork_total deserializes rfl fun v member =>
          partition.free_recorded member
    | unhandled type binary => exact ⟨c, rfl⟩

end Controller

end Metasolver
