import Metasolver.Solver.WorkPlan
import Metasolver.Controller.WorkConservation

/-!
# A plan by performance while it runs

`evolve` builds one island for each entry of the plan, and the island names the
worker of its entry in every request (`distributed_solver.cpp:188-203`,
`distributed_island.cpp:112-114`).  The controller takes the preferred worker if it
is free and any free worker otherwise.

If all workers of the plan are free at the start and none leaves, the preferred
worker is always free when its island asks.  `OnPlan` is the invariant: each worker of
the plan is free or works for its own island, and no other worker does.  It holds
for every order of the messages, so the workers the islands get do not depend on it.
If a save of the settings throws, the server stops with the request recorded for its
worker.
-/

namespace Metasolver

open Exec

variable {β Algo Pop A D : Type} {archive : Archive β Algo Pop} {env : Surroundings}

/-- The islands with the workers of their plan entries. -/
def pairing (islands : List IslandId) (plan : List (PlanEntry A)) : List (IslandId × WorkerId) :=
  islands.zip (plan.map PlanEntry.preferredWorkerId)

/-- The messages while the plan runs: an island of the plan asks for work and names its
    worker; no worker leaves. -/
def Planned (archive : Archive β Algo Pop) (pairs : List (IslandId × WorkerId)) :
    Incoming β → Prop
  | .fromIsland i (.allocateWork workData) =>
      ∃ wct, archive.workContainer workData = .ok wct ∧ (i, wct.preferredWorkerId) ∈ pairs
  | .fromWorker _ .workerLeave => False
  | _ => True

instance (archive : Archive β Algo Pop) (pairs : List (IslandId × WorkerId)) (msg : Incoming β) :
    Decidable (Planned archive pairs msg) :=
  match msg with
  | .fromIsland i (.allocateWork workData) =>
      match reads : archive.workContainer workData with
      | .ok wct =>
          if pair : (i, wct.preferredWorkerId) ∈ pairs then isTrue ⟨wct, reads, pair⟩
          else isFalse fun ⟨_, reads', pair'⟩ =>
            pair (Except.ok.inj (reads.symm.trans reads') ▸ pair')
      | .error _ => isFalse fun ⟨_, reads', _⟩ => by rw [reads] at reads'; cases reads'
  | .fromIsland _ (.unhandled _ _) => isTrue trivial
  | .fromWorker _ .workerLeave => isFalse id
  | .fromWorker _ .workerJoin => isTrue trivial
  | .fromWorker _ (.workResults _) => isTrue trivial
  | .fromWorker _ (.getDll _) => isTrue trivial
  | .fromWorker _ (.unhandled _ _) => isTrue trivial

def PlanMessage (archive : Archive β Algo Pop) (pairs : List (IslandId × WorkerId))
    (s : Session β) (e : Delivery β) : Prop :=
  OrderlyAndSolicited archive s e ∧ Planned archive pairs e.msg

instance (archive : Archive β Algo Pop) (pairs : List (IslandId × WorkerId)) (s : Session β)
    (e : Delivery β) : Decidable (PlanMessage archive pairs s e) :=
  inferInstanceAs (Decidable (_ ∧ _))

/-- Each island has one worker and each worker one island. -/
structure OneToOne (pairs : List (IslandId × WorkerId)) : Prop where
  island : ∀ {i j w}, (i, w) ∈ pairs → (j, w) ∈ pairs → i = j
  worker : ∀ {i v w}, (i, v) ∈ pairs → (i, w) ∈ pairs → v = w

/-- Two lists without duplicates pair their elements one to one. -/
theorem oneToOne_zip {islands : List IslandId} {workers : List WorkerId}
    (islandsDistinct : islands.Nodup) (workersDistinct : workers.Nodup) :
    OneToOne (islands.zip workers) where
  island {i j w} hi hj := by
    obtain ⟨k, hk⟩ := List.mem_iff_getElem?.mp hi
    obtain ⟨l, hl⟩ := List.mem_iff_getElem?.mp hj
    rw [List.getElem?_zip_eq_some] at hk hl
    have inside := (List.getElem?_eq_some_iff.mp hk.2).1
    have same : k = l := (List.getElem?_inj inside workersDistinct).mp (hk.2.trans hl.2.symm)
    rw [same] at hk
    exact Option.some.inj (hk.1.symm.trans hl.1)
  worker {i v w} hv hw := by
    obtain ⟨k, hk⟩ := List.mem_iff_getElem?.mp hv
    obtain ⟨l, hl⟩ := List.mem_iff_getElem?.mp hw
    rw [List.getElem?_zip_eq_some] at hk hl
    have inside := (List.getElem?_eq_some_iff.mp hk.1).1
    have same : k = l := (List.getElem?_inj inside islandsDistinct).mp (hk.1.trans hl.1.symm)
    rw [same] at hk
    exact Option.some.inj (hk.2.symm.trans hl.2)

namespace Controller

variable {c c' : Controller β} {i : IslandId} {d : β} {w : WorkerId}
  {pairs : List (IslandId × WorkerId)}

structure OnPlan (pairs : List (IslandId × WorkerId)) (c : Controller β) : Prop where
  noneWaiting : c.islandsWaitingForAlloc = ∅
  ready : ∀ i w, (i, w) ∈ pairs →
    w ∈ c.freeWorkersPool ∨ ∃ d, c.workAllocationMap.lookup w = some ⟨i, d⟩
  own : ∀ i w, (i, w) ∈ pairs → ∀ v record, c.workAllocationMap.lookup v = some record →
    record.islandId = i → v = w

namespace OnPlan

theorem congr (h : OnPlan pairs c) (hi : c'.islandsWaitingForAlloc = c.islandsWaitingForAlloc)
    (hf : c'.freeWorkersPool = c.freeWorkersPool)
    (ha : c'.workAllocationMap = c.workAllocationMap) : OnPlan pairs c' where
  noneWaiting := by rw [hi]; exact h.noneWaiting
  ready := by rw [hf, ha]; exact h.ready
  own := by rw [ha]; exact h.own

/-- With no island waiting, a worker that is freed goes to the pool. -/
theorem released_of_frees (h : Frees archive env w c c')
    (noneWaiting : c.islandsWaitingForAlloc = ∅) : c' = c.released w := by
  cases h with
  | release => rfl
  | serve i d waiting c' h =>
      rw [noneWaiting, Finmap.lookup_empty] at waiting
      cases waiting

theorem released (h : OnPlan pairs c) : OnPlan pairs (c.released w) where
  noneWaiting := h.noneWaiting
  ready j v pair := by
    rcases h.ready j v pair with free | busy
    · exact Or.inl (Finset.mem_insert_of_mem free)
    · exact Or.inr busy
  own := h.own

/-- The worker that has returned its results is free again. -/
theorem cleared_released (h : OnPlan pairs c) : OnPlan pairs ((c.cleared w).released w) where
  noneWaiting := h.noneWaiting
  ready j v pair := by
    by_cases same : v = w
    · subst same
      exact Or.inl (Finset.mem_insert_self v c.freeWorkersPool)
    · rcases h.ready j v pair with free | ⟨d, busy⟩
      · exact Or.inl (Finset.mem_insert_of_mem free)
      · refine Or.inr ⟨d, ?_⟩
        rw [← busy]
        exact Finmap.lookup_erase_ne same
  own j v pair u record busy := by
    have other : u ≠ w := by
      rintro rfl
      exact Finmap.notMem_erase_self (Finmap.mem_of_lookup_eq_some busy)
    apply h.own j v pair
    rw [← busy]
    exact (Finmap.lookup_erase_ne other).symm

/-- The worker of the island is allocated to it. -/
theorem allocated {repo : WorkerInfoRepository} (h : OnPlan pairs c) (oneToOne : OneToOne pairs)
    (pair : (i, w) ∈ pairs) (notBusy : w ∉ c.workAllocationMap) :
    OnPlan pairs (c.allocated w i d repo) := by
  have recorded : (c.allocated w i d repo).workAllocationMap =
      c.workAllocationMap.insert w ⟨i, d⟩ := UnorderedMap.emplace_of_notMem notBusy
  constructor
  · exact h.noneWaiting
  · intro j v pair'
    rw [recorded]
    by_cases same : v = w
    · subst same
      obtain rfl := oneToOne.island pair pair'
      exact Or.inr ⟨d, Finmap.lookup_insert _⟩
    · rw [Finmap.lookup_insert_of_ne _ same]
      rcases h.ready j v pair' with free | busy
      · exact Or.inl (Finset.mem_erase.mpr ⟨same, free⟩)
      · exact Or.inr busy
  · intro j v pair' u record busy its
    rw [recorded] at busy
    by_cases same : u = w
    · subst same
      rw [Finmap.lookup_insert, Option.some.injEq] at busy
      subst busy its
      exact oneToOne.worker pair pair'
    · rw [Finmap.lookup_insert_of_ne _ same] at busy
      exact h.own j v pair' u record busy its

/-- The request of an island goes to its worker at once. -/
theorem places (h : Places archive env i d c c') (onPlan : OnPlan pairs c)
    (oneToOne : OneToOne pairs) (partition : Partition c) (fresh : NotRecorded c i)
    (planned : Planned archive pairs (.fromIsland i (.allocateWork d))) :
    ∃ w, (i, w) ∈ pairs ∧ OnPlan pairs c' ∧
      c'.sent = c.sent ++ [.toWorker w (.allocateWork d)] ∧
      c'.workAllocationMap.lookup w = some ⟨i, d⟩ := by
  obtain ⟨wct, reads, pair⟩ := planned
  have free : wct.preferredWorkerId ∈ c.freeWorkersPool := by
    rcases onPlan.ready i _ pair with free | ⟨d', busy⟩
    · exact free
    · exact absurd rfl (fresh.2 _ _ busy)
  cases h with
  | queue noneFree =>
      rw [noneFree] at free
      simp at free
  | allocate someFree c' h =>
      obtain ⟨v, repo, ⟨wct', reads', chosen⟩, -⟩ := h
      rw [reads] at reads'
      obtain rfl := Except.ok.inj reads'
      rw [chooseWorker_of_mem free] at chosen
      obtain rfl := Option.some.inj chosen
      have notBusy := partition.freeNotBusy _ free
      have recorded : (c.allocated wct.preferredWorkerId i d repo).workAllocationMap =
          c.workAllocationMap.insert wct.preferredWorkerId ⟨i, d⟩ :=
        UnorderedMap.emplace_of_notMem notBusy
      refine ⟨_, pair, onPlan.allocated oneToOne pair notBusy, rfl, ?_⟩
      rw [recorded, Finmap.lookup_insert]

/-- A message keeps to the plan, and a request is answered by an allocation. -/
theorem handled {msg : Incoming β} (h : Handled archive env c msg c') (onPlan : OnPlan pairs c)
    (oneToOne : OneToOne pairs) (partition : Partition c)
    (fresh : ∀ i d, msg = .fromIsland i (.allocateWork d) → NotRecorded c i)
    (planned : Planned archive pairs msg) :
    OnPlan pairs c' ∧ ∀ i d, msg = .fromIsland i (.allocateWork d) →
      ∃ w, (i, w) ∈ pairs ∧ c'.sent = c.sent ++ [.toWorker w (.allocateWork d)] ∧
        c'.workAllocationMap.lookup w = some ⟨i, d⟩ := by
  cases h with
  | joinKnown => exact ⟨onPlan, fun i d same => by cases same⟩
  | join w unknown c' h =>
      have joined : OnPlan pairs (c.joined w) := onPlan.congr rfl rfl rfl
      rw [released_of_frees h joined.noneWaiting]
      exact ⟨joined.released, fun i d same => by cases same⟩
  | leaveIdle => exact planned.elim
  | leaveBusy => exact planned.elim
  | results w binary wct repo record readable finished busy c' h =>
      have noneWaiting : (c.answered w record.islandId binary repo).islandsWaitingForAlloc = ∅ :=
        onPlan.noneWaiting
      rw [released_of_frees h noneWaiting]
      exact ⟨onPlan.cleared_released.congr rfl rfl rfl, fun i d same => by cases same⟩
  | getDll => exact ⟨onPlan.congr rfl rfl rfl, fun i d same => by cases same⟩
  | request i d c' h =>
      obtain ⟨w, pair, next, sent, recorded⟩ :=
        onPlan.places h oneToOne partition (fresh i d rfl) planned
      refine ⟨next, fun j d' same => ?_⟩
      obtain ⟨rfl, ⟨rfl⟩⟩ := Incoming.fromIsland.inj same
      exact ⟨w, pair, sent, recorded⟩
  | unhandledWorker => exact ⟨onPlan, fun i d same => by cases same⟩
  | unhandledIsland => exact ⟨onPlan, fun i d same => by cases same⟩

end OnPlan

/-- No island waits, and the work of an island is with the worker of its plan entry only. -/
def WorksByPlan (pairs : List (IslandId × WorkerId)) (c : Controller β) : Prop :=
  c.islandsWaitingForAlloc = ∅ ∧
    ∀ i w, (i, w) ∈ pairs → ∀ v record, c.workAllocationMap.lookup v = some record →
      record.islandId = i → v = w

theorem OnPlan.worksByPlan (h : OnPlan pairs c) : WorksByPlan pairs c := ⟨h.noneWaiting, h.own⟩

/-- Where the handler stops that has been interrupted, the work is as before or as it would
    have become. -/
theorem OnPlan.interrupted {msg : Incoming β} {calm : Controller β}
    (h : Interrupted msg c c' calm) (before : OnPlan pairs c) (after : OnPlan pairs calm) :
    WorksByPlan pairs c' := by
  cases h with
  | atOnce noRequest waiting allocated quiet =>
      rw [WorksByPlan, waiting, allocated]
      exact before.worksByPlan
  | beforeStart w d waiting allocated sent =>
      rw [WorksByPlan, waiting, allocated]
      exact after.worksByPlan

end Controller

/-! ## Runs -/

/-- What holds between two messages while the plan runs. -/
structure PlanState (archive : Archive β Algo Pop) (pairs : List (IslandId × WorkerId))
    (s : Session β) (c : Controller β) : Prop where
  orderly : OrderlyState archive s c
  ledger : Controller.Ledger s.log c
  onPlan : c.OnPlan pairs

theorem PlanState.step {pairs : List (IslandId × WorkerId)} {s : Session β} {e : Delivery β}
    {c : Controller β} (state : PlanState archive pairs s c) (oneToOne : OneToOne pairs)
    (ok : PlanMessage archive pairs s e) :
    ∃ c', PlanState archive pairs ⟨.running c', Session.record s.log e.msg c'⟩ c' ∧
      (∀ i workData, e.msg = .fromIsland i (.allocateWork workData) →
        ∃ w, (i, w) ∈ pairs ∧ c'.sent = [.toWorker w (.allocateWork workData)] ∧
          c'.workAllocationMap.lookup w = some ⟨i, workData⟩) ∧
      (Session.step archive s e = some ⟨.running c', Session.record s.log e.msg c'⟩ ∨
        ∃ t, Halts archive s e c c' t) := by
  obtain ⟨solicited, planned⟩ := ok
  obtain ⟨c', handled, next, balanced, step⟩ :=
    state.orderly.step_solicited state.ledger solicited
  have partition := state.orderly.partition.quiet
  have onPlan : Controller.OnPlan pairs { c with sent := [] } := state.onPlan.congr rfl rfl rfl
  have fresh := state.ledger.quiet.notRecorded solicited.2
  obtain ⟨kept, allocation⟩ := onPlan.handled handled oneToOne partition fresh planned
  refine ⟨c', ⟨next, balanced, kept⟩, fun i workData request => ?_, step⟩
  obtain ⟨w, pair, sent, recorded⟩ := allocation i workData request
  exact ⟨w, pair, sent, recorded⟩

/-- The message has stopped the server by a save or a lookup that throws, with the work as
    planned. -/
def StoppedByPlan (archive : Archive β Algo Pop) (pairs : List (IslandId × WorkerId))
    (e : Delivery β) (t : Session β) : Prop :=
  ¬Controller.Undisturbed archive e.env e.msg ∧
    ∃ f c, t.server = .stopped f c ∧ c.WorksByPlan pairs

theorem PlanState.stopped {pairs : List (IslandId × WorkerId)} {s t : Session β}
    {e : Delivery β} {c calm : Controller β} (state : PlanState archive pairs s c)
    (next : PlanState archive pairs ⟨.running calm, Session.record s.log e.msg calm⟩ calm)
    (halts : Halts archive s e c calm t) : StoppedByPlan archive pairs e t := by
  obtain ⟨x, c', rfl, interrupted⟩ := halts.stopped
  have onPlan : Controller.OnPlan pairs { c with sent := [] } := state.onPlan.congr rfl rfl rfl
  exact ⟨halts.disturbed, _, c', rfl, onPlan.interrupted interrupted next.onPlan⟩

/-- The next request goes to the worker of its island, or is recorded for it when a save
    throws. -/
theorem PlanState.request {pairs : List (IslandId × WorkerId)} {log : Log β} {e : Delivery β}
    {c : Controller β} {i : IslandId} {workData : β}
    (state : PlanState archive pairs ⟨.running c, log⟩ c) (oneToOne : OneToOne pairs)
    (ok : PlanMessage archive pairs ⟨.running c, log⟩ e)
    (request : e.msg = .fromIsland i (.allocateWork workData)) :
    ∃ w, (i, w) ∈ pairs ∧
      ((∃ c', Session.step archive ⟨.running c, log⟩ e = some ⟨.running c', log ++
        [.received e.msg, .sent (.toWorker w (.allocateWork workData))]⟩) ∨
      ¬Controller.Undisturbed archive e.env e.msg ∧ ∃ f c',
        Session.step archive ⟨.running c, log⟩ e = some ⟨.stopped f c', log ++
          [.received e.msg]⟩ ∧
        c'.workAllocationMap.lookup w = some ⟨i, workData⟩) := by
  obtain ⟨calm, -, allocation, step⟩ := state.step oneToOne ok
  obtain ⟨w, pair, sent, recorded⟩ := allocation i workData request
  refine ⟨w, pair, ?_⟩
  rcases step with step | ⟨t, halts⟩
  · refine Or.inl ⟨calm, ?_⟩
    rw [step, Session.record, sent]
    simp
  · obtain ⟨x, c', rfl, interrupted⟩ := halts.stopped
    refine Or.inr ⟨halts.disturbed, .exception x, c', ?_, ?_⟩
    · rw [halts.step, Session.record]
      cases interrupted with
      | atOnce noRequest => exact absurd request (noRequest i workData)
      | beforeStart v d waiting allocated last =>
          rw [sent] at last
          have none_ : c'.sent = [] := by
            cases before : c'.sent with
            | nil => rfl
            | cons m rest => simp [before] at last
          rw [none_]
          simp
    · cases interrupted with
      | atOnce noRequest => exact absurd request (noRequest i workData)
      | beforeStart v d waiting allocated last =>
          rw [allocated]
          exact recorded

/-- Let a plan by performance be given for not more islands than there are workers, and
    let all its workers be free and no island wait when its islands, which are new,
    begin to ask.  Then for every order of their requests, of results and of joins,
    and for as long as no worker leaves: no island waits, an island's work is only ever
    with the worker of its plan entry, and its next request is sent to that worker at
    once.  If a save of the settings or a lookup throws, the server stops, and the work is
    with no other worker then, either. -/
theorem performance_plan_runs (arith : DoubleArith D) (order : IterationOrder WorkerId)
    (connectedWorkers : Finset WorkerId) (getWorkerInfo : Nat → WorkerId → Option WorkerInfo)
    (getName : A → String) (islandCount populationSize minIslandPopSize : UInt64)
    (algorithms : List A) (plan : List (PlanEntry A))
    (enough : islandCount.toNat ≤ connectedWorkers.card)
    (generated : generateWorkPlan arith order .byPerformance connectedWorkers getWorkerInfo getName
      islandCount populationSize algorithms minIslandPopSize = .ok plan)
    (islands : List IslandId) (distinct : islands.Nodup)
    (archive : Archive β Algo Pop) (records : UnorderedMap WorkerId WorkerInfo)
    (before : List (Delivery β)) (c₀ : Controller β) (log₀ : Log β)
    (orderly : Along (Session.step archive) (OrderlyAndSolicited archive) (Session.start records)
      before)
    (started : exec (Session.step archive) (Session.start records) before =
      some ⟨.running c₀, log₀⟩)
    (free : ∀ entry ∈ plan, entry.preferredWorkerId ∈ c₀.freeWorkersPool)
    (noneWaiting : c₀.islandsWaitingForAlloc = ∅)
    (new : ∀ i ∈ islands, i ∉ log₀.unanswered) (es : List (Delivery β))
    (onPlan : Along (Session.step archive) (PlanMessage archive (pairing islands plan))
      ⟨.running c₀, log₀⟩ es) :
    (∃ c log, exec (Session.step archive) ⟨.running c₀, log₀⟩ es = some ⟨.running c, log⟩ ∧
      c.WorksByPlan (pairing islands plan) ∧
      ∀ e i workData, PlanMessage archive (pairing islands plan) ⟨.running c, log⟩ e →
        e.msg = .fromIsland i (.allocateWork workData) →
        ∃ w, (i, w) ∈ pairing islands plan ∧
          ((∃ c', Session.step archive ⟨.running c, log⟩ e = some ⟨.running c', log ++
            [.received e.msg, .sent (.toWorker w (.allocateWork workData))]⟩) ∨
          ¬Controller.Undisturbed archive e.env e.msg ∧ ∃ f c',
            Session.step archive ⟨.running c, log⟩ e = some ⟨.stopped f c', log ++
              [.received e.msg]⟩ ∧
            c'.workAllocationMap.lookup w = some ⟨i, workData⟩)) ∨
    ∃ before e after f c log, es = before ++ e :: after ∧
      ¬Controller.Undisturbed archive e.env e.msg ∧
      exec (Session.step archive) ⟨.running c₀, log₀⟩ (before ++ [e]) =
        some ⟨.stopped f c, log⟩ ∧
      c.WorksByPlan (pairing islands plan) := by
  obtain ⟨-, workersDistinct, -⟩ := generateWorkPlan_distinct enough generated
  have oneToOne : OneToOne (pairing islands plan) := oneToOne_zip distinct workersDistinct
  have first : PlanState archive (pairing islands plan) ⟨.running c₀, log₀⟩ c₀ := by
    obtain ⟨state, ledger⟩ := balanced_of_running orderly started
    refine ⟨state, ledger, noneWaiting, ?_, ?_⟩
    · intro i w pair
      obtain ⟨entry, member, rfl⟩ := List.mem_map.mp (List.of_mem_zip pair).2
      exact Or.inl (free entry member)
    · intro i w pair v record busy its
      have closed := new i (List.of_mem_zip pair).1
      exact absurd its ((Controller.notRecorded_of_ledger ledger.balance closed).2 v record busy)
  have progress : ∀ s e, (∃ c, PlanState archive (pairing islands plan) s c) →
      PlanMessage archive (pairing islands plan) s e →
      ∃ t, Session.step archive s e = some t ∧
        ((∃ c, PlanState archive (pairing islands plan) t c) ∨
          StoppedByPlan archive (pairing islands plan) e t) := by
    intro s e ⟨c, state⟩ ok
    obtain ⟨c', next, -, step | ⟨t, halts⟩⟩ := state.step oneToOne ok
    · exact ⟨_, step, Or.inl ⟨c', next⟩⟩
    · exact ⟨t, halts.step, Or.inr (state.stopped next halts)⟩
  rcases exec_until progress ⟨c₀, first⟩ onPlan with ⟨⟨server, log⟩, run, c, state⟩ |
    ⟨before, e, after, ⟨server, log⟩, whole, run, disturbed, f, c, stopped, works⟩
  · obtain rfl : server = .running c := state.orderly.running
    exact Or.inl ⟨c, log, run, state.onPlan.worksByPlan, fun e i workData ok request =>
      state.request oneToOne ok request⟩
  · obtain rfl : server = .stopped f c := stopped
    exact Or.inr ⟨before, e, after, f, c, log, whole, disturbed, run, works⟩

/-- The statistics of two workers, one of them twice as fast. -/
def twoWorkers : UnorderedMap WorkerId WorkerInfo :=
  (Finmap.singleton "worker_a" { totalStats := ⟨10, 1000⟩ }).insert "worker_b"
    { totalStats := ⟨10, 500⟩ }

def bothJoin : List (Delivery (PlainPayload String Nat)) :=
  [⟨default, .fromWorker "worker_b" .workerJoin⟩, ⟨default, .fromWorker "worker_a" .workerJoin⟩]

/-- The islands ask in the reverse order of the plan, and one asks again. -/
def twoIslandsRun : List (Delivery (PlainPayload String Nat)) :=
  [⟨default, .fromIsland "island_2" (.allocateWork (.work ⟨"pso", 40, "worker_b", 1⟩))⟩,
    ⟨default, .fromIsland "island_1" (.allocateWork (.work ⟨"de", 80, "worker_a", 1⟩))⟩,
    ⟨default, .fromWorker "worker_b" (.workResults (.work ⟨"pso", 40, "worker_b", 1⟩))⟩,
    ⟨default, .fromIsland "island_2" (.allocateWork (.work ⟨"pso", 40, "worker_b", 1⟩))⟩]

theorem performance_plan_runs_two_workers :
    ∃ c₀ log₀ c log, exec (Session.step Archive.plain) (Session.start twoWorkers) bothJoin =
        some ⟨.running c₀, log₀⟩ ∧
      exec (Session.step Archive.plain) ⟨.running c₀, log₀⟩ twoIslandsRun =
        some ⟨.running c, log⟩ ∧
      c.islandsWaitingForAlloc = ∅ := by
  rcases performance_plan_runs DoubleArith.rational .ascending
    {"worker_a", "worker_b"} (fun _ w => twoWorkers.lookup w) id 2 120 8 ["de", "pso"]
    [⟨80, 1, "worker_a", "de"⟩, ⟨40, 1, "worker_b", "pso"⟩] (by decide) (by decide +kernel)
    ["island_1", "island_2"] (by decide) Archive.plain twoWorkers bothJoin _ _ (by decide) rfl
    (by decide) rfl (by decide) twoIslandsRun (by decide) with
    ⟨c, log, run, ⟨none_, -⟩, -⟩ | ⟨before, e, after, -, -, -, whole, disturbed, -⟩
  · exact ⟨_, _, c, log, rfl, run, none_⟩
  · have calm : ∀ e ∈ twoIslandsRun, Controller.Undisturbed Archive.plain e.env e.msg := by decide
    exact absurd (calm e (whole ▸ List.mem_append_right before List.mem_cons_self)) disturbed

end Metasolver
