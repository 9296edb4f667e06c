import Metasolver.Controller.Handlers

/-!
# What a controller handler does

Every function of `Handlers` is evaluated once, by its `_run` equation.  From the
equations come `handle_ok`, which lists everything a handler that ends normally can
have done (`Handled`), and `handle_error`, which says what a handler that faults
has sent before.  Later modules reason from these two and never unfold a handler.

The changes themselves are named: `queued`, `allocated`, `released` and so on are
the assignments the C++ code makes to the members of the controller.
-/

namespace Metasolver

/-- A message taken from one of the two sockets. -/
inductive Incoming (β : Type) where
  | fromWorker (workerId : WorkerId) (msg : WorkerMsg β)
  | fromIsland (islandId : IslandId) (msg : IslandMsg β)
  deriving DecidableEq, Repr

namespace Controller

variable {β Algo Pop : Type} {archive : Archive β Algo Pop} {env : Surroundings}
  {c c' : Controller β} {i : IslandId} {d : β} {w : WorkerId} {u : Unit} {f : Fault}

/-- The poller callback for the socket the message came from
    (`distributed_controller.cpp:208-218`). -/
def handle (archive : Archive β Algo Pop) (env : Surroundings) : Incoming β → ControllerM β Unit
  | .fromWorker workerId msg => handleWorkersSocketMsg archive env workerId msg
  | .fromIsland islandId msg => handleIslandsSocketMsg archive env islandId msg

/-! ## Changes of the members -/

def queued (c : Controller β) (i : IslandId) (d : β) : Controller β :=
  { c with islandsWaitingForAlloc := UnorderedMap.emplace i d c.islandsWaitingForAlloc }

def popped (c : Controller β) (i : IslandId) : Controller β :=
  { c with islandsWaitingForAlloc := c.islandsWaitingForAlloc.erase i }

def released (c : Controller β) (w : WorkerId) : Controller β :=
  { c with freeWorkersPool := insert w c.freeWorkersPool }

/-- `w` has been taken from the pool and recorded, but not started yet. -/
def claimed (c : Controller β) (w : WorkerId) (i : IslandId) (d : β) : Controller β :=
  { c with
    freeWorkersPool := c.freeWorkersPool.erase w
    workAllocationMap := UnorderedMap.emplace w ⟨i, d⟩ c.workAllocationMap }

def allocated (c : Controller β) (w : WorkerId) (i : IslandId) (d : β)
    (repo : WorkerInfoRepository) : Controller β :=
  { c.claimed w i d with
    workerInfo := repo
    sent := c.sent ++ [.toWorker w (.allocateWork d)] }

def joined (c : Controller β) (w : WorkerId) : Controller β :=
  { c with workerInfo := c.workerInfo.workerJoined w }

/-- `w` is not free any more, but the repository has not been told yet. -/
def unpooled (c : Controller β) (w : WorkerId) : Controller β :=
  { c with freeWorkersPool := c.freeWorkersPool.erase w }

def left (c : Controller β) (w : WorkerId) : Controller β :=
  { c with
    freeWorkersPool := c.freeWorkersPool.erase w
    workerInfo := c.workerInfo.workerLeft w }

def cleared (c : Controller β) (w : WorkerId) : Controller β :=
  { c with workAllocationMap := c.workAllocationMap.erase w }

/-- The results of `w` have been credited and passed on to island `i`. -/
def answered (c : Controller β) (w : WorkerId) (i : IslandId) (binary : β)
    (repo : WorkerInfoRepository) : Controller β :=
  { c.cleared w with workerInfo := repo, sent := c.sent ++ [.toIsland i binary] }

/-! ## Evaluation -/

theorem orThrow_run {α : Type} (x : Except Exn α) :
    (orThrow x).run c = match x with
      | .error e => .error (.exception e) c
      | .ok a => .ok a c := by
  cases x <;> rfl

theorem deref_run {α : Type} (x : Option α) :
    (deref x).run c = match x with
      | none => .error .undefinedBehaviour c
      | some a => .ok a c := by
  cases x <;> rfl

theorem send_run (m : Sent β) : (send m).run c = .ok () { c with sent := c.sent ++ [m] } := rfl

theorem onWorkerInfo_run (save : Except Exn Unit)
    (call : WorkerInfoRepository → Except Exn WorkerInfoRepository) :
    (onWorkerInfo save call).run c = match save with
      | .error e => .error (.exception e) c
      | .ok _ => match call c.workerInfo with
        | .error e => .error (.exception e) c
        | .ok repo => .ok () { c with workerInfo := repo } := by
  simp only [onWorkerInfo, EStateM.run_bind, orThrow_run]
  cases save with
  | error e => rfl
  | ok saved =>
      simp only [EStateM.run_get]
      cases call c.workerInfo <;> rfl

/-- The worker `_allocate_worker_to_island` selects from the pool. -/
def chooseWorker (env : Surroundings) (preferredWorker : WorkerId) (pool : Finset WorkerId) :
    Option WorkerId :=
  (env.freeOrder.begin pool).map fun first =>
    if preferredWorker ∈ pool then preferredWorker else first

theorem mem_of_chooseWorker {preferred : WorkerId} {pool : Finset WorkerId}
    (h : chooseWorker env preferred pool = some w) : w ∈ pool := by
  obtain ⟨first, hfirst, rfl⟩ := Option.map_eq_some_iff.mp h
  split_ifs with hp
  · exact hp
  · exact IterationOrder.mem_of_begin hfirst

theorem chooseWorker_eq_none {preferred : WorkerId} {pool : Finset WorkerId} :
    chooseWorker env preferred pool = none ↔ pool = ∅ := by
  rw [chooseWorker, Option.map_eq_none_iff, IterationOrder.begin_eq_none]

/-- The preferred worker is selected whenever it is free. -/
theorem chooseWorker_of_mem {preferred : WorkerId} {pool : Finset WorkerId}
    (h : preferred ∈ pool) : chooseWorker env preferred pool = some preferred := by
  have nonempty : pool ≠ ∅ := Finset.ne_empty_of_mem h
  cases hc : chooseWorker env preferred pool with
  | none => exact absurd (chooseWorker_eq_none.mp hc) nonempty
  | some w =>
      obtain ⟨first, -, rfl⟩ := Option.map_eq_some_iff.mp hc
      rw [if_pos h]

theorem allocateWorkerToIsland_run :
    (allocateWorkerToIsland archive env i d).run c =
      match archive.workContainer d with
      | .error e => .error (.exception e) c
      | .ok wct => match chooseWorker env wct.preferredWorkerId c.freeWorkersPool with
        | none => .error .undefinedBehaviour c
        | some w => match env.startSave with
          | .error e => .error (.exception e) (c.claimed w i d)
          | .ok _ => match c.workerInfo.workerStartedWork w env.startTime with
            | .error e => .error (.exception e) (c.claimed w i d)
            | .ok repo => .ok () (c.allocated w i d repo) := by
  simp only [allocateWorkerToIsland, EStateM.run_bind, orThrow_run]
  cases archive.workContainer d with
  | error e => rfl
  | ok wct =>
      simp only [EStateM.run_get, deref_run, chooseWorker]
      cases env.freeOrder.begin c.freeWorkersPool with
      | none => rfl
      | some first =>
          simp only [Option.map_some]
          split_ifs
          all_goals
            simp only [EStateM.run_bind, EStateM.run_modify, onWorkerInfo_run, send_run]
            cases env.startSave with
            | error e => rfl
            | ok saved => cases c.workerInfo.workerStartedWork _ env.startTime <;> rfl

theorem allocateIslandWork_run :
    (allocateIslandWork archive env i d).run c =
      if c.freeWorkersPool = ∅ then .ok () (c.queued i d)
      else (allocateWorkerToIsland archive env i d).run c := by
  simp only [allocateIslandWork, EStateM.run_bind, EStateM.run_get]
  split_ifs <;> rfl

theorem popWaitingIsland_run :
    (popWaitingIsland env).run c =
      match UnorderedMap.begin env.waitingOrder c.islandsWaitingForAlloc with
      | none => .error .undefinedBehaviour c
      | some p => .ok p (c.popped p.1) := by
  simp only [popWaitingIsland, EStateM.run_bind, EStateM.run_get, deref_run]
  cases UnorderedMap.begin env.waitingOrder c.islandsWaitingForAlloc <;> rfl

theorem addFreeWorker_run :
    (addFreeWorker archive env w).run c =
      match UnorderedMap.begin env.waitingOrder c.islandsWaitingForAlloc with
      | none => .ok () (c.released w)
      | some p => (allocateWorkerToIsland archive env p.1 p.2).run
          ((c.released w).popped p.1) := by
  simp only [addFreeWorker, EStateM.run_bind, EStateM.run_modify, EStateM.run_get]
  cases hb : UnorderedMap.begin env.waitingOrder c.islandsWaitingForAlloc with
  | none =>
      have empty := hb
      rw [UnorderedMap.begin_eq_none, ← UnorderedMap.keys_eq_empty] at empty
      rw [if_neg (not_not_intro empty)]
      rfl
  | some p =>
      have nonempty : c.islandsWaitingForAlloc.keys ≠ ∅ := by
        intro empty
        rw [UnorderedMap.keys_eq_empty, ← @UnorderedMap.begin_eq_none _ _ _ _ env.waitingOrder,
          hb] at empty
        cases empty
      rw [if_pos nonempty]
      simp only [EStateM.run_bind, popWaitingIsland_run, hb]
      rfl

theorem workerJoin_run :
    (handleWorkersSocketMsg archive env w .workerJoin).run c =
      if w ∈ c.freeWorkersPool then .ok () c
      else match env.noticeSave with
        | .error e => .error (.exception e) c
        | .ok _ => (addFreeWorker archive env w).run (c.joined w) := by
  simp only [handleWorkersSocketMsg, EStateM.run_bind, EStateM.run_get]
  split_ifs with known
  · rfl
  · simp only [EStateM.run_bind, onWorkerInfo_run]
    cases env.noticeSave <;> rfl

theorem workerLeave_run :
    (handleWorkersSocketMsg archive env w .workerLeave).run c =
      match env.noticeSave with
      | .error e => .error (.exception e) (c.unpooled w)
      | .ok _ => match c.workAllocationMap.lookup w with
        | none => .ok () (c.left w)
        | some record => (allocateIslandWork archive env record.islandId record.workData).run
            ((c.left w).cleared w) := by
  simp only [handleWorkersSocketMsg, EStateM.run_bind, EStateM.run_get, EStateM.run_modify,
    onWorkerInfo_run]
  cases env.noticeSave with
  | error e => rfl
  | ok saved =>
      dsimp only
      cases c.workAllocationMap.lookup w <;> rfl

theorem workResults_run (binary : β) :
    (handleWorkersSocketMsg archive env w (.workResults binary)).run c =
      match archive.workContainer binary with
      | .error e => .error (.exception e) c
      | .ok wct => match env.noticeSave with
        | .error e => .error (.exception e) c
        | .ok _ => match c.workerInfo.workerFinishedWork w (archive.size wct.pop)
              (archive.getName wct.algo) env.finishTime with
          | .error e => .error (.exception e) c
          | .ok repo => match c.workAllocationMap.lookup w with
            | none => .error (.exception .outOfRange) { c with workerInfo := repo }
            | some record =>
                (addFreeWorker archive env w).run (c.answered w record.islandId binary repo) := by
  simp only [handleWorkersSocketMsg, EStateM.run_bind, orThrow_run]
  cases archive.workContainer binary with
  | error e => rfl
  | ok wct =>
      simp only [onWorkerInfo_run]
      cases env.noticeSave with
      | error e => rfl
      | ok saved =>
          cases c.workerInfo.workerFinishedWork w (archive.size wct.pop)
            (archive.getName wct.algo) env.finishTime with
          | error e => rfl
          | ok repo =>
              simp only [EStateM.run_get]
              cases c.workAllocationMap.lookup w <;> rfl

theorem getDll_run (binary : β) :
    (handleWorkersSocketMsg archive env w (.getDll binary)).run c =
      match archive.getDllRequest binary with
      | .error e => .error (.exception e) c
      | .ok request => match env.getLibAsFile request.dllName with
        | .error e => .error (.exception e) c
        | .ok file => .ok () { c with sent := c.sent ++ [.toWorker w (.dllBinary
            (archive.dllBinaryContainer ⟨request.dllName, file⟩))] } := by
  simp only [handleWorkersSocketMsg, EStateM.run_bind, orThrow_run, send_run]
  cases archive.getDllRequest binary with
  | error e => rfl
  | ok request =>
      dsimp only
      cases env.getLibAsFile request.dllName <;> rfl

/-! ## Handlers that end normally -/

/-- `d` deserializes, and the selection rule takes `w` from the pool. -/
def Chosen (archive : Archive β Algo Pop) (env : Surroundings) (d : β) (pool : Finset WorkerId)
    (w : WorkerId) : Prop :=
  ∃ wct, archive.workContainer d = .ok wct ∧
    chooseWorker env wct.preferredWorkerId pool = some w

inductive Allocates (archive : Archive β Algo Pop) (env : Surroundings) (i : IslandId) (d : β)
    (c : Controller β) : Controller β → Prop
  | intro (w : WorkerId) (repo : WorkerInfoRepository)
      (chosen : Chosen archive env d c.freeWorkersPool w)
      (started : c.workerInfo.workerStartedWork w env.startTime = .ok repo) :
      Allocates archive env i d c (c.allocated w i d repo)

inductive Places (archive : Archive β Algo Pop) (env : Surroundings) (i : IslandId) (d : β)
    (c : Controller β) : Controller β → Prop
  | queue (noneFree : c.freeWorkersPool = ∅) : Places archive env i d c (c.queued i d)
  | allocate (someFree : c.freeWorkersPool ≠ ∅) (c' : Controller β)
      (h : Allocates archive env i d c c') : Places archive env i d c c'

inductive Frees (archive : Archive β Algo Pop) (env : Surroundings) (w : WorkerId)
    (c : Controller β) : Controller β → Prop
  | release (noneWaiting : c.islandsWaitingForAlloc = ∅) : Frees archive env w c (c.released w)
  | serve (i : IslandId) (d : β) (waiting : c.islandsWaitingForAlloc.lookup i = some d)
      (c' : Controller β) (h : Allocates archive env i d ((c.released w).popped i) c') :
      Frees archive env w c c'

/-- `Handled archive env c msg c'`: handling `msg` in `c` ends normally in `c'`. -/
inductive Handled (archive : Archive β Algo Pop) (env : Surroundings) (c : Controller β) :
    Incoming β → Controller β → Prop
  | joinKnown (w : WorkerId) (known : w ∈ c.freeWorkersPool) :
      Handled archive env c (.fromWorker w .workerJoin) c
  | join (w : WorkerId) (unknown : w ∉ c.freeWorkersPool) (c' : Controller β)
      (h : Frees archive env w (c.joined w) c') :
      Handled archive env c (.fromWorker w .workerJoin) c'
  | leaveIdle (w : WorkerId) (idle : c.workAllocationMap.lookup w = none) :
      Handled archive env c (.fromWorker w .workerLeave) (c.left w)
  | leaveBusy (w : WorkerId) (record : WorkAllocationRecord β)
      (busy : c.workAllocationMap.lookup w = some record) (c' : Controller β)
      (h : Places archive env record.islandId record.workData ((c.left w).cleared w) c') :
      Handled archive env c (.fromWorker w .workerLeave) c'
  | results (w : WorkerId) (binary : β) (wct : WorkContainer Algo Pop)
      (repo : WorkerInfoRepository) (record : WorkAllocationRecord β)
      (readable : archive.workContainer binary = .ok wct)
      (finished : c.workerInfo.workerFinishedWork w (archive.size wct.pop)
        (archive.getName wct.algo) env.finishTime = .ok repo)
      (busy : c.workAllocationMap.lookup w = some record) (c' : Controller β)
      (h : Frees archive env w (c.answered w record.islandId binary repo) c') :
      Handled archive env c (.fromWorker w (.workResults binary)) c'
  | getDll (w : WorkerId) (binary reply : β) :
      Handled archive env c (.fromWorker w (.getDll binary))
        { c with sent := c.sent ++ [.toWorker w (.dllBinary reply)] }
  | request (i : IslandId) (d : β) (c' : Controller β) (h : Places archive env i d c c') :
      Handled archive env c (.fromIsland i (.allocateWork d)) c'
  | unhandledWorker (w : WorkerId) (type : Int) (binary : β) :
      Handled archive env c (.fromWorker w (.unhandled type binary)) c
  | unhandledIsland (i : IslandId) (type : Int) (binary : β) :
      Handled archive env c (.fromIsland i (.unhandled type binary)) c

theorem allocateWorkerToIsland_ok
    (h : (allocateWorkerToIsland archive env i d).run c = .ok u c') :
    Allocates archive env i d c c' := by
  rw [allocateWorkerToIsland_run] at h
  cases hd : archive.workContainer d with
  | error e => simp [hd] at h
  | ok wct =>
      cases hw : chooseWorker env wct.preferredWorkerId c.freeWorkersPool with
      | none => simp [hd, hw] at h
      | some w =>
          cases saved : env.startSave with
          | error e => simp [hd, hw, saved] at h
          | ok _ =>
              cases hs : c.workerInfo.workerStartedWork w env.startTime with
              | error e => simp [hd, hw, saved, hs] at h
              | ok repo =>
                  simp only [hd, hw, saved, hs, EStateM.Result.ok.injEq] at h
                  obtain ⟨-, rfl⟩ := h
                  exact .intro w repo ⟨wct, hd, hw⟩ hs

theorem allocateIslandWork_ok (h : (allocateIslandWork archive env i d).run c = .ok u c') :
    Places archive env i d c c' := by
  rw [allocateIslandWork_run] at h
  split_ifs at h with hfree
  · simp only [EStateM.Result.ok.injEq] at h
    obtain ⟨-, rfl⟩ := h
    exact .queue hfree
  · exact .allocate hfree c' (allocateWorkerToIsland_ok h)

theorem addFreeWorker_ok (h : (addFreeWorker archive env w).run c = .ok u c') :
    Frees archive env w c c' := by
  rw [addFreeWorker_run] at h
  cases hb : UnorderedMap.begin env.waitingOrder c.islandsWaitingForAlloc with
  | none =>
      simp only [hb, EStateM.Result.ok.injEq] at h
      obtain ⟨-, rfl⟩ := h
      exact .release (UnorderedMap.begin_eq_none.mp hb)
  | some p =>
      simp only [hb] at h
      exact .serve p.1 p.2 (UnorderedMap.lookup_of_begin hb) c' (allocateWorkerToIsland_ok h)

/-- Everything a handler that ends normally can have done. -/
theorem handle_ok {msg : Incoming β} (h : (handle archive env msg).run c = .ok u c') :
    Handled archive env c msg c' := by
  rcases msg with ⟨w, m⟩ | ⟨i, m⟩
  · cases m with
    | workerJoin =>
        rw [handle, workerJoin_run] at h
        split_ifs at h with known
        · simp only [EStateM.Result.ok.injEq] at h
          obtain ⟨-, rfl⟩ := h
          exact .joinKnown w known
        · cases saved : env.noticeSave with
          | error e => simp [saved] at h
          | ok _ =>
              simp only [saved] at h
              exact .join w known c' (addFreeWorker_ok h)
    | workerLeave =>
        rw [handle, workerLeave_run] at h
        cases saved : env.noticeSave with
        | error e => simp [saved] at h
        | ok _ =>
            cases busy : c.workAllocationMap.lookup w with
            | none =>
                simp only [saved, busy, EStateM.Result.ok.injEq] at h
                obtain ⟨-, rfl⟩ := h
                exact .leaveIdle w busy
            | some record =>
                simp only [saved, busy] at h
                exact .leaveBusy w record busy c' (allocateIslandWork_ok h)
    | workResults binary =>
        rw [handle, workResults_run] at h
        cases readable : archive.workContainer binary with
        | error e => simp [readable] at h
        | ok wct =>
            cases saved : env.noticeSave with
            | error e => simp [readable, saved] at h
            | ok _ =>
                simp only [readable, saved] at h
                cases finished : c.workerInfo.workerFinishedWork w (archive.size wct.pop)
                    (archive.getName wct.algo) env.finishTime with
                | error e => simp [finished] at h
                | ok repo =>
                    cases busy : c.workAllocationMap.lookup w with
                    | none => simp [finished, busy] at h
                    | some record =>
                        simp only [finished, busy] at h
                        exact .results w binary wct repo record readable finished busy c'
                          (addFreeWorker_ok h)
    | getDll binary =>
        rw [handle, getDll_run] at h
        cases hr : archive.getDllRequest binary with
        | error e => simp [hr] at h
        | ok request =>
            cases found : env.getLibAsFile request.dllName with
            | error e => simp [hr, found] at h
            | ok file =>
                simp only [hr, found, EStateM.Result.ok.injEq] at h
                obtain ⟨-, rfl⟩ := h
                exact .getDll w binary _
    | unhandled type binary =>
        obtain ⟨-, rfl⟩ : () = u ∧ c = c' := by
          simpa [handle, handleWorkersSocketMsg] using h
        exact .unhandledWorker w type binary
  · cases m with
    | allocateWork d => exact .request i d c' (allocateIslandWork_ok h)
    | unhandled type binary =>
        obtain ⟨-, rfl⟩ : () = u ∧ c = c' := by
          simpa [handle, handleIslandsSocketMsg] using h
        exact .unhandledIsland i type binary

/-! ## Results passed on -/

/-- The results among the messages sent, with the islands they go to. -/
def forwarded (messages : List (Sent β)) : List (IslandId × β) :=
  messages.filterMap fun
    | .toIsland i binary => some (i, binary)
    | .toWorker _ _ => none

/-- The result a message makes the controller pass on. -/
def answer (c : Controller β) : Incoming β → Option (IslandId × β)
  | .fromWorker w (.workResults binary) =>
      (c.workAllocationMap.lookup w).map fun record => (record.islandId, binary)
  | _ => none

@[simp] theorem forwarded_nil : forwarded ([] : List (Sent β)) = [] := rfl

theorem forwarded_toWorker (messages : List (Sent β)) (m : ToWorkerMsg β) :
    forwarded (messages ++ [.toWorker w m]) = forwarded messages := by
  simp [forwarded]

theorem forwarded_toIsland (messages : List (Sent β)) (binary : β) :
    forwarded (messages ++ [.toIsland i binary]) = forwarded messages ++ [(i, binary)] := by
  simp [forwarded]

theorem Allocates.forwarded_eq (h : Allocates archive env i d c c') :
    forwarded c'.sent = forwarded c.sent := by
  obtain ⟨w, repo, -, -⟩ := h
  exact forwarded_toWorker c.sent _

theorem Places.forwarded_eq (h : Places archive env i d c c') :
    forwarded c'.sent = forwarded c.sent := by
  cases h with
  | queue => rfl
  | allocate someFree c' h => exact h.forwarded_eq

theorem Frees.forwarded_eq (h : Frees archive env w c c') :
    forwarded c'.sent = forwarded c.sent := by
  cases h with
  | release => rfl
  | serve i d waiting c' h =>
      have popped : forwarded c'.sent = forwarded ((c.released w).popped i).sent := h.forwarded_eq
      exact popped

/-- A handler passes on the result it was given, and no other. -/
theorem Handled.forwarded_eq {msg : Incoming β} (h : Handled archive env c msg c')
    (quiet : c.sent = []) : forwarded c'.sent = (c.answer msg).toList := by
  cases h with
  | joinKnown => rw [quiet]; rfl
  | join w unknown c' h =>
      have same : forwarded c'.sent = forwarded (c.joined w).sent := h.forwarded_eq
      rw [same, joined, quiet]
      rfl
  | leaveIdle w idle => rw [left, quiet]; rfl
  | leaveBusy w record busy c' h =>
      have same : forwarded c'.sent = forwarded ((c.left w).cleared w).sent := h.forwarded_eq
      rw [same, cleared, left, quiet]
      rfl
  | results w binary wct repo record readable finished busy c' h =>
      have same : forwarded c'.sent = forwarded (c.answered w record.islandId binary repo).sent :=
        h.forwarded_eq
      rw [same, answered, quiet, answer, busy]
      rfl
  | getDll => rw [quiet]; rfl
  | request i d c' h => rw [h.forwarded_eq, quiet]; rfl
  | unhandledWorker => rw [quiet]; rfl
  | unhandledIsland => rw [quiet]; rfl

/-- A freed worker ends up in the pool, or a message has been sent. -/
theorem Frees.free_or_sent (h : Frees archive env w c c') :
    w ∈ c'.freeWorkersPool ∨ c'.sent ≠ c.sent := by
  cases h with
  | release => exact Or.inl (Finset.mem_insert_self w c.freeWorkersPool)
  | serve i d waiting c' h =>
      obtain ⟨v, repo, -, -⟩ := h
      refine Or.inr fun same => ?_
      have longer : c.sent ++ [.toWorker v (.allocateWork d)] = c.sent := same
      simp at longer

/-! ## Handlers that fault -/

/-- A faulting allocation has sent nothing and has not dereferenced `end()`, if
    there was a free worker. -/
theorem allocateWorkerToIsland_error (someFree : c.freeWorkersPool ≠ ∅)
    (h : (allocateWorkerToIsland archive env i d).run c = .error f c') :
    f ≠ .undefinedBehaviour ∧ c'.sent = c.sent := by
  rw [allocateWorkerToIsland_run] at h
  cases hd : archive.workContainer d with
  | error e =>
      simp only [hd, EStateM.Result.error.injEq] at h
      obtain ⟨rfl, rfl⟩ := h
      exact ⟨by simp, rfl⟩
  | ok wct =>
      cases hw : chooseWorker env wct.preferredWorkerId c.freeWorkersPool with
      | none => exact absurd (chooseWorker_eq_none.mp hw) someFree
      | some w =>
          cases saved : env.startSave with
          | error e =>
              simp only [hd, hw, saved, EStateM.Result.error.injEq] at h
              obtain ⟨rfl, rfl⟩ := h
              exact ⟨by simp, rfl⟩
          | ok _ =>
              cases hs : c.workerInfo.workerStartedWork w env.startTime with
              | error e =>
                  simp only [hd, hw, saved, hs, EStateM.Result.error.injEq] at h
                  obtain ⟨rfl, rfl⟩ := h
                  exact ⟨by simp, rfl⟩
              | ok repo => simp [hd, hw, saved, hs] at h

theorem allocateIslandWork_error (h : (allocateIslandWork archive env i d).run c = .error f c') :
    f ≠ .undefinedBehaviour ∧ c'.sent = c.sent := by
  rw [allocateIslandWork_run] at h
  split_ifs at h with hfree
  exact allocateWorkerToIsland_error hfree h

theorem addFreeWorker_error (h : (addFreeWorker archive env w).run c = .error f c') :
    f ≠ .undefinedBehaviour ∧ c'.sent = c.sent := by
  rw [addFreeWorker_run] at h
  cases hb : UnorderedMap.begin env.waitingOrder c.islandsWaitingForAlloc with
  | none => simp [hb] at h
  | some p =>
      simp only [hb] at h
      -- the pool holds at least the worker that has just been inserted
      have someFree : ((c.released w).popped p.1).freeWorkersPool ≠ ∅ :=
        Finset.insert_ne_empty w c.freeWorkersPool
      have faulted : f ≠ .undefinedBehaviour ∧ c'.sent = ((c.released w).popped p.1).sent :=
        allocateWorkerToIsland_error someFree h
      exact faulted

/-- The only message a faulting handler can have sent is the result it was
    handling, and no handler dereferences `end()`, whatever the state. -/
theorem handle_error {msg : Incoming β} (h : (handle archive env msg).run c = .error f c') :
    f ≠ .undefinedBehaviour ∧ (c'.sent = c.sent ∨ ∃ w binary record,
      msg = .fromWorker w (.workResults binary) ∧
      c.workAllocationMap.lookup w = some record ∧
      c'.sent = c.sent ++ [.toIsland record.islandId binary]) := by
  rcases msg with ⟨w, m⟩ | ⟨i, m⟩
  · cases m with
    | workerJoin =>
        rw [handle, workerJoin_run] at h
        split_ifs at h
        cases saved : env.noticeSave with
        | error e =>
            simp only [saved, EStateM.Result.error.injEq] at h
            obtain ⟨rfl, rfl⟩ := h
            exact ⟨by simp, Or.inl rfl⟩
        | ok _ =>
            simp only [saved] at h
            obtain ⟨defined, quiet⟩ := addFreeWorker_error h
            exact ⟨defined, Or.inl quiet⟩
    | workerLeave =>
        rw [handle, workerLeave_run] at h
        cases saved : env.noticeSave with
        | error e =>
            simp only [saved, EStateM.Result.error.injEq] at h
            obtain ⟨rfl, rfl⟩ := h
            exact ⟨by simp, Or.inl rfl⟩
        | ok _ =>
            cases busy : c.workAllocationMap.lookup w with
            | none => simp [saved, busy] at h
            | some record =>
                simp only [saved, busy] at h
                obtain ⟨defined, quiet⟩ := allocateIslandWork_error h
                exact ⟨defined, Or.inl quiet⟩
    | workResults binary =>
        rw [handle, workResults_run] at h
        cases readable : archive.workContainer binary with
        | error e =>
            simp only [readable, EStateM.Result.error.injEq] at h
            obtain ⟨rfl, rfl⟩ := h
            exact ⟨by simp, Or.inl rfl⟩
        | ok wct =>
            cases saved : env.noticeSave with
            | error e =>
                simp only [readable, saved, EStateM.Result.error.injEq] at h
                obtain ⟨rfl, rfl⟩ := h
                exact ⟨by simp, Or.inl rfl⟩
            | ok _ =>
                simp only [readable, saved] at h
                cases finished : c.workerInfo.workerFinishedWork w (archive.size wct.pop)
                    (archive.getName wct.algo) env.finishTime with
                | error e =>
                    simp only [finished, EStateM.Result.error.injEq] at h
                    obtain ⟨rfl, rfl⟩ := h
                    exact ⟨by simp, Or.inl rfl⟩
                | ok repo =>
                    cases busy : c.workAllocationMap.lookup w with
                    | none =>
                        simp only [finished, busy, EStateM.Result.error.injEq] at h
                        obtain ⟨rfl, rfl⟩ := h
                        exact ⟨by simp, Or.inl rfl⟩
                    | some record =>
                        simp only [finished, busy] at h
                        obtain ⟨defined, quiet⟩ := addFreeWorker_error h
                        exact ⟨defined, Or.inr ⟨w, binary, record, rfl, busy, quiet⟩⟩
    | getDll binary =>
        rw [handle, getDll_run] at h
        cases hr : archive.getDllRequest binary with
        | error e =>
            simp only [hr, EStateM.Result.error.injEq] at h
            obtain ⟨rfl, rfl⟩ := h
            exact ⟨by simp, Or.inl rfl⟩
        | ok request =>
            cases found : env.getLibAsFile request.dllName with
            | error e =>
                simp only [hr, found, EStateM.Result.error.injEq] at h
                obtain ⟨rfl, rfl⟩ := h
                exact ⟨by simp, Or.inl rfl⟩
            | ok file => simp [hr, found] at h
    | unhandled type binary => simp [handle, handleWorkersSocketMsg] at h
  · cases m with
    | allocateWork d =>
        obtain ⟨defined, quiet⟩ := allocateIslandWork_error h
        exact ⟨defined, Or.inl quiet⟩
    | unhandled type binary => simp [handle, handleIslandsSocketMsg] at h

end Controller

end Metasolver
