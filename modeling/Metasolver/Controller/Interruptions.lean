import Metasolver.Controller.Outcome

/-!
# Handlers that are interrupted

Two calls of a handler can throw whatever the message and the members are: `_settings()`,
which saves the settings before it returns them, and `get_lib_as_file`, which asks the
file system outside of its `try` block whether the file exists.  `Undisturbed` says that
neither does.

A handler that is interrupted is compared with what it does in calm surroundings
(`handle_or_interrupted`): it has stopped before it has touched a request, or when it has
claimed a worker and only the message to it is missing.
-/

namespace Metasolver

/-- The same surroundings if nothing outside of the controller throws. -/
def Surroundings.calm (env : Surroundings) : Surroundings :=
  { env with
    noticeSave := .ok ()
    startSave := .ok ()
    getLibAsFile := fun libName => .ok (env.getLibAsFile libName).toOption.join }

namespace Controller

variable {β Algo Pop : Type} {archive : Archive β Algo Pop} {env : Surroundings}
  {c c' : Controller β} {i : IslandId} {d : β} {w : WorkerId} {u : Unit}

/-- The library that is asked for can be looked up. -/
def FindsLib (archive : Archive β Algo Pop) (env : Surroundings) (binary : β) : Prop :=
  match archive.getDllRequest binary with
  | .ok request => (env.getLibAsFile request.dllName).isOk = true
  | .error _ => True

instance (binary : β) : Decidable (FindsLib archive env binary) := by
  unfold FindsLib
  split <;> infer_instance

/-- The settings can be saved, and the library can be looked up. -/
def Undisturbed (archive : Archive β Algo Pop) (env : Surroundings) : Incoming β → Prop
  | .fromWorker _ .workerJoin => env.noticeSave = .ok () ∧ env.startSave = .ok ()
  | .fromWorker _ .workerLeave => env.noticeSave = .ok () ∧ env.startSave = .ok ()
  | .fromWorker _ (.workResults _) => env.noticeSave = .ok () ∧ env.startSave = .ok ()
  | .fromWorker _ (.getDll binary) => FindsLib archive env binary
  | .fromIsland _ (.allocateWork _) => env.startSave = .ok ()
  | .fromWorker _ (.unhandled _ _) => True
  | .fromIsland _ (.unhandled _ _) => True

instance (msg : Incoming β) : Decidable (Undisturbed archive env msg) := by
  unfold Undisturbed
  split <;> infer_instance

theorem undisturbed_calm (msg : Incoming β) : Undisturbed archive env.calm msg := by
  rcases msg with ⟨w, m⟩ | ⟨i, m⟩
  · cases m with
    | getDll binary =>
        rw [Undisturbed, FindsLib]
        cases archive.getDllRequest binary with
        | error e => trivial
        | ok request => rfl
    | workerJoin => exact ⟨rfl, rfl⟩
    | workerLeave => exact ⟨rfl, rfl⟩
    | workResults binary => exact ⟨rfl, rfl⟩
    | unhandled type binary => trivial
  · cases m with
    | allocateWork d => rfl
    | unhandled type binary => trivial

/-- How a handler has been interrupted that ends in `calm` if nothing interrupts it. -/
inductive Interrupted (msg : Incoming β) (c c' calm : Controller β) : Prop
  /-- No request has been touched, and nothing has been sent. -/
  | atOnce (noRequest : ∀ i d, msg ≠ .fromIsland i (.allocateWork d))
      (waiting : c'.islandsWaitingForAlloc = c.islandsWaitingForAlloc)
      (allocated : c'.workAllocationMap = c.workAllocationMap) (quiet : c'.sent = c.sent)
  /-- The worker has been claimed, and the message to it is missing. -/
  | beforeStart (w : WorkerId) (d : β)
      (waiting : c'.islandsWaitingForAlloc = calm.islandsWaitingForAlloc)
      (allocated : c'.workAllocationMap = calm.workAllocationMap)
      (sent : calm.sent = c'.sent ++ [.toWorker w (.allocateWork d)])

/-- The program ends where it ends in calm surroundings, or it has been interrupted. -/
def EndsOrInterrupted (msg : Incoming β) (x : ControllerM β Unit) (c calm : Controller β) :
    Prop :=
  x.run c = .ok () calm ∨
    ∃ e c', x.run c = .error (.exception e) c' ∧ Interrupted msg c c' calm

/-- What an allocation does if it can be interrupted. -/
theorem allocateWorkerToIsland_or_interrupted
    (h : (allocateWorkerToIsland archive env.calm i d).run c = .ok u c') :
    (allocateWorkerToIsland archive env i d).run c = .ok () c' ∨
      ∃ e v, env.startSave = .error e ∧
        (allocateWorkerToIsland archive env i d).run c = .error (.exception e) (c.claimed v i d) ∧
        ∃ repo, c' = c.allocated v i d repo := by
  rw [allocateWorkerToIsland_run] at h ⊢
  cases hd : archive.workContainer d with
  | error e => simp [hd] at h
  | ok wct =>
      have same : chooseWorker env.calm wct.preferredWorkerId c.freeWorkersPool =
        chooseWorker env wct.preferredWorkerId c.freeWorkersPool := rfl
      simp only [hd, same] at h
      cases hw : chooseWorker env wct.preferredWorkerId c.freeWorkersPool with
      | none => simp [hw] at h
      | some v =>
          simp only [hw, Surroundings.calm] at h
          cases hs : c.workerInfo.workerStartedWork v env.startTime with
          | error e => simp [hs] at h
          | ok repo =>
              simp only [hs, EStateM.Result.ok.injEq] at h
              obtain ⟨-, rfl⟩ := h
              cases saved : env.startSave with
              | error e => exact Or.inr ⟨e, v, rfl, by simp only [hw], repo, rfl⟩
              | ok _ => exact Or.inl (by simp only [hw, hs])

/-- The same for what calls it, whatever has been changed before. -/
theorem interrupted_of_allocation {msg : Incoming β} {c₁ : Controller β}
    {x : ControllerM β Unit}
    (run : x.run c = (allocateWorkerToIsland archive env i d).run c₁)
    (h : (allocateWorkerToIsland archive env.calm i d).run c₁ = .ok u c') :
    EndsOrInterrupted msg x c c' := by
  rcases allocateWorkerToIsland_or_interrupted h with ends | ⟨e, v, -, ends, repo, rfl⟩
  · exact Or.inl (run.trans ends)
  · exact Or.inr ⟨e, _, run.trans ends, .beforeStart v d rfl rfl rfl⟩

theorem interrupted_of_placing {msg : Incoming β} {c₁ : Controller β} {x : ControllerM β Unit}
    (run : x.run c = (allocateIslandWork archive env i d).run c₁)
    (h : (allocateIslandWork archive env.calm i d).run c₁ = .ok u c') :
    EndsOrInterrupted msg x c c' := by
  rw [allocateIslandWork_run] at run h
  split_ifs at run h with noneFree
  · obtain ⟨-, rfl⟩ := EStateM.Result.ok.inj h
    exact Or.inl run
  · exact interrupted_of_allocation run h

theorem interrupted_of_freeing {msg : Incoming β} {c₁ : Controller β} {x : ControllerM β Unit}
    (run : x.run c = (addFreeWorker archive env w).run c₁)
    (h : (addFreeWorker archive env.calm w).run c₁ = .ok u c') :
    EndsOrInterrupted msg x c c' := by
  rw [addFreeWorker_run] at run h
  have same : UnorderedMap.begin env.calm.waitingOrder c₁.islandsWaitingForAlloc =
    UnorderedMap.begin env.waitingOrder c₁.islandsWaitingForAlloc := rfl
  rw [same] at h
  cases next : UnorderedMap.begin env.waitingOrder c₁.islandsWaitingForAlloc with
  | none =>
      rw [next] at run h
      obtain ⟨-, rfl⟩ := EStateM.Result.ok.inj h
      exact Or.inl run
  | some p =>
      rw [next] at run h
      exact interrupted_of_allocation run h

/-- Nothing has been done yet, apart from taking a worker out of the pool. -/
theorem interrupted_at_once {msg : Incoming β} {x : ControllerM β Unit} {e : Exn}
    {calm : Controller β} (noRequest : ∀ i d, msg ≠ .fromIsland i (.allocateWork d))
    (run : x.run c = .error (.exception e) c')
    (waiting : c'.islandsWaitingForAlloc = c.islandsWaitingForAlloc)
    (allocated : c'.workAllocationMap = c.workAllocationMap) (quiet : c'.sent = c.sent) :
    EndsOrInterrupted msg x c calm :=
  Or.inr ⟨e, c', run, .atOnce noRequest waiting allocated quiet⟩

/-- A handler that ends normally in calm surroundings ends so in all others, or has been
    interrupted. -/
theorem handle_or_interrupted {msg : Incoming β}
    (h : (handle archive env.calm msg).run c = .ok u c') :
    EndsOrInterrupted msg (handle archive env msg) c c' := by
  rcases msg with ⟨w, m⟩ | ⟨i, m⟩
  · cases m with
    | workerJoin =>
        have run : (handle archive env (.fromWorker w .workerJoin)).run c = _ := workerJoin_run
        rw [handle, workerJoin_run] at h
        split_ifs at run h with known
        · obtain ⟨-, rfl⟩ := EStateM.Result.ok.inj h
          exact Or.inl run
        · cases saved : env.noticeSave with
          | error e =>
              rw [saved] at run
              exact interrupted_at_once (by simp) run rfl rfl rfl
          | ok _ =>
              rw [saved] at run
              exact interrupted_of_freeing run h
    | workerLeave =>
        have run : (handle archive env (.fromWorker w .workerLeave)).run c = _ := workerLeave_run
        rw [handle, workerLeave_run] at h
        cases saved : env.noticeSave with
        | error e =>
            rw [saved] at run
            exact interrupted_at_once (by simp) run rfl rfl rfl
        | ok _ =>
            simp only [Surroundings.calm] at h
            cases busy : c.workAllocationMap.lookup w with
            | none =>
                simp only [saved, busy] at run h
                obtain ⟨-, rfl⟩ := EStateM.Result.ok.inj h
                exact Or.inl run
            | some record =>
                simp only [saved, busy] at run h
                exact interrupted_of_placing run h
    | workResults binary =>
        have run : (handle archive env (.fromWorker w (.workResults binary))).run c = _ :=
          workResults_run binary
        rw [handle, workResults_run] at h
        cases readable : archive.workContainer binary with
        | error e => simp [readable] at h
        | ok wct =>
            simp only [readable, Surroundings.calm] at run h
            cases saved : env.noticeSave with
            | error e =>
                rw [saved] at run
                exact interrupted_at_once (by simp) run rfl rfl rfl
            | ok _ =>
                cases finished : c.workerInfo.workerFinishedWork w (archive.size wct.pop)
                    (archive.getName wct.algo) env.finishTime with
                | error e => simp [finished] at h
                | ok repo =>
                    cases busy : c.workAllocationMap.lookup w with
                    | none => simp [finished, busy] at h
                    | some record =>
                        simp only [saved, finished, busy] at run h
                        exact interrupted_of_freeing run h
    | getDll binary =>
        have run : (handle archive env (.fromWorker w (.getDll binary))).run c = _ :=
          getDll_run binary
        rw [handle, getDll_run] at h
        cases readable : archive.getDllRequest binary with
        | error e => simp [readable] at h
        | ok request =>
            simp only [readable, Surroundings.calm] at run h
            cases found : env.getLibAsFile request.dllName with
            | error e =>
                rw [found] at run
                exact interrupted_at_once (by simp) run rfl rfl rfl
            | ok file =>
                rw [found] at run h
                obtain ⟨-, rfl⟩ := EStateM.Result.ok.inj h
                exact Or.inl run
    | unhandled type binary => exact Or.inl h
  · cases m with
    | allocateWork d => exact interrupted_of_placing rfl h
    | unhandled type binary => exact Or.inl h

/-- Undisturbed, a handler does what it does in calm surroundings. -/
theorem handle_calm {msg : Incoming β} (undisturbed : Undisturbed archive env msg) :
    (handle archive env msg).run c = (handle archive env.calm msg).run c := by
  rcases msg with ⟨w, m⟩ | ⟨i, m⟩
  · cases m with
    | getDll binary =>
        rw [Undisturbed, FindsLib] at undisturbed
        rw [handle, getDll_run, handle, getDll_run]
        cases readable : archive.getDllRequest binary with
        | error e => rfl
        | ok request =>
            rw [readable] at undisturbed
            cases found : env.getLibAsFile request.dllName with
            | error e => simp [found, Except.isOk, Except.toBool] at undisturbed
            | ok file => simp only [Surroundings.calm, found]; rfl
    | unhandled type binary => rfl
    | _ =>
        obtain ⟨freeOrder, waitingOrder, finishTime, startTime, noticeSave, startSave, lookup⟩ :=
          env
        obtain ⟨rfl, rfl⟩ : noticeSave = .ok () ∧ startSave = .ok () := undisturbed
        rfl
  · cases m with
    | allocateWork d =>
        obtain ⟨freeOrder, waitingOrder, finishTime, startTime, noticeSave, startSave, lookup⟩ :=
          env
        obtain rfl : startSave = .ok () := undisturbed
        rfl
    | unhandled type binary => rfl

end Controller

end Metasolver
