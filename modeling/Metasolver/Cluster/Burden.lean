import Metasolver.Cluster.Step

/-!
# What a worker carries

`Peer.burden` lists the jobs of a worker wherever they are between the controller
that has sent the work and the controller that has not received the results.  A
step of the worker or of its connection passes a job on to the next place and
never adds one, so a worker that carries at most one job keeps to that
(`Peer.Sound`), and when work reaches it there is no earlier thread.

`Notified` relates the notifications on their way to the controller with the
connection: replayed from what the controller believes they end in what is true.
-/

namespace Metasolver

open Exec

variable {β : Type}

/-! ## Jobs of the process -/

@[simp] theorem ThreadMsg.job_toController (m : ThreadMsg (Parcel β)) :
    m.toController.job = m.job := by
  cases m <;> rfl

/-- Replies of the controller that bring no work add no job. -/
@[simp] theorem ToWorkerMsg.job_dllBinary (binary : Parcel β) :
    (ToWorkerMsg.dllBinary binary).job = none := rfl

namespace Worker

variable {v v' : Worker (Parcel β)}

theorem length_filterMap_job (l : List (ThreadMsg (Parcel β))) :
    (l.filterMap ThreadMsg.job).length = l.countP isResults := by
  induction l with
  | nil => rfl
  | cons m l ih =>
      cases m with
      | workResults binary =>
          rw [List.countP_cons_of_pos rfl, ← ih]
          rfl
      | getDll binary =>
          rw [List.countP_cons_of_neg Bool.false_ne_true, ← ih]
          rfl

/-- A process without a job has no thread. -/
theorem not_joinable_of_jobs (ok : v.ThreadOk) (none_ : v.jobs = []) :
    v.workerThread.joinable = false := by
  unfold jobs at none_
  simp only [List.append_eq_nil_iff] at none_
  obtain ⟨⟨-, noResults⟩, noWork⟩ := none_
  have counted : v.threadSocket.countP isResults = 0 := by
    rw [← length_filterMap_job, noResults, List.length_nil]
  unfold ThreadOk at ok
  rw [counted] at ok
  cases thread : v.workerThread with
  | notJoinable => rfl
  | running d => rw [thread] at noWork; cases noWork
  | awaitingDll d => rw [thread] at noWork; cases noWork
  | finished => rw [thread] at ok; cases ok

theorem jobs_threadFinishes {results : β}
    (h : v.threadFinishes (fun workData => ⟨results, workData.served⟩) = some v') :
    v'.jobs = v.jobs ∧ v'.fault = none := by
  obtain ⟨workData, alive, thread, rfl⟩ := threadFinishes_cases h
  refine ⟨?_, alive⟩
  simp [jobs, thread, WorkerThread.jobs, ThreadMsg.job]

theorem jobs_threadRequestsDll {request : β}
    (h : v.threadRequestsDll ⟨request, none⟩ = some v') : v'.jobs = v.jobs ∧ v'.fault = none := by
  obtain ⟨workData, alive, thread, rfl⟩ := threadRequestsDll_cases h
  refine ⟨?_, alive⟩
  simp [jobs, thread, WorkerThread.jobs, ThreadMsg.job]

theorem jobs_threadSocketReceives (h : ThreadSocketStep v v') : v'.jobs = v.jobs := by
  cases h with
  | results binary rest oldest thread =>
      simp [jobs, oldest, thread, WorkerThread.jobs, ThreadMsg.job]
  | getDll binary rest oldest => simp [jobs, oldest, List.filterMap_cons, ThreadMsg.job]

theorem jobs_sendToDllHandler : v.sendToDllHandler.jobs = v.jobs := by
  rcases @sendToDllHandler_cases _ v with ⟨workData, thread, sent⟩ | same
  · rw [sent]
    simp [jobs, thread, WorkerThread.jobs]
  · rw [same]

end Worker

/-! ## Steps of a worker and its connection -/

namespace Peer

variable {p p' : Peer (Parcel β)} {e : PeerEvent β}

/-- What a step of a worker or of its connection does. -/
inductive Stepped (p : Peer (Parcel β)) : PeerEvent β → Peer (Parcel β) → Prop
  | connects (down : p.linked = false) :
      Stepped p .connects { p with linked := true, inbound := p.inbound ++ [.workerJoin] }
  | disconnects (arrived : Nat) (up : p.linked = true) :
      Stepped p (.disconnects arrived) { p with
        linked := false
        inbound := p.inbound ++ [.workerLeave]
        outbound := p.outbound.take arrived }
  | restarts (down : p.linked = false) :
      Stepped p .restarts { p with outbound := [], worker := {} }
  | transmits (m : ThreadMsg (Parcel β)) (rest : List (ThreadMsg (Parcel β)))
      (up : p.linked = true) (queue : p.worker.workerSocket = m :: rest) :
      Stepped p .transmits { p with
        inbound := p.inbound ++ [m.toController]
        worker := { p.worker with workerSocket := rest } }
  | workerReceives (m : ToWorkerMsg (Parcel β)) (rest : List (ToWorkerMsg (Parcel β)))
      (alive : p.worker.fault = none) (next : p.outbound = m :: rest) :
      Stepped p .workerReceives { p with outbound := rest, worker := p.worker.receive m }
  | threadFinishes (results : β) (v : Worker (Parcel β))
      (h : p.worker.threadFinishes (fun workData => ⟨results, workData.served⟩) = some v) :
      Stepped p (.threadFinishes results) { p with worker := v }
  | threadRequestsDll (request : β) (v : Worker (Parcel β))
      (h : p.worker.threadRequestsDll ⟨request, none⟩ = some v) :
      Stepped p (.threadRequestsDll request) { p with worker := v }
  | threadSocketReceives (v : Worker (Parcel β)) (h : p.worker.threadSocketReceives = some v) :
      Stepped p .threadSocketReceives { p with worker := v }

theorem step_cases (h : p.step e = some p') : Stepped p e p' := by
  cases e with
  | connects =>
      simp only [Peer.step, Option.ite_none_left_eq_some, Option.some.injEq] at h
      obtain ⟨down, rfl⟩ := h
      exact .connects (Bool.eq_false_iff.mpr down)
  | disconnects arrived =>
      simp only [Peer.step, Option.ite_none_right_eq_some, Option.some.injEq] at h
      obtain ⟨up, rfl⟩ := h
      exact .disconnects arrived up
  | restarts =>
      simp only [Peer.step, Option.ite_none_left_eq_some, Option.some.injEq] at h
      obtain ⟨down, rfl⟩ := h
      exact .restarts (Bool.eq_false_iff.mpr down)
  | transmits =>
      simp only [Peer.step] at h
      split at h
      case h_1 m rest up queue =>
        obtain rfl := Option.some.inj h
        exact .transmits m rest up queue
      case h_2 => cases h
  | workerReceives =>
      simp only [Peer.step] at h
      split at h
      case h_1 m rest alive next =>
        obtain rfl := Option.some.inj h
        exact .workerReceives m rest alive next
      case h_2 => cases h
  | threadFinishes results =>
      obtain ⟨v, hv, rfl⟩ := Option.map_eq_some_iff.mp h
      exact .threadFinishes results v hv
  | threadRequestsDll request =>
      obtain ⟨v, hv, rfl⟩ := Option.map_eq_some_iff.mp h
      exact .threadRequestsDll request v hv
  | threadSocketReceives =>
      obtain ⟨v, hv, rfl⟩ := Option.map_eq_some_iff.mp h
      exact .threadSocketReceives v hv

/-- At most one job, and a worker process in order. -/
structure Sound (p : Peer (Parcel β)) : Prop where
  oneJob : p.burden.length ≤ 1
  threadOk : p.worker.ThreadOk
  alive : p.worker.fault = none

theorem sound_start : Sound ({} : Peer (Parcel β)) where
  oneJob := Nat.zero_le 1
  threadOk := Worker.threadOk_start
  alive := rfl

/-- Whatever adds no job keeps a worker sound, if the process stays in order. -/
theorem Sound.lighter (sound : Sound p) (fewer : p'.burden.Sublist p.burden)
    (ok : p'.worker.ThreadOk) (alive : p'.worker.fault = none) :
    Sound p' ∧ p'.burden.Sublist p.burden := by
  have oneJob : p'.burden.length ≤ 1 := fewer.length_le.trans sound.oneJob
  exact ⟨⟨oneJob, ok, alive⟩, fewer⟩

/-- Work that reaches a worker finds it without a thread. -/
theorem Sound.idle {workData : Parcel β} {rest : List (ToWorkerMsg (Parcel β))} (sound : Sound p)
    (next : p.outbound = .allocateWork workData :: rest) :
    p.worker.workerThread.joinable = false := by
  have few := sound.oneJob
  unfold burden at few
  simp only [next, List.filterMap_cons, ToWorkerMsg.job, List.length_append,
    List.length_cons] at few
  have noJobs : p.worker.jobs = [] := List.length_eq_zero_iff.mp (by omega)
  exact Worker.not_joinable_of_jobs sound.threadOk noJobs

/-- The process does something that neither adds a job nor loses one. -/
theorem Sound.onWorker {v : Worker (Parcel β)} (sound : Sound p) (same : v.jobs = p.worker.jobs)
    (ok : v.ThreadOk) (alive : v.fault = none) :
    Sound { p with worker := v } ∧ (burden { p with worker := v }).Sublist p.burden := by
  refine sound.lighter ?_ ok alive
  unfold burden
  rw [same]

theorem Sound.workerReceives {msg : ToWorkerMsg (Parcel β)} {rest : List (ToWorkerMsg (Parcel β))}
    (sound : Sound p) (next : p.outbound = msg :: rest) :
    Sound { p with outbound := rest, worker := p.worker.receive msg } ∧
      (burden { p with outbound := rest, worker := p.worker.receive msg }).Sublist p.burden := by
  cases msg with
  | allocateWork workData =>
      have idle := sound.idle next
      obtain ⟨ok, started⟩ := Worker.receive_allocateWork workData sound.threadOk idle
      have noJobs : p.worker.workerThread.jobs = [] := by
        cases thread : p.worker.workerThread with
        | notJoinable => rfl
        | _ => rw [thread] at idle; cases idle
      refine sound.lighter ?_ ok ?_
      · rw [started]
        simp only [burden, Worker.jobs, next, noJobs, List.filterMap_cons, ToWorkerMsg.job]
        simp [WorkerThread.jobs]
      · rw [started]
        exact sound.alive
  | dllBinary binary =>
      have alive := Worker.fault_sendToDllHandler.trans sound.alive
      refine sound.lighter ?_ sound.threadOk.sendToDllHandler alive
      change (p.inbound.filterMap WorkerMsg.job ++ p.worker.sendToDllHandler.jobs ++
        rest.filterMap ToWorkerMsg.job).Sublist p.burden
      rw [Worker.jobs_sendToDllHandler, burden, next, List.filterMap_cons_none rfl]

/-- A step keeps the worker sound, and every job it carries afterwards it carried before. -/
theorem Sound.step (sound : Sound p) (h : p.step e = some p') :
    Sound p' ∧ p'.burden.Sublist p.burden := by
  cases step_cases h with
  | connects down =>
      refine sound.lighter ?_ sound.threadOk sound.alive
      simp [burden, List.filterMap_cons, WorkerMsg.job]
  | disconnects arrived up =>
      refine sound.lighter ?_ sound.threadOk sound.alive
      simp only [burden, List.filterMap_append]
      apply List.Sublist.append
      · simp [List.filterMap_cons, WorkerMsg.job]
      · exact (List.take_sublist arrived p.outbound).filterMap _
  | restarts down =>
      refine sound.lighter ?_ Worker.threadOk_start rfl
      simp [burden, Worker.jobs, WorkerThread.jobs]
  | transmits m rest up queue =>
      refine sound.lighter ?_ sound.threadOk sound.alive
      simp only [burden, Worker.jobs, queue, List.filterMap_append, List.filterMap_cons,
        List.filterMap_nil, ThreadMsg.job_toController]
      cases m.job <;> simp
  | workerReceives m rest alive next => exact sound.workerReceives next
  | threadFinishes results v hv =>
      obtain ⟨same, alive⟩ := Worker.jobs_threadFinishes hv
      exact sound.onWorker same (sound.threadOk.threadFinishes hv) alive
  | threadRequestsDll request v hv =>
      obtain ⟨same, alive⟩ := Worker.jobs_threadRequestsDll hv
      exact sound.onWorker same (sound.threadOk.threadRequestsDll hv) alive
  | threadSocketReceives v hv =>
      obtain ⟨done, ok⟩ := Worker.threadSocketReceives_cases sound.threadOk hv
      have alive := done.fault_eq.trans sound.alive
      exact sound.onWorker (Worker.jobs_threadSocketReceives done) ok alive

/-- The thread and its results match, and `join` has not thrown. -/
structure Joins (v : Worker (Parcel β)) : Prop where
  threadOk : v.ThreadOk
  returned : v.fault ≠ some .systemError

/-- No step makes `join` throw, whatever jobs the worker carries. -/
theorem Joins.step (joins : Joins p.worker) (h : p.step e = some p') : Joins p'.worker := by
  cases step_cases h with
  | connects => exact joins
  | disconnects => exact joins
  | restarts => exact ⟨Worker.threadOk_start, by simp⟩
  | transmits => exact ⟨joins.threadOk, joins.returned⟩
  | workerReceives m rest alive next =>
      obtain ⟨ok, same | terminated⟩ := joins.threadOk.receive m
      · exact ⟨ok, by rw [same]; exact joins.returned⟩
      · exact ⟨ok, by rw [terminated]; simp⟩
  | threadFinishes results v hv =>
      obtain ⟨-, alive⟩ := Worker.jobs_threadFinishes hv
      exact ⟨joins.threadOk.threadFinishes hv, by rw [alive]; simp⟩
  | threadRequestsDll request v hv =>
      obtain ⟨-, alive⟩ := Worker.jobs_threadRequestsDll hv
      exact ⟨joins.threadOk.threadRequestsDll hv, by rw [alive]; simp⟩
  | threadSocketReceives v hv =>
      obtain ⟨done, ok⟩ := Worker.threadSocketReceives_cases joins.threadOk hv
      exact ⟨ok, by rw [done.fault_eq]; exact joins.returned⟩

/-! ## The oldest message is taken -/

theorem burden_pop {m : WorkerMsg (Parcel β)} {rest : List (WorkerMsg (Parcel β))}
    (next : p.inbound = m :: rest) :
    p.burden = m.job.toList ++ burden { p with inbound := rest } := by
  simp only [burden, next, List.filterMap_cons]
  cases m.job <;> simp

theorem Sound.pop {m : WorkerMsg (Parcel β)} {rest : List (WorkerMsg (Parcel β))}
    (sound : Sound p) (next : p.inbound = m :: rest) :
    Sound { p with inbound := rest } ∧ (burden { p with inbound := rest }).Sublist p.burden := by
  refine sound.lighter ?_ sound.threadOk sound.alive
  rw [burden_pop next]
  exact List.sublist_append_right _ _

/-! ## Notifications on their way -/

/-- What the controller believes about the connection after a message.  Messages
    other than the notifications come over a connection. -/
def hear (joined : Bool) : WorkerMsg (Parcel β) → Option Bool
  | .workerJoin => if joined then none else some true
  | .workerLeave => if joined then some false else none
  | _ => if joined then some true else none

/-- The messages on their way turn what the controller believes into what is true. -/
def Notified (joined : Bool) (p : Peer (Parcel β)) : Prop :=
  exec hear joined p.inbound = some p.linked

theorem Notified.step {joined : Bool} (h : p.step e = some p') (notified : Notified joined p) :
    Notified joined p' := by
  unfold Notified at notified ⊢
  cases step_cases h with
  | connects down =>
      refine exec_snoc.mpr ⟨p.linked, notified, ?_⟩
      simp [hear, down]
  | disconnects arrived up =>
      refine exec_snoc.mpr ⟨p.linked, notified, ?_⟩
      simp [hear, up]
  | restarts => exact notified
  | transmits m rest up queue =>
      refine exec_snoc.mpr ⟨p.linked, notified, ?_⟩
      cases m <;> simp [hear, ThreadMsg.toController, up]
  | workerReceives => exact notified
  | threadFinishes => exact notified
  | threadRequestsDll => exact notified
  | threadSocketReceives => exact notified

/-- What the next message means for the controller. -/
theorem hear_connected {connected : Finset WorkerId} {w : WorkerId} {m : WorkerMsg (Parcel β)}
    {joined : Bool} (h : hear (decide (w ∈ connected)) m = some joined) :
    Controller.Alternates connected (.fromWorker w m) ∧ (m ≠ .workerJoin → w ∈ connected) ∧
      joined = decide (w ∈ Log.connectedStep connected (.received (.fromWorker w m))) := by
  cases m with
  | workerJoin =>
      have away : w ∉ connected := by
        by_contra member
        simp [hear, member] at h
      refine ⟨away, by simp, ?_⟩
      have now : true = joined := by simpa [hear, away] using h
      simp [Log.connectedStep, ← now]
  | workerLeave =>
      have present : w ∈ connected := by
        by_contra member
        simp [hear, member] at h
      refine ⟨present, fun _ => present, ?_⟩
      have now : false = joined := by simpa [hear, present] using h
      simp [Log.connectedStep, ← now]
  | _ =>
      have present : w ∈ connected := by
        by_contra member
        simp [hear, member] at h
      refine ⟨trivial, fun _ => present, ?_⟩
      have now : true = joined := by simpa [hear, present] using h
      simp [Log.connectedStep, ← now, present]

end Peer

/-- A message of one worker is no notification of another. -/
theorem Log.mem_connectedStep_of_ne {connected : Finset WorkerId} {v w : WorkerId}
    {m : WorkerMsg β} (other : v ≠ w) :
    v ∈ Log.connectedStep connected (.received (.fromWorker w m)) ↔ v ∈ connected := by
  cases m <;> simp [Log.connectedStep, other]

end Metasolver
