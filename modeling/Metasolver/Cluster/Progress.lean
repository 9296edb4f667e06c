import Metasolver.Cluster.Attribution

/-!
# A cluster at rest

The cluster does not get stuck: as long as an island waits and a worker is connected, some
party can act (`some_party_can_act`).  In a state in which no party can act, no message is
left between the sockets of a worker, no thread waits for a library that nobody sends, and no
worker is allocated that has not got its job.

What is needed beyond `Inv` is about a worker that is connected and of which the controller
has heard (`Peer.Settled`).  If it is allocated it carries a job (`Holds`), and if its thread
waits for a library, the request or the answer is on its way (`Peer.Fetching`).  For a worker
whose connection was lost neither is so.
-/

namespace Metasolver

open Exec

variable {β Algo Pop : Type} {archive : Archive β Algo Pop} {env : Surroundings}

namespace Peer

variable {p p' : Peer (Parcel β)} {e : PeerEvent β}

/-- Connected, with no notification on its way. -/
def Settled (p : Peer (Parcel β)) : Prop :=
  p.linked = true ∧ .workerJoin ∉ p.inbound ∧ .workerLeave ∉ p.inbound

/-- The request for a library is on its way, or the answer is. -/
def Downloading (p : Peer (Parcel β)) : Prop :=
  (∃ r, .getDll r ∈ p.worker.threadSocket) ∨ (∃ r, .getDll r ∈ p.worker.workerSocket) ∨
    (∃ r, .getDll r ∈ p.inbound) ∨ ∃ r, .dllBinary r ∈ p.outbound

/-- A thread that waits for a library does not wait in vain. -/
def Fetching (p : Peer (Parcel β)) : Prop :=
  p.Settled → (∃ d, p.worker.workerThread = .awaitingDll d) → p.Downloading

/-- A worker that is settled after a step was so before, and has lost no job. -/
theorem settled_step (sound : Sound p) (h : p.step e = some p') (settled : p'.Settled) :
    p.Settled ∧ p'.burden.length = p.burden.length := by
  cases step_cases h with
  | connects down => exact absurd (List.mem_append_right _ List.mem_cons_self) settled.2.1
  | disconnects arrived up => exact absurd settled.1 Bool.false_ne_true
  | restarts down => exact absurd (settled.1.symm.trans down).symm Bool.false_ne_true
  | transmits m rest up queue =>
      refine ⟨⟨up, ?_, ?_⟩, ?_⟩
      · exact fun member => settled.2.1 (List.mem_append_left _ member)
      · exact fun member => settled.2.2 (List.mem_append_left _ member)
      · simp only [burden, Worker.jobs, queue, List.filterMap_append, List.filterMap_cons,
          List.filterMap_nil, ThreadMsg.job_toController]
        cases m.job <;> simp
  | workerReceives m rest alive next =>
      refine ⟨settled, ?_⟩
      cases m with
      | allocateWork workData =>
          have idle := sound.idle next
          have noJobs : p.worker.workerThread.jobs = [] := by
            cases thread : p.worker.workerThread with
            | notJoinable => rfl
            | _ => rw [thread] at idle; cases idle
          rw [(Worker.receive_allocateWork workData sound.threadOk idle).2]
          simp only [burden, Worker.jobs, next, noJobs, List.filterMap_cons, ToWorkerMsg.job]
          simp [WorkerThread.jobs]
      | dllBinary binary =>
          change (p.inbound.filterMap WorkerMsg.job ++ p.worker.sendToDllHandler.jobs ++
            rest.filterMap ToWorkerMsg.job).length = p.burden.length
          rw [Worker.jobs_sendToDllHandler, burden, next, List.filterMap_cons_none rfl]
  | threadFinishes results v hv =>
      refine ⟨settled, ?_⟩
      rw [burden, burden, (Worker.jobs_threadFinishes hv).1]
  | threadRequestsDll request v hv =>
      refine ⟨settled, ?_⟩
      rw [burden, burden, (Worker.jobs_threadRequestsDll hv).1]
  | threadSocketReceives v hv =>
      refine ⟨settled, ?_⟩
      rw [burden, burden, Worker.jobs_threadSocketReceives
        (Worker.threadSocketReceives_cases sound.threadOk hv).1]

/-- A thread begins to wait when it sends the request, and the messages of a download are
    passed on until it goes on. -/
theorem Fetching.step (fetching : Fetching p) (sound : Sound p) (h : p.step e = some p') :
    Fetching p' := by
  intro settled waits
  have before := (settled_step sound h settled).1
  cases step_cases h with
  | connects down => exact absurd (List.mem_append_right _ List.mem_cons_self) settled.2.1
  | disconnects arrived up => exact absurd settled.1 Bool.false_ne_true
  | restarts down => exact absurd (settled.1.symm.trans down).symm Bool.false_ne_true
  | transmits m rest up queue =>
      rcases fetching before waits with ⟨r, inThread⟩ | ⟨r, inSocket⟩ | ⟨r, inbound⟩ | ⟨r, out⟩
      · exact Or.inl ⟨r, inThread⟩
      · rw [queue, List.mem_cons] at inSocket
        rcases inSocket with rfl | inSocket
        · exact Or.inr (Or.inr (Or.inl ⟨r, List.mem_append_right _ List.mem_cons_self⟩))
        · exact Or.inr (Or.inl ⟨r, inSocket⟩)
      · exact Or.inr (Or.inr (Or.inl ⟨r, List.mem_append_left _ inbound⟩))
      · exact Or.inr (Or.inr (Or.inr ⟨r, out⟩))
  | workerReceives m rest alive next =>
      obtain ⟨d, waits⟩ := waits
      cases m with
      | allocateWork workData =>
          rw [(Worker.receive_allocateWork workData sound.threadOk (sound.idle next)).2] at waits
          cases waits
      | dllBinary binary =>
          have sent : (p.worker.sendToDllHandler).workerThread = .awaitingDll d := waits
          rcases @Worker.sendToDllHandler_cases _ p.worker with ⟨work, thread, goesOn⟩ | same
          · rw [goesOn] at sent
            cases sent
          · rw [same] at sent
            simp only [Worker.sendToDllHandler, sent] at same
            exact absurd (congrArg Worker.workerThread same) (by rw [sent]; simp)
  | threadFinishes results v hv =>
      obtain ⟨d, waits⟩ := waits
      obtain ⟨work, -, -, rfl⟩ := Worker.threadFinishes_cases hv
      cases waits
  | threadRequestsDll request v hv =>
      obtain ⟨work, -, -, rfl⟩ := Worker.threadRequestsDll_cases hv
      exact Or.inl ⟨_, List.mem_append_right _ List.mem_cons_self⟩
  | threadSocketReceives v hv =>
      obtain ⟨d, waits⟩ := waits
      cases (Worker.threadSocketReceives_cases sound.threadOk hv).1 with
      | results binary rest oldest thread => cases waits
      | getDll binary rest oldest =>
          rcases fetching before ⟨d, waits⟩ with ⟨r, inThread⟩ | ⟨r, inSocket⟩ | later
          · rw [oldest, List.mem_cons] at inThread
            rcases inThread with same | inThread
            · obtain rfl := ThreadMsg.getDll.inj same
              exact Or.inr (Or.inl ⟨r, List.mem_append_right _ List.mem_cons_self⟩)
            · exact Or.inl ⟨r, inThread⟩
          · exact Or.inr (Or.inl ⟨r, List.mem_append_left _ inSocket⟩)
          · exact Or.inr (Or.inr later)

/-! ## Messages taken and delivered -/

variable {m : WorkerMsg (Parcel β)} {rest : List (WorkerMsg (Parcel β))}
  {msg : ToWorkerMsg (Parcel β)}

theorem settled_deliver : (p.deliver msg).Settled ↔ p.Settled := by
  rw [Settled, Settled, linked_deliver, inbound_deliver]

/-- A connected worker takes the message. -/
theorem outbound_deliver (linked : p.linked = true) :
    (p.deliver msg).outbound = p.outbound ++ [msg] := by
  rw [Peer.deliver, if_pos linked]

theorem Fetching.deliver (fetching : Fetching p) : Fetching (p.deliver msg) := by
  intro settled waits
  have settled := settled_deliver.mp settled
  rw [worker_deliver] at waits
  rw [Downloading, worker_deliver, inbound_deliver, outbound_deliver settled.1]
  rcases fetching settled waits with inThread | inSocket | inbound | ⟨r, out⟩
  · exact Or.inl inThread
  · exact Or.inr (Or.inl inSocket)
  · exact Or.inr (Or.inr (Or.inl inbound))
  · exact Or.inr (Or.inr (Or.inr ⟨r, List.mem_append_left _ out⟩))

/-- A message that is no notification is taken: what was settled is settled. -/
theorem settled_pop (next : p.inbound = m :: rest) (notJoin : m ≠ .workerJoin)
    (notLeave : m ≠ .workerLeave) (settled : Settled { p with inbound := rest }) :
    p.Settled := by
  refine ⟨settled.1, ?_, ?_⟩
  · rw [next, List.mem_cons]
    rintro (same | member)
    · exact notJoin same.symm
    · exact settled.2.1 member
  · rw [next, List.mem_cons]
    rintro (same | member)
    · exact notLeave same.symm
    · exact settled.2.2 member

/-- After `WORKER_LEAVE` a connection has to be announced again. -/
theorem not_settled_after_leave {joined : Bool} (notified : Notified joined p)
    (next : p.inbound = .workerLeave :: rest) : ¬ Settled { p with inbound := rest } := by
  intro settled
  rw [Notified, next, exec_cons_some] at notified
  obtain ⟨joined', left, remaining⟩ := notified
  have away : joined' = false := by
    cases joined <;> simp_all [hear]
  subst away
  have linked : p.linked = true := settled.1
  rw [linked] at remaining
  cases rest with
  | nil => cases remaining
  | cons m rest =>
      cases m with
      | workerJoin => exact settled.2.1 List.mem_cons_self
      | _ => cases remaining

end Peer

namespace Cluster

/-! ## Allocated workers -/

variable {archive : Archive (Parcel β) Algo Pop} {base s t : Cluster β}
  {c c' : Controller (Parcel β)} {w : WorkerId} {i : IslandId} {d : Parcel β}

/-- A settled worker that is allocated carries its job. -/
def Holds (s : Cluster β) (c : Controller (Parcel β)) : Prop :=
  ∀ v, v ∈ c.workAllocationMap → (s.peer v).Settled → (s.peer v).burden ≠ []

/-- The message ends the allocation of the worker. -/
def Ends (v : WorkerId) : Incoming (Parcel β) → Prop
  | .fromWorker w .workerLeave => v = w
  | .fromWorker w (.workResults _) => v = w
  | _ => False

theorem Holds.allocated {repo : WorkerInfoRepository} (holds : Holds (during base c) c) :
    Holds (during base (c.allocated w i d repo)) (c.allocated w i d repo) := by
  have sent : during base (c.allocated w i d repo) =
      (during base c).deliver (.toWorker w (.allocateWork d)) := deliverAll_snoc
  rw [sent]
  intro v busy settled
  by_cases same : v = w
  · subst same
    rw [peer_deliver_self] at settled ⊢
    have linked := (Peer.settled_deliver.mp settled).1
    have job : ((ToWorkerMsg.allocateWork d).job : Option (Option (Request β))) =
        some d.served := rfl
    intro empty
    simp only [Peer.burden, Peer.outbound_deliver linked, List.filterMap_append,
      List.filterMap_cons_some job, List.append_eq_nil_iff] at empty
    simp at empty
  · rw [peer_deliver_of_ne same] at settled ⊢
    rcases UnorderedMap.mem_emplace.mp busy with same' | busy
    · exact absurd same' same
    · exact holds v busy settled

theorem Holds.places (h : Controller.Places archive env i d c c')
    (holds : Holds (during base c) c) : Holds (during base c') c' := by
  cases h with
  | queue => exact holds
  | allocate someFree c' h =>
      obtain ⟨w, repo, -, -⟩ := h
      exact holds.allocated

theorem Holds.frees (h : Controller.Frees archive env w c c')
    (holds : Holds (during base c) c) : Holds (during base c') c' := by
  cases h with
  | release => exact holds
  | serve i d waiting c' h =>
      obtain ⟨v, repo, -, -⟩ := h
      have popped : Holds (during base ((c.released w).popped i)) ((c.released w).popped i) :=
        holds
      exact popped.allocated

theorem Holds.handled {msg : Incoming (Parcel β)} (h : Controller.Handled archive env c msg c')
    (quiet : c.sent = [])
    (holds : ∀ v, v ∈ c.workAllocationMap → (base.peer v).Settled →
      (base.peer v).burden ≠ [] ∨ Ends v msg) : Holds (during base c') c' := by
  have before : during base c = base := by rw [during, quiet]; rfl
  cases h with
  | joinKnown =>
      rw [before]
      exact fun v busy settled => (holds v busy settled).resolve_right id
  | join w unknown c' h =>
      refine Holds.frees h ?_
      rw [show during base (c.joined w) = base from before]
      exact fun v busy settled => (holds v busy settled).resolve_right id
  | leaveIdle w idle =>
      rw [show during base (c.left w) = base from before]
      intro v busy settled
      refine (holds v busy settled).resolve_right ?_
      rintro rfl
      exact Finmap.lookup_eq_none.mp idle busy
  | leaveBusy w record busy c' h =>
      refine Holds.places h ?_
      rw [show during base ((c.left w).cleared w) = base from before]
      intro v still settled
      obtain ⟨other, busy⟩ := Finmap.mem_erase.mp still
      exact (holds v busy settled).resolve_right other
  | results w binary wct repo record readable finished busy c' h =>
      refine Holds.frees h ?_
      have told : during base (c.answered w record.islandId binary repo) =
          base.deliver (.toIsland record.islandId binary) := by
        simp [during, Controller.answered, quiet, deliverAll]
      rw [told]
      intro v still settled
      obtain ⟨other, busy⟩ := Finmap.mem_erase.mp still
      exact (holds v busy settled).resolve_right other
  | getDll w binary reply =>
      have told : during base { c with sent := c.sent ++ [.toWorker w (.dllBinary reply)] } =
          base.deliver (.toWorker w (.dllBinary reply)) := by
        simp [during, quiet, deliverAll]
      rw [told]
      intro v busy settled
      by_cases same : v = w
      · subst same
        rw [peer_deliver_self] at settled ⊢
        have carries := (holds v busy (Peer.settled_deliver.mp settled)).resolve_right id
        rcases @Peer.burden_deliver _ (base.peer v) (.dllBinary reply) with kept | more
        · rw [kept]
          exact carries
        · rw [more, ToWorkerMsg.job_dllBinary, Option.toList_none, List.append_nil]
          exact carries
      · rw [peer_deliver_of_ne same] at settled ⊢
        exact (holds v busy settled).resolve_right id
  | request i d c' h =>
      refine Holds.places h ?_
      rw [before]
      exact fun v busy settled => (holds v busy settled).resolve_right id
  | unhandledWorker =>
      rw [before]
      exact fun v busy settled => (holds v busy settled).resolve_right id
  | unhandledIsland =>
      rw [before]
      exact fun v busy settled => (holds v busy settled).resolve_right id

theorem fetching_deliver {v : WorkerId} {m : Sent (Parcel β)} (fetching : (s.peer v).Fetching) :
    ((s.deliver m).peer v).Fetching := by
  rcases @peer_deliver _ s m v with same | ⟨msg, sent⟩
  · rw [same]
    exact fetching
  · rw [sent]
    exact fetching.deliver

theorem fetching_deliverAll {v : WorkerId} {messages : List (Sent (Parcel β))}
    (fetching : (s.peer v).Fetching) : ((s.deliverAll messages).peer v).Fetching := by
  induction messages using List.reverseRecOn with
  | nil => exact fetching
  | append_singleton messages m ih =>
      rw [deliverAll_snoc]
      exact fetching_deliver ih

/-! ## Every step -/

/-- What holds while the server runs, besides `Live`. -/
structure Moving (s : Cluster β) (c : Controller (Parcel β)) : Prop where
  holds : Holds s c
  noIdle : c.NoIdle
  fetching : ∀ v, (s.peer v).Fetching

theorem Moving.start (records : UnorderedMap WorkerId WorkerInfo) :
    Moving (Cluster.start records : Cluster β) (Controller.start records) where
  holds _ busy := absurd busy (Finmap.notMem_empty)
  noIdle := Or.inl rfl
  fetching _ settled := absurd settled.1 Bool.false_ne_true

theorem Moving.step_peer {p : Peer (Parcel β)} {e : PeerEvent β} (moving : Moving s c)
    (sound : (s.peer w).Sound) (h : (s.peer w).step e = some p) :
    Moving { s with peer := Function.update s.peer w p } c where
  noIdle := moving.noIdle
  fetching := (Function.forall_update_iff s.peer fun _ q => q.Fetching).mpr
    ⟨(moving.fetching w).step sound h, fun v _ => moving.fetching v⟩
  holds := by
    refine (Function.forall_update_iff s.peer fun v q =>
      v ∈ c.workAllocationMap → q.Settled → q.burden ≠ []).mpr ⟨?_, fun v _ => moving.holds v⟩
    intro busy settled
    obtain ⟨before, same⟩ := Peer.settled_step sound h settled
    have carries := moving.holds w busy before
    rw [← List.length_pos_iff] at carries ⊢
    rwa [same]

/-- The handler ends and its messages are delivered. -/
theorem Moving.served {msg : Incoming (Parcel β)} {server : Server (Parcel β)}
    (h : Controller.Handled archive env { c with sent := [] } msg c') (noIdle : c.NoIdle)
    (holds : ∀ v, v ∈ c.workAllocationMap → (s.peer v).Settled →
      (s.peer v).burden ≠ [] ∨ Ends v msg)
    (fetching : ∀ v, ((s.served server msg c').peer v).Fetching) :
    Moving (s.served server msg c') c' where
  holds := by
    have base : Holds (during { s with
        session := ⟨server, Session.record s.session.log msg c'⟩ } c') c' :=
      Holds.handled h rfl holds
    exact base
  noIdle := Controller.NoIdle.handled h noIdle
  fetching := fetching

/-- The worker of which the oldest message is taken. -/
def popped (s : Cluster β) (w : WorkerId) (rest : List (WorkerMsg (Parcel β))) : Cluster β :=
  { s with peer := Function.update s.peer w { s.peer w with inbound := rest } }

@[simp] theorem peer_popped_self {rest : List (WorkerMsg (Parcel β))} :
    (s.popped w rest).peer w = { s.peer w with inbound := rest } := Function.update_self ..

theorem peer_popped_of_ne {rest : List (WorkerMsg (Parcel β))} {v : WorkerId} (other : v ≠ w) :
    (s.popped w rest).peer v = s.peer v := Function.update_of_ne other ..

section Popped

variable {m : WorkerMsg (Parcel β)} {rest : List (WorkerMsg (Parcel β))}

theorem holds_popped (live : Live s c) (holds : Holds s c) (next : (s.peer w).inbound = m :: rest) :
    ∀ v, v ∈ c.workAllocationMap → ((s.popped w rest).peer v).Settled →
      ((s.popped w rest).peer v).burden ≠ [] ∨ Ends v (.fromWorker w m) := by
  intro v busy settled
  by_cases same : v = w
  · subst same
    have heard := live.notified v
    rw [Peer.Notified, next, exec_cons_some] at heard
    obtain ⟨joined, hears, -⟩ := heard
    have alternates := (Peer.hear_connected hears).1
    rw [peer_popped_self] at settled ⊢
    have plain : m ≠ .workerJoin → m ≠ .workerLeave → m.job = none →
        ({ s.peer v with inbound := rest } : Peer (Parcel β)).burden ≠ [] := by
      intro notJoin notLeave noJob
      have carries := holds v busy (Peer.settled_pop next notJoin notLeave settled)
      rwa [Peer.burden_pop next, noJob, Option.toList_none, List.nil_append] at carries
    cases m with
    | workerJoin =>
        have connected := (live.partition.cover v).mpr (Or.inr (Or.inl busy))
        exact absurd connected alternates
    | workerLeave => exact Or.inr rfl
    | workResults binary => exact Or.inr rfl
    | getDll binary => exact Or.inl (plain (by simp) (by simp) rfl)
    | unhandled type binary => exact Or.inl (plain (by simp) (by simp) rfl)
  · rw [peer_popped_of_ne same] at settled ⊢
    exact Or.inl (holds v busy settled)

/-- The worker whose message has been handled. -/
theorem fetching_popped {joined : Bool} {server : Server (Parcel β)}
    (h : Controller.Handled archive env { c with sent := [] } (.fromWorker w m) c')
    (notified : Peer.Notified joined (s.peer w)) (fetching : (s.peer w).Fetching)
    (next : (s.peer w).inbound = m :: rest)
    (joinsIdle : m = .workerJoin → (s.peer w).burden = []) :
    (((s.popped w rest).served server (.fromWorker w m) c').peer w).Fetching := by
  have plain : m ≠ .workerJoin → m ≠ .workerLeave → (∀ r, m ≠ .getDll r) →
      (((s.popped w rest).served server (.fromWorker w m) c').peer w).Fetching := by
    intro notJoin notLeave noRequest
    refine fetching_deliverAll ?_
    change ((s.popped w rest).peer w).Fetching
    rw [peer_popped_self]
    intro settled waits
    rcases fetching (Peer.settled_pop next notJoin notLeave settled) waits with
      inThread | inSocket | ⟨r, inbound⟩ | out
    · exact Or.inl inThread
    · exact Or.inr (Or.inl inSocket)
    · rw [next, List.mem_cons] at inbound
      rcases inbound with same | inbound
      · exact absurd same.symm (noRequest r)
      · exact Or.inr (Or.inr (Or.inl ⟨r, inbound⟩))
    · exact Or.inr (Or.inr (Or.inr out))
  intro settled waits
  cases m with
  | workerJoin =>
      -- a worker without a job has no thread that could wait
      obtain ⟨d, waits⟩ := waits
      have same : (((s.popped w rest).served server (.fromWorker w .workerJoin) c').peer
          w).worker = (s.peer w).worker := by
        rw [Cluster.served, worker_deliverAll]
        simp
      rw [same] at waits
      have noJobs := joinsIdle rfl
      simp [Peer.burden, Worker.jobs, waits, WorkerThread.jobs] at noJobs
  | workerLeave =>
      have popped : ((s.popped w rest).peer w).Settled := by
        obtain ⟨inbound, linked⟩ := link_served (s.popped w rest) server
          (.fromWorker w .workerLeave) c' w
        rwa [Peer.Settled, inbound, linked] at settled
      rw [peer_popped_self] at popped
      exact absurd popped (Peer.not_settled_after_leave notified next)
  | workResults binary => exact plain (by simp) (by simp) (by simp) settled waits
  | unhandled type binary => exact plain (by simp) (by simp) (by simp) settled waits
  | getDll binary =>
      cases h with
      | getDll w binary reply =>
          -- the answer goes out over the connection
          have linked : ((s.popped w rest).peer w).linked = true :=
            (link_served (s.popped w rest) server (.fromWorker w (.getDll binary))
              { c with sent := [.toWorker w (.dllBinary reply)] } w).2.symm.trans settled.1
          refine Or.inr (Or.inr (Or.inr ⟨reply, ?_⟩))
          change .dllBinary reply ∈ (((s.popped w rest).deliver
            (.toWorker w (.dllBinary reply))).peer w).outbound
          rw [peer_deliver_self, Peer.outbound_deliver linked]
          exact List.mem_append_right _ List.mem_cons_self

end Popped

end Cluster

namespace Cluster

variable {archive : Archive β Algo Pop} {s t : Cluster β} {c : Controller (Parcel β)}
  {w : WorkerId} {i : IslandId} {records : UnorderedMap WorkerId WorkerInfo}
  {es : List (ClusterEvent β)}

theorem Moving.serveWorker {m : WorkerMsg (Parcel β)} {rest : List (WorkerMsg (Parcel β))}
    (moving : Moving s c) (live : Live s c)
    (running : s.session.server = .running c) (next : (s.peer w).inbound = m :: rest)
    (joinsIdle : m = .workerJoin → (s.peer w).burden = [])
    (h : (s.popped w rest).serve archive env (.fromWorker w m) = some t) :
    t.session.server.Running (Moving t) := by
  have serving : (s.popped w rest).session.server = .running c := running
  rcases serve_cases serving h with ⟨c', handled, rfl⟩ | ⟨f, c', -, rfl⟩
  · rw [session_served]
    refine Moving.served handled moving.noIdle (holds_popped live moving.holds next) fun v => ?_
    by_cases same : v = w
    · subst same
      exact fetching_popped handled (live.notified v) (moving.fetching v) next joinsIdle
    · refine fetching_deliverAll ?_
      change ((s.popped w rest).peer v).Fetching
      rw [peer_popped_of_ne same]
      exact moving.fetching v
  · rw [session_served]
    trivial

theorem Moving.serveIsland {d : Parcel β} {rest : List (Parcel β)} (moving : Moving s c)
    (running : s.session.server = .running c)
    (h : { s with island := Function.update s.island i { s.island i with
      toController := rest } }.serve archive env (.fromIsland i (.allocateWork d)) = some t) :
    t.session.server.Running (Moving t) := by
  have serving : ({ s with island := Function.update s.island i { s.island i with
      toController := rest } } : Cluster β).session.server = .running c := running
  rcases serve_cases serving h with ⟨c', handled, rfl⟩ | ⟨f, c', -, rfl⟩
  · rw [session_served]
    refine Moving.served handled moving.noIdle ?_ fun v => fetching_deliverAll (moving.fetching v)
    exact fun v busy settled => Or.inl (moving.holds v busy settled)
  · rw [session_served]
    trivial

theorem moving_step {e : ClusterEvent β} (inv : Inv s)
    (moving : s.session.server.Running (Moving s)) (joinsIdle : JoinsIdle s e)
    (h : s.step archive e = some t) : t.session.server.Running (Moving t) := by
  cases e with
  | peer w e =>
      obtain ⟨p, hp, rfl⟩ := Option.map_eq_some_iff.mp h
      change s.session.server.Running _
      cases running : s.session.server with
      | stopped => trivial
      | running c =>
          rw [running] at moving
          exact moving.step_peer (inv.sound w) hp
  | island i e =>
      obtain ⟨x, hx, rfl⟩ := Option.map_eq_some_iff.mp h
      change s.session.server.Running _
      cases running : s.session.server with
      | stopped => trivial
      | running c =>
          rw [running] at moving
          exact ⟨moving.holds, moving.noIdle, moving.fetching⟩
  | serveWorker w env =>
      obtain ⟨c, m, rest, running, next, h⟩ := step_serveWorker h
      have live := inv.live
      rw [running] at live moving
      exact Moving.serveWorker moving live running next (joinsIdle.oldest next) h
  | serveIsland i env =>
      obtain ⟨c, d, rest, running, next, h⟩ := step_serveIsland h
      rw [running] at moving
      exact Moving.serveIsland moving running h

/-- The run lemma. -/
theorem moving_run (joinsIdle : Along (Cluster.step archive) JoinsIdle (Cluster.start records) es)
    (run : exec (Cluster.step archive) (Cluster.start records) es = some t) :
    t.session.server.Running (Moving t) := by
  have both : Inv t ∧ t.session.server.Running (Moving t) := by
    refine exec_invariant (I := fun s => Inv s ∧ s.session.server.Running (Moving s)) ?_
      ⟨Inv.start records, Moving.start records⟩ joinsIdle run
    rintro s e t ⟨inv, moving⟩ idle h
    exact ⟨inv.step idle h, moving_step inv moving idle h⟩
  exact both.2

/-! ## At rest -/

/-- What comes from outside: connections made and lost, processes started, and new requests of
    the islands. -/
def FromOutside : ClusterEvent β → Prop
  | .peer _ .connects => True
  | .peer _ (.disconnects _) => True
  | .peer _ .restarts => True
  | .island _ (.requestsWork _) => True
  | _ => False

/-- No party can act. -/
def AtRest (archive : Archive β Algo Pop) (s : Cluster β) : Prop :=
  ∀ e t, s.step archive e = some t → FromOutside e

theorem AtRest.peer_step {e : PeerEvent β} (atRest : AtRest archive s)
    (inside : ¬ FromOutside (.peer w e)) : (s.peer w).step e = none := by
  cases h : (s.peer w).step e with
  | none => rfl
  | some p =>
      have moves : s.step archive (.peer w e) =
          some { s with peer := Function.update s.peer w p } := by
        rw [Cluster.step, h]
        rfl
      exact absurd (atRest _ _ moves) inside

/-- The server takes every message. -/
theorem serve_some (archive : Archive β Algo Pop) (running : s.session.server = .running c)
    (env : Surroundings) (msg : Incoming (Parcel β)) : ∃ t, s.serve archive env msg = some t := by
  simp only [serve, Session.step, running]
  cases (Controller.handle archive.tracked env msg).run { c with sent := [] } with
  | ok u c' => exact ⟨_, rfl⟩
  | error f c' => exact ⟨_, rfl⟩

theorem AtRest.inbound (atRest : AtRest archive s) (running : s.session.server = .running c) :
    (s.peer w).inbound = [] := by
  cases next : (s.peer w).inbound with
  | nil => rfl
  | cons m rest =>
      obtain ⟨t, served⟩ := serve_some archive (s := s.popped w rest) running default
        (.fromWorker w m)
      refine (atRest (.serveWorker w default) t ?_).elim
      rw [Cluster.step, next]
      exact served

theorem AtRest.toController (atRest : AtRest archive s)
    (running : s.session.server = .running c) : (s.island i).toController = [] := by
  cases next : (s.island i).toController with
  | nil => rfl
  | cons d rest =>
      obtain ⟨t, served⟩ := serve_some archive (s := { s with
        island := Function.update s.island i { s.island i with toController := rest } }) running
        default (.fromIsland i (.allocateWork d))
      refine (atRest (.serveIsland i default) t ?_).elim
      rw [Cluster.step, next]
      exact served

/-- A worker that cannot act has nothing to do. -/
theorem AtRest.unburdened (atRest : AtRest archive s) (running : s.session.server = .running c)
    (sound : (s.peer w).Sound) (fetching : (s.peer w).Fetching)
    (linked : (s.peer w).linked = true) : (s.peer w).Settled ∧ (s.peer w).burden = [] := by
  have inbound : (s.peer w).inbound = [] := atRest.inbound running
  have settled : (s.peer w).Settled := by
    rw [Peer.Settled, inbound]
    exact ⟨linked, List.not_mem_nil, List.not_mem_nil⟩
  have outbound : (s.peer w).outbound = [] := by
    have stuck : (s.peer w).step .workerReceives = none := atRest.peer_step id
    cases next : (s.peer w).outbound with
    | nil => rfl
    | cons m rest => simp [Peer.step, sound.alive, next] at stuck
  have workerSocket : (s.peer w).worker.workerSocket = [] := by
    have stuck : (s.peer w).step .transmits = none := atRest.peer_step id
    cases next : (s.peer w).worker.workerSocket with
    | nil => rfl
    | cons m rest => simp [Peer.step, linked, next] at stuck
  have threadSocket : (s.peer w).worker.threadSocket = [] := by
    have stuck : (s.peer w).step .threadSocketReceives = none := atRest.peer_step id
    cases next : (s.peer w).worker.threadSocket with
    | nil => rfl
    | cons m rest => simp [Peer.step, Worker.threadSocketReceives, sound.alive, next] at stuck
  refine ⟨settled, ?_⟩
  have noWork : (s.peer w).worker.workerThread.jobs = [] := by
    cases thread : (s.peer w).worker.workerThread with
    | notJoinable => rfl
    | finished => rfl
    | running d =>
        have stuck : (s.peer w).step (.threadFinishes d.content) = none := atRest.peer_step id
        simp [Peer.step, Worker.threadFinishes, sound.alive, thread] at stuck
    | awaitingDll d =>
        -- the download would be somewhere on its way
        rcases fetching settled ⟨d, thread⟩ with ⟨r, h⟩ | ⟨r, h⟩ | ⟨r, h⟩ | ⟨r, h⟩
        · rw [threadSocket] at h
          cases h
        · rw [workerSocket] at h
          cases h
        · rw [inbound] at h
          cases h
        · rw [outbound] at h
          cases h
  simp [Peer.burden, Worker.jobs, inbound, outbound, workerSocket, threadSocket, noWork]

/-- Nothing is left in the maps of the controller. -/
theorem AtRest.records_eq (atRest : AtRest archive s) (running : s.session.server = .running c)
    (inv : Inv s) (live : Live s c) (moving : Moving s c) (linked : (s.peer w).linked = true) :
    c.records = 0 := by
  have heard : ∀ v, (s.peer v).linked = decide (v ∈ c.workerInfo.connectedWorkers) := by
    intro v
    have notified := live.notified v
    rw [Peer.Notified, atRest.inbound running, exec_nil] at notified
    exact (Option.some.inj notified).symm
  have noneBusy : ∀ v, v ∉ c.workAllocationMap := by
    intro v busy
    have connected := (live.partition.cover v).mpr (Or.inr (Or.inl busy))
    obtain ⟨settled, empty⟩ := atRest.unburdened running (inv.sound v) (moving.fetching v)
      ((heard v).trans (decide_eq_true connected))
    exact moving.holds v busy settled empty
  have noneAllocated : c.workAllocationMap = ∅ := by
    apply Finmap.ext_lookup
    intro v
    rw [Finmap.lookup_empty, Finmap.lookup_eq_none]
    exact noneBusy v
  have free : c.freeWorkersPool ≠ ∅ := by
    have connected : w ∈ c.workerInfo.connectedWorkers :=
      of_decide_eq_true ((heard w).symm.trans linked)
    rcases (live.partition.cover w).mp connected with free | busy | limbo
    · exact Finset.ne_empty_of_mem free
    · exact absurd busy (noneBusy w)
    · exact absurd limbo (Finset.notMem_empty w)
  rw [Controller.records, noneAllocated, moving.noIdle.resolve_left free]
  rfl

end Cluster

open Cluster

/-- If no worker joins with a job left from before, all payloads deserialize, and neither a
    save of the settings nor the lookup of a library throws, then as long as an island waits
    for its results and a worker is connected, some party can act: the controller, a worker,
    its thread or an island. -/
theorem some_party_can_act (archive : Archive β Algo Pop)
    (records : UnorderedMap WorkerId WorkerInfo) (es : List (ClusterEvent β)) (t : Cluster β)
    (joinsIdle : Along (Cluster.step archive) JoinsIdle (Cluster.start records) es)
    (readable : Along (Cluster.step archive) (Readable archive) (Cluster.start records) es)
    (undisturbed : Along (Cluster.step archive) (Undisturbed archive) (Cluster.start records) es)
    (run : exec (Cluster.step archive) (Cluster.start records) es = some t)
    (i : IslandId) (waits : (t.island i).awaiting ≠ none) (w : WorkerId)
    (linked : (t.peer w).linked = true) :
    ∃ e t', Cluster.step archive t e = some t' ∧ ¬ FromOutside e := by
  by_contra noneCan
  have atRest : AtRest archive t := by
    intro e t' moves
    by_contra inside
    exact noneCan ⟨e, t', moves, inside⟩
  obtain ⟨inv, c, running, -⟩ := serving_run joinsIdle readable undisturbed run
  have live := inv.live
  have moving := moving_run joinsIdle run
  rw [running] at live moving
  have none_ := atRest.records_eq running inv live moving linked
  have phase := live.phase i
  have toController : (t.island i).toController = [] := atRest.toController running
  have closed : t.session.log.unanswered.lookup i = none := by
    cases opened : t.session.log.unanswered.lookup i with
    | none => rfl
    | some d =>
        have member := RequestReply.mem_ledger live.ledger.balance opened
        rw [none_] at member
        cases member
  have stuck : (t.island i).step i .receivesResults = none := by
    cases h : (t.island i).step i .receivesResults with
    | none => rfl
    | some x =>
        have moves : t.step archive (.island i .receivesResults) =
            some { t with island := Function.update t.island i x } := by
          rw [Cluster.step, h]
          rfl
        exact (atRest _ _ moves).elim
  rw [closed] at phase
  generalize t.island i = x at phase toController stuck waits
  cases phase with
  | quiet n => exact waits rfl
  | asking n r own => cases toController
  | answered n r own binary computed => cases stuck

/-- The worker has lost its connection while it waited for a library, and is restarted. -/
def libraryRun : List PlainEvent :=
  [.peer "worker_a" .connects, .serveWorker "worker_a" default,
    .island "island_1" (.requestsWork (plainWork 100)), .serveIsland "island_1" default,
    .peer "worker_a" .workerReceives,
    .peer "worker_a" (.threadRequestsDll (.request ⟨"sphere"⟩)),
    .peer "worker_a" .threadSocketReceives, .peer "worker_a" (.disconnects 0),
    .serveWorker "worker_a" default, .peer "worker_a" .restarts, .peer "worker_a" .connects,
    .serveWorker "worker_a" default, .peer "worker_a" .workerReceives,
    .peer "worker_a" (.threadRequestsDll (.request ⟨"sphere"⟩))]

theorem some_party_can_act_library :
    ∃ t, exec (Cluster.step Archive.plain) (Cluster.start ∅) libraryRun = some t ∧
      ∃ e t', Cluster.step Archive.plain t e = some t' ∧ ¬ FromOutside e := by
  refine ⟨_, rfl, ?_⟩
  exact some_party_can_act Archive.plain ∅ libraryRun _ (by decide) (by decide) (by decide) rfl
    "island_1" (by decide) "worker_a" (by decide)

end Metasolver
