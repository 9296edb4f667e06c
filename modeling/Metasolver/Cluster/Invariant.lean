import Metasolver.Cluster.Delivery

/-!
# The invariant of the cluster

`Inv` holds in every state of a run in which no worker joins while it carries an
earlier job (`JoinsIdle`).  As long as the server runs, the controller's maps are in
order, agree with what the workers carry and with the connections, and hold exactly
the requests of the islands that wait for an answer (`Live`).  After a fault of a
handler the server is gone; what remains is what the workers and the islands
guarantee by themselves.

Each kind of step has its lemma: `step_peer`, `step_island`, `serveWorker` and
`serveIsland`, put together in `Inv.step`.
-/

namespace Metasolver

open Exec

variable {β Algo Pop : Type} {archive : Archive β Algo Pop} {env : Surroundings}

/-! ## Islands -/

namespace Island

variable {i : IslandId} {x x' : Island β} {e : IslandEvent β}

/-- Where the request of an island is, when the controller holds `held` from it. -/
inductive Phase (i : IslandId) : Island β → Option (Parcel β) → Prop
  | quiet (n : Nat) : Phase i ⟨n, none, [], []⟩ none
  | asking (n : Nat) (r : Request β) (own : r.island = i) :
      Phase i ⟨n, some r, [r.parcel], []⟩ none
  | waiting (n : Nat) (r : Request β) (own : r.island = i) :
      Phase i ⟨n, some r, [], []⟩ (some r.parcel)
  | answered (n : Nat) (r : Request β) (own : r.island = i) (binary : Parcel β)
      (computed : binary.origin = some r) : Phase i ⟨n, some r, [], [binary]⟩ none

theorem Phase.step {held : Option (Parcel β)} (phase : Phase i x held)
    (h : x.step i e = some x') : Phase i x' held := by
  cases e with
  | requestsWork workData =>
      cases phase with
      | quiet n =>
          simp only [Island.step, Option.some.injEq] at h
          subst h
          exact .asking (n + 1) ⟨i, n, workData⟩ rfl
      | _ => cases h
  | receivesResults =>
      cases phase with
      | answered n r own binary computed =>
          simp only [Island.step, Option.some.injEq] at h
          subst h
          exact .quiet n
      | _ => cases h

/-- Results computed from the request that is held answer it. -/
theorem Phase.answer {d binary : Parcel β} (phase : Phase i x (some d))
    (computed : binary.origin = d.served) :
    Phase i { x with inbox := x.inbox ++ [binary] } none := by
  cases phase with
  | waiting n r own => exact .answered n r own binary computed

/-- The results in the inbox answer the request the island waits for. -/
structure Attributed (i : IslandId) (x : Island β) : Prop where
  few : x.inbox.length ≤ 1
  own : ∀ binary ∈ x.inbox, ∃ r, x.awaiting = some r ∧ r.island = i ∧ binary.origin = some r

theorem Phase.attributed {held : Option (Parcel β)} (phase : Phase i x held) :
    Attributed i x := by
  cases phase with
  | answered n r own binary computed =>
      refine ⟨Nat.le_refl 1, fun b member => ?_⟩
      obtain rfl := List.mem_singleton.mp member
      exact ⟨r, rfl, own, computed⟩
  | _ =>
      refine ⟨Nat.zero_le 1, fun b member => ?_⟩
      cases member

theorem Attributed.step (attributed : Attributed i x) (h : x.step i e = some x') :
    Attributed i x' := by
  cases e with
  | requestsWork workData =>
      simp only [Island.step] at h
      split at h
      case h_1 => cases h
      case h_2 nothing =>
        simp only [Option.some.injEq] at h
        subst h
        refine ⟨attributed.few, fun b member => ?_⟩
        obtain ⟨r, awaiting, -⟩ := attributed.own b member
        rw [nothing] at awaiting
        cases awaiting
  | receivesResults =>
      simp only [Island.step] at h
      split at h
      case h_1 r b rest awaiting inbox =>
        simp only [Option.some.injEq] at h
        subst h
        have few := attributed.few
        rw [inbox, List.length_cons] at few
        have none_ : rest = [] := List.length_eq_zero_iff.mp (by omega)
        subst none_
        refine ⟨Nat.zero_le 1, fun b member => ?_⟩
        cases member
      case h_2 => cases h

end Island

namespace Cluster

variable {s t : Cluster β} {c c' : Controller (Parcel β)} {w : WorkerId} {i : IslandId}

/-- What holds while the server runs. -/
structure Live (s : Cluster β) (c : Controller (Parcel β)) : Prop where
  partition : c.Partition
  tracks : Controller.Tracks s.session.log c
  ledger : Controller.Ledger s.session.log c
  agrees : Agrees ∅ s c
  notified : ∀ w, Peer.Notified (decide (w ∈ c.workerInfo.connectedWorkers)) (s.peer w)
  phase : ∀ i, (s.island i).Phase i (s.session.log.unanswered.lookup i)

structure Inv (s : Cluster β) : Prop where
  sound : ∀ w, (s.peer w).Sound
  attributed : ∀ i, (s.island i).Attributed i
  live : s.session.server.Running (Live s)

theorem Inv.start (records : UnorderedMap WorkerId WorkerInfo) :
    Inv (Cluster.start records : Cluster β) where
  sound w := Peer.sound_start
  attributed i := (Island.Phase.quiet 0).attributed
  live := {
    partition := .start records
    tracks := .start records
    ledger := .start records
    agrees := .start records
    notified := fun w => by simp [Controller.start, Cluster.start, Peer.Notified]
    phase := fun i => .quiet 0 }

/-! ## Steps of the workers and of the islands -/

theorem Inv.step_peer {p : Peer (Parcel β)} {e : PeerEvent β} (inv : Inv s)
    (h : (s.peer w).step e = some p) : Inv { s with peer := Function.update s.peer w p } := by
  obtain ⟨sound, fewer⟩ := (inv.sound w).step h
  have lighter : ∀ v, (Function.update s.peer w p v).Sound ∧
      (Function.update s.peer w p v).burden.Sublist (s.peer v).burden :=
    (Function.forall_update_iff s.peer fun v q => q.Sound ∧ q.burden.Sublist _).mpr
      ⟨⟨sound, fewer⟩, fun v _ => ⟨inv.sound v, List.Sublist.refl _⟩⟩
  refine ⟨fun v => (lighter v).1, inv.attributed, ?_⟩
  have live := inv.live
  cases running : s.session.server with
  | stopped => trivial
  | running c =>
      rw [running] at live
      refine ⟨live.partition, live.tracks, live.ledger, live.agrees.lighter lighter, ?_, live.phase⟩
      exact (Function.forall_update_iff s.peer _).mpr
        ⟨(live.notified w).step h, fun v _ => live.notified v⟩

theorem Inv.step_island {x : Island β} {e : IslandEvent β} (inv : Inv s)
    (h : (s.island i).step i e = some x) :
    Inv { s with island := Function.update s.island i x } := by
  refine ⟨inv.sound, ?_, ?_⟩
  · exact (Function.forall_update_iff s.island _).mpr
      ⟨(inv.attributed i).step h, fun j _ => inv.attributed j⟩
  · have live := inv.live
    cases running : s.session.server with
    | stopped => trivial
    | running c =>
        rw [running] at live
        refine ⟨live.partition, live.tracks, live.ledger, live.agrees.congr rfl rfl rfl,
          live.notified, ?_⟩
        exact (Function.forall_update_iff s.island fun j x =>
          x.Phase j (s.session.log.unanswered.lookup j)).mpr
          ⟨(live.phase i).step h, fun j _ => live.phase j⟩

/-! ## Messages handled by the controller -/

/-- The requests that are unanswered after the message. -/
def told (log : Log (Parcel β)) (c : Controller (Parcel β)) (msg : Incoming (Parcel β)) :
    UnorderedMap IslandId (Parcel β) :=
  RequestReply.pending (log.conversation ++ (Log.conversationEvent (.received msg)).toList ++
    (c.answer msg).toList.map fun p => .reply p.1)

/-- The message has been taken from its queue and the handler can begin. -/
structure Ready (s : Cluster β) (c : Controller (Parcel β)) (msg : Incoming (Parcel β)) :
    Prop where
  partition : c.Partition
  tracks : Controller.Tracks s.session.log c
  ledger : Controller.Ledger s.session.log c
  agrees : Agrees ∅ s c
  relieved : Agrees.Relieved s msg
  alternates : Controller.Alternates c.workerInfo.connectedWorkers msg
  expected : c.Expected msg
  solicited : Solicited s.session.log.unanswered msg
  notified : ∀ w, Peer.Notified (decide
    (w ∈ Log.connectedStep c.workerInfo.connectedWorkers (.received msg))) (s.peer w)
  attributed : ∀ i, (s.island i).Attributed i
  phase : ∀ i, ((c.answer msg).toList.foldl addResults s.island i).Phase i
    ((told s.session.log c msg).lookup i)

/-- The session after a message and the deliveries that follow. -/
def served (s : Cluster β) (server : Server (Parcel β)) (msg : Incoming (Parcel β))
    (c' : Controller (Parcel β)) : Cluster β :=
  { s with session := ⟨server, Session.record s.session.log msg c'⟩ }.deliverAll c'.sent

@[simp] theorem session_served {server : Server (Parcel β)} {msg : Incoming (Parcel β)} :
    (s.served server msg c').session = ⟨server, Session.record s.session.log msg c'⟩ :=
  session_deliverAll

theorem link_served (s : Cluster β) (server : Server (Parcel β)) (msg : Incoming (Parcel β))
    (c' : Controller (Parcel β)) (w : WorkerId) :
    ((s.served server msg c').peer w).inbound = (s.peer w).inbound ∧
      ((s.served server msg c').peer w).linked = (s.peer w).linked :=
  link_deliverAll

theorem serve_cases {msg : Incoming (Parcel β)} (running : s.session.server = .running c)
    (h : s.serve archive env msg = some t) :
    (∃ c', Controller.Handled archive.tracked env { c with sent := [] } msg c' ∧
      t = s.served (.running c') msg c') ∨
    ∃ f c', (Controller.handle archive.tracked env msg).run { c with sent := [] } =
        .error f c' ∧ t = s.served (.stopped f c') msg c' := by
  simp only [serve, Session.step, running, Option.map_eq_some_iff] at h
  obtain ⟨session, handled, rfl⟩ := h
  split at handled
  case h_1 u c' run =>
    simp only [Option.some.injEq] at handled
    subst handled
    exact Or.inl ⟨c', Controller.handle_ok run, rfl⟩
  case h_2 f c' run =>
    simp only [Option.some.injEq] at handled
    subst handled
    exact Or.inr ⟨f, c', run, rfl⟩

/-- A handler that ends normally. -/
theorem Ready.handled {msg : Incoming (Parcel β)} (ready : Ready s c msg)
    (h : Controller.Handled archive.tracked env { c with sent := [] } msg c') :
    Inv (s.served (.running c') msg c') := by
  have partition := ready.partition.quiet
  have agrees : Agrees ∅ (s.served (.running c') msg c') c' := by
    have quiet : Agrees ∅ { s with
        session := ⟨.running c', Session.record s.session.log msg c'⟩ } { c with sent := [] } :=
      ready.agrees.congr rfl rfl rfl
    exact quiet.handled h rfl ready.alternates partition ready.relieved
  have tracks := ready.tracks.quiet.handled h rfl ready.alternates partition
  have ledger := ready.ledger.quiet.handled h rfl ready.alternates partition ready.solicited
  have connected : c'.workerInfo.connectedWorkers =
      Log.connectedStep c.workerInfo.connectedWorkers (.received msg) := by
    rw [← tracks.connected, Session.connected_record, ready.tracks.connected]
  have forwarded : Controller.forwarded c'.sent = (c.answer msg).toList := h.forwarded_eq rfl
  have unanswered : (Session.record s.session.log msg c').unanswered =
      told s.session.log c msg := by
    rw [Log.unanswered, Session.conversation_record, forwarded, told]
  have phase : ∀ i, ((s.served (.running c') msg c').island i).Phase i
      ((Session.record s.session.log msg c').unanswered.lookup i) := by
    intro i
    rw [served, island_deliverAll, forwarded, unanswered]
    exact ready.phase i
  refine ⟨agrees.sound, fun i => (phase i).attributed, ?_⟩
  rw [session_served]
  refine ⟨partition.handled h ready.alternates, ?_, ?_, agrees, ?_, ?_⟩
  · rw [session_served]
    exact tracks
  · rw [session_served]
    exact ledger
  · intro w
    obtain ⟨inbound, linked⟩ := link_served s (.running c') msg c' w
    rw [Peer.Notified, inbound, linked, connected]
    exact ready.notified w
  · intro i
    rw [session_served]
    exact phase i

/-- A handler that faults may have passed on the results it was given. -/
theorem Ready.faulted {msg : Incoming (Parcel β)} {f : Fault} (ready : Ready s c msg)
    (h : (Controller.handle archive.tracked env msg).run { c with sent := [] } = .error f c') :
    Inv (s.served (.stopped f c') msg c') := by
  obtain ⟨-, quiet | ⟨w, binary, record, rfl, busy, sent⟩⟩ := Controller.handle_error h
  · have silent : c'.sent = [] := quiet
    have same : s.served (.stopped f c') msg c' =
        { s with session := ⟨.stopped f c', Session.record s.session.log msg c'⟩ } := by
      rw [served, silent]
      rfl
    rw [same]
    exact ⟨ready.agrees.sound, ready.attributed, trivial⟩
  · have told : c'.sent = [.toIsland record.islandId binary] := sent
    have answer : c.answer (.fromWorker w (.workResults binary)) =
        some (record.islandId, binary) := by
      have found : c.workAllocationMap.lookup w = some record := busy
      simp [Controller.answer, found]
    refine ⟨?_, ?_, ?_⟩
    · intro v
      rw [served, told]
      exact ready.agrees.sound v
    · intro i
      have phase := ready.phase i
      rw [answer] at phase
      rw [served, island_deliverAll, told]
      exact phase.attributed
    · rw [session_served]
      trivial

theorem JoinsIdle.oldest {m : WorkerMsg (Parcel β)} {rest : List (WorkerMsg (Parcel β))}
    (joinsIdle : JoinsIdle s (.serveWorker w env)) (next : (s.peer w).inbound = m :: rest) :
    m = .workerJoin → (s.peer w).burden = [] := by
  rintro rfl
  apply joinsIdle
  rw [next]
  rfl

/-- A connected worker whose results arrive holds an allocation: a free one carries no
    results. -/
theorem Live.expected {binary : Parcel β} (live : Live s c)
    (connected : w ∈ c.workerInfo.connectedWorkers) (carried : binary.origin ∈ (s.peer w).burden) :
    w ∈ c.workAllocationMap := by
  rcases (live.partition.cover w).mp connected with free | busy | limbo
  · rw [live.agrees.idle w (Or.inl free)] at carried
    cases carried
  · exact busy
  · simp at limbo

/-- What the message of a worker means for the islands.  Results answer the request
    the worker is recorded for, and any other message changes nothing. -/
theorem Live.phase_worker {m : WorkerMsg (Parcel β)} (live : Live s c)
    (carried : ∀ job ∈ m.job, job ∈ (s.peer w).burden) (i : IslandId) :
    ((c.answer (.fromWorker w m)).toList.foldl addResults s.island i).Phase i
      ((told s.session.log c (.fromWorker w m)).lookup i) := by
  cases answer : c.answer (.fromWorker w m) with
  | none =>
      have same : told s.session.log c (.fromWorker w m) = s.session.log.unanswered := by
        simp [told, answer, Log.conversationEvent, Log.unanswered]
      rw [same]
      exact live.phase i
  | some p =>
      cases m with
      | workResults binary =>
          obtain ⟨record, busy, rfl⟩ := Option.map_eq_some_iff.mp answer
          have answered : told s.session.log c (.fromWorker w (.workResults binary)) =
              s.session.log.unanswered.erase record.islandId := by
            rw [told, answer]
            simp [Log.conversationEvent, Log.unanswered, RequestReply.pending_snoc,
              RequestReply.advance]
          have opened : s.session.log.unanswered.lookup record.islandId = some record.workData :=
            RequestReply.lookup_of_ledger live.ledger.balance
              (Controller.mem_records_of_busy busy)
          have computed : binary.origin = record.workData.served :=
            live.agrees.busy w record busy _ (carried _ rfl)
          rw [answered]
          change (addResults s.island (record.islandId, binary) i).Phase i _
          by_cases same : i = record.islandId
          · subst same
            rw [Finmap.lookup_erase, addResults, Function.update_self]
            have phase := live.phase record.islandId
            rw [opened] at phase
            exact phase.answer computed
          · rw [Finmap.lookup_erase_ne same, addResults, Function.update_of_ne same]
            exact live.phase i
      | _ => cases answer

/-- The controller takes the oldest message of a worker. -/
theorem Inv.ready_worker {m : WorkerMsg (Parcel β)} {rest : List (WorkerMsg (Parcel β))}
    (inv : Inv s) (running : s.session.server = .running c)
    (next : (s.peer w).inbound = m :: rest)
    (joinsIdle : m = .workerJoin → (s.peer w).burden = []) :
    Ready { s with peer := Function.update s.peer w { s.peer w with inbound := rest } } c
      (.fromWorker w m) := by
  have live := inv.live
  rw [running] at live
  obtain ⟨sound, fewer⟩ := (inv.sound w).pop next
  have whole := Peer.burden_pop next
  have carried : ∀ job ∈ m.job, job ∈ (s.peer w).burden := by
    intro job its
    rw [whole, Option.mem_def.mp its]
    exact List.mem_cons_self
  have heard := live.notified w
  rw [Peer.Notified, next, exec_cons_some] at heard
  obtain ⟨joined, hears, remaining⟩ := heard
  obtain ⟨alternates, connected, now⟩ := Peer.hear_connected hears
  constructor
  case partition => exact live.partition
  case tracks => exact live.tracks
  case ledger => exact live.ledger
  case alternates => exact alternates
  case expected =>
    cases m with
    | workResults binary => exact live.expected (connected (by simp)) (carried _ rfl)
    | _ => trivial
  case solicited => trivial
  case attributed => exact inv.attributed
  case phase => exact live.phase_worker carried
  case agrees =>
    apply live.agrees.lighter
    exact (Function.forall_update_iff s.peer fun v q => q.Sound ∧ q.burden.Sublist _).mpr
      ⟨⟨sound, fewer⟩, fun v _ => ⟨inv.sound v, List.Sublist.refl _⟩⟩
  case relieved =>
    cases m with
    | workerJoin =>
        change (Function.update s.peer w _ w).burden = []
        rw [Function.update_self]
        exact List.sublist_nil.mp (joinsIdle rfl ▸ fewer)
    | workResults binary =>
        -- the results were the one job that the worker carried
        have oneJob := (inv.sound w).oneJob
        change (Function.update s.peer w _ w).burden = []
        rw [Function.update_self]
        rw [whole, List.length_append] at oneJob
        have job : (WorkerMsg.workResults binary).job.toList.length = 1 := rfl
        exact List.length_eq_zero_iff.mp (by omega)
    | _ => trivial
  case notified =>
    refine (Function.forall_update_iff s.peer fun v q => Peer.Notified (decide (v ∈
      Log.connectedStep c.workerInfo.connectedWorkers (.received (.fromWorker w m)))) q).mpr
      ⟨?_, ?_⟩
    · rw [← now]
      exact remaining
    · intro v other
      rw [decide_eq_decide.mpr (Log.mem_connectedStep_of_ne other)]
      exact live.notified v

/-- The controller takes the request of an island. -/
theorem Inv.ready_island {d : Parcel β} {rest : List (Parcel β)} (inv : Inv s)
    (running : s.session.server = .running c) (next : (s.island i).toController = d :: rest) :
    Ready { s with island := Function.update s.island i { s.island i with toController := rest } } c
      (.fromIsland i (.allocateWork d)) := by
  have live := inv.live
  rw [running] at live
  -- only an island that is asking has a message on its way
  obtain ⟨r, own, rfl, rfl, closed, taken⟩ : ∃ r : Request β, r.island = i ∧ d = r.parcel ∧
      rest = [] ∧ s.session.log.unanswered.lookup i = none ∧
      Island.Phase i { s.island i with toController := [] } (some r.parcel) := by
    have phase := live.phase i
    generalize s.island i = x at phase next
    generalize s.session.log.unanswered.lookup i = held at phase
    cases phase with
    | asking n r own =>
        obtain ⟨rfl, rfl⟩ := List.cons.inj next
        exact ⟨r, own, rfl, rfl, rfl, .waiting n r own⟩
    | _ => cases next
  have asked : told s.session.log c (.fromIsland i (.allocateWork r.parcel)) =
      s.session.log.unanswered.insert i r.parcel := by
    simp [told, Controller.answer, Log.conversationEvent, Log.unanswered,
      RequestReply.pending_snoc, RequestReply.advance]
  constructor
  case partition => exact live.partition
  case tracks => exact live.tracks
  case ledger => exact live.ledger
  case alternates => trivial
  case expected => trivial
  case solicited => exact Finmap.lookup_eq_none.mp closed
  case agrees => exact live.agrees.congr rfl rfl rfl
  case relieved => trivial
  case notified => exact live.notified
  case attributed =>
    exact (Function.forall_update_iff s.island _).mpr
      ⟨taken.attributed, fun j _ => inv.attributed j⟩
  case phase =>
    change ∀ j, (Function.update s.island i _ j).Phase j ((told s.session.log c _).lookup j)
    rw [asked]
    refine (Function.forall_update_iff s.island fun j x =>
      x.Phase j ((s.session.log.unanswered.insert i r.parcel).lookup j)).mpr ⟨?_, ?_⟩
    · rw [Finmap.lookup_insert]
      exact taken
    · intro j other
      rw [Finmap.lookup_insert_of_ne _ other]
      exact live.phase j

theorem Ready.serve {msg : Incoming (Parcel β)} (ready : Ready s c msg)
    (running : s.session.server = .running c) (h : s.serve archive env msg = some t) : Inv t := by
  rcases serve_cases running h with ⟨c', handled, rfl⟩ | ⟨f, c', faulted, rfl⟩
  · exact ready.handled handled
  · exact ready.faulted faulted

theorem serve_running {msg : Incoming (Parcel β)} (h : s.serve archive env msg = some t) :
    ∃ c, s.session.server = .running c := by
  cases server : s.session.server with
  | running c => exact ⟨c, rfl⟩
  | stopped f c => simp [serve, Session.step, server] at h

/-- The server runs and takes the oldest message of the worker. -/
theorem step_serveWorker (h : s.step archive (.serveWorker w env) = some t) :
    ∃ c m rest, s.session.server = .running c ∧ (s.peer w).inbound = m :: rest ∧
      { s with peer := Function.update s.peer w { s.peer w with inbound := rest } }.serve
        archive env (.fromWorker w m) = some t := by
  simp only [Cluster.step] at h
  cases next : (s.peer w).inbound with
  | nil => simp [next] at h
  | cons m rest =>
      simp only [next] at h
      obtain ⟨c, running⟩ := serve_running h
      exact ⟨c, m, rest, running, rfl, h⟩

/-- The server runs and takes the request of the island. -/
theorem step_serveIsland (h : s.step archive (.serveIsland i env) = some t) :
    ∃ c d rest, s.session.server = .running c ∧ (s.island i).toController = d :: rest ∧
      { s with island := Function.update s.island i { s.island i with toController := rest } }.serve
        archive env (.fromIsland i (.allocateWork d)) = some t := by
  simp only [Cluster.step] at h
  cases next : (s.island i).toController with
  | nil => simp [next] at h
  | cons d rest =>
      simp only [next] at h
      obtain ⟨c, running⟩ := serve_running h
      exact ⟨c, d, rest, running, rfl, h⟩

/-- Every step keeps the invariant, unless a worker joins that carries a job. -/
theorem Inv.step {e : ClusterEvent β} (inv : Inv s) (joinsIdle : JoinsIdle s e)
    (h : s.step archive e = some t) : Inv t := by
  cases e with
  | peer w e =>
      obtain ⟨p, hp, rfl⟩ := Option.map_eq_some_iff.mp h
      exact inv.step_peer hp
  | island i e =>
      obtain ⟨x, hx, rfl⟩ := Option.map_eq_some_iff.mp h
      exact inv.step_island hx
  | serveWorker w env =>
      obtain ⟨c, m, rest, running, next, h⟩ := step_serveWorker h
      exact (inv.ready_worker running next (joinsIdle.oldest next)).serve running h
  | serveIsland i env =>
      obtain ⟨c, d, rest, running, next, h⟩ := step_serveIsland h
      exact (inv.ready_island running next).serve running h

theorem inv_run {records : UnorderedMap WorkerId WorkerInfo} {es : List (ClusterEvent β)}
    (joinsIdle : Along (Cluster.step archive) JoinsIdle (Cluster.start records) es)
    (run : exec (Cluster.step archive) (Cluster.start records) es = some t) : Inv t :=
  exec_invariant (fun _ _ _ inv idle h => inv.step idle h) (Inv.start records) joinsIdle run

end Cluster

end Metasolver
