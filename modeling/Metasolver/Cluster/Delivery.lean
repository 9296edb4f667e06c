import Metasolver.Cluster.Burden

/-!
# Deliveries of the controller

What the messages of one handler change in the cluster: work for a worker adds a
job to it, results for an island enter its inbox, and nothing else happens
(`peer_deliver`, `island_deliverAll`).

`Agrees` compares the maps of the controller with what the workers carry: a free
worker carries nothing and a busy worker nothing but the job it is recorded for.
`Agrees.handled` keeps this through a handler.  The worker that joins or returns
results must carry nothing at that moment, since the handler makes it free.
-/

namespace Metasolver

open Exec

variable {β Algo Pop : Type} {archive : Archive (Parcel β) Algo Pop} {env : Surroundings}

namespace Peer

variable {p : Peer (Parcel β)} {msg : ToWorkerMsg (Parcel β)}

@[simp] theorem inbound_deliver : (p.deliver msg).inbound = p.inbound := by
  unfold deliver
  split <;> rfl

@[simp] theorem linked_deliver : (p.deliver msg).linked = p.linked := by
  unfold deliver
  split
  case isTrue up => exact up.symm ▸ rfl
  case isFalse => rfl

@[simp] theorem worker_deliver : (p.deliver msg).worker = p.worker := by
  unfold deliver
  split <;> rfl

/-- A delivery adds at most the job of the message. -/
theorem burden_deliver :
    (p.deliver msg).burden = p.burden ∨ (p.deliver msg).burden = p.burden ++ msg.job.toList := by
  unfold deliver
  split
  case isTrue up =>
    refine Or.inr ?_
    simp only [burden, List.filterMap_append, List.append_assoc]
    cases msg <;> rfl
  case isFalse => exact Or.inl rfl

/-- A worker without a job takes one. -/
theorem Sound.deliver (sound : Sound p) (free : p.burden = []) : Sound (p.deliver msg) where
  oneJob := by
    rcases @burden_deliver _ p msg with same | more
    · rw [same]
      exact sound.oneJob
    · rw [more, free, List.nil_append]
      cases msg.job <;> simp
  threadOk := by rw [worker_deliver]; exact sound.threadOk
  alive := by rw [worker_deliver]; exact sound.alive

theorem Sound.deliver_dllBinary (sound : Sound p) (binary : Parcel β) :
    Sound (p.deliver (.dllBinary binary)) ∧
      (p.deliver (.dllBinary binary)).burden.Sublist p.burden := by
  refine sound.lighter ?_ ?_ ?_
  · rcases @burden_deliver _ p (.dllBinary binary) with same | more
    · rw [same]
    · rw [more, ToWorkerMsg.job_dllBinary, Option.toList_none, List.append_nil]
  · rw [worker_deliver]
    exact sound.threadOk
  · rw [worker_deliver]
    exact sound.alive

end Peer

namespace Cluster

variable {s s' base : Cluster β} {messages : List (Sent (Parcel β))} {m : Sent (Parcel β)}
  {w : WorkerId} {i : IslandId}

theorem deliverAll_snoc : s.deliverAll (messages ++ [m]) = (s.deliverAll messages).deliver m := by
  simp [deliverAll]

@[simp] theorem peer_deliver_self {msg : ToWorkerMsg (Parcel β)} :
    (s.deliver (.toWorker w msg)).peer w = (s.peer w).deliver msg := by
  simp [deliver]

theorem peer_deliver_of_ne {v : WorkerId} {msg : ToWorkerMsg (Parcel β)} (other : v ≠ w) :
    (s.deliver (.toWorker w msg)).peer v = s.peer v := by
  simp [deliver, other]

/-- A worker is sent the messages for it and sees nothing of the others. -/
theorem peer_deliver : (s.deliver m).peer w = s.peer w ∨
    ∃ msg, (s.deliver m).peer w = (s.peer w).deliver msg := by
  cases m with
  | toWorker v msg =>
      by_cases same : w = v
      · subst same
        exact Or.inr ⟨msg, peer_deliver_self⟩
      · exact Or.inl (peer_deliver_of_ne same)
  | toIsland j binary => exact Or.inl rfl

@[simp] theorem session_deliverAll : (s.deliverAll messages).session = s.session := by
  induction messages using List.reverseRecOn with
  | nil => rfl
  | append_singleton messages m ih =>
      rw [deliverAll_snoc, ← ih]
      cases m <;> rfl

/-- Nothing the controller sends is a notification or changes a connection. -/
theorem link_deliverAll : ((s.deliverAll messages).peer w).inbound = (s.peer w).inbound ∧
    ((s.deliverAll messages).peer w).linked = (s.peer w).linked := by
  induction messages using List.reverseRecOn with
  | nil => exact ⟨rfl, rfl⟩
  | append_singleton messages m ih =>
      rw [deliverAll_snoc]
      rcases @peer_deliver _ (s.deliverAll messages) m w with same | ⟨msg, sent⟩
      · rw [same]
        exact ih
      · rw [sent, Peer.inbound_deliver, Peer.linked_deliver]
        exact ih

/-- What the controller sends does not reach the process of a worker at once. -/
theorem worker_deliverAll : ((s.deliverAll messages).peer w).worker = (s.peer w).worker := by
  induction messages using List.reverseRecOn with
  | nil => rfl
  | append_singleton messages m ih =>
      rw [deliverAll_snoc]
      rcases @peer_deliver _ (s.deliverAll messages) m w with same | ⟨msg, sent⟩
      · rw [same, ih]
      · rw [sent, Peer.worker_deliver, ih]

/-- The results sent are added to the inboxes. -/
def addResults (islands : IslandId → Island β) (p : IslandId × Parcel β) : IslandId → Island β :=
  Function.update islands p.1 { islands p.1 with inbox := (islands p.1).inbox ++ [p.2] }

theorem island_deliverAll : (s.deliverAll messages).island =
    (Controller.forwarded messages).foldl addResults s.island := by
  induction messages using List.reverseRecOn with
  | nil => rfl
  | append_singleton messages m ih =>
      rw [deliverAll_snoc]
      cases m with
      | toWorker v msg =>
          rw [Controller.forwarded_toWorker, ← ih]
          rfl
      | toIsland j binary =>
          rw [Controller.forwarded_toIsland, List.foldl_append, ← ih]
          rfl

/-! ## The maps of the controller and the workers -/

structure Agrees (limbo : Finset WorkerId) (s : Cluster β) (c : Controller (Parcel β)) :
    Prop where
  sound : ∀ w, (s.peer w).Sound
  idle : ∀ w, w ∈ c.freeWorkersPool ∨ w ∈ limbo → (s.peer w).burden = []
  busy : ∀ w record, c.workAllocationMap.lookup w = some record →
    ∀ job ∈ (s.peer w).burden, job = record.workData.served

/-- The cluster while a handler is running: what the handler has sent so far is in `sent`. -/
def during (base : Cluster β) (c : Controller (Parcel β)) : Cluster β := base.deliverAll c.sent

namespace Agrees

variable {c c' : Controller (Parcel β)} {d : Parcel β} {limbo : Finset WorkerId}

theorem start (records : UnorderedMap WorkerId WorkerInfo) :
    Agrees ∅ (Cluster.start records : Cluster β) (Controller.start records) where
  sound w := Peer.sound_start
  idle w _ := rfl
  busy w record busy := by simp [Controller.start] at busy

theorem congr (h : Agrees limbo s c) (hp : s'.peer = s.peer)
    (hf : c'.freeWorkersPool = c.freeWorkersPool)
    (ha : c'.workAllocationMap = c.workAllocationMap) : Agrees limbo s' c' where
  sound := by rw [hp]; exact h.sound
  idle := by rw [hp, hf]; exact h.idle
  busy := by rw [hp, ha]; exact h.busy

/-- The workers have passed jobs on and taken none. -/
theorem lighter (h : Agrees limbo s c)
    (hs : ∀ w, (s'.peer w).Sound ∧ (s'.peer w).burden.Sublist (s.peer w).burden) :
    Agrees limbo s' c where
  sound w := (hs w).1
  idle w free := List.sublist_nil.mp (h.idle w free ▸ (hs w).2)
  busy w record busy job member := h.busy w record busy job ((hs w).2.subset member)

theorem released (h : Agrees {w} s c) : Agrees ∅ s (c.released w) where
  sound := h.sound
  idle v free := by
    apply h.idle
    rcases free with free | noLimbo
    · rcases Finset.mem_insert.mp free with same | free
      · exact Or.inr (Finset.mem_singleton.mpr same)
      · exact Or.inl free
    · simp at noLimbo
  busy := h.busy

/-- Whatever leaves the pool and the allocation map is of no concern any more. -/
theorem forget (h : Agrees ∅ s c) : Agrees ∅ s ((c.left w).cleared w) where
  sound := h.sound
  idle v free := by
    apply h.idle
    rcases free with free | noLimbo
    · exact Or.inl (Finset.mem_of_mem_erase free)
    · simp at noLimbo
  busy v record busy := by
    apply h.busy
    have other : v ≠ w := by
      intro same
      have present := Finmap.mem_of_lookup_eq_some busy
      rw [same] at present
      exact Finmap.notMem_erase_self present
    rw [← busy]
    exact (Finmap.lookup_erase_ne other).symm

/-- Work is sent to a free worker, which carries this job and no other from then on. -/
theorem allocated {repo : WorkerInfoRepository} (h : Agrees ∅ (during base c) c)
    (free : w ∈ c.freeWorkersPool) (notBusy : w ∉ c.workAllocationMap) :
    Agrees ∅ (during base (c.allocated w i d repo)) (c.allocated w i d repo) := by
  have sent : during base (c.allocated w i d repo) =
      (during base c).deliver (.toWorker w (.allocateWork d)) := deliverAll_snoc
  have unburdened := h.idle w (Or.inl free)
  rw [sent]
  constructor
  · intro v
    by_cases same : v = w
    · subst same
      rw [peer_deliver_self]
      exact (h.sound v).deliver unburdened
    · rw [peer_deliver_of_ne same]
      exact h.sound v
  · intro v member
    rcases member with member | noLimbo
    · obtain ⟨other, stillFree⟩ := Finset.mem_erase.mp member
      rw [peer_deliver_of_ne other]
      exact h.idle v (Or.inl stillFree)
    · simp at noLimbo
  · intro v record busy job carried
    change (UnorderedMap.emplace w _ c.workAllocationMap).lookup v = some record at busy
    rw [UnorderedMap.emplace_of_notMem notBusy] at busy
    by_cases same : v = w
    · subst same
      rw [Finmap.lookup_insert, Option.some.injEq] at busy
      subst busy
      rw [peer_deliver_self] at carried
      rcases @Peer.burden_deliver _ ((during base c).peer v) (.allocateWork d) with kept | more
      · rw [kept, unburdened] at carried
        cases carried
      · rw [more, unburdened] at carried
        exact List.mem_singleton.mp carried
    · rw [Finmap.lookup_insert_of_ne _ same] at busy
      rw [peer_deliver_of_ne same] at carried
      exact h.busy v record busy job carried

/-- A library that is sent to a worker is no job. -/
theorem deliver_dllBinary (h : Agrees limbo s c) (reply : Parcel β) :
    Agrees limbo (s.deliver (.toWorker w (.dllBinary reply))) c := by
  apply h.lighter
  intro v
  by_cases same : v = w
  · subst same
    rw [peer_deliver_self]
    exact (h.sound v).deliver_dllBinary reply
  · rw [peer_deliver_of_ne same]
    exact ⟨h.sound v, List.Sublist.refl _⟩

theorem places (h : Controller.Places archive env i d c c') (partition : c.Partition)
    (agrees : Agrees ∅ (during base c) c) : Agrees ∅ (during base c') c' := by
  cases h with
  | queue => exact agrees.congr rfl rfl rfl
  | allocate someFree c' h =>
      obtain ⟨w, repo, ⟨wct, -, chosen⟩, -⟩ := h
      have free := Controller.mem_of_chooseWorker chosen
      exact agrees.allocated free (partition.freeNotBusy w free)

theorem frees (h : Controller.Frees archive env w c c')
    (partition : Controller.PartitionWith {w} c) (agrees : Agrees {w} (during base c) c) :
    Agrees ∅ (during base c') c' := by
  cases h with
  | release => exact agrees.released
  | serve i d waiting c' h =>
      obtain ⟨v, repo, ⟨wct, -, chosen⟩, -⟩ := h
      have free := Controller.mem_of_chooseWorker chosen
      have popped : Agrees ∅ (during base ((c.released w).popped i)) ((c.released w).popped i) :=
        agrees.released.congr rfl rfl rfl
      exact popped.allocated free (partition.released.freeNotBusy v free)

/-- The worker that a handler is about to free carries nothing. -/
def Relieved (s : Cluster β) : Incoming (Parcel β) → Prop
  | .fromWorker w .workerJoin => (s.peer w).burden = []
  | .fromWorker w (.workResults _) => (s.peer w).burden = []
  | _ => True

theorem handled {msg : Incoming (Parcel β)} (h : Controller.Handled archive env c msg c')
    (quiet : c.sent = []) (alternates : Controller.Alternates c.workerInfo.connectedWorkers msg)
    (partition : c.Partition) (relieved : Relieved base msg) (agrees : Agrees ∅ base c) :
    Agrees ∅ (during base c') c' := by
  have before : during base c = base := by rw [during, quiet]; rfl
  -- the worker in hand is neither free nor busy until it is put into the pool
  have limbo : ∀ {w : WorkerId}, (base.peer w).burden = [] → Agrees {w} base c := by
    intro w unburdened
    refine ⟨agrees.sound, fun v free => ?_, agrees.busy⟩
    rcases free with free | same
    · exact agrees.idle v (Or.inl free)
    · rw [Finset.mem_singleton.mp same]
      exact unburdened
  cases h with
  | joinKnown =>
      rw [before]
      exact agrees
  | join w unknown c' h =>
      refine frees h (partition.joined alternates) ?_
      rw [show during base (c.joined w) = base from before]
      exact (limbo relieved).congr rfl rfl rfl
  | leaveIdle w idle =>
      rw [show during base (c.left w) = base from before]
      refine ⟨agrees.sound, fun v free => ?_, agrees.busy⟩
      exact agrees.forget.idle v free
  | leaveBusy w record busy c' h =>
      refine places h partition.leave ?_
      rw [show during base ((c.left w).cleared w) = base from before]
      exact agrees.forget
  | results w binary wct repo record readable finished busy c' h =>
      refine frees h (partition.answered busy finished) ?_
      have told : during base (c.answered w record.islandId binary repo) =
          base.deliver (.toIsland record.islandId binary) := by
        simp [during, Controller.answered, quiet, deliverAll]
      rw [told]
      have inHand := limbo relieved
      refine ⟨agrees.sound, inHand.idle, fun v record' busy' => ?_⟩
      have forgotten := agrees.forget.busy v record' busy'
      exact forgotten
  | getDll w binary reply =>
      have told : during base { c with sent := c.sent ++ [.toWorker w (.dllBinary reply)] } =
          base.deliver (.toWorker w (.dllBinary reply)) := by
        simp [during, quiet, deliverAll]
      rw [told]
      exact (agrees.deliver_dllBinary reply).congr rfl rfl rfl
  | request i d c' h =>
      refine places h partition ?_
      rw [before]
      exact agrees
  | unhandledWorker =>
      rw [before]
      exact agrees
  | unhandledIsland =>
      rw [before]
      exact agrees

end Agrees

end Cluster

end Metasolver
