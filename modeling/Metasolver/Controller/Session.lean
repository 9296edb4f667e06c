import Metasolver.Controller.Invariants
import Metasolver.Lib.Exec

/-!
# The server loop and its log

`run_server` handles one message after another until a handler throws
(`distributed_controller.cpp:236-253`).  A `Session` is that loop with a log of
everything received and sent, oldest first.  What the outside world knows about
the controller is read off the log: which workers are connected, which hold an
allocation, and which requests have not been answered.
-/

namespace Metasolver

/-- The thread of `run_server`: it runs until a handler faults. -/
inductive Server (β : Type) where
  | running (controller : Controller β)
  | stopped (fault : Fault) (controller : Controller β)

/-- The controller, as the handler that ran last has left it. -/
def Server.controller {β : Type} : Server β → Controller β
  | .running c => c
  | .stopped _ c => c

/-- What the handler that ran last has sent. -/
def Server.sent {β : Type} : Server β → List (Sent β)
  | .running c => c.sent
  | .stopped _ c => c.sent

/-- What has stopped the server. -/
def Server.fault {β : Type} : Server β → Option Fault
  | .running _ => none
  | .stopped f _ => some f

/-- What a message must fulfil while the server runs. -/
def Server.Running {β : Type} (P : Controller β → Prop) : Server β → Prop
  | .running c => P c
  | .stopped _ _ => True

instance {β : Type} (P : Controller β → Prop) [DecidablePred P] (server : Server β) :
    Decidable (server.Running P) :=
  match server with
  | .running c => inferInstanceAs (Decidable (P c))
  | .stopped _ _ => isTrue trivial

inductive Action (β : Type) where
  | received (msg : Incoming β)
  | sent (msg : Sent β)
  deriving DecidableEq, Repr

abbrev Log (β : Type) := List (Action β)

/-- One round of the loop: the message and what the handler finds around it. -/
structure Delivery (β : Type) where
  env : Surroundings
  msg : Incoming β

structure Session (β : Type) where
  server : Server β
  log : Log β

namespace Log

variable {β : Type}

def connectedStep (workers : Finset WorkerId) : Action β → Finset WorkerId
  | .received (.fromWorker w .workerJoin) => insert w workers
  | .received (.fromWorker w .workerLeave) => workers.erase w
  | _ => workers

/-- The workers whose last notification is `WORKER_JOIN`. -/
def connected (log : Log β) : Finset WorkerId := log.foldl connectedStep ∅

def holdingStep (workers : Finset WorkerId) : Action β → Finset WorkerId
  | .sent (.toWorker w (.allocateWork _)) => insert w workers
  | .received (.fromWorker w .workerLeave) => workers.erase w
  | .received (.fromWorker w (.workResults _)) => workers.erase w
  | _ => workers

/-- The workers that were sent work which they have neither returned nor left. -/
def holding (log : Log β) : Finset WorkerId := log.foldl holdingStep ∅

def conversationEvent : Action β → Option (RequestReply.Event IslandId β)
  | .received (.fromIsland i (.allocateWork d)) => some (.call i d)
  | .sent (.toIsland i _) => some (.reply i)
  | _ => none

/-- The requests of the islands and the results sent to them. -/
def conversation (log : Log β) : List (RequestReply.Event IslandId β) :=
  log.filterMap conversationEvent

def unanswered (log : Log β) : UnorderedMap IslandId β := RequestReply.pending (conversation log)

/-- `ALLOCATE_WORK` messages received from `i`. -/
def requestsFrom (log : Log β) (i : IslandId) : Nat := RequestReply.calls (conversation log) i

/-- `WORK_RESULTS` messages sent to `i`. -/
def resultsTo (log : Log β) (i : IslandId) : Nat := RequestReply.replies (conversation log) i

/-- Work is sent to a connected worker that holds none. -/
def AllocationOk (before : Log β) : Action β → Prop
  | .sent (.toWorker w (.allocateWork _)) => w ∈ connected before ∧ w ∉ holding before
  | _ => True

variable {log : Log β} {a : Action β}

theorem connected_snoc : connected (log ++ [a]) = connectedStep (connected log) a := by
  simp [connected]

theorem holding_snoc : holding (log ++ [a]) = holdingStep (holding log) a := by
  simp [holding]

theorem conversation_snoc :
    conversation (log ++ [a]) = conversation log ++ (conversationEvent a).toList := by
  cases h : conversationEvent a <;> simp [conversation, h]

end Log

namespace Session

variable {β Algo Pop : Type}

def start (records : UnorderedMap WorkerId WorkerInfo) : Session β :=
  ⟨.running (Controller.start records), []⟩

def record (log : Log β) (msg : Incoming β) (c : Controller β) : Log β :=
  (log ++ [.received msg]) ++ c.sent.map .sent

/-- Only the message received can notify of a worker. -/
theorem connected_record (log : Log β) (msg : Incoming β) (c : Controller β) :
    (record log msg c).connected = Log.connectedStep log.connected (.received msg) := by
  have sends : ∀ (messages : List (Sent β)) (workers : Finset WorkerId),
      (messages.map Action.sent).foldl Log.connectedStep workers = workers := by
    intro messages
    induction messages with
    | nil => exact fun workers => rfl
    | cons m messages ih => exact fun workers => ih workers
  rw [record, Log.connected, List.foldl_append, sends, ← Log.connected, Log.connected_snoc]

/-- What one message adds to the conversation: the request, and the results passed on. -/
theorem conversation_record (log : Log β) (msg : Incoming β) (c : Controller β) :
    (record log msg c).conversation = log.conversation ++
      (Log.conversationEvent (.received msg)).toList ++
      (Controller.forwarded c.sent).map fun p => .reply p.1 := by
  have sends : ∀ messages : List (Sent β),
      (messages.map Action.sent).filterMap Log.conversationEvent =
        (Controller.forwarded messages).map fun p => .reply p.1 := by
    intro messages
    induction messages with
    | nil => rfl
    | cons m messages ih =>
        cases m with
        | toWorker w m => exact ih
        | toIsland i binary => exact congrArg (RequestReply.Event.reply i :: ·) ih
  rw [record, Log.conversation, List.filterMap_append, sends, ← Log.conversation,
    Log.conversation_snoc]

/-- The log of a handler that is interrupted is a beginning of the log of the handler that
    is not. -/
theorem record_interrupted {msg : Incoming β} {c c' calm : Controller β}
    (h : Controller.Interrupted msg c c' calm) (quiet : c.sent = []) (log : Log β) :
    record log msg c' <+: record log msg calm := by
  refine List.prefix_append_right_inj _ |>.mpr (List.IsPrefix.map _ ?_)
  cases h with
  | atOnce noRequest waiting allocated unsent =>
      rw [unsent, quiet]
      exact List.nil_prefix
  | beforeStart w d waiting allocated sent =>
      rw [sent]
      exact List.prefix_append _ _

/-- One message.  A server that has stopped handles none. -/
def step (archive : Archive β Algo Pop) (s : Session β) (e : Delivery β) : Option (Session β) :=
  match s.server with
  | .stopped _ _ => none
  | .running c =>
      match (Controller.handle archive e.env e.msg).run { c with sent := [] } with
      | .ok _ c' => some ⟨.running c', record s.log e.msg c'⟩
      | .error f c' => some ⟨.stopped f c', record s.log e.msg c'⟩

/-- The invariant rule while the server runs: what every message that is handled keeps
    holds of the controller when the run has not stopped it. -/
theorem running_invariant {archive : Archive β Algo Pop} {P : Session β → Delivery β → Prop}
    {I : Session β → Controller β → Prop}
    (kept : ∀ s e t c c', I s c → P s e → step archive s e = some t → t.server = .running c' →
      I t c')
    {s t : Session β} {es : List (Delivery β)} {c c' : Controller β}
    (start : s.server = .running c) (first : I s c)
    (guarded : Exec.Along (step archive) P s es) (run : Exec.exec (step archive) s es = some t)
    (ends : t.server = .running c') : I t c' := by
  have whileRunning : ∀ c', t.server = .running c' → I t c' := by
    refine Exec.exec_invariant (I := fun s => ∀ c, s.server = .running c → I s c) ?_ ?_ guarded run
    · intro s e t holds ok handled c' running
      obtain ⟨c, before⟩ : ∃ c, s.server = .running c := by
        cases server : s.server with
        | running c => exact ⟨c, rfl⟩
        | stopped f c => simp [step, server] at handled
      exact kept s e t c c' (holds c before) ok handled running
    · intro c₁ running
      obtain rfl := Server.running.inj (start.symm.trans running)
      exact first
  exact whileRunning c' ends

end Session

end Metasolver
