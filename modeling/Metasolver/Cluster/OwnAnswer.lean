import Metasolver.Lib.Exec
import Metasolver.Lib.SingleFlight
import Metasolver.Cluster.Downloads
import Metasolver.Controller.RepositoryCalls

/-!
# A download gets its own answer

For each worker, the calls of the provider, the requests that the controller has handled and
the calls that have returned are the histories of a `Flight`: one request at a time.
`Carries` says so for one worker, with the messages that are on their way.  It rests on
the mutex, since a thread with a call of the provider owns it.

A request moves from the inproc socket to the main loop and on to the controller, a reply
back from there to the main loop and to the socket; `requests` and `replies` list those
that are anywhere on this way, so that a hop changes neither.  If the lookup of the library
throws, the server thread ends and the request is lost: the call waits for ever.
-/

namespace Metasolver

open Exec SingleFlight Effects

variable {β Algo Pop : Type} {archive : Archive β Algo Pop} {dll : DllArchive β}
  {env : Surroundings}

def ThreadMsg.request : ThreadMsg β → Option β
  | .getDll binary => some binary
  | .workResults _ => none

def ToWorkerMsg.reply : ToWorkerMsg β → Option β
  | .dllBinary binary => some binary
  | .allocateWork _ => none

/-- A message that the controller sends to `w`. -/
def Sent.toWorker? (w : WorkerId) : Sent β → Option (ToWorkerMsg β)
  | .toWorker v msg => if v = w then some msg else none
  | .toIsland _ _ => none

/-- A reply that the controller sends to `w`. -/
def Sent.replyTo (w : WorkerId) (m : Sent β) : Option β := (m.toWorker? w).bind ToWorkerMsg.reply

/-- The replies that have arrived at the sockets of calls. -/
def arrivedReplies (calls : List (DllCall β)) : List β :=
  calls.flatMap fun c => c.inbox.filterMap ToWorkerMsg.reply

namespace WorkerProcess

/-- The requests that the controller has not handled, oldest first. -/
def requests (p : WorkerProcess β) : List β :=
  p.worker.workerSocket.filterMap ThreadMsg.request ++ p.workerDllHandler

/-- The replies that no call has received, oldest first. -/
def replies (p : WorkerProcess β) : List β :=
  arrivedReplies p.dllCalls ++ p.inbound.filterMap ToWorkerMsg.reply

end WorkerProcess

/-- What is on its way between the calls of one worker and the controller. -/
def OnItsWay (archive : Archive β Algo Pop) (dll : DllArchive β) (p : WorkerProcess β) :
    Slot String (Option Bytes) → Prop
  | .idle => p.dllCalls.map DllCall.libName = [] ∧ p.requests = [] ∧ p.replies = []
  | .asked name => p.dllCalls.map DllCall.libName = [name] ∧
      (p.requests = [dll.getDllRequest ⟨name⟩] ∨ p.requests = []) ∧ p.replies = []
  | .answered name file => p.dllCalls.map DllCall.libName = [name] ∧
      p.requests = [] ∧ p.replies = [archive.dllBinaryContainer ⟨name, file⟩]

structure Carries (archive : Archive β Algo Pop) (dll : DllArchive β) (p : WorkerProcess β)
    (handled : List (String × Option Bytes)) (f : Flight String (Option Bytes)) : Prop where
  /-- A thread whose call waits owns the mutex. -/
  mutex : ∀ t ∈ p.dllCalls.map DllCall.thread, ∃ again, p.registryMutex = some (t, again)
  onItsWay : OnItsWay archive dll p f.slot
  asked : p.asked = f.asked
  handled : handled = f.answered
  returned : p.returned = f.returned.map fun r => (r.1, .ok r.2)

theorem Carries.start : Carries archive dll {} [] Flight.start where
  mutex t member := by cases member
  onItsWay := ⟨rfl, rfl, rfl⟩
  asked := rfl
  handled := rfl
  returned := rfl

namespace Carries

variable {p q : WorkerProcess β} {handled : List (String × Option Bytes)}
  {f : Flight String (Option Bytes)} {thread : ThreadId} {libName : String}

/-- A step that starts no call and ends none, and keeps what is on its way. -/
theorem congr (carries : Carries archive dll p handled f)
    (mutex : ∀ t ∈ p.dllCalls.map DllCall.thread, ∃ again, q.registryMutex = some (t, again))
    (threads : q.dllCalls.map DllCall.thread = p.dllCalls.map DllCall.thread)
    (names : q.dllCalls.map DllCall.libName = p.dllCalls.map DllCall.libName)
    (requests : q.requests = p.requests) (replies : q.replies = p.replies)
    (asked : q.asked = p.asked) (returned : q.returned = p.returned) :
    Carries archive dll q handled f where
  mutex := by
    rw [threads]
    exact mutex
  onItsWay := by
    have before := carries.onItsWay
    cases slot : f.slot
    all_goals
      rw [slot] at before
      rw [OnItsWay, names, requests, replies]
      exact before
  asked := asked.trans carries.asked
  handled := carries.handled
  returned := returned.trans carries.returned

/-- A thread that owns the mutex and waits in no call: no call waits. -/
theorem noCall (carries : Carries archive dll p handled f) {again : Nat}
    (owns : p.registryMutex = some (thread, again)) (free : ∀ c ∈ p.dllCalls, c.thread ≠ thread) :
    p.dllCalls = [] := by
  refine List.eq_nil_iff_forall_not_mem.mpr fun c member => ?_
  obtain ⟨again', owner⟩ := carries.mutex c.thread (List.mem_map_of_mem member)
  rw [owns] at owner
  exact free c member (Prod.mk.inj (Option.some.inj owner)).1.symm

/-- There is no more than one call. -/
theorem onlyCall (carries : Carries archive dll p handled f) {c : DllCall β}
    (member : c ∈ p.dllCalls) : p.dllCalls = [c] := by
  have one : ∀ name, p.dllCalls.map DllCall.libName = [name] → p.dllCalls = [c] := by
    intro name names
    obtain ⟨c', alone, -⟩ := List.map_eq_singleton_iff.mp names
    rw [alone] at member ⊢
    rw [List.mem_singleton.mp member]
  have way := carries.onItsWay
  cases slot : f.slot with
  | idle =>
      rw [slot] at way
      rw [List.map_eq_nil_iff.mp way.1] at member
      cases member
  | asked name =>
      rw [slot] at way
      exact one name way.1
  | answered name file =>
      rw [slot] at way
      exact one name way.1

/-- A reply that nobody has received is the answer to the question of the one call. -/
theorem answered_of_reply (carries : Carries archive dll p handled f) {binary : β}
    {rest : List β} (replies : p.replies = binary :: rest) :
    ∃ name file, f.slot = .answered name file ∧ p.dllCalls.map DllCall.libName = [name] ∧
      p.requests = [] ∧ binary = archive.dllBinaryContainer ⟨name, file⟩ ∧ rest = [] := by
  have way := carries.onItsWay
  cases slot : f.slot with
  | idle =>
      rw [slot] at way
      rw [way.2.2] at replies
      cases replies
  | asked name =>
      rw [slot] at way
      rw [way.2.2] at replies
      cases replies
  | answered name file =>
      rw [slot] at way
      obtain ⟨names, requests, one⟩ := way
      rw [one] at replies
      obtain ⟨same, none_⟩ := List.cons.inj replies
      exact ⟨name, file, rfl, names, requests, same.symm, none_.symm⟩

/-- A request that has not been handled is the question of the one call. -/
theorem asked_of_request (carries : Carries archive dll p handled f) {binary : β}
    {rest : List β} (requests : p.requests = binary :: rest) :
    ∃ name, f.slot = .asked name ∧ binary = dll.getDllRequest ⟨name⟩ := by
  have way := carries.onItsWay
  cases slot : f.slot with
  | idle =>
      rw [slot] at way
      rw [way.2.1] at requests
      cases requests
  | asked name =>
      rw [slot] at way
      rcases way.2.1 with here | lost
      · rw [here] at requests
        exact ⟨name, rfl, (List.cons.inj requests).1.symm⟩
      · rw [lost] at requests
        cases requests
  | answered name file =>
      rw [slot] at way
      rw [way.2.1] at requests
      cases requests

/-! ## The threads -/

theorem lock (carries : Carries archive dll p handled f) (h : p.lock thread = some q) :
    Carries archive dll q handled f := by
  rw [WorkerProcess.lock] at h
  split at h
  case h_1 free =>
    obtain rfl := Option.some.inj h
    refine carries.congr (fun t member => ?_) rfl rfl rfl rfl rfl rfl
    obtain ⟨again, owner⟩ := carries.mutex t member
    rw [free] at owner
    cases owner
  case h_2 owner again owned =>
    split_ifs at h with own
    obtain rfl := Option.some.inj h
    refine carries.congr (fun t member => ?_) rfl rfl rfl rfl rfl rfl
    obtain ⟨again', owner'⟩ := carries.mutex t member
    rw [owned] at owner'
    exact ⟨again + 1, by rw [(Prod.mk.inj (Option.some.inj owner')).1]⟩

theorem unlock (carries : Carries archive dll p handled f) (h : p.unlock thread = some q) :
    Carries archive dll q handled f := by
  rw [WorkerProcess.unlock] at h
  split at h
  case h_1 => cases h
  case h_2 owner again owned =>
    by_cases own : owner = thread ∧ ∀ c ∈ p.dllCalls, c.thread ≠ thread
    · rw [if_pos own] at h
      obtain rfl := Option.some.inj h
      obtain ⟨rfl, free⟩ := own
      have none_ := carries.noCall owned free
      refine carries.congr (fun t member => ?_) rfl rfl rfl rfl rfl rfl
      rw [none_] at member
      cases member
    · rw [if_neg own] at h
      cases h

/-- A call of the provider is the next question. -/
theorem getDll (carries : Carries archive dll p handled f)
    (h : p.getDllFromController dll thread libName = some q) :
    ∃ f', Carries archive dll q handled f' := by
  rw [WorkerProcess.getDllFromController] at h
  split at h
  case h_1 => cases h
  case h_2 owner again owned =>
    split_ifs at h with own
    obtain rfl := Option.some.inj h
    obtain ⟨rfl, free⟩ := own
    have none_ := carries.noCall owned free
    have way := carries.onItsWay
    have idle : f.slot = .idle := by
      cases slot : f.slot with
      | idle => rfl
      | asked name =>
          rw [slot, OnItsWay, none_] at way
          cases way.1
      | answered name file =>
          rw [slot, OnItsWay, none_] at way
          cases way.1
    rw [idle] at way
    obtain ⟨-, requests, replies⟩ := way
    refine ⟨f.ask idle libName, ?_, ⟨?_, ?_, ?_⟩, ?_, carries.handled, carries.returned⟩
    · intro t member
      rw [none_] at member
      obtain rfl := List.mem_singleton.mp member
      exact ⟨again, owned⟩
    · rw [none_]
      rfl
    · exact Or.inl ((List.append_assoc _ _ _).symm.trans (congrArg (· ++ _) requests))
    · rw [WorkerProcess.replies, none_] at replies
      rw [WorkerProcess.replies, none_]
      exact replies
    · exact congrArg (· ++ [libName]) carries.asked

/-- A call that receives anything is the one call of its worker. -/
theorem receiveDll_cases (carries : Carries archive dll p handled f)
    (h : p.receiveDll dll thread = some q) :
    ∃ call, p.dllCalls = [call] ∧ call.thread = thread ∧
      ((∃ binary rest, call.inbox = .dllBinary binary :: rest ∧
        q = { p with
          dllCalls := p.dllCalls.filter fun c => c.thread ≠ thread
          returned := p.returned ++
            [(call.libName, (dll.dllBinaryContainer binary).map (·.dllFile))] }) ∨
      ∃ workData rest, call.inbox = .allocateWork workData :: rest ∧
        q = { p with dllCalls := p.dllCalls.map fun c =>
          if c.thread = thread then { c with inbox := rest } else c }) := by
  rw [WorkerProcess.receiveDll] at h
  cases found : p.dllCalls.find? (fun c => c.thread = thread) with
  | none =>
      rw [found] at h
      cases h
  | some call =>
      simp only [found] at h
      have own : decide (call.thread = thread) = true :=
        List.find?_some (p := fun c : DllCall β => decide (c.thread = thread)) found
      refine ⟨call, carries.onlyCall (List.mem_of_find?_eq_some found), of_decide_eq_true own, ?_⟩
      split at h
      case h_1 => cases h
      case h_2 binary rest inbox =>
        obtain rfl := Option.some.inj h
        exact Or.inl ⟨binary, rest, inbox, rfl⟩
      case h_3 workData rest inbox =>
        obtain rfl := Option.some.inj h
        exact Or.inr ⟨workData, rest, inbox, rfl⟩

theorem replies_of_onlyCall {call : DllCall β} (alone : p.dllCalls = [call]) :
    p.replies = call.inbox.filterMap ToWorkerMsg.reply ++
      p.inbound.filterMap ToWorkerMsg.reply := by
  rw [WorkerProcess.replies, alone, arrivedReplies, List.flatMap_singleton]

/-- A call that returns has received the answer to its own question; a message of another
    type is skipped. -/
theorem receive (roundTrips : RoundTrips archive dll) (carries : Carries archive dll p handled f)
    (h : p.receiveDll dll thread = some q) : ∃ f', Carries archive dll q handled f' := by
  obtain ⟨call, alone, own, ⟨binary, rest, inbox, rfl⟩ | ⟨workData, rest, inbox, rfl⟩⟩ :=
    carries.receiveDll_cases h
  · have replies := replies_of_onlyCall alone
    have here : ToWorkerMsg.reply (.dllBinary binary) = some binary := rfl
    rw [inbox, List.filterMap_cons_some here, List.cons_append] at replies
    obtain ⟨name, file, slot, names, requests, rfl, none_⟩ := carries.answered_of_reply replies
    have ended : p.dllCalls.filter (fun c => c.thread ≠ thread) = [] := by
      rw [alone]
      simp [own]
    have same : call.libName = name := by
      rw [alone] at names
      exact (List.cons.inj names).1
    refine ⟨f.complete slot, ?_, ⟨?_, requests, ?_⟩, carries.asked, carries.handled, ?_⟩
    · rw [ended]
      intro t member
      cases member
    · rw [ended]
      rfl
    · rw [WorkerProcess.replies, ended]
      exact (List.append_eq_nil_iff.mp none_).2
    · rw [roundTrips.reply, same]
      refine (congrArg (· ++ _) carries.returned).trans ?_
      rw [Flight.complete, List.map_append]
      rfl
  · have skipped : p.dllCalls.map (fun c =>
        if c.thread = thread then { c with inbox := rest } else c) =
          [{ call with inbox := rest }] := by
      rw [alone]
      simp [own]
    refine ⟨f, carries.congr carries.mutex ?_ ?_ rfl ?_ rfl rfl⟩
    · rw [skipped, alone]
      rfl
    · rw [skipped, alone]
      rfl
    · rw [replies_of_onlyCall skipped, replies_of_onlyCall alone, inbox]
      rfl

theorem threadStep {e : ThreadEvent β} (roundTrips : RoundTrips archive dll)
    (carries : Carries archive dll p handled f) (h : p.threadStep dll e = some q) :
    ∃ f', Carries archive dll q handled f' := by
  cases e with
  | lock thread => exact ⟨f, carries.lock h⟩
  | unlock thread => exact ⟨f, carries.unlock h⟩
  | getDll thread libName => exact carries.getDll h
  | receive thread => exact carries.receive roundTrips h
  | results binary =>
      obtain rfl := Option.some.inj h
      exact ⟨f, carries.congr carries.mutex rfl rfl rfl rfl rfl rfl⟩

/-! ## The main loop -/

/-- A message of the thread socket is passed on to the controller, or it is results that
    could not be joined. -/
theorem requests_handleThreadSocketMsg (v : Worker β) (m : ThreadMsg β) :
    (v.afterHandler (v.handleThreadSocketMsg m)).workerSocket.filterMap ThreadMsg.request =
      v.workerSocket.filterMap ThreadMsg.request ++ m.request.toList := by
  cases m with
  | getDll binary => exact List.filterMap_append
  | workResults binary =>
      have same : ThreadMsg.request (.workResults binary) = none := rfl
      rw [same, Option.toList_none, List.append_nil, Worker.handleThreadSocketMsg,
        Worker.joinWorkerThread]
      split_ifs
      · exact List.filterMap_append.trans (List.append_nil _)
      · rfl

theorem workerSocket_receive (v : Worker β) (m : ToWorkerMsg β) :
    (v.receive m).workerSocket = v.workerSocket := by
  cases m with
  | allocateWork workData =>
      rw [Worker.receive, Worker.handleWorkerSocketMsg, Worker.startWorkerThread]
      split_ifs
      · rfl
      · rfl
  | dllBinary binary =>
      have handled : v.receive (.dllBinary binary) = v.sendToDllHandler := rfl
      rcases @Worker.sendToDllHandler_cases _ v with ⟨workData, -, sent⟩ | same
      · rw [handled, sent]
      · rw [handled, same]

/-- Forwarding a reply starts no call and ends none. -/
theorem map_forwardDll {γ : Type} (g : DllCall β → γ)
    (blind : ∀ c inbox, g { c with inbox := inbox } = g c) (calls : List (DllCall β))
    (m : ToWorkerMsg β) : (WorkerProcess.forwardDll calls m).map g = calls.map g := by
  cases m with
  | allocateWork workData => rfl
  | dllBinary binary =>
      cases calls with
      | nil => rfl
      | cons c rest => exact congrArg (· :: rest.map g) (blind c _)

/-- A reply is forwarded to the call that waits. -/
theorem arrivedReplies_forwardDll (c : DllCall β) (m : ToWorkerMsg β) :
    arrivedReplies (WorkerProcess.forwardDll [c] m) = arrivedReplies [c] ++ m.reply.toList := by
  cases m with
  | allocateWork workData => exact (List.append_nil _).symm
  | dllBinary binary =>
      rw [WorkerProcess.forwardDll, WorkerProcess.sendToDllHandler, arrivedReplies, arrivedReplies,
        List.flatMap_singleton, List.flatMap_singleton, List.filterMap_append]
      rfl

/-- The oldest message of the controller goes to the call that waits, or it is not a reply. -/
theorem forward (carries : Carries archive dll p handled f) {msg : ToWorkerMsg β}
    {rest : List (ToWorkerMsg β)} (oldest : p.inbound = msg :: rest) :
    Carries archive dll { p with
      worker := p.worker.receive msg
      dllCalls := WorkerProcess.forwardDll p.dllCalls msg
      inbound := rest } handled f := by
  have before : p.replies = arrivedReplies p.dllCalls ++
      (msg.reply.toList ++ rest.filterMap ToWorkerMsg.reply) := by
    rw [WorkerProcess.replies, oldest]
    cases msg <;> rfl
  refine carries.congr carries.mutex (map_forwardDll DllCall.thread (fun _ _ => rfl) _ _)
    (map_forwardDll DllCall.libName (fun _ _ => rfl) _ _) ?_ ?_ rfl rfl
  · rw [WorkerProcess.requests, workerSocket_receive]
    rfl
  · cases msg with
    | allocateWork workData => exact before.symm
    | dllBinary binary =>
        obtain ⟨c, alone⟩ : ∃ c, p.dllCalls = [c] := by
          cases all : p.replies with
          | nil =>
              rw [all] at before
              simp [ToWorkerMsg.reply] at before
          | cons x xs =>
              obtain ⟨name, file, -, names, -⟩ := carries.answered_of_reply all
              obtain ⟨c, alone, -⟩ := List.map_eq_singleton_iff.mp names
              exact ⟨c, alone⟩
        rw [before, WorkerProcess.replies, alone, arrivedReplies_forwardDll, List.append_assoc]

theorem mainStep {e : MainEvent} (carries : Carries archive dll p handled f)
    (h : p.mainStep e = some q) : Carries archive dll q handled f := by
  cases e with
  | workerMain =>
      rw [WorkerProcess.mainStep] at h
      split at h
      case h_1 binary rest alive oldest =>
        obtain rfl := Option.some.inj h
        refine carries.congr carries.mutex rfl rfl ?_ rfl rfl rfl
        rw [WorkerProcess.requests, requests_handleThreadSocketMsg]
        exact congrArg (· ++ p.workerDllHandler) (List.append_nil _)
      case h_2 => cases h
  | workerDllHandler =>
      rw [WorkerProcess.mainStep] at h
      split at h
      case h_1 binary rest alive oldest =>
        obtain rfl := Option.some.inj h
        refine carries.congr carries.mutex rfl rfl ?_ rfl rfl rfl
        rw [WorkerProcess.requests, requests_handleThreadSocketMsg, WorkerProcess.requests, oldest,
          List.append_assoc]
        rfl
      case h_2 => cases h
  | controller =>
      rw [WorkerProcess.mainStep] at h
      split at h
      case h_1 msg rest alive oldest =>
        obtain rfl := Option.some.inj h
        exact carries.forward oldest
      case h_2 => cases h

end Carries

/-! ## The controller -/

namespace Controller

variable {c c' : Controller β} {i : IslandId} {d : β} {v w : WorkerId}

/-- The replies to `v` among the messages sent. -/
def repliesTo (v : WorkerId) (messages : List (Sent β)) : List β :=
  messages.filterMap (Sent.replyTo v)

theorem repliesTo_snoc (messages : List (Sent β)) {m : Sent β} (other : m.replyTo v = none) :
    repliesTo v (messages ++ [m]) = repliesTo v messages := by
  rw [repliesTo, List.filterMap_append, List.filterMap_cons_none other, List.filterMap_nil,
    List.append_nil, repliesTo]

theorem replyTo_allocateWork : (Sent.toWorker w (.allocateWork d)).replyTo v = none := by
  rw [Sent.replyTo, Sent.toWorker?]
  split_ifs <;> rfl

theorem Allocates.repliesTo_eq (h : Allocates archive env i d c c') :
    repliesTo v c'.sent = repliesTo v c.sent := by
  obtain ⟨w, repo, -, -⟩ := h
  exact repliesTo_snoc c.sent replyTo_allocateWork

theorem Places.repliesTo_eq (h : Places archive env i d c c') :
    repliesTo v c'.sent = repliesTo v c.sent := by
  cases h with
  | queue => rfl
  | allocate someFree c' h => exact h.repliesTo_eq

theorem Frees.repliesTo_eq (h : Frees archive env w c c') :
    repliesTo v c'.sent = repliesTo v c.sent := by
  cases h with
  | release => rfl
  | serve i d waiting c' h =>
      have popped : repliesTo v c'.sent = repliesTo v ((c.released w).popped i).sent :=
        h.repliesTo_eq
      exact popped

/-- Only a request for a library is replied to. -/
theorem Handled.repliesTo_eq {msg : Incoming β} (h : Handled archive env c msg c')
    (other : ∀ w binary, msg ≠ .fromWorker w (.getDll binary)) :
    repliesTo v c'.sent = repliesTo v c.sent := by
  cases h with
  | joinKnown => rfl
  | join w unknown c' h =>
      have joined : repliesTo v c'.sent = repliesTo v (c.joined w).sent := h.repliesTo_eq
      exact joined
  | leaveIdle => rfl
  | leaveBusy w record busy c' h =>
      have cleared : repliesTo v c'.sent = repliesTo v ((c.left w).cleared w).sent :=
        h.repliesTo_eq
      exact cleared
  | results w binary wct repo record readable finished busy c' h =>
      have answered : repliesTo v c'.sent =
          repliesTo v (c.answered w record.islandId binary repo).sent := h.repliesTo_eq
      exact answered.trans (repliesTo_snoc c.sent rfl)
  | getDll w binary reply => exact absurd rfl (other w binary)
  | request i d c' h => exact h.repliesTo_eq
  | unhandledWorker => rfl
  | unhandledIsland => rfl

theorem repliesTo_handle {msg : Incoming β}
    (other : ∀ w binary, msg ≠ .fromWorker w (.getDll binary)) (quiet : c.sent = []) :
    repliesTo v (final ((handle archive env msg).run c)).sent = [] := by
  have nothing : repliesTo v c.sent = [] := by
    rw [quiet]
    rfl
  cases run : (handle archive env msg).run c with
  | ok u c' => exact ((handle_ok run).repliesTo_eq other).trans nothing
  | error fault c' =>
      rw [final_error]
      rcases (handle_error run).2 with same | ⟨w, binary, record, -, -, sent⟩
      · rw [same]
        exact nothing
      · rw [sent, repliesTo_snoc c.sent rfl]
        exact nothing

end Controller

/-! ## The whole system -/

namespace Downloads

variable {s t : Downloads β} {w : WorkerId} {msg : Incoming β}

theorem process_setProcess {v : WorkerId} {p : WorkerProcess β} :
    (s.setProcess v p).process w = if w = v then p else s.process w :=
  Function.update_apply s.process v p w

/-- Each worker gets the messages that are sent to it, in order. -/
theorem deliverAll_eq (messages : List (Sent β)) (s : Downloads β) :
    (messages.foldl deliver s).handled = s.handled ∧
      ∀ w, (messages.foldl deliver s).process w =
        (s.process w).deliver (messages.filterMap (Sent.toWorker? w)) := by
  induction messages generalizing s with
  | nil =>
      refine ⟨rfl, fun w => ?_⟩
      rw [List.filterMap_nil, WorkerProcess.deliver, List.append_nil]
      rfl
  | cons m messages ih =>
      obtain ⟨handled, process⟩ := ih (s.deliver m)
      cases m with
      | toIsland i binary => exact ⟨handled, process⟩
      | toWorker v msg =>
          refine ⟨handled, fun w => (process w).trans ?_⟩
          rw [deliver, process_setProcess]
          by_cases same : w = v
          · have here : Sent.toWorker? w (.toWorker v msg) = some msg := if_pos same.symm
            rw [List.filterMap_cons_some here, if_pos same, same, WorkerProcess.deliver,
              WorkerProcess.deliver, WorkerProcess.deliver, List.append_assoc]
            rfl
          · have elsewhere : Sent.toWorker? w (.toWorker v msg) = none :=
              if_neg (Ne.symm same)
            rw [List.filterMap_cons_none elsewhere, if_neg same]

/-- Each worker carries one question at a time. -/
def Sound (archive : Archive β Algo Pop) (dll : DllArchive β) (s : Downloads β) : Prop :=
  ∀ w, ∃ f, Carries archive dll (s.process w) (s.handled w) f

theorem Sound.start (records : UnorderedMap WorkerId WorkerInfo) :
    Sound archive dll (Downloads.start records) := fun _ => ⟨_, Carries.start⟩

theorem Sound.setProcess (sound : Sound archive dll s) {p : WorkerProcess β}
    (h : ∃ f, Carries archive dll p (s.handled w) f) : Sound archive dll (s.setProcess w p) := by
  intro v
  rw [process_setProcess]
  split_ifs with same
  · subst same
    exact h
  · exact sound v

/-- What the controller does with a message: its replies reach the workers. -/
theorem handle_cases (h : s.handle archive env msg = some t) :
    ∃ c : Controller β, t.handled = s.handled ∧
      ∀ w, t.process w = (s.process w).deliver ((final ((Controller.handle archive env msg).run
        { c with sent := [] })).sent.filterMap (Sent.toWorker? w)) := by
  obtain ⟨session, step, rfl⟩ := Option.map_eq_some_iff.mp h
  obtain ⟨c, -, ends, -⟩ := Session.step_cases step
  have sent : session.server.sent = session.server.controller.sent := by
    cases session.server <;> rfl
  obtain ⟨handled, process⟩ := deliverAll_eq session.server.sent { s with session }
  refine ⟨c, handled, fun w => ?_⟩
  rw [process, sent, ends]

theorem filterMap_toWorker? (messages : List (Sent β)) :
    (messages.filterMap (Sent.toWorker? w)).filterMap ToWorkerMsg.reply =
      Controller.repliesTo w messages := List.filterMap_filterMap

/-- A message that is not about libraries. -/
theorem Sound.handle (sound : Sound archive dll s)
    (other : ∀ w binary, msg ≠ .fromWorker w (.getDll binary))
    (h : s.handle archive env msg = some t) : Sound archive dll t := by
  obtain ⟨c, handled, process⟩ := handle_cases h
  intro w
  obtain ⟨f, carries⟩ := sound w
  refine ⟨f, ?_⟩
  rw [handled, process]
  refine carries.congr carries.mutex rfl rfl rfl ?_ rfl rfl
  rw [WorkerProcess.replies, WorkerProcess.deliver, List.filterMap_append, filterMap_toWorker?,
    Controller.repliesTo_handle other rfl, List.append_nil]
  rfl

/-- The process of a worker whose oldest message the controller has taken. -/
def taken (p : WorkerProcess β) (rest : List (ThreadMsg β)) : WorkerProcess β :=
  { p with worker := { p.worker with workerSocket := rest } }

/-- The request that the controller has taken was the only one. -/
theorem requests_taken {p : WorkerProcess β} {binary : β} {rest : List (ThreadMsg β)}
    (one : p.requests = [binary] ∨ p.requests = [])
    (oldest : p.worker.workerSocket = .getDll binary :: rest) : (taken p rest).requests = [] := by
  rw [WorkerProcess.requests, oldest] at one
  rcases one with here | lost
  · exact (List.cons.inj here).2
  · cases lost

/-- The request of the one call is lost. -/
theorem lost_taken {p : WorkerProcess β} {rest : List (ThreadMsg β)}
    {handled : List (String × Option Bytes)} {f : Flight String (Option Bytes)} {name : String}
    (carries : Carries archive dll p handled f) (slot : f.slot = .asked name)
    (oldest : p.worker.workerSocket = .getDll (dll.getDllRequest ⟨name⟩) :: rest) :
    Carries archive dll ((taken p rest).deliver []) handled f := by
  have way := carries.onItsWay
  rw [slot] at way
  obtain ⟨names, requests, replies⟩ := way
  refine ⟨carries.mutex, ?_, carries.asked, carries.handled, carries.returned⟩
  rw [slot]
  refine ⟨names, Or.inr (requests_taken requests oldest), ?_⟩
  rw [WorkerProcess.deliver, List.append_nil]
  exact replies

/-- The question of the one call is answered, and the answer is on its way. -/
theorem reply_taken {p : WorkerProcess β} {rest : List (ThreadMsg β)}
    {handled : List (String × Option Bytes)} {f : Flight String (Option Bytes)} {name : String}
    (carries : Carries archive dll p handled f) (slot : f.slot = .asked name)
    (oldest : p.worker.workerSocket = .getDll (dll.getDllRequest ⟨name⟩) :: rest)
    (file : Option Bytes) :
    ∃ f', Carries archive dll
      ((taken p rest).deliver [.dllBinary (archive.dllBinaryContainer ⟨name, file⟩)])
      (handled ++ [(name, file)]) f' := by
  have way := carries.onItsWay
  rw [slot] at way
  obtain ⟨names, requests, replies⟩ := way
  have others := requests_taken requests oldest
  refine ⟨f.reply slot file, carries.mutex, ⟨names, others, ?_⟩, carries.asked,
    congrArg (· ++ _) carries.handled, carries.returned⟩
  rw [WorkerProcess.replies, WorkerProcess.deliver, List.filterMap_append, ← List.append_assoc]
  exact congrArg (· ++ _) replies

theorem Sound.deliver_nil (sound : Sound archive dll s) (w : WorkerId) :
    ∃ f, Carries archive dll ((s.process w).deliver []) (s.handled w) f := by
  obtain ⟨f, carries⟩ := sound w
  refine ⟨f, carries.congr carries.mutex rfl rfl rfl ?_ rfl rfl⟩
  rw [WorkerProcess.deliver, List.append_nil]

/-- The controller handles a request for a library: it is the question of the one call, and
    the reply carries the answer given to it, or the lookup throws and there is no reply. -/
theorem Sound.getDll (roundTrips : RoundTrips archive dll) (sound : Sound archive dll s)
    {binary : β} {rest : List (ThreadMsg β)}
    (oldest : (s.process w).worker.workerSocket = .getDll binary :: rest)
    (h : Downloads.handle archive env { s.setProcess w (taken (s.process w) rest) with
      handled := Function.update s.handled w
        (s.handled w ++ answerTo archive env (.getDll binary)) }
      (.fromWorker w (.getDll binary)) = some t) : Sound archive dll t := by
  obtain ⟨f, carries⟩ := sound w
  have requests : (s.process w).requests =
      binary :: (rest.filterMap ThreadMsg.request ++ (s.process w).workerDllHandler) := by
    rw [WorkerProcess.requests, oldest]
    rfl
  obtain ⟨name, slot, rfl⟩ := carries.asked_of_request requests
  have readable := roundTrips.request ⟨name⟩
  obtain ⟨c, handled, process⟩ := handle_cases h
  have run : (Controller.handle archive env (.fromWorker w (.getDll
      (dll.getDllRequest ⟨name⟩)))).run { c with sent := [] } = _ := Controller.getDll_run _
  rw [readable] at run
  cases found : env.getLibAsFile name with
  | ok file =>
      have answer : answerTo archive env (.getDll (dll.getDllRequest ⟨name⟩)) =
          [(name, file)] := by
        simp only [answerTo, readable, found]
      simp only [found] at run
      rw [run, final_ok] at process
      rw [answer] at handled
      intro v
      by_cases same : v = w
      · subst same
        have here : ([Sent.toWorker v (.dllBinary (archive.dllBinaryContainer
            ⟨name, file⟩))]).filterMap (Sent.toWorker? v) =
              [.dllBinary (archive.dllBinaryContainer ⟨name, file⟩)] :=
          List.filterMap_cons_some (if_pos rfl)
        have now : t.process v = (taken (s.process v) rest).deliver
            [.dllBinary (archive.dllBinaryContainer ⟨name, file⟩)] := by
          rw [process, process_setProcess, if_pos rfl]
          exact congrArg _ here
        have answered : t.handled v = s.handled v ++ [(name, file)] := by
          rw [handled]
          exact Function.update_self _ _ _
        rw [now, answered]
        exact reply_taken carries slot oldest file
      · have elsewhere : ([Sent.toWorker w (.dllBinary (archive.dllBinaryContainer
            ⟨name, file⟩))]).filterMap (Sent.toWorker? v) = [] :=
          List.filterMap_cons_none (if_neg (Ne.symm same))
        have now : t.process v = (s.process v).deliver [] := by
          rw [process, process_setProcess, if_neg same]
          exact congrArg _ elsewhere
        have unchanged : t.handled v = s.handled v := by
          rw [handled]
          exact Function.update_of_ne same _ _
        rw [now, unchanged]
        exact sound.deliver_nil v
  | error e =>
      have answer : answerTo archive env (.getDll (dll.getDllRequest ⟨name⟩)) = [] := by
        simp only [answerTo, readable, found]
      simp only [found] at run
      rw [run, final_error] at process
      rw [answer, List.append_nil] at handled
      intro v
      have unchanged : t.handled v = s.handled v := by
        rw [handled]
        exact congrFun (Function.update_eq_self w s.handled) v
      by_cases same : v = w
      · subst same
        have now : t.process v = (taken (s.process v) rest).deliver [] := by
          rw [process, process_setProcess, if_pos rfl]
          rfl
        rw [now, unchanged]
        exact ⟨f, lost_taken carries slot oldest⟩
      · have now : t.process v = (s.process v).deliver [] := by
          rw [process, process_setProcess, if_neg same]
          rfl
        rw [now, unchanged]
        exact sound.deliver_nil v

theorem Sound.step (roundTrips : RoundTrips archive dll) {e : DownloadEvent β}
    (sound : Sound archive dll s) (h : s.step archive dll e = some t) : Sound archive dll t := by
  cases e with
  | thread w e =>
      obtain ⟨p, moved, rfl⟩ := Option.map_eq_some_iff.mp h
      obtain ⟨f, carries⟩ := sound w
      exact sound.setProcess (carries.threadStep roundTrips moved)
  | main w e =>
      obtain ⟨p, moved, rfl⟩ := Option.map_eq_some_iff.mp h
      obtain ⟨f, carries⟩ := sound w
      exact sound.setProcess ⟨f, carries.mainStep moved⟩
  | serve w env =>
      rw [Downloads.step] at h
      split at h
      case h_1 => cases h
      case h_2 msg rest oldest =>
        cases msg with
        | getDll binary => exact sound.getDll roundTrips oldest h
        | workResults binary =>
            obtain ⟨f, carries⟩ := sound w
            have before : Sound archive dll (s.setProcess w (taken (s.process w) rest)) := by
              refine sound.setProcess ⟨f, carries.congr carries.mutex rfl rfl ?_ rfl rfl rfl⟩
              rw [WorkerProcess.requests, WorkerProcess.requests, oldest]
              rfl
            have same : Function.update s.handled w (s.handled w ++ []) = s.handled := by
              rw [List.append_nil, Function.update_eq_self]
            refine Sound.handle (s := { s.setProcess w (taken (s.process w) rest) with
              handled := Function.update s.handled w (s.handled w ++ []) }) ?_ ?_ h
            · rw [same]
              exact before
            · intro v b
              simp [ThreadMsg.toController]
  | hello w env => exact sound.handle (fun v b => by simp) h
  | island i env msg => exact sound.handle (fun v b => by simp) h

end Downloads

/-- However the threads of any number of workers, their main loops and the controller
    interleave: a worker has at most one request or reply on its way, its calls of the
    provider that have not returned are at most one, and what the k-th call has returned
    is what `get_lib_as_file` gave for the k-th request of that worker, which was for the
    library the call had asked for. -/
theorem download_own_answer (archive : Archive β Algo Pop) (dll : DllArchive β)
    (roundTrips : RoundTrips archive dll) (records : UnorderedMap WorkerId WorkerInfo)
    (es : List (DownloadEvent β)) (s : Downloads β)
    (run : exec (Downloads.step archive dll) (Downloads.start records) es = some s)
    (w : WorkerId) :
    (s.process w).requests.length + (s.process w).replies.length ≤ 1 ∧
    (s.handled w).length ≤ (s.process w).asked.length ∧
    (s.process w).asked.length ≤ (s.process w).returned.length + 1 ∧
    ∀ (k : Nat) (name : String) (result : Except Exn (Option Bytes)),
      (s.process w).returned[k]? = some (name, result) →
      ∃ file, result = .ok file ∧ (s.handled w)[k]? = some (name, file) ∧
        (s.process w).asked[k]? = some name := by
  have sound : Downloads.Sound archive dll s :=
    exec_invariant_of_step (fun s e t sound step => sound.step roundTrips step)
      (Downloads.Sound.start records) run
  obtain ⟨f, carries⟩ := sound w
  refine ⟨?_, ?_, ?_, fun k name result got => ?_⟩
  · have way := carries.onItsWay
    cases slot : f.slot with
    | idle =>
        rw [slot] at way
        rw [way.2.1, way.2.2]
        exact Nat.zero_le 1
    | asked name =>
        rw [slot] at way
        rw [way.2.2, List.length_nil, Nat.add_zero]
        rcases way.2.1 with here | lost
        · rw [here, List.length_singleton]
        · rw [lost]
          exact Nat.zero_le 1
    | answered name file =>
        rw [slot] at way
        rw [way.2.1, way.2.2, List.length_singleton, List.length_nil]
  · rw [carries.handled, carries.asked]
    exact f.length_answered
  · rw [carries.asked, carries.returned, List.length_map]
    exact f.length_asked
  · rw [carries.returned, List.getElem?_map] at got
    obtain ⟨⟨name', file⟩, returned, same⟩ := Option.map_eq_some_iff.mp got
    obtain ⟨rfl, rfl⟩ := Prod.mk.inj same
    obtain ⟨answered, asked⟩ := f.own_answer returned
    rw [carries.handled, carries.asked]
    exact ⟨file, rfl, answered, asked⟩

/-- The surroundings of a controller whose libraries contain the length of their names. -/
def libraries : Surroundings :=
  { (default : Surroundings) with getLibAsFile := fun name => .ok (some [name.length.toUInt8]) }

/-- Two workers ask at the same time, and a second thread of one of them right after the
    first has its file. -/
def twoWorkersAsk : List (DownloadEvent (PlainPayload String Nat)) :=
  [.hello "worker_a" default, .hello "worker_b" default,
    .thread "worker_a" (.lock 1), .thread "worker_a" (.getDll 1 "de"),
    .thread "worker_b" (.lock 1), .thread "worker_b" (.getDll 1 "cmaes"),
    .main "worker_b" .workerDllHandler, .main "worker_a" .workerDllHandler,
    .serve "worker_b" libraries, .serve "worker_a" default,
    .main "worker_a" .controller, .thread "worker_a" (.receive 1),
    .thread "worker_a" (.unlock 1), .thread "worker_a" (.lock 2),
    .thread "worker_a" (.getDll 2 "de"), .main "worker_a" .workerDllHandler,
    .serve "worker_a" libraries, .main "worker_b" .controller,
    .main "worker_a" .controller, .thread "worker_a" (.receive 2)]

theorem download_own_answer_two_workers :
    ∃ s, exec (Downloads.step Archive.plain DllArchive.plain) (Downloads.start ∅) twoWorkersAsk =
        some s ∧
      ((s.process "worker_a").returned.map fun r => (r.1, r.2.toOption)) =
        [("de", some none), ("de", some (some [2]))] ∧
      (s.handled "worker_a")[1]? = some ("de", some [2]) := by
  have ends : (exec (Downloads.step Archive.plain DllArchive.plain) (Downloads.start ∅)
      twoWorkersAsk).map (fun s => (s.process "worker_a").returned.map fun r =>
        (r.1, r.2.toOption)) = some [("de", some none), ("de", some (some [2]))] := by
    decide +kernel
  obtain ⟨s, run, returned⟩ := Option.map_eq_some_iff.mp ends
  have second := congrArg (fun results => results[1]?) returned
  rw [List.getElem?_map] at second
  obtain ⟨⟨name, result⟩, got, same⟩ := Option.map_eq_some_iff.mp second
  obtain ⟨file, rfl, handled, -⟩ := (download_own_answer Archive.plain DllArchive.plain
    RoundTrips.plain ∅ twoWorkersAsk s run "worker_a").2.2.2 1 name result got
  cases same
  exact ⟨s, run, returned, handled⟩

end Metasolver
