import Mathlib.Logic.Function.Basic
import Metasolver.Lib.Exec
import Metasolver.Lib.Framing
import Metasolver.Sockets.MessageFrames

/-!
# Alignment of the frames

A router and any number of dealers.  ZeroMQ delivers whole messages, those of one peer in the
order in which they were sent, puts the routing id of the sender before the frames of a
message at the router, and takes the routing id of the receiver off the messages of the
router.  Everything interleaves: calls of `send` and of `receive` on all sockets, arrivals,
and the notifications that a peer is there or gone.

Beside the frames the state keeps the messages themselves, as the callers of `send` see
them.  `framing_aligned` says that the callers of `receive` see the same.
-/

namespace Metasolver

open Exec Framing

/-- A message as the caller of `dealer_socket` sees it. -/
abbrev PeerMessage := MsgType × Bytes

/-- A message as the caller of `router_socket` sees it. -/
abbrev RouterMessage := Bytes × MsgType × Bytes

/-- The messages that have been sent to or by one peer, and how far they are. -/
structure PeerSocket where
  out : Outgoing
  /-- The messages whose frames are in `out`. -/
  posted : List PeerMessage
  /-- The frames from the router that have not arrived. -/
  pipe : List (List Bytes)
  /-- The messages whose frames are in `pipe`. -/
  routed : List PeerMessage
  arrived : Channel Bytes PeerMessage

structure Wire where
  peer : Bytes → PeerSocket
  out : Outgoing
  arrived : Channel Bytes RouterMessage

inductive WireEvent where
  /-- A peer calls `dealer_socket::send`. -/
  | dealerSend (peer : Bytes) (type : MsgType) (serialized : Bytes)
  /-- The oldest message of a peer arrives at the router. -/
  | arriveAtRouter (peer : Bytes)
  /-- The connection to a peer is made: ZeroMQ delivers its hello message. -/
  | hello (peer : Bytes)
  /-- The connection to a peer is lost: ZeroMQ delivers the disconnect message. -/
  | disconnect (peer : Bytes)
  /-- A call of `router_socket::receive`. -/
  | routerReceive
  /-- A call of `router_socket::send`. -/
  | routerSend (peer : Bytes) (type : MsgType) (serialized : Bytes)
  /-- The oldest message for a peer arrives there. -/
  | arriveAtPeer (peer : Bytes)
  /-- A peer calls `dealer_socket::receive`. -/
  | dealerReceive (peer : Bytes)

/-- What a call on a socket returns, if it does, and the frames it leaves. -/
def returned {α : Type} (call : SocketM α) (frames : List Bytes) : Option (α × List Bytes) :=
  match call.run frames with
  | .ok a rest => some (a, rest)
  | .error _ _ => none

namespace PeerSocket

def start : PeerSocket := ⟨.empty, [], [], [], .empty⟩

def send (p : PeerSocket) (type : MsgType) (serialized : Bytes) : PeerSocket :=
  { p with
    out := DealerSocket.send p.out type serialized
    posted := p.posted ++ [(type, serialized)] }

/-- The frames of a message for this peer. -/
def route (p : PeerSocket) (frames : List Bytes) (m : PeerMessage) : PeerSocket :=
  { p with pipe := p.pipe ++ [frames], routed := p.routed ++ [m] }

def arrive (p : PeerSocket) : Option PeerSocket :=
  match p.pipe, p.routed with
  | frames :: pipe, m :: routed => some { p with pipe, routed, arrived := p.arrived.push frames m }
  | _, _ => none

def receive (p : PeerSocket) : Option PeerSocket :=
  (p.arrived.pull (returned DealerSocket.receive)).map fun arrived => { p with arrived }

/-- Every message that the router has sent to this peer, oldest first. -/
def sentTo (p : PeerSocket) : List PeerMessage := p.arrived.put ++ p.routed

end PeerSocket

namespace Wire

def start : Wire := ⟨fun _ => .start, .empty, .empty⟩

def setPeer (s : Wire) (peer : Bytes) (p : PeerSocket) : Wire :=
  { s with peer := Function.update s.peer peer p }

/-- The frame that ZeroMQ delivers for a peer: the `int` set with `hello_msg` or
    `disconnect_msg` (`distributed_worker.cpp:262-264`, `distributed_controller.cpp:204-206`). -/
def notify (s : Wire) (peer : Bytes) (type : MsgType) : Wire :=
  { s with arrived := s.arrived.push [peer, intBytes type.toInt] (peer, type, []) }

/-- The whole messages of the router go to the peers their first frames name. -/
def routeAll (s : Wire) (m : PeerMessage) : List (List Bytes) → Wire
  | [] => s
  | [] :: messages => routeAll s m messages
  | (peer :: frames) :: messages =>
      routeAll (s.setPeer peer ((s.peer peer).route frames m)) m messages

def step (s : Wire) : WireEvent → Option Wire
  | .dealerSend peer type serialized =>
      some (s.setPeer peer ((s.peer peer).send type serialized))
  | .arriveAtRouter peer =>
      let p := s.peer peer
      match p.out.messages, p.posted with
      | frames :: messages, m :: posted =>
          some { s.setPeer peer { p with out := { p.out with messages }, posted } with
            arrived := s.arrived.push (peer :: frames) (peer, m) }
      | _, _ => none
  | .hello peer => some (s.notify peer .workerJoin)
  | .disconnect peer => some (s.notify peer .workerLeave)
  | .routerReceive =>
      (s.arrived.pull (returned RouterSocket.receive)).map fun arrived => { s with arrived }
  | .routerSend peer type serialized =>
      let out := RouterSocket.send s.out peer type serialized
      some ({ s with out := { out with messages := [] } }.routeAll (type, serialized) out.messages)
  | .arriveAtPeer peer => (s.peer peer).arrive.map fun p => s.setPeer peer p
  | .dealerReceive peer => (s.peer peer).receive.map fun p => s.setPeer peer p

end Wire

/-- The types with which the program calls `dealer_socket::send`. -/
def WireEvent.Framed : WireEvent → Prop
  | .dealerSend _ type _ =>
      type = .allocateWork ∨ type = .workResults ∨ type = .getDll ∨ type = .dllBinary
  | _ => True

instance (e : WireEvent) : Decidable e.Framed := by
  unfold WireEvent.Framed
  split <;> infer_instance

/-- What an event sends to a peer. -/
def WireEvent.sentTo (peer : Bytes) : WireEvent → Option PeerMessage
  | .routerSend receiver type serialized =>
      if receiver = peer then some (type, serialized) else none
  | _ => none

/-- What an event sends from a peer. -/
def WireEvent.sentBy (peer : Bytes) : WireEvent → Option PeerMessage
  | .dealerSend sender type serialized =>
      if sender = peer then some (type, serialized) else none
  | _ => none

/-- A message at the router that a peer has sent, and not ZeroMQ for it. -/
def fromPeer (peer : Bytes) (m : RouterMessage) : Option PeerMessage :=
  if m.1 = peer ∧ ¬m.2.1.Notifies then some m.2 else none

/-! ## The formats -/

/-- The frames of a message of the router at the peer, and of a peer before it arrives. -/
def dealerFrames (m : PeerMessage) : List Bytes := [intBytes m.1.toInt, m.2]

/-- The frames of a message at the router. -/
def routerFrames (m : RouterMessage) : List Bytes :=
  if m.2.1.Notifies then [m.1, intBytes m.2.1.toInt] else m.1 :: dealerFrames m.2

def dealerFormat : Format Bytes PeerMessage where
  write := dealerFrames
  read := returned DealerSocket.receive
  Fits _ := True
  read_write m rest _ := by
    obtain ⟨type, payload⟩ := m
    have run : DealerSocket.receive.run (dealerFrames (type, payload) ++ rest) =
        .ok (type, payload) rest := DealerSocket.receive_run
    rw [returned, run]
  read_nil := rfl

def routerFormat : Format Bytes RouterMessage where
  write := routerFrames
  read := returned RouterSocket.receive
  Fits m := m.2.1.Notifies → m.2.2 = []
  read_write m rest fits := by
    obtain ⟨identity, type, payload⟩ := m
    by_cases notifies : type.Notifies
    · obtain rfl : payload = [] := fits notifies
      have run : RouterSocket.receive.run ([identity, intBytes type.toInt] ++ rest) =
          .ok (identity, type, []) rest := RouterSocket.receive_run_notification notifies
      rw [routerFrames, if_pos notifies, returned, run]
    · have run : RouterSocket.receive.run (identity :: dealerFrames (type, payload) ++ rest) =
          .ok (identity, type, payload) rest := RouterSocket.receive_run notifies
      rw [routerFrames, if_neg notifies, returned, run]
  read_nil := rfl

theorem run_of_returned {α : Type} {call : SocketM α} {frames rest : List Bytes} {a : α}
    (h : returned call frames = some (a, rest)) : call.run frames = .ok a rest := by
  rw [returned] at h
  split at h
  case h_1 b later run =>
    cases h
    exact run
  case h_2 => cases h

/-! ## One step -/

/-- No message has been begun, and each whole one has its frames where it is. -/
structure PeerSocket.Sound (p : PeerSocket) : Prop where
  out : p.out = ⟨[], p.posted.map dealerFrames⟩
  carries : ∀ m ∈ p.posted, ¬m.1.Notifies
  pipe : p.pipe = p.routed.map dealerFrames
  aligned : p.arrived.Aligned dealerFormat

structure Wire.Sound (s : Wire) : Prop where
  peer : ∀ peer, (s.peer peer).Sound
  out : s.out = .empty
  aligned : s.arrived.Aligned routerFormat

theorem Wire.sound_start : Wire.start.Sound where
  peer _ := ⟨rfl, fun _ member => absurd member List.not_mem_nil, rfl, Channel.aligned_empty⟩
  out := rfl
  aligned := Channel.aligned_empty

namespace PeerSocket

variable {p q : PeerSocket} {type : MsgType} {serialized : Bytes} {m : PeerMessage}

theorem Sound.send (sound : p.Sound) (carries : ¬type.Notifies) :
    (p.send type serialized).Sound where
  out := by
    rw [PeerSocket.send, sound.out, List.map_append]
    rfl
  carries n member := by
    rcases List.mem_append.mp member with old | new
    · exact sound.carries n old
    · rw [List.mem_singleton.mp new]
      exact carries
  pipe := sound.pipe
  aligned := sound.aligned

theorem Sound.route (sound : p.Sound) : (p.route (dealerFrames m) m).Sound where
  out := sound.out
  carries := sound.carries
  pipe := by
    rw [PeerSocket.route, sound.pipe, List.map_append]
    rfl
  aligned := sound.aligned

theorem Sound.arrive (sound : p.Sound) (h : p.arrive = some q) :
    q.Sound ∧ q.sentTo = p.sentTo ∧ q.posted = p.posted := by
  have pipe := sound.pipe
  rw [PeerSocket.arrive] at h
  split at h
  case h_1 frames pipe' m routed hp hr =>
    rw [hp, hr, List.map_cons] at pipe
    obtain ⟨rfl, rest⟩ := List.cons.inj pipe
    obtain rfl := Option.some.inj h
    refine ⟨⟨sound.out, sound.carries, rest, ?_⟩, ?_, rfl⟩
    · have fits : dealerFormat.Fits m := trivial
      exact sound.aligned.push fits
    · rw [sentTo, sentTo, hr]
      exact List.append_assoc _ _ _
  case h_2 => cases h

theorem Sound.receive (sound : p.Sound) (h : p.receive = some q) :
    q.Sound ∧ q.sentTo = p.sentTo ∧ q.posted = p.posted := by
  obtain ⟨arrived, pulled, rfl⟩ := Option.map_eq_some_iff.mp h
  obtain ⟨aligned, put, -⟩ := sound.aligned.pull pulled
  refine ⟨⟨sound.out, sound.carries, sound.pipe, aligned⟩, ?_, rfl⟩
  rw [sentTo, sentTo, put]

end PeerSocket

namespace Wire

variable {s t : Wire} {e : WireEvent} {peer other : Bytes} {p : PeerSocket}

theorem peer_setPeer : (s.setPeer peer p).peer other = if other = peer then p else s.peer other :=
  Function.update_apply s.peer peer p other

theorem Sound.setPeer (sound : s.Sound) (h : p.Sound) : (s.setPeer peer p).Sound where
  peer other := by
    rw [peer_setPeer]
    split_ifs
    · exact h
    · exact sound.peer other
  out := sound.out
  aligned := sound.aligned

theorem Sound.notify (sound : s.Sound) {type : MsgType} (notifies : type.Notifies) :
    (s.notify peer type).Sound where
  peer := sound.peer
  out := sound.out
  aligned := by
    have frames : routerFormat.write (peer, type, []) = [peer, intBytes type.toInt] :=
      if_pos notifies
    rw [Wire.notify, ← frames]
    exact sound.aligned.push fun _ => rfl

/-- A call of `router_socket::send` puts one message into the pipe of its peer. -/
theorem step_routerSend (sound : s.Sound) (type : MsgType) (serialized : Bytes) :
    s.step (.routerSend peer type serialized) = some (s.setPeer peer
      ((s.peer peer).route (dealerFrames (type, serialized)) (type, serialized))) := by
  obtain ⟨peers, out, arrived⟩ := s
  obtain rfl : out = .empty := sound.out
  rfl

/-- What the events do to the messages that are on their way to the router. -/
theorem step_arriveAtRouter (sound : s.Sound) (h : s.step (.arriveAtRouter peer) = some t) :
    ∃ m posted, (s.peer peer).posted = m :: posted ∧ ¬m.1.Notifies ∧
      t = { s.setPeer peer { s.peer peer with out := ⟨[], posted.map dealerFrames⟩, posted } with
        arrived := s.arrived.push (routerFrames (peer, m)) (peer, m) } := by
  have out := (sound.peer peer).out
  rw [step] at h
  split at h
  case h_1 frames messages m posted hm hp =>
    have carries := (sound.peer peer).carries m (hp ▸ List.mem_cons_self)
    rw [out, hp, List.map_cons] at hm
    obtain ⟨rfl, rfl⟩ := List.cons.inj hm
    refine ⟨m, posted, hp, carries, ?_⟩
    rw [← Option.some.inj h, routerFrames, if_neg carries, out]
  case h_2 => cases h

theorem Sound.step (sound : s.Sound) (framed : e.Framed) (h : s.step e = some t) : t.Sound := by
  cases e with
  | dealerSend peer type serialized =>
      obtain rfl := Option.some.inj h
      refine sound.setPeer ((sound.peer peer).send ?_)
      rcases framed with rfl | rfl | rfl | rfl
      all_goals decide
  | arriveAtRouter peer =>
      obtain ⟨m, posted, hp, carries, rfl⟩ := step_arriveAtRouter sound h
      have before := sound.peer peer
      have after : PeerSocket.Sound
          { s.peer peer with out := ⟨[], posted.map dealerFrames⟩, posted } :=
        ⟨rfl, fun n member => before.carries n (hp ▸ List.mem_cons_of_mem m member), before.pipe,
          before.aligned⟩
      have set : (s.setPeer peer _).Sound := sound.setPeer after
      have fits : routerFormat.Fits (peer, m) := fun notifies => absurd notifies carries
      exact ⟨set.peer, set.out, sound.aligned.push fits⟩
  | hello peer =>
      obtain rfl := Option.some.inj h
      exact sound.notify (Or.inl rfl)
  | disconnect peer =>
      obtain rfl := Option.some.inj h
      exact sound.notify (Or.inr rfl)
  | routerReceive =>
      obtain ⟨arrived, pulled, rfl⟩ := Option.map_eq_some_iff.mp h
      exact ⟨sound.peer, sound.out, (sound.aligned.pull pulled).1⟩
  | routerSend peer type serialized =>
      rw [step_routerSend sound] at h
      obtain rfl := Option.some.inj h
      exact sound.setPeer (sound.peer peer).route
  | arriveAtPeer peer =>
      obtain ⟨p, arrives, rfl⟩ := Option.map_eq_some_iff.mp h
      exact sound.setPeer ((sound.peer peer).arrive arrives).1
  | dealerReceive peer =>
      obtain ⟨p, receives, rfl⟩ := Option.map_eq_some_iff.mp h
      exact sound.setPeer ((sound.peer peer).receive receives).1

/-- The messages of a peer that the router has, and those that have not arrived. -/
def sentBy (s : Wire) (peer : Bytes) : List PeerMessage :=
  s.arrived.put.filterMap (fromPeer peer) ++ (s.peer peer).posted

/-- A step of one peer that sends it nothing leaves the messages to all peers as they are. -/
theorem sentTo_setPeer (h : p.sentTo = (s.peer other).sentTo) :
    ((s.setPeer other p).peer peer).sentTo = (s.peer peer).sentTo := by
  rw [peer_setPeer]
  split_ifs with same
  · rw [same]
    exact h
  · rfl

/-- A step of one peer that sends nothing from it leaves the messages of all peers as they
    are. -/
theorem sentBy_setPeer (h : p.posted = (s.peer other).posted) :
    (s.setPeer other p).sentBy peer = s.sentBy peer := by
  rw [sentBy, sentBy, peer_setPeer]
  split_ifs with same
  · rw [same, h]
    rfl
  · rfl

theorem sentTo_step (sound : s.Sound) (h : s.step e = some t) :
    (t.peer peer).sentTo = (s.peer peer).sentTo ++ (e.sentTo peer).toList := by
  have quiet : e.sentTo peer = none → (t.peer peer).sentTo = (s.peer peer).sentTo →
      (t.peer peer).sentTo = (s.peer peer).sentTo ++ (e.sentTo peer).toList := by
    intro nothing same
    rw [nothing, same]
    exact (List.append_nil _).symm
  cases e with
  | dealerSend sender type serialized =>
      obtain rfl := Option.some.inj h
      exact quiet rfl (sentTo_setPeer rfl)
  | arriveAtRouter sender =>
      obtain ⟨m, posted, -, -, rfl⟩ := step_arriveAtRouter sound h
      have same : ((s.setPeer sender { s.peer sender with
          out := ⟨[], posted.map dealerFrames⟩, posted }).peer peer).sentTo =
            (s.peer peer).sentTo := sentTo_setPeer rfl
      exact quiet rfl same
  | hello sender =>
      obtain rfl := Option.some.inj h
      exact quiet rfl rfl
  | disconnect sender =>
      obtain rfl := Option.some.inj h
      exact quiet rfl rfl
  | routerReceive =>
      obtain ⟨arrived, pulled, rfl⟩ := Option.map_eq_some_iff.mp h
      exact quiet rfl rfl
  | routerSend receiver type serialized =>
      rw [step_routerSend sound] at h
      obtain rfl := Option.some.inj h
      rw [peer_setPeer, WireEvent.sentTo]
      by_cases same : peer = receiver
      · rw [if_pos same, if_pos same.symm, same]
        exact (List.append_assoc _ _ _).symm
      · rw [if_neg same, if_neg (Ne.symm same)]
        exact (List.append_nil _).symm
  | arriveAtPeer receiver =>
      obtain ⟨p, arrives, rfl⟩ := Option.map_eq_some_iff.mp h
      exact quiet rfl (sentTo_setPeer ((sound.peer receiver).arrive arrives).2.1)
  | dealerReceive receiver =>
      obtain ⟨p, receives, rfl⟩ := Option.map_eq_some_iff.mp h
      exact quiet rfl (sentTo_setPeer ((sound.peer receiver).receive receives).2.1)

/-- A notification is not a message of the peer. -/
theorem sentBy_notify {type : MsgType} (notifies : type.Notifies) :
    (s.notify other type).sentBy peer = s.sentBy peer := by
  have nothing : fromPeer peer (other, type, []) = none :=
    if_neg fun both => both.2 notifies
  rw [sentBy, sentBy, notify, Channel.push, List.filterMap_append,
    List.filterMap_cons_none nothing, List.filterMap_nil, List.append_nil]

/-- A message that arrives has been sent before. -/
theorem sentBy_arriveAtRouter (sound : s.Sound) (h : s.step (.arriveAtRouter other) = some t) :
    t.sentBy peer = s.sentBy peer := by
  obtain ⟨m, posted, hp, carries, rfl⟩ := step_arriveAtRouter sound h
  rw [sentBy, sentBy, Channel.push, List.filterMap_append, List.append_assoc]
  refine congrArg _ ?_
  have peers : (s.setPeer other
      { s.peer other with out := ⟨[], posted.map dealerFrames⟩, posted }).peer peer = _ :=
    peer_setPeer
  by_cases same : peer = other
  · have own : fromPeer peer (other, m) = some m := if_pos ⟨same.symm, carries⟩
    rw [peers, if_pos same, List.filterMap_cons_some own, same, hp]
    rfl
  · have others : fromPeer peer (other, m) = none := if_neg fun both => same both.1.symm
    rw [peers, if_neg same, List.filterMap_cons_none others]
    rfl

theorem sentBy_step (sound : s.Sound) (h : s.step e = some t) :
    t.sentBy peer = s.sentBy peer ++ (e.sentBy peer).toList := by
  have quiet : e.sentBy peer = none → t.sentBy peer = s.sentBy peer →
      t.sentBy peer = s.sentBy peer ++ (e.sentBy peer).toList := by
    intro nothing same
    rw [nothing, same]
    exact (List.append_nil _).symm
  cases e with
  | dealerSend sender type serialized =>
      obtain rfl := Option.some.inj h
      rw [sentBy, sentBy, peer_setPeer, WireEvent.sentBy, List.append_assoc]
      by_cases same : peer = sender
      · rw [if_pos same, if_pos same.symm, same]
        rfl
      · rw [if_neg same, if_neg (Ne.symm same)]
        exact congrArg _ (List.append_nil _).symm
  | arriveAtRouter sender =>
      exact quiet rfl (sentBy_arriveAtRouter sound h)
  | hello sender =>
      obtain rfl := Option.some.inj h
      exact quiet rfl (sentBy_notify (Or.inl rfl))
  | disconnect sender =>
      obtain rfl := Option.some.inj h
      exact quiet rfl (sentBy_notify (Or.inr rfl))
  | routerReceive =>
      obtain ⟨arrived, pulled, rfl⟩ := Option.map_eq_some_iff.mp h
      refine quiet rfl ?_
      rw [sentBy, (sound.aligned.pull pulled).2.1]
      rfl
  | routerSend receiver type serialized =>
      rw [step_routerSend sound] at h
      obtain rfl := Option.some.inj h
      exact quiet rfl (sentBy_setPeer rfl)
  | arriveAtPeer receiver =>
      obtain ⟨p, arrives, rfl⟩ := Option.map_eq_some_iff.mp h
      exact quiet rfl (sentBy_setPeer ((sound.peer receiver).arrive arrives).2.2)
  | dealerReceive receiver =>
      obtain ⟨p, receives, rfl⟩ := Option.map_eq_some_iff.mp h
      exact quiet rfl (sentBy_setPeer ((sound.peer receiver).receive receives).2.2)

end Wire

/-- However sending, arriving and receiving interleave: the calls of `router_socket::receive`
    have returned the messages that arrived first, in order, and have left exactly the frames
    of the others; the messages of each peer arrive in the order in which it has sent them;
    and each peer has got from `dealer_socket::receive` what the router has sent to it first,
    in order and unchanged. -/
theorem framing_aligned (es : List WireEvent) (s : Wire) (framed : ∀ e ∈ es, e.Framed)
    (run : exec Wire.step Wire.start es = some s) :
    (∃ waiting, s.arrived.put = s.arrived.got ++ waiting ∧
      s.arrived.queue = waiting.flatMap routerFrames ∧
      ∀ m rest, waiting = m :: rest →
        RouterSocket.receive.run s.arrived.queue = .ok m (rest.flatMap routerFrames)) ∧
    ∀ peer,
      es.filterMap (WireEvent.sentBy peer) =
        s.arrived.put.filterMap (fromPeer peer) ++ (s.peer peer).posted ∧
      ∃ waiting, es.filterMap (WireEvent.sentTo peer) =
          (s.peer peer).arrived.got ++ waiting ++ (s.peer peer).routed ∧
        (s.peer peer).arrived.queue = waiting.flatMap dealerFrames ∧
        ∀ m rest, waiting = m :: rest →
          DealerSocket.receive.run (s.peer peer).arrived.queue =
            .ok m (rest.flatMap dealerFrames) := by
  have guarded : Along Wire.step (fun _ e => e.Framed) Wire.start es :=
    along_mono (fun _ e member => framed e member) (along_mem es)
  have sound : s.Sound :=
    exec_invariant (fun s e t sound framed step => Wire.Sound.step sound framed step)
      Wire.sound_start guarded run
  obtain ⟨waiting, waits⟩ := sound.aligned
  refine ⟨⟨waiting, waits.1, waits.2.1, fun m rest first => ?_⟩, fun peer => ⟨?_, ?_⟩⟩
  · rw [first] at waits
    exact run_of_returned waits.read
  · have records : ∀ s e t, Wire.Sound s → e.Framed → Wire.step s e = some t →
        t.Sound ∧ t.sentBy peer = s.sentBy peer ++ (e.sentBy peer).toList :=
      fun s e t sound framed step => ⟨sound.step framed step, Wire.sentBy_step sound step⟩
    exact (exec_history (f := fun s => s.sentBy peer) records Wire.sound_start guarded run).symm
  · have records : ∀ s e t, Wire.Sound s → e.Framed → Wire.step s e = some t →
        t.Sound ∧ (t.peer peer).sentTo = (s.peer peer).sentTo ++ (e.sentTo peer).toList :=
      fun s e t sound framed step => ⟨sound.step framed step, Wire.sentTo_step sound step⟩
    have history := exec_history (f := fun s => (s.peer peer).sentTo) records Wire.sound_start
      guarded run
    obtain ⟨waiting, put, queue, fits⟩ := (sound.peer peer).aligned
    have sent : es.filterMap (WireEvent.sentTo peer) = (s.peer peer).sentTo := history.symm
    refine ⟨waiting, ?_, queue, fun m rest first => ?_⟩
    · rw [sent, PeerSocket.sentTo, put]
    · rw [first] at put queue fits
      have waits : Channel.Waiting dealerFormat (s.peer peer).arrived (m :: rest) :=
        ⟨put, queue, fits⟩
      exact run_of_returned waits.read

/-- Two workers: one joins, returns empty results and is lost while the other asks for a
    library and is sent work. -/
def twoPeers : List WireEvent :=
  [.hello [97], .dealerSend [97] .workResults [], .hello [98], .dealerSend [98] .getDll [7],
    .arriveAtRouter [98], .routerReceive, .arriveAtRouter [97], .disconnect [97], .routerReceive,
    .routerReceive, .routerSend [98] .allocateWork [1, 2], .routerReceive, .arriveAtPeer [98],
    .dealerReceive [98], .routerReceive]

theorem framing_aligned_two_peers :
    ∃ s, exec Wire.step Wire.start twoPeers = some s ∧
      s.arrived.got = [([97], .workerJoin, []), ([98], .workerJoin, []), ([98], .getDll, [7]),
        ([97], .workResults, []), ([97], .workerLeave, [])] ∧
      twoPeers.filterMap (WireEvent.sentBy [98]) =
        s.arrived.put.filterMap (fromPeer [98]) ++ (s.peer [98]).posted :=
  ⟨_, rfl, rfl, ((framing_aligned twoPeers _ (by decide) rfl).2 [98]).1⟩

end Metasolver
