import Metasolver.Messages

/-!
# Messages as frames

What `dealer_socket` and `router_socket` hand to ZeroMQ and take from it
(`dealer_socket.cpp:7-34`, `router_socket.cpp:7-47`).  A message is two or three frames,
and the router decides by the type it has read whether there is a payload: ZeroMQ's own
hello and disconnect messages have a single frame.

A `std::string` and a `std::vector<std::byte>` are both lists of bytes here.  `int` has
four bytes, the lowest first, on all hosts that take part.
-/

namespace Metasolver

/-- `MsgType` (`MsgType.h:12-20`).  Each `int` is a value of the enumeration, also those
    that no enumerator has. -/
inductive MsgType where
  | workerJoin
  | workerLeave
  | allocateWork
  | workResults
  | getDll
  | dllBinary
  | unnamed (value : Int32) (other : value ∉ [0, 1, 2, 3, 4, 5])
  deriving DecidableEq, Repr

namespace MsgType

/-- `static_cast<int>`. -/
def toInt : MsgType → Int32
  | .workerJoin => 0
  | .workerLeave => 1
  | .allocateWork => 2
  | .workResults => 3
  | .getDll => 4
  | .dllBinary => 5
  | .unnamed value _ => value

/-- `static_cast<MsgType>`. -/
def ofInt (value : Int32) : MsgType :=
  if h0 : value = 0 then .workerJoin
  else if h1 : value = 1 then .workerLeave
  else if h2 : value = 2 then .allocateWork
  else if h3 : value = 3 then .workResults
  else if h4 : value = 4 then .getDll
  else if h5 : value = 5 then .dllBinary
  else .unnamed value (by simp [h0, h1, h2, h3, h4, h5])

theorem ofInt_toInt (type : MsgType) : ofInt type.toInt = type := by
  cases type with
  | unnamed value other =>
      have all := other
      simp only [List.mem_cons, List.not_mem_nil, or_false, not_or] at all
      obtain ⟨h0, h1, h2, h3, h4, h5⟩ := all
      simp [toInt, ofInt, h0, h1, h2, h3, h4, h5]
  | _ => rfl

/-- The types of ZeroMQ's hello and disconnect messages. -/
def Notifies (type : MsgType) : Prop := type = .workerJoin ∨ type = .workerLeave

instance (type : MsgType) : Decidable type.Notifies := inferInstanceAs (Decidable (_ ∨ _))

end MsgType

/-- The four bytes of an `int`. -/
def intBytes (value : Int32) : Bytes :=
  let bits := value.toBitVec
  [⟨bits.extractLsb' 0 8⟩, ⟨bits.extractLsb' 8 8⟩, ⟨bits.extractLsb' 16 8⟩,
    ⟨bits.extractLsb' 24 8⟩]

/-- `memcpy(&type, data, sizeof(type))`, which reads past the end of a shorter frame. -/
def readInt : Bytes → Option Int32
  | b0 :: b1 :: b2 :: b3 :: _ =>
      some ⟨⟨b3.toBitVec ++ b2.toBitVec ++ b1.toBitVec ++ b0.toBitVec⟩⟩
  | _ => none

theorem extract_bytes (bits : BitVec 32) :
    (bits.extractLsb' 24 8 ++ bits.extractLsb' 16 8 ++ bits.extractLsb' 8 8 ++
      bits.extractLsb' 0 8 : BitVec 32) = bits := by
  rw [BitVec.extractLsb'_append_extractLsb'_eq_extractLsb' (by rfl),
    BitVec.extractLsb'_append_extractLsb'_eq_extractLsb' (by rfl),
    BitVec.extractLsb'_append_extractLsb'_eq_extractLsb' (by rfl)]
  exact BitVec.extractLsb'_eq_self

theorem readInt_intBytes (value : Int32) : readInt (intBytes value) = some value := by
  obtain ⟨⟨bits⟩⟩ := value
  exact congrArg (fun bits => some (Int32.ofUInt32 ⟨bits⟩)) (extract_bytes bits)

/-! ## Sending -/

/-- `zmq::send_flags`. -/
inductive SendFlags where
  | none
  | sndmore
  deriving DecidableEq, Repr

/-- A socket that sends: the frames of a message that has been begun, and the whole
    messages, oldest first. -/
structure Outgoing where
  begun : List Bytes
  messages : List (List Bytes)
  deriving DecidableEq, Repr

/-- A socket that has sent nothing. -/
def Outgoing.empty : Outgoing := ⟨[], []⟩

/-- `_socket.send(frame, flags)`: the frame without `sndmore` completes the message. -/
def Outgoing.send (socket : Outgoing) (frame : Bytes) : SendFlags → Outgoing
  | .sndmore => { socket with begun := socket.begun ++ [frame] }
  | .none => ⟨[], socket.messages ++ [socket.begun ++ [frame]]⟩

/-- `dealer_socket::send` (`dealer_socket.cpp:7-12`). -/
def DealerSocket.send (socket : Outgoing) (type : MsgType) (serialized : Bytes) : Outgoing :=
  let typeInt := type.toInt
  (socket.send (intBytes typeInt) .sndmore).send serialized .none

/-- `router_socket::send` (`router_socket.cpp:7-14`). -/
def RouterSocket.send (socket : Outgoing) (receiverId : Bytes) (type : MsgType)
    (serialized : Bytes) : Outgoing :=
  let typeInt := type.toInt
  ((socket.send receiverId .sndmore).send (intBytes typeInt) .sndmore).send serialized .none

/-! ## Receiving -/

/-- Why a call on a socket does not return: it waits for a frame, or `memcpy` reads past the
    end of one. -/
inductive Stuck where
  | waits
  | undefinedBehaviour
  deriving DecidableEq, Repr

/-- A program on the frames that have arrived at a socket, oldest first. -/
abbrev SocketM := EStateM Stuck (List Bytes)

/-- `_socket.recv(message)`. -/
def recv : SocketM Bytes := do
  match ← get with
  | [] => throw .waits
  | frame :: frames =>
      set frames
      return frame

/-- The type in a frame. -/
def readType (typeMsg : Bytes) : SocketM MsgType :=
  match readInt typeMsg with
  | none => throw .undefinedBehaviour
  | some type => return MsgType.ofInt type

/-- `dealer_socket::receive` (`dealer_socket.cpp:14-34`). -/
def DealerSocket.receive : SocketM (MsgType × Bytes) := do
  let typeMsg ← recv
  let payloadMsg ← recv
  let type ← readType typeMsg
  return (type, payloadMsg)

/-- `router_socket::receive` (`router_socket.cpp:16-47`). -/
def RouterSocket.receive : SocketM (Bytes × MsgType × Bytes) := do
  let identity ← recv
  let typeMsg ← recv
  let msgType ← readType typeMsg
  if msgType ≠ .workerJoin ∧ msgType ≠ .workerLeave then
    let payloadMsg ← recv
    return (identity, msgType, payloadMsg)
  return (identity, msgType, [])

variable {frame : Bytes} {frames : List Bytes} {type : MsgType} {payload identity : Bytes}

theorem recv_run : recv.run (frame :: frames) = .ok frame frames := rfl

theorem readType_run : (readType (intBytes type.toInt)).run frames = .ok type frames := by
  rw [readType, readInt_intBytes]
  exact congrArg (EStateM.Result.ok · frames) (MsgType.ofInt_toInt type)

theorem DealerSocket.receive_run :
    DealerSocket.receive.run (intBytes type.toInt :: payload :: frames) =
      .ok (type, payload) frames := by
  simp only [DealerSocket.receive, EStateM.run_bind, recv_run, readType_run]
  rfl

theorem RouterSocket.receive_run (carries : ¬type.Notifies) :
    RouterSocket.receive.run (identity :: intBytes type.toInt :: payload :: frames) =
      .ok (identity, type, payload) frames := by
  have both := not_or.mp carries
  simp only [RouterSocket.receive, EStateM.run_bind, recv_run, readType_run, if_pos both]
  rfl

/-- A notification ends with its type: the next frame belongs to the next message. -/
theorem RouterSocket.receive_run_notification (notifies : type.Notifies) :
    RouterSocket.receive.run (identity :: intBytes type.toInt :: frames) =
      .ok (identity, type, []) frames := by
  have neither : ¬(type ≠ .workerJoin ∧ type ≠ .workerLeave) := by
    rintro ⟨join, leave⟩
    exact notifies.elim join leave
  simp only [RouterSocket.receive, EStateM.run_bind, recv_run, readType_run, if_neg neither]
  rfl

end Metasolver
