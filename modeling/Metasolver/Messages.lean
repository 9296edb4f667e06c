import Mathlib.Data.Option.Basic

/-!
# Messages between islands, controller and workers

The payloads of `MsgType.h` and the messages that carry them.  A payload is a
`std::vector<std::byte>`; the controller stores it, forwards it and hands it to
`vector_deserialize`, and looks at its bytes nowhere else, so the payload type is
a parameter `β`.  `Archive` is what the code obtains from Boost and pagmo for
such payloads: the two deserializers the controller calls, the serializer of its
reply, and the two accessors it applies to deserialized pagmo objects.

`WORKER_JOIN` and `WORKER_LEAVE` are single-frame notifications
(`router_socket.cpp:33-46`), so their constructors have no payload.
-/

namespace Metasolver

/-- Routing id of a worker (`worker_settings::workerId`). -/
abbrev WorkerId := String

/-- Routing id of an island (`distributed_island::_islandId`). -/
abbrev IslandId := String

/-- Contents of a library file. -/
abbrev Bytes := List UInt8

/-- What leaves a handler by `throw`. -/
inductive Exn where
  /-- `std::runtime_error` with its text. -/
  | runtimeError (what : String)
  /-- `std::out_of_range`, thrown by `unordered_map::at`. -/
  | outOfRange
  /-- `boost::archive::archive_exception`. -/
  | archiveException
  /-- `std::filesystem::filesystem_error`, thrown by `exists` and `remove`. -/
  | filesystemError
  /-- `std::ios_base::failure`, thrown by a stream whose exceptions are enabled. -/
  | iosFailure
  deriving DecidableEq, Repr

/-- The ways in which a handler does not end normally.  Dereferencing `end()`
    throws nothing, it is undefined. -/
inductive Fault where
  | exception (e : Exn)
  | undefinedBehaviour
  deriving DecidableEq, Repr

/-- `work_container` (`MsgType.h:22-64`). -/
structure WorkContainer (Algo Pop : Type) where
  algo : Algo
  pop : Pop
  preferredWorkerId : WorkerId := ""
  cycleCount : Nat := 1
  deriving DecidableEq, Repr

/-- `get_dll_request` (`MsgType.h:67-99`). -/
structure GetDllRequest where
  dllName : String
  deriving DecidableEq, Repr

/-- `dll_binary_container` (`MsgType.h:101-135`). -/
structure DllBinaryContainer where
  dllName : String
  dllFile : Option Bytes
  deriving DecidableEq, Repr

/-- The archive functions on payloads of type `β`, with the accessors of the
    pagmo objects they yield.  `workContainer` and `getDllRequest` are
    `vector_deserialize` (`vector_deserialize.h:12-27`), which throws on an empty
    buffer and whatever the Boost archive throws. -/
structure Archive (β Algo Pop : Type) where
  workContainer : β → Except Exn (WorkContainer Algo Pop)
  getDllRequest : β → Except Exn GetDllRequest
  dllBinaryContainer : DllBinaryContainer → β
  /-- `pagmo::algorithm::get_name`. -/
  getName : Algo → String
  /-- `pagmo::population::size`. -/
  size : Pop → Nat

/-- `vector_deserialize<work_container>` succeeds. -/
def Archive.Reads {β Algo Pop : Type} (archive : Archive β Algo Pop) (binary : β) : Prop :=
  ∃ wct, archive.workContainer binary = .ok wct

instance {β Algo Pop : Type} (archive : Archive β Algo Pop) (binary : β) :
    Decidable (archive.Reads binary) :=
  match h : archive.workContainer binary with
  | .ok wct => isTrue ⟨wct, h⟩
  | .error _ => isFalse fun ⟨_, ok⟩ => by rw [h] at ok; cases ok

/-- `vector_deserialize<get_dll_request>` succeeds. -/
def Archive.ReadsRequest {β Algo Pop : Type} (archive : Archive β Algo Pop) (binary : β) : Prop :=
  ∃ request, archive.getDllRequest binary = .ok request

instance {β Algo Pop : Type} (archive : Archive β Algo Pop) (binary : β) :
    Decidable (archive.ReadsRequest binary) :=
  match h : archive.getDllRequest binary with
  | .ok request => isTrue ⟨request, h⟩
  | .error _ => isFalse fun ⟨_, ok⟩ => by rw [h] at ok; cases ok

/-- An archived object as a payload of its own. -/
inductive PlainPayload (Algo Pop : Type) where
  | work (container : WorkContainer Algo Pop)
  | request (request : GetDllRequest)
  | reply (container : DllBinaryContainer)
  deriving DecidableEq, Repr

/-- The archive that stores objects as they are: it reads back what was written
    and throws on an object of another class. -/
def Archive.plain : Archive (PlainPayload String Nat) String Nat where
  workContainer
    | .work container => .ok container
    | _ => .error .archiveException
  getDllRequest
    | .request request => .ok request
    | _ => .error .archiveException
  dllBinaryContainer := .reply
  getName := id
  size := id

/-- What `_workersSocket.receive()` can return from one worker. -/
inductive WorkerMsg (β : Type) where
  | workerJoin
  | workerLeave
  | workResults (binary : β)
  | getDll (binary : β)
  /-- `ALLOCATE_WORK`, `DLL_BINARY` or a number outside the enumeration. -/
  | unhandled (type : Int) (binary : β)
  deriving DecidableEq, Repr

/-- What `_islandsSocket.receive()` can return from one island. -/
inductive IslandMsg (β : Type) where
  | allocateWork (binary : β)
  | unhandled (type : Int) (binary : β)
  deriving DecidableEq, Repr

/-- What the controller sends to a worker. -/
inductive ToWorkerMsg (β : Type) where
  | allocateWork (workData : β)
  | dllBinary (binary : β)
  deriving DecidableEq, Repr

/-- A message the controller hands to one of its two sockets. -/
inductive Sent (β : Type) where
  | toWorker (workerId : WorkerId) (msg : ToWorkerMsg β)
  /-- `WORK_RESULTS`, the only message an island is sent. -/
  | toIsland (islandId : IslandId) (binary : β)
  deriving DecidableEq, Repr

end Metasolver
