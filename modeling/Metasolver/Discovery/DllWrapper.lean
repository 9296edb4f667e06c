import Metasolver.Discovery.Changes

/-!
# `udp_dll_wrapper`

The problem object that pagmo copies, assigns and serializes (`udp_dll_wrapper.h`,
`udp_dll_wrapper.cpp`).  A wrapper has a pointer to the UDP of its library; copies have UDPs
of their own, made by `clone_udp`.

Wrappers are objects in memory, named by a `WrapperId`: assignment compares addresses.  The
UDPs that the libraries have made are numbered, and a pointer is such a number or null.
What the class hands to Boost is three values; the archive itself is a parameter, as is the
serialization of a UDP, which is in its library.
-/

namespace Metasolver

/-- The address of a wrapper. -/
abbrev WrapperId := Nat

/-- `std::shared_ptr<udp_base>`: null, or the number of a UDP. -/
abbrev UdpPtr := Option Nat

/-- The data members of `udp_dll_wrapper`.  A default-constructed one is empty. -/
structure UdpDllWrapper where
  udpPtr : UdpPtr := none
  libFileName : String := ""
  libFileHash : String := ""
  deriving DecidableEq, Repr

/-- The registry, the UDPs made so far, and the wrappers.  An address at which nothing has
    been constructed holds an empty wrapper. -/
structure Memory (Obj : Type) where
  registry : Registry
  udps : List (UdpBase Obj) := []
  wrappers : WrapperId → UdpDllWrapper := fun _ => {}

abbrev WrapperM (Obj : Type) := EStateM Fault (Memory Obj)

/-- What the extractions from an archive give. -/
structure ArchiveReader (Obj : Type) where
  libFileHash : Except Exn String
  libFileName : Except Exn String
  udp : Except Exn (Option Obj)

/-- What is written to an archive. -/
structure WrapperArchive (β : Type) where
  libFileHash : String
  libFileName : String
  udp : Option β
  deriving DecidableEq, Repr

namespace Memory

variable {Obj : Type}

def setWrapper (m : Memory Obj) (this : WrapperId) (w : UdpDllWrapper) : Memory Obj :=
  { m with wrappers := Function.update m.wrappers this w }

/-- The UDP that a pointer points to. -/
def target (m : Memory Obj) (p : UdpPtr) : Option (UdpBase Obj) := p.bind fun k => m.udps[k]?

end Memory

namespace UdpDllWrapper

variable {Params Obj β : Type}

/-- A call of the registry of the process. -/
def callRegistry {α : Type} (call : RegistryM α) : WrapperM Obj α := fun m =>
  match call.run (m.registry.counted 0 []) with
  | .ok a registry => .ok a { m with registry }
  | .error e registry => .error (.exception e) { m with registry }

def returned {α : Type} : Except Exn α → WrapperM Obj α
  | .ok a => pure a
  | .error e => throw (.exception e)

/-- A UDP gets a `shared_ptr`. -/
def makeShared (udp : UdpBase Obj) : WrapperM Obj UdpPtr :=
  modifyGet fun m => (some m.udps.length, { m with udps := m.udps ++ [udp] })

/-- `*p`, which is undefined if `p` is null. -/
def deref (p : UdpPtr) : WrapperM Obj (UdpBase Obj) := do
  match (← get).target p with
  | none => throw .undefinedBehaviour
  | some udp => pure udp

/-- An assignment to members of `*this`. -/
def modifyThis (this : WrapperId) (f : UdpDllWrapper → UdpDllWrapper) : WrapperM Obj Unit :=
  modify fun m => m.setWrapper this (f (m.wrappers this))

/-- `udp_registry::get().clone_udp(p)` (`udp_registry.cpp:107-121`). -/
def cloneUdp (env : Outside Params Obj) (p : UdpPtr) : WrapperM Obj UdpPtr := do
  let other ← deref p
  let clone ← callRegistry (Registry.cloneUdp env other)
  makeShared clone

/-- The constructor from the name of a library (`udp_dll_wrapper.cpp:122-128`). -/
def construct (env : Outside Params Obj) (libFileName : String) (params : Params) :
    WrapperM Obj UdpDllWrapper := do
  let udp ← callRegistry (Registry.constructUdp env libFileName params)
  return { udpPtr := ← makeShared udp, libFileName }

/-- The copy constructor (`udp_dll_wrapper.cpp:135-140`). -/
def copyConstruct (env : Outside Params Obj) (other : UdpDllWrapper) :
    WrapperM Obj UdpDllWrapper := do
  let this : UdpDllWrapper := { libFileName := other.libFileName }
  if this.libFileName ≠ "" then
    return { this with udpPtr := ← cloneUdp env other.udpPtr }
  return this

/-- `operator=` from an object at another address (`udp_dll_wrapper.cpp:147-150`). -/
def assignFrom (env : Outside Params Obj) (this : WrapperId) (other : UdpDllWrapper) :
    WrapperM Obj Unit := do
  modifyThis this fun w => { w with libFileName := other.libFileName }
  if ((← get).wrappers this).libFileName ≠ "" then
    let udpPtr ← cloneUdp env other.udpPtr
    modifyThis this fun w => { w with udpPtr }

/-- `operator=` (`udp_dll_wrapper.cpp:142-153`). -/
def assign (env : Outside Params Obj) (this other : WrapperId) : WrapperM Obj Unit := do
  if this = other then
    return
  assignFrom env this ((← get).wrappers other)

/-- `save` (`udp_dll_wrapper.h:76-85`). -/
def save (sha256 : Bytes → String) (toArchive : Obj → Except Exn β) (env : Outside Params Obj)
    (w : UdpDllWrapper) : WrapperM Obj (WrapperArchive β) := do
  let hash ← callRegistry (Registry.getLibFileHash sha256 env w.libFileName)
  let libFileHash := hash.getD w.libFileHash
  match w.udpPtr with
  | none => return ⟨libFileHash, w.libFileName, none⟩
  | some k =>
      let udp ← deref (some k)
      return ⟨libFileHash, w.libFileName, some (← returned (toArchive udp.object))⟩

/-- What `load` does in its `try` block (`udp_dll_wrapper.h:92-102`).  Every `load` reads an
    archive of its own, so the UDP it extracts is one that nothing points to. -/
def tryLoad (sha256 : Bytes → String) (env : Outside Params Obj) (this : WrapperId)
    (ar : ArchiveReader Obj) : WrapperM Obj Unit := do
  let libFileHash ← returned ar.libFileHash
  modifyThis this fun w => { w with libFileHash }
  let libFileName ← returned ar.libFileName
  modifyThis this fun w => { w with libFileName }
  callRegistry (Registry.initializeUdp sha256 env libFileName (some libFileHash))
  match ← returned ar.udp with
  | none => modifyThis this fun w => { w with udpPtr := none }
  | some object =>
      let udpPtr ← makeShared ⟨object, none⟩
      modifyThis this fun w => { w with udpPtr }

/-- `load` (`udp_dll_wrapper.h:87-111`). -/
def load (sha256 : Bytes → String) (env : Outside Params Obj) (this : WrapperId)
    (ar : ArchiveReader Obj) : WrapperM Obj Unit := do
  try tryLoad sha256 env this ar
  catch
    | .undefinedBehaviour => throw .undefinedBehaviour
    | .exception e =>
        assignFrom env this {}
        throw (.exception e)

end UdpDllWrapper

/-- What can happen to wrappers.  A constructor makes the object at `this` anew. -/
inductive WrapperEvent (Params Obj : Type) where
  | defaultConstruct (this : WrapperId)
  | construct (env : Outside Params Obj) (this : WrapperId) (libFileName : String)
      (params : Params)
  | copyConstruct (env : Outside Params Obj) (this other : WrapperId)
  | assign (env : Outside Params Obj) (this other : WrapperId)
  | save (env : Outside Params Obj) (other : WrapperId)
  | load (env : Outside Params Obj) (this : WrapperId) (ar : ArchiveReader Obj)
  /-- A call of the registry by somebody else. -/
  | registry (call : RegistryM Unit)

namespace Memory

variable {Params Obj β : Type}

open UdpDllWrapper

/-- A constructor that throws has made no object. -/
def constructed (this : WrapperId) (constructor : WrapperM Obj UdpDllWrapper) :
    WrapperM Obj Unit := do
  let w ← constructor
  modifyThis this fun _ => w

def perform (sha256 : Bytes → String) (toArchive : Obj → Except Exn β) :
    WrapperEvent Params Obj → WrapperM Obj Unit
  | .defaultConstruct this => constructed this (return {})
  | .construct env this libFileName params =>
      constructed this (UdpDllWrapper.construct env libFileName params)
  | .copyConstruct env this other => do
      constructed this (UdpDllWrapper.copyConstruct env ((← get).wrappers other))
  | .assign env this other => UdpDllWrapper.assign env this other
  | .save env other => do
      discard (UdpDllWrapper.save sha256 toArchive env ((← get).wrappers other))
  | .load env this ar => UdpDllWrapper.load sha256 env this ar
  | .registry call => callRegistry call

/-- The memory after an event, also if it has thrown.  There is none after undefined
    behaviour. -/
def step (sha256 : Bytes → String) (toArchive : Obj → Except Exn β) (m : Memory Obj)
    (e : WrapperEvent Params Obj) : Option (Memory Obj) :=
  match (perform sha256 toArchive e).run m with
  | .ok _ m' => some m'
  | .error (.exception _) m' => some m'
  | .error .undefinedBehaviour _ => none

def start (registry : Registry) : Memory Obj := { registry }

end Memory

end Metasolver
