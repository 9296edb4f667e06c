import Metasolver.Discovery.LruCache
import Metasolver.Lib.PosixPath
import Mathlib.Logic.Function.Basic

/-!
# `udp_registry`

The registry of problem libraries (`udp_registry.cpp`) with the `lib_loader` objects it
keeps (`lib_loader.h`).  Its functions run in `RegistryM`, where an exception keeps the
changes made before it.  A call is one run of them: the public functions hold the mutex of
the registry, apart from `get_lib_file_hash`, which uses the hash cache after the inner
call has released it.

`Registry` holds the members of the class and, below them, what its calls change outside:
the files, and the libraries that have been opened and closed.  `Outside` holds what a
call finds outside: the answers of the provider, the outcomes of the file operations and
of the dynamic linker, and the functions of the library.

A library is looked for by a path, and different paths can lead to one file.  The file
buffer goes by the path, the hash cache and the loaders go by the name.  SHA-256 is a
parameter.
-/

namespace Metasolver

open PosixPath (joinPath)

/-- Name of the library of a UDP. -/
abbrev LibName := String

/-- A file, however the paths are written that lead to it. -/
abbrev FileId := String

/-- `portable_dll_extension` on Linux (`defines.h`). -/
def portableDllExtension : String := ".so"

/-- The path of a library in a directory. -/
def libPath (directory : String) (libName : LibName) : String :=
  joinPath directory (libName ++ portableDllExtension)

/-- A library as the dynamic linker has opened it: the number of the open, and the bytes
    of the file at that moment. -/
structure LibHandle where
  number : Nat
  file : Bytes
  deriving DecidableEq, Repr

/-- The data members of `lib_loader` (`lib_loader.h`). -/
structure LibLoader where
  handle : Option LibHandle := none
  pathToLib : String
  allocSymbol : String := "allocator"
  deleteSymbol : String := "deleter"
  runAfterLoadSymbol : String := "run_after_load"
  cloneSymbol : String := "cloner"
  afterLoadExecuted : Bool := false
  deriving DecidableEq, Repr

/-- `std::shared_ptr<udp_base>`: the object, and the number of the open its deleter
    belongs to.  There is none if the functions of the library were not found through an
    open handle. -/
structure UdpBase (Obj : Type) where
  object : Obj
  library : Option Nat
  deriving DecidableEq, Repr

/-- The data members of `udp_registry`, and what its calls change outside. -/
structure Registry where
  localCache : String := "."
  useInMemoryCache : Bool := true
  libFilesBuffer : Lru String Bytes := .start 5 (by decide)
  libLoaders : UnorderedMap LibName LibLoader := ∅
  /-- Whether `_udp_provider` holds a function. -/
  udpProvider : Bool := false
  hashCache : Lru LibName String := .start 50 (by decide)
  /-- The file that a path leads to. -/
  locate : String → FileId := id
  files : FileId → Option Bytes
  /-- Libraries opened so far, which numbers the opens. -/
  opened : Nat := 0
  /-- The opens that have been closed. -/
  closed : Finset Nat := ∅
  /-- File operations of the running call. -/
  fileOps : Nat := 0
  /-- Calls of the provider by the running call. -/
  asked : List LibName := []

/-- What a call of the registry finds outside it.  Calls of the provider and file operations
    are numbered within the call; a write has the number of provider calls before it. -/
structure Outside (Params Obj : Type) where
  provider : Nat → LibName → Except Exn (Option Bytes)
  fileError : Nat → Option Exn
  /-- How many bytes the read of a file gets, if it does not get all. -/
  readStops : Option Nat := none
  /-- How many bytes a write brings into the file, if not all. -/
  writeStops : Nat → Option Nat := fun _ => none
  /-- Whether the stream says that a write has failed. -/
  writeFails : Nat → Bool := fun _ => false
  dlopenFails : Bool
  /-- The library that the dynamic linker finds by itself for a path without a slash. -/
  lookedUp : Bytes := []
  dlcloseFails : Bool
  /-- `error_msg()`. -/
  errorMsg : String
  /-- Whether `portable_dlsym` finds the symbol. -/
  dlsym : String → Bool
  runAfterLoad : Except Exn Unit
  allocator : Params → Except Exn Obj
  cloner : Obj → Except Exn Obj
  /-- `get_lib_file_name` of an object. -/
  libFileName : Obj → LibName

namespace Outside

variable {Params Obj : Type}

/-- The vector of the size of the file after the read: zeros where the read did not get. -/
def readFile (env : Outside Params Obj) (file : Bytes) : Bytes :=
  match env.readStops with
  | none => file
  | some k => (file.take k).rightpad file.length 0

/-- What a write leaves in the file. -/
def written (env : Outside Params Obj) (k : Nat) (file : Bytes) : Bytes :=
  match env.writeStops k with
  | none => file
  | some j => file.take j

/-- What `dlopen` opens for a path that leads to `file`. -/
def linked (env : Outside Params Obj) (path : String) (file : Bytes) : Bytes :=
  if '/' ∈ path.toList then file else env.lookedUp

end Outside

abbrev RegistryM := EStateM Exn Registry

namespace Registry

variable {Params Obj : Type}

/-- `_get_lib_path` (`udp_registry.cpp:282-285`). -/
def getLibPath (s : Registry) (libName : LibName) : String := libPath s.localCache libName

/-- What a path leads to. -/
def fileAt (s : Registry) (path : String) : Option Bytes := s.files (s.locate path)

/-! ## Operations outside the registry -/

/-- One file operation, with its error. -/
def fileOp (env : Outside Params Obj) : RegistryM (Option Exn) :=
  modifyGet fun s => (env.fileError s.fileOps, { s with fileOps := s.fileOps + 1 })

def orThrow : Option Exn → RegistryM Unit
  | none => pure ()
  | some e => throw e

def returned {α : Type} : Except Exn α → RegistryM α
  | .ok a => pure a
  | .error e => throw e

/-- `_udp_provider(libName)`. -/
def callProvider (env : Outside Params Obj) (libName : LibName) : RegistryM (Option Bytes) := do
  let n ← modifyGet fun s => (s.asked.length, { s with asked := s.asked ++ [libName] })
  returned (env.provider n libName)

def writeFile (path : String) (file : Bytes) : RegistryM Unit :=
  modify fun s => { s with files := Function.update s.files (s.locate path) (some file) }

/-! ## `lib_loader` -/

/-- `_lib_loaders.at(libName)`. -/
def loaderAt (libName : LibName) : RegistryM LibLoader := do
  match (← get).libLoaders.lookup libName with
  | none => throw .outOfRange
  | some loader => pure loader

def setLoader (libName : LibName) (loader : LibLoader) : RegistryM Unit :=
  modify fun s => { s with libLoaders := s.libLoaders.insert libName loader }

/-- `open_lib` (`lib_loader.h:81-87`). -/
def openLib (env : Outside Params Obj) (libName : LibName) : RegistryM Unit := do
  let loader ← loaderAt libName
  match env.dlopenFails, (← get).fileAt loader.pathToLib with
  | false, some file => modify fun s => { s with
      libLoaders := s.libLoaders.insert libName
        { loader with handle := some ⟨s.opened, env.linked loader.pathToLib file⟩ }
      opened := s.opened + 1 }
  | _, _ => do
      setLoader libName { loader with handle := none }
      throw (.runtimeError env.errorMsg)

/-- `close_lib` (`lib_loader.h:152-163`). -/
def closeLib (env : Outside Params Obj) (libName : LibName) : RegistryM Unit := do
  let loader ← loaderAt libName
  match loader.handle with
  | none => pure ()
  | some handle =>
      if env.dlcloseFails then throw (.runtimeError env.errorMsg)
      modify fun s => { s with
        libLoaders := s.libLoaders.insert libName { loader with handle := none }
        closed := insert handle.number s.closed }

/-- `_ensure_after_load` (`lib_loader.h:39-56`). -/
def ensureAfterLoad (env : Outside Params Obj) (libName : LibName) : RegistryM Unit := do
  let loader ← loaderAt libName
  unless loader.afterLoadExecuted do
    setLoader libName { loader with afterLoadExecuted := true }
    if env.dlsym loader.runAfterLoadSymbol then
      returned env.runAfterLoad

/-- `get_instance` (`lib_loader.h:94-118`). -/
def getInstance (env : Outside Params Obj) (libName : LibName) (params : Params) :
    RegistryM (UdpBase Obj) := do
  let loader ← loaderAt libName
  ensureAfterLoad env libName
  if !env.dlsym loader.allocSymbol || !env.dlsym loader.deleteSymbol then
    closeLib env libName
    throw (.runtimeError ("Can't find allocator or deleter symbol in " ++ loader.pathToLib))
  let object ← returned (env.allocator params)
  return ⟨object, loader.handle.map LibHandle.number⟩

/-- `clone_instance` (`lib_loader.h:123-147`). -/
def cloneInstance (env : Outside Params Obj) (libName : LibName) (other : UdpBase Obj) :
    RegistryM (UdpBase Obj) := do
  let loader ← loaderAt libName
  ensureAfterLoad env libName
  if !env.dlsym loader.cloneSymbol || !env.dlsym loader.deleteSymbol then
    throw (.runtimeError ("Can't find clone or deleter symbol in " ++ loader.pathToLib))
  let object ← returned (env.cloner other.object)
  return ⟨object, loader.handle.map LibHandle.number⟩

/-! ## Private member functions -/

/-- `_is_lib_in_cache` (`udp_registry.cpp:277-280`). -/
def isLibInCache (env : Outside Params Obj) (libName : LibName) : RegistryM Bool := do
  orThrow (← fileOp env)
  let s ← get
  return (s.fileAt (s.getLibPath libName)).isSome

/-- `_save_lib_into_fs` (`udp_registry.cpp:249-267`). -/
def saveLibIntoFs (env : Outside Params Obj) (libName : LibName) (libFile : Bytes) :
    RegistryM Unit := do
  let libPath := (← get).getLibPath libName
  -- the directory is looked for, and made if it is missing
  orThrow (← fileOp env)
  if (← fileOp env).isSome then
    throw (.runtimeError ("Error: Failed to open file " ++ libPath))
  let k := (← get).asked.length
  -- the last bytes are written by the destructor of the stream, which reports nothing
  writeFile libPath (env.written k libFile)
  if env.writeFails k then
    throw (.runtimeError ("Error: Failed write to file " ++ libPath))

/-- `_load_lib` (`udp_registry.cpp:269-275`).  The loader is in the map before the
    library is opened. -/
def loadLib (env : Outside Params Obj) (libName : LibName) : RegistryM Unit := do
  modify fun s => { s with
    libLoaders := UnorderedMap.emplace libName { pathToLib := s.getLibPath libName } s.libLoaders }
  openLib env libName

/-- `_unload_lib` (`udp_registry.cpp:287-310`).  The destructor of the erased loader
    finds it closed. -/
def unloadLib (env : Outside Params Obj) (libName : LibName) : RegistryM Unit := do
  if libName ∈ (← get).libLoaders then
    closeLib env libName
    modify fun s => { s with libLoaders := s.libLoaders.erase libName }

/-- `_delete_lib_file` (`udp_registry.cpp:312-352`). -/
def deleteLibFile (env : Outside Params Obj) (libName : LibName) : RegistryM Unit := do
  let libPath := (← get).getLibPath libName
  if (← get).useInMemoryCache then
    modify fun s => { s with libFilesBuffer := s.libFilesBuffer.erase libPath }
  if (← get).hashCache.contains libName then
    modify fun s => { s with hashCache := s.hashCache.erase libName }
  orThrow (← fileOp env)
  if ((← get).fileAt libPath).isSome then
    orThrow (← fileOp env)
    modify fun s => { s with files := Function.update s.files (s.locate libPath) none }

/-! ## Public member functions -/

/-- `get_lib_as_file` (`udp_registry.cpp:153-223`). -/
def getLibAsFile (env : Outside Params Obj) (libName : LibName) : RegistryM (Option Bytes) := do
  if !(← isLibInCache env libName) then
    if (← get).udpProvider then
      let libFile ← callProvider env libName
      match libFile with
      | none => pure ()
      | some file => saveLibIntoFs env libName file
      return libFile
    return none
  let libPath := (← get).getLibPath libName
  if (← get).useInMemoryCache && (← get).libFilesBuffer.contains libPath then
    let (file, buffer) ← returned ((← get).libFilesBuffer.get libPath)
    modify fun s => { s with libFilesBuffer := buffer }
    return some file
  -- a file that cannot be opened is taken for a missing one, and so is one without a size
  if (← fileOp env).isSome then
    return none
  match (← get).fileAt libPath with
  | none => return none
  | some file =>
      -- whether the read has failed is not asked
      let fileContent := env.readFile file
      if (← get).useInMemoryCache then
        modify fun s => { s with libFilesBuffer := s.libFilesBuffer.put libPath fileContent }
      return some fileContent

/-- `get_lib_file_hash` (`udp_registry.cpp:225-243`) with `hash_cache`
    (`hash_cache.cpp:3-29`). -/
def getLibFileHash (sha256 : Bytes → String) (env : Outside Params Obj) (libName : LibName) :
    RegistryM (Option String) := do
  match ← getLibAsFile env libName with
  | none => return none
  | some file =>
      if (← get).hashCache.contains libName then
        let (hash, hashes) ← returned ((← get).hashCache.get libName)
        modify fun s => { s with hashCache := hashes }
        return some hash
      let hash := sha256 file
      modify fun s => { s with hashCache := s.hashCache.put libName hash }
      return some hash

def notFound (function libName : String) : Exn :=
  .runtimeError ("Error: cannot " ++ function ++ " udp: " ++ libName ++
    ", this dynamic library was not found.")

/-- The check of the file version in `initialize_udp` (`udp_registry.cpp:20-39`). -/
def checkVersion (sha256 : Bytes → String) (env : Outside Params Obj) (name : LibName)
    (libFileHash : String) : RegistryM Unit := do
  match ← getLibFileHash sha256 env name with
  | none => throw (notFound "initialize" name)
  | some hash =>
      if hash ≠ libFileHash then
        unloadLib env name
        deleteLibFile env name

/-- What `initialize_udp` and `construct_udp` do to have the library loaded
    (`udp_registry.cpp:41-67` and `77-104`). -/
def provideLib (env : Outside Params Obj) (function : String) (name : LibName) :
    RegistryM Unit := do
  if name ∈ (← get).libLoaders then
    return
  if ← isLibInCache env name then
    loadLib env name
    return
  if (← get).udpProvider then
    match ← callProvider env name with
    | none => pure ()
    | some libFile =>
        saveLibIntoFs env name libFile
        loadLib env name
        return
  throw (notFound function name)

/-- `initialize_udp` (`udp_registry.cpp:12-68`). -/
def initializeUdp (sha256 : Bytes → String) (env : Outside Params Obj) (name : LibName)
    (libFileHash : Option String) : RegistryM Unit := do
  match libFileHash with
  | none => pure ()
  | some hash => checkVersion sha256 env name hash
  provideLib env "initialize" name

/-- `construct_udp` (`udp_registry.cpp:70-105`). -/
def constructUdp (env : Outside Params Obj) (name : LibName) (params : Params) :
    RegistryM (UdpBase Obj) := do
  provideLib env "construct" name
  getInstance env name params

/-- `clone_udp` (`udp_registry.cpp:107-121`). -/
def cloneUdp (env : Outside Params Obj) (other : UdpBase Obj) : RegistryM (UdpBase Obj) := do
  let libName := env.libFileName other.object
  if libName ∈ (← get).libLoaders then
    return ← cloneInstance env libName other
  throw (notFound "clone" libName)

/-- `register_udp_provider` (`udp_registry.cpp:123-131`); the function may be empty. -/
def registerUdpProvider (providerFunc : Bool) : RegistryM Unit :=
  modify fun s => { s with udpProvider := providerFunc }

/-- `set_local_cache_dir` (`udp_registry.cpp:133-140`). -/
def setLocalCacheDir (directory : String) : RegistryM Unit :=
  modify fun s => { s with localCache := directory }

/-- `use_in_memory_cache` (`udp_registry.cpp:142-151`). -/
def setUseInMemoryCache (value : Bool) : RegistryM Unit := do
  if !value then
    modify fun s => { s with libFilesBuffer := s.libFilesBuffer.clear }
  modify fun s => { s with useInMemoryCache := value }

end Registry

end Metasolver
