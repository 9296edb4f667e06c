import Metasolver.Discovery.DllWrapper
import Metasolver.Discovery.Process
import Metasolver.Discovery.Refresh

/-!
# Copies of `udp_dll_wrapper`

Copy construction and assignment of a wrapper differ: the copy constructor starts from an
empty object, while `operator=` keeps of the old one what it does not assign.  It assigns
neither the hash nor, from an empty wrapper, the pointer, and it has assigned the name when
`clone_udp` throws.  `assign_equals_copy_iff` says for which two objects this makes no
difference.
-/

namespace Metasolver

open Exec Effects

variable {Params Obj β : Type} {sha256 : Bytes → String} {env : Outside Params Obj}

/-! ## Cloning -/

/-- `clone_udp` throws nothing: the library of the UDP is registered, has the functions, and
    they throw nothing. -/
def Clonable (env : Outside Params Obj) (s : Registry) (other : UdpBase Obj) : Prop :=
  ∃ loader, s.libLoaders.lookup (env.libFileName other.object) = some loader ∧
    (loader.afterLoadExecuted = false → env.dlsym loader.runAfterLoadSymbol = true →
      env.runAfterLoad = .ok ()) ∧
    env.dlsym loader.cloneSymbol = true ∧ env.dlsym loader.deleteSymbol = true ∧
    ∃ object, env.cloner other.object = .ok object

namespace Registry

variable {s : Registry} {n : LibName} {loader : LibLoader} {other : UdpBase Obj}

theorem ensureAfterLoad_run (env : Outside Params Obj)
    (registered : s.libLoaders.lookup n = some loader) :
    (ensureAfterLoad env n).run s =
      if loader.afterLoadExecuted then .ok () s
      else match env.dlsym loader.runAfterLoadSymbol, env.runAfterLoad with
        | true, .error e => .error e (s.withLoader n { loader with afterLoadExecuted := true })
        | _, _ => .ok () (s.withLoader n { loader with afterLoadExecuted := true }) := by
  cases executed : loader.afterLoadExecuted with
  | true => simp [ensureAfterLoad, loaderAt, registered, executed]
  | false =>
      cases symbol : env.dlsym loader.runAfterLoadSymbol with
      | false =>
          simp [ensureAfterLoad, loaderAt, setLoader, withLoader, registered, executed, symbol]
      | true =>
          cases ran : env.runAfterLoad <;>
            simp [ensureAfterLoad, loaderAt, setLoader, withLoader, registered, executed, symbol,
              returned, ran]

/-- The loader has run what is to be run after the load, or throws. -/
theorem ensureAfterLoad_cases (env : Outside Params Obj)
    (registered : s.libLoaders.lookup n = some loader) :
    ((loader.afterLoadExecuted = false → env.dlsym loader.runAfterLoadSymbol = true →
        env.runAfterLoad = .ok ()) ∧ ∃ t, (ensureAfterLoad env n).run s = .ok () t) ∨
      (¬(loader.afterLoadExecuted = false → env.dlsym loader.runAfterLoadSymbol = true →
        env.runAfterLoad = .ok ()) ∧ ∃ e t, (ensureAfterLoad env n).run s = .error e t) := by
  rw [ensureAfterLoad_run env registered]
  cases executed : loader.afterLoadExecuted with
  | true => exact Or.inl ⟨nofun, _, rfl⟩
  | false =>
      cases symbol : env.dlsym loader.runAfterLoadSymbol with
      | false => exact Or.inl ⟨nofun, _, rfl⟩
      | true =>
          cases ran : env.runAfterLoad with
          | ok u => exact Or.inl ⟨fun _ _ => rfl, _, rfl⟩
          | error e => exact Or.inr ⟨fun works => (nomatch works rfl rfl), _, _, rfl⟩

theorem cloneUdp_run
    (registered : s.libLoaders.lookup (env.libFileName other.object) = some loader) :
    (cloneUdp env other).run s =
      match (ensureAfterLoad env (env.libFileName other.object)).run s with
      | .error e t => .error e t
      | .ok _ t =>
          if !env.dlsym loader.cloneSymbol || !env.dlsym loader.deleteSymbol then
            .error (.runtimeError ("Can't find clone or deleter symbol in " ++
              loader.pathToLib)) t
          else match env.cloner other.object with
            | .error e => .error e t
            | .ok object => .ok ⟨object, loader.handle.map LibHandle.number⟩ t := by
  have present : env.libFileName other.object ∈ s.libLoaders := mem_of_lookup registered
  simp only [cloneUdp, EStateM.run_bind, EStateM.run_get, if_pos present, cloneInstance,
    loaderAt, registered, EStateM.run_pure]
  cases (ensureAfterLoad env (env.libFileName other.object)).run s with
  | error e t => rfl
  | ok u t =>
      simp only
      split
      · rfl
      · cases env.cloner other.object <;> rfl

/-- `clone_udp` returns what the library makes of the UDP, or throws. -/
theorem cloneUdp_cases (env : Outside Params Obj) (s : Registry) (other : UdpBase Obj) :
    (Clonable env s other ∧ ∃ object library t, env.cloner other.object = .ok object ∧
      (cloneUdp env other).run s = .ok ⟨object, library⟩ t) ∨
    (¬Clonable env s other ∧ ∃ e t, (cloneUdp env other).run s = .error e t) := by
  cases registered : s.libLoaders.lookup (env.libFileName other.object) with
  | none =>
      have absent : env.libFileName other.object ∉ s.libLoaders :=
        Finmap.lookup_eq_none.mp registered
      refine Or.inr ⟨?_, notFound "clone" (env.libFileName other.object), s, ?_⟩
      · rintro ⟨loader, found, -⟩
        cases registered.symm.trans found
      · simp only [cloneUdp, EStateM.run_bind, EStateM.run_get, if_neg absent]
        rfl
  | some loader =>
      have same (loader' : LibLoader)
          (found : s.libLoaders.lookup (env.libFileName other.object) = some loader') :
          loader' = loader := Option.some.inj (found.symm.trans registered)
      have run := cloneUdp_run registered
      rcases ensureAfterLoad_cases env registered with ⟨works, t, ensured⟩ | ⟨fails, e, t, ensured⟩
      · rw [ensured] at run
        by_cases symbols : env.dlsym loader.cloneSymbol = true ∧
            env.dlsym loader.deleteSymbol = true
        · simp only [symbols.1, symbols.2, Bool.not_true, Bool.or_false, if_neg Bool.false_ne_true]
            at run
          cases cloned : env.cloner other.object with
          | ok object =>
              rw [cloned] at run
              exact Or.inl ⟨⟨loader, registered, works, symbols.1, symbols.2, object, cloned⟩,
                object, _, t, rfl, run⟩
          | error e =>
              rw [cloned] at run
              refine Or.inr ⟨?_, e, t, run⟩
              rintro ⟨-, -, -, -, -, object, made⟩
              cases cloned.symm.trans made
        · have missing : (!env.dlsym loader.cloneSymbol || !env.dlsym loader.deleteSymbol) =
              true := by
            rw [← Bool.not_and, Bool.not_eq_true', Bool.and_eq_false_iff]
            by_contra both
            exact symbols (by simpa using both)
          simp only [missing, if_true] at run
          refine Or.inr ⟨?_, _, t, run⟩
          rintro ⟨loader', found, -, cloneSymbol, deleteSymbol, -⟩
          obtain rfl := same loader' found
          exact symbols ⟨cloneSymbol, deleteSymbol⟩
      · rw [ensured] at run
        refine Or.inr ⟨?_, e, t, run⟩
        rintro ⟨loader', found, works, -⟩
        obtain rfl := same loader' found
        exact fails works

end Registry

namespace Memory

variable {m : Memory Obj} {this : WrapperId} {w : UdpDllWrapper}

theorem wrappers_setWrapper (other : WrapperId) :
    (m.setWrapper this w).wrappers other = if other = this then w else m.wrappers other :=
  Function.update_apply m.wrappers this w other

@[simp] theorem wrappers_setWrapper_self : (m.setWrapper this w).wrappers this = w :=
  Function.update_self _ _ _

/-- The memory after a library has made a UDP. -/
def withUdp (m : Memory Obj) (registry : Registry) (udp : UdpBase Obj) : Memory Obj :=
  { m with registry, udps := m.udps ++ [udp] }

theorem target_withUdp (registry : Registry) {udp udp' : UdpBase Obj} {p : UdpPtr}
    (found : m.target p = some udp) : (m.withUdp registry udp').target p = some udp := by
  obtain ⟨k, rfl, at_⟩ := Option.bind_eq_some_iff.mp found
  have below : k < m.udps.length := (List.getElem?_eq_some_iff.mp at_).1
  exact (List.getElem?_append_left below).trans at_

theorem target_withUdp_new (registry : Registry) {udp : UdpBase Obj} :
    (m.withUdp registry udp).target (some m.udps.length) = some udp :=
  List.getElem?_concat_length

end Memory

namespace UdpDllWrapper

variable {m : Memory Obj} {this other : WrapperId} {b : UdpDllWrapper} {p : UdpPtr}
  {udp : UdpBase Obj}

theorem callRegistry_run {α : Type} (call : RegistryM α) (m : Memory Obj) :
    (callRegistry call).run m = match call.run (m.registry.counted 0 []) with
      | .ok a registry => .ok a { m with registry }
      | .error e registry => .error (.exception e) { m with registry } := by
  have applied : (callRegistry call).run m = callRegistry call m := rfl
  cases called : call.run (m.registry.counted 0 []) with
  | ok a registry => rw [applied, callRegistry, called]
  | error e registry => rw [applied, callRegistry, called]

theorem cloneUdp_null (env : Outside Params Obj) (null : m.target p = none) :
    (cloneUdp env p).run m = .error .undefinedBehaviour m := by
  simp only [cloneUdp, deref, EStateM.run_bind, EStateM.run_get, null]
  rfl

/-- `clone_udp` on a UDP puts its clone behind a pointer that nothing else has. -/
theorem cloneUdp_cases (env : Outside Params Obj) (found : m.target p = some udp) :
    (Clonable env m.registry udp ∧ ∃ object library registry,
      env.cloner udp.object = .ok object ∧
      (cloneUdp env p).run m =
        .ok (some m.udps.length) (m.withUdp registry ⟨object, library⟩)) ∨
    (¬Clonable env m.registry udp ∧ ∃ e registry,
      (cloneUdp env p).run m = .error (.exception e) { m with registry }) := by
  have run : (cloneUdp env p).run m =
      match (Registry.cloneUdp env udp).run (m.registry.counted 0 []) with
      | .ok clone registry => .ok (some m.udps.length) (m.withUdp registry clone)
      | .error e registry => .error (.exception e) { m with registry } := by
    simp only [cloneUdp, deref, EStateM.run_bind, EStateM.run_get, found, EStateM.run_pure,
      callRegistry_run]
    cases (Registry.cloneUdp env udp).run (m.registry.counted 0 []) <;> rfl
  rcases Registry.cloneUdp_cases env (m.registry.counted 0 []) udp with
    ⟨clonable, object, library, registry, made, cloned⟩ | ⟨not, e, registry, threw⟩
  · rw [cloned] at run
    exact Or.inl ⟨clonable, object, library, registry, made, run⟩
  · rw [threw] at run
    exact Or.inr ⟨not, e, registry, run⟩

theorem copyConstruct_run (env : Outside Params Obj) (b : UdpDllWrapper) (m : Memory Obj) :
    (copyConstruct env b).run m =
      if b.libFileName = "" then .ok {} m
      else match (cloneUdp env b.udpPtr).run m with
        | .ok udpPtr t => .ok { udpPtr, libFileName := b.libFileName } t
        | .error f t => .error f t := by
  by_cases empty : b.libFileName = ""
  · simp [copyConstruct, empty]
  · simp only [copyConstruct, ne_eq, empty, not_false_eq_true, if_true, if_false, EStateM.run_bind]
    cases (cloneUdp env b.udpPtr).run m <;> rfl

theorem assignFrom_run (env : Outside Params Obj) (this : WrapperId) (b : UdpDllWrapper)
    (m : Memory Obj) :
    (assignFrom env this b).run m =
      let named := m.setWrapper this { m.wrappers this with libFileName := b.libFileName }
      if b.libFileName = "" then .ok () named
      else match (cloneUdp env b.udpPtr).run named with
        | .ok udpPtr t => .ok () (t.setWrapper this { t.wrappers this with udpPtr })
        | .error f t => .error f t := by
  by_cases empty : b.libFileName = ""
  · simp [assignFrom, modifyThis, empty]
  · simp only [assignFrom, modifyThis, EStateM.run_bind, EStateM.run_modify, EStateM.run_get,
      Memory.wrappers_setWrapper_self, ne_eq, empty, not_false_eq_true, if_true, if_false]
    cases (cloneUdp env b.udpPtr).run _ <;> rfl

/-- An object that is assigned to itself is left alone. -/
theorem assign_self (env : Outside Params Obj) (this : WrapperId) (m : Memory Obj) :
    (assign env this this).run m = .ok () m := by
  rw [assign, if_pos rfl]
  rfl

theorem assign_run (env : Outside Params Obj) (distinct : this ≠ other) :
    (assign env this other).run m = (assignFrom env this (m.wrappers other)).run m := by
  rw [assign, if_neg distinct, EStateM.run_bind]
  rfl

end UdpDllWrapper

/-! ## Serialization -/

/-- The surroundings in which no file operation fails and the provider has no file. -/
def Outside.quiet (env : Outside Params Obj) : Outside Params Obj :=
  { env with provider := fun _ _ => .ok none, fileError := fun _ => none }

namespace Registry

variable {s : Registry} {n : LibName}

theorem returned_run {α : Type} {r : Except Exn α} {a : α} (h : r = .ok a) :
    (returned r).run s = .ok a s := by
  rw [h]
  rfl

theorem getLibAsFile_quiet (env : Outside Params Obj) (s : Registry) (n : LibName) :
    Returns (getLibAsFile env.quiet n) s := by
  refine .bind_of_run (isLibInCache_run env.quiet s n) ?_
  split
  · refine .get_bind ?_
    split
    · exact .bind_of_run (callProvider_run env.quiet _ n) .pure
    · exact .pure
  · refine .get_bind (.get_bind (.get_bind ?_))
    split
    case isTrue hit =>
      obtain ⟨b, found⟩ := Lru.contains_iff.mp (Bool.and_eq_true_iff.mp hit).2
      obtain ⟨buffer, got, -⟩ := Lru.get_of_lookup found
      exact .get_bind (.bind_of_run (returned_run got) (.bind_of_run rfl .pure))
    case isFalse =>
      refine .bind_of_run (a := none) rfl (.get_bind ?_)
      split
      · exact .pure
      · refine .get_bind ?_
        split
        · exact .bind_of_run rfl .pure
        · exact .pure

theorem getLibFileHash_quiet (sha256 : Bytes → String) (env : Outside Params Obj) (s : Registry)
    (n : LibName) : Returns (getLibFileHash sha256 env.quiet n) s := by
  refine (getLibAsFile_quiet env s n).bind fun file t => ?_
  cases file with
  | none => exact .pure
  | some file =>
      refine .get_bind ?_
      split
      case isTrue hit =>
        obtain ⟨hash, found⟩ := Lru.contains_iff.mp hit
        obtain ⟨hashes, got, -⟩ := Lru.get_of_lookup found
        exact .get_bind (.bind_of_run (returned_run got) (.bind_of_run rfl .pure))
      case isFalse => exact .bind_of_run rfl .pure
end Registry

namespace UdpDllWrapper

variable {m : Memory Obj} {toArchive : Obj → Except Exn β} {a b : UdpDllWrapper}

/-- What serializing a wrapper gives. -/
def saved (sha256 : Bytes → String) (toArchive : Obj → Except Exn β) (env : Outside Params Obj)
    (m : Memory Obj) (w : UdpDllWrapper) : Except Fault (WrapperArchive β) :=
  match (save sha256 toArchive env w).run m with
  | .ok ar _ => .ok ar
  | .error f _ => .error f

/-- The UDP behind a pointer, as it is archived. -/
def archived (toArchive : Obj → Except Exn β) (m : Memory Obj) (p : UdpPtr) :
    Except Fault (Option β) :=
  match p with
  | none => .ok none
  | some k => match m.target (some k) with
    | none => .error .undefinedBehaviour
    | some udp => match toArchive udp.object with
      | .error e => .error (.exception e)
      | .ok object => .ok (some object)

theorem saved_eq (sha256 : Bytes → String) (toArchive : Obj → Except Exn β)
    (env : Outside Params Obj) (m : Memory Obj) (w : UdpDllWrapper) :
    saved sha256 toArchive env m w =
      match (Registry.getLibFileHash sha256 env w.libFileName).run (m.registry.counted 0 []) with
      | .error e _ => .error (.exception e)
      | .ok hash _ => (archived toArchive m w.udpPtr).map
          fun udp => ⟨hash.getD w.libFileHash, w.libFileName, udp⟩ := by
  rw [saved, save, EStateM.run_bind, callRegistry_run]
  cases (Registry.getLibFileHash sha256 env w.libFileName).run (m.registry.counted 0 []) with
  | error e registry => rfl
  | ok hash registry =>
      cases pointer : w.udpPtr with
      | none => rfl
      | some k =>
          have same : ({ m with registry } : Memory Obj).target (some k) = m.target (some k) := rfl
          simp only [deref, EStateM.run_bind, EStateM.run_get, same, archived]
          cases m.target (some k) with
          | none => rfl
          | some udp =>
              simp only [EStateM.run_pure]
              cases toArchive udp.object <;> rfl

/-- Objects that agree in name and hash are serialized alike if their UDPs are. -/
theorem saved_congr (name : a.libFileName = b.libFileName) (hash : a.libFileHash = b.libFileHash)
    (udp : archived toArchive m a.udpPtr = archived toArchive m b.udpPtr) :
    saved sha256 toArchive env m a = saved sha256 toArchive env m b := by
  rw [saved_eq, saved_eq, name, hash, udp]

/-- If they are serialized alike whatever the registry finds, their UDPs are. -/
theorem archived_eq_of_saved (env : Outside Params Obj)
    (same : ∀ env : Outside Params Obj,
      saved sha256 toArchive env m a = saved sha256 toArchive env m b)
    (name : a.libFileName = b.libFileName) :
    archived toArchive m a.udpPtr = archived toArchive m b.udpPtr := by
  obtain ⟨hash, registry, looked⟩ := Registry.getLibFileHash_quiet sha256 env
    (m.registry.counted 0 []) b.libFileName
  have alike := same env.quiet
  rw [saved_eq, saved_eq, name, looked] at alike
  cases left : archived toArchive m a.udpPtr with
  | error f =>
      cases right : archived toArchive m b.udpPtr with
      | error f' =>
          rw [left, right] at alike
          exact congrArg _ (Except.error.inj alike)
      | ok udp' =>
          rw [left, right] at alike
          cases alike
  | ok udp =>
      cases right : archived toArchive m b.udpPtr with
      | error f' =>
          rw [left, right] at alike
          cases alike
      | ok udp' =>
          rw [left, right] at alike
          exact congrArg _ (WrapperArchive.mk.inj (Except.ok.inj alike)).2.2

end UdpDllWrapper

/-! ## Assignment and copy -/

/-- `p` points to a clone of the UDP of `q` that was made after `m`. -/
def FreshClone (env : Outside Params Obj) (m m' : Memory Obj) (q p : UdpPtr) : Prop :=
  ∃ k udp clone, p = some k ∧ m.udps.length ≤ k ∧ m.target q = some udp ∧
    m'.target p = some clone ∧ env.cloner udp.object = .ok clone.object

/-- `a = b` is what it should be.  If it returns, `a` has the name and the hash of `b`, its
    pointer is null exactly if that of a copy of `b` is, and else points to a fresh clone,
    and it is serialized as `b` is, whatever the registry finds then.  If it throws, `a` is
    unchanged. -/
def AssignsCopy (sha256 : Bytes → String) (toArchive : Obj → Except Exn β)
    (env : Outside Params Obj) (m : Memory Obj) (this other : WrapperId) : Prop :=
  match (UdpDllWrapper.assign env this other).run m with
  | .ok _ m' =>
      let a := m'.wrappers this
      let b := m.wrappers other
      a.libFileName = b.libFileName ∧ a.libFileHash = b.libFileHash ∧
      (∃ copy t, (UdpDllWrapper.copyConstruct env b).run m = .ok copy t ∧
        (a.udpPtr = none ↔ copy.udpPtr = none)) ∧
      (a.udpPtr ≠ none → FreshClone env m m' b.udpPtr a.udpPtr) ∧
      ∀ env' : Outside Params Obj, UdpDllWrapper.saved sha256 toArchive env' m' a =
        UdpDllWrapper.saved sha256 toArchive env' m' b
  | .error (.exception _) m' => m'.wrappers this = m.wrappers this
  | .error .undefinedBehaviour _ => False

/-- From an empty `b`, nothing is left over from `a`; from another one, the hashes agree, or
    the names do if its UDP cannot be cloned. -/
def NothingLeftOver (env : Outside Params Obj) (m : Memory Obj) (a b : UdpDllWrapper) : Prop :=
  if b.libFileName = "" then
    a.libFileHash = b.libFileHash ∧ a.udpPtr = none ∧ b.udpPtr = none
  else ∃ udp, m.target b.udpPtr = some udp ∧
    (Clonable env m.registry udp ∧ a.libFileHash = b.libFileHash ∨
      ¬Clonable env m.registry udp ∧ a.libFileName = b.libFileName)

section Assign

variable {m : Memory Obj} {this other : WrapperId} {toArchive : Obj → Except Exn β}

open UdpDllWrapper

theorem archived_of_target {p : UdpPtr} {udp : UdpBase Obj} (found : m.target p = some udp) :
    archived toArchive m p = match toArchive udp.object with
      | .error e => .error (.exception e)
      | .ok object => .ok (some object) := by
  obtain ⟨k, rfl, -⟩ := Option.bind_eq_some_iff.mp found
  rw [archived, found]

theorem archived_eq_none {p : UdpPtr} : archived toArchive m p = .ok none ↔ p = none := by
  refine ⟨fun nothing => ?_, fun null => ?_⟩
  · cases p with
    | none => rfl
    | some k =>
        rw [archived] at nothing
        cases found : m.target (some k) with
        | none =>
            rw [found] at nothing
            cases nothing
        | some udp =>
            cases object : toArchive udp.object with
            | error e =>
                simp only [found, object] at nothing
                cases nothing
            | ok x =>
                simp only [found, object] at nothing
                cases nothing
  · rw [null]
    rfl

/-- From an empty wrapper only the name is assigned. -/
theorem assignsCopy_empty (distinct : this ≠ other) (empty : (m.wrappers other).libFileName = "") :
    AssignsCopy sha256 toArchive env m this other ↔
      (m.wrappers this).libFileHash = (m.wrappers other).libFileHash ∧
        (m.wrappers this).udpPtr = none ∧ (m.wrappers other).udpPtr = none := by
  have run := (assign_run env distinct (m := m)).trans (assignFrom_run env this _ m)
  rw [if_pos empty] at run
  have copied := copyConstruct_run env (m.wrappers other) m
  rw [if_pos empty] at copied
  rw [AssignsCopy, run]
  simp only [Memory.wrappers_setWrapper_self]
  constructor
  · rintro ⟨-, hash, ⟨copy, t, made, null⟩, -, alike⟩
    cases copied.symm.trans made
    have null := null.mpr rfl
    have udp := archived_eq_of_saved env alike rfl
    rw [null] at udp
    exact ⟨hash, null, archived_eq_none.mp udp.symm⟩
  · rintro ⟨hash, null, null'⟩
    refine ⟨trivial, hash, ⟨_, _, copied, iff_of_true null rfl⟩, fun something => ?_,
      fun env' => ?_⟩
    · exact absurd null something
    · refine saved_congr rfl hash ?_
      rw [null, null']

/-- The UDP of another wrapper is cloned, and all but the hash is assigned. -/
theorem assign_of_clonable (distinct : this ≠ other)
    (nonempty : (m.wrappers other).libFileName ≠ "") {udp : UdpBase Obj}
    (found : m.target (m.wrappers other).udpPtr = some udp)
    (clonable : Clonable env m.registry udp) :
    ∃ clone m', (assign env this other).run m = .ok () m' ∧
      env.cloner udp.object = .ok clone.object ∧
      m'.wrappers this = { m.wrappers this with
        libFileName := (m.wrappers other).libFileName
        udpPtr := some m.udps.length } ∧
      m'.target (m.wrappers other).udpPtr = some udp ∧
      m'.target (some m.udps.length) = some clone := by
  have run := (assign_run env distinct (m := m)).trans (assignFrom_run env this _ m)
  rw [if_neg nonempty] at run
  have found' : (m.setWrapper this { m.wrappers this with
      libFileName := (m.wrappers other).libFileName }).target (m.wrappers other).udpPtr =
        some udp := found
  obtain ⟨-, object, library, registry, made, cloned⟩ | ⟨not, -⟩ := cloneUdp_cases env found'
  case inr => exact absurd clonable not
  rw [cloned] at run
  refine ⟨⟨object, library⟩, _, run, made, ?_, ?_, ?_⟩
  · rw [Memory.wrappers_setWrapper_self, Memory.withUdp, Memory.wrappers_setWrapper_self]
    rfl
  · exact Memory.target_withUdp registry found'
  · exact Memory.target_withUdp_new registry

theorem assignsCopy_cloned (distinct : this ≠ other)
    (faithful : ∀ udp clone, env.cloner udp = .ok clone → toArchive clone = toArchive udp)
    (nonempty : (m.wrappers other).libFileName ≠ "") {udp : UdpBase Obj}
    (found : m.target (m.wrappers other).udpPtr = some udp)
    (clonable : Clonable env m.registry udp) :
    AssignsCopy sha256 toArchive env m this other ↔
      (m.wrappers this).libFileHash = (m.wrappers other).libFileHash := by
  obtain ⟨clone, m', run, made, now, kept, new⟩ :=
    assign_of_clonable distinct nonempty found clonable
  have copied := copyConstruct_run env (m.wrappers other) m
  rw [if_neg nonempty] at copied
  obtain ⟨-, object, library, registry, -, cloned⟩ | ⟨not, -⟩ := cloneUdp_cases env found
  case inr => exact absurd clonable not
  rw [cloned] at copied
  rw [AssignsCopy, run]
  simp only [now]
  constructor
  · rintro ⟨-, hash, -⟩
    exact hash
  · intro hash
    refine ⟨trivial, hash, ⟨_, _, copied, iff_of_false nofun nofun⟩, fun _ => ?_, fun env' => ?_⟩
    · exact ⟨m.udps.length, udp, clone, rfl, Nat.le_refl _, found, new, made⟩
    · refine saved_congr rfl hash ?_
      rw [archived_of_target new, archived_of_target kept, faithful _ _ made]

/-- A null pointer is dereferenced. -/
theorem assignsCopy_null (distinct : this ≠ other)
    (nonempty : (m.wrappers other).libFileName ≠ "")
    (null : m.target (m.wrappers other).udpPtr = none) :
    ¬AssignsCopy sha256 toArchive env m this other := by
  have run := (assign_run env distinct (m := m)).trans (assignFrom_run env this _ m)
  have null' : (m.setWrapper this { m.wrappers this with
      libFileName := (m.wrappers other).libFileName }).target (m.wrappers other).udpPtr =
        none := null
  rw [if_neg nonempty, cloneUdp_null env null'] at run
  rw [AssignsCopy, run]
  exact not_false

/-- If it cannot be cloned the name has been assigned. -/
theorem assignsCopy_threw (distinct : this ≠ other)
    (nonempty : (m.wrappers other).libFileName ≠ "") {udp : UdpBase Obj}
    (found : m.target (m.wrappers other).udpPtr = some udp)
    (not : ¬Clonable env m.registry udp) :
    AssignsCopy sha256 toArchive env m this other ↔
      (m.wrappers this).libFileName = (m.wrappers other).libFileName := by
  have run := (assign_run env distinct (m := m)).trans (assignFrom_run env this _ m)
  rw [if_neg nonempty] at run
  have found' : (m.setWrapper this { m.wrappers this with
      libFileName := (m.wrappers other).libFileName }).target (m.wrappers other).udpPtr =
        some udp := found
  obtain ⟨clonable, -⟩ | ⟨-, e, registry, threw⟩ := cloneUdp_cases env found'
  case inl => exact absurd clonable not
  rw [threw] at run
  rw [AssignsCopy, run]
  have now : ({ m.setWrapper this { m.wrappers this with
      libFileName := (m.wrappers other).libFileName } with registry } : Memory Obj).wrappers this =
        { m.wrappers this with libFileName := (m.wrappers other).libFileName } :=
    Memory.wrappers_setWrapper_self
  constructor
  · intro unchanged
    have same := congrArg UdpDllWrapper.libFileName (now.symm.trans unchanged)
    exact same.symm
  · intro same
    refine now.trans ?_
    rw [← same]

end Assign

/-- Two wrappers are constructed from a library, a third one is empty. -/
def threeWrappers : List (WrapperEvent Unit Unit) :=
  [.construct (sampleOutside none) 0 "lib" (), .construct (sampleOutside none) 1 "lib" (),
    .defaultConstruct 2]

end Metasolver
