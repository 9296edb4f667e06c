import Metasolver.Discovery.Copies
import Metasolver.Discovery.Process

/-!
# Each wrapper has a UDP of its own

pagmo copies problems by value, so wrappers are copied all the time.  Whatever is
constructed, copied, assigned, serialized and deserialized, and whatever throws meanwhile,
no two wrappers share a UDP (`wrappers_unshared`).
-/

namespace Metasolver

open Exec Effects

variable {Params Obj β : Type} {sha256 : Bytes → String} {env : Outside Params Obj}
  {toArchive : Obj → Except Exn β}

namespace Memory

variable {m t : Memory Obj} {this other : WrapperId} {p : UdpPtr}

/-- Pointers point to UDPs that have been made, and no two wrappers have the same. -/
structure Unshared (m : Memory Obj) : Prop where
  made : ∀ i k, (m.wrappers i).udpPtr = some k → k < m.udps.length
  own : ∀ i j k, (m.wrappers i).udpPtr = some k → (m.wrappers j).udpPtr = some k → i = j

/-- A pointer that no wrapper has. -/
structure Free (m : Memory Obj) (p : UdpPtr) : Prop where
  made : ∀ k, p = some k → k < m.udps.length
  free : ∀ i k, p = some k → (m.wrappers i).udpPtr ≠ some k

/-- The changes of the memory: a wrapper gets no pointer but a free one. -/
inductive Change (m : Memory Obj) : Memory Obj → Prop where
  | called (registry : Registry) : Change m { m with registry }
  | made (udp : UdpBase Obj) : Change m { m with udps := m.udps ++ [udp] }
  | kept (this : WrapperId) (w : UdpDllWrapper) (same : w.udpPtr = (m.wrappers this).udpPtr) :
      Change m (m.setWrapper this w)
  | pointed (this : WrapperId) (w : UdpDllWrapper) (free : m.Free w.udpPtr) :
      Change m (m.setWrapper this w)

theorem free_null : m.Free none := ⟨nofun, nofun⟩

theorem Unshared.change (unshared : m.Unshared) (change : Change m t) : t.Unshared := by
  cases change with
  | called registry => exact ⟨unshared.made, unshared.own⟩
  | made udp =>
      refine ⟨fun i k points => ?_, unshared.own⟩
      have below := unshared.made i k points
      rw [List.length_append]
      omega
  | kept this w same =>
      have pointer (i : WrapperId) :
          ((m.setWrapper this w).wrappers i).udpPtr = (m.wrappers i).udpPtr := by
        rw [wrappers_setWrapper]
        split_ifs with here
        · rw [here, same]
        · rfl
      refine ⟨fun i k points => ?_, fun i j k first second => ?_⟩
      · rw [pointer] at points
        exact unshared.made i k points
      · rw [pointer] at first second
        exact unshared.own i j k first second
  | pointed this w free =>
      refine ⟨fun i k points => ?_, fun i j k first second => ?_⟩
      · rw [wrappers_setWrapper] at points
        split_ifs at points with here
        · exact free.made k points
        · exact unshared.made i k points
      · rw [wrappers_setWrapper] at first second
        split_ifs at first second with left right right
        · rw [left, right]
        · exact absurd second (free.free j k first)
        · exact absurd first (free.free i k second)
        · exact unshared.own i j k first second

theorem unshared_start (registry : Registry) : (start registry : Memory Obj).Unshared :=
  ⟨nofun, nofun⟩

end Memory

namespace UdpDllWrapper

open Memory

variable {m t : Memory Obj} {this other : WrapperId} {p : UdpPtr} {w : UdpDllWrapper}

theorem acts_callRegistry {α : Type} (call : RegistryM α) :
    Acts Change (callRegistry call) m fun _ t => ∃ registry, t = { m with registry } := by
  have run := callRegistry_run call m
  cases called : call.run (m.registry.counted 0 []) with
  | ok a registry =>
      rw [called] at run
      exact Acts.of_run_ok run (.single (.called registry)) ⟨registry, rfl⟩
  | error e registry =>
      rw [called] at run
      exact Acts.of_run_error run (.single (.called registry))

theorem acts_returned {α : Type} (r : Except Exn α) :
    Acts Change (returned r : WrapperM Obj α) m fun _ t => t = m := by
  cases r with
  | ok a => exact Acts.pure rfl
  | error e => exact Acts.throw

theorem acts_deref : Acts Change (deref p : WrapperM Obj (UdpBase Obj)) m fun _ t => t = m := by
  refine Acts.get_bind ?_
  split
  · exact Acts.throw
  · exact Acts.pure rfl

/-- A UDP that has just been made is behind a free pointer. -/
theorem acts_makeShared (unshared : m.Unshared) (udp : UdpBase Obj) :
    Acts Change (makeShared udp) m fun p t => t.Unshared ∧ t.Free p := by
  have change : Change m { m with udps := m.udps ++ [udp] } := .made udp
  refine Acts.of_run_ok rfl (.single change) ⟨unshared.change change, ?_⟩
  refine ⟨fun k new => ?_, fun i k new points => ?_⟩
  · obtain rfl := Option.some.inj new
    rw [List.length_append]
    exact Nat.lt_succ_self _
  · obtain rfl := Option.some.inj new
    exact Nat.lt_irrefl _ (unshared.made i _ points)

theorem acts_cloneUdp (unshared : m.Unshared) :
    Acts Change (cloneUdp env p) m fun p t => t.Unshared ∧ t.Free p := by
  refine acts_deref.bind fun udp t same => ?_
  subst same
  refine (acts_callRegistry _).bind fun clone t called => ?_
  obtain ⟨registry, rfl⟩ := called
  exact acts_makeShared (unshared.change (.called registry)) clone

theorem acts_modifyThis_kept {f : UdpDllWrapper → UdpDllWrapper} (unshared : m.Unshared)
    (same : (f (m.wrappers this)).udpPtr = (m.wrappers this).udpPtr) :
    Acts Change (modifyThis this f) m fun _ t => t.Unshared :=
  Acts.modify (.kept this _ same) (unshared.change (.kept this _ same))

theorem acts_modifyThis_pointed {f : UdpDllWrapper → UdpDllWrapper} (unshared : m.Unshared)
    (free : m.Free (f (m.wrappers this)).udpPtr) :
    Acts Change (modifyThis this f) m fun _ t => t.Unshared :=
  Acts.modify (.pointed this _ free) (unshared.change (.pointed this _ free))

theorem acts_construct (unshared : m.Unshared) {libFileName : String} {params : Params} :
    Acts Change (construct env libFileName params) m fun w t => t.Unshared ∧ t.Free w.udpPtr := by
  refine (acts_callRegistry _).bind fun udp t called => ?_
  obtain ⟨registry, rfl⟩ := called
  exact (acts_makeShared (unshared.change (.called registry)) udp).bind fun p t made =>
    Acts.pure made

theorem acts_copyConstruct (unshared : m.Unshared) (other : UdpDllWrapper) :
    Acts Change (copyConstruct env other) m fun w t => t.Unshared ∧ t.Free w.udpPtr := by
  rw [copyConstruct]
  split
  · exact (acts_cloneUdp unshared).bind fun p t made => Acts.pure made
  · exact Acts.pure ⟨unshared, free_null⟩

theorem acts_assignFrom (unshared : m.Unshared) (other : UdpDllWrapper) :
    Acts Change (assignFrom env this other) m fun _ t => t.Unshared := by
  refine (acts_modifyThis_kept unshared rfl).bind fun _ t unshared => ?_
  refine Acts.get_bind ?_
  split
  · exact (acts_cloneUdp unshared).bind fun p t made => acts_modifyThis_pointed made.1 made.2
  · exact Acts.pure unshared

theorem acts_assign (unshared : m.Unshared) :
    Acts Change (assign env this other) m fun _ t => t.Unshared := by
  rw [assign]
  split
  · exact Acts.pure unshared
  · exact Acts.get_bind (acts_assignFrom unshared _)

theorem acts_save (unshared : m.Unshared) :
    Acts Change (save sha256 toArchive env w) m fun _ t => t.Unshared := by
  refine (acts_callRegistry _).bind fun hash t called => ?_
  obtain ⟨registry, rfl⟩ := called
  have unshared := unshared.change (.called registry)
  split
  · exact Acts.pure unshared
  · refine acts_deref.bind fun udp t same => ?_
    subst same
    refine (acts_returned _).bind fun object t same => ?_
    subst same
    exact Acts.pure unshared

theorem acts_tryLoad (unshared : m.Unshared) {ar : ArchiveReader Obj} :
    Acts Change (tryLoad sha256 env this ar) m fun _ t => t.Unshared := by
  refine (acts_returned _).bind fun libFileHash t same => ?_
  subst same
  refine (acts_modifyThis_kept unshared rfl).bind fun _ t unshared => ?_
  refine (acts_returned _).bind fun libFileName t same => ?_
  subst same
  refine (acts_modifyThis_kept unshared rfl).bind fun _ t unshared => ?_
  refine (acts_callRegistry _).bind fun _ t called => ?_
  obtain ⟨registry, rfl⟩ := called
  have unshared := unshared.change (.called registry)
  refine (acts_returned _).bind fun udp t same => ?_
  subst same
  cases udp with
  | none => exact acts_modifyThis_pointed unshared free_null
  | some object =>
      exact (acts_makeShared unshared ⟨object, none⟩).bind fun p t made =>
        acts_modifyThis_pointed made.1 made.2

theorem acts_load (unshared : m.Unshared) {ar : ArchiveReader Obj} :
    Acts Change (load sha256 env this ar) m fun _ t => t.Unshared := by
  refine (acts_tryLoad unshared).tryCatch fun f t threw => ?_
  have kept : t.Unshared := by
    have acts : Acts Change (tryLoad sha256 env this ar) m fun _ t => t.Unshared :=
      acts_tryLoad unshared
    have preserved := acts.invariant (fun _ _ change kept => kept.change change) unshared
    rwa [threw] at preserved
  cases f with
  | undefinedBehaviour => exact Acts.throw
  | exception e => exact (acts_assignFrom kept {}).bind fun _ _ _ => Acts.throw

end UdpDllWrapper

namespace Memory

variable {m t : Memory Obj} {this : WrapperId} {e : WrapperEvent Params Obj}

theorem acts_constructed {constructor : WrapperM Obj UdpDllWrapper}
    (acts : Acts Change constructor m fun w t => t.Unshared ∧ t.Free w.udpPtr) :
    Acts Change (constructed this constructor) m fun _ t => t.Unshared :=
  acts.bind fun _ _ made => UdpDllWrapper.acts_modifyThis_pointed made.1 made.2

theorem acts_perform (unshared : m.Unshared) :
    Acts Change (perform sha256 toArchive e) m fun _ t => t.Unshared := by
  cases e with
  | defaultConstruct this => exact acts_constructed (Acts.pure ⟨unshared, free_null⟩)
  | construct env this libFileName params =>
      exact acts_constructed (UdpDllWrapper.acts_construct unshared)
  | copyConstruct env this other =>
      exact Acts.get_bind (acts_constructed (UdpDllWrapper.acts_copyConstruct unshared _))
  | assign env this other => exact UdpDllWrapper.acts_assign unshared
  | save env other =>
      refine Acts.get_bind ?_
      exact (UdpDllWrapper.acts_save unshared).bind fun _ _ kept => Acts.pure kept
  | load env this ar => exact UdpDllWrapper.acts_load unshared
  | registry call =>
      refine (UdpDllWrapper.acts_callRegistry call).weaken fun _ t called => ?_
      obtain ⟨registry, rfl⟩ := called
      exact unshared.change (.called registry)

theorem Unshared.step (unshared : m.Unshared) (h : m.step sha256 toArchive e = some t) :
    t.Unshared := by
  have acts : Acts Change (perform sha256 toArchive e) m fun _ t => t.Unshared :=
    acts_perform unshared
  have kept := acts.invariant (fun _ _ change kept => kept.change change) unshared
  rw [Memory.step] at h
  cases run : (perform sha256 toArchive e).run m with
  | ok u m' =>
      rw [run] at h kept
      obtain rfl := Option.some.inj h
      exact kept
  | error f m' =>
      rw [run] at h kept
      cases f with
      | undefinedBehaviour => cases h
      | exception e =>
          obtain rfl := Option.some.inj h
          exact kept

end Memory

/-- In every history of constructions, copies, assignments, serializations and
    deserializations, with those that throw: every pointer is one of a UDP that has been
    made, and no two wrappers have the same. -/
theorem wrappers_unshared (sha256 : Bytes → String) (toArchive : Obj → Except Exn β)
    (registry : Registry) (es : List (WrapperEvent Params Obj)) (m : Memory Obj)
    (run : exec (Memory.step sha256 toArchive) (Memory.start registry) es = some m) :
    m.Unshared :=
  exec_invariant_of_step (fun _ _ _ unshared step => unshared.step step)
    (Memory.unshared_start registry) run

/-- A wrapper is copied, and a copy is assigned to a third one. -/
def copiedWrappers : List (WrapperEvent Unit Unit) :=
  [.construct (sampleOutside none) 0 "lib" (), .copyConstruct (sampleOutside none) 1 0,
    .defaultConstruct 2, .assign (sampleOutside none) 2 1]

theorem wrappers_unshared_copied :
    ∃ m, exec (Memory.step sampleSha256 (.ok : Unit → Except Exn Unit))
        (Memory.start { files := sampleFiles }) copiedWrappers = some m ∧ m.Unshared :=
  ⟨_, rfl, wrappers_unshared sampleSha256 (.ok : Unit → Except Exn Unit) { files := sampleFiles }
    copiedWrappers _ rfl⟩

end Metasolver
