import Metasolver.Messages
import Metasolver.Settings.Journal
import Metasolver.Settings.Uuid

/-!
# The identity of a worker

A worker draws its routing id when it is constructed without a settings file
(`worker_settings::initialize`) and reads it through `_settings()` before it connects, so the
id has been saved when the controller first sees it.  All workers that are constructed on one
settings file connect under one id (`worker_identity_persists`), whenever they crash.
-/

namespace Metasolver

open Settings WriteBehind

/-- `worker_settings` (`worker_settings.h:7-28`). -/
structure WorkerSettings where
  workerId : WorkerId
  deriving DecidableEq

/-- `initialize` draws the id (`worker_settings.cpp:3-6`). -/
def WorkerSettings.struct : SettingsStruct WorkerSettings String Draws where
  default := ⟨""⟩
  initializeFields draws s := { s with workerId := "worker_" ++ (Uuid.new draws).string }
  output s := s.workerId
  input x s := { s with workerId := x }

/-- A worker changes nothing in its settings. -/
def WorkerSettings.unchanged (_ : WorkerSettings) (op : Empty) : WorkerSettings := nomatch op

/-- The settings file of worker processes, and the ids under which they have connected. -/
structure WorkerProcesses (β : Type) where
  store : Store WorkerSettings β
  ids : List WorkerId

namespace WorkerProcesses

variable {β : Type} (archive : XmlArchive String β) (settingsPath : String)

def start : WorkerProcesses β := ⟨.start, []⟩

/-- `_workerId = _settings().workerId` in the constructor (`distributed_worker.cpp:284-285`);
    if it throws, the worker does not connect. -/
def connects (s : Store WorkerSettings β) : Event Empty Draws β → List WorkerId
  | .reads writing => if writing.returns then (s.object.map (·.workerId)).toList else []
  | _ => []

/-- One event of the processes, of which the constructor and the destructor of a worker
    consist. -/
def step (s : WorkerProcesses β) (e : Event Empty Draws β) : Option (WorkerProcesses β) :=
  (Settings.step WorkerSettings.struct archive settingsPath true WorkerSettings.unchanged
    s.store e).map fun store => ⟨store, s.ids ++ connects s.store e⟩

variable {archive settingsPath} {events : List (Event Empty Draws β)} {s t : WorkerProcesses β}
  {e : Event Empty Draws β}

theorem step_some (run : step archive settingsPath s e = some t) :
    Settings.step WorkerSettings.struct archive settingsPath true WorkerSettings.unchanged
      s.store e = some t.store ∧ t.ids = s.ids ++ connects s.store e := by
  obtain ⟨store, ran, rfl⟩ := Option.map_eq_some_iff.mp run
  exact ⟨ran, rfl⟩

/-- The ids are a history beside the settings file. -/
theorem store_exec (run : Exec.exec (step archive settingsPath) start events = some t) :
    Exec.exec (Settings.step WorkerSettings.struct archive settingsPath true
      WorkerSettings.unchanged) Store.start events = some t.store := by
  induction events using List.reverseRecOn generalizing t with
  | nil =>
      obtain rfl := Option.some.inj run
      rfl
  | append_singleton events e ih =>
      obtain ⟨s, before, last⟩ := Exec.exec_snoc.mp run
      exact Exec.exec_snoc.mpr ⟨s.store, ih before, (step_some last).1⟩

/-- The id has been written out by the time it is used. -/
def Kept (kept : List (Entry String Draws Empty)) (i : WorkerId) : Prop :=
  ∃ part, part ≠ [] ∧ part <+: kept ∧
    i = (replay WorkerSettings.struct WorkerSettings.unchanged part).workerId

theorem kept_connects {h : History String Draws β Empty} {i : WorkerId}
    (rep : Represents WorkerSettings.struct archive WorkerSettings.unchanged h s.store)
    (reported : e.silent = false) (connected : i ∈ connects s.store e) :
    Kept (h.next archive true e).journal.kept i := by
  cases e with
  | reads writing =>
      cases writing with
      | notOpened => cases connected
      | torn content reports =>
          cases reports with
          | true => cases connected
          | false => cases reported
      | written =>
          obtain ⟨v, is, rfl⟩ : ∃ v, s.store.object = some v ∧ v.workerId = i := by
            simpa [connects, Writing.returns] using connected
          refine ⟨h.journal.entries, rep.entered v is, List.prefix_rfl, ?_⟩
          rw [← rep.object v is]
  | starts canOpen drawn => cases connected
  | changes writing op => cases connected
  | saves writing => cases connected
  | stops writing => cases connected
  | crashes => cases connected

theorem kept_exec (roundTrips : archive.RoundTrips)
    (reported : ∀ e ∈ events, e.silent = false)
    (run : Exec.exec (step archive settingsPath) start events = some t) :
    ∀ i ∈ t.ids, Kept (History.after archive true events).journal.kept i := by
  induction events using List.reverseRecOn generalizing t with
  | nil =>
      obtain rfl := Option.some.inj run
      intro i impossible
      cases impossible
  | append_singleton events e ih =>
      obtain ⟨s, before, last⟩ := Exec.exec_snoc.mp run
      have rep := represents_exec roundTrips (store_exec before)
      intro i connected
      rw [(step_some last).2, List.mem_append] at connected
      rw [after_snoc]
      rcases connected with earlier | now
      · obtain ⟨part, some_, partOf, value⟩ :=
          ih (fun e member => reported e (List.mem_append_left _ member)) before i earlier
        exact ⟨part, some_, partOf.trans kept_next, value⟩
      · exact kept_connects rep (reported e (List.mem_append_right _ List.mem_cons_self)) now

/-- Starts on the file of a worker do not change the object. -/
theorem replay_reloaded (part : List (Entry String Draws Empty))
    {rest : List (Entry String Draws Empty)} (reloads : ∀ entry ∈ rest, entry = .reloaded) :
    replay WorkerSettings.struct WorkerSettings.unchanged (part ++ rest) =
      replay WorkerSettings.struct WorkerSettings.unchanged part := by
  induction rest using List.reverseRecOn with
  | nil => rw [List.append_nil]
  | append_singleton rest entry ih =>
      obtain rfl := reloads entry (List.mem_append_right _ List.mem_cons_self)
      rw [← List.append_assoc, replay_snoc,
        ih fun entry member => reloads entry (List.mem_append_left _ member)]
      rfl

/-- Behind the first start there are only starts on its file. -/
theorem reloads_of_begun (part : List (Entry String Draws Empty))
    {rest : List (Entry String Draws Empty)} (begun : Begun (part ++ rest))
    (some_ : part ≠ []) (whole : ∀ x, .salvaged x ∉ part ++ rest) :
    ∀ entry ∈ rest, entry = .reloaded := by
  intro entry member
  cases entry with
  | reloaded => rfl
  | salvaged x => exact absurd (List.mem_append_right _ member) (whole x)
  | changed op => exact nomatch op
  | initialized drawn =>
      cases part with
      | nil => exact absurd rfl some_
      | cons first part => exact absurd (List.mem_append_right _ member) (begun.tail drawn)

/-- The id is the one that the first start has drawn. -/
theorem drawn_of_begun {part : List (Entry String Draws Empty)} (begun : Begun part)
    (some_ : part ≠ []) (whole : ∀ x, .salvaged x ∉ part) :
    ∃ draws, replay WorkerSettings.struct WorkerSettings.unchanged part =
      ⟨"worker_" ++ (Uuid.new draws).string⟩ := by
  cases part with
  | nil => exact absurd rfl some_
  | cons first rest =>
      have fresh := begun.head first rfl
      cases first with
      | initialized draws =>
          refine ⟨draws, ?_⟩
          have reloads : ∀ entry ∈ rest, entry = .reloaded :=
            reloads_of_begun [.initialized draws] begun (List.cons_ne_nil _ _) whole
          exact replay_reloaded [.initialized draws] reloads
      | salvaged x => exact absurd List.mem_cons_self (whole x)
      | reloaded => exact fresh.elim
      | changed op => exact fresh.elim

end WorkerProcesses

open WorkerProcesses

/-- All workers that have connected from one settings file, over any number of restarts and
    crashes, have connected under one id, which one of them has drawn as a version 4 UUID,
    provided that a save that fails is reported and that no worker has come up on what such a
    save has left of the file. -/
theorem worker_identity_persists {β : Type} {archive : XmlArchive String β}
    {settingsPath : String} {events : List (Event Empty Draws β)} {t : WorkerProcesses β}
    (roundTrips : archive.RoundTrips) (reported : ∀ e ∈ events, e.silent = false)
    (whole : ∀ x, .salvaged x ∉ (History.after archive true events).journal.kept)
    (run : Exec.exec (WorkerProcesses.step archive settingsPath) WorkerProcesses.start events =
      some t) :
    (∀ i ∈ t.ids, ∀ j ∈ t.ids, i = j) ∧
      ∀ i ∈ t.ids, ∃ uuid : Uuid, i = "worker_" ++ uuid.string ∧
        Uuid.Version4 uuid.string.toList := by
  have begun := (begun_exec roundTrips (store_exec run)).of_part Journal.kept_part
  have one : ∀ i ∈ t.ids, i = (replay WorkerSettings.struct WorkerSettings.unchanged
      (History.after archive true events).journal.kept).workerId ∧
      (History.after archive true events).journal.kept ≠ [] := by
    intro i connected
    obtain ⟨part, some_, ⟨rest, split⟩, rfl⟩ := kept_exec roundTrips reported run i connected
    rw [← split] at begun whole ⊢
    rw [replay_reloaded part (reloads_of_begun part begun some_ whole)]
    exact ⟨rfl, List.append_ne_nil_of_left_ne_nil some_ _⟩
  refine ⟨fun i hi j hj => (one i hi).1.trans (one j hj).1.symm, fun i hi => ?_⟩
  obtain ⟨draws, value⟩ := drawn_of_begun begun (one i hi).2 whole
  refine ⟨Uuid.new draws, ?_, Uuid.version4_new draws⟩
  rw [(one i hi).1, value]

/-- A worker that crashes, one that cannot save before it connects, and one that comes back. -/
def twoConnect : List (Event Empty Draws String) :=
  [.starts true (fun _ => 7), .reads .written, .crashes, .starts true (fun _ => 8),
    .reads .notOpened, .crashes, .starts true (fun _ => 9), .reads .written]

theorem worker_identity_persists_crash :
    ∃ t, Exec.exec (WorkerProcesses.step (plainArchive String) "worker_settings.xml")
        WorkerProcesses.start twoConnect = some t ∧ t.ids.length = 2 ∧
      ∀ i ∈ t.ids, ∀ j ∈ t.ids, i = j := by
  obtain ⟨t, run, two⟩ : ∃ t, Exec.exec (WorkerProcesses.step (plainArchive String)
      "worker_settings.xml") WorkerProcesses.start twoConnect = some t ∧ t.ids.length = 2 :=
    ⟨_, rfl, rfl⟩
  have kept : (History.after (plainArchive String) true twoConnect).journal.kept =
      [.initialized fun _ => 7, .reloaded] := rfl
  have whole : ∀ x, .salvaged x ∉
      (History.after (plainArchive String) true twoConnect).journal.kept := by
    rw [kept]
    simp
  have reported : ∀ e ∈ twoConnect, e.silent = false := by
    simp [twoConnect, Event.silent, Event.writing?]
  exact ⟨t, run, two, (worker_identity_persists (fun _ => rfl) reported whole run).1⟩

end Metasolver
