import Mathlib.Data.List.Induction
import Metasolver.Lib.WriteBehind
import Metasolver.Settings.SettingsFile

/-!
# The journal of a settings file

What any sequence of processes with one settings file comes to.  Every start of a process
and every change is an entry of a journal that is written out behind the changes.  The object
is the replay of the whole journal, and the file is the archive of the replay of its kept part,
or what a save has left of it (`settings_refine_journal`).
-/

namespace Metasolver

namespace Settings

open WriteBehind

variable {S T δ β ο : Type}

/-- How the object has come to its value. -/
inductive Entry (T δ ο : Type) where
  /-- Constructed without a file. -/
  | initialized (drawn : δ)
  /-- Constructed from the file of the entries before. -/
  | reloaded
  /-- Constructed from what a torn file could still be read as. -/
  | salvaged (x : T)
  | changed (op : ο)
  deriving DecidableEq

/-- The change that an entry stands for. -/
def Entry.op? : Entry T δ ο → Option ο
  | .changed op => some op
  | _ => none

/-- What is left of a struct when it has been saved and loaded. -/
def SettingsStruct.reloaded (struct : SettingsStruct S T δ) (v : S) : S :=
  struct.input (struct.output v) struct.default

/-- The object after one more entry. -/
def Entry.replay (struct : SettingsStruct S T δ) (apply : S → ο → S) (v : S) :
    Entry T δ ο → S
  | .initialized drawn => struct.initializeFields drawn struct.default
  | .reloaded => SettingsStruct.reloaded struct v
  | .salvaged x => struct.input x struct.default
  | .changed op => apply v op

/-- The object after all entries. -/
def replay (struct : SettingsStruct S T δ) (apply : S → ο → S) (entries : List (Entry T δ ο)) :
    S := entries.foldl (Entry.replay struct apply) struct.default

/-- The journal, and the contents of the file if its last save has torn it. -/
structure History (T δ β ο : Type) where
  journal : Journal (Entry T δ ο)
  torn : Option β
  deriving DecidableEq

namespace History

def start : History T δ β ο := ⟨.start, none⟩

def add (h : History T δ β ο) (entry : Entry T δ ο) : History T δ β ο :=
  { h with journal := h.journal.add entry }

def lose (h : History T δ β ο) : History T δ β ο := { h with journal := h.journal.lose }

/-- One save. -/
def saved (h : History T δ β ο) : Writing β → History T δ β ο
  | .written => ⟨h.journal.flush, none⟩
  | .torn content _ => { h with torn := some content }
  | .notOpened => h

/-- One `operator ()`. -/
def accessed (autoSave : Bool) (h : History T δ β ο) (writing : Writing β) : History T δ β ο :=
  if autoSave then h.saved writing else h

/-- The start of a process: a torn file may still be readable. -/
def started (archive : XmlArchive T β) (h : History T δ β ο) (canOpen : Bool) (drawn : δ) :
    History T δ β ο :=
  match h.torn with
  | none =>
      if h.journal.kept = [] then h.add (.initialized drawn)
      else if canOpen then h.add .reloaded else h
  | some content =>
      if canOpen then
        match archive.iarchive content with
        | .ok x => h.add (.salvaged x)
        | .error _ => h
      else h

def next (archive : XmlArchive T β) (autoSave : Bool) (h : History T δ β ο) :
    Event ο δ β → History T δ β ο
  | .starts canOpen drawn => h.started archive canOpen drawn
  | .changes writing op =>
      if autoSave && !writing.returns then h.saved writing
      else (h.accessed autoSave writing).add (.changed op)
  | .reads writing => h.accessed autoSave writing
  | .saves writing => h.saved writing
  | .stops writing => (h.saved writing).lose
  | .crashes => h.lose

/-- The journal of all events. -/
def after (archive : XmlArchive T β) (autoSave : Bool) (events : List (Event ο δ β)) :
    History T δ β ο := events.foldl (next archive autoSave) start

/-- The file that the journal stands for. -/
def file (struct : SettingsStruct S T δ) (archive : XmlArchive T β) (apply : S → ο → S)
    (h : History T δ β ο) : Option β :=
  match h.torn with
  | some content => some content
  | none =>
      if h.journal.kept = [] then none
      else some (archive.oarchive (struct.output (replay struct apply h.journal.kept)))

end History

/-- The change an event makes; it makes none if the save before it throws. -/
def Event.op? (autoSave : Bool) : Event ο δ β → Option ο
  | .changes writing op => if autoSave && !writing.returns then none else some op
  | _ => none

/-- The writing of an event that has saved. -/
def Event.writing? : Event ο δ β → Option (Writing β)
  | .changes writing _ => some writing
  | .reads writing => some writing
  | .saves writing => some writing
  | .stops writing => some writing
  | .starts _ _ => none
  | .crashes => none

/-- A save that has torn the file and told nobody. -/
def Event.silent (e : Event ο δ β) : Bool :=
  match e.writing? with
  | some (.torn _ reported) => !reported
  | _ => false

/-- The process ends and leaves the file behind. -/
def Event.abandons : Event ο δ β → Bool
  | .crashes => true
  | .stops .written => false
  | .stops _ => true
  | _ => false

variable {struct : SettingsStruct S T δ} {archive : XmlArchive T β} {settingsPath : String}
  {autoSave : Bool} {apply : S → ο → S} {s t : Store S β} {h : History T δ β ο}
  {e : Event ο δ β} {events : List (Event ο δ β)} {writing : Writing β} {v : S}

theorem replay_snoc {entries : List (Entry T δ ο)} {entry : Entry T δ ο} :
    replay struct apply (entries ++ [entry]) =
      entry.replay struct apply (replay struct apply entries) :=
  List.foldl_append

theorem after_snoc : History.after archive autoSave (events ++ [e]) =
    (History.after archive autoSave events).next archive autoSave e := List.foldl_append

/-- The store is what the history stands for. -/
structure Represents (struct : SettingsStruct S T δ) (archive : XmlArchive T β)
    (apply : S → ο → S) (h : History T δ β ο) (s : Store S β) : Prop where
  file : s.file = h.file struct archive apply
  object : ∀ v, s.object = some v → v = replay struct apply h.journal.entries
  gone : s.object = none → h.journal.pending = []
  /-- A process that has started has left an entry. -/
  entered : ∀ v, s.object = some v → h.journal.entries ≠ []

theorem Represents.start :
    Represents struct archive apply (History.start : History T δ β ο) Store.start where
  file := rfl
  object v is := by cases is
  gone _ := rfl
  entered v is := by cases is

/-- The file after a save of the object. -/
theorem Represents.fileAfter (rep : Represents struct archive apply h s)
    (is : s.object = some v) :
    Settings.fileAfter struct archive writing v s.file =
      (h.saved writing).file struct archive apply := by
  cases writing with
  | written =>
      obtain rfl := rep.object v is
      exact (if_neg (rep.entered _ is)).symm
  | torn content reported => rfl
  | notOpened => exact rep.file

theorem entries_saved : (h.saved writing).journal.entries = h.journal.entries := by
  cases writing with
  | written => exact Journal.entries_flush
  | torn content reported => rfl
  | notOpened => rfl

theorem entries_accessed :
    (h.accessed autoSave writing).journal.entries = h.journal.entries := by
  unfold History.accessed
  split
  · exact entries_saved
  · rfl

/-- The object goes on with what a save has made of the file. -/
theorem Represents.saved (rep : Represents struct archive apply h s) (is : s.object = some v) :
    Represents struct archive apply (h.saved writing)
      ⟨Settings.fileAfter struct archive writing v s.file, some v⟩ where
  file := rep.fileAfter is
  object v' is' := by
    obtain rfl := Option.some.inj is'
    rw [entries_saved]
    exact rep.object v is
  gone impossible := by cases impossible
  entered _ _ := by
    rw [entries_saved]
    exact rep.entered v is

theorem Represents.accessed (rep : Represents struct archive apply h s)
    (is : s.object = some v) :
    Represents struct archive apply (h.accessed autoSave writing)
      ⟨if autoSave then Settings.fileAfter struct archive writing v s.file else s.file,
        some v⟩ := by
  cases autoSave with
  | true => exact rep.saved is
  | false =>
      have same : s = ⟨s.file, some v⟩ := by rw [← is]
      rw [same] at rep
      exact rep

/-- One more entry in memory. -/
theorem Represents.add {entry : Entry T δ ο} (rep : Represents struct archive apply h s)
    {v : S} (value : v = entry.replay struct apply (replay struct apply h.journal.entries)) :
    Represents struct archive apply (h.add entry) ⟨s.file, some v⟩ where
  file := rep.file
  object v' is' := by
    obtain rfl := Option.some.inj is'
    rw [History.add, Journal.entries_add, replay_snoc]
    exact value
  gone impossible := by cases impossible
  entered _ _ := by
    rw [History.add, Journal.entries_add]
    exact List.append_ne_nil_of_right_ne_nil _ (List.cons_ne_nil _ _)

/-- The process is gone with what was in its memory only. -/
theorem Represents.lose (rep : Represents struct archive apply h s) :
    Represents struct archive apply h.lose s.gone where
  file := rep.file
  object v is := by cases is
  gone _ := rfl
  entered v is := by cases is

/-- A start constructs the object or fails, and does not write. -/
theorem starts_some {canOpen : Bool} {drawn : δ}
    (run : step struct archive settingsPath autoSave apply s (.starts canOpen drawn) = some t) :
    s.object = none ∧
      ((∃ v, initializeSettings struct archive settingsPath canOpen drawn s.file = .ok v ∧
          t = ⟨s.file, some v⟩) ∨
        ∃ x, initializeSettings struct archive settingsPath canOpen drawn s.file = .error x ∧
          t = s) := by
  unfold step at run
  cases down : s.object with
  | some v => simp [down] at run
  | none =>
      simp only [down] at run
      refine ⟨rfl, ?_⟩
      cases init : initializeSettings struct archive settingsPath canOpen drawn s.file with
      | ok v =>
          rw [init] at run
          exact Or.inl ⟨v, rfl, (Option.some.inj run).symm⟩
      | error x =>
          rw [init] at run
          exact Or.inr ⟨x, rfl, (Option.some.inj run).symm⟩

/-- What the constructor makes of the file of a journal. -/
theorem initializeSettings_file (settingsPath : String) (canOpen : Bool) (drawn : δ)
    (struct : SettingsStruct S T δ) (apply : S → ο → S) (roundTrips : archive.RoundTrips)
    (nothing : h.journal.pending = []) :
    match initializeSettings struct archive settingsPath canOpen drawn
      (h.file struct archive apply) with
    | .ok v => ∃ entry, h.started archive canOpen drawn = h.add entry ∧
        v = entry.replay struct apply (replay struct apply h.journal.entries)
    | .error _ => h.started archive canOpen drawn = h := by
  unfold History.file History.started
  cases torn : h.torn with
  | none =>
      by_cases first : h.journal.kept = []
      · simp only [first, if_true]
        exact ⟨_, rfl, rfl⟩
      · simp only [first, if_false]
        cases canOpen with
        | false => rfl
        | true =>
            simp only [initializeSettings, if_true, roundTrips _]
            refine ⟨_, rfl, ?_⟩
            rw [Journal.entries_eq_kept nothing]
            rfl
  | some content =>
      cases canOpen with
      | false => rfl
      | true =>
          simp only [initializeSettings, if_true]
          cases archive.iarchive content with
          | error x => rfl
          | ok x => exact ⟨_, rfl, rfl⟩

/-- A start reads the file of the journal, or finds none. -/
theorem Represents.started (roundTrips : archive.RoundTrips) {canOpen : Bool} {drawn : δ}
    (rep : Represents struct archive apply h s)
    (run : step struct archive settingsPath autoSave apply s (.starts canOpen drawn) = some t) :
    Represents struct archive apply (h.started archive canOpen drawn) t := by
  obtain ⟨down, cases⟩ := starts_some run
  have reads := initializeSettings_file settingsPath canOpen drawn struct apply roundTrips
    (rep.gone down)
  rw [← rep.file] at reads
  rcases cases with ⟨v, init, rfl⟩ | ⟨x, init, rfl⟩
  · rw [init] at reads
    obtain ⟨entry, started, value⟩ := reads
    rw [started]
    exact rep.add value
  · rw [init] at reads
    rw [reads]
    exact rep

/-- What a member function does to the file and to the object. -/
theorem runs_some {α : Type} {x : SettingsM S β α}
    (run : s.runs x = some t) : ∃ v, s.object = some v ∧
      t = ⟨(Effects.final (x.run ⟨s.file, v⟩)).file,
        some (Effects.final (x.run ⟨s.file, v⟩)).settings⟩ := by
  obtain ⟨v, is, rfl⟩ := Option.map_eq_some_iff.mp run
  exact ⟨v, is, rfl⟩

/-- One event, one case for each kind. -/
theorem Represents.step (roundTrips : archive.RoundTrips)
    (rep : Represents struct archive apply h s)
    (run : Settings.step struct archive settingsPath autoSave apply s e = some t) :
    Represents struct archive apply (h.next archive autoSave e) t := by
  cases e with
  | starts canOpen drawn => exact rep.started roundTrips run
  | changes writing op =>
      obtain ⟨v, is, rfl⟩ := runs_some run
      have value := rep.object v is
      rw [final_change, History.next]
      by_cases throws : (autoSave && !writing.returns) = true
      · rw [if_pos throws, if_pos throws, if_pos (Bool.and_eq_true_iff.mp throws).1]
        exact rep.saved is
      · rw [if_neg throws, if_neg throws]
        refine (rep.accessed is).add ?_
        rw [entries_accessed, ← value]
        rfl
  | reads writing =>
      obtain ⟨v, is, rfl⟩ := runs_some run
      rw [final_access]
      exact rep.accessed is
  | saves writing =>
      obtain ⟨v, is, rfl⟩ := runs_some run
      rw [final_save]
      exact rep.saved is
  | stops writing =>
      obtain ⟨u, ran, rfl⟩ := Option.map_eq_some_iff.mp run
      obtain ⟨v, is, rfl⟩ := runs_some ran
      rw [final_save]
      exact (rep.saved is).lose
  | crashes =>
      obtain ⟨v, is, rfl⟩ := Option.map_eq_some_iff.mp run
      exact rep.lose

/-- The run lemma: the store represents the history of the events. -/
theorem represents_exec (roundTrips : archive.RoundTrips)
    (run : Exec.exec (Settings.step struct archive settingsPath autoSave apply) Store.start
      events = some t) :
    Represents struct archive apply (History.after archive autoSave events) t := by
  induction events using List.reverseRecOn generalizing t with
  | nil =>
      obtain rfl := Option.some.inj run
      exact .start
  | append_singleton events e ih =>
      obtain ⟨s, before, last⟩ := Exec.exec_snoc.mp run
      rw [after_snoc]
      exact (ih before).step roundTrips last

/-! ## What is kept, and what a crash can lose -/

theorem length_pending_saved (writing : Writing β) :
    (h.saved writing).journal.pending.length ≤ h.journal.pending.length := by
  cases writing with
  | written => exact Nat.zero_le _
  | torn content reported => exact Nat.le_refl _
  | notOpened => exact Nat.le_refl _

theorem kept_saved : h.journal.kept <+: (h.saved writing).journal.kept := by
  cases writing with
  | written => exact Journal.kept_part
  | torn content reported => exact List.prefix_rfl
  | notOpened => exact List.prefix_rfl

theorem kept_accessed : h.journal.kept <+: (h.accessed autoSave writing).journal.kept := by
  unfold History.accessed
  split
  · exact kept_saved
  · exact List.prefix_rfl

theorem started_eq (archive : XmlArchive T β) (h : History T δ β ο) (canOpen : Bool)
    (drawn : δ) :
    h.started archive canOpen drawn = h ∨
      ∃ entry, entry.op? = none ∧ h.started archive canOpen drawn = h.add entry := by
  unfold History.started
  split
  · split
    · exact Or.inr ⟨_, rfl, rfl⟩
    · split
      · exact Or.inr ⟨_, rfl, rfl⟩
      · exact Or.inl rfl
  · split
    · split
      · exact Or.inr ⟨_, rfl, rfl⟩
      · exact Or.inl rfl
    · exact Or.inl rfl

/-- What has been kept stays kept. -/
theorem kept_next : h.journal.kept <+: (h.next archive autoSave e).journal.kept := by
  cases e with
  | starts canOpen drawn =>
      rw [History.next]
      rcases started_eq archive h canOpen drawn with same | ⟨entry, -, added⟩
      · simp only [same, List.prefix_rfl]
      · have kept : (h.add entry).journal.kept = h.journal.kept := rfl
        simp only [added, kept, List.prefix_rfl]
  | changes writing op =>
      rw [History.next]
      split
      · exact kept_saved
      · exact kept_accessed
  | reads writing => exact kept_accessed
  | saves writing => exact kept_saved
  | stops writing => exact kept_saved
  | crashes => exact List.prefix_rfl

theorem kept_after {before rest : List (Event ο δ β)} :
    (History.after archive autoSave before).journal.kept <+:
      (History.after archive autoSave (before ++ rest)).journal.kept := by
  induction rest using List.reverseRecOn with
  | nil =>
      simp only [List.append_nil, List.prefix_rfl]
  | append_singleton rest e ih =>
      refine ih.trans ?_
      rw [← List.append_assoc, after_snoc]
      exact kept_next

theorem op?_toList : [e].filterMap (Event.op? autoSave) = (e.op? autoSave).toList := by
  cases asked : e.op? autoSave with
  | none => rw [List.filterMap_cons_none asked]; rfl
  | some op => rw [List.filterMap_cons_some asked]; rfl

/-- No change is invented, repeated or moved before another. -/
theorem ops_next {all : List ο}
    (sub : (h.journal.entries.filterMap Entry.op?).Sublist all) :
    ((h.next archive autoSave e).journal.entries.filterMap Entry.op?).Sublist
      (all ++ (e.op? autoSave).toList) := by
  have more : ∀ {l : List ο}, l.Sublist all → l.Sublist (all ++ (e.op? autoSave).toList) :=
    fun h => h.trans (List.sublist_append_left _ _)
  cases e with
  | starts canOpen drawn =>
      rw [History.next]
      rcases started_eq archive h canOpen drawn with same | ⟨entry, none_, added⟩
      · rw [same]
        exact more sub
      · rw [added]
        refine Journal.sublist_add sub ?_
        rw [none_]
        exact List.nil_sublist _
  | changes writing op =>
      rw [History.next, Event.op?]
      split
      · rw [entries_saved]
        exact sub.trans (List.sublist_append_left _ _)
      · refine Journal.sublist_add ?_ (List.Sublist.refl _)
        rw [entries_accessed]
        exact sub
  | reads writing =>
      rw [History.next, entries_accessed]
      exact more sub
  | saves writing =>
      rw [History.next, entries_saved]
      exact more sub
  | stops writing =>
      rw [History.next]
      refine more (Journal.sublist_lose ?_)
      rw [entries_saved]
      exact sub
  | crashes => exact more (Journal.sublist_lose sub)

theorem ops_after :
    ((History.after archive autoSave events).journal.entries.filterMap Entry.op?).Sublist
      (events.filterMap (Event.op? autoSave)) := by
  induction events using List.reverseRecOn with
  | nil => exact List.nil_sublist _
  | append_singleton events e ih =>
      rw [after_snoc, List.filterMap_append, op?_toList]
      exact ops_next ih

/-- With autosaving, a save that tells nobody is the only way to leave two entries behind. -/
theorem pending_next {n : Nat} (rep : Represents struct archive apply h s)
    (run : Settings.step struct archive settingsPath true apply s e = some t)
    (few : h.journal.pending.length ≤ 1 + n) :
    (h.next archive true e).journal.pending.length ≤ 1 + (n + [e].countP Event.silent) := by
  have fewer : ∀ {k : Nat}, k ≤ h.journal.pending.length →
      k ≤ 1 + (n + [e].countP Event.silent) := by
    intro k le
    omega
  cases e with
  | starts canOpen drawn =>
      have nothing := rep.gone (starts_some run).1
      rw [History.next]
      rcases started_eq archive h canOpen drawn with same | ⟨entry, -, added⟩
      · rw [same]
        exact fewer (Nat.le_refl _)
      · rw [added, History.add, Journal.length_pending_add, nothing, List.length_nil]
        omega
  | changes writing op =>
      rw [History.next]
      cases writing with
      | written =>
          change [Entry.changed op].length ≤ _
          rw [List.length_singleton]
          omega
      | torn content reported =>
          cases reported with
          | true => exact fewer (Nat.le_refl _)
          | false =>
              change (h.journal.pending ++ [Entry.changed op]).length ≤ 1 + (n + 1)
              rw [List.length_append, List.length_singleton]
              omega
      | notOpened => exact fewer (Nat.le_refl _)
  | reads writing => exact fewer (length_pending_saved writing)
  | saves writing => exact fewer (length_pending_saved writing)
  | stops writing => exact fewer (Nat.zero_le _)
  | crashes => exact fewer (Nat.zero_le _)

theorem pending_exec (roundTrips : archive.RoundTrips)
    (run : Exec.exec (Settings.step struct archive settingsPath true apply) Store.start
      events = some t) :
    (History.after archive true events).journal.pending.length ≤
      1 + events.countP Event.silent := by
  induction events using List.reverseRecOn generalizing t with
  | nil => exact Nat.zero_le _
  | append_singleton events e ih =>
      obtain ⟨s, before, last⟩ := Exec.exec_snoc.mp run
      rw [after_snoc, List.countP_append]
      exact pending_next (represents_exec roundTrips before) last (ih before)

/-- How many changes the journal has. -/
def History.count (h : History T δ β ο) : Nat := (h.journal.entries.filterMap Entry.op?).length

theorem count_saved (writing : Writing β) : (h.saved writing).count = h.count := by
  rw [History.count, entries_saved]
  rfl

theorem count_add (entry : Entry T δ ο) :
    (h.add entry).count = h.count + entry.op?.toList.length := by
  rw [History.count, History.add, Journal.entries_add, List.filterMap_append, List.length_append]
  cases entry <;> rfl

/-- A crash loses no more than what is pending. -/
theorem count_lose : h.count ≤ h.lose.count + h.journal.pending.length := by
  rw [History.count, Journal.entries, List.filterMap_append, List.length_append, History.count,
    History.lose, Journal.entries_lose]
  exact Nat.add_le_add_left (List.length_filterMap_le _ _) _

/-- The changes that have been made, and those that one more crash would lose beyond one,
    are in the journal up to what `spoilt` events account for. -/
def Missing (made spoilt : Nat) (h : History T δ β ο) : Prop :=
  made + (h.journal.pending.length - 1) ≤ h.count + spoilt

/-- An event after which a change may be missing. -/
def Event.spoils (e : Event ο δ β) : Bool := e.abandons || e.silent

theorem Missing.mono {made spoilt spoilt' : Nat} (missing : Missing made spoilt h)
    (more : spoilt ≤ spoilt') : Missing made spoilt' h :=
  Nat.le_trans missing (Nat.add_le_add_left more _)

theorem Missing.saved {made spoilt : Nat} (missing : Missing made spoilt h)
    (writing : Writing β) : Missing made spoilt (h.saved writing) := by
  have less := length_pending_saved (h := h) writing
  unfold Missing at missing ⊢
  rw [count_saved]
  omega

/-- The journal is abandoned: what was pending is missing from now on. -/
theorem Missing.lose {made spoilt : Nat} (missing : Missing made spoilt h) :
    Missing made (spoilt + 1) h.lose := by
  have lost := count_lose (h := h)
  have nothing : h.lose.journal.pending = [] := rfl
  unfold Missing at missing ⊢
  rw [nothing, List.length_nil]
  omega

/-- A change is made on top of at most `extra` entries that are in memory only. -/
theorem Missing.changed {made spoilt extra : Nat} {op : ο} (missing : Missing made spoilt h)
    (few : h.journal.pending.length ≤ h.journal.pending.length - 1 + extra) :
    Missing (made + 1) (spoilt + extra) (h.add (.changed op)) := by
  have added := count_add (h := h) (.changed op)
  have one : (Entry.changed op : Entry T δ ο).op?.toList.length = 1 := rfl
  have length : (h.add (.changed op)).journal.pending.length = h.journal.pending.length + 1 :=
    Journal.length_pending_add
  unfold Missing at missing ⊢
  omega

theorem missing_next {made spoilt : Nat} (rep : Represents struct archive apply h s)
    (run : Settings.step struct archive settingsPath true apply s e = some t)
    (missing : Missing made spoilt h) :
    Missing (made + (e.op? true).toList.length) (spoilt + [e].countP Event.spoils)
      (h.next archive true e) := by
  have more : spoilt ≤ spoilt + [e].countP Event.spoils := Nat.le_add_right _ _
  cases e with
  | starts canOpen drawn =>
      have nothing := rep.gone (starts_some run).1
      rw [History.next]
      rcases started_eq archive h canOpen drawn with same | ⟨entry, -, added⟩
      · rw [same]
        exact missing.mono more
      · have length : (h.add entry).journal.pending.length = 1 := by
          rw [History.add, Journal.length_pending_add, nothing, List.length_nil]
        have count := count_add (h := h) entry
        rw [added]
        unfold Missing at missing ⊢
        simp only [Event.op?, Option.toList_none, List.length_nil]
        omega
  | changes writing op =>
      cases writing with
      | written =>
          have few : ((h.saved .written).journal.pending.length) = 0 := rfl
          refine (missing.saved .written).changed ?_
          rw [few]
          exact Nat.zero_le _
      | torn content reported =>
          cases reported with
          | true =>
              change Missing made _ (h.saved (.torn content true))
              exact (missing.saved _).mono more
          | false =>
              change Missing (made + 1) (spoilt + 1) ((h.saved (.torn content false)).add _)
              refine (missing.saved (.torn content false)).changed ?_
              omega
      | notOpened =>
          change Missing made _ (h.saved .notOpened)
          exact (missing.saved _).mono more
  | reads writing => exact (missing.saved writing).mono more
  | saves writing => exact (missing.saved writing).mono more
  | stops writing =>
      cases writing with
      | written =>
          change Missing made _ (h.saved .written)
          exact (missing.saved _).mono more
      | torn content reported => exact (missing.saved _).lose
      | notOpened => exact (missing.saved _).lose
  | crashes => exact missing.lose

theorem missing_exec (roundTrips : archive.RoundTrips)
    (run : Exec.exec (Settings.step struct archive settingsPath true apply) Store.start
      events = some t) :
    Missing (events.filterMap (Event.op? true)).length (events.countP Event.spoils)
      (History.after archive true events) := by
  induction events using List.reverseRecOn generalizing t with
  | nil => exact Nat.zero_le _
  | append_singleton events e ih =>
      obtain ⟨s, before, last⟩ := Exec.exec_snoc.mp run
      rw [after_snoc, List.countP_append, List.filterMap_append, List.length_append, op?_toList]
      exact missing_next (represents_exec roundTrips before) last (ih before)

/-! ## The first entry -/

/-- The object has been constructed without a file or from a torn one. -/
def Entry.Fresh : Entry T δ ο → Prop
  | .initialized _ => True
  | .salvaged _ => True
  | .reloaded => False
  | .changed _ => False

/-- Only the first entry is a start without a file, and nothing comes before a start. -/
structure Begun (entries : List (Entry T δ ο)) : Prop where
  head : ∀ entry ∈ entries.head?, entry.Fresh
  tail : ∀ drawn, .initialized drawn ∉ entries.tail

theorem begun_nil : Begun ([] : List (Entry T δ ο)) where
  head entry is := by cases is
  tail drawn member := by cases member

theorem Begun.of_part {entries entries' : List (Entry T δ ο)} (begun : Begun entries)
    (part : entries' <+: entries) : Begun entries' := by
  obtain ⟨rest, rfl⟩ := part
  cases entries' with
  | nil => exact begun_nil
  | cons entry entries' =>
      exact ⟨begun.head, fun drawn member => begun.tail drawn (List.mem_append_left _ member)⟩

/-- An entry that opens a journal or goes on with one. -/
theorem Begun.snoc {entries : List (Entry T δ ο)} {entry : Entry T δ ο} (begun : Begun entries)
    (opens : entries = [] → entry.Fresh)
    (goesOn : entries ≠ [] → ∀ drawn, entry ≠ .initialized drawn) :
    Begun (entries ++ [entry]) := by
  cases entries with
  | nil =>
      refine ⟨fun entry' is => ?_, fun drawn member => by cases member⟩
      obtain rfl := Option.some.inj is
      exact opens rfl
  | cons head entries =>
      refine ⟨begun.head, fun drawn member => ?_⟩
      rcases List.mem_append.mp member with old | new
      · exact begun.tail drawn old
      · exact goesOn (List.cons_ne_nil _ _) drawn (List.mem_singleton.mp new).symm

theorem begun_started {canOpen : Bool} {drawn : δ} (nothing : h.journal.pending = [])
    (begun : Begun h.journal.entries) :
    Begun (h.started archive canOpen drawn).journal.entries := by
  have empty := Journal.entries_eq_kept nothing
  unfold History.started
  split
  · split
    case isTrue fresh =>
      rw [History.add, Journal.entries_add]
      exact begun.snoc (fun _ => trivial) fun some_ => absurd (empty.trans fresh) some_
    case isFalse old =>
      split
      · rw [History.add, Journal.entries_add]
        refine begun.snoc (fun none_ => absurd (empty.symm.trans none_) old) ?_
        intro _ drawn impossible
        cases impossible
      · exact begun
  · split
    · split
      · rw [History.add, Journal.entries_add]
        refine begun.snoc (fun _ => trivial) ?_
        intro _ drawn impossible
        cases impossible
      · exact begun
    · exact begun

theorem begun_next (rep : Represents struct archive apply h s)
    (run : Settings.step struct archive settingsPath autoSave apply s e = some t)
    (begun : Begun h.journal.entries) :
    Begun (h.next archive autoSave e).journal.entries := by
  cases e with
  | starts canOpen drawn => exact begun_started (rep.gone (starts_some run).1) begun
  | changes writing op =>
      obtain ⟨v, is, -⟩ := runs_some run
      rw [History.next]
      split
      · rw [entries_saved]
        exact begun
      · rw [History.add, Journal.entries_add, entries_accessed]
        refine begun.snoc (fun none_ => absurd none_ (rep.entered v is)) ?_
        intro _ drawn impossible
        cases impossible
  | reads writing =>
      rw [History.next, entries_accessed]
      exact begun
  | saves writing =>
      rw [History.next, entries_saved]
      exact begun
  | stops writing =>
      rw [History.next, History.lose, Journal.entries_lose]
      refine Begun.of_part ?_ Journal.kept_part
      rw [entries_saved]
      exact begun
  | crashes =>
      rw [History.next, History.lose, Journal.entries_lose]
      exact begun.of_part Journal.kept_part

theorem begun_exec (roundTrips : archive.RoundTrips)
    (run : Exec.exec (Settings.step struct archive settingsPath autoSave apply) Store.start
      events = some t) : Begun (History.after archive autoSave events).journal.entries := by
  induction events using List.reverseRecOn generalizing t with
  | nil => exact begun_nil
  | append_singleton events e ih =>
      obtain ⟨s, before, last⟩ := Exec.exec_snoc.mp run
      rw [after_snoc]
      exact begun_next (represents_exec roundTrips before) last (ih before)

end Settings

open Settings

/-- Whatever happens to the processes with one settings file and to their saves, the file is
    the archive of what the journal has kept, or what the last save has left of it, and the
    object is the replay of the whole journal.  Its changes are changes that were made, in
    their order and none of them twice, and what is kept stays kept.  With autosaving, only
    one entry is in memory only but for saves that have torn the file and told nobody, and
    each change that is missing from the journal is accounted for by such a save or by a
    process that has crashed or could not save at its end. -/
theorem settings_refine_journal {S T δ β ο : Type} {struct : SettingsStruct S T δ}
    {archive : XmlArchive T β} {settingsPath : String} {autoSave : Bool} {apply : S → ο → S}
    {events : List (Event ο δ β)} {t : Store S β} (roundTrips : archive.RoundTrips)
    (run : Exec.exec (step struct archive settingsPath autoSave apply) Store.start events =
      some t) :
    t.file = (History.after archive autoSave events).file struct archive apply ∧
      (∀ v, t.object = some v →
        v = replay struct apply (History.after archive autoSave events).journal.entries) ∧
      ((History.after archive autoSave events).journal.entries.filterMap Entry.op?).Sublist
        (events.filterMap (Event.op? autoSave)) ∧
      (∀ before rest, events = before ++ rest →
        (History.after archive autoSave before).journal.kept <+:
          (History.after archive autoSave events).journal.kept) ∧
      (autoSave = true →
        (History.after archive autoSave events).journal.pending.length ≤
          1 + events.countP Event.silent ∧
        (events.filterMap (Event.op? autoSave)).length ≤
          (History.after archive autoSave events).count + events.countP Event.spoils) := by
  have rep := represents_exec roundTrips run
  refine ⟨rep.file, rep.object, ops_after, ?_, ?_⟩
  · rintro before rest rfl
    exact kept_after
  · rintro rfl
    have missing := missing_exec roundTrips run
    exact ⟨pending_exec roundTrips run, Nat.le_trans (Nat.le_add_right _ _) missing⟩

/-- Two counters of which the first is serialized, in an archive that stores it as it is. -/
def countersStruct : SettingsStruct (Nat × Nat) Nat Nat where
  default := (0, 0)
  initializeFields drawn _ := (drawn, 0)
  output := Prod.fst
  input x v := (x, v.2)

def countBoth (v : Nat × Nat) (op : Nat) : Nat × Nat := (v.1 + op, v.2 + op)

def plainArchive (T : Type) : XmlArchive T T := ⟨id, .ok⟩

/-- A crash after the second change, and a start on the file of the first. -/
def crashAndRestart : List (Event Nat Nat Nat) :=
  [.starts true 10, .changes .written 1, .changes .written 2, .crashes, .starts true 20]

theorem settings_refine_journal_crash :
    ∃ t, Exec.exec (step countersStruct (plainArchive Nat) "settings.xml" true countBoth)
        Store.start crashAndRestart = some t ∧
      t.object = some (11, 0) ∧
      t.file = (History.after (plainArchive Nat) true crashAndRestart).file countersStruct
        (plainArchive Nat) countBoth := by
  have run : Exec.exec (step countersStruct (plainArchive Nat) "settings.xml" true countBoth)
      Store.start crashAndRestart = some ⟨some 11, some (11, 0)⟩ := rfl
  exact ⟨_, run, rfl, (settings_refine_journal (fun _ => rfl) run).1⟩

end Metasolver
