import Metasolver.Lib.Effects
import Metasolver.Lib.Exec

/-!
# `settings`

The class template of `settings.h`: a settings struct that is read from its file when the
object is constructed and saved there again each time it is accessed.  The struct is a
parameter (`SettingsStruct`), and so is the Boost XML archive (`XmlArchive`).

What a save does to the file is given with the event (`Writing`).  The stream opens the file
with `trunc`, so a save that fails on its way leaves a torn file.  It is reported if a
character cannot be put, since the stream throws on `badbit`, but not if the rest of the buffer
is lost when the destructor of the stream closes the file.
-/

namespace Metasolver

/-- What leaves the functions of `settings` by `throw`. -/
inductive SettingsExn where
  /-- `std::runtime_error` with its text. -/
  | runtimeError (what : String)
  /-- `std::ios_base::failure`, from `file.exceptions`. -/
  | iosFailure
  /-- `boost::archive::archive_exception`. -/
  | archiveException
  deriving DecidableEq, Repr

/-- The template parameter of `settings`.  `T` is what `serialize` passes to an archive, `δ`
    what `initialize` (here `initializeFields`) draws at random. -/
structure SettingsStruct (S T δ : Type) where
  /-- `SettingsStruct _settings{}`. -/
  default : S
  initializeFields : δ → S → S
  /-- `serialize` with an output archive. -/
  output : S → T
  /-- `serialize` with an input archive; the other members stay as they are. -/
  input : T → S → S

/-- `boost::archive::xml_oarchive` and `xml_iarchive`. -/
structure XmlArchive (T β : Type) where
  oarchive : T → β
  iarchive : β → Except SettingsExn T

/-- The archive reads back what it has written. -/
def XmlArchive.RoundTrips {T β : Type} (archive : XmlArchive T β) : Prop :=
  ∀ x, archive.iarchive (archive.oarchive x) = .ok x

/-- What becomes of the file in one save. -/
inductive Writing (β : Type) where
  | written
  /-- The file has been truncated, and this is what got into it. -/
  | torn (content : β) (reported : Bool)
  | notOpened
  deriving DecidableEq

/-- The save throws nothing. -/
def Writing.returns {β : Type} : Writing β → Bool
  | .written => true
  | .torn _ reported => !reported
  | .notOpened => false

/-- The members of a `settings` object that change, and its file. -/
structure Settings (S β : Type) where
  file : Option β
  settings : S

namespace Settings

variable {S T δ β ο : Type} (struct : SettingsStruct S T δ) (archive : XmlArchive T β)

abbrev SettingsM (S β : Type) := EStateM SettingsExn (Settings S β)

/-- `_initialize_settings` (`settings.h:59-78`); `canOpen` is whether the stream opens. -/
def initializeSettings (settingsPath : String) (canOpen : Bool) (drawn : δ) (file : Option β) :
    Except SettingsExn S :=
  match file with
  | some content =>
      if canOpen then do
        let x ← archive.iarchive content
        return struct.input x struct.default
      else throw (.runtimeError ("Failed to open settings file: " ++ settingsPath))
  | none => return struct.initializeFields drawn struct.default

/-- `_save_to_file` (`settings.h:80-88`). -/
def saveToFile (writing : Writing β) : SettingsM S β Unit := do
  match writing with
  | .written => modify fun s =>
      { s with file := some (archive.oarchive (struct.output s.settings)) }
  | .torn content reported =>
      modify fun s => { s with file := some content }
      if reported then throw .iosFailure
  | .notOpened => throw .iosFailure

/-- `save` (`settings.h:43-46`). -/
def save (writing : Writing β) : SettingsM S β Unit := saveToFile struct archive writing

/-- `operator ()` (`settings.h:48-56`). -/
def access (autoSave : Bool) (writing : Writing β) : SettingsM S β S := do
  if autoSave then
    saveToFile struct archive writing
  return (← get).settings

/-- `_settings().…`: a change through the reference that `operator ()` returns. -/
def change (autoSave : Bool) (apply : S → ο → S) (writing : Writing β) (op : ο) :
    SettingsM S β Unit := do
  let accessed ← access struct archive autoSave writing
  modify fun s => { s with settings := apply accessed op }

/-! ## Processes with one settings file -/

/-- The file, and the object of the process that is running. -/
structure Store (S β : Type) where
  file : Option β
  object : Option S

/-- What happens to the file and to the process that holds the object. -/
inductive Event (ο δ β : Type) where
  /-- A process constructs the object. -/
  | starts (canOpen : Bool) (drawn : δ)
  | changes (writing : Writing β) (op : ο)
  /-- `operator ()` for a reference that is only read. -/
  | reads (writing : Writing β)
  | saves (writing : Writing β)
  /-- The destructor of the owner saves for the last time. -/
  | stops (writing : Writing β)
  | crashes
  deriving DecidableEq

/-- A member function runs on the object, whether it returns or throws. -/
def Store.runs {α : Type} (s : Store S β) (x : SettingsM S β α) : Option (Store S β) :=
  s.object.map fun v =>
    let t := Effects.final (x.run ⟨s.file, v⟩)
    ⟨t.file, some t.settings⟩

/-- The process is gone, and the file is what it was. -/
def Store.gone (s : Store S β) : Store S β := { s with object := none }

/-- One event; nothing but a start is possible without a process. -/
def step (settingsPath : String) (autoSave : Bool) (apply : S → ο → S) (s : Store S β) :
    Event ο δ β → Option (Store S β)
  | .starts canOpen drawn =>
      match s.object with
      | some _ => none
      | none => match initializeSettings struct archive settingsPath canOpen drawn s.file with
          | .ok v => some { s with object := some v }
          | .error _ => some s
  | .changes writing op => s.runs (change struct archive autoSave apply writing op)
  | .reads writing => s.runs (access struct archive autoSave writing)
  | .saves writing => s.runs (save struct archive writing)
  | .stops writing => (s.runs (save struct archive writing)).map Store.gone
  | .crashes => s.object.map fun _ => s.gone

/-- No file and no process. -/
def Store.start : Store S β := ⟨none, none⟩

variable {struct archive} {settingsPath : String} {autoSave : Bool} {apply : S → ο → S}
  {writing : Writing β} {op : ο} {file : Option β} {v : S}

/-! ## What the functions do -/

/-- The file after a save of `v`. -/
def fileAfter (struct : SettingsStruct S T δ) (archive : XmlArchive T β) (writing : Writing β)
    (v : S) (file : Option β) : Option β :=
  match writing with
  | .written => some (archive.oarchive (struct.output v))
  | .torn content _ => some content
  | .notOpened => file

theorem saveToFile_run : (saveToFile struct archive writing).run ⟨file, v⟩ =
    if writing.returns then .ok () ⟨fileAfter struct archive writing v file, v⟩
    else .error .iosFailure ⟨fileAfter struct archive writing v file, v⟩ := by
  cases writing with
  | written => rfl
  | notOpened => rfl
  | torn content reported => cases reported <;> rfl

theorem final_save : Effects.final ((save struct archive writing).run ⟨file, v⟩) =
    ⟨fileAfter struct archive writing v file, v⟩ := by
  rw [save, saveToFile_run]
  cases writing.returns <;> rfl

theorem final_access : Effects.final ((access struct archive autoSave writing).run ⟨file, v⟩) =
    ⟨if autoSave then fileAfter struct archive writing v file else file, v⟩ := by
  cases autoSave with
  | false => rfl
  | true =>
      rw [access, if_pos rfl, EStateM.run_bind, saveToFile_run]
      cases writing.returns <;> rfl

/-- A change is made unless the save before it throws. -/
theorem final_change :
    Effects.final ((change struct archive autoSave apply writing op).run ⟨file, v⟩) =
      ⟨if autoSave then fileAfter struct archive writing v file else file,
        if autoSave && !writing.returns then v else apply v op⟩ := by
  cases autoSave with
  | false => rfl
  | true =>
      rw [change, access, if_pos rfl, EStateM.run_bind, EStateM.run_bind, saveToFile_run]
      cases writing.returns <;> rfl

end Settings

end Metasolver
