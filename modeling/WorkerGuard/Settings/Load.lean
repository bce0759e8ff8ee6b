import WorkerGuard.Error
import WorkerGuard.Settings.Read
import WorkerGuard.Toml.Document

/-!
# WorkerGuard.Settings.Load

Settings from the file of a project.

* `Settings.load`: the settings that a file holds, if they pass the check.
* `Settings.loadOrDefault`: the default settings, if there is no file.

`load` and `loadOrDefault` embed `load` and `load_or_default`.
-/

namespace WorkerGuard.Settings

/-- Settings in a TOML document. -/
def ofToml? (text : String) : Option Settings := (Toml.read? text).bind (read? ⟨true, true⟩)

def load (file : ByteArray) : Except Error Settings := do
  match String.fromUTF8? file with
  | none => throw (.file .notText)
  | some text =>
    match ofToml? text with
    | none => throw .unreadableSettings
    | some s =>
      match s.check with
      | .ok () => return s
      | .error e => throw (.settings e)

def loadExisting : Option ByteArray → Except Error Settings
  | some file => load file
  | none => .error (.file .missing)

def loadOrDefault : Option ByteArray → Except Error Settings
  | some file => load file
  | none => .ok {}

end WorkerGuard.Settings
