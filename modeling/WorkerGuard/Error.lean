import WorkerGuard.Degrade.Log
import WorkerGuard.Registry.Request
import WorkerGuard.Settings.Check

/-!
# WorkerGuard.Error

What can go wrong outside the calls to dependencies.

* `Error`: the causes; `Error.category`: the six sorts of them that operators are told.
* `Error.message?`: the wording, if it is ours.

`Error` embeds `TetherError`.
-/

namespace WorkerGuard

inductive Error where
  /-- The text of the settings cannot be read. -/
  | unreadableSettings
  | settings (reason : Settings.Invalid)
  | registry (reason : Registry.Error)
  | log (reason : Log.Error)
  | file (why : FileError)
  /-- A document does not have the form that it should have. -/
  | malformed
  | other (text : String)
  deriving DecidableEq

inductive Error.Category where
  | settings
  | registry
  | degradeLog
  | file
  | document
  | other
  deriving DecidableEq, Repr

namespace Error

def category : Error → Category
  | unreadableSettings | settings _ => .settings
  | registry _ => .registry
  | log (.notAFile _) => .degradeLog
  | log (.file _) | file _ => .file
  | malformed => .document
  | other _ => .other

def Category.heading : Category → String
  | settings => "Configuration error: "
  | registry => "Registry error: "
  | degradeLog => "Degrade sink error: "
  | file => "I/O error: "
  | document => "Serialization error: "
  | other => ""

/-- The cause without its heading. -/
def cause? : Error → Option String
  | unreadableSettings | malformed => none
  | settings r => some r.message
  | registry r => r.message?
  | log r => some r.message
  | file why => some why.message
  | other text => some text

def message? (e : Error) : Option String := e.cause?.map (e.category.heading ++ ·)

/-- The wording within another text; what has none of ours is left out. -/
def message (e : Error) : String := e.category.heading ++ e.cause?.getD ""

end Error
end WorkerGuard
