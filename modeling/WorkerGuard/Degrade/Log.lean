import WorkerGuard.Degrade.Artifact
import WorkerGuard.FileError

/-!
# WorkerGuard.Degrade.Log

The log of tasks given up: a text with one artifact on each line, shared by all processes.

* `Log`: what there is in the place of the log.
* `Log.append`: adds a line at the end, whatever the log holds.
* `Log.artifacts`: the artifacts on its lines; a line that is none is passed over.
* `Log.countSince`: how many of a role were recorded after an instant.

`append`, `artifacts` and `countSince` embed `append`, `read_all` and `count_since` of
`FileDegradeSink`.
-/

namespace WorkerGuard

inductive Log where
  | missing
  | directory
  | text (cs : List Char)
  /-- A file whose bytes are no text. -/
  | garbled

inductive Log.Error where
  /-- A directory cannot be appended to. -/
  | notAFile (path : String)
  /-- It cannot be read. -/
  | file (why : FileError)
  deriving DecidableEq, Repr

namespace Log

instance : Inhabited Log := ⟨missing⟩

def Error.message : Error → String
  | notAFile path => path ++ ": " ++ FileError.isFolder.message
  | file why => why.message

/-- The pieces of a text between its line ends. -/
def lines : List Char → List (List Char)
  | [] => [[]]
  | c :: r =>
    if c = '\n' then [] :: lines r
    else
      match lines r with
      | [] => [[c]]
      | l :: ls => (c :: l) :: ls

def artifactsOf (cs : List Char) : List Artifact := (lines cs).filterMap Artifact.ofLine?

/-- A log that does not exist is empty. -/
def artifacts : Log → Except Error (List Artifact)
  | missing => .ok []
  | directory => .error (.file .isFolder)
  | text cs => .ok (artifactsOf cs)
  | garbled => .error (.file .notText)

/-- A line never makes a text of a file that is none. -/
def append (path : String) (a : Artifact) : Log → Except Error Log
  | missing => .ok (text (a.line ++ ['\n']))
  | directory => .error (.notAFile path)
  | text cs => .ok (text (cs ++ (a.line ++ ['\n'])))
  | garbled => .ok garbled

def countSince (role : String) (since : Instant) (as : List Artifact) : Nat :=
  (as.filter fun a => a.role == role && decide (since < a.recordedAt)).length

/-- The whole text. -/
def contents : Log → Except Error String
  | missing => .error (.file .missing)
  | directory => .error (.file .isFolder)
  | text cs => .ok (String.ofList cs)
  | garbled => .error (.file .notText)

def ofBytes (bytes : List UInt8) : Log :=
  match String.fromUTF8? ⟨bytes.toArray⟩ with
  | some s => text s.toList
  | none => garbled

/-- Replaces the whole content; there has to be a file, or a place for it. -/
def overwrite (bytes : List UInt8) : Log → Except Error Log
  | missing => .error (.file .missing)
  | directory => .error (.file .isFolder)
  | text _ | garbled => .ok (ofBytes bytes)

end Log
end WorkerGuard
