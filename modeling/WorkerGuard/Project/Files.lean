import WorkerGuard.Error
import WorkerGuard.Project.Path
import WorkerGuard.Registry.Database

/-!
# WorkerGuard.Project.Files

The files that projects are kept in.

* `File`: a folder, a document or a database; `Files`: all of them, by place.
* `Files.makeFolders`: the folders on the way to a file.
* `Files.openDatabase`: the database at a path, a new one if there is nothing.
* `Files.read`, `Files.write`: documents; `Files.log`: what a path is as a log of given-up tasks.
-/

namespace WorkerGuard

inductive File where
  | folder
  | document (bytes : ByteArray)
  | database (db : Registry.Database)

structure Files where
  entries : Keyed File := .empty
  deriving Inhabited

namespace Files

def find? (fs : Files) (path : String) : Option File :=
  if (Path.way path).isEmpty then some .folder else fs.entries.find? (Path.place path)

def contains (fs : Files) (path : String) : Bool := (fs.find? path).isSome

def put (fs : Files) (path : String) (f : File) : Files :=
  ⟨fs.entries.insert (Path.place path) f⟩

/-- Makes the folders at places that each lie in the one before. -/
def makeAll : List String → Files → Except FileError Files
  | [], fs => .ok fs
  | p :: ps, fs =>
    match fs.entries.find? p with
    | none => makeAll ps ⟨fs.entries.insert p .folder⟩
    | some .folder => makeAll ps fs
    | some (.document _) | some (.database _) =>
      .error (if ps.isEmpty then .taken else .notAFolder)

def makeFolders (fs : Files) (path : String) : Except FileError Files :=
  makeAll (Path.ancestors path) fs

/-- What was made on the way stays, even if the database is refused. -/
def openDatabase (fs : Files) (path : String) : Except Error Registry.Database × Files :=
  match fs.makeFolders path with
  | .error e => (.error (.file e), fs)
  | .ok fs =>
    if Path.isFolder path then (.error (.registry .rejected), fs)
    else
      match fs.find? path with
      | none => (.ok .empty, fs.put path (.database .empty))
      | some (.database db) => (.ok db, fs)
      | some .folder | some (.document _) => (.error (.registry .rejected), fs)

/-- A document, if there is something at its path. -/
def read (fs : Files) (path : String) : Except FileError (Option ByteArray) :=
  match fs.find? path with
  | none => .ok none
  | some (.document bytes) => .ok (some bytes)
  | some .folder => .error .isFolder
  | some (.database _) => .error .notText

def write (fs : Files) (path : String) (bytes : ByteArray) : Except FileError Files :=
  match fs.find? path with
  | some .folder => .error .isFolder
  | _ => (fs.makeFolders path).map fun fs => fs.put path (.document bytes)

def log (fs : Files) (path : String) : Log :=
  match fs.find? path with
  | none => .missing
  | some (.document bytes) => .ofBytes bytes.toList
  | some .folder => .directory
  | some (.database _) => .garbled

/-- Puts back a log that may have grown. -/
def putLog (fs : Files) (path : String) : Log → Files
  | .text cs =>
    match fs.write path (String.ofList cs).toUTF8 with
    | .ok fs => fs
    | .error _ => fs
  | _ => fs

end Files
end WorkerGuard
