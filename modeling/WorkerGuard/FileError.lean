/-!
# WorkerGuard.FileError

What can be wrong with a path that should lead to a file.

* `FileError`: the faults; `FileError.message`: their wording, that of the system.
-/

namespace WorkerGuard

inductive FileError where
  | missing
  /-- A folder, where there should be a file. -/
  | isFolder
  /-- A file, where there should be a folder. -/
  | taken
  /-- On the way to the file there is one that is no folder. -/
  | notAFolder
  /-- Bytes that are no text. -/
  | notText
  deriving DecidableEq, Repr

def FileError.message : FileError → String
  | missing => "No such file or directory (os error 2)"
  | isFolder => "Is a directory (os error 21)"
  | taken => "File exists (os error 17)"
  | notAFolder => "Not a directory (os error 20)"
  | notText => "stream did not contain valid UTF-8"

end WorkerGuard
