import Std.Time.DateTime.Timestamp
import WorkerGuard.Command.Arguments
import WorkerGuard.Command.Help
import WorkerGuard.Command.Run
import WorkerGuard.Registry.Stored

/-!
# WorkerGuard.Main

The program for operators. It reads the files of a project, runs a command on them, and writes back
what the command changed; nobody else works on the project meanwhile.
-/

namespace WorkerGuard.Main

def now : IO Instant := do
  let t ← Std.Time.Timestamp.now
  return (Instant.ofParts? t.val.second.val t.val.nano.val.toNat).getD .epoch

/-- Sixteen random bytes as a name. -/
def freshId : IO WorkerId := do
  let digits := (← IO.getRandomBytes 16).toList.flatMap fun b =>
    [Nat.digitChar (b.toNat / 16), Nat.digitChar (b.toNat % 16)]
  let part (start length : Nat) : String := String.ofList ((digits.drop start).take length)
  return ⟨"w-" ++ part 0 8 ++ "-" ++ part 8 4 ++ "-4" ++ part 13 3 ++ "-a" ++ part 17 3 ++ "-" ++
    part 20 12⟩

def occasion : IO Occasion := do
  let first ← freshId
  return ⟨← now, fun n => if n = 1 then first else ⟨first.text ++ "-" ++ toString n⟩⟩

/-- Takes up what there is at a path. -/
def take (fs : Files) (path : String) (ofBytes : ByteArray → File) : IO Files := do
  try
    return fs.put path (ofBytes (← IO.FS.readBinFile path))
  catch
    | .noFileOrDirectory .. => return fs
    | .inappropriateType .. => return fs.put path .folder
    | e => throw e

def databaseOf (bytes : ByteArray) : File :=
  match (String.fromUTF8? bytes).bind Registry.Database.ofText? with
  | some db => .database db
  | none => .document bytes

/-- The files that a command may look at: by the settings there are, and by the default ones. -/
def filesOf (root : String) : IO Files := do
  let fs ← take {} (Project.settingsPath root) .document
  let found := match Project.loadSettings root fs with
    | .ok s => [s]
    | .error _ => []
  let mut fs := fs
  for s in ({} : Settings) :: found do
    let p : Project := ⟨root, s⟩
    fs ← take fs p.databasePath databaseOf
    fs ← take fs p.logPath .document
  return fs

def bytesOf? : File → Option ByteArray
  | .folder => none
  | .document bytes => some bytes
  | .database db => some db.text.toUTF8

/-- Writes what differs. -/
def giveBack (before after : Files) : IO Unit := do
  for (place, f) in after.entries.entries do
    match bytesOf? f with
    | none => IO.FS.createDirAll place
    | some bytes =>
      if (before.entries.find? place).bind bytesOf? != some bytes then
        IO.FS.writeBinFile place bytes

def perform (root : String) (c : Command) : IO Command.Run := do
  IO.FS.createDirAll (Path.join root ".tether")
  IO.FS.withFile (Path.join root ".tether/lock") .append fun lock => do
    lock.lock
    let before ← filesOf root
    let (run, after, _) := c.run (← occasion) root before
    giveBack before after
    return run

def display (r : Command.Run) : IO Unit := do
  r.lines.forM IO.println
  r.report.forM fun report => IO.eprint report

/-- Milliseconds between the sweeps of a project. -/
def pause (root : String) : IO Nat := do
  match Project.loadSettings root (← filesOf root) with
  | .ok s => return max 10 s.lifecycle.sweepInterval.millis
  | .error _ => return 60000

/-- Sweeps again and again. -/
partial def patrol (root : String) : IO Unit := do
  IO.sleep (min (← pause root) 4294967295).toUInt32
  display (← perform root .daemon)
  patrol root

def runInvocation (i : Invocation) : IO UInt32 := do
  if i.verbose then IO.eprintln ("project in " ++ i.root)
  let run ← perform i.root i.command
  display run
  if i.command = .daemon && run.code == 0 then patrol i.root
  return run.code

def stop : Arguments.Stop → IO UInt32
  | .usage => do
    IO.eprintln Help.text
    return 2
  | .help => do
    IO.println Help.text
    return 0
  | .version => do
    IO.println Help.version
    return 0

end WorkerGuard.Main

def main (args : List String) : IO UInt32 :=
  match WorkerGuard.Invocation.read args with
  | .ok i => WorkerGuard.Main.runInvocation i
  | .error why => WorkerGuard.Main.stop why
