import WorkerGuard.Text.Column

/-!
# WorkerGuard.Command.Help

What the program says of itself.

* `Help.text`: the commands and the options; `Help.version`: the version.
-/

namespace WorkerGuard.Help

def version : String := "tether 0.1.0"

def commands : List (String × String) :=
  [("init", "Write the default config and create the registry"),
    ("status", "Show roles, worker trees, overrides and shared breakers"),
    ("workers", "List registered workers"),
    ("spawn", "Request a new worker through the spawn governor"),
    ("heartbeat", "Record a heartbeat for a worker"),
    ("terminate", "Mark a worker terminated"),
    ("prune", "Run one pruning pass"),
    ("trip", "Force a dependency's breaker open everywhere (emergency stop)"),
    ("reset", "Lift an emergency override"),
    ("degraded", "Show recorded degrade artifacts"),
    ("daemon", "Run the pruning sweeper and override watcher until Ctrl-C"),
    ("help", "Print this message or the help of the given subcommand(s)")]

def options : List (String × String) :=
  [("-v, --verbose", "Enable verbose logging"),
    ("    --root <ROOT>", "Project root holding the .tether directory [default: .]"),
    ("-h, --help", "Print help"),
    ("-V, --version", "Print version")]

/-- Names in a column as wide as the widest of them, and what each means. -/
def table (rows : List (String × String)) : String :=
  let width := rows.foldl (fun n r => max n r.1.length) 0
  String.join (rows.map fun r => "\n  " ++ Text.leftAligned width r.1 ++ "  " ++ r.2)

def text : String :=
  "Circuit breakers and spawn governance for autonomous workers\n\n" ++
    "Usage: tether [OPTIONS] <COMMAND>\n\nCommands:" ++ table commands ++
    "\n\nOptions:" ++ table options

end WorkerGuard.Help
