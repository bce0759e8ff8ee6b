import WorkerGuard.Command.Basic

/-!
# WorkerGuard.Command.Arguments

Command lines: options by name, flags, and operands by position.

* `Arguments.Form`: which options, flags and operands a command takes.
* `Form.read`: sorts arguments by a form. An option or flag may be given once; all that follows two
  hyphens is an operand.
* `Invocation`: a command, and the project that it is for. `Invocation.read` reads a command line.

The forms are those of `Cli` and `Commands`.
-/

namespace WorkerGuard.Arguments

/-- Why there is nothing to be done. -/
inductive Stop where
  /-- The arguments do not have the form that they should have. -/
  | usage
  | help
  | version
  deriving DecidableEq, Repr

/-- An option or a flag: its name, and its letter, if it has one. -/
structure Name where
  long : String
  letter : Option Char := none
  deriving DecidableEq, Repr

structure Form where
  /-- Options, and which values each takes. -/
  options : List (Name × (String → Bool)) := []
  flags : List Name := []
  /-- At most so many. -/
  operands : Nat := 0

/-- The arguments by name and by position. -/
structure Given where
  values : List (String × String) := []
  flags : List String := []
  operands : List String := []
  deriving Repr

/-- An argument by how it begins. -/
inductive Word where
  /-- Two hyphens alone. -/
  | divider
  | long (name : String) (value : Option String)
  | letters (cs : List Char)
  | operand (s : String)
  deriving DecidableEq, Repr

namespace Word

/-- A value may follow an equals sign. -/
def ofLong (cs : List Char) : Word :=
  match cs.dropWhile (· != '=') with
  | [] => long (String.ofList cs) none
  | _ :: value => long (String.ofList (cs.takeWhile (· != '='))) (some (String.ofList value))

def ofString (s : String) : Word :=
  match s.toList with
  | ['-', '-'] => divider
  | '-' :: '-' :: cs => ofLong cs
  | '-' :: c :: cs => letters (c :: cs)
  | _ => operand s

end Word

namespace Form

/-- The flags that every form has. -/
def helpFlag : Name := ⟨"help", some 'h'⟩

def option? (f : Form) (p : Name → Bool) : Option (Name × (String → Bool)) :=
  f.options.find? fun o => p o.1

def flag? (f : Form) (p : Name → Bool) : Option Name := (f.flags ++ [helpFlag]).find? p

def giveValue (o : Name × (String → Bool)) (v : String) (g : Given) : Except Stop Given :=
  if o.2 v && (g.values.lookup o.1.long).isNone then
    .ok { g with values := g.values ++ [(o.1.long, v)] }
  else .error .usage

def giveFlag (n : Name) (g : Given) : Except Stop Given :=
  if n.long = "help" then .error .help
  else if n.long = "version" then .error .version
  else if g.flags.contains n.long then .error .usage
  else .ok { g with flags := g.flags ++ [n.long] }

def giveOperand (f : Form) (s : String) (g : Given) : Except Stop Given :=
  if g.operands.length < f.operands then .ok { g with operands := g.operands ++ [s] }
  else .error .usage

/-- Where the reader is: before any argument, behind an option whose value is to follow, or behind
the divider. -/
inductive Place where
  | between
  | valueOf (option : Name × (String → Bool))
  | behindDivider

def giveLong (f : Form) (name : String) (value : Option String) (g : Given) :
    Except Stop (Place × Given) := do
  match f.option? (·.long = name), value with
  | some o, some v => return (.between, ← giveValue o v g)
  | some o, none => return (.valueOf o, g)
  | none, some _ => throw .usage
  | none, none =>
    match f.flag? (·.long = name) with
    | some n => return (.between, ← giveFlag n g)
    | none => throw .usage

/-- Letters behind one hyphen: flags, and at the end perhaps an option with its value. -/
def giveLetters (f : Form) : List Char → Given → Except Stop (Place × Given)
  | [], g => .ok (.between, g)
  | c :: cs, g =>
    match f.option? (·.letter = some c) with
    | some o =>
      match cs with
      | [] => .ok (.valueOf o, g)
      | '=' :: value => (giveValue o (String.ofList value) g).map fun g => (.between, g)
      | value => (giveValue o (String.ofList value) g).map fun g => (.between, g)
    | none =>
      match f.flag? (·.letter = some c) with
      | some n =>
        match giveFlag n g with
        | .ok g => giveLetters f cs g
        | .error e => .error e
      | none => .error .usage

/-- Reads up to the first operand that cannot be taken, if `stop` says so. -/
def read (f : Form) (stop : Bool) : Place → Given → List String → Except Stop (Given × List String)
  | .between, g, [] | .behindDivider, g, [] => .ok (g, [])
  | .valueOf _, _, [] => .error .usage
  | .behindDivider, g, a :: rest =>
    match giveOperand f a g with
    | .ok g => read f stop .behindDivider g rest
    | .error e => .error e
  | .valueOf o, g, a :: rest =>
    match Word.ofString a with
    | .operand v =>
      match giveValue o v g with
      | .ok g => read f stop .between g rest
      | .error e => .error e
    | .divider | .long .. | .letters _ => .error .usage
  | .between, g, a :: rest =>
    match Word.ofString a with
    | .divider => read f stop .behindDivider g rest
    | .long name value =>
      match giveLong f name value g with
      | .ok (p, g) => read f stop p g rest
      | .error e => .error e
    | .letters cs =>
      match giveLetters f cs g with
      | .ok (p, g) => read f stop p g rest
      | .error e => .error e
    | .operand s =>
      if stop then .ok (g, s :: rest)
      else
        match giveOperand f s g with
        | .ok g => read f stop .between g rest
        | .error e => .error e

end Form

/-- A number below 2^64 in decimal digits, perhaps after a plus sign. -/
def word64? (s : String) : Option Nat :=
  let ds : List Char := match s.toList with
    | '+' :: ds => ds
    | ds => ds
  let n := ds.foldl (fun n d => 10 * n + (d.toNat - '0'.toNat)) 0
  if ds ≠ [] ∧ ds.all Char.isDigit ∧ n < UInt64.size then some n else none

end Arguments

/-- What is to be done, and where. -/
structure Invocation where
  root : String
  verbose : Bool
  command : Command
  deriving DecidableEq

namespace Invocation

open Arguments

def any (_ : String) : Bool := true

/-- The folder of the project; it may be named before or behind the name of the command. -/
def rootOption : Name × (String → Bool) := (⟨"root", none⟩, fun s => s != "")

/-- What may stand before the name of the command. -/
def general : Form :=
  { options := [rootOption], flags := [⟨"verbose", some 'v'⟩, ⟨"version", some 'V'⟩] }

/-- The commands and their forms. -/
def forms : List (String × Form) :=
  [("init", { flags := [⟨"force", none⟩] }),
    ("status", {}),
    ("workers", { options := [(⟨"state", none⟩, any)], flags := [⟨"json", none⟩] }),
    ("spawn", { options := [(⟨"role", none⟩, any), (⟨"dependency", none⟩, any),
      (⟨"parent", none⟩, any)] }),
    ("heartbeat", { operands := 1 }),
    ("terminate", { operands := 1 }),
    ("prune", { options := [(⟨"max-age-secs", none⟩, fun s => (word64? s).isSome)] }),
    ("trip", { options := [(⟨"reason", none⟩, any)], operands := 1 }),
    ("reset", { operands := 1 }),
    ("degraded", { options := [(⟨"limit", some 'n'⟩, fun s => (word64? s).isSome)] }),
    ("daemon", {})]

/-- The command of a name; options and operands that it cannot do without have to be there. -/
def command? (name : String) (g : Given) : Option Command :=
  let value (k : String) := g.values.lookup k
  match name, g.operands with
  | "init", [] => some (.init (g.flags.contains "force"))
  | "status", [] => some .status
  | "workers", [] => some (.workers (value "state") (g.flags.contains "json"))
  | "spawn", [] => (value "role").map fun role =>
      .spawn role ((value "dependency").getD "primary-api") (value "parent")
  | "heartbeat", [id] => some (.heartbeat id)
  | "terminate", [id] => some (.terminate id)
  | "prune", [] => some (.prune ((value "max-age-secs").bind word64? |>.map (·.toUInt64)))
  | "trip", [d] => some (.trip d (value "reason"))
  | "reset", [d] => some (.reset d)
  | "degraded", [] => some (.degraded ((value "limit").bind word64?))
  | "daemon", [] => some .daemon
  | _, _ => none

/-- Help is also a command of its own, and says more of one command. -/
def readHelp : List String → Stop
  | [] => .help
  | [name] => if name = "help" || (forms.lookup name).isSome then .help else .usage
  | _ => .usage

def read (args : List String) : Except Stop Invocation := do
  let (before, rest) ← general.read true .between {} args
  match rest with
  | [] => throw .usage
  | name :: rest =>
    if name = "help" then throw (readHelp rest)
    match forms.lookup name with
    | none => throw .usage
    | some form =>
      let (given, _) ← ({ form with options := rootOption :: form.options } : Form).read false
        .between {} rest
      match command? name given with
      | none => throw .usage
      | some command =>
        return {
          root := ((given.values.lookup "root").or (before.values.lookup "root")).getD "."
          verbose := before.flags.contains "verbose"
          command }

end Invocation
end WorkerGuard
