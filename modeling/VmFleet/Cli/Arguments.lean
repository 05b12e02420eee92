/-
The grammar of command lines. A command has options and either commands of its
own or positional arguments. Options of every level may stand before or after
the commands below it if they are global; of two values the deeper one counts.
-/
import VmFleet.Bounds
import VmFleet.Text.Decimal

namespace VmFleet.Cli

/-- What an option's value must be. -/
inductive ValueKind where
  | text
  /-- A path is not empty. -/
  | path
  /-- A whole number without a minus sign. -/
  | below (bound : Nat)
  /-- A whole number that may have a minus sign, which only zero may have. -/
  | signedBelow (bound : Nat)
  deriving DecidableEq, Repr

namespace ValueKind

/-- Reads a number with or without a sign. -/
def readSigned? (bound : Nat) : List Char → Option Nat
  | '-' :: digits => (Text.readDigits? digits).filter (· == 0)
  | cs => Text.readBelow? bound cs

def accepts : ValueKind → String → Bool
  | .text, _ => true
  | .path, s => !s.isEmpty
  | .below bound, s => (Text.readBelow? bound s.toList).isSome
  | .signedBelow bound, s => (readSigned? bound s.toList).isSome

end ValueKind

/-- What an option does. -/
inductive OptionRole where
  | flag
  | value (kind : ValueKind)
  /-- Ends the reading with the version or the help. -/
  | showVersion
  | showHelp
  deriving DecidableEq, Repr

def OptionRole.ends : OptionRole → Bool
  | .showVersion | .showHelp => true
  | .flag | .value _ => false

structure OptionSpec where
  name : String
  short : Option Char := none
  role : OptionRole
  required : Bool := false
  deriving DecidableEq, Repr

structure CommandSpec where
  /-- The commands down to this one. -/
  path : List String
  options : List OptionSpec := []
  positionals : List String := []
  deriving DecidableEq, Repr

/-- All commands, and the options that every one of them has. -/
structure Grammar where
  globals : List OptionSpec
  commands : List CommandSpec

namespace Grammar

def find? (g : Grammar) (path : List String) : Option CommandSpec :=
  g.commands.find? (·.path == path)

/-- The command has commands below it. -/
def hasCommands (g : Grammar) (path : List String) : Bool :=
  g.commands.any fun c => c.path.length == path.length + 1 && path.isPrefixOf c.path

end Grammar

/-- What was read of a command line. -/
structure Arguments where
  path : List String
  /-- Options and positional arguments with their values; a flag has an empty one. -/
  values : List (String × String)
  deriving DecidableEq, Repr

namespace Arguments

def get? (a : Arguments) (name : String) : Option String :=
  a.values.lookup name

def get (a : Arguments) (name : String) : String :=
  (a.get? name).getD ""

/-- The value of an option for a number. -/
def number (a : Arguments) (name : String) (fallback : Nat) : Nat :=
  ((a.get? name).bind fun s => ValueKind.readSigned? bound64 s.toList).getD fallback

end Arguments

/-- How the reading of a command line ends. -/
inductive Reading where
  | usage
  | version
  | help
  | arguments (a : Arguments)
  deriving DecidableEq, Repr

/-- The help on the command that the names lead to. Where there are commands, `help` is one of them,
without commands of its own. -/
def Grammar.helpOn (g : Grammar) (path : List String) : (names : List String) → Reading
  | [] => .help
  | name :: rest =>
    if name == "help" && g.hasCommands path then
      if rest.isEmpty then .help else .usage
    else if (g.find? (path ++ [name])).isSome then g.helpOn (path ++ [name]) rest
    else .usage

/-- The state of the reading. -/
structure Reader where
  grammar : Grammar
  command : CommandSpec
  /-- What was given to this command, latest first. -/
  here : List (String × String) := []
  /-- What was given to the commands above, deepest first. -/
  above : List (String × String) := []
  /-- Only positional arguments may follow. -/
  literal : Bool := false

namespace Reader

def options (r : Reader) : List OptionSpec :=
  r.command.options ++ r.grammar.globals

/-- An option is given once to a command. -/
def put? (r : Reader) (name value : String) : Option Reader :=
  if r.here.any (·.1 == name) then none
  else some { r with here := (name, value) :: r.here }

/-- Takes an argument as the next positional one. -/
def positional? (r : Reader) (arg : String) : Option Reader :=
  match r.command.positionals.find? fun name => !r.here.any (·.1 == name) with
  | some name => r.put? name arg
  | none => none

/-- Takes an argument as the name of a command, or else as a positional argument. -/
def word? (r : Reader) (arg : String) : Option Reader :=
  match (if r.literal then none else r.grammar.find? (r.command.path ++ [arg])) with
  | some command => some { r with command := command, here := [], above := r.here ++ r.above }
  | none => r.positional? arg

/-- The arguments, if nothing is missing. -/
def finish (r : Reader) : Reading :=
  let missing := r.command.options.any (fun o => o.required && !r.here.any (·.1 == o.name)) ||
    r.command.positionals.any (fun name => !r.here.any (·.1 == name))
  if missing || r.grammar.hasCommands r.command.path then .usage
  else .arguments ⟨r.command.path, r.here ++ r.above⟩

/-- An option as it is written: which one, and the value that is attached to it. A short option that
ends the reading does so whatever is attached. -/
def option? (r : Reader) (arg : List Char) : Option (OptionSpec × Option String) :=
  match arg with
  | '-' :: '-' :: long =>
    let name := String.ofList (long.takeWhile (· != '='))
    let attached := match long.dropWhile (· != '=') with
      | [] => none
      | _ :: value => some (String.ofList value)
    (r.options.find? (·.name == name)).map (·, attached)
  | '-' :: short :: rest =>
    let attached := match rest with
      | [] => none
      | '=' :: value => some (String.ofList value)
      | value => some (String.ofList value)
    (r.options.find? (·.short == some short)).map fun o =>
      (o, if o.role.ends then none else attached)
  | _ => none

/-- A text that cannot stand as the value of an option before it. -/
def looksLikeOption (arg : String) : Bool :=
  arg.startsWith "-" && arg != "-"

/-- Reads a command line from the first argument on. -/
def read : List String → Reader → Reading
  | [], r => r.finish
  | arg :: rest, r =>
    if !r.literal && arg == "help" && r.grammar.hasCommands r.command.path then
      r.grammar.helpOn r.command.path rest
    else if r.literal || !looksLikeOption arg then
      match r.word? arg with
      | some r => read rest r
      | none => .usage
    else if arg = "--" then read rest { r with literal := true }
    else match r.option? arg.toList with
      | none => .usage
      | some (⟨_, _, .showVersion, _⟩, attached) => if attached.isSome then .usage else .version
      | some (⟨_, _, .showHelp, _⟩, attached) => if attached.isSome then .usage else .help
      | some (⟨name, _, .flag, _⟩, attached) =>
        match attached, r.put? name "" with
        | none, some r => read rest r
        | _, _ => .usage
      | some (⟨name, _, .value kind, _⟩, some value) =>
        if kind.accepts value then
          match r.put? name value with
          | some r => read rest r
          | none => .usage
        else .usage
      | some (⟨name, _, .value kind, _⟩, none) =>
        match rest with
        | [] => .usage
        | value :: rest =>
          if looksLikeOption value || !kind.accepts value then .usage
          else match r.put? name value with
            | some r => read rest r
            | none => .usage

end Reader

/-- Reads a command line. -/
def Grammar.read (g : Grammar) (args : List String) : Reading :=
  match g.find? [] with
  | some root => Reader.read args ⟨g, root, [], [], false⟩
  | none => .usage

end VmFleet.Cli
