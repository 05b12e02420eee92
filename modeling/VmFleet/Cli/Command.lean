/-
The commands of the program and how they are written on a command line.
-/
import VmFleet.Cli.Arguments
import VmFleet.Client.Requests

namespace VmFleet.Cli

inductive PoolCommand where
  | create (name cidr gateway : String) (description : Option String)
  | list
  | stats (name : String)
  | setActive (name : String) (active : Bool)
  deriving DecidableEq, Repr

inductive VmCommand where
  | create (name : String) (vcpus memoryMb : Nat) (description kernel host pool : Option String)
  | list (offset limit : Nat)
  | get (vmId : String)
  | update (vmId : String) (name description : Option String)
  /-- Asks for a task of this kind. -/
  | request (kind : TaskKind) (vmId : String)
  deriving DecidableEq, Repr

inductive Command where
  | pool (c : PoolCommand)
  | vm (c : VmCommand)
  /-- Lists tasks. -/
  | tasks (status vm : Option String) (limit : Nat)
  /-- Runs queue workers until it is stopped. -/
  | worker
  /-- Sweeps once. -/
  | janitor
  deriving DecidableEq, Repr

/-- When a command writes to the state. -/
inductive Writing where
  | never
  /-- Before it looks at the state. -/
  | atOnce
  /-- After it found nothing wrong. -/
  | afterChecks
  deriving DecidableEq, Repr

def Command.writing : Command → Writing
  | .pool .list | .pool (.stats _) | .vm (.list _ _) | .vm (.get _) | .tasks _ _ _ => .never
  | .pool (.setActive _ _) => .atOnce
  | .pool (.create _ _ _ _) | .vm (.create _ _ _ _ _ _ _) | .vm (.update _ _ _)
  | .vm (.request _ _) | .worker | .janitor => .afterChecks

/-- A command with the options that every command has. -/
structure Invocation where
  config : Option String
  db : Option String
  owner : String
  command : Command
  deriving DecidableEq, Repr

def textOption (name : String) (short : Option Char := none) (required : Bool := false) :
    OptionSpec :=
  ⟨name, short, .value .text, required⟩

def numberOption (name : String) (kind : ValueKind) (short : Option Char := none) : OptionSpec :=
  ⟨name, short, .value kind, false⟩

def grammar : Grammar where
  globals := [
    ⟨"config", none, .value .path, false⟩,
    ⟨"db", none, .value .path, false⟩,
    ⟨"owner", none, .value .text, false⟩,
    ⟨"log-json", none, .flag, false⟩,
    ⟨"help", some 'h', .showHelp, false⟩]
  commands := [
    { path := [], options := [⟨"version", some 'V', .showVersion, false⟩] },
    { path := ["pool"] },
    { path := ["pool", "create"]
      options := [textOption "name" (some 'n') true, textOption "cidr" (some 'c') true,
        textOption "gateway" (some 'g') true, textOption "description" (some 'd')] },
    { path := ["pool", "list"] },
    { path := ["pool", "stats"], positionals := ["NAME"] },
    { path := ["pool", "disable"], positionals := ["NAME"] },
    { path := ["pool", "enable"], positionals := ["NAME"] },
    { path := ["vm"] },
    { path := ["vm", "create"]
      options := [textOption "name" (some 'n') true, numberOption "vcpus" (.signedBelow bound32),
        numberOption "memory" (.signedBelow bound32) (some 'm'),
        textOption "description" (some 'd'), textOption "kernel", textOption "host",
        textOption "pool" (some 'p')] },
    { path := ["vm", "list"]
      options := [numberOption "offset" (.below bound64),
        numberOption "limit" (.below bound64) (some 'l')] },
    { path := ["vm", "get"], positionals := ["VM_ID"] },
    { path := ["vm", "update"]
      options := [textOption "name" (some 'n'), textOption "description" (some 'd')]
      positionals := ["VM_ID"] },
    { path := ["vm", "start"], positionals := ["VM_ID"] },
    { path := ["vm", "stop"], positionals := ["VM_ID"] },
    { path := ["vm", "restart"], positionals := ["VM_ID"] },
    { path := ["vm", "delete"], positionals := ["VM_ID"] },
    { path := ["tasks"]
      options := [textOption "status" (some 's'), textOption "vm",
        numberOption "limit" (.below bound64) (some 'l')] },
    { path := ["worker"] },
    { path := ["janitor"] }]

/-- The command that arguments of the grammar name. -/
def commandOf? (a : Arguments) : Option Command :=
  let vmId := a.get "VM_ID"
  match a.path with
  | ["pool", "create"] =>
    some (.pool (.create (a.get "name") (a.get "cidr") (a.get "gateway") (a.get? "description")))
  | ["pool", "list"] => some (.pool .list)
  | ["pool", "stats"] => some (.pool (.stats (a.get "NAME")))
  | ["pool", "disable"] => some (.pool (.setActive (a.get "NAME") false))
  | ["pool", "enable"] => some (.pool (.setActive (a.get "NAME") true))
  | ["vm", "create"] =>
    some (.vm (.create (a.get "name") (a.number "vcpus" 1) (a.number "memory" 512)
      (a.get? "description") (a.get? "kernel") (a.get? "host") (a.get? "pool")))
  | ["vm", "list"] => some (.vm (.list (a.number "offset" 0) (a.number "limit" 20)))
  | ["vm", "get"] => some (.vm (.get vmId))
  | ["vm", "update"] => some (.vm (.update vmId (a.get? "name") (a.get? "description")))
  | ["vm", "start"] => some (.vm (.request .start vmId))
  | ["vm", "stop"] => some (.vm (.request .stop vmId))
  | ["vm", "restart"] => some (.vm (.request .restart vmId))
  | ["vm", "delete"] => some (.vm (.request .delete vmId))
  | ["tasks"] => some (.tasks (a.get? "status") (a.get? "vm") (a.number "limit" 50))
  | ["worker"] => some .worker
  | ["janitor"] => some .janitor
  | _ => none

/-- What a command line asks for. -/
inductive Request where
  | usage
  | version
  | help
  | invoke (i : Invocation)
  deriving DecidableEq, Repr

def Request.read (args : List String) : Request :=
  match grammar.read args with
  | .usage => .usage
  | .version => .version
  | .help => .help
  | .arguments a =>
    match commandOf? a with
    | none => .usage
    | some c => .invoke ⟨a.get? "config", a.get? "db", (a.get? "owner").getD "admin", c⟩

end VmFleet.Cli
