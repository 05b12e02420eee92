/-
Everything that can go wrong, by cause, with the one text of each cause. A
transient error may go away on a later attempt; the others will not.
-/
import VmFleet.Time.Duration
import VmFleet.Text.Quoted
import VmFleet.Vm.Status

namespace VmFleet

/-- How a run of the provisioning tool failed. -/
inductive ProvisionError where
  /-- The tool did not finish within its time and was stopped. -/
  | timeout (after : Duration)
  | unreachable (what : String)
  /-- The tool ran and reported a failure. -/
  | rejected (why : String)
  /-- The tool could not be started. -/
  | setup (why : String)
  deriving DecidableEq, Repr

namespace ProvisionError

def message : ProvisionError → String
  | .timeout d => "Provisioning timed out after " ++ d.text
  | .unreachable what => "Host unreachable: " ++ what
  | .rejected why => "Provisioning failed: " ++ why
  | .setup why => "Provisioner setup error: " ++ why

def isTransient : ProvisionError → Bool
  | .timeout _ | .unreachable _ => true
  | .rejected _ | .setup _ => false

end ProvisionError

inductive Error where
  | database (what : String)
  /-- No VM is stored under this id, public or internal. -/
  | vmNotFound (id : String)
  | taskNotFound (id : String)
  | invalidTransition (vmId : String) (current next : VmStatus)
  /-- No active pool has this name. -/
  | unknownPool (name : String)
  | exhausted (pool : String) (allocated total : Nat)
  | poolAlreadyExists (name : String)
  | invalidNetwork (why : String)
  | provision (e : ProvisionError)
  | validation (why : String)
  | config (why : String)
  | timeout (after : Duration)
  | worker (what : String)
  | parse (what : String)
  | io (what : String)
  /-- A JSON text is malformed or has the wrong shape. -/
  | json
  deriving DecidableEq, Repr

namespace Error

def natText (n : Nat) : String :=
  String.ofList (Text.decimal n)

/-- What a word names, if it names anything; `what` says what it was taken for. -/
def orUnknown {α : Type} (what word : String) : Option α → Except Error α
  | some a => .ok a
  | none => .error (.parse ("unknown " ++ what ++ " '" ++ word ++ "'"))

def message : Error → String
  | .database what => "Database error: " ++ what
  | .vmNotFound id => "VM not found: " ++ id
  | .taskNotFound id => "Task not found: " ++ id
  | .invalidTransition id current next =>
    "Invalid transition: VM " ++ id ++ " is " ++ current.text ++ ", cannot move to " ++ next.text
  | .unknownPool name => "IP pool '" ++ name ++ "' not found or not active"
  | .exhausted pool allocated total =>
    "No available IPs in pool '" ++ pool ++ "' (" ++ natText allocated ++ "/" ++ natText total ++
      " allocated)"
  | .poolAlreadyExists name => "IP pool already exists: " ++ name
  | .invalidNetwork why => "Invalid network configuration: " ++ why
  | .provision e => e.message
  | .validation why => "Validation error: " ++ why
  | .config why => "Configuration error: " ++ why
  | .timeout d => "Operation timed out after " ++ d.text
  | .worker what => "Worker error: " ++ what
  | .parse what => "Parse error: " ++ what
  | .io what => "IO error: " ++ what
  | .json => "JSON error"

/-- A later attempt may succeed. -/
def isTransient : Error → Bool
  | .provision e => e.isTransient
  | .timeout _ | .database _ | .worker _ => true
  | _ => false

def isInvalidTransition : Error → Bool
  | .invalidTransition .. => true
  | _ => false

/-- The name of the cause. -/
def kind : Error → String
  | .database _ => "Database"
  | .vmNotFound _ => "VmNotFound"
  | .taskNotFound _ => "TaskNotFound"
  | .invalidTransition .. => "InvalidTransition"
  | .unknownPool _ => "UnknownPool"
  | .exhausted .. => "Exhausted"
  | .poolAlreadyExists _ => "PoolAlreadyExists"
  | .invalidNetwork _ => "InvalidNetwork"
  | .provision (.timeout _) => "Provision.Timeout"
  | .provision (.unreachable _) => "Provision.Unreachable"
  | .provision (.rejected _) => "Provision.Rejected"
  | .provision (.setup _) => "Provision.Setup"
  | .validation _ => "Validation"
  | .config _ => "Config"
  | .timeout _ => "Timeout"
  | .worker _ => "Worker"
  | .parse _ => "Parse"
  | .io _ => "Io"
  | .json => "Json"

end Error

end VmFleet
