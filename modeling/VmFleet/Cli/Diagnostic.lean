/-
Errors as the program's last words show them: the cause by name with its
particulars, texts in quotes.
-/
import VmFleet.Error

namespace VmFleet

open Text (quoted)

def ProvisionError.diagnostic : ProvisionError → String
  | .timeout d => "Timeout(" ++ d.text ++ ")"
  | .unreachable what => "Unreachable(" ++ quoted what ++ ")"
  | .rejected why => "Rejected(" ++ quoted why ++ ")"
  | .setup why => "Setup(" ++ quoted why ++ ")"

namespace Error

/-- A cause with one text. -/
def named (name what : String) : String :=
  name ++ "(" ++ quoted what ++ ")"

def diagnostic : Error → String
  | .database what => named "Database" what
  | .vmNotFound id => named "VmNotFound" id
  | .taskNotFound id => named "TaskNotFound" id
  | .invalidTransition id current next =>
    "InvalidTransition \x7b vm_id: " ++ quoted id ++ ", current: " ++ current.name ++ ", next: " ++
      next.name ++ " \x7d"
  | .unknownPool name => named "UnknownPool" name
  | .exhausted pool allocated total =>
    "Exhausted \x7b pool: " ++ quoted pool ++ ", allocated: " ++ natText allocated ++ ", total: " ++
      natText total ++ " \x7d"
  | .poolAlreadyExists name => named "PoolAlreadyExists" name
  | .invalidNetwork why => named "InvalidNetwork" why
  | .provision e => "Provision(" ++ e.diagnostic ++ ")"
  | .validation why => named "Validation" why
  | .config why => named "Config" why
  | .timeout d => "Timeout(" ++ d.text ++ ")"
  | .worker what => named "Worker" what
  | .parse what => named "Parse" what
  | .io what => named "Io" what
  | .json => "Json"

end Error

end VmFleet
