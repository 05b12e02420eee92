/-
Where a configuration comes from: a JSON file, and variables of the environment
that override it. The first variable that cannot be read is reported.
-/
import VmFleet.Config.Record
import VmFleet.Error
import VmFleet.Files.Path
import VmFleet.Json.Reader
import VmFleet.Text.Blank

namespace VmFleet.Config

/-- The configuration of a file. -/
def load (path : String) (contents : Except FileFault String) : Except Error Config :=
  match contents with
  | .error why => .error (.config ("cannot read " ++ path ++ ": " ++ why.message))
  | .ok text =>
    match (Json.parse? text).bind ofJson? with
    | some c => .ok c
    | none => .error .json

/-- Every variable's name starts with this. -/
def variableLead : String := "MVKUBE_"

/-- A whole number below `bound`, with blanks around it. -/
def readNumber (name : String) (bound : Nat) (raw : String) : Except Error Nat :=
  match Text.readBelow? bound (Text.trimChars raw.toList) with
  | some n => .ok n
  | none => .error (.config (variableLead ++ name ++ " must be a number, got '" ++ raw ++ "'"))

def readMillis (name raw : String) : Except Error Duration :=
  (readNumber name bound64 raw).map Duration.ofMillis

/-- The effect of one variable: nothing if it is not set. -/
def override (lookup : String → Option String) (name : String)
    (apply : String → Config → Except Error Config) (c : Config) : Except Error Config :=
  match lookup (variableLead ++ name) with
  | some raw => apply raw c
  | none => .ok c

/-- The variables in the order in which they are read, and what each does. An empty default host
is no host. -/
def overrides : List (String × (String → Config → Except Error Config)) := [
  ("DB_PATH", fun raw c => .ok { c with dbPath := raw }),
  ("DEFAULT_POOL", fun raw c => .ok { c with defaultPool := raw }),
  ("DEFAULT_HOST", fun raw c =>
    .ok { c with defaultHost := if raw.isEmpty then none else some raw }),
  ("PROVISIONER", fun raw c => .ok { c with tool := { c.tool with program := raw } }),
  ("DEPLOY_PATH", fun raw c => .ok { c with tool := { c.tool with deployPath := raw } }),
  ("INVENTORY", fun raw c => .ok { c with tool := { c.tool with inventory := raw } }),
  ("TOOL_TIMEOUT_MS", fun raw c => do
    let d ← readMillis "TOOL_TIMEOUT_MS" raw
    return { c with tool := { c.tool with timeout := d } }),
  ("CONCURRENCY", fun raw c => do
    let n ← readNumber "CONCURRENCY" bound64 raw
    return { c with queue := { c.queue with concurrency := n } }),
  ("MAX_ATTEMPTS", fun raw c => do
    let n ← readNumber "MAX_ATTEMPTS" bound32 raw
    return { c with queue := { c.queue with maxAttempts := n } }),
  ("RETRY_BACKOFF_MS", fun raw c => do
    let d ← readMillis "RETRY_BACKOFF_MS" raw
    return { c with queue := { c.queue with retryBackoff := d } }),
  ("SOFT_TIME_LIMIT_MS", fun raw c => do
    let d ← readMillis "SOFT_TIME_LIMIT_MS" raw
    return { c with queue := { c.queue with softLimit := d } }),
  ("HARD_TIME_LIMIT_MS", fun raw c => do
    let d ← readMillis "HARD_TIME_LIMIT_MS" raw
    return { c with queue := { c.queue with hardLimit := d } }),
  ("POLL_INTERVAL_MS", fun raw c => do
    let d ← readMillis "POLL_INTERVAL_MS" raw
    return { c with queue := { c.queue with pollInterval := d } }),
  ("JANITOR_INTERVAL_MS", fun raw c => do
    let d ← readMillis "JANITOR_INTERVAL_MS" raw
    return { c with queue := { c.queue with janitorInterval := d } })]

/-- The configuration with the overrides of an environment. -/
def withEnvironment (lookup : String → Option String) (c : Config) : Except Error Config :=
  overrides.foldlM (fun c (name, apply) => override lookup name apply c) c

end VmFleet.Config
