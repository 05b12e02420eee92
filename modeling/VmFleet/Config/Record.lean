/-
The configuration: where state is kept, what a create request falls back to,
how the provisioning tool is run and how the queue treats its tasks. Its JSON
form gives times in milliseconds; whatever is left out keeps its default.
-/
import VmFleet.Json.Record
import VmFleet.Time.Duration

namespace VmFleet

/-- How the provisioning tool is run. -/
structure ToolConfig where
  program : String := "ansible-playbook"
  /-- Directory of the playbooks; the tool runs in it. -/
  deployPath : String := "deploy"
  /-- Relative to the deploy directory unless absolute. -/
  inventory : String := "inventory.ini"
  /-- No run takes longer. -/
  timeout : Duration := .ofSeconds 120
  deriving DecidableEq, Repr

/-- Workers and retries. -/
structure QueueConfig where
  concurrency : Nat := 4
  /-- Attempts per task, the first included. -/
  maxAttempts : Nat := 3
  /-- Delay before the first retry, doubled with each further one. -/
  retryBackoff : Duration := .ofSeconds 5
  /-- Remote calls are given no time beyond this. -/
  softLimit : Duration := .ofSeconds 280
  /-- A handler is aborted and cleaned up after past this. -/
  hardLimit : Duration := .ofSeconds 300
  /-- Pause of a worker that finds nothing due. -/
  pollInterval : Duration := .ofMillis 500
  janitorInterval : Duration := .ofSeconds 60
  deriving DecidableEq, Repr

structure Config where
  dbPath : String := "mvkube.db"
  /-- Pool of a create request that names none. -/
  defaultPool : String := "default"
  /-- Host of a create request that names none. -/
  defaultHost : Option String := none
  tool : ToolConfig := {}
  queue : QueueConfig := {}
  deriving DecidableEq, Repr

/-- A remote call is given up this long after its time is over. -/
def callGrace : Duration := .ofMillis 250

namespace Duration

def toJson (d : Duration) : Json := .ofNat (d.millis % bound64)

def ofJson? (v : Json) : Option Duration :=
  (Json.asNat? bound64 v).map ofMillis

end Duration

namespace ToolConfig

def members : List String := ["program", "deploy_path", "inventory", "tool_timeout"]

def toJson (c : ToolConfig) : Json :=
  .object [
    ("program", .str c.program),
    ("deploy_path", .str c.deployPath),
    ("inventory", .str c.inventory),
    ("tool_timeout", c.timeout.toJson)]

def ofJson? (v : Json) : Option ToolConfig := do
  let fallback : ToolConfig := {}
  let r ← Json.Record.read? members v
  some {
    program := ← r.orElse? "program" Json.asText? fallback.program
    deployPath := ← r.orElse? "deploy_path" Json.asText? fallback.deployPath
    inventory := ← r.orElse? "inventory" Json.asText? fallback.inventory
    timeout := ← r.orElse? "tool_timeout" Duration.ofJson? fallback.timeout }

end ToolConfig

namespace QueueConfig

def members : List String :=
  ["concurrency", "max_attempts", "retry_backoff", "soft_time_limit", "hard_time_limit",
    "poll_interval", "janitor_interval"]

def toJson (c : QueueConfig) : Json :=
  .object [
    ("concurrency", .ofNat c.concurrency),
    ("max_attempts", .ofNat c.maxAttempts),
    ("retry_backoff", c.retryBackoff.toJson),
    ("soft_time_limit", c.softLimit.toJson),
    ("hard_time_limit", c.hardLimit.toJson),
    ("poll_interval", c.pollInterval.toJson),
    ("janitor_interval", c.janitorInterval.toJson)]

def ofJson? (v : Json) : Option QueueConfig := do
  let fallback : QueueConfig := {}
  let r ← Json.Record.read? members v
  some {
    concurrency := ← r.orElse? "concurrency" (Json.asNat? bound64) fallback.concurrency
    maxAttempts := ← r.orElse? "max_attempts" (Json.asNat? bound32) fallback.maxAttempts
    retryBackoff := ← r.orElse? "retry_backoff" Duration.ofJson? fallback.retryBackoff
    softLimit := ← r.orElse? "soft_time_limit" Duration.ofJson? fallback.softLimit
    hardLimit := ← r.orElse? "hard_time_limit" Duration.ofJson? fallback.hardLimit
    pollInterval := ← r.orElse? "poll_interval" Duration.ofJson? fallback.pollInterval
    janitorInterval := ← r.orElse? "janitor_interval" Duration.ofJson? fallback.janitorInterval }

end QueueConfig

namespace Config

def members : List String :=
  ["db_path", "default_pool", "default_host", "provisioner", "queue"]

def toJson (c : Config) : Json :=
  .object [
    ("db_path", .str c.dbPath),
    ("default_pool", .str c.defaultPool),
    ("default_host", .ofText? c.defaultHost),
    ("provisioner", c.tool.toJson),
    ("queue", c.queue.toJson)]

def ofJson? (v : Json) : Option Config := do
  let fallback : Config := {}
  let r ← Json.Record.read? members v
  some {
    dbPath := ← r.orElse? "db_path" Json.asText? fallback.dbPath
    defaultPool := ← r.orElse? "default_pool" Json.asText? fallback.defaultPool
    defaultHost := ← r.orElse? "default_host" (Json.asNullable? Json.asText?) fallback.defaultHost
    tool := ← r.orElse? "provisioner" ToolConfig.ofJson? fallback.tool
    queue := ← r.orElse? "queue" QueueConfig.ofJson? fallback.queue }

end Config

end VmFleet
