/-
The rules a configuration must keep. The three time limits are ordered, and the
hard limit leaves room for a remote call that is given up after its grace.
-/
import VmFleet.Config.Record
import VmFleet.Error

namespace VmFleet

/-- A broken rule. -/
inductive ConfigFault where
  | noPool
  | noWorkers
  | noAttempts
  | noPollInterval
  | noJanitorInterval
  | limitOrder (tool soft hard : Duration)
  | limitGap (soft hard : Duration)
  deriving DecidableEq, Repr

namespace ConfigFault

def message : ConfigFault → String
  | .noPool => "default_pool cannot be empty"
  | .noWorkers => "queue.concurrency must be at least 1"
  | .noAttempts => "queue.max_attempts must be at least 1"
  | .noPollInterval => "queue.poll_interval must be positive"
  | .noJanitorInterval => "queue.janitor_interval must be positive"
  | .limitOrder tool soft hard =>
    "timeouts must satisfy 0 < tool_timeout (" ++ tool.text ++ ") < soft_time_limit (" ++
      soft.text ++ ") < hard_time_limit (" ++ hard.text ++ ")"
  | .limitGap soft hard =>
    "hard_time_limit (" ++ hard.text ++ ") must exceed soft_time_limit (" ++ soft.text ++
      ") by more than " ++ callGrace.text

def error (f : ConfigFault) : Error :=
  .config f.message

end ConfigFault

namespace Config

/-- The first rule the configuration breaks. -/
def fault? (c : Config) : Option ConfigFault :=
  let tool := c.tool.timeout
  let soft := c.queue.softLimit
  let hard := c.queue.hardLimit
  if c.defaultPool.isEmpty then some .noPool
  else if c.queue.concurrency = 0 then some .noWorkers
  else if c.queue.maxAttempts = 0 then some .noAttempts
  else if c.queue.pollInterval = .zero then some .noPollInterval
  else if c.queue.janitorInterval = .zero then some .noJanitorInterval
  else if tool = .zero ∨ ¬(tool < soft ∧ soft < hard) then some (.limitOrder tool soft hard)
  else if hard ≤ soft + callGrace then some (.limitGap soft hard)
  else none

def check (c : Config) : Except Error Unit :=
  match c.fault? with
  | some f => .error f.error
  | none => .ok ()

end Config

end VmFleet
