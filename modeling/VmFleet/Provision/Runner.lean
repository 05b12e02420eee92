/-
Running the provisioning tool: the playbooks and the inventory are checked when
a runner is made, and each call launches the tool in the deploy directory.
-/
import VmFleet.Config.Record
import VmFleet.Files.Path
import VmFleet.Lifecycle.World
import VmFleet.Provision.Capture
import VmFleet.Text.Utf8

namespace VmFleet

/-- A checked setup of the tool. -/
structure Runner where
  program : String
  deployPath : String
  inventory : String
  timeout : Duration
  deriving DecidableEq, Repr

/-- Why the tool cannot be set up. -/
inductive SetupFault where
  | noDeployPath (path : String)
  | noPlaybook (path : String)
  | noInventory (path : String)
  deriving DecidableEq, Repr

namespace SetupFault

def message : SetupFault → String
  | .noDeployPath path => "deploy path " ++ path ++ " does not exist"
  | .noPlaybook path => "playbook " ++ path ++ " not found"
  | .noInventory path => "inventory " ++ path ++ " not found"

def error (f : SetupFault) : Error :=
  .config f.message

end SetupFault

/-- How the tool is launched. -/
structure Launch where
  program : String
  args : List String
  directory : String
  deriving DecidableEq, Repr

/-- Some part of the launch cannot be handed over. -/
def Launch.holdsNul (l : Launch) : Bool :=
  (l.program :: l.directory :: l.args).any VmFleet.holdsNul

/-- What a launched tool does. -/
inductive ToolRun where
  | notLaunched (why : FileFault)
  /-- It exits after `lasts`, if it ever does; `messages` are read from its pipes in time. The exit
  code is absent if it dies from a signal. -/
  | exits (lasts : Option Duration) (messages : List PipeMessage) (exitCode : Option Int)

namespace Runner

def playbookPath (deployPath : String) (a : Action) : String :=
  Path.join deployPath a.playbook

def inventoryPath (c : ToolConfig) : String :=
  Path.join c.deployPath c.inventory

/-- The paths that are looked up when a runner is made. -/
def checkedPaths (c : ToolConfig) : List String :=
  c.deployPath :: Action.all.map (playbookPath c.deployPath) ++ [inventoryPath c]

/-- The first thing that is missing. -/
def fault? (files : FileLookup) (c : ToolConfig) : Option SetupFault :=
  if files c.deployPath ≠ some .directory then some (.noDeployPath c.deployPath)
  else
    match (Action.all.map (playbookPath c.deployPath)).find? (files · ≠ some .file) with
    | some path => some (.noPlaybook path)
    | none =>
      if files (inventoryPath c) = none then some (.noInventory (inventoryPath c)) else none

/-- A runner, if directory, playbooks and inventory are there. -/
def new (files : FileLookup) (c : ToolConfig) : Except Error Runner :=
  match fault? files c with
  | some f => .error f.error
  | none => .ok ⟨c.program, c.deployPath, inventoryPath c, c.timeout⟩

/-- The arguments of one call. A host confines the run to it. -/
def args (r : Runner) (action : Action) (request : ProvisionRequest) : List String :=
  ["-i", r.inventory, playbookPath r.deployPath action, "--extra-vars", request.extraVars.text] ++
    match request.host with
    | some host => ["--limit", host]
    | none => []

def launch (r : Runner) (action : Action) (request : ProvisionRequest) : Launch :=
  ⟨r.program, r.args action request, r.deployPath⟩

/-- The reply to a call that may take `budget` or the runner's own limit, whichever is shorter.
A tool that has not exited by then is stopped. -/
def run (r : Runner) (tool : Launch → ToolRun) (action : Action) (request : ProvisionRequest)
    (budget : Duration) (now : Instant) : Reply :=
  let budget := min budget r.timeout
  let stopped : Reply := { lasts := some budget, ends := .answered (.error (.timeout budget)) }
  let launch := r.launch action request
  match if launch.holdsNul then .notLaunched (.other "nul byte found in provided data")
    else tool launch with
  | .notLaunched why =>
    { ends := .answered (.error (.setup
        ("failed to launch " ++ r.program ++ ": " ++ why.message))) }
  | .exits none _ _ => stopped
  | .exits (some lasts) messages exitCode =>
    if budget < lasts then stopped
    else
      let (_, captured) := Captured.collect false messages {}
      let report := Report.parse action (Text.ofUtf8 captured.stdout)
        (Text.ofUtf8 captured.stderr) exitCode now (now.after lasts)
      { lasts := some lasts, ends := .answered report.verdict }

/-- The runner as the tool of a world. -/
def tool (r : Runner) (launched : Launch → ToolRun) : Tool :=
  fun _ c now => r.run launched c.action c.request c.budget now

end Runner

end VmFleet
