/-
Carrying out commands. A command is a function of what surrounds the program:
its environment, the files it may look at, the stored state, the provisioning
tool, the clock and freshly drawn ids.
-/
import VmFleet.Cli.Command
import VmFleet.Cli.Diagnostic
import VmFleet.Cli.Listing
import VmFleet.Config.Check
import VmFleet.Config.Source
import VmFleet.Provision.Runner
import VmFleet.Queue.Loop
import VmFleet.Store.Opening
import VmFleet.Task.Form

namespace VmFleet.Cli

/-- What surrounds one run of the program. -/
structure Surroundings where
  environment : String → Option String
  textOf : String → Except FileFault String
  files : FileLookup
  found : Location → Found
  launched : Launch → ToolRun
  now : Instant
  vmIds : List String
  taskId : String
  jitter : Nat → Jitter

/-- How a command ends. -/
inductive Result where
  | printed (lines : List String) (store : Store)
  | failed (e : Error) (store : Store)
  /-- The program broke down after it had printed some lines. -/
  | crashed (why : String) (lines : List String) (store : Store)
  /-- Workers go on from here, after a line that announces them. -/
  | working (line : String) (worker : Queue.Worker) (w : World)

namespace Result

def exitCode : Result → Nat
  | .printed _ _ | .working _ _ _ => 0
  | .failed _ _ => 1
  | .crashed _ _ _ => 101

def ofExcept (old : Store) : Except Error (List String × Store) → Result
  | .ok (lines, s) => .printed lines s
  | .error e => .failed e old

end Result

def runPool (s : Store) (now : Instant) : PoolCommand → Except Error (List String × Store)
  | .create name cidr gateway description => do
    let (_, s) ← Allocator.createPool s now name cidr gateway description
    let stats ← Allocator.stats s name
    return (["Pool created: " ++ name ++ " (" ++ stats.cidr ++ ", " ++
      Error.natText stats.total ++ " addresses)"], s)
  | .list => do
    let rows ← s.listPools.mapM fun p => (Allocator.stats s p.name).map (p, ·)
    return (if rows.isEmpty then ["No pools created."] else poolTable rows, s)
  | .stats name => do
    let stats ← Allocator.stats s name
    let held ← Allocator.slots s name true
    return (poolDetails stats held, s)
  | .setActive name active => do
    let s ← Allocator.setActive s name active
    return ([(if active then "Pool enabled: " else "Pool disabled: ") ++ name], s)

def runVm (env : Surroundings) (config : Config) (owner : String) (s : Store) :
    VmCommand → Result
  | .create name vcpus memoryMb description kernel host pool =>
    let draft : Draft := ⟨name, description, vcpus, memoryMb, owner, kernel⟩
    match Client.createVm s env.now config.queue.maxAttempts env.vmIds env.taskId draft
        ⟨host <|> config.defaultHost, pool⟩ with
    | (.ok (vm, task), s) =>
      .printed ["VM accepted: " ++ vm.id ++ " (" ++ vm.status.text ++ "), task " ++ task.id] s
    | (.error e, s) => .failed e s
  | .list offset limit =>
    let (vms, total) := Client.listVms s owner offset limit
    if vms.isEmpty then .printed ["No VMs found."] s
    else match pageLine? offset vms.length total with
      | some line => .printed (vmTable vms ++ [line]) s
      | none => .crashed "attempt to add with overflow" (vmTable vms) s
  | .get vmId => .ofExcept s do
    let vm ← Client.getVm s vmId owner
    return (vmDetails vm, s)
  | .update vmId name description => .ofExcept s do
    let (vm, s) ← Client.updateVm s env.now vmId owner name description
    return (["VM updated: " ++ vm.id ++ " (" ++ vm.name ++ ")"], s)
  | .request kind vmId => .ofExcept s do
    let (task, s) ← Client.request s env.now config.queue.maxAttempts env.taskId kind vmId owner
    return (["Queued " ++ task.kind.text ++ " for " ++ vmId ++ ": task " ++ task.id], s)

/-- The tasks to list: those of one VM, or else the most recent ones. -/
def tasksToList (s : Store) (owner : String) (status vm : Option String) (limit : Nat) :
    Except Error (List Task) :=
  match vm with
  | some vmId => do
    let vm ← Client.getVm s vmId owner
    s.listTasksForVm vm.key
  | none => do
    let status ← status.mapM TaskStatus.read
    s.listTasks status limit

def runTasks (s : Store) (owner : String) (status vm : Option String) (limit : Nat) :
    Except Error (List String × Store) := do
  let tasks ← tasksToList s owner status vm limit
  return (if tasks.isEmpty then ["No tasks found."] else taskTable tasks, s)

/-- The worker of a checked configuration. -/
def workerFor (env : Surroundings) (config : Config) : Except Error Queue.Worker := do
  config.check
  let runner ← Runner.new env.files config.tool
  return ⟨runner.tool env.launched, config.queue, .of config, env.jitter⟩

def runJanitor (env : Surroundings) (config : Config) (s : Store) : Result :=
  match workerFor env config with
  | .error e => .failed e s
  | .ok worker =>
    match Queue.sweep worker.tool config.queue.hardLimit { store := s, now := env.now } with
    | (.crashed why, w) => .crashed why [] w.store
    | (.finished (.error e), w) => .failed e w.store
    | (.finished (.ok report), w) =>
      .printed ["Moved " ++ Error.natText report.vms.length ++ " VM(s) to error, failed " ++
        Error.natText report.tasks.length ++ " abandoned task(s)."] w.store

/-- As many workers as can be kept hold of. -/
def mostWorkers : Nat := bound63 / 8 - 1

def runWorker (env : Surroundings) (config : Config) (s : Store) : Result :=
  match workerFor env config with
  | .error e => .failed e s
  | .ok worker =>
    if mostWorkers < config.queue.concurrency then .crashed "capacity overflow" [] s
    else .working ("Running " ++ Error.natText config.queue.concurrency ++ " worker(s) against " ++
      config.dbPath ++ ". Press Ctrl-C to stop.") worker { store := s, now := env.now }

/-- The configuration of an invocation: a file, the environment over it, and `--db` over both. -/
def configFor (env : Surroundings) (i : Invocation) : Except Error Config := do
  let c ← match i.config with
    | some path => Config.load path (env.textOf path)
    | none => .ok {}
  let c ← c.withEnvironment env.environment
  return { c with dbPath := i.db.getD c.dbPath }

/-- The result of a command on a state that may only be used in some way. Where a change can be
tried, what is found wrong before it counts, and then it is refused. -/
def Result.within (use : Use) (c : Command) (old : Store) (r : Result) : Result :=
  let refused : Result := .failed (.database Location.readOnlyText) old
  if use = .changing then r
  else match c.writing, r with
  | .never, r => r
  | .atOnce, _ => refused
  -- the names of pools are compared as a part of the change
  | .afterChecks, .failed (.poolAlreadyExists name) _ =>
    if use = .trying then .failed (.poolAlreadyExists name) old else refused
  | .afterChecks, .failed e _ => .failed e old
  | .afterChecks, .crashed why lines _ => .crashed why lines old
  | .afterChecks, .printed _ _ => refused
  -- to its workers the state is empty, for they can take nothing from it
  | .afterChecks, .working line worker w => .working line worker { w with store := .empty }

/-- The location of the state that an invocation is about. -/
def locationFor (env : Surroundings) (i : Invocation) : Except Error (Config × Location) := do
  let config ← configFor env i
  let location ← (Location.read config.dbPath).mapError LocationFault.error
  return (config, location)

def runCommand (env : Surroundings) (config : Config) (i : Invocation) (s : Store) : Result :=
  match i.command with
  | .pool c => .ofExcept s (runPool s env.now c)
  | .vm c => runVm env config i.owner s c
  | .tasks status vm limit => .ofExcept s (runTasks s i.owner status vm limit)
  | .worker => runWorker env config s
  | .janitor => runJanitor env config s

/-- What a run leaves at the path of its state. -/
structure Left where
  path : FilePath
  traces : List Trace

/-- What an invocation comes to, and what it leaves at the path of its state, if that has one. -/
def invoke (env : Surroundings) (i : Invocation) : Result × Option Left :=
  match locationFor env i with
  | .error e => (.failed e .empty, none)
  | .ok (config, location) =>
    let left (traces : List Trace) : Option Left := location.path.map (⟨·, traces⟩)
    match location.opening (env.found location) with
    | .refused e s traces => (.failed e s, left traces)
    | .opened s use traces => ((runCommand env config i s).within use i.command s, left traces)

def versionLine : String := "mvkube 0.1.0"

end VmFleet.Cli
