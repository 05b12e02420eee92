/-
The command line program. Everything it decides is decided by `Cli.invoke`; here
arguments, overrides, files, clock and drawn numbers are fetched for it, and
its lines and the new state are written out.
-/
import Std.Time
import VmFleet.Cli.Run
import VmFleet.Store.Snapshot
import VmFleet.Vm.PublicId

namespace VmFleet.Shell

/-- The time of the wall clock. -/
def wallClock : IO Instant := do
  let t ← Std.Time.Timestamp.now
  return .ofNanos t.toNanosecondsSinceUnixEpoch.val

/-- A drawn number of 128 bits. -/
def draw : IO Nat := do
  let bytes ← IO.getRandomBytes 16
  return bytes.toList.foldl (fun n b => n * 256 + b.toNat) 0

/-- The text of a file, or the reason why there is none. -/
def fetch (path : String) : IO (Except FileFault String) := do
  try
    return .ok (← IO.FS.readFile path)
  catch
    | .noFileOrDirectory .. => return .error .missing
    | .permissionDenied .. => return .error .denied
    | e => return .error (.other (toString e))

/-- What stands at a path. -/
def kindOf (path : String) : IO (Option FileKind) := do
  try
    let found ← IO.FS.realPath path
    if ← found.isDir then return some .directory
    if ← found.pathExists then return some .file
    return none
  catch _ => return none

/-- A path as a text, if it is one. -/
def textOf? (path : FilePath) : Option String :=
  String.fromUTF8? (ByteArray.mk path.toArray)

/-- What is found of a state at a path; a file that may be written is made if there is none. -/
def storedAt (path : String) (access : Access) : IO Stored := do
  match ← fetch path with
  | .ok contents =>
    if contents.utf8ByteSize ≤ 1 then return .blank false
    match Store.load? contents with
    | some (s, logged) => return .state s logged
    | none => return .foreign
  | .error _ =>
    if (← kindOf path).isSome then return .unreachable
    if access != .creating then return .nothing
    try
      IO.FS.writeFile path ""
      return .nothing
    catch _ => return .unreachable

/-- What is found for a location. -/
def foundAt (l : Location) : IO Found := do
  let permissions ← match l.permissionsOf with
    | none => pure true
    | some path => match textOf? path with
      | some path => pure (← kindOf path).isSome
      | none => pure false
  match l.path with
  | none => return { stored := .nothing, permissions }
  | some path =>
    let some path := textOf? path | return { stored := .unreachable, permissions }
    if !permissions then return { stored := .nothing, permissions }
    return { stored := ← storedAt path l.access, permissions }

/-- Writes the state to where it is kept. -/
def keep (left : Option Cli.Left) (s : Store) : IO Unit := do
  let some left := left | return
  let some path := textOf? left.path | return
  left.traces.forM fun
    | .state logged => IO.FS.writeFile path (s.save logged)
    | _ => pure ()

/-- The variables that may override the configuration. -/
def environment : IO (List (String × String)) := do
  let mut found := []
  for (name, _) in Config.overrides do
    let key := Config.variableLead ++ name
    if let some value ← IO.getEnv key then
      found := (key, value) :: found
  return found

/-- Fetches what the invocation may ask for. -/
def surroundings (i : Cli.Invocation) : IO Cli.Surroundings := do
  let env ← environment
  let config ← match i.config with
    | some path => fetch path
    | none => pure (.error .missing)
  let draws ← (List.range Client.idDraws).mapM fun _ => draw
  let taskDraw ← draw
  let bare : Cli.Surroundings := {
    environment := fun name => env.lookup name
    textOf := fun _ => config
    files := fun _ => none
    found := fun _ => { stored := .nothing }
    launched := fun _ => .notLaunched (.other "launching programs is not supported")
    now := ← wallClock
    vmIds := draws.map PublicId.ofDraw
    taskId := TaskId.ofDraw taskDraw
    jitter := fun n => Fin.ofNat _ ((taskDraw + n) * 0x9e3779b97f4a7c15) }
  match Cli.locationFor bare i with
  | .error _ => return bare
  | .ok (c, location) =>
    let found ← foundAt location
    let kinds ← (Runner.checkedPaths c.tool).mapM fun path => return (path, ← kindOf path)
    return { bare with
      found := fun _ => found
      files := fun path => (kinds.lookup path).join }

/-- Runs workers and janitor until the process is stopped, and keeps the state after each turn. -/
partial def work (left : Option Cli.Left) (worker : Queue.Worker) (turn : Nat)
    (lastSweep : Instant) (w : World) : IO Unit := do
  let now ← wallClock
  let w := w.reach now
  let due := worker.queue.janitorInterval ≤ now.since lastSweep || turn == 0
  let w := if due then (Queue.sweep worker.tool worker.queue.hardLimit w).2 else w
  let (ran, w) := worker.turn turn w
  keep left w.store
  match ran with
  | .ok (some _) => pure ()
  | _ => IO.sleep (UInt32.ofNat worker.pause.millis)
  work left worker (turn + 1) (if due then now else lastSweep) w

def run (args : List String) : IO UInt32 := do
  match Cli.Request.read args with
  | .usage =>
    IO.eprintln "Usage: mvkube [OPTIONS] <COMMAND>"
    return 2
  | .version =>
    IO.println Cli.versionLine
    return 0
  | .help =>
    IO.println "Usage: mvkube [OPTIONS] <COMMAND>"
    return 0
  | .invoke i =>
    let env ← surroundings i
    let (result, left) := Cli.invoke env i
    match result with
    | .failed e s =>
      keep left s
      IO.eprintln ("Error: " ++ e.diagnostic)
    | .crashed why lines s =>
      keep left s
      lines.forM fun line => IO.println line
      IO.eprintln why
    | .printed lines s =>
      keep left s
      lines.forM fun line => IO.println line
    | .working line worker w =>
      IO.println line
      work left worker 0 env.now w
    return .ofNat result.exitCode

end VmFleet.Shell

def main (args : List String) : IO UInt32 :=
  VmFleet.Shell.run args
