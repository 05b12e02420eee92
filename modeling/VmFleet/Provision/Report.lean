/-
What a run of the provisioning tool produced, and the verdict on it. Lines of
the tool's output that spell a step are steps; all other lines that are not
blank are kept as they are. An unreachable host outweighs every other failure.
-/
import VmFleet.Json.Reader
import VmFleet.Provision.Request
import VmFleet.Provision.Step
import VmFleet.Text.Lines

namespace VmFleet

structure Report where
  action : Action
  steps : List Step
  /-- Absent if the tool died from a signal. -/
  exitCode : Option Int
  /-- Output lines that were no steps. -/
  output : List String
  stderr : String
  startedAt : Instant
  finishedAt : Instant
  deriving DecidableEq, Inhabited

/-- What an output line is. -/
inductive OutputLine where
  | blank
  | step (s : Step)
  | other (line : String)

namespace OutputLine

/-- A line is a step if its text between blanks starts with a brace and spells a step record. -/
def read (now : Instant) (line : String) : OutputLine :=
  let trimmed := Text.trimChars line.toList
  match trimmed with
  | [] => .blank
  | c :: _ =>
    if c = '{' then
      match (Json.parse? (String.ofList trimmed)).bind (Step.ofJson? now) with
      | some s => .step s
      | none => .other line
    else .other line

def step? : OutputLine → Option Step
  | .step s => some s
  | _ => none

def other? : OutputLine → Option String
  | .other line => some line
  | _ => none

end OutputLine

namespace Report

/-- A successful run without steps. -/
def empty (action : Action) (now : Instant) : Report :=
  ⟨action, [], some 0, [], "", now, now⟩

/-- The report of a run that started at `started` and whose output is read at `now`. -/
def parse (action : Action) (stdout stderr : String) (exitCode : Option Int)
    (started now : Instant) : Report :=
  let read := (Text.lines stdout).map (OutputLine.read now)
  { action := action
    steps := read.filterMap OutputLine.step?
    exitCode := exitCode
    output := read.filterMap OutputLine.other?
    stderr := stderr
    startedAt := started
    finishedAt := now }

def counts (r : Report) : StepCounts :=
  .of r.steps

/-- The first step that failed or did not reach its host. -/
def firstFailure? (r : Report) : Option Step :=
  r.steps.find? (·.status.isFailure)

def firstUnreachable? (r : Report) : Option Step :=
  r.steps.find? (·.status == .unreachable)

def succeeded (r : Report) : Bool :=
  r.exitCode == some 0 && r.firstFailure?.isNone

/-- The value that the last step with this fact gives it. -/
def fact? (r : Report) (key : String) : Option String :=
  r.steps.reverse.findSome? (·.facts.get? key)

def exitText (r : Report) : String :=
  match r.exitCode with
  | some n => (Json.int n).text
  | none => "signal"

/-- The last line on standard error that is not blank. -/
def lastErrorLine? (r : Report) : Option String :=
  (Text.lines r.stderr).reverse.find? fun line => !(Text.trimChars line.toList).isEmpty

/-- Why the run failed, on one line. -/
def failureMessage (r : Report) : String :=
  match r.firstFailure? with
  | some step =>
    r.action.playbook ++ " failed at step '" ++ step.name ++ "': " ++
      step.msg.getD "no error details" ++ " (" ++ r.counts.text ++ ")"
  | none =>
    r.action.playbook ++ " exited with code " ++ r.exitText ++ ": " ++
      Text.trim (r.lastErrorLine?.getD "no error output")

/-- What an unreachable step says of its host. -/
def unreachableText (s : Step) : String :=
  Text.trim (s.host.getD "unknown host" ++ " " ++ s.msg.getD "")

/-- The report of a run that succeeded, or the error of one that did not. -/
def verdict (r : Report) : Except ProvisionError Report :=
  if r.succeeded then .ok r
  else match r.firstUnreachable? with
    | some step => .error (.unreachable (unreachableText step))
    | none => .error (.rejected r.failureMessage)

def members : List String :=
  ["action", "steps", "exit_code", "output", "stderr", "started_at", "finished_at"]

def toJson (r : Report) : Json :=
  .object [
    ("action", r.action.toJson),
    ("steps", .arr (r.steps.map Step.toJson)),
    ("exit_code", .ofOption Json.int r.exitCode),
    ("output", .arr (r.output.map Json.str)),
    ("stderr", .str r.stderr),
    ("started_at", r.startedAt.toJson),
    ("finished_at", r.finishedAt.toJson)]

def ofJson? (now : Instant) (v : Json) : Option Report := do
  let r ← Json.Record.read? members v
  some {
    action := ← r.need? "action" Action.ofJson?
    steps := ← r.need? "steps" (Json.asList? (Step.ofJson? now))
    exitCode := ← r.nullable? "exit_code" (Json.asInt? (-bound31) bound31)
    output := ← r.need? "output" (Json.asList? Json.asText?)
    stderr := ← r.need? "stderr" Json.asText?
    startedAt := ← r.need? "started_at" Instant.ofJson?
    finishedAt := ← r.need? "finished_at" Instant.ofJson? }

end Report

end VmFleet
