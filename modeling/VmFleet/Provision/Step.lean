/-
Steps of a run of the provisioning tool, which the tool prints as one JSON
object per line. Host, message and facts are left out when there are none; a
step without a time gets the time at which it is read.
-/
import VmFleet.Provision.Facts
import VmFleet.Task.Form

namespace VmFleet

inductive StepStatus where
  | ok | changed | failed | skipped | unreachable
  deriving DecidableEq, Repr, Inhabited

namespace StepStatus

def all : List StepStatus := [.ok, .changed, .failed, .skipped, .unreachable]

def text : StepStatus → String
  | .ok => "ok"
  | .changed => "changed"
  | .failed => "failed"
  | .skipped => "skipped"
  | .unreachable => "unreachable"

def ofText? (s : String) : Option StepStatus :=
  all.find? (·.text == s)

def toJson (s : StepStatus) : Json := .str s.text

def ofJson? : Json → Option StepStatus :=
  Json.asName? ofText?

/-- The step did not do its work. -/
def isFailure (s : StepStatus) : Bool :=
  s == .failed || s == .unreachable

end StepStatus

structure Step where
  name : String
  status : StepStatus
  timestamp : Instant
  host : Option String := none
  msg : Option String := none
  facts : Facts := .empty
  deriving DecidableEq, Inhabited

namespace Step

def members : List String := ["name", "status", "timestamp", "host", "msg", "facts"]

def toJson (s : Step) : Json :=
  .object (
    [("name", .str s.name), ("status", s.status.toJson), ("timestamp", s.timestamp.toJson)] ++
    Json.optionalMember "host" s.host ++
    Json.optionalMember "msg" s.msg ++
    (if s.facts.isEmpty then [] else [("facts", s.facts.toJson)]))

def ofJson? (now : Instant) (v : Json) : Option Step := do
  let r ← Json.Record.read? members v
  some {
    name := ← r.need? "name" Json.asText?
    status := ← r.need? "status" StepStatus.ofJson?
    timestamp := ← r.orElse? "timestamp" Instant.ofJson? now
    host := ← r.orElse? "host" (Json.asNullable? Json.asText?) none
    msg := ← r.orElse? "msg" (Json.asNullable? Json.asText?) none
    facts := ← r.orElse? "facts" Facts.ofJson? .empty }

end Step

/-- Number of steps per status. -/
structure StepCounts where
  ok : Nat := 0
  changed : Nat := 0
  failed : Nat := 0
  skipped : Nat := 0
  unreachable : Nat := 0
  deriving DecidableEq, Repr

namespace StepCounts

def add (c : StepCounts) : StepStatus → StepCounts
  | .ok => { c with ok := c.ok + 1 }
  | .changed => { c with changed := c.changed + 1 }
  | .failed => { c with failed := c.failed + 1 }
  | .skipped => { c with skipped := c.skipped + 1 }
  | .unreachable => { c with unreachable := c.unreachable + 1 }

def of (steps : List Step) : StepCounts :=
  steps.foldl (fun c s => c.add s.status) {}

def text (c : StepCounts) : String :=
  "ok=" ++ Error.natText c.ok ++ " changed=" ++ Error.natText c.changed ++
    " failed=" ++ Error.natText c.failed ++ " skipped=" ++ Error.natText c.skipped ++
    " unreachable=" ++ Error.natText c.unreachable

def members : List String := ["ok", "changed", "failed", "skipped", "unreachable"]

def toJson (c : StepCounts) : Json :=
  .object [
    ("ok", .ofNat c.ok),
    ("changed", .ofNat c.changed),
    ("failed", .ofNat c.failed),
    ("skipped", .ofNat c.skipped),
    ("unreachable", .ofNat c.unreachable)]

def ofJson? (v : Json) : Option StepCounts := do
  let r ← Json.Record.read? members v
  some {
    ok := ← r.need? "ok" (Json.asNat? bound64)
    changed := ← r.need? "changed" (Json.asNat? bound64)
    failed := ← r.need? "failed" (Json.asNat? bound64)
    skipped := ← r.need? "skipped" (Json.asNat? bound64)
    unreachable := ← r.need? "unreachable" (Json.asNat? bound64) }

end StepCounts

end VmFleet
