/-
The JSON forms of tasks, and the reading of kinds and statuses from plain words.
Parameters that are not set are left out.
-/
import VmFleet.Json.Record
import VmFleet.Task.Record
import VmFleet.Vm.Form

namespace VmFleet

/-- An optional member, left out when it is not set. -/
def Json.optionalMember (key : String) : Option String → List (String × Json)
  | some s => [(key, .str s)]
  | none => []

namespace TaskKind

def toJson (k : TaskKind) : Json := .str k.text

def ofJson? : Json → Option TaskKind :=
  Json.asName? ofText?

def read (word : String) : Except Error TaskKind :=
  Error.orUnknown "task kind" word (ofText? word)

end TaskKind

namespace TaskStatus

def toJson (s : TaskStatus) : Json := .str s.text

def ofJson? : Json → Option TaskStatus :=
  Json.asName? ofText?

def read (word : String) : Except Error TaskStatus :=
  Error.orUnknown "task status" word (ofText? word)

end TaskStatus

namespace TaskParams

def members : List String := ["host", "pool", "kernel_path"]

def toJson (p : TaskParams) : Json :=
  .object (Json.optionalMember "host" p.host ++ Json.optionalMember "pool" p.pool ++
    Json.optionalMember "kernel_path" p.kernelPath)

def ofJson? (v : Json) : Option TaskParams := do
  let r ← Json.Record.read? members v
  some {
    host := ← r.orElse? "host" (Json.asNullable? Json.asText?) none
    pool := ← r.orElse? "pool" (Json.asNullable? Json.asText?) none
    kernelPath := ← r.orElse? "kernel_path" (Json.asNullable? Json.asText?) none }

end TaskParams

namespace Task

def members : List String :=
  ["id", "kind", "vm_id", "params", "status", "attempts", "max_attempts", "not_before",
    "created_at", "started_at", "completed_at", "last_error"]

def toJson (t : Task) : Json :=
  .object [
    ("id", .str t.id),
    ("kind", t.kind.toJson),
    ("vm_id", .int t.vmKey),
    ("params", t.params.toJson),
    ("status", t.status.toJson),
    ("attempts", .ofNat t.attempts),
    ("max_attempts", .ofNat t.maxAttempts),
    ("not_before", t.notBefore.toJson),
    ("created_at", t.createdAt.toJson),
    ("started_at", .ofOption Instant.toJson t.startedAt),
    ("completed_at", .ofOption Instant.toJson t.completedAt),
    ("last_error", .ofText? t.lastError)]

def ofJson? (v : Json) : Option Task := do
  let r ← Json.Record.read? members v
  some {
    id := ← r.need? "id" Json.asText?
    kind := ← r.need? "kind" TaskKind.ofJson?
    vmKey := ← r.need? "vm_id" Json.asKey?
    params := ← r.need? "params" TaskParams.ofJson?
    status := ← r.need? "status" TaskStatus.ofJson?
    attempts := ← r.need? "attempts" (Json.asNat? bound32)
    maxAttempts := ← r.need? "max_attempts" (Json.asNat? bound32)
    notBefore := ← r.need? "not_before" Instant.ofJson?
    createdAt := ← r.need? "created_at" Instant.ofJson?
    startedAt := ← r.nullable? "started_at" Instant.ofJson?
    completedAt := ← r.nullable? "completed_at" Instant.ofJson?
    lastError := ← r.nullable? "last_error" Json.asText? }

end Task

end VmFleet
