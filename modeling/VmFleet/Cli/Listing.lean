/-
What the commands print.
-/
import VmFleet.Client.Requests
import VmFleet.Pool.Allocator
import VmFleet.Text.Table
import VmFleet.Time.Timestamp

namespace VmFleet

/-- Date and time with a blank between them, and the name of the zone. -/
def Instant.display (t : Instant) : String :=
  String.ofList (t.clockChars.map (fun c => if c = 'T' then ' ' else c) ++
    Instant.fractionChars t.fraction) ++ " UTC"

namespace Cli

open Error (natText)

def yesNo (b : Bool) : String := if b then "Yes" else "No"

def orDash (s : Option String) : String := s.getD "-"

/-- A line for a value that is set. -/
def lineFor (label : String) : Option String → List String
  | some s => [label ++ s]
  | none => []

def poolTable (rows : List (Pool × PoolStats)) : List String :=
  Text.tableLines ["Name", "CIDR", "Gateway", "Active", "Used"] (rows.map fun (p, s) =>
    [p.name, p.cidr, p.gateway, yesNo p.active, natText s.allocated ++ "/" ++ natText s.total])

def poolDetails (s : PoolStats) (held : List Slot) : List String :=
  ["Pool: " ++ s.poolName,
    "  CIDR:        " ++ s.cidr,
    "  Gateway:     " ++ s.gateway,
    "  Active:      " ++ yesNo s.active,
    "  Total:       " ++ natText s.total,
    "  Allocated:   " ++ natText s.allocated,
    "  Available:   " ++ natText s.available,
    "  Utilization: " ++ s.utilizationText ++ "%"] ++
  held.map fun slot => "  - " ++ slot.address.text ++ " -> " ++ slot.holder.getD "?"

def vmTable (vms : List Vm) : List String :=
  Text.tableLines ["ID", "Name", "Status", "IP", "Host", "Size"] (vms.map fun vm =>
    [vm.id, vm.name, vm.status.text, orDash vm.address, orDash vm.host,
      natText vm.vcpus ++ " vCPU / " ++ natText vm.memoryMb ++ "MB"])

/-- The place of a page in the whole list, if its ends can be counted. -/
def pageLine? (offset shown total : Nat) : Option String :=
  if offset + max 1 shown < bound64 then
    some (natText (offset + 1) ++ "-" ++ natText (offset + shown) ++ " of " ++ natText total)
  else none

def vmDetails (vm : Vm) : List String :=
  ["VM: " ++ vm.name,
    "  ID:       " ++ vm.id,
    "  Status:   " ++ vm.status.text,
    "  IP:       " ++ orDash vm.address,
    "  Host:     " ++ orDash vm.host,
    "  vCPUs:    " ++ natText vm.vcpus,
    "  Memory:   " ++ natText vm.memoryMb ++ "MB"] ++
  lineFor "  Kernel:   " vm.kernelPath ++
  lineFor "  Rootfs:   " vm.rootfsPath ++
  lineFor "  About:    " vm.description ++
  ["  Created:  " ++ vm.createdAt.display,
    "  Updated:  " ++ vm.updatedAt.display] ++
  lineFor "  Error:    " vm.errorMessage

def taskTable (tasks : List Task) : List String :=
  Text.tableLines ["Task", "Kind", "VM", "Status", "Attempts", "Last error"] (tasks.map fun t =>
    [t.id, t.kind.text, keyText t.vmKey, t.status.text,
      natText t.attempts ++ "/" ++ natText t.maxAttempts, orDash t.lastError])

end Cli

end VmFleet
