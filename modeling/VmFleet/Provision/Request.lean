/-
What the provisioning tool is asked to do: one of four actions, each a playbook
of its own, and the variables of the VM it is done to.
-/
import VmFleet.Json.Writer
import VmFleet.Json.Reader
import VmFleet.Json.Record
import VmFleet.Task.Form

namespace VmFleet

inductive Action where
  | create | delete | start | stop
  deriving DecidableEq, Repr, Inhabited

namespace Action

def all : List Action := [.create, .delete, .start, .stop]

def text : Action → String
  | .create => "create"
  | .delete => "delete"
  | .start => "start"
  | .stop => "stop"

def ofText? (s : String) : Option Action :=
  all.find? (·.text == s)

/-- File name of the action's playbook. -/
def playbook (a : Action) : String :=
  a.text ++ "-vm.yml"

def toJson (a : Action) : Json := .str a.text

def ofJson? : Json → Option Action :=
  Json.asName? ofText?

end Action

/-- The variables handed to the tool for one VM. -/
structure ProvisionRequest where
  vmId : String
  vcpus : Nat
  memoryMb : Nat
  /-- Absent until an address is allocated. -/
  address : Option String
  host : Option String
  kernelPath : Option String
  deriving DecidableEq, Repr, Inhabited

namespace ProvisionRequest

def members : List String :=
  ["vm_id", "vcpu_count", "memory_mb", "ip_address", "host", "kernel_path"]

/-- Host and kernel are left out when they are not set; a missing address is null. -/
def toJson (r : ProvisionRequest) : Json :=
  .object (
    [("vm_id", .str r.vmId),
      ("vcpu_count", .ofNat r.vcpus),
      ("memory_mb", .ofNat r.memoryMb),
      ("ip_address", .ofText? r.address)] ++
    Json.optionalMember "host" r.host ++
    Json.optionalMember "kernel_path" r.kernelPath)

def ofJson? (v : Json) : Option ProvisionRequest := do
  let r ← Json.Record.read? members v
  some {
    vmId := ← r.need? "vm_id" Json.asText?
    vcpus := ← r.need? "vcpu_count" (Json.asNat? bound32)
    memoryMb := ← r.need? "memory_mb" (Json.asNat? bound32)
    address := ← r.nullable? "ip_address" Json.asText?
    host := ← r.nullable? "host" Json.asText?
    kernelPath := ← r.nullable? "kernel_path" Json.asText? }

/-- The variables as one JSON object with its keys in alphabetical order. -/
def extraVars (r : ProvisionRequest) : Json :=
  .object (
    Json.optionalMember "host" r.host ++
    [("ip_address", .ofText? r.address)] ++
    Json.optionalMember "kernel_path" r.kernelPath ++
    [("memory_mb", .ofNat r.memoryMb),
      ("vcpu_count", .ofNat r.vcpus),
      ("vm_id", .str r.vmId)])

end ProvisionRequest

end VmFleet
