/-
The forms of statuses, VM records and requests for a VM, and of instants, in
JSON, and the reading of a status from a plain word.
-/
import VmFleet.Error
import VmFleet.Json.Record
import VmFleet.Time.Timestamp
import VmFleet.Vm.Draft
import VmFleet.Vm.Record

namespace VmFleet

namespace Instant

def toJson (t : Instant) : Json := .str t.text

def ofJson? (v : Json) : Option Instant :=
  v.asText?.bind read?

end Instant

namespace VmStatus

def toJson (s : VmStatus) : Json := .str s.text

def ofJson? : Json → Option VmStatus :=
  Json.asName? ofText?

def read (word : String) : Except Error VmStatus :=
  Error.orUnknown "VM status" word (ofText? word)

end VmStatus

namespace Vm

def members : List String :=
  ["id", "vm_id", "name", "description", "vcpu_count", "memory_mb", "ip_address", "host",
    "kernel_path", "rootfs_path", "status", "error_message", "owner", "created_at", "updated_at"]

def toJson (vm : Vm) : Json :=
  .object [
    ("id", .int vm.key),
    ("vm_id", .str vm.id),
    ("name", .str vm.name),
    ("description", .ofText? vm.description),
    ("vcpu_count", .ofNat vm.vcpus),
    ("memory_mb", .ofNat vm.memoryMb),
    ("ip_address", .ofText? vm.address),
    ("host", .ofText? vm.host),
    ("kernel_path", .ofText? vm.kernelPath),
    ("rootfs_path", .ofText? vm.rootfsPath),
    ("status", vm.status.toJson),
    ("error_message", .ofText? vm.errorMessage),
    ("owner", .str vm.owner),
    ("created_at", vm.createdAt.toJson),
    ("updated_at", vm.updatedAt.toJson)]

def ofJson? (v : Json) : Option Vm := do
  let r ← Json.Record.read? members v
  some {
    key := ← r.need? "id" Json.asKey?
    id := ← r.need? "vm_id" Json.asText?
    name := ← r.need? "name" Json.asText?
    description := ← r.nullable? "description" Json.asText?
    vcpus := ← r.need? "vcpu_count" (Json.asNat? bound32)
    memoryMb := ← r.need? "memory_mb" (Json.asNat? bound32)
    address := ← r.nullable? "ip_address" Json.asText?
    host := ← r.nullable? "host" Json.asText?
    kernelPath := ← r.nullable? "kernel_path" Json.asText?
    rootfsPath := ← r.nullable? "rootfs_path" Json.asText?
    status := ← r.need? "status" VmStatus.ofJson?
    errorMessage := ← r.nullable? "error_message" Json.asText?
    owner := ← r.need? "owner" Json.asText?
    createdAt := ← r.need? "created_at" Instant.ofJson?
    updatedAt := ← r.need? "updated_at" Instant.ofJson? }

end Vm

namespace Draft

def members : List String :=
  ["name", "description", "vcpu_count", "memory_mb", "owner", "kernel_path"]

def toJson (d : Draft) : Json :=
  .object [
    ("name", .str d.name),
    ("description", .ofText? d.description),
    ("vcpu_count", .ofNat d.vcpus),
    ("memory_mb", .ofNat d.memoryMb),
    ("owner", .str d.owner),
    ("kernel_path", .ofText? d.kernelPath)]

def ofJson? (v : Json) : Option Draft := do
  let r ← Json.Record.read? members v
  some {
    name := ← r.need? "name" Json.asText?
    description := ← r.nullable? "description" Json.asText?
    vcpus := ← r.need? "vcpu_count" (Json.asNat? bound32)
    memoryMb := ← r.need? "memory_mb" (Json.asNat? bound32)
    owner := ← r.need? "owner" Json.asText?
    kernelPath := ← r.nullable? "kernel_path" Json.asText? }

end Draft

end VmFleet
