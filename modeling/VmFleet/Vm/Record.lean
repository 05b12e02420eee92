/-
The stored record of a VM, and the field writes that ride along with a change
of its status.
-/
import VmFleet.Vm.Status
import VmFleet.Time.Instant

namespace VmFleet

structure Vm where
  /-- Internal key, never used twice. -/
  key : Int
  /-- Public identifier, used in every outside reference. -/
  id : String
  name : String
  description : Option String
  vcpus : Nat
  memoryMb : Nat
  /-- Set while the VM holds an address. -/
  address : Option String
  /-- Hypervisor host that runs the VM. -/
  host : Option String
  kernelPath : Option String
  rootfsPath : Option String
  status : VmStatus
  errorMessage : Option String
  owner : String
  createdAt : Instant
  updatedAt : Instant
  deriving DecidableEq, Repr, Inhabited

/-- What is done to one nullable field. -/
inductive FieldWrite where
  | keep
  | set (value : Option String)
  deriving DecidableEq, Repr, Inhabited

namespace FieldWrite

def apply : FieldWrite → Option String → Option String
  | .keep, old => old
  | .set new, _ => new

@[simp] theorem apply_keep (old : Option String) : keep.apply old = old := rfl
@[simp] theorem apply_set (new old : Option String) : (set new).apply old = new := rfl

end FieldWrite

/-- Field writes that ride along with a status change. -/
structure VmPatch where
  address : FieldWrite := .keep
  host : FieldWrite := .keep
  kernelPath : FieldWrite := .keep
  rootfsPath : FieldWrite := .keep
  errorMessage : FieldWrite := .keep
  deriving DecidableEq, Repr, Inhabited

namespace VmPatch

def clearError : VmPatch := { errorMessage := .set none }

def withError (message : String) : VmPatch := { errorMessage := .set (some message) }

/-- The patch, which also takes the address off the record if `drop` says so. -/
def droppingAddress (p : VmPatch) (drop : Bool) : VmPatch :=
  if drop then { p with address := .set none } else p

end VmPatch

/-- The record after a status change at `now`. -/
def Vm.moved (vm : Vm) (next : VmStatus) (patch : VmPatch) (now : Instant) : Vm :=
  { vm with
    status := next
    address := patch.address.apply vm.address
    host := patch.host.apply vm.host
    kernelPath := patch.kernelPath.apply vm.kernelPath
    rootfsPath := patch.rootfsPath.apply vm.rootfsPath
    errorMessage := patch.errorMessage.apply vm.errorMessage
    updatedAt := now }

end VmFleet
