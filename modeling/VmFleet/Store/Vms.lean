/-
The table of VM records. Every change of status goes through `compareAndSet`, one
statement that moves a VM only out of a status the caller expects; `transition` is
its answer with the store that it makes.
-/
import VmFleet.Store.VmUpdate
import VmFleet.Vm.Draft

namespace VmFleet.Store

def vm? (s : Store) (key : Int) : Option Vm :=
  s.vms.find? (·.key == key)

def vmById? (s : Store) (id : String) : Option Vm :=
  s.vms.find? (·.id == id)

/-- Stores a new VM in `pending`. -/
def insertVm (s : Store) (now : Instant) (id : String) (draft : Draft) :
    Except Error (Vm × Store) :=
  if (s.vmById? id).isSome then .error (.unique "vms.vm_id")
  else
    let vm : Vm := {
      key := s.nextVm
      id := id
      name := draft.name
      description := draft.description
      vcpus := draft.vcpus
      memoryMb := draft.memoryMb
      address := none
      host := none
      kernelPath := draft.kernelPath
      rootfsPath := none
      status := .pending
      errorMessage := none
      owner := draft.owner
      createdAt := now.cutToMicros
      updatedAt := now.cutToMicros }
    .ok (vm, { s with vms := s.vms ++ [vm], nextVm := s.nextVm + 1 })

/-- Newest first; of one age, the higher key first. -/
def newestFirst (a b : Vm) : Bool :=
  b.createdAt < a.createdAt || (a.createdAt == b.createdAt && b.key ≤ a.key)

def vmsOfOwner (s : Store) (owner : String) : List Vm :=
  (s.vms.filter (·.owner == owner)).mergeSort newestFirst

/-- One page of an owner's VMs, newest first, and how many there are. -/
def listVmsByOwner (s : Store) (owner : String) (offset limit : Nat) : List Vm × Nat :=
  let all := s.vmsOfOwner owner
  (page (signed offset) (signed limit) all, all.length)

/-- The VMs in one of the statuses, by key. -/
def listVmsByStatus (s : Store) (statuses : List VmStatus) : List Vm :=
  s.vms.filter fun vm => statuses.contains vm.status

/-- Applies `f` to the record with the key. -/
def setVm (s : Store) (key : Int) (f : Vm → Vm) : Store :=
  { s with vms := updateWhere (·.key == key) f s.vms }

/-- Edits name and description, where given. -/
def updateVmDetails (s : Store) (now : Instant) (key : Int) (name description : Option String) :
    Except Error (Vm × Store) :=
  match s.vm? key with
  | none => .error (.vmNotFound (keyText key))
  | some vm =>
    let edited : Vm := { vm with
      name := name.getD vm.name
      description := description <|> vm.description
      updatedAt := now.cutToMicros }
    .ok (edited, s.setVm key fun _ => edited)

/-- Carries a statement out: how many records it changes, and the store after it. A key names one
record at most, and a record holds nothing that could not be read back. -/
def execute (s : Store) (u : VmUpdate) (arguments : List Argument) : Except Error (Nat × Store) :=
  if arguments.length ≠ u.parameters then
    .error (.argumentCount arguments.length u.parameters)
  else
    match (u.key? arguments).bind s.vm? with
    | none => .ok (0, s)
    | some vm =>
      if (u.words arguments).contains vm.status.text then
        match u.write? arguments vm with
        | some written => .ok (1, s.setVm vm.key fun _ => written)
        | none => .error (.database "datatype mismatch")
      else .ok (0, s)

/-- Moves the VM to `next` with the patch, if its status is one of `expected`: the answer, and the
store as the statement leaves it, whatever the answer. -/
def compareAndSet (s : Store) (now : Instant) (key : Int) (expected : List VmStatus)
    (next : VmStatus) (patch : VmPatch) : Except Error Vm × Store :=
  let (update, arguments) := VmUpdate.moving key expected next patch now.cutToMicros
  match s.execute update arguments with
  | .error e => (.error e, s)
  | .ok (changed, s') =>
    match s'.vm? key with
    | none => (.error (.vmNotFound (keyText key)), s')
    | some vm =>
      if changed = 0 then (.error (.invalidTransition vm.id vm.status next), s')
      else (.ok vm, s')

/-- The change of status as callers see it; a refused one has changed nothing. -/
def transition (s : Store) (now : Instant) (key : Int) (expected : List VmStatus)
    (next : VmStatus) (patch : VmPatch) : Except Error (Vm × Store) :=
  match s.compareAndSet now key expected next patch with
  | (.ok vm, s') => .ok (vm, s')
  | (.error e, _) => .error e

/-- Removes the record; says whether there was one. -/
def removeVm (s : Store) (key : Int) : Bool × Store :=
  (s.vms.any (·.key == key), { s with vms := s.vms.filter fun vm => !(vm.key == key) })

end VmFleet.Store
