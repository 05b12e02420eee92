/-
What an owner may ask for. A request is checked, recorded and turned into a
task; none waits for remote work. VMs of other owners are to an owner as if
they did not exist.
-/
import VmFleet.Lifecycle.Path
import VmFleet.Queue.Enqueue
import VmFleet.Store.Vms

namespace VmFleet.Client

/-- Where a new VM is to be put. -/
structure Placement where
  host : Option String := none
  pool : Option String := none
  deriving DecidableEq, Repr

/-- The first drawn id that no VM has, of at most `turns`; otherwise the error of the last draw. -/
def insertFresh (s : Store) (now : Instant) (draft : Draft) :
    (turns : Nat) → (ids : List String) → Except Error (Vm × Store)
  | turns + 1, id :: ids =>
    match s.insertVm now id draft with
    | .ok r => .ok r
    | .error e => if turns = 0 || ids.isEmpty then .error e else insertFresh s now draft turns ids
  | _, _ => .error (.validation "could not generate a VM id")

/-- How many ids are drawn for a new VM at most. -/
def idDraws : Nat := 3

/-- Records a new VM and enqueues its create task. If the task cannot be stored, the record goes
away again. -/
def createVm (s : Store) (now : Instant) (maxAttempts : Nat) (ids : List String)
    (taskId : String) (draft : Draft) (placement : Placement) :
    Except Error (Vm × Task) × Store :=
  match checkRule draft.fault? with
  | .error e => (.error e, s)
  | .ok () =>
    match insertFresh s now draft idDraws ids with
    | .error e => (.error e, s)
    | .ok (vm, s) =>
      let params : TaskParams := ⟨placement.host, placement.pool, draft.kernelPath⟩
      match Queue.enqueue s now maxAttempts taskId .create vm.key params with
      | .ok (task, s) => (.ok (vm, task), s)
      | .error e => (.error e, (s.removeVm vm.key).2)

def getVm (s : Store) (vmId owner : String) : Except Error Vm :=
  match s.vmById? vmId with
  | some vm => if vm.owner = owner then .ok vm else .error (.vmNotFound vmId)
  | none => .error (.vmNotFound vmId)

/-- A page has at most this many VMs. -/
def maxPage : Nat := 100

/-- A page of the owner's VMs, newest first, and how many there are. -/
def listVms (s : Store) (owner : String) (offset limit : Nat) : List Vm × Nat :=
  s.listVmsByOwner owner offset (min (max limit 1) maxPage)

/-- Changes name and description, where given. -/
def updateVm (s : Store) (now : Instant) (vmId owner : String)
    (name description : Option String) : Except Error (Vm × Store) := do
  checkRule (name.bind Draft.nameFault?)
  checkRule (description.bind Draft.descriptionFault?)
  let vm ← getVm s vmId owner
  s.updateVmDetails now vm.key name description

/-- Enqueues a task for one of the owner's VMs if the VM's status allows it now. -/
def request (s : Store) (now : Instant) (maxAttempts : Nat) (taskId : String) (kind : TaskKind)
    (vmId owner : String) : Except Error (Task × Store) := do
  let vm ← getVm s vmId owner
  if kind.sources.contains vm.status then
    Queue.enqueue s now maxAttempts taskId kind vm.key { host := vm.host }
  else throw (.invalidTransition vm.id vm.status kind.via)

end VmFleet.Client
