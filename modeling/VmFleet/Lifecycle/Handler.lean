/-
The handlers of tasks. A handler moves the VM into the transient status of its
kind, has the remote work done and settles the VM in a stable status. What
failed is undone: an address allocated for a VM that was not created is given
back, and the VM goes back for another attempt or into `error`.
-/
import VmFleet.Lifecycle.Path
import VmFleet.Lifecycle.Program

namespace VmFleet

/-- How a handler ended. -/
inductive Outcome where
  | done
  /-- The VM is in `error`; there is no other attempt. -/
  | failed (why : String)
  /-- A transient failure; the VM is back where the task started from. -/
  | retry (why : String)
  /-- The VM was not in a status the task may start from; nothing was done. -/
  | skipped (why : String)
  deriving DecidableEq, Repr

namespace Lifecycle

/-- What create requests fall back to, and the longest time of a remote call. -/
structure Settings where
  defaultPool : String
  defaultHost : Option String
  toolTimeout : Duration
  deriving DecidableEq, Repr

def Settings.of (c : Config) : Settings :=
  ⟨c.defaultPool, c.defaultHost, c.tool.timeout⟩

/-- One attempt at a task. -/
structure Attempt where
  /-- Counted from one. -/
  number : Nat
  maxAttempts : Nat
  /-- Remote calls are given no time beyond this. -/
  deadline : Instant
  deriving DecidableEq, Repr

namespace Attempt

def of (task : Task) (deadline : Instant) : Attempt :=
  ⟨max task.attempts 1, task.maxAttempts, deadline⟩

def isFinal (a : Attempt) : Bool :=
  a.maxAttempts ≤ a.number

end Attempt

open Program (perform)

/-- The outcome of a task that could not enter its transient status. -/
def refusal (e : Error) : Outcome :=
  match e with
  | .invalidTransition .. | .vmNotFound _ => .skipped e.message
  | _ => if e.isTransient then .retry e.message else .failed e.message

/-- Moves the VM into the transient status of the task's kind. -/
def enter (task : Task) : Program (Except Outcome Vm) := do
  let moved ← perform (.transition task.vmKey task.kind.sources task.kind.via .clearError)
  return moved.mapError refusal

/-- Has the tool carry out an action in the time that is left. With none left it is not called. -/
def provision (settings : Settings) (attempt : Attempt) (action : Action)
    (request : ProvisionRequest) : Program (Except Error Report) := do
  let now ← perform .now
  let budget := min (attempt.deadline.since now) settings.toolTimeout
  if budget = .zero then return .error (.timeout .zero)
  let answer ← perform (.call ⟨action, request, budget⟩ none)
  return answer.getD (.error (.timeout budget))

/-- Moves the VM from `current` into `error`; the record, if that was possible. -/
def markError (key : Int) (current : VmStatus) (why : String) (dropAddress : Bool) :
    Program (Option Vm) := do
  let patch := (VmPatch.withError why).droppingAddress dropAddress
  let moved ← perform (.transition key [current] .error patch)
  return moved.toOption

/-- Ends a task that failed: back to `revert` for another attempt if one may help and is left,
otherwise into `error`. `vm` is the record as the task entered it. -/
def settleFailure (attempt : Attempt) (vm : Vm) (revert : VmStatus) (e : Error) :
    Program Outcome := do
  let found ← perform (.findVm vm.key)
  let current := (found.map (·.status)).getD vm.status
  let dropAddress := vm.status == .provisioning
  let giveUp : Program Outcome := do
    let _ ← markError vm.key current e.message dropAddress
    return .failed e.message
  if e.isTransient && !attempt.isFinal then
    let patch := (VmPatch.withError e.message).droppingAddress dropAddress
    match ← perform (.transition vm.key [current] revert patch) with
    | .ok _ => return .retry e.message
    | .error _ => giveUp
  else giveUp

/-- The variables of a VM for the tool. -/
def requestFor (vm : Vm) (address host kernelPath : Option String) : ProvisionRequest :=
  ⟨vm.id, vm.vcpus, vm.memoryMb, address, host, kernelPath⟩

/-- What a finished create writes into the record. -/
def createdPatch (address host kernelPath : Option String) (report : Report) : VmPatch where
  address := .set address
  host := .set host
  kernelPath := .set (report.fact? "kernel_path" <|> kernelPath)
  rootfsPath := .set (report.fact? "rootfs_path")
  errorMessage := .set none

def create (settings : Settings) (attempt : Attempt) (task : Task) : Program Outcome := do
  match ← enter task with
  | .error outcome => return outcome
  | .ok vm =>
    let pool := task.params.pool.getD settings.defaultPool
    match ← perform (.allocate pool vm.id) with
    | .error e => settleFailure attempt vm .pending e
    | .ok allocation =>
      let undo (e : Error) : Program Outcome := do
        let _ ← perform (.release vm.id)
        settleFailure attempt vm .pending e
      let address := some allocation.address
      let host := task.params.host <|> settings.defaultHost
      let kernelPath := task.params.kernelPath <|> vm.kernelPath
      match ← provision settings attempt .create (requestFor vm address host kernelPath) with
      | .error e => undo e
      | .ok report =>
        let patch := createdPatch address host kernelPath report
        match ← perform (.transition vm.key [.provisioning] .running patch) with
        | .ok _ => return .done
        | .error e => undo e

/-- Tears the VM down and removes its record, also when the remote teardown fails. -/
def delete (settings : Settings) (attempt : Attempt) (task : Task) : Program Outcome := do
  match ← enter task with
  | .error outcome => return outcome
  | .ok vm =>
    let request := requestFor vm vm.address (vm.host <|> task.params.host) vm.kernelPath
    let _ ← provision settings attempt .delete request
    let _ ← perform (.release vm.id)
    let _ ← perform (.removeVm vm.key)
    return .done

/-- Has the tool carry out actions one after the other, up to the first that fails. -/
def provisionAll (settings : Settings) (attempt : Attempt) (request : ProvisionRequest) :
    List Action → Program (Except Error Unit)
  | [] => return .ok ()
  | action :: rest => do
    match ← provision settings attempt action request with
    | .error e => return .error e
    | .ok _ => provisionAll settings attempt request rest

/-- Starts, stops or restarts the VM. -/
def power (settings : Settings) (attempt : Attempt) (task : Task) : Program Outcome := do
  match ← enter task with
  | .error outcome => return outcome
  | .ok vm =>
    let request := requestFor vm vm.address vm.host vm.kernelPath
    match ← provisionAll settings attempt request task.kind.actions with
    | .error e => settleFailure attempt vm task.kind.revert e
    | .ok () =>
      match ← perform (.transition vm.key [task.kind.via] task.kind.settled .clearError) with
      | .ok _ => return .done
      | .error e => settleFailure attempt vm task.kind.revert e

def handle (settings : Settings) (attempt : Attempt) (task : Task) : Program Outcome :=
  match task.kind with
  | .create => create settings attempt task
  | .delete => delete settings attempt task
  | .start | .stop | .restart => power settings attempt task

end Lifecycle

end VmFleet
