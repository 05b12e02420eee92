/-
Cleaning up after work that was cut short: after one aborted task, and, by a
sweep, after everything that has made no progress for too long.
-/
import VmFleet.Lifecycle.Handler

namespace VmFleet.Lifecycle

open Program (perform)

/-- Cleans up after an aborted task. A VM whose create did not finish gives its address back;
it, or a VM left in a transient status, goes into `error`. -/
def recoverAborted (kind : TaskKind) (vmKey : Int) (why : String) : Program Unit := do
  match ← perform (.findVm vmKey) with
  | none => return ()
  | some vm =>
    let unfinishedCreate := kind == .create && vm.status != .running
    if unfinishedCreate then
      let _ ← perform (.release vm.id)
    if vm.status.isTransient || (unfinishedCreate && vm.status == .pending) then
      let _ ← markError vm.key vm.status why unfinishedCreate

/-- What a sweep resolved. -/
structure SweepReport where
  vms : List Vm := []
  tasks : List Task := []

/-- The longest time that may be taken off an instant, in nanoseconds. -/
def longestSpan : Nat := (bound63 - 1) * 1000000

def stuckText (status : VmStatus) (maxAge : Duration) : String :=
  "stuck in " ++ status.text ++ " for more than " ++ maxAge.text

/-- Moves a VM that was last changed before the cutoff into `error`. -/
def sweepVm (cutoff : Instant) (maxAge : Duration) (vm : Vm) : Program (Option Vm) := do
  if cutoff ≤ vm.updatedAt then return none
  let neverRan := vm.status == .provisioning
  if neverRan then
    let _ ← perform (.release vm.id)
  markError vm.key vm.status (stuckText vm.status maxAge) neverRan

def sweepVms (cutoff : Instant) (maxAge : Duration) : List Vm → Program (List Vm)
  | [] => return []
  | vm :: rest => do
    let moved ← sweepVm cutoff maxAge vm
    let others ← sweepVms cutoff maxAge rest
    return moved.toList ++ others

def recoverAll : List Task → Program Unit
  | [] => return ()
  | task :: rest => do
    recoverAborted task.kind task.vmKey (task.kind.text ++ " task abandoned by its worker")
    recoverAll rest

/-- Resolves VMs that have been in a transient status, and tasks that have been running, for
longer than `maxAge`. -/
def sweepStale (maxAge : Duration) : Program (Except Error SweepReport) := do
  let now ← perform .now
  if longestSpan < maxAge.nanos then
    return .error (.validation "Source duration value is out of range for the target type")
  match now.before? maxAge with
  | none => .crash "the cutoff lies outside of the calendar"
  | some cutoff =>
    let stuck ← perform (.vmsIn VmStatus.transient)
    let vms ← sweepVms cutoff maxAge stuck
    match ← perform (.failAbandoned cutoff) with
    | .error e => return .error e
    | .ok tasks =>
      recoverAll tasks
      return .ok ⟨vms, tasks⟩

end VmFleet.Lifecycle
