/-
The path of each kind of task through the statuses: where it may start, the
transient status in which the remote work is done, the remote actions, and
where it ends. A delete ends with the record gone.
-/
import VmFleet.Provision.Request
import VmFleet.Task.Record
import VmFleet.Vm.Status

namespace VmFleet.TaskKind

/-- The statuses a VM may be in when the task starts. -/
def sources : TaskKind → List VmStatus
  | .create => [.pending]
  | .delete => VmStatus.deletable
  | .start => [.stopped]
  | .stop => [.running]
  | .restart => [.running]

/-- The status of the VM while the task works on it. -/
def via : TaskKind → VmStatus
  | .create => .provisioning
  | .delete => .deleting
  | .start => .starting
  | .stop => .stopping
  | .restart => .restarting

/-- The status a failed task puts the VM back into for another attempt. A delete has no way back:
the VM stays where it is. -/
def revert : TaskKind → VmStatus
  | .create => .pending
  | .delete => .deleting
  | .start => .stopped
  | .stop => .running
  | .restart => .running

/-- The status of the VM after the task. A delete ends with the record removed from `deleting`. -/
def settled : TaskKind → VmStatus
  | .create => .running
  | .delete => .deleting
  | .start => .running
  | .stop => .stopped
  | .restart => .running

/-- The remote actions, in order. -/
def actions : TaskKind → List Action
  | .create => [.create]
  | .delete => [.delete]
  | .start => [.start]
  | .stop => [.stop]
  | .restart => [.stop, .start]

end VmFleet.TaskKind
