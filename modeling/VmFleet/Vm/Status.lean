/-
The lifecycle statuses of a VM. Five of them are transient: they exist only
while a task is working on the VM.
-/

namespace VmFleet

inductive VmStatus where
  /-- Accepted, waiting for its create task. -/
  | pending
  /-- An address is being allocated and the VM created remotely. -/
  | provisioning
  | running
  | stopping
  | stopped
  | starting
  | restarting
  /-- Being torn down remotely; the record goes away afterwards. -/
  | deleting
  /-- Something went wrong. Only a delete leaves this status. -/
  | error
  deriving DecidableEq, Repr, Inhabited

namespace VmStatus

def all : List VmStatus :=
  [.pending, .provisioning, .running, .stopping, .stopped, .starting, .restarting, .deleting,
    .error]

def transient : List VmStatus :=
  [.provisioning, .stopping, .starting, .restarting, .deleting]

/-- The statuses a delete may start from. -/
def deletable : List VmStatus :=
  [.pending, .running, .stopped, .error]

def text : VmStatus → String
  | .pending => "pending"
  | .provisioning => "provisioning"
  | .running => "running"
  | .stopping => "stopping"
  | .stopped => "stopped"
  | .starting => "starting"
  | .restarting => "restarting"
  | .deleting => "deleting"
  | .error => "error"

/-- The capitalised name, as diagnostics show it. -/
def name : VmStatus → String
  | .pending => "Pending"
  | .provisioning => "Provisioning"
  | .running => "Running"
  | .stopping => "Stopping"
  | .stopped => "Stopped"
  | .starting => "Starting"
  | .restarting => "Restarting"
  | .deleting => "Deleting"
  | .error => "Error"

def ofText? (s : String) : Option VmStatus :=
  all.find? (·.text == s)

def isTransient (s : VmStatus) : Bool :=
  transient.contains s

def isDeletable (s : VmStatus) : Bool :=
  deletable.contains s

theorem ofText?_text (s : VmStatus) : ofText? s.text = some s := by
  cases s <;> decide

end VmStatus

end VmFleet
