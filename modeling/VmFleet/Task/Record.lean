/-
Tasks: one lifecycle transition for one VM, waiting in the queue, running or
finished. The record is kept apart from the way its times are held, because
the store holds them as text.
-/
import VmFleet.Time.Instant

namespace VmFleet

/-- Which transition a task performs. -/
inductive TaskKind where
  | create | delete | start | stop | restart
  deriving DecidableEq, Repr, Inhabited

namespace TaskKind

def all : List TaskKind := [.create, .delete, .start, .stop, .restart]

def text : TaskKind → String
  | .create => "create"
  | .delete => "delete"
  | .start => "start"
  | .stop => "stop"
  | .restart => "restart"

def ofText? (s : String) : Option TaskKind :=
  all.find? (·.text == s)

theorem ofText?_text (k : TaskKind) : ofText? k.text = some k := by
  cases k <;> decide

end TaskKind

inductive TaskStatus where
  /-- Waiting for a worker, perhaps after a failed attempt. -/
  | pending
  /-- Claimed by a worker. -/
  | running
  /-- The VM settled, or the task did not apply to its status. -/
  | completed
  | failed
  deriving DecidableEq, Repr, Inhabited

namespace TaskStatus

def all : List TaskStatus := [.pending, .running, .completed, .failed]

def text : TaskStatus → String
  | .pending => "Pending"
  | .running => "Running"
  | .completed => "Completed"
  | .failed => "Failed"

def ofText? (s : String) : Option TaskStatus :=
  all.find? (·.text == s)

theorem ofText?_text (s : TaskStatus) : ofText? s.text = some s := by
  cases s <;> decide

end TaskStatus

/-- What a task was told when it was enqueued. -/
structure TaskParams where
  host : Option String := none
  /-- The pool to draw an address from. -/
  pool : Option String := none
  kernelPath : Option String := none
  deriving DecidableEq, Repr, Inhabited

/-- A task whose times are of type `τ`. -/
structure TaskOf (τ : Type) where
  id : String
  kind : TaskKind
  /-- Internal key of the VM it is for. -/
  vmKey : Int
  params : TaskParams
  status : TaskStatus
  /-- Attempts started so far. -/
  attempts : Nat
  maxAttempts : Nat
  /-- No worker may claim the task before this time. -/
  notBefore : τ
  createdAt : τ
  startedAt : Option τ
  completedAt : Option τ
  lastError : Option String
  deriving DecidableEq, Repr

abbrev Task := TaskOf Instant

namespace Task

/-- A task that is due at once and may be attempted at least once. -/
def fresh (id : String) (kind : TaskKind) (vmKey : Int) (params : TaskParams) (maxAttempts : Nat)
    (now : Instant) : Task where
  id := id
  kind := kind
  vmKey := vmKey
  params := params
  status := .pending
  attempts := 0
  maxAttempts := max maxAttempts 1
  notBefore := now
  createdAt := now
  startedAt := none
  completedAt := none
  lastError := none

end Task

/-- No attempt is left after the one that was started last. -/
def TaskOf.isFinalAttempt {τ : Type} (t : TaskOf τ) : Bool :=
  t.maxAttempts ≤ t.attempts

end VmFleet
