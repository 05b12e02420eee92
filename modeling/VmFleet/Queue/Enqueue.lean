/-
The producer's side of the queue: a task is stored and a worker picks it up later.
-/
import VmFleet.Store.Tasks

namespace VmFleet.Queue

/-- Stores a new task under a drawn id. -/
def enqueue (s : Store) (now : Instant) (maxAttempts : Nat) (taskId : String) (kind : TaskKind)
    (vmKey : Int) (params : TaskParams) : Except Error (Task × Store) :=
  let task := Task.fresh taskId kind vmKey params maxAttempts now
  (s.insertTask task).map fun s => (task, s)

end VmFleet.Queue
