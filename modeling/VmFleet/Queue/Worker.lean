/-
The consumer's side of the queue: a worker claims a due task, runs its handler
under the hard time limit and records how it ended.
-/
import VmFleet.Lifecycle.Recovery
import VmFleet.Queue.Backoff

namespace VmFleet.Queue

open Program (perform)
open Lifecycle (Settings Attempt)

/-- What is shown of a task while its handler runs. -/
structure ActiveTask where
  taskId : String
  kind : TaskKind
  /-- Public id of the VM, as far as it is known. -/
  correlation : String
  deriving DecidableEq, Repr

/-- One run of a task. -/
structure RunReport where
  active : ActiveTask
  vmKey : Int
  attempt : Nat
  outcome : Outcome
  /-- Status of the task after the run. -/
  status : TaskStatus
  deriving DecidableEq, Repr

def abortText (limit : Duration) : String :=
  "task aborted after hard time limit of " ++ limit.text

/-- Runs the handler; one that lasts beyond the hard limit is aborted and cleaned up after. -/
def execute (queue : QueueConfig) (settings : Settings) (attempt : Attempt) (abortAt : Instant)
    (task : Task) : Program Outcome := do
  match ← (Lifecycle.handle settings attempt task).within abortAt with
  | some outcome => return outcome
  | none =>
    Lifecycle.recoverAborted task.kind task.vmKey (abortText queue.hardLimit)
    return .failed (abortText queue.hardLimit)

/-- When a task is due again that failed at `now`. A delay too long to be added counts as none. -/
def retryAt? (queue : QueueConfig) (jitter : Jitter) (task : Task) (now : Instant) :
    Option Instant :=
  let delay := queue.backoffFor task.attempts jitter
  now.after? (if Lifecycle.longestSpan < delay.nanos then .zero else delay)

/-- Records how a task ended: done, due again later, or failed. -/
def record (queue : QueueConfig) (jitter : Jitter) (task : Task) (outcome : Outcome) :
    Program TaskStatus := do
  let failed (why : String) : Program TaskStatus := do
    let _ ← perform (.fail task.id why)
    return .failed
  match outcome with
  | .done =>
    let _ ← perform (.complete task.id none)
    return .completed
  | .skipped why =>
    let _ ← perform (.complete task.id (some why))
    return .completed
  | .failed why => failed why
  | .retry why =>
    if task.isFinalAttempt then failed why
    else
      let now ← perform .now
      match retryAt? queue jitter task now with
      | none => .crash "the next attempt lies outside of the calendar"
      | some notBefore =>
        let _ ← perform (.retry task.id notBefore why)
        return .pending

/-- Runs a claimed task. -/
def runTask (queue : QueueConfig) (settings : Settings) (jitter : Jitter) (task : Task) :
    Program RunReport := do
  let found ← perform (.findVm task.vmKey)
  let correlation := (found.map (·.id)).getD ("vm-" ++ keyText task.vmKey)
  let now ← perform .now
  let attempt := Attempt.of task (now.after queue.softLimit)
  let outcome ← execute queue settings attempt (now.after queue.hardLimit) task
  let status ← record queue jitter task outcome
  return ⟨⟨task.id, task.kind, correlation⟩, task.vmKey, attempt.number, outcome, status⟩

/-- Claims the next due task and runs it; `none` if no task is due. -/
def runOnce (queue : QueueConfig) (settings : Settings) (jitter : Jitter) :
    Program (Except Error (Option RunReport)) := do
  match ← perform .claim with
  | .error e => return .error e
  | .ok none => return .ok none
  | .ok (some task) =>
    let report ← runTask queue settings jitter task
    return .ok (some report)

end VmFleet.Queue
