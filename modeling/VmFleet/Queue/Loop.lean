/-
Workers and the janitor as they go on: a worker runs what is due and pauses
when nothing is, the janitor sweeps again and again.
-/
import VmFleet.Queue.Worker
import VmFleet.Lifecycle.World

namespace VmFleet.Queue

open Program (Ending)
open Lifecycle (Settings)

/-- What a worker works with. -/
structure Worker where
  tool : Tool
  queue : QueueConfig
  settings : Settings
  /-- The jitter of each turn. -/
  jitter : Nat → Jitter

/-- One turn of a worker: a claim and, if a task was due, its run. No two turns start at the same
time. -/
def Worker.turn (worker : Worker) (number : Nat) (w : World) :
    Except Error (Option RunReport) × World :=
  match (runOnce worker.queue worker.settings (worker.jitter number)).run worker.tool w with
  | (.finished r, w) => (r, w.advance World.tick)
  | (.crashed why, w) => (.error (.worker why), w.advance World.tick)

/-- Runs due tasks until none is due, `most` at most. -/
def Worker.runDue (worker : Worker) : (most : Nat) → World → Except Error (List RunReport) × World
  | 0, w => (.ok [], w)
  | most + 1, w =>
    match worker.turn most w with
    | (.error e, w) => (.error e, w)
    | (.ok none, w) => (.ok [], w)
    | (.ok (some report), w) =>
      let (rest, w) := worker.runDue most w
      (rest.map (report :: ·), w)

/-- No task waits or runs. -/
def isIdle (s : Store) : Bool :=
  s.tasks.all fun row => row.status == .completed || row.status == .failed

/-- How long a worker pauses when nothing is due. A pause lasts a millisecond at least. -/
def Worker.pause (worker : Worker) : Duration :=
  max worker.queue.pollInterval (.ofMillis 1)

/-- Works until no task waits or runs, or for `turns` turns. -/
def Worker.drain (worker : Worker) : (turns : Nat) → World → World
  | 0, w => w
  | turns + 1, w =>
    match worker.turn turns w with
    | (.ok (some _), w) => worker.drain turns w
    | (_, w) =>
      if isIdle w.store then w
      else worker.drain turns (w.advance worker.pause)

/-- One sweep of what is older than `maxAge`. -/
def sweep (tool : Tool) (maxAge : Duration) (w : World) :
    Ending (Except Error Lifecycle.SweepReport) × World :=
  (Lifecycle.sweepStale maxAge).run tool w

/-- Sweeps once and then `more` times, an interval apart, and tells whether the janitor is still
there at the end: a sweep that breaks down is its last. What is older than the hard limit is
stale. -/
def Worker.sweepEvery (worker : Worker) : (more : Nat) → World → Bool × World
  | more, w =>
    match sweep worker.tool worker.queue.hardLimit w with
    | (.crashed _, w) => (false, w)
    | (.finished _, w) =>
      match more with
      | 0 => (true, w)
      | more + 1 => worker.sweepEvery more (w.advance worker.queue.janitorInterval)

/-- A janitor that is to run for `span`: it sweeps at once and after each interval. Without an
interval it does not start. -/
def Worker.janitor (worker : Worker) (span : Duration) (w : World) : Bool × World :=
  let interval := worker.queue.janitorInterval
  let (going, swept) := if interval = .zero then (false, w)
    else worker.sweepEvery (span.nanos / interval.nanos) w
  (going, swept.reach (w.now.after span))

/-- A worker process: its janitor sweeps at once, and its workers go on until nothing is left to
do, or for `turns` turns. -/
def Worker.serve (worker : Worker) (turns : Nat) (w : World) : World :=
  worker.drain turns (sweep worker.tool worker.queue.hardLimit w).2

end VmFleet.Queue
