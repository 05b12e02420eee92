/-
The delay before a retry: an interval that starts at the configured backoff and
doubles with each attempt up to a ceiling, spread by a fifth either way.
-/
import VmFleet.Config.Record

namespace VmFleet

namespace Backoff

/-- How many parts one is divided into for a drawn fraction: two to the fifty-third. -/
abbrev parts : Nat := 9007199254740992

end Backoff

/-- A drawn fraction of one, below one. -/
abbrev Jitter := Fin Backoff.parts

namespace Backoff

/-- The interval after the given one. -/
def next (ceiling interval : Nat) : Nat :=
  if ceiling ≤ 2 * interval then ceiling else 2 * interval

/-- The interval after `turns` turns. -/
def intervalAfter (ceiling : Nat) : (turns : Nat) → (start : Nat) → Nat
  | 0, start => start
  | turns + 1, start => intervalAfter ceiling turns (next ceiling start)

/-- A point between four fifths and six fifths of the interval, one nanosecond more at most. -/
def spread (interval : Nat) (jitter : Jitter) : Nat :=
  (8 * interval * parts + jitter.val * (4 * interval + 10)) / (10 * parts)

/-- Number of the draw that counts for an attempt: the first to the thirty-second. -/
def draw (attempt : Nat) : Nat :=
  min (max attempt 1) 32

end Backoff

namespace QueueConfig

/-- No delay is longer. -/
def backoffCeiling (q : QueueConfig) : Duration :=
  max q.retryBackoff q.hardLimit

/-- The delay after an attempt. -/
def backoffFor (q : QueueConfig) (attempt : Nat) (jitter : Jitter) : Duration :=
  let ceiling := q.backoffCeiling.nanos
  let interval := Backoff.intervalAfter ceiling (Backoff.draw attempt - 1) q.retryBackoff.nanos
  ⟨min (Backoff.spread interval jitter) ceiling⟩

end QueueConfig

end VmFleet
