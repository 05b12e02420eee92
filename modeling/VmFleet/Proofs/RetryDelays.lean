/-
The delay before a retry, as a policy draws it. A policy keeps an interval; each draw is
a length about the interval, a fifth away from it at most, and leaves the interval
doubled, up to a ceiling. For an attempt as many delays are drawn as the attempt's
number says, and the last one counts; so its interval is the first one doubled once less
often than that.
-/
import VmFleet.Proofs.Turns
import VmFleet.Queue.Backoff

namespace VmFleet

namespace Backoff

/-- A way to draw a length about an interval, from whatever is drawn at random: no more than a fifth
away, but for less than a nanosecond. -/
structure Spread (J : Type) where
  drawn : (interval : Nat) → J → Nat
  above : ∀ interval j, 4 * interval < 5 * (drawn interval j + 1)
  below : ∀ interval j, 5 * drawn interval j < 6 * interval + 5

/-- A policy between two draws. -/
structure Policy where
  interval : Nat
  ceiling : Nat
  deriving DecidableEq, Repr

variable {J : Type} (spread : Spread J) (start ceiling : Nat)

/-- One draw, and the policy after it. -/
def Policy.draw (p : Policy) (j : J) : Nat × Policy :=
  (spread.drawn p.interval j, { p with interval := min (2 * p.interval) p.ceiling })

/-- The last of several draws; `delay` if there are none. -/
def Policy.last (p : Policy) (delay : Nat) : List J → Nat
  | [] => delay
  | j :: draws => (p.draw spread j).2.last (p.draw spread j).1 draws

theorem spread_bounds (interval : Nat) (jitter : Jitter) :
    4 * interval < 5 * (Backoff.spread interval jitter + 1) ∧
      5 * Backoff.spread interval jitter < 6 * interval + 5 := by
  obtain ⟨part, below⟩ := jitter
  -- What is drawn of the spread, two fifths of the interval and a nanosecond, is not all of it.
  have drawn : part * (4 * interval + 10) + (4 * interval + 10) ≤
      parts * (4 * interval + 10) := by
    rw [← Nat.succ_mul]
    exact Nat.mul_le_mul_right _ below
  have lower := Nat.lt_mul_div_succ (8 * interval * parts + part * (4 * interval + 10))
    (b := 10 * parts) (by decide)
  have upper := Nat.mul_div_le (8 * interval * parts + part * (4 * interval + 10)) (10 * parts)
  simp only [Backoff.spread, parts] at drawn lower upper ⊢
  constructor <;> omega

/-- The queue's own draws are such a way. -/
def jitterSpread : Spread Jitter where
  drawn := Backoff.spread
  above interval j := (spread_bounds interval j).1
  below interval j := (spread_bounds interval j).2

/-- Every draw leaves the interval doubled, so that of the last one was doubled by each before. -/
theorem last_doubled (draws : List J) (last : J) (turns delay : Nat) :
    Policy.last spread ⟨min (start * 2 ^ turns) ceiling, ceiling⟩ delay (draws ++ [last]) =
      spread.drawn (min (start * 2 ^ (turns + draws.length)) ceiling) last := by
  induction draws generalizing turns delay with
  | nil => rfl
  | cons j draws ih =>
    have doubled : min (2 * min (start * 2 ^ turns) ceiling) ceiling =
        min (start * 2 ^ (turns + 1)) ceiling := by
      rw [pow_succ, ← mul_assoc]
      omega
    rw [List.cons_append, Policy.last, Policy.draw]
    simp only [doubled]
    rw [ih, List.length_cons, Nat.add_assoc, Nat.add_comm 1]

theorem intervalAfter_doubled (turns done : Nat) :
    intervalAfter ceiling turns (min (start * 2 ^ done) ceiling) =
      min (start * 2 ^ (done + turns)) ceiling := by
  induction turns generalizing done with
  | zero => rfl
  | succ turns ih =>
    have doubled : next ceiling (min (start * 2 ^ done) ceiling) =
        min (start * 2 ^ (done + 1)) ceiling := by
      rw [pow_succ, ← mul_assoc, next]
      split <;> omega
    rw [intervalAfter, doubled, ih, Nat.add_assoc, Nat.add_comm 1]

end Backoff

namespace QueueConfig

open Backoff

variable {J : Type} (spread : Spread J) (q : QueueConfig)

/-- The last of the delays drawn by a policy that starts with the configured backoff, no longer than
the ceiling. -/
def delayDrawn (draws : List J) : Nat :=
  let start : Policy := ⟨q.retryBackoff.nanos, q.backoffCeiling.nanos⟩
  min (start.last spread q.retryBackoff.nanos draws) q.backoffCeiling.nanos

/-- The interval of the draw that counts for an attempt: the configured backoff, doubled by each
draw before it. -/
def intervalFor (attempt : Nat) : Nat :=
  min (q.retryBackoff.nanos * 2 ^ (draw attempt - 1)) q.backoffCeiling.nanos

/-- A delay for an attempt: about the attempt's interval, and within the ceiling. -/
structure DelayFor (attempt delay : Nat) : Prop where
  above : 4 * q.intervalFor attempt < 5 * (delay + 1)
  below : 5 * delay < 6 * q.intervalFor attempt + 5
  capped : delay ≤ q.backoffCeiling.nanos
  atOnce : q.retryBackoff.nanos = 0 → delay = 0

variable {q} {attempt : Nat}

theorem draw_pos (attempt : Nat) : 0 < draw attempt := by
  simp only [draw]
  omega

theorem start_eq (q : QueueConfig) :
    q.retryBackoff.nanos = min (q.retryBackoff.nanos * 2 ^ 0) q.backoffCeiling.nanos := by
  have within : q.retryBackoff.nanos ≤ q.backoffCeiling.nanos := Nat.le_max_left _ _
  rw [pow_zero, mul_one, Nat.min_eq_left within]

theorem delayDrawn_eq {draws : List J} {last : J}
    (count : (draws ++ [last]).length = draw attempt) :
    q.delayDrawn spread (draws ++ [last]) =
      min (spread.drawn (q.intervalFor attempt) last) q.backoffCeiling.nanos := by
  have before : draws.length = draw attempt - 1 := by
    rw [List.length_append, List.length_singleton] at count
    omega
  have doubled := last_doubled spread q.retryBackoff.nanos q.backoffCeiling.nanos draws last 0
    q.retryBackoff.nanos
  rw [← q.start_eq, Nat.zero_add, before] at doubled
  rw [delayDrawn, doubled, intervalFor]

theorem backoffFor_eq (jitter : Jitter) : (q.backoffFor attempt jitter).nanos =
    min (jitterSpread.drawn (q.intervalFor attempt) jitter) q.backoffCeiling.nanos := by
  have doubled := intervalAfter_doubled q.retryBackoff.nanos q.backoffCeiling.nanos
    (draw attempt - 1) 0
  rw [← q.start_eq, Nat.zero_add] at doubled
  simp only [backoffFor, doubled]
  rfl

theorem delayFor_drawn (j : J) :
    q.DelayFor attempt (min (spread.drawn (q.intervalFor attempt) j) q.backoffCeiling.nanos) := by
  have above := spread.above (q.intervalFor attempt) j
  have below := spread.below (q.intervalFor attempt) j
  have interval : q.intervalFor attempt ≤ q.backoffCeiling.nanos := Nat.min_le_right _ _
  refine ⟨by omega, by omega, Nat.min_le_right _ _, fun none => ?_⟩
  have empty : q.intervalFor attempt = 0 := by
    rw [intervalFor, none, Nat.zero_mul, Nat.zero_min]
  omega

theorem intervalFor_monotone (q : QueueConfig) : Monotone q.intervalFor := by
  intro a b le
  have later : draw a - 1 ≤ draw b - 1 := by
    simp only [draw]
    omega
  exact min_le_min_right _ (Nat.mul_le_mul_left _ (Nat.pow_le_pow_right (by decide) later))

/-- **A retry waits about as long as its interval, whatever is drawn.** The delay for an attempt is
the last of as many draws as the attempt's number, one at least and 32 at most. A policy that spreads
its interval by a fifth and then doubles it up to the ceiling draws it about the configured backoff,
doubled for each draw before and held to the ceiling; it is never beyond the ceiling, and there is
none without a backoff. So does the queue, whose delay hangs on its last draw alone. The interval
never falls from one attempt to the next. -/
theorem retry_waits_about_interval (q : QueueConfig) :
    (∀ attempt jitter, q.DelayFor attempt (q.backoffFor attempt jitter).nanos) ∧
    (∀ {J : Type} (spread : Spread J) (attempt : Nat) (draws : List J),
      draws.length = draw attempt → q.DelayFor attempt (q.delayDrawn spread draws)) ∧
    (∀ (attempt : Nat) (draws : List Jitter) (last : Jitter),
      (draws ++ [last]).length = draw attempt →
        (q.backoffFor attempt last).nanos = q.delayDrawn jitterSpread (draws ++ [last])) ∧
    Monotone q.intervalFor := by
  refine ⟨fun attempt jitter => ?_, fun spread attempt draws count => ?_,
    fun attempt draws last count => ?_, q.intervalFor_monotone⟩
  · rw [backoffFor_eq]
    exact delayFor_drawn jitterSpread jitter
  · have some_drawn : draws ≠ [] := by
      rintro rfl
      exact absurd count (Nat.ne_of_lt (draw_pos attempt))
    obtain ⟨front, last, rfl⟩ := (List.eq_nil_or_concat draws).resolve_left some_drawn
    rw [List.concat_eq_append] at count ⊢
    rw [delayDrawn_eq spread count]
    exact delayFor_drawn spread last
  · rw [backoffFor_eq, delayDrawn_eq jitterSpread count]

/-- With a backoff of 5 s and a hard limit of 300 s a third delay lies about 20 s, and here it is the
shortest such. From the seventh on they lie about 300 s. -/
theorem thirdDelay_drawn :
    let draws : List Jitter := [⟨parts - 1, by decide⟩, ⟨5, by decide⟩, ⟨0, by decide⟩]
    ({} : QueueConfig).DelayFor 3 (delayDrawn jitterSpread {} draws) ∧
      delayDrawn jitterSpread {} draws = 16000000000 ∧
      (({} : QueueConfig).backoffFor 3 ⟨0, by decide⟩).nanos = 16000000000 ∧
      ({} : QueueConfig).intervalFor 3 = 20000000000 ∧
      ({} : QueueConfig).intervalFor 7 = 300000000000 ∧
      300000000000 ≤ ({} : QueueConfig).intervalFor 40 := by
  intro draws
  obtain ⟨-, drawn, own, later⟩ := retry_waits_about_interval {}
  have last : delayDrawn jitterSpread {} draws = 16000000000 := by decide +kernel
  have seventh : ({} : QueueConfig).intervalFor 7 = 300000000000 := by decide +kernel
  have alone := own 3 [⟨parts - 1, by decide⟩, ⟨5, by decide⟩] ⟨0, by decide⟩ (by decide)
  exact ⟨drawn jitterSpread 3 draws (by decide), last, alone.trans last, by decide +kernel, seventh,
    seventh ▸ later (by decide)⟩

end QueueConfig

end VmFleet
