/-
A worker that is to put a task off to a time that the calendar does not have. Of
all that it does only this makes it break down; what the handler did to the VM
stands then, and the task stays running.
-/
import VmFleet.Proofs.Turns

namespace VmFleet.Queue

open Lifecycle (Settings Attempt Handled)
open Program (Returns)

variable {queue : QueueConfig} {settings : Settings} {jitter : Jitter} {task : Task} {tool : Tool}
  {p : Provisioner} {w w' : World} {s : Store} {now : Instant} {why : String}

/-- The handler's run for a claimed task, under the limits that the worker sets it. -/
def attend (queue : QueueConfig) (settings : Settings) (tool : Tool) (task : Task) (w : World) :
    Program.Ending Outcome × World :=
  let begun := w.advance World.tick
  (execute queue settings (.of task (begun.now.after queue.softLimit))
    (begun.now.after queue.hardLimit) task).run tool begun

/-- A worker that looks for work at this time claims a task whose handler asks for another attempt,
and the calendar has no time for it. -/
def Overruns (queue : QueueConfig) (settings : Settings) (jitter : Jitter) (p : Provisioner)
    (s : Store) (now : Instant) : Prop :=
  ∃ task claimed why w, s.claimNext now = .ok (some task, claimed) ∧
    attend queue settings p.tool task { store := claimed, now } = (.finished (.retry why), w) ∧
    retryAt? queue jitter task (w.advance World.tick).now = none

/-! ## Breaking down -/

theorem record_crashed {outcome : Outcome}
    (h : (record queue jitter task outcome).run tool w = (.crashed why, w')) :
    (∃ cause, outcome = .retry cause) ∧
      retryAt? queue jitter task (w.advance World.tick).now = none := by
  have fails : ∀ why, (do
      let _ ← Program.perform (.fail task.id why)
      return TaskStatus.failed : Program TaskStatus).Returns :=
    fun _ => .perform fun _ => .pure _
  cases outcome with
  | done => cases h
  | skipped why => cases h
  | failed why => exact absurd h (fails _).not_crashed
  | retry cause =>
    refine ⟨⟨cause, rfl⟩, ?_⟩
    simp only [record] at h
    split at h
    · exact absurd h (fails _).not_crashed
    · rw [Program.run_now] at h
      split at h
      · assumption
      · next notBefore _ =>
        have returns : ∀ op : Operation (Except Error Unit),
            (Program.perform op >>= fun _ => pure TaskStatus.pending).Returns :=
          fun _ => .perform fun _ => .pure _
        exact absurd h (returns _).not_crashed

theorem record_overrun (tool : Tool) (cause : String) (left : task.attempts < task.maxAttempts)
    (late : retryAt? queue jitter task (w.advance World.tick).now = none) :
    ∃ why, (record queue jitter task (.retry cause)).run tool w =
      (.crashed why, w.advance World.tick) := by
  have left : ¬ task.isFinalAttempt = true := by
    simpa [TaskOf.isFinalAttempt] using left
  simp only [record, if_neg left]
  rw [Program.run_now, late]
  exact ⟨_, rfl⟩

theorem runTask_crashed (h : (runTask queue settings jitter task).run tool w = (.crashed why, w')) :
    ∃ cause w₁, attend queue settings tool task w = (.finished (.retry cause), w₁) ∧
      retryAt? queue jitter task (w₁.advance World.tick).now = none := by
  rw [runTask_begins] at h
  rcases Program.run_bind_crashed h with broken | ⟨outcome, w₁, attended, broken⟩
  · exact absurd broken (execute_returns _ _).not_crashed
  rcases Program.run_bind_crashed broken with broken | ⟨status, w₂, -, broken⟩
  · obtain ⟨⟨cause, rfl⟩, late⟩ := record_crashed broken
    exact ⟨cause, w₁, attended, late⟩
  · exact absurd broken (Returns.pure _).not_crashed

theorem runOnce_unclaimed (queue : QueueConfig) (settings : Settings) (jitter : Jitter)
    (tool : Tool) (none : ∀ task claimed, w.store.claimNext w.now ≠ .ok (some task, claimed)) :
    ∃ answer w', (runOnce queue settings jitter).run tool w = (.finished answer, w') := by
  obtain ⟨next, shape, failed, idle, -⟩ := runOnce_claims queue settings jitter
  rw [shape]
  show ∃ answer w', (next (w.commit (w.store.claimNext w.now)).1).run tool
    (w.commit (w.store.claimNext w.now)).2 = (.finished answer, w')
  cases claim : w.store.claimNext w.now with
  | error e => exact ⟨_, _, congrArg (Program.run tool · w) (failed e)⟩
  | ok found =>
    obtain ⟨_ | task, claimed⟩ := found
    · exact ⟨_, _, congrArg (Program.run tool · _) idle⟩
    · exact absurd claim (none task claimed)

/-- A worker that breaks down was to put a task off too long. -/
theorem runOnce_crashed
    (h : (runOnce queue settings jitter).run p.tool { store := s, now } = (.crashed why, w')) :
    Overruns queue settings jitter p s now := by
  by_cases claims : ∃ task claimed, s.claimNext now = .ok (some task, claimed)
  · obtain ⟨task, claimed, claim⟩ := claims
    rw [runOnce_run (w := { store := s, now }) queue settings jitter p.tool claim] at h
    rcases Program.run_bind_crashed h with broken | ⟨report, w₁, -, broken⟩
    · obtain ⟨cause, w₁, attended, late⟩ := runTask_crashed broken
      exact ⟨task, claimed, cause, w₁, claim, attended, late⟩
    · exact absurd broken (Returns.pure _).not_crashed
  · obtain ⟨answer, w₁, run⟩ := runOnce_unclaimed (w := { store := s, now }) queue settings
      jitter p.tool fun task claimed claim => claims ⟨task, claimed, claim⟩
    cases run.symm.trans h

/-! ## What is left behind -/

/-- A handler that asks for another attempt came to its end, and there is an attempt left. -/
theorem attend_retry (quiet : w.coming = []) {cause : String}
    (h : attend queue settings p.tool task w = (.finished (.retry cause), w')) :
    w'.coming = [] ∧ task.attempts < task.maxAttempts ∧
      ∃ attempt, Handled settings attempt task w.store (.retry cause) w'.store := by
  have begun : (w.advance World.tick).store = w.store ∧ (w.advance World.tick).coming = [] := by
    rw [World.advance_of_quiet quiet]
    exact ⟨rfl, quiet⟩
  have quiet' := Program.run_coming (p := p) (execute queue settings
    (.of task ((w.advance World.tick).now.after queue.softLimit))
    ((w.advance World.tick).now.after queue.hardLimit) task) begun.2
  have ends : (execute queue settings
      (.of task ((w.advance World.tick).now.after queue.softLimit))
      ((w.advance World.tick).now.after queue.hardLimit) task).Holds (Works settings task w.store)
        (fun outcome s => outcome = .retry cause → task.attempts < task.maxAttempts ∧
          ∃ attempt, Handled settings attempt task w.store (.retry cause) s) w.store := by
    refine execute_holds queue _ _ (fun outcome s handled isRetry => ?_)
      fun why vm slots address s _ _ _ aborted => by cases aborted
    subst isRetry
    exact ⟨settled_of_handled handled, _, handled⟩
  rw [← begun.1] at ends
  have run : (execute queue settings _ _ task).run p.tool (w.advance World.tick) = _ := h
  rw [run] at quiet'
  exact ⟨quiet', begun.1 ▸ ends.finished begun.2 run rfl⟩

/-- The worker breaks down, with the claim made and the handler's work done. -/
theorem Overruns.run (h : Overruns queue settings jitter p s now) :
    ∃ why w', (runOnce queue settings jitter).run p.tool { store := s, now } = (.crashed why, w') ∧
      ∃ task claimed attempt cause, s.claimNext now = .ok (some task, claimed) ∧
        Handled settings attempt task claimed (.retry cause) w'.store := by
  obtain ⟨task, claimed, cause, w₁, claim, attended, late⟩ := h
  obtain ⟨quiet, left, attempt, handled⟩ := attend_retry rfl attended
  obtain ⟨why, broken⟩ := record_overrun p.tool cause left late
  refine ⟨why, w₁.advance World.tick, ?_, task, claimed, attempt, cause, claim, ?_⟩
  · rw [runOnce_run (w := { store := s, now }) queue settings jitter p.tool claim]
    refine Program.run_bind_of_crashed ?_
    rw [runTask_begins]
    exact (Program.run_bind attended).trans (Program.run_bind_of_crashed broken)
  · rwa [World.advance_of_quiet quiet]

/-- Whether a worker overruns is told by its run. -/
instance : Decidable (Overruns queue settings jitter p s now) :=
  match run : (runOnce queue settings jitter).run p.tool { store := s, now } with
  | (.crashed _, _) => .isTrue (runOnce_crashed run)
  | (.finished _, _) => .isFalse fun h => by
    obtain ⟨why, w', broken, -⟩ := h.run
    cases run.symm.trans broken

end VmFleet.Queue
