/-
A queue that is worked off by one worker: the attempts that are left of all tasks
that wait are used up one by one. Together with the count of attempts under any
number of workers this bounds what a queue can ask of its workers.
-/
import Mathlib.Algebra.Order.BigOperators.Group.List
import VmFleet.Proofs.Attempts
import VmFleet.Proofs.Turns

namespace VmFleet

/-! ## What is left to be done -/

/-- The attempts that are left of a task that waits. -/
def TaskRow.attemptsLeft (row : TaskRow) : Nat :=
  if row.status = .pending then row.maxAttempts - row.attempts else 0

/-- The attempts that are left of all tasks that wait. -/
def Store.attemptsLeft (s : Store) : Nat :=
  (s.tasks.map TaskRow.attemptsLeft).sum

variable {w w' : World} {row row' : TaskRow} {now : Instant}

theorem TaskRow.Attempted.lt (h : row.Attempted now row') (waits : row.status = .pending)
    (left : row.attempts < row.maxAttempts) : row'.attemptsLeft < row.attemptsLeft := by
  rw [TaskRow.attemptsLeft, TaskRow.attemptsLeft, if_pos waits]
  cases h with
  | ended id final =>
    have settled : row'.status ≠ .pending := by
      intro waits
      exact TaskStatus.pending_not_final (waits ▸ final)
    rw [if_neg settled]
    omega
  | again id waits ready counted most =>
    rw [if_pos waits, counted, most]
    omega

theorem TaskRow.Ready.later (h : row.Ready now) {later : Instant} (begun : now.Legible)
    (ended : later.Legible) (le : now ≤ later) : row.Ready later :=
  { h with due := String.le_trans h.due (Stamp.of_le_of begun ended le) }

namespace World.Drainable

/-- An attempt uses up one of the attempts that are left, or more, and then the rest may be
attempted. -/
theorem attempted (drainable : w.Drainable) (quiet : w'.coming = []) (legible : w'.now.Legible)
    (later : w.now ≤ w'.now) (hrow : row ∈ w.store.tasks) (waits : row.status = .pending)
    (attempted : row.Attempted w'.now row')
    (tasks : w'.store.tasks = Store.updateWhere (·.id == row.id) (fun _ => row') w.store.tasks) :
    w'.Drainable ∧ w'.store.attemptsLeft < w.store.attemptsLeft := by
  have id : row'.id = row.id := by cases attempted <;> assumption
  have rows : ∀ x ∈ w'.store.tasks, x = row' ∨ x ∈ w.store.tasks := by
    intro x hx
    rw [tasks] at hx
    obtain ⟨y, hy, rfl⟩ := Store.mem_updateWhere.mp hx
    split
    · exact .inl rfl
    · exact .inr hy
  refine ⟨⟨quiet, legible, ?_, fun x hx => ?_, fun x hx waits' => ?_⟩, ?_⟩
  · refine drainable.distinct.map tasks fun x => ?_
    split
    · next same => rw [id, beq_iff_eq.mp same]
    · rfl
  · rcases rows x hx with rfl | hx
    · cases attempted with
      | ended _ final => exact fun running => TaskStatus.running_not_final (running ▸ final)
      | again _ waits => rw [waits]; decide
    · exact drainable.idle x hx
  · rcases rows x hx with rfl | hx
    · cases attempted with
      | ended _ final => exact absurd (waits' ▸ final) TaskStatus.pending_not_final
      | again _ _ ready => exact ready
    · exact (drainable.ready x hx waits').later drainable.legible legible later
  · have less := attempted.lt waits (drainable.ready row hrow waits).left
    have step : ∀ x ∈ w.store.tasks, TaskRow.attemptsLeft (if x.id == row.id then row' else x) ≤
        x.attemptsLeft := by
      intro x hx
      split
      · next same =>
        obtain rfl := List.inj_on_of_nodup_map drainable.distinct hx hrow (beq_iff_eq.mp same)
        exact Nat.le_of_lt less
      · exact Nat.le_refl _
    rw [Store.attemptsLeft, tasks, Store.updateWhere, List.map_map]
    refine List.sum_lt_sum _ _ step ⟨row, hrow, ?_⟩
    simp only [Function.comp_apply, beq_self_eq_true, if_true]
    exact less

end World.Drainable

namespace Queue

variable {worker : Worker} {p : Provisioner}

theorem Worker.runDue_world (worker : Worker) (most : Nat) (w : World) :
    (worker.runDue (most + 1) w).2 = (worker.turn most w).2 ∨
      (worker.runDue (most + 1) w).2 = (worker.runDue most (worker.turn most w).2).2 := by
  rw [Worker.runDue]
  split
  · next turn => exact .inl (by rw [turn])
  · next turn => exact .inl (by rw [turn])
  · next turn => exact .inr (by rw [turn])

theorem Worker.now_le_runDue (worker : Worker) (most : Nat) (w : World) :
    w.now ≤ (worker.runDue most w).2.now := by
  induction most generalizing w with
  | zero => exact w.now.le_refl
  | succ most ih =>
    have first : w.now ≤ (worker.turn most w).2.now := Worker.now_le_turn
    rcases worker.runDue_world most w with last | last
    · rwa [last]
    · rw [last]
      exact Instant.le_trans first (ih _)

theorem Worker.turn_le_runDue (worker : Worker) (most : Nat) (w : World) :
    (worker.turn most w).2.now ≤ (worker.runDue (most + 1) w).2.now := by
  rcases worker.runDue_world most w with last | last
  · rw [last]
    exact Instant.le_refl _
  · rw [last]
    exact worker.now_le_runDue most _

/-- A worker that goes on alone works the queue off: each run uses up an attempt, and once none is
left no task waits. -/
theorem Worker.runDue_drains (isTool : worker.tool = p.tool)
    (zero : worker.queue.retryBackoff = .zero) {most : Nat} (drainable : w.Drainable)
    (enough : w.store.attemptsLeft < most) (legible : (worker.runDue most w).2.now.Legible) :
    ∃ reports w', worker.runDue most w = (.ok reports, w') ∧
      reports.length ≤ w.store.attemptsLeft ∧ ∀ row ∈ w'.store.tasks, row.status.Final := by
  induction most generalizing w with
  | zero => exact absurd enough (Nat.not_lt_zero _)
  | succ most ih =>
    by_cases waiting : ∃ row ∈ w.store.tasks, row.status = .pending
    · obtain ⟨row, hrow, pending⟩ := waiting
      have first : w.now ≤ (worker.turn most w).2.now := Worker.now_le_turn
      have plain : (worker.turn most w).2.now.nano < 1000000000 := by
        rw [Worker.turn_world, World.now_advance]
        exact Instant.after_nano_lt _ _
      have between : (worker.turn most w).2.now.Legible :=
        drainable.legible.between legible (Instant.second_le first)
          (Instant.second_le (worker.turn_le_runDue most w)) plain
      obtain ⟨report, w₁, row, row', turn, quiet, hrow, pending, attempted, tasks⟩ :=
        Worker.turn_attempts drainable isTool zero hrow pending between
      rw [turn] at first between
      obtain ⟨drainable₁, less⟩ :=
        drainable.attempted quiet between first hrow pending attempted tasks
      have rest : worker.runDue (most + 1) w =
          ((worker.runDue most w₁).1.map (report :: ·), (worker.runDue most w₁).2) := by
        rw [Worker.runDue, turn]
      rw [rest] at legible ⊢
      obtain ⟨reports, w', run, bounded, final⟩ := ih drainable₁ (by omega) legible
      refine ⟨report :: reports, w', ?_, ?_, final⟩
      · rw [run]
        rfl
      · rw [List.length_cons]
        omega
    · have still : ∀ row ∈ w.store.tasks, row.status ≠ .pending :=
        fun row hrow pending => waiting ⟨row, hrow, pending⟩
      refine ⟨[], w.advance World.tick, ?_, Nat.zero_le _, fun row hrow => ?_⟩
      · rw [Worker.runDue, Worker.turn_idle still]
      · simp only [World.advance, World.reach_of_coming_eq_nil drainable.quiet] at hrow
        have idle := drainable.idle row hrow
        have settled := still row hrow
        cases status : row.status with
        | pending => exact absurd status settled
        | running => exact absurd status idle
        | completed => exact .inl rfl
        | failed => exact .inr rfl

end Queue

namespace Crew

theorem own_log {s : Store} {members : List Thread} {turns : List Turn} {member : Nat}
    (beyond : members.length ≤ member) : own member (log s members turns) = [] := by
  induction turns generalizing s members with
  | nil => rfl
  | cons turn turns ih =>
    cases turn with
    | request request now => exact ih beyond
    | operation other tool now =>
      rw [log]
      split
      · next act thread next =>
        obtain ⟨thread', there, -⟩ := Option.bind_eq_some_iff.mp next
        have inside : other < members.length := (List.getElem?_eq_some_iff.mp there).choose
        have others : other ≠ member := by omega
        have rest : own member (log act.after (members.set other thread) turns) = [] :=
          ih (by rwa [List.length_set])
        simpa [own, others] using rest
      · exact ih beyond

/-- **Attempts are bounded, and the queue can be worked off.** Whatever any number of workers and
janitors do to an empty store and in what order, whatever clients ask for, and whoever dies: a task
has been claimed, to have its handler run once, no more often than its attempts say, these are no
more than it may have, and a task that waits has one left.

If then nobody has a task in hand, one worker that goes on alone, whose tasks are due again at once,
works the queue off, whatever its tool does: it finds no task any more after as many runs, at most,
as the tasks that wait have attempts left, and then no task waits or runs. Every task that waits is
due and can be read, its attempts are a number of 32 bits, and the clock shows years of four digits
to the end. -/
theorem attempts_bounded (jobs : List Fleet.Job) (turns : List Turn) :
    let entries := work jobs turns
    let left := (state entries).attemptsLeft
    (∀ row ∈ (state entries).tasks, claims entries row.id ≤ row.attempts ∧
      row.attempts ≤ row.maxAttempts ∧
      (row.status = .pending → row.attempts < row.maxAttempts)) ∧
    (∀ id, (state entries).taskRow? id = none → claims entries id = 0) ∧
    ∀ (worker : Queue.Worker) (p : Provisioner) (w : World), w.store = state entries →
      w.coming = [] → worker.tool = p.tool → worker.queue.retryBackoff = .zero →
      (∀ member id, ¬ HoldsTask entries member id) →
      (∀ row ∈ (state entries).tasks, row.status = .pending →
        Store.isDue (.of w.now) row = true ∧ (TaskRow.task row).isOk = true ∧
          row.maxAttempts < bound32) →
      w.now.Legible → (worker.runDue (left + 1) w).2.now.Legible →
      ∃ reports w', worker.runDue (left + 1) w = (.ok reports, w') ∧ reports.length ≤ left ∧
        (∀ number, (worker.turn number w').1 = .ok none) ∧
        ∀ row ∈ w'.store.tasks, row.status ≠ .pending ∧ row.status ≠ .running := by
  intro entries left
  have counted : Counted entries := work_counted (List.append_nil _).symm
  have distinct := counted.orderly.distinct
  refine ⟨fun row hrow => ?_, fun id gone => ?_, ?_⟩
  · have found := distinct.taskRow?_of_mem hrow
    have claimed := counted.counted row.id
    rw [found] at claimed
    exact ⟨claimed, counted.bounded row.id row found⟩
  · have claimed := counted.counted id
    rw [gone] at claimed
    exact Nat.le_zero.mp claimed
  · intro worker p w store quiet isTool zero unheld due begun ended
    have drainable : w.Drainable := by
      refine ⟨quiet, begun, store ▸ distinct, fun row hrow running => ?_, fun row hrow waits => ?_⟩
      · rw [store] at hrow
        obtain ⟨member, holds⟩ :=
          counted.manned row.id row (distinct.taskRow?_of_mem hrow) running
        exact unheld member row.id holds
      · rw [store] at hrow
        obtain ⟨isDue, read, most⟩ := due row hrow waits
        have left := (counted.bounded row.id row (distinct.taskRow?_of_mem hrow)).2 waits
        simp only [Store.isDue, Bool.and_eq_true, decide_eq_true_eq] at isDue
        have readable : row.Readable := by
          rw [TaskRow.readable_iff]
          cases found : TaskRow.task row with
          | ok task => exact ⟨task, rfl⟩
          | error e => rw [found] at read; cases read
        exact ⟨isDue.2, readable, left, most⟩
    have enough : w.store.attemptsLeft < left + 1 := by
      rw [store]
      exact Nat.lt_succ_self _
    obtain ⟨reports, w', run, bounded, final⟩ :=
      Queue.Worker.runDue_drains isTool zero drainable enough ended
    rw [store] at bounded
    have settled : ∀ row ∈ w'.store.tasks, row.status ≠ .pending ∧ row.status ≠ .running := by
      intro row hrow
      rcases final row hrow with status | status <;> rw [status] <;> decide
    refine ⟨reports, w', run, bounded, fun number => ?_, settled⟩
    rw [Queue.Worker.turn_idle fun row hrow => (settled row hrow).1]

/-- A worker whose tasks are due again at once, with a tool that does not reach the host. -/
def loneWorker : Queue.Worker where
  tool := lostTool.tool
  queue := { retryBackoff := .zero }
  settings := ⟨"default", none, .ofSeconds 60⟩
  jitter _ := ⟨0, Fleet.parts_pos⟩

/-- Two tasks for a VM are in the queue, and a worker has attempted one of them. -/
def attemptedOnce : List Turn :=
  [.request (.createPool "default" "10.0.0.0/30" "10.0.0.1" none) ⟨1, 0⟩,
    .request (.createVm 3 ["srv-1"] "task-1" { name := "a", owner := "alice" } {}) ⟨2, 0⟩,
    .request (.enqueue 2 "task-2" .create 1 {}) ⟨3, 0⟩] ++
  List.replicate 12 (.operation 0 lostTool ⟨4, 0⟩)

/-- Four attempts are left of them, and after four runs at most both have ended. -/
theorem attemptedOnce_drained :
    let entries := work [Fleet.plainWorker (.ofSeconds 300)] attemptedOnce
    (state entries).attemptsLeft = 4 ∧
    ∃ reports w', loneWorker.runDue 5 { store := state entries, now := ⟨1000, 0⟩ } =
        (.ok reports, w') ∧ reports.length ≤ 4 ∧
      ∀ row ∈ w'.store.tasks, row.status ≠ .pending ∧ row.status ≠ .running := by
  intro entries
  have left : (state entries).attemptsLeft = 4 := by decide +kernel
  have unheld : ∀ member id, ¬ HoldsTask entries member id := by
    rintro member id ⟨task, hand, -⟩
    by_cases first : member = 0
    · have free : inHand (own 0 entries) = none := by decide +kernel
      rw [first, free] at hand
      cases hand
    · have silent : own member entries = [] := own_log (Nat.one_le_iff_ne_zero.mpr first)
      rw [silent] at hand
      cases hand
  have due : ∀ row ∈ (state entries).tasks, row.status = .pending →
      Store.isDue (.of ⟨1000, 0⟩) row = true ∧ (TaskRow.task row).isOk = true ∧
        row.maxAttempts < bound32 := by decide +kernel
  have ended : (loneWorker.runDue 5
      { store := state entries, now := ⟨1000, 0⟩ }).2.now.Legible := by decide +kernel
  obtain ⟨-, -, drains⟩ := attempts_bounded [Fleet.plainWorker (.ofSeconds 300)] attemptedOnce
  obtain ⟨reports, w', run, bounded, -, settled⟩ := drains loneWorker lostTool
    { store := state entries, now := ⟨1000, 0⟩ } rfl rfl rfl rfl unheld due (by decide) (by
      rw [left]; exact ended)
  rw [left] at run bounded
  exact ⟨left, reports, w', run, bounded, settled⟩

end Crew

end VmFleet
