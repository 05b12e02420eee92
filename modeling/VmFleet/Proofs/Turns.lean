/-
One turn of a worker that is alone, whatever its tool does: where tasks that are
tried again are due at once, a turn that finds a task that waits ends it or uses
up an attempt, and the task can be attempted again. What the worker writes is due
and can be read as long as the clock shows years of four digits.
-/
import VmFleet.Proofs.Clock
import VmFleet.Proofs.Outcomes
import VmFleet.Proofs.Returning
import VmFleet.Proofs.Stamps
import VmFleet.Queue.Loop

namespace VmFleet

/-! ## Rows that can be read -/

namespace TaskRow

/-- Every time in the row is legible and the attempts are within bounds. -/
structure Readable (row : TaskRow) : Prop where
  attempts : row.attempts < bound32
  notBefore : row.notBefore.instant?.isSome
  createdAt : row.createdAt.instant?.isSome
  startedAt : ∀ stamp, row.startedAt = some stamp → stamp.instant?.isSome
  completedAt : ∀ stamp, row.completedAt = some stamp → stamp.instant?.isSome

theorem readStamp_ok (column : Nat) {stamp : Stamp} :
    (∃ t, readStamp column stamp = .ok t) ↔ stamp.instant?.isSome := by
  rw [readStamp]
  cases stamp.instant? <;> simp

theorem readStamp?_ok (column : Nat) {stamp : Option Stamp} :
    (∃ t, readStamp? column stamp = .ok t) ↔ ∀ s, stamp = some s → s.instant?.isSome := by
  cases stamp with
  | none => simp [readStamp?]
  | some stamp =>
    simp only [Option.some.injEq, forall_eq', ← readStamp_ok column]
    rw [readStamp?]
    cases readStamp column stamp <;> simp [Except.map]

/-- A row is read as a task if it is readable. -/
theorem readable_iff {row : TaskRow} : row.Readable ↔ ∃ task, TaskRow.task row = .ok task := by
  constructor
  · rintro ⟨attempts, notBefore, createdAt, startedAt, completedAt⟩
    obtain ⟨t₇, h₇⟩ := (readStamp_ok 7).mpr notBefore
    obtain ⟨t₈, h₈⟩ := (readStamp_ok 8).mpr createdAt
    obtain ⟨t₉, h₉⟩ := (readStamp?_ok 9).mpr startedAt
    obtain ⟨t₁₀, h₁₀⟩ := (readStamp?_ok 10).mpr completedAt
    rw [TaskRow.task, if_neg (Nat.not_le_of_lt attempts), h₇, h₈, h₉, h₁₀]
    exact ⟨_, rfl⟩
  · rintro ⟨task, read⟩
    unfold TaskRow.task at read
    split at read
    · cases read
    next within =>
    obtain ⟨_, notBefore, read⟩ := bind_ok read
    obtain ⟨_, createdAt, read⟩ := bind_ok read
    obtain ⟨_, startedAt, read⟩ := bind_ok read
    obtain ⟨_, completedAt, -⟩ := bind_ok read
    exact ⟨Nat.lt_of_not_le within, (readStamp_ok 7).mp ⟨_, notBefore⟩,
      (readStamp_ok 8).mp ⟨_, createdAt⟩, (readStamp?_ok 9).mp ⟨_, startedAt⟩,
      (readStamp?_ok 10).mp ⟨_, completedAt⟩⟩

end TaskRow

/-! ## Claims -/

namespace Store

variable {s : Store} {now : Instant} {stamp : Stamp} {rows : List TaskRow} {row : TaskRow}

theorem nextDue?_eq_none (still : ∀ row ∈ rows, row.status ≠ .pending) :
    nextDue? stamp rows = none := by
  cases picked : nextDue? stamp rows with
  | none => rfl
  | some row =>
    obtain ⟨hrow, pending⟩ := nextDue?_mem picked
    exact absurd pending (still row hrow)

theorem nextDue?_isSome (hrow : row ∈ rows) (due : isDue stamp row = true) :
    (nextDue? stamp rows).isSome := by
  refine foldl_pick_isSome (fun best row => ?_)
    (List.ne_nil_of_mem (List.mem_filter.mpr ⟨hrow, due⟩))
  cases best with
  | none => rfl
  | some b =>
    dsimp only
    split <;> rfl

theorem claimNext_idle (still : ∀ row ∈ s.tasks, row.status ≠ .pending) :
    s.claimNext now = .ok (none, s) := by
  simp only [claimNext, nextDue?_eq_none still]

/-- Where a task is due, and those that wait can be read once claimed, one is claimed. -/
theorem claimNext_due (hrow : row ∈ s.tasks) (due : isDue (.of now) row = true)
    (readable : ∀ row ∈ s.tasks, row.status = .pending → (claimed row (.of now)).Readable) :
    ∃ row task, row ∈ s.tasks ∧ row.status = .pending ∧
      TaskRow.task (claimed row (.of now)) = .ok task ∧
      s.claimNext now = .ok (some task, s.setTask row.id fun row => claimed row (.of now)) := by
  obtain ⟨next, picked⟩ := Option.isSome_iff_exists.mp (nextDue?_isSome hrow due)
  obtain ⟨hnext, pending⟩ := nextDue?_mem picked
  obtain ⟨task, read⟩ := TaskRow.readable_iff.mp (readable next hnext pending)
  refine ⟨next, task, hnext, pending, read, ?_⟩
  simp only [claimNext, picked, read]
  rfl

end Store

theorem TaskRow.Readable.claimed {row : TaskRow} {now : Instant} (h : row.Readable)
    (more : row.attempts + 1 < bound32) (legible : now.Legible) :
    (Store.claimed row (.of now)).Readable where
  attempts := more
  notBefore := h.notBefore
  createdAt := h.createdAt
  startedAt stamp started := by
    cases started
    rw [Stamp.instant?_of legible]
    rfl
  completedAt := h.completedAt

/-! ## Records -/

namespace QueueConfig

variable {queue : QueueConfig}

theorem intervalAfter_zero (ceiling turns : Nat) :
    Backoff.intervalAfter ceiling turns 0 = 0 := by
  induction turns with
  | zero => rfl
  | succ turns ih =>
    have next : Backoff.next ceiling 0 = 0 := by
      simp only [Backoff.next]
      split <;> omega
    rw [Backoff.intervalAfter, next, ih]

theorem spread_zero (jitter : Jitter) : Backoff.spread 0 jitter = 0 := by
  have below := jitter.isLt
  have small : 8 * 0 * Backoff.parts + jitter.val * (4 * 0 + 10) < 10 * Backoff.parts := by
    simp only [Nat.mul_zero, Nat.zero_mul, Nat.zero_add]
    omega
  exact Nat.div_eq_of_lt small

theorem backoffFor_zero (zero : queue.retryBackoff = .zero) (attempt : Nat) (jitter : Jitter) :
    queue.backoffFor attempt jitter = .zero := by
  simp only [backoffFor, zero, Duration.zero, intervalAfter_zero, spread_zero, Nat.zero_min]

end QueueConfig

namespace Queue

open Lifecycle (Settings Attempt)

variable {queue : QueueConfig} {settings : Settings} {jitter : Jitter} {task : Task}
  {p : Provisioner} {w w' : World} {row : TaskRow}

theorem retryAt?_zero {now : Instant} (zero : queue.retryBackoff = .zero)
    (plain : now.nano < 1000000000) (calendar : now.InCalendar) :
    retryAt? queue jitter task now = some now := by
  have short : ¬ Lifecycle.longestSpan < Duration.zero.nanos := Nat.not_lt_zero _
  simp only [retryAt?, QueueConfig.backoffFor_zero zero, if_neg short, Instant.after?,
    Instant.after_zero plain, if_pos calendar]

/-- What a worker makes of the row of the task that it has in hand, when it records it at the given
time. -/
inductive Closes (task : Task) (now : Instant) : (TaskRow → TaskRow) → Prop
  | ended {status : TaskStatus} {ended : Instant} {note : Option String}
      (final : status = .completed ∨ status = .failed) :
      Closes task now fun row => Store.finished row status ended note
  | requeued (why : String) (left : task.attempts < task.maxAttempts)
      (plain : now.nano < 1000000000) :
      Closes task now fun row =>
        { row with status := .pending, notBefore := .of now, lastError := some why }

theorem write_run {op : Operation (Except Error Unit)} {f : TaskRow → TaskRow}
    (there : (w.store.taskRow? task.id).isSome)
    (writes : w.perform p.tool op = w.commitUnit (w.store.changeTask task.id f))
    (status : TaskStatus) :
    (Program.perform op >>= fun _ => pure status).run p.tool w =
      (.finished status, { w with store := w.store.setTask task.id f }) := by
  have change : w.store.changeTask task.id f = .ok (w.store.setTask task.id f) := if_pos there
  rw [change] at writes
  show (Program.pure status).run p.tool (w.perform p.tool op).2 = _
  rw [writes]
  rfl

/-- A worker records a task whose row is there, where tasks are due again at once. -/
theorem record_run (quiet : w.coming = []) (zero : queue.retryBackoff = .zero)
    (there : (w.store.taskRow? task.id).isSome) (outcome : Outcome)
    (calendar : ((record queue jitter task outcome).run p.tool w).2.now.InCalendar) :
    ∃ status w' f, (record queue jitter task outcome).run p.tool w = (.finished status, w') ∧
      Closes task w'.now f ∧ w'.store = w.store.setTask task.id f := by
  cases outcome with
  | done => exact ⟨_, _, _, write_run there rfl .completed, .ended (.inl rfl), rfl⟩
  | skipped why => exact ⟨_, _, _, write_run there rfl .completed, .ended (.inl rfl), rfl⟩
  | failed why => exact ⟨_, _, _, write_run there rfl .failed, .ended (.inr rfl), rfl⟩
  | retry why =>
    simp only [record] at calendar ⊢
    split
    · exact ⟨_, _, _, write_run there rfl .failed, .ended (.inr rfl), rfl⟩
    · next left =>
      rw [if_neg left, Program.run_now] at calendar
      rw [Program.run_now]
      have left : task.attempts < task.maxAttempts := by
        simpa [TaskOf.isFinalAttempt] using left
      have plain : (w.advance World.tick).now.nano < 1000000000 := by
        rw [World.now_advance]
        exact Instant.after_nano_lt _ _
      have same : (w.advance World.tick).store = w.store := by
        simp only [World.advance, World.reach_of_coming_eq_nil quiet]
      generalize w.advance World.tick = w₁ at calendar plain same
      rw [← same] at there ⊢
      have clock : w₁.now.InCalendar := by
        split at calendar
        · exact calendar
        · next notBefore _ =>
          rw [write_run there rfl] at calendar
          exact calendar
      rw [retryAt?_zero zero plain clock]
      exact ⟨_, _, _, write_run there rfl .pending, .requeued why left plain, rfl⟩

/-- The run of a handler leaves the task table alone, whether it comes to its end or is aborted. -/
theorem execute_run (quiet : w.coming = []) (attempt : Attempt) (abortAt : Instant) :
    ∃ outcome w', (execute queue settings attempt abortAt task).run p.tool w =
      (.finished outcome, w') ∧ w'.coming = [] ∧ w'.store.tasks = w.store.tasks := by
  have returns : (execute queue settings attempt abortAt task).Returns := execute_returns _ _
  obtain ⟨outcome, w', run⟩ := returns.finished p.tool w
  have quiet' := Program.run_coming (p := p) (execute queue settings attempt abortAt task) quiet
  rw [run] at quiet'
  have keeps : (execute queue settings attempt abortAt task).Holds
      (Works settings task w.store) (fun _ s => s.tasks = w.store.tasks) w.store :=
    execute_holds queue attempt abortAt (fun _ _ handled => handled.tasks)
      fun _ _ _ _ _ _ _ recovered => recovered.tasks
  exact ⟨outcome, w', run, quiet', keeps.finished quiet run⟩

/-- What is reported of the run of a task that was begun in this world. -/
def reportOf (task : Task) (w : World) (outcome : Outcome) (status : TaskStatus) : RunReport :=
  ⟨⟨task.id, task.kind, ((w.store.vm? task.vmKey).map (·.id)).getD ("vm-" ++ keyText task.vmKey)⟩,
    task.vmKey, max task.attempts 1, outcome, status⟩

theorem runTask_begins (queue : QueueConfig) (settings : Settings) (jitter : Jitter) (task : Task)
    (tool : Tool) (w : World) :
    (runTask queue settings jitter task).run tool w =
      (execute queue settings (.of task ((w.advance World.tick).now.after queue.softLimit))
          ((w.advance World.tick).now.after queue.hardLimit) task >>= fun outcome =>
        record queue jitter task outcome >>= fun status =>
          pure (reportOf task w outcome status)).run tool (w.advance World.tick) :=
  rfl

/-- A worker runs a claimed task to its end; of the task table it changes the task's row only. -/
theorem runTask_run (quiet : w.coming = []) (zero : queue.retryBackoff = .zero)
    (there : (w.store.taskRow? task.id).isSome)
    (calendar : ((runTask queue settings jitter task).run p.tool w).2.now.InCalendar) :
    ∃ report w' f, (runTask queue settings jitter task).run p.tool w = (.finished report, w') ∧
      Closes task w'.now f ∧
      w'.store.tasks = Store.updateWhere (·.id == task.id) f w.store.tasks := by
  obtain ⟨w₁, hw₁⟩ : ∃ w₁, w₁ = w.advance World.tick := ⟨_, rfl⟩
  have same : w₁.store = w.store := by
    simp only [hw₁, World.advance, World.reach_of_coming_eq_nil quiet]
  have quiet₁ : w₁.coming = [] := by
    simp only [hw₁, World.advance, World.reach_of_coming_eq_nil quiet, quiet]
  obtain ⟨outcome, w₂, run, quiet₂, tasks⟩ : ∃ outcome w₂,
      (execute queue settings (.of task (w₁.now.after queue.softLimit))
        (w₁.now.after queue.hardLimit) task).run p.tool w₁ = (.finished outcome, w₂) ∧
      w₂.coming = [] ∧ w₂.store.tasks = w₁.store.tasks := execute_run quiet₁ _ _
  have begins := runTask_begins queue settings jitter task p.tool w
  rw [← hw₁, Program.run_bind run] at begins
  rw [same] at tasks
  have there₂ : (w₂.store.taskRow? task.id).isSome := by
    rwa [Store.taskRow?, tasks]
  rw [begins, Program.run_map_world] at calendar
  obtain ⟨status, w', f, recorded, closes, store⟩ := record_run quiet₂ zero there₂ outcome calendar
  refine ⟨reportOf task w outcome status, w', f, ?_, closes, ?_⟩
  · rw [begins, Program.run_bind recorded]
    rfl
  · rw [store, ← tasks]
    rfl

/-! ## Turns -/

variable {worker : Worker} {number : Nat}

theorem runOnce_run (queue : QueueConfig) (settings : Settings) (jitter : Jitter) (tool : Tool)
    {s : Store} (claim : w.store.claimNext w.now = .ok (some task, s)) :
    (runOnce queue settings jitter).run tool w =
      (runTask queue settings jitter task >>= fun report => pure (.ok (some report))).run tool
        { w with store := s } := by
  obtain ⟨next, shape, -, -, works⟩ := runOnce_claims queue settings jitter
  rw [shape, ← works]
  show (next (w.commit (w.store.claimNext w.now)).1).run tool
    (w.commit (w.store.claimNext w.now)).2 = _
  rw [claim]
  rfl

theorem Worker.turn_world : (worker.turn number w).2 =
    ((runOnce worker.queue worker.settings (worker.jitter number)).run worker.tool w).2.advance
      World.tick := by
  rw [Worker.turn]
  split <;> next run => rw [run]

theorem Worker.turn_idle (still : ∀ row ∈ w.store.tasks, row.status ≠ .pending) :
    worker.turn number w = (.ok none, w.advance World.tick) := by
  obtain ⟨next, shape, -, idle, -⟩ :=
    runOnce_claims worker.queue worker.settings (worker.jitter number)
  have run : (runOnce worker.queue worker.settings (worker.jitter number)).run worker.tool w =
      (.finished (.ok none), w) := by
    rw [shape]
    show (next (w.commit (w.store.claimNext w.now)).1).run worker.tool
      (w.commit (w.store.claimNext w.now)).2 = _
    rw [Store.claimNext_idle still]
    show (next (.ok none)).run worker.tool w = _
    rw [idle]
    rfl
  rw [Worker.turn, run]

end Queue

/-- The row may be attempted: it is due, can be read and has an attempt left. -/
structure TaskRow.Ready (now : Instant) (row : TaskRow) : Prop where
  due : row.notBefore ≤ .of now
  readable : row.Readable
  left : row.attempts < row.maxAttempts
  most : row.maxAttempts < bound32

/-- What an attempt makes of the row. -/
inductive TaskRow.Attempted (now : Instant) (row : TaskRow) : TaskRow → Prop
  | ended {row' : TaskRow} (id : row'.id = row.id) (final : row'.status.Final) :
      Attempted now row row'
  | again {row' : TaskRow} (id : row'.id = row.id) (waits : row'.status = .pending)
      (ready : row'.Ready now) (counted : row'.attempts = row.attempts + 1)
      (most : row'.maxAttempts = row.maxAttempts) : Attempted now row row'

/-- Nobody is at work, and every task that waits may be attempted. -/
structure World.Drainable (w : World) : Prop where
  quiet : w.coming = []
  legible : w.now.Legible
  distinct : w.store.TasksDistinct
  idle : w.store.Idle
  ready : ∀ row ∈ w.store.tasks, row.status = .pending → row.Ready w.now

/-- Where a task waits, a worker claims one of those that wait. -/
theorem World.Drainable.claimNext {w : World} {row : TaskRow} (drainable : w.Drainable)
    (hrow : row ∈ w.store.tasks) (pending : row.status = .pending) :
    ∃ row task, row ∈ w.store.tasks ∧ row.status = .pending ∧
      TaskRow.task (Store.claimed row (.of w.now)) = .ok task ∧
      w.store.claimNext w.now =
        .ok (some task, w.store.setTask row.id fun row => Store.claimed row (.of w.now)) := by
  refine Store.claimNext_due hrow ?_ fun row hrow pending => ?_
  · simp [Store.isDue, pending, (drainable.ready row hrow pending).due]
  · obtain ⟨-, readable, left, most⟩ := drainable.ready row hrow pending
    exact readable.claimed (by omega) drainable.legible

namespace Queue

variable {worker : Worker} {number : Nat} {p : Provisioner} {w : World} {row : TaskRow}

/-- What a worker records of a row that it has claimed is an attempt of the row. -/
theorem Closes.attempted {task : Task} {f : TaskRow → TaskRow} {start now later : Instant}
    (h : Closes task now f) (ready : row.Ready start)
    (read : TaskRow.task (Store.claimed row (.of start)) = .ok task) (begun : start.Legible)
    (ended : later.Legible) (after : start ≤ now) (before : now ≤ later) :
    row.Attempted later (f (Store.claimed row (.of start))) := by
  cases h with
  | ended final => exact .ended rfl final
  | requeued why left plain =>
    obtain ⟨_, _, _, _, rfl⟩ := TaskRow.task_eq read
    have left : row.attempts + 1 < row.maxAttempts := left
    have most := ready.most
    have legible : now.Legible :=
      begun.between ended (Instant.second_le after) (Instant.second_le before) plain
    have claimed := ready.readable.claimed (by omega) begun
    refine .again rfl rfl ⟨?_, ?_, left, most⟩ rfl rfl
    · exact Stamp.of_le_of legible ended before
    · refine { claimed with notBefore := ?_ }
      rw [Stamp.instant?_of legible]
      rfl

theorem updateWhere_claimed {s : Store} {stamp : Stamp} {f : TaskRow → TaskRow}
    (distinct : s.TasksDistinct) (hrow : row ∈ s.tasks) :
    Store.updateWhere (·.id == row.id) f
        (s.setTask row.id fun row => Store.claimed row stamp).tasks =
      Store.updateWhere (·.id == row.id) (fun _ => f (Store.claimed row stamp)) s.tasks := by
  simp only [Store.setTask, Store.updateWhere, List.map_map]
  refine List.map_congr_left fun x hx => ?_
  by_cases same : x.id = row.id
  · obtain rfl := List.inj_on_of_nodup_map distinct hx hrow same
    simp [Store.claimed]
  · simp [same]

theorem Worker.turn_attempts (drainable : w.Drainable) (isTool : worker.tool = p.tool)
    (zero : worker.queue.retryBackoff = .zero) (hrow : row ∈ w.store.tasks)
    (pending : row.status = .pending) (legible : (worker.turn number w).2.now.Legible) :
    ∃ report w' row row', worker.turn number w = (.ok (some report), w') ∧ w'.coming = [] ∧
      row ∈ w.store.tasks ∧ row.status = .pending ∧ row.Attempted w'.now row' ∧
      w'.store.tasks = Store.updateWhere (·.id == row.id) (fun _ => row') w.store.tasks := by
  obtain ⟨row, task, hrow, pending, read, claim⟩ := drainable.claimNext hrow pending
  obtain ⟨row₁, there, -, -⟩ := Store.claimNext_row drainable.distinct claim
  have id : task.id = row.id := (TaskRow.task_ok read).1
  have begins := runOnce_run worker.queue worker.settings (worker.jitter number) worker.tool claim
  generalize hw₁ : { w with store := w.store.setTask row.id _ } = w₁ at begins
  rw [Worker.turn_world, begins, Program.run_map_world, World.now_advance, isTool] at legible
  have lower : w.now ≤ ((runTask worker.queue worker.settings (worker.jitter number) task).run
      p.tool w₁).2.now := by
    have later := Program.now_le_run
      (runTask worker.queue worker.settings (worker.jitter number) task) p.tool w₁
    rwa [← hw₁] at later ⊢
  have upper := Instant.le_after ((runTask worker.queue worker.settings (worker.jitter number)
    task).run p.tool w₁).2.now World.tick
  have calendar := drainable.legible.inCalendar_between legible (Instant.second_le lower)
    (Instant.second_le upper)
  have quiet₁ : w₁.coming = [] := by rw [← hw₁]; exact drainable.quiet
  have there₁ : (w₁.store.taskRow? task.id).isSome := by rw [← hw₁, there]; rfl
  obtain ⟨report, w', f, run, closes, tasks⟩ := runTask_run quiet₁ zero there₁ calendar
  have quiet' : w'.coming = [] := by
    have still := Program.run_coming (p := p)
      (runTask worker.queue worker.settings (worker.jitter number) task) quiet₁
    rwa [run] at still
  rw [run] at legible lower upper
  refine ⟨report, w'.advance World.tick, row, f (Store.claimed row (.of w.now)), ?_, ?_, hrow,
    pending, ?_, ?_⟩
  · rw [Worker.turn, begins, isTool, Program.run_bind run]
    rfl
  · simp only [World.advance, World.reach_of_coming_eq_nil quiet', quiet']
  · rw [World.now_advance]
    exact closes.attempted (drainable.ready row hrow pending) read drainable.legible legible lower
      upper
  · simp only [World.advance, World.reach_of_coming_eq_nil quiet']
    rw [tasks, ← hw₁, id]
    exact updateWhere_claimed drainable.distinct hrow

theorem Worker.now_le_turn : w.now ≤ (worker.turn number w).2.now := by
  rw [Worker.turn_world, World.now_advance]
  exact Instant.le_trans (Program.now_le_run _ _ w) (Instant.le_after _ _)

end Queue

end VmFleet
