/-
Sweeps of a table that tasks were written to. Running tasks are abandoned whose
workers began before the cutoff; the table goes by the text of that time and reads
each abandoned task whole before it fails any. Where the times are of years of four
digits, all of them are failed and reported; one that cannot be read stops them all.
-/
import VmFleet.Proofs.Claiming
import VmFleet.Proofs.Sweeping

namespace VmFleet

/-! ## The tasks of the table -/

namespace Task

/-- The task is running and its worker began before the cutoff. -/
def abandonedAt (cutoff : Instant) (t : Task) : Bool :=
  t.status == .running && t.startedAt.any (· < cutoff)

/-- The task once a sweep has failed it. -/
def givenUp (t : Task) (now : Instant) : Task :=
  { t with status := .failed, completedAt := some now, lastError := some "abandoned by worker" }

/-- What a sweep has to read of a running task: when it began, and all of it if it is abandoned. -/
structure Sweepable (cutoff : Instant) (t : Task) : Prop where
  startedAt : ∀ u ∈ t.startedAt, u.Writable
  read : t.abandonedAt cutoff = true → t.Timed ∧ t.attempts < bound32

/-- The tasks of the table once the abandoned ones are failed. -/
def swept (cutoff now : Instant) (tasks : List Task) : List Task :=
  Store.updateWhere (abandonedAt cutoff) (·.givenUp now) tasks

variable {t : Task} {tasks : List Task} {cutoff now : Instant}

theorem running_of_abandonedAt (h : t.abandonedAt cutoff = true) : t.status = .running := by
  rw [abandonedAt, Bool.and_eq_true, beq_iff_eq] at h
  exact h.1

/-- No task that is left is abandoned. -/
theorem abandonedAt_swept (h : t ∈ swept cutoff now tasks) : t.abandonedAt cutoff = false :=
  Store.failed_of_mem_updateWhere (fun _ => rfl) h

end Task

namespace TaskRow

variable {t : Task} {tasks : List Task} {cutoff now : Instant}

theorem isAbandoned_ofTask (plain : cutoff.nano < 1000000000) (whole : cutoff.cutToMicros = cutoff)
    (last : cutoff.date.year ≤ 9999) (h : t.status = .running → t.Sweepable cutoff) :
    Store.isAbandoned (.of cutoff) (.ofTask t) = t.abandonedAt cutoff := by
  show (t.status == .running && (t.startedAt.map Stamp.of).any (· < .of cutoff)) = _
  by_cases running : t.status = .running
  · have started := (h running).startedAt
    rw [Task.abandonedAt]
    cases begun : t.startedAt with
    | none => rfl
    | some u =>
      have writable := started u begun
      simp only [Option.map_some, Option.any_some,
        decide_eq_decide.mpr (Stamp.of_lt_of_iff_of_whole writable plain whole last)]
  · have other : (t.status == .running) = false := beq_false_of_ne running
    rw [Task.abandonedAt, other]
    rfl

theorem filter_isAbandoned (same : ∀ t ∈ tasks,
      Store.isAbandoned (.of cutoff) (.ofTask t) = t.abandonedAt cutoff) :
    (tasks.map ofTask).filter (Store.isAbandoned (.of cutoff)) =
      (tasks.filter (·.abandonedAt cutoff)).map ofTask := by
  rw [List.filter_map]
  exact congrArg (List.map ofTask) (List.filter_congr same)

theorem failRows_ofTask (same : ∀ t ∈ tasks,
      Store.isAbandoned (.of cutoff) (.ofTask t) = t.abandonedAt cutoff) :
    Lifecycle.failRows cutoff now (tasks.map ofTask) = (Task.swept cutoff now tasks).map ofTask := by
  rw [Lifecycle.failRows, Task.swept, Store.updateWhere, Store.updateWhere, List.map_map,
    List.map_map]
  refine List.map_congr_left fun t ht => ?_
  simp only [Function.comp_apply, apply_ite ofTask, same t ht]
  rfl

end TaskRow

namespace Lifecycle

/-- What is there and what was reported after a sweep of a store with these tasks: the VMs were
resolved with the abandoned tasks, which were failed and reported as they had been, and nothing is
stale any more. -/
structure Resolved (cutoff : Instant) (tasks : List Task) (s : Store) (report : SweepReport)
    (s' : Store) : Prop where
  resolves : Resolves cutoff ((tasks.filter (·.abandonedAt cutoff)).map .ofTask) s s'
  recent : ∀ vm ∈ s'.vms, ¬ Stale cutoff vm
  reported : report.tasks.Perm ((tasks.filter (·.abandonedAt cutoff)).map .cut)
  left : ∃ now, s'.tasks = (Task.swept cutoff now tasks).map .ofTask ∧
    ∀ t ∈ Task.swept cutoff now tasks, t.abandonedAt cutoff = false

section Sweep

variable {s s' : Store} {cutoff : Instant} {maxAge : Duration} {tasks : List Task} {w : World}

/-- Where nothing is stale a sweep reports nothing and changes nothing. -/
theorem sweepStale_idle (p : Provisioner) (quiet : w.coming = [])
    (span : maxAge.nanos ≤ longestSpan)
    (known : (w.now.after World.tick).before? maxAge = some cutoff)
    (recent : ∀ vm ∈ w.store.vms, ¬ Stale cutoff vm)
    (attended : ∀ row ∈ w.store.tasks, Store.isAbandoned (.of cutoff) row = false) :
    ∃ w', (sweepStale maxAge).run p.tool w = (.finished (.ok {}), w') ∧ w'.store = w.store := by
  obtain ⟨answer, w', run, ends⟩ := sweepStale_finished p quiet span known
  obtain ⟨rfl, same⟩ := (sweepFrom_idle maxAge recent attended).finished
    (w := { w with now := w.now.after World.tick }) quiet ends
  exact ⟨w', run, same⟩

variable (rows : s.tasks = tasks.map .ofTask)
  (same : ∀ t ∈ tasks, Store.isAbandoned (.of cutoff) (.ofTask t) = t.abandonedAt cutoff)
  (readable : ∀ t ∈ tasks, t.abandonedAt cutoff = true → t.Timed ∧ t.attempts < bound32)

include rows same

theorem recoveredRows_ofTask (report : SweepReport) :
    recoveredRows cutoff s (.ok report) = (tasks.filter (·.abandonedAt cutoff)).map .ofTask := by
  rw [recoveredRows, rows, TaskRow.filter_isAbandoned same]

theorem abandonedRows_perm :
    (s.abandonedRows (.of cutoff)).Perm ((tasks.filter (·.abandonedAt cutoff)).map .ofTask) := by
  rw [← TaskRow.filter_isAbandoned same, ← rows]
  exact List.mergeSort_perm _ _

include readable

/-- The rows of abandoned tasks are read as the tasks. -/
theorem map_task_abandonedRows : ((s.abandonedRows (.of cutoff)).map TaskRow.task).Perm
    (((tasks.filter (·.abandonedAt cutoff)).map .cut).map .ok) := by
  have each : ((tasks.filter (·.abandonedAt cutoff)).map .ofTask).map TaskRow.task =
      ((tasks.filter (·.abandonedAt cutoff)).map .cut).map .ok := by
    rw [List.map_map, List.map_map]
    refine List.map_congr_left fun t ht => ?_
    obtain ⟨ht, abandoned⟩ := List.mem_filter.mp ht
    obtain ⟨timed, attempts⟩ := readable t ht abandoned
    exact TaskRow.task_ofTask timed attempts
  exact each ▸ (abandonedRows_perm rows same).map TaskRow.task

/-- So they are all read, and reported as they had been. -/
theorem TasksAfter.reported {answer : Except Error SweepReport}
    (h : TasksAfter cutoff s answer s') : ∃ report now, answer = .ok report ∧
      report.tasks.Perm ((tasks.filter (·.abandonedAt cutoff)).map .cut) ∧
      s'.tasks = failRows cutoff now s.tasks := by
  have reads := map_task_abandonedRows rows same readable
  cases h with
  | failed now read left =>
    rw [map_eq_of_mapM_ok read] at reads
    exact ⟨_, now, rfl, (List.map_perm_map_iff fun _ _ => Except.ok.inj).mp reads, left⟩
  | unread unread =>
    obtain ⟨read, all⟩ := exists_mapM_ok (f := TaskRow.task) fun row hrow => by
      obtain ⟨t, -, read⟩ := List.mem_map.mp (reads.mem_iff.mp (List.mem_map_of_mem hrow))
      exact ⟨t, read.symm⟩
    cases unread.symm.trans all

end Sweep

/-- **A sweep resolves what is stale, once.** It moves to `error`, with a message, the VMs that were
last written to before the cutoff in a transient status and those that an abandoned task was for and
that are in a transient status or, after a create, pending; it lets all others be. It gives back the
addresses of VMs that were stale in `provisioning` or that an abandoned task was to create, and no
others. It fails the tasks that were running since before the cutoff, reports these as they had been
and changes no others. Nothing stale is left, and another sweep with the cutoff reports nothing and
changes nothing. All this is so if the table can hold the times of the abandoned tasks, and the
starts of all that run: a row that cannot be read and that is abandoned by its text fails the sweep,
which then has seen to the VMs that were stale themselves, and to no task. -/
theorem sweep_resolves_once (p : Provisioner) (maxAge : Duration) {cutoff : Instant} {w : World}
    (tasks : List Task) (quiet : w.coming = []) (distinct : (w.store.vms.map (·.key)).Nodup)
    (rows : w.store.tasks = tasks.map .ofTask) (span : maxAge.nanos ≤ longestSpan)
    (known : (w.now.after World.tick).before? maxAge = some cutoff)
    (whole : cutoff.cutToMicros = cutoff) (last : cutoff.date.year ≤ 9999) :
    ((∀ t ∈ tasks, t.status = .running → t.Sweepable cutoff) →
      ∃ report w', (sweepStale maxAge).run p.tool w = (.finished (.ok report), w') ∧
        Resolved cutoff tasks w.store report w'.store ∧
        ∀ (p₂ : Provisioner) (maxAge₂ : Duration) (w₂ : World), w₂.coming = [] →
          w₂.store = w'.store → maxAge₂.nanos ≤ longestSpan →
          (w₂.now.after World.tick).before? maxAge₂ = some cutoff →
          ∃ w₃, (sweepStale maxAge₂).run p₂.tool w₂ = (.finished (.ok {}), w₃) ∧
            w₃.store = w₂.store) ∧
    ((∃ row ∈ w.store.tasks, Store.isAbandoned (.of cutoff) row = true ∧ ¬ row.Readable) →
      ∃ e w', (sweepStale maxAge).run p.tool w = (.finished (.error e), w') ∧
        Resolves cutoff [] w.store w'.store ∧ w'.store.tasks = w.store.tasks) := by
  obtain ⟨answer, w', run, ends⟩ := sweepStale_finished p quiet span known
  obtain ⟨resolves, after⟩ :=
    sweepFrom_resolves (w := { w with now := w.now.after World.tick }) quiet distinct ends
  have plain : cutoff.nano < 1000000000 := Instant.before?_nano_lt known
  constructor
  · intro sweepable
    have same : ∀ t ∈ tasks, Store.isAbandoned (.of cutoff) (.ofTask t) = t.abandonedAt cutoff :=
      fun t ht => TaskRow.isAbandoned_ofTask plain whole last (sweepable t ht)
    have readable : ∀ t ∈ tasks, t.abandonedAt cutoff = true → t.Timed ∧ t.attempts < bound32 :=
      fun t ht abandoned => (sweepable t ht (Task.running_of_abandonedAt abandoned)).read abandoned
    obtain ⟨report, now, rfl, reported, left⟩ := after.reported rows same readable
    have table : w'.store.tasks = (Task.swept cutoff now tasks).map .ofTask := by
      rw [left, rows, TaskRow.failRows_ofTask same]
    have recent := resolves.recent distinct
    refine ⟨report, w', run, ⟨recoveredRows_ofTask rows same report ▸ resolves, recent, reported,
      now, table, fun t ht => Task.abandonedAt_swept ht⟩, ?_⟩
    intro p₂ maxAge₂ w₂ quiet₂ store span₂ known₂
    refine sweepStale_idle p₂ quiet₂ span₂ known₂ (store ▸ recent) fun row hrow => ?_
    rw [store, left] at hrow
    exact Store.failed_of_mem_updateWhere (fun _ => rfl) hrow
  · rintro ⟨row, hrow, abandoned, unreadable⟩
    cases after with
    | failed now read left =>
      obtain ⟨t, -, read⟩ := mapM_ok_of_mem read row (Store.mem_abandonedRows.mpr ⟨hrow, abandoned⟩)
      exact absurd (TaskRow.readable_iff.mpr ⟨t, read⟩) unreadable
    | unread unread left => exact ⟨_, w', run, resolves, left⟩

/-- A task whose worker began in 2001. -/
def begunTask (id : String) (kind : TaskKind) (vmKey : Int) (notBefore : Instant) : Task :=
  { Task.fresh id kind vmKey {} 3 ⟨1000000000, 0⟩ with
    status := .running, attempts := 1, notBefore, startedAt := some ⟨1000000000, 0⟩ }

/-- A fleet in 2026: one VM has been pending for a moment, the other one stopping since 2001. -/
def haltedFleet (tasks : List Task) : World where
  store :=
    { vms := [{ (default : Vm) with
          key := 1, id := "srv-1", status := .pending, updatedAt := ⟨1767225600, 0⟩ },
        { (default : Vm) with
          key := 2, id := "srv-2", status := .stopping, updatedAt := ⟨1000000000, 0⟩ }]
      tasks := tasks.map .ofTask }
  now := ⟨1767225602, 0⟩

/-- The workers of both VMs are gone, and both are moved to `error`. -/
theorem begun_tasks_resolved :
    let tasks := [begunTask "task-1" .create 1 ⟨1000000000, 0⟩,
      begunTask "task-2" .stop 2 ⟨1000000000, 0⟩]
    ∃ report w', (sweepStale (.ofSeconds 60)).run Fleet.promptTool.tool (haltedFleet tasks) =
        (.finished (.ok report), w') ∧ report.tasks.Perm tasks ∧
      (w'.store.vm? 1).map (·.status) = some .error ∧
      (w'.store.vm? 2).map (·.status) = some .error := by
  intro tasks
  have sweepable : ∀ t ∈ tasks, t.status = .running → t.Sweepable ⟨1767225542, 1000⟩ := by
    intro t ht _
    have started : ∀ u ∈ (some ⟨1000000000, 0⟩ : Option Instant), u.Writable := by decide
    rcases List.mem_pair.mp ht with rfl | rfl <;>
      exact ⟨started, fun _ => ⟨⟨by decide, by decide, started, nofun⟩, by decide⟩⟩
  have known : ((haltedFleet tasks).now.after World.tick).before? (.ofSeconds 60) =
      some ⟨1767225542, 1000⟩ := by decide +kernel
  obtain ⟨report, w', run, resolved, -⟩ :=
    (sweep_resolves_once Fleet.promptTool (.ofSeconds 60) (w := haltedFleet tasks) tasks rfl
      (by decide) rfl (by decide) known (by decide) (by decide)).1 sweepable
  refine ⟨report, w', run, resolved.reported, ?_, ?_⟩
  · obtain ⟨left, there, fate⟩ := resolved.resolves.vms _ List.mem_cons_self
    cases fate with
    | kept _ spared =>
      have marked := spared _ List.mem_cons_self rfl
      cases marked
    | moved => exact congrArg (Option.map (·.status)) there
  · obtain ⟨left, there, fate⟩ :=
      resolved.resolves.vms _ (List.mem_cons_of_mem _ List.mem_cons_self)
    cases fate with
    | kept recent _ => exact absurd (by decide) recent
    | moved => exact congrArg (Option.map (·.status)) there

/-- Two stops were begun long before the cutoff. One was not to begin before year 10000, which the
table does not read back: the sweep fails on it, and both are still running. -/
theorem late_stop_keeps_both_running :
    let late := begunTask "task-2" .stop 2 ⟨253402300800, 0⟩
    let tasks := [begunTask "task-1" .stop 1 ⟨1000000000, 0⟩, late]
    (∀ t ∈ tasks, t.abandonedAt ⟨1767225542, 1000⟩ = true) ∧
    ∃ e w', (sweepStale (.ofSeconds 60)).run Fleet.promptTool.tool (haltedFleet tasks) =
      (.finished (.error e), w') ∧ w'.store.tasks = tasks.map .ofTask := by
  intro late tasks
  refine ⟨by decide, ?_⟩
  have known : ((haltedFleet tasks).now.after World.tick).before? (.ofSeconds 60) =
      some ⟨1767225542, 1000⟩ := by decide +kernel
  obtain ⟨answer, w', run, ends⟩ :=
    sweepStale_finished (w := haltedFleet tasks) Fleet.promptTool rfl (by decide) known
  have after := (sweepFrom_resolves (w := { haltedFleet tasks with
    now := (haltedFleet tasks).now.after World.tick }) rfl (by decide) ends).2
  cases after with
  | failed now read left =>
    have unread : TaskRow.task (.ofTask late) = .error (TaskRow.unreadable 7) := by decide +kernel
    obtain ⟨t, -, read⟩ := mapM_ok_of_mem read (.ofTask late) <| Store.mem_abandonedRows.mpr
      ⟨List.mem_cons_of_mem _ List.mem_cons_self, by decide +kernel⟩
    cases unread.symm.trans read
  | unread _ left => exact ⟨_, w', run, left⟩

end Lifecycle

end VmFleet
