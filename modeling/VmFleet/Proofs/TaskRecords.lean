/-
The task table: which task a row is read as, what a claim takes, and what the
writes that end tasks do to the rows.
-/
import VmFleet.Store.Tasks
import VmFleet.Proofs.Rows

namespace VmFleet

section Except

variable {ε α β : Type}

theorem bind_ok {x : Except ε α} {f : α → Except ε β} {b : β} (h : x >>= f = .ok b) :
    ∃ a, x = .ok a ∧ f a = .ok b := by
  cases x with
  | error e => cases h
  | ok a => exact ⟨a, rfl, h⟩

theorem map_eq_of_mapM_ok {f : α → Except ε β} {xs : List α} {ys : List β}
    (h : xs.mapM f = .ok ys) : xs.map f = ys.map .ok := by
  induction xs generalizing ys with
  | nil =>
    cases h
    rfl
  | cons x xs ih =>
    rw [List.mapM_cons] at h
    obtain ⟨y, hx, h⟩ := bind_ok h
    obtain ⟨rest, hxs, h⟩ := bind_ok h
    cases h
    rw [List.map_cons, List.map_cons, hx, ih hxs]

theorem length_eq_of_mapM_ok {f : α → Except ε β} {xs : List α} {ys : List β}
    (h : xs.mapM f = .ok ys) : ys.length = xs.length := by
  rw [← List.length_map f, map_eq_of_mapM_ok h, List.length_map]

theorem mem_of_mapM_ok {f : α → Except ε β} {xs : List α} {ys : List β}
    (h : xs.mapM f = .ok ys) : ∀ y ∈ ys, ∃ x ∈ xs, f x = .ok y := by
  intro y hy
  have there : .ok y ∈ xs.map f := map_eq_of_mapM_ok h ▸ List.mem_map_of_mem hy
  exact List.mem_map.mp there

theorem mapM_ok_of_mem {f : α → Except ε β} {xs : List α} {ys : List β}
    (h : xs.mapM f = .ok ys) : ∀ x ∈ xs, ∃ y ∈ ys, f x = .ok y := by
  intro x hx
  have there : f x ∈ ys.map .ok := map_eq_of_mapM_ok h ▸ List.mem_map_of_mem hx
  obtain ⟨y, hy, same⟩ := List.mem_map.mp there
  exact ⟨y, hy, same.symm⟩

theorem exists_mapM_ok {f : α → Except ε β} {xs : List α} (h : ∀ x ∈ xs, ∃ y, f x = .ok y) :
    ∃ ys, xs.mapM f = .ok ys := by
  induction xs with
  | nil => exact ⟨[], rfl⟩
  | cons x xs ih =>
    obtain ⟨y, hx⟩ := h x List.mem_cons_self
    obtain ⟨ys, hxs⟩ := ih fun z hz => h z (List.mem_cons_of_mem x hz)
    exact ⟨y :: ys, by rw [List.mapM_cons, hx, hxs]; rfl⟩

end Except

/-- A row and the task it is read as differ in how their times are held. -/
theorem TaskRow.task_eq {row : TaskRow} {t : Task} (h : TaskRow.task row = .ok t) :
    ∃ notBefore createdAt startedAt completedAt,
      t = { row with notBefore, createdAt, startedAt, completedAt } := by
  unfold TaskRow.task at h
  split at h
  · cases h
  obtain ⟨_, _, h⟩ := bind_ok h
  obtain ⟨_, _, h⟩ := bind_ok h
  obtain ⟨_, _, h⟩ := bind_ok h
  obtain ⟨_, _, h⟩ := bind_ok h
  cases h
  exact ⟨_, _, _, _, rfl⟩

theorem TaskRow.task_ok {row : TaskRow} {t : Task} (h : TaskRow.task row = .ok t) :
    t.id = row.id ∧ t.kind = row.kind ∧ t.vmKey = row.vmKey := by
  obtain ⟨_, _, _, _, rfl⟩ := TaskRow.task_eq h
  exact ⟨rfl, rfl, rfl⟩

namespace Store

variable {s s' : Store} {now cutoff : Instant} {tasks : List Task}

theorem failAbandoned_reads (h : s.failAbandoned now cutoff = .ok (tasks, s')) :
    (s.abandonedRows (.of cutoff)).mapM TaskRow.task = .ok tasks ∧
    s' = { s with
      tasks := updateWhere (isAbandoned (.of cutoff))
        (fun row => finished row .failed now (some "abandoned by worker")) s.tasks } := by
  simp only [failAbandoned] at h
  cases read : (s.abandonedRows (.of cutoff)).mapM TaskRow.task with
  | error e => simp [read, Except.map] at h
  | ok ts =>
    simp only [read, Except.map, Except.ok.injEq, Prod.mk.injEq] at h
    obtain ⟨rfl, rfl⟩ := h
    exact ⟨rfl, rfl⟩

theorem failAbandoned_unread {e : Error} (h : s.failAbandoned now cutoff = .error e) :
    (s.abandonedRows (.of cutoff)).mapM TaskRow.task = .error e := by
  simp only [failAbandoned] at h
  cases read : (s.abandonedRows (.of cutoff)).mapM TaskRow.task with
  | error e' =>
    simp only [read, Except.map] at h
    rw [Except.error.inj h]
  | ok tasks => simp [read, Except.map] at h

theorem mem_abandonedRows {stamp : Stamp} {row : TaskRow} :
    row ∈ s.abandonedRows stamp ↔ row ∈ s.tasks ∧ isAbandoned stamp row = true := by
  simp only [abandonedRows, List.mem_mergeSort, List.mem_filter]

theorem failAbandoned_ok (h : s.failAbandoned now cutoff = .ok (tasks, s')) :
    (∀ task ∈ tasks, ∃ row ∈ s.tasks, isAbandoned (.of cutoff) row = true ∧
      TaskRow.task row = .ok task) ∧
    s' = { s with
      tasks := updateWhere (isAbandoned (.of cutoff))
        (fun row => finished row .failed now (some "abandoned by worker")) s.tasks } := by
  obtain ⟨read, same⟩ := failAbandoned_reads h
  refine ⟨fun task ht => ?_, same⟩
  obtain ⟨row, hrow, hread⟩ := mem_of_mapM_ok read task ht
  obtain ⟨hrow, abandoned⟩ := mem_abandonedRows.mp hrow
  exact ⟨row, hrow, abandoned, hread⟩

theorem failAbandoned_returned (h : s.failAbandoned now cutoff = .ok (tasks, s')) {row : TaskRow}
    (hrow : row ∈ s.tasks) (abandoned : isAbandoned (.of cutoff) row = true) :
    ∃ task ∈ tasks, TaskRow.task row = .ok task :=
  mapM_ok_of_mem (failAbandoned_reads h).1 row (mem_abandonedRows.mpr ⟨hrow, abandoned⟩)

/-- The tasks that are returned are of the kinds and VMs of the abandoned rows. -/
theorem failAbandoned_alike (h : s.failAbandoned now cutoff = .ok (tasks, s')) :
    (∀ task ∈ tasks, ∃ row ∈ s.tasks.filter (isAbandoned (.of cutoff)),
      row.kind = task.kind ∧ row.vmKey = task.vmKey) ∧
    ∀ row ∈ s.tasks.filter (isAbandoned (.of cutoff)), ∃ task ∈ tasks,
      task.kind = row.kind ∧ task.vmKey = row.vmKey := by
  constructor
  · intro task ht
    obtain ⟨row, hrow, abandoned, read⟩ := (failAbandoned_ok h).1 task ht
    obtain ⟨-, kind, vmKey⟩ := TaskRow.task_ok read
    exact ⟨row, List.mem_filter.mpr ⟨hrow, abandoned⟩, kind.symm, vmKey.symm⟩
  · intro row hrow
    obtain ⟨hrow, abandoned⟩ := List.mem_filter.mp hrow
    obtain ⟨task, ht, read⟩ := failAbandoned_returned h hrow abandoned
    exact ⟨task, ht, (TaskRow.task_ok read).2⟩

theorem nextDue?_due {stamp : Stamp} {rows : List TaskRow} {row : TaskRow}
    (h : nextDue? stamp rows = some row) : row ∈ rows ∧ isDue stamp row = true := by
  refine List.mem_filter.mp (mem_of_foldl_pick (fun best row => ?_) h)
  cases best with
  | none => exact .inr rfl
  | some b =>
    dsimp only
    split
    · exact .inr rfl
    · exact .inl rfl

theorem nextDue?_mem {stamp : Stamp} {rows : List TaskRow} {row : TaskRow}
    (h : nextDue? stamp rows = some row) : row ∈ rows ∧ row.status = .pending := by
  obtain ⟨hrow, due⟩ := nextDue?_due h
  simp only [isDue, Bool.and_eq_true, beq_iff_eq] at due
  exact ⟨hrow, due.1⟩

/-- A claim changes nothing, or it returns the task that the row is read as which it marks as
running. -/
theorem claimNext_cases {found : Option Task} (h : s.claimNext now = .ok (found, s')) :
    (found = none ∧ s' = s) ∨ ∃ row task, row ∈ s.tasks ∧ row.status = .pending ∧
      found = some task ∧ TaskRow.task (claimed row (.of now)) = .ok task ∧
      s' = s.setTask row.id fun row => claimed row (.of now) := by
  simp only [claimNext] at h
  split at h
  · simp only [Except.ok.injEq, Prod.mk.injEq] at h
    exact .inl ⟨h.1.symm, h.2.symm⟩
  · next row due =>
    cases read : TaskRow.task (claimed row (.of now)) with
    | error e => simp [read, Except.map] at h
    | ok task =>
      simp only [read, Except.map, Except.ok.injEq, Prod.mk.injEq] at h
      obtain ⟨rfl, rfl⟩ := h
      obtain ⟨hrow, pending⟩ := nextDue?_mem due
      exact .inr ⟨row, task, hrow, pending, rfl, read, rfl⟩

theorem claimNext_ok {found : Option Task} (h : s.claimNext now = .ok (found, s')) :
    (found = none ∧ s' = s) ∨ ∃ row task, row ∈ s.tasks ∧ row.status = .pending ∧
      found = some task ∧ task.id = row.id ∧ task.kind = row.kind ∧ task.vmKey = row.vmKey ∧
      s' = s.setTask row.id fun row => claimed row (.of now) := by
  rcases claimNext_cases h with none | ⟨row, task, hrow, pending, some, read, same⟩
  · exact .inl none
  · obtain ⟨id, kind, vmKey⟩ := TaskRow.task_ok read
    exact .inr ⟨row, task, hrow, pending, some, id, kind, vmKey, same⟩

/-- No worker is on a task. -/
def Idle (s : Store) : Prop :=
  ∀ row ∈ s.tasks, row.status ≠ .running

theorem not_idle_of_claimNext {task : Task} (h : s.claimNext now = .ok (some task, s')) :
    ¬ s'.Idle := by
  rcases claimNext_ok h with ⟨none, -⟩ | ⟨row, _, hrow, -, -, -, -, -, rfl⟩
  · cases none
  · intro idle
    refine idle (claimed row (.of now)) (mem_updateWhere.mpr ⟨row, hrow, ?_⟩) rfl
    rw [if_pos (beq_self_eq_true row.id)]

/-! ## Rows by their ids -/

/-- Ids name one task each. -/
def TasksDistinct (s : Store) : Prop :=
  (s.tasks.map (·.id)).Nodup

variable {id : String} {row : TaskRow} {f : TaskRow → TaskRow}

theorem empty_tasksDistinct : Store.empty.TasksDistinct :=
  List.nodup_nil

theorem taskRow?_mem (h : s.taskRow? id = some row) : row ∈ s.tasks ∧ row.id = id :=
  ⟨List.mem_of_find?_eq_some h, by simpa using List.find?_some h⟩

namespace TasksDistinct

theorem taskRow?_of_mem (h : s.TasksDistinct) (hrow : row ∈ s.tasks) :
    s.taskRow? row.id = some row :=
  (find?_eq_some_iff_of_nodup _ h).mpr ⟨hrow, rfl⟩

theorem map {t : Store} (h : s.TasksDistinct) (rows : t.tasks = s.tasks.map f)
    (ids : ∀ row, (f row).id = row.id) : t.TasksDistinct := by
  have same : t.tasks.map (·.id) = s.tasks.map (·.id) := by
    rw [rows, List.map_map]
    exact List.map_congr_left fun row _ => ids row
  rwa [TasksDistinct, same]

theorem append (h : s.TasksDistinct) (fresh : s.taskRow? row.id = none) :
    ({ s with tasks := s.tasks ++ [row] } : Store).TasksDistinct := by
  have others : ∀ x ∈ s.tasks, x.id ≠ row.id := by
    intro x hx
    simpa using List.find?_eq_none.mp fresh x hx
  simpa [TasksDistinct, List.nodup_append] using ⟨h, others⟩

end TasksDistinct

theorem taskRow?_map {t : Store} (rows : t.tasks = s.tasks.map f)
    (ids : ∀ row, (f row).id = row.id) (id : String) : t.taskRow? id = (s.taskRow? id).map f := by
  have test : ((fun row : TaskRow => row.id == id) ∘ f) = fun row => row.id == id := by
    funext row
    simp only [Function.comp_apply, ids]
  simp only [taskRow?, rows, List.find?_map, test]

theorem taskRow?_setTask (ids : ∀ row, (f row).id = row.id) :
    (s.setTask id f).taskRow? id = (s.taskRow? id).map f :=
  find?_updateWhere_self fun row _ same => by rw [ids]; exact same

/-- The row of a task that a worker has just claimed is read as the task. -/
theorem claimNext_row {task : Task} (distinct : s.TasksDistinct)
    (h : s.claimNext now = .ok (some task, s')) :
    ∃ row, s'.taskRow? task.id = some row ∧ row.status = .running ∧
      TaskRow.task row = .ok task := by
  rcases claimNext_cases h with ⟨none, -⟩ | ⟨row, _, hrow, -, some, read, rfl⟩
  · cases none
  · cases some
    have same : task.id = row.id := (TaskRow.task_ok read).1
    have ids : ∀ row : TaskRow, (claimed row (.of now)).id = row.id := fun _ => rfl
    rw [same, taskRow?_setTask ids, distinct.taskRow?_of_mem hrow]
    exact ⟨_, rfl, rfl, read⟩

theorem taskRow?_append (fresh : s.taskRow? row.id = none) (id : String) :
    ({ s with tasks := s.tasks ++ [row] } : Store).taskRow? id =
      if id = row.id then some row else s.taskRow? id := by
  simp only [taskRow?, List.find?_append] at fresh ⊢
  split
  · next hid =>
    subst hid
    simp [fresh]
  · next other =>
    have miss : (row.id == id) = false := by simpa using Ne.symm other
    simp [miss]

end Store

end VmFleet
