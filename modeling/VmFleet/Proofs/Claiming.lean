/-
Claims at one time, repeated until one finds nothing. Times are compared as the
texts in the table, which in years of four digits stand in the order of time. So a
claim takes of the pending tasks that are due one that was due first, and starts
it; it is then pending no longer, and the next claim takes one of the others.
-/
import VmFleet.Proofs.Delays
import Mathlib.Data.List.Perm.Subperm

namespace VmFleet

/-! ## Tasks as the table keeps them -/

namespace Task

/-- The task with its times as they read back from the table. -/
def cut (t : Task) : Task :=
  { t with
    notBefore := t.notBefore.cutToMicros
    createdAt := t.createdAt.cutToMicros
    startedAt := t.startedAt.map (·.cutToMicros)
    completedAt := t.completedAt.map (·.cutToMicros) }

/-- The task once a worker has claimed it. -/
def started (t : Task) (now : Instant) : Task :=
  { t with status := .running, attempts := t.attempts + 1, startedAt := some now }

/-- The task is pending and may be claimed; of its time the table keeps the microseconds. -/
def dueAt (now : Instant) (t : Task) : Bool :=
  t.status == .pending && t.notBefore.cutToMicros ≤ now

/-- The first task was to begin no later, and of two that were to begin at once it was created no
later. -/
def NotAfter (a b : Task) : Prop :=
  a.notBefore < b.notBefore ∨ a.notBefore = b.notBefore ∧ a.createdAt ≤ b.createdAt

instance (a b : Task) : Decidable (a.NotAfter b) := by unfold NotAfter; infer_instance

/-- The times of the task lie in years of four digits. -/
structure Timed (t : Task) : Prop where
  notBefore : t.notBefore.Writable
  createdAt : t.createdAt.Writable
  startedAt : ∀ u ∈ t.startedAt, u.Writable
  completedAt : ∀ u ∈ t.completedAt, u.Writable

/-- The task can be read once it is claimed. -/
structure Claimable (t : Task) : Prop where
  attempts : t.attempts < bound32 - 1
  timed : t.Timed

variable {t a b : Task} {now : Instant}

theorem dueAt_iff : t.dueAt now = true ↔ t.status = .pending ∧ t.notBefore.cutToMicros ≤ now := by
  rw [dueAt, Bool.and_eq_true, beq_iff_eq, decide_eq_true_eq]

theorem Timed.fresh {id : String} {kind : TaskKind} {vmKey : Int} {params : TaskParams}
    {maxAttempts : Nat} (writable : now.Writable) :
    (Task.fresh id kind vmKey params maxAttempts now).Timed where
  notBefore := writable
  createdAt := writable
  startedAt _ started := by cases started
  completedAt _ completed := by cases completed

theorem Timed.started (h : t.Timed) (writable : now.Writable) : (t.started now).Timed :=
  { h with startedAt := fun _ started => by cases started; exact writable }

end Task

namespace TaskRow

variable {t a b : Task} {now : Instant}

theorem readStamp_of {u : Instant} (column : Nat) (h : u.Writable) :
    readStamp column (.of u) = .ok u.cutToMicros := by
  rw [readStamp, Stamp.instant?_of_writable h]

theorem readStamp?_of {u : Option Instant} (column : Nat) (h : ∀ x ∈ u, x.Writable) :
    readStamp? column (u.map .of) = .ok (u.map (·.cutToMicros)) := by
  cases u with
  | none => rfl
  | some u => rw [Option.map_some, readStamp?, readStamp_of column (h u rfl)]; rfl

/-- A task that was written is read back with its times cut to microseconds. -/
theorem task_ofTask (h : t.Timed) (attempts : t.attempts < bound32) :
    TaskRow.task (.ofTask t) = .ok t.cut := by
  have within : ¬ bound32 ≤ (TaskRow.ofTask t).attempts := Nat.not_le_of_lt attempts
  rw [TaskRow.task, if_neg within]
  simp only [ofTask]
  rw [readStamp_of 7 h.notBefore, readStamp_of 8 h.createdAt, readStamp?_of 9 h.startedAt,
    readStamp?_of 10 h.completedAt]
  rfl

theorem task_started (h : t.Claimable) (writable : now.Writable) :
    TaskRow.task (.ofTask (t.started now)) = .ok (t.started now).cut :=
  task_ofTask (h.timed.started writable) (Nat.lt_pred_iff.mp h.attempts)

/-- By text a row is due when its task is by time. -/
theorem isDue_ofTask (h : t.status = .pending → t.Claimable) (writable : now.Writable) :
    Store.isDue (.of now) (.ofTask t) = t.dueAt now := by
  rw [Bool.eq_iff_iff, Task.dueAt_iff, Store.isDue, Bool.and_eq_true, beq_iff_eq,
    decide_eq_true_eq]
  exact and_congr_right fun pending => Stamp.of_le_of_iff (h pending).timed.notBefore writable

theorem isBefore_ofTask (ha : a.Timed) (hb : b.Timed) :
    Store.isBefore (.ofTask a) (.ofTask b) = true ↔
      a.cut.notBefore < b.cut.notBefore ∨
        a.cut.notBefore = b.cut.notBefore ∧ a.cut.createdAt < b.cut.createdAt := by
  simp only [Store.isBefore, Bool.or_eq_true, Bool.and_eq_true, decide_eq_true_eq, beq_iff_eq]
  exact or_congr (Stamp.of_lt_of_iff ha.notBefore hb.notBefore)
    (and_congr (Stamp.of_eq_of_iff ha.notBefore hb.notBefore)
      (Stamp.of_lt_of_iff ha.createdAt hb.createdAt))

theorem notAfter_of_isBefore (ha : a.Timed) (hb : b.Timed)
    (h : Store.isBefore (.ofTask b) (.ofTask a) = false) : a.cut.NotAfter b.cut := by
  have notSooner := (not_congr (isBefore_ofTask hb ha)).mp (Bool.eq_false_iff.mp h)
  rw [not_or, not_and] at notSooner
  rcases Instant.lt_trichotomy a.cut.notBefore b.cut.notBefore with sooner | same | later
  · exact .inl sooner
  · have older := notSooner.2 same.symm
    refine .inr ⟨same, ?_⟩
    simp only [Instant.lt_def, Instant.le_def] at older ⊢
    omega
  · exact absurd later notSooner.1

end TaskRow

/-! ## One claim -/

namespace Store

variable {s t : Store} {now : Instant} {table tasks : List Task}

/-- What a claim does to a store with these tasks in its table. -/
inductive ClaimStep (now : Instant) (table : List Task) (s : Store) : Prop
  /-- No task is due, and nothing is changed. -/
  | idle (spent : ∀ x ∈ table, x.dueAt now = false) (answer : s.claimNext now = .ok (none, s))
  /-- Of the tasks that are due one that was due first is started and returned. -/
  | takes {task : Task} (member : task ∈ table) (due : task.dueAt now = true)
      (first : ∀ x ∈ table, x.dueAt now = true → task.cut.NotAfter x.cut)
      (answer : s.claimNext now = .ok (some (task.started now).cut, { s with
        tasks := (updateWhere (·.id == task.id) (·.started now) table).map .ofTask }))

theorem claimStep (rows : s.tasks = table.map .ofTask)
    (claimable : ∀ x ∈ table, x.status = .pending → x.Claimable) (writable : now.Writable) :
    ClaimStep now table s := by
  cases picked : nextDue? (.of now) s.tasks with
  | none =>
    refine .idle (fun x hx => ?_) (by simp only [claimNext, picked])
    by_contra due
    have row : .ofTask x ∈ s.tasks := rows ▸ List.mem_map_of_mem hx
    have found := nextDue?_isSome row
      ((TaskRow.isDue_ofTask (claimable x hx) writable).trans (Bool.eq_true_of_not_eq_false due))
    rw [picked] at found
    cases found
  | some row =>
    obtain ⟨member, due⟩ := nextDue?_due picked
    rw [rows] at member
    obtain ⟨task, htask, rfl⟩ := List.mem_map.mp member
    rw [TaskRow.isDue_ofTask (claimable task htask) writable] at due
    have fit := claimable task htask (Task.dueAt_iff.mp due).1
    refine .takes htask due (fun x hx xdue => ?_) ?_
    · have xfit := claimable x hx (Task.dueAt_iff.mp xdue).1
      refine TaskRow.notAfter_of_isBefore fit.timed xfit.timed
        (nextDue?_first picked _ (rows ▸ List.mem_map_of_mem hx) ?_)
      rw [TaskRow.isDue_ofTask (claimable x hx) writable, xdue]
    · have read : TaskRow.task (claimed (.ofTask task) (.of now)) = .ok (task.started now).cut :=
        TaskRow.task_started fit writable
      have table' : (updateWhere (·.id == task.id) (·.started now) table).map TaskRow.ofTask =
          updateWhere (·.id == task.id) (fun row => claimed row (.of now)) s.tasks := by
        rw [rows, updateWhere, updateWhere, List.map_map, List.map_map]
        refine List.map_congr_left fun x _ => ?_
        simp only [Function.comp_apply, apply_ite TaskRow.ofTask]
        rfl
      rw [table']
      simp only [claimNext, picked, read, Except.map]
      rfl

/-! ## Claims until none is left -/

/-- The tasks once those of these ids are started. -/
def startedOf (now : Instant) (ids : List String) (tasks : List Task) : List Task :=
  tasks.map fun x => if x.id ∈ ids then x.started now else x

theorem pending_startedOf {ids : List String} {x : Task} (h : x ∈ startedOf now ids tasks)
    (pending : x.status = .pending) : x ∈ tasks ∧ x.id ∉ ids := by
  obtain ⟨y, hy, rfl⟩ := List.mem_map.mp h
  split at pending
  · cases pending
  · next new => exact ⟨by rwa [if_neg new], by rwa [if_neg new]⟩

theorem mem_startedOf {ids : List String} {x : Task} (h : x ∈ tasks) (new : x.id ∉ ids) :
    x ∈ startedOf now ids tasks :=
  List.mem_map.mpr ⟨x, h, if_neg new⟩

theorem updateWhere_startedOf {ids : List String} {id : String} (new : id ∉ ids) :
    updateWhere (·.id == id) (·.started now) (startedOf now ids tasks) =
      startedOf now (ids ++ [id]) tasks := by
  rw [updateWhere, startedOf, startedOf, List.map_map]
  refine List.map_congr_left fun x _ => ?_
  have kept : (x.started now).id = x.id := rfl
  by_cases old : x.id ∈ ids
  · have other : x.id ≠ id := fun same => new (same ▸ old)
    simp [old, kept, other]
  · by_cases same : x.id = id <;> simp [old, same, new]

/-- The store after claims at one time that all took a task, with these tasks in the order in which
they were returned. -/
inductive Claims (now : Instant) (s : Store) : List Task → Store → Prop
  | start : Claims now s [] s
  | next {claimed task t t'} (before : Claims now s claimed t)
      (answer : t.claimNext now = .ok (some task, t')) : Claims now s (claimed ++ [task]) t'

/-- How far claims have come on a store that had these tasks in its table. -/
structure ClaimedOf (now : Instant) (s : Store) (tasks claimed : List Task) (t : Store) : Prop where
  store : t = { s with tasks := (startedOf now (claimed.map (·.id)) tasks).map .ofTask }
  ids : (claimed.map (·.id)).Nodup
  origin : ∀ c ∈ claimed, ∃ x ∈ tasks, x.dueAt now = true ∧ c = (x.started now).cut
  ordered : claimed.Pairwise Task.NotAfter
  before : ∀ c ∈ claimed, ∀ x ∈ tasks, x.dueAt now = true → x.id ∉ claimed.map (·.id) →
    c.NotAfter x.cut

namespace ClaimedOf

variable {claimed : List Task}

theorem start (rows : s.tasks = tasks.map .ofTask) : ClaimedOf now s tasks [] s where
  store := by
    have same : startedOf now [] tasks = tasks := by simp [startedOf]
    rw [List.map_nil, same, ← rows]
  ids := List.nodup_nil
  origin _ h := absurd h List.not_mem_nil
  ordered := .nil
  before _ h := absurd h List.not_mem_nil

theorem claimStep (h : ClaimedOf now s tasks claimed t)
    (claimable : ∀ x ∈ tasks, x.status = .pending → x.Claimable) (writable : now.Writable) :
    ClaimStep now (startedOf now (claimed.map (·.id)) tasks) t := by
  refine Store.claimStep (by rw [h.store]) (fun x hx pending => ?_) writable
  exact claimable x (pending_startedOf hx pending).1 pending

theorem next {task : Task} (h : ClaimedOf now s tasks claimed t)
    (member : task ∈ startedOf now (claimed.map (·.id)) tasks) (due : task.dueAt now = true)
    (first : ∀ x ∈ startedOf now (claimed.map (·.id)) tasks, x.dueAt now = true →
      task.cut.NotAfter x.cut) :
    ClaimedOf now s tasks (claimed ++ [(task.started now).cut]) { t with
      tasks := (updateWhere (·.id == task.id) (·.started now)
        (startedOf now (claimed.map (·.id)) tasks)).map .ofTask } := by
  obtain ⟨there, new⟩ := pending_startedOf member (Task.dueAt_iff.mp due).1
  have ids : (claimed ++ [(task.started now).cut]).map (·.id) = claimed.map (·.id) ++ [task.id] := by
    rw [List.map_append]
    rfl
  constructor
  · rw [h.store, ids, updateWhere_startedOf new]
  · rw [ids]
    exact List.nodup_append.mpr ⟨h.ids, List.nodup_singleton _, fun a ha b hb same =>
      new (List.mem_singleton.mp hb ▸ same ▸ ha)⟩
  · intro c hc
    rcases List.mem_append.mp hc with old | last
    · exact h.origin c old
    · exact ⟨task, there, due, List.mem_singleton.mp last⟩
  · refine List.pairwise_append.mpr ⟨h.ordered, List.pairwise_singleton _ _, fun c hc d hd => ?_⟩
    rw [List.mem_singleton.mp hd]
    exact h.before c hc task there due new
  · intro c hc x hx xdue notYet
    rw [ids, List.mem_append, not_or] at notYet
    rcases List.mem_append.mp hc with old | last
    · exact h.before c old x hx xdue notYet.1
    · rw [List.mem_singleton.mp last]
      exact first x (mem_startedOf hx notYet.1) xdue

/-- No task is claimed twice. -/
theorem length_le (h : ClaimedOf now s tasks claimed t) : claimed.length ≤ tasks.length := by
  have sub : claimed.map (·.id) ⊆ tasks.map (·.id) := by
    intro id hid
    obtain ⟨c, hc, rfl⟩ := List.mem_map.mp hid
    obtain ⟨x, hx, -, rfl⟩ := h.origin c hc
    exact List.mem_map.mpr ⟨x, hx, rfl⟩
  simpa using (List.Nodup.subperm h.ids sub).length_le

/-- Once no task is due, every task that was due has been claimed. -/
theorem perm (h : ClaimedOf now s tasks claimed t) (distinct : (tasks.map (·.id)).Nodup)
    (spent : ∀ x ∈ startedOf now (claimed.map (·.id)) tasks, x.dueAt now = false) :
    claimed.Perm ((tasks.filter (·.dueAt now)).map fun x => (x.started now).cut) := by
  have nodup : ((tasks.filter (·.dueAt now)).map fun x => (x.started now).cut).Nodup := by
    refine List.Nodup.of_map (·.id) ?_
    rw [List.map_map]
    exact distinct.sublist (List.filter_sublist.map _)
  refine (List.perm_ext_iff_of_nodup (List.Nodup.of_map _ h.ids) nodup).mpr fun c => ?_
  rw [List.mem_map]
  constructor
  · intro hc
    obtain ⟨x, hx, due, rfl⟩ := h.origin c hc
    exact ⟨x, List.mem_filter.mpr ⟨hx, due⟩, rfl⟩
  · rintro ⟨x, hx, rfl⟩
    obtain ⟨hx, due⟩ := List.mem_filter.mp hx
    have taken : x.id ∈ claimed.map (·.id) := by
      by_contra new
      rw [spent x (mem_startedOf hx new)] at due
      cases due
    obtain ⟨c, hc, same⟩ := List.mem_map.mp taken
    obtain ⟨y, hy, -, rfl⟩ := h.origin c hc
    have same : y.id = x.id := same
    rwa [List.inj_on_of_nodup_map distinct hy hx same] at hc

end ClaimedOf

theorem Claims.claimedOf {claimed : List Task} (h : Claims now s claimed t)
    (rows : s.tasks = tasks.map .ofTask)
    (claimable : ∀ x ∈ tasks, x.status = .pending → x.Claimable) (writable : now.Writable) :
    ClaimedOf now s tasks claimed t := by
  induction h with
  | start => exact .start rows
  | next _ answer ih =>
    cases ih.claimStep claimable writable with
    | idle _ nothing => cases nothing.symm.trans answer
    | takes member due first taken =>
      cases taken.symm.trans answer
      exact ih.next member due first

/-- Claims can be repeated until one finds nothing. -/
theorem Claims.exists_last {claimed : List Task} (h : Claims now s claimed t)
    (rows : s.tasks = tasks.map .ofTask)
    (claimable : ∀ x ∈ tasks, x.status = .pending → x.Claimable) (writable : now.Writable) :
    ∃ claimed t, Claims now s claimed t ∧ t.claimNext now = .ok (none, t) ∧
      ∀ x ∈ startedOf now (claimed.map (·.id)) tasks, x.dueAt now = false := by
  generalize left : tasks.length - claimed.length = n
  induction n using Nat.strongRecOn generalizing claimed t with
  | ind n ih =>
    have progress := h.claimedOf rows claimable writable
    cases progress.claimStep claimable writable with
    | idle spent answer => exact ⟨claimed, t, h, answer, spent⟩
    | takes _ _ _ answer =>
      have more := h.next answer
      have within := (more.claimedOf rows claimable writable).length_le
      rw [List.length_append, List.length_singleton] at within
      refine ih _ ?_ more rfl
      rw [List.length_append, List.length_singleton]
      omega

/-- A table that was written from nothing holds the tasks in that order, of one id each. -/
theorem insertAll_ok {s₀ : Store} (distinct : s₀.TasksDistinct)
    (written : tasks.foldlM insertTask s₀ = .ok s) :
    s.tasks = s₀.tasks ++ tasks.map .ofTask ∧ s.TasksDistinct := by
  induction tasks generalizing s₀ with
  | nil =>
    cases written
    exact ⟨by simp, distinct⟩
  | cons task rest ih =>
    rw [List.foldlM_cons] at written
    obtain ⟨s₁, first, written⟩ := bind_ok written
    simp only [insertTask] at first
    split at first
    · cases first
    next new =>
    cases first
    have new : s₀.taskRow? task.id = none := by simpa using new
    obtain ⟨rows, distinct⟩ := ih (distinct.append new) written
    exact ⟨by rw [rows]; simp, distinct⟩

/-- **Claims at one time take each due task once, in the order of time.** In a table that was
written from tasks whose times are of years of four digits and whose attempts can be counted on,
claims at such a time are repeated until one finds nothing, which happens: then each pending task
that was due was claimed once and no other, in the order of the times that they were due and, of
one time, were created. Each claim on the way starts one task, with one attempt more and the time of
the claim in microseconds, and changes nothing else; it finds none just where no pending task is
due, and then changes nothing. -/
theorem due_claimed_once (now : Instant) {s₀ s : Store} (tasks : List Task) (empty : s₀.tasks = [])
    (written : tasks.foldlM insertTask s₀ = .ok s)
    (claimable : ∀ x ∈ tasks, x.status = .pending → x.Claimable) (writable : now.Writable) :
    (∃ claimed t, Claims now s claimed t ∧ t.claimNext now = .ok (none, t) ∧
      claimed.Perm ((tasks.filter (·.dueAt now)).map fun x => (x.started now).cut) ∧
      claimed.Pairwise Task.NotAfter) ∧
    ∀ claimed t, Claims now s claimed t →
      t = { s with tasks := (startedOf now (claimed.map (·.id)) tasks).map .ofTask } ∧
        ClaimStep now (startedOf now (claimed.map (·.id)) tasks) t := by
  obtain ⟨rows, distinct⟩ := insertAll_ok (by rw [TasksDistinct, empty]; exact List.nodup_nil) written
  rw [empty, List.nil_append] at rows
  have distinct : (tasks.map (·.id)).Nodup := by
    rw [TasksDistinct, rows, List.map_map] at distinct
    exact distinct
  refine ⟨?_, fun claimed t h => ?_⟩
  · obtain ⟨claimed, t, h, answer, spent⟩ := Claims.start.exists_last rows claimable writable
    have progress := h.claimedOf rows claimable writable
    exact ⟨claimed, t, h, answer, progress.perm distinct spent, progress.ordered⟩
  · have progress := h.claimedOf rows claimable writable
    exact ⟨progress.store, progress.claimStep claimable writable⟩

/-- Two tasks are due half a minute after the epoch, the second one first, and one is not. -/
def waiting : List Task :=
  [.fresh "task-1" .start 1 {} 3 ⟨20, 0⟩, .fresh "task-2" .stop 2 {} 3 ⟨10, 0⟩,
    .fresh "task-3" .start 3 {} 3 ⟨90, 0⟩]

/-- The two are claimed in the order of their times, and then none. -/
theorem waiting_claimed : ∃ claimed t,
    Claims ⟨30, 1500⟩ { tasks := waiting.map .ofTask } claimed t ∧
      t.claimNext ⟨30, 1500⟩ = .ok (none, t) ∧ claimed.map (·.id) = ["task-2", "task-1"] := by
  have claimable : ∀ x ∈ waiting, x.status = .pending → x.Claimable := by
    simp only [waiting, List.forall_mem_cons]
    refine ⟨?_, ?_, ?_, fun _ h => absurd h List.not_mem_nil⟩ <;>
      exact fun _ => ⟨by decide, .fresh (by decide)⟩
  have written : waiting.foldlM insertTask {} = .ok { tasks := waiting.map .ofTask } := by
    decide +kernel
  obtain ⟨⟨claimed, t, claims, last, perm, ordered⟩, -⟩ :=
    due_claimed_once ⟨30, 1500⟩ waiting rfl written claimable (by decide)
  have two : claimed.Perm ([waiting[1], waiting[0]].map fun x => (x.started ⟨30, 1500⟩).cut) :=
    perm.trans (.swap _ _ _)
  -- Of the two tasks only this order is that of their times.
  have antisymm : ∀ a b, a ∈ claimed → b ∈ [waiting[1], waiting[0]].map
      (fun x => (x.started ⟨30, 1500⟩).cut) → a.NotAfter b → b.NotAfter a → a = b := by
    intro a b ha hb ab ba
    have ha := two.mem_iff.mp ha
    simp only [List.map_cons, List.map_nil, List.mem_cons, List.not_mem_nil, or_false] at ha hb
    rcases ha with rfl | rfl <;> rcases hb with rfl | rfl
    · rfl
    · exact absurd ba (by decide)
    · exact absurd ab (by decide)
    · rfl
  have same := two.eq_of_pairwise antisymm ordered (by decide)
  exact ⟨claimed, t, claims, last, by rw [same]; rfl⟩

end Store

end VmFleet
