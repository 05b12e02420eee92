/-
Tasks written to their table and read back. Each column says what its part of the task
was, but for times, of which it keeps the microseconds. The texts of times in years of
four digits stand in the order of the times that they are read as, so whatever the
queue asks by text it asks by time.
-/
import VmFleet.Proofs.Claiming
import VmFleet.Proofs.JsonRecords
import VmFleet.Proofs.Turns
import VmFleet.Store.Columns

namespace VmFleet

/-! ## The columns of a row -/

namespace TaskParams

open Json

/-- The members that parameters are written with. -/
def written (p : TaskParams) : List (String × Json) :=
  optionalMember "host" p.host ++ optionalMember "pool" p.pool ++
    optionalMember "kernel_path" p.kernelPath

theorem plain_toJson (p : TaskParams) : p.toJson.Plain := by
  refine plain_object ?_
  simp only [List.forall_mem_append]
  exact ⟨⟨plain_optionalMember, plain_optionalMember⟩, plain_optionalMember⟩

theorem read?_toJson (p : TaskParams) :
    Record.read? members p.toJson = some ⟨p.written, false⟩ := by
  refine Record.read?_of_sublist ?_ (by decide)
  simp only [List.map_append]
  exact (keys_optionalMember.append keys_optionalMember).append keys_optionalMember

theorem lookup_written (p : TaskParams) (key : String) : p.written.lookup key =
    ((if key = "host" then p.host.map .str else none).or
      (if key = "pool" then p.pool.map .str else none)).or
      (if key = "kernel_path" then p.kernelPath.map .str else none) := by
  simp only [written, List.lookup_append, lookup_optionalMember]

theorem read?_text (p : TaskParams) : read? p.toJson.text = some p := by
  have host : (⟨p.written, false⟩ : Record).orElse? "host" (asNullable? asText?) none =
      some p.host := by
    refine Record.orElse?_optional ((p.lookup_written "host").trans ?_)
    simp
  have pool : (⟨p.written, false⟩ : Record).orElse? "pool" (asNullable? asText?) none =
      some p.pool := by
    refine Record.orElse?_optional ((p.lookup_written "pool").trans ?_)
    simp
  have kernel : (⟨p.written, false⟩ : Record).orElse? "kernel_path" (asNullable? asText?) none =
      some p.kernelPath := by
    refine Record.orElse?_optional ((p.lookup_written "kernel_path").trans ?_)
    simp
  rw [read?, parse?_text p.plain_toJson, Option.bind_some, ofJson?, read?_toJson]
  simp only [Option.bind_eq_bind, Option.bind_some, host, pool, kernel]

end TaskParams

namespace Cell

theorem count?_integer (n : Nat) : count? (.integer n) = some n := by
  simp [count?]

theorem nullableText?_ofText? (s : Option String) : (ofText? s).nullableText? = some s := by
  cases s <;> rfl

end Cell

namespace TaskRow

theorem ofCells?_cells (row : TaskRow) : ofCells? row.cells = some row := by
  have stamps : ∀ s : Option Stamp, (s.map Stamp.text).map Stamp.mk = s := fun s => by
    cases s <;> rfl
  simp only [cells, ofCells?, Cell.text?, Cell.integer?, Cell.count?_integer,
    Cell.nullableText?_ofText?, Option.bind_eq_bind, Option.bind_some, TaskKind.ofText?_text,
    TaskStatus.ofText?_text, TaskParams.read?_text, stamps]

end TaskRow

/-! ## A task in the answers -/

namespace Store

variable {s : Store} {t : Task} {rows : List TaskRow} {limit : Nat}

theorem limited_sublist {α : Type} (n : Int) (rows : List α) : (limited n rows).Sublist rows := by
  rw [limited]
  split
  · exact List.Sublist.refl rows
  · exact List.take_sublist _ _

/-- A limit that has room for all rows takes none away. -/
theorem limited_of_room (room : rows.length ≤ limit) (within : limit < bound64) :
    limited (signed limit) rows = rows := by
  rw [limited]
  split
  · rfl
  · next fits =>
    have small : limit < bound63 := by
      by_contra large
      rw [signed, if_neg large] at fits
      omega
    rw [signed, if_pos small, Int.toNat_natCast, List.take_of_length_le room]

/-- The rows of a list are those of the status, all of them if there is room. -/
theorem listTasks_rows (s : Store) (status : Option TaskStatus) (limit : Nat) :
    ∃ rows : List TaskRow, s.listTasks status limit = rows.mapM TaskRow.task ∧
      (∀ row ∈ rows, row ∈ s.tasks) ∧
      ((s.tasks.filter fun row => status.all (row.status == ·)).length ≤ limit → limit < bound64 →
        ∀ row ∈ s.tasks, status.all (row.status == ·) = true → row ∈ rows) := by
  refine ⟨_, rfl, fun row hrow => ?_, fun room within row hrow matching => ?_⟩
  · exact List.mem_of_mem_filter (List.mem_mergeSort.mp ((limited_sublist _ _).subset hrow))
  · rw [limited_of_room (by rwa [List.length_mergeSort]) within, List.mem_mergeSort]
    exact List.mem_filter.mpr ⟨hrow, matching⟩

theorem listTasksForVm_rows (s : Store) (vmKey : Int) :
    ∃ rows : List TaskRow, s.listTasksForVm vmKey = rows.mapM TaskRow.task ∧
      ∀ row, row ∈ rows ↔ row ∈ s.tasks ∧ row.vmKey = vmKey :=
  ⟨_, rfl, fun row => by rw [List.mem_mergeSort, List.mem_filter, beq_iff_eq]⟩

/-- The store once the task is written. -/
def written (s : Store) (t : Task) : Store :=
  { s with tasks := s.tasks ++ [.ofTask t] }

theorem insertTask_ok (fresh : s.taskRow? t.id = none) : s.insertTask t = .ok (s.written t) := by
  rw [insertTask, fresh]
  rfl

theorem taskRow?_written (fresh : s.taskRow? t.id = none) :
    (s.written t).taskRow? t.id = some (.ofTask t) :=
  (taskRow?_append fresh t.id).trans (if_pos rfl)

theorem mem_written : .ofTask t ∈ (s.written t).tasks :=
  List.mem_append_right _ List.mem_cons_self

/-- What is told of the task is what was written, with its times cut to microseconds. -/
def AsWritten (t : Task) (tasks : List Task) : Prop :=
  ∀ x ∈ tasks, x.id = t.id → x = t.cut

theorem rows_read (fresh : s.taskRow? t.id = none) (timed : t.Timed)
    (attempts : t.attempts < bound32) (readable : ∀ row ∈ s.tasks, row.Readable)
    (there : ∀ row ∈ rows, row ∈ (s.written t).tasks) :
    ∃ tasks, rows.mapM TaskRow.task = .ok tasks ∧ AsWritten t tasks ∧
      (.ofTask t ∈ rows → t.cut ∈ tasks) := by
  have own : TaskRow.task (.ofTask t) = .ok t.cut := TaskRow.task_ofTask timed attempts
  have oldOrNew : ∀ row ∈ rows, row ∈ s.tasks ∨ row = .ofTask t := fun row hrow =>
    (List.mem_append.mp (there row hrow)).imp_right List.mem_singleton.mp
  obtain ⟨tasks, read⟩ : ∃ tasks, rows.mapM TaskRow.task = .ok tasks := by
    refine exists_mapM_ok fun row hrow => ?_
    obtain old | rfl := oldOrNew row hrow
    · exact TaskRow.readable_iff.mp (readable row old)
    · exact ⟨_, own⟩
  refine ⟨tasks, read, fun x hx same => ?_, fun hrow => ?_⟩
  · obtain ⟨row, hrow, rowRead⟩ := mem_of_mapM_ok read x hx
    obtain old | rfl := oldOrNew row hrow
    · have other : row.id ≠ t.id := by simpa using List.find?_eq_none.mp fresh row old
      exact absurd ((TaskRow.task_ok rowRead).1.symm.trans same) other
    · exact Except.ok.inj (rowRead.symm.trans own)
  · obtain ⟨x, hx, rowRead⟩ := mapM_ok_of_mem read _ hrow
    rwa [← Except.ok.inj (rowRead.symm.trans own)]

end Store

namespace TaskRow

variable {t : Task} {now cutoff : Instant}

theorem isDue_ofTask_iff (timed : t.Timed) (writable : now.Writable) :
    Store.isDue (.of now) (.ofTask t) = true ↔
      t.status = .pending ∧ t.notBefore.cutToMicros ≤ now.cutToMicros := by
  rw [Store.isDue, Bool.and_eq_true, beq_iff_eq, decide_eq_true_eq]
  exact and_congr_right fun _ => Stamp.of_le_of_iff_cut timed.notBefore writable

/-- By text a row has a worker since before the cutoff exactly if its task does by time. -/
theorem isAbandoned_ofTask_iff (timed : t.Timed) (writable : cutoff.Writable) :
    Store.isAbandoned (.of cutoff) (.ofTask t) = true ↔
      t.status = .running ∧ ∃ u ∈ t.startedAt, u.cutToMicros < cutoff.cutToMicros := by
  show (t.status == .running && (t.startedAt.map Stamp.of).any (· < .of cutoff)) = true ↔ _
  rw [Bool.and_eq_true, beq_iff_eq]
  refine and_congr_right fun _ => ?_
  cases begun : t.startedAt with
  | none => simp
  | some u => simpa using Stamp.of_lt_of_iff (timed.startedAt u begun) writable

end TaskRow

/-- **A task is read back as it was written, and its texts are compared as its times.** A task with
a new id whose times lie in years of four digits is stored in columns that say what it was, its
times cut to microseconds; so it is found under its id. As long as the other tasks can be read, it
is told in the list of its VM, and in the list of its status if there is room for it. Of such times
the texts are in the order of the times that they are read as, and by it tasks are due, come before
one another and are abandoned. -/
theorem stored_task_reads_back :
    (∀ (s : Store) (t : Task), s.taskRow? t.id = none → t.Timed → t.attempts < bound32 →
      ∃ s', s.insertTask t = .ok s' ∧
        (∃ row, s'.taskRow? t.id = some row ∧
          (TaskRow.ofCells? row.cells).map TaskRow.task = some (.ok t.cut)) ∧
        s'.task? t.id = .ok (some t.cut) ∧
        ((∀ row ∈ s.tasks, row.Readable) →
          (∀ status limit, ∃ tasks, s'.listTasks status limit = .ok tasks ∧
            Store.AsWritten t tasks ∧
            (status.all (t.status == ·) = true →
              (s.tasks.filter fun row => status.all (row.status == ·)).length < limit →
                limit < bound64 → t.cut ∈ tasks)) ∧
          ∃ tasks, s'.listTasksForVm t.vmKey = .ok tasks ∧ Store.AsWritten t tasks ∧
            t.cut ∈ tasks)) ∧
    (∀ a b : Instant, a.Writable → b.Writable →
      (Stamp.of a < Stamp.of b ↔ a.cutToMicros < b.cutToMicros) ∧
      (Stamp.of a ≤ Stamp.of b ↔ a.cutToMicros ≤ b.cutToMicros) ∧
      (Stamp.of a = Stamp.of b ↔ a.cutToMicros = b.cutToMicros)) ∧
    (∀ (t : Task) (now : Instant), t.Timed → now.Writable →
      (Store.isDue (.of now) (.ofTask t) = true ↔
        t.status = .pending ∧ t.notBefore.cutToMicros ≤ now.cutToMicros) ∧
      (Store.isAbandoned (.of now) (.ofTask t) = true ↔
        t.status = .running ∧ ∃ u ∈ t.startedAt, u.cutToMicros < now.cutToMicros)) ∧
    ∀ a b : Task, a.Timed → b.Timed →
      (Store.isBefore (.ofTask a) (.ofTask b) = true ↔
        a.cut.notBefore < b.cut.notBefore ∨
          a.cut.notBefore = b.cut.notBefore ∧ a.cut.createdAt < b.cut.createdAt) := by
  refine ⟨fun s t fresh timed attempts => ?_, fun a b ha hb => ⟨Stamp.of_lt_of_iff ha hb,
    Stamp.of_le_of_iff_cut ha hb, Stamp.of_eq_of_iff ha hb⟩, fun t now timed writable =>
    ⟨TaskRow.isDue_ofTask_iff timed writable, TaskRow.isAbandoned_ofTask_iff timed writable⟩,
    fun a b => TaskRow.isBefore_ofTask⟩
  have own : TaskRow.task (.ofTask t) = .ok t.cut := TaskRow.task_ofTask timed attempts
  have found := Store.taskRow?_written fresh
  refine ⟨_, Store.insertTask_ok fresh, ⟨_, found, ?_⟩, ?_, fun readable =>
    ⟨fun status limit => ?_, ?_⟩⟩
  · rw [TaskRow.ofCells?_cells, Option.map_some, own]
  · simp only [Store.task?, found, own]
    rfl
  · obtain ⟨rows, answer, there, listed⟩ := (s.written t).listTasks_rows status limit
    obtain ⟨tasks, read, told, present⟩ := Store.rows_read fresh timed attempts readable there
    refine ⟨tasks, answer.trans read, told, fun matching room within => present ?_⟩
    refine listed ?_ within _ Store.mem_written matching
    have one : ((s.written t).tasks.filter fun row => status.all (row.status == ·)).length ≤
        (s.tasks.filter fun row => status.all (row.status == ·)).length + 1 := by
      rw [Store.written, List.filter_append, List.length_append]
      exact Nat.add_le_add_left (List.length_filter_le _ [_]) _
    omega
  · obtain ⟨rows, answer, listed⟩ := (s.written t).listTasksForVm_rows t.vmKey
    obtain ⟨tasks, read, told, present⟩ := Store.rows_read fresh timed attempts readable
      fun row hrow => ((listed row).mp hrow).1
    exact ⟨tasks, answer.trans read, told, present ((listed _).mpr ⟨Store.mem_written, rfl⟩)⟩

/-- A task whose times reach from the first second that the table can hold to the last. -/
def restarting : Task where
  id := "task-\"2\""
  kind := .restart
  vmKey := 1
  params := { host := some "ö\n", pool := none, kernelPath := some "" }
  status := .running
  attempts := 2
  maxAttempts := 3
  notBefore := ⟨-62167219200, 1999⟩
  createdAt := ⟨951782400, 999999999⟩
  startedAt := some ⟨253402300799, 1999999999⟩
  completedAt := none
  lastError := some ""

/-- Beside another task of its VM it is read back, and it is abandoned after its last second. -/
theorem restarting_reads_back :
    let s : Store := { tasks := [.ofTask (.fresh "task-1" .create 1 {} 3 ⟨0, 0⟩)] }
    (∃ s', s.insertTask restarting = .ok s' ∧
      s'.task? restarting.id = .ok (some restarting.cut) ∧
      (∃ tasks, s'.listTasks (some .running) 1 = .ok tasks ∧ restarting.cut ∈ tasks) ∧
      ∃ tasks, s'.listTasksForVm 1 = .ok tasks ∧ restarting.cut ∈ tasks) ∧
    restarting.cut.notBefore = ⟨-62167219200, 1000⟩ ∧
    Stamp.of ⟨59, 1999999999⟩ < Stamp.of ⟨60, 0⟩ := by
  intro s
  have timed : restarting.Timed :=
    ⟨by decide, by decide, by rintro _ ⟨⟩; decide, by rintro _ ⟨⟩⟩
  have readable : ∀ row ∈ s.tasks, row.Readable := by
    intro row hrow
    rw [List.mem_singleton.mp hrow]
    exact TaskRow.readable_iff.mpr
      ⟨_, TaskRow.task_ofTask (.fresh (by decide)) (by decide)⟩
  obtain ⟨stored, texts, -⟩ := stored_task_reads_back
  obtain ⟨s', inserted, -, found, lists⟩ := stored s restarting (by decide) timed (by decide)
  obtain ⟨listed, tasks, ofVm, -, there⟩ := lists readable
  obtain ⟨tasks', ofStatus, -, there'⟩ := listed (some .running) 1
  have alone : (s.tasks.filter fun row => (some TaskStatus.running).all (row.status == ·)).length <
      1 := by decide
  have before := (texts ⟨59, 1999999999⟩ ⟨60, 0⟩ (by decide) (by decide)).1.mpr (by decide)
  exact ⟨⟨s', inserted, found, ⟨tasks', ofStatus, there' rfl alone (by decide)⟩,
    tasks, ofVm, there⟩, rfl, before⟩

end VmFleet
