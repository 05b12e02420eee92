/-
The tasks that a listing shows for its options. Without a VM the listing is of the status
that is asked for and within the limit, and a word that names no status is an error.
The tasks of a VM are listed by another query, which looks at neither: so the options
are followed beside a VM only where they would have made no difference.
-/
import VmFleet.Cli.Run
import VmFleet.Proofs.Paging
import VmFleet.Proofs.TaskColumns
import Mathlib.Data.List.Perm.Subperm

namespace VmFleet

/-! ## The rows that a query answers -/

namespace Store

variable {α : Type} {limit : Nat}

/-- A limit that does not fit a column counts as none, but no table has so many rows. -/
theorem length_limited {rows : List α} (room : rows.length ≤ bound63) :
    (limited (signed limit) rows).length ≤ limit := by
  by_cases small : limit < bound63
  · have natural : ¬ (limit : Int) < 0 := by omega
    rw [signed_of_lt small, limited, if_neg natural, Int.toNat_natCast]
    exact List.length_take_le _ _
  · exact ((limited_sublist _ rows).length_le.trans room).trans (Nat.le_of_not_lt small)

end Store

namespace Cli

variable {s : Store} {owner vmId : String} {status : Option String} {wanted : Option TaskStatus}
  {key : Option Int} {limit : Nat} {vm : Vm} {rows : List TaskRow} {tasks : List Task}

/-- The rows of a status and of a VM, where these are asked for. -/
def asked (s : Store) (wanted : Option TaskStatus) (key : Option Int) : List TaskRow :=
  s.tasks.filter fun row => wanted.all (row.status == ·) && key.all (row.vmKey == ·)

theorem mem_asked {row : TaskRow} : row ∈ asked s wanted key ↔
    row ∈ s.tasks ∧ (∀ x ∈ wanted, row.status = x) ∧ ∀ k ∈ key, row.vmKey = k := by
  simp [asked, Option.all_eq_true]

/-- The tasks are of the status and the VM that are asked for, as stored, and within the limit; and
they are all of these unless they are more. -/
structure Lists (s : Store) (wanted : Option TaskStatus) (key : Option Int) (limit : Nat)
    (tasks : List Task) : Prop where
  each : ∀ t ∈ tasks, (∀ x ∈ wanted, t.status = x) ∧ ∀ k ∈ key, t.vmKey = k
  stored : (tasks.map Except.ok).Subperm ((asked s wanted key).map TaskRow.task)
  few : tasks.length ≤ limit
  all : (asked s wanted key).length ≤ limit →
    ((asked s wanted key).map TaskRow.task).Perm (tasks.map .ok)

/-- An answer to the options follows them: a word that names no status is an error, as is a VM that
is not the owner's, and whatever is listed is what they ask for. It can be listed if it can be read. -/
def Follows (s : Store) (owner : String) (status vm : Option String) (limit : Nat)
    (answer : Except Error (List Task)) : Prop :=
  match status.mapM TaskStatus.ofText?, vm.mapM (Client.getVm s · owner) with
  | none, _ => ∃ e, answer = .error e
  | some _, .error e => answer = .error e
  | some wanted, .ok vm =>
    (∀ tasks, answer = .ok tasks → Lists s wanted (vm.map (·.key)) limit tasks) ∧
      ((∀ row ∈ asked s wanted (vm.map (·.key)), row.Readable) → ∃ tasks, answer = .ok tasks)

/-- Rows that are asked for, read as tasks, are a listing if they are few enough, and all of them if
those are. -/
theorem lists_of_rows (read : rows.mapM TaskRow.task = .ok tasks)
    (there : rows.Subperm (asked s wanted key)) (few : rows.length ≤ limit)
    (all : (asked s wanted key).length ≤ limit → rows.Perm (asked s wanted key)) :
    Lists s wanted key limit tasks := by
  have same := map_eq_of_mapM_ok read
  refine ⟨fun t ht => ?_, ?_, ?_, fun room => ?_⟩
  -- A task is of the status and the VM of the row that it is read from.
  · obtain ⟨row, hrow, own⟩ := mem_of_mapM_ok read t ht
    obtain ⟨_, _, _, _, rfl⟩ := TaskRow.task_eq own
    exact (mem_asked.mp (there.subset hrow)).2
  · obtain ⟨rows', perm, sub⟩ := there
    rw [← same]
    exact ⟨rows'.map TaskRow.task, perm.map _, sub.map _⟩
  · rwa [length_eq_of_mapM_ok read]
  · rw [← same]
    exact ((all room).map _).symm

/-! ## The two queries -/

theorem listTasks_asked (s : Store) (wanted : Option TaskStatus) (within : limit < bound64)
    (room : s.tasks.length ≤ bound63) :
    ∃ rows : List TaskRow, s.listTasks wanted limit = rows.mapM TaskRow.task ∧
      rows.Subperm (asked s wanted none) ∧ rows.length ≤ limit ∧
      ((asked s wanted none).length ≤ limit → rows.Perm (asked s wanted none)) := by
  have same : (s.tasks.filter fun row => wanted.all (row.status == ·)) = asked s wanted none :=
    List.filter_congr fun row _ => by rw [Option.all_none, Bool.and_true]
  have sorted := List.mergeSort_perm (asked s wanted none) fun a b => b.createdAt ≤ a.createdAt
  refine ⟨Store.limited (Store.signed limit) ((asked s wanted none).mergeSort _),
    by rw [Store.listTasks, same], ?_, ?_, fun fits => ?_⟩
  · exact (Store.limited_sublist _ _).subperm.trans sorted.subperm
  · refine Store.length_limited ?_
    rw [sorted.length_eq]
    exact (List.length_filter_le _ _).trans room
  · rwa [Store.limited_of_room (by rwa [sorted.length_eq]) within]

theorem listTasksForVm_asked (s : Store) (key : Int) :
    ∃ rows : List TaskRow, s.listTasksForVm key = rows.mapM TaskRow.task ∧
      rows.Perm (asked s none (some key)) := by
  have same : s.tasks.filter (·.vmKey == key) = asked s none (some key) :=
    List.filter_congr fun row _ => by
      rw [Option.all_none, Option.all_some, Bool.true_and]
  exact ⟨_, rfl, same ▸ List.mergeSort_perm _ _⟩

/-- Where every task of a VM is of the status, to ask for the status leaves none out. -/
theorem asked_of_all (every : ∀ row ∈ asked s none key, ∀ x ∈ wanted, row.status = x) :
    asked s wanted key = asked s none key := by
  refine List.filter_congr fun row hrow => Bool.eq_iff_iff.mpr ?_
  simp only [Option.all_none, Bool.true_and, Bool.and_eq_true, and_iff_right_iff_imp,
    Option.all_eq_true, beq_iff_eq]
  exact fun ofVm => every row (mem_asked.mpr ⟨hrow, by simp, ofVm⟩)

theorem exists_tasks (readable : ∀ row ∈ rows, row.Readable) :
    ∃ tasks, rows.mapM TaskRow.task = .ok tasks :=
  exists_mapM_ok fun row hrow => TaskRow.readable_iff.mp (readable row hrow)

theorem mapM_read (status : Option String) :
    (∃ wanted, status.mapM TaskStatus.ofText? = some wanted ∧
      status.mapM TaskStatus.read = .ok wanted) ∨
    status.mapM TaskStatus.ofText? = none ∧ ∃ e, status.mapM TaskStatus.read = .error e := by
  cases status with
  | none => exact .inl ⟨none, rfl, rfl⟩
  | some word =>
    simp only [Option.mapM_some, TaskStatus.read, Error.orUnknown]
    cases TaskStatus.ofText? word with
    | none => exact .inr ⟨rfl, _, rfl⟩
    | some x => exact .inl ⟨some x, rfl, rfl⟩

theorem follows_of_no_vm (owner : String) (status : Option String) (within : limit < bound64)
    (room : s.tasks.length ≤ bound63) :
    Follows s owner status none limit (tasksToList s owner status none limit) := by
  obtain ⟨wanted, named, read⟩ | ⟨unnamed, e, read⟩ := mapM_read status
  · obtain ⟨rows, answer, there, few, all⟩ := listTasks_asked s wanted within room
    have listed : tasksToList s owner status none limit = rows.mapM TaskRow.task := by
      rw [← answer, tasksToList, read]
      rfl
    rw [Follows, named, listed]
    refine ⟨fun tasks read => lists_of_rows read there few all, fun readable => ?_⟩
    exact exists_tasks fun row hrow => readable row (there.subset hrow)
  · rw [Follows, unnamed, tasksToList, read]
    exact ⟨e, rfl⟩

/-- A VM that is not the owner's is an error, which is what the options ask for. -/
theorem follows_of_no_such_vm {e : Error} (status : Option String) (limit : Nat)
    (unknown : Client.getVm s vmId owner = .error e) :
    Follows s owner status (some vmId) limit (tasksToList s owner status (some vmId) limit) := by
  have refused : (some vmId).mapM (Client.getVm s · owner) = .error e := by
    rw [Option.mapM_some, unknown]
    rfl
  have answer : tasksToList s owner status (some vmId) limit = .error e := by
    rw [tasksToList, unknown]
    rfl
  rw [Follows, refused, answer]
  cases status.mapM TaskStatus.ofText? with
  | none => exact ⟨e, rfl⟩
  | some wanted => rfl

/-- Beside a VM the answer has every task of the VM, whatever the other options. -/
theorem tasksToList_beside_vm (known : Client.getVm s vmId owner = .ok vm) :
    ∃ rows : List TaskRow, rows.Perm (asked s none (some vm.key)) ∧
      ∀ status limit, tasksToList s owner status (some vmId) limit = rows.mapM TaskRow.task := by
  obtain ⟨rows, answer, whole⟩ := listTasksForVm_asked s vm.key
  refine ⟨rows, whole, fun status limit => ?_⟩
  rw [← answer, tasksToList, known]
  rfl

/-- Beside a VM they are followed exactly if neither the status nor the limit leaves out a task of
the VM. -/
theorem follows_beside_vm_iff (known : Client.getVm s vmId owner = .ok vm)
    (whole : rows.Perm (asked s none (some vm.key))) (read : rows.mapM TaskRow.task = .ok tasks) :
    Follows s owner status (some vmId) limit (.ok tasks) ↔
      ∃ wanted, status.mapM TaskStatus.ofText? = some wanted ∧
        (∀ row ∈ asked s none (some vm.key), ∀ x ∈ wanted, row.status = x) ∧
        (asked s none (some vm.key)).length ≤ limit := by
  have found : (some vmId).mapM (Client.getVm s · owner) = .ok (some vm) := by
    rw [Option.mapM_some, known]
    rfl
  rw [Follows, found]
  cases status.mapM TaskStatus.ofText? with
  | none => simp
  | some wanted =>
    simp only [Except.ok.injEq, Option.some.injEq, exists_eq_left', Option.map_some, forall_eq']
    constructor
    · rintro ⟨follows, -⟩
      -- Every row of the VM is told as a task, so what holds of the tasks holds of the rows.
      refine ⟨fun row hrow x hx => ?_, ?_⟩
      · obtain ⟨t, ht, own⟩ := mapM_ok_of_mem read row (whole.mem_iff.mpr hrow)
        obtain ⟨_, _, _, _, rfl⟩ := TaskRow.task_eq own
        exact (follows.each _ ht).1 x hx
      · rw [← whole.length_eq, ← length_eq_of_mapM_ok read]
        exact follows.few
    · rintro ⟨every, fits⟩
      -- The rows of the VM that are of the status are just the rows of the VM.
      have same := asked_of_all every
      refine ⟨lists_of_rows read ?_ ?_ fun _ => ?_, fun _ => ⟨tasks, rfl⟩⟩
      · exact same ▸ whole.subperm
      · rwa [whole.length_eq]
      · rwa [same]

/-- **The options of a listing.** Without a VM the tasks that are listed are of the status that is
asked for and within the limit, all of them are listed that are not more than that, and a word that
names no status is an error. A VM that is not the owner's is an error. Beside a VM of the owner
neither the status nor the limit is looked at: all tasks of the VM are listed as long as they can be
read. So the options are followed there exactly if the word names a status, all tasks of the VM are
in it, and they are within the limit. -/
theorem listing_follows_options (s : Store) (owner : String) (status : Option String)
    (limit : Nat) (within : limit < bound64) (room : s.tasks.length ≤ bound63) :
    Follows s owner status none limit (tasksToList s owner status none limit) ∧
    ∀ vmId,
      (∀ e, Client.getVm s vmId owner = .error e →
        Follows s owner status (some vmId) limit (tasksToList s owner status (some vmId) limit)) ∧
      ∀ vm, Client.getVm s vmId owner = .ok vm →
        (∀ status' limit', tasksToList s owner status' (some vmId) limit' =
          tasksToList s owner status (some vmId) limit) ∧
        ((∀ row ∈ asked s none (some vm.key), row.Readable) →
          ∃ tasks, tasksToList s owner status (some vmId) limit = .ok tasks) ∧
        ∀ tasks, tasksToList s owner status (some vmId) limit = .ok tasks →
          ((asked s none (some vm.key)).map TaskRow.task).Perm (tasks.map .ok) ∧
          (Follows s owner status (some vmId) limit (.ok tasks) ↔
            ∃ wanted, status.mapM TaskStatus.ofText? = some wanted ∧
              (∀ row ∈ asked s none (some vm.key), ∀ x ∈ wanted, row.status = x) ∧
              (asked s none (some vm.key)).length ≤ limit) := by
  refine ⟨follows_of_no_vm owner status within room, fun vmId =>
    ⟨fun e unknown => follows_of_no_such_vm status limit unknown, fun vm known => ?_⟩⟩
  obtain ⟨rows, whole, answer⟩ := tasksToList_beside_vm known
  refine ⟨fun status' limit' => (answer status' limit').trans (answer status limit).symm,
    fun readable => ?_, fun tasks listed => ?_⟩
  · rw [answer]
    exact exists_tasks fun row hrow => readable row (whole.subset hrow)
  · have read := (answer status limit).symm.trans listed
    refine ⟨?_, follows_beside_vm_iff known whole read⟩
    rw [← map_eq_of_mapM_ok read]
    exact (whole.map _).symm

/-- A VM whose creation waits in the queue. -/
def waiting : Store where
  vms := [{ (default : Vm) with key := 1, id := "srv-1", owner := "admin" }]
  tasks := [.ofTask creation]
  nextVm := 2
where
  creation : Task := .fresh "task-1" .create 1 {} 3 ⟨0, 0⟩

theorem getVm_waiting :
    Client.getVm waiting "srv-1" "admin" =
      .ok { (default : Vm) with key := 1, id := "srv-1", owner := "admin" } := by
  decide

theorem asked_waiting : asked waiting none (some 1) = [.ofTask waiting.creation] := by
  decide

theorem task_waiting : TaskRow.task (.ofTask waiting.creation) = .ok waiting.creation :=
  TaskRow.task_ofTask (.fresh (by decide)) (by decide)

/-- The one task is pending: the options are followed for the failed ones, and beside the VM for one
pending task. -/
theorem waiting_follows :
    Follows waiting "admin" (some "Failed") none 50
        (tasksToList waiting "admin" (some "Failed") none 50) ∧
      Follows waiting "admin" (some "Pending") (some "srv-1") 1
        (tasksToList waiting "admin" (some "Pending") (some "srv-1") 1) := by
  obtain ⟨without, -⟩ :=
    listing_follows_options waiting "admin" (some "Failed") 50 (by decide) (by decide)
  obtain ⟨-, beside⟩ :=
    listing_follows_options waiting "admin" (some "Pending") 1 (by decide) (by decide)
  obtain ⟨-, read, follows⟩ := (beside "srv-1").2 _ getVm_waiting
  rw [asked_waiting] at read follows
  obtain ⟨tasks, listed⟩ := read fun row hrow => by
    rw [List.mem_singleton.mp hrow]
    exact TaskRow.readable_iff.mpr ⟨_, task_waiting⟩
  rw [listed]
  exact ⟨without, (follows tasks listed).2.mpr ⟨some .pending, by decide, by decide, by decide⟩⟩

/-- Beside its VM the pending task is listed where failed tasks are asked for, where the word names
no status, and where no task may be listed. -/
theorem waiting_listed_regardless :
    let failed := tasksToList waiting "admin" (some "Failed") (some "srv-1") 50
    let unnamed := tasksToList waiting "admin" (some "bogus") (some "srv-1") 50
    let empty := tasksToList waiting "admin" none (some "srv-1") 0
    failed = .ok [waiting.creation] ∧ unnamed = .ok [waiting.creation] ∧
      empty = .ok [waiting.creation] ∧
      ¬ Follows waiting "admin" (some "Failed") (some "srv-1") 50 failed ∧
      ¬ Follows waiting "admin" (some "bogus") (some "srv-1") 50 unnamed ∧
      ¬ Follows waiting "admin" none (some "srv-1") 0 empty := by
  obtain ⟨rows, whole, answer⟩ := tasksToList_beside_vm getVm_waiting
  have alone : rows = [.ofTask waiting.creation] :=
    List.perm_singleton.mp (asked_waiting ▸ whole)
  have read : rows.mapM TaskRow.task = .ok [waiting.creation] := by
    rw [alone, List.mapM_cons, task_waiting]
    rfl
  have listed : ∀ status limit,
      tasksToList waiting "admin" status (some "srv-1") limit = .ok [waiting.creation] :=
    fun status limit => (answer status limit).trans read
  intro failed unnamed empty
  refine ⟨listed _ _, listed _ _, listed _ _, ?_, ?_, ?_⟩
  all_goals
    simp only [failed, unnamed, empty, listed]
    rw [follows_beside_vm_iff getVm_waiting whole read]
    rintro ⟨wanted, named, every, fits⟩
  · cases named
    cases every (.ofTask waiting.creation) (by decide) .failed rfl
  · cases named
  · exact absurd fits (by decide)

end Cli

end VmFleet
