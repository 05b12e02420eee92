/-
No VM waits in vain: as long as no sweep is cut short, a pending VM has a create
task that waits with an attempt left, or that a worker is on. VMs and tasks are
written one after the other, so what is shown of each write is which VMs may
wait after it and which rows of tasks it changes.
-/
import VmFleet.Proofs.Changes
import VmFleet.Proofs.Returning

namespace VmFleet

/-- The task of the row is to create the VM of the key, and is not over. -/
def TaskRow.Attends (row : TaskRow) (key : Int) : Prop :=
  row.kind = .create ∧ row.vmKey = key ∧ (row.status = .pending ∨ row.status = .running)

namespace Store

def Attended (s : Store) (key : Int) : Prop :=
  ∃ row ∈ s.tasks, row.Attends key

/-- Every VM that waits is attended, and a task that waits may be attempted. -/
structure Tended (s : Store) : Prop where
  distinct : s.TasksDistinct
  left : ∀ row ∈ s.tasks, row.status = .pending → row.attempts < row.maxAttempts
  attended : ∀ key, s.Waits key → s.Attended key

namespace Tended

variable {s t : Store} {f : TaskRow → TaskRow} {row : TaskRow} {vm : Vm} {slots : List Slot}
  {taskId : String} {now : Instant} {task : Task} {claimed : Store}

theorem empty : Store.empty.Tended where
  distinct := empty_tasksDistinct
  left _ hrow := absurd hrow List.not_mem_nil
  attended _ := fun ⟨_, found, _⟩ => by cases found

theorem map (h : s.Tended) (rows : t.tasks = s.tasks.map f) (ids : ∀ row, (f row).id = row.id)
    (left : ∀ row ∈ s.tasks, (f row).status = .pending → (f row).attempts < (f row).maxAttempts)
    (waited : ∀ key, t.Waits key → s.Waits key)
    (kept : ∀ key, t.Waits key → ∀ row ∈ s.tasks, row.Attends key → (f row).Attends key) :
    t.Tended where
  distinct := h.distinct.map rows ids
  left row hrow := by
    rw [rows] at hrow
    obtain ⟨old, member, rfl⟩ := List.mem_map.mp hrow
    exact left old member
  attended key waits := by
    obtain ⟨row, hrow, attends⟩ := h.attended key (waited key waits)
    rw [Attended, rows]
    exact ⟨f row, List.mem_map_of_mem hrow, kept key waits row hrow attends⟩

theorem sameRows (h : s.Tended) (rows : t.tasks = s.tasks)
    (waited : ∀ key, t.Waits key → s.Waits key ∨ s.Attended key) : t.Tended where
  distinct := h.distinct.map (f := id) (by rw [rows, List.map_id]) fun _ => rfl
  left := rows ▸ h.left
  attended key waits := by
    rw [Attended, rows]
    exact (waited key waits).elim (h.attended key) fun attended => attended

theorem append (h : s.Tended) (rows : t.tasks = s.tasks ++ [row])
    (fresh : s.taskRow? row.id = none) (left : row.attempts < row.maxAttempts)
    (waited : ∀ key, t.Waits key → s.Waits key ∨ row.Attends key) : t.Tended where
  distinct := by
    have grown := h.distinct.append fresh
    rwa [TasksDistinct, ← rows] at grown
  left x hx := by
    rw [rows] at hx
    rcases List.mem_append.mp hx with hx | hx
    · exact h.left x hx
    · rw [List.mem_singleton.mp hx]
      exact fun _ => left
  attended key waits := by
    rw [Attended, rows]
    rcases waited key waits with before | attends
    · obtain ⟨x, hx, attends⟩ := h.attended key before
      exact ⟨x, List.mem_append_left _ hx, attends⟩
    · exact ⟨row, List.mem_append_right _ List.mem_cons_self, attends⟩

/-- A row may be changed that attends no VM which waits, or that goes on to attend it. -/
theorem setTask (h : s.Tended) (found : s.taskRow? taskId = some row)
    (ids : ∀ row, (f row).id = row.id)
    (left : (f row).status = .pending → (f row).attempts < (f row).maxAttempts)
    (kept : ∀ key, s.Waits key → row.Attends key → (f row).Attends key) :
    (s.setTask taskId f).Tended := by
  have only : ∀ x ∈ s.tasks, (x.id == taskId) = true → x = row := by
    intro x hx same
    have there := h.distinct.taskRow?_of_mem hx
    rw [show x.id = taskId by simpa using same] at there
    exact Option.some.inj (there.symm.trans found)
  refine h.map rfl (fun x => ?_) (fun x hx => ?_) (fun _ waits => waits) fun key waits x hx => ?_
  · dsimp only
    split
    · exact ids x
    · rfl
  · split
    · next same => exact only x hx same ▸ left
    · exact h.left x hx
  · split
    · next same => exact only x hx same ▸ kept key waits
    · exact fun attends => attends

theorem working (h : s.Tended) (attended : vm.status = .pending → s.Attended vm.key) :
    (s.working vm slots).Tended := by
  refine h.sameRows rfl fun key waits => ?_
  have waits : (s.setVm vm.key fun _ => vm).Waits key := waits.congr rfl
  rcases waits.of_setVm rfl with ⟨before, -⟩ | ⟨rfl, pending⟩
  · exact .inl before
  · exact .inr (attended pending)

theorem claim (h : s.Tended) (claim : s.claimNext now = .ok (some task, claimed)) :
    claimed.Tended := by
  rcases claimNext_cases claim with ⟨none, -⟩ | ⟨row, _, hrow, -, -, -, rfl⟩
  · cases none
  · exact h.setTask (h.distinct.taskRow?_of_mem hrow) (fun _ => rfl) nofun
      fun key _ ⟨kind, own, _⟩ => ⟨kind, own, .inr rfl⟩

end Tended

end Store

/-! ## Work on one VM -/

namespace Lifecycle

variable {settings : Settings} {attempt : Attempt} {task : Task} {start s s' : Store}
  {kind : TaskKind} {vm : Vm} {slots : List Slot} {outcome : Outcome} {e : Event}

/-- While a handler is at work, its own VM does not wait. -/
theorem Entered.tended (h : Entered task start vm) (tended : start.Tended) (slots : List Slot) :
    (start.working vm slots).Tended := by
  refine tended.working fun pending => ?_
  rw [h.status] at pending
  exact absurd pending (VmStatus.via_ne_pending _)

/-- A handler that is through leaves a VM waiting at most for its own task, a create that is to be
tried again. -/
theorem Ended.tended (h : Ended settings attempt task start outcome s s') (tended : start.Tended)
    (onIt : task.kind = .create → start.Attended task.vmKey) : s'.Tended := by
  cases h with
  | created => exact tended.working nofun
  | removed now entered =>
    refine (entered.tended tended start.slots).sameRows rfl fun key waits => .inl ?_
    exact waits.of_removeVm.congr rfl
  | settled now entered create delete =>
    exact tended.working fun pending => absurd pending (TaskKind.settled_stable delete).2
  | reverted now entered =>
    refine tended.working fun pending => ?_
    have attended := onIt (TaskKind.revert_eq_pending.mp pending)
    rwa [← entered.key] at attended
  | failed => exact tended.working nofun

theorem Handles.tended (h : Handles settings attempt task start e) (tended : start.Tended)
    (onIt : task.kind = .create → start.Attended task.vmKey)
    (before : e.before.Tended) : e.after.Tended := by
  cases h with
  | silent => exact before
  | entered entered | allocated entered | called entered => exact entered.tended tended _
  | released entered =>
    exact (entered.tended tended _).sameRows rfl fun _ waits => .inl (waits.congr rfl)
  | ended ended => exact ended.tended tended onIt

theorem Recovers.tended (h : Recovers kind vm e) (tended : e.before.Tended) : e.after.Tended := by
  cases h with
  | silent => exact tended
  | released => exact tended.sameRows rfl fun _ waits => .inl (waits.congr rfl)
  | @marked s why now found =>
    have own : (recovered kind vm why now).key = vm.key := rfl
    exact tended.sameRows rfl fun _ waits => .inl (Store.Waits.of_setVm_ne own nofun waits).1

theorem Swept.tended (h : Swept s s') (tended : s.Tended) : s'.Tended := by
  rcases h.rows with same | ⟨now, cutoff, rows, resolved⟩
  · exact tended.sameRows same fun key waits => .inl (h.waited key waits)
  refine tended.map rows (fun row => ?_) (fun row hrow => ?_) h.waited
    fun key waits row hrow attends => ?_
  · dsimp only
    split <;> rfl
  · split
    · nofun
    · exact tended.left row hrow
  · split
    · next abandoned =>
      obtain ⟨create, rfl, -⟩ := attends
      exact absurd waits (resolved row hrow abandoned create)
    · exact attends

end Lifecycle

namespace Queue

open Lifecycle (Settings)

variable {settings : Settings} {task : Task} {start claimed s s' : Store} {now : Instant}
  {row : TaskRow} {e : Event}

theorem Recorded.tended (h : Recorded task s s') (tended : s.Tended)
    (found : s.taskRow? task.id = some row) (read : TaskRow.task row = .ok task) : s'.Tended := by
  obtain ⟨id, kind, vmKey⟩ := TaskRow.task_ok read
  cases h with
  | unknown => exact tended
  | ended final done =>
    refine tended.setTask found (fun _ => rfl) (fun pending => ?_) fun key waits attends => ?_
    · have pending : _ = TaskStatus.pending := pending
      rcases final with rfl | rfl <;> cases pending
    · obtain ⟨create, rfl, -⟩ := attends
      exact absurd ⟨kind.trans create, vmKey ▸ waits⟩ done
  | requeued left =>
    refine tended.setTask found (fun _ => rfl) (fun _ => ?_) fun key _ attends => ?_
    · obtain ⟨_, _, _, _, rfl⟩ := TaskRow.task_eq read
      exact left
    · exact ⟨attends.1, attends.2.1, .inl rfl⟩

/-- The claimed task's own row stands for its VM until the end of the task is recorded. -/
theorem Works.tended (h : Works settings task claimed e)
    (claim : start.claimNext now = .ok (some task, claimed)) (tended : start.Tended)
    (before : e.before.Tended) : e.after.Tended := by
  obtain ⟨row, found, running, read⟩ := Store.claimNext_row tended.distinct claim
  obtain ⟨-, kind, vmKey⟩ := TaskRow.task_ok read
  cases h with
  | silent => exact before
  | handles handles =>
    refine handles.tended (tended.claim claim) (fun create => ?_) before
    exact ⟨row, (Store.taskRow?_mem found).1, kind.symm.trans create, vmKey.symm, .inr running⟩
  | recovers _ _ recovers => exact recovers.tended before
  | records tasks recorded =>
    refine recorded.tended before ?_ read
    rwa [Store.taskRow?, tasks]

theorem Runs.tended (h : Runs settings start now e) (tended : start.Tended)
    (before : e.before.Tended) : e.after.Tended := by
  cases h with
  | silent => exact before
  | claims claim => exact tended.claim claim
  | works claim works => exact works.tended claim tended before

end Queue

namespace Fleet

variable {s s' : Store} {now : Instant} {steps : List Step}

theorem Answers.tended (h : Answers s now s') (distinct : s.VmsDistinct) (tended : s.Tended) :
    s'.Tended := by
  cases h with
  | refused => exact tended
  | pools _ rest _ =>
    exact tended.sameRows (by rw [rest]) fun _ waits => .inl (waits.congr (by rw [rest]))
  | @created vm task free key status address queued kind own =>
    refine tended.append rfl queued.fresh queued.left fun k ⟨vm', found, pending⟩ => ?_
    -- The VM that waits now is the new one, or it has waited before.
    have there := (Store.vm?_append_new (n := s.nextVm + 1) key distinct).symm.trans found
    split at there
    · next same => exact .inr ⟨kind, own.trans same.symm, .inl queued.waits⟩
    · exact .inl ⟨vm', there, pending⟩
  | withdrawn => exact tended.sameRows rfl fun _ waits => .inl (waits.congr rfl)
  | @edited old vm found id status address =>
    refine tended.sameRows rfl fun key waits => .inl ?_
    rcases waits.of_setVm rfl with ⟨before, -⟩ | ⟨rfl, pending⟩
    · exact before
    · exact ⟨old, found, status.symm.trans pending⟩
  | queued queued =>
    exact tended.append rfl queued.fresh queued.left fun _ waits => .inl (waits.congr rfl)

/-! ## Steps -/

def Job.sweeps : Job → Bool
  | .sweep _ => true
  | .runOnce .. | .recover .. => false

/-- Whoever sweeps dies before the sweep is through. -/
def Step.cutsSweep : Step → Bool
  | .death job _ _ _ => job.sweeps
  | .request .. | .work .. => false

theorem Job.Does.tended {job : Job} {e : Event} (h : job.Does s now e) (apart : job.sweeps = false)
    (tended : s.Tended) (before : e.before.Tended) : e.after.Tended := by
  cases job with
  | runOnce => exact Queue.Runs.tended h tended before
  | sweep => cases apart
  | recover =>
    rcases h with ⟨same, -⟩ | ⟨vm, -, recovers⟩
    · rwa [same]
    · exact recovers.tended before

/-- What becomes of the store in a sweep that is not cut short: a sweep that breaks down has changed
nothing. -/
theorem swept_after (distinct : s.VmsDistinct) (maxAge : Duration) (tool : Provisioner)
    (now : Instant) : Lifecycle.Swept s ((Step.work (.sweep maxAge) tool now).after s) := by
  let w : World := { store := s, now }
  cases run : (Lifecycle.sweepStale maxAge).run tool.tool w with
  | mk ending w' =>
    have last : (Step.work (.sweep maxAge) tool now).after s = w'.store :=
      Program.last_events run
    rw [last]
    cases ending with
    | finished report =>
      have swept := (Lifecycle.sweepStale_holds distinct maxAge).finished (w := w) rfl run
      exact swept
    | crashed why =>
      rw [Lifecycle.sweepStale_crashed rfl run]
      exact .none

/-- What is not a sweep keeps VMs attended operation by operation. -/
theorem Step.tended_apart {step : Step}
    (apart : ∀ job now, step.job? = some (job, now) → job.sweeps = false)
    (distinct : s.VmsDistinct) (tended : s.Tended) : (step.after s).Tended := by
  refine ((step.events_linked s).invariant (G := fun _ => True) (step.does distinct)
    (fun e does before => ⟨?_, trivial⟩) tended).1
  rcases does with ⟨-, -, -, now, answers⟩ | ⟨job, now, ofStep, does⟩
  · exact answers.tended distinct tended
  · exact does.tended (apart job now ofStep) tended before

theorem Step.tended {step : Step} (whole : step.cutsSweep = false) (distinct : s.VmsDistinct)
    (tended : s.Tended) : (step.after s).Tended := by
  cases step with
  | request => exact tended_apart nofun distinct tended
  | death job =>
    refine tended_apart (fun job' now ofStep => ?_) distinct tended
    cases ofStep
    exact whole
  | work job tool now =>
    cases sweeps : job.sweeps with
    | false =>
      refine tended_apart (fun job' now ofStep => ?_) distinct tended
      cases ofStep
      exact sweeps
    | true =>
      cases job with
      | sweep maxAge => exact (swept_after distinct maxAge tool now).tended tended
      | runOnce | recover => cases sweeps

theorem tended_after (whole : ∀ step ∈ steps, step.cutsSweep = false) (distinct : s.VmsDistinct)
    (sound : s.SlotsSound) (tended : s.Tended) : (after s steps).Tended := by
  induction steps generalizing s with
  | nil => exact tended
  | cons step rest ih =>
    obtain ⟨⟨distinct', sound'⟩, -⟩ := log_changes [step] distinct sound
    have first := Step.tended (whole step List.mem_cons_self) distinct tended
    exact ih (fun x hx => whole x (List.mem_cons_of_mem step hx)) distinct' sound' first

/-- **No VM waits in vain.** In any use of a fleet that begins with an empty store, with workers
dying after any operation, where every sweep is carried through: a pending VM has a create task of
its own that a worker is on, or that waits and may be attempted once more. The store in the midst of
a run is the one that a worker leaves which dies there. -/
theorem pending_attended (whole : ∀ step ∈ steps, step.cutsSweep = false) :
    ∀ vm ∈ (after .empty steps).vms, vm.status = .pending →
      ∃ row ∈ (after .empty steps).tasks, row.kind = .create ∧ row.vmKey = vm.key ∧
        (row.status = .running ∨ row.status = .pending ∧ row.attempts < row.maxAttempts) := by
  intro vm hvm pending
  have tended := tended_after whole Store.empty_vmsDistinct Store.empty_slotsSound .empty
  obtain ⟨⟨distinct, -⟩, -⟩ := log_changes steps Store.empty_vmsDistinct Store.empty_slotsSound
  obtain ⟨row, hrow, kind, own, waiting | running⟩ :=
    tended.attended vm.key ⟨vm, distinct.vm?_of_mem hvm, pending⟩
  · exact ⟨row, hrow, kind, own, .inr ⟨waiting, tended.left row hrow waiting⟩⟩
  · exact ⟨row, hrow, kind, own, .inl running⟩

/-- The create of a first VM is to be tried again. On those of two more, workers die, and after the
first of them a sweep comes by. -/
def waitingUse : List Step :=
  let work := plainWorker (.ofSeconds 300)
  let unreachable : Provisioner :=
    ⟨fun _ _ _ => (some .zero, .answered (.error (.unreachable "no route")))⟩
  [.request (.createPool "default" "10.0.0.0/30" "10.0.0.1" none) ⟨1, 0⟩,
    .request (.createVm 3 ["srv-1"] "task-1" { name := "a", owner := "alice" } {}) ⟨2, 0⟩,
    .work work unreachable ⟨3, 0⟩,
    .request (.createVm 3 ["srv-2"] "task-2" { name := "b", owner := "alice" } {}) ⟨4, 0⟩,
    .death work unreachable ⟨5, 0⟩ 1,
    .work (.sweep .zero) unreachable ⟨6, 0⟩,
    .request (.createVm 3 ["srv-3"] "task-3" { name := "c", owner := "alice" } {}) ⟨7, 0⟩,
    .death work unreachable ⟨8, 0⟩ 1]

/-- There the first VM and the last wait, and for each there is a row of a create task. -/
theorem waitingUse_attended :
    (∀ step ∈ waitingUse, step.cutsSweep = false) ∧
    (after .empty waitingUse).vms.map (fun vm => (vm.key, vm.status)) =
      [(1, .pending), (2, .error), (3, .pending)] ∧
    ∀ vm ∈ (after .empty waitingUse).vms, vm.status = .pending →
      ∃ row ∈ (after .empty waitingUse).tasks, row.kind = .create ∧ row.vmKey = vm.key ∧
        (row.status = .running ∨ row.status = .pending ∧ row.attempts < row.maxAttempts) := by
  have whole : ∀ step ∈ waitingUse, step.cutsSweep = false := by decide
  have statuses : (after .empty waitingUse).vms.map (fun vm => (vm.key, vm.status)) =
      [(1, .pending), (2, .error), (3, .pending)] := by
    decide +kernel
  exact ⟨whole, statuses, pending_attended whole⟩

/-- Were the sweep cut short before it recovers the task it has failed, the second VM would be
stranded. -/
example :
    let cut := waitingUse.take 5 ++
      [.death (.sweep .zero) ⟨fun _ _ _ => (none, .broken "")⟩ ⟨6, 0⟩ 3]
    (after .empty cut).vms.map (·.status) = [.pending, .pending] ∧
      (after .empty cut).tasks.map (·.status) = [.pending, .failed] := by
  decide +kernel

end Fleet

end VmFleet
