/-
The task table where any number of workers and janitors are at work: what
becomes of a task that has ended, and which tasks have a time of their end. A
worker may have in hand what a janitor has failed as abandoned; it records the
end of its run all the same, and so may put a failed task back into the queue.
-/
import VmFleet.Proofs.Crew

namespace VmFleet

namespace TaskStatus

/-- The task is over. -/
def Final (status : TaskStatus) : Prop :=
  status = .completed ∨ status = .failed

theorem pending_not_final : ¬ pending.Final := by
  simp [Final]

theorem running_not_final : ¬ running.Final := by
  simp [Final]

end TaskStatus

namespace Crew

/-- The member has claimed the task and not recorded how it ended. -/
def HoldsTask (earlier : List Entry) (member : Nat) (id : String) : Prop :=
  ∃ task, inHand (own member earlier) = some task ∧ task.id = id

namespace Entry

def Claims (entry : Entry) (id : String) : Prop :=
  ∃ member act task, entry = .operation member act ∧ act.deed = .claim (some task) ∧ task.id = id

/-- A janitor fails the task, which a worker was to be on. -/
def Abandons (entry : Entry) (id : String) : Prop :=
  ∃ member act row row', entry = .operation member act ∧ act.deed = .failAbandoned ∧
    act.before.taskRow? id = some row ∧ row.status = .running ∧
    act.after.taskRow? id = some row' ∧ row'.status = .failed

/-- A worker records with the status a task that it has in hand, though a janitor has failed it. -/
def RecordsLate (entry : Entry) (earlier : List Entry) (id : String) (status : TaskStatus) : Prop :=
  ∃ member act, entry = .operation member act ∧ act.deed = .record id status ∧
    HoldsTask earlier member id ∧ ∃ other ∈ earlier, other.Abandons id

end Entry

/-- A failed task has been put back into the queue. -/
def PutBack (entries : List Entry) (id : String) : Prop :=
  ∃ earlier entry later, entries = earlier ++ entry :: later ∧
    entry.RecordsLate earlier id .pending

/-- The task table and what workers have in hand agree. -/
structure Orderly (earlier : List Entry) : Prop where
  vms : (state earlier).VmsDistinct
  distinct : (state earlier).TasksDistinct
  held : ∀ member id, HoldsTask earlier member id → ∃ row, (state earlier).taskRow? id = some row ∧
    (row.status = .running ∨ row.status = .failed ∧ ∃ other ∈ earlier, other.Abandons id)
  sole : ∀ member other id, HoldsTask earlier member id → HoldsTask earlier other id →
    member = other
  stamped : ∀ id row, (state earlier).taskRow? id = some row →
    (row.status.Final → row.completedAt.isSome) ∧
    (row.completedAt.isSome → row.status.Final ∨ PutBack earlier id)

variable {earlier later : List Entry} {entry : Entry} {id : String} {row row' : TaskRow}
  {member : Nat}

theorem PutBack.concat (h : PutBack earlier id) (entry : Entry) :
    PutBack (earlier ++ [entry]) id := by
  obtain ⟨before, late, after, rfl, records⟩ := h
  exact ⟨before, late, after ++ [entry], by simp, records⟩

/-! ## One operation -/

theorem Follows.tasksDistinct (h : Follows earlier entry) (orderly : Orderly earlier) :
    entry.event.after.TasksDistinct := by
  cases h with
  | request request now =>
    rcases (request.answers now orderly.vms).tasks with same | ⟨row, queued, same⟩
    · exact orderly.distinct.map (f := id) (by rw [List.map_id]; exact same) fun _ => rfl
    · have grown := orderly.distinct.append queued.fresh
      simpa only [Store.TasksDistinct, Entry.event, same] using grown
  | @operation member act before possible asks =>
    obtain ⟨_, op, answer, deed, effect⟩ := possible
    rw [before] at effect
    obtain ⟨f, rows, ids, -⟩ := effect.tasks_map orderly.distinct
    exact orderly.distinct.map rows ids

theorem Follows.taskRow?_kept (h : Follows earlier entry) (orderly : Orderly earlier)
    (found : (state earlier).taskRow? id = some row) :
    ∃ row', entry.event.after.taskRow? id = some row' ∧ (row' = row ∨
      ∃ member act deed, entry = .operation member act ∧ act.deed = deed ∧ deed.Treats row row' ∧
        Asks (own member earlier) act) := by
  cases h with
  | request request now =>
    refine ⟨row, ?_, .inl rfl⟩
    rcases (request.answers now orderly.vms).tasks with same | ⟨new, queued, same⟩
    · simpa only [Store.taskRow?, Entry.event, same] using found
    · have other : id ≠ new.id := by
        rintro rfl
        cases queued.fresh.symm.trans found
      have grown := Store.taskRow?_append queued.fresh id
      simpa only [Store.taskRow?, Entry.event, same] using grown.trans ((if_neg other).trans found)
  | @operation member act before possible asks =>
    obtain ⟨_, op, answer, deed, effect⟩ := possible
    rw [before] at effect
    obtain ⟨f, rows, ids, treats⟩ := effect.tasks_map orderly.distinct
    obtain ⟨hrow, rfl⟩ := Store.taskRow?_mem found
    refine ⟨f row, ?_, .inr ⟨member, act, _, rfl, deed, treats row hrow, asks⟩⟩
    show act.after.taskRow? row.id = _
    rw [Store.taskRow?_map rows ids, found, Option.map_some]

/-- A row that was not there waits, and its task has not ended and has an attempt left. -/
theorem Follows.taskRow?_new (h : Follows earlier entry) (orderly : Orderly earlier)
    (unused : (state earlier).taskRow? id = none)
    (found : entry.event.after.taskRow? id = some row) :
    row.status = .pending ∧ row.completedAt = none ∧ row.attempts < row.maxAttempts := by
  cases h with
  | request request now =>
    rcases (request.answers now orderly.vms).tasks with same | ⟨new, queued, same⟩
    · have still : (state earlier).taskRow? id = some row := by
        simpa only [Store.taskRow?, Entry.event, same] using found
      cases unused.symm.trans still
    · have grown := Store.taskRow?_append queued.fresh id
      rw [unused] at grown
      have there : (if id = new.id then some new else none) = some row := by
        rw [← grown]
        simpa only [Store.taskRow?, Entry.event, same] using found
      split at there
      · cases there
        exact ⟨queued.waits, queued.unended, queued.left⟩
      · cases there
  | @operation member act before possible asks =>
    obtain ⟨_, op, answer, -, effect⟩ := possible
    rw [before] at effect
    obtain ⟨f, rows, ids, -⟩ := effect.tasks_map orderly.distinct
    have still := (Store.taskRow?_map rows ids id).symm.trans found
    rw [unused] at still
    cases still

/-- A claim meets a waiting row and leaves it worked on. -/
theorem Follows.claims (h : Follows earlier entry) (orderly : Orderly earlier)
    (claims : entry.Claims id) :
    ∃ row now, (state earlier).taskRow? id = some row ∧ row.status = .pending ∧
      entry.event.after.taskRow? id = some (Store.claimed row now) := by
  obtain ⟨member, act, task, rfl, deed, rfl⟩ := claims
  cases h with
  | operation before possible asks =>
    obtain ⟨_, op, answer, same, effect⟩ := possible
    rw [before] at effect
    obtain ⟨row, hrow, pending, id, -, -, now, after⟩ := effect.claimed (same.symm.trans deed)
    have found := orderly.distinct.taskRow?_of_mem hrow
    have there : act.after.taskRow? row.id = some (Store.claimed row now) := by
      have ids : ∀ row, (Store.claimed row now).id = row.id := fun _ => rfl
      rw [after, Store.taskRow?_setTask ids, found, Option.map_some]
    exact ⟨row, now, id ▸ found, pending, id ▸ there⟩

theorem inHand_cases {task : Task} (h : inHand (own member (earlier ++ [entry])) = some task) :
    (inHand (own member earlier) = some task ∧
      ∀ act id status, entry = .operation member act → act.deed ≠ .record id status) ∨
    ∃ act, entry = .operation member act ∧ act.deed = .claim (some task) := by
  cases entry with
  | request before after =>
    rw [own_concat_request] at h
    exact .inl ⟨h, fun act id status eq => by cases eq⟩
  | operation other act =>
    rw [own_concat_operation] at h
    by_cases mine : other = member
    · subst mine
      rw [if_pos rfl, inHand_concat, Act.hand] at h
      split at h
      · next claimed deed =>
        rw [h] at deed
        exact .inr ⟨act, rfl, deed⟩
      · cases h
      · next none =>
        refine .inl ⟨h, fun act' id status eq records => ?_⟩
        cases eq
        exact none _ _ records
    · rw [if_neg mine, List.append_nil] at h
      refine .inl ⟨h, fun act' id status eq => ?_⟩
      cases eq
      exact absurd rfl mine

theorem HoldsTask.cases (h : HoldsTask (earlier ++ [entry]) member id) :
    (HoldsTask earlier member id ∧
      ∀ act status, entry = .operation member act → act.deed ≠ .record id status) ∨
    entry.Claims id ∧ ∃ act, entry = .operation member act := by
  obtain ⟨task, hand, same⟩ := h
  rcases inHand_cases hand with ⟨before, silent⟩ | ⟨act, rfl, deed⟩
  · exact .inl ⟨⟨task, before, same⟩, fun act status => silent act id status⟩
  · exact .inr ⟨⟨member, act, task, rfl, deed, same⟩, act, rfl⟩

/-! ## Any number of operations -/

namespace Orderly

/-- The task of a row that is treated by a record is in the hand of the member that records. -/
theorem recorder {act : Act} {status : TaskStatus} (asks : Asks (own member earlier) act)
    (deed : act.deed = .record id status) : HoldsTask earlier member id := by
  simp only [Asks, deed] at asks
  exact asks

theorem unheld_of_claims (h : Orderly earlier) (follows : Follows earlier entry)
    (claims : entry.Claims id) : ¬ HoldsTask earlier member id := by
  intro holds
  obtain ⟨row, found, status⟩ := h.held member id holds
  obtain ⟨_, _, found', pending, -⟩ := follows.claims h claims
  cases found.symm.trans found'
  rw [pending] at status
  rcases status with running | ⟨failed, -⟩
  · cases running
  · cases failed

theorem held_concat (h : Orderly earlier) (follows : Follows earlier entry)
    (holds : HoldsTask (earlier ++ [entry]) member id) :
    ∃ row, entry.event.after.taskRow? id = some row ∧ (row.status = .running ∨
      row.status = .failed ∧ ∃ other ∈ earlier ++ [entry], other.Abandons id) := by
  rcases holds.cases with ⟨before, silent⟩ | ⟨claims, -⟩
  · obtain ⟨row, found, status⟩ := h.held member id before
    obtain ⟨row', there, same | ⟨other, act, deed, rfl, isDeed, treats, asks⟩⟩ :=
      follows.taskRow?_kept h found
    · refine ⟨row', there, ?_⟩
      rw [same]
      exact status.imp_right fun ⟨failed, x, hx, abandons⟩ =>
        ⟨failed, x, List.mem_append_left _ hx, abandons⟩
    · obtain ⟨-, rfl⟩ := Store.taskRow?_mem found
      -- Only the member itself could record the task.
      have mine : ∀ status, act.deed ≠ .record row.id status := by
        intro status records
        cases h.sole _ _ _ before (recorder asks records)
        exact silent act status rfl records
      cases treats with
      | same =>
        exact ⟨row, there, status.imp_right fun ⟨failed, x, hx, abandons⟩ =>
          ⟨failed, x, List.mem_append_left _ hx, abandons⟩⟩
      | claimed same _ =>
        exact absurd before (h.unheld_of_claims follows ⟨other, act, _, rfl, isDeed, same⟩)
      | ended => exact absurd isDeed (mine _)
      | requeued => exact absurd isDeed (mine _)
      | abandoned running =>
        refine ⟨_, there, .inr ⟨rfl, _, List.mem_append_right _ List.mem_cons_self, ?_⟩⟩
        have found : act.before.taskRow? row.id = some row := by
          rwa [show act.before = state earlier from follows.before_eq]
        exact ⟨other, act, row, _, rfl, isDeed, found, running, there, rfl⟩
  · obtain ⟨_, _, -, -, there⟩ := follows.claims h claims
    exact ⟨_, there, .inl rfl⟩

theorem sole_concat (h : Orderly earlier) (follows : Follows earlier entry) {other : Nat}
    (mine : HoldsTask (earlier ++ [entry]) member id)
    (others : HoldsTask (earlier ++ [entry]) other id) : member = other := by
  rcases mine.cases with ⟨mine, -⟩ | ⟨claims, act, rfl⟩
  · rcases others.cases with ⟨others, -⟩ | ⟨claims, -⟩
    · exact h.sole member other id mine others
    · exact absurd mine (h.unheld_of_claims follows claims)
  · rcases others.cases with ⟨others, -⟩ | ⟨-, act', same⟩
    · exact absurd others (h.unheld_of_claims follows claims)
    · cases same
      rfl

/-- A final row may be changed only by the worker that has its task in hand, and then the task was
failed as abandoned. -/
theorem records_late (h : Orderly earlier) {act : Act} {status : TaskStatus}
    (found : (state earlier).taskRow? id = some row) (final : row.status.Final)
    (asks : Asks (own member earlier) act) (deed : act.deed = .record id status) :
    row.status = .failed ∧ (Entry.operation member act).RecordsLate earlier id status := by
  have holds := recorder asks deed
  obtain ⟨row', found', running | ⟨failed, abandoned⟩⟩ := h.held member id holds
  · cases found.symm.trans found'
    exact absurd (running ▸ final) TaskStatus.running_not_final
  · cases found.symm.trans found'
    exact ⟨failed, member, act, rfl, deed, holds, abandoned⟩

/-- What becomes of a task that has ended: it is not claimed, and its status and the time of its end
stay unless its worker records it late. -/
theorem final_kept (h : Orderly earlier) (follows : Follows earlier entry)
    (found : (state earlier).taskRow? id = some row) (final : row.status.Final) :
    ¬ entry.Claims id ∧ ∃ row', entry.event.after.taskRow? id = some row' ∧
      (row'.status = row.status ∧ row'.completedAt = row.completedAt ∨
        row.status = .failed ∧ entry.RecordsLate earlier id row'.status) := by
  refine ⟨fun claims => ?_, ?_⟩
  · obtain ⟨_, _, found', pending, -⟩ := follows.claims h claims
    cases found.symm.trans found'
    exact TaskStatus.pending_not_final (pending ▸ final)
  · obtain ⟨row', there, rfl | ⟨member, act, deed, rfl, isDeed, treats, asks⟩⟩ :=
      follows.taskRow?_kept h found
    · exact ⟨row', there, .inl ⟨rfl, rfl⟩⟩
    · refine ⟨row', there, ?_⟩
      obtain ⟨-, rfl⟩ := Store.taskRow?_mem found
      cases treats with
      | same => exact .inl ⟨rfl, rfl⟩
      | claimed _ pending => exact absurd (pending ▸ final) TaskStatus.pending_not_final
      | ended => exact .inr (h.records_late found final asks isDeed)
      | requeued => exact .inr (h.records_late found final asks isDeed)
      | abandoned running => exact absurd (running ▸ final) TaskStatus.running_not_final

theorem stamped_concat (h : Orderly earlier) (follows : Follows earlier entry)
    (there : entry.event.after.taskRow? id = some row') :
    (row'.status.Final → row'.completedAt.isSome) ∧
      (row'.completedAt.isSome → row'.status.Final ∨ PutBack (earlier ++ [entry]) id) := by
  cases found : (state earlier).taskRow? id with
  | none =>
    obtain ⟨pending, unended, -⟩ := follows.taskRow?_new h found there
    rw [pending, unended]
    exact ⟨fun final => absurd final TaskStatus.pending_not_final, fun stamped => by cases stamped⟩
  | some row =>
    obtain ⟨stamp, ended⟩ := h.stamped id row found
    have kept : row.completedAt.isSome → row.status.Final ∨ PutBack (earlier ++ [entry]) id :=
      fun stamped => (ended stamped).imp_right (·.concat entry)
    obtain ⟨row'', there', change⟩ := follows.taskRow?_kept h found
    cases there.symm.trans there'
    obtain ⟨-, rfl⟩ := Store.taskRow?_mem found
    rcases change with rfl | ⟨member, act, deed, rfl, isDeed, treats, asks⟩
    · exact ⟨stamp, kept⟩
    · cases treats with
      | same => exact ⟨stamp, kept⟩
      | claimed _ pending =>
        refine ⟨fun final => absurd final TaskStatus.running_not_final, fun stamped => ?_⟩
        rcases kept stamped with final | back
        · exact absurd (pending ▸ final) TaskStatus.pending_not_final
        · exact .inr back
      | ended final => exact ⟨fun _ => rfl, fun _ => .inl final⟩
      | requeued =>
        refine ⟨fun final => absurd final TaskStatus.pending_not_final, fun stamped => .inr ?_⟩
        rcases kept stamped with final | back
        · exact ⟨earlier, _, [], rfl, (h.records_late found final asks isDeed).2⟩
        · exact back
      | abandoned => exact ⟨fun _ => rfl, fun _ => .inl (.inr rfl)⟩

theorem concat (h : Orderly earlier) (follows : Follows earlier entry) :
    Orderly (earlier ++ [entry]) where
  vms := by
    rw [state_concat]
    exact follows.vmsDistinct h.vms
  distinct := by
    rw [state_concat]
    exact follows.tasksDistinct h
  held member id holds := by
    rw [state_concat]
    exact h.held_concat follows holds
  sole member other id := h.sole_concat follows
  stamped id row found := by
    rw [state_concat] at found
    exact h.stamped_concat follows found

theorem empty : Orderly [] where
  vms := Store.empty_vmsDistinct
  distinct := Store.empty_tasksDistinct
  held member id := fun ⟨task, hand, _⟩ => by cases hand
  sole member other id := fun ⟨task, hand, _⟩ => by cases hand
  stamped id row found := by cases found

end Orderly

theorem work_orderly {jobs : List Fleet.Job} {turns : List Turn}
    (split : work jobs turns = earlier ++ later) : Orderly earlier :=
  work_invariant Orderly.empty (fun _ _ follows orderly => orderly.concat follows) split

/-- A task that has ended and is in no hand stays as it is. -/
theorem stands_later {jobs : List Fleet.Job} {turns : List Turn}
    (split : work jobs turns = earlier ++ later)
    (found : (state earlier).taskRow? id = some row) (final : row.status.Final)
    (unheld : ∀ member, ¬ HoldsTask earlier member id) :
    ∀ entry ∈ later, ¬ entry.Claims id ∧ ∃ row', entry.event.after.taskRow? id = some row' ∧
      row'.status = row.status ∧ row'.completedAt = row.completedAt := by
  induction later generalizing earlier row with
  | nil => exact fun entry he => absurd he List.not_mem_nil
  | cons entry later ih =>
    have orderly := work_orderly split
    have follows := work_follows split
    obtain ⟨unclaimed, row', there, kept | ⟨-, member, act, -, -, holds, -⟩⟩ :=
      orderly.final_kept follows found final
    · have still : ∀ member, ¬ HoldsTask (earlier ++ [entry]) member id := by
        intro member holds
        rcases holds.cases with ⟨before, -⟩ | ⟨claims, -⟩
        · exact unheld member before
        · exact unclaimed claims
      have split' : work jobs turns = (earlier ++ [entry]) ++ later := by simpa using split
      have there' : (state (earlier ++ [entry])).taskRow? id = some row' := by rwa [state_concat]
      have rest := ih split' there' (by rwa [kept.1]) still
      rw [kept.1, kept.2] at rest
      exact List.forall_mem_cons.mpr ⟨⟨unclaimed, row', there, kept⟩, rest⟩
    · exact absurd holds (unheld member)

/-- **Outcomes of tasks.** Whatever any number of workers and janitors do to an empty store and in
what order, and whatever clients ask for. A task that is completed or failed is not claimed while it
is so, and an operation leaves its status and the time of its end, unless it is failed, a janitor
had failed it as abandoned and the one worker that still had it in hand now records it. Once nobody
has it in hand, its status and the time of its end stay for good and it is never claimed. A task
that is completed or failed has a time of its end; another has one only if it was failed as
abandoned and then put back into the queue by its worker. -/
theorem outcomes_stand (jobs : List Fleet.Job) (turns : List Turn) :
    (∀ earlier entry later id row, work jobs turns = earlier ++ entry :: later →
      (state earlier).taskRow? id = some row → row.status.Final →
      ¬ entry.Claims id ∧ ∃ row', entry.event.after.taskRow? id = some row' ∧
        (row'.status = row.status ∧ row'.completedAt = row.completedAt ∨
          row.status = .failed ∧ entry.RecordsLate earlier id row'.status)) ∧
    (∀ earlier later id row, work jobs turns = earlier ++ later →
      (state earlier).taskRow? id = some row → row.status.Final →
      (∀ member, ¬ HoldsTask earlier member id) →
      ∀ entry ∈ later, ¬ entry.Claims id ∧ ∃ row', entry.event.after.taskRow? id = some row' ∧
        row'.status = row.status ∧ row'.completedAt = row.completedAt) ∧
    (∀ earlier later id, work jobs turns = earlier ++ later →
      (∀ member other, HoldsTask earlier member id → HoldsTask earlier other id →
        member = other) ∧
      ∀ row, (state earlier).taskRow? id = some row →
        (row.status.Final → row.completedAt.isSome) ∧
        (row.completedAt.isSome → row.status.Final ∨ PutBack earlier id)) := by
  refine ⟨fun earlier entry later id row split found final => ?_,
    fun earlier later id row split found final unheld => ?_, fun earlier later id split => ?_⟩
  · exact (work_orderly split).final_kept (work_follows split) found final
  · exact stands_later split found final unheld
  · have orderly := work_orderly split
    exact ⟨fun member other => orderly.sole member other id, orderly.stamped id⟩

/-! ## A record that comes too late -/

/-- Two workers and a janitor. -/
def abandonedCrew : List Fleet.Job :=
  let worker := Fleet.plainWorker (.ofSeconds 300)
  [worker, .sweep .zero, worker]

/-- While the tool is called to create a VM, a janitor fails the task as abandoned. -/
def sweptCreate : List Turn :=
  [.request (.createPool "default" "10.0.0.0/30" "10.0.0.1" none) ⟨1, 0⟩,
    .request (.createVm 3 ["srv-1"] "task-1" { name := "a", owner := "alice" } {}) ⟨2, 0⟩] ++
  List.replicate 7 (.operation 0 lostTool ⟨3, 0⟩) ++
  List.replicate 7 (.operation 1 lostTool ⟨4, 0⟩)

/-- The worker settles the VM and records that the task is to be tried again. -/
def lateRetry : List Turn :=
  List.replicate 5 (.operation 0 lostTool ⟨5, 0⟩)

/-- So the failed task waits again, with the time of its end, and is claimed once more. -/
theorem failed_task_runs_again :
    let row (turns : List Turn) := ((state (work abandonedCrew turns)).taskRow? "task-1").map
      fun row => (row.status, row.attempts, row.completedAt.isSome)
    row sweptCreate = some (.failed, 1, true) ∧
    row (sweptCreate ++ lateRetry) = some (.pending, 1, true) ∧
    row (sweptCreate ++ lateRetry ++ [.operation 2 lostTool ⟨1000, 0⟩]) =
      some (.running, 2, true) := by
  decide +kernel

end Crew

end VmFleet
