/-
What a worker reports of a run. The report, the row of the task and the record of
the VM tell one story: the task did not apply, is done, is to be tried again or has
failed, and a delete is always done unless it was aborted. The story has one gap: of
a task that is put off beyond year 9999 the row is not read back, and beyond the
calendar the worker breaks down with the task still running.
-/
import VmFleet.Proofs.Creating
import VmFleet.Proofs.Delays
import VmFleet.Proofs.TimeLimits

namespace VmFleet

theorem VmPatch.withError_errorMessage (why : String) (drop : Bool) (old : Option String) :
    ((VmPatch.withError why).droppingAddress drop).errorMessage.apply old = some why := by
  cases drop <;> rfl

namespace TaskKind

variable {kind : TaskKind}

/-- But for a delete, a task puts its VM back into the status that it starts from. -/
theorem eq_revert {status : VmStatus} (source : status ∈ kind.sources) (delete : kind ≠ .delete) :
    status = kind.revert := by
  revert status
  cases kind <;> first | contradiction | decide

end TaskKind

namespace World

variable {w w' w'' : World}

/-- The last of the calls made since then was cut short. -/
def CutShort (w w' : World) : Prop :=
  ∃ calls cut, w'.calls = w.calls ++ (calls ++ [cut]) ∧ cut.answer = none

theorem CutShort.since (h : w'.CutShort w'') (more : w.calls <+: w'.calls) :
    w.CutShort w'' := by
  obtain ⟨before, more⟩ := more
  obtain ⟨calls, cut, made, unanswered⟩ := h
  exact ⟨before ++ calls, cut, by rw [made, ← more]; simp only [List.append_assoc], unanswered⟩

theorem CutShort.of_calls (h : w.CutShort w') (same : w''.calls = w'.calls) : w.CutShort w'' := by
  obtain ⟨calls, cut, made, unanswered⟩ := h
  exact ⟨calls, cut, same.trans made, unanswered⟩

theorem calls_prefix_perform {β : Type} (tool : Tool) (op : Operation β) (w : World) :
    w.calls <+: (w.perform tool op).2.calls := by
  cases op
  case call c abortAt => exact List.prefix_append _ _
  case now | findVm | vmsIn | removeVm | release => exact List.prefix_rfl
  all_goals exact ⟨[], (List.append_nil _).trans (w.commit_frame _).2.1.symm⟩

/-- A call without an answer is on record as cut short. -/
theorem cutShort_of_call {tool : Tool} {c : Call} {abortAt : Option Instant}
    (unanswered : (w.call tool c abortAt).1 = none) : w.CutShort (w.call tool c abortAt).2 :=
  ⟨[], ⟨c, w.now, _⟩, rfl, unanswered⟩

end World

theorem Program.year_le_run {α : Type} (program : Program α) (tool : Tool) (w : World) :
    w.now.date.year ≤ (program.run tool w).2.now.date.year :=
  Instant.date_year_mono (Instant.second_le (Program.now_le_run program tool w))

/-- A program that is aborted at its time limit is aborted at a call. -/
theorem Program.cutShort_of_within {α : Type} {program : Program α} {limit : Instant} {tool : Tool}
    {w w' : World} (run : (program.within limit).run tool w = (.finished none, w')) :
    w.CutShort w' := by
  induction program generalizing w with
  | pure a => cases run
  | crash why => cases run
  | ask op next ih =>
    have more := World.calls_prefix_perform tool op w
    cases op
    case call c abortAt =>
      rw [within, run_ask] at run
      have more := World.calls_prefix_perform tool (.call c (some limit)) w
      cases answer : (w.perform tool (.call c (some limit))).1 with
      | none =>
        rw [answer] at run
        obtain ⟨-, rfl⟩ := Prod.mk.inj run
        exact World.cutShort_of_call answer
      | some r =>
        rw [answer] at run
        exact (ih _ run).since more
    all_goals exact (ih _ run).since more

namespace Store

variable {s : Store} {id other : String} {f : TaskRow → TaskRow}

/-- A change of the row of one task is not seen under another id. -/
theorem taskRow?_setTask_of_ne (ids : ∀ row, (f row).id = row.id) (ne : other ≠ id) :
    (s.setTask id f).taskRow? other = s.taskRow? other := by
  have rows : (s.setTask id f).tasks =
      s.tasks.map fun row => if row.id == id then f row else row := rfl
  rw [taskRow?_map rows fun row => by split <;> simp [ids]]
  cases found : s.taskRow? other with
  | none => rfl
  | some row =>
    obtain ⟨-, rfl⟩ := taskRow?_mem found
    rw [Option.map_some, if_neg (by simpa using ne)]

/-- A worker that has claimed a task finds its row running, readable and at its first attempt or a
later one. Other rows are as they were. -/
theorem claimNext_begun {now : Instant} {task : Task} {claimed : Store} (distinct : s.TasksDistinct)
    (claim : s.claimNext now = .ok (some task, claimed)) :
    (∃ row, claimed.taskRow? task.id = some row ∧ row.status = .running ∧ row.Readable) ∧
      1 ≤ task.attempts ∧ 0 ≤ now.date.year ∧ claimed = { s with tasks := claimed.tasks } ∧
      ∀ id, id ≠ task.id → claimed.taskRow? id = s.taskRow? id := by
  obtain ⟨row, found, running, readable⟩ := claimNext_row distinct claim
  refine ⟨⟨row, found, running, TaskRow.readable_iff.mpr ⟨task, readable⟩⟩, ?_⟩
  rcases claimNext_cases claim with ⟨none, -⟩ | ⟨row, _, -, -, some, read, rfl⟩
  · cases none
  cases some
  have ids : ∀ row : TaskRow, (Store.claimed row (.of now)).id = row.id := fun _ => rfl
  have id : task.id = row.id := (TaskRow.task_ok read).1
  have started := (TaskRow.readable_iff.mpr ⟨task, read⟩).startedAt _ rfl
  refine ⟨?_, (Stamp.year_of_instant? started).1, rfl, fun other ne =>
    taskRow?_setTask_of_ne ids (id ▸ ne)⟩
  obtain ⟨_, _, _, _, rfl⟩ := TaskRow.task_eq read
  exact Nat.le_add_left 1 row.attempts

end Store

namespace Lifecycle

variable {settings : Settings} {attempt : Attempt} {task : Task} {p : Provisioner} {tool : Tool}
  {w w' : World} {s s' : Store} {vm : Vm} {outcome : Outcome} {why : String}

/-! ## What an outcome says of the VM -/

/-- Why a task does not apply: its VM is missing, or in a status that the kind does not start
from. -/
def Unfit (task : Task) (s : Store) (e : Error) : Prop :=
  (s.vm? task.vmKey = none ∧ e = .vmNotFound (keyText task.vmKey)) ∨
    ∃ old, s.vm? task.vmKey = some old ∧ old.status ∉ task.kind.sources ∧
      e = .invalidTransition old.id old.status task.kind.via

theorem Unfit.not_fit {e : Error} (h : Unfit task s e) :
    ¬ ∃ old, s.vm? task.vmKey = some old ∧ old.status ∈ task.kind.sources := by
  rintro ⟨old, found, source⟩
  rcases h with ⟨gone, -⟩ | ⟨old', found', out, -⟩
  · cases found.symm.trans gone
  · cases found.symm.trans found'
    exact out source

/-- The VM is gone after a delete and holds no address; after any other task it is settled and shows
no error. -/
structure Served (task : Task) (s s' : Store) : Prop where
  fit : ∃ old, s.vm? task.vmKey = some old ∧ old.status ∈ task.kind.sources
  gone : task.kind = .delete → s'.vm? task.vmKey = none ∧
    ∀ old, s.vm? task.vmKey = some old → s'.activeSlot? old.id = none
  settled : task.kind ≠ .delete → ∃ vm, s'.vm? task.vmKey = some vm ∧ vm.errorMessage = none ∧
    vm.status = if task.kind = .stop then .stopped else .running

/-- The VM is as it was, but for the error and the time of the change, and a VM that was to be
created shows no address. -/
def PutBack (task : Task) (s s' : Store) (why : String) : Prop :=
  ∃ old now, s.vm? task.vmKey = some old ∧ s'.vm? task.vmKey = some { old with
    errorMessage := some why
    updatedAt := now
    address := if task.kind = .create then none else old.address }

/-- A passing failure of a task that has an attempt left. -/
structure Retried (task : Task) (s s' : Store) (why : String) : Prop where
  cause : ∃ e : Error, e.isTransient = true ∧ why = e.message
  left : task.attempts < task.maxAttempts
  kind : task.kind ≠ .delete
  back : PutBack task s s' why

/-- What the outcome says of the VM, from the store on which the task was begun to the store it
left. -/
def Treated (task : Task) (s s' : Store) : Outcome → Prop
  | .skipped why => (∃ e, Unfit task s e ∧ why = e.message) ∧ s' = { s with tasks := s'.tasks }
  | .done => Served task s s'
  | .retry why => Retried task s s' why
  | .failed why =>
    ∃ vm, s'.vm? task.vmKey = some vm ∧ vm.status = .error ∧ vm.errorMessage = some why

/-- What is written to the rows of tasks changes nothing of this. -/
theorem Treated.congr {t t' : Store} (h : Treated task s s' outcome)
    (before : s = { t with tasks := s.tasks }) (after : t' = { s' with tasks := t'.tasks }) :
    Treated task t t' outcome := by
  have vms : ∀ key, t.vm? key = s.vm? key := fun key => by rw [before]; rfl
  have vms' : ∀ key, t'.vm? key = s'.vm? key := fun key => by rw [after]; rfl
  have slots' : ∀ id, t'.activeSlot? id = s'.activeSlot? id := fun id => by rw [after]; rfl
  cases outcome with
  | skipped why =>
    obtain ⟨⟨e, unfit, why⟩, same⟩ := h
    refine ⟨⟨e, ?_, why⟩, ?_⟩
    · simpa only [Unfit, vms] using unfit
    · rw [after, same, before]
  | done =>
    refine ⟨?_, ?_, ?_⟩
    · simpa only [vms] using h.fit
    · simpa only [vms, vms', slots'] using h.gone
    · simpa only [vms'] using h.settled
  | retry why =>
    refine ⟨h.cause, h.left, h.kind, ?_⟩
    simpa only [PutBack, vms, vms'] using h.back
  | failed why => simpa only [Treated, vms'] using h

theorem moved_back {old : Vm} (undo : old.status = task.kind.revert) (now later : Instant) :
    (old.moved task.kind.via .clearError now).moved task.kind.revert
        (failurePatch (old.moved task.kind.via .clearError now) why) later =
      { old with
        errorMessage := some why
        updatedAt := later
        address := if task.kind = .create then none else old.address } := by
  by_cases create : task.kind = .create
  · simp [Vm.moved, failurePatch, VmPatch.withError, VmPatch.clearError, VmPatch.droppingAddress,
      create, undo, TaskKind.via]
  · have other : (task.kind.via == VmStatus.provisioning) = false :=
      beq_eq_false_iff_ne.mpr fun same => create (VmStatus.via_eq_provisioning.mp same)
    simp [Vm.moved, failurePatch, VmPatch.withError, VmPatch.clearError, VmPatch.droppingAddress,
      create, undo, other]

theorem Entered.fit (h : Entered task s vm) :
    ∃ old, s.vm? task.vmKey = some old ∧ old.status ∈ task.kind.sources := by
  obtain ⟨old, _, found, source, -⟩ := h
  exact ⟨old, found, source⟩

/-- A handler's outcome says what it did to the VM. -/
theorem Handled.treated {deadline : Instant} (begun : 1 ≤ task.attempts)
    (h : Handled settings (.of task deadline) task s outcome s') : Treated task s s' outcome := by
  cases h with
  | refused cause => exact ⟨⟨_, cause, rfl⟩, rfl⟩
  | ended ended =>
  cases ended with
  | created report now entered kind allocated =>
    refine ⟨entered.fit, fun delete => ?_,
      fun _ => ⟨_, entered.vm?_moved .running _ now _, rfl, ?_⟩⟩
    · cases kind.symm.trans delete
    · rw [if_neg (by rw [kind]; decide)]
      rfl
  | @removed vm now entered kind =>
    refine ⟨entered.fit, fun _ => ⟨?_, fun old found => ?_⟩, fun other => absurd kind other⟩
    · rw [Store.vm?_removeVm, if_pos entered.key.symm]
    · obtain ⟨old', found', -, id, -⟩ := entered.origin
      cases found.symm.trans found'
      rw [← id]
      exact Store.activeSlot?_release.trans (if_pos rfl)
  | settled now entered create delete =>
    refine ⟨entered.fit, fun kind => absurd kind delete, fun _ =>
      ⟨_, entered.vm?_moved _ _ now _, rfl, ?_⟩⟩
    rw [Vm.moved_status]
    revert create delete
    cases task.kind <;> decide
  | @reverted vm slots e now entered delete undone passing left =>
    have left : ¬ task.maxAttempts ≤ max task.attempts 1 := of_decide_eq_false left
    have isLeft := entered.vm?_moved task.kind.revert (failurePatch vm e.message) now slots
    obtain ⟨old, first, found, source, rfl⟩ := entered
    refine ⟨⟨e, passing, rfl⟩, by omega, delete, old, now, found, ?_⟩
    rw [isLeft, moved_back (TaskKind.eq_revert source delete)]
  | failed now entered delete undone final =>
    exact ⟨_, entered.vm?_moved _ _ now _, rfl, VmPatch.withError_errorMessage _ _ _⟩

/-! ## A handler under its time limit -/

/-- A task that does not apply is skipped, and nothing is done. -/
theorem handle_unfit (settings : Settings) (attempt : Attempt) (tool : Tool) {e : Error}
    (unfit : Unfit task w.store e) :
    (handle settings attempt task).run tool w = (.finished (.skipped e.message), w) := by
  have refused : w.perform tool
      (.transition task.vmKey task.kind.sources task.kind.via .clearError) = (.error e, w) := by
    refine congrArg w.commit (?_ : w.store.transition w.now _ _ _ _ = .error e)
    rcases unfit with ⟨gone, rfl⟩ | ⟨old, found, out, rfl⟩
    · exact Store.transition_of_none gone
    · exact Store.transition_of_not_mem found out
  have enters : (enter task).run tool w = (.finished (.error (.skipped e.message)), w) := by
    rw [enter, Program.run_perform, refused]
    rcases unfit with ⟨-, rfl⟩ | ⟨_, -, -, rfl⟩ <;> rfl
  unfold handle
  split
  · exact Program.run_bind enters
  · exact Program.run_bind enters
  all_goals exact Program.run_bind enters

theorem handle_unfit_within (settings : Settings) (attempt : Attempt) (tool : Tool) {e : Error}
    (unfit : Unfit task w.store e) (limit : Instant) :
    ((handle settings attempt task).within limit).run tool w =
      (.finished (some (.skipped e.message)), w) := by
  have run := handle_unfit settings attempt tool unfit
  refine Program.run_within run ?_
  have calls := Program.calls_run (handle settings attempt task) tool w
  rw [run, List.self_eq_append_right, List.map_eq_nil_iff] at calls
  rw [calls]
  exact fun _ called => absurd called List.not_mem_nil

theorem via_marked {kind : TaskKind} (h : vm.status = kind.via) : marks kind vm = true := by
  have passing : vm.status.isTransient = true := by rw [h]; cases kind <;> decide
  rw [marks, passing, Bool.true_or]

/-- To clean up after an aborted task marks its VM, and leaves the task table alone. -/
theorem recoverAborted_run (tool : Tool) {kind : TaskKind} {key : Int}
    (found : w.store.vm? key = some vm) (marked : marks kind vm = true) (why : String) :
    ∃ now s', (recoverAborted kind key why).run tool w = (.finished (), { w with store := s' }) ∧
      s'.vm? key = some (recovered kind vm why now) ∧ s'.tasks = w.store.tasks := by
  obtain ⟨-, rfl⟩ := Store.vm?_mem found
  have look : w.perform tool (.findVm vm.key) = (some vm, w) := congrArg (·, w) found
  rw [recoverAborted, Program.run_perform, look]
  -- The slots may be released first; the VM is marked either way.
  have mark : ∀ s : Store, s.vm? vm.key = some vm → s.tasks = w.store.tasks →
      ∃ now s', ((if marks kind vm then do
          let _ ← markError vm.key vm.status why (givesBack kind vm)
        else pure () : Program Unit).run tool { w with store := s }) =
          (.finished (), { w with store := s' }) ∧
        s'.vm? vm.key = some (recovered kind vm why now) ∧ s'.tasks = w.store.tasks := by
    intro s found tasks
    rw [if_pos marked]
    have moves := transition_run tool (w := { w with store := s }) found
      (List.mem_cons_self : vm.status ∈ [vm.status]) .error
      ((VmPatch.withError why).droppingAddress (givesBack kind vm))
    refine ⟨w.now.cutToMicros, s.setVm vm.key fun _ => recovered kind vm why w.now.cutToMicros,
      ?_, Store.vm?_setVm_self found rfl, tasks⟩
    show (Program.perform _ >>= _ : Program Unit).run tool { w with store := s } = _
    rw [Program.run_perform, moves]
    rfl
  show ∃ now s', (if givesBack kind vm = true then _ else _ : Program Unit).run tool w = _ ∧ _
  split
  · exact mark (w.store.release w.now vm.id).2 found rfl
  · exact mark w.store found rfl

/-- A delete that a handler came to the end of is done, unless it did not apply. -/
theorem Handled.done_of_delete (h : Handled settings attempt task s outcome s')
    (kind : task.kind = .delete) (fit : ∀ e, ¬ Unfit task s e) : outcome = .done := by
  cases h with
  | refused cause => exact absurd cause (fit _)
  | ended ended =>
  cases ended with
  | removed => rfl
  | created _ _ _ create => cases kind.symm.trans create
  | settled _ _ _ delete | reverted _ _ delete | failed _ _ delete => exact absurd kind delete

/-- Under a time limit a handler comes to its end or is aborted at a call. -/
theorem handle_within_holds (settings : Settings) (attempt : Attempt) (task : Task)
    (limit : Instant) (s : Store) :
    ((handle settings attempt task).within limit).Holds (fun _ => True)
      (fun ended s' => match ended with
        | some outcome => Handled settings attempt task s outcome s'
        | none => Aborted settings task s s') s := by
  refine .within ((handle_holds settings attempt task s).imp (fun e handles => ?_) fun _ _ h => h)
  exact ⟨trivial, handles.aborted⟩

end Lifecycle

namespace Queue

open Lifecycle (Settings Attempt Unfit Treated PutBack)

variable {queue : QueueConfig} {settings : Settings} {jitter : Jitter} {task : Task}
  {p : Provisioner} {w w' : World} {row : TaskRow}

/-- The outcome of a handler's run says what became of the VM. A task that does not apply is skipped
without a call, and a delete that applies is done or aborted. -/
theorem execute_treated (queue : QueueConfig) (settings : Settings) (quiet : w.coming = [])
    (begun : 1 ≤ task.attempts) (deadline abortAt : Instant) :
    ∃ outcome w', (execute queue settings (.of task deadline) abortAt task).run p.tool w =
        (.finished outcome, w') ∧ w'.coming = [] ∧ w'.store.tasks = w.store.tasks ∧
      Treated task w.store w'.store outcome ∧
      ((∃ e, Unfit task w.store e) → w'.calls = w.calls) ∧
      (task.kind = .delete → (∀ e, ¬ Unfit task w.store e) →
        outcome = .done ∨ outcome = .failed (abortText queue.hardLimit) ∧ w.CutShort w') := by
  by_cases unfit : ∃ e, Unfit task w.store e
  · obtain ⟨e, unfit⟩ := unfit
    have run := Lifecycle.handle_unfit_within settings (.of task deadline) p.tool unfit abortAt
    refine ⟨.skipped e.message, w, ?_, quiet, rfl, ⟨⟨e, unfit, rfl⟩, rfl⟩, fun _ => rfl,
      fun _ fit => absurd unfit (fit e)⟩
    rw [execute, Program.run_bind run]
    rfl
  obtain ⟨ended, w₁, run⟩ := ((Lifecycle.handle_returns settings (.of task deadline) task).within
    abortAt).finished p.tool w
  have quiet₁ : w₁.coming = [] := by
    have still := Program.run_coming (p := p)
      ((Lifecycle.handle settings (.of task deadline) task).within abortAt) quiet
    rwa [run] at still
  have holds := (Lifecycle.handle_within_holds settings (.of task deadline) task abortAt
    w.store).finished quiet run
  cases ended with
  | some outcome =>
    exact ⟨outcome, w₁, Program.run_bind run, quiet₁, holds.tasks, holds.treated begun,
      fun h => absurd h unfit, fun kind fit => .inl (holds.done_of_delete kind fit)⟩
  | none =>
    obtain ⟨vm, slots, address, entered, holding, same⟩ := holds
    have found : w₁.store.vm? task.vmKey = some vm := by
      rw [same, ← entered.key]
      exact entered.vm?_working slots
    obtain ⟨now, s', cleaned, isLeft, tasks⟩ := Lifecycle.recoverAborted_run p.tool found
      (Lifecycle.via_marked entered.status) (abortText queue.hardLimit)
    refine ⟨.failed (abortText queue.hardLimit), { w₁ with store := s' },
      (Program.run_bind run).trans (Program.run_bind cleaned), quiet₁, ?_, ?_,
      fun h => absurd h unfit, fun _ _ => .inr ⟨rfl, ?_⟩⟩
    · rw [tasks, same]
      rfl
    · exact ⟨_, isLeft, rfl, VmPatch.withError_errorMessage _ _ _⟩
    · exact (Program.cutShort_of_within run : w.CutShort w₁)

/-! ## What is recorded -/

/-- The task's row says how its run ended. A row that is to be tried again is read back unless the
next attempt comes after year 9999. -/
def Noted (queue : QueueConfig) (jitter : Jitter) (task : Task) (row : TaskRow) : Outcome → Prop
  | .done => row.status = .completed
  | .skipped why => row.status = .completed ∧ row.lastError = some why
  | .failed why => row.status = .failed ∧ row.lastError = some why
  | .retry why => row.status = .pending ∧ row.lastError = some why ∧ ∃ now t,
    retryAt? queue jitter task now = some t ∧ row.notBefore = .of t ∧
      (row.Readable ↔ t.date.year ≤ 9999)

theorem retryAt?_eq_after {now t : Instant} (h : retryAt? queue jitter task now = some t) :
    ∃ delay, t = now.after delay := by
  simp only [retryAt?, Instant.after?, Option.ite_none_right_eq_some, Option.some.injEq] at h
  exact ⟨_, h.2.symm⟩

/-- Where nothing breaks down, the row is written and nothing else. -/
theorem record_noted (queue : QueueConfig) (jitter : Jitter) (p : Provisioner)
    (quiet : w.coming = []) (found : w.store.taskRow? task.id = some row)
    (readable : row.Readable) (first : 0 ≤ w.now.date.year) (outcome : Outcome)
    (left : ∀ why, outcome = .retry why → task.attempts < task.maxAttempts) :
    (∃ status w' f, (record queue jitter task outcome).run p.tool w = (.finished status, w') ∧
        w'.calls = w.calls ∧ w'.store = w.store.setTask task.id f ∧ (∀ row, (f row).id = row.id) ∧
        (f row).status = status ∧ Noted queue jitter task (f row) outcome) ∨
      ∃ what why w', (record queue jitter task outcome).run p.tool w = (.crashed what, w') ∧
        outcome = .retry why ∧ w'.store = w.store ∧ retryAt? queue jitter task w'.now = none := by
  have there : (w.store.taskRow? task.id).isSome := by rw [found]; rfl
  cases outcome with
  | done =>
    exact .inl ⟨_, _, fun row => Store.finished row .completed w.now none,
      write_run there rfl .completed, rfl, rfl, fun _ => rfl, rfl, rfl⟩
  | skipped why =>
    exact .inl ⟨_, _, fun row => Store.finished row .completed w.now (some why),
      write_run there rfl .completed, rfl, rfl, fun _ => rfl, rfl, rfl, rfl⟩
  | failed why =>
    exact .inl ⟨_, _, fun row => Store.finished row .failed w.now (some why),
      write_run there rfl .failed, rfl, rfl, fun _ => rfl, rfl, rfl, rfl⟩
  | retry why =>
    have left : task.isFinalAttempt = false := by
      simpa [TaskOf.isFinalAttempt] using left why rfl
    have ran := record_retry queue jitter p why quiet there left
    cases next : retryAt? queue jitter task (w.now.after World.tick) with
    | none =>
      rw [next] at ran
      exact .inr ⟨_, why, _, ran, rfl, rfl, next⟩
    | some t =>
      rw [next] at ran
      refine .inl ⟨_, _, _, ran, rfl, rfl, fun _ => rfl, rfl, rfl, rfl, _, t, next, rfl, ?_⟩
      obtain ⟨delay, later⟩ := retryAt?_eq_after next
      have clock : w.now ≤ t := by
        rw [later]
        exact Instant.le_trans (w.now.le_after World.tick) (Instant.le_after _ delay)
      have year := Instant.date_year_mono (Instant.second_le clock)
      rw [TaskRow.putOff_readable readable,
        Stamp.instant?_isSome_iff (later ▸ Instant.after_nano_lt _ _)]
      omega

/-! ## Whole runs -/

/-- The run came to its end, and what is reported of it is what the row of the task and the record
of the VM show. -/
structure Reported (queue : QueueConfig) (jitter : Jitter) (task : Task) (w w' : World)
    (report : RunReport) : Prop where
  named : report.active.taskId = task.id ∧ report.active.kind = task.kind ∧
    report.vmKey = task.vmKey ∧ report.attempt = task.attempts
  row : ∃ row, w'.store.taskRow? task.id = some row ∧ row.status = report.status ∧
    Noted queue jitter task row report.outcome
  others : ∀ id, id ≠ task.id → w'.store.taskRow? id = w.store.taskRow? id
  vm : Treated task w.store w'.store report.outcome
  uncalled : ∀ why, report.outcome = .skipped why → w'.calls = w.calls
  deleted : task.kind = .delete →
    (∃ old, w.store.vm? task.vmKey = some old ∧ old.status ∈ VmStatus.deletable) →
    report.outcome = .done ∨
      report.outcome = .failed (abortText queue.hardLimit) ∧ w.CutShort w'

/-- The worker broke down over the time of the next attempt: the VM is put back for it, and the task
is still running. -/
structure Stranded (queue : QueueConfig) (jitter : Jitter) (task : Task) (w w' : World) : Prop where
  beyond : retryAt? queue jitter task w'.now = none
  row : ∃ row, w'.store.taskRow? task.id = some row ∧ row.status = .running
  others : ∀ id, id ≠ task.id → w'.store.taskRow? id = w.store.taskRow? id
  vm : ∃ why, Treated task w.store w'.store (.retry why)

theorem runTask_accounted (queue : QueueConfig) (settings : Settings) (jitter : Jitter)
    (p : Provisioner) (quiet : w.coming = []) (begun : 1 ≤ task.attempts)
    (found : w.store.taskRow? task.id = some row) (running : row.status = .running)
    (readable : row.Readable) (first : 0 ≤ w.now.date.year) :
    (∃ report w', (runTask queue settings jitter task).run p.tool w = (.finished report, w') ∧
        Reported queue jitter task w w' report) ∨
      ∃ what w', (runTask queue settings jitter task).run p.tool w = (.crashed what, w') ∧
        Stranded queue jitter task w w' := by
  have begins := runTask_begins queue settings jitter task p.tool w
  rw [World.advance_of_quiet quiet] at begins
  obtain ⟨outcome, w₁, executes, quiet₁, tasks, treated, uncalled, deleted⟩ :=
    execute_treated (p := p) (w := { w with now := w.now.after World.tick }) queue settings quiet
      begun ((w.now.after World.tick).after queue.softLimit)
      ((w.now.after World.tick).after queue.hardLimit)
  rw [Program.run_bind executes] at begins
  have found₁ : w₁.store.taskRow? task.id = some row := by rwa [Store.taskRow?, tasks]
  have first₁ : 0 ≤ w₁.now.date.year := by
    have tick : w.now.date.year ≤ (w.now.after World.tick).date.year :=
      Instant.date_year_mono (Instant.second_le (w.now.le_after World.tick))
    have year := Program.year_le_run (execute queue settings
      (.of task ((w.now.after World.tick).after queue.softLimit))
      ((w.now.after World.tick).after queue.hardLimit) task) p.tool
      { w with now := w.now.after World.tick }
    rw [executes] at year
    exact Int.le_trans first (Int.le_trans tick year)
  rcases record_noted queue jitter p quiet₁ found₁ readable first₁ outcome
    (fun why isRetry => by subst isRetry; exact treated.left) with
      ⟨status, w', f, records, calls, store, ids, isStatus, noted⟩ |
      ⟨what, why, w', broken, rfl, store, beyond⟩
  · refine .inl ⟨reportOf task w outcome status, w', begins.trans (Program.run_bind records), ?_⟩
    constructor
    case named => exact ⟨rfl, rfl, rfl, Nat.max_eq_left begun⟩
    case row =>
      refine ⟨f row, ?_, isStatus, noted⟩
      rw [store, Store.taskRow?_setTask ids, found₁, Option.map_some]
    case others =>
      intro id other
      rw [store, Store.taskRow?_setTask_of_ne ids other, Store.taskRow?, tasks]
      rfl
    case vm => exact treated.congr rfl (by rw [store]; rfl)
    case uncalled =>
      rintro why rfl
      obtain ⟨⟨e, unfit, -⟩, -⟩ := treated
      rw [calls, uncalled ⟨e, unfit⟩]
    case deleted =>
      intro kind fit
      refine (deleted kind fun e unfit => unfit.not_fit ?_).imp_right
        fun aborted => ⟨aborted.1, aborted.2.of_calls calls⟩
      rwa [kind]
  · refine .inr ⟨what, w', begins.trans (Program.run_bind_of_crashed broken), ?_⟩
    constructor
    case beyond => exact beyond
    case row => exact ⟨row, by rw [store, found₁], running⟩
    case others =>
      intro id _
      rw [store, Store.taskRow?, tasks]
      rfl
    case vm => exact ⟨why, treated.congr rfl (by rw [store])⟩

section Claim

variable {claimed : Store} (rows : claimed = { w.store with tasks := claimed.tasks })
  (others : ∀ id, id ≠ task.id → claimed.taskRow? id = w.store.taskRow? id)

include rows others

/-- What a run reports of the store with the claim made is so from the store before. -/
theorem Reported.of_claimed {report : RunReport}
    (h : Reported queue jitter task { w with store := claimed } w' report) :
    Reported queue jitter task w w' report where
  named := h.named
  row := h.row
  others id ne := (h.others id ne).trans (others id ne)
  vm := h.vm.congr rows rfl
  uncalled := h.uncalled
  deleted kind := fun ⟨old, found, deletable⟩ => by
    refine h.deleted kind ⟨old, ?_, deletable⟩
    show claimed.vm? task.vmKey = some old
    rw [rows]
    exact found

theorem Stranded.of_claimed (h : Stranded queue jitter task { w with store := claimed } w') :
    Stranded queue jitter task w w' where
  beyond := h.beyond
  row := h.row
  others id ne := (h.others id ne).trans (others id ne)
  vm := h.vm.imp fun _ treated => treated.congr rows rfl

end Claim

/-- **One run, one story.** Whatever the tool does, a worker that claims a due task comes to the end
of its run, unless the next attempt lies beyond the calendar: then it breaks down with the VM put
back and the task still running. Otherwise its report, the row of the task and the record of the VM
agree in one of four ways, which the outcome tells apart: skipped with nothing done, done, to be
tried again, or failed. A delete that applies is done unless it is aborted at a call. The row of a
task that is to be tried again is read back up to year 9999. -/
theorem runOnce_accounted (queue : QueueConfig) (settings : Settings) (jitter : Jitter)
    (p : Provisioner) (quiet : w.coming = []) (distinct : w.store.TasksDistinct) {claimed : Store}
    (claim : w.store.claimNext w.now = .ok (some task, claimed)) :
    (∃ report w', (runOnce queue settings jitter).run p.tool w =
        (.finished (.ok (some report)), w') ∧ Reported queue jitter task w w' report) ∨
      ∃ what w', (runOnce queue settings jitter).run p.tool w = (.crashed what, w') ∧
        Stranded queue jitter task w w' := by
  obtain ⟨⟨row, found, running, readable⟩, begun, first, rows, others⟩ :=
    Store.claimNext_begun distinct claim
  have begins := runOnce_run queue settings jitter p.tool claim
  rcases runTask_accounted queue settings jitter p
    (w := { w with store := claimed }) quiet begun found running readable first with
      ⟨report, w', run, reported⟩ | ⟨what, w', run, stranded⟩
  · exact .inl ⟨report, w', begins.trans (Program.run_bind run), reported.of_claimed rows others⟩
  · exact .inr ⟨what, w', begins.trans (Program.run_bind_of_crashed run),
      stranded.of_claimed rows others⟩

/-- A VM that runs, and a stop for it that is due and may be attempted three times; it is 2026. -/
def stopDue : World where
  store := { Store.empty with
    vms := [{ (default : Vm) with key := 1, id := "srv-1", status := .running }]
    tasks := [.ofTask (.fresh "task-1" .stop 1 {} 3 ⟨1767225600, 0⟩)] }
  now := ⟨1767225602, 0⟩

/-- A run of a worker that finds no way to the host. -/
def lostRun (config : Config) : Program.Ending (Except Error (Option RunReport)) × World :=
  (runOnce config.queue (.of config) ⟨0, Fleet.parts_pos⟩).run Crew.lostTool.tool stopDue

/-- What a run shows of its end: the outcome and the status that it reports, if it comes to one, and
the task as it is stored. -/
def lostEnd (config : Config) : Option (Outcome × TaskStatus) × Option TaskStatus :=
  (match (lostRun config).1 with
    | .finished (.ok (some report)) => some (report.outcome, report.status)
    | _ => none,
    match (lostRun config).2.store.task? "task-1" with
    | .ok found => found.map (·.status)
    | .error _ => none)

/-- Of two configurations that pass their check, with the one the report says that the task waits to
be tried again, where no such task is read back; with the other there is no report, and the task
stays running. -/
theorem late_retries_untold :
    ((patient 400000000000000 300000).check = .ok () ∧
      lostEnd (patient 400000000000000 300000) =
        (some (.retry "Host unreachable: no route", .pending), none)) ∧
    (patient 11000000000000000 300000).check = .ok () ∧
      lostEnd (patient 11000000000000000 300000) = (none, some .running) := by
  refine ⟨⟨?_, ?_⟩, ?_, ?_⟩ <;> decide +kernel

/-- With a short backoff the report, the row and the record agree that the stop waits to be tried
again. -/
theorem lost_stop_waits : ∃ report w' row vm,
    lostRun (patient 5000 300000) = (.finished (.ok (some report)), w') ∧
      report.outcome = .retry "Host unreachable: no route" ∧
      w'.store.taskRow? "task-1" = some row ∧ row.status = .pending ∧ row.status = report.status ∧
      row.lastError = some "Host unreachable: no route" ∧ w'.store.vm? 1 = some vm ∧
      vm.status = .running ∧ vm.errorMessage = some "Host unreachable: no route" := by
  have shown : (lostEnd (patient 5000 300000)).1 =
      some (.retry "Host unreachable: no route", .pending) := by
    decide +kernel
  obtain ⟨task, claimed, claim, id, vmKey, kind⟩ : ∃ task claimed,
      stopDue.store.claimNext stopDue.now = .ok (some task, claimed) ∧
        task.id = "task-1" ∧ task.vmKey = 1 ∧ task.kind = .stop :=
    ⟨_, _, rfl, rfl, rfl, rfl⟩
  rcases runOnce_accounted (patient 5000 300000).queue (.of (patient 5000 300000))
      ⟨0, Fleet.parts_pos⟩ Crew.lostTool (w := stopDue) rfl (List.nodup_singleton _) claim with
    ⟨report, w', run, reported⟩ | ⟨what, w', run, -⟩
  · have run : lostRun (patient 5000 300000) = (.finished (.ok (some report)), w') := run
    obtain ⟨isOutcome, -⟩ : report.outcome = _ ∧ report.status = _ := by
      simpa only [lostEnd, run, Option.some.injEq, Prod.mk.injEq] using shown
    obtain ⟨row, there, same, noted⟩ := reported.row
    have treated := reported.vm
    rw [isOutcome] at noted treated
    obtain ⟨waits, error, -⟩ := noted
    obtain ⟨old, now, before, after⟩ := treated.back
    rw [vmKey] at before after
    rw [id] at there
    obtain rfl := Option.some.inj before
    exact ⟨report, w', row, _, run, isOutcome, there, waits, same, error, after, rfl, rfl⟩
  · have run : lostRun (patient 5000 300000) = (.crashed what, w') := run
    simp only [lostEnd, run] at shown
    cases shown

end Queue

end VmFleet
