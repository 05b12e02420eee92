/-
What a worker does to the store in one run: it claims a task, has it handled,
cleans up if the handler was aborted, and records how the task ended.
-/
import VmFleet.Queue.Worker
import VmFleet.Proofs.Recovering

namespace VmFleet.Queue

open Lifecycle (Settings Attempt Handles Handled Entered Holding Recovers Recovered)

variable (settings : Settings) (task : Task) (claimed : Store)

/-- The task is to create a VM that still waits to be created. -/
def Awaited (s : Store) : Prop :=
  task.kind = .create ∧ s.Waits task.vmKey

/-- What a worker records of the task on the store: that it is over, when its VM waits for it no
more, or that it is to be tried again, when an attempt is left. Nothing but its row is changed. -/
inductive Recorded (s : Store) : Store → Prop
  | unknown (gone : s.taskRow? task.id = none) : Recorded s s
  | ended {status : TaskStatus} {now : Instant} {note : Option String}
      (final : status = .completed ∨ status = .failed) (done : ¬ Awaited task s) :
      Recorded s (s.setTask task.id fun row => Store.finished row status now note)
  | requeued {notBefore : Instant} {message : String} (left : task.attempts < task.maxAttempts) :
      Recorded s (s.setTask task.id fun row =>
        { row with status := .pending, notBefore := .of notBefore, lastError := some message })

/-- What an operation does that a worker carries out for the task it claimed. -/
inductive Works : Event → Prop
  | silent {s : Store} : Works ⟨s, s, none⟩
  | handles {attempt : Attempt} {e : Event} (handles : Handles settings attempt task claimed e) :
      Works e
  | recovers {vm : Vm} {slots : List Slot} {address : Option String} {e : Event}
      (entered : Entered task claimed vm) (holding : Holding settings task claimed vm slots address)
      (recovers : Recovers task.kind vm e) : Works e
  | records {s s' : Store} (tasks : s.tasks = claimed.tasks) (recorded : Recorded task s s') :
      Works ⟨s, s', none⟩

/-- How the work on a claimed task ends: the handler came to an end, or it was aborted and cleaned
up after. -/
inductive Worked : Store → Prop
  | handled {attempt : Attempt} {outcome : Outcome} {s s' : Store}
      (handled : Handled settings attempt task claimed outcome s) (recorded : Recorded task s s') :
      Worked s'
  | aborted {vm : Vm} {slots : List Slot} {address : Option String} {s s' : Store}
      (entered : Entered task claimed vm) (holding : Holding settings task claimed vm slots address)
      (recovered : Recovered task.kind vm (claimed.working vm slots) s)
      (recorded : Recorded task s s') : Worked s'

variable {settings task claimed} {s : Store}

/-- What a worker finds that is to record the outcome. -/
def Settled (task : Task) (s : Store) : Outcome → Prop
  | .retry _ => task.attempts < task.maxAttempts
  | .done | .failed _ | .skipped _ => ¬ Awaited task s

/-- A handler that gives up or is done leaves no VM waiting; it asks for another attempt only where
one is left. -/
theorem settled_of_handled {deadline : Instant} {outcome : Outcome}
    (h : Handled settings (.of task deadline) task claimed outcome s) : Settled task s outcome := by
  cases h with
  | refused cause =>
    rintro ⟨create, vm, found, pending⟩
    rcases cause with ⟨gone, -⟩ | ⟨old, found', other, -⟩
    · cases found.symm.trans gone
    · cases found.symm.trans found'
      rw [create, pending] at other
      exact absurd other (by decide)
  | ended ended =>
    cases ended with
    | @created vm slot slots report now entered kind allocated =>
      rintro ⟨-, vm', found, pending⟩
      have there := entered.vm?_moved .running (Lifecycle.createdPatch (some slot.address.text)
        (task.params.host <|> settings.defaultHost) (task.params.kernelPath <|> vm.kernelPath)
        report) now slots
      cases found.symm.trans there
      cases pending
    | removed now entered kind =>
      rintro ⟨create, -⟩
      cases kind.symm.trans create
    | settled now entered create => exact fun awaited => create awaited.1
    | reverted now entered delete undone passing left =>
      have left : ¬ task.maxAttempts ≤ max task.attempts 1 := of_decide_eq_false left
      show task.attempts < task.maxAttempts
      omega
    | @failed vm slots e now entered delete undone final =>
      rintro ⟨-, vm', found, pending⟩
      have there := entered.vm?_moved .error (Lifecycle.failurePatch vm e.message) now slots
      cases found.symm.trans there
      cases pending

/-- A create that was aborted leaves its VM in `error`. -/
theorem settled_of_recovered {vm : Vm} {slots : List Slot} {why : String}
    (entered : Entered task claimed vm)
    (recovered : Recovered task.kind vm (claimed.working vm slots) s) :
    Settled task s (.failed why) := by
  rintro ⟨create, waits⟩
  rw [← entered.key] at waits
  exact recovered.not_waits create (entered.vm?_working slots) waits

theorem execute_holds {Q : Outcome → Store → Prop} (queue : QueueConfig) (attempt : Attempt)
    (abortAt : Instant)
    (handled : ∀ outcome s, Handled settings attempt task claimed outcome s → Q outcome s)
    (aborted : ∀ why vm slots address s, Entered task claimed vm →
      Holding settings task claimed vm slots address →
      Recovered task.kind vm (claimed.working vm slots) s → Q (.failed why) s) :
    (execute queue settings attempt abortAt task).Holds (Works settings task claimed) Q
      claimed := by
  refine .bind (.within ?_)
  refine (Lifecycle.handle_holds settings attempt task claimed).imp
    (fun e handles => ⟨.handles handles, fun call => ?_⟩) fun outcome s h => .pure (handled _ _ h)
  obtain ⟨vm, slots, address, entered, holding, same⟩ := handles.aborted call
  have found : e.after.vm? task.vmKey = some vm := by
    rw [same, ← entered.key]
    exact entered.vm?_working slots
  refine .bind ((Lifecycle.recoverAborted_holds found _).imp
    (fun e recovers => .recovers entered holding recovers) fun _ s recovered => .pure ?_)
  exact aborted _ vm slots address s entered holding (same ▸ recovered)

theorem Recorded.complete {note : Option String} {answer : Except Error Unit} {s' : Store}
    (h : Effect s (.complete task.id note) answer s') (done : ¬ Awaited task s) :
    Recorded task s s' := by
  rcases h.complete with ⟨now, rfl⟩ | ⟨gone, rfl⟩
  · exact .ended (.inl rfl) done
  · exact .unknown gone

theorem Recorded.fail {message : String} {answer : Except Error Unit} {s' : Store}
    (h : Effect s (.fail task.id message) answer s') (done : ¬ Awaited task s) :
    Recorded task s s' := by
  rcases h.fail with ⟨now, rfl⟩ | ⟨gone, rfl⟩
  · exact .ended (.inr rfl) done
  · exact .unknown gone

theorem Recorded.retry {message : String} {notBefore : Instant} {answer : Except Error Unit}
    {s' : Store} (h : Effect s (.retry task.id notBefore message) answer s')
    (left : task.attempts < task.maxAttempts) : Recorded task s s' := by
  rcases h.retry with rfl | ⟨gone, rfl⟩
  · exact .requeued left
  · exact .unknown gone

theorem record_holds (queue : QueueConfig) (jitter : Jitter) (outcome : Outcome)
    (tasks : s.tasks = claimed.tasks) (settled : Settled task s outcome) :
    (record queue jitter task outcome).Holds (Works settings task claimed)
      (fun _ s' => Recorded task s s') s := by
  have writes : ∀ {op : Operation (Except Error Unit)} {status : TaskStatus} {t : Store},
      t.tasks = claimed.tasks → (∀ answer s', Effect t op answer s' → Recorded task t s') →
      (∀ answer, op.asCall? answer = none) →
      (Program.perform op >>= fun _ => pure status).Holds (Works settings task claimed)
        (fun _ s' => Recorded task t s') t := by
    intro op status t tasks recorded silent
    refine .perform fun answer s' effect => ⟨?_, .pure (recorded answer s' effect)⟩
    rw [silent]
    exact .records tasks (recorded answer s' effect)
  cases outcome with
  | done => exact writes tasks (fun _ _ effect => .complete effect settled) fun _ => rfl
  | skipped why => exact writes tasks (fun _ _ effect => .complete effect settled) fun _ => rfl
  | failed why => exact writes tasks (fun _ _ effect => .fail effect settled) fun _ => rfl
  | retry why =>
    have left : task.attempts < task.maxAttempts := settled
    have left : ¬ task.isFinalAttempt = true := by
      simpa [TaskOf.isFinalAttempt] using left
    simp only [record, if_neg left]
    refine .perform fun now s' effect => ?_
    rw [effect.now]
    refine ⟨.silent, ?_⟩
    split
    · trivial
    · exact writes tasks (fun _ _ effect => .retry effect settled) fun _ => rfl

theorem runTask_holds (queue : QueueConfig) (jitter : Jitter) :
    (runTask queue settings jitter task).Holds (Works settings task claimed)
      (fun _ => Worked settings task claimed) claimed := by
  refine .perform fun found s' effect => ?_
  rw [effect.findVm.2]
  refine ⟨.silent, ?_⟩
  refine .perform fun now s' effect => ?_
  rw [effect.now]
  refine ⟨.silent, ?_⟩
  refine .bind (execute_holds queue _ _ (fun outcome s handled => ?_)
    fun why vm slots address s entered holding recovered => ?_)
  · refine .bind ((record_holds queue jitter outcome handled.tasks
      (settled_of_handled handled)).imp (fun _ works => works) ?_)
    exact fun _ _ recorded => .pure (.handled handled recorded)
  · have tasks : s.tasks = claimed.tasks := recovered.tasks
    refine .bind ((record_holds queue jitter _ tasks
      (settled_of_recovered entered recovered)).imp (fun _ works => works) ?_)
    exact fun _ _ recorded => .pure (.aborted entered holding recovered recorded)

/-! ## From the claim on -/

/-- What an operation of a run does that begins with the store and the time given. -/
inductive Runs (settings : Settings) (start : Store) (now : Instant) : Event → Prop
  | silent {s : Store} : Runs settings start now ⟨s, s, none⟩
  | claims {task : Task} {claimed : Store}
      (claim : start.claimNext now = .ok (some task, claimed)) :
      Runs settings start now ⟨start, claimed, none⟩
  | works {task : Task} {claimed : Store} {e : Event}
      (claim : start.claimNext now = .ok (some task, claimed))
      (works : Works settings task claimed e) : Runs settings start now e

/-- How a run ends: no task was claimed, or the work on the one that was has ended. -/
inductive Ran (settings : Settings) (start : Store) (now : Instant) : Store → Prop
  | idle : Ran settings start now start
  | worked {task : Task} {claimed s : Store}
      (claim : start.claimNext now = .ok (some task, claimed))
      (worked : Worked settings task claimed s) : Ran settings start now s

variable {p : Provisioner} {w w' : World} {queue : QueueConfig} {jitter : Jitter}

/-- A run is a claim and what its answer leads to. -/
theorem runOnce_claims (queue : QueueConfig) (settings : Settings) (jitter : Jitter) :
    ∃ next, runOnce queue settings jitter = .ask .claim next ∧
      (∀ e, next (.error e) = pure (.error e)) ∧ next (.ok none) = pure (.ok none) ∧
      ∀ task, next (.ok (some task)) =
        runTask queue settings jitter task >>= fun report => pure (.ok (some report)) :=
  ⟨_, rfl, fun _ => rfl, rfl, fun _ => rfl⟩

/-- **A run of a worker, whatever the tool does.** Every operation is named by `Runs`, and the store
a finished run leaves by `Ran`. -/
theorem runOnce_holds (quiet : w.coming = []) :
    (∀ e ∈ (runOnce queue settings jitter).events p w, Runs settings w.store w.now e) ∧
    ∀ a w', (runOnce queue settings jitter).run p.tool w = (.finished a, w') →
      Ran settings w.store w.now w'.store := by
  obtain ⟨next, shape, failed, idle, works⟩ := runOnce_claims queue settings jitter
  rw [shape]
  have after : ∀ answer w₁, w.commit (w.store.claimNext w.now) = (answer, w₁) →
      Runs settings w.store w.now ⟨w.store, w₁.store, none⟩ ∧
      (next answer).Holds (Runs settings w.store w.now)
        (fun _ => Ran settings w.store w.now) w₁.store := by
    intro answer w₁ commit
    rcases Effect.commit_cases commit with ⟨found, claimed, claim, rfl, store⟩ | ⟨e, -, rfl, store⟩
    · rw [store]
      cases found with
      | none =>
        rcases Store.claimNext_ok claim with ⟨-, rfl⟩ | ⟨_, _, _, _, some, _⟩
        · rw [idle]
          exact ⟨.silent, .pure .idle⟩
        · cases some
      | some task =>
        rw [works]
        refine ⟨.claims claim, .bind ?_⟩
        exact (runTask_holds queue jitter).imp (fun e works => .works claim works)
          fun _ _ worked => .pure (.worked claim worked)
    · rw [store, failed]
      exact ⟨.silent, .pure .idle⟩
  obtain ⟨first, rest⟩ := after _ _ rfl
  have quiet' := World.perform_coming p .claim quiet
  refine ⟨fun e he => ?_, fun a w' run => rest.finished quiet' run⟩
  rcases List.mem_cons.mp he with rfl | he
  · exact first
  · exact rest.events quiet' e he

end VmFleet.Queue
