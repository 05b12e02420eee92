/-
What workers and janitors ask the store for, operation by operation, whatever
others write in between: a worker's claims and records, and every change of a
VM's status, with what the worker did before it.
-/
import VmFleet.Proofs.Acts
import VmFleet.Proofs.Recovering
import VmFleet.Queue.Worker

namespace VmFleet

namespace Act

/-- The task that a worker has in hand after the operation. -/
def hand (hand : Option Task) (a : Act) : Option Task :=
  match a.deed with
  | .claim task => task
  | .record _ _ => none
  | _ => hand

/-- The operation takes the task's VM into the transient status of the task's kind. -/
def Enters (a : Act) (task : Task) : Prop :=
  ∃ old vm, a.before.vm? task.vmKey = some old ∧ old.status ∈ task.kind.sources ∧
    a.after.vm? task.vmKey = some vm ∧ vm.status = task.kind.via

/-- A create call that came back with success. -/
def Creates (a : Act) : Prop :=
  ∃ c report, a.call? = some (c, some (.ok report)) ∧ c.action = .create

/-- Nothing is written but to slots, or a VM is put into `error`, or abandoned tasks are failed. -/
inductive Resolves : Act → Prop
  | look {key found s s'} : Resolves ⟨.look key found, s, s'⟩
  | aside {s s'} : Resolves ⟨.aside, s, s'⟩
  | fail {key current s s'} : Resolves ⟨.shift key [current] .error, s, s'⟩
  | failAbandoned {s s'} : Resolves ⟨.failAbandoned, s, s'⟩

end Act

/-- The task that a worker has in hand which did these operations. -/
def inHand (past : List Act) : Option Task :=
  past.foldl Act.hand none

@[simp] theorem inHand_concat (past : List Act) (a : Act) :
    inHand (past ++ [a]) = a.hand (inHand past) := by
  simp [inHand]

/-- None of the operations created a VM remotely. -/
def Uncreated (past : List Act) : Prop :=
  ∀ a ∈ past, ¬ a.Creates

theorem Uncreated.concat {past : List Act} {a : Act} (h : Uncreated past) (other : ¬ a.Creates) :
    Uncreated (past ++ [a]) := by
  intro b hb
  rcases List.mem_append.mp hb with hb | hb
  · exact h b hb
  · rwa [List.mem_singleton.mp hb]

theorem Uncreated.silent {past : List Act} {a : Act} (h : Uncreated past)
    (silent : a.call? = none) : Uncreated (past ++ [a]) := by
  refine h.concat ?_
  rintro ⟨c, report, call, -⟩
  cases silent.symm.trans call

/-- A change of status that is asked for by one who did the given operations. -/
inductive Shift (past : List Act) : Int → List VmStatus → VmStatus → Prop
  | enter {task : Task} (hand : inHand past = some task) :
      Shift past task.vmKey task.kind.sources task.kind.via
  | settle {task : Task} (hand : inHand past = some task) (delete : task.kind ≠ .delete)
      (created : task.kind = .create → ∃ a ∈ past, a.Creates) :
      Shift past task.vmKey [task.kind.via] task.kind.settled
  | fail {key : Int} {current : VmStatus} : Shift past key [current] .error
  /-- The way back for another attempt, out of the status in which the VM has just been seen. -/
  | revert {task : Task} {found : Option Vm} {s s' : Store} (hand : inHand past = some task)
      (delete : task.kind ≠ .delete) (entered : ∃ a ∈ past, a.Enters task)
      (looked : past.getLast? = some ⟨.look task.vmKey found, s, s'⟩)
      (uncreated : Uncreated past) :
      Shift past task.vmKey [(found.map (·.status)).getD task.kind.via] task.kind.revert

/-- What workers and janitors ask for: a worker claims at first, and records the task that it has in
hand. It calls the tool for that task's VM once it has taken it into the transient status of the
task's kind, and does not create it twice. -/
def Asks (past : List Act) (a : Act) : Prop :=
  match a.deed with
  | .shift key expected next => Shift past key expected next
  | .remove key => ∃ task, inHand past = some task ∧ task.kind = .delete ∧ task.vmKey = key ∧
      ∃ b ∈ past, b.Enters task
  | .claim _ => past = []
  | .record id _ => ∃ task, inHand past = some task ∧ task.id = id
  | .call c _ => ∃ task, inHand past = some task ∧ c.action ∈ task.kind.actions ∧
      (∃ b ∈ past, b.Enters task) ∧ (c.action = .create → Uncreated past)
  | .look _ _ | .failAbandoned | .aside => True

/-- What a handler asks for. The task stays in hand. -/
def Serves (task : Task) (past : List Act) (a : Act) : Prop :=
  Asks past a ∧ a.hand (some task) = some task

theorem Act.Resolves.asks {a : Act} (h : a.Resolves) (past : List Act) : Asks past a := by
  cases h with
  | look | aside | failAbandoned => trivial
  | fail => exact .fail

theorem Act.Resolves.hand {a : Act} (h : a.Resolves) (hand : Option Task) :
    a.hand hand = hand := by
  cases h <;> rfl

theorem TaskKind.create_mem_actions {kind : TaskKind} (h : .create ∈ kind.actions) :
    kind = .create := by
  revert h
  cases kind <;> decide

namespace Lifecycle

variable {settings : Settings} {attempt : Attempt} {task : Task} {vm : Vm} {past : List Act}

/-- A worker has the task in hand and has taken its VM into the transient status of its kind. -/
structure Engaged (task : Task) (vm : Vm) (past : List Act) : Prop where
  hand : inHand past = some task
  key : vm.key = task.vmKey
  status : vm.status = task.kind.via
  entered : ∃ a ∈ past, a.Enters task

theorem Engaged.concat {a : Act} (h : Engaged task vm past)
    (kept : a.hand (some task) = some task) : Engaged task vm (past ++ [a]) where
  hand := by rw [inHand_concat, h.hand, kept]
  key := h.key
  status := h.status
  entered := by
    obtain ⟨b, hb, enters⟩ := h.entered
    exact ⟨b, List.mem_append_left _ hb, enters⟩

/-! ## The parts of a handler -/

theorem enter_along {Q : List Act → Except Outcome Vm → Prop} (hand : inHand past = some task)
    (uncreated : Uncreated past) (refused : ∀ outcome past, Q past (.error outcome))
    (entered : ∀ vm past, Engaged task vm past → Uncreated past → Q past (.ok vm)) :
    (enter task).Along (Serves task) Q past := by
  refine .perform fun answer s s' effect => ⟨⟨.enter hand, rfl⟩, ?_⟩
  rcases effect.transition with ⟨old, now, found, source, rfl, same⟩ | ⟨e, rfl, -, -⟩
  · have key : old.key = task.vmKey := (Store.vm?_mem found).2
    have there : s'.vm? task.vmKey = some (old.moved task.kind.via .clearError now) := by
      rw [same]
      exact Store.vm?_setVm_self found key
    refine entered _ _ ⟨?_, key, rfl, ?_⟩ (uncreated.silent rfl)
    · rw [inHand_concat, hand]
      rfl
    · exact ⟨_, List.mem_append_right _ List.mem_cons_self, old, _, found, source, there, rfl⟩
  · exact refused _ _

/-- After a call that failed, and after any call but a create, nothing has been created; after a
create that succeeded it has. -/
theorem provision_along {Q : List Act → Except Error Report → Prop} {action : Action}
    {request : ProvisionRequest} (engaged : Engaged task vm past) (uncreated : Uncreated past)
    (member : action ∈ task.kind.actions)
    (next : ∀ r past, Engaged task vm past →
      ((∃ e, r = .error e) ∨ action ≠ .create → Uncreated past) →
      (∀ report, r = .ok report → action = .create → ∃ a ∈ past, a.Creates) → Q past r) :
    (provision settings attempt action request).Along (Serves task) Q past := by
  refine .perform fun now s s' effect => ⟨⟨trivial, rfl⟩, ?_⟩
  have engaged := engaged.concat (a := ⟨Operation.now.deed now, s, s'⟩) rfl
  have uncreated := uncreated.silent (a := ⟨Operation.now.deed now, s, s'⟩) rfl
  dsimp only
  split
  · exact .pure (next _ _ engaged (fun _ => uncreated) fun report ok => by cases ok)
  · refine .perform fun answer s s' effect => ⟨⟨?_, rfl⟩, .pure (next _ _ ?_ (fun cause => ?_) ?_)⟩
    · exact ⟨task, engaged.hand, member, engaged.entered, fun _ => uncreated⟩
    · exact engaged.concat rfl
    · refine uncreated.concat ?_
      rintro ⟨c, report, call, create⟩
      cases call
      rcases cause with ⟨e, failed⟩ | other
      · cases failed
      · exact other create
    · intro report ok create
      cases answer with
      | none => cases ok
      | some r =>
        cases ok
        exact ⟨_, List.mem_append_right _ List.mem_cons_self, _, report, rfl, create⟩

theorem settleFailure_along (engaged : Engaged task vm past) (delete : task.kind ≠ .delete)
    {e : Error} (uncreated : e.isTransient = true → Uncreated past) :
    (settleFailure attempt vm task.kind.revert e).Along (Serves task) (fun _ _ => True) past := by
  have giveUp : ∀ current drop past, (do
      let _ ← markError vm.key current e.message drop
      return .failed e.message : Program Outcome).Along (Serves task) (fun _ _ => True) past :=
    fun _ _ _ => .perform fun _ _ _ _ => ⟨⟨.fail, rfl⟩, .pure trivial⟩
  refine .perform fun found s s' effect => ⟨⟨trivial, rfl⟩, ?_⟩
  have seen := engaged.concat (a := ⟨.look task.vmKey found, s, s'⟩) rfl
  dsimp only
  split
  · next helps =>
    have passing : e.isTransient = true := by simp_all
    refine .perform fun moved s s' effect => ⟨⟨?_, rfl⟩, ?_⟩
    · simp only [Asks, Operation.deed, engaged.key, engaged.status]
      exact .revert seen.hand delete seen.entered (List.getLast?_concat ..)
        ((uncreated passing).silent rfl)
    · cases moved with
      | ok _ => exact .pure trivial
      | error _ => exact giveUp _ _ _
  · exact giveUp _ _ _

/-! ## The handlers -/

theorem create_along (hand : inHand past = some task) (uncreated : Uncreated past)
    (kind : task.kind = .create) :
    (create settings attempt task).Along (Serves task) (fun _ _ => True) past := by
  have pending : VmStatus.pending = task.kind.revert := by rw [kind]; rfl
  have delete : task.kind ≠ .delete := by rw [kind]; decide
  refine .bind (enter_along hand uncreated (fun _ _ => .pure trivial)
    fun vm past engaged uncreated => ?_)
  refine .perform fun granted s s' effect => ⟨⟨trivial, rfl⟩, ?_⟩
  have engaged := engaged.concat (a := ⟨.aside, s, s'⟩) rfl
  have uncreated := uncreated.silent (a := ⟨.aside, s, s'⟩) rfl
  rw [pending]
  cases granted with
  | error e => exact settleFailure_along engaged delete fun _ => uncreated
  | ok allocation =>
    have undo : ∀ e past, Engaged task vm past → (e.isTransient = true → Uncreated past) → (do
        let _ ← Program.perform (.release vm.id)
        settleFailure attempt vm task.kind.revert e : Program Outcome).Along
          (Serves task) (fun _ _ => True) past := by
      intro e past engaged uncreated
      refine .perform fun held s s' effect => ⟨⟨trivial, rfl⟩, ?_⟩
      exact settleFailure_along (engaged.concat rfl) delete fun passing =>
        (uncreated passing).silent rfl
    have member : .create ∈ task.kind.actions := by rw [kind]; decide
    refine .bind (provision_along engaged uncreated member
      fun r past engaged uncreated created => ?_)
    cases r with
    | error e => exact undo e past engaged fun _ => uncreated (.inl ⟨e, rfl⟩)
    | ok report =>
      refine .perform fun moved s s' effect => ⟨⟨?_, rfl⟩, ?_⟩
      · have settle : Shift past vm.key [.provisioning] .running := by
          have settles := Shift.settle engaged.hand delete fun _ => created report rfl rfl
          rwa [kind, ← engaged.key] at settles
        exact settle
      · rcases effect.transition with ⟨_, _, -, -, rfl, -⟩ | ⟨e, rfl, -, cause⟩
        · exact .pure trivial
        · -- What was created is not created again: a refused change is no passing trouble.
          refine undo e _ (engaged.concat rfl) fun passing => ?_
          rcases cause with ⟨-, rfl⟩ | ⟨_, -, -, rfl⟩ <;> cases passing

theorem delete_along (hand : inHand past = some task) (uncreated : Uncreated past)
    (kind : task.kind = .delete) :
    (delete settings attempt task).Along (Serves task) (fun _ _ => True) past := by
  refine .bind (enter_along hand uncreated (fun _ _ => .pure trivial)
    fun vm past engaged uncreated => ?_)
  have member : .delete ∈ task.kind.actions := by rw [kind]; decide
  refine .bind (provision_along engaged uncreated member fun r past engaged _ _ => ?_)
  refine .perform fun held s s' effect => ⟨⟨trivial, rfl⟩, ?_⟩
  have engaged := engaged.concat (a := ⟨.aside, s, s'⟩) rfl
  refine .perform fun known s s' effect => ⟨⟨?_, rfl⟩, .pure trivial⟩
  exact ⟨task, engaged.hand, kind, engaged.key.symm, engaged.entered⟩

theorem provisionAll_along {Q : List Act → Except Error Unit → Prop} {request : ProvisionRequest}
    (actions : List Action) (engaged : Engaged task vm past) (uncreated : Uncreated past)
    (members : ∀ action ∈ actions, action ∈ task.kind.actions) (create : task.kind ≠ .create)
    (next : ∀ r past, Engaged task vm past → Uncreated past → Q past r) :
    (provisionAll settings attempt request actions).Along (Serves task) Q past := by
  induction actions generalizing past with
  | nil => exact .pure (next _ _ engaged uncreated)
  | cons action rest ih =>
    have member := members action List.mem_cons_self
    have other : action ≠ .create := by
      rintro rfl
      exact create (TaskKind.create_mem_actions member)
    refine .bind (provision_along engaged uncreated member fun r past engaged uncreated _ => ?_)
    cases r with
    | error e => exact .pure (next _ _ engaged (uncreated (.inl ⟨e, rfl⟩)))
    | ok report =>
      exact ih engaged (uncreated (.inr other)) fun a ha =>
        members a (List.mem_cons_of_mem action ha)

theorem power_along (hand : inHand past = some task) (uncreated : Uncreated past)
    (create : task.kind ≠ .create) (delete : task.kind ≠ .delete) :
    (power settings attempt task).Along (Serves task) (fun _ _ => True) past := by
  refine .bind (enter_along hand uncreated (fun _ _ => .pure trivial)
    fun vm past engaged uncreated => ?_)
  refine .bind (provisionAll_along _ engaged uncreated (fun _ member => member) create
    fun r past engaged uncreated => ?_)
  cases r with
  | error e => exact settleFailure_along engaged delete fun _ => uncreated
  | ok _ =>
    refine .perform fun moved s s' effect => ⟨⟨?_, rfl⟩, ?_⟩
    · have settles := Shift.settle engaged.hand delete fun kind => absurd kind create
      rw [← engaged.key] at settles
      exact settles
    · cases moved with
      | ok _ => exact .pure trivial
      | error e =>
        exact settleFailure_along (engaged.concat rfl) delete fun _ => uncreated.silent rfl

/-- **Every handler, whatever others write.** -/
theorem handle_along (settings : Settings) (attempt : Attempt) (hand : inHand past = some task)
    (uncreated : Uncreated past) :
    (handle settings attempt task).Along (Serves task) (fun _ _ => True) past := by
  unfold handle
  split
  · next kind => exact create_along hand uncreated kind
  · next kind => exact delete_along hand uncreated kind
  all_goals
    next kind => exact power_along hand uncreated (by rw [kind]; decide) (by rw [kind]; decide)

/-! ## Recovery -/

theorem markError_along {Q : List Act → Option Vm → Prop} {key : Int} {current : VmStatus}
    {why : String} {drop : Bool} (next : ∀ past moved, Q past moved) :
    (markError key current why drop).Along (fun _ a => a.Resolves) Q past :=
  .perform fun _ _ _ _ => ⟨.fail, .pure (next _ _)⟩

theorem recoverAborted_along (kind : TaskKind) (key : Int) (why : String) :
    (recoverAborted kind key why).Along (fun _ a => a.Resolves) (fun _ _ => True) past := by
  refine .perform fun found s s' effect => ⟨.look, ?_⟩
  cases found with
  | none => exact .pure trivial
  | some vm =>
    have mark : ∀ past, (if marks kind vm then do
          let _ ← markError vm.key vm.status why (givesBack kind vm)
        else pure () : Program Unit).Along (fun _ a => a.Resolves) (fun _ _ => True) past := by
      intro past
      split
      · exact .bind (markError_along fun _ _ => .pure trivial)
      · exact .pure trivial
    show (if givesBack kind vm = true then _ else _ : Program Unit).Along _ _ _
    split
    · exact .perform fun _ _ _ _ => ⟨.aside, mark _⟩
    · exact mark _

theorem sweepVm_along {Q : List Act → Option Vm → Prop} (cutoff : Instant) (maxAge : Duration)
    (vm : Vm) (next : ∀ past moved, Q past moved) :
    (sweepVm cutoff maxAge vm).Along (fun _ a => a.Resolves) Q past := by
  unfold sweepVm
  split
  · exact .pure (next _ _)
  dsimp only
  split
  · exact .perform fun _ _ _ _ => ⟨.aside, markError_along next⟩
  · exact markError_along next

theorem sweepVms_along {Q : List Act → List Vm → Prop} (cutoff : Instant) (maxAge : Duration)
    (vms : List Vm) (next : ∀ past moved, Q past moved) :
    (sweepVms cutoff maxAge vms).Along (fun _ a => a.Resolves) Q past := by
  induction vms generalizing past Q with
  | nil => exact .pure (next _ _)
  | cons vm rest ih =>
    exact .bind (sweepVm_along _ _ vm fun _ _ => .bind (ih fun _ _ => .pure (next _ _)))

theorem recoverAll_along (tasks : List Task) :
    (recoverAll tasks).Along (fun _ a => a.Resolves) (fun _ _ => True) past := by
  induction tasks generalizing past with
  | nil => exact .pure trivial
  | cons task rest ih =>
    exact .bind ((recoverAborted_along _ _ _).imp (fun _ _ h => h) fun _ _ _ => ih)

theorem sweepStale_along (maxAge : Duration) :
    (sweepStale maxAge).Along (fun _ a => a.Resolves) (fun _ _ => True) past := by
  unfold sweepStale
  refine .perform fun now s s' effect => ⟨.aside, ?_⟩
  split
  · exact .pure trivial
  split
  · trivial
  next cutoff _ =>
  refine .perform fun stuck s s' effect => ⟨.aside, ?_⟩
  refine .bind (sweepVms_along cutoff maxAge stuck fun past vms => ?_)
  refine .perform fun answer s s' effect => ⟨.failAbandoned, ?_⟩
  cases answer with
  | error e => exact .pure trivial
  | ok tasks =>
    exact .bind ((recoverAll_along tasks).imp (fun _ _ h => h) fun _ _ _ => .pure trivial)

end Lifecycle

namespace Queue

open Lifecycle (Settings Attempt)

variable {queue : QueueConfig} {settings : Settings} {jitter : Jitter} {task : Task}
  {past : List Act}

theorem execute_along {Q : List Act → Outcome → Prop} (attempt : Attempt) (abortAt : Instant)
    (hand : inHand past = some task) (uncreated : Uncreated past)
    (next : ∀ past outcome, inHand past = some task → Q past outcome) :
    (execute queue settings attempt abortAt task).Along (Serves task) Q past := by
  have serves := (Lifecycle.handle_along settings attempt hand uncreated).keeps
    (I := fun past => inHand past = some task)
    (fun past a serves hand => by rw [inHand_concat, hand, serves.2]) hand
  refine .bind (.within (serves.imp (fun past a h => ⟨h.1, fun c call => ?_⟩)
    fun past outcome h => .pure (next _ _ h.2)))
  have kept : inHand (past ++ [a]) = some task := by rw [inHand_concat, h.2, h.1.2]
  have resolves : (Lifecycle.recoverAborted task.kind task.vmKey (abortText queue.hardLimit)).Along
      (fun _ a => a.Resolves) (fun _ _ => True) (past ++ [a]) :=
    Lifecycle.recoverAborted_along _ _ _
  have recovers := resolves.keeps (I := fun past => inHand past = some task)
    (fun past a resolves hand => by rw [inHand_concat, hand, resolves.hand]) kept
  exact .bind (recovers.imp (fun past a h => ⟨h.1.asks past, h.1.hand _⟩)
    fun past _ h => .pure (next _ _ h.2))

theorem record_along (outcome : Outcome) (hand : inHand past = some task) :
    (record queue jitter task outcome).Along Asks (fun _ _ => True) past := by
  have fails : ∀ why, (do
      let _ ← Program.perform (.fail task.id why)
      return TaskStatus.failed : Program TaskStatus).Along Asks (fun _ _ => True) past :=
    fun why => .perform fun _ _ _ _ => ⟨⟨task, hand, rfl⟩, .pure trivial⟩
  cases outcome with
  | done => exact .perform fun _ _ _ _ => ⟨⟨task, hand, rfl⟩, .pure trivial⟩
  | skipped why => exact .perform fun _ _ _ _ => ⟨⟨task, hand, rfl⟩, .pure trivial⟩
  | failed why => exact fails why
  | retry why =>
    simp only [record]
    split
    · exact fails why
    · refine .perform fun now s s' effect => ⟨trivial, ?_⟩
      split
      · trivial
      · have kept : inHand (past ++ [⟨.aside, s, s'⟩]) = some task := by
          rw [inHand_concat, hand]
          rfl
        exact .perform fun _ _ _ _ => ⟨⟨task, kept, rfl⟩, .pure trivial⟩

theorem runTask_along (hand : inHand past = some task) (uncreated : Uncreated past) :
    (runTask queue settings jitter task).Along Asks (fun _ _ => True) past := by
  refine .perform fun found s s' effect => ⟨trivial, ?_⟩
  refine .perform fun now t t' effect => ⟨trivial, ?_⟩
  have still : inHand ((past ++ [⟨Operation.deed (.findVm task.vmKey) found, s, s'⟩]) ++
      [⟨Operation.now.deed now, t, t'⟩]) = some task := by
    simp only [inHand_concat, hand]
    rfl
  have executes : (execute queue settings (.of task (now.after queue.softLimit))
      (now.after queue.hardLimit) task).Along (Serves task)
        (fun past _ => inHand past = some task) _ :=
    execute_along _ _ still ((uncreated.silent rfl).silent rfl) fun past outcome hand => hand
  refine .bind (executes.imp (fun _ _ serves => serves.1) fun past outcome hand => ?_)
  exact .bind ((record_along outcome hand).imp (fun _ _ h => h) fun _ _ _ => .pure trivial)

/-- **A worker's run, whatever others write.** -/
theorem runOnce_along (queue : QueueConfig) (settings : Settings) (jitter : Jitter) :
    (runOnce queue settings jitter).Along Asks (fun _ _ => True) [] := by
  refine .perform fun answer s s' effect => ⟨rfl, ?_⟩
  cases answer with
  | error e => exact .pure trivial
  | ok found =>
    cases found with
    | none => exact .pure trivial
    | some task =>
      have uncreated : Uncreated [] := fun a ha => absurd ha List.not_mem_nil
      exact .bind ((runTask_along rfl (uncreated.silent rfl)).imp (fun _ _ h => h)
        fun _ _ _ => .pure trivial)

end Queue

end VmFleet
