/-
What a handler does to the store. While it works, the store is the one it began
with but for the record of its VM and for the slots; every operation is named
here with the stores around it, and so are the ways in which the handler ends.
-/
import VmFleet.Lifecycle.Handler
import VmFleet.Proofs.Events

namespace VmFleet

namespace TaskKind

theorem placed_of_mem_sources {kind : TaskKind} {status : VmStatus} (h : status ∈ kind.sources)
    (create : kind ≠ .create) (delete : kind ≠ .delete) :
    status = .running ∨ status = .stopped := by
  revert status
  cases kind <;> first | contradiction | decide

theorem settled_stable {kind : TaskKind} (delete : kind ≠ .delete) :
    kind.settled ∉ VmStatus.transient ∧ kind.settled ≠ .pending := by
  cases kind <;> first | contradiction | decide

theorem revert_stable {kind : TaskKind} (delete : kind ≠ .delete) :
    kind.revert ∉ VmStatus.transient := by
  cases kind <;> first | contradiction | decide

theorem revert_eq_pending {kind : TaskKind} : kind.revert = .pending ↔ kind = .create := by
  cases kind <;> decide

end TaskKind

namespace Store

variable {s s' : Store} {vm vm' : Vm} {slots slots' : List Slot} {key : Int} {id : String}

/-- The store with another record for a VM and other slots. -/
def working (s : Store) (vm : Vm) (slots : List Slot) : Store :=
  { s.setVm vm.key (fun _ => vm) with slots := slots }

theorem vm?_working : (s.working vm slots).vm? key =
    if key = vm.key then (s.vm? vm.key).map fun _ => vm else s.vm? key :=
  vm?_setVm rfl

theorem vm?_working_self (known : (s.vm? vm.key).isSome) :
    (s.working vm slots).vm? vm.key = some vm := by
  obtain ⟨old, found⟩ := Option.isSome_iff_exists.mp known
  rw [vm?_working, if_pos rfl, found, Option.map_some]

theorem setVm_working (same : vm'.key = vm.key) :
    (s.working vm slots).setVm vm.key (fun _ => vm') = s.working vm' slots := by
  have twice : (s.setVm vm.key fun _ => vm).setVm vm.key (fun _ => vm') =
      s.setVm vm.key fun _ => vm' := setVm_setVm rfl
  simp only [working, setVm, same, Store.mk.injEq] at twice ⊢
  exact ⟨twice.1, trivial, trivial, trivial, trivial, trivial, trivial⟩

theorem release_working (now : Instant) : ((s.working vm slots).release now id).2 =
    s.working vm ((s.working vm slots).release now id).2.slots :=
  rfl

theorem Granted.working {now : Instant} {name : String} {pool : Pool} {slot : Slot}
    (h : Granted (s.working vm slots) now name id pool slot s') : s' = s.working vm s'.slots := by
  rw [h.slots_only]
  rfl

end Store

namespace Lifecycle

variable (settings : Settings) (attempt : Attempt) (task : Task) (start : Store)

/-- The record as the handler has it once the VM is in the transient status of the task's kind. -/
def Entered (vm : Vm) : Prop :=
  ∃ old now, start.vm? task.vmKey = some old ∧ old.status ∈ task.kind.sources ∧
    vm = old.moved task.kind.via .clearError now

/-- The VM of a create was granted an address of the pool that the task or the settings name. -/
def Allocated (vm : Vm) (slot : Slot) (slots : List Slot) : Prop :=
  ∃ now pool, Store.Granted (start.working vm start.slots) now
    (task.params.pool.getD settings.defaultPool) vm.id pool slot (start.working vm slots)

/-- The slots while the tool is called, and the address that the tool is told: of a create the one
it was granted, otherwise the one on the record. -/
inductive Holding (vm : Vm) : List Slot → Option String → Prop
  | granted {slot slots} (kind : task.kind = .create)
      (allocated : Allocated settings task start vm slot slots) :
      Holding vm slots (some slot.address.text)
  | kept (kind : task.kind ≠ .create) : Holding vm start.slots vm.address

/-- What the tool is told about the VM. -/
def requestOf (vm : Vm) (address : Option String) : ProvisionRequest :=
  match task.kind with
  | .create => requestFor vm address (task.params.host <|> settings.defaultHost)
      (task.params.kernelPath <|> vm.kernelPath)
  | .delete => requestFor vm address (vm.host <|> task.params.host) vm.kernelPath
  | .start | .stop | .restart => requestFor vm address vm.host vm.kernelPath

/-- The slots when a failed task settles its VM: what a create was granted is given back. -/
inductive Undone (vm : Vm) : List Slot → Prop
  | refused (kind : task.kind = .create) : Undone vm start.slots
  | released {slot slots now} (kind : task.kind = .create)
      (allocated : Allocated settings task start vm slot slots) :
      Undone vm ((start.working vm slots).release now vm.id).2.slots
  | kept (kind : task.kind ≠ .create) : Undone vm start.slots

/-- The writes that go with the move of a VM whose task failed. -/
def failurePatch (vm : Vm) (why : String) : VmPatch :=
  (VmPatch.withError why).droppingAddress (vm.status == .provisioning)

theorem failurePatch_address (vm : Vm) (why : String) (old : Option String) :
    (failurePatch vm why).address.apply old =
      if vm.status = .provisioning then none else old := by
  simp only [failurePatch, VmPatch.withError_address, beq_iff_eq]

/-- The last write of a handler that entered: with the outcome it leads to, and the stores before
and after it. -/
inductive Ended : Outcome → Store → Store → Prop
  | created {vm slot slots} (report : Report) (now : Instant) (entered : Entered task start vm)
      (kind : task.kind = .create) (allocated : Allocated settings task start vm slot slots) :
      Ended .done (start.working vm slots)
        (start.working (vm.moved .running (createdPatch (some slot.address.text)
          (task.params.host <|> settings.defaultHost)
          (task.params.kernelPath <|> vm.kernelPath) report) now) slots)
  | removed {vm} (now : Instant) (entered : Entered task start vm) (kind : task.kind = .delete) :
      Ended .done ((start.working vm start.slots).release now vm.id).2
        (((start.working vm start.slots).release now vm.id).2.removeVm vm.key).2
  | settled {vm} (now : Instant) (entered : Entered task start vm) (create : task.kind ≠ .create)
      (delete : task.kind ≠ .delete) :
      Ended .done (start.working vm start.slots)
        (start.working (vm.moved task.kind.settled .clearError now) start.slots)
  | reverted {vm slots} {e : Error} (now : Instant) (entered : Entered task start vm)
      (delete : task.kind ≠ .delete)
      (undone : Undone settings task start vm slots)
      (passing : e.isTransient = true) (left : attempt.isFinal = false) :
      Ended (.retry e.message) (start.working vm slots)
        (start.working (vm.moved task.kind.revert (failurePatch vm e.message) now) slots)
  | failed {vm slots} {e : Error} (now : Instant) (entered : Entered task start vm)
      (delete : task.kind ≠ .delete)
      (undone : Undone settings task start vm slots)
      (final : (e.isTransient && !attempt.isFinal) = false) :
      Ended (.failed e.message) (start.working vm slots)
        (start.working (vm.moved .error (failurePatch vm e.message) now) slots)

/-- What an operation of the handler does. -/
inductive Handles : Event → Prop
  /-- Nothing is written: a look at the store or the clock, or a write that is refused. -/
  | silent {s} : Handles ⟨s, s, none⟩
  | entered {vm} (entered : Entered task start vm) :
      Handles ⟨start, start.working vm start.slots, none⟩
  | allocated {vm slot slots} (entered : Entered task start vm) (kind : task.kind = .create)
      (allocated : Allocated settings task start vm slot slots) :
      Handles ⟨start.working vm start.slots, start.working vm slots, none⟩
  | called {vm slots address action budget answer} (entered : Entered task start vm)
      (holding : Holding settings task start vm slots address)
      (member : action ∈ task.kind.actions) :
      Handles ⟨start.working vm slots, start.working vm slots,
        some (⟨action, requestOf settings task vm address, budget⟩, answer)⟩
  | released {vm slots address now} (entered : Entered task start vm)
      (holding : Holding settings task start vm slots address)
      (kind : task.kind = .create ∨ task.kind = .delete) :
      Handles ⟨start.working vm slots, ((start.working vm slots).release now vm.id).2, none⟩
  | ended {outcome before after} (ended : Ended settings attempt task start outcome before after) :
      Handles ⟨before, after, none⟩

/-- How a handler ends: it could not enter and did nothing, or it made its last write. -/
inductive Handled : Outcome → Store → Prop
  | refused {e : Error}
      (cause : (start.vm? task.vmKey = none ∧ e = .vmNotFound (keyText task.vmKey)) ∨
        ∃ old, start.vm? task.vmKey = some old ∧ old.status ∉ task.kind.sources ∧
          e = .invalidTransition old.id old.status task.kind.via) :
      Handled (.skipped e.message) start
  | ended {outcome before after} (ended : Ended settings attempt task start outcome before after) :
      Handled outcome after

/-- Where a handler is aborted: at a call. -/
def Aborted (s : Store) : Prop :=
  ∃ vm slots address, Entered task start vm ∧ Holding settings task start vm slots address ∧
    s = start.working vm slots

variable {settings attempt task start} {vm : Vm} {slots : List Slot}

namespace Entered

theorem key (h : Entered task start vm) : vm.key = task.vmKey := by
  obtain ⟨old, now, found, -, rfl⟩ := h
  exact (Store.vm?_mem found).2

@[simp] theorem status (h : Entered task start vm) : vm.status = task.kind.via := by
  obtain ⟨old, now, -, -, rfl⟩ := h
  rfl

theorem origin (h : Entered task start vm) : ∃ old, start.vm? task.vmKey = some old ∧
    old.status ∈ task.kind.sources ∧ vm.id = old.id ∧ vm.address = old.address := by
  obtain ⟨old, now, found, source, rfl⟩ := h
  exact ⟨old, found, source, rfl, rfl⟩

theorem known (h : Entered task start vm) : (start.vm? vm.key).isSome := by
  obtain ⟨old, found, -⟩ := h.origin
  rw [h.key, found]
  rfl

theorem vm?_working (h : Entered task start vm) (slots : List Slot) :
    (start.working vm slots).vm? vm.key = some vm :=
  Store.vm?_working_self h.known

theorem vm?_moved (h : Entered task start vm) (next : VmStatus) (patch : VmPatch) (now : Instant)
    (slots : List Slot) : (start.working (vm.moved next patch now) slots).vm? task.vmKey =
      some (vm.moved next patch now) := by
  have known : (start.vm? (vm.moved next patch now).key).isSome := h.known
  rw [← h.key]
  exact Store.vm?_working_self known

/-- A move of the VM out of the task's transient status is made, and changes the record alone. -/
theorem transition (h : Entered task start vm) {next : VmStatus} {patch : VmPatch}
    {answer : Except Error Vm} {s' : Store}
    (effect : Effect (start.working vm slots) (.transition vm.key [vm.status] next patch)
      answer s') :
    ∃ now, answer = .ok (vm.moved next patch now) ∧
      s' = start.working (vm.moved next patch now) slots := by
  obtain ⟨now, ok, rfl⟩ := effect.transition_of_mem (h.vm?_working slots) (by simp)
  exact ⟨now, ok, Store.setVm_working rfl⟩

end Entered

theorem requestOf_vmId (address : Option String) :
    (requestOf settings task vm address).vmId = vm.id := by
  unfold requestOf
  split <;> rfl

theorem requestOf_address (address : Option String) :
    (requestOf settings task vm address).address = address := by
  unfold requestOf
  split <;> rfl

/-- A handler may be aborted wherever it calls the tool. -/
theorem Handles.aborted {e : Event} (h : Handles settings attempt task start e)
    (call : e.call.isSome) : Aborted settings task start e.after := by
  cases h with
  | called entered holding _ => exact ⟨_, _, _, entered, holding, rfl⟩
  | silent | entered | allocated | released | ended => cases call

theorem Ended.tasks {outcome : Outcome} {before after : Store}
    (h : Ended settings attempt task start outcome before after) : after.tasks = start.tasks := by
  cases h <;> rfl

theorem Handled.tasks {outcome : Outcome} {s : Store}
    (h : Handled settings attempt task start outcome s) : s.tasks = start.tasks := by
  cases h with
  | refused => rfl
  | ended ended => exact ended.tasks

/-! ## The parts of a handler -/

theorem enter_holds {Q : Except Outcome Vm → Store → Prop}
    (refused : ∀ outcome, Handled settings attempt task start outcome start →
      Q (.error outcome) start)
    (entered : ∀ vm, Entered task start vm → Q (.ok vm) (start.working vm start.slots)) :
    (enter task).Holds (Handles settings attempt task start) Q start := by
  refine .perform fun answer s' effect => ?_
  rcases effect.transition with ⟨old, now, found, source, rfl, rfl⟩ | ⟨e, rfl, rfl, cause⟩
  · have key : (old.moved task.kind.via .clearError now).key = task.vmKey :=
      (Store.vm?_mem found).2
    have enters : Entered task start (old.moved task.kind.via .clearError now) :=
      ⟨old, now, found, source, rfl⟩
    rw [← key]
    exact ⟨.entered enters, entered _ enters⟩
  · refine ⟨.silent, refused _ ?_⟩
    have skipped : refusal e = .skipped e.message := by
      rcases cause with ⟨-, rfl⟩ | ⟨old, -, -, rfl⟩ <;> rfl
    rw [skipped]
    exact .refused cause

theorem provision_holds {Q : Except Error Report → Store → Prop} {address : Option String}
    {action : Action} (entered : Entered task start vm)
    (holding : Holding settings task start vm slots address) (member : action ∈ task.kind.actions)
    (next : ∀ r, Q r (start.working vm slots)) :
    (provision settings attempt action (requestOf settings task vm address)).Holds
      (Handles settings attempt task start) Q (start.working vm slots) := by
  refine .perform fun now s' effect => ?_
  rw [effect.now]
  refine ⟨.silent, ?_⟩
  dsimp only
  split
  · exact .pure (next _)
  · refine .perform fun answer s' effect => ?_
    rw [effect.call]
    exact ⟨.called entered holding member, .pure (next _)⟩

theorem settleFailure_holds (entered : Entered task start vm) (delete : task.kind ≠ .delete)
    (undone : Undone settings task start vm slots) (e : Error) :
    (settleFailure attempt vm task.kind.revert e).Holds (Handles settings attempt task start)
      (Handled settings attempt task start) (start.working vm slots) := by
  refine .perform fun found s' effect => ?_
  obtain ⟨rfl, rfl⟩ := effect.findVm
  refine ⟨.silent, ?_⟩
  simp only [entered.vm?_working, Option.map_some, Option.getD_some]
  split
  · next helps =>
    have helps : e.isTransient = true ∧ attempt.isFinal = false := by simpa using helps
    refine .perform fun moved s' effect => ?_
    obtain ⟨now, rfl, rfl⟩ := entered.transition effect
    have ended : Ended settings attempt task start _ _ _ :=
      .reverted now entered delete undone helps.1 helps.2
    exact ⟨.ended ended, .pure (.ended ended)⟩
  · next final =>
    refine .perform fun moved s' effect => ?_
    obtain ⟨now, rfl, rfl⟩ := entered.transition effect
    have ended : Ended settings attempt task start _ _ _ :=
      .failed now entered delete undone (by simpa using final)
    exact ⟨.ended ended, .pure (.ended ended)⟩

/-! ## The handlers -/

theorem create_holds (kind : task.kind = .create) :
    (create settings attempt task).Holds (Handles settings attempt task start)
      (Handled settings attempt task start) start := by
  have pending : VmStatus.pending = task.kind.revert := by rw [kind]; rfl
  have delete : task.kind ≠ .delete := by rw [kind]; decide
  refine .bind (enter_holds (fun outcome ended => .pure ended) fun vm entered => ?_)
  have provisioning : vm.status = .provisioning := by rw [entered.status, kind]; rfl
  have request : ∀ address, requestFor vm address (task.params.host <|> settings.defaultHost)
      (task.params.kernelPath <|> vm.kernelPath) = requestOf settings task vm address := by
    intro address
    simp only [requestOf, kind]
  refine .perform fun granted s' effect => ?_
  rcases effect.allocate with ⟨now, pool, slot, grant, rfl⟩ | ⟨e, rfl, rfl⟩
  · have allocated : Allocated settings task start vm slot s'.slots :=
      ⟨now, pool, grant.working ▸ grant⟩
    rw [grant.working]
    refine ⟨.allocated entered kind allocated, ?_⟩
    -- What was granted is given back before the VM settles.
    have undo : ∀ e, (do
        let _ ← Program.perform (.release vm.id)
        settleFailure attempt vm .pending e : Program Outcome).Holds
          (Handles settings attempt task start) (Handled settings attempt task start)
          (start.working vm s'.slots) := by
      intro e
      refine .perform fun held s'' effect => ?_
      obtain ⟨now, rfl⟩ := effect.release
      refine ⟨.released entered (.granted kind allocated) (.inl kind), ?_⟩
      rw [Store.release_working, pending]
      exact settleFailure_holds entered delete (.released kind allocated) e
    refine .bind ?_
    rw [request]
    refine provision_holds entered (.granted kind allocated) (by rw [kind]; decide) fun r => ?_
    cases r with
    | error e => exact undo e
    | ok report =>
      refine .perform fun moved s'' effect => ?_
      rw [← provisioning] at effect
      obtain ⟨now, rfl, rfl⟩ := entered.transition effect
      have ended : Ended settings attempt task start _ _ _ :=
        .created report now entered kind allocated
      exact ⟨.ended ended, .pure (.ended ended)⟩
  · refine ⟨.silent, ?_⟩
    rw [pending]
    exact settleFailure_holds entered delete (.refused kind) e

theorem delete_holds (kind : task.kind = .delete) :
    (delete settings attempt task).Holds (Handles settings attempt task start)
      (Handled settings attempt task start) start := by
  have create : task.kind ≠ .create := by rw [kind]; decide
  refine .bind (enter_holds (fun outcome ended => .pure ended) fun vm entered => ?_)
  have request : requestFor vm vm.address (vm.host <|> task.params.host) vm.kernelPath =
      requestOf settings task vm vm.address := by
    simp only [requestOf, kind]
  refine .bind ?_
  rw [request]
  refine provision_holds entered (.kept create) (by rw [kind]; decide) fun r => ?_
  refine .perform fun held s' effect => ?_
  obtain ⟨now, rfl⟩ := effect.release
  refine ⟨.released entered (.kept create) (.inr kind), ?_⟩
  refine .perform fun known s' effect => ?_
  rw [effect.removeVm]
  have ended : Ended settings attempt task start _ _ _ := .removed now entered kind
  exact ⟨.ended ended, .pure (.ended ended)⟩

theorem provisionAll_holds {Q : Except Error Unit → Store → Prop} {address : Option String}
    (entered : Entered task start vm) (holding : Holding settings task start vm slots address)
    (next : ∀ r, Q r (start.working vm slots)) (actions : List Action)
    (members : ∀ action ∈ actions, action ∈ task.kind.actions) :
    (provisionAll settings attempt (requestOf settings task vm address) actions).Holds
      (Handles settings attempt task start) Q (start.working vm slots) := by
  induction actions with
  | nil => exact .pure (next _)
  | cons action rest ih =>
    refine .bind (provision_holds entered holding (members action List.mem_cons_self) fun r => ?_)
    cases r with
    | error e => exact .pure (next _)
    | ok report => exact ih fun a ha => members a (List.mem_cons_of_mem action ha)

theorem power_holds (create : task.kind ≠ .create) (delete : task.kind ≠ .delete) :
    (power settings attempt task).Holds (Handles settings attempt task start)
      (Handled settings attempt task start) start := by
  refine .bind (enter_holds (fun outcome ended => .pure ended) fun vm entered => ?_)
  have request : requestFor vm vm.address vm.host vm.kernelPath =
      requestOf settings task vm vm.address := by
    cases kind : task.kind <;> simp_all [requestOf]
  refine .bind ?_
  rw [request]
  refine provisionAll_holds entered (.kept create) (fun r => ?_) _ fun _ member => member
  cases r with
  | error e => exact settleFailure_holds entered delete (.kept create) e
  | ok _ =>
    refine .perform fun moved s' effect => ?_
    rw [← entered.status] at effect
    obtain ⟨now, rfl, rfl⟩ := entered.transition effect
    have ended : Ended settings attempt task start _ _ _ :=
      .settled now entered create delete
    exact ⟨.ended ended, .pure (.ended ended)⟩

/-- **Every handler, every reply of the tool.** Wherever the handler is stopped, what it has done so
far is named by `Handles`, and how it ends by `Handled`. -/
theorem handle_holds (settings : Settings) (attempt : Attempt) (task : Task) (start : Store) :
    (handle settings attempt task).Holds (Handles settings attempt task start)
      (Handled settings attempt task start) start := by
  unfold handle
  split
  · next kind => exact create_holds kind
  · next kind => exact delete_holds kind
  all_goals
    next kind => exact power_holds (by rw [kind]; decide) (by rw [kind]; decide)

end Lifecycle

end VmFleet
