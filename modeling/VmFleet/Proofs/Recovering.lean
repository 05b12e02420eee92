/-
What recovery does to the store: after one task that was cut short, and in a
sweep. Both look a VM up and then write, with nobody in between, so each write
is to a record that is still the one that was found.
-/
import VmFleet.Lifecycle.Recovery
import VmFleet.Proofs.Handling
import VmFleet.Proofs.TaskRecords

namespace VmFleet.Lifecycle

open Program (perform)

/-! ## After one task -/

/-- Recovery of a create takes the VM's address back unless the VM is running. -/
def givesBack (kind : TaskKind) (vm : Vm) : Bool :=
  kind == .create && vm.status != .running

/-- Recovery marks a VM that it finds in a transient status, and after a create also a pending
one. -/
def marks (kind : TaskKind) (vm : Vm) : Bool :=
  vm.status.isTransient || (givesBack kind vm && vm.status == .pending)

/-- The record as recovery leaves it in `error`. -/
def recovered (kind : TaskKind) (vm : Vm) (why : String) (now : Instant) : Vm :=
  vm.moved .error ((VmPatch.withError why).droppingAddress (givesBack kind vm)) now

theorem recovered_address (kind : TaskKind) (vm : Vm) (why : String) (now : Instant) :
    (recovered kind vm why now).address = if givesBack kind vm then none else vm.address :=
  VmPatch.withError_address why _ _

/-- What an operation does of the recovery that found the VM as given. -/
inductive Recovers (kind : TaskKind) (vm : Vm) : Event → Prop
  | silent {s} : Recovers kind vm ⟨s, s, none⟩
  | released {s now} (found : s.vm? vm.key = some vm) (back : givesBack kind vm = true) :
      Recovers kind vm ⟨s, (s.release now vm.id).2, none⟩
  | marked {s why now} (found : s.vm? vm.key = some vm) (marks : marks kind vm = true)
      (bare : givesBack kind vm = true → s.activeSlot? vm.id = none) :
      Recovers kind vm ⟨s, s.setVm vm.key fun _ => recovered kind vm why now, none⟩

/-- The store once recovery is through with the slots. -/
inductive Freed (kind : TaskKind) (vm : Vm) (s : Store) : Store → Prop
  | kept (keeps : givesBack kind vm = false) : Freed kind vm s s
  | released (now : Instant) (back : givesBack kind vm = true) :
      Freed kind vm s (s.release now vm.id).2

/-- The store after the recovery that found the VM as given. -/
def Recovered (kind : TaskKind) (vm : Vm) (s s' : Store) : Prop :=
  ∃ t why now, Freed kind vm s t ∧
    s' = if marks kind vm then t.setVm vm.key fun _ => recovered kind vm why now else t

variable {s : Store} {kind : TaskKind} {key : Int} {vm : Vm}

theorem Freed.bare {t : Store} (h : Freed kind vm s t) (back : givesBack kind vm = true) :
    t.activeSlot? vm.id = none := by
  cases h with
  | kept keeps => rw [keeps] at back; cases back
  | released now _ => rw [Store.activeSlot?_release, if_pos rfl]

theorem Freed.vms {t : Store} (h : Freed kind vm s t) : t.vms = s.vms := by
  cases h <;> rfl

theorem Recovered.tasks {s' : Store} (h : Recovered kind vm s s') : s'.tasks = s.tasks := by
  obtain ⟨t, why, now, freed, rfl⟩ := h
  split <;> cases freed <;> rfl

theorem Recovered.waits {s' : Store} (h : Recovered kind vm s s') (waits : s'.Waits key) :
    s.Waits key ∧ (marks kind vm = true → key ≠ vm.key) := by
  obtain ⟨t, why, now, freed, rfl⟩ := h
  split at waits
  · have mine : (recovered kind vm why now).key = vm.key := rfl
    obtain ⟨before, other⟩ := waits.of_setVm_ne mine nofun
    exact ⟨before.congr freed.vms, fun _ => other⟩
  · next unmarked => exact ⟨waits.congr freed.vms, fun marked => absurd marked unmarked⟩

theorem Recovered.not_waits {s' : Store} (h : Recovered kind vm s s') (create : kind = .create)
    (found : s.vm? vm.key = some vm) : ¬ s'.Waits vm.key := by
  intro waits
  obtain ⟨⟨vm', found', pending⟩, unmarked⟩ := h.waits waits
  cases found.symm.trans found'
  have marked : marks kind vm = true := by simp [marks, givesBack, create, pending]
  exact unmarked marked rfl

theorem recoverAborted_gone {G : Event → Prop} {Q : Unit → Store → Prop} (gone : s.vm? key = none)
    (silent : G ⟨s, s, none⟩) (why : String) (next : Q () s) :
    (recoverAborted kind key why).Holds G Q s := by
  refine .perform fun found s' effect => ?_
  obtain ⟨rfl, same⟩ := effect.findVm
  rw [same, gone]
  exact ⟨silent, .pure next⟩

theorem recoverAborted_holds (found : s.vm? key = some vm) (why : String) :
    (recoverAborted kind key why).Holds (Recovers kind vm)
      (fun _ s' => Recovered kind vm s s') s := by
  obtain ⟨-, rfl⟩ := Store.vm?_mem found
  refine .perform fun answer s' effect => ?_
  obtain ⟨rfl, same⟩ := effect.findVm
  rw [same, found]
  refine ⟨.silent, ?_⟩
  -- The mark, after whatever was done to the slots: the record is still the one that was found.
  have mark : ∀ t, Freed kind vm s t →
      (if marks kind vm then do
          let _ ← markError vm.key vm.status why (givesBack kind vm)
        else pure () : Program Unit).Holds (Recovers kind vm)
          (fun _ s' => Recovered kind vm s s') t := by
    intro t freed
    have there : t.vm? vm.key = some vm := by rw [Store.vm?, freed.vms]; exact found
    split
    · next hm =>
      refine .perform fun moved s' effect => ?_
      obtain ⟨now, rfl, rfl⟩ := effect.transition_of_mem there (by simp)
      exact ⟨.marked there hm freed.bare, .pure ⟨t, why, now, freed, by rw [if_pos hm]; rfl⟩⟩
    · next hm => exact .pure ⟨t, why, default, freed, by rw [if_neg hm]⟩
  show (if givesBack kind vm = true then _ else _ : Program Unit).Holds _ _ _
  split
  · next back =>
    refine .perform fun held s' effect => ?_
    obtain ⟨now, rfl⟩ := effect.release
    exact ⟨.released found back, mark _ (.released now back)⟩
  · next keeps => exact mark s (.kept (by simpa using keeps))

/-! ## A sweep -/

/-- A row of the task table that a worker was on when the sweep began. -/
def Unfinished (start : Store) (task : Task) : Prop :=
  ∃ row ∈ start.tasks, row.status = .running ∧ row.id = task.id ∧ row.kind = task.kind ∧
    row.vmKey = task.vmKey

/-- What an operation of a sweep does. -/
inductive Sweeps (start : Store) : Event → Prop
  | silent {s : Store} : Sweeps start ⟨s, s, none⟩
  | released {s : Store} {vm : Vm} {now : Instant} (found : s.vm? vm.key = some vm)
      (status : vm.status = .provisioning) :
      Sweeps start ⟨s, (s.release now vm.id).2, none⟩
  | marked {s : Store} {vm : Vm} {why : String} {now : Instant} (found : s.vm? vm.key = some vm)
      (status : vm.status ∈ VmStatus.transient) :
      Sweeps start ⟨s, s.setVm vm.key fun _ => vm.moved .error (failurePatch vm why) now, none⟩
  | failed {s s' : Store} {now cutoff : Instant} {tasks : List Task}
      (failed : s.failAbandoned now cutoff = .ok (tasks, s')) :
      Sweeps start ⟨s, s', none⟩
  | recovers {task : Task} {vm : Vm} {e : Event} (unfinished : Unfinished start task)
      (key : vm.key = task.vmKey) (recovers : Recovers task.kind vm e) : Sweeps start e

variable {start : Store}

/-- Whatever was done to the slots, a stale VM is put into `error` as it was found. -/
theorem sweepVm_holds {Q : Option Vm → Store → Prop} (cutoff : Instant) (maxAge : Duration)
    (found : s.vm? vm.key = some vm) (status : vm.status ∈ VmStatus.transient)
    (next : ∀ moved s', s'.tasks = s.tasks → (∀ k ≠ vm.key, s'.vm? k = s.vm? k) →
      (∀ k, s'.Waits k → s.Waits k) → Q moved s') :
    (sweepVm cutoff maxAge vm).Holds (Sweeps start) Q s := by
  have mark : ∀ t : Store, t.vms = s.vms → t.tasks = s.tasks →
      (markError vm.key vm.status (stuckText vm.status maxAge)
        (vm.status == .provisioning)).Holds (Sweeps start) Q t := by
    intro t vms tasks
    have same : ∀ k, t.vm? k = s.vm? k := fun k => by rw [Store.vm?, vms]; rfl
    have there : t.vm? vm.key = some vm := (same vm.key).trans found
    refine .perform fun moved s' effect => ?_
    obtain ⟨now, rfl, rfl⟩ := effect.transition_of_mem there (by simp)
    have mine : (vm.moved .error (failurePatch vm (stuckText vm.status maxAge)) now).key = vm.key :=
      rfl
    refine ⟨.marked there status, .pure (next _ _ tasks (fun k hk => ?_) fun k waits => ?_)⟩
    · exact (Store.vm?_setVm_of_ne mine hk).trans (same k)
    · exact (waits.of_setVm_ne mine (by simp)).1.congr vms
  unfold sweepVm
  split
  · exact .pure (next _ _ rfl (fun _ _ => rfl) fun _ waits => waits)
  dsimp only
  split
  · next provisioning =>
    refine .perform fun held s' effect => ?_
    obtain ⟨now, rfl⟩ := effect.release
    exact ⟨.released found (by simpa using provisioning), mark _ rfl rfl⟩
  · exact mark s rfl rfl

/-- The VMs of the list are still as they were listed when their turn comes, since no two of them
have one key. -/
theorem sweepVms_holds {Q : List Vm → Store → Prop} (cutoff : Instant) (maxAge : Duration)
    (vms : List Vm) (keys : (vms.map (·.key)).Nodup)
    (found : ∀ vm ∈ vms, s.vm? vm.key = some vm ∧ vm.status ∈ VmStatus.transient)
    (next : ∀ moved s', s'.tasks = s.tasks → (∀ k, s'.Waits k → s.Waits k) → Q moved s') :
    (sweepVms cutoff maxAge vms).Holds (Sweeps start) Q s := by
  induction vms generalizing s Q with
  | nil => exact .pure (next _ _ rfl fun _ waits => waits)
  | cons vm rest ih =>
    obtain ⟨notLater, keys⟩ := List.nodup_cons.mp keys
    obtain ⟨there, status⟩ := found vm List.mem_cons_self
    refine .bind (sweepVm_holds cutoff maxAge there status fun moved s' tasks others before => ?_)
    refine .bind (ih keys ?_ fun more s'' tasks' before' => .pure (next _ _ (tasks'.trans tasks)
      fun k waits => before k (before' k waits)))
    intro x hx
    obtain ⟨there, status⟩ := found x (List.mem_cons_of_mem vm hx)
    have other : x.key ≠ vm.key := fun same => notLater (List.mem_map.mpr ⟨x, hx, same⟩)
    exact ⟨(others x.key other).trans there, status⟩

/-- Once the tasks are recovered, no VM waits that one of them was to create. -/
theorem recoverAll_holds (tasks : List Task) (unfinished : ∀ task ∈ tasks, Unfinished start task) :
    (recoverAll tasks).Holds (Sweeps start) (fun _ s' => s'.tasks = s.tasks ∧
      ∀ key, s'.Waits key → s.Waits key ∧
        ∀ task ∈ tasks, task.kind = .create → task.vmKey ≠ key) s := by
  induction tasks generalizing s with
  | nil => exact .pure ⟨rfl, fun _ waits => ⟨waits, fun _ ht => absurd ht List.not_mem_nil⟩⟩
  | cons task rest ih =>
    have unfinished' := fun x hx => unfinished x (List.mem_cons_of_mem task hx)
    -- What the first recovery leaves is what the others begin with.
    have onward : ∀ t : Store, t.tasks = s.tasks → (∀ key, t.Waits key → s.Waits key) →
        (task.kind = .create → ¬ t.Waits task.vmKey) →
        (recoverAll rest).Holds (Sweeps start) (fun _ s' => s'.tasks = s.tasks ∧
          ∀ key, s'.Waits key → s.Waits key ∧
            ∀ x ∈ task :: rest, x.kind = .create → x.vmKey ≠ key) t := by
      intro t tasks before done
      refine (ih unfinished').imp (fun _ h => h) fun _ s' swept => ?_
      obtain ⟨tasks', later⟩ := swept
      refine ⟨tasks'.trans tasks, fun key waits => ?_⟩
      obtain ⟨there, others⟩ := later key waits
      refine ⟨before key there, List.forall_mem_cons.mpr ⟨fun create same => ?_, others⟩⟩
      exact done create (same ▸ there)
    refine .bind ?_
    cases found : s.vm? task.vmKey with
    | none =>
      refine recoverAborted_gone found .silent _ (onward s rfl (fun _ waits => waits) ?_)
      rintro - ⟨vm, found', -⟩
      cases found.symm.trans found'
    | some vm =>
      have key := (Store.vm?_mem found).2
      refine (recoverAborted_holds found _).imp
        (fun e recovers => .recovers (unfinished task List.mem_cons_self) key recovers)
        fun _ t recovered => onward t recovered.tasks (fun _ waits => (recovered.waits waits).1) ?_
      intro create
      rw [← key] at found ⊢
      exact recovered.not_waits create found

/-- The tasks that a sweep fails are of rows a worker was on. -/
theorem failAbandoned_unfinished {now cutoff : Instant} {tasks : List Task} {s' : Store}
    (h : s.failAbandoned now cutoff = .ok (tasks, s')) (same : s.tasks = start.tasks) :
    ∀ task ∈ tasks, Unfinished start task := by
  intro task ht
  obtain ⟨row, hrow, abandoned, read⟩ := (Store.failAbandoned_ok h).1 task ht
  obtain ⟨id, kind, vmKey⟩ := TaskRow.task_ok read
  simp only [Store.isAbandoned, Bool.and_eq_true, beq_iff_eq] at abandoned
  exact ⟨row, same ▸ hrow, abandoned.1, id.symm, kind.symm, vmKey.symm⟩

/-- The store after a sweep: the rows are as they were, or the abandoned ones are failed, and of
these none was to create a VM that waits. -/
structure Swept (s s' : Store) : Prop where
  waited : ∀ key, s'.Waits key → s.Waits key
  rows : s'.tasks = s.tasks ∨ ∃ now cutoff,
    s'.tasks = Store.updateWhere (Store.isAbandoned cutoff) (fun row =>
      Store.finished row .failed now (some "abandoned by worker")) s.tasks ∧
    ∀ row ∈ s.tasks, Store.isAbandoned cutoff row = true → row.kind = .create →
      ¬ s'.Waits row.vmKey

theorem Swept.none : Swept s s :=
  ⟨fun _ waits => waits, .inl rfl⟩

theorem sweepStale_holds (distinct : s.VmsDistinct) (maxAge : Duration) :
    (sweepStale maxAge).Holds (Sweeps s) (fun _ s' => Swept s s') s := by
  unfold sweepStale
  refine .perform fun now s' effect => ?_
  rw [effect.now]
  refine ⟨.silent, ?_⟩
  split
  · exact .pure .none
  split
  · trivial
  next cutoff _ =>
  refine .perform fun stuck s' effect => ?_
  obtain ⟨rfl, same⟩ := effect.vmsIn
  rw [same]
  refine ⟨.silent, ?_⟩
  have listed : ∀ vm ∈ s.listVmsByStatus VmStatus.transient,
      vm ∈ s.vms ∧ vm.status ∈ VmStatus.transient := by
    intro vm hvm
    simpa [Store.listVmsByStatus] using hvm
  have keys : ((s.listVmsByStatus VmStatus.transient).map (·.key)).Nodup :=
    distinct.keys.sublist (List.filter_sublist.map _)
  have found := fun vm hvm => And.imp_left distinct.vm?_of_mem (listed vm hvm)
  refine .bind (sweepVms_holds cutoff maxAge _ keys found fun moved t tasks before => ?_)
  refine .perform fun answer t' effect => ?_
  rcases effect.failAbandoned with ⟨now, abandoned, ok, rfl⟩ | ⟨e, rfl, rfl⟩
  · refine ⟨.failed ok, .bind ?_⟩
    refine (recoverAll_holds abandoned (failAbandoned_unfinished ok tasks)).imp (fun _ h => h)
      fun _ s' swept => .pure ?_
    obtain ⟨tasks', later⟩ := swept
    obtain ⟨-, failed⟩ := Store.failAbandoned_ok ok
    have vms : t'.vms = t.vms := by rw [failed]
    refine ⟨fun key waits => before key ((later key waits).1.congr vms), .inr ⟨now, .of cutoff, ?_,
      fun row hrow due create waits => ?_⟩⟩
    · rw [tasks', failed, tasks]
    · obtain ⟨task, ht, read⟩ := Store.failAbandoned_returned ok (tasks ▸ hrow) due
      obtain ⟨-, kind, vmKey⟩ := TaskRow.task_ok read
      exact (later _ waits).2 task ht (kind.trans create) vmKey
  · exact ⟨.silent, .pure ⟨before, .inl tasks⟩⟩

end VmFleet.Lifecycle
