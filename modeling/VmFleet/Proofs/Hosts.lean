/-
The hosts on the records of VMs, and what the tasks in the queue ask for. Every
operation leaves the hosts as they are but for the last write of a create, which
has the VM run on the host that the tool was told. What a task asks for is never
changed; a request may put one task behind the others.
-/
import VmFleet.Proofs.Changes

namespace VmFleet

namespace Store

/-- Every record has the host that it had, and no VM comes to run out of `provisioning`; a record
that is new has no host. -/
def HostsKept (s s' : Store) : Prop :=
  ∀ key vm, s'.vm? key = some vm →
    (∃ old, s.vm? key = some old ∧ vm.host = old.host ∧
      (old.status = .provisioning → vm.status ≠ .running)) ∨
    s.vm? key = none ∧ vm.host = none

/-- The VM of the key comes to run out of `provisioning`, on the host, and all other records
stay. -/
def Placed (s s' : Store) (key : Int) (host : Option String) : Prop :=
  (∃ old vm, s.vm? key = some old ∧ old.status = .provisioning ∧ s'.vm? key = some vm ∧
    vm.status = .running ∧ vm.host = host) ∧
  ∀ other ≠ key, s'.vm? other = s.vm? other

/-- What the tasks of the table ask for. -/
def orders (s : Store) : List (TaskKind × Int × TaskParams) :=
  s.tasks.map fun row => (row.kind, row.vmKey, row.params)

variable {s s' : Store} {now : Instant} {key : Int} {id : String} {old vm : Vm}

theorem mem_orders {kind : TaskKind} {params : TaskParams} :
    (kind, key, params) ∈ s.orders ↔
      ∃ row ∈ s.tasks, row.kind = kind ∧ row.vmKey = key ∧ row.params = params := by
  simp [orders]

theorem mem_orders_append {row : TaskRow} (tasks : s'.tasks = s.tasks ++ [row]) {kind : TaskKind}
    {params : TaskParams} : (kind, key, params) ∈ s'.orders ↔
      (kind, key, params) ∈ s.orders ∨ kind = row.kind ∧ key = row.vmKey ∧ params = row.params := by
  simp [orders, tasks]

namespace HostsKept

theorem of_vms (same : s'.vms = s.vms) : HostsKept s s' := by
  intro key vm found
  rw [vm?, same] at found
  refine .inl ⟨vm, found, rfl, fun provisioning running => ?_⟩
  rw [provisioning] at running
  cases running

theorem setVm (found : s.vm? key = some old) (mine : vm.key = key) (host : vm.host = old.host)
    (edge : old.status = .provisioning → vm.status ≠ .running) :
    HostsKept s (s.setVm key fun _ => vm) := by
  intro k vm' there
  by_cases hk : k = key
  · subst hk
    cases (vm?_setVm_self found mine).symm.trans there
    exact .inl ⟨old, found, host, edge⟩
  · rw [vm?_setVm_of_ne mine hk] at there
    exact of_vms rfl k vm' there

theorem removeVm : HostsKept s (s.removeVm key).2 := by
  intro k vm there
  rw [vm?_removeVm] at there
  split at there
  · cases there
  · exact of_vms rfl k vm there

theorem congr {t : Store} (h : HostsKept s s') (vms : t.vms = s'.vms) : HostsKept s t := by
  intro k vm there
  rw [vm?, vms] at there
  exact h k vm there

theorem append_new (distinct : s.VmsDistinct) (isNext : vm.key = s.nextVm)
    (unplaced : vm.host = none) :
    HostsKept s { s with vms := s.vms ++ [vm], nextVm := s.nextVm + 1 } := by
  intro k vm' there
  rw [vm?_append_new isNext distinct] at there
  split at there
  · next hk =>
    cases there
    exact .inr ⟨distinct.fresh_none k (by omega), unplaced⟩
  · exact of_vms rfl k vm' there

end HostsKept

theorem orders_setTask {f : TaskRow → TaskRow}
    (same : ∀ row, ((f row).kind, (f row).vmKey, (f row).params) =
      (row.kind, row.vmKey, row.params)) : (s.setTask id f).orders = s.orders :=
  map_updateWhere _ fun row _ _ => same row

theorem claimNext_orders {task : Task} (h : s.claimNext now = .ok (some task, s')) :
    (task.kind, task.vmKey, task.params) ∈ s.orders ∧ s'.orders = s.orders := by
  rcases claimNext_cases h with ⟨none, -⟩ | ⟨row, _, hrow, -, some, read, rfl⟩
  · cases none
  · cases some
    obtain ⟨_, _, _, _, rfl⟩ := TaskRow.task_eq read
    exact ⟨mem_orders.mpr ⟨row, hrow, rfl, rfl, rfl⟩, orders_setTask fun _ => rfl⟩

theorem failAbandoned_orders {cutoff : Instant} {tasks : List Task}
    (h : s.failAbandoned now cutoff = .ok (tasks, s')) : s'.orders = s.orders := by
  rw [(failAbandoned_ok h).2]
  exact map_updateWhere _ fun _ _ _ => rfl

end Store

/-! ## Workers and janitors -/

namespace Lifecycle

open Store (HostsKept Placed)

variable {settings : Settings} {attempt : Attempt} {task : Task} {start : Store} {kind : TaskKind}
  {vm : Vm} {slots : List Slot} {e : Event}

theorem failurePatch_host (vm : Vm) (why : String) : (failurePatch vm why).host = .keep := by
  unfold failurePatch VmPatch.droppingAddress
  split <;> rfl

theorem Entered.hostsKept (entered : Entered task start vm) {next : VmStatus} {patch : VmPatch}
    (now : Instant) (keep : patch.host = .keep)
    (edge : task.kind = .create → next ≠ .running) :
    HostsKept (start.working vm slots) (start.working (vm.moved next patch now) slots) := by
  have same : (vm.moved next patch now).key = vm.key := rfl
  rw [← Store.setVm_working same]
  refine .setVm (entered.vm?_working slots) rfl ?_ fun provisioning => ?_
  · show patch.host.apply vm.host = vm.host
    rw [keep, FieldWrite.apply_keep]
  · rw [entered.status] at provisioning
    exact edge (VmStatus.via_eq_provisioning.mp provisioning)

theorem Ended.hosts {outcome : Outcome} {before after : Store}
    (h : Ended settings attempt task start outcome before after) :
    HostsKept before after ∨ task.kind = .create ∧
      Placed before after task.vmKey (task.params.host <|> settings.defaultHost) := by
  cases h with
  | @created vm slot slots report now entered kind allocated =>
    refine .inr ⟨kind, ⟨vm, _, entered.key ▸ entered.vm?_working slots, ?_,
      entered.vm?_moved _ _ _ _, rfl, rfl⟩, fun other hk => ?_⟩
    · rw [entered.status, kind]
      rfl
    · rw [Store.vm?_working, Store.vm?_working]
      exact (if_neg (entered.key ▸ hk)).trans (if_neg (entered.key ▸ hk)).symm
  | removed => exact .inl .removeVm
  | settled now entered create =>
    exact .inl (entered.hostsKept now rfl fun kind => absurd kind create)
  | reverted now entered delete undone =>
    refine .inl (entered.hostsKept now (failurePatch_host _ _) fun kind => ?_)
    rw [TaskKind.revert_eq_pending.mpr kind]
    decide
  | failed now entered delete undone =>
    exact .inl (entered.hostsKept now (failurePatch_host _ _) fun _ => by decide)

theorem Handles.hosts (h : Handles settings attempt task start e) :
    HostsKept e.before e.after ∨ task.kind = .create ∧
      Placed e.before e.after task.vmKey (task.params.host <|> settings.defaultHost) := by
  cases h with
  | silent | allocated | called | released => exact .inl (.of_vms rfl)
  | entered entered =>
    obtain ⟨old, now, found, source, rfl⟩ := entered
    obtain ⟨-, key⟩ := Store.vm?_mem found
    have found : start.vm? old.key = some old := key ▸ found
    have kept : HostsKept start (start.setVm old.key fun _ =>
        old.moved task.kind.via .clearError now) := by
      refine .setVm found rfl rfl fun provisioning => ?_
      rw [provisioning] at source
      exact absurd source (VmStatus.provisioning_not_source _)
    exact .inl (kept.congr rfl)
  | ended ended => exact ended.hosts

theorem Recovers.hosts (h : Recovers kind vm e) : HostsKept e.before e.after := by
  cases h with
  | silent | released => exact .of_vms rfl
  | @marked s why now found _ _ =>
    refine .setVm found rfl ?_ fun _ => nofun
    show FieldWrite.apply _ vm.host = vm.host
    unfold VmPatch.droppingAddress
    split <;> rfl

theorem Sweeps.hosts (h : Sweeps start e) : HostsKept e.before e.after := by
  cases h with
  | silent | released => exact .of_vms rfl
  | @marked s vm why now found status =>
    refine .setVm found rfl ?_ fun _ => nofun
    show (failurePatch vm why).host.apply vm.host = vm.host
    rw [failurePatch_host, FieldWrite.apply_keep]
  | failed failed => exact .of_vms (by rw [(Store.failAbandoned_ok failed).2])
  | recovers _ _ recovers => exact recovers.hosts

theorem Handles.orders (h : Handles settings attempt task start e) :
    e.after.orders = e.before.orders := by
  cases h with
  | ended ended => cases ended <;> rfl
  | silent | entered | allocated | called | released => rfl

theorem Recovers.orders (h : Recovers kind vm e) : e.after.orders = e.before.orders := by
  cases h <;> rfl

theorem Sweeps.orders (h : Sweeps start e) : e.after.orders = e.before.orders := by
  cases h with
  | silent | released | marked => rfl
  | failed failed => exact Store.failAbandoned_orders failed
  | recovers _ _ recovers => exact recovers.orders

end Lifecycle

namespace Queue

open Store (HostsKept Placed)

variable {settings : Lifecycle.Settings} {start : Store} {now : Instant} {e : Event}

/-- The host on a record changes with the last write of a create only. -/
theorem Runs.hosts (h : Runs settings start now e) :
    HostsKept e.before e.after ∨ ∃ task claimed, start.claimNext now = .ok (some task, claimed) ∧
      task.kind = .create ∧
      Placed e.before e.after task.vmKey (task.params.host <|> settings.defaultHost) := by
  cases h with
  | silent => exact .inl (.of_vms rfl)
  | claims claim =>
    rcases Store.claimNext_ok claim with ⟨none, -⟩ | ⟨_, _, -, -, -, -, -, -, rfl⟩
    · cases none
    · exact .inl (.of_vms rfl)
  | works claim works =>
    cases works with
    | silent => exact .inl (.of_vms rfl)
    | handles handles =>
      exact handles.hosts.imp id fun placed => ⟨_, _, claim, placed⟩
    | recovers _ _ recovers => exact .inl recovers.hosts
    | records _ recorded => cases recorded <;> exact .inl (.of_vms rfl)

theorem Runs.orders (h : Runs settings start now e) : e.after.orders = e.before.orders := by
  cases h with
  | silent => rfl
  | claims claim => exact (Store.claimNext_orders claim).2
  | works claim works =>
    cases works with
    | silent => rfl
    | handles handles => exact handles.orders
    | recovers _ _ recovers => exact recovers.orders
    | records _ recorded =>
      cases recorded with
      | unknown => rfl
      | ended | requeued => exact Store.orders_setTask fun _ => rfl

end Queue

/-! ## Requests -/

namespace Fleet

open Store (HostsKept)

/-- What a request does to the records of VMs and to the queue. -/
inductive Request.Leaves (s : Store) : Request → Store → Prop
  /-- At most a key is used up. -/
  | aside {request : Request} {s' : Store} (vms : s'.vms = s.vms) (tasks : s'.tasks = s.tasks)
      (next : s.nextVm ≤ s'.nextVm) : Leaves s request s'
  | created {maxAttempts : Nat} {ids : List String} {taskId : String} {draft : Draft}
      {placement : Client.Placement} {vm : Vm} {row : TaskRow} (key : vm.key = s.nextVm)
      (unplaced : vm.host = none) (kind : row.kind = .create) (own : row.vmKey = vm.key) :
      Leaves s (.createVm maxAttempts ids taskId draft placement)
        { s with vms := s.vms ++ [vm], nextVm := s.nextVm + 1, tasks := s.tasks ++ [row] }
  | edited {vmId owner : String} {name description : Option String} {old vm : Vm}
      (found : s.vm? vm.key = some old) (host : vm.host = old.host)
      (status : vm.status = old.status) :
      Leaves s (.updateVm vmId owner name description) (s.setVm vm.key fun _ => vm)
  /-- The task is told the host on the VM's record. -/
  | asked {maxAttempts : Nat} {taskId : String} {kind : TaskKind} {vmId owner : String} {vm : Vm}
      {row : TaskRow} (found : s.vm? vm.key = some vm) (same : row.kind = kind)
      (own : row.vmKey = vm.key) (params : row.params = { host := vm.host }) :
      Leaves s (.ask maxAttempts taskId kind vmId owner) { s with tasks := s.tasks ++ [row] }
  | enqueued {maxAttempts : Nat} {taskId : String} {kind : TaskKind} {vmKey : Int}
      {params : TaskParams} {row : TaskRow} :
      Leaves s (.enqueue maxAttempts taskId kind vmKey params) { s with tasks := s.tasks ++ [row] }

variable {s s' : Store} {now : Instant}

theorem Request.leaves_createVm (distinct : s.VmsDistinct) {maxAttempts : Nat} {ids : List String}
    {taskId : String} {draft : Draft} {placement : Client.Placement} :
    Request.Leaves s (.createVm maxAttempts ids taskId draft placement)
      (Client.createVm s now maxAttempts ids taskId draft placement).2 := by
  simp only [Client.createVm]
  split
  · exact .aside rfl rfl (Int.le_refl _)
  split
  · exact .aside rfl rfl (Int.le_refl _)
  next vm s₁ inserted =>
  obtain ⟨id, -, inserted⟩ := insertFresh_ok inserted
  obtain ⟨-, key, -, -, -, rfl⟩ := Store.insertVm_ok inserted
  split
  · next task s₂ stored =>
    obtain ⟨rfl, -, rfl⟩ := enqueue_ok stored
    exact .created key (Store.insertVm_host inserted) rfl rfl
  · rw [Store.removeVm_append_new key distinct]
    exact .aside rfl rfl (Int.le_add_one (Int.le_refl _))

theorem Request.leaves_of_does {call : AllocatorCall} {request : Request}
    (h : AllocatorCall.Does s now call s') : request.Leaves s s' := by
  cases h with
  | refused | switched | released => exact .aside rfl rfl (Int.le_refl _)
  | created read stored =>
    obtain ⟨-, -, rfl⟩ := Store.insertPool_ok stored
    exact .aside rfl rfl (Int.le_refl _)
  | granted grant =>
    rw [grant.slots_only]
    exact .aside rfl rfl (Int.le_refl _)

theorem Request.leaves (request : Request) (now : Instant) (distinct : s.VmsDistinct) :
    request.Leaves s (request.apply now s) := by
  have refused : ∀ {request : Request}, request.Leaves s s := .aside rfl rfl (Int.le_refl _)
  cases request with
  | createPool name cidr gateway description =>
    exact Request.leaves_of_does
      (AllocatorCall.does_apply (.createPool name cidr gateway description) now s)
  | setPoolActive name active =>
    exact Request.leaves_of_does (AllocatorCall.does_apply (.setActive name active) now s)
  | createVm => exact Request.leaves_createVm distinct
  | updateVm vmId owner name description =>
    simp only [Request.apply]
    cases done : Client.updateVm s now vmId owner name description with
    | error e => exact refused
    | ok r =>
      obtain ⟨_, -, done⟩ := bind_ok done
      obtain ⟨_, -, done⟩ := bind_ok done
      obtain ⟨vm, -, done⟩ := bind_ok done
      obtain ⟨old, found, -, status, -, same⟩ := Store.updateVmDetails_ok done
      simp only [AllocatorCall.committed, same]
      exact .edited found (Store.updateVmDetails_host done found) status
  | ask maxAttempts taskId kind vmId owner =>
    simp only [Request.apply]
    cases done : Client.request s now maxAttempts taskId kind vmId owner with
    | error e => exact refused
    | ok r =>
      obtain ⟨vm, owned, stored⟩ := bind_ok done
      have member : vm ∈ s.vms := by
        simp only [Client.getVm] at owned
        split at owned
        · next found =>
          split at owned
          · cases owned
            exact List.mem_of_find?_eq_some found
          · cases owned
        · cases owned
      split at stored
      · obtain ⟨task, s'⟩ := r
        obtain ⟨rfl, -, rfl⟩ := enqueue_ok stored
        exact .asked (distinct.vm?_of_mem member) rfl rfl rfl
      · cases stored
  | enqueue maxAttempts taskId kind vmKey params =>
    simp only [Request.apply]
    cases stored : Queue.enqueue s now maxAttempts taskId kind vmKey params with
    | error e => exact refused
    | ok r =>
      obtain ⟨-, -, same⟩ := enqueue_ok stored
      simp only [AllocatorCall.committed, same]
      exact .enqueued

theorem Request.Leaves.hosts {request : Request} (h : request.Leaves s s')
    (distinct : s.VmsDistinct) : HostsKept s s' := by
  cases h with
  | aside vms => exact .of_vms vms
  | created key unplaced => exact (HostsKept.append_new distinct key unplaced).congr rfl
  | edited found host status =>
    refine .setVm found rfl host fun provisioning running => ?_
    rw [status, provisioning] at running
    cases running
  | asked | enqueued => exact .of_vms rfl

/-! ## The entries of a log -/

/-- What an entry does to hosts and to the queue. -/
inductive Entry.Rehosts (entry : Entry) : Prop
  | request {request : Request} {now : Instant} (ofStep : entry.step = .request request now)
      (leaves : request.Leaves entry.event.before entry.event.after) : Rehosts entry
  | kept (hosts : HostsKept entry.event.before entry.event.after)
      (orders : entry.event.after.orders = entry.event.before.orders) : Rehosts entry
  | placed {queue : QueueConfig} {settings : Lifecycle.Settings} {jitter : Jitter} {now : Instant}
      {task : Task} {claimed : Store}
      (job : entry.step.job? = some (.runOnce queue settings jitter, now))
      (claim : entry.start.claimNext now = .ok (some task, claimed)) (kind : task.kind = .create)
      (placed : Store.Placed entry.event.before entry.event.after task.vmKey
        (task.params.host <|> settings.defaultHost))
      (orders : entry.event.after.orders = entry.event.before.orders) : Rehosts entry

theorem Job.Does.rehosts {step : Step} {job : Job} {e : Event} (h : job.Does s now e)
    (ofStep : step.job? = some (job, now)) : Entry.Rehosts ⟨step, s, e⟩ := by
  cases job with
  | runOnce queue settings jitter =>
    have runs : Queue.Runs settings s now e := h
    rcases runs.hosts with kept | ⟨task, claimed, claim, kind, placed⟩
    · exact .kept kept runs.orders
    · exact .placed ofStep claim kind placed runs.orders
  | sweep maxAge =>
    have sweeps : Lifecycle.Sweeps s e := h
    exact .kept sweeps.hosts sweeps.orders
  | recover kind vmKey why =>
    rcases h with ⟨same, -⟩ | ⟨vm, -, recovers⟩
    · exact .kept (by rw [same]; exact .of_vms rfl) (by rw [same])
    · exact .kept recovers.hosts recovers.orders

theorem Step.rehosts (step : Step) (distinct : s.VmsDistinct) :
    ∀ e ∈ step.events s, Entry.Rehosts ⟨step, s, e⟩ := by
  intro e he
  cases step with
  | request request now =>
    rw [List.mem_singleton.mp he]
    exact .request rfl (request.leaves now distinct)
  | work job tool now => exact (job.does tool now distinct e he).rehosts rfl
  | death job tool now operations =>
    exact (job.does tool now distinct e (List.mem_of_mem_take he)).rehosts rfl

/-- Every entry of a use belongs to one of its steps, and does one of these things. -/
theorem log_rehosts {steps : List Step} (distinct : s.VmsDistinct) (sound : s.SlotsSound) :
    ∀ entry ∈ log s steps, entry.step ∈ steps ∧ entry.Rehosts := by
  induction steps generalizing s with
  | nil => exact fun entry he => absurd he List.not_mem_nil
  | cons step rest ih =>
    obtain ⟨⟨distinct', sound'⟩, -⟩ := log_changes [step] distinct sound
    intro entry he
    rcases List.mem_append.mp he with he | he
    · obtain ⟨e, member, rfl⟩ := List.mem_map.mp he
      exact ⟨List.mem_cons_self, step.rehosts distinct e member⟩
    · obtain ⟨member, rehosts⟩ := ih distinct' sound' entry he
      exact ⟨List.mem_cons_of_mem step member, rehosts⟩

end Fleet

end VmFleet
