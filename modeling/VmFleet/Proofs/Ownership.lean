/-
What an owner's request shows and touches: nothing but the VMs of that owner.
Two stores that hold the same VMs of an owner answer every request of that
owner alike, whatever else they hold, and neither is changed where it is about
VMs of others.
-/
import VmFleet.Client.Requests
import VmFleet.Proofs.Clock
import VmFleet.Proofs.TaskRecords
import Mathlib.Data.List.Sort

namespace VmFleet

namespace Store

variable {s t : Store} {owner : String} {vm : Vm}

/-- The stores hold the same VMs of the owner. -/
def SameVmsOf (owner : String) (s t : Store) : Prop :=
  ∀ vm : Vm, vm.owner = owner → (vm ∈ s.vms ↔ vm ∈ t.vms)

/-! ## The order of a listing -/

theorem newestFirst_iff {a b : Vm} :
    newestFirst a b = true ↔
      b.createdAt < a.createdAt ∨ a.createdAt = b.createdAt ∧ b.key ≤ a.key := by
  simp [newestFirst]

theorem newestFirst_trans (a b c : Vm) (hab : newestFirst a b = true)
    (hbc : newestFirst b c = true) : newestFirst a c = true := by
  simp only [newestFirst_iff, Instant.lt_def] at *
  grind

theorem newestFirst_total (a b : Vm) : (newestFirst a b || newestFirst b a) = true := by
  rw [Bool.or_eq_true, newestFirst_iff, newestFirst_iff]
  rcases Instant.lt_trichotomy a.createdAt b.createdAt with earlier | same | later
  · exact .inr (.inl earlier)
  · have keys := Int.le_total a.key b.key
    exact keys.symm.imp (fun le => .inr ⟨same, le⟩) fun le => .inr ⟨same.symm, le⟩
  · exact .inl (.inl later)

theorem newestFirst_antisymm {a b : Vm} (hab : newestFirst a b = true)
    (hba : newestFirst b a = true) : a.key = b.key := by
  simp only [newestFirst_iff, Instant.lt_def] at *
  grind

/-- The VMs of an owner are listed alike wherever they are the same. -/
theorem SameVmsOf.vmsOfOwner (h : SameVmsOf owner s t) (distinct : s.VmsDistinct)
    (distinct' : t.VmsDistinct) : s.vmsOfOwner owner = t.vmsOfOwner owner := by
  have nodup : ∀ {u : Store}, u.VmsDistinct → (u.vms.filter (·.owner == owner)).Nodup :=
    fun distinct => (List.Nodup.of_map _ distinct.keys).filter _
  have rows : (s.vms.filter (·.owner == owner)).Perm (t.vms.filter (·.owner == owner)) := by
    refine (List.perm_ext_iff_of_nodup (nodup distinct) (nodup distinct')).mpr fun vm => ?_
    simp only [List.mem_filter, beq_iff_eq]
    exact and_congr_left (h vm)
  have sorted : ∀ u : Store, (u.vmsOfOwner owner).Pairwise fun a b => newestFirst a b = true :=
    fun u => List.pairwise_mergeSort newestFirst_trans newestFirst_total _
  refine List.Perm.eq_of_pairwise (fun a b ha hb hab hba => ?_) (sorted s) (sorted t)
    ((List.mergeSort_perm _ _).trans (rows.trans (List.mergeSort_perm _ _).symm))
  simp only [Store.vmsOfOwner, List.mem_mergeSort, List.mem_filter, beq_iff_eq] at ha hb
  have ha := (h a ha.2).mp ha.1
  exact List.inj_on_of_nodup_map distinct'.keys ha hb.1 (newestFirst_antisymm hab hba)

end Store

namespace Client

open Store (SameVmsOf)

variable {s t : Store} {owner vmId : String} {vm : Vm}

theorem getVm_eq_ok (distinct : s.VmsDistinct) :
    getVm s vmId owner = .ok vm ↔ vm ∈ s.vms ∧ vm.id = vmId ∧ vm.owner = owner := by
  rw [← and_assoc, ← distinct.vmById?_iff, getVm]
  split
  · next found known =>
    split <;> grind
  · next none =>
    simp [none]

theorem getVm_error {e : Error} (h : getVm s vmId owner = .error e) : e = .vmNotFound vmId := by
  rw [getVm] at h
  split at h
  · split at h
    · cases h
    · exact (Except.error.inj h).symm
  · exact (Except.error.inj h).symm

theorem getVm_congr (same : SameVmsOf owner s t) (distinct : s.VmsDistinct)
    (distinct' : t.VmsDistinct) : getVm s vmId owner = getVm t vmId owner := by
  have known : ∀ vm, getVm s vmId owner = .ok vm ↔ getVm t vmId owner = .ok vm := by
    intro vm
    rw [getVm_eq_ok distinct, getVm_eq_ok distinct']
    exact ⟨fun ⟨hvm, id, own⟩ => ⟨(same vm own).mp hvm, id, own⟩,
      fun ⟨hvm, id, own⟩ => ⟨(same vm own).mpr hvm, id, own⟩⟩
  cases first : getVm s vmId owner with
  | ok vm => rw [(known vm).mp first]
  | error e =>
    cases second : getVm t vmId owner with
    | ok vm => rw [(known vm).mpr second] at first; cases first
    | error e' => rw [getVm_error first, getVm_error second]

theorem updateVm_eq (distinct : s.VmsDistinct) (now : Instant) (name description : Option String) :
    updateVm s now vmId owner name description = (do
      checkRule (name.bind Draft.nameFault?)
      checkRule (description.bind Draft.descriptionFault?)
      let vm ← getVm s vmId owner
      let edited := vm.edited name description now.cutToMicros
      return (edited, s.setVm vm.key fun _ => edited)) := by
  rw [updateVm]
  refine bind_congr fun _ => bind_congr fun _ => ?_
  cases own : getVm s vmId owner with
  | error e => rfl
  | ok vm =>
    have found := distinct.vm?_of_mem ((getVm_eq_ok distinct).mp own).1
    exact Store.updateVmDetails_of_found name description found

theorem enqueue_eq (maxAttempts : Nat) (taskId : String) (kind : TaskKind) (key : Int)
    (params : TaskParams) (now : Instant) :
    Queue.enqueue s now maxAttempts taskId kind key params =
      let task := Task.fresh taskId kind key params maxAttempts now
      if (s.taskRow? taskId).isSome then .error (.unique "tasks.id")
      else .ok (task, { s with tasks := s.tasks ++ [.ofTask task] }) := by
  have id : (Task.fresh taskId kind key params maxAttempts now).id = taskId := rfl
  simp only [Queue.enqueue, Store.insertTask, id]
  split <;> rfl

/-! ## Requests of an owner -/

/-- What an owner may ask about the VMs there are. -/
inductive OwnerRequest where
  | get (vmId : String)
  | list (offset limit : Nat)
  | update (vmId : String) (name description : Option String)
  /-- A delete, a start, a stop or a restart. -/
  | task (kind : TaskKind) (vmId : String)

inductive Answer where
  | found (vm : Vm)
  | page (vms : List Vm) (total : Nat)
  | edited (vm : Vm)
  | accepted (task : Task)
  | refused (e : Error)
  deriving DecidableEq

/-- The answers differ at most in the times of the requests and in the id drawn for the task. -/
def Answer.Alike : Answer → Answer → Prop
  | .edited a, .edited b => a = { b with updatedAt := a.updatedAt }
  | .accepted a, .accepted b =>
    a = { b with id := a.id, notBefore := a.notBefore, createdAt := a.createdAt }
  | a, b => a = b

/-- The answer and the store of a request that may be refused; if it is, nothing changes. -/
def answered {α : Type} (s : Store) (shape : α → Answer) :
    Except Error (α × Store) → Answer × Store
  | .ok (a, s') => (shape a, s')
  | .error e => (.refused e, s)

namespace OwnerRequest

/-- The answer to the request of an owner, and the store after it. -/
def answer (request : OwnerRequest) (owner : String) (maxAttempts : Nat) (now : Instant)
    (taskId : String) (s : Store) : Answer × Store :=
  match request with
  | .get vmId => answered s .found ((getVm s vmId owner).map fun vm => (vm, s))
  | .list offset limit =>
    let (vms, total) := listVms s owner offset limit
    (.page vms total, s)
  | .update vmId name description =>
    answered s .edited (updateVm s now vmId owner name description)
  | .task kind vmId =>
    answered s .accepted (Client.request s now maxAttempts taskId kind vmId owner)

end OwnerRequest

/-- What a request of the owner may leave: VMs of others as they were, no new task but for a VM of
the owner, and pools and slots as they were. -/
structure SparesOthers (owner : String) (s s' : Store) : Prop where
  vms : s'.vms.filter (·.owner != owner) = s.vms.filter (·.owner != owner)
  tasks : ∃ new, s'.tasks = s.tasks ++ new ∧ ∀ row ∈ new,
    (∃ vm ∈ s.vms, vm.key = row.vmKey) ∧ ∀ vm ∈ s.vms, vm.key = row.vmKey → vm.owner = owner
  pools : s'.pools = s.pools
  slots : s'.slots = s.slots

namespace SparesOthers

theorem refl (owner : String) (s : Store) : SparesOthers owner s s :=
  ⟨rfl, ⟨[], (List.append_nil _).symm, fun _ h => absurd h List.not_mem_nil⟩, rfl, rfl⟩

/-- A record of the owner's may be replaced by one of the same owner. -/
theorem setVm {edited : Vm} (distinct : s.VmsDistinct) (hvm : vm ∈ s.vms) (own : vm.owner = owner)
    (kept : edited.owner = owner) : SparesOthers owner s (s.setVm vm.key fun _ => edited) := by
  refine ⟨Store.filter_updateWhere_of_failed fun x hx hk => ?_, (refl owner s).tasks, rfl, rfl⟩
  have only : x = vm := List.inj_on_of_nodup_map distinct.keys hx hvm (by simpa using hk)
  simp [only, own, kept]

theorem append {row : TaskRow} (distinct : s.VmsDistinct) (hvm : vm ∈ s.vms)
    (own : vm.owner = owner) (key : row.vmKey = vm.key) :
    SparesOthers owner s { s with tasks := s.tasks ++ [row] } := by
  refine ⟨rfl, ⟨[row], rfl, fun new hnew => ?_⟩, rfl, rfl⟩
  rw [List.mem_singleton.mp hnew, key]
  refine ⟨⟨vm, hvm, rfl⟩, fun x hx hk => ?_⟩
  rw [List.inj_on_of_nodup_map distinct.keys hx hvm hk, own]

end SparesOthers

/-- An owner is answered by the VMs of that owner alone, and touches no others: two stores that
hold the same VMs of the owner answer alike. The drawn ids are to be taken in both stores or in
neither. -/
theorem own_vms_decide (request : OwnerRequest) (maxAttempts : Nat) (now now' : Instant)
    (taskId taskId' : String) (same : SameVmsOf owner s t) (distinct : s.VmsDistinct)
    (distinct' : t.VmsDistinct)
    (drawn : (s.taskRow? taskId).isSome = (t.taskRow? taskId').isSome) :
    Answer.Alike (request.answer owner maxAttempts now taskId s).1
        (request.answer owner maxAttempts now' taskId' t).1 ∧
      SparesOthers owner s (request.answer owner maxAttempts now taskId s).2 ∧
      SparesOthers owner t (request.answer owner maxAttempts now' taskId' t).2 := by
  cases request with
  | get vmId =>
    simp only [OwnerRequest.answer, getVm_congr same distinct distinct']
    cases getVm t vmId owner with
    | error e => exact ⟨rfl, .refl _ _, .refl _ _⟩
    | ok vm => exact ⟨rfl, .refl _ _, .refl _ _⟩
  | list offset limit =>
    have page : listVms s owner offset limit = listVms t owner offset limit := by
      simp only [listVms, Store.listVmsByOwner, same.vmsOfOwner distinct distinct']
    simp only [OwnerRequest.answer, page]
    exact ⟨rfl, .refl _ _, .refl _ _⟩
  | update vmId name description =>
    simp only [OwnerRequest.answer, updateVm_eq distinct, updateVm_eq distinct',
      getVm_congr same distinct distinct']
    cases checkRule (name.bind Draft.nameFault?) with
    | error e => exact ⟨rfl, .refl _ _, .refl _ _⟩
    | ok _ =>
    cases checkRule (description.bind Draft.descriptionFault?) with
    | error e => exact ⟨rfl, .refl _ _, .refl _ _⟩
    | ok _ =>
    cases known : getVm t vmId owner with
    | error e => exact ⟨rfl, .refl _ _, .refl _ _⟩
    | ok vm =>
      obtain ⟨hvm, -, own⟩ := (getVm_eq_ok distinct').mp known
      exact ⟨rfl, .setVm distinct ((same vm own).mpr hvm) own own, .setVm distinct' hvm own own⟩
  | task kind vmId =>
    simp only [OwnerRequest.answer, Client.request, getVm_congr same distinct distinct']
    cases known : getVm t vmId owner with
    | error e => exact ⟨rfl, .refl _ _, .refl _ _⟩
    | ok vm =>
      obtain ⟨hvm, -, own⟩ := (getVm_eq_ok distinct').mp known
      dsimp only [bind, Except.bind]
      split
      · simp only [enqueue_eq, drawn]
        split
        · exact ⟨rfl, .refl _ _, .refl _ _⟩
        · exact ⟨rfl, .append distinct ((same vm own).mpr hvm) own rfl,
            .append distinct' hvm own rfl⟩
      · exact ⟨rfl, .refl _ _, .refl _ _⟩

/-- A running VM without a host. -/
def runningVm (key : Int) (id owner : String) : Vm where
  key := key
  id := id
  name := id
  description := none
  vcpus := 1
  memoryMb := 512
  address := none
  host := none
  kernelPath := none
  rootfsPath := none
  status := .running
  errorMessage := none
  owner := owner
  createdAt := ⟨key, 0⟩
  updatedAt := ⟨key, 0⟩

/-- A store with a VM of one owner, and one that also holds a VM of another. -/
def ofAlice : Store :=
  { vms := [runningVm 1 "srv-a" "alice"], nextVm := 2 }

def ofAliceAndBob : Store :=
  { vms := [runningVm 1 "srv-a" "alice", runningVm 2 "srv-b" "bob"], nextVm := 3 }

/-- To stop a VM of another owner is refused as if there were none. -/
theorem other_vm_is_as_none :
    let stop := (OwnerRequest.task .stop "srv-b").answer "alice" 3
    (stop ⟨9, 0⟩ "task-1" ofAliceAndBob).1 = .refused (.vmNotFound "srv-b") ∧
      Answer.Alike (stop ⟨9, 0⟩ "task-1" ofAliceAndBob).1 (stop ⟨10, 0⟩ "task-2" ofAlice).1 ∧
      SparesOthers "alice" ofAliceAndBob (stop ⟨9, 0⟩ "task-1" ofAliceAndBob).2 := by
  have same : SameVmsOf "alice" ofAliceAndBob ofAlice := by
    intro vm own
    have notBob : vm ≠ runningVm 2 "srv-b" "bob" := by
      rintro rfl
      exact absurd own (by decide)
    simp [ofAlice, ofAliceAndBob, notBob]
  obtain ⟨alike, spares, -⟩ := own_vms_decide (.task .stop "srv-b") 3 ⟨9, 0⟩ ⟨10, 0⟩ "task-1"
    "task-2" same ⟨by decide, by decide, by decide⟩ ⟨by decide, by decide, by decide⟩ rfl
  exact ⟨by decide +kernel, alike, spares⟩

end Client

end VmFleet
