/-
A whole sweep, table by table. Its first pass goes through the VMs that were listed
in a transient status, its second through the tasks that it failed, and a VM may be
met in both or by several tasks. What carries the result: a record that was moved
to `error` is moved by no later step, so each VM is moved at most once and as it
was found; a slot that was freed is freed no more; and the records keep their ids,
so that an address is given back for the VM that the sweep began with.
-/
import VmFleet.Proofs.Staleness
import Mathlib.Data.List.Forall2

namespace VmFleet

/-! ## What a sweep leaves alone -/

namespace Store

/-- A slot after the sweep: as it was, or given back for one of the holders that may lose theirs. -/
inductive GivenBack (may : String → Prop) (slot : Slot) : Slot → Prop
  | same : GivenBack may slot slot
  | freed {id} (now : Instant) (active : slot.active = true) (holder : slot.holder = some id)
      (allowed : may id) : GivenBack may slot (freed slot now)

/-- The store but for its tasks, its records, which are of the same VMs, and slots that were given
back for holders that may lose theirs. -/
structure SameBut (may : String → Prop) (s t : Store) : Prop where
  vms : t.vms.map (fun vm => (vm.key, vm.id)) = s.vms.map fun vm => (vm.key, vm.id)
  slots : List.Forall₂ (GivenBack may) s.slots t.slots
  rest : t = { s with vms := t.vms, slots := t.slots, tasks := t.tasks }

variable {may : String → Prop} {s t u : Store} {key : Int} {vm old : Vm} {a b c : Slot}

theorem GivenBack.trans (h : GivenBack may a b) (h' : GivenBack may b c) : GivenBack may a c := by
  cases h with
  | same => exact h'
  | freed now active holder allowed =>
    cases h' with
    | same => exact .freed now active holder allowed
    | freed _ active' => cases active'

theorem GivenBack.mono {may' : String → Prop} (more : ∀ id, may id → may' id)
    (h : GivenBack may a b) : GivenBack may' a b := by
  cases h with
  | same => exact .same
  | freed now active holder allowed => exact .freed now active holder (more _ allowed)

namespace SameBut

theorem mono {may' : String → Prop} (more : ∀ id, may id → may' id) (h : SameBut may s t) :
    SameBut may' s t :=
  ⟨h.vms, h.slots.imp fun _ _ slot => slot.mono more, h.rest⟩

theorem refl (may : String → Prop) (s : Store) : SameBut may s s :=
  ⟨rfl, List.forall₂_same.mpr fun _ _ => .same, rfl⟩

theorem trans (h : SameBut may s t) (h' : SameBut may t u) : SameBut may s u := by
  refine ⟨h'.vms.trans h.vms, ?_, ?_⟩
  · have chain : ∀ {xs ys zs : List Slot}, List.Forall₂ (GivenBack may) xs ys →
        List.Forall₂ (GivenBack may) ys zs → List.Forall₂ (GivenBack may) xs zs := by
      intro xs ys zs first
      induction first generalizing zs with
      | nil => exact id
      | cons head _ ih =>
        rintro (_ | ⟨head', tail'⟩)
        exact .cons (head.trans head') (ih tail')
    exact chain h.slots h'.slots
  · rw [h'.rest, h.rest]

theorem keys (h : SameBut may s t) : t.vms.map (·.key) = s.vms.map (·.key) := by
  have first := congrArg (List.map Prod.fst) h.vms
  simpa only [List.map_map, Function.comp_def] using first

theorem origin (h : SameBut may s t) (found : t.vm? key = some vm) :
    ∃ old ∈ s.vms, old.key = key ∧ old.id = vm.id := by
  obtain ⟨member, rfl⟩ := vm?_mem found
  have there : (vm.key, vm.id) ∈ s.vms.map fun vm => (vm.key, vm.id) :=
    h.vms ▸ List.mem_map.mpr ⟨vm, member, rfl⟩
  obtain ⟨old, hold, same⟩ := List.mem_map.mp there
  obtain ⟨key, id⟩ := Prod.mk.inj same
  exact ⟨old, hold, key, id⟩

theorem setTasks (h : SameBut may s t) (rows : List TaskRow) :
    SameBut may s { t with tasks := rows } :=
  ⟨h.vms, h.slots, congrArg (fun u : Store => { u with tasks := rows }) h.rest⟩

theorem setVm (distinct : (s.vms.map (·.key)).Nodup) (found : s.vm? old.key = some old)
    (key : vm.key = old.key) (id : vm.id = old.id) :
    SameBut may s (s.setVm old.key fun _ => vm) := by
  refine ⟨map_updateWhere _ fun x hx same => ?_, List.forall₂_same.mpr fun _ _ => .same, rfl⟩
  have mine : x = old :=
    List.inj_on_of_nodup_map distinct hx (vm?_mem found).1 (by simpa using same)
  rw [mine, key, id]

theorem release (now : Instant) {id : String} (allowed : may id) :
    SameBut may s (s.release now id).2 := by
  refine ⟨rfl, ?_, rfl⟩
  rw [Store.release, updateWhere, List.forall₂_map_right_iff, List.forall₂_same]
  intro slot _
  split
  · next held =>
    simp only [Bool.and_eq_true, beq_iff_eq] at held
    exact .freed now held.2 held.1 allowed
  · exact .same

end SameBut

end Store

namespace Lifecycle

open Program (perform)
open Store (SameBut Apart)

variable {may : String → Prop} {s s' t : Store} {vm x : Vm} {key : Int} {cutoff : Instant}
  {maxAge : Duration} {moved : Option Vm}

theorem SweptVm.sameBut (h : SweptVm cutoff maxAge vm s moved s')
    (distinct : (s.vms.map (·.key)).Nodup) (found : s.vm? vm.key = some vm)
    (allowed : vm.status = .provisioning → ¬ cutoff ≤ vm.updatedAt → may vm.id) :
    SameBut may s s' := by
  cases h with
  | recent => exact .refl may s
  | kept => exact .setVm distinct found rfl rfl
  | @freed now now' old early =>
    exact (SameBut.release now' (allowed early old)).trans (.setVm distinct found rfl rfl)

/-- The first pass gives back addresses of VMs that are stale in `provisioning`. -/
theorem sweepVms_sameBut (cutoff : Instant) (maxAge : Duration) (vms : List Vm)
    (keys : (vms.map (·.key)).Nodup) (distinct : (s.vms.map (·.key)).Nodup)
    (found : ∀ vm ∈ vms, s.vm? vm.key = some vm)
    (allowed : ∀ vm ∈ vms, vm.status = .provisioning → ¬ cutoff ≤ vm.updatedAt → may vm.id) :
    (sweepVms cutoff maxAge vms).Holds (fun _ => True)
      (fun _ s' => SameBut may s s' ∧ s'.tasks = s.tasks) s := by
  induction vms generalizing s with
  | nil => exact .pure ⟨.refl may s, rfl⟩
  | cons vm rest ih =>
    obtain ⟨notLater, keys⟩ := List.nodup_cons.mp keys
    have there := found vm List.mem_cons_self
    refine .bind ((sweepVm_swept cutoff maxAge there).imp (fun _ h => h) fun moved t swept => .bind ?_)
    have first := swept.sameBut distinct there (allowed vm List.mem_cons_self)
    refine (ih keys (first.keys ▸ distinct) (fun x hx => (swept.rest notLater found x hx).2)
      fun x hx => allowed x (List.mem_cons_of_mem vm hx)).imp (fun _ h => h) fun _ s' later => ?_
    exact .pure ⟨first.trans later.1, later.2.trans swept.tasks⟩

theorem Recovered.sameBut {kind : TaskKind} (h : Recovered kind vm s s')
    (distinct : (s.vms.map (·.key)).Nodup) (found : s.vm? vm.key = some vm)
    (allowed : kind = .create → may vm.id) : SameBut may s s' := by
  obtain ⟨t, why, now, freed, rfl⟩ := h
  have slots : SameBut may s t := by
    cases freed with
    | kept => exact .refl may s
    | released now back => exact .release now (allowed (by simp_all [givesBack]))
  have there : t.vm? vm.key = some vm := by rw [Store.vm?, freed.vms]; exact found
  split
  · exact slots.trans (.setVm (slots.keys ▸ distinct) there rfl rfl)
  · exact slots

/-- The second pass gives back addresses of VMs that tasks of the list were to create. -/
theorem recoverAll_sameBut (tasks : List Task) (distinct : (s.vms.map (·.key)).Nodup)
    (before : SameBut may s t)
    (allowed : ∀ task ∈ tasks, task.kind = .create → ∀ vm ∈ s.vms, vm.key = task.vmKey → may vm.id) :
    (recoverAll tasks).Holds (fun _ => True)
      (fun _ s' => SameBut may s s' ∧ s'.tasks = t.tasks) t := by
  induction tasks generalizing t with
  | nil => exact .pure ⟨before, rfl⟩
  | cons task rest ih =>
    have allowed' := fun x hx => allowed x (List.mem_cons_of_mem task hx)
    refine .bind ?_
    cases found : t.vm? task.vmKey with
    | none => exact recoverAborted_gone found trivial _ (ih before allowed')
    | some vm =>
      have own := (Store.vm?_mem found).2
      refine (recoverAborted_holds found _).imp (fun _ _ => trivial) fun _ t' recovered => ?_
      have first : SameBut may t t' := by
        refine recovered.sameBut (before.keys ▸ distinct) (by rw [own]; exact found) fun create => ?_
        obtain ⟨old, hold, key, id⟩ := before.origin found
        exact id ▸ allowed task List.mem_cons_self create old hold key
      exact (ih (before.trans first) allowed').imp (fun _ h => h) fun _ s' later =>
        ⟨later.1, later.2.trans recovered.tasks⟩

/-! ## What becomes of one VM -/

/-- What a sweep makes of a record, given whether it is stale and the tasks that are recovered: it
stays as it was, or it is moved to `error` with a message. The address goes from the record of a VM
that is stale in `provisioning` or that a recovered task was to create. -/
inductive Fate {τ : Type} (stale : Prop) (tasks : List (TaskOf τ)) (vm : Vm) : Vm → Prop
  | kept (recent : ¬ stale)
      (spared : ∀ task ∈ tasks, task.vmKey = vm.key → marks task.kind vm = false) :
      Fate stale tasks vm vm
  | moved {why : String} {drop : Bool} {now : Instant}
      (cause : stale ∧ drop = (vm.status == .provisioning) ∨
        ∃ task ∈ tasks, task.vmKey = vm.key ∧ marks task.kind vm = true ∧
          drop = givesBack task.kind vm) :
      Fate stale tasks vm (vm.moved .error ((VmPatch.withError why).droppingAddress drop) now)

theorem Fate.congr {τ υ : Type} {stale : Prop} {tasks : List (TaskOf τ)} {others : List (TaskOf υ)}
    {left : Vm} (h : Fate stale tasks vm left)
    (known : ∀ task ∈ tasks, ∃ other ∈ others, other.kind = task.kind ∧ other.vmKey = task.vmKey)
    (all : ∀ other ∈ others, ∃ task ∈ tasks, task.kind = other.kind ∧ task.vmKey = other.vmKey) :
    Fate stale others vm left := by
  cases h with
  | kept recent spared =>
    refine .kept recent fun other hother own => ?_
    obtain ⟨task, ht, kind, vmKey⟩ := all other hother
    exact kind ▸ spared task ht (vmKey.trans own)
  | moved cause =>
    refine .moved (cause.imp_right ?_)
    rintro ⟨task, ht, own, marked, drops⟩
    obtain ⟨other, hother, kind, vmKey⟩ := known task ht
    exact ⟨other, hother, vmKey.trans own, kind ▸ marked, kind ▸ drops⟩

/-- A record that a recovery put into `error` is marked by no other. -/
theorem marks_recovered (kind kind' : TaskKind) (vm : Vm) (why : String) (now : Instant) :
    marks kind' (recovered kind vm why now) = false := by
  simp [marks, recovered, VmStatus.isTransient, VmStatus.transient]

/-- The first recovery that marks a VM moves it; the others let it be. -/
theorem recoverAll_fate (tasks : List Task) (found : s.vm? x.key = some x) :
    (recoverAll tasks).Holds (fun _ => True)
      (fun _ s' => ∃ left, s'.vm? x.key = some left ∧ Fate False tasks x left) s := by
  induction tasks generalizing s with
  | nil => exact .pure ⟨x, found, .kept id fun _ h => absurd h List.not_mem_nil⟩
  | cons task rest ih =>
    -- A task that does not mark the VM adds nothing to what the others do.
    have onward : ∀ t : Store, t.vm? x.key = some x →
        (task.vmKey = x.key → marks task.kind x = false) →
        (recoverAll rest).Holds (fun _ => True)
          (fun _ s' => ∃ left, s'.vm? x.key = some left ∧ Fate False (task :: rest) x left) t := by
      intro t found spared
      refine (ih found).imp (fun _ h => h) fun _ s' later => ?_
      obtain ⟨left, there, fate⟩ := later
      refine ⟨left, there, ?_⟩
      cases fate with
      | kept recent spared' => exact .kept recent (List.forall_mem_cons.mpr ⟨spared, spared'⟩)
      | moved cause =>
        obtain ⟨other, hother, marked⟩ := cause.resolve_left And.left
        exact .moved (.inr ⟨other, List.mem_cons_of_mem task hother, marked⟩)
    refine .bind ?_
    cases there : s.vm? task.vmKey with
    | none =>
      refine recoverAborted_gone there trivial _ (onward s found fun own => ?_)
      rw [own, found] at there
      cases there
    | some vm =>
      have own := (Store.vm?_mem there).2
      refine (recoverAborted_holds there _).imp (fun _ _ => trivial) fun _ t recovers => ?_
      by_cases marked : task.vmKey = x.key ∧ marks task.kind x = true
      · obtain ⟨mine, marked⟩ := marked
        rw [mine, found] at there
        cases there
        obtain ⟨t', why, now, freed, rfl⟩ := recovers
        rw [if_pos marked]
        have there : (t'.setVm x.key fun _ => recovered task.kind x why now).vm? x.key =
            some (recovered task.kind x why now) :=
          Store.vm?_setVm_self (by rw [Store.vm?, freed.vms]; exact found) rfl
        refine (recoverAll_apart rest there fun other _ _ => marks_recovered _ _ _ _ _).imp
          (fun _ h => h) fun _ s' apart => ⟨_, apart.vm.trans there, .moved (.inr ?_)⟩
        exact ⟨task, List.mem_cons_self, mine, marked, rfl⟩
      · have apart : Apart x.key s t := by
          refine recovers.apart fun same => ?_
          rw [← own, ← same, found] at there
          cases there
          exact Bool.eq_false_of_not_eq_true fun yes => marked ⟨own.symm, yes⟩
        refine onward t (apart.vm.trans found) fun mine => ?_
        exact Bool.eq_false_of_not_eq_true fun yes => marked ⟨mine, yes⟩

/-- The VM is in a transient status and was not written to since the cutoff. -/
def Stale (cutoff : Instant) (vm : Vm) : Prop :=
  vm.status ∈ VmStatus.transient ∧ ¬ cutoff ≤ vm.updatedAt

instance (cutoff : Instant) (vm : Vm) : Decidable (Stale cutoff vm) := by
  unfold Stale
  infer_instance

theorem listed (distinct : (s.vms.map (·.key)).Nodup) :
    ((s.listVmsByStatus VmStatus.transient).map (·.key)).Nodup ∧
      ∀ vm ∈ s.listVmsByStatus VmStatus.transient,
        s.vm? vm.key = some vm ∧ vm ∈ s.vms ∧ vm.status ∈ VmStatus.transient := by
  refine ⟨distinct.sublist (List.filter_sublist.map _), fun vm hvm => ?_⟩
  obtain ⟨member, status⟩ := List.mem_filter.mp hvm
  exact ⟨(Store.find?_eq_some_iff_of_nodup _ distinct).mpr ⟨member, rfl⟩, member,
    List.contains_iff_mem.mp status⟩

theorem sweepVms_first (cutoff : Instant) (maxAge : Duration)
    (distinct : (s.vms.map (·.key)).Nodup) (found : s.vm? x.key = some x) :
    (sweepVms cutoff maxAge (s.listVmsByStatus VmStatus.transient)).Holds (fun _ => True)
      (fun _ s' => s'.tasks = s.tasks ∧
        ((Stale cutoff x ∧ ∃ now, s'.vm? x.key = some (stuck maxAge x now)) ∨
          (¬ Stale cutoff x ∧ s'.vm? x.key = some x))) s := by
  obtain ⟨keys, there⟩ := listed distinct
  by_cases transient : x.status ∈ VmStatus.transient
  · have member : x ∈ s.listVmsByStatus VmStatus.transient :=
      List.mem_filter.mpr ⟨(Store.vm?_mem found).1, List.contains_iff_mem.mpr transient⟩
    refine (sweepVms_verdict cutoff maxAge _ keys (fun vm hvm => (there vm hvm).1) member).imp
      (fun _ h => h) fun _ s' swept => ⟨swept.1, ?_⟩
    have verdict := swept.2
    unfold Verdict at verdict
    split at verdict
    · next recent => exact .inr ⟨fun stale => stale.2 recent, verdict⟩
    · next old =>
      obtain ⟨now, -, moved, -⟩ := verdict
      exact .inl ⟨⟨transient, old⟩, now, moved⟩
  · refine (sweepVms_apart cutoff maxAge _ keys (fun vm hvm => (there vm hvm).1)
      fun vm hvm same => ?_).imp (fun _ h => h) fun _ s' swept =>
        ⟨swept.1, .inr ⟨fun stale => transient stale.1, swept.2.vm.trans found⟩⟩
    obtain ⟨there, -, status⟩ := there vm hvm
    rw [← same, found] at there
    cases there
    exact transient status

/-- The rows that a sweep with this answer recovered. -/
def recoveredRows (cutoff : Instant) (s : Store) :
    Except Error SweepReport → List TaskRow
  | .ok _ => s.tasks.filter (Store.isAbandoned (.of cutoff))
  | .error _ => []

/-- What becomes of a VM in a sweep. -/
theorem sweepFrom_fate (cutoff : Instant) (maxAge : Duration)
    (distinct : (s.vms.map (·.key)).Nodup) (found : s.vm? x.key = some x) :
    (sweepFrom cutoff maxAge).Holds (fun _ => True) (fun answer s' =>
      ∃ left, s'.vm? x.key = some left ∧
        Fate (Stale cutoff x) (recoveredRows cutoff s answer) x left) s := by
  refine sweepFrom_holds (sweepVms_first cutoff maxAge distinct found) ?_ ?_
  · rintro moved t now e ⟨-, ⟨stale, now, there⟩ | ⟨recent, there⟩⟩ error
    · exact ⟨_, there, .moved (.inl ⟨stale, rfl⟩)⟩
    · exact ⟨x, there, .kept recent fun _ none => absurd none List.not_mem_nil⟩
  rintro moved t now abandoned t' ⟨tasks, first⟩ ok
  have vms : ∀ key, t'.vm? key = t.vm? key := fun key => by rw [(Store.failAbandoned_ok ok).2]; rfl
  -- The tasks that are recovered are those of the abandoned rows.
  obtain ⟨known, all⟩ := Store.failAbandoned_alike ok
  rw [tasks] at known all
  rcases first with ⟨stale, now, there⟩ | ⟨recent, there⟩
  · have spared : ∀ task ∈ abandoned, task.vmKey = x.key →
        marks task.kind (stuck maxAge x now) = false := fun task _ _ => marks_stuck _ _ _ _
    refine (recoverAll_apart abandoned ((vms _).trans there) spared).imp (fun _ h => h)
      fun _ s' apart => ⟨_, (apart.vm.trans (vms _)).trans there, .moved (.inl ⟨stale, rfl⟩)⟩
  · refine (recoverAll_fate abandoned ((vms _).trans there)).imp (fun _ h => h) ?_
    rintro _ s' ⟨left, there, fate⟩
    refine ⟨left, there, ?_⟩
    cases fate.congr known all with
    | kept _ spared => exact .kept recent spared
    | moved cause => exact .moved (.inr (cause.resolve_left And.left))

/-- The rows of the abandoned tasks once they are failed. -/
def failRows (cutoff now : Instant) (rows : List TaskRow) : List TaskRow :=
  Store.updateWhere (Store.isAbandoned (.of cutoff))
    (fun row => Store.finished row .failed now (some "abandoned by worker")) rows

/-- What becomes of the tasks: the abandoned ones are failed and reported, or they cannot be read and
are left as they are. -/
inductive TasksAfter (cutoff : Instant) (s : Store) : Except Error SweepReport → Store → Prop
  | failed {report : SweepReport} {s' : Store} (now : Instant)
      (read : (s.abandonedRows (.of cutoff)).mapM TaskRow.task = .ok report.tasks)
      (rows : s'.tasks = failRows cutoff now s.tasks) : TasksAfter cutoff s (.ok report) s'
  | unread {e : Error} {s' : Store}
      (unread : (s.abandonedRows (.of cutoff)).mapM TaskRow.task = .error e)
      (rows : s'.tasks = s.tasks) : TasksAfter cutoff s (.error e) s'

/-- The holders whose addresses a sweep may give back: VMs that are stale in `provisioning` and VMs
that a recovered task was to create. -/
def MayLose (cutoff : Instant) (recovered : List TaskRow) (s : Store) (id : String) : Prop :=
  ∃ vm ∈ s.vms, vm.id = id ∧ (vm.status = .provisioning ∧ Stale cutoff vm ∨
    ∃ row ∈ recovered, row.vmKey = vm.key ∧ row.kind = .create)

theorem sweepFrom_sameBut (cutoff : Instant) (maxAge : Duration)
    (distinct : (s.vms.map (·.key)).Nodup) :
    (sweepFrom cutoff maxAge).Holds (fun _ => True) (fun answer s' =>
      SameBut (MayLose cutoff (recoveredRows cutoff s answer) s) s s' ∧
        TasksAfter cutoff s answer s') s := by
  obtain ⟨keys, there⟩ := listed distinct
  have stale : ∀ vm ∈ s.listVmsByStatus VmStatus.transient, vm.status = .provisioning →
      ¬ cutoff ≤ vm.updatedAt → MayLose cutoff [] s vm.id := fun vm hvm early old =>
    ⟨vm, (there vm hvm).2.1, rfl, .inl ⟨early, (there vm hvm).2.2, old⟩⟩
  have rows : ∀ t : Store, t.tasks = s.tasks →
      t.abandonedRows (.of cutoff) = s.abandonedRows (.of cutoff) := fun t tasks => by
    rw [Store.abandonedRows, tasks]
    rfl
  refine sweepFrom_holds (sweepVms_sameBut cutoff maxAge _ keys distinct
    (fun vm hvm => (there vm hvm).1) stale) ?_ ?_
  · rintro moved t now e ⟨first, tasks⟩ error
    exact ⟨first, .unread (rows t tasks ▸ Store.failAbandoned_unread error) tasks⟩
  rintro moved t now abandoned t' ⟨first, tasks⟩ ok
  obtain ⟨read, failed⟩ := Store.failAbandoned_reads ok
  have first : SameBut (MayLose cutoff (s.tasks.filter (Store.isAbandoned (.of cutoff))) s) s t' := by
    refine failed ▸ (first.mono ?_).setTasks _
    rintro id ⟨vm, hvm, own, early | ⟨_, none, -⟩⟩
    · exact ⟨vm, hvm, own, .inl early⟩
    · cases none
  refine (recoverAll_sameBut abandoned distinct first ?_).imp (fun _ h => h)
    fun _ s' later => ⟨later.1, .failed now (rows t tasks ▸ read) ?_⟩
  · intro task ht create vm hvm own
    obtain ⟨row, hrow, kind, vmKey⟩ := (Store.failAbandoned_alike ok).1 task ht
    exact ⟨vm, hvm, rfl, .inr ⟨row, tasks ▸ hrow, vmKey.trans own.symm, kind.trans create⟩⟩
  · rw [later.2, failed, tasks]
    rfl

/-- What a sweep that recovers the tasks of these rows makes of the VMs and their addresses. -/
structure Resolves (cutoff : Instant) (recovered : List TaskRow) (s s' : Store) : Prop where
  vms : ∀ vm ∈ s.vms, ∃ left, s'.vm? vm.key = some left ∧ Fate (Stale cutoff vm) recovered vm left
  others : SameBut (MayLose cutoff recovered s) s s'

theorem Resolves.recent {rows : List TaskRow} (h : Resolves cutoff rows s s')
    (distinct : (s.vms.map (·.key)).Nodup) : ∀ vm ∈ s'.vms, ¬ Stale cutoff vm := by
  intro vm hvm
  have found : s'.vm? vm.key = some vm :=
    (Store.find?_eq_some_iff_of_nodup _ (h.others.keys ▸ distinct)).mpr ⟨hvm, rfl⟩
  obtain ⟨old, hold, key, -⟩ := h.others.origin found
  obtain ⟨left, there, fate⟩ := h.vms old hold
  rw [key, found] at there
  cases there
  cases fate with
  | kept recent => exact recent
  | moved => exact fun stale => (by decide : VmStatus.error ∉ VmStatus.transient) stale.1

theorem sweepFrom_resolves {answer : Except Error SweepReport} {p : Provisioner} {w w' : World}
    (quiet : w.coming = []) (distinct : (w.store.vms.map (·.key)).Nodup)
    (run : (sweepFrom cutoff maxAge).run p.tool w = (.finished answer, w')) :
    Resolves cutoff (recoveredRows cutoff w.store answer) w.store w'.store ∧
      TasksAfter cutoff w.store answer w'.store := by
  obtain ⟨others, tasks⟩ := (sweepFrom_sameBut cutoff maxAge distinct).finished quiet run
  refine ⟨⟨fun vm hvm => ?_, others⟩, tasks⟩
  have found : w.store.vm? vm.key = some vm :=
    (Store.find?_eq_some_iff_of_nodup _ distinct).mpr ⟨hvm, rfl⟩
  exact (sweepFrom_fate cutoff maxAge distinct found).finished quiet run

/-! ## Where nothing is stale -/

theorem sweepVms_recent (maxAge : Duration) {vms : List Vm}
    (recent : ∀ vm ∈ vms, cutoff ≤ vm.updatedAt) :
    (sweepVms cutoff maxAge vms).Holds (fun _ => True) (fun moved s' => moved = [] ∧ s' = s) s := by
  induction vms with
  | nil => exact .pure ⟨rfl, rfl⟩
  | cons vm rest ih =>
    have first : sweepVm cutoff maxAge vm = return none := if_pos (recent vm List.mem_cons_self)
    rw [sweepVms, first]
    refine .bind (.pure (.bind ?_))
    refine (ih fun x hx => recent x (List.mem_cons_of_mem vm hx)).imp (fun _ h => h) ?_
    rintro others s' ⟨rfl, rfl⟩
    exact .pure ⟨rfl, rfl⟩

/-- A sweep that finds nothing stale reports nothing and changes nothing. -/
theorem sweepFrom_idle (maxAge : Duration) (recent : ∀ vm ∈ s.vms, ¬ Stale cutoff vm)
    (attended : ∀ row ∈ s.tasks, Store.isAbandoned (.of cutoff) row = false) :
    (sweepFrom cutoff maxAge).Holds (fun _ => True)
      (fun answer s' => answer = .ok {} ∧ s' = s) s := by
  have listed : ∀ vm ∈ s.listVmsByStatus VmStatus.transient, cutoff ≤ vm.updatedAt := by
    intro vm hvm
    obtain ⟨member, transient⟩ := List.mem_filter.mp hvm
    by_contra old
    exact recent vm member ⟨List.contains_iff_mem.mp transient, old⟩
  have rows : s.abandonedRows (.of cutoff) = [] := by
    rw [Store.abandonedRows, List.filter_eq_nil_iff.mpr fun row hrow => by simp [attended row hrow],
      List.mergeSort_nil]
  refine sweepFrom_holds (sweepVms_recent maxAge listed) ?_ ?_
  · rintro moved t now e ⟨-, rfl⟩ error
    have read := Store.failAbandoned_unread error
    rw [rows] at read
    cases read
  · rintro moved t now abandoned t' ⟨rfl, rfl⟩ ok
    obtain ⟨read, rfl⟩ := Store.failAbandoned_reads ok
    rw [rows] at read
    cases read
    rw [Store.updateWhere_eq_self attended]
    exact .pure ⟨rfl, rfl⟩

end Lifecycle

end VmFleet
