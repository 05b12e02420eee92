/-
Every operation on a fleet as one of a few changes to the store: to the record
of one VM, which moves along an edge of the graph of statuses, to the slot that
one VM holds, or to what concerns no VM.
-/
import VmFleet.Proofs.Fleet

namespace VmFleet

/-- The statuses that may follow. A VM is removed in `deleting`. -/
def VmStatus.next : VmStatus → List VmStatus
  | .pending => [.provisioning, .deleting, .error]
  | .provisioning => [.running, .pending, .error]
  | .running => [.stopping, .restarting, .deleting]
  | .stopping => [.stopped, .running, .error]
  | .stopped => [.starting, .deleting]
  | .starting => [.running, .stopped, .error]
  | .restarting => [.running, .error]
  | .deleting => [.error]
  | .error => [.deleting]

namespace VmStatus

theorem via_mem_next {kind : TaskKind} {status : VmStatus} (h : status ∈ kind.sources) :
    kind.via ∈ status.next := by
  revert status
  cases kind <;> decide

theorem settled_mem_next {kind : TaskKind} (delete : kind ≠ .delete) :
    kind.settled ∈ kind.via.next := by
  revert delete
  cases kind <;> decide

theorem revert_mem_next {kind : TaskKind} (delete : kind ≠ .delete) :
    kind.revert ∈ kind.via.next := by
  revert delete
  cases kind <;> decide

theorem error_mem_next {status : VmStatus} (h : status ∈ transient) : error ∈ status.next := by
  revert status
  decide

theorem via_mem_transient (kind : TaskKind) : kind.via ∈ transient := by
  cases kind <;> decide

theorem via_ne_pending (kind : TaskKind) : kind.via ≠ .pending := by
  cases kind <;> decide

theorem via_ne_error (kind : TaskKind) : kind.via ≠ .error := by
  cases kind <;> decide

theorem via_eq_provisioning {kind : TaskKind} : kind.via = .provisioning ↔ kind = .create := by
  cases kind <;> decide

theorem provisioning_not_source (kind : TaskKind) : provisioning ∉ kind.sources := by
  cases kind <;> decide

end VmStatus

namespace Store

/-- The record of a key is replaced by another of the same VM. Its status stays or moves along an
edge; only the keys that are `abandoned` go from `pending` into `error`. A VM that holds an address
and is not in `provisioning` keeps it on its record, and one that comes out of `provisioning` to run
has the address that it holds. -/
structure Moves (abandoned : Int → Prop) (s : Store) (key : Int) (old vm : Vm) : Prop where
  found : s.vm? key = some old
  sameKey : vm.key = key
  sameId : vm.id = old.id
  edge : vm.status = old.status ∨ vm.status ∈ old.status.next
  stranded : old.status = .pending → vm.status = .error → abandoned key
  kept : old.status ≠ .provisioning → (s.activeSlot? old.id).isSome → vm.address = old.address
  runs : old.status = .provisioning → vm.status = .running →
    ∃ slot, s.activeSlot? vm.id = some slot ∧ vm.address = some slot.address.text

theorem Moves.there {abandoned : Int → Prop} {s : Store} {key : Int} {old vm : Vm}
    (h : Moves abandoned s key old vm) : (s.setVm key fun _ => vm).vm? key = some vm :=
  vm?_setVm_self h.found h.sameKey

/-- A change to the store, as far as VMs and held slots are concerned. The keys in `abandoned` are
those whose create is being recovered, those in `deleted` have a delete task carried out. -/
inductive Change (abandoned deleted : Int → Prop) (s : Store) : Store → Prop
  | silent : Change abandoned deleted s s
  | tasks {tasks : List TaskRow} : Change abandoned deleted s { s with tasks := tasks }
  | pools {s' : Store} (sound : s.SlotsSound → s'.SlotsSound) (rest : s' = { s with
        pools := s'.pools
        slots := s'.slots
        nextPool := s'.nextPool
        nextSlot := s'.nextSlot })
      (holders : ∀ id, s'.activeSlot? id = s.activeSlot? id) : Change abandoned deleted s s'
  | created {vm : Vm} {tasks : List TaskRow} (free : s.vmById? vm.id = none)
      (key : vm.key = s.nextVm) (status : vm.status = .pending) :
      Change abandoned deleted s { s with
        vms := s.vms ++ [vm]
        nextVm := s.nextVm + 1
        tasks := tasks }
  | withdrawn : Change abandoned deleted s { s with nextVm := s.nextVm + 1 }
  | moved {key : Int} {old vm : Vm} (moves : Moves abandoned s key old vm) :
      Change abandoned deleted s (s.setVm key fun _ => vm)
  | removed {vm : Vm} (found : s.vm? vm.key = some vm) (status : vm.status = .deleting)
      (bare : s.activeSlot? vm.id = none) : Change abandoned deleted s (s.removeVm vm.key).2
  | granted {vm : Vm} {now : Instant} {name : String} {pool : Pool} {slot : Slot} {s' : Store}
      (found : s.vm? vm.key = some vm) (status : vm.status = .provisioning)
      (grant : Granted s now name vm.id pool slot s') : Change abandoned deleted s s'
  | released {vm : Vm} {now : Instant} (found : s.vm? vm.key = some vm)
      (cause : vm.status = .provisioning ∨ deleted vm.key ∨
        abandoned vm.key ∧ vm.status ≠ .running) :
      Change abandoned deleted s (s.release now vm.id).2

namespace Change

variable {abandoned deleted : Int → Prop} {s s' : Store} {key : Int} {old vm : Vm}

theorem vmsDistinct (h : Change abandoned deleted s s') (distinct : s.VmsDistinct) :
    s'.VmsDistinct := by
  cases h with
  | silent => exact distinct
  | tasks | released => exact distinct.congr rfl rfl
  | pools _ rest _ => exact distinct.congr (by rw [rest]) (by rw [rest])
  | created free key status =>
    exact (distinct.append_new key free).congr rfl rfl
  | withdrawn => exact distinct.skip
  | moved moves => exact distinct.setVm moves.found moves.sameKey moves.sameId
  | removed => exact distinct.removeVm
  | granted _ _ grant =>
    exact distinct.congr (by rw [grant.slots_only]) (by rw [grant.slots_only])

theorem slotsSound (h : Change abandoned deleted s s') (sound : s.SlotsSound) : s'.SlotsSound := by
  cases h with
  | silent => exact sound
  | pools kept _ _ => exact kept sound
  | granted _ _ grant => exact grant.slotsSound sound
  | released => exact sound.release
  | tasks | created | withdrawn | moved | removed => exact sound.congr rfl rfl

theorem nextVm_le (h : Change abandoned deleted s s') : s.nextVm ≤ s'.nextVm := by
  cases h with
  | silent | tasks | released | moved | removed => exact Int.le_refl _
  | created | withdrawn => exact Int.le_add_one (Int.le_refl _)
  | pools _ rest _ => exact Int.le_of_eq (by rw [rest])
  | granted _ _ grant => exact Int.le_of_eq (by rw [grant.slots_only])

/-- What a change makes of the record of a key: it stays, it moves along an edge, it is removed from
`deleting`, or it is a new one in `pending` under the next key. -/
theorem vm?_cases (h : Change abandoned deleted s s') (distinct : s.VmsDistinct) (key : Int) :
    s'.vm? key = s.vm? key ∨
    (∃ old vm, Moves abandoned s key old vm ∧ s' = s.setVm key fun _ => vm) ∨
    (∃ old, s.vm? key = some old ∧ s'.vm? key = none ∧ old.status = .deleting) ∨
    (key = s.nextVm ∧ ∃ vm, s'.vm? key = some vm ∧ vm.status = .pending) := by
  cases h with
  | silent | tasks | withdrawn | released => exact .inl rfl
  | pools _ rest _ => exact .inl (by rw [rest]; rfl)
  | granted _ _ grant => exact .inl (by rw [grant.slots_only]; rfl)
  | created free isNext status =>
    have grown := fun k => vm?_append_new (k := k) (n := s.nextVm + 1) isNext distinct
    by_cases hk : key = s.nextVm
    · exact .inr (.inr (.inr ⟨hk, _, (grown key).trans (if_pos (hk.trans isNext.symm)), status⟩))
    · exact .inl ((grown key).trans (if_neg fun same => hk (same.trans isNext)))
  | @moved k old vm moves =>
    by_cases hk : key = k
    · subst hk
      exact .inr (.inl ⟨old, vm, moves, rfl⟩)
    · exact .inl (vm?_setVm_of_ne moves.sameKey hk)
  | @removed vm found status _ =>
    by_cases hk : key = vm.key
    · exact .inr (.inr (.inl ⟨vm, hk ▸ found, vm?_removeVm.trans (if_pos hk), status⟩))
    · exact .inl (vm?_removeVm.trans (if_neg hk))

/-- A key that was given out and names no VM never names one again. -/
theorem gone (h : Change abandoned deleted s s') (distinct : s.VmsDistinct) (used : key < s.nextVm)
    (gone : s.vm? key = none) : key < s'.nextVm ∧ s'.vm? key = none := by
  refine ⟨Int.lt_of_lt_of_le used h.nextVm_le, ?_⟩
  rcases h.vm?_cases distinct key with same | ⟨old, vm, moves, -⟩ | ⟨old, found, -⟩ | ⟨isNext, -⟩
  · rw [same, gone]
  · cases gone.symm.trans moves.found
  · cases gone.symm.trans found
  · omega

end Change

end Store

/-! ## Every operation makes such a change -/

namespace Lifecycle

open Store (Change)

variable {settings : Settings} {attempt : Attempt} {task : Task} {start : Store} {kind : TaskKind}
  {vm : Vm} {slots : List Slot} {e : Event} {abandoned deleted : Int → Prop}

theorem Entered.moves (entered : Entered task start vm) {next : VmStatus} (patch : VmPatch)
    (now : Instant) (edge : next ∈ task.kind.via.next)
    (kept : task.kind ≠ .create → patch.address.apply vm.address = vm.address)
    (runs : task.kind = .create → next = .running →
      ∃ slot, (start.working vm slots).activeSlot? vm.id = some slot ∧
        patch.address.apply vm.address = some slot.address.text) :
    Change abandoned deleted (start.working vm slots)
      (start.working (vm.moved next patch now) slots) := by
  have same : (vm.moved next patch now).key = vm.key := rfl
  rw [← Store.setVm_working same]
  refine .moved ⟨entered.vm?_working slots, same, rfl, .inr ?_, fun pending => ?_,
    fun other _ => ?_, fun provisioning running => ?_⟩
  · rw [Vm.moved_status, entered.status]
    exact edge
  · rw [entered.status] at pending
    exact absurd pending (VmStatus.via_ne_pending _)
  · rw [entered.status] at other
    exact kept (mt VmStatus.via_eq_provisioning.mpr other)
  · rw [entered.status] at provisioning
    exact runs (VmStatus.via_eq_provisioning.mp provisioning) running

theorem Ended.change {outcome : Outcome} {before after : Store}
    (h : Ended settings attempt task start outcome before after) :
    Change abandoned deleted before after := by
  cases h with
  | created report now entered kind allocated =>
    obtain ⟨_, pool, grant⟩ := allocated
    exact entered.moves _ now (by rw [kind]; decide) (fun other => absurd kind other)
      fun _ _ => ⟨_, grant.holds_self, rfl⟩
  | removed now entered kind =>
    refine .removed (entered.vm?_working _) (by rw [entered.status, kind]; rfl) ?_
    rw [Store.activeSlot?_release, if_pos rfl]
  | settled now entered create delete =>
    exact entered.moves _ now (VmStatus.settled_mem_next delete) (fun _ => rfl)
      fun kind => absurd kind create
  | reverted now entered delete undone passing left =>
    refine entered.moves _ now (VmStatus.revert_mem_next delete) (fun create => ?_)
      fun kind run => ?_
    · rw [failurePatch_address, entered.status, if_neg (mt VmStatus.via_eq_provisioning.mp create)]
    · rw [kind] at run
      cases run
  | failed now entered delete undone final =>
    refine entered.moves _ now (VmStatus.error_mem_next (VmStatus.via_mem_transient _))
      (fun create => ?_) fun _ run => ?_
    · rw [failurePatch_address, entered.status, if_neg (mt VmStatus.via_eq_provisioning.mp create)]
    · cases run

/-- The task, if it is a delete, counts as carried out for its VM. -/
theorem Handles.change (h : Handles settings attempt task start e)
    (delete : task.kind = .delete → deleted task.vmKey) :
    Change abandoned deleted e.before e.after := by
  cases h with
  | silent | called => exact .silent
  | entered entered =>
    obtain ⟨old, found, source, id, address⟩ := entered.origin
    refine .moved ⟨entered.key ▸ found, rfl, id, .inr ?_, fun _ error => ?_, fun _ _ => address,
      fun provisioning => ?_⟩
    · rw [entered.status]
      exact VmStatus.via_mem_next source
    · rw [entered.status] at error
      exact absurd error (VmStatus.via_ne_error _)
    · rw [provisioning] at source
      exact absurd source (VmStatus.provisioning_not_source _)
  | allocated entered kind allocated =>
    obtain ⟨now, pool, grant⟩ := allocated
    exact .granted (entered.vm?_working _) (by rw [entered.status, kind]; rfl) grant
  | released entered holding kind =>
    refine .released (entered.vm?_working _) ?_
    rcases kind with create | kind
    · exact .inl (by rw [entered.status, create]; rfl)
    · exact .inr (.inl (entered.key ▸ delete kind))
  | ended ended => exact ended.change

theorem Recovers.change (h : Recovers kind vm e)
    (cause : kind = .create → vm.status = .provisioning ∨ abandoned vm.key) :
    Change abandoned deleted e.before e.after := by
  cases h with
  | silent => exact .silent
  | released found back =>
    simp only [givesBack, Bool.and_eq_true, beq_iff_eq, bne_iff_ne] at back
    rcases cause back.1 with provisioning | abandoned
    · exact .released found (.inl provisioning)
    · exact .released found (.inr (.inr ⟨abandoned, back.2⟩))
  | marked found marks bare =>
    refine .moved ⟨found, rfl, rfl, .inr ?_, fun pending _ => ?_, fun _ holds => ?_,
      fun _ run => ?_⟩
    · simp only [Lifecycle.marks, Bool.or_eq_true, Bool.and_eq_true, beq_iff_eq] at marks
      rcases marks with transient | ⟨-, pending⟩
      · exact VmStatus.error_mem_next (by simpa [VmStatus.isTransient] using transient)
      · rw [pending]
        show VmStatus.error ∈ VmStatus.pending.next
        decide
    · simp only [Lifecycle.marks, givesBack, pending, Bool.or_eq_true, Bool.and_eq_true,
        beq_iff_eq] at marks
      rcases marks with transient | ⟨⟨create, -⟩, -⟩
      · exact absurd transient (by decide)
      · rcases cause create with provisioning | abandoned
        · rw [pending] at provisioning
          cases provisioning
        · exact abandoned
    · rw [recovered_address, if_neg]
      intro back
      rw [bare back] at holds
      cases holds
    · cases run

theorem Sweeps.change (h : Sweeps start e)
    (cause : ∀ task, Unfinished start task → task.kind = .create → abandoned task.vmKey) :
    Change abandoned deleted e.before e.after := by
  cases h with
  | silent => exact .silent
  | released found status => exact .released found (.inl status)
  | @marked s vm why now found status =>
    refine .moved ⟨found, rfl, rfl, .inr (VmStatus.error_mem_next status), fun pending _ => ?_,
      fun other _ => ?_, fun _ run => ?_⟩
    · rw [pending] at status
      exact absurd status (by decide)
    · rw [Vm.moved_address, failurePatch_address, if_neg other]
    · cases run
  | failed failed =>
    rw [(Store.failAbandoned_ok failed).2]
    exact .tasks
  | recovers unfinished key recovers =>
    exact recovers.change fun create => .inr (key ▸ cause _ unfinished create)

end Lifecycle

namespace Queue

open Store (Change)

variable {settings : Lifecycle.Settings} {task : Task} {start s s' : Store} {now : Instant}
  {e : Event} {abandoned deleted : Int → Prop}

theorem Recorded.change (h : Recorded task s s') : Change abandoned deleted s s' := by
  cases h with
  | unknown => exact .silent
  | ended | requeued => exact .tasks

theorem Works.change (h : Works settings task start e)
    (delete : task.kind = .delete → deleted task.vmKey) :
    Change abandoned deleted e.before e.after := by
  cases h with
  | silent => exact .silent
  | handles handles => exact handles.change delete
  | recovers entered holding recovers =>
    -- The VM is still in the status in which the handler was aborted.
    refine recovers.change fun create => .inl ?_
    rw [entered.status, create]
    rfl
  | records _ recorded => exact recorded.change

theorem Runs.change (h : Runs settings start now e)
    (delete : ∀ task claimed, start.claimNext now = .ok (some task, claimed) →
      task.kind = .delete → deleted task.vmKey) :
    Change abandoned deleted e.before e.after := by
  cases h with
  | silent => exact .silent
  | claims claim =>
    rcases Store.claimNext_ok claim with ⟨none, -⟩ | ⟨row, task, -, -, -, -, -, -, rfl⟩
    · cases none
    · exact .tasks
  | works claim works => exact works.change (delete _ _ claim)

end Queue

namespace Fleet

open Store (Change)

namespace Entry

/-- The entry is one of a recovery after a create task of this key: of that task alone, or in a
sweep that found a worker to be on it. -/
def RecoversCreate (entry : Entry) (key : Int) : Prop :=
  match entry.step.job? with
  | some (.recover kind vmKey _, _) => kind = .create ∧ vmKey = key
  | some (.sweep _, _) => ∃ row ∈ entry.start.tasks, row.status = .running ∧ row.kind = .create ∧
      row.vmKey = key
  | _ => False

/-- The entry is one of a run that claimed a delete task of this key. -/
def RunsDelete (entry : Entry) (key : Int) : Prop :=
  match entry.step.job? with
  | some (.runOnce _ _ _, now) => ∃ task claimed,
      entry.start.claimNext now = .ok (some task, claimed) ∧ task.kind = .delete ∧ task.vmKey = key
  | _ => False

/-- The entry makes one of the changes. -/
def Changes (entry : Entry) : Prop :=
  Change entry.RecoversCreate entry.RunsDelete entry.event.before entry.event.after

end Entry

variable {s s' : Store} {now : Instant} {abandoned deleted : Int → Prop}

theorem Answers.change (h : Answers s now s') : Change abandoned deleted s s' := by
  cases h with
  | refused => exact .silent
  | pools sound rest holders => exact .pools sound rest holders
  | created free key status => exact .created free key status
  | withdrawn => exact .withdrawn
  | edited found id status address =>
    refine .moved ⟨found, rfl, id, .inl status, fun pending error => ?_, fun _ _ => address,
      fun provisioning run => ?_⟩
    · rw [status, pending] at error
      cases error
    · rw [status, provisioning] at run
      cases run
  | queued => exact .tasks

theorem Answers.vm?_kept (h : Answers s now s') (distinct : s.VmsDistinct) {key : Int} {old : Vm}
    (found : s.vm? key = some old) : ∃ vm, s'.vm? key = some vm ∧ vm.status = old.status := by
  cases h with
  | refused | withdrawn | queued => exact ⟨old, found, rfl⟩
  | pools _ rest _ => exact ⟨old, by rw [rest]; exact found, rfl⟩
  | created _ isNext =>
    obtain ⟨member, rfl⟩ := Store.vm?_mem found
    have older := distinct.fresh old member
    have grown := Store.vm?_append_new (k := old.key) (n := s.nextVm + 1) isNext distinct
    exact ⟨old, grown.trans ((if_neg (by omega)).trans found), rfl⟩
  | @edited old' vm found' _ status _ =>
    by_cases hk : key = vm.key
    · subst hk
      cases found.symm.trans found'
      exact ⟨vm, Store.vm?_setVm_self found rfl, status⟩
    · exact ⟨old, (Store.vm?_setVm_of_ne rfl hk).trans found, rfl⟩

theorem Job.Does.changes {step : Step} {job : Job} {e : Event} (h : job.Does s now e)
    (ofStep : step.job? = some (job, now)) : Entry.Changes ⟨step, s, e⟩ := by
  cases job with
  | runOnce queue settings jitter =>
    refine Queue.Runs.change h fun task claimed claim delete => ?_
    simp only [Entry.RunsDelete, ofStep]
    exact ⟨task, claimed, claim, delete, rfl⟩
  | sweep maxAge =>
    refine Lifecycle.Sweeps.change h fun task ⟨row, hrow, running, _, kind, vmKey⟩ create => ?_
    simp only [Entry.RecoversCreate, ofStep]
    exact ⟨row, hrow, running, kind.trans create, vmKey⟩
  | recover kind vmKey why =>
    rcases h with ⟨same, -⟩ | ⟨vm, found, recovers⟩
    · rw [Entry.Changes, same]
      exact .silent
    · refine recovers.change fun create => .inr ?_
      simp only [Entry.RecoversCreate, ofStep]
      exact ⟨create, (Store.vm?_mem found).2.symm⟩

/-- VMs stay distinct and slots sound in any use, and every operation is a change. -/
theorem log_changes (steps : List Step) (distinct : s.VmsDistinct) (sound : s.SlotsSound) :
    ((after s steps).VmsDistinct ∧ (after s steps).SlotsSound) ∧
      ∀ entry ∈ log s steps,
        entry.event.before.VmsDistinct ∧ entry.event.before.SlotsSound ∧ entry.Changes := by
  refine log_invariant (I := fun s => s.VmsDistinct ∧ s.SlotsSound) (fun _ h => h.1) ?_ ?_ steps
    ⟨distinct, sound⟩
  · rintro step s s' now - answers ⟨distinct, sound⟩
    have changes : Entry.Changes ⟨step, s, ⟨s, s', none⟩⟩ := answers.change
    exact ⟨⟨changes.vmsDistinct distinct, changes.slotsSound sound⟩, distinct, sound, changes⟩
  · rintro step job now s e some does - ⟨distinct, sound⟩
    have changes := does.changes some
    exact ⟨⟨changes.vmsDistinct distinct, changes.slotsSound sound⟩, distinct, sound, changes⟩

end Fleet

end VmFleet
