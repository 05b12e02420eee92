/-
The address of a VM from the operation on with which the VM first runs. Its
record and the slot it holds name one address until a delete task, or a recovery
after a create task that meets the VM in any status but `running`, takes the
slot. That recovery is not kept to creates that did not finish: a create task
given to two workers, one of which died, is recovered after the VM has run.
-/
import VmFleet.Proofs.Changes
import VmFleet.Proofs.Returning

namespace VmFleet

namespace Store

/-- The VM of the key holds the slot, and the address on its record is the slot's. -/
def Binds (s : Store) (key : Int) (slot : Slot) : Prop :=
  ∃ vm, s.vm? key = some vm ∧ s.activeSlot? vm.id = some slot ∧ vm.address = some slot.address.text

/-- The VM of the key is bound to the slot and is past its create. -/
def Keeps (s : Store) (key : Int) (slot : Slot) : Prop :=
  ∃ vm, s.vm? key = some vm ∧ s.activeSlot? vm.id = some slot ∧
    vm.address = some slot.address.text ∧ vm.status ≠ .pending ∧ vm.status ≠ .provisioning

/-- The VM of the key, if there is one, has not run yet. -/
def NotYetRun (s : Store) (key : Int) : Prop :=
  ∀ vm, s.vm? key = some vm → vm.status ∈ [.pending, .provisioning, .deleting, .error]

variable {s s' : Store} {key : Int} {slot : Slot}

theorem Keeps.binds (h : s.Keeps key slot) : s.Binds key slot := by
  obtain ⟨vm, found, holds, address, -⟩ := h
  exact ⟨vm, found, holds, address⟩

end Store

namespace VmStatus

theorem next_pastCreate {status next : VmStatus} (edge : next ∈ status.next)
    (pending : status ≠ .pending) (provisioning : status ≠ .provisioning) :
    next ≠ .pending ∧ next ≠ .provisioning := by
  revert next
  cases status <;> first | contradiction | decide

/-- A VM that has not run comes to run from `provisioning` only. -/
theorem next_notYetRun {status next : VmStatus} (edge : next ∈ status.next)
    (notYet : status ∈ [pending, .provisioning, .deleting, .error]) :
    next ∈ [pending, .provisioning, .deleting, .error] ∨
      next = .running ∧ status = .provisioning := by
  revert next
  cases status <;> first | contradiction | decide

end VmStatus

namespace Store.Change

variable {abandoned deleted : Int → Prop} {s s' : Store} {key : Int} {slot : Slot}

/-- A VM that has not run still has not after a change, or it comes to run, and then it is bound to
the slot that it holds. -/
theorem notYetRun (h : Change abandoned deleted s s') (distinct : s.VmsDistinct)
    (notYet : s.NotYetRun key) :
    s'.NotYetRun key ∨
      ∃ vm slot, s'.vm? key = some vm ∧ vm.status = .running ∧ s'.Keeps key slot := by
  rcases h.vm?_cases distinct key with
    same | ⟨old, vm, moves, rfl⟩ | ⟨old, -, gone, -⟩ | ⟨-, vm, there, status⟩
  · exact .inl fun vm there => notYet vm (same.symm.trans there)
  · have stays : ∀ {status}, vm.status = status →
        status ∈ [.pending, .provisioning, .deleting, .error] →
        (s.setVm key fun _ => vm).NotYetRun key := by
      intro status same early vm' there
      cases moves.there.symm.trans there
      exact same ▸ early
    have early := notYet old moves.found
    rcases moves.edge with same | edge
    · exact .inl (stays same early)
    · rcases VmStatus.next_notYetRun edge early with still | ⟨running, provisioning⟩
      · exact .inl (stays rfl still)
      · obtain ⟨slot, holds, address⟩ := moves.runs provisioning running
        refine .inr ⟨vm, slot, moves.there, running, vm, moves.there, holds, address, ?_, ?_⟩
        · rw [running]
          decide
        · rw [running]
          decide
  · refine .inl fun vm there => ?_
    cases gone.symm.trans there
  · refine .inl fun vm' there' => ?_
    cases there.symm.trans there'
    rw [status]
    decide

/-- What becomes of a bound VM in a change: it keeps its slot and its address, or its slot is taken
by a delete task or by a recovery that meets the VM while it is not running. -/
theorem keeps (h : Change abandoned deleted s s') (distinct : s.VmsDistinct) (sound : s.SlotsSound)
    (keeps : s.Keeps key slot) :
    s'.Keeps key slot ∨ ∃ vm, s.vm? key = some vm ∧ s'.activeSlot? vm.id = none ∧
      (deleted key ∨ abandoned key ∧ vm.status ≠ .running) := by
  obtain ⟨vm, found, holds, address, pending, provisioning⟩ := keeps
  cases h with
  | silent | tasks | withdrawn => exact .inl ⟨vm, found, holds, address, pending, provisioning⟩
  | pools _ rest holders =>
    have there : s'.vm? key = some vm := by
      rw [rest]
      exact found
    exact .inl ⟨vm, there, (holders vm.id).trans holds, address, pending, provisioning⟩
  | created free isNext status =>
    refine .inl ⟨vm, ?_, holds, address, pending, provisioning⟩
    obtain ⟨member, rfl⟩ := vm?_mem found
    have older := distinct.fresh vm member
    have grown := vm?_append_new (k := vm.key) (n := s.nextVm + 1) isNext distinct
    exact grown.trans ((if_neg (by omega)).trans found)
  | @moved k old new moves =>
    by_cases hk : key = k
    · subst hk
      cases found.symm.trans moves.found
      have settled : new.status ≠ .pending ∧ new.status ≠ .provisioning := by
        rcases moves.edge with same | edge
        · exact same ▸ ⟨pending, provisioning⟩
        · exact VmStatus.next_pastCreate edge pending provisioning
      have same := moves.kept provisioning (by rw [holds]; rfl)
      exact .inl ⟨new, moves.there, moves.sameId ▸ holds, same.trans address, settled⟩
    · exact .inl ⟨vm, (vm?_setVm_of_ne moves.sameKey hk).trans found, holds, address, pending,
        provisioning⟩
  | @removed other found' status bare =>
    by_cases hk : key = other.key
    · cases found.symm.trans (hk ▸ found')
      cases bare.symm.trans holds
    · exact .inl ⟨vm, (vm?_removeVm.trans (if_neg hk)).trans found, holds, address, pending,
        provisioning⟩
  | @granted other _ _ _ _ _ found' status grant =>
    have id : vm.id ≠ other.id := by
      intro same
      cases distinct.eq_of_id (vm?_mem found).1 (vm?_mem found').1 same
      exact provisioning status
    refine .inl ⟨vm, ?_, (grant.holds_other sound id).trans holds, address, pending, provisioning⟩
    rw [grant.slots_only]
    exact found
  | @released other now found' cause =>
    by_cases id : vm.id = other.id
    · cases distinct.eq_of_id (vm?_mem found).1 (vm?_mem found').1 id
      obtain ⟨-, rfl⟩ := vm?_mem found
      rcases cause with unfinished | cause
      · exact absurd unfinished provisioning
      · exact .inr ⟨vm, found, activeSlot?_release.trans (if_pos rfl), cause⟩
    · exact .inl ⟨vm, found, (activeSlot?_release.trans (if_neg id)).trans holds, address, pending,
        provisioning⟩

end Store.Change

namespace Fleet

variable {s : Store} {key : Int} {slot : Slot}

/-- The operation takes the slot from the VM of the key: in a run that claimed a delete task of the
VM, or in a recovery after a create task of the VM, which is not running. -/
def Entry.Takes (entry : Entry) (key : Int) (slot : Slot) : Prop :=
  ∃ vm, entry.event.before.vm? key = some vm ∧
    entry.event.before.activeSlot? vm.id = some slot ∧
    vm.address = some slot.address.text ∧ entry.event.after.activeSlot? vm.id = none ∧
    (entry.RunsDelete key ∨ entry.RecoversCreate key ∧ vm.status ≠ .running)

/-- A VM is bound to its slot until an operation takes it. -/
theorem kept_until_taken {entries : List Entry}
    (linked : Event.Linked s (entries.map (·.event)))
    (all : ∀ entry ∈ entries,
      entry.event.before.VmsDistinct ∧ entry.event.before.SlotsSound ∧ entry.Changes)
    (keeps : s.Keeps key slot) :
    (∀ entry ∈ entries, entry.event.after.Binds key slot) ∨
    ∃ untouched taking rest, entries = untouched ++ taking :: rest ∧
      (∀ entry ∈ untouched, entry.event.after.Binds key slot) ∧ taking.Takes key slot := by
  induction entries generalizing s with
  | nil => exact .inl fun entry he => absurd he List.not_mem_nil
  | cons entry rest ih =>
    obtain ⟨rfl, linked⟩ := linked
    obtain ⟨distinct, sound, changes⟩ := all entry List.mem_cons_self
    rcases changes.keeps distinct sound keeps with kept | ⟨vm, found, bare, cause⟩
    · rcases ih linked (fun e he => all e (List.mem_cons_of_mem _ he)) kept with
        always | ⟨untouched, taking, rest, rfl, before, takes⟩
      · exact .inl (List.forall_mem_cons.mpr ⟨kept.binds, always⟩)
      · exact .inr ⟨entry :: untouched, taking, rest, rfl,
          List.forall_mem_cons.mpr ⟨kept.binds, before⟩, takes⟩
    · obtain ⟨vm', found', holds, address, -⟩ := keeps
      cases found.symm.trans found'
      exact .inr ⟨[], entry, rest, rfl, fun e he => absurd he List.not_mem_nil, vm, found, holds,
        address, bare, cause⟩

theorem notYetRun_last {events : List Event} (linked : Event.Linked s events)
    (all : ∀ e ∈ events, (e.before.VmsDistinct ∧
      ∃ abandoned deleted, Store.Change abandoned deleted e.before e.after) ∧
      ∀ vm, e.after.vm? key = some vm → vm.status ≠ .running)
    (notYet : s.NotYetRun key) : (Event.last s events).NotYetRun key := by
  refine (linked.invariant (I := (·.NotYetRun key)) (G := fun _ => True) all ?_ notYet).1
  rintro e ⟨⟨distinct, _, _, change⟩, idle⟩ notYet
  rcases change.notYetRun distinct notYet with still | ⟨vm, _, there, running, -⟩
  · exact ⟨still, trivial⟩
  · exact absurd running (idle vm there)

/-- A recovery after a create task takes the slot of a VM that is not running, whatever the VM has
done before. -/
theorem recover_create_bare {vm : Vm} (found : s.vm? key = some vm) (status : vm.status ≠ .running)
    (why : String) (tool : Provisioner) (now : Instant) :
    ((Step.work (.recover .create key why) tool now).after s).activeSlot? vm.id = none := by
  obtain ⟨_, w', run⟩ := (Lifecycle.recoverAborted_returns .create key why).finished tool.tool
    { store := s, now }
  have last : (Step.work (.recover .create key why) tool now).after s = w'.store :=
    Program.last_events run
  have recovered := Lifecycle.recoverAborted_holds found why |>.finished rfl run
  obtain ⟨t, _, _, freed, left⟩ := recovered
  have bare := freed.bare (by simp [Lifecycle.givesBack, status])
  rw [last, left]
  split <;> exact bare

/-- **The address of a VM, from its first operation in `running` on.** In any use of a fleet that
begins with an empty store, with workers dying after any operation: when a VM first comes to run it
holds a slot whose address is on its record. That stays so to the end, or up to an operation that
takes the slot: of a delete task of the VM, or of a recovery after a create task of it that meets
the VM while it is not running. Every such recovery takes the slot. -/
theorem address_kept {steps : List Step} {earlier later : List Entry} {entry : Entry} {vm : Vm}
    (split : log .empty steps = earlier ++ entry :: later)
    (first : ∀ other ∈ earlier, ∀ vm, other.event.after.vm? key = some vm → vm.status ≠ .running)
    (found : entry.event.after.vm? key = some vm) (running : vm.status = .running) :
    (∃ slot, entry.event.after.Binds key slot ∧
      ((∀ other ∈ later, other.event.after.Binds key slot) ∨
      ∃ untouched taking rest, later = untouched ++ taking :: rest ∧
        (∀ other ∈ untouched, other.event.after.Binds key slot) ∧ taking.Takes key slot)) ∧
    ∀ s vm, s.vm? key = some vm → vm.status ≠ .running → ∀ why tool now,
      ((Step.work (.recover .create key why) tool now).after s).activeSlot? vm.id = none := by
  refine ⟨?_, fun s vm found status => recover_create_bare found status⟩
  obtain ⟨-, changes⟩ := log_changes steps Store.empty_vmsDistinct Store.empty_slotsSound
  have linked := log_linked steps .empty
  rw [split, List.map_append, List.map_cons] at linked
  rw [split] at changes
  obtain ⟨before, here, after⟩ := Event.linked_append.mp linked
  have notYet : entry.event.before.NotYetRun key := by
    rw [here]
    refine notYetRun_last before (fun e he => ?_) fun vm found => by cases found
    obtain ⟨other, ho, rfl⟩ := List.mem_map.mp he
    obtain ⟨distinct, -, change⟩ := changes other (List.mem_append_left _ ho)
    exact ⟨⟨distinct, _, _, change⟩, first other ho⟩
  obtain ⟨distinct, -, change⟩ := changes entry (List.mem_append_right _ List.mem_cons_self)
  rcases change.notYetRun distinct notYet with still | ⟨_, slot, -, -, keeps⟩
  · have early := still vm found
    rw [running] at early
    exact absurd early (by decide)
  · refine ⟨slot, keeps.binds, kept_until_taken after (fun other ho => ?_) keeps⟩
    exact changes other (List.mem_append_right _ (List.mem_cons_of_mem _ ho))

/-! ## A create given to two workers -/

/-- A tool that does at once whatever it is asked to do. -/
def promptTool : Provisioner where
  reply _ c now := (some .zero, .answered (.ok ⟨c.action, [], some 0, [], "", now, now⟩))

/-- A worker dies on the create task of a VM, which another worker creates in a second task; the VM
is stopped, and then the dead worker's task is found. -/
def duplicateCreate : List Step :=
  let work := plainWorker (.ofSeconds 300)
  [.request (.createPool "default" "10.0.0.0/30" "10.0.0.1" none) ⟨1, 0⟩,
    .request (.createVm 3 ["srv-1"] "task-1" { name := "a", owner := "alice" } {}) ⟨2, 0⟩,
    .request (.enqueue 3 "task-2" .create 1 {}) ⟨3, 0⟩,
    .death work promptTool ⟨4, 0⟩ 1,
    .work work promptTool ⟨5, 0⟩,
    .request (.ask 3 "task-3" .stop "srv-1" "alice") ⟨6, 0⟩,
    .work work promptTool ⟨7, 0⟩,
    .work (.sweep .zero) promptTool ⟨8, 0⟩]

/-- There the VM comes to run with an address and no delete task is ever stored. At the end the VM
is stopped, with the address on its record, and holds no slot. -/
theorem stopped_vm_loses_address :
    let running := after .empty (duplicateCreate.take 5)
    let swept := after .empty duplicateCreate
    (running.vm? 1).map (fun vm => (vm.id, vm.status, vm.address)) =
      some ("srv-1", .running, some "10.0.0.2") ∧
    running.addressOf "srv-1" = some "10.0.0.2" ∧
    (∀ row ∈ swept.tasks, row.kind ≠ .delete) ∧
    (swept.vm? 1).map (fun vm => (vm.id, vm.status, vm.address)) =
      some ("srv-1", .stopped, some "10.0.0.2") ∧
    swept.addressOf "srv-1" = none := by
  decide +kernel

/-- There the VM first runs after the twelfth operation, and a later one takes its slot. -/
theorem duplicateCreate_taken : ∃ slot, ∃ taking ∈ (log .empty duplicateCreate).drop 12,
    taking.Takes 1 slot := by
  have runs : ((log .empty duplicateCreate)[11]?.bind (·.event.after.vm? 1)).any
      (·.status = .running) = true := by
    decide +kernel
  have first : ∀ other ∈ (log .empty duplicateCreate).take 11,
      (other.event.after.vm? 1).all (·.status ≠ .running) = true := by
    decide +kernel
  have bare : ((log .empty duplicateCreate).drop 12).any (fun other =>
      (other.event.after.vm? 1).all fun vm =>
        (other.event.after.activeSlot? vm.id).isNone) = true := by
    decide +kernel
  obtain ⟨vm, there, running⟩ := (Option.any_eq_true _ _).mp runs
  obtain ⟨entry, here, found⟩ := Option.bind_eq_some_iff.mp there
  have split : log .empty duplicateCreate = (log .empty duplicateCreate).take 11 ++
      entry :: (log .empty duplicateCreate).drop 12 := by
    conv_lhs => rw [← List.take_append_drop 11 (log .empty duplicateCreate),
      List.drop_eq_getElem?_toList_append, here]
    rfl
  have kept := (address_kept split (fun other ho vm found => ?_) found (by simpa using running)).1
  · obtain ⟨slot, -, always | ⟨untouched, taking, rest, later, -, takes⟩⟩ := kept
    · obtain ⟨other, ho, none⟩ := List.any_eq_true.mp bare
      obtain ⟨vm, found, holds, -⟩ := always other ho
      simp [found, holds] at none
    · refine ⟨slot, taking, ?_, takes⟩
      rw [later]
      exact List.mem_append_right _ List.mem_cons_self
  · simpa [found] using first other ho

end Fleet

end VmFleet
