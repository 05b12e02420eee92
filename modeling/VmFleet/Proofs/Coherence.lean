/-
The address of a VM lies in two places, its record and the slot that it holds.
Between two requests or runs of workers the two agree: here are what agrees,
what a change to one VM must show to keep it, and every way in which a request
is answered or a handler ends.
-/
import VmFleet.Proofs.Fleet

namespace VmFleet

namespace Store

/-- What holds of a VM that nobody works on: its record has the address of the slot that it holds,
which it does if it runs or is stopped, and does not while it waits to be created. -/
structure Fits (s : Store) (vm : Vm) : Prop where
  settled : vm.status ∉ VmStatus.transient
  address : vm.address = s.addressOf vm.id
  placed : vm.status = .running ∨ vm.status = .stopped → vm.address.isSome
  bare : vm.status = .pending → vm.address = none

/-- Every VM fits, and every slot that is held is held by one of them. -/
structure Coherent (s : Store) : Prop where
  distinct : s.VmsDistinct
  sound : s.SlotsSound
  fits : ∀ vm ∈ s.vms, s.Fits vm
  owned : ∀ id, (s.activeSlot? id).isSome → ∃ vm ∈ s.vms, vm.id = id

theorem empty_coherent : Store.empty.Coherent where
  distinct := empty_vmsDistinct
  sound := empty_slotsSound
  fits _ h := absurd h List.not_mem_nil
  owned _ h := by cases h

variable {s t : Store} {id : String} {vm old : Vm} {slots : List Slot}

theorem addressOf_congr (same : t.activeSlot? id = s.activeSlot? id) :
    t.addressOf id = s.addressOf id := by
  rw [addressOf, addressOf, same]

theorem addressOf_eq_some {slot : Slot} (holds : s.activeSlot? id = some slot) :
    s.addressOf id = some slot.address.text := by
  rw [addressOf, holds]
  rfl

theorem addressOf_eq_none (h : s.addressOf id = none) : s.activeSlot? id = none :=
  Option.map_eq_none_iff.mp h

theorem addressOf_of_bare (bare : s.activeSlot? id = none) : s.addressOf id = none := by
  rw [addressOf, bare]
  rfl

namespace Coherent

/-- A change to the record and the slot of one VM, which fits afterwards or is gone. -/
theorem replace (h : s.Coherent) (id : String) (distinct : t.VmsDistinct) (sound : t.SlotsSound)
    (slots : ∀ other, other ≠ id → t.activeSlot? other = s.activeSlot? other)
    (vms : ∀ x : Vm, x.id ≠ id → (x ∈ t.vms ↔ x ∈ s.vms))
    (mine : ∀ x ∈ t.vms, x.id = id → t.Fits x)
    (owner : (t.activeSlot? id).isSome → ∃ x ∈ t.vms, x.id = id) : t.Coherent where
  distinct := distinct
  sound := sound
  fits x hx := by
    by_cases hid : x.id = id
    · exact mine x hx hid
    · have fits := h.fits x ((vms x hid).mp hx)
      exact { fits with address := fits.address.trans (addressOf_congr (slots x.id hid)).symm }
  owned other holds := by
    by_cases hid : other = id
    · subst hid
      exact owner holds
    · rw [slots other hid] at holds
      obtain ⟨x, hx, rfl⟩ := h.owned other holds
      exact ⟨x, (vms x hid).mpr hx, rfl⟩

theorem bare_of_free (h : s.Coherent) (free : s.vmById? id = none) : s.activeSlot? id = none := by
  cases holds : s.activeSlot? id with
  | none => rfl
  | some slot =>
    obtain ⟨vm, hvm, rfl⟩ := h.owned id (by rw [holds]; rfl)
    cases free.symm.trans (h.distinct.vmById?_iff.mpr ⟨hvm, rfl⟩)

theorem added (h : s.Coherent) (free : s.vmById? vm.id = none) (key : vm.key = s.nextVm)
    (status : vm.status = .pending) (address : vm.address = none) :
    ({ s with vms := s.vms ++ [vm], nextVm := s.nextVm + 1 } : Store).Coherent := by
  have old : ∀ x ∈ s.vms, x.id ≠ vm.id := by
    intro x hx same
    cases free.symm.trans (h.distinct.vmById?_iff.mpr ⟨hx, same⟩)
  refine h.replace vm.id (h.distinct.append_new key free) (h.sound.congr rfl rfl)
    (fun _ _ => rfl) (fun x other => ?_) (fun x hx same => ?_) fun _ => ⟨vm, ?_, rfl⟩
  · refine List.mem_append.trans (or_iff_left fun hx => other ?_)
    rw [List.mem_singleton.mp hx]
  · rcases List.mem_append.mp hx with hx | hx
    · exact absurd same (old x hx)
    · cases List.mem_singleton.mp hx
      refine ⟨?_, ?_, fun runs => ?_, fun _ => address⟩
      · rw [status]
        decide
      · exact address.trans (addressOf_of_bare (h.bare_of_free free)).symm
      · rw [status] at runs
        exact absurd runs (by decide)
  · exact List.mem_append_right _ List.mem_cons_self

theorem skip (h : s.Coherent) : ({ s with nextVm := s.nextVm + 1 } : Store).Coherent where
  distinct := h.distinct.skip
  sound := h.sound.congr rfl rfl
  fits vm hvm :=
    have fits := h.fits vm hvm
    ⟨fits.settled, fits.address, fits.placed, fits.bare⟩
  owned := h.owned

theorem withTasks (h : s.Coherent) {tasks : List TaskRow} :
    ({ s with tasks := tasks } : Store).Coherent where
  distinct := h.distinct.congr rfl rfl
  sound := h.sound.congr rfl rfl
  fits vm hvm :=
    have fits := h.fits vm hvm
    ⟨fits.settled, fits.address, fits.placed, fits.bare⟩
  owned := h.owned

end Coherent

theorem VmsDistinct.working (h : s.VmsDistinct) (found : s.vm? vm.key = some old)
    (id : vm.id = old.id) : (s.working vm slots).VmsDistinct :=
  (h.setVm found rfl id).congr rfl rfl

theorem mem_working_of_ne (distinct : s.VmsDistinct) (found : s.vm? vm.key = some old)
    (id : vm.id = old.id) {x : Vm} (other : x.id ≠ vm.id) :
    x ∈ (s.working vm slots).vms ↔ x ∈ s.vms := by
  constructor
  · intro hx
    obtain ⟨y, hy, rfl⟩ := mem_updateWhere.mp hx
    split at other
    · exact absurd rfl other
    · next miss => rwa [if_neg miss]
  · intro hx
    refine mem_updateWhere.mpr ⟨x, hx, if_neg fun same => other ?_⟩
    have there := distinct.vm?_iff.mpr ⟨hx, by simpa using same⟩
    cases found.symm.trans there
    exact id.symm

/-- The slots are as they are in the store but for what one VM holds. -/
structure Aside (s : Store) (id : String) (slots : List Slot) : Prop where
  sound : ({ s with slots := slots } : Store).SlotsSound
  others : ∀ other, other ≠ id →
    ({ s with slots := slots } : Store).activeSlot? other = s.activeSlot? other

theorem Aside.same (h : s.SlotsSound) (id : String) : s.Aside id s.slots where
  sound := h.congr rfl rfl
  others _ _ := rfl

theorem Aside.granted {now : Instant} {name : String} {pool : Pool} {slot : Slot}
    (sound : s.SlotsSound)
    (grant : Granted (s.working vm s.slots) now name id pool slot (s.working vm slots)) :
    s.Aside id slots :=
  have start : (s.working vm s.slots).SlotsSound := sound.congr rfl rfl
  ⟨(grant.slotsSound start).congr rfl rfl, fun _ => grant.holds_other start⟩

theorem Aside.release (h : s.Aside id slots) (vm : Vm) (now : Instant) :
    s.Aside id ((s.working vm slots).release now id).2.slots :=
  have start : (s.working vm slots).SlotsSound := h.sound.congr rfl rfl
  have after : ((s.working vm slots).release now id).2.SlotsSound := start.release
  ⟨after.congr rfl rfl, fun other hid =>
    activeSlot?_release.trans ((if_neg hid).trans (h.others other hid))⟩

namespace Coherent

/-- The work on one VM is over and has left a record that fits the slots. -/
theorem working (h : s.Coherent) (found : s.vm? vm.key = some old) (id : vm.id = old.id)
    (aside : s.Aside vm.id slots) (fits : (s.working vm slots).Fits vm) :
    (s.working vm slots).Coherent := by
  have distinct : (s.working vm slots).VmsDistinct := h.distinct.working found id
  have there : vm ∈ (s.working vm slots).vms :=
    (vm?_mem (vm?_working_self (by rw [found]; rfl))).1
  refine h.replace vm.id distinct ?_ aside.others
    (fun x => mem_working_of_ne h.distinct found id) ?_ fun _ => ⟨vm, there, rfl⟩
  · exact aside.sound.congr rfl rfl
  · intro x hx same
    rw [distinct.eq_of_id hx there same]
    exact fits

theorem removed (h : s.Coherent) (found : s.vm? vm.key = some old) (id : vm.id = old.id)
    (now : Instant) :
    (((s.working vm s.slots).release now vm.id).2.removeVm vm.key).2.Coherent := by
  have distinct : (s.working vm s.slots).VmsDistinct := h.distinct.working found id
  have there : vm ∈ (s.working vm s.slots).vms :=
    (vm?_mem (vm?_working_self (by rw [found]; rfl))).1
  have aside := (Aside.same h.sound vm.id).release vm now
  refine h.replace vm.id ?_ ?_ aside.others (fun x other => ?_) (fun x hx same => ?_)
    fun holds => ?_
  · exact VmsDistinct.removeVm (distinct.congr rfl rfl)
  · exact aside.sound.congr rfl rfl
  · have kept : x ∈ (s.working vm s.slots).vms ↔ x ∈ s.vms :=
      mem_working_of_ne h.distinct found id other
    refine Iff.trans ?_ kept
    refine List.mem_filter.trans (and_iff_left_of_imp fun hx => ?_)
    have key : x.key ≠ vm.key := fun same => other
      (congrArg Vm.id (List.inj_on_of_nodup_map distinct.keys hx there same))
    simpa using key
  · obtain ⟨hx, key⟩ := List.mem_filter.mp hx
    rw [distinct.eq_of_id hx there same] at key
    simp at key
  · have none : ((s.working vm s.slots).release now vm.id).2.activeSlot? vm.id = none := by
      rw [activeSlot?_release, if_pos rfl]
    cases holds.symm.trans (congrArg Option.isSome none)

end Coherent

end Store

/-! ## How handlers end -/

namespace Lifecycle

open Store (Coherent Fits Aside)

variable {settings : Settings} {attempt : Attempt} {task : Task} {start s : Store} {vm new : Vm}
  {slot : Slot} {slots : List Slot} {address : Option String} {outcome : Outcome}

namespace Entered

theorem fits (h : Entered task start vm) (coherent : start.Coherent) :
    ∃ old, start.vm? vm.key = some old ∧ vm.id = old.id ∧ old.status ∈ task.kind.sources ∧
      start.Fits old ∧ vm.address = old.address := by
  obtain ⟨old, found, source, id, address⟩ := h.origin
  exact ⟨old, h.key ▸ found, id, source, coherent.fits old (Store.vm?_mem found).1, address⟩

/-- The record still has the address of the slot that the VM held when the task started. -/
theorem address_eq (h : Entered task start vm) (coherent : start.Coherent) :
    vm.address = start.addressOf vm.id := by
  obtain ⟨old, -, id, -, fits, address⟩ := h.fits coherent
  rw [address, fits.address, id]

theorem bare (h : Entered task start vm) (coherent : start.Coherent) (kind : task.kind = .create) :
    start.activeSlot? vm.id = none := by
  obtain ⟨old, -, id, source, fits, -⟩ := h.fits coherent
  rw [kind] at source
  have none := fits.bare (List.mem_singleton.mp source)
  rw [id]
  exact Store.addressOf_eq_none (fits.address.symm.trans none)

/-- A VM that is started, stopped or restarted has an address. -/
theorem placed (h : Entered task start vm) (coherent : start.Coherent)
    (create : task.kind ≠ .create) (delete : task.kind ≠ .delete) : vm.address.isSome := by
  obtain ⟨old, -, -, source, fits, address⟩ := h.fits coherent
  rw [address]
  exact fits.placed (TaskKind.placed_of_mem_sources source create delete)

/-- The handler leaves the VM with a record that fits the slots. -/
theorem leaves (h : Entered task start vm) (coherent : start.Coherent) (key : new.key = vm.key)
    (id : new.id = vm.id) (aside : start.Aside vm.id slots)
    (fits : (start.working new slots).Fits new) : (start.working new slots).Coherent := by
  obtain ⟨old, found, same, -⟩ := h.fits coherent
  exact coherent.working (key ▸ found) (id.trans same) (id ▸ aside) fits

end Entered

theorem Allocated.aside (h : Allocated settings task start vm slot slots)
    (sound : start.SlotsSound) : start.Aside vm.id slots := by
  obtain ⟨_, _, grant⟩ := h
  exact .granted sound grant

/-- The slots as a task leaves them that did not succeed: a create has given back what it was
granted, and no other task has touched them. -/
structure Back (task : Task) (start : Store) (vm : Vm) (slots : List Slot) : Prop where
  aside : start.Aside vm.id slots
  bare : task.kind = .create → ({ start with slots := slots } : Store).activeSlot? vm.id = none
  kept : task.kind ≠ .create → slots = start.slots

theorem Undone.back (h : Undone settings task start vm slots) (entered : Entered task start vm)
    (coherent : start.Coherent) : Back task start vm slots := by
  cases h with
  | refused kind => exact ⟨.same coherent.sound _, entered.bare coherent, fun _ => rfl⟩
  | released kind allocated =>
    refine ⟨(allocated.aside coherent.sound).release vm _, fun _ => ?_,
      fun other => absurd kind other⟩
    exact Store.activeSlot?_release.trans (if_pos rfl)
  | kept kind => exact ⟨.same coherent.sound _, fun create => absurd create kind, fun _ => rfl⟩

/-- A task that did not succeed leaves its VM in `error` or where it started from, a created VM
without its address. -/
theorem Back.coherent (h : Back task start vm slots) (entered : Entered task start vm)
    (coherent : start.Coherent) (key : new.key = vm.key) (id : new.id = vm.id)
    (address : new.address = if task.kind = .create then none else vm.address)
    (status : new.status = .error ∨ new.status = task.kind.revert ∧ task.kind ≠ .delete) :
    (start.working new slots).Coherent := by
  refine entered.leaves coherent key id h.aside ⟨?_, ?_, fun runs => ?_, fun pending => ?_⟩
  · rcases status with error | ⟨reverted, delete⟩
    · rw [error]
      decide
    · exact reverted ▸ TaskKind.revert_stable delete
  · rw [address, id]
    split
    · next create => exact (Store.addressOf_of_bare (h.bare create)).symm
    · next other =>
      rw [h.kept other]
      exact entered.address_eq coherent
  · rcases status with error | ⟨reverted, delete⟩
    · rw [error] at runs
      exact absurd runs (by decide)
    · have other : task.kind ≠ .create := by
        intro create
        rw [reverted, create] at runs
        exact absurd runs (by decide)
      rw [address, if_neg other]
      exact entered.placed coherent other delete
  · rcases status with error | ⟨reverted, delete⟩
    · rw [error] at pending
      cases pending
    · rw [address, if_pos (TaskKind.revert_eq_pending.mp (reverted.symm.trans pending))]

theorem failurePatch_entered (entered : Entered task start vm) (why : String) :
    (failurePatch vm why).address.apply vm.address =
      if task.kind = .create then none else vm.address := by
  simp only [failurePatch, VmPatch.withError_address, entered.status, beq_iff_eq]
  cases task.kind <;> rfl

theorem Ended.coherent {before after : Store}
    (h : Ended settings attempt task start outcome before after) (coherent : start.Coherent) :
    after.Coherent := by
  cases h with
  | created report now entered kind allocated =>
    refine entered.leaves coherent rfl rfl (allocated.aside coherent.sound) ?_
    obtain ⟨_, pool, grant⟩ := allocated
    have holds := grant.holds_self
    have stable : VmStatus.running ∉ VmStatus.transient := by decide
    exact ⟨stable, (Store.addressOf_eq_some holds).symm, fun _ => rfl, fun pending => by
      cases pending⟩
  | removed now entered kind =>
    obtain ⟨old, found, id, -⟩ := entered.fits coherent
    exact coherent.removed found id now
  | settled now entered create delete =>
    obtain ⟨stable, notPending⟩ := TaskKind.settled_stable delete
    refine entered.leaves coherent rfl rfl (.same coherent.sound _) ⟨stable, ?_, fun _ => ?_, ?_⟩
    · exact entered.address_eq coherent
    · exact entered.placed coherent create delete
    · exact fun pending => absurd pending notPending
  | reverted now entered delete undone passing left =>
    exact (undone.back entered coherent).coherent entered coherent rfl rfl
      (failurePatch_entered entered _) (.inr ⟨rfl, delete⟩)
  | failed now entered delete undone final =>
    exact (undone.back entered coherent).coherent entered coherent rfl rfl
      (failurePatch_entered entered _) (.inl rfl)

theorem givesBack_entered (entered : Entered task start vm) :
    givesBack task.kind vm = true ↔ task.kind = .create := by
  rw [givesBack, entered.status]
  cases task.kind <;> decide

theorem marks_entered (entered : Entered task start vm) : marks task.kind vm = true := by
  rw [marks, entered.status]
  cases task.kind <;> rfl

/-- What a recovery leaves of a task that was aborted at a call. -/
theorem Recovered.coherent (h : Recovered task.kind vm (start.working vm slots) s)
    (entered : Entered task start vm) (holding : Holding settings task start vm slots address)
    (coherent : start.Coherent) : s.Coherent := by
  obtain ⟨t, why, now, freed, left⟩ := h
  rw [if_pos (marks_entered entered)] at left
  have address : (recovered task.kind vm why now).address =
      if task.kind = .create then none else vm.address := by
    rw [recovered_address]
    exact if_congr (givesBack_entered entered) rfl rfl
  -- The recovery frees the slots and then marks the record.
  have marked : ∀ slots, Back task start vm slots →
      ((start.working vm slots).setVm vm.key fun _ => recovered task.kind vm why now).Coherent := by
    intro slots back
    have same : (recovered task.kind vm why now).key = vm.key := rfl
    rw [Store.setVm_working same]
    exact back.coherent entered coherent rfl rfl address (.inl rfl)
  rw [left]
  cases freed with
  | kept keeps =>
    have other : task.kind ≠ .create := by
      intro create
      rw [(givesBack_entered entered).mpr create] at keeps
      cases keeps
    cases holding with
    | granted kind _ => exact absurd kind other
    | kept =>
      exact marked _ ⟨.same coherent.sound _, fun create => absurd create other, fun _ => rfl⟩
  | released now back =>
    have create := (givesBack_entered entered).mp back
    cases holding with
    | kept other => exact absurd create other
    | granted _ allocated =>
      rw [Store.release_working]
      refine marked _ ⟨(allocated.aside coherent.sound).release vm now, fun _ => ?_, fun other =>
        absurd create other⟩
      exact Store.activeSlot?_release.trans (if_pos rfl)

end Lifecycle

end VmFleet
