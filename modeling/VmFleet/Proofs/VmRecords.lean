/-
The table of VM records through its look-up by key: what each write to the
table does to it, and that keys and public ids stay distinct.
-/
import VmFleet.Proofs.Rows
import VmFleet.Proofs.VmUpdates

namespace VmFleet

namespace Vm

/-- The record after an edit at `now`. -/
def edited (vm : Vm) (name description : Option String) (now : Instant) : Vm :=
  { vm with
    name := name.getD vm.name
    description := description <|> vm.description
    updatedAt := now }

variable (vm : Vm) (next : VmStatus) (patch : VmPatch) (now : Instant)

@[simp] theorem moved_status : (vm.moved next patch now).status = next := rfl
@[simp] theorem moved_address :
    (vm.moved next patch now).address = patch.address.apply vm.address := rfl

end Vm

theorem VmPatch.withError_address (why : String) (drop : Bool) (old : Option String) :
    ((VmPatch.withError why).droppingAddress drop).address.apply old =
      if drop then none else old := by
  cases drop <;> rfl

namespace Store

/-- Keys and public ids name one VM each, and the next key names none. -/
structure VmsDistinct (s : Store) : Prop where
  keys : (s.vms.map (·.key)).Nodup
  ids : (s.vms.map (·.id)).Nodup
  fresh : ∀ vm ∈ s.vms, vm.key < s.nextVm

variable {s s' : Store} {key k : Int} {vm old : Vm} {now : Instant}

theorem VmsDistinct.congr {t : Store} (h : s.VmsDistinct) (vms : t.vms = s.vms)
    (next : t.nextVm = s.nextVm) : t.VmsDistinct := by
  obtain ⟨keys, ids, fresh⟩ := h
  rw [← vms] at keys ids fresh
  rw [← next] at fresh
  exact ⟨keys, ids, fresh⟩

theorem vm?_mem (h : s.vm? key = some vm) : vm ∈ s.vms ∧ vm.key = key :=
  ⟨List.mem_of_find?_eq_some h, by simpa using List.find?_some h⟩

theorem vm?_isSome : (s.vm? key).isSome ↔ ∃ vm ∈ s.vms, vm.key = key := by
  simp [vm?]

namespace VmsDistinct

theorem vm?_iff (h : s.VmsDistinct) : s.vm? key = some vm ↔ vm ∈ s.vms ∧ vm.key = key :=
  find?_eq_some_iff_of_nodup _ h.keys

theorem vm?_of_mem (h : s.VmsDistinct) (hvm : vm ∈ s.vms) : s.vm? vm.key = some vm :=
  h.vm?_iff.mpr ⟨hvm, rfl⟩

theorem vmById?_iff (h : s.VmsDistinct) {id : String} :
    s.vmById? id = some vm ↔ vm ∈ s.vms ∧ vm.id = id :=
  find?_eq_some_iff_of_nodup _ h.ids

/-- A public id names one VM. -/
theorem eq_of_id (h : s.VmsDistinct) {a b : Vm} (ha : a ∈ s.vms) (hb : b ∈ s.vms)
    (same : a.id = b.id) : a = b :=
  List.inj_on_of_nodup_map h.ids ha hb same

theorem fresh_none (h : s.VmsDistinct) (key : Int) (hk : s.nextVm ≤ key) : s.vm? key = none := by
  cases found : s.vm? key with
  | none => rfl
  | some vm =>
    obtain ⟨hvm, rfl⟩ := vm?_mem found
    have := h.fresh vm hvm
    omega

end VmsDistinct

theorem empty_vmsDistinct : Store.empty.VmsDistinct :=
  ⟨List.nodup_nil, List.nodup_nil, fun _ hvm => absurd hvm List.not_mem_nil⟩

/-! ## Replacing one record -/

theorem vm?_setVm (hv : vm.key = key) :
    (s.setVm key fun _ => vm).vm? k =
      if k = key then (s.vm? key).map fun _ => vm else s.vm? k := by
  subst hv
  simp only [setVm, vm?]
  split
  · next hk =>
    subst hk
    exact find?_updateWhere_self (by simp)
  · next hk =>
    refine find?_updateWhere_of_passed fun x _ hx => ?_
    simp only [beq_iff_eq] at hx
    simp only [beq_eq_false_iff_ne, hx]
    exact ⟨fun h => hk h.symm, fun h => hk h.symm⟩

theorem vm?_setVm_self (found : s.vm? key = some old) (hv : vm.key = key) :
    (s.setVm key fun _ => vm).vm? key = some vm := by
  rw [vm?_setVm hv, if_pos rfl, found, Option.map_some]

theorem vm?_setVm_of_ne (hv : vm.key = key) (hk : k ≠ key) :
    (s.setVm key fun _ => vm).vm? k = s.vm? k := by
  rw [vm?_setVm hv, if_neg hk]

theorem setVm_setVm (hv : old.key = key) :
    (s.setVm key fun _ => old).setVm key (fun _ => vm) = s.setVm key fun _ => vm := by
  simp only [setVm]
  rw [updateWhere_updateWhere_const old vm (by simp [hv])]

/-- The VM of the key waits to be created. -/
def Waits (s : Store) (key : Int) : Prop :=
  ∃ vm, s.vm? key = some vm ∧ vm.status = .pending

theorem Waits.congr {t : Store} (h : t.Waits key) (vms : t.vms = s.vms) : s.Waits key := by
  obtain ⟨vm, found, pending⟩ := h
  exact ⟨vm, by rwa [vm?, ← vms], pending⟩

theorem Waits.of_setVm (hv : vm.key = key) (h : (s.setVm key fun _ => vm).Waits k) :
    s.Waits k ∧ k ≠ key ∨ k = key ∧ vm.status = .pending := by
  obtain ⟨vm', found, pending⟩ := h
  rw [vm?_setVm hv] at found
  split at found
  · next same =>
    obtain ⟨_, -, rfl⟩ := Option.map_eq_some_iff.mp found
    exact .inr ⟨same, pending⟩
  · next other => exact .inl ⟨⟨vm', found, pending⟩, other⟩

/-- A VM whose record is replaced by one that is not in `pending` does not wait. -/
theorem Waits.of_setVm_ne (hv : vm.key = key) (settled : vm.status ≠ .pending)
    (h : (s.setVm key fun _ => vm).Waits k) : s.Waits k ∧ k ≠ key :=
  (h.of_setVm hv).resolve_right fun ⟨_, pending⟩ => settled pending

/-- The record that stands for a key may be replaced by one with its key and public id. -/
theorem VmsDistinct.setVm (h : s.VmsDistinct) (found : s.vm? key = some old)
    (hk : vm.key = key) (hid : vm.id = old.id) :
    (s.setVm key fun _ => vm).VmsDistinct := by
  obtain ⟨hold, rfl⟩ := vm?_mem found
  have only : ∀ x ∈ s.vms, (x.key == old.key) = true → x = old := fun x hx hxk =>
    List.inj_on_of_nodup_map h.keys hx hold (by simpa using hxk)
  refine ⟨?_, ?_, ?_⟩
  · simp only [Store.setVm]
    rw [map_updateWhere]
    · exact h.keys
    · intro x _ hx
      simpa [hk] using Eq.symm (by simpa using hx)
  · simp only [Store.setVm]
    rw [map_updateWhere]
    · exact h.ids
    · intro x hx hxk
      rw [only x hx hxk, hid]
  · intro x hx
    simp only [Store.setVm, mem_updateWhere] at hx
    obtain ⟨y, hy, rfl⟩ := hx
    split
    · rw [hk]; exact h.fresh old hold
    · exact h.fresh y hy

/-! ## Compare-and-set -/

section CompareAndSet

variable {expected : List VmStatus} {next : VmStatus} {patch : VmPatch}

theorem compareAndSet_of_mem (next : VmStatus) (patch : VmPatch) (found : s.vm? key = some old)
    (hin : old.status ∈ expected) :
    s.compareAndSet now key expected next patch =
      (.ok (old.moved next patch now.cutToMicros),
        s.setVm key fun _ => old.moved next patch now.cutToMicros) := by
  have own : (old.moved next patch now.cutToMicros).key = key := (vm?_mem found).2
  simp only [compareAndSet, execute_moving, found, hin, if_true, vm?_setVm_self found own,
    Nat.one_ne_zero, if_false]

theorem compareAndSet_of_not_mem (found : s.vm? key = some old) (hout : old.status ∉ expected) :
    s.compareAndSet now key expected next patch =
      (.error (.invalidTransition old.id old.status next), s) := by
  simp only [compareAndSet, execute_moving, found, hout, if_false, if_true]

theorem compareAndSet_of_none (gone : s.vm? key = none) :
    s.compareAndSet now key expected next patch = (.error (.vmNotFound (keyText key)), s) := by
  simp only [compareAndSet, execute_moving, gone]

/-- A change of status is accepted from an expected status. -/
theorem transition_of_mem (next : VmStatus) (patch : VmPatch)
    (found : s.vm? key = some old) (hin : old.status ∈ expected) :
    s.transition now key expected next patch =
      .ok (old.moved next patch now.cutToMicros,
        s.setVm key fun _ => old.moved next patch now.cutToMicros) := by
  rw [transition, compareAndSet_of_mem next patch found hin]

theorem transition_of_not_mem (found : s.vm? key = some old) (hout : old.status ∉ expected) :
    s.transition now key expected next patch =
      .error (.invalidTransition old.id old.status next) := by
  rw [transition, compareAndSet_of_not_mem found hout]

theorem transition_of_none (gone : s.vm? key = none) :
    s.transition now key expected next patch = .error (.vmNotFound (keyText key)) := by
  rw [transition, compareAndSet_of_none gone]

/-- An accepted change of status replaces a record that was in an expected status. -/
theorem transition_ok (h : s.transition now key expected next patch = .ok (vm, s')) :
    ∃ old, s.vm? key = some old ∧ old.status ∈ expected ∧
      vm = old.moved next patch now.cutToMicros ∧ s' = s.setVm key fun _ => vm := by
  cases found : s.vm? key with
  | none => cases (transition_of_none found).symm.trans h
  | some old =>
    by_cases hin : old.status ∈ expected
    · cases (transition_of_mem next patch found hin).symm.trans h
      exact ⟨old, rfl, hin, rfl, rfl⟩
    · cases (transition_of_not_mem found hin).symm.trans h

/-- A refused change of status met no VM, or one in a status that was not expected. -/
theorem transition_error {e : Error}
    (h : s.transition now key expected next patch = .error e) :
    (s.vm? key = none ∧ e = .vmNotFound (keyText key)) ∨
      ∃ old, s.vm? key = some old ∧ old.status ∉ expected ∧
        e = .invalidTransition old.id old.status next := by
  cases found : s.vm? key with
  | none =>
    cases (transition_of_none found).symm.trans h
    exact .inl ⟨rfl, rfl⟩
  | some old =>
    by_cases hin : old.status ∈ expected
    · cases (transition_of_mem next patch found hin).symm.trans h
    · cases (transition_of_not_mem found hin).symm.trans h
      exact .inr ⟨old, rfl, hin, rfl⟩

end CompareAndSet

theorem updateVmDetails_of_found (name description : Option String)
    (found : s.vm? key = some old) :
    s.updateVmDetails now key name description =
      .ok (old.edited name description now.cutToMicros,
        s.setVm key fun _ => old.edited name description now.cutToMicros) := by
  simp only [updateVmDetails, found, Vm.edited]

/-- An edit keeps the record's key, public id, status and address. -/
theorem updateVmDetails_ok {name description : Option String}
    (h : s.updateVmDetails now key name description = .ok (vm, s')) :
    ∃ old, s.vm? vm.key = some old ∧ vm.id = old.id ∧ vm.status = old.status ∧
      vm.address = old.address ∧ s' = s.setVm vm.key fun _ => vm := by
  simp only [updateVmDetails] at h
  split at h
  · cases h
  · next old found =>
    simp only [Except.ok.injEq, Prod.mk.injEq] at h
    obtain ⟨rfl, rfl⟩ := h
    obtain ⟨-, rfl⟩ := vm?_mem found
    exact ⟨old, found, rfl, rfl, rfl, rfl⟩

theorem updateVmDetails_host {name description : Option String}
    (h : s.updateVmDetails now key name description = .ok (vm, s'))
    (found : s.vm? vm.key = some old) : vm.host = old.host := by
  simp only [updateVmDetails] at h
  split at h
  · cases h
  · next other found' =>
    simp only [Except.ok.injEq, Prod.mk.injEq] at h
    obtain ⟨rfl, -⟩ := h
    obtain ⟨-, rfl⟩ := vm?_mem found'
    cases found'.symm.trans found
    rfl

/-! ## Removing and adding records -/

theorem vm?_removeVm :
    (s.removeVm key).2.vm? k = if k = key then none else s.vm? k := by
  simp only [removeVm, vm?, List.find?_filter]
  split
  · next hk =>
    subst hk
    simp
  · next hk =>
    congr 1
    funext x
    by_cases hx : x.key = k
    · simp [hx, hk]
    · simp [hx]

theorem Waits.of_removeVm (h : (s.removeVm key).2.Waits k) : s.Waits k := by
  obtain ⟨vm, found, pending⟩ := h
  rw [vm?_removeVm] at found
  split at found
  · cases found
  · exact ⟨vm, found, pending⟩

theorem VmsDistinct.removeVm (h : s.VmsDistinct) : (s.removeVm key).2.VmsDistinct where
  keys := h.keys.sublist (List.filter_sublist.map _)
  ids := h.ids.sublist (List.filter_sublist.map _)
  fresh vm hvm := h.fresh vm (List.mem_filter.mp hvm).1

/-- A stored request is a new record in `pending` without an address, under a new key and a public
id that no VM had. -/
theorem insertVm_ok {id : String} {draft : Draft}
    (h : s.insertVm now id draft = .ok (vm, s')) :
    s.vmById? id = none ∧ vm.key = s.nextVm ∧ vm.id = id ∧ vm.status = .pending ∧
      vm.address = none ∧ s' = { s with vms := s.vms ++ [vm], nextVm := s.nextVm + 1 } := by
  simp only [insertVm] at h
  split at h
  · cases h
  · next free =>
    simp only [Except.ok.injEq, Prod.mk.injEq] at h
    obtain ⟨rfl, rfl⟩ := h
    exact ⟨by simpa using free, rfl, rfl, rfl, rfl, rfl⟩

/-- A new record has what the request asks for, and nothing yet of where it runs. -/
theorem insertVm_eq {id : String} {draft : Draft} (h : s.insertVm now id draft = .ok (vm, s')) :
    vm = {
      key := s.nextVm
      id := id
      name := draft.name
      description := draft.description
      vcpus := draft.vcpus
      memoryMb := draft.memoryMb
      address := none
      host := none
      kernelPath := draft.kernelPath
      rootfsPath := none
      status := .pending
      errorMessage := none
      owner := draft.owner
      createdAt := now.cutToMicros
      updatedAt := now.cutToMicros } := by
  simp only [insertVm] at h
  split at h
  · cases h
  · cases h
    rfl

theorem insertVm_host {id : String} {draft : Draft}
    (h : s.insertVm now id draft = .ok (vm, s')) : vm.host = none := by
  rw [insertVm_eq h]

/-- Removing the newest record leaves all others. -/
theorem removeVm_append_new (hv : vm.key = s.nextVm) (distinct : s.VmsDistinct) {n : Int} :
    (({ s with vms := s.vms ++ [vm], nextVm := n } : Store).removeVm vm.key).2 =
      { s with nextVm := n } := by
  have others : ∀ x ∈ s.vms, (!(x.key == vm.key)) = true := by
    intro x hx
    have := distinct.fresh x hx
    simp only [Bool.not_eq_true', beq_eq_false_iff_ne, ne_eq]
    omega
  simp [removeVm, List.filter_append, List.filter_eq_self.mpr others]

theorem VmsDistinct.skip (h : s.VmsDistinct) :
    ({ s with nextVm := s.nextVm + 1 } : Store).VmsDistinct where
  keys := h.keys
  ids := h.ids
  fresh vm hvm := by
    have := h.fresh vm hvm
    simp only
    omega

theorem vm?_append_new (hv : vm.key = s.nextVm) (distinct : s.VmsDistinct) {n : Int} :
    ({ s with vms := s.vms ++ [vm], nextVm := n } : Store).vm? k =
      if k = vm.key then some vm else s.vm? k := by
  by_cases hk : k = vm.key
  · subst hk
    have none := distinct.fresh_none vm.key (by omega)
    simp only [vm?] at none
    simp [vm?, none]
  · have miss : vm.key ≠ k := fun h => hk h.symm
    simp [vm?, miss, hk]

theorem VmsDistinct.append_new (h : s.VmsDistinct) (hv : vm.key = s.nextVm)
    (free : s.vmById? vm.id = none) :
    ({ s with vms := s.vms ++ [vm], nextVm := s.nextVm + 1 } : Store).VmsDistinct where
  keys := by
    rw [List.map_append, List.nodup_append]
    refine ⟨h.keys, by simp, ?_⟩
    intro a ha b hb
    obtain ⟨x, hx, rfl⟩ := List.mem_map.mp ha
    simp only [List.map_cons, List.map_nil, List.mem_singleton] at hb
    have := h.fresh x hx
    omega
  ids := by
    rw [List.map_append, List.nodup_append]
    refine ⟨h.ids, by simp, ?_⟩
    intro a ha b hb
    obtain ⟨x, hx, rfl⟩ := List.mem_map.mp ha
    simp only [List.map_cons, List.map_nil, List.mem_singleton] at hb
    subst hb
    simpa using List.find?_eq_none.mp free x hx
  fresh x hx := by
    simp only [List.mem_append, List.mem_singleton] at hx
    rcases hx with hx | rfl
    · have := h.fresh x hx
      simp only
      omega
    · simp only
      omega

end Store

end VmFleet
