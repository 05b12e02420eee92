/-
The statuses of VMs over any use of a fleet, with workers dying wherever they
may: which status may follow which, and that the key of a removed VM is never
used again.
-/
import VmFleet.Proofs.Changes

namespace VmFleet.Fleet

open Store (Change)

variable {s : Store}

/-- Once a key that was given out names no VM, it names none after any later operation. -/
theorem gone_later {events : List Event} {key : Int} (linked : Event.Linked s events)
    (changes : ∀ e ∈ events, e.before.VmsDistinct ∧
      ∃ abandoned deleted, Change abandoned deleted e.before e.after)
    (used : key < s.nextVm) (gone : s.vm? key = none) :
    ∀ e ∈ events, e.after.vm? key = none := by
  have keeps : ∀ e : Event,
      (e.before.VmsDistinct ∧ ∃ abandoned deleted, Change abandoned deleted e.before e.after) →
      (key < e.before.nextVm ∧ e.before.vm? key = none) →
      (key < e.after.nextVm ∧ e.after.vm? key = none) ∧ e.after.vm? key = none := by
    rintro e ⟨distinct, _, _, change⟩ ⟨used, gone⟩
    have still := change.gone distinct used gone
    exact ⟨still, still.2⟩
  exact (linked.invariant (I := fun s => key < s.nextVm ∧ s.vm? key = none) changes keeps
    ⟨used, gone⟩).2

/-- **The graph of statuses.** In any use of a fleet that begins with an empty store, with workers
dying after any operation, every operation leaves the status of every VM as it is or moves it along
an edge of the graph, and removes a VM only in `deleting`; a pending VM goes into `error` only where
a create task that was cut short is recovered. The key of a removed VM names none ever after. -/
theorem status_graph (steps : List Step) :
    (∀ entry ∈ log .empty steps, ∀ key old, entry.event.before.vm? key = some old →
      (entry.event.after.vm? key = none ∧ old.status = .deleting) ∨
      ∃ vm, entry.event.after.vm? key = some vm ∧
        (vm.status = old.status ∨ vm.status ∈ old.status.next) ∧
        (old.status = .pending → vm.status = .error → entry.RecoversCreate key)) ∧
    ∀ earlier entry later key, log .empty steps = earlier ++ entry :: later →
      (entry.event.before.vm? key).isSome → entry.event.after.vm? key = none →
      ∀ other ∈ later, other.event.after.vm? key = none := by
  obtain ⟨-, changes⟩ := log_changes steps Store.empty_vmsDistinct Store.empty_slotsSound
  refine ⟨fun entry he key old found => ?_, ?_⟩
  · obtain ⟨distinct, -, change⟩ := changes entry he
    rcases change.vm?_cases distinct key with
      same | ⟨old', vm, moves, store⟩ | ⟨old', found', gone, status⟩ | ⟨isNext, -⟩
    · exact .inr ⟨old, same.trans found, .inl rfl, fun pending error => by
        rw [pending] at error
        cases error⟩
    · cases found.symm.trans moves.found
      exact .inr ⟨vm, store ▸ moves.there, moves.edge, moves.stranded⟩
    · cases found.symm.trans found'
      exact .inl ⟨gone, status⟩
    · rw [distinct.fresh_none key (by omega)] at found
      cases found
  · intro earlier entry later key split there gone
    have member : ∀ x ∈ entry :: later, x ∈ log .empty steps := by
      intro x hx
      rw [split]
      exact List.mem_append_right _ hx
    obtain ⟨distinct, -, change⟩ := changes entry (member entry List.mem_cons_self)
    -- The key was given out before.
    obtain ⟨vm, hvm, rfl⟩ := Store.vm?_isSome.mp there
    have used := Int.lt_of_lt_of_le (distinct.fresh vm hvm) change.nextVm_le
    have later_changes : ∀ e ∈ later.map (·.event), e.before.VmsDistinct ∧
        ∃ abandoned deleted, Change abandoned deleted e.before e.after := by
      intro e he
      obtain ⟨x, hx, rfl⟩ := List.mem_map.mp he
      obtain ⟨distinct, -, change⟩ := changes x (member x (List.mem_cons_of_mem entry hx))
      exact ⟨distinct, _, _, change⟩
    intro other ho
    exact gone_later (log_split split).1 later_changes used gone _ (List.mem_map_of_mem ho)

end VmFleet.Fleet
