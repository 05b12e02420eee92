/-
A change of status against the store as it is. The VM moves exactly if it is there
in one of the expected statuses. Then its record has the new status, the time of
the change and what the patch writes, and nothing else is different; otherwise
the answer says what was met instead, and the store is as it was.
-/
import VmFleet.Lifecycle.World
import VmFleet.Proofs.VmRecords

namespace VmFleet

/-- What a write makes of the value of a nullable column: it leaves it, replaces it or clears it. -/
inductive FieldWrite.Makes : FieldWrite → Option String → Option String → Prop
  | untouched (old : Option String) : Makes .keep old old
  | replaced (value : String) (old : Option String) : Makes (.set (some value)) old (some value)
  | cleared (old : Option String) : Makes (.set none) old none

theorem FieldWrite.makes_apply (write : FieldWrite) (old : Option String) :
    write.Makes old (write.apply old) := by
  rcases write with _ | _ | value
  · exact .untouched old
  · exact .cleared old
  · exact .replaced value old

/-- The record is what a change of status makes of the old one. -/
structure Vm.Becomes (old : Vm) (next : VmStatus) (patch : VmPatch) (now : Instant) (vm : Vm) :
    Prop where
  status : vm.status = next
  updated : vm.updatedAt = now.cutToMicros
  fields : ∀ f : VmField, (patch.field f).Makes (f.get old) (f.get vm)
  others : vm = { old with
    status := vm.status
    updatedAt := vm.updatedAt
    address := vm.address
    host := vm.host
    kernelPath := vm.kernelPath
    rootfsPath := vm.rootfsPath
    errorMessage := vm.errorMessage }

theorem Vm.becomes_moved (old : Vm) (next : VmStatus) (patch : VmPatch) (now : Instant) :
    old.Becomes next patch now (old.moved next patch now.cutToMicros) where
  status := rfl
  updated := rfl
  fields f := f.get_moved old next patch now.cutToMicros ▸ (patch.field f).makes_apply (f.get old)
  others := rfl

namespace Store

variable (s : Store) (now : Instant) (key : Int) (expected : List VmStatus) (next : VmStatus)
  (patch : VmPatch)

/-- How a change of status may end: its answer, and the store after it. -/
inductive ComparedAndSet : Except Error Vm → Store → Prop
  | moved {old vm : Vm} {s' : Store} (found : s.vm? key = some old)
      (source : old.status ∈ expected) (becomes : old.Becomes next patch now vm)
      (stored : s'.vm? key = some vm)
      (rows : s'.vms = s.vms.map fun row => if row.key = key then vm else row)
      (tables : s' = { s with vms := s'.vms }) : ComparedAndSet (.ok vm) s'
  | refused {old : Vm} (found : s.vm? key = some old) (out : old.status ∉ expected) :
      ComparedAndSet (.error (.invalidTransition old.id old.status next)) s
  | missing (gone : s.vm? key = none) : ComparedAndSet (.error (.vmNotFound (keyText key))) s

theorem compareAndSet_ends :
    s.ComparedAndSet now key expected next patch
      (s.compareAndSet now key expected next patch).1
      (s.compareAndSet now key expected next patch).2 := by
  cases found : s.vm? key with
  | none =>
    rw [compareAndSet_of_none found]
    exact .missing found
  | some old =>
    by_cases source : old.status ∈ expected
    · rw [compareAndSet_of_mem next patch found source]
      have own : (old.moved next patch now.cutToMicros).key = key := (vm?_mem found).2
      refine .moved found source (old.becomes_moved next patch now) (vm?_setVm_self found own)
        ?_ rfl
      simp only [setVm, updateWhere, beq_iff_eq]
    · rw [compareAndSet_of_not_mem found source]
      exact .refused found source

/-- The operation of a program leaves the store as the statement leaves it, also where the answer
is a refusal. -/
theorem perform_transition (tool : Tool) (calls : List CallRecord) (coming : List DueWrite) :
    World.perform tool (.transition key expected next patch) ⟨s, now, calls, coming⟩ =
      ((s.compareAndSet now key expected next patch).1,
        ⟨(s.compareAndSet now key expected next patch).2, now, calls, coming⟩) := by
  have ends := s.compareAndSet_ends now key expected next patch
  simp only [World.perform, transition]
  generalize s.compareAndSet now key expected next patch = done at ends ⊢
  obtain ⟨answer, s'⟩ := done
  cases ends <;> rfl

/-- The VM moves exactly if it is there in an expected status. It then has the new status, the time
of the change and what the patch writes, and is the only thing that changes; otherwise the answer
says what was met, and nothing changes. That is what the operation of a program does too. -/
theorem compared_and_set :
    ((∃ vm, (s.compareAndSet now key expected next patch).1 = .ok vm) ↔
      ∃ old, s.vm? key = some old ∧ old.status ∈ expected) ∧
    s.ComparedAndSet now key expected next patch
      (s.compareAndSet now key expected next patch).1
      (s.compareAndSet now key expected next patch).2 ∧
    ∀ (tool : Tool) (calls : List CallRecord) (coming : List DueWrite),
      World.perform tool (.transition key expected next patch) ⟨s, now, calls, coming⟩ =
        ((s.compareAndSet now key expected next patch).1,
          ⟨(s.compareAndSet now key expected next patch).2, now, calls, coming⟩) := by
  have ends := s.compareAndSet_ends now key expected next patch
  refine ⟨⟨?_, ?_⟩, ends, s.perform_transition now key expected next patch⟩
  · rintro ⟨vm, ok⟩
    rw [ok] at ends
    cases ends with
    | moved found source => exact ⟨_, found, source⟩
  · rintro ⟨old, found, source⟩
    exact ⟨_, congrArg Prod.fst (compareAndSet_of_mem next patch found source)⟩

end Store

end VmFleet
