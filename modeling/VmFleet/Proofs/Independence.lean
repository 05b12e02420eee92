/-
Two tasks for two VMs. What a handler does to the VM of another task is nothing,
and of a pool it takes one address at most; so the second task finds its own VM
as it would have found it first, and the order shows in nothing but in which
address a create receives. This is what workers that run side by side rely on.
-/
import VmFleet.Proofs.Coherence
import VmFleet.Proofs.Returning
import VmFleet.Proofs.SideBySide

namespace VmFleet

namespace Vm.Alike

variable {loose loose' : Prop} {a b : Vm}

theorem symm (h : a.Alike loose b) : b.Alike loose a where
  rest := by rw [h.rest]
  bound := h.bound.symm
  strict strictly := (h.strict strictly).symm

theorem mono (h : a.Alike loose b) (looser : loose → loose') : a.Alike loose' b where
  rest := h.rest
  bound := h.bound
  strict strictly := h.strict fun l => strictly (looser l)

variable {x y : Option Vm}

theorem rel_refl (x : Option Vm) : Option.Rel (Alike loose) x x := by
  cases x with
  | none => exact .none
  | some vm => exact .some (.refl vm)

theorem rel_symm (h : Option.Rel (Alike loose) x y) : Option.Rel (Alike loose) y x := by
  cases h with
  | none => exact .none
  | some alike => exact .some alike.symm

theorem rel_mono (h : Option.Rel (Alike loose) x y) (looser : loose → loose') :
    Option.Rel (Alike loose') x y := by
  cases h with
  | none => exact .none
  | some alike => exact .some (alike.mono looser)

end Vm.Alike

namespace Store

variable {s : Store} {id : String} {slots : List Slot}

/-- The slots as work for one VM leaves them: others hold what they held, and each pool has at most
one free address less. -/
structure Nearby (s : Store) (id : String) (slots : List Slot) : Prop extends s.Aside id slots where
  free : ∀ k, s.freeIn k ≤ ({ s with slots := slots } : Store).freeIn k + 1

namespace Nearby

theorem same (sound : s.SlotsSound) (id : String) : s.Nearby id s.slots :=
  ⟨.same sound id, fun _ => Nat.le_succ _⟩

theorem granted {vm : Vm} {now : Instant} {name : String} {pool : Pool} {slot : Slot}
    (sound : s.SlotsSound)
    (grant : Granted (s.working vm s.slots) now name id pool slot (s.working vm slots)) :
    s.Nearby id slots :=
  ⟨.granted sound grant, grant.freeIn_le (sound.congr rfl rfl)⟩

theorem release (h : s.Nearby id slots) (vm : Vm) (now : Instant) :
    s.Nearby id ((s.working vm slots).release now id).2.slots :=
  ⟨h.toAside.release vm now, fun k =>
    Nat.le_trans (h.free k) (Nat.add_le_add_right (freeIn_le_release k) 1)⟩

end Nearby

end Store

namespace Lifecycle

open Store (Nearby)

variable {settings : Settings} {attempt : Attempt} {task other : Task} {start s s' : Store}
  {vm new : Vm} {slots : List Slot} {outcome : Outcome}

/-! ## What a handler leaves alone -/

/-- The store `s'` is as `s` is, but for the VM of the task and for one address that it may have
been given. -/
structure Beside (task : Task) (s s' : Store) : Prop where
  pools : s'.pools = s.pools
  records : ∀ key, key ≠ task.vmKey → s'.vm? key = s.vm? key
  sound : s'.SlotsSound
  holders : ∀ id, (s.vm? task.vmKey).map (·.id) ≠ some id → s'.activeSlot? id = s.activeSlot? id
  free : ∀ k, s.freeIn k ≤ s'.freeIn k + 1

theorem Entered.beside (h : Entered task start vm) (key : new.key = vm.key)
    (near : start.Nearby vm.id slots) : Beside task start (start.working new slots) where
  pools := rfl
  records k hk := Store.vm?_working.trans (if_neg (key.trans h.key ▸ hk))
  sound := near.sound.congr rfl rfl
  holders id other := by
    obtain ⟨old, found, -, same, -⟩ := h.origin
    refine near.others id fun hid => other ?_
    rw [found, Option.map_some, hid, same]
  free := near.free

theorem Beside.removeVm (h : Beside task s s') : Beside task s (s'.removeVm task.vmKey).2 where
  pools := h.pools
  records key hk := Store.vm?_removeVm.trans ((if_neg hk).trans (h.records key hk))
  sound := h.sound.congr rfl rfl
  holders := h.holders
  free := h.free

theorem Allocated.nearby {slot : Slot} (h : Allocated settings task start vm slot slots)
    (sound : start.SlotsSound) : start.Nearby vm.id slots := by
  obtain ⟨_, _, grant⟩ := h
  exact .granted sound grant

theorem Undone.nearby (h : Undone settings task start vm slots) (sound : start.SlotsSound) :
    start.Nearby vm.id slots := by
  cases h with
  | refused | kept => exact .same sound vm.id
  | released _ allocated => exact (allocated.nearby sound).release vm _

/-- However a handler ends, it has left everything else alone. -/
theorem Handled.beside (h : Handled settings attempt task start outcome s)
    (sound : start.SlotsSound) : Beside task start s := by
  cases h with
  | refused => exact ⟨rfl, fun _ _ => rfl, sound, fun _ _ => rfl, fun _ => Nat.le_succ _⟩
  | ended ended =>
    cases ended with
    | created _ _ entered _ allocated => exact entered.beside rfl (allocated.nearby sound)
    | @removed vm now entered _ =>
      have released := (Nearby.same sound vm.id).release vm now
      rw [entered.key]
      exact (entered.beside rfl released).removeVm
    | settled _ entered => exact entered.beside rfl (.same sound _)
    | reverted _ entered _ undone | failed _ entered _ undone =>
      exact entered.beside rfl (undone.nearby sound)

/-! ## One task before or after another -/

section Order

variable (settings : Settings) (ends : Action → String → CallEnd) (soft : Duration)

/-- A task is handled from `now` on, with so much time until its soft limit and a tool that answers
at once: how the handler ends, and the store it leaves. -/
def handled (task : Task) (now : Instant) (s : Store) : Program.Ending Outcome × Store :=
  let attempt := Attempt.of task (now.after soft)
  let (ending, w) := (handle settings attempt task).run (Provisioner.immediate ends).tool
    { store := s, now := now }
  (ending, w.store)

variable {settings ends soft} {t t' : Instant}

variable (settings ends soft) in
theorem exists_handled (task : Task) (t : Instant) (s : Store) :
    ∃ outcome s', handled settings ends soft task t s = (.finished outcome, s') := by
  obtain ⟨outcome, w, run⟩ := (handle_returns settings (.of task (t.after soft)) task).finished
    (Provisioner.immediate ends).tool { store := s, now := t }
  exact ⟨outcome, w.store, by rw [handled, run]⟩

theorem handled_beside (sound : s.SlotsSound)
    (run : handled settings ends soft task t s = (.finished outcome, s')) : Beside task s s' := by
  obtain ⟨outcome', w, ended⟩ := (handle_returns settings (.of task (t.after soft)) task).finished
    (Provisioner.immediate ends).tool { store := s, now := t }
  rw [handled, ended] at run
  cases run
  exact ((handle_holds settings _ task s).finished rfl ended).beside sound

theorem owner_ne (distinct : s.VmsDistinct) {key key' : Int} (different : key ≠ key') {id : String}
    (owner : (s.vm? key).map (·.id) = some id) : (s.vm? key').map (·.id) ≠ some id := by
  intro owner'
  obtain ⟨vm, found, rfl⟩ := Option.map_eq_some_iff.mp owner
  obtain ⟨vm', found', same⟩ := Option.map_eq_some_iff.mp owner'
  obtain ⟨hvm, rfl⟩ := Store.vm?_mem found
  obtain ⟨hvm', rfl⟩ := Store.vm?_mem found'
  exact different (congrArg Vm.key (distinct.eq_of_id hvm hvm' same.symm))

theorem Beside.hasFree {name : String} (h : Beside other s s') (free : s.HasFree name 2) :
    s.HasFree name 1 ∧ s'.HasFree name 1 := by
  refine ⟨fun pool known active => Nat.le_of_succ_le (free pool known active), ?_⟩
  intro pool known active
  rw [Store.poolByName?, h.pools] at known
  have before := free pool known active
  have after := h.free pool.key
  omega

/-- At the start of a task whose VM no other task has in hand, the store after the other task is as
good as the one before it. -/
theorem Beside.abreast (h : Beside other s s') (distinct : s.VmsDistinct)
    (different : task.vmKey ≠ other.vmKey) (soft : Duration) (t t' : Instant) :
    Abreast task (.of task (t.after soft)) (.of task (t'.after soft))
      ((s.vm? task.vmKey).map (·.id)) { store := s, now := t } { store := s', now := t' } where
  quiet := ⟨rfl, rfl⟩
  pools := h.pools
  record := by
    simp only [h.records _ different]
    exact Vm.Alike.rel_refl _
  named vm found := by simp only [found, Option.map_some]
  slot id owner := by simp only [h.holders id (owner_ne distinct different owner)]
  final := rfl
  left := by
    simp only [Attempt.of, Instant.toNanos_after]
    omega

variable {s₁ s₂ s₁₂ : Store}

/-- A task is handled alike before and after a task for another VM: it has the same outcome, and its
VM is left alike and with a slot of the same pool, or without one. -/
theorem handled_alike (distinct : s.VmsDistinct) (different : task.vmKey ≠ other.vmKey)
    (free : task.kind = .create → s.HasFree (task.params.pool.getD settings.defaultPool) 2)
    (first : handled settings ends soft task t s = (.finished outcome, s₁))
    (before : Beside other s s') (t' : Instant) :
    ∃ s₂, handled settings ends soft task t' s' = (.finished outcome, s₂) ∧
      Option.Rel (Vm.Alike (task.kind = .create)) (s₁.vm? task.vmKey) (s₂.vm? task.vmKey) ∧
      ∀ id, (s.vm? task.vmKey).map (·.id) = some id →
        (s₂.activeSlot? id).map (·.poolKey) = (s₁.activeSlot? id).map (·.poolKey) := by
  obtain ⟨_, v, outcome, v', run, run', rfl, finish⟩ :=
    handle_sideBySide ends (before.abreast distinct different soft t t')
      fun kind => before.hasFree (free kind)
  rw [handled, run] at first
  cases first
  exact ⟨v'.store, by rw [handled, run'], finish.record, finish.slot⟩

/-- The same, where the other task comes after this one in the one order and before it in the
other. -/
theorem handled_in_turn (distinct : s.VmsDistinct) (sound : s.SlotsSound)
    (different : task.vmKey ≠ other.vmKey)
    (free : task.kind = .create → s.HasFree (task.params.pool.getD settings.defaultPool) 2)
    (first : handled settings ends soft task t s = (.finished outcome, s₁))
    (before : Beside other s s₂) (after : Beside other s₁ s₁₂) (t' : Instant) :
    ∃ s₂₁, handled settings ends soft task t' s₂ = (.finished outcome, s₂₁) ∧
      Option.Rel (Vm.Alike (task.kind = .create)) (s₁₂.vm? task.vmKey) (s₂₁.vm? task.vmKey) ∧
      ∀ id, (s.vm? task.vmKey).map (·.id) = some id →
        (s₂₁.activeSlot? id).map (·.poolKey) = (s₁₂.activeSlot? id).map (·.poolKey) := by
  obtain ⟨s₂₁, second, record, slot⟩ := handled_alike distinct different free first before t'
  refine ⟨s₂₁, second, after.records _ different ▸ record, fun id owner => ?_⟩
  have others : (s₁.vm? other.vmKey).map (·.id) ≠ some id := by
    rw [(handled_beside sound first).records _ different.symm]
    exact owner_ne distinct different owner
  rw [slot id owner, after.holders id others]

/-- **Two tasks for two VMs, in either order.** Where each create among them names a pool that is
missing, inactive or has two free addresses, each task has the same outcome in both orders, whatever
the times; each VM is there afterwards in both or in neither, with a record that is the same but for
the time of its last change and for which address a create gave it; and each pool has as many
addresses held. -/
theorem handled_in_either_order (settings : Settings) (ends : Action → String → CallEnd)
    (soft : Duration) (a b : Task) (s : Store) (distinct : s.VmsDistinct) (sound : s.SlotsSound)
    (different : a.vmKey ≠ b.vmKey)
    (free : ∀ task ∈ [a, b], task.kind = .create →
      s.HasFree (task.params.pool.getD settings.defaultPool) 2)
    (t₁ t₂ t₃ t₄ : Instant) :
    ∃ outcomeA outcomeB s₁ s₁₂ s₂ s₂₁,
      handled settings ends soft a t₁ s = (.finished outcomeA, s₁) ∧
      handled settings ends soft b t₂ s₁ = (.finished outcomeB, s₁₂) ∧
      handled settings ends soft b t₃ s = (.finished outcomeB, s₂) ∧
      handled settings ends soft a t₄ s₂ = (.finished outcomeA, s₂₁) ∧
      (∀ key, Option.Rel (Vm.Alike (∃ task ∈ [a, b], task.kind = .create ∧ task.vmKey = key))
        (s₁₂.vm? key) (s₂₁.vm? key)) ∧
      ∀ k, (s₁₂.poolCounts k).2 = (s₂₁.poolCounts k).2 := by
  -- The second run of `b` counts at first for what it leaves alone: that shows what `a` does second,
  -- and what that leaves alone shows that the outcome of `b` was the same.
  obtain ⟨outcomeA, s₁, runA⟩ := exists_handled settings ends soft a t₁ s
  obtain ⟨outcomeB, s₂, runB⟩ := exists_handled settings ends soft b t₃ s
  obtain ⟨_, s₁₂, secondB⟩ := exists_handled settings ends soft b t₂ s₁
  have besideA := handled_beside sound runA
  have besideB := handled_beside sound runB
  have besideB' := handled_beside besideA.sound secondB
  obtain ⟨s₂₁, secondA, recordA, slotA⟩ := handled_in_turn distinct sound different
    (free a List.mem_cons_self) runA besideB besideB' t₄
  have besideA' := handled_beside besideB.sound secondA
  obtain ⟨_, again, recordB, slotB⟩ := handled_in_turn distinct sound different.symm
    (free b (List.mem_cons_of_mem a List.mem_cons_self)) runB besideA besideA' t₂
  cases secondB.symm.trans again
  refine ⟨outcomeA, outcomeB, s₁, s₁₂, s₂, s₂₁, runA, secondB, runB, secondA, fun key => ?_, ?_⟩
  · by_cases keyA : key = a.vmKey
    · subst keyA
      exact Vm.Alike.rel_mono recordA fun kind => ⟨a, List.mem_cons_self, kind, rfl⟩
    by_cases keyB : key = b.vmKey
    · subst keyB
      exact Vm.Alike.rel_symm (Vm.Alike.rel_mono recordB fun kind =>
        ⟨b, List.mem_cons_of_mem a List.mem_cons_self, kind, rfl⟩)
    · rw [besideB'.records key keyB, besideA.records key keyA, besideA'.records key keyA,
        besideB.records key keyB]
      exact Vm.Alike.rel_refl _
  · refine besideA'.sound.held_eq besideB'.sound fun id => ?_
    by_cases ownerA : (s.vm? a.vmKey).map (·.id) = some id
    · exact (slotA id ownerA).symm
    by_cases ownerB : (s.vm? b.vmKey).map (·.id) = some id
    · exact slotB id ownerB
    have othersB : (s₁.vm? b.vmKey).map (·.id) ≠ some id := by
      rwa [besideA.records _ different.symm]
    have othersA : (s₂.vm? a.vmKey).map (·.id) ≠ some id := by
      rwa [besideB.records _ different]
    rw [besideB'.holders id othersB, besideA.holders id ownerA, besideA'.holders id othersA,
      besideB.holders id ownerB]

def labPool : Pool :=
  { (default : Pool) with key := 1, name := "lab", active := true }

/-- A pool of three addresses, the lowest held by a running VM, and a VM that is to be created. -/
def sharedPool : Store where
  vms := [{ (default : Vm) with key := 1, id := "srv-1", status := .pending },
    { (default : Vm) with
      key := 2, id := "srv-2", status := .running, address := some "10.0.0.2" }]
  pools := [labPool]
  slots := [⟨1, 1, .ofNat 167772162, some "srv-2", true, some ⟨0, 0⟩, none⟩,
    ⟨2, 1, .ofNat 167772163, none, false, none, none⟩,
    ⟨3, 1, .ofNat 167772164, none, false, none, none⟩]
  nextVm := 3
  nextPool := 2
  nextSlot := 4

def createTask : Task :=
  .fresh "task-1" .create 1 {} 1 ⟨0, 0⟩

def deleteTask : Task :=
  .fresh "task-2" .delete 2 {} 1 ⟨0, 0⟩

/-- Handling with the pool as the default one and a tool that succeeds. -/
def labHandled : Task → Instant → Store → Program.Ending Outcome × Store :=
  handled ⟨"lab", none, .ofSeconds 5⟩ (fun _ _ => .answered (.ok default)) (.ofSeconds 60)

/-- A VM that is created before the other is deleted receives the second address, and one that is
created afterwards the first, which was given back; the outcomes and the addresses held are the
same. -/
theorem created_beside_delete : ∃ created deleted s₁ s₁₂ s₂ s₂₁,
    labHandled createTask ⟨10, 0⟩ sharedPool = (.finished created, s₁) ∧
      labHandled deleteTask ⟨20, 0⟩ s₁ = (.finished deleted, s₁₂) ∧
      labHandled deleteTask ⟨30, 0⟩ sharedPool = (.finished deleted, s₂) ∧
      labHandled createTask ⟨40, 0⟩ s₂ = (.finished created, s₂₁) ∧
      (s₁₂.vm? 1).map (·.address) = some (some "10.0.0.3") ∧
      (s₂₁.vm? 1).map (·.address) = some (some "10.0.0.2") ∧
      (s₁₂.poolCounts 1).2 = (s₂₁.poolCounts 1).2 := by
  have free : ∀ task ∈ [createTask, deleteTask], task.kind = .create →
      sharedPool.HasFree (task.params.pool.getD "lab") 2 := by
    intro task member _ pool known _
    have name : ∀ task ∈ [createTask, deleteTask], task.params.pool.getD "lab" = "lab" := by decide
    have lab : sharedPool.poolByName? "lab" = some labPool := by decide
    rw [name task member] at known
    cases lab.symm.trans known
    decide
  obtain ⟨created, deleted, s₁, s₁₂, s₂, s₂₁, first, second, first', second', -, counts⟩ :=
    handled_in_either_order ⟨"lab", none, .ofSeconds 5⟩ (fun _ _ => .answered (.ok default))
      (.ofSeconds 60) createTask deleteTask sharedPool ⟨by decide, by decide, by decide⟩
      ⟨by decide, by decide, by decide, by decide⟩ (by decide) free ⟨10, 0⟩ ⟨20, 0⟩ ⟨30, 0⟩ ⟨40, 0⟩
  have early : ((labHandled deleteTask ⟨20, 0⟩
      (labHandled createTask ⟨10, 0⟩ sharedPool).2).2.vm? 1).map (·.address) =
        some (some "10.0.0.3") := by
    decide +kernel
  have late : ((labHandled createTask ⟨40, 0⟩
      (labHandled deleteTask ⟨30, 0⟩ sharedPool).2).2.vm? 1).map (·.address) =
        some (some "10.0.0.2") := by
    decide +kernel
  simp only [labHandled] at early late
  rw [first, second] at early
  rw [first', second'] at late
  exact ⟨created, deleted, s₁, s₁₂, s₂, s₂₁, first, second, first', second', early, late, counts 1⟩

end Order

end Lifecycle

end VmFleet
