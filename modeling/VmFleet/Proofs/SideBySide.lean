/-
One handler on two stores. The stores agree about the handler's VM, that is about
its record and about the pool it has an address of, and both have an address
left in the pool that a create draws from; what else they hold does not matter.
Operation by operation the two runs are told the same, but for which address
it is, and so they end alike.
-/
import VmFleet.Proofs.Clock
import VmFleet.Proofs.Handling

namespace VmFleet

/-- A tool that answers at once, by the action and the VM alone. -/
def Provisioner.immediate (ends : Action → String → CallEnd) : Provisioner where
  reply _ c _ := (some .zero, ends c.action c.request.vmId)

/-- Two records of a VM that tell apart at most the time of the last change and, where `loose`,
which address it has. -/
structure Vm.Alike (loose : Prop) (a b : Vm) : Prop where
  rest : b = { a with address := b.address, updatedAt := b.updatedAt }
  bound : b.address.isSome = a.address.isSome
  strict : ¬loose → b.address = a.address

namespace Vm.Alike

variable {loose : Prop} {a b : Vm}

theorem refl (a : Vm) : a.Alike loose a :=
  ⟨rfl, rfl, fun _ => rfl⟩

theorem key (h : a.Alike loose b) : b.key = a.key := by rw [h.rest]

theorem id (h : a.Alike loose b) : b.id = a.id := by rw [h.rest]

theorem status (h : a.Alike loose b) : b.status = a.status := by rw [h.rest]

theorem kernelPath (h : a.Alike loose b) : b.kernelPath = a.kernelPath := by rw [h.rest]

theorem moved (h : a.Alike loose b) (next : VmStatus) {patch patch' : VmPatch} (now now' : Instant)
    (rest : patch' = { patch with address := patch'.address })
    (bound : (patch'.address.apply b.address).isSome = (patch.address.apply a.address).isSome)
    (strict : ¬loose → patch'.address = patch.address) :
    (a.moved next patch now).Alike loose (b.moved next patch' now') where
  rest := by
    rw [h.rest, rest]
    rfl
  bound := bound
  strict strictly := by
    rw [moved_address, moved_address, strict strictly, h.strict strictly]

/-- The same change of status with the same patch. -/
theorem moved_same (h : a.Alike loose b) (next : VmStatus) (patch : VmPatch)
    (now now' : Instant) : (a.moved next patch now).Alike loose (b.moved next patch now') := by
  refine h.moved next now now' rfl ?_ fun _ => rfl
  cases patch.address with
  | keep => exact h.bound
  | set new => rfl

end Vm.Alike

namespace World

variable {w : World}

theorem call_immediate (quiet : w.coming = []) (ends : Action → String → CallEnd) (c : Call) :
    w.call (Provisioner.immediate ends).tool c none =
      (some (ends c.action c.request.vmId).result, { w with
        now := w.now.after .zero
        calls := w.calls ++ [⟨c, w.now, some (ends c.action c.request.vmId).result⟩] }) := by
  have early : w.now.after .zero ≤ w.now.after (c.budget + callGrace) :=
    Instant.after_le_after.mpr (Nat.zero_le _)
  obtain ⟨store, now, calls, coming⟩ := w
  cases quiet
  simp only [call, callEnd, Provisioner.tool, Provisioner.immediate, early, if_true,
    List.foldl_nil, reach_of_coming_eq_nil, Instant.le_after]

end World

namespace Program

variable {α β : Type} {tool : Provisioner} {w w' : World}

/-- Both programs come to their ends, `p` from `w` and `p'` from `w'`, and `Q` holds of the two
results and the worlds they leave. -/
def SideBySide (tool : Provisioner) (p p' : Program α) (Q : α → World → α → World → Prop)
    (w w' : World) : Prop :=
  ∃ a v a' v', p.run tool.tool w = (.finished a, v) ∧ p'.run tool.tool w' = (.finished a', v') ∧
    Q a v a' v'

namespace SideBySide

variable {p p' : Program α} {f f' : α → Program β} {Q : β → World → β → World → Prop}

theorem pure {a a' : β} (h : Q a w a' w') :
    SideBySide tool (Pure.pure a) (Pure.pure a') Q w w' :=
  ⟨a, w, a', w', rfl, rfl, h⟩

theorem imp {Q Q' : α → World → α → World → Prop} (h : SideBySide tool p p' Q w w')
    (implies : ∀ a v a' v', Q a v a' v' → Q' a v a' v') : SideBySide tool p p' Q' w w' := by
  obtain ⟨a, v, a', v', run, run', holds⟩ := h
  exact ⟨a, v, a', v', run, run', implies a v a' v' holds⟩

theorem bind
    (h : SideBySide tool p p' (fun a v a' v' => SideBySide tool (f a) (f' a') Q v v') w w') :
    SideBySide tool (p >>= f) (p' >>= f') Q w w' := by
  obtain ⟨a, v, a', v', run, run', b, u, b', u', rest, rest', holds⟩ := h
  exact ⟨b, u, b', u', (run_bind run).trans rest, (run_bind run').trans rest', holds⟩

theorem perform {op op' : Operation α} {a a' : α} {v v' : World}
    (does : w.perform tool.tool op = (a, v)) (does' : w'.perform tool.tool op' = (a', v'))
    (h : SideBySide tool (f a) (f' a') Q v v') :
    SideBySide tool (Program.perform op >>= f) (Program.perform op' >>= f') Q w w' := by
  refine .bind ⟨a, v, a', v', ?_, ?_, h⟩
  · exact congrArg (fun r => (Ending.finished r.1, r.2)) does
  · exact congrArg (fun r => (Ending.finished r.1, r.2)) does'

end SideBySide

end Program

namespace Store

variable {s s' t : Store} {name : String} {n : Nat}

/-- The pool of this name, if it is there and active, has this many free addresses or more. -/
def HasFree (s : Store) (name : String) (n : Nat) : Prop :=
  ∀ pool, s.poolByName? name = some pool → pool.active = true → n ≤ s.freeIn pool.key

theorem HasFree.setVm (h : s.HasFree name n) (key : Int) (f : Vm → Vm) :
    (s.setVm key f).HasFree name n :=
  h

variable {pool : Pool} {id : String} {now now' : Instant}

theorem allocate_of_held {slot : Slot} (known : s.poolByName? name = some pool)
    (active : pool.active = true) (holds : s.activeSlot? id = some slot) :
    s.allocate now name id = (s.withPool slot).map fun found => (found, s) := by
  simp only [allocate, known, active, holds, Bool.not_true, Bool.false_eq_true, if_false]

theorem allocate_of_free (known : s.poolByName? name = some pool) (active : pool.active = true)
    (bare : s.activeSlot? id = none) (free : 1 ≤ s.freeIn pool.key) :
    ∃ slot s', s.allocate now name id = .ok ((pool, slot), s') := by
  obtain ⟨slot, member, unheld⟩ := List.countP_pos_iff.mp free
  have some : ((s.slotsOf pool.key).filter fun slot => !slot.active) ≠ [] :=
    List.ne_nil_of_mem (List.mem_filter.mpr ⟨member, unheld⟩)
  obtain ⟨slot, lowest⟩ := Option.isSome_iff_exists.mp (lowest?_isSome some)
  simp only [allocate, known, active, bare, lowest, Bool.not_true, Bool.false_eq_true, if_false]
  exact ⟨_, _, rfl⟩

/-- In two stores with the same pools, a VM that has a slot of the same pool in both, or of none, is
refused an address for the same cause or granted a slot of the same pool, where one is left. -/
theorem allocate_alike (now now' : Instant) (pools : t.pools = s.pools)
    (slot : (t.activeSlot? id).map (·.poolKey) = (s.activeSlot? id).map (·.poolKey))
    (free : s.HasFree name 1) (free' : t.HasFree name 1) :
    (∃ e, s.allocate now name id = .error e ∧ t.allocate now' name id = .error e) ∨
      ∃ granted s' granted' t', s.allocate now name id = .ok (granted, s') ∧
        t.allocate now' name id = .ok (granted', t') ∧ granted'.2.poolKey = granted.2.poolKey := by
  have names : t.poolByName? name = s.poolByName? name := by rw [poolByName?, poolByName?, pools]
  cases known : s.poolByName? name with
  | none =>
    refine .inl ⟨.unknownPool name, ?_, ?_⟩
    · simp only [allocate, known]
    · simp only [allocate, names, known]
  | some pool =>
  rw [known] at names
  by_cases inactive : pool.active = false
  · refine .inl ⟨.unknownPool name, ?_, ?_⟩
    · simp only [allocate, known, inactive, Bool.not_false, if_true]
    · simp only [allocate, names, inactive, Bool.not_false, if_true]
  have active : pool.active = true := by simpa using inactive
  cases holds : s.activeSlot? id with
  | none =>
    have holds' : t.activeSlot? id = none := by
      rw [holds] at slot
      exact Option.map_eq_none_iff.mp slot
    obtain ⟨x, s', ok⟩ := allocate_of_free known active holds (free pool known active)
    obtain ⟨x', t', ok'⟩ :=
      allocate_of_free names active holds' (free' pool names active)
    refine .inr ⟨_, s', _, t', ok, ok', ?_⟩
    rw [(allocate_granted ok).poolKey_eq holds, (allocate_granted ok').poolKey_eq holds']
  | some x =>
    rw [holds] at slot
    obtain ⟨x', holds', samePool⟩ := Option.map_eq_some_iff.mp slot
    rw [allocate_of_held known active holds, allocate_of_held names active holds', withPool,
      withPool, pool?, pool?, pools, samePool]
    cases s.pools.find? (·.key == x.poolKey) with
    | none => exact .inl ⟨_, rfl, rfl⟩
    | some owner => exact .inr ⟨_, _, _, _, rfl, rfl, samePool⟩

end Store

namespace Lifecycle

open Program (SideBySide perform)

/-- Two worlds in which attempts at a task have come equally far: they agree about the task's VM and
about the time that is left. `owner` is the public id of the VM, if there is one. -/
structure Abreast (task : Task) (attempt attempt' : Attempt) (owner : Option String)
    (w w' : World) : Prop where
  quiet : w.coming = [] ∧ w'.coming = []
  pools : w'.store.pools = w.store.pools
  record : Option.Rel (Vm.Alike (task.kind = .create)) (w.store.vm? task.vmKey)
    (w'.store.vm? task.vmKey)
  named : ∀ vm, w.store.vm? task.vmKey = some vm → owner = some vm.id
  slot : ∀ id ∈ owner, (w'.store.activeSlot? id).map (·.poolKey) =
    (w.store.activeSlot? id).map (·.poolKey)
  final : attempt'.isFinal = attempt.isFinal
  left : attempt'.deadline.toNanos - w'.now.toNanos = attempt.deadline.toNanos - w.now.toNanos

/-- The task's VM as the two handlers have read it. -/
structure Twins (task : Task) (owner : Option String) (vm vm' : Vm) : Prop where
  alike : vm.Alike (task.kind = .create) vm'
  key : vm.key = task.vmKey
  owner : owner = some vm.id

variable {task : Task} {attempt attempt' : Attempt} {owner : Option String} {w w' : World}
  {vm vm' : Vm}

theorem Twins.key' (h : Twins task owner vm vm') : vm'.key = task.vmKey :=
  h.alike.key.trans h.key

theorem Twins.owner' (h : Twins task owner vm vm') : owner = some vm'.id :=
  h.owner.trans (congrArg some h.alike.id.symm)

namespace Abreast

theorem record_cases (h : Abreast task attempt attempt' owner w w') :
    (w.store.vm? task.vmKey = none ∧ w'.store.vm? task.vmKey = none) ∨
      ∃ vm vm', w.store.vm? task.vmKey = some vm ∧ w'.store.vm? task.vmKey = some vm' ∧
        Twins task owner vm vm' := by
  have record := h.record
  cases found : w.store.vm? task.vmKey with
  | none =>
    rw [found] at record
    cases found' : w'.store.vm? task.vmKey with
    | none => exact .inl ⟨rfl, rfl⟩
    | some vm' =>
      rw [found'] at record
      cases record
  | some vm =>
    rw [found] at record
    cases found' : w'.store.vm? task.vmKey with
    | none =>
      rw [found'] at record
      cases record
    | some vm' =>
      rw [found'] at record
      cases record with
      | some alike =>
        exact .inr ⟨vm, vm', rfl, rfl, alike, (Store.vm?_mem found).2, h.named vm found⟩

theorem setVm (h : Abreast task attempt attempt' owner w w') {new new' : Vm}
    (found : w.store.vm? task.vmKey = some vm) (found' : w'.store.vm? task.vmKey = some vm')
    (twins : Twins task owner new new') :
    Abreast task attempt attempt' owner
      { w with store := w.store.setVm task.vmKey fun _ => new }
      { w' with store := w'.store.setVm task.vmKey fun _ => new' } where
  quiet := h.quiet
  pools := h.pools
  record := by
    rw [Store.vm?_setVm_self found twins.key, Store.vm?_setVm_self found' twins.key']
    exact .some twins.alike
  named := by
    rw [Store.vm?_setVm_self found twins.key]
    rintro _ ⟨⟩
    exact twins.owner
  slot := h.slot
  final := h.final
  left := h.left

theorem slots (h : Abreast task attempt attempt' owner w w') {s s' : Store}
    (only : s = { w.store with slots := s.slots })
    (only' : s' = { w'.store with slots := s'.slots })
    (slot : ∀ id ∈ owner, (s'.activeSlot? id).map (·.poolKey) =
      (s.activeSlot? id).map (·.poolKey)) :
    Abreast task attempt attempt' owner { w with store := s } { w' with store := s' } where
  quiet := h.quiet
  pools := by
    rw [only, only']
    exact h.pools
  record := by
    rw [only, only']
    exact h.record
  named := by
    rw [only]
    exact h.named
  slot := slot
  final := h.final
  left := h.left

theorem later (h : Abreast task attempt attempt' owner w w') (d : Duration)
    (calls calls' : List CallRecord) : Abreast task attempt attempt' owner
      { w with now := w.now.after d, calls := calls }
      { w' with now := w'.now.after d, calls := calls' } where
  quiet := h.quiet
  pools := h.pools
  record := h.record
  named := h.named
  slot := h.slot
  final := h.final
  left := by
    have left := h.left
    simp only [Instant.toNanos_after]
    omega

theorem since_eq (h : Abreast task attempt attempt' owner w w') :
    attempt'.deadline.since w'.now = attempt.deadline.since w.now := by
  rw [Instant.since, Instant.since, h.left]

end Abreast

/-! ## One operation on both sides -/

section Operations

variable {tool : Provisioner} {α : Type} {Q : α → World → α → World → Prop}

theorem transition_sideBySide (h : Abreast task attempt attempt' owner w w') {key key' : Int}
    (same : key = task.vmKey) (same' : key' = task.vmKey)
    {expected : List VmStatus} {next : VmStatus} {patch patch' : VmPatch}
    {f f' : Except Error Vm → Program α}
    (alike : ∀ {vm vm' : Vm}, vm.Alike (task.kind = .create) vm' → ∀ now now',
      (vm.moved next patch now).Alike (task.kind = .create) (vm'.moved next patch' now'))
    (refused : ∀ e, SideBySide tool (f (.error e)) (f' (.error e)) Q w w')
    (moved : ∀ vm vm' v v', Twins task owner vm vm' → Abreast task attempt attempt' owner v v' →
      v.store = w.store.setVm task.vmKey (fun _ => vm) →
      v'.store = w'.store.setVm task.vmKey (fun _ => vm') →
      SideBySide tool (f (.ok vm)) (f' (.ok vm')) Q v v') :
    SideBySide tool (perform (.transition key expected next patch) >>= f)
      (perform (.transition key' expected next patch') >>= f') Q w w' := by
  rw [same, same']
  rcases h.record_cases with ⟨none, none'⟩ | ⟨vm, vm', found, found', twins⟩
  · refine .perform ?_ ?_ (refused (.vmNotFound (keyText task.vmKey)))
    · simp only [World.perform, Store.transition_of_none none, World.commit]
    · simp only [World.perform, Store.transition_of_none none', World.commit]
  by_cases source : vm.status ∈ expected
  · have source' : vm'.status ∈ expected := twins.alike.status ▸ source
    have new : Twins task owner (vm.moved next patch w.now.cutToMicros)
        (vm'.moved next patch' w'.now.cutToMicros) :=
      ⟨alike twins.alike _ _, twins.key, twins.owner⟩
    refine .perform ?_ ?_ (moved _ _ _ _ new (h.setVm found found' new) rfl rfl)
    · simp only [World.perform, Store.transition_of_mem next patch found source, World.commit]
    · simp only [World.perform, Store.transition_of_mem next patch' found' source', World.commit]
  · refine .perform ?_ ?_ (refused (.invalidTransition vm.id vm.status next))
    · simp only [World.perform, Store.transition_of_not_mem found source, World.commit]
    · have source' : vm'.status ∉ expected := twins.alike.status ▸ source
      simp only [World.perform, Store.transition_of_not_mem found' source', twins.alike.status,
        twins.alike.id, World.commit]

theorem findVm_sideBySide (h : Abreast task attempt attempt' owner w w') {key key' : Int}
    (same : key = task.vmKey) (same' : key' = task.vmKey) {f f' : Option Vm → Program α}
    (next : ∀ found found', Option.Rel (Twins task owner) found found' →
      SideBySide tool (f found) (f' found') Q w w') :
    SideBySide tool (perform (.findVm key) >>= f) (perform (.findVm key') >>= f') Q w w' := by
  rw [same, same']
  refine .perform rfl rfl (next _ _ ?_)
  rcases h.record_cases with ⟨none, none'⟩ | ⟨vm, vm', there, there', twins⟩
  · rw [none, none']
    exact .none
  · rw [there, there']
    exact .some twins

theorem now_sideBySide (h : Abreast task attempt attempt' owner w w')
    {f f' : Instant → Program α}
    (next : ∀ v v', Abreast task attempt attempt' owner v v' →
      SideBySide tool (f v.now) (f' v'.now) Q v v') :
    SideBySide tool (perform .now >>= f) (perform .now >>= f') Q w w' := by
  refine .perform rfl rfl (next _ _ ?_)
  rw [World.advance_of_quiet h.quiet.1, World.advance_of_quiet h.quiet.2]
  exact h.later World.tick w.calls w'.calls

theorem call_sideBySide (h : Abreast task attempt attempt' owner w w')
    {ends : Action → String → CallEnd} {action : Action} {request request' : ProvisionRequest}
    {budget budget' : Duration} {f f' : Option (Except Error Report) → Program α}
    (vm : request'.vmId = request.vmId)
    (next : ∀ r v v', Abreast task attempt attempt' owner v v' →
      SideBySide (.immediate ends) (f (some r)) (f' (some r)) Q v v') :
    SideBySide (.immediate ends) (perform (.call ⟨action, request, budget⟩ none) >>= f)
      (perform (.call ⟨action, request', budget'⟩ none) >>= f') Q w w' := by
  refine .perform (World.call_immediate h.quiet.1 ends _) (World.call_immediate h.quiet.2 ends _) ?_
  simp only [vm]
  exact next _ _ _ (h.later .zero _ _)

theorem allocate_sideBySide (h : Abreast task attempt attempt' owner w w') {id id' name : String}
    (named : owner = some id) (named' : owner = some id')
    (free : w.store.HasFree name 1) (free' : w'.store.HasFree name 1)
    {f f' : Except Error Allocation → Program α}
    (refused : ∀ e, SideBySide tool (f (.error e)) (f' (.error e)) Q w w')
    (granted : ∀ a a' v v', Abreast task attempt attempt' owner v v' →
      SideBySide tool (f (.ok a)) (f' (.ok a')) Q v v') :
    SideBySide tool (perform (.allocate name id) >>= f) (perform (.allocate name id') >>= f')
      Q w w' := by
  cases named.symm.trans named'
  rcases Store.allocate_alike w.now w'.now h.pools (h.slot id named) free free' with
    ⟨e, error, error'⟩ | ⟨r, s, r', s', ok, ok', samePool⟩
  · refine .perform ?_ ?_ (refused e)
    · simp only [World.perform, Allocator.allocate, error, Except.map, World.commit]
    · simp only [World.perform, Allocator.allocate, error', Except.map, World.commit]
  · have grant := Store.allocate_granted ok
    have grant' := Store.allocate_granted ok'
    refine .perform ?_ ?_ (granted (.of r.1 r.2) (.of r'.1 r'.2) _ _
      (h.slots grant.slots_only grant'.slots_only fun x hx => ?_))
    · simp only [World.perform, Allocator.allocate, ok, Except.map, World.commit]
    · simp only [World.perform, Allocator.allocate, ok', Except.map, World.commit]
    · cases named.symm.trans hx
      rw [grant.holds_self, grant'.holds_self, Option.map_some, Option.map_some, samePool]

theorem release_sideBySide (h : Abreast task attempt attempt' owner w w') {id id' : String}
    (named : owner = some id) (named' : owner = some id') {f f' : Bool → Program α}
    (next : ∀ b b' v v', Abreast task attempt attempt' owner v v' →
      SideBySide tool (f b) (f' b') Q v v') :
    SideBySide tool (perform (.release id) >>= f) (perform (.release id') >>= f') Q w w' := by
  cases named.symm.trans named'
  have bare : ∀ (s : Store) now, (s.release now id).2.activeSlot? id = none :=
    fun s now => Store.activeSlot?_release.trans (if_pos rfl)
  have slot : ∀ x ∈ owner, ((w'.store.release w'.now id).2.activeSlot? x).map (·.poolKey) =
      ((w.store.release w.now id).2.activeSlot? x).map (·.poolKey) := by
    intro x hx
    cases named.symm.trans hx
    rw [bare, bare]
  exact .perform rfl rfl (next _ _ _ _ (h.slots rfl rfl slot))

theorem removeVm_sideBySide (h : Abreast task attempt attempt' owner w w') {key key' : Int}
    (same : key = task.vmKey) (same' : key' = task.vmKey) {f f' : Bool → Program α}
    (next : ∀ b b' v v', Abreast task attempt attempt' owner v v' →
      SideBySide tool (f b) (f' b') Q v v') :
    SideBySide tool (perform (.removeVm key) >>= f) (perform (.removeVm key') >>= f') Q w w' := by
  rw [same, same']
  have gone : ∀ s : Store, (s.removeVm task.vmKey).2.vm? task.vmKey = none :=
    fun s => Store.vm?_removeVm.trans (if_pos rfl)
  have record : Option.Rel (Vm.Alike (task.kind = .create))
      ((w.store.removeVm task.vmKey).2.vm? task.vmKey)
      ((w'.store.removeVm task.vmKey).2.vm? task.vmKey) := by
    rw [gone, gone]
    exact .none
  refine .perform rfl rfl (next _ _ _ _ ⟨h.quiet, h.pools, record, ?_, h.slot, h.final, h.left⟩)
  intro vm found
  cases (gone w.store).symm.trans found

end Operations

/-! ## The handlers -/

section Handlers

variable {ends : Action → String → CallEnd} {settings : Settings}

/-- Two runs have come to the same result and are still abreast. -/
def Agree {α : Type} (task : Task) (attempt attempt' : Attempt) (owner : Option String) (a : α)
    (v : World) (a' : α) (v' : World) : Prop :=
  a' = a ∧ Abreast task attempt attempt' owner v v'

theorem provision_sideBySide {α : Type} {Q : α → World → α → World → Prop}
    (h : Abreast task attempt attempt' owner w w') (action : Action)
    {request request' : ProvisionRequest} (vm : request'.vmId = request.vmId)
    {f f' : Except Error Report → Program α}
    (next : ∀ r v v', Abreast task attempt attempt' owner v v' →
      SideBySide (.immediate ends) (f r) (f' r) Q v v') :
    SideBySide (.immediate ends) (provision settings attempt action request >>= f)
      (provision settings attempt' action request' >>= f') Q w w' := by
  refine .bind (now_sideBySide h fun v v' h => ?_)
  simp only [h.since_eq]
  split
  · exact .pure (next _ _ _ h)
  · exact call_sideBySide h vm fun r u u' h => .pure (next _ _ _ h)

theorem enter_sideBySide {α : Type} {Q : α → World → α → World → Prop} {tool : Provisioner}
    (h : Abreast task attempt attempt' owner w w') {f f' : Except Outcome Vm → Program α}
    (refused : ∀ outcome, SideBySide tool (f (.error outcome)) (f' (.error outcome)) Q w w')
    (entered : ∀ vm vm' v v', Twins task owner vm vm' → Abreast task attempt attempt' owner v v' →
      v.store = w.store.setVm task.vmKey (fun _ => vm) →
      v'.store = w'.store.setVm task.vmKey (fun _ => vm') →
      SideBySide tool (f (.ok vm)) (f' (.ok vm')) Q v v') :
    SideBySide tool (enter task >>= f) (enter task >>= f') Q w w' :=
  .bind (transition_sideBySide h rfl rfl (·.moved_same _ _)
    (fun e => .pure (refused (refusal e))) fun vm vm' v v' twins h store store' =>
      .pure (entered vm vm' v v' twins h store store'))

theorem settleFailure_sideBySide {tool : Provisioner}
    (h : Abreast task attempt attempt' owner w w') (twins : Twins task owner vm vm')
    (revert : VmStatus) (e : Error) :
    SideBySide tool (settleFailure attempt vm revert e) (settleFailure attempt' vm' revert e)
      (Agree task attempt attempt' owner) w w' := by
  have giveUp : ∀ current drop w w', Abreast task attempt attempt' owner w w' →
      SideBySide tool
        (do let _ ← markError vm.key current e.message drop
            return .failed e.message : Program Outcome)
        (do let _ ← markError vm'.key current e.message drop
            return .failed e.message : Program Outcome)
        (Agree task attempt attempt' owner) w w' := fun current drop w w' h =>
    .bind (transition_sideBySide h twins.key twins.key'
      (·.moved_same _ _) (fun _ => .pure (.pure ⟨rfl, h⟩))
      fun _ _ _ _ _ h _ _ => .pure (.pure ⟨rfl, h⟩))
  refine findVm_sideBySide h twins.key twins.key' fun found found' read => ?_
  have current : (found'.map (·.status)).getD vm.status =
      (found.map (·.status)).getD vm.status := by
    cases read with
    | none => rfl
    | some read => exact read.alike.status
  simp only [current, twins.alike.status, h.final]
  split
  · refine transition_sideBySide h twins.key twins.key'
      (·.moved_same _ _) (fun _ => giveUp _ _ _ _ h)
      fun _ _ _ _ _ h _ _ => .pure ⟨rfl, h⟩
  · exact giveUp _ _ _ _ h

theorem create_sideBySide (h : Abreast task attempt attempt' owner w w')
    (kind : task.kind = .create)
    (free : w.store.HasFree (task.params.pool.getD settings.defaultPool) 1)
    (free' : w'.store.HasFree (task.params.pool.getD settings.defaultPool) 1) :
    SideBySide (.immediate ends) (create settings attempt task) (create settings attempt' task)
      (Agree task attempt attempt' owner) w w' := by
  refine enter_sideBySide h (fun _ => .pure ⟨rfl, h⟩) fun vm vm' v v' twins h store store' => ?_
  have settle : ∀ e v v', Abreast task attempt attempt' owner v v' →
      SideBySide (.immediate ends) (settleFailure attempt vm .pending e)
        (settleFailure attempt' vm' .pending e) (Agree task attempt attempt' owner) v v' :=
    fun e _ _ h => settleFailure_sideBySide h twins .pending e
  have undo : ∀ e v v', Abreast task attempt attempt' owner v v' →
      SideBySide (.immediate ends)
        (do let _ ← perform (.release vm.id)
            settleFailure attempt vm .pending e : Program Outcome)
        (do let _ ← perform (.release vm'.id)
            settleFailure attempt' vm' .pending e : Program Outcome)
        (Agree task attempt attempt' owner) v v' := fun e _ _ h =>
    release_sideBySide h twins.owner twins.owner' fun _ _ _ _ h => settle e _ _ h
  refine allocate_sideBySide h twins.owner twins.owner' (store ▸ free.setVm _ _)
    (store' ▸ free'.setVm _ _) (fun e => settle e _ _ h) fun a a' v v' h => ?_
  refine provision_sideBySide h .create twins.alike.id fun r v v' h => ?_
  cases r with
  | error e => exact undo e _ _ h
  | ok report =>
    -- Only here do the two write different things: each the address that it was granted.
    refine transition_sideBySide h twins.key twins.key' (fun alike now now' => ?_)
      (fun e => undo e _ _ h) fun _ _ _ _ _ h _ _ => .pure ⟨rfl, h⟩
    rw [twins.alike.kernelPath]
    exact alike.moved _ _ _ rfl rfl (absurd kind)

theorem delete_sideBySide (h : Abreast task attempt attempt' owner w w') :
    SideBySide (.immediate ends) (delete settings attempt task) (delete settings attempt' task)
      (Agree task attempt attempt' owner) w w' := by
  refine enter_sideBySide h (fun _ => .pure ⟨rfl, h⟩) fun vm vm' v v' twins h _ _ => ?_
  refine provision_sideBySide h .delete twins.alike.id fun r v v' h => ?_
  refine release_sideBySide h twins.owner twins.owner' fun _ _ v v' h => ?_
  exact removeVm_sideBySide h twins.key twins.key' fun _ _ v v' h => .pure ⟨rfl, h⟩

theorem provisionAll_sideBySide (h : Abreast task attempt attempt' owner w w')
    {request request' : ProvisionRequest} (vm : request'.vmId = request.vmId)
    (actions : List Action) :
    SideBySide (.immediate ends) (provisionAll settings attempt request actions)
      (provisionAll settings attempt' request' actions) (Agree task attempt attempt' owner)
      w w' := by
  induction actions generalizing w w' with
  | nil => exact .pure ⟨rfl, h⟩
  | cons action rest ih =>
    refine provision_sideBySide h action vm fun r v v' h => ?_
    cases r with
    | error e => exact .pure ⟨rfl, h⟩
    | ok report => exact ih h

theorem power_sideBySide (h : Abreast task attempt attempt' owner w w') :
    SideBySide (.immediate ends) (power settings attempt task) (power settings attempt' task)
      (Agree task attempt attempt' owner) w w' := by
  refine enter_sideBySide h (fun _ => .pure ⟨rfl, h⟩) fun vm vm' v v' twins h _ _ => ?_
  have settle : ∀ e v v', Abreast task attempt attempt' owner v v' →
      SideBySide (.immediate ends) (settleFailure attempt vm task.kind.revert e)
        (settleFailure attempt' vm' task.kind.revert e) (Agree task attempt attempt' owner) v v' :=
    fun e _ _ h => settleFailure_sideBySide h twins task.kind.revert e
  refine .bind ((provisionAll_sideBySide h twins.alike.id task.kind.actions).imp ?_)
  rintro _ v r v' ⟨rfl, h⟩
  cases r with
  | error e => exact settle e _ _ h
  | ok _ =>
    exact transition_sideBySide h twins.key twins.key'
      (·.moved_same _ _) (fun e => settle e _ _ h)
      fun _ _ _ _ _ h _ _ => .pure ⟨rfl, h⟩

/-- **Every handler, side by side.** Two attempts at one task, on stores that agree about its VM and
with as much time left, end with the same outcome and leave stores that agree about the VM. -/
theorem handle_sideBySide (ends : Action → String → CallEnd)
    (h : Abreast task attempt attempt' owner w w')
    (free : task.kind = .create →
      w.store.HasFree (task.params.pool.getD settings.defaultPool) 1 ∧
        w'.store.HasFree (task.params.pool.getD settings.defaultPool) 1) :
    SideBySide (.immediate ends) (handle settings attempt task) (handle settings attempt' task)
      (Agree task attempt attempt' owner) w w' := by
  unfold handle
  split
  · next kind => exact create_sideBySide h kind (free kind).1 (free kind).2
  · exact delete_sideBySide h
  all_goals exact power_sideBySide h

end Handlers

end Lifecycle

end VmFleet
