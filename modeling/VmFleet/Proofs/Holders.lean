/-
Who holds an address, under any calls to the allocator. A VM holds what it holds
until a call is made for the VM itself, whoever had the address before; two VMs
may hold one address, but only out of two pools whose networks overlap.
-/
import Mathlib.Data.Fintype.EquivFin
import VmFleet.Proofs.AllocatorCalls

namespace VmFleet

/-! ## Calls for other VMs -/

namespace AllocatorCall

/-- The VM that the call gives an address or takes one from. -/
def vm? : AllocatorCall → Option String
  | .createPool .. | .setActive .. => none
  | .allocate _ vmId | .release vmId => some vmId

/-- The call asks for an address for the VM. -/
def asksFor (vmId : String) : AllocatorCall → Prop
  | .allocate _ id => id = vmId
  | _ => False

variable {s s' : Store} {now : Instant} {call : AllocatorCall} {v : String} {pool : Pool}
  {key : Int} {a : Allocation}

theorem Does.activeSlot?_of_ne (h : Does s now call s') (sound : s.SlotsSound)
    (other : call.vm? ≠ some v) : s'.activeSlot? v = s.activeSlot? v := by
  cases h with
  | refused => rfl
  | created read stored =>
    obtain ⟨-, -, rfl⟩ := Store.insertPool_ok stored
    exact Store.find?_append_freeSlots ..
  | switched => rfl
  | granted grant => exact grant.holds_other sound fun same => other (congrArg some same.symm)
  | released => rw [Store.activeSlot?_release, if_neg fun same => other (congrArg some same.symm)]

theorem Does.activeSlot?_none (h : Does s now call s') (sound : s.SlotsSound)
    (quiet : ¬call.asksFor v) (unheld : s.activeSlot? v = none) : s'.activeSlot? v = none := by
  by_cases own : call.vm? = some v
  · cases h with
    | refused => exact unheld
    | granted => exact absurd (Option.some.inj own) quiet
    | released => rw [Store.activeSlot?_release, if_pos (Option.some.inj own).symm]
    | _ => cases own
  · rw [h.activeSlot?_of_ne sound own, unheld]

theorem Does.pool?_kept (h : Does s now call s') (found : s.pool? key = some pool) :
    ∃ active, s'.pool? key = some { pool with active := active } := by
  cases h with
  | refused | released => exact ⟨_, found⟩
  | created read stored =>
    obtain ⟨-, -, rfl⟩ := Store.insertPool_ok stored
    refine ⟨pool.active, ?_⟩
    simp only [Store.pool?] at found ⊢
    rw [List.find?_append, found, Option.some_or]
  | @switched name active =>
    have test : ((fun p : Pool => p.key == key) ∘ fun p =>
        if p.name == name then { p with active := active } else p) = fun p => p.key == key := by
      funext p
      simp only [Function.comp_apply]
      split <;> rfl
    simp only [Store.pool?, Store.setPoolActive, Store.updateWhere] at found ⊢
    rw [List.find?_map, test, found, Option.map_some]
    split
    · exact ⟨active, rfl⟩
    · exact ⟨pool.active, rfl⟩
  | granted grant => cases grant <;> exact ⟨_, found⟩

end AllocatorCall

namespace Allocator

variable {s s' : Store} {now : Instant} {call : AllocatorCall} {v name : String} {pool : Pool}
  {slot : Slot} {a : Allocation}

theorem allocation?_eq_some :
    allocation? s v = .ok (some a) ↔ ∃ slot pool, s.activeSlot? v = some slot ∧
      s.pool? slot.poolKey = some pool ∧ a = .of pool slot := by
  simp only [allocation?, Store.activeAllocation?, Store.withPool]
  constructor
  · intro h
    split at h
    · simp [Except.map] at h
    next slot found =>
    split at h
    · next pool owner =>
      simp only [Except.map, Option.map_some, Except.ok.injEq, Option.some.injEq] at h
      exact ⟨slot, pool, found, owner, h.symm⟩
    · cases h
  · rintro ⟨slot, pool, found, owner, rfl⟩
    simp only [found, owner, Except.map, Option.map_some]

theorem allocate_held (known : s.poolByName? name = some pool) (active : pool.active = true)
    (holds : allocation? s v = .ok (some a)) : allocate s now name v = .ok (a, s) := by
  obtain ⟨slot, owner, found, hpool, rfl⟩ := allocation?_eq_some.mp holds
  simp only [allocate, Store.allocate, Store.withPool, known, active, found, hpool, Bool.not_true,
    Bool.false_eq_true, if_false, Except.map]

theorem release_held (sound : s.SlotsSound) (found : s.activeSlot? v = some slot) :
    release s now v =
      (true, { s with slots := Store.updateWhere (· == slot) (Store.freed · now) s.slots }) := by
  have rows : Store.updateWhere (fun x => x.holder == some v && x.active) (Store.freed · now)
      s.slots = Store.updateWhere (· == slot) (Store.freed · now) s.slots :=
    Store.updateWhere_congr (sound.held_beq found)
  simp only [release, Store.release, sound.filter_held found, rows, List.map_singleton,
    List.isEmpty_cons, Bool.not_false]

theorem release_unheld (unheld : s.activeSlot? v = none) : release s now v = (false, s) := by
  have passed : ∀ x ∈ s.slots, (x.holder == some v && x.active) = false := by
    simpa [Store.activeSlot?] using unheld
  have none : s.slots.filter (fun x => x.holder == some v && x.active) = [] := by
    rw [List.filter_eq_nil_iff]
    exact fun x hx => by rw [passed x hx]; exact Bool.false_ne_true
  simp only [release, Store.release, none, Store.updateWhere_eq_self passed, List.map_nil,
    List.isEmpty_nil, Bool.not_true]

theorem allocation?_of_does (h : AllocatorCall.Does s now call s') (sound : s.SlotsSound)
    (other : call.vm? ≠ some v) (holds : allocation? s v = .ok (some a)) :
    allocation? s' v = .ok (some a) := by
  obtain ⟨slot, pool, found, owner, rfl⟩ := allocation?_eq_some.mp holds
  obtain ⟨active, kept⟩ := h.pool?_kept owner
  exact allocation?_eq_some.mpr
    ⟨slot, _, (h.activeSlot?_of_ne sound other).trans found, kept, rfl⟩

end Allocator

namespace AllocatorCall

variable {s : Store} {v : String} {a : Allocation}

theorem applyAll_allocation? (calls : List (AllocatorCall × Instant)) (sound : s.SlotsSound)
    (others : ∀ c ∈ calls, c.1.vm? ≠ some v) (holds : Allocator.allocation? s v = .ok (some a)) :
    Allocator.allocation? (applyAll calls s) v = .ok (some a) := by
  induction calls generalizing s with
  | nil => exact holds
  | cons call rest ih =>
    have does := does_apply call.1 call.2 s
    exact ih (does.slotsSound sound) (fun c hc => others c (List.mem_cons_of_mem _ hc))
      (Allocator.allocation?_of_does does sound (others call List.mem_cons_self) holds)

theorem applyAll_activeSlot?_none (calls : List (AllocatorCall × Instant)) (sound : s.SlotsSound)
    (quiet : ∀ c ∈ calls, ¬c.1.asksFor v) (unheld : s.activeSlot? v = none) :
    (applyAll calls s).activeSlot? v = none := by
  induction calls generalizing s with
  | nil => exact unheld
  | cons call rest ih =>
    have does := does_apply call.1 call.2 s
    exact ih (does.slotsSound sound) (fun c hc => quiet c (List.mem_cons_of_mem _ hc))
      (does.activeSlot?_none sound (quiet call List.mem_cons_self) unheld)

end AllocatorCall

/-- **A holder is left undisturbed.** While calls are made for other VMs only, a VM that holds an
address keeps it, with its pool, gateway and network; it is given the same again by whichever active
pool it asks, with nothing changed; its release frees the slot that it holds and no other row; and
then, until it asks for an address, its releases find nothing and change nothing, whoever has the
address by then. -/
theorem holder_undisturbed (calls more : List (AllocatorCall × Instant)) (v : String)
    (a : Allocation)
    (holds : Allocator.allocation? (AllocatorCall.applyAll calls .empty) v = .ok (some a))
    (others : ∀ c ∈ more, c.1.vm? ≠ some v) :
    let s := AllocatorCall.applyAll (calls ++ more) .empty
    Allocator.allocation? s v = .ok (some a) ∧
    (∀ name pool now, s.poolByName? name = some pool → pool.active = true →
      Allocator.allocate s now name v = .ok (a, s)) ∧
    ∃ slot ∈ s.slots, ∃ pool ∈ s.pools, slot.active = true ∧ slot.holder = some v ∧
      slot.poolKey = pool.key ∧ a = .of pool slot ∧
      ∀ now,
        let t : Store :=
          { s with slots := Store.updateWhere (· == slot) (Store.freed · now) s.slots }
        Allocator.release s now v = (true, t) ∧
        ∀ rest : List (AllocatorCall × Instant), (∀ c ∈ rest, ¬c.1.asksFor v) → ∀ later,
          Allocator.release (AllocatorCall.applyAll rest t) later v =
            (false, AllocatorCall.applyAll rest t) := by
  intro s
  obtain ⟨start, -⟩ := AllocatorCall.applyAll_sound calls Store.empty_slotsSound
    Store.empty_poolsSound
  obtain ⟨sound, -⟩ := AllocatorCall.applyAll_sound (calls ++ more) Store.empty_slotsSound
    Store.empty_poolsSound
  have kept : Allocator.allocation? s v = .ok (some a) := by
    simp only [s, AllocatorCall.applyAll, List.foldl_append]
    exact AllocatorCall.applyAll_allocation? more start others holds
  obtain ⟨slot, pool, found, owner, granted⟩ := Allocator.allocation?_eq_some.mp kept
  obtain ⟨member, active, holder⟩ := Store.activeSlot?_mem found
  have key : pool.key = slot.poolKey := by simpa using List.find?_some owner
  refine ⟨kept, fun name pool now known switchedOn =>
      Allocator.allocate_held known switchedOn kept,
    slot, member, pool, List.mem_of_find?_eq_some owner, active, holder, key.symm, granted, ?_⟩
  intro now t
  have released : Allocator.release s now v = (true, t) := Allocator.release_held sound found
  have after : t = (s.release now v).2 := (congrArg Prod.snd released).symm
  refine ⟨released, fun rest quiet later => Allocator.release_unheld ?_⟩
  refine AllocatorCall.applyAll_activeSlot?_none rest ?_ quiet ?_
  · exact after ▸ sound.release
  · rw [after, Store.activeSlot?_release, if_pos rfl]

/-- A VM is given the only address of a pool, which another VM had before it. -/
def reusedAddress : List (AllocatorCall × Instant) :=
  [(.createPool "a" "10.0.0.0/30" "10.0.0.1" none, ⟨1, 0⟩),
    (.createPool "b" "10.0.1.0/30" "10.0.1.1" none, ⟨2, 0⟩),
    (.allocate "a" "early", ⟨3, 0⟩),
    (.release "early", ⟨4, 0⟩),
    (.allocate "a" "late", ⟨5, 0⟩)]

/-- The former holder releases once more and goes to the other pool, and the pool of the address is
switched off: the later holder keeps the address. When it has given the address back and the former
holder has it again, the later one can not release it. -/
theorem reusedAddress_undisturbed :
    let others : List (AllocatorCall × Instant) := [(.release "early", ⟨6, 0⟩),
      (.allocate "b" "early", ⟨7, 0⟩), (.setActive "a" false, ⟨8, 0⟩)]
    let again : List (AllocatorCall × Instant) := [(.release "early", ⟨10, 0⟩),
      (.setActive "a" true, ⟨11, 0⟩), (.allocate "a" "early", ⟨12, 0⟩)]
    let s := AllocatorCall.applyAll (reusedAddress ++ others) .empty
    let a : Allocation := ⟨"10.0.0.2", "10.0.0.1", "10.0.0.0/30", "a"⟩
    (∀ c ∈ others, c.1.vm? ≠ some "late") ∧ Allocator.allocation? s "late" = .ok (some a) ∧
    ∃ t, Allocator.release s ⟨9, 0⟩ "late" = (true, t) ∧
      (AllocatorCall.applyAll again t).addressOf "early" = some "10.0.0.2" ∧
      Allocator.release (AllocatorCall.applyAll again t) ⟨13, 0⟩ "late" =
        (false, AllocatorCall.applyAll again t) := by
  intro others again s a
  have holds : Allocator.allocation? (AllocatorCall.applyAll reusedAddress .empty) "late" =
      .ok (some a) := by
    decide +kernel
  have elsewhere : ∀ c ∈ others, c.1.vm? ≠ some "late" := by decide
  have quiet : ∀ c ∈ again, ¬c.1.asksFor "late" := by
    simp [again, AllocatorCall.asksFor]
  obtain ⟨kept, -, slot, -, pool, -, -, -, -, -, leaves⟩ :=
    holder_undisturbed reusedAddress others "late" a holds elsewhere
  obtain ⟨released, stale⟩ := leaves ⟨9, 0⟩
  refine ⟨elsewhere, kept, _, released, ?_, stale again quiet ⟨13, 0⟩⟩
  have regained : (AllocatorCall.applyAll again (Allocator.release s ⟨9, 0⟩ "late").2).addressOf
      "early" = some "10.0.0.2" := by
    decide +kernel
  rwa [released] at regained

/-! ## Pools that overlap -/

/-- The pool's network has the address among those that may be handed out. -/
def Pool.Assigns (pool : Pool) (host : Ipv4) : Prop :=
  ∃ network, PoolNetwork.read? pool.cidr pool.gateway = .ok network ∧ host ∈ network.hosts

namespace Store

/-- Where the slots are: the pool and the address of each. -/
def places (s : Store) : List (Int × Ipv4) :=
  s.slots.map fun slot => (slot.poolKey, slot.address)

/-- Two VMs hold the address at the same time. -/
def Shares (s : Store) (host : Ipv4) : Prop :=
  ∃ x ∈ s.slots, ∃ y ∈ s.slots, x.active = true ∧ y.active = true ∧ x.holder ≠ y.holder ∧
    x.address = host ∧ y.address = host

variable {s s' : Store} {now : Instant} {name id : String} {pool : Pool} {x y : Slot} {host : Ipv4}
  {key : Int}

theorem mem_places :
    (key, host) ∈ s.places ↔ ∃ slot ∈ s.slots, slot.poolKey = key ∧ slot.address = host := by
  simp [places]

theorem PoolsSound.mem_places_iff (h : s.PoolsSound) (hp : pool ∈ s.pools) :
    (pool.key, host) ∈ s.places ↔ pool.Assigns host := by
  obtain ⟨network, read, hosts⟩ := h.hosts pool hp
  have slots : (∃ slot ∈ s.slots, slot.poolKey = pool.key ∧ slot.address = host) ↔
      host ∈ network.hosts := by
    simp [← hosts, slotsOf, and_assoc]
  rw [mem_places, slots]
  constructor
  · exact fun member => ⟨network, read, member⟩
  · rintro ⟨other, again, member⟩
    rw [read, Except.ok.injEq] at again
    exact again ▸ member

/-- No pool has an address twice. -/
theorem PoolsSound.eq_of_place (h : s.PoolsSound) (hx : x ∈ s.slots) (hy : y ∈ s.slots)
    (owner : x.poolKey = y.poolKey) (address : x.address = y.address) : x = y := by
  obtain ⟨pool, hp, key⟩ := h.owned x hx
  obtain ⟨network, -, hosts⟩ := h.hosts pool hp
  have mine : ∀ z ∈ s.slots, z.poolKey = x.poolKey → z ∈ s.slotsOf pool.key := fun z hz same =>
    List.mem_filter.mpr ⟨hz, by simp [same, key]⟩
  exact List.inj_on_of_nodup_map (hosts ▸ network.hosts_nodup) (mine x hx rfl)
    (mine y hy owner.symm) address

theorem allocate_free (now : Instant) (known : s.poolByName? name = some pool)
    (active : pool.active = true) (unheld : s.activeSlot? id = none) (hx : x ∈ s.slots)
    (owner : x.poolKey = pool.key) (free : x.active = false) :
    ∃ slot ∈ s.slots, slot.poolKey = pool.key ∧ slot.active = false ∧
      AllocatorCall.apply (.allocate name id) now s =
        { s with slots := updateWhere (·.key == slot.key) (fun _ => taken slot id now) s.slots } := by
  have some : (s.slotsOf pool.key).filter (fun slot => !slot.active) ≠ [] :=
    List.ne_nil_of_mem (List.mem_filter.mpr
      ⟨List.mem_filter.mpr ⟨hx, by simp [owner]⟩, by simp [free]⟩)
  obtain ⟨slot, lowest⟩ := Option.isSome_iff_exists.mp (lowest?_isSome some)
  have member := lowest?_mem lowest
  simp only [slotsOf, List.mem_filter, beq_iff_eq, Bool.not_eq_true'] at member
  refine ⟨slot, member.1.1, member.1.2, member.2, ?_⟩
  simp only [AllocatorCall.apply, Allocator.allocate, allocate, known, active, unheld, lowest,
    Bool.not_true, Bool.false_eq_true, if_false, Except.map, AllocatorCall.committed]

theorem poolByName?_setPoolActive {active : Bool} :
    (s.setPoolActive name active).2.poolByName? name =
      (s.poolByName? name).map fun pool => { pool with active := active } :=
  find?_updateWhere_self fun _ _ hit => hit

theorem exists_unheld (s : Store) : ∃ id, s.activeSlot? id = none := by
  obtain ⟨id, new⟩ := Infinite.exists_notMem_finset (s.slots.filterMap (·.holder)).toFinset
  refine ⟨id, activeSlot?_eq_none.mpr fun slot hslot _ holder => new ?_⟩
  rw [List.mem_toFinset, List.mem_filterMap]
  exact ⟨slot, hslot, holder⟩

end Store

namespace AllocatorCall

/-- The call makes a pool. -/
def addsPool : AllocatorCall → Bool
  | .createPool .. => true
  | _ => false

variable {s s' : Store} {now : Instant} {call : AllocatorCall} {name : String} {pool : Pool}
  {host : Ipv4} {key : Int}

theorem Does.places (h : Does s now call s') (sound : s.SlotsSound)
    (old : call.addsPool = false) : s'.places = s.places := by
  cases h with
  | refused | switched => rfl
  | created => cases old
  | granted grant =>
    cases grant with
    | again => rfl
    | @fresh _ free _ _ _ member _ _ =>
      refine Store.map_updateWhere _ fun x hx hk => ?_
      have same : x = free := List.inj_on_of_nodup_map sound.keys hx member (by simpa using hk)
      rw [same]
      rfl
  | released => exact Store.map_updateWhere _ fun _ _ _ => rfl

theorem applyAll_places (calls : List (AllocatorCall × Instant)) (sound : s.SlotsSound)
    (old : ∀ c ∈ calls, c.1.addsPool = false) : (applyAll calls s).places = s.places := by
  induction calls generalizing s with
  | nil => rfl
  | cons call rest ih =>
    have does := does_apply call.1 call.2 s
    exact (ih (does.slotsSound sound) fun c hc => old c (List.mem_cons_of_mem _ hc)).trans
      (does.places sound (old call List.mem_cons_self))

/-- Enough new VMs fill an active pool, up to any of its addresses, and take nothing from others. -/
theorem fill (now : Instant) (sound : s.SlotsSound) (known : s.poolByName? name = some pool)
    (active : pool.active = true) (place : (pool.key, host) ∈ s.places) :
    ∃ more : List (AllocatorCall × Instant), (∀ c ∈ more, c.1.addsPool = false) ∧
      (∃ x ∈ (applyAll more s).slots, x.active = true ∧ x.poolKey = pool.key ∧
        x.address = host) ∧
      ∀ y ∈ s.slots, y.active = true → y ∈ (applyAll more s).slots := by
  generalize size : s.slots.countP (fun x => x.poolKey == pool.key && !x.active) = n
  induction n using Nat.strongRecOn generalizing s with
  | ind n ih =>
    obtain ⟨x, hx, owner, address⟩ := Store.mem_places.mp place
    cases free : x.active with
    | true => exact ⟨[], by simp, ⟨x, hx, free, owner, address⟩, fun y hy _ => hy⟩
    | false =>
      obtain ⟨id, unheld⟩ := s.exists_unheld
      obtain ⟨slot, hslot, mine, unused, applied⟩ :=
        Store.allocate_free now known active unheld hx owner free
      have does := does_apply (.allocate name id) now s
      have next : (apply (.allocate name id) now s).SlotsSound := does.slotsSound sound
      have kept : (pool.key, host) ∈ (apply (.allocate name id) now s).places := by
        rwa [does.places sound rfl]
      have fewer : (apply (.allocate name id) now s).slots.countP
          (fun x => x.poolKey == pool.key && !x.active) < n := by
        rw [← size, applied]
        refine Store.countP_updateWhere_lt (fun y _ _ => by simp [Store.taken]) hslot
          (by simp) (by simp [mine, unused])
      obtain ⟨more, old, filled, held⟩ := ih _ fewer next (by rw [applied]; exact known) kept rfl
      refine ⟨(.allocate name id, now) :: more, ?_, filled, fun y hy yactive => ?_⟩
      · rintro c (_ | ⟨_, hc⟩)
        · rfl
        · exact old c hc
      · refine held y ?_ yactive
        rw [applied]
        refine Store.mem_updateWhere.mpr ⟨y, hy, if_neg fun same => ?_⟩
        have same : y = slot := List.inj_on_of_nodup_map sound.keys hy hslot (by simpa using same)
        rw [same, unused] at yactive
        cases yactive

/-- Whatever pool a slot is of, some calls have it held, and take nothing from others. -/
theorem occupy (slots : s.SlotsSound) (pools : s.PoolsSound) (place : (key, host) ∈ s.places) :
    ∃ more : List (AllocatorCall × Instant), (∀ c ∈ more, c.1.addsPool = false) ∧
      (∃ x ∈ (applyAll more s).slots, x.active = true ∧ x.poolKey = key ∧ x.address = host) ∧
      ∀ y ∈ s.slots, y.active = true → y ∈ (applyAll more s).slots := by
  obtain ⟨x, hx, owner, -⟩ := Store.mem_places.mp place
  obtain ⟨pool, hp, same⟩ := pools.owned x hx
  obtain rfl : pool.key = key := same.trans owner
  -- The pool is switched on first.
  let on : Instant := default
  have there : s.pools.any (·.name == pool.name) = true :=
    List.any_eq_true.mpr ⟨pool, hp, by simp⟩
  have switched : apply (.setActive pool.name true) on s =
      (s.setPoolActive pool.name true).2 := by
    simp only [apply, Allocator.setActive, Store.setPoolActive, there, if_true, Except.map,
      committed]
  have next := (does_apply (.setActive pool.name true) on s).slotsSound slots
  rw [switched] at next
  have known : (s.setPoolActive pool.name true).2.poolByName? pool.name =
      some { pool with active := true } := by
    rw [Store.poolByName?_setPoolActive, pools.poolByName?_of_mem hp, Option.map_some]
  obtain ⟨more, old, filled, held⟩ := fill on next known rfl place
  refine ⟨(.setActive pool.name true, on) :: more, ?_, ?_, ?_⟩
  · rintro c (_ | ⟨_, hc⟩)
    · rfl
    · exact old c hc
  · simp only [applyAll, List.foldl_cons, switched]
    exact filled
  · simp only [applyAll, List.foldl_cons, switched]
    exact held

end AllocatorCall

/-- **An address is shared where pools overlap, and only there.** Two slots held by different VMs
have one address only if they are of two pools, each of whose networks has it. And an address that
two networks have, of pools there are, is one that some calls for other VMs, none of which makes a
pool, have two VMs hold; calls can do that with no other address. -/
theorem shared_iff_overlapping (calls : List (AllocatorCall × Instant)) :
    let s := AllocatorCall.applyAll calls .empty
    (∀ x ∈ s.slots, ∀ y ∈ s.slots, x.active = true → y.active = true → x.holder ≠ y.holder →
      x.address = y.address → x.poolKey ≠ y.poolKey) ∧
    ∀ host,
      (∃ more, (∀ c ∈ more, c.1.addsPool = false) ∧
        (AllocatorCall.applyAll (calls ++ more) .empty).Shares host) ↔
      ∃ p ∈ s.pools, ∃ q ∈ s.pools, p.key ≠ q.key ∧ p.Assigns host ∧ q.Assigns host := by
  intro s
  have all : ∀ more, AllocatorCall.applyAll (calls ++ more) .empty =
      AllocatorCall.applyAll more s := fun more => List.foldl_append
  obtain ⟨slots, pools⟩ : s.SlotsSound ∧ s.PoolsSound :=
    AllocatorCall.applyAll_sound calls Store.empty_slotsSound Store.empty_poolsSound
  refine ⟨fun x hx y hy _ _ holders address owner => ?_, fun host => ⟨?_, ?_⟩⟩
  · exact holders (pools.eq_of_place hx hy owner address ▸ rfl)
  · rintro ⟨more, old, x, hx, y, hy, -, -, holders, rfl, address⟩
    rw [all] at hx hy
    obtain ⟨-, later⟩ := AllocatorCall.applyAll_sound more slots pools
    -- A place afterwards is one from before, and so has its pool there.
    have pool : ∀ z ∈ (AllocatorCall.applyAll more s).slots,
        ∃ p ∈ s.pools, p.key = z.poolKey ∧ p.Assigns z.address := by
      intro z hz
      have place : (z.poolKey, z.address) ∈ s.places := by
        rw [← AllocatorCall.applyAll_places more slots old]
        exact Store.mem_places.mpr ⟨z, hz, rfl, rfl⟩
      obtain ⟨w, hw, owner, -⟩ := Store.mem_places.mp place
      obtain ⟨p, hp, key⟩ := pools.owned w hw
      have key : p.key = z.poolKey := key.trans owner
      exact ⟨p, hp, key, (pools.mem_places_iff hp).mp (key ▸ place)⟩
    obtain ⟨p, hp, pkey, passigns⟩ := pool x hx
    obtain ⟨q, hq, qkey, qassigns⟩ := pool y hy
    refine ⟨p, hp, q, hq, fun same => holders ?_, passigns, address ▸ qassigns⟩
    rw [later.eq_of_place hx hy (by rw [← pkey, ← qkey, same]) address.symm]
  · rintro ⟨p, hp, q, hq, other, passigns, qassigns⟩
    obtain ⟨first, old, ⟨x, hx, xactive, xkey, xaddress⟩, -⟩ :=
      AllocatorCall.occupy slots pools ((pools.mem_places_iff hp).mpr passigns)
    obtain ⟨slots', pools'⟩ := AllocatorCall.applyAll_sound first slots pools
    have place : (q.key, host) ∈ (AllocatorCall.applyAll first s).places := by
      rw [AllocatorCall.applyAll_places first slots old]
      exact (pools.mem_places_iff hq).mpr qassigns
    obtain ⟨second, old', ⟨y, hy, yactive, ykey, yaddress⟩, held⟩ :=
      AllocatorCall.occupy slots' pools' place
    obtain ⟨sound, -⟩ := AllocatorCall.applyAll_sound second slots' pools'
    refine ⟨first ++ second, fun c hc => ?_, x, ?_, y, ?_, xactive, yactive, fun same => ?_,
      xaddress, yaddress⟩
    · rcases List.mem_append.mp hc with hc | hc
      · exact old c hc
      · exact old' c hc
    · rw [all, AllocatorCall.applyAll, List.foldl_append]
      exact held x hx xactive
    · rw [all, AllocatorCall.applyAll, List.foldl_append]
      exact hy
    -- No VM holds two slots, and these are of two pools.
    · have one := sound.exclusive x (held x hx xactive) y hy xactive yactive same
      exact other (by rw [← xkey, ← ykey, one])

/-- Of two pools with overlapping networks two VMs are given the same address. -/
theorem overlapping_pools_share :
    let s := AllocatorCall.applyAll
      [(.createPool "a" "10.0.0.0/30" "10.0.0.1" none, ⟨1, 0⟩),
        (.createPool "b" "10.0.0.0/29" "10.0.0.1" none, ⟨2, 0⟩),
        (.allocate "a" "x", ⟨3, 0⟩),
        (.allocate "b" "y", ⟨4, 0⟩)] .empty
    s.addressOf "x" = some "10.0.0.2" ∧ s.addressOf "y" = some "10.0.0.2" := by
  intro s
  -- The pools are added by the lemma, as sorting the hosts of the second does not reduce.
  have small : PoolNetwork.read? "10.0.0.0/30" "10.0.0.1" =
      .ok ⟨⟨.ofNat 167772160, 30, by decide⟩, .ofNat 167772161⟩ := rfl
  have large : PoolNetwork.read? "10.0.0.0/29" "10.0.0.1" =
      .ok ⟨⟨.ofNat 167772160, 29, by decide⟩, .ofNat 167772161⟩ := rfl
  simp only [s, AllocatorCall.applyAll, List.foldl_cons, List.foldl_nil]
  rw [AllocatorCall.apply_createPool (by decide) small (by decide),
    AllocatorCall.apply_createPool (by decide) large (by decide)]
  decide +kernel

end VmFleet
