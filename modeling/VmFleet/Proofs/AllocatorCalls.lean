/-
The allocator under any sequence of calls from an empty store: what pools and
slots look like after it, and which call makes a free slot a held one. A call is
one transaction, made at any time; one that is refused changes nothing.
-/
import VmFleet.Proofs.AddressText
import VmFleet.Proofs.Slots

namespace VmFleet

namespace Store

/-- Pools have keys and names of their own and the next key is new, every slot is one of a stored
pool, and the slots of a pool are those of the network that its texts name. -/
structure PoolsSound (s : Store) : Prop where
  keys : (s.pools.map (·.key)).Nodup
  names : (s.pools.map (·.name)).Nodup
  fresh : ∀ pool ∈ s.pools, pool.key < s.nextPool
  owned : ∀ slot ∈ s.slots, ∃ pool ∈ s.pools, pool.key = slot.poolKey
  hosts : ∀ pool ∈ s.pools, ∃ network, PoolNetwork.read? pool.cidr pool.gateway = .ok network ∧
    (s.slotsOf pool.key).map (·.address) = network.hosts

variable {s s' : Store} {now : Instant} {name id : String} {pool : Pool} {slot : Slot}

theorem empty_poolsSound : Store.empty.PoolsSound where
  keys := List.nodup_nil
  names := List.nodup_nil
  fresh _ h := absurd h List.not_mem_nil
  owned _ h := absurd h List.not_mem_nil
  hosts _ h := absurd h List.not_mem_nil

theorem PoolsSound.poolByName?_of_mem (h : s.PoolsSound) (hp : pool ∈ s.pools) :
    s.poolByName? pool.name = some pool :=
  (find?_eq_some_iff_of_nodup _ h.names).mpr ⟨hp, rfl⟩

theorem PoolsSound.updateSlots (h : s.PoolsSound) {p : Slot → Bool} {f : Slot → Slot}
    (same : ∀ x ∈ s.slots, p x = true → (f x).poolKey = x.poolKey ∧ (f x).address = x.address) :
    ({ s with slots := updateWhere p f s.slots } : Store).PoolsSound where
  keys := h.keys
  names := h.names
  fresh := h.fresh
  owned slot hslot := by
    obtain ⟨x, hx, rfl⟩ := mem_updateWhere.mp hslot
    split
    · next hp => exact (same x hx hp).1 ▸ h.owned x hx
    · exact h.owned x hx
  hosts pool hpool := by
    obtain ⟨network, read, hosts⟩ := h.hosts pool hpool
    refine ⟨network, read, hosts ▸ map_filter_updateWhere _ fun x hx hp => ?_⟩
    obtain ⟨owner, address⟩ := same x hx hp
    exact ⟨by rw [owner], address⟩

theorem PoolsSound.release (h : s.PoolsSound) : (s.release now id).2.PoolsSound :=
  h.updateSlots fun _ _ _ => ⟨rfl, rfl⟩

theorem Granted.poolsSound (g : Granted s now name id pool slot s') (sound : s.SlotsSound)
    (h : s.PoolsSound) : s'.PoolsSound := by
  cases g with
  | again => exact h
  | @fresh _ free _ _ _ member _ _ =>
    refine h.updateSlots fun x hx hk => ?_
    have same : x = free := List.inj_on_of_nodup_map sound.keys hx member (by simpa using hk)
    subst same
    exact ⟨rfl, rfl⟩

/-! ## Activating and deactivating a pool -/

theorem PoolsSound.setPoolActive (h : s.PoolsSound) (active : Bool) :
    (s.setPoolActive name active).2.PoolsSound := by
  have read : ∀ {β : Type} (g : Pool → β), (∀ p : Pool, g { p with active := active } = g p) →
      (s.setPoolActive name active).2.pools.map g = s.pools.map g :=
    fun g same => map_updateWhere g fun p _ _ => same p
  -- A pool afterwards is one from before but for its switch.
  have origin : ∀ p ∈ (s.setPoolActive name active).2.pools, ∃ q ∈ s.pools,
      p.key = q.key ∧ p.cidr = q.cidr ∧ p.gateway = q.gateway := by
    intro p hp
    obtain ⟨q, hq, rfl⟩ := mem_updateWhere.mp hp
    exact ⟨q, hq, by split <;> exact ⟨rfl, rfl, rfl⟩⟩
  refine ⟨read (·.key) (fun _ => rfl) ▸ h.keys, read (·.name) (fun _ => rfl) ▸ h.names, ?_, ?_, ?_⟩
  · intro p hp
    obtain ⟨q, hq, key, -⟩ := origin p hp
    exact key ▸ h.fresh q hq
  · intro slot hslot
    obtain ⟨q, hq, key⟩ := h.owned slot hslot
    have kept : slot.poolKey ∈ (s.setPoolActive name active).2.pools.map (·.key) := by
      rw [read (·.key) fun _ => rfl]
      exact List.mem_map.mpr ⟨q, hq, key⟩
    exact List.mem_map.mp kept
  · intro p hp
    obtain ⟨q, hq, key, cidr, gateway⟩ := origin p hp
    rw [key, cidr, gateway]
    exact h.hosts q hq

/-! ## Adding a pool -/

theorem freeSlots_cons (poolKey first : Int) (a : Ipv4) (hosts : List Ipv4) :
    freeSlots poolKey first (a :: hosts) =
      ⟨first, poolKey, a, none, false, none, none⟩ :: freeSlots poolKey (first + 1) hosts := by
  have shift : ∀ i : Nat, first + ((i + 1 : Nat) : Int) = first + 1 + i := by omega
  simp only [freeSlots, List.mapIdx_cons, shift, Int.natCast_zero, Int.add_zero]

theorem mem_freeSlots {poolKey first : Int} {hosts : List Ipv4}
    (h : slot ∈ freeSlots poolKey first hosts) :
    slot.poolKey = poolKey ∧ slot.active = false ∧ first ≤ slot.key ∧
      slot.key < first + hosts.length := by
  induction hosts generalizing first with
  | nil => cases h
  | cons a hosts ih =>
    rw [freeSlots_cons] at h
    simp only [List.length_cons]
    rcases List.mem_cons.mp h with rfl | h
    · exact ⟨rfl, rfl, by simp only; omega, by simp only; omega⟩
    · obtain ⟨owner, free, lower, upper⟩ := ih h
      exact ⟨owner, free, by omega, by omega⟩

theorem freeSlots_keys (poolKey first : Int) (hosts : List Ipv4) :
    ((freeSlots poolKey first hosts).map (·.key)).Nodup := by
  induction hosts generalizing first with
  | nil => exact List.nodup_nil
  | cons a hosts ih =>
    rw [freeSlots_cons, List.map_cons, List.nodup_cons]
    refine ⟨?_, ih (first + 1)⟩
    intro hk
    obtain ⟨slot, hslot, key⟩ := List.mem_map.mp hk
    have := (mem_freeSlots hslot).2.2.1
    simp only at key
    omega

theorem freeSlots_addresses (poolKey first : Int) (hosts : List Ipv4) :
    (freeSlots poolKey first hosts).map (·.address) = hosts := by
  induction hosts generalizing first with
  | nil => rfl
  | cons a hosts ih => rw [freeSlots_cons, List.map_cons, ih]

theorem filter_freeSlots (poolKey first : Int) (hosts : List Ipv4) :
    (freeSlots poolKey first hosts).filter (·.poolKey == poolKey) =
      freeSlots poolKey first hosts := by
  rw [List.filter_eq_self]
  intro x hx
  rw [(mem_freeSlots hx).1, beq_self_eq_true]

theorem filter_freeSlots_of_ne {key poolKey : Int} (first : Int) (hosts : List Ipv4)
    (h : key ≠ poolKey) : (freeSlots poolKey first hosts).filter (·.poolKey == key) = [] := by
  rw [List.filter_eq_nil_iff]
  intro x hx
  rw [(mem_freeSlots hx).1, beq_iff_eq]
  exact h.symm

theorem find?_append_freeSlots (slots : List Slot) (poolKey first : Int) (hosts : List Ipv4)
    (id : String) :
    (slots ++ freeSlots poolKey first hosts).find? (fun x => x.holder == some id && x.active) =
      slots.find? fun x => x.holder == some id && x.active := by
  have none : (freeSlots poolKey first hosts).find? (fun x => x.holder == some id && x.active) =
      none := by
    rw [List.find?_eq_none]
    intro x hx
    simp [(mem_freeSlots hx).2.1]
  rw [List.find?_append, none, Option.or_none]

/-- In a sorted list equal addresses are neighbours. -/
theorem neighbours_differ_iff {l : List Ipv4} (sorted : l.Pairwise fun a b => a ≤ b) :
    ((l.zip l.tail).any fun (a, b) => a == b) = false ↔ l.Nodup := by
  induction l with
  | nil => simp
  | cons a l ih =>
    cases l with
    | nil => simp
    | cons b l =>
      obtain ⟨first, sorted⟩ := List.pairwise_cons.mp sorted
      have ih := ih sorted
      simp only [List.tail_cons] at ih ⊢
      rw [List.zip_cons_cons, List.any_cons, Bool.or_eq_false_iff, ih,
        List.nodup_cons (a := a), beq_eq_false_iff_ne]
      refine and_congr_left fun _ => ?_
      constructor
      · intro differ mem
        -- The first is at most the second, and the second at most all that follow.
        have low : b ≤ a := by
          rcases List.mem_cons.mp mem with rfl | later
          · exact absurd rfl differ
          · exact (List.pairwise_cons.mp sorted).1 a later
        exact differ (Ipv4.ext_value (Nat.le_antisymm (first b List.mem_cons_self) low))
      · intro new same
        exact new (List.mem_cons.mpr (.inl same))

theorem hasRepeat_eq_false_iff {hosts : List Ipv4} : hasRepeat hosts = false ↔ hosts.Nodup :=
  (neighbours_differ_iff (Ipv4.mergeSort_sorted id hosts)).trans
    (List.mergeSort_perm _ _).nodup_iff

theorem hasRepeat_of_not_nodup {hosts : List Ipv4} (h : ¬ hosts.Nodup) : hasRepeat hosts = true := by
  rwa [← Bool.not_eq_false, hasRepeat_eq_false_iff]

/-- A pool that was added has a new key and a name that no pool had, and brings a free slot for each
of its hosts. -/
theorem insertPool_ok {cidr gateway : String} {description : Option String} {hosts : List Ipv4}
    (h : s.insertPool now name cidr gateway description hosts = .ok (pool, s')) :
    s.poolByName? name = none ∧
      pool = ⟨s.nextPool, name, cidr, gateway, true, description, now.cutToMicros⟩ ∧
      s' = { s with
        pools := s.pools ++ [pool]
        slots := s.slots ++ freeSlots s.nextPool s.nextSlot hosts
        nextPool := s.nextPool + 1
        nextSlot := s.nextSlot + hosts.length } := by
  simp only [insertPool] at h
  split at h
  · cases h
  next unnamed =>
  split at h
  · cases h
  simp only [Except.ok.injEq, Prod.mk.injEq] at h
  obtain ⟨rfl, rfl⟩ := h
  exact ⟨by simpa using unnamed, rfl, rfl⟩

theorem SlotsSound.append_free (h : s.SlotsSound) (poolKey : Int) (hosts : List Ipv4)
    {pools : List Pool} {n : Int} :
    ({ s with
      pools := pools
      slots := s.slots ++ freeSlots poolKey s.nextSlot hosts
      nextPool := n
      nextSlot := s.nextSlot + hosts.length } : Store).SlotsSound := by
  -- None of the new slots is held.
  have old : ∀ x ∈ s.slots ++ freeSlots poolKey s.nextSlot hosts,
      x.active = true → x ∈ s.slots := by
    intro x hx active
    rcases List.mem_append.mp hx with hx | hx
    · exact hx
    · rw [(mem_freeSlots hx).2.1] at active
      cases active
  refine ⟨?_, ?_, fun x hx active => h.held x (old x hx active) active, ?_⟩
  · rw [List.map_append, List.nodup_append]
    refine ⟨h.keys, freeSlots_keys _ _ _, ?_⟩
    intro k hk l hl
    obtain ⟨x, hx, rfl⟩ := List.mem_map.mp hk
    obtain ⟨y, hy, rfl⟩ := List.mem_map.mp hl
    have := h.fresh x hx
    have := (mem_freeSlots hy).2.2.1
    omega
  · intro x hx
    rcases List.mem_append.mp hx with hx | hx
    · have := h.fresh x hx
      simp only
      omega
    · exact (mem_freeSlots hx).2.2.2
  · intro a ha b hb aactive bactive same
    exact h.exclusive a (old a ha aactive) b (old b hb bactive) aactive bactive same

theorem PoolsSound.append_pool (h : s.PoolsSound) {network : PoolNetwork} {n : Int}
    (unnamed : s.poolByName? pool.name = none) (key : pool.key = s.nextPool)
    (read : PoolNetwork.read? pool.cidr pool.gateway = .ok network) :
    ({ s with
      pools := s.pools ++ [pool]
      slots := s.slots ++ freeSlots s.nextPool s.nextSlot network.hosts
      nextPool := s.nextPool + 1
      nextSlot := n } : Store).PoolsSound := by
  have new : ∀ p ∈ s.pools, p.key ≠ s.nextPool := by
    intro p hp
    have := h.fresh p hp
    omega
  refine ⟨?_, ?_, ?_, ?_, ?_⟩
  · rw [List.map_append, List.nodup_append]
    refine ⟨h.keys, by simp, ?_⟩
    intro k hk l hl
    obtain ⟨p, hp, rfl⟩ := List.mem_map.mp hk
    rw [List.map_singleton, List.mem_singleton] at hl
    rw [hl, key]
    exact new p hp
  · rw [List.map_append, List.nodup_append]
    refine ⟨h.names, by simp, ?_⟩
    intro k hk l hl
    obtain ⟨p, hp, rfl⟩ := List.mem_map.mp hk
    rw [List.map_singleton, List.mem_singleton] at hl
    subst hl
    simpa using List.find?_eq_none.mp unnamed p hp
  · intro p hp
    rcases List.mem_append.mp hp with hp | hp
    · have := h.fresh p hp
      simp only
      omega
    · rw [List.mem_singleton.mp hp, key]
      simp only
      omega
  · intro slot hslot
    rcases List.mem_append.mp hslot with hslot | hslot
    · obtain ⟨p, hp, owner⟩ := h.owned slot hslot
      exact ⟨p, List.mem_append_left _ hp, owner⟩
    · refine ⟨pool, by simp, ?_⟩
      rw [(mem_freeSlots hslot).1, key]
  · intro p hp
    simp only [slotsOf, List.filter_append, List.map_append]
    rcases List.mem_append.mp hp with hp | hp
    · -- The new slots are of another pool.
      obtain ⟨network', read', hosts⟩ := h.hosts p hp
      rw [filter_freeSlots_of_ne _ _ (new p hp), List.map_nil, List.append_nil]
      exact ⟨network', read', hosts⟩
    · -- No slot that was there is of the new pool.
      rw [List.mem_singleton.mp hp, key]
      have before : s.slots.filter (·.poolKey == s.nextPool) = [] := by
        rw [List.filter_eq_nil_iff]
        intro x hx
        obtain ⟨q, hq, owner⟩ := h.owned x hx
        rw [← owner, beq_iff_eq]
        exact new q hq
      rw [before, filter_freeSlots, List.map_nil, List.nil_append, freeSlots_addresses]
      exact ⟨network, read, rfl⟩

end Store

/-! ## Sequences of calls -/

/-- A call of a client to the allocator that may change the store. -/
inductive AllocatorCall where
  | createPool (name cidr gateway : String) (description : Option String)
  | setActive (pool : String) (active : Bool)
  | allocate (pool vmId : String)
  | release (vmId : String)
  deriving DecidableEq, Repr

namespace AllocatorCall

/-- The store that a write leaves, which is the one it found if it was refused. -/
def committed {α : Type} (s : Store) : Except Error (α × Store) → Store
  | .ok (_, s') => s'
  | .error _ => s

def apply (call : AllocatorCall) (now : Instant) (s : Store) : Store :=
  match call with
  | .createPool name cidr gateway description =>
    committed s (Allocator.createPool s now name cidr gateway description)
  | .setActive pool active => committed s ((Allocator.setActive s pool active).map ((), ·))
  | .allocate pool vmId => committed s (Allocator.allocate s now pool vmId)
  | .release vmId => (Allocator.release s now vmId).2

/-- The store after calls one after the other, each with the time it is made at. -/
def applyAll (calls : List (AllocatorCall × Instant)) (s : Store) : Store :=
  calls.foldl (fun s (call, now) => call.apply now s) s

/-- What one call does to the slots and the pools: it adds a pool of a network with a free slot for
each host, switches a pool, has a VM granted a slot, takes slots back, or does nothing. -/
inductive Does (s : Store) (now : Instant) : AllocatorCall → Store → Prop
  | refused {call} : Does s now call s
  | created {name cidr gateway description} {network : PoolNetwork} {pool s'}
      (read : PoolNetwork.read? network.subnet.text network.gateway.text = .ok network)
      (stored : s.insertPool now name network.subnet.text network.gateway.text description
        network.hosts = .ok (pool, s')) :
      Does s now (.createPool name cidr gateway description) s'
  | switched {name active} : Does s now (.setActive name active) (s.setPoolActive name active).2
  | granted {name id pool slot s'} (grant : Store.Granted s now name id pool slot s') :
      Does s now (.allocate name id) s'
  | released {id} : Does s now (.release id) (s.release now id).2

variable {s s' : Store} {now : Instant} {call : AllocatorCall} {slot : Slot}

theorem does_apply (call : AllocatorCall) (now : Instant) (s : Store) :
    Does s now call (call.apply now s) := by
  cases call with
  | createPool name cidr gateway description =>
    simp only [apply, Allocator.createPool]
    split
    · exact .refused
    split
    · exact .refused
    next network read =>
    cases stored : s.insertPool now name network.subnet.text network.gateway.text description
      network.hosts with
    | error e => exact .refused
    | ok r => exact .created (PoolNetwork.read?_text read) stored
  | setActive name active =>
    simp only [apply, Allocator.setActive]
    split
    · exact .switched
    · exact .refused
  | allocate name id =>
    simp only [apply]
    cases granted : Allocator.allocate s now name id with
    | error e => exact .refused
    | ok r =>
      obtain ⟨allocation, s'⟩ := r
      obtain ⟨pool, slot, grant, -⟩ := Allocator.allocate_granted granted
      exact .granted grant
  | release id => exact .released

/-- A pool with a name that is new is added, as the hosts of a network all differ. -/
theorem apply_createPool {name cidr gateway : String} {description : Option String}
    {network : PoolNetwork} (named : (Text.trimChars name.toList).isEmpty = false)
    (read : PoolNetwork.read? cidr gateway = .ok network) (unused : s.poolByName? name = none) :
    apply (.createPool name cidr gateway description) now s = { s with
      pools := s.pools ++ [⟨s.nextPool, name, network.subnet.text, network.gateway.text, true,
        description, now.cutToMicros⟩]
      slots := s.slots ++ Store.freeSlots s.nextPool s.nextSlot network.hosts
      nextPool := s.nextPool + 1
      nextSlot := s.nextSlot + network.hosts.length } := by
  have distinct := Store.hasRepeat_eq_false_iff.mpr network.hosts_nodup
  simp only [apply, Allocator.createPool, Store.insertPool, named, read, unused, distinct,
    Option.isSome_none, Bool.false_eq_true, if_false, committed]

theorem Does.slotsSound (h : Does s now call s') (sound : s.SlotsSound) : s'.SlotsSound := by
  cases h with
  | refused => exact sound
  | created read stored =>
    obtain ⟨-, rfl, rfl⟩ := Store.insertPool_ok stored
    exact sound.append_free _ _
  | switched => exact sound.congr rfl rfl
  | granted grant => exact grant.slotsSound sound
  | released => exact sound.release

theorem Does.poolsSound (h : Does s now call s') (slots : s.SlotsSound) (sound : s.PoolsSound) :
    s'.PoolsSound := by
  cases h with
  | refused => exact sound
  | created read stored =>
    obtain ⟨unnamed, rfl, rfl⟩ := Store.insertPool_ok stored
    exact sound.append_pool unnamed rfl read
  | switched => exact sound.setPoolActive _
  | granted grant => exact grant.poolsSound slots sound
  | released => exact sound.release

theorem applyAll_sound (calls : List (AllocatorCall × Instant)) (slots : s.SlotsSound)
    (pools : s.PoolsSound) : (applyAll calls s).SlotsSound ∧ (applyAll calls s).PoolsSound := by
  induction calls generalizing s with
  | nil => exact ⟨slots, pools⟩
  | cons call rest ih =>
    have does := does_apply call.1 call.2 s
    exact ih (does.slotsSound slots) (does.poolsSound slots pools)

/-- A slot held after a call was held before it, or it was free and the call had it allocated from
the pool it names, which was active. -/
theorem Does.held_origin (h : Does s now call s') (hslot : slot ∈ s'.slots)
    (active : slot.active = true) :
    slot ∈ s.slots ∨ ∃ name id pool free, call = .allocate name id ∧
      s.poolByName? name = some pool ∧ pool.active = true ∧ free ∈ s.slots ∧
      free.active = false ∧ free.poolKey = pool.key ∧ slot = Store.taken free id now := by
  cases h with
  | refused => exact .inl hslot
  | created read stored =>
    obtain ⟨-, -, rfl⟩ := Store.insertPool_ok stored
    rcases List.mem_append.mp hslot with hslot | hslot
    · exact .inl hslot
    · rw [(Store.mem_freeSlots hslot).2.1] at active
      cases active
  | switched => exact .inl hslot
  | granted grant =>
    cases grant with
    | again => exact .inl hslot
    | fresh known poolActive _ member owner unheld =>
      obtain ⟨x, hx, rfl⟩ := Store.mem_updateWhere.mp hslot
      split at active
      · next hk =>
        rw [if_pos hk]
        exact .inr ⟨_, _, _, _, rfl, known, poolActive, member, unheld, owner, rfl⟩
      · next hk =>
        rw [if_neg hk]
        exact .inl hx
  | released =>
    obtain ⟨x, hx, rfl⟩ := Store.mem_updateWhere.mp hslot
    split at active
    · cases active
    · next hp =>
      rw [if_neg hp]
      exact .inl hx

end AllocatorCall

namespace Store

variable {s : Store} {pool : Pool}

theorem PoolsSound.stats (h : s.PoolsSound) (hp : pool ∈ s.pools) :
    ∃ stats, Allocator.stats s pool.name = .ok stats ∧
      stats.total = (s.slotsOf pool.key).length ∧
      stats.allocated = ((s.slotsOf pool.key).filter (·.active)).length ∧
      stats.allocated ≤ stats.total ∧ stats.available + stats.allocated = stats.total := by
  have fits : (s.slotsOf pool.key).countP (·.active) ≤ (s.slotsOf pool.key).length :=
    List.countP_le_length
  refine ⟨.of pool (s.poolCounts pool.key).1 (s.poolCounts pool.key).2, ?_, rfl, ?_, fits, ?_⟩
  · simp only [Allocator.stats, Allocator.findPool, h.poolByName?_of_mem hp, Except.map]
  · exact List.countP_eq_length_filter
  · exact Nat.sub_add_cancel fits

theorem SlotsSound.length_held_le (h : s.SlotsSound) (id : String) :
    (s.slots.filter fun slot => slot.holder == some id && slot.active).length ≤ 1 := by
  cases found : s.activeSlot? id with
  | none =>
    have none : s.slots.filter (fun slot => slot.holder == some id && slot.active) = [] := by
      simpa [activeSlot?, List.filter_eq_nil_iff] using found
    simp [none]
  | some slot => simp [h.filter_held found]

end Store

/-- **Pools and slots after any calls.** Every pool has one slot for each assignable host of the
network its texts name, and no slot is without its pool; a held slot has a holder, the time since
when it is held and no time of release; no VM holds two, of one pool or of two; the counts of a pool
are those of its slots. And whatever the next call is, a slot becomes held only where the call has
an address allocated from that slot's pool, by name, while the pool is active. -/
theorem allocator_invariant (calls : List (AllocatorCall × Instant)) :
    let s := AllocatorCall.applyAll calls .empty
    ((s.pools.map (·.key)).Nodup ∧ (s.slots.map (·.key)).Nodup) ∧
    (∀ pool ∈ s.pools, ∃ network stats,
      PoolNetwork.read? pool.cidr pool.gateway = .ok network ∧
      network.hosts.Nodup ∧ (s.slotsOf pool.key).map (·.address) = network.hosts ∧
      Allocator.stats s pool.name = .ok stats ∧
      stats.total = network.hosts.length ∧
      stats.allocated = ((s.slotsOf pool.key).filter (·.active)).length ∧
      stats.allocated ≤ stats.total ∧ stats.available + stats.allocated = stats.total) ∧
    (∀ slot ∈ s.slots, ∃ pool ∈ s.pools, pool.key = slot.poolKey) ∧
    (∀ slot ∈ s.slots, slot.active = true →
      slot.holder.isSome ∧ slot.allocatedAt.isSome ∧ slot.releasedAt = none) ∧
    (∀ id, (s.slots.filter fun slot => slot.holder == some id && slot.active).length ≤ 1) ∧
    ∀ call now, ∀ slot ∈ (AllocatorCall.apply call now s).slots, slot.active = true →
      slot ∈ s.slots ∨ ∃ name id pool free, call = .allocate name id ∧
        s.poolByName? name = some pool ∧ pool.active = true ∧ free ∈ s.slots ∧
        free.active = false ∧ free.poolKey = pool.key ∧ slot = Store.taken free id now := by
  intro s
  obtain ⟨slots, pools⟩ : s.SlotsSound ∧ s.PoolsSound :=
    AllocatorCall.applyAll_sound calls Store.empty_slotsSound Store.empty_poolsSound
  refine ⟨⟨pools.keys, slots.keys⟩, ?_, pools.owned, slots.held, slots.length_held_le, ?_⟩
  · intro pool hp
    obtain ⟨network, read, hosts⟩ := pools.hosts pool hp
    obtain ⟨stats, reported, total, allocated, fits, sum⟩ := pools.stats hp
    have size : (s.slotsOf pool.key).length = network.hosts.length := by
      rw [← hosts, List.length_map]
    exact ⟨network, stats, read, network.hosts_nodup, hosts, reported, total.trans size, allocated,
      fits, sum⟩
  · intro call now slot hslot active
    exact (AllocatorCall.does_apply call now s).held_origin hslot active

end VmFleet
